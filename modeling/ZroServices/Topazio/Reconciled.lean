import ZroServices.Topazio.PixStatements

/-!
# Topazio — no credit is missed

A credit that the PSP lists is *covered* when it was received or recorded as failed, or is on a page
in redis.  An update that ends covers every day from that of the cursor to the current one, and a sync
makes received or recorded what is covered — if no translation raises, for what raises there is
dropped with its page.  So no credit is missed by runs whose syncs drop nothing
(`reconciled_of_kept`).

The pages before that of the cursor are not read again.  They are covered as the cursor moves, and what
is stored when the first execution begins has to be covered by then.
-/

namespace ZroServices.Topazio

open Foundation

variable {config : Config} {w : World} {s : Statement} {day : ℤ} {page : ℕ}

/-! ### What is promised -/

namespace World

variable (w : World)

/-- The transaction was received by pix-payments, or recorded as failed. -/
def Handled (id : String) : Prop :=
  (∃ r ∈ w.received, r.id = id) ∨ ∃ f ∈ w.failed, f.transactionId = id

/-- The first day of an update. -/
def firstDay : ℤ := w.currentPage.elim (localDay w.now) PixStatementCurrentPage.createdDate

instance (id : String) : Decidable (w.Handled id) := inferInstanceAs (Decidable (_ ∨ _))

end World

/-- After an update and a sync that end, what the PSP had listed when the update began, of the days
that it is for, was received or recorded. -/
def Reconciled (config : Config) (w : World) (ls : List Step) : Prop :=
  ∀ ms more us calls, ms ++ [.update more] ++ us ++ [.sync calls] <+: ls →
    ((run (step config) w ms).update config none more).2 = true →
    ((run (step config) w (ms ++ [.update more] ++ us)).sync config calls).2 = true →
    ∀ day s, (day, s) ∈ (run (step config) w ms).listed → s.IsCredit config →
      (run (step config) w ms).firstDay ≤ day → day ≤ localDay (run (step config) w ms).now →
      (run (step config) w (ms ++ [.update more] ++ us ++ [.sync calls])).Handled s.transactionId

/-- No credit is dropped.  An update does not begin with the day, so that it is for that day too; what
raises in a sync is translated and written; and no page is gone before its credits are handled. -/
def Kept (config : Config) (w : World) : Step → Prop
  | .update _ => w.firstDay < localDay w.now → w.now ≠ dayStart (localDay w.now)
  | .sync calls =>
      (∀ e ∈ w.credits config, w.Handled e.2.transactionId ∨ (calls.receive e.1 e.2).isOk ∨
        (calls.translate e.1 e.2).isSome) ∧ (w.sync config calls).2 = true
  | .list _ => True
  | .tick ms => ∀ p ∈ w.getAll, p.Alive (w.now + ms) ∨
      ∀ s ∈ p.statements, s.IsCredit config → w.Handled s.transactionId

instance (l : Step) : Decidable (Kept config w l) :=
  match l with
  | .update _ => inferInstanceAs (Decidable (_ → _))
  | .sync _ => inferInstanceAs (Decidable (_ ∧ _))
  | .list _ => inferInstanceAs (Decidable True)
  | .tick _ => inferInstanceAs (Decidable (∀ p ∈ _, _))

/-! ### What is covered -/

/-- A statement was handled, or is on a page in redis. -/
def Covered (w : World) (s : Statement) : Prop :=
  w.Handled s.transactionId ∨ ∃ p ∈ w.getAll, s ∈ p.statements

/-- The pages of a day that come before a page are full, and their credits covered. -/
structure Before (config : Config) (w : World) (day : ℤ) (page : ℕ) : Prop where
  full : (page - 1) * pageSize ≤ (listedOn w.listed day).length
  covered : ∀ s ∈ (listedOn w.listed day).take ((page - 1) * pageSize), s.IsCredit config →
    Covered w s

structure Sound (config : Config) (w : World) : Prop where
  pages : ∀ p ∈ w.pages.rows, ∀ s ∈ p.statements, s ∈ getStatement w.listed p.createdDate p.page
  cursor : ∀ c ∈ w.currentPage, Before config w c.createdDate c.actualPage

theorem mem_getAll {p : PixStatement} : p ∈ w.getAll ↔ p ∈ w.pages.rows ∧ p.Alive w.now := by
  rw [World.getAll, List.mem_filter, decide_eq_true_eq]

theorem mem_credits {p : PixStatement} :
    (p, s) ∈ w.credits config ↔ p ∈ w.getAll ∧ s ∈ p.statements ∧ s.IsCredit config := by
  simp only [World.credits, List.mem_flatMap, List.mem_map, List.mem_filter, decide_eq_true_eq,
    Prod.mk.injEq]
  constructor
  · rintro ⟨q, hq, t, ⟨ht, hcredit⟩, rfl, rfl⟩
    exact ⟨hq, ht, hcredit⟩
  · rintro ⟨hp, hs, hcredit⟩
    exact ⟨p, hp, s, ⟨hs, hcredit⟩, rfl, rfl⟩

theorem listedOn_append (l more : List (ℤ × Statement)) (day : ℤ) :
    listedOn (l ++ more) day = listedOn l day ++ listedOn more day := by
  rw [listedOn, List.filter_append, List.map_append]
  rfl

theorem mem_listedOn {l : List (ℤ × Statement)} : s ∈ listedOn l day ↔ (day, s) ∈ l := by
  simp only [listedOn, List.mem_map, List.mem_filter, decide_eq_true_eq]
  constructor
  · rintro ⟨⟨d, t⟩, ⟨hmem, rfl⟩, rfl⟩
    exact hmem
  · exact fun hmem => ⟨(day, s), ⟨hmem, rfl⟩, rfl⟩

/-- A page keeps what it has. -/
theorem mem_getStatement_append {l : List (ℤ × Statement)} (more : List (ℤ × Statement))
    (h : s ∈ getStatement l day page) : s ∈ getStatement (l ++ more) day page := by
  rw [getStatement, listedOn_append, List.drop_append, List.take_append]
  exact List.mem_append_left _ h

/-! ### An update -/

/-- The PSP lists more. -/
theorem Before.list (h : Before config w day page) (more : List (ℤ × Statement)) :
    Before config { w with listed := w.listed ++ more } day page where
  full := by
    rw [listedOn_append, List.length_append]
    exact Nat.le_trans h.full (Nat.le_add_right _ _)
  covered s hs := by
    rw [listedOn_append, List.take_append_of_le_length h.full] at hs
    exact h.covered s hs

theorem Sound.list (h : Sound config w) (more : List (ℤ × Statement)) :
    Sound config { w with listed := w.listed ++ more } where
  pages p hp s hs := mem_getStatement_append more (h.pages p hp s hs)
  cursor c hc := (h.cursor c hc).list more

/-- The world after a page was stored. -/
def World.store (w : World) (config : Config) (day : ℤ) (page : ℕ) : World := { w with
  pages := w.pages.upsert
    ⟨day, page, getStatement w.listed day page, expiry w.now config.ttl⟩
  currentPage := some ⟨page, day⟩ }

theorem le_expiry (now : ℤ) (ttl : ℕ) : ∀ t ∈ expiry now ttl, now ≤ t := by
  intro t ht
  rw [expiry] at ht
  split at ht
  · cases ht
  · obtain rfl := Option.some.inj ht
    exact Int.le_add_of_nonneg_right (Int.natCast_nonneg ttl)

theorem covered_store_page (hs : s ∈ getStatement w.listed day page) :
    Covered (w.store config day page) s :=
  .inr ⟨_, mem_getAll.mpr ⟨Table.mem_upsert.mpr (.inr rfl), le_expiry _ _⟩, hs⟩

theorem Covered.store (h : Covered w s) (hsound : Sound config w) (day : ℤ) (page : ℕ) :
    Covered (w.store config day page) s := by
  rcases h with hhandled | ⟨p, hp, hs⟩
  · exact .inl hhandled
  obtain ⟨hrow, halive⟩ := mem_getAll.mp hp
  by_cases hkey : Keyed.key p = (day, page)
  · have hmem := hsound.pages p hrow s hs
    obtain ⟨rfl, rfl⟩ := Prod.mk.inj hkey
    exact covered_store_page hmem
  · exact .inr ⟨p, mem_getAll.mpr ⟨Table.mem_upsert.mpr (.inl ⟨hrow, hkey⟩), halive⟩, hs⟩

theorem Before.store (h : Before config w day page) (hsound : Sound config w) (day' : ℤ)
    (page' : ℕ) : Before config (w.store config day' page') day page where
  full := h.full
  covered s hs hcredit := (h.covered s hs hcredit).store hsound day' page'

theorem Sound.store (h : Sound config w) (hbefore : Before config w day page) :
    Sound config (w.store config day page) where
  pages p hp s hs := by
    rcases Table.mem_upsert.mp hp with ⟨hp, -⟩ | rfl
    · exact h.pages p hp s hs
    · exact hs
  cursor c hc := by
    obtain rfl := Option.some.inj hc
    exact hbefore.store h day page

/-- A full page leads to the next. -/
theorem Before.next (h : Before config w day page)
    (hpage : ∀ s ∈ getStatement w.listed day page, Covered w s)
    (hfull : pageSize ≤ (getStatement w.listed day page).length) :
    Before config w day (page + 1) := by
  cases page with
  | zero => exact ⟨Nat.zero_le _, fun s hs => absurd hs List.not_mem_nil⟩
  | succ n =>
      have hlen : n * pageSize + pageSize ≤ (listedOn w.listed day).length := by
        rw [getStatement, List.length_take, List.length_drop] at hfull
        have hbound := h.full
        simp only [Nat.add_sub_cancel] at hfull hbound
        omega
      have hsum : (n + 1 + 1 - 1) * pageSize = n * pageSize + pageSize := by
        rw [Nat.add_sub_cancel, Nat.succ_mul]
      refine ⟨hsum ▸ hlen, fun s hs hcredit => ?_⟩
      rw [hsum, List.take_add] at hs
      rcases List.mem_append.mp hs with hs | hs
      · exact h.covered s hs hcredit
      · exact hpage s hs

/-- A page that is not full is the last one of the day. -/
theorem Before.last (h : Before config w day page)
    (hpage : ∀ s ∈ getStatement w.listed day page, Covered w s)
    (hshort : (getStatement w.listed day page).length < pageSize) :
    ∀ s ∈ listedOn w.listed day, s.IsCredit config → Covered w s := by
  intro s hs hcredit
  rw [← List.take_append_drop ((page - 1) * pageSize) (listedOn w.listed day)] at hs
  rcases List.mem_append.mp hs with hs | hs
  · exact h.covered s hs hcredit
  · refine hpage s ?_
    rw [getStatement, List.length_take] at hshort
    rwa [getStatement, List.take_of_length_le (by omega)]

theorem before_first (config : Config) (w : World) (day : ℤ) : Before config w day 1 :=
  ⟨Nat.zero_le _, fun _ hs => absurd hs List.not_mem_nil⟩

/-- What an update that goes through `dates` leaves. -/
structure Updated (config : Config) (w : World) (dates : List ℤ) (r : World × Bool) : Prop where
  sound : Sound config r.1
  keeps : ∀ s, Covered w s → Covered r.1 s
  covers : r.2 = true → ∀ date ∈ dates, ∀ s ∈ listedOn w.listed (localDay date),
    s.IsCredit config → Covered r.1 s

/-- The day of the first date was gone through, and the rest is. -/
theorem Updated.cons {w' : World} {date : ℤ} {dates : List ℤ} {r : World × Bool}
    (h : Updated config w' dates r) (hkeeps : ∀ s, Covered w s → Covered w' s)
    (hlisted : ∀ day, ∀ s ∈ listedOn w.listed day, s ∈ listedOn w'.listed day)
    (hday : ∀ s ∈ listedOn w'.listed (localDay date), s.IsCredit config → Covered w' s) :
    Updated config w (date :: dates) r where
  sound := h.sound
  keeps s hs := h.keeps s (hkeeps s hs)
  covers hends d hd s hs hcredit := by
    rcases List.mem_cons.mp hd with rfl | hd
    · exact h.keeps s (hday s (hlisted _ s hs) hcredit)
    · exact h.covers hends d hd s (hlisted _ s hs) hcredit

theorem updated_updatePages {more : List (List (ℤ × Statement))} {dates : List ℤ}
    (h : Sound config w)
    (hbefore : ∀ date ∈ dates.head?, Before config w (localDay date) page) :
    Updated config w dates (updatePages config none w more dates page) := by
  induction more generalizing w dates page with
  | nil =>
      cases dates with
      | nil =>
          rw [updatePages]
          exact ⟨h, fun _ hs => hs, fun _ _ hd => absurd hd List.not_mem_nil⟩
      | cons date dates =>
          rw [updatePages]
          exact ⟨h, fun _ hs => hs, fun hends => Bool.noConfusion hends⟩
  | cons m more ih =>
      cases dates with
      | nil =>
          rw [updatePages]
          exact ⟨h, fun _ hs => hs, fun _ _ hd => absurd hd List.not_mem_nil⟩
      | cons date dates =>
          have hsound := h.list m
          have hhead := (hbefore date rfl).list m
          have hlisted : ∀ day, ∀ s ∈ listedOn w.listed day, s ∈ listedOn (w.listed ++ m) day := by
            intro day s hs
            rw [listedOn_append]
            exact List.mem_append_left _ hs
          rw [updatePages]
          dsimp only [Option.elim_none]
          split
          · next hempty =>
            refine (ih hsound fun d _ => before_first _ _ _).cons (fun _ hs => hs) hlisted ?_
            refine hhead.last (fun s hs => ?_) ?_
            · rw [hempty] at hs
              cases hs
            · rw [hempty]
              decide
          have hstored := hsound.store hhead
          have hpage : ∀ s ∈ getStatement (w.listed ++ m) (localDay date) page,
              Covered (World.store { w with listed := w.listed ++ m } config (localDay date) page) s :=
            fun s hs => covered_store_page hs
          have hkeeps : ∀ s, Covered w s →
              Covered (World.store { w with listed := w.listed ++ m } config (localDay date) page) s :=
            fun s hs => Covered.store (w := { w with listed := w.listed ++ m }) hs hsound _ _
          split
          · next hfull =>
            have hnext := (hhead.store hsound (localDay date) page).next hpage hfull
            have hrest := ih hstored fun d (hd : (date :: dates).head? = some d) => by
              rwa [← Option.some.inj hd]
            refine ⟨hrest.sound, fun s hs => hrest.keeps s (hkeeps s hs),
              fun hends d hd s hs hcredit => ?_⟩
            exact hrest.covers hends d hd s (hlisted _ s hs) hcredit
          · next hshort =>
            refine (ih hstored fun d _ => before_first _ _ _).cons hkeeps hlisted ?_
            exact (hhead.store hsound _ _).last hpage (Nat.not_le.mp hshort)

theorem localDay_dayStart (day k : ℤ) : localDay (dayStart day + k * msPerDay) = day + k := by
  rw [localDay, dayStart, msPerDay]
  omega

/-- The days of an update are all up to the current one, when it does not begin with that. -/
theorem mem_getIntervalDates {first now : ℤ} (hfirst : first ≤ day) (hday : day ≤ localDay now)
    (hnow : first < localDay now → now ≠ dayStart (localDay now)) :
    ∃ date ∈ getIntervalDates (dayStart first) now, localDay date = day := by
  rcases Int.lt_or_eq_of_le hfirst with hlt | rfl
  · refine ⟨dayStart first + (day - first) * msPerDay, List.mem_cons_of_mem _ ?_, ?_⟩
    · refine List.mem_map.mpr ⟨(day - first - 1).toNat, List.mem_range.mpr ?_, ?_⟩
      · have hne := hnow (Int.lt_of_lt_of_le hlt hday)
        simp only [localDay, dayStart, msPerDay, midnight] at hday hne ⊢
        omega
      · simp only [msPerDay]
        omega
    · rw [localDay_dayStart]
      omega
  · refine ⟨dayStart first, List.mem_cons_self, ?_⟩
    simpa using localDay_dayStart first 0

theorem updated_update (h : Sound config w) (more : List (List (ℤ × Statement))) :
    ∃ dates, Updated config w dates (w.update config none more) ∧
      ∀ day, Kept config w (.update more) → w.firstDay ≤ day → day ≤ localDay w.now →
        ∃ date ∈ dates, localDay date = day := by
  rw [World.update]
  cases hc : w.currentPage with
  | none =>
      refine ⟨_, updated_updatePages h fun _ _ => before_first _ _ _, fun day _ hfirst hday => ?_⟩
      rw [World.firstDay, hc] at hfirst
      exact ⟨w.now, List.mem_cons_self, Int.le_antisymm hfirst hday⟩
  | some c =>
      refine ⟨_, updated_updatePages h fun date hd => ?_, fun day hkept hfirst hday => ?_⟩
      · obtain rfl := Option.some.inj hd
        have hlocal : localDay (dayStart c.createdDate) = c.createdDate := by
          simpa using localDay_dayStart c.createdDate 0
        rw [hlocal]
        exact h.cursor c hc
      · rw [World.firstDay, hc] at hfirst
        rw [Kept, World.firstDay, hc] at hkept
        exact mem_getIntervalDates hfirst hday hkept

/-! ### A sync -/

theorem Handled.sync {id : String} (h : w.Handled id) (calls : Calls) :
    (w.sync config calls).1.Handled id := by
  rcases h with ⟨r, hr, hid⟩ | ⟨f, hf, hid⟩
  · exact .inl ⟨r, List.mem_append_left _ hr, hid⟩
  · exact .inr ⟨f, List.mem_append_left _ hf, hid⟩

/-- A sync that drops nothing handles what is covered. -/
theorem Covered.sync (h : Covered w s) (hcredit : s.IsCredit config) {calls : Calls}
    (hkept : Kept config w (.sync calls)) : (w.sync config calls).1.Handled s.transactionId := by
  rcases h with hhandled | ⟨p, hp, hs⟩
  · exact Handled.sync hhandled calls
  have hmem : (p, s) ∈ w.credits config := mem_credits.mpr ⟨hp, hs, hcredit⟩
  obtain ⟨hanswers, hends⟩ := hkept
  rcases hanswers (p, s) hmem with hhandled | hok | hmessage
  · exact Handled.sync hhandled calls
  · refine .inl ⟨s.received, List.mem_append_right _ ?_, ?_⟩
    · exact List.mem_filterMap.mpr ⟨(p, s), hmem, if_pos hok⟩
    · rw [Statement.received]
      split <;> rfl
  · cases hreceive : calls.receive p s with
    | ok u =>
        refine .inl ⟨s.received, List.mem_append_right _ ?_, ?_⟩
        · exact List.mem_filterMap.mpr ⟨(p, s), hmem, if_pos (by rw [hreceive]; rfl)⟩
        · rw [Statement.received]
          split <;> rfl
    | error code =>
        obtain ⟨message, hmessage⟩ := Option.isSome_iff_exists.mp hmessage
        have hfailed : ⟨s.transactionId, code, message⟩ ∈ w.failedStatements config calls := by
          refine List.mem_filterMap.mpr ⟨(p, s), hmem, ?_⟩
          simp only [hreceive, hmessage, Option.map_some]
        refine .inr ⟨⟨s.transactionId, code, message⟩, List.mem_append_right _ ?_, rfl⟩
        rwa [List.take_of_length_le (of_decide_eq_true hends)]

theorem Sound.sync (h : Sound config w) {calls : Calls} (hkept : Kept config w (.sync calls)) :
    Sound config (w.sync config calls).1 where
  pages p hp s hs := by
    rcases Table.mem_setAll hp with ⟨hp, -⟩ | hp
    · exact h.pages p hp s hs
    · obtain ⟨q, hq, rfl⟩ := List.mem_map.mp hp
      exact h.pages q (mem_getAll.mp hq).1 s hs
  cursor c hc :=
    ⟨(h.cursor c hc).full, fun s hs hcredit =>
      .inl (((h.cursor c hc).covered s hs hcredit).sync hcredit hkept)⟩

/-! ### A run -/

theorem Covered.tick (h : Covered w s) (hcredit : s.IsCredit config) {ms : ℕ}
    (hkept : Kept config w (.tick ms)) : Covered { w with now := w.now + ms } s := by
  rcases h with hhandled | ⟨p, hp, hs⟩
  · exact .inl hhandled
  rcases hkept p hp with halive | hhandled
  · exact .inr ⟨p, mem_getAll.mpr ⟨(mem_getAll.mp hp).1, halive⟩, hs⟩
  · exact .inl (hhandled s hs hcredit)

/-- A step that drops nothing keeps covered what is. -/
theorem Covered.step (h : Covered w s) (hsound : Sound config w) (hcredit : s.IsCredit config)
    {l : Step} (hkept : Kept config w l) : Covered (Topazio.step config w l) s := by
  cases l with
  | update more =>
      obtain ⟨dates, hupdated, -⟩ := updated_update hsound more
      exact hupdated.keeps s h
  | sync calls => exact .inl (h.sync hcredit hkept)
  | list more => exact h
  | tick ms => exact h.tick hcredit hkept

theorem Sound.step (h : Sound config w) {l : Step} (hkept : Kept config w l) :
    Sound config (Topazio.step config w l) := by
  cases l with
  | update more =>
      obtain ⟨dates, hupdated, -⟩ := updated_update h more
      exact hupdated.sound
  | sync calls => exact h.sync hkept
  | list more => exact h.list more
  | tick ms =>
      refine ⟨h.pages, fun c hc => ⟨(h.cursor c hc).full, fun s hs hcredit => ?_⟩⟩
      exact ((h.cursor c hc).covered s hs hcredit).tick hcredit hkept

/-- No credit is missed by a run that drops none, when no page is in redis at first and the pages
before that of the cursor are full and handled. -/
theorem reconciled_of_kept (config : Config) (w : World) (ls : List Step)
    (hpages : w.pages = Table.empty) (hcursor : ∀ c ∈ w.currentPage,
      Before config w c.createdDate c.actualPage)
    (hkept : Along (step config) (Kept config) w ls) : Reconciled config w ls := by
  rintro ms more us calls ⟨rest, rfl⟩ hends - day s hlisted hcredit hfirst hday
  have hstart : Sound config w := by
    refine ⟨fun p hp => ?_, hcursor⟩
    rw [hpages] at hp
    exact absurd hp List.not_mem_nil
  obtain ⟨hmore, hsync, -⟩ := along_append.mp (along_append.mp hkept).1
  obtain ⟨hmore, hus⟩ := along_append.mp hmore
  obtain ⟨hms, hupdate, -⟩ := along_append.mp hmore
  have hsound : Sound config (run (step config) w ms) :=
    hms.invariant (I := Sound config) (fun _ _ h hl => Sound.step h hl) hstart
  obtain ⟨dates, hupdated, hdates⟩ := updated_update hsound more
  obtain ⟨date, hdate, rfl⟩ := hdates day hupdate hfirst hday
  have hcovered := hupdated.covers hends date hdate s (mem_listedOn.mpr hlisted) hcredit
  rw [run_append, run_cons, run_nil] at hus
  have hboth := hus.invariant (I := fun w => Sound config w ∧ Covered w s)
    (fun _ _ h hl => ⟨Sound.step h.1 hl, Covered.step h.2 h.1 hcredit hl⟩)
    ⟨hupdated.sound, hcovered⟩
  rw [run_append, run_append, run_append, run_cons, run_nil, run_cons, run_nil]
  rw [run_append, run_append, run_cons, run_nil] at hsync
  exact hboth.2.sync hcredit hsync

namespace Sample

def bank : Config := ⟨"26264220", 2592000000⟩

def credit (id : String) : Statement := ⟨id, id, "26264220", .SETTLED, .CREDIT, false, "", 100⟩

/-- Day 0 is half over, and the PSP has listed two credits of it. -/
def noon : World :=
  ⟨[(0, credit "T1"), (0, credit "T2")], some ⟨1, 0⟩, Table.empty, [], [], 54000000⟩

/-- Credit T1 raises; `message` is what its code is translated to. -/
def raising (message : Option String) : Calls where
  receive _ s := if s.transactionId = "T1" then .error "USER_NOT_FOUND" else .ok ()
  translate _ _ := message
  raisesAfter := none

end Sample

open Sample in
theorem reconciled_translated : Reconciled bank noon
    [.update [[]], .sync (raising (some "User not found")), .tick 86400000, .list [(1, credit "T3")],
      .update [[], []], .sync (raising (some "User not found"))] :=
  reconciled_of_kept bank noon _ rfl
    (fun c hc => Option.some.inj hc ▸ before_first bank noon 0) (by decide +kernel)

open Sample in
/-- The message of a credit that raises is not found. -/
theorem not_reconciled : ¬ Reconciled bank noon [.update [[]], .sync (raising none)] := by
  intro h
  have hends : ((noon.update bank none [[]]).2 = true) ∧
      (((run (step bank) noon [.update [[]]]).sync bank (raising none)).2 = true) := by
    decide +kernel
  have hmissed : ¬ (run (step bank) noon [.update [[]], .sync (raising none)]).Handled "T1" := by
    decide +kernel
  exact hmissed (h [] [[]] [] (raising none) (List.prefix_refl _) hends.1 hends.2 0 (credit "T1")
    List.mem_cons_self ⟨rfl, rfl, rfl⟩ (by decide) (by decide))

end ZroServices.Topazio
