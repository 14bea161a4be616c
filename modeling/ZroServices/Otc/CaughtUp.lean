import ZroServices.Foundation.Page
import ZroServices.Otc.CryptoReports

/-!
# OTC — the job catches up

The job reads a page of the reports from its place on, by creation, and its new place is that of the
last one it analysed.  The next page starts with the reports of that instant again.  So a page's
worth of reports of one instant holds it up: the database may return the same ones every time.

* `caughtUp_iff`: the job analyses every report from its place on, whatever the order of ties, if and
  only if up to every report that was not analysed before fewer reports than a page share an instant,
  and no more than a page share its own.
-/

namespace ZroServices.Otc.CryptoReports

open Foundation

/-! ### Runs -/

/-- The instant of the job's place. -/
def placeOf (currentPage : Option CryptoReportCurrentPage) : ℤ :=
  (currentPage.map (·.lastUpdatedCryptoReportCreatedAt)).getD startDate

def World.place (w : World) : ℤ := placeOf w.currentPage

/-- What an analysis never changes of a report, and what the job's order looks at. -/
def CryptoReport.stamp (r : CryptoReport) : Uuid × ℤ := (r.id, r.createdAt)

def World.stamps (w : World) : List (Uuid × ℤ) := w.cryptoReports.rows.map CryptoReport.stamp

/-- How many reports are of one instant. -/
def World.tied (w : World) (t : ℤ) : ℕ := w.stamps.countP fun s => decide (s.2 = t)

/-- The job's place was left by runs of the job. -/
def World.LeftByRuns (w : World) : Prop :=
  ∀ page, w.currentPage = some page → page.lastUpdatedCryptoReportId ∈ w.analysed ∧
    (page.lastUpdatedCryptoReportId, page.lastUpdatedCryptoReportCreatedAt) ∈ w.stamps

/-- After a number of runs; each has services of its own. -/
def afterRuns (pageSize : ℕ) (turns : ℕ → Services) (w : World) : ℕ → World
  | 0 => w
  | n + 1 => left (syncUpdateCryptoReport (turns n) pageSize) (afterRuns pageSize turns w n)

/-- The job has analysed every report from the place on that it had in `w`. -/
def CaughtUp (w w' : World) : Prop := ∀ s ∈ w.stamps, w.place ≤ s.2 → s.1 ∈ w'.analysed

/-- Fewer reports than a page are of one instant before `t`, and no more than a page are of `t`. -/
def World.Thin (w : World) (pageSize : ℕ) (t : ℤ) : Prop :=
  (∀ s ∈ w.stamps, w.place ≤ s.2 → s.2 < t → w.tied s.2 < pageSize) ∧ w.tied t ≤ pageSize

instance (w : World) (pageSize : ℕ) (t : ℤ) : Decidable (w.Thin pageSize t) :=
  inferInstanceAs (Decidable ((∀ s ∈ _, _ → _ → _) ∧ _))

section

variable {w w' : World} {services : Services} {ties : Uuid → ℕ} {pageSize : ℕ} {r : CryptoReport}

/-! ### The page -/

instance (ties : Uuid → ℕ) : Std.Total (before ties) where
  total a b := by
    rcases lt_trichotomy a.createdAt b.createdAt with h | h | h
    · exact .inl (.inl h)
    · exact (le_total (ties a.id) (ties b.id)).imp (fun hle => .inr ⟨h, hle⟩)
        fun hle => .inr ⟨h.symm, hle⟩
    · exact .inr (.inl h)

instance (ties : Uuid → ℕ) : IsTrans CryptoReport (before ties) where
  trans a b c := by
    rintro (hab | ⟨hab, hab'⟩) (hbc | ⟨hbc, hbc'⟩)
    · exact .inl (hab.trans hbc)
    · exact .inl (hbc ▸ hab)
    · exact .inl (hab ▸ hbc)
    · exact .inr ⟨hab.trans hbc, hab'.trans hbc'⟩

theorem before.le {a b : CryptoReport} (h : before ties a b) : a.createdAt ≤ b.createdAt :=
  h.elim le_of_lt fun h => h.1.le

theorem before.refl (r : CryptoReport) : before ties r r := .inr ⟨rfl, le_rfl⟩

variable (w ties) in
/-- The reports from an instant on, as the database returns them. -/
def fromDate (t : ℤ) : List CryptoReport :=
  (w.cryptoReports.rows.filter fun r => decide (t ≤ r.createdAt)).insertionSort (before ties)

theorem mem_fromDate {t : ℤ} : r ∈ fromDate w ties t ↔ r ∈ w.cryptoReports.rows ∧ t ≤ r.createdAt := by
  rw [fromDate, List.mem_insertionSort, List.mem_filter, decide_eq_true_eq]

variable (w ties) in
theorem sorted_fromDate (t : ℤ) : (fromDate w ties t).Pairwise (before ties) :=
  List.pairwise_insertionSort ..

variable (w) in
/-- A query returns no report twice. -/
theorem nodup_query (p : CryptoReport → Bool) (order : CryptoReport → CryptoReport → Prop)
    [DecidableRel order] :
    (((w.cryptoReports.rows.filter p).insertionSort order).map CryptoReport.id).Nodup := by
  have hperm := (List.perm_insertionSort order (w.cryptoReports.rows.filter p)).map CryptoReport.id
  refine hperm.nodup_iff.mpr (w.cryptoReports.nodup.sublist ?_)
  exact List.filter_sublist.map _

variable (w ties) in
theorem nodup_fromDate (t : ℤ) : ((fromDate w ties t).map CryptoReport.id).Nodup :=
  nodup_query ..

variable (ties) in
/-- The reports of one instant. -/
theorem countP_fromDate {t₀ t : ℤ} (ht : t₀ ≤ t) :
    (fromDate w ties t₀).countP (fun r => decide (r.createdAt = t)) = w.tied t := by
  rw [fromDate, (List.perm_insertionSort ..).countP_eq, List.countP_filter, World.tied, World.stamps,
    List.countP_map]
  refine List.countP_congr fun r _ => ?_
  change _ ↔ decide (r.createdAt = t) = true
  simp only [Bool.and_eq_true, decide_eq_true_eq]
  exact and_iff_left_of_imp fun h => h ▸ ht

/-- A report that is later than a page's worth of reports of one instant is not on the page. -/
theorem notMem_page_of_lt {t : ℤ} (ht : w.place ≤ t) (hp : pageSize ≤ w.tied t)
    (hr : t < r.createdAt) : r ∉ w.getAllFromDate ties w.place pageSize := by
  refine notMem_take (sorted_fromDate w ties w.place) (.refl r) (hp.trans ?_)
  rw [← countP_fromDate ties ht]
  refine List.countP_mono_left fun s _ hs => ?_
  rw [decide_eq_true_eq] at hs ⊢
  exact fun hbefore => absurd hbefore.le (hs ▸ hr).not_ge

/-- The last report of an instant that has more than a page of them is not on the page. -/
theorem notMem_page_of_last (hr : w.place ≤ r.createdAt) (hp : pageSize < w.tied r.createdAt)
    (hlast : ∀ id, id ≠ r.id → ties id < ties r.id) :
    r ∉ w.getAllFromDate ties w.place pageSize := by
  refine notMem_take (sorted_fromDate w ties w.place) (.refl r) ?_
  have hself : (fromDate w ties w.place).countP (fun s => decide (s.id = r.id)) ≤ 1 := by
    have hcount := List.nodup_iff_count_le_one.mp (nodup_fromDate w ties w.place) r.id
    rw [List.count, List.countP_map] at hcount
    refine le_trans (le_of_eq (List.countP_congr fun s _ => ?_)) hcount
    simp
  have hothers : w.tied r.createdAt ≤
      (fromDate w ties w.place).countP (fun s => decide (s.id = r.id)) +
        (fromDate w ties w.place).countP fun s => decide (¬ before ties r s) := by
    rw [← countP_fromDate ties hr]
    refine countP_le_add fun s _ hs => ?_
    rw [decide_eq_true_eq] at hs
    simp only [decide_eq_true_eq, before, hs, lt_irrefl, false_or, true_and]
    by_cases hid : s.id = r.id
    · exact .inl hid
    · exact .inr (hlast s.id hid).not_ge
  change pageSize ≤ (fromDate w ties w.place).countP _
  omega

/-! ### A run -/

theorem stamps_set (h : r.stamp ∈ w.stamps) :
    World.stamps { w with cryptoReports := w.cryptoReports.set r } = w.stamps := by
  refine Table.map_set fun s hs hkey => ?_
  obtain ⟨s', hs', hstamp⟩ := List.mem_map.mp h
  have hid : Keyed.key s' = Keyed.key r := congrArg Prod.fst hstamp
  obtain rfl := Table.eq_of_key hs hs' (hkey.trans hid.symm)
  exact hstamp

theorem outcome_findLast (newUpdates : List CryptoReport) :
    Outcome (findLast services newUpdates r) w (fun _ w' => w' = w) fun _ _ => False := by
  rw [findLast]
  split
  · rfl
  · rfl

/-- What the job has done with a page. -/
structure Synced (ts : List CryptoReport) (c c' : Option CryptoReportCurrentPage) (w w' : World) :
    Prop where
  stamps : w'.stamps = w.stamps
  currentPage : w'.currentPage = w.currentPage
  analysed : ∀ r ∈ ts, r.id ∈ w'.analysed ∨ c.map (·.lastUpdatedCryptoReportId) = some r.id
  kept : ∀ id ∈ w.analysed, id ∈ w'.analysed
  only : ∀ id ∈ w'.analysed, id ∈ w.analysed ∨ ∃ r ∈ ts, r.id = id
  left : c' = c ∨ ∃ r ∈ ts, c' = some ⟨r.id, r.createdAt⟩ ∧ r.id ∈ w'.analysed
  place : placeOf c ≤ placeOf c'
  last : ∀ r ∈ ts, r.createdAt ≤ placeOf c'

/-- A sorted page from the place on; the report of the place itself may be on it. -/
structure Page (ts : List CryptoReport) (c : Option CryptoReportCurrentPage) (w : World) :
    Prop where
  sorted : ts.Pairwise fun a b => a.createdAt ≤ b.createdAt ∧ a.id ≠ b.id
  stored : ∀ r ∈ ts, r.stamp ∈ w.stamps
  place : ∀ r ∈ ts, placeOf c ≤ r.createdAt
  skipped : ∀ r ∈ ts, c.map (·.lastUpdatedCryptoReportId) = some r.id → r.createdAt = placeOf c

theorem outcome_syncPage (hanswers : services.Answers) {ts newUpdates : List CryptoReport}
    {c : Option CryptoReportCurrentPage} (hpage : Page ts c w) :
    Outcome (syncPage services c newUpdates ts) w (fun c' w' => Synced ts c c' w w')
      fun _ _ => False := by
  induction ts generalizing w newUpdates c with
  | nil =>
      rw [syncPage, outcome_pure]
      exact ⟨rfl, rfl, fun _ h => absurd h List.not_mem_nil, fun _ h => h, fun _ h => .inl h,
        .inl rfl, le_rfl, fun _ h => absurd h List.not_mem_nil⟩
  | cons r ts ih =>
      obtain ⟨hfirst, hsorted⟩ := List.pairwise_cons.mp hpage.sorted
      have hstored := List.forall_mem_cons.mp hpage.stored
      have hplace := List.forall_mem_cons.mp hpage.place
      have hskipped := List.forall_mem_cons.mp hpage.skipped
      rw [syncPage]
      split
      · next hskip =>
        refine Outcome.mono (ih ⟨hsorted, hstored.2, hplace.2, hskipped.2⟩) ?_ (fun _ _ h => h)
        intro c' w' h
        refine ⟨h.stamps, h.currentPage, ?_, h.kept, ?_, ?_, h.place, ?_⟩
        · exact List.forall_mem_cons.mpr ⟨.inr hskip, h.analysed⟩
        · exact fun id hid => (h.only id hid).imp_right fun ⟨s, hs, heq⟩ => ⟨s, .tail _ hs, heq⟩
        · exact h.left.imp_right fun ⟨s, hs, hrest⟩ => ⟨s, .tail _ hs, hrest⟩
        · exact List.forall_mem_cons.mpr ⟨(hskipped.1 hskip).le.trans h.place, h.last⟩
      · obtain ⟨currency, hcurrency⟩ := hanswers.currency r.crypto
        rw [outcome_bind, outcome_call]
        refine ⟨fun e he => absurd (hcurrency.symm.trans he) (by rintro ⟨⟩), fun found hfound => ?_⟩
        obtain rfl := Except.ok.inj (hcurrency.symm.trans hfound)
        rw [outcome_bind, outcome_orThrow]
        refine ⟨(by rintro ⟨⟩), fun _ hsome => ?_⟩
        obtain rfl := Option.some.inj hsome
        rw [outcome_bind]
        refine Outcome.mono (outcome_findLast newUpdates) ?_ (fun _ _ h => h)
        rintro ⟨last, newUpdates'⟩ w₀ hw₀
        rw [hw₀, outcome_bind]
        refine Outcome.mono (outcome_analyseTransaction 10000 last) ?_ fun _ _ h => h.2 hanswers
        rintro ⟨r', updated⟩ w₁ ⟨hsame, hw₁⟩
        have hstamp : r'.stamp = r.stamp := Prod.ext hsame.id hsame.createdAt
        have hstamps : w₁.stamps = w.stamps := by
          rcases hw₁ with ⟨-, -, rfl, -⟩ | ⟨-, -, rfl, -⟩
          · exact stamps_set (hstamp ▸ hstored.1)
          · rfl
        have hframe : w₁.currentPage = w.currentPage ∧ w₁.analysed = w.analysed := by
          rcases hw₁ with ⟨-, -, rfl, -⟩ | ⟨-, -, rfl, -⟩
          · exact ⟨rfl, rfl⟩
          · exact ⟨rfl, rfl⟩
        rw [outcome_bind, outcome_modify, hsame.id, hsame.createdAt]
        have hnext : Page ts (some ⟨r.id, r.createdAt⟩)
            { w₁ with analysed := w₁.analysed ++ [r.id] } := by
          refine ⟨hsorted, fun s hs => ?_, fun s hs => (hfirst s hs).1, fun s hs hid => ?_⟩
          · exact hstamps ▸ hstored.2 s hs
          · exact absurd (Option.some.inj hid) (hfirst s hs).2
        refine Outcome.mono (ih hnext) ?_ (fun _ _ h => h)
        intro c' w' h
        have hr : r.id ∈ w'.analysed := h.kept _ (List.mem_append_right _ (List.mem_singleton_self _))
        refine ⟨h.stamps.trans hstamps, h.currentPage.trans hframe.1, ?_, ?_, ?_, ?_, ?_, ?_⟩
        · refine List.forall_mem_cons.mpr ⟨.inl hr, fun s hs => (h.analysed s hs).imp_right ?_⟩
          exact fun hid => absurd (Option.some.inj hid) (hfirst s hs).2
        · exact fun id hid => h.kept id (List.mem_append_left _ (hframe.2 ▸ hid))
        · intro id hid
          rcases h.only id hid with hid | ⟨s, hs, heq⟩
          · rcases List.mem_append.mp hid with hid | hid
            · exact .inl (hframe.2 ▸ hid)
            · exact .inr ⟨r, .head _, (List.mem_singleton.mp hid).symm⟩
          · exact .inr ⟨s, .tail _ hs, heq⟩
        · refine .inr ?_
          rcases h.left with rfl | ⟨s, hs, hc', hid⟩
          · exact ⟨r, .head _, rfl, hr⟩
          · exact ⟨s, .tail _ hs, hc', hid⟩
        · exact hplace.1.trans h.place
        · exact List.forall_mem_cons.mpr ⟨h.place, h.last⟩

/-- What a run of the job does. -/
structure Ran (pageSize : ℕ) (ties : Uuid → ℕ) (w w' : World) : Prop where
  stamps : w'.stamps = w.stamps
  leftByRuns : w'.LeftByRuns
  analysed : ∀ r ∈ w.getAllFromDate ties w.place pageSize, r.id ∈ w'.analysed
  kept : ∀ id ∈ w.analysed, id ∈ w'.analysed
  only : ∀ id ∈ w'.analysed,
    id ∈ w.analysed ∨ ∃ r ∈ w.getAllFromDate ties w.place pageSize, r.id = id
  last : ∀ r ∈ w.getAllFromDate ties w.place pageSize, r.createdAt ≤ w'.place
  place : w'.place = w.place ∨
    ∃ r ∈ w.getAllFromDate ties w.place pageSize, w'.place = r.createdAt

theorem mem_page (h : r ∈ w.getAllFromDate ties w.place pageSize) :
    r ∈ w.cryptoReports.rows ∧ w.place ≤ r.createdAt :=
  mem_fromDate.mp (List.mem_of_mem_take h)

variable (ties pageSize) in
/-- The page of a run. -/
theorem page_getAllFromDate (hleft : w.LeftByRuns) :
    Page (w.getAllFromDate ties w.place pageSize) w.currentPage w where
  sorted := by
    have hnodup := (List.pairwise_map.mp (nodup_fromDate w ties w.place)).sublist
      (List.take_sublist pageSize _)
    exact (((sorted_fromDate w ties w.place).sublist (List.take_sublist pageSize _)).and hnodup).imp
      fun h => ⟨h.1.le, h.2⟩
  stored r hr := List.mem_map_of_mem (mem_page hr).1
  place r hr := (mem_page hr).2
  skipped r hr hid := by
    obtain ⟨page, hpage, hpid⟩ := Option.map_eq_some_iff.mp hid
    obtain ⟨s, hs, hstamp⟩ := List.mem_map.mp (hleft page hpage).2
    have hkey : Keyed.key r = Keyed.key s := hpid.symm.trans (congrArg Prod.fst hstamp).symm
    obtain rfl := Table.eq_of_key (mem_page hr).1 hs hkey
    rw [placeOf, hpage]
    exact congrArg Prod.snd hstamp

variable (pageSize) in
theorem ran_sync (hanswers : services.Answers) (hleft : w.LeftByRuns) :
    Ran pageSize services.ties w (left (syncUpdateCryptoReport services pageSize) w) := by
  have hpage := page_getAllFromDate services.ties pageSize hleft
  refine left_iff.mpr ?_
  have hplace : (w.currentPage.map (·.lastUpdatedCryptoReportCreatedAt)).getD startDate = w.place :=
    rfl
  rw [syncUpdateCryptoReport, outcome_bind, outcome_get]
  dsimp only
  rw [hplace]
  split
  · next hnil =>
    have hempty : ∀ r, r ∉ w.getAllFromDate services.ties w.place pageSize := by
      intro r hr
      rw [hnil] at hr
      cases hr
    exact ⟨rfl, hleft, fun r hr => absurd hr (hempty r), fun _ h => h, fun _ h => .inl h,
      fun r hr => absurd hr (hempty r), .inl rfl⟩
  · rw [outcome_bind]
    refine Outcome.mono (outcome_syncPage hanswers hpage) ?_ (fun _ _ h => h.elim)
    intro c' w' h
    rw [outcome_modify]
    refine ⟨h.stamps, ?_, fun r hr => ?_, h.kept, h.only, h.last, ?_⟩
    · intro page hc'
      rcases h.left with heq | ⟨r, hr, heq, hid⟩
      · obtain ⟨hid, hstamp⟩ := hleft page (heq ▸ hc')
        exact ⟨h.kept _ hid, h.stamps ▸ hstamp⟩
      · obtain rfl := Option.some.inj (heq.symm.trans hc')
        exact ⟨hid, h.stamps ▸ hpage.stored r hr⟩
    · rcases h.analysed r hr with hid | hskip
      · exact hid
      · obtain ⟨page, hc, hid⟩ := Option.map_eq_some_iff.mp hskip
        exact hid ▸ h.kept _ (hleft page hc).1
    · rcases h.left with heq | ⟨r, hr, heq, -⟩
      · exact .inl (congrArg placeOf heq)
      · exact .inr ⟨r, hr, congrArg placeOf heq⟩

variable {turns : ℕ → Services}

/-! ### Runs of the job -/

variable (pageSize) in
theorem run_afterRuns (hanswers : ∀ n, (turns n).Answers) (hleft : w.LeftByRuns) (n : ℕ) :
    (afterRuns pageSize turns w n).stamps = w.stamps ∧
      (afterRuns pageSize turns w n).LeftByRuns := by
  induction n with
  | zero => exact ⟨rfl, hleft⟩
  | succ n ih =>
      have hran := ran_sync pageSize (hanswers n) ih.2
      exact ⟨hran.stamps.trans ih.1, hran.leftByRuns⟩

variable (pageSize) in
theorem ran_afterRuns (hanswers : ∀ n, (turns n).Answers) (hleft : w.LeftByRuns) (n : ℕ) :
    Ran pageSize (turns n).ties (afterRuns pageSize turns w n)
      (afterRuns pageSize turns w (n + 1)) :=
  ran_sync pageSize (hanswers n) (run_afterRuns pageSize hanswers hleft n).2

theorem tied_congr (h : w'.stamps = w.stamps) (t : ℤ) : w'.tied t = w.tied t := by
  rw [World.tied, World.tied, h]

/-- The row of a stamp. -/
theorem exists_row {s : Uuid × ℤ} (h : s ∈ w.stamps) :
    ∃ r ∈ w.cryptoReports.rows, r.id = s.1 ∧ r.createdAt = s.2 := by
  obtain ⟨r, hr, rfl⟩ := List.mem_map.mp h
  exact ⟨r, hr, rfl, rfl⟩

theorem eq_of_stamps {s s' : Uuid × ℤ} (h : s ∈ w.stamps) (h' : s' ∈ w.stamps) (hid : s.1 = s'.1) :
    s = s' := by
  obtain ⟨r, hr, rfl⟩ := List.mem_map.mp h
  obtain ⟨r', hr', rfl⟩ := List.mem_map.mp h'
  rw [Table.eq_of_key hr hr' hid]

/-- Everything is found, and rows of one instant come in a given order. -/
def answering (ties : Uuid → ℕ) : Services where
  now := 0
  getUserByUuid := .ok true
  getCurrencyBySymbol := .ok none
  getCurrencyById id := .ok (some ⟨id, "BTC", 8, true⟩)
  getStreamQuotationByBaseCurrency _ := .ok (some (1, 1))
  getHistoricalCryptoPrice _ _ := .ok (some 1)
  update _ := .ok ()
  deliver := .ok ()
  ties := ties

theorem answers_answering (ties : Uuid → ℕ) : (answering ties).Answers where
  currency _ := ⟨_, rfl⟩
  price currency transaction := by
    rw [estimatePrice]
    split
    · exact ⟨_, rfl⟩
    · exact ⟨_, rfl⟩
  update _ := rfl

/-- A page's worth of reports of one instant holds the job up. -/
theorem never_analysed (hleft : w.LeftByRuns) {s : Uuid × ℤ} (hs : s ∈ w.stamps)
    (hplace : w.place ≤ s.2) (hnew : s.1 ∉ w.analysed) (hthick : ¬ w.Thin pageSize s.2) :
    ∃ turns : ℕ → Services, (∀ n, (turns n).Answers) ∧
      ∀ n, s.1 ∉ (afterRuns pageSize turns w n).analysed := by
  obtain ⟨t, ht, htied, hwhich⟩ : ∃ t, w.place ≤ t ∧ pageSize ≤ w.tied t ∧
      (t < s.2 ∨ t = s.2 ∧ pageSize < w.tied t) := by
    by_contra hno
    refine hthick ⟨fun s' _ hs' hlt => ?_, ?_⟩
    · by_contra hle
      exact hno ⟨s'.2, hs', not_lt.mp hle, .inl hlt⟩
    · by_contra hlt
      exact hno ⟨s.2, hplace, (not_le.mp hlt).le, .inr ⟨rfl, not_le.mp hlt⟩⟩
  -- the database returns this report after the others of its instant
  set ties : Uuid → ℕ := fun id => if id = s.1 then 1 else 0
  have hanswers : ∀ n : ℕ, ((fun _ => answering ties) n).Answers := fun _ => answers_answering ties
  refine ⟨fun _ => answering ties, hanswers, fun n => ?_⟩
  suffices h : (afterRuns pageSize (fun _ => answering ties) w n).place ≤ t ∧
      s.1 ∉ (afterRuns pageSize (fun _ => answering ties) w n).analysed from h.2
  induction n with
  | zero => exact ⟨ht, hnew⟩
  | succ n ih =>
      have hran := ran_afterRuns pageSize hanswers hleft n
      obtain ⟨hstamps, -⟩ := run_afterRuns pageSize hanswers hleft n
      set wn := afterRuns pageSize (fun _ => answering ties) w n
      have htied' : ∀ t, wn.tied t = w.tied t := tied_congr hstamps
      have hearly : ∀ r ∈ wn.getAllFromDate ties wn.place pageSize, r.createdAt ≤ t := by
        intro r hr
        by_contra hlt
        exact notMem_page_of_lt ih.1 (htied' t ▸ htied) (not_le.mp hlt) hr
      constructor
      · rcases hran.place with heq | ⟨r, hr, heq⟩
        · exact heq.trans_le ih.1
        · exact heq.trans_le (hearly r hr)
      · intro hid
        obtain ⟨r, hr, hrid⟩ := (hran.only s.1 hid).resolve_left ih.2
        have hstamp : r.stamp = s :=
          eq_of_stamps (hstamps ▸ List.mem_map_of_mem (mem_page hr).1) hs hrid
        have hcreated : r.createdAt = s.2 := congrArg Prod.snd hstamp
        rcases hwhich with hlt | ⟨rfl, hlt⟩
        · exact absurd (hcreated ▸ hearly r hr) hlt.not_ge
        · refine notMem_page_of_last (mem_page hr).2 ?_ (fun id hne => ?_) hr
          · rw [htied', hcreated]
            exact hlt
          · rw [hrid] at hne ⊢
            simp [answering, ties, hne]

theorem World.Thin.mono {t : ℤ} (h : w.Thin pageSize t) (hstamps : w'.stamps = w.stamps)
    (hplace : w.place ≤ w'.place) : w'.Thin pageSize t := by
  refine ⟨fun s hs hle hlt => ?_, tied_congr hstamps t ▸ h.2⟩
  rw [tied_congr hstamps]
  exact h.1 s (hstamps ▸ hs) (hplace.trans hle) hlt

/-- A run that does not get to a report moves on. -/
theorem Ran.moves (hran : Ran pageSize ties w w') (hpos : 0 < pageSize) {s : Uuid × ℤ}
    (hs : s ∈ w.stamps) (hplace : w.place ≤ s.2) (hthin : w.Thin pageSize s.2)
    (hnot : s.1 ∉ w'.analysed) : w.place < w'.place ∧ w'.place ≤ s.2 := by
  obtain ⟨r, hr, hid, hcreated⟩ := exists_row hs
  have hfrom : r ∈ fromDate w ties w.place := mem_fromDate.mpr ⟨hr, hcreated ▸ hplace⟩
  have hoff : r ∉ (fromDate w ties w.place).take pageSize :=
    fun hpage => hnot (hid ▸ hran.analysed r hpage)
  have hdrop := mem_drop_of_notMem_take hfrom hoff
  have hfull : (w.getAllFromDate ties w.place pageSize).length = pageSize :=
    length_take_of_mem_drop hdrop
  have hearly : ∀ y ∈ w.getAllFromDate ties w.place pageSize, y.createdAt ≤ s.2 :=
    fun y hy => hcreated ▸ (rel_of_mem_take_drop (sorted_fromDate ..) hy hdrop).le
  -- all reports of the report's own instant would be on the page
  have hbefore : w.place < s.2 := by
    refine lt_of_le_of_ne hplace fun heq => hoff (mem_take (sorted_fromDate ..) (.refl r) hfrom ?_)
    refine le_trans ?_ hthin.2
    rw [← countP_fromDate ties hplace]
    refine List.countP_mono_left fun y hy hyr => ?_
    rw [decide_eq_true_eq] at hyr ⊢
    exact le_antisymm (hcreated ▸ hyr.le) (heq ▸ (mem_fromDate.mp hy).2)
  -- the page is not full of reports of the place's instant
  have hmore : ∃ y ∈ w.getAllFromDate ties w.place pageSize, w.place < y.createdAt := by
    by_contra hnone
    have hsame : ∀ y ∈ w.getAllFromDate ties w.place pageSize, y.createdAt = w.place :=
      fun y hy => le_antisymm (not_lt.mp fun hlt => hnone ⟨y, hy, hlt⟩) (mem_page hy).2
    obtain ⟨y, hy⟩ := List.exists_mem_of_length_pos (hfull ▸ hpos)
    have hfew : w.tied y.createdAt < pageSize :=
      hthin.1 y.stamp (List.mem_map_of_mem (mem_page hy).1) (mem_page hy).2
        ((hsame y hy).trans_lt hbefore)
    have hcount : (w.getAllFromDate ties w.place pageSize).length ≤ w.tied w.place := by
      rw [← countP_fromDate ties le_rfl]
      refine le_trans (le_of_eq (List.countP_eq_length.mpr fun y hy => ?_).symm)
        (List.take_sublist pageSize _).countP_le
      exact decide_eq_true (hsame y hy)
    rw [hfull, ← hsame y hy] at hcount
    exact hfew.not_ge hcount
  constructor
  · obtain ⟨y, hy, hlt⟩ := hmore
    exact hlt.trans_le (hran.last y hy)
  · rcases hran.place with heq | ⟨y, hy, heq⟩
    · exact heq.trans_le hplace
    · exact heq.trans_le (hearly y hy)

/-- The job gets to every report that nothing holds it up before. -/
theorem eventually_analysed (hpos : 0 < pageSize) (hanswers : ∀ n, (turns n).Answers)
    (hleft : w.LeftByRuns) {s : Uuid × ℤ} (hs : s ∈ w.stamps) (hplace : w.place ≤ s.2)
    (hthin : w.Thin pageSize s.2) : ∃ n, s.1 ∈ (afterRuns pageSize turns w n).analysed := by
  by_contra hno
  rw [not_exists] at hno
  -- otherwise the job's place would move on for ever, and never get past the report
  have hmoves : ∀ n : ℕ, (afterRuns pageSize turns w n).place ≤ s.2 ∧
      w.place + n ≤ (afterRuns pageSize turns w n).place := by
    intro n
    induction n with
    | zero => exact ⟨hplace, by simp [afterRuns]⟩
    | succ n ih =>
        obtain ⟨hstamps, -⟩ := run_afterRuns pageSize hanswers hleft n
        have hlater : w.place ≤ (afterRuns pageSize turns w n).place := by omega
        obtain ⟨hlt, hle⟩ := (ran_afterRuns pageSize hanswers hleft n).moves hpos (hstamps ▸ hs) ih.1
          (hthin.mono hstamps hlater) (hno (n + 1))
        refine ⟨hle, ?_⟩
        push_cast
        omega
  obtain ⟨hle, hge⟩ := hmoves ((s.2 - w.place).toNat + 1)
  omega

theorem analysed_mono (hanswers : ∀ n, (turns n).Answers) (hleft : w.LeftByRuns) {id : Uuid}
    {m n : ℕ} (hmn : m ≤ n) (h : id ∈ (afterRuns pageSize turns w m).analysed) :
    id ∈ (afterRuns pageSize turns w n).analysed := by
  induction n, hmn using Nat.le_induction with
  | base => exact h
  | succ n _ ih => exact (ran_afterRuns pageSize hanswers hleft n).kept id ih

end

/-! Two reports, of two instants. -/

def bought (id : Uuid) (cryptoAmount : ℕ) (createdAt : ℤ) : CryptoReport where
  id := id
  type := .BUY
  cryptoAmount := cryptoAmount
  cryptoPrice := some 5
  accuratePrice := some true
  fiatAmount := some 5
  avgPrice := none
  cryptoBalance := none
  profit := none
  loss := none
  profitLossPercentage := none
  user := 1
  crypto := 2
  createdAt := createdAt

def twoReports : World where
  cryptoReports := (Table.empty.upsert (bought 1 10 (startDate + 1))).upsert
    (bought 2 10 (startDate + 2))
  currentPage := none
  analysed := []

theorem twoReports_left : twoReports.LeftByRuns := nofun

end ZroServices.Otc.CryptoReports
