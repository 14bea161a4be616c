import ZroServices.Otc.CaughtUp

/-!
# OTC — the running balance

A report's balance is that of the report before it, of the same user in the same currency, and what
the report moves.  A document is about a window of days, and its first report is analysed as if there
were none before: it asks for the reports from the beginning only when that one has no figures.  A
purchase, whose profit and loss are 0, never passes for complete, and so its balance starts anew.

* `balanced_of_orderly`: where the first report that a document analyses is the user's first one, or
  complete, and those from before the beginning of the job have their balances, every balance that is
  stored is the running balance, and no document resets one.
-/

namespace ZroServices.Otc.CryptoReports

open Foundation

/-! ### What is stored -/

/-- A report that was updated. -/
def CryptoReport.Stored (r : CryptoReport) : Prop := r.cryptoBalance ≠ none

instance (r : CryptoReport) : Decidable r.Stored := inferInstanceAs (Decidable (_ ≠ _))

section

variable (w : World) (user : Uuid) (crypto : CurrencyId)

/-- What the reports up to an instant move. -/
def World.sumUpTo (t : ℤ) : ℤ :=
  w.cryptoReports.total fun r => if r.Of user crypto ∧ r.createdAt ≤ t then r.movement else 0

/-- Every balance that is stored is the running balance. -/
def World.Balanced : Prop :=
  ∀ r ∈ w.cryptoReports.rows, r.Of user crypto →
    r.Stored → r.cryptoBalance = some (w.sumUpTo user crypto r.createdAt)

instance : Decidable (w.Balanced user crypto) := inferInstanceAs (Decidable (∀ r ∈ _, _ → _ → _))

/-- No two reports are of one instant. -/
def World.Distinct : Prop :=
  ∀ r ∈ w.cryptoReports.rows, r.Of user crypto → ∀ s ∈ w.cryptoReports.rows, s.Of user crypto →
    r.createdAt = s.createdAt → r.id = s.id

instance : Decidable (w.Distinct user crypto) :=
  inferInstanceAs (Decidable (∀ r ∈ _, _ → ∀ s ∈ _, _ → _ → _))

/-- The report before an instant. -/
def World.LastBefore (t : ℤ) : Option CryptoReport → Prop
  | none => ∀ s ∈ w.cryptoReports.rows, s.Of user crypto → t ≤ s.createdAt
  | some last => (last ∈ w.cryptoReports.rows ∧ last.Of user crypto ∧ last.createdAt < t) ∧
      ∀ s ∈ w.cryptoReports.rows, s.Of user crypto → s.createdAt ≤ last.createdAt ∨ t ≤ s.createdAt

instance (t : ℤ) : ∀ last, Decidable (w.LastBefore user crypto t last)
  | none => inferInstanceAs (Decidable (∀ s ∈ _, _ → _))
  | some _ => inferInstanceAs (Decidable ((_ ∧ _ ∧ _) ∧ ∀ s ∈ _, _ → _))

/-- The reports that a document analyses. -/
def World.requested (ties : Uuid → ℕ) (createdAtStart createdAtEnd : Option ℤ) :
    List CryptoReport :=
  match w.getAllByUserAndCurrency ties user crypto createdAtStart createdAtEnd with
  | [] => []
  | firstTransaction :: transactions =>
      if falsy firstTransaction.avgPrice ∨ falsy firstTransaction.cryptoBalance then
        w.getAllByUserAndCurrency ties user crypto (some startDate) createdAtEnd
      else firstTransaction :: transactions

end

section

variable {w : World} {user : Uuid} {crypto : CurrencyId} {r r' : CryptoReport}
variable {last : Option CryptoReport} {s : CryptoReport} {w₀ w' : World} {services : Services}
  {ts newUpdates : List CryptoReport} {c c' : Option CryptoReportCurrentPage}
variable {currency : Currency} {createdAtStart createdAtEnd : Option ℤ}

theorem CryptoReport.Complete.stored (h : r.Complete) : r.Stored := by
  intro hnone
  refine h.2 (.inr (.inl ?_))
  rw [falsy, hnone, Option.getD_none]

theorem CryptoReport.Same.of (h : r.Same r') : r'.Of user crypto ↔ r.Of user crypto := by
  rw [CryptoReport.Of, CryptoReport.Of, h.user, h.crypto]

/-- The next balance goes on from the sum before. -/
theorem sumUpTo_lastBefore (hdistinct : w.Distinct user crypto) (hr : r ∈ w.cryptoReports.rows)
    (hof : r.Of user crypto)
    (hlast : w.LastBefore user crypto r.createdAt last) :
    w.sumUpTo user crypto r.createdAt =
      (last.map fun l => w.sumUpTo user crypto l.createdAt).getD 0 + r.movement := by
  have hself : r.Of user crypto ∧ r.createdAt ≤ r.createdAt := ⟨hof, le_rfl⟩
  have hsame : ∀ s ∈ w.cryptoReports.rows, Keyed.key s ≠ Keyed.key r → s.Of user crypto →
      s.createdAt ≤ r.createdAt → s.createdAt < r.createdAt := by
    intro s hs hkey hsof hle
    exact lt_of_le_of_ne hle fun heq => hkey (hdistinct s hs hsof r hr hof heq)
  cases last with
  | none =>
      have hfirst : w.sumUpTo user crypto r.createdAt = r.movement := by
        refine (Table.total_eq_single hr fun s hs hkey => if_neg ?_).trans (if_pos hself)
        rintro ⟨hsof, hle⟩
        exact (hlast s hs hsof).not_gt (hsame s hs hkey hsof hle)
      rw [hfirst, Option.map_none, Option.getD_none, zero_add]
  | some l =>
      obtain ⟨⟨hl, hlof, hlt⟩, hbetween⟩ := hlast
      rw [Option.map_some, Option.getD_some, ← sub_eq_iff_eq_add']
      refine Table.total_sub.symm.trans ((Table.total_eq_single hr fun s hs hkey => ?_).trans ?_)
      · by_cases hsof : s.Of user crypto
        · rcases hbetween s hs hsof with hle | hle
          · rw [if_pos ⟨hsof, hle.trans hlt.le⟩, if_pos ⟨hsof, hle⟩, sub_self]
          · have hgt : ¬ s.createdAt ≤ r.createdAt := fun h => hle.not_gt (hsame s hs hkey hsof h)
            rw [if_neg fun h => hgt h.2, if_neg fun h => hgt (h.2.trans hlt.le), sub_self]
        · rw [if_neg fun h => hsof h.1, if_neg fun h => hsof h.1, sub_self]
      · rw [if_pos hself, if_neg fun h => hlt.not_ge h.2, sub_zero]

/-! ### One analysis -/

/-- What the analyses of a document, or of a run of the job, keep: balances stay, and an average price
only changes to the one that goes on from the report before. -/
structure Kept (user : Uuid) (crypto : CurrencyId) (w₀ w : World) : Prop where
  sum : ∀ t, w.sumUpTo user crypto t = w₀.sumUpTo user crypto t
  distinct : w.Distinct user crypto
  balanced : w.Balanced user crypto
  like : ∀ r' ∈ w.cryptoReports.rows, ∃ r ∈ w₀.cryptoReports.rows, r.Same r'
  row : ∀ r ∈ w₀.cryptoReports.rows, r.Of user crypto → ∃ r' ∈ w.cryptoReports.rows, r.Same r' ∧
    (r' = r ∨ r'.Stored ∧ ∃ last, w.LastBefore user crypto r.createdAt last ∧
      r'.avgPrice = r'.averagePrice last)

theorem Kept.refl (hdistinct : w.Distinct user crypto) (hbalanced : w.Balanced user crypto) :
    Kept user crypto w w :=
  ⟨fun _ => rfl, hdistinct, hbalanced, fun r hr => ⟨r, hr, .refl r⟩,
    fun r hr _ => ⟨r, hr, .refl r, .inl rfl⟩⟩

/-- A report is replaced by one that differs in its figures. -/
def World.put (w : World) (r : CryptoReport) : World :=
  { w with cryptoReports := w.cryptoReports.set r }

section

variable (hr : r ∈ w.cryptoReports.rows)
include hr

theorem put_self : w.put r = w := by
  rw [World.put, Table.set_eq_self (Table.get?_of_mem hr)]

section

variable (hsame : r.Same r')
include hsame

theorem mem_put :
    s ∈ (w.put r').cryptoReports.rows ↔ s = r' ∨ s ∈ w.cryptoReports.rows ∧ s.id ≠ r.id := by
  refine Table.mem_set.trans ?_
  rw [show Keyed.key r' = r.id from hsame.id, or_comm]
  exact or_congr (and_iff_left ⟨r, hr, rfl⟩) Iff.rfl

/-- Every report of the one table has its like in the other. -/
theorem exists_put
    (hs : s ∈ (w.put r').cryptoReports.rows) : ∃ s' ∈ w.cryptoReports.rows, s'.Same s := by
  rcases (mem_put hr hsame).mp hs with rfl | ⟨hs, -⟩
  · exact ⟨r, hr, hsame⟩
  · exact ⟨s, hs, .refl s⟩

theorem sumUpTo_put (t : ℤ) : (w.put r').sumUpTo user crypto t = w.sumUpTo user crypto t := by
  refine congrArg List.sum (Table.map_set fun s hs hkey => ?_)
  obtain rfl := Table.eq_of_key hs hr (hkey.trans hsame.id)
  simp only [hsame.of, hsame.createdAt, hsame.movement]

theorem World.LastBefore.put {t : ℤ} (hlast : w.LastBefore user crypto t last)
    (hne : ∀ l, last = some l → l.id ≠ r.id) : (w.put r').LastBefore user crypto t last := by
  cases last with
  | none =>
      intro s hs hsof
      obtain ⟨s', hs', hlike⟩ := exists_put hr hsame hs
      exact hlike.createdAt ▸ hlast s' hs' (hlike.of.mp hsof)
  | some l =>
      obtain ⟨⟨hl, hlof, hlt⟩, hbetween⟩ := hlast
      refine ⟨⟨(mem_put hr hsame).mpr (.inr ⟨hl, hne l rfl⟩), hlof, hlt⟩, fun s hs hsof => ?_⟩
      obtain ⟨s', hs', hlike⟩ := exists_put hr hsame hs
      exact hlike.createdAt ▸ hbetween s' hs' (hlike.of.mp hsof)

theorem World.Distinct.put (h : w.Distinct user crypto) : (w.put r').Distinct user crypto := by
  intro a ha haof b hb hbof heq
  obtain ⟨a', ha', halike⟩ := exists_put hr hsame ha
  obtain ⟨b', hb', hblike⟩ := exists_put hr hsame hb
  rw [halike.id, hblike.id]
  rw [halike.createdAt, hblike.createdAt] at heq
  exact h a' ha' (halike.of.mp haof) b' hb' (hblike.of.mp hbof) heq

end

end

/-- The balance of a report goes on from that of the report before it. -/
theorem balance_lastBefore (hdistinct : w.Distinct user crypto) (hbalanced : w.Balanced user crypto)
    (hr : r ∈ w.cryptoReports.rows) (hof : r.Of user crypto)
    (hlast : w.LastBefore user crypto r.createdAt last) (hstored : ∀ l, last = some l → l.Stored) :
    (last.bind CryptoReport.cryptoBalance).getD 0 + r.movement =
      w.sumUpTo user crypto r.createdAt := by
  rw [sumUpTo_lastBefore hdistinct hr hof hlast]
  cases last with
  | none => rfl
  | some l =>
      obtain ⟨⟨hl, hlof, -⟩, -⟩ := hlast
      rw [Option.bind_some, hbalanced l hl hlof (hstored l rfl)]
      rfl

theorem Kept.like_put (h : Kept user crypto w₀ w) (hr : r ∈ w.cryptoReports.rows)
    (hsame : r.Same r') (hs : s ∈ (w.put r').cryptoReports.rows) :
    ∃ s₀ ∈ w₀.cryptoReports.rows, s₀.Same s := by
  obtain ⟨s', hs', hlike⟩ := exists_put hr hsame hs
  obtain ⟨s₀, hs₀, hlike₀⟩ := h.like s' hs'
  exact ⟨s₀, hs₀, hlike₀.trans hlike⟩

/-- A report's figures are written after those of the reports before it. -/
theorem Kept.put (h : Kept user crypto w₀ w) (hr : r ∈ w.cryptoReports.rows)
    (hof : r.Of user crypto) (hsame : r.Same r')
    (hlast : w.LastBefore user crypto r.createdAt last) (hstored : ∀ l, last = some l → l.Stored)
    (hbalance : r'.cryptoBalance = some ((last.bind CryptoReport.cryptoBalance).getD 0 + r.movement))
    (haverage : r'.avgPrice = r'.averagePrice last)
    (hlater : ∀ s ∈ w.cryptoReports.rows, s.Of user crypto → r.createdAt ≤ s.createdAt →
      s ∈ w₀.cryptoReports.rows) : Kept user crypto w₀ (w.put r') where
  sum t := (sumUpTo_put hr hsame t).trans (h.sum t)
  distinct := h.distinct.put hr hsame
  like s hs := h.like_put hr hsame hs
  balanced s hs hsof hsstored := by
    rw [sumUpTo_put hr hsame]
    rcases (mem_put hr hsame).mp hs with rfl | ⟨hs, -⟩
    · rw [hbalance, hsame.createdAt, balance_lastBefore h.distinct h.balanced hr hof hlast hstored]
    · exact h.balanced s hs hsof hsstored
  row s₀ hs₀ hs₀of := by
    obtain ⟨s, hs, hlike, hs'⟩ := h.row s₀ hs₀ hs₀of
    have hbefore {t : ℤ} {l : Option CryptoReport} (hl : w.LastBefore user crypto t l)
        (ht : t ≤ r.createdAt) : (w.put r').LastBefore user crypto t l := by
      refine hl.put hr hsame fun l' hl' hid => ?_
      rw [hl'] at hl
      obtain rfl := Table.eq_of_key hl.1.1 hr hid
      exact (hl.1.2.2.trans_le ht).false
    by_cases hid : s.id = r.id
    · obtain rfl := Table.eq_of_key hs hr hid
      refine ⟨r', (mem_put hr hsame).mpr (.inl rfl), hlike.trans hsame, .inr ⟨?_, last, ?_, haverage⟩⟩
      · rw [CryptoReport.Stored, hbalance]
        exact Option.some_ne_none _
      · exact hlike.createdAt ▸ hbefore hlast le_rfl
    · refine ⟨s, (mem_put hr hsame).mpr (.inr ⟨hs, hid⟩), hlike, ?_⟩
      rcases hs' with rfl | ⟨hsstored, l, hl, havg⟩
      · exact .inl rfl
      -- a report that is later has not been written yet
      · rcases le_or_gt s₀.createdAt r.createdAt with hle | hgt
        · exact .inr ⟨hsstored, l, hbefore hl hle, havg⟩
        · have hsw₀ := hlater s hs (hlike.of.mpr hs₀of) (hlike.createdAt ▸ hgt.le)
          exact .inl (Table.eq_of_key hsw₀ hs₀ hlike.id)

/-- Reports of other users and currencies do not matter. -/
theorem Kept.put_other (h : Kept user crypto w₀ w) (hr : r ∈ w.cryptoReports.rows)
    (hof : ¬ r.Of user crypto) (hsame : r.Same r') : Kept user crypto w₀ (w.put r') where
  sum t := (sumUpTo_put hr hsame t).trans (h.sum t)
  distinct := h.distinct.put hr hsame
  like s hs := h.like_put hr hsame hs
  balanced s hs hsof hsstored := by
    rw [sumUpTo_put hr hsame]
    rcases (mem_put hr hsame).mp hs with rfl | ⟨hs, -⟩
    · exact absurd (hsame.of.mp hsof) hof
    · exact h.balanced s hs hsof hsstored
  row s₀ hs₀ hs₀of := by
    obtain ⟨s, hs, hlike, hs'⟩ := h.row s₀ hs₀ hs₀of
    have hne {l : CryptoReport} (hl : l ∈ w.cryptoReports.rows) (hlof : l.Of user crypto) :
        l.id ≠ r.id := fun hid => hof (Table.eq_of_key hl hr hid ▸ hlof)
    refine ⟨s, (mem_put hr hsame).mpr (.inr ⟨hs, hne hs (hlike.of.mpr hs₀of)⟩), hlike, ?_⟩
    refine hs'.imp_right fun ⟨hsstored, l, hl, havg⟩ => ⟨hsstored, l, hl.put hr hsame ?_, havg⟩
    rintro l' rfl
    exact hne hl.1.1 hl.1.2.1

/-- What the analysis of `r`, which is then `r'`, leaves. -/
structure Settled (user : Uuid) (crypto : CurrencyId) (w₀ w w' : World) (r r' : CryptoReport) :
    Prop where
  kept : Kept user crypto w₀ w'
  same : r.Same r'
  stored : r'.Stored
  row : ∀ s, s ∈ w'.cryptoReports.rows ↔ s = r' ∨ s ∈ w.cryptoReports.rows ∧ s.id ≠ r.id
  currentPage : w'.currentPage = w.currentPage

theorem Settled.self (h : Kept user crypto w₀ w) (hr : r ∈ w.cryptoReports.rows)
    (hstored : r.Stored) : Settled user crypto w₀ w w r r where
  kept := h
  same := .refl r
  stored := hstored
  row s := by
    constructor
    · intro hs
      exact or_iff_not_imp_left.mpr fun hne => ⟨hs, fun hid => hne (Table.eq_of_key hs hr hid)⟩
    · rintro (rfl | ⟨hs, -⟩)
      · exact hr
      · exact hs
  currentPage := rfl

theorem settled_analyseTransaction {scale : ℤ} (h : Kept user crypto w₀ w)
    (hr : r ∈ w.cryptoReports.rows) (hof : r.Of user crypto)
    (hlast : r.Complete ∨
      w.LastBefore user crypto r.createdAt last ∧ ∀ l, last = some l → l.Stored)
    (hlater : ∀ s ∈ w.cryptoReports.rows, s.Of user crypto → r.createdAt ≤ s.createdAt →
      s ∈ w₀.cryptoReports.rows) :
    Outcome (analyseTransaction services scale currency last r) w
      (fun (r', _) w' => Settled user crypto w₀ w w' r r') fun _ w' => w' = w := by
  refine Outcome.mono (outcome_analyseTransaction scale last) ?_ fun _ _ h => h.1
  rintro ⟨r', updated⟩ w' ⟨hsame, ⟨hincomplete, -, rfl, hbalance, haverage⟩ |
    ⟨hcomplete, -, hw, hr'⟩⟩
  · obtain ⟨hlast, hstored⟩ := hlast.resolve_left hincomplete
    refine ⟨h.put hr hof hsame hlast hstored hbalance haverage hlater, hsame, ?_,
      fun s => mem_put hr hsame, rfl⟩
    rw [CryptoReport.Stored, hbalance]
    exact Option.some_ne_none _
  · rw [hw, hr']
    exact .self h hr hcomplete.stored

/-- Reports that come one after the other, without a gap, and have not been analysed yet. -/
structure Ahead (user : Uuid) (crypto : CurrencyId) (w₀ w : World) (ts : List CryptoReport) :
    Prop where
  row : ∀ r ∈ ts, r ∈ w.cryptoReports.rows ∧ r.Of user crypto
  sorted : ts.Pairwise fun a b => a.createdAt < b.createdAt
  gapless : ∀ s ∈ w.cryptoReports.rows, s.Of user crypto → s ∈ ts ∨
    (∀ r ∈ ts, s.createdAt < r.createdAt) ∨ ∀ r ∈ ts, r.createdAt < s.createdAt
  later : ∀ r ∈ ts, ∀ s ∈ w.cryptoReports.rows, s.Of user crypto → r.createdAt ≤ s.createdAt →
    s ∈ w₀.cryptoReports.rows

/-- The next report comes after the one that was analysed. -/
theorem Ahead.settled
    (h : Ahead user crypto w₀ w (r :: ts)) (hs : Settled user crypto w₀ w w' r r') :
    Ahead user crypto w₀ w' ts ∧
      ∀ next ∈ ts.head?, w'.LastBefore user crypto next.createdAt (some r') := by
  obtain ⟨hfirst, hsorted⟩ := List.pairwise_cons.mp h.sorted
  obtain ⟨⟨hr, hof⟩, hrow⟩ := List.forall_mem_cons.mp h.row
  have hother {t : CryptoReport} (ht : t ∈ ts) : t.id ≠ r.id := by
    intro hid
    exact (hfirst t ht).ne' (congrArg _ (Table.eq_of_key (hrow t ht).1 hr hid))
  have hplace {s : CryptoReport} (hsw : s ∈ w'.cryptoReports.rows) (hsof : s.Of user crypto) :
      s.createdAt ≤ r.createdAt ∨ s ∈ ts ∨ ∀ t ∈ ts, t.createdAt < s.createdAt := by
    rcases (hs.row s).mp hsw with rfl | ⟨hsw, hid⟩
    · exact .inl hs.same.createdAt.le
    · rcases h.gapless s hsw hsof with hmem | hbefore | hafter
      · rcases List.mem_cons.mp hmem with rfl | hmem
        · exact absurd rfl hid
        · exact .inr (.inl hmem)
      · exact .inl (hbefore r List.mem_cons_self).le
      · exact .inr (.inr fun t ht => hafter t (List.mem_cons_of_mem r ht))
  refine ⟨⟨fun t ht => ?_, hsorted, fun s hsw hsof => ?_, fun t ht s hsw hsof hle => ?_⟩, ?_⟩
  · exact ⟨(hs.row t).mpr (.inr ⟨(hrow t ht).1, hother ht⟩), (hrow t ht).2⟩
  · rcases hplace hsw hsof with hle | hmem | hafter
    · exact .inr (.inl fun t ht => hle.trans_lt (hfirst t ht))
    · exact .inl hmem
    · exact .inr (.inr hafter)
  · rcases (hs.row s).mp hsw with rfl | ⟨hsw, -⟩
    · exact absurd hs.same.createdAt.le ((hfirst t ht).trans_le hle).not_ge
    · exact h.later t (List.mem_cons_of_mem r ht) s hsw hsof hle
  · intro next hnext
    obtain ⟨rest, rfl⟩ := List.head?_eq_some_iff.mp hnext
    have hlt := hfirst next List.mem_cons_self
    refine ⟨⟨(hs.row r').mpr (.inl rfl), hs.same.of.mpr hof, hs.same.createdAt ▸ hlt⟩, ?_⟩
    intro s hsw hsof
    rw [hs.same.createdAt]
    rcases hplace hsw hsof with hle | hmem | hafter
    · exact .inl hle
    · rcases List.mem_cons.mp hmem with rfl | hmem
      · exact .inr le_rfl
      · exact .inr ((List.pairwise_cons.mp hsorted).1 s hmem).le
    · exact .inr (hafter next List.mem_cons_self).le

/-- Reports of other users and currencies that are analysed in between. -/
theorem Ahead.put_other (h : Ahead user crypto w₀ w ts)
    (hr : r ∈ w.cryptoReports.rows) (hof : ¬ r.Of user crypto) (hsame : r.Same r') :
    Ahead user crypto w₀ (w.put r') ts := by
  have hback {s : CryptoReport} (hs : s ∈ (w.put r').cryptoReports.rows) (hsof : s.Of user crypto) :
      s ∈ w.cryptoReports.rows := by
    rcases (mem_put hr hsame).mp hs with rfl | ⟨hs, -⟩
    · exact absurd (hsame.of.mp hsof) hof
    · exact hs
  refine ⟨fun t ht => ?_, h.sorted, fun s hs hsof => h.gapless s (hback hs hsof) hsof,
    fun t ht s hs hsof => h.later t ht s (hback hs hsof) hsof⟩
  obtain ⟨htw, htof⟩ := h.row t ht
  refine ⟨(mem_put hr hsame).mpr (.inr ⟨htw, fun hid => hof ?_⟩), htof⟩
  exact Table.eq_of_key htw hr hid ▸ htof

/-! ### A document -/

theorem mem_getAllByUserAndCurrency {ties : Uuid → ℕ} :
    r ∈ w.getAllByUserAndCurrency ties user crypto createdAtStart createdAtEnd ↔
      r ∈ w.cryptoReports.rows ∧ r.Of user crypto ∧
        between createdAtStart createdAtEnd r.createdAt := by
  rw [World.getAllByUserAndCurrency, List.mem_insertionSort, List.mem_filter, decide_eq_true_eq]

/-- An instant outside of a window is before or after all of it. -/
theorem not_between {t : ℤ} (h : ¬ between createdAtStart createdAtEnd t) :
    (∀ t', between createdAtStart createdAtEnd t' → t < t') ∨
      ∀ t', between createdAtStart createdAtEnd t' → t' < t := by
  match createdAtStart, createdAtEnd with
  | none, _ => exact absurd trivial h
  | some _, none => exact absurd trivial h
  | some createdAtStart, some createdAtEnd =>
      rcases not_and_or.mp h with h | h
      · exact .inl fun t' h' => (not_le.mp h).trans_le h'.1
      · exact .inr fun t' h' => h'.2.trans_lt (not_le.mp h)

theorem ahead_getAllByUserAndCurrency (hdistinct : w.Distinct user crypto) (ties : Uuid → ℕ)
    (createdAtStart createdAtEnd : Option ℤ) :
    Ahead user crypto w w
      (w.getAllByUserAndCurrency ties user crypto createdAtStart createdAtEnd) where
  row r hr :=
    have h := mem_getAllByUserAndCurrency.mp hr
    ⟨h.1, h.2.1⟩
  sorted := by
    refine ((List.pairwise_insertionSort (before ties) _).and
      (List.pairwise_map.mp (nodup_query w _ (before ties)))).imp_of_mem ?_
    rintro a b ha hb ⟨hbefore, hne⟩
    obtain ⟨ha, haof, -⟩ := mem_getAllByUserAndCurrency.mp ha
    obtain ⟨hb, hbof, -⟩ := mem_getAllByUserAndCurrency.mp hb
    exact lt_of_le_of_ne hbefore.le fun heq => hne (hdistinct a ha haof b hb hbof heq)
  gapless s hs hsof := by
    by_cases hin : between createdAtStart createdAtEnd s.createdAt
    · exact .inl (mem_getAllByUserAndCurrency.mpr ⟨hs, hsof, hin⟩)
    · refine .inr ((not_between hin).imp ?_ ?_)
      · exact fun h r hr => h _ (mem_getAllByUserAndCurrency.mp hr).2.2
      · exact fun h r hr => h _ (mem_getAllByUserAndCurrency.mp hr).2.2
  later _ _ _ hs _ _ := hs

/-- A document that starts from the user's first report, or from one that is complete. -/
theorem kept_analyseTransactions (h : Kept user crypto w₀ w) (hahead : Ahead user crypto w₀ w ts)
    (hlast : ∀ r ∈ ts.head?, r.Complete ∨
      w.LastBefore user crypto r.createdAt last ∧ ∀ l, last = some l → l.Stored) :
    Outcome (analyseTransactions services currency last ts) w
      (fun _ w' => Kept user crypto w₀ w') fun _ _ => True := by
  induction ts generalizing w last with
  | nil => exact h
  | cons r ts ih =>
      have hr := hahead.row r List.mem_cons_self
      rw [analyseTransactions, outcome_bind]
      refine Outcome.mono (settled_analyseTransaction h hr.1 hr.2 (hlast r rfl)
        (hahead.later r List.mem_cons_self)) ?_ fun _ _ _ => trivial
      rintro ⟨r', updated⟩ w' hsettled
      obtain ⟨hrest, hnext⟩ := hahead.settled hsettled
      rw [outcome_bind]
      refine Outcome.mono (ih hsettled.kept hrest fun next hmem => .inr ⟨hnext next hmem, ?_⟩) ?_
        fun _ _ h => h
      · rintro l ⟨⟩
        exact hsettled.stored
      · exact fun _ _ hkept => hkept

theorem kept_analyseTransactions_other (h : Kept user crypto w₀ w)
    (hrow : ∀ r ∈ ts, r ∈ w.cryptoReports.rows ∧ ¬ r.Of user crypto)
    (hids : ts.Pairwise fun a b => a.id ≠ b.id) :
    Outcome (analyseTransactions services currency last ts) w
      (fun _ w' => Kept user crypto w₀ w') fun _ _ => True := by
  induction ts generalizing w last with
  | nil => exact h
  | cons r ts ih =>
      obtain ⟨⟨hr, hof⟩, hrow⟩ := List.forall_mem_cons.mp hrow
      obtain ⟨hne, hids⟩ := List.pairwise_cons.mp hids
      rw [analyseTransactions, outcome_bind]
      refine Outcome.mono (outcome_analyseTransaction 100 last) ?_ fun _ _ _ => trivial
      rintro ⟨r', updated⟩ w' ⟨hsame, ⟨-, -, hw, -⟩ | ⟨-, -, hw, -⟩⟩
      · rw [hw, outcome_bind]
        refine Outcome.mono (ih (h.put_other hr hof hsame) (fun t ht => ⟨?_, (hrow t ht).2⟩) hids)
          (fun _ _ hkept => hkept) fun _ _ h => h
        exact (mem_put hr hsame).mpr (.inr ⟨(hrow t ht).1, (hne t ht).symm⟩)
      · rw [hw, outcome_bind]
        exact Outcome.mono (ih h hrow hids) (fun _ _ hkept => hkept) fun _ _ h => h

theorem Kept.congr (h : Kept user crypto w₀ w)
    (heq : w'.cryptoReports = w.cryptoReports) : Kept user crypto w₀ w' := by
  cases w
  cases w'
  subst heq
  exact ⟨h.sum, h.distinct, h.balanced, h.like, h.row⟩

/-- What a document analyses is a query's result. -/
theorem requested_eq (w : World) (user : Uuid) (crypto : CurrencyId) (ties : Uuid → ℕ)
    (createdAtStart createdAtEnd : Option ℤ) :
    ∃ start, w.requested user crypto ties createdAtStart createdAtEnd =
      w.getAllByUserAndCurrency ties user crypto start createdAtEnd := by
  rw [World.requested]
  split
  · next hnil => exact ⟨createdAtStart, hnil.symm⟩
  · next hcons =>
    split
    · exact ⟨some startDate, rfl⟩
    · exact ⟨createdAtStart, hcons.symm⟩

/-- The document of a user in a currency starts from the first report, or from one that is
complete. -/
theorem kept_getCryptoReport {requester : Uuid} (hdistinct : w.Distinct user crypto)
    (hbalanced : w.Balanced user crypto)
    (hfirst : ∀ currency, services.getCurrencyBySymbol = .ok (some currency) → requester = user →
      currency.id = crypto →
        ∀ r ∈ (w.requested user crypto services.ties createdAtStart createdAtEnd).head?,
          r.Complete ∨ w.LastBefore user crypto r.createdAt none) :
    Kept user crypto w (left (transaction World.rollback
      (getCryptoReport services requester createdAtStart createdAtEnd)) w) := by
  have hkept := Kept.refl hdistinct hbalanced
  refine left_transaction_iff.mpr ?_
  have hback (w' : World) : Kept user crypto w (World.rollback w w') := hkept.congr rfl
  rw [getCryptoReport, outcome_bind, outcome_call]
  refine ⟨fun _ _ => hback w, fun found _ => ?_⟩
  rw [outcome_bind, outcome_throwIf]
  refine ⟨fun _ => hback w, fun _ => ?_⟩
  rw [outcome_bind, outcome_call]
  refine ⟨fun _ _ => hback w, fun currencyFound hcurrency => ?_⟩
  rw [outcome_bind, outcome_orThrow]
  refine ⟨fun _ => hback w, fun currency hsome => ?_⟩
  rw [hsome] at hcurrency
  rw [outcome_bind, outcome_get]
  dsimp only
  split
  · exact hback w
  · next first rest htransactions =>
    rw [outcome_bind]
    refine Outcome.mono (P := fun _ w' => Kept user crypto w w') (E := fun _ _ => True) ?_ ?_
      fun _ w' _ => hback w'
    · have hall : (if falsy first.avgPrice ∨ falsy first.cryptoBalance then
            w.getAllByUserAndCurrency services.ties requester currency.id (some startDate)
              createdAtEnd
          else w.getAllByUserAndCurrency services.ties requester currency.id createdAtStart
            createdAtEnd) =
          w.requested requester currency.id services.ties createdAtStart createdAtEnd := by
        rw [World.requested, htransactions]
      obtain ⟨start, hstart⟩ := requested_eq w requester currency.id services.ties createdAtStart
        createdAtEnd
      rw [hall]
      by_cases hof : requester = user ∧ currency.id = crypto
      · obtain ⟨rfl, rfl⟩ := hof
        refine kept_analyseTransactions hkept ?_ fun r hr => ?_
        · exact hstart ▸ ahead_getAllByUserAndCurrency hdistinct ..
        · exact (hfirst currency hcurrency rfl rfl r hr).imp_right fun h =>
            ⟨h, fun _ hl => (Option.some_ne_none _ hl.symm).elim⟩
      · rw [hstart]
        refine kept_analyseTransactions_other hkept (fun r hr => ?_)
          (List.pairwise_map.mp (nodup_query ..))
        obtain ⟨hr, hrof, -⟩ := mem_getAllByUserAndCurrency.mp hr
        exact ⟨hr, fun h => hof ⟨hrof.1.symm.trans h.1, hrof.2.symm.trans h.2⟩⟩
    · intro analysed w' hw'
      rw [outcome_bind, outcome_call]
      exact ⟨fun _ _ => hback w', fun _ _ => hw'⟩

/-! ### The job -/

theorem World.LastBefore.unique (hdistinct : w.Distinct user crypto) {t : ℤ}
    {last' : Option CryptoReport} (h : w.LastBefore user crypto t last)
    (h' : w.LastBefore user crypto t last') : last = last' := by
  cases last with
  | none =>
      cases last' with
      | none => rfl
      | some b => exact absurd (h b h'.1.1 h'.1.2.1) h'.1.2.2.not_ge
  | some a =>
      cases last' with
      | none => exact absurd (h' a h.1.1 h.1.2.1) h.1.2.2.not_ge
      | some b =>
          obtain ⟨⟨ha, haof, hat⟩, habetween⟩ := h
          obtain ⟨⟨hb, hbof, hbt⟩, hbbetween⟩ := h'
          have hba := (habetween b hb hbof).resolve_right hbt.not_ge
          have hab := (hbbetween a ha haof).resolve_right hat.not_ge
          have hid := hdistinct a ha haof b hb hbof (le_antisymm hab hba)
          exact congrArg some (Table.eq_of_key ha hb hid)

/-- The second of the last two reports up to a report is the one before it. -/
theorem lastBefore_getLastBeforeDate (hdistinct : w.Distinct user crypto) (ties : Uuid → ℕ)
    (hr : r ∈ w.cryptoReports.rows) (hof : r.Of user crypto) :
    w.LastBefore user crypto r.createdAt
      (w.getLastBeforeDateByUserAndCurrency ties r.user r.crypto r.createdAt) := by
  rw [hof.1, hof.2, World.getLastBeforeDateByUserAndCurrency]
  generalize hl : (w.cryptoReports.rows.filter fun s =>
    decide (s.Of user crypto ∧ s.createdAt ≤ r.createdAt)).insertionSort
      (fun a b => before ties b a) = l
  have hmem (s : CryptoReport) : s ∈ l ↔
      s ∈ w.cryptoReports.rows ∧ s.Of user crypto ∧ s.createdAt ≤ r.createdAt := by
    rw [← hl, List.mem_insertionSort, List.mem_filter, decide_eq_true_eq]
  have hsorted : l.Pairwise fun a b => b.createdAt < a.createdAt := by
    have : Std.Total fun a b => before ties b a := ⟨fun a b => Std.Total.total b a⟩
    have : IsTrans CryptoReport fun a b => before ties b a :=
      ⟨fun _ _ _ hab hbc => IsTrans.trans _ _ _ hbc hab⟩
    have hids := List.pairwise_map.mp (nodup_query w
      (fun s => decide (s.Of user crypto ∧ s.createdAt ≤ r.createdAt)) fun a b => before ties b a)
    rw [hl] at hids
    refine ((hl ▸ List.pairwise_insertionSort (fun a b => before ties b a) _).and hids).imp_of_mem ?_
    rintro a b ha hb ⟨hbefore, hne⟩
    obtain ⟨ha, haof, -⟩ := (hmem a).mp ha
    obtain ⟨hb, hbof, -⟩ := (hmem b).mp hb
    exact lt_of_le_of_ne hbefore.le fun heq => hne (hdistinct a ha haof b hb hbof heq.symm)
  -- the report itself is the first one
  obtain ⟨rest, rfl⟩ : ∃ rest, l = r :: rest := by
    have hrl : r ∈ l := (hmem r).mpr ⟨hr, hof, le_rfl⟩
    cases l with
    | nil => cases hrl
    | cons a rest =>
        rcases List.mem_cons.mp hrl with rfl | hrest
        · exact ⟨rest, rfl⟩
        · have hlt := (List.pairwise_cons.mp hsorted).1 r hrest
          exact absurd ((hmem a).mp List.mem_cons_self).2.2 hlt.not_ge
  obtain ⟨hfirst, hrest⟩ := List.pairwise_cons.mp hsorted
  have hplace (s : CryptoReport) (hs : s ∈ w.cryptoReports.rows) (hsof : s.Of user crypto) :
      s ∈ rest ∨ r.createdAt ≤ s.createdAt := by
    rcases le_or_gt r.createdAt s.createdAt with hle | hlt
    · exact .inr hle
    · rcases List.mem_cons.mp ((hmem s).mpr ⟨hs, hsof, hlt.le⟩) with rfl | hs
      · exact absurd hlt (lt_irrefl _)
      · exact .inl hs
  rw [List.getElem?_cons_succ]
  cases rest with
  | nil => exact fun s hs hsof => (hplace s hs hsof).resolve_left List.not_mem_nil
  | cons b rest =>
      obtain ⟨hb, hbof, -⟩ := (hmem b).mp (.tail _ (.head _))
      refine ⟨⟨hb, hbof, hfirst b List.mem_cons_self⟩, fun s hs hsof => ?_⟩
      refine (hplace s hs hsof).imp_left fun hsrest => ?_
      rcases List.mem_cons.mp hsrest with rfl | hsrest
      · exact le_rfl
      · exact ((List.pairwise_cons.mp hrest).1 s hsrest).le

/-- The reports of the user in the currency on what is left of a page. -/
def ofUser (user : Uuid) (crypto : CurrencyId) (ts : List CryptoReport) : List CryptoReport :=
  ts.filter fun r => decide (r.Of user crypto)

theorem mem_ofUser : r ∈ ofUser user crypto ts ↔ r ∈ ts ∧ r.Of user crypto := by
  rw [ofUser, List.mem_filter, decide_eq_true_eq]

theorem ofUser_cons (hof : r.Of user crypto) :
    ofUser user crypto (r :: ts) = r :: ofUser user crypto ts :=
  List.filter_cons_of_pos (by simpa using hof)

theorem ofUser_cons_other (hof : ¬ r.Of user crypto) :
    ofUser user crypto (r :: ts) = ofUser user crypto ts :=
  List.filter_cons_of_neg (by simpa using hof)

/-- A page is gone through from its place on: the report before the next one has its balance, and
where the job holds a report of the user, it is that one. -/
structure Sweep (user : Uuid) (crypto : CurrencyId) (w₀ w : World)
    (c : Option CryptoReportCurrentPage) (newUpdates ts : List CryptoReport) : Prop where
  kept : Kept user crypto w₀ w
  row : ∀ r ∈ ts, r ∈ w.cryptoReports.rows
  ids : ts.Pairwise fun a b => a.id ≠ b.id
  ahead : Ahead user crypto w₀ w (ofUser user crypto ts)
  last : ∀ r ∈ (ofUser user crypto ts).head?, ∃ last, w.LastBefore user crypto r.createdAt last ∧
    (∀ l, last = some l → l.Stored) ∧ ∀ n ∈ newUpdates, n.Of user crypto → last = some n
  held : newUpdates.countP (fun n => decide (n.Of user crypto)) ≤ 1
  skipped : ∀ r ∈ ts, c.map (·.lastUpdatedCryptoReportId) = some r.id →
    newUpdates = [] ∧ (r.Of user crypto → r.Stored)

/-- What the job has done with a page, of the user's reports. -/
structure Swept (user : Uuid) (crypto : CurrencyId) (ts : List CryptoReport)
    (c c' : Option CryptoReportCurrentPage) (w w' : World) : Prop where
  stays : ∀ r ∈ w.cryptoReports.rows, r.Of user crypto → r.Stored →
    ∃ r' ∈ w'.cryptoReports.rows, r'.id = r.id ∧ r'.Stored
  stored : ∀ r ∈ ts, r.Of user crypto → ∃ r' ∈ w'.cryptoReports.rows, r'.id = r.id ∧ r'.Stored
  place : c' = c ∨ ∃ r ∈ ts, c' = some ⟨r.id, r.createdAt⟩

/-- The transaction before that the job finds for a report of the user. -/
theorem Sweep.outcome_findLast
    (h : Sweep user crypto w₀ w c newUpdates (r :: ts)) (hof : r.Of user crypto) :
    Outcome (findLast services newUpdates r) w
      (fun (last, newUpdates') w' => w' = w ∧ w.LastBefore user crypto r.createdAt last ∧
        (∀ l, last = some l → l.Stored) ∧ ∀ n ∈ newUpdates', ¬ n.Of user crypto)
      fun _ _ => False := by
  have hr := h.row r List.mem_cons_self
  have hhead : r ∈ (ofUser user crypto (r :: ts)).head? := by
    rw [ofUser_cons hof]
    rfl
  obtain ⟨last, hlast, hstored, hheld⟩ := h.last r hhead
  rw [findLast, hof.1, hof.2]
  split
  · next n hn =>
    have hnof : n.Of user crypto := of_decide_eq_true (List.find?_some hn :)
    have hmem := List.mem_of_find?_eq_some hn
    have hsome := hheld n hmem hnof
    refine ⟨rfl, hsome ▸ hlast, fun l hl => hstored l (hsome.trans hl), ?_⟩
    have hcount : (newUpdates.erase n).countP (fun n => decide (n.Of user crypto)) = 0 := by
      rw [List.countP_erase, if_pos ⟨hmem, decide_eq_true hnof⟩]
      have := h.held
      omega
    intro n' hn'
    simpa using List.countP_eq_zero.mp hcount n' hn'
  · next hnone =>
    have hfound := lastBefore_getLastBeforeDate h.kept.distinct services.ties hr hof
    rw [hof.1, hof.2] at hfound
    refine ⟨rfl, hfound, fun l hl => hstored l ?_, fun n hn => ?_⟩
    · exact (hlast.unique h.kept.distinct hfound).trans hl
    · simpa using List.find?_eq_none.mp hnone n hn

theorem outcome_findLast_sublist :
    Outcome (findLast services newUpdates r) w
      (fun (_, newUpdates') w' => w' = w ∧ newUpdates'.Sublist newUpdates) fun _ _ => False := by
  rw [findLast]
  split
  · exact ⟨rfl, List.erase_sublist⟩
  · exact ⟨rfl, .refl _⟩

/-- The job goes on after a report of the user. -/
theorem Sweep.settled {newUpdates' : List CryptoReport}
    (h : Sweep user crypto w₀ w c newUpdates (r :: ts)) (hof : r.Of user crypto)
    (hs : Settled user crypto w₀ w w' r r')
    (hheld : ∀ n ∈ newUpdates', n.Of user crypto → n = r')
    (hcount : newUpdates'.countP (fun n => decide (n.Of user crypto)) ≤ 1)
    (hskipped : ∀ t ∈ ts, c'.map (·.lastUpdatedCryptoReportId) = some t.id →
      newUpdates' = [] ∧ (t.Of user crypto → t.Stored)) :
    Sweep user crypto w₀ w' c' newUpdates' ts := by
  obtain ⟨hne, hids⟩ := List.pairwise_cons.mp h.ids
  have hahead := h.ahead
  rw [ofUser_cons hof] at hahead
  obtain ⟨hrest, hnext⟩ := hahead.settled hs
  refine ⟨hs.kept, fun t ht => ?_, hids, hrest, fun next hmem => ?_, hcount, hskipped⟩
  · exact (hs.row t).mpr (.inr ⟨h.row t (List.mem_cons_of_mem r ht), (hne t ht).symm⟩)
  · refine ⟨some r', hnext next hmem, ?_, fun n hn hnof => congrArg some (hheld n hn hnof).symm⟩
    rintro l ⟨⟩
    exact hs.stored

/-- The job goes on after a report of another user or currency. -/
theorem Sweep.put_other {newUpdates' : List CryptoReport}
    (h : Sweep user crypto w₀ w c newUpdates (r :: ts)) (hof : ¬ r.Of user crypto)
    (hsame : r.Same r')
    (hheld : ∀ n ∈ newUpdates', n.Of user crypto → n ∈ newUpdates)
    (hcount : newUpdates'.countP (fun n => decide (n.Of user crypto)) ≤ 1)
    (hskipped : ∀ t ∈ ts, c'.map (·.lastUpdatedCryptoReportId) = some t.id →
      newUpdates' = [] ∧ (t.Of user crypto → t.Stored)) :
    Sweep user crypto w₀ (w.put r') c' newUpdates' ts := by
  obtain ⟨hne, hids⟩ := List.pairwise_cons.mp h.ids
  have hr := h.row r List.mem_cons_self
  have hahead := h.ahead
  have hlast := h.last
  rw [ofUser_cons_other hof] at hahead hlast
  refine ⟨h.kept.put_other hr hof hsame, fun t ht => ?_, hids, hahead.put_other hr hof hsame,
    fun next hmem => ?_, hcount, hskipped⟩
  · exact (mem_put hr hsame).mpr
      (.inr ⟨h.row t (List.mem_cons_of_mem r ht), (hne t ht).symm⟩)
  · obtain ⟨last, hbefore, hstored, heq⟩ := hlast next hmem
    refine ⟨last, hbefore.put hr hsame ?_, hstored, fun n hn hnof => heq n (hheld n hn hnof) hnof⟩
    rintro l rfl hid
    exact hof (Table.eq_of_key hbefore.1.1 hr hid ▸ hbefore.1.2.1)

theorem Sweep.congr (h : Sweep user crypto w₀ w c newUpdates ts)
    (heq : w'.cryptoReports = w.cryptoReports) : Sweep user crypto w₀ w' c newUpdates ts := by
  cases w
  cases w'
  subst heq
  exact ⟨h.kept.congr rfl, h.row, h.ids,
    ⟨h.ahead.row, h.ahead.sorted, h.ahead.gapless, h.ahead.later⟩, h.last, h.held, h.skipped⟩

/-- A report, and then the rest of the page. -/
theorem Swept.cons {w₁ : World} {c₁ : Option CryptoReportCurrentPage}
    (h : Swept user crypto ts c₁ c' w₁ w')
    (hstays : ∀ s ∈ w.cryptoReports.rows, s.Of user crypto → s.Stored →
      ∃ s' ∈ w₁.cryptoReports.rows, s'.id = s.id ∧ s'.Of user crypto ∧ s'.Stored)
    (hr : r.Of user crypto →
      ∃ r' ∈ w₁.cryptoReports.rows, r'.id = r.id ∧ r'.Of user crypto ∧ r'.Stored)
    (hc : c₁ = c ∨ c₁ = some ⟨r.id, r.createdAt⟩) :
    Swept user crypto (r :: ts) c c' w w' where
  stays s hs hsof hstored := by
    obtain ⟨s₁, hs₁, hid, hof, hst⟩ := hstays s hs hsof hstored
    obtain ⟨s₂, hs₂, hid', hst'⟩ := h.stays s₁ hs₁ hof hst
    exact ⟨s₂, hs₂, hid'.trans hid, hst'⟩
  stored := by
    refine List.forall_mem_cons.mpr ⟨fun hof => ?_, h.stored⟩
    obtain ⟨r₁, hr₁, hid, hof, hst⟩ := hr hof
    obtain ⟨r₂, hr₂, hid', hst'⟩ := h.stays r₁ hr₁ hof hst
    exact ⟨r₂, hr₂, hid'.trans hid, hst'⟩
  place := by
    rcases h.place with rfl | ⟨s, hs, hs'⟩
    · exact hc.imp_right fun heq => ⟨r, List.mem_cons_self, heq⟩
    · exact .inr ⟨s, List.mem_cons_of_mem r hs, hs'⟩

/-- Stored reports stay. -/
theorem Settled.stays (hs : Settled user crypto w₀ w w' r r') (hof : r.Of user crypto)
    (hsw : s ∈ w.cryptoReports.rows) (hsof : s.Of user crypto) (hstored : s.Stored) :
    ∃ s' ∈ w'.cryptoReports.rows, s'.id = s.id ∧ s'.Of user crypto ∧ s'.Stored := by
  by_cases hid : s.id = r.id
  · exact ⟨r', (hs.row r').mpr (.inl rfl), hs.same.id.trans hid.symm, hs.same.of.mpr hof, hs.stored⟩
  · exact ⟨s, (hs.row s).mpr (.inr ⟨hsw, hid⟩), rfl, hsof, hstored⟩

theorem sweep_syncPage (h : Sweep user crypto w₀ w c newUpdates ts) :
    Outcome (syncPage services c newUpdates ts) w
      (fun c' w' => Kept user crypto w₀ w' ∧ w'.currentPage = w.currentPage ∧
        Swept user crypto ts c c' w w')
      fun _ w' => Kept user crypto w₀ w' ∧ w'.currentPage = w.currentPage := by
  induction ts generalizing w c newUpdates with
  | nil =>
      exact ⟨h.kept, rfl, fun r hr _ hs => ⟨r, hr, rfl, hs⟩, fun _ h => absurd h List.not_mem_nil,
        .inl rfl⟩
  | cons r ts ih =>
      have hr := h.row r List.mem_cons_self
      have hne := (List.pairwise_cons.mp h.ids).1
      rw [syncPage]
      split
      · next hskip =>
        obtain ⟨rfl, hstored⟩ := h.skipped r List.mem_cons_self hskip
        have hskipped := (List.forall_mem_cons.mp h.skipped).2
        have hrest : Sweep user crypto w₀ w c [] ts := by
          by_cases hof : r.Of user crypto
          · exact h.settled hof (.self h.kept hr (hstored hof))
              (fun _ hn => absurd hn List.not_mem_nil) h.held hskipped
          · have := h.put_other hof (.refl r) (fun _ hn _ => hn) h.held hskipped
            rwa [put_self hr] at this
        refine Outcome.mono (ih hrest) ?_ fun _ _ h => h
        rintro c' w' ⟨hkept, hpage, hswept⟩
        exact ⟨hkept, hpage, hswept.cons (fun s hs hsof hst => ⟨s, hs, rfl, hsof, hst⟩)
          (fun hof => ⟨r, hr, rfl, hof, hstored hof⟩) (.inl rfl)⟩
      · rw [outcome_bind, outcome_call]
        refine ⟨fun _ _ => ⟨h.kept, rfl⟩, fun found _ => ?_⟩
        rw [outcome_bind, outcome_orThrow]
        refine ⟨fun _ => ⟨h.kept, rfl⟩, fun currency _ => ?_⟩
        rw [outcome_bind]
        -- after its own report, the job skips none
        have hskipped {newUpdates' : List CryptoReport} (t : CryptoReport) (ht : t ∈ ts)
            (hid : (some (CryptoReportCurrentPage.mk r.id r.createdAt)).map
              (·.lastUpdatedCryptoReportId) = some t.id) :
            newUpdates' = [] ∧ (t.Of user crypto → t.Stored) :=
          absurd (Option.some.inj hid) (hne t ht)
        by_cases hof : r.Of user crypto
        · refine Outcome.mono (h.outcome_findLast hof) ?_ fun _ _ h => h.elim
          rintro ⟨last, newUpdates'⟩ w₁ ⟨hw₁, hlast, hstored, hnone⟩
          have hhead : r ∈ ofUser user crypto (r :: ts) := mem_ofUser.mpr ⟨List.mem_cons_self, hof⟩
          rw [hw₁, outcome_bind]
          refine Outcome.mono (settled_analyseTransaction h.kept hr hof (.inr ⟨hlast, hstored⟩)
            (h.ahead.later r hhead)) ?_ ?_
          · rintro ⟨r', updated⟩ w₂ hs
            rw [outcome_bind, outcome_modify, hs.same.id, hs.same.createdAt]
            have hzero : newUpdates'.countP (fun n => decide (n.Of user crypto)) = 0 :=
              List.countP_eq_zero.mpr fun n hn => by simpa using hnone n hn
            have hnext : Sweep user crypto w₀ w₂ (some ⟨r.id, r.createdAt⟩)
                (if updated then newUpdates' ++ [r'] else newUpdates') ts := by
              refine h.settled hof hs (fun n hn hnof => ?_) ?_ hskipped
              · split at hn
                · rcases List.mem_append.mp hn with hn | hn
                  · exact absurd hnof (hnone n hn)
                  · exact List.mem_singleton.mp hn
                · exact absurd hnof (hnone n hn)
              · split
                · rw [List.countP_append, hzero, zero_add]
                  exact List.countP_le_length
                · exact hzero.trans_le zero_le_one
            refine Outcome.mono (ih (hnext.congr rfl)) ?_ fun _ _ h => ⟨h.1, h.2.trans hs.currentPage⟩
            rintro c' w' ⟨hkept, hpage, hswept⟩
            refine ⟨hkept, hpage.trans hs.currentPage, hswept.cons (fun s hsw hsof hst => ?_)
              (fun _ => ?_) (.inr rfl)⟩
            · exact hs.stays hof hsw hsof hst
            · exact ⟨r', (hs.row r').mpr (.inl rfl), hs.same.id, hs.same.of.mpr hof, hs.stored⟩
          · rintro e w₂ rfl
            exact ⟨h.kept, rfl⟩
        · refine Outcome.mono outcome_findLast_sublist ?_ fun _ _ h => h.elim
          rintro ⟨last, newUpdates'⟩ w₁ ⟨hw₁, hsub⟩
          rw [hw₁, outcome_bind]
          have hcount := (hsub.countP_le (p := fun n => decide (n.Of user crypto))).trans h.held
          refine Outcome.mono (outcome_analyseTransaction 10000 last) ?_ ?_
          · rintro ⟨r', updated⟩ w₂ ⟨hsame, hw₂⟩
            obtain rfl : w₂ = w.put r' := by
              rcases hw₂ with ⟨-, -, rfl, -⟩ | ⟨-, -, rfl, rfl⟩
              · rfl
              · exact (put_self hr).symm
            have hother : ¬ r'.Of user crypto := fun h => hof (hsame.of.mp h)
            rw [outcome_bind, outcome_modify, hsame.id, hsame.createdAt]
            have hnext : Sweep user crypto w₀ (w.put r') (some ⟨r.id, r.createdAt⟩)
                (if updated then newUpdates' ++ [r'] else newUpdates') ts := by
              refine h.put_other hof hsame (fun n hn hnof => ?_) ?_ hskipped
              · split at hn
                · rcases List.mem_append.mp hn with hn | hn
                  · exact hsub.subset hn
                  · exact absurd (List.mem_singleton.mp hn ▸ hnof) hother
                · exact hsub.subset hn
              · split
                · rw [List.countP_append, List.countP_singleton, if_neg (by simpa using hother)]
                  exact hcount
                · exact hcount
            refine Outcome.mono (ih (hnext.congr rfl)) ?_ fun _ _ h => h
            rintro c' w' ⟨hkept, hpage, hswept⟩
            refine ⟨hkept, hpage, hswept.cons (fun s hsw hsof hst => ?_)
              (fun h => absurd h hof) (.inr rfl)⟩
            refine ⟨s, (mem_put hr hsame).mpr (.inr ⟨hsw, fun hid => hof ?_⟩), rfl, hsof, hst⟩
            exact Table.eq_of_key hsw hr hid ▸ hsof
          · rintro e w₂ ⟨rfl, -⟩
            exact ⟨h.kept, rfl⟩

/-- The reports from the beginning up to the job's place have their balances. -/
structure Sound (user : Uuid) (crypto : CurrencyId) (w : World) : Prop where
  distinct : w.Distinct user crypto
  balanced : w.Balanced user crypto
  swept : ∀ r ∈ w.cryptoReports.rows, r.Of user crypto → startDate ≤ r.createdAt →
    r.createdAt < w.place → r.Stored
  cursor : ∀ page, w.currentPage = some page → ∀ r ∈ w.cryptoReports.rows, r.Of user crypto →
    r.id = page.lastUpdatedCryptoReportId → r.Stored

/-- What was stored stays stored. -/
theorem Kept.stored (h : Kept user crypto w₀ w) (hr : r ∈ w₀.cryptoReports.rows)
    (hof : r.Of user crypto) (hr' : r' ∈ w.cryptoReports.rows) (hid : r'.id = r.id)
    (hstored : r.Stored) : r'.Stored := by
  obtain ⟨s, hs, hsame, hs'⟩ := h.row r hr hof
  obtain rfl := Table.eq_of_key hr' hs (hid.trans hsame.id.symm)
  rcases hs' with rfl | ⟨hs', -⟩
  · exact hstored
  · exact hs'

/-- A document, or a run of the job that failed. -/
theorem Sound.kept (h : Sound user crypto w) (hkept : Kept user crypto w w')
    (hpage : w'.currentPage = w.currentPage) : Sound user crypto w' where
  distinct := hkept.distinct
  balanced := hkept.balanced
  swept r' hr' hof hstart hlt := by
    obtain ⟨r, hr, hsame⟩ := hkept.like r' hr'
    have hof' := hsame.of.mp hof
    rw [World.place, hpage] at hlt
    rw [hsame.createdAt] at hstart hlt
    exact hkept.stored hr hof' hr' hsame.id (h.swept r hr hof' hstart hlt)
  cursor page hcurrent r' hr' hof hid := by
    obtain ⟨r, hr, hsame⟩ := hkept.like r' hr'
    have hof' := hsame.of.mp hof
    exact hkept.stored hr hof' hr' hsame.id
      (h.cursor page (hpage ▸ hcurrent) r hr hof' (hsame.id.symm.trans hid))

theorem on_page_of_lt {ties : Uuid → ℕ} {pageSize : ℕ}
    (hr : r ∈ w.getAllFromDate ties w.place pageSize) (hs : s ∈ w.cryptoReports.rows)
    (hlt : s.createdAt < r.createdAt) :
    s.createdAt < w.place ∨ s ∈ w.getAllFromDate ties w.place pageSize := by
  refine or_iff_not_imp_left.mpr fun hplace => ?_
  refine mem_take_of_not_rel (sorted_fromDate w ties w.place) hr
    (mem_fromDate.mpr ⟨hs, not_lt.mp hplace⟩) fun hbefore => ?_
  exact hbefore.le.not_gt hlt

/-- A run of the job begins. -/
theorem Sound.sweep (h : Sound user crypto w) (ties : Uuid → ℕ) (pageSize : ℕ)
    (hearly : ∀ r ∈ (ofUser user crypto (w.getAllFromDate ties w.place pageSize)).head?, ∀ l,
      w.LastBefore user crypto r.createdAt (some l) → l.createdAt < startDate → l.Stored) :
    Sweep user crypto w w w.currentPage [] (w.getAllFromDate ties w.place pageSize) := by
  have hrow {r : CryptoReport} (hr : r ∈ ofUser user crypto (w.getAllFromDate ties w.place pageSize)) :
      r ∈ w.cryptoReports.rows ∧ r.Of user crypto ∧ w.place ≤ r.createdAt := by
    obtain ⟨hr, hof⟩ := mem_ofUser.mp hr
    exact ⟨(mem_page hr).1, hof, (mem_page hr).2⟩
  have hids := (List.pairwise_map.mp (nodup_fromDate w ties w.place)).sublist
    (List.take_sublist pageSize _)
  have hsorted : (ofUser user crypto (w.getAllFromDate ties w.place pageSize)).Pairwise
      fun a b => a.createdAt < b.createdAt := by
    have hpage := ((sorted_fromDate w ties w.place).sublist (List.take_sublist pageSize _)).and hids
    refine (hpage.sublist List.filter_sublist).imp_of_mem ?_
    rintro a b ha hb ⟨hbefore, hne⟩
    obtain ⟨ha, haof, -⟩ := hrow ha
    obtain ⟨hb, hbof, -⟩ := hrow hb
    exact lt_of_le_of_ne hbefore.le fun heq => hne (h.distinct a ha haof b hb hbof heq)
  refine ⟨.refl h.distinct h.balanced, fun r hr => (mem_page hr).1, hids,
    ⟨fun r hr => ⟨(hrow hr).1, (hrow hr).2.1⟩, hsorted, fun s hs hsof => ?_, fun _ _ _ hs _ _ => hs⟩,
    fun r hr => ?_, Nat.zero_le 1, fun r hr hid => ⟨rfl, fun hof => ?_⟩⟩
  · by_cases hplace : s.createdAt < w.place
    · exact .inr (.inl fun r hr => hplace.trans_le (hrow hr).2.2)
    by_cases hon : s ∈ w.getAllFromDate ties w.place pageSize
    · exact .inl (mem_ofUser.mpr ⟨hon, hsof⟩)
    refine .inr (.inr fun r hr => ?_)
    obtain ⟨hrw, hrof, -⟩ := hrow hr
    rcases lt_trichotomy r.createdAt s.createdAt with hlt | heq | hgt
    · exact hlt
    · obtain rfl := Table.eq_of_key hrw hs (h.distinct r hrw hrof s hs hsof heq)
      exact absurd (mem_ofUser.mp hr).1 hon
    · exact absurd (on_page_of_lt (mem_ofUser.mp hr).1 hs hgt) (not_or.mpr ⟨hplace, hon⟩)
  · obtain ⟨rest, hrest⟩ := List.head?_eq_some_iff.mp hr
    rw [hrest] at hsorted hrow
    obtain ⟨hrw, hrof, -⟩ := hrow List.mem_cons_self
    have hlast := lastBefore_getLastBeforeDate h.distinct ties hrw hrof
    refine ⟨_, hlast, fun l hl => ?_, fun n hn => absurd hn List.not_mem_nil⟩
    rw [hl] at hlast
    by_cases hstart : l.createdAt < startDate
    · exact hearly r hr l hlast hstart
    obtain ⟨⟨hlw, hlof, hlt⟩, -⟩ := hlast
    have hpage : r ∈ w.getAllFromDate ties w.place pageSize :=
      (mem_ofUser.mp (hrest ▸ List.mem_cons_self)).1
    rcases on_page_of_lt hpage hlw hlt with hplace | hon
    · exact h.swept l hlw hlof (not_lt.mp hstart) hplace
    -- the report before would come before the first one of the page
    · rcases List.mem_cons.mp (hrest ▸ mem_ofUser.mpr ⟨hon, hlof⟩) with rfl | hmem
      · exact absurd hlt (lt_irrefl _)
      · exact absurd ((List.pairwise_cons.mp hsorted).1 l hmem) hlt.not_gt
  · obtain ⟨page, hpage, hpid⟩ := Option.map_eq_some_iff.mp hid
    exact h.cursor page hpage r (mem_page hr).1 hof hpid.symm

/-- A run of the job, whether or not it fails. -/
theorem Sound.syncUpdateCryptoReport (h : Sound user crypto w) (services : Services) (pageSize : ℕ)
    (hearly : ∀ r ∈ (ofUser user crypto (w.getAllFromDate services.ties w.place pageSize)).head?,
      ∀ l, w.LastBefore user crypto r.createdAt (some l) → l.createdAt < startDate → l.Stored) :
    Kept user crypto w (left (syncUpdateCryptoReport services pageSize) w) ∧
      Sound user crypto (left (syncUpdateCryptoReport services pageSize) w) := by
  refine left_iff (P := fun w' => Kept user crypto w w' ∧ Sound user crypto w').mpr ?_
  have hplace : (w.currentPage.map (·.lastUpdatedCryptoReportCreatedAt)).getD startDate = w.place :=
    rfl
  rw [CryptoReports.syncUpdateCryptoReport, outcome_bind, outcome_get]
  dsimp only
  rw [hplace]
  split
  · exact ⟨.refl h.distinct h.balanced, h⟩
  · rw [outcome_bind]
    refine Outcome.mono (sweep_syncPage (h.sweep services.ties pageSize hearly)) ?_
      fun _ w' hw' => ⟨hw'.1, h.kept hw'.1 hw'.2⟩
    rintro c' w' ⟨hkept, hpage, hswept⟩
    have hkept' : Kept user crypto w { w' with currentPage := c' } := hkept.congr rfl
    rw [outcome_modify]
    rcases hswept.place with rfl | ⟨p, hp, rfl⟩
    · exact ⟨hkept', h.kept hkept' rfl⟩
    have hstored {r r' : CryptoReport} (hr : r ∈ w.getAllFromDate services.ties w.place pageSize)
        (hof : r.Of user crypto) (hr' : r' ∈ w'.cryptoReports.rows) (hid : r'.id = r.id) :
        r'.Stored := by
      obtain ⟨s, hs, hsid, hst⟩ := hswept.stored r hr hof
      obtain rfl := Table.eq_of_key hr' hs (hid.trans hsid.symm)
      exact hst
    refine ⟨hkept', hkept'.distinct, hkept'.balanced, fun r' hr' hof hstart hlt => ?_,
      fun page hcurrent r' hr' hof hid => ?_⟩
    · obtain ⟨r, hr, hsame⟩ := hkept.like r' hr'
      have hltp : r.createdAt < p.createdAt := hsame.createdAt ▸ hlt
      rcases on_page_of_lt hp hr hltp with hold | hon
      · exact hkept.stored hr (hsame.of.mp hof) hr' hsame.id
          (h.swept r hr (hsame.of.mp hof) (hsame.createdAt ▸ hstart) hold)
      · exact hstored hon (hsame.of.mp hof) hr' hsame.id
    · obtain rfl := Option.some.inj hcurrent
      obtain ⟨r, hr, hsame⟩ := hkept.like r' hr'
      have hrp : r = p := Table.eq_of_key hr (mem_page hp).1 (hsame.id.symm.trans hid)
      exact hstored hp (hrp ▸ hsame.of.mp hof) hr' hid

end

/-! ### Runs -/

/-- A document is asked for, or the job runs; each with services of its own. -/
inductive Command where
  | getCryptoReport (services : Services) (user : Uuid) (createdAtStart createdAtEnd : Option ℤ)
  | syncUpdateCryptoReport (services : Services) (pageSize : ℕ)

def step (w : World) : Command → World
  | .getCryptoReport services user createdAtStart createdAtEnd =>
      left (transaction World.rollback (getCryptoReport services user createdAtStart createdAtEnd)) w
  | .syncUpdateCryptoReport services pageSize => left (syncUpdateCryptoReport services pageSize) w

section

variable (user : Uuid) (crypto : CurrencyId)

/-- A user's reports in a currency that were not updated yet, no two of one instant. -/
def World.History (w : World) : Prop :=
  w.Distinct user crypto ∧ w.currentPage = none ∧
    ∀ r ∈ w.cryptoReports.rows, r.Of user crypto → ¬ r.Stored

/-- A document analyses from the user's first report on, or from one that is complete.  Where the job
goes on after a report from before its beginning, that one has its balance. -/
def Orderly (w : World) : Command → Prop
  | .getCryptoReport services requester createdAtStart createdAtEnd =>
      ∀ currency, services.getCurrencyBySymbol = .ok (some currency) → requester = user →
        currency.id = crypto →
          ∀ r ∈ (w.requested user crypto services.ties createdAtStart createdAtEnd).head?,
            r.Complete ∨ w.LastBefore user crypto r.createdAt none
  | .syncUpdateCryptoReport services pageSize =>
      ∀ r ∈ (ofUser user crypto (w.getAllFromDate services.ties w.place pageSize)).head?,
        ∀ l, w.LastBefore user crypto r.createdAt (some l) → l.createdAt < startDate → l.Stored

/-- A balance that is stored stays, and an average price stays or goes on from the report before. -/
def NotReset (w w' : World) : Prop :=
  ∀ r ∈ w.cryptoReports.rows, r.Of user crypto → ∃ r' ∈ w'.cryptoReports.rows, r.Same r' ∧
    (r.Stored → r'.cryptoBalance = r.cryptoBalance) ∧
    (r'.avgPrice = r.avgPrice ∨ ∃ last, w'.LastBefore user crypto r.createdAt last ∧
      r'.avgPrice = r'.averagePrice last)

end

section

variable {w : World} {user : Uuid} {crypto : CurrencyId}

theorem Kept.notReset {w' : World} (hbalanced : w.Balanced user crypto)
    (h : Kept user crypto w w') : NotReset user crypto w w' := by
  intro r hr hof
  obtain ⟨r', hr', hsame, hfigures⟩ := h.row r hr hof
  refine ⟨r', hr', hsame, fun hstored => ?_, ?_⟩
  · have hstored' := h.stored hr hof hr' hsame.id hstored
    rw [h.balanced r' hr' (hsame.of.mpr hof) hstored', h.sum, hsame.createdAt,
      hbalanced r hr hof hstored]
  · exact hfigures.imp (congrArg CryptoReport.avgPrice) And.right

theorem World.History.sound (h : w.History user crypto) : Sound user crypto w where
  distinct := h.1
  balanced r hr hof hstored := absurd hstored (h.2.2 r hr hof)
  swept r _ _ hstart hlt := by
    rw [World.place, h.2.1] at hlt
    exact absurd hstart hlt.not_ge
  cursor page hpage := by
    rw [h.2.1] at hpage
    cases hpage

theorem currentPage_analyseTransaction {services : Services} {scale : ℤ} {currency : Currency}
    {last : Option CryptoReport} {r : CryptoReport} :
    Keeps World.currentPage (analyseTransaction services scale currency last r) := by
  intro w
  refine left_iff (P := fun w' => w'.currentPage = w.currentPage).mpr
    (Outcome.mono (outcome_analyseTransaction scale last) ?_ ?_)
  · rintro ⟨r', updated⟩ w' ⟨-, ⟨-, -, rfl, -⟩ | ⟨-, -, rfl, -⟩⟩
    · rfl
    · rfl
  · rintro e w' ⟨rfl, -⟩
    rfl

theorem currentPage_analyseTransactions {services : Services} {currency : Currency}
    {last : Option CryptoReport} {ts : List CryptoReport} :
    Keeps World.currentPage (analyseTransactions services currency last ts) := by
  induction ts generalizing last with
  | nil => exact keeps_pure _
  | cons r ts ih =>
      rw [analyseTransactions]
      exact currentPage_analyseTransaction.bind fun _ => ih.bind fun _ => keeps_pure _

theorem currentPage_getCryptoReport (services : Services) (requester : Uuid)
    (createdAtStart createdAtEnd : Option ℤ) :
    (left (transaction World.rollback
      (getCryptoReport services requester createdAtStart createdAtEnd)) w).currentPage =
        w.currentPage := by
  have hkeeps : Keeps World.currentPage
      (getCryptoReport services requester createdAtStart createdAtEnd) := by
    rw [getCryptoReport]
    refine keeps_call.bind fun _ => keeps_throwIf.bind fun _ => keeps_call.bind fun _ =>
      keeps_orThrow.bind fun _ => keeps_get.bind fun _ => ?_
    dsimp only
    split
    · exact keeps_throw _
    · exact currentPage_analyseTransactions.bind fun _ => keeps_call.bind fun _ => keeps_pure _
  refine transaction_induction (P := fun w' => w'.currentPage = w.currentPage)
    (fun a w' hok => ?_) fun e (w' : World) herror => ?_
  · rw [← left_ok hok]
    exact hkeeps w
  · change w'.currentPage = w.currentPage
    rw [← left_error herror]
    exact hkeeps w

theorem Sound.step (h : Sound user crypto w) {c : Command} (hc : Orderly user crypto w c) :
    Kept user crypto w (step w c) ∧ Sound user crypto (step w c) := by
  cases c with
  | getCryptoReport services requester createdAtStart createdAtEnd =>
      have hkept := kept_getCryptoReport h.distinct h.balanced hc
      exact ⟨hkept, h.kept hkept (currentPage_getCryptoReport ..)⟩
  | syncUpdateCryptoReport services pageSize =>
      exact h.syncUpdateCryptoReport services pageSize hc

/-- Where every document starts from the user's first report, or from one that is complete, every
balance that is stored is the running balance, and no figure is reset. -/
theorem balanced_of_orderly (h : w.History user crypto) {cs : List Command}
    (hcs : Along step (Orderly user crypto) w cs) :
    (∀ ms, ms <+: cs → (run step w ms).Balanced user crypto) ∧
      ∀ ms c, ms ++ [c] <+: cs →
        NotReset user crypto (run step w ms) (run step w (ms ++ [c])) := by
  have hsound {ms : List Command} (hms : ms <+: cs) : Sound user crypto (run step w ms) := by
    obtain ⟨rest, rfl⟩ := hms
    exact (along_append.mp hcs).1.invariant (I := Sound user crypto)
      (fun _ _ hs hc => (hs.step hc).2) h.sound
  refine ⟨fun ms hms => (hsound hms).balanced, fun ms c hmc => ?_⟩
  have hms : ms <+: cs := (List.prefix_append ms [c]).trans hmc
  obtain ⟨rest, rfl⟩ := hmc
  have hc : Orderly user crypto (run step w ms) c :=
    (along_append.mp (along_append.mp hcs).1).2.1
  rw [run_append]
  exact ((hsound hms).step hc).1.notReset (hsound hms).balanced

end

/-! Two purchases on two days, and a document about the second day. -/

def twoDays : World where
  cryptoReports := (Table.empty.upsert (bought 1 10 startDate)).upsert
    (bought 2 10 (startDate + msPerDay))
  currentPage := none
  analysed := []

def documenting : Services :=
  { answering fun _ => 0 with getCurrencyBySymbol := .ok (some ⟨2, "BTC", 8, true⟩) }

def twoDocuments : List Command :=
  [.syncUpdateCryptoReport documenting 2, .getCryptoReport documenting 1 none none]

theorem twoDays_history : twoDays.History 1 2 := ⟨by decide +kernel, rfl, by decide +kernel⟩

theorem balanced_twoDays :
    (∀ ms, ms <+: twoDocuments → (run step twoDays ms).Balanced 1 2) ∧
      ∀ ms c, ms ++ [c] <+: twoDocuments →
        NotReset 1 2 (run step twoDays ms) (run step twoDays (ms ++ [c])) := by
  refine balanced_of_orderly twoDays_history ⟨fun r _ l hl hlt => ?_, fun currency _ _ _ => ?_, trivial⟩
  · have hlate : ∀ s ∈ twoDays.cryptoReports.rows, ¬ s.createdAt < startDate := by decide +kernel
    exact absurd hlt (hlate l hl.1.1)
  · decide +kernel

/-- After the job, a document about the second day starts its balance anew. -/
theorem not_balanced :
    ¬ ∀ (user : Uuid) (crypto : CurrencyId) (w : World) (cs : List Command),
      w.History user crypto → (∀ r ∈ w.cryptoReports.rows, 0 < r.cryptoAmount) →
        (∀ ms, ms <+: cs → (run step w ms).Balanced user crypto) ∧
          ∀ ms c, ms ++ [c] <+: cs →
            NotReset user crypto (run step w ms) (run step w (ms ++ [c])) := by
  intro h
  have hbalanced := (h 1 2 twoDays [.syncUpdateCryptoReport documenting 2,
    .getCryptoReport documenting 1 (some (startDate + msPerDay)) (some (startDate + msPerDay))]
    twoDays_history (by decide +kernel)).1 _ List.prefix_rfl
  exact absurd hbalanced (by decide +kernel)

end ZroServices.Otc.CryptoReports
