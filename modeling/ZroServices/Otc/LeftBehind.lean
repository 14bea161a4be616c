import ZroServices.Otc.SplitRemittance

/-!
# OTC — groups that are left behind

A group that is worth a trade is left in the cache when what the PSP takes in a day is used up.  On
the next day it could be sent, but a run looks at a group only when it takes a remittance that the
group does not have.  No step leaves a group behind that was not left behind before
(`leftBehind_step`), and a step sends one on its way if it takes a new remittance for it and does
not take it out again (`Clears`).  So a run leaves no group behind exactly when each group that it
found so gets such a remittance (`none_left_iff`).
-/

namespace ZroServices.Otc

open Foundation SyncOpenRemittanceUseCase

/-! ### Groups that could be sent -/

/-- The group is worth a trade, and what the PSP takes in a day leaves room for it. -/
def Sendable (cfg : Config) (now : ℤ) (t : Table Remittance) (c : Current) : Prop :=
  0 < c.groupAmount ∧ cfg.pspTradeMinAmount ≤ c.groupAmount ∧
    c.groupAmount ≤ cfg.pspTradeMaxAmount ∧ (newDailyConstants cfg now t c).isSome

instance (cfg : Config) (now : ℤ) (t : Table Remittance) (c : Current) :
    Decidable (Sendable cfg now t c) :=
  inferInstanceAs (Decidable (_ ∧ _ ∧ _ ∧ _))

/-- The cached group of `key` could be sent. -/
def LeftBehind (cfg : Config) (now : ℤ) (key : GroupKey) (s : Stores) : Prop :=
  Sendable cfg now s.remittances (currentOf now now (s.currentGroups.get? key))

instance (cfg : Config) (now : ℤ) (key : GroupKey) (s : Stores) :
    Decidable (LeftBehind cfg now key s) :=
  inferInstanceAs (Decidable (Sendable _ _ _ _))

/-- The fields after the remittance `r`, at index `i` of its page, was taken out again. -/
def takenOut (i : ℕ) (r : Remittance) (c : Current) : Current :=
  { c with
    groupAmount := c.groupAmount - r.signed
    currentGroupIds := c.currentGroupIds.eraseIdx i }

/-- The remittance `r` is taken out of its group again, which could be sent. -/
def PutBack (cfg : Config) (now : ℤ) (i : ℕ) (r : Remittance) (s : Stores) (c : Current) : Prop :=
  cfg.pspTradeMaxAmount < (added r c).groupAmount ∧ (remaining cfg (added r c) r).amount ≤ 0 ∧
    (newDailyConstants cfg now s.remittances (takenOut i r (added r c))).isSome

variable {cfg : Config} {now : ℤ} {key key' : GroupKey} {tag : CurrencyTag} {i : ℕ}
  {r last : Remittance} {s s' : Stores} {c c' : Current} {t t' : Table Remittance}

/-- Reading the remittances of a group leaves the stores, and gives what the group is worth. -/
theorem mapM_getById_ok {ids : List Uuid} {rs : List Remittance}
    (h : ids.mapM RemittanceRepository.getById s = .ok rs s') :
    s' = s ∧ (rs.map (·.signed)).sum = amountIn s.remittances ids := by
  induction ids generalizing rs with
  | nil =>
      obtain ⟨rfl, rfl⟩ := pure_ok.mp h
      exact ⟨rfl, rfl⟩
  | cons id ids ih =>
      rw [List.mapM_cons] at h
      obtain ⟨r, s₁, hread, htail⟩ := bind_ok.mp h
      rw [RemittanceRepository.getById, get_bind_ok] at hread
      obtain ⟨hr, rfl⟩ := orThrow_ok.mp hread
      obtain ⟨rs', s₄, hrest, hcons⟩ := bind_ok.mp htail
      obtain ⟨rfl, rfl⟩ := pure_ok.mp hcons
      obtain ⟨rfl, hsum⟩ := ih hrest
      refine ⟨rfl, ?_⟩
      rw [List.map_cons, List.sum_cons, hsum, ← amountIn_singleton hr, ← amountIn_append,
        List.singleton_append]

theorem calculateNewDailyConstants_ok {d : Option (ℤ × ℤ × List Uuid)}
    (h : calculateNewDailyConstants cfg now c s = .ok d s') :
    s' = s ∧ d = newDailyConstants cfg now s.remittances c := by
  have hconst : ∀ {d₁ : ℤ × ℤ × List Uuid},
      (if cfg.pspDailyMaxAmount < d₁.1 then pure none else pure (some d₁) : App _) s = .ok d s' →
        s' = s ∧ d = if cfg.pspDailyMaxAmount < d₁.1 then none else some d₁ := by
    intro d₁ hd
    by_cases hover : cfg.pspDailyMaxAmount < d₁.1
    · rw [if_pos hover] at hd ⊢
      exact (pure_ok.mp hd).symm
    · rw [if_neg hover] at hd ⊢
      exact (pure_ok.mp hd).symm
  rw [calculateNewDailyConstants] at h
  rw [newDailyConstants]
  by_cases hday : startOf .day now = startOf .day c.dailyAmountDate
  · simp only [if_pos hday] at h ⊢
    obtain ⟨rs, s₁, hread, hdaily⟩ := bind_ok.mp h
    obtain ⟨rfl, hsum⟩ := mapM_getById_ok hread
    rw [hsum] at hdaily
    exact hconst hdaily
  · simp only [if_neg hday] at h ⊢
    exact hconst h

/-! ### One remittance -/

/-- A batch that is to be sent is sent, or there is no room for it. -/
theorem sendRemittancesToPsp_not_sendable
    (h : sendRemittancesToPsp cfg now key tag last c s = .ok c' s') :
    ¬ Sendable cfg now s'.remittances c' := by
  rw [sendRemittancesToPsp] at h
  obtain ⟨d, s₁, hconst, hrest⟩ := bind_ok.mp h
  obtain ⟨rfl, hdaily⟩ := calculateNewDailyConstants_ok hconst
  cases d with
  | none =>
      obtain ⟨rfl, rfl⟩ := pure_ok.mp hrest
      rintro ⟨-, -, -, hroom⟩
      rw [← hdaily] at hroom
      cases hroom
  | some daily =>
      obtain ⟨_, s₂, -, hemit⟩ := bind_ok.mp hrest
      obtain ⟨_, s₃, -, hreturn⟩ := bind_ok.mp hemit
      obtain ⟨rfl, rfl⟩ := pure_ok.mp hreturn
      exact fun hsend => lt_irrefl 0 hsend.1

/-- A group that could be sent after it was handled is one that its remittance was taken out of. -/
theorem handleGroup_sendable (hr : s.remittances.get? r.id = some r)
    (h : handleGroup cfg now key tag r i c s = .ok c' s')
    (hsend : Sendable cfg now s'.remittances c') :
    cfg.pspTradeMaxAmount < c.groupAmount ∧ (remaining cfg c r).amount ≤ 0 ∧ s' = s ∧
      c' = takenOut i r c := by
  rw [handleGroup] at h
  by_cases hzero : |c.groupAmount| = 0
  · rw [if_pos hzero, closeConcomitantRemittances] at h
    obtain ⟨_, s₁, -, hreturn⟩ := bind_ok.mp h
    obtain ⟨rfl, rfl⟩ := pure_ok.mp hreturn
    exact absurd hsend.1 (lt_irrefl 0)
  · rw [if_neg hzero] at h
    by_cases hpos : 0 < c.groupAmount
    · rw [if_pos hpos, abs_of_pos hpos] at h
      by_cases hover : cfg.pspTradeMaxAmount < c.groupAmount
      · rw [if_pos hover] at h
        by_cases hrest : (remaining cfg c r).amount ≤ 0
        · rw [splitAndSendRemittancesToPsp, if_pos (by rw [abs_of_pos hpos]; exact hrest)] at h
          obtain ⟨rfl, rfl⟩ := pure_ok.mp h
          exact ⟨hover, hrest, rfl, rfl⟩
        · have hsplit : SplitPoint cfg c r := by
            rw [not_le] at hrest
            exact ⟨by rwa [abs_of_pos hpos], by rwa [abs_of_pos hpos]⟩
          obtain ⟨last, new, c₁, s₁, hrun, -⟩ := conserves_split cfg now key tag i hr hsplit
          exact absurd hsend (sendRemittancesToPsp_not_sendable (hrun.symm.trans h))
      · rw [if_neg hover] at h
        by_cases hin : cfg.pspTradeMinAmount ≤ c.groupAmount ∧ c.groupAmount ≤ cfg.pspTradeMaxAmount
        · rw [if_pos hin] at h
          exact absurd hsend (sendRemittancesToPsp_not_sendable h)
        · rw [if_neg hin] at h
          obtain ⟨rfl, rfl⟩ := pure_ok.mp h
          exact absurd ⟨hsend.2.1, hsend.2.2.1⟩ hin
    · rw [if_neg hpos] at h
      obtain ⟨rfl, rfl⟩ := pure_ok.mp h
      exact absurd hsend.1 hpos

theorem handleGroup_takenOut (hpos : 0 < c.groupAmount)
    (hover : cfg.pspTradeMaxAmount < c.groupAmount) (hrest : (remaining cfg c r).amount ≤ 0) :
    handleGroup cfg now key tag r i c s = .ok (takenOut i r c) s := by
  have hne : |c.groupAmount| ≠ 0 := abs_ne_zero.mpr hpos.ne'
  rw [handleGroup, if_neg hne, if_pos hpos, if_pos (by rwa [abs_of_pos hpos]),
    splitAndSendRemittancesToPsp, if_pos (by rw [abs_of_pos hpos]; exact hrest)]
  rfl

/-! ### Groups and their remittances -/

/-- The remittance is one of the group of `key`. -/
def HasKey (cfg : Config) (key : GroupKey) (t : Table Remittance) (id : Uuid) : Prop :=
  ∃ r p, t.get? id = some r ∧ r.provider = some p ∧ groupKey cfg r p = key

/-- The remittances of a cached group are of its key, and it has each once. -/
structure Placed (cfg : Config) (s : Stores) : Prop where
  nodup : ∀ g ∈ s.currentGroups.rows, g.remittanceGroup.Nodup
  hasKey : ∀ g ∈ s.currentGroups.rows, ∀ id ∈ g.remittanceGroup, HasKey cfg g.key s.remittances id

theorem HasKey.stored {id : Uuid} (h : HasKey cfg key t id) : ∃ r, t.get? id = some r := by
  obtain ⟨r, -, hr, -⟩ := h
  exact ⟨r, hr⟩

theorem HasKey.key_eq {id : Uuid} (h : HasKey cfg key t id) (h' : HasKey cfg key' t id) :
    key = key' := by
  obtain ⟨r, p, hr, hp, hk⟩ := h
  obtain ⟨r', p', hr', hp', hk'⟩ := h'
  obtain rfl := Option.some.inj (hr.symm.trans hr')
  obtain rfl := Option.some.inj (hp.symm.trans hp')
  exact hk.symm.trans hk'

theorem Placed.groups (h : Placed cfg s) : ∀ g ∈ s.currentGroups.rows, g.remittanceGroup.Nodup ∧
    ∀ id ∈ g.remittanceGroup, ∃ r, s.remittances.get? id = some r := fun g hg =>
  ⟨h.nodup g hg, fun id hid => (h.hasKey g hg id hid).stored⟩

/-- The remittances of the cached group of a key. -/
theorem Placed.currentOf (h : Placed cfg s) (now : ℤ) (key : GroupKey) (createdAt : ℤ) :
    (currentOf now createdAt (s.currentGroups.get? key)).currentGroupIds.Nodup ∧
      ∀ id ∈ (currentOf now createdAt (s.currentGroups.get? key)).currentGroupIds,
        HasKey cfg key s.remittances id := by
  cases hg : s.currentGroups.get? key with
  | none => exact ⟨List.nodup_nil, fun _ hid => absurd hid List.not_mem_nil⟩
  | some g =>
      have hkey : g.key = key := Table.key_of_get? hg
      exact ⟨h.nodup g (Table.mem_of_get? hg), hkey ▸ h.hasKey g (Table.mem_of_get? hg)⟩

/-- Only remittances of `ids` are changed, and no group. -/
structure Framed (ids : List Uuid) (s s' : Stores) : Prop where
  rows : ∀ id ∉ ids, ∀ row, s.remittances.get? id = some row → s'.remittances.get? id = some row
  groups : s'.currentGroups = s.currentGroups

theorem Framed.trans {ids : List Uuid} {s₁ : Stores} (h : Framed ids s s₁) (h' : Framed ids s₁ s') :
    Framed ids s s' :=
  ⟨fun id hid row hrow => h'.rows id hid row (h.rows id hid row hrow), h'.groups.trans h.groups⟩

theorem Settles.framed {f : Remittance → Remittance} {ids : List Uuid} (h : Settles f ids s s') :
    Framed ids s s' :=
  ⟨fun id hid row hrow => by rw [h.remittances, if_neg hid, hrow], h.currentGroups⟩

theorem Prepared.framed {s₁ : Stores} {c₁ : Current} (h : Prepared cfg now r s c last c₁ s₁)
    (hr : r.id ∈ c.currentGroupIds) :
    Framed c.currentGroupIds s s₁ ∧ c₁.currentGroupIds = c.currentGroupIds := by
  cases h with
  | whole => exact ⟨⟨fun _ _ _ hrow => hrow, rfl⟩, rfl⟩
  | split id t orders hover hrest hins =>
      refine ⟨⟨fun x hx row hrow => ?_, rfl⟩, rfl⟩
      have hne : r.id ≠ x := fun e => hx (e ▸ hr)
      exact Table.get?_insert?_of_some hins ((Table.get?_set_ne hne).trans hrow)

theorem Handled.framed (h : Handled cfg now key last s c c' s') :
    Framed c.currentGroupIds s s' := by
  cases h with
  | kept => exact ⟨fun _ _ _ hrow => hrow, rfl⟩
  | closed _ hs => exact hs.framed
  | sent _ _ _ _ hs => exact ⟨hs.framed.rows, hs.framed.groups⟩

theorem GroupEffect.framed (h : GroupEffect cfg now key r i s c c' s')
    (hr : r.id ∈ c.currentGroupIds) : Framed c.currentGroupIds s s' := by
  cases h with
  | handled hp hh =>
      obtain ⟨hframed, hids⟩ := hp.framed hr
      exact hframed.trans (hids ▸ hh.framed)
  | spliced => exact ⟨fun _ _ _ hrow => hrow, rfl⟩

/-- A group that was handled has remittances of its key. -/
theorem GroupEffect.placed (h : GroupEffect cfg now key r i s c c' s')
    (hr : s.remittances.get? r.id = some r) (hnodup : c.currentGroupIds.Nodup)
    (hkey : ∀ id ∈ c.currentGroupIds, HasKey cfg key s.remittances id) :
    c'.currentGroupIds.Nodup ∧ ∀ id ∈ c'.currentGroupIds, HasKey cfg key s'.remittances id := by
  cases h with
  | spliced =>
      exact ⟨hnodup.sublist (List.eraseIdx_sublist _ _), fun id hid =>
        hkey id ((List.eraseIdx_sublist _ _).subset hid)⟩
  | handled hp hh =>
      cases hh with
      | closed => exact ⟨List.nodup_nil, fun _ hid => absurd hid List.not_mem_nil⟩
      | sent => exact ⟨List.nodup_nil, fun _ hid => absurd hid List.not_mem_nil⟩
      | kept =>
          cases hp with
          | whole => exact ⟨hnodup, hkey⟩
          | split id t orders hover hrest hins =>
              refine ⟨hnodup, fun x hx => ?_⟩
              obtain ⟨row, p, hrow, hp, hk⟩ := hkey x hx
              by_cases e : r.id = x
              · subst e
                obtain rfl := Option.some.inj (hr.symm.trans hrow)
                exact ⟨_, p, Table.get?_insert?_of_some hins (Table.get?_set_self hr rfl), hp, hk⟩
              · exact ⟨row, p, Table.get?_insert?_of_some hins ((Table.get?_set_ne e).trans hrow),
                  hp, hk⟩

/-! ### Taking a remittance -/

/-- The remittance `r` is taken for the group of its key, which has the fields `c`. -/
structure Taken (cfg : Config) (now : ℤ) (r : Remittance) (s : Stores) (tag : CurrencyTag)
    (p : Uuid) (c : Current) : Prop where
  currency : cfg.currencyTag r.currency = some tag
  collects : Collects cfg now r s p c

/-- The remittance is taken for the group of `key`, and not taken out of it again. -/
def Sends (cfg : Config) (now : ℤ) (key : GroupKey) (i : ℕ) (r : Remittance) (s : Stores) : Prop :=
  ∃ tag p c, Taken cfg now r s tag p c ∧ groupKey cfg r p = key ∧ ¬ PutBack cfg now i r s c

variable {p : Uuid}

/-- What is taken for a group is taken once. -/
theorem Taken.unique {tag' : CurrencyTag} {p' : Uuid} (h : Taken cfg now r s tag p c)
    (h' : Taken cfg now r s tag' p' c') : p' = p ∧ c' = c := by
  obtain rfl := Option.some.inj (h.collects.provider.symm.trans h'.collects.provider)
  exact ⟨rfl, h'.collects.current.trans h.collects.current.symm⟩

theorem openRemittance_taken (h : Taken cfg now r s tag p c)
    (hids : ∀ id ∈ c.currentGroupIds, ∃ row, s.remittances.get? id = some row)
    (hrun : handleGroup cfg now (groupKey cfg r p) tag r i (added r c) s = .ok c' s') :
    openRemittance cfg now i r s = .ok () { s' with
      currentGroups := s'.currentGroups.upsert (groupOf (groupKey cfg r p) c') } := by
  have hroom : ¬ (newDailyConstants cfg now s.remittances c).isNone := by
    simpa [Option.isSome_iff_ne_none] using h.collects.daily
  rw [openRemittance, bind_of_ok (get_ok.mpr ⟨rfl, rfl⟩), if_neg h.collects.fresh, h.currency,
    bind_of_ok (orThrow_ok.mpr ⟨rfl, rfl⟩), h.collects.provider,
    bind_of_ok (orThrow_ok.mpr ⟨rfl, rfl⟩)]
  simp only [← h.collects.current]
  rw [bind_of_ok (calculateNewDailyConstants_eq hids), if_neg hroom, if_neg h.collects.new,
    bind_of_ok hrun]
  rfl

/-- A remittance that is not taken changes nothing. -/
theorem openRemittance_untaken (h : ¬ ∃ tag p c, Taken cfg now r s tag p c)
    (hplaced : Placed cfg s) : after (openRemittance cfg now i r) s = s := by
  rw [after, openRemittance, bind_of_ok (get_ok.mpr ⟨rfl, rfl⟩)]
  by_cases hupdated : r.id ∈ s.updatedRemittancesIds
  · rw [if_pos hupdated]
    rfl
  · rw [if_neg hupdated]
    cases htag : cfg.currencyTag r.currency with
    | none => rfl
    | some tag =>
        rw [bind_of_ok (orThrow_ok.mpr ⟨rfl, rfl⟩)]
        cases hp : r.provider with
        | none => rfl
        | some p =>
            rw [bind_of_ok (orThrow_ok.mpr ⟨rfl, rfl⟩)]
            have hids := (hplaced.currentOf now (groupKey cfg r p) r.createdAt).2
            generalize hc : currentOf now r.createdAt (s.currentGroups.get? (groupKey cfg r p)) = c
            rw [hc] at hids
            rw [bind_of_ok (calculateNewDailyConstants_eq fun id hid => (hids id hid).stored)]
            by_cases hroom : (newDailyConstants cfg now s.remittances c).isNone
            · rw [if_pos hroom]
              rfl
            · rw [if_neg hroom]
              by_cases hin : r.id ∈ c.currentGroupIds
              · rw [if_pos hin]
                rfl
              · refine absurd ⟨tag, p, c, htag, hupdated, hp, hc.symm, ?_, hin⟩ h
                simpa [Option.isSome_iff_ne_none] using hroom

theorem newDailyConstants_congr (h : ∀ id ∈ c.currentGroupIds, t'.get? id = t.get? id) :
    newDailyConstants cfg now t' c = newDailyConstants cfg now t c := by
  have hsum : amountIn t' (c.currentGroupIds.filter (· ∉ c.dailyRemittanceGroupIds))
      = amountIn t (c.currentGroupIds.filter (· ∉ c.dailyRemittanceGroupIds)) :=
    amountIn_congr fun id hid => by rw [h id (List.mem_filter.mp hid).1]
  rw [newDailyConstants, newDailyConstants, hsum]

/-- A group that is not handled is left behind if it was. -/
theorem leftBehind_congr (hplaced : Placed cfg s)
    (hgroup : s'.currentGroups.get? key = s.currentGroups.get? key)
    (hrows : ∀ id, HasKey cfg key s.remittances id →
      s'.remittances.get? id = s.remittances.get? id) :
    LeftBehind cfg now key s' ↔ LeftBehind cfg now key s := by
  have hids := (hplaced.currentOf now key now).2
  rw [LeftBehind, LeftBehind, hgroup, Sendable, Sendable,
    newDailyConstants_congr fun id hid => hrows id (hids id hid)]

/-- The group that a remittance is taken for. -/
theorem handleGroup_leftBehind (h : Taken cfg now r s tag p c)
    (hr : s.remittances.get? r.id = some r)
    (hrun : handleGroup cfg now (groupKey cfg r p) tag r i (added r c) s = .ok c' s') :
    Sendable cfg now s'.remittances c' ↔
      Sendable cfg now s.remittances c ∧ PutBack cfg now i r s c := by
  have hamount : (takenOut i r (added r c)).groupAmount = c.groupAmount :=
    add_sub_cancel_right c.groupAmount r.signed
  constructor
  · intro hsend
    obtain ⟨hover, hrest, rfl, rfl⟩ := handleGroup_sendable hr hrun hsend
    obtain ⟨hpos, hmin, hmax, hroom⟩ := hsend
    rw [hamount] at hpos hmin hmax
    exact ⟨⟨hpos, hmin, hmax, h.collects.daily⟩, hover, hrest, hroom⟩
  · rintro ⟨⟨hpos, hmin, hmax, -⟩, hover, hrest, hroom⟩
    have hpos' : 0 < (added r c).groupAmount := hpos.trans_le (hmax.trans hover.le)
    obtain ⟨rfl, rfl⟩ : takenOut i r (added r c) = c' ∧ s = s' := by
      have hout : handleGroup cfg now (groupKey cfg r p) tag r i (added r c) s
          = .ok (takenOut i r (added r c)) s := handleGroup_takenOut hpos' hover hrest
      cases hout.symm.trans hrun
      exact ⟨rfl, rfl⟩
    rw [Sendable, hamount]
    exact ⟨hpos, hmin, hmax, hroom⟩

/-- **Taking a remittance** leaves no group behind that was not, and those that were but for the one
that it sends on its way. -/
theorem openRemittance_leftBehind (hplaced : Placed cfg s)
    (hr : r.id ∉ s.updatedRemittancesIds → s.remittances.get? r.id = some r) :
    LeftBehind cfg now key (after (openRemittance cfg now i r) s) ↔
      LeftBehind cfg now key s ∧ ¬ Sends cfg now key i r s := by
  by_cases htaken : ∃ tag p c, Taken cfg now r s tag p c
  · obtain ⟨tag, p, c, h⟩ := htaken
    have hrow := hr h.collects.fresh
    have hc := hplaced.currentOf now (groupKey cfg r p) r.createdAt
    rw [← h.collects.current] at hc
    have hnodup : (added r c).currentGroupIds.Nodup :=
      hc.1.append (List.nodup_singleton _) (List.disjoint_singleton.mpr h.collects.new)
    have hkeys : ∀ id ∈ (added r c).currentGroupIds,
        HasKey cfg (groupKey cfg r p) s.remittances id := by
      intro id hid
      rcases List.mem_append.mp hid with hid | hid
      · exact hc.2 id hid
      · exact List.mem_singleton.mp hid ▸ ⟨r, p, hrow, h.collects.provider, rfl⟩
    obtain ⟨c', s', hrun, heffect⟩ := handleGroup_effect cfg now (groupKey cfg r p) tag r i
      (fun id hid => (hkeys id hid).stored) hnodup
    have hframed := heffect.framed (List.mem_append_right _ List.mem_cons_self)
    have hafter : after (openRemittance cfg now i r) s = { s' with
        currentGroups := s'.currentGroups.upsert (groupOf (groupKey cfg r p) c') } := by
      rw [after, openRemittance_taken h (fun id hid => (hc.2 id hid).stored) hrun]
    rw [hafter]
    by_cases hk : groupKey cfg r p = key
    · subst hk
      have hsends : Sends cfg now (groupKey cfg r p) i r s ↔ ¬ PutBack cfg now i r s c := by
        constructor
        · rintro ⟨tag', p', c', h', -, hback⟩
          obtain ⟨rfl, rfl⟩ := h.unique h'
          exact hback
        · exact fun hback => ⟨tag, p, c, h, rfl, hback⟩
      have hgroup : (s'.currentGroups.upsert (groupOf (groupKey cfg r p) c')).get?
          (groupKey cfg r p) = some (groupOf (groupKey cfg r p) c') := Table.get?_upsert_self
      have hleft := handleGroup_leftBehind h hrow hrun
      have hbefore : LeftBehind cfg now (groupKey cfg r p) s ↔
          Sendable cfg now s.remittances c := by
        rw [h.collects.current]
        rfl
      rw [hsends, not_not, hbefore, ← hleft, LeftBehind, hgroup]
      rfl
    · have hsends : ¬ Sends cfg now key i r s := by
        rintro ⟨tag', p', c', h', hkey, -⟩
        obtain ⟨rfl, rfl⟩ := h.unique h'
        exact hk hkey
      rw [and_iff_left hsends]
      refine leftBehind_congr hplaced ?_ fun id hid => ?_
      · exact (Table.get?_upsert_ne hk).trans (by rw [hframed.groups])
      · obtain ⟨row, hget⟩ := hid.stored
        have hout : id ∉ (added r c).currentGroupIds := fun hin => hk ((hkeys id hin).key_eq hid)
        exact (hframed.rows id hout row hget).trans hget.symm
  · rw [openRemittance_untaken htaken hplaced]
    refine (and_iff_left ?_).symm
    rintro ⟨tag, p, c, h, -⟩
    exact htaken ⟨tag, p, c, h⟩

/-- Taking a remittance keeps the cached groups placed. -/
theorem openRemittance_placed (hplaced : Placed cfg s)
    (hr : r.id ∉ s.updatedRemittancesIds → s.remittances.get? r.id = some r) :
    Placed cfg (after (openRemittance cfg now i r) s) := by
  generalize hs' : after (openRemittance cfg now i r) s = s'
  have heffect := openRemittance_effect cfg now i hr hplaced.groups
  rw [hs'] at heffect
  cases heffect with
  | none => exact hplaced
  | grouped p hcollects hg =>
      next c c' s' =>
      have hrow := hr hcollects.fresh
      have hc := hplaced.currentOf now (groupKey cfg r p) r.createdAt
      rw [← hcollects.current] at hc
      have hnodup : (added r c).currentGroupIds.Nodup :=
        hc.1.append (List.nodup_singleton _) (List.disjoint_singleton.mpr hcollects.new)
      have hkeys : ∀ id ∈ (added r c).currentGroupIds,
          HasKey cfg (groupKey cfg r p) s.remittances id := by
        intro id hid
        rcases List.mem_append.mp hid with hid | hid
        · exact hc.2 id hid
        · exact List.mem_singleton.mp hid ▸ ⟨r, p, hrow, hcollects.provider, rfl⟩
      have hframed := hg.framed (List.mem_append_right _ List.mem_cons_self)
      have hnew := hg.placed hrow hnodup hkeys
      have hrows : ∀ g ∈ (s'.currentGroups.upsert (groupOf (groupKey cfg r p) c')).rows,
          (g ∈ s.currentGroups.rows ∧ g.key ≠ groupKey cfg r p) ∨
            g = groupOf (groupKey cfg r p) c' := fun g hgrow => by
        rw [hframed.groups] at hgrow
        exact Table.mem_upsert.mp hgrow
      constructor
      · intro g hgrow
        rcases hrows g hgrow with ⟨hgrow, -⟩ | rfl
        · exact hplaced.nodup g hgrow
        · exact hnew.1
      · intro g hgrow id hid
        rcases hrows g hgrow with ⟨hgrow, hne⟩ | rfl
        · have hkey := hplaced.hasKey g hgrow id hid
          obtain ⟨row, p', hget, hrest⟩ := hkey
          have hout : id ∉ (added r c).currentGroupIds := fun hin =>
            hne (HasKey.key_eq ⟨row, p', hget, hrest⟩ (hkeys id hin))
          exact ⟨row, p', hframed.rows id hout row hget, hrest⟩
        · exact hnew.2 id hid

/-! ### Runs -/

/-- The step takes a remittance for the group of `key`, and does not take it out of it again. -/
def Clears (cfg : Config) (key : GroupKey) (s : State) (l : ℤ × Command) : Prop :=
  l.2 = .next ∧ s.running ∧ ∃ r ∈ s.page.head?, Sends cfg l.1 key s.index r s.stores

/-- A step keeps the cached groups placed, and the page. -/
theorem placed_step {s : State} {l : ℤ × Command} (h : Placed cfg s.stores ∧ PageInv s) :
    Placed cfg (step cfg s l).stores ∧ PageInv (step cfg s l) := by
  obtain ⟨hplaced, hpage⟩ := h
  refine ⟨?_, pageInv_step hpage hplaced.groups⟩
  obtain ⟨now, command⟩ := l
  cases command with
  | create r =>
      refine ⟨hplaced.nodup, fun g hg id hid => ?_⟩
      obtain ⟨row, p, hrow, hrest⟩ := hplaced.hasKey g hg id hid
      exact ⟨row, p, create_spec hrow, hrest⟩
  | begin => exact ⟨hplaced.nodup, hplaced.hasKey⟩
  | getAllByStatus page =>
      rw [step, execCommand]
      split <;> exact hplaced
  | next =>
      by_cases hrun : s.running
      · rw [step, execCommand, if_pos hrun]
        cases hentries : s.page with
        | nil =>
            rw [takeNext_nil hentries]
            exact hplaced
        | cons r page =>
            have hr := hpage.fresh r (hentries ▸ List.mem_cons_self)
            exact (takeNext_cons cfg now hentries).1 ▸
              openRemittance_placed hplaced fun hx => (hr hx).1
      · rw [step, execCommand, if_neg hrun]
        exact hplaced

/-- **No step leaves a group behind** that was not, and only one that clears it sends it. -/
theorem leftBehind_step {s : State} {l : ℤ × Command} (h : Placed cfg s.stores ∧ PageInv s)
    (hl : l.1 = now) :
    LeftBehind cfg now key (step cfg s l).stores ↔
      LeftBehind cfg now key s.stores ∧ ¬ Clears cfg key s l := by
  obtain ⟨hplaced, hpage⟩ := h
  obtain ⟨now, command⟩ := l
  subst hl
  have idle : command ≠ .next → ¬ Clears cfg key s (now, command) := fun hne hc => hne hc.1
  cases command with
  | create r =>
      refine Iff.trans ?_ (and_iff_left (idle Command.noConfusion)).symm
      refine leftBehind_congr hplaced rfl fun id hid => ?_
      obtain ⟨row, hrow⟩ := hid.stored
      exact (create_spec hrow).trans hrow.symm
  | begin =>
      exact Iff.trans Iff.rfl (and_iff_left (idle Command.noConfusion)).symm
  | getAllByStatus page =>
      refine Iff.trans ?_ (and_iff_left (idle Command.noConfusion)).symm
      rw [step, execCommand]
      split <;> exact Iff.rfl
  | next =>
      by_cases hrun : s.running
      · cases hentries : s.page with
        | nil =>
            have hclears : ¬ Clears cfg key s (now, .next) := by
              rintro ⟨-, -, r, hr, -⟩
              rw [hentries] at hr
              cases hr
            rw [step, execCommand, if_pos hrun, takeNext_nil hentries]
            exact (and_iff_left hclears).symm
        | cons r page =>
            have hr := hpage.fresh r (hentries ▸ List.mem_cons_self)
            have hclears : Clears cfg key s (now, .next) ↔
                Sends cfg now key s.index r s.stores := by
              rw [Clears, hentries]
              constructor
              · rintro ⟨-, -, r', hr', h⟩
                exact Option.some.inj hr' ▸ h
              · exact fun h => ⟨rfl, hrun, r, rfl, h⟩
            rw [step, execCommand, if_pos hrun, hclears, ← openRemittance_leftBehind hplaced
              (fun hx => (hr hx).1), ← (takeNext_cons cfg now hentries).1]
      · have hclears : ¬ Clears cfg key s (now, .next) := fun hc => hrun hc.2.1
        rw [step, execCommand, if_neg hrun]
        exact (and_iff_left hclears).symm

/-! ### An execution -/

/-- The steps of `openPages`. -/
def pageSteps (cfg : Config) (now : ℤ) : ℕ → ℕ → State → List (ℤ × Command)
  | 0, _, _ => []
  | fuel + 1, page, s =>
      let s' := step cfg s (now, .getAllByStatus page)
      if s'.page = [] then [(now, .getAllByStatus page)]
      else
        let taken := List.replicate s'.page.length (now, Command.next)
        (now, .getAllByStatus page) :: (taken ++
          if RemittanceRepository.pageTotal pageSize .OPEN s.stores ≤ page then []
          else pageSteps cfg now fuel (page + 1) (run (step cfg) s' taken))

/-- The steps of `execute`. -/
def executed (cfg : Config) (now : ℤ) (fuel : ℕ) (s : State) : List (ℤ × Command) :=
  (now, .begin) :: pageSteps cfg now fuel 1 (step cfg s (now, .begin))

theorem openPages_eq_run (cfg : Config) (now : ℤ) (fuel page : ℕ) (s : State) :
    openPages cfg now fuel page s = run (step cfg) s (pageSteps cfg now fuel page s) := by
  induction fuel generalizing page s with
  | zero => rfl
  | succ fuel ih =>
      rw [openPages, pageSteps]
      dsimp only
      split
      · rfl
      · rw [run_cons, run_append]
        split
        · rfl
        · exact ih _ _

theorem execute_eq_run (cfg : Config) (now : ℤ) (fuel : ℕ) (s : State) :
    execute cfg now fuel s = run (step cfg) s (executed cfg now fuel s) :=
  openPages_eq_run cfg now fuel 1 (step cfg s (now, .begin))

theorem executed_now (cfg : Config) (now : ℤ) (fuel : ℕ) (s : State) :
    ∀ l ∈ executed cfg now fuel s, l.1 = now := by
  have hpages : ∀ fuel page s, ∀ l ∈ pageSteps cfg now fuel page s, l.1 = now := by
    intro fuel
    induction fuel with
    | zero => exact fun _ _ _ hl => absurd hl List.not_mem_nil
    | succ fuel ih =>
        intro page s l hl
        rw [pageSteps] at hl
        dsimp only at hl
        split at hl
        · rw [List.mem_singleton.mp hl]
        · rcases List.mem_cons.mp hl with rfl | hl
          · rfl
          · rcases List.mem_append.mp hl with hl | hl
            · rw [List.eq_of_mem_replicate hl]
            · split at hl
              · cases hl
              · exact ih _ _ l hl
  intro l hl
  rcases List.mem_cons.mp hl with rfl | hl
  · rfl
  · exact hpages _ _ _ l hl

/-- A group is left behind by an execution that found it so and never cleared it. -/
theorem leftBehind_execute (cfg : Config) (now : ℤ) (fuel : ℕ) {s : State}
    (h : Placed cfg s.stores) :
    LeftBehind cfg now key (execute cfg now fuel s).stores ↔
      LeftBehind cfg now key s.stores ∧
        ¬ Sometime (step cfg) (Clears cfg key) s (executed cfg now fuel s) := by
  have hbegin : Placed cfg (step cfg s (now, .begin)).stores ∧ PageInv (step cfg s (now, .begin)) :=
    ⟨⟨h.nodup, h.hasKey⟩, List.nodup_nil, fun _ hr => absurd hr List.not_mem_nil⟩
  have hpages : ∀ l ∈ pageSteps cfg now fuel 1 (step cfg s (now, .begin)), l.1 = now := fun l hl =>
    executed_now cfg now fuel s l (List.mem_cons_of_mem _ hl)
  have hrun := run_iff_along (P := fun u : State => LeftBehind cfg now key u.stores)
    (I := fun u => Placed cfg u.stores ∧ PageInv u) (Q := fun l : ℤ × Command => l.1 = now)
    (fun _ _ h _ => placed_step h) (fun _ _ h hl => leftBehind_step h hl) hbegin hpages
  rw [sometime_iff_not_along, not_not]
  change LeftBehind cfg now key (openPages cfg now fuel 1 _).stores ↔ _
  rw [openPages_eq_run, hrun]
  refine and_congr_right fun _ => (and_iff_right ?_).symm
  rintro ⟨hnext, -⟩
  cases hnext

/-- The cached groups of every run are placed. -/
theorem placed_run (cfg : Config) (ls : List (ℤ × Command)) :
    Placed cfg (run (step cfg) .empty ls).stores :=
  (run_invariant (I := fun s => Placed cfg s.stores ∧ PageInv s) (fun _ _ => placed_step)
    ⟨⟨fun _ hg => absurd hg List.not_mem_nil, fun _ hg => absurd hg List.not_mem_nil⟩,
      pageInv_empty⟩ ls).1

end ZroServices.Otc
