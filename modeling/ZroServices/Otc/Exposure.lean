import ZroServices.Otc.SyncCreateRemittance

/-!
# OTC — exposure is conserved

The orders of a cached group are open and of its key, and the group is worth their sum (`Inv`).
When the group becomes a remittance its orders are closed and linked to it, all of them if each
is found (`closeOrders_eq`); a group with an order whose row was withdrawn stays as it is, after
the remittance was created.

* `run_exposure`: in a run in which the orders of the groups that become remittances are found,
  the orders closed for a key are worth the remittances created for it, each closed order is
  linked to one remittance and an open one to none;
* `withdrawn_traded`: a group with an order that is not found.
-/

namespace ZroServices.Otc.Exposure

open Foundation SyncCreateRemittanceUseCase

/-! ### Orders and links -/

/-- The order is stored, and of the group of `key`. -/
def OfKey (cfg : Config) (key : GroupKey) (t : Table RemittanceOrder) (id : Uuid) : Prop :=
  (t.get? id).map (groupKey cfg) = some key

instance (cfg : Config) (key : GroupKey) (t : Table RemittanceOrder) (id : Uuid) :
    Decidable (OfKey cfg key t id) :=
  inferInstanceAs (Decidable (_ = _))

/-- The remittance is linked to an order of `key`. -/
def CreatedFor (cfg : Config) (key : GroupKey) (s : Stores) (r : Remittance) : Prop :=
  ∃ l ∈ s.remittanceOrderRemittances,
    l.remittance = r.id ∧ OfKey cfg key s.remittanceOrders l.remittanceOrder

instance (cfg : Config) (key : GroupKey) (s : Stores) (r : Remittance) :
    Decidable (CreatedFor cfg key s r) :=
  inferInstanceAs (Decidable (∃ _ ∈ _, _))

/-- What the orders closed for `key` are worth. -/
def closedExposure (cfg : Config) (key : GroupKey) (s : Stores) : ℤ :=
  s.remittanceOrders.total fun o =>
    if o.status = .CLOSED ∧ groupKey cfg o = key then o.signed else 0

/-- What the remittances created for `key` are worth. -/
def createdExposure (cfg : Config) (key : GroupKey) (s : Stores) : ℤ :=
  s.remittances.total fun r => if CreatedFor cfg key s r then r.signed else 0

/-- The links of an order. -/
def linksOf (s : Stores) (id : Uuid) : List RemittanceOrderRemittance :=
  s.remittanceOrderRemittances.filter (·.remittanceOrder = id)

/-- The remittance has the currency, the system and the provider of the key; a settlement date
rule may give it other codes. -/
def OfGroup (key : GroupKey) (r : Remittance) : Prop :=
  r.currency = key.currency ∧ r.system = key.system ∧ r.provider = some key.provider

/-- Exposure is conserved from orders to remittances. -/
structure Conserved (cfg : Config) (s : Stores) : Prop where
  exposure : ∀ key, closedExposure cfg key s = createdExposure cfg key s
  created : ∀ r ∈ s.remittances.rows, ∃ key, CreatedFor cfg key s r ∧ OfGroup key r
  /-- A remittance is created for one key. -/
  apart : ∀ key key' r, CreatedFor cfg key s r → CreatedFor cfg key' s r → key = key'
  linked : ∀ o ∈ s.remittanceOrders.rows, o.status = .CLOSED →
    ∃ r ∈ s.remittances.rows, linksOf s o.id = [⟨o.id, r.id⟩]
  unlinked : ∀ o ∈ s.remittanceOrders.rows, o.status ≠ .CLOSED → linksOf s o.id = []

theorem Conserved.congr {cfg : Config} {s s' : Stores} (h : Conserved cfg s)
    (horders : s'.remittanceOrders = s.remittanceOrders)
    (hremittances : s'.remittances = s.remittances)
    (hlinks : s'.remittanceOrderRemittances = s.remittanceOrderRemittances) : Conserved cfg s' := by
  obtain ⟨orders, withdrawn, remittances, links, rules, groups, events, updated⟩ := s
  obtain ⟨orders', withdrawn', remittances', links', rules', groups', events', updated'⟩ := s'
  obtain rfl : orders' = orders := horders
  obtain rfl : remittances' = remittances := hremittances
  obtain rfl : links' = links := hlinks
  exact ⟨h.exposure, h.created, h.apart, h.linked, h.unlinked⟩

/-! ### Closing the orders of a group -/

variable {cfg : Config} {now : ℤ} {key key' : GroupKey} {s s' s₁ : Stores} {c : Current}
  {o : RemittanceOrder} {remittance : Remittance} {ids : List Uuid} {id : Uuid}
variable {t : Table RemittanceOrder}

/-- The orders of `ids` are closed and linked to the remittance. -/
structure Closes (remittance : Remittance) (ids : List Uuid) (s s' : Stores) : Prop where
  orders : ∀ id, s'.remittanceOrders.get? id =
    if id ∈ ids then (s.remittanceOrders.get? id).map closed else s.remittanceOrders.get? id
  links : s'.remittanceOrderRemittances =
    s.remittanceOrderRemittances ++ ids.map (⟨·, remittance.id⟩)
  total : ∀ f : RemittanceOrder → ℤ, s'.remittanceOrders.total f =
    s.remittanceOrders.total f + s.remittanceOrders.sumAt (fun o => f (closed o) - f o) ids
  remittances : s'.remittances = s.remittances
  currentGroups : s'.currentGroups = s.currentGroups
  updated : s'.updatedOrdersIds = s.updatedOrdersIds ++ ids

/-- Closing the first order of a list. -/
def closedFirst (remittance : Remittance) (o : RemittanceOrder) (s : Stores) : Stores :=
  { s with
    remittanceOrders := s.remittanceOrders.set (closed o)
    events := s.events ++ [.closedRemittanceOrder (closed o)]
    remittanceOrderRemittances := s.remittanceOrderRemittances ++ [⟨o.id, remittance.id⟩]
    updatedOrdersIds := s.updatedOrdersIds ++ [o.id] }

theorem getById_eq {o : Option RemittanceOrder} (hfound : id ∉ s.withdrawn)
    (h : s.remittanceOrders.get? id = o) : RemittanceOrderRepository.getById id s = .ok o s := by
  refine bind_ok.mpr ⟨s, s, get_ok.mpr ⟨rfl, rfl⟩, pure_ok.mpr ⟨?_, rfl⟩⟩
  rw [if_neg hfound, h]

theorem closeOrders_cons (hfound : id ∉ s.withdrawn) (h : s.remittanceOrders.get? id = some o)
    (hlink : (⟨id, remittance.id⟩ : RemittanceOrderRemittance) ∉ s.remittanceOrderRemittances) :
    closeOrders remittance (id :: ids) s =
      closeOrders remittance ids (closedFirst remittance o s) := by
  have hid : o.id = id := Table.key_of_get? h
  rw [closeOrders, bind_of_ok (getById_eq hfound h)]
  have create : RemittanceOrderRemittanceRepository.create ⟨o.id, remittance.id⟩
      { s with
        remittanceOrders := s.remittanceOrders.set (closed o)
        events := s.events ++ [.closedRemittanceOrder (closed o)] } = .ok ()
      { s with
        remittanceOrders := s.remittanceOrders.set (closed o)
        events := s.events ++ [.closedRemittanceOrder (closed o)]
        remittanceOrderRemittances :=
          s.remittanceOrderRemittances ++ [⟨o.id, remittance.id⟩] } :=
    bind_ok.mpr ⟨_, _, get_ok.mpr ⟨rfl, rfl⟩,
      bind_ok.mpr ⟨(), _, throwIf_ok.mpr ⟨hid ▸ hlink, rfl⟩, rfl⟩⟩
  exact (bind_of_ok (f := fun _ => _) (rfl : RemittanceOrderRepository.update _ s = .ok () _)).trans
    ((bind_of_ok (rfl : emit _ _ = .ok () _)).trans
      ((bind_of_ok create).trans (bind_of_ok (rfl : pushUpdated _ _ = .ok () _))))

theorem closedFirst_closes (remittance : Remittance) (h : s.remittanceOrders.get? id = some o) :
    Closes remittance [id] s (closedFirst remittance o s) := by
  have hid : o.id = id := Table.key_of_get? h
  refine ⟨fun x => ?_, ?_, fun f => ?_, rfl, rfl, ?_⟩
  · change (s.remittanceOrders.set (closed o)).get? x = _
    by_cases hx : x = id
    · subst hx
      rw [if_pos (List.mem_singleton_self x), h]
      exact Table.get?_set_self h hid
    · rw [if_neg (fun m => hx (List.mem_singleton.mp m)), Table.get?_set_ne]
      exact fun e => hx (e.symm.trans hid)
  · change s.remittanceOrderRemittances ++ [⟨o.id, remittance.id⟩] = _
    rw [hid]
    rfl
  · change (s.remittanceOrders.set (closed o)).total f = _
    rw [Table.total_set h (show Keyed.key (closed o) = id from hid), Table.sumAt_cons h,
      Table.sumAt_nil]
    omega
  · change s.updatedOrdersIds ++ [o.id] = _
    rw [hid]

theorem Closes.trans (h : Closes remittance [id] s s₁) (h' : Closes remittance ids s₁ s')
    (hid : id ∉ ids) (hstored : ∃ o, s.remittanceOrders.get? id = some o) :
    Closes remittance (id :: ids) s s' := by
  have rest : ∀ x ∈ ids, s₁.remittanceOrders.get? x = s.remittanceOrders.get? x := by
    intro x hx
    have hne : x ∉ [id] := fun m => hid (List.mem_singleton.mp m ▸ hx)
    rw [h.orders, if_neg hne]
  refine ⟨fun x => ?_, ?_, fun f => ?_, h'.remittances.trans h.remittances,
    h'.currentGroups.trans h.currentGroups, ?_⟩
  · rw [h'.orders]
    by_cases hin : x ∈ ids
    · rw [if_pos hin, if_pos (List.mem_cons_of_mem id hin), rest x hin]
    · rw [if_neg hin, h.orders]
      by_cases hx : x = id
      · subst hx
        rw [if_pos (List.mem_singleton_self x), if_pos List.mem_cons_self]
      · rw [if_neg fun m => hx (List.mem_singleton.mp m),
          if_neg fun m => (List.mem_cons.mp m).elim hx hin]
  · rw [h'.links, h.links, List.append_assoc]
    rfl
  · obtain ⟨o, ho⟩ := hstored
    have hrest : s₁.remittanceOrders.sumAt (fun o => f (closed o) - f o) ids =
        s.remittanceOrders.sumAt (fun o => f (closed o) - f o) ids :=
      Table.sumAt_congr fun x hx => by rw [rest x hx]
    rw [h'.total, h.total, hrest, Table.sumAt_cons ho, Table.sumAt_cons ho, Table.sumAt_nil]
    omega
  · rw [h'.updated, h.updated, List.append_assoc]
    rfl

/-- The loop closes every order of the group when each is found. -/
theorem closeOrders_eq (remittance : Remittance) (hfound : ∀ id ∈ ids, id ∉ s.withdrawn)
    (hstored : ∀ id ∈ ids, ∃ o, s.remittanceOrders.get? id = some o) (hnodup : ids.Nodup)
    (hlinks : ∀ l ∈ s.remittanceOrderRemittances, l.remittance ≠ remittance.id) :
    ∃ s', closeOrders remittance ids s = .ok true s' ∧ Closes remittance ids s s' := by
  -- Along the loop the orders that are left have no link to the remittance.
  have unlinked : ∀ id ∈ ids,
      (⟨id, remittance.id⟩ : RemittanceOrderRemittance) ∉ s.remittanceOrderRemittances :=
    fun id _ m => hlinks _ m rfl
  clear hlinks
  induction ids generalizing s with
  | nil =>
      exact ⟨s, rfl, fun _ => by simp, (List.append_nil _).symm, fun f => by simp, rfl, rfl,
        (List.append_nil _).symm⟩
  | cons id ids ih =>
      rw [List.nodup_cons] at hnodup
      obtain ⟨o, ho⟩ := hstored id List.mem_cons_self
      have hid : o.id = id := Table.key_of_get? ho
      have hfirst := closedFirst_closes remittance ho
      have hne : ∀ x ∈ ids, x ∉ [id] := fun x hx m => hnodup.1 (List.mem_singleton.mp m ▸ hx)
      obtain ⟨s', hrun, hs'⟩ := ih (s := closedFirst remittance o s)
        (fun x hx => hfound x (List.mem_cons_of_mem id hx))
        (fun x hx => by
          rw [hfirst.orders, if_neg (hne x hx)]
          exact hstored x (List.mem_cons_of_mem id hx))
        hnodup.2
        (fun x hx m => by
          rcases List.mem_append.mp m with m | m
          · exact unlinked x (List.mem_cons_of_mem id hx) m
          · have e : x = o.id := congrArg (·.remittanceOrder) (List.mem_singleton.mp m)
            exact hnodup.1 (e.trans hid ▸ hx))
      exact ⟨s', (closeOrders_cons (hfound id List.mem_cons_self) ho
        (unlinked id List.mem_cons_self)).trans hrun, hfirst.trans hs' hnodup.1 ⟨o, ho⟩⟩

/-! ### The invariant -/

/-- The order is open, and of the group of `key`. -/
def InGroup (cfg : Config) (key : GroupKey) (t : Table RemittanceOrder) (id : Uuid) : Prop :=
  ∃ o, t.get? id = some o ∧ o.status = .OPEN ∧ groupKey cfg o = key

/-- The fields are those of a group of `key`. -/
structure Collected (cfg : Config) (key : GroupKey) (t : Table RemittanceOrder) (c : Current) :
    Prop where
  sum : c.groupAmount = t.sumAt (·.signed) c.currentGroupIds
  nodup : c.currentGroupIds.Nodup
  inGroup : ∀ id ∈ c.currentGroupIds, InGroup cfg key t id

/-- What holds between the orders, the cached groups, the links and the remittances. -/
structure Inv (cfg : Config) (s : Stores) : Prop where
  sum : ∀ g ∈ s.currentGroups.rows,
    g.groupAmount = s.remittanceOrders.sumAt (·.signed) g.remittanceOrderGroup
  nodup : ∀ g ∈ s.currentGroups.rows, g.remittanceOrderGroup.Nodup
  inGroup : ∀ g ∈ s.currentGroups.rows, ∀ id ∈ g.remittanceOrderGroup,
    InGroup cfg g.key s.remittanceOrders id
  /-- A link is between rows that are stored. -/
  links : ∀ l ∈ s.remittanceOrderRemittances,
    (∃ o, s.remittanceOrders.get? l.remittanceOrder = some o) ∧
      ∃ r, s.remittances.get? l.remittance = some r
  conserved : Conserved cfg s

theorem InGroup.ofKey (h : InGroup cfg key t id) : OfKey cfg key t id := by
  obtain ⟨o, ho, -, hkey⟩ := h
  rw [OfKey, ho, Option.map_some, hkey]

theorem OfKey.eq (h : OfKey cfg key t id) (h' : OfKey cfg key' t id) : key = key' :=
  Option.some.inj (h.symm.trans h')

section

variable (h : Closes remittance ids s s')
include h

/-- An order keeps its key when orders are closed. -/
theorem Closes.ofKey :
    OfKey cfg key s'.remittanceOrders id ↔ OfKey cfg key s.remittanceOrders id := by
  rw [OfKey, OfKey, h.orders]
  split
  · rw [Option.map_map]
    rfl
  · rfl

/-- The remittance that is created, and one that is stored, after the orders are closed. -/
theorem Closes.createdFor (hne : ids ≠ []) (hkey : ∀ id ∈ ids, OfKey cfg key s.remittanceOrders id)
    (hnew : ∀ l ∈ s.remittanceOrderRemittances, l.remittance ≠ remittance.id) (r : Remittance) :
    CreatedFor cfg key' s' r ↔
      if r.id = remittance.id then key = key' else CreatedFor cfg key' s r := by
  simp only [CreatedFor, h.links, h.ofKey, List.mem_append, List.mem_map]
  constructor
  · rintro ⟨l, hl | ⟨id, hid, rfl⟩, hr, hof⟩
    · rw [if_neg fun e => hnew l hl (hr.trans e)]
      exact ⟨l, hl, hr, hof⟩
    · rw [if_pos hr.symm]
      exact (hkey id hid).eq hof
  · split
    · intro e
      obtain ⟨id, hid⟩ := List.exists_mem_of_ne_nil ids hne
      exact ⟨_, .inr ⟨id, hid, rfl⟩, Eq.symm ‹_›, e ▸ hkey id hid⟩
    · rintro ⟨l, hl, hr, hof⟩
      exact ⟨l, .inl hl, hr, hof⟩

/-- Closing the orders of a group makes their worth the closed exposure of its key. -/
theorem Closes.closedExposure (hgroup : ∀ id ∈ ids, InGroup cfg key s.remittanceOrders id) :
    closedExposure cfg key' s' = closedExposure cfg key' s +
      if key = key' then s.remittanceOrders.sumAt (·.signed) ids else 0 := by
  rw [Exposure.closedExposure, h.total, Exposure.closedExposure]
  congr 1
  have each : ∀ id ∈ ids, ∃ o, s.remittanceOrders.get? id = some o ∧
      (if (closed o).status = .CLOSED ∧ groupKey cfg (closed o) = key' then (closed o).signed
        else 0) - (if o.status = .CLOSED ∧ groupKey cfg o = key' then o.signed else 0) =
      if key = key' then o.signed else 0 := by
    intro id hid
    obtain ⟨o, ho, hopen, rfl⟩ := hgroup id hid
    refine ⟨o, ho, ?_⟩
    have hnot : ¬ (o.status = .CLOSED ∧ groupKey cfg o = key') := by
      rintro ⟨e, -⟩
      rw [hopen] at e
      cases e
    rw [if_neg hnot, sub_zero]
    by_cases e : groupKey cfg o = key'
    · rw [if_pos e, if_pos ⟨rfl, e⟩]
      rfl
    · rw [if_neg e, if_neg fun m => e m.2]
  by_cases e : key = key'
  · rw [if_pos e]
    refine Table.sumAt_congr fun id hid => ?_
    obtain ⟨o, ho, hworth⟩ := each id hid
    rw [ho, Option.map_some, Option.map_some, hworth, if_pos e]
  · rw [if_neg e, Table.sumAt, List.sum_eq_zero]
    intro x hx
    obtain ⟨id, hid, rfl⟩ := List.mem_map.mp hx
    obtain ⟨o, ho, hworth⟩ := each id hid
    rw [ho, Option.map_some, Option.getD_some, hworth, if_neg e]

/-- The links of an order, after the orders of a group are closed. -/
theorem Closes.linksOf (hnodup : ids.Nodup) (id : Uuid) :
    linksOf s' id = linksOf s id ++ if id ∈ ids then [⟨id, remittance.id⟩] else [] := by
  rw [Exposure.linksOf, h.links, List.filter_append, List.filter_map]
  congr 1
  by_cases hid : id ∈ ids
  · rw [if_pos hid, show (fun l : RemittanceOrderRemittance => decide (l.remittanceOrder = id)) ∘
      (fun x => ⟨x, remittance.id⟩) = fun x => decide (x = id) from rfl, List.filter_eq,
      List.count_eq_one_of_mem hnodup hid]
    rfl
  · rw [if_neg hid, List.filter_eq_nil_iff.mpr, List.map_nil]
    intro x hx m
    exact hid (of_decide_eq_true m ▸ hx)

end

/-- **Closing a group keeps conservation**: the remittance is worth the orders. -/
theorem Closes.conserved {t : Table Remittance} (h : Closes remittance ids s₁ s')
    (hinv : Inv cfg s) (hins : s.remittances.insert? remittance = some t)
    (hremittances : s₁.remittances = t) (horders : s₁.remittanceOrders = s.remittanceOrders)
    (hlinks : s₁.remittanceOrderRemittances = s.remittanceOrderRemittances) (hne : ids ≠ [])
    (hnodup : ids.Nodup) (hgroup : ∀ id ∈ ids, InGroup cfg key s.remittanceOrders id)
    (hof : OfGroup key remittance)
    (hworth : remittance.signed = s.remittanceOrders.sumAt (·.signed) ids) : Conserved cfg s' := by
  have hfresh : s.remittances.get? remittance.id = none := (Table.insert?_eq_some hins).1
  have hnew : ∀ l ∈ s₁.remittanceOrderRemittances, l.remittance ≠ remittance.id := by
    intro l hl e
    obtain ⟨-, r, hr⟩ := hinv.links l (hlinks ▸ hl)
    rw [e, hfresh] at hr
    cases hr
  have same : ∀ key' r, CreatedFor cfg key' s₁ r ↔ CreatedFor cfg key' s r := by
    intro key' r
    rw [CreatedFor, CreatedFor, hlinks, horders]
  have created : ∀ key' r, CreatedFor cfg key' s' r ↔
      if r.id = remittance.id then key = key' else CreatedFor cfg key' s r := by
    intro key' r
    rw [h.createdFor hne (fun id hid => horders ▸ (hgroup id hid).ofKey) hnew, same]
  have old : ∀ r ∈ s.remittances.rows, r.id ≠ remittance.id := by
    intro r hr e
    have hget : s.remittances.get? r.id = some r := Table.get?_of_mem hr
    rw [e, hfresh] at hget
    cases hget
  have rows : ∀ o ∈ s'.remittanceOrders.rows,
      if o.id ∈ ids then ∃ o', s.remittanceOrders.get? o.id = some o' ∧ o = closed o'
      else s.remittanceOrders.get? o.id = some o := by
    intro o ho
    have hget : s'.remittanceOrders.get? o.id = some o := Table.get?_of_mem ho
    rw [h.orders, horders] at hget
    split
    · rw [if_pos ‹_›] at hget
      obtain ⟨o', ho', e⟩ := Option.map_eq_some_iff.mp hget
      exact ⟨o', ho', e.symm⟩
    · rwa [if_neg ‹_›] at hget
  have links : ∀ id, Exposure.linksOf s' id =
      Exposure.linksOf s id ++ if id ∈ ids then [⟨id, remittance.id⟩] else [] := by
    intro id
    rw [h.linksOf hnodup, Exposure.linksOf, hlinks]
    rfl
  refine ⟨fun key' => ?_, fun r hr => ?_, fun key₁ key₂ r h₁ h₂ => ?_, fun o ho hclosed => ?_,
    fun o ho hopen => ?_⟩
  · have hold : ∀ r ∈ s.remittances.rows, (if CreatedFor cfg key' s' r then r.signed else 0) =
        if CreatedFor cfg key' s r then r.signed else 0 := by
      intro r hr
      simp only [created key' r, if_neg (old r hr)]
    have hlast : (if CreatedFor cfg key' s' remittance then remittance.signed else 0) =
        if key = key' then remittance.signed else 0 := by
      simp only [created key' remittance, if_true]
    have hclosed : Exposure.closedExposure cfg key' s' = Exposure.closedExposure cfg key' s +
        if key = key' then s.remittanceOrders.sumAt (·.signed) ids else 0 := by
      rw [h.closedExposure (horders ▸ hgroup), Exposure.closedExposure, horders]
      rfl
    rw [hclosed, hinv.conserved.exposure key', createdExposure, createdExposure, h.remittances,
      hremittances, Table.total_insert? hins, Table.total_congr hold, hlast, hworth]
  · rw [h.remittances, hremittances] at hr
    rcases (Table.mem_insert? hins).mp hr with hr | rfl
    · obtain ⟨key', hkey', hof'⟩ := hinv.conserved.created r hr
      exact ⟨key', (created key' r).mpr (by rwa [if_neg (old r hr)]), hof'⟩
    · exact ⟨key, (created key r).mpr (by rw [if_pos rfl]), hof⟩
  · rw [created] at h₁ h₂
    split at h₁
    · rw [if_pos ‹_›] at h₂
      exact h₁.symm.trans h₂
    · rw [if_neg ‹_›] at h₂
      exact hinv.conserved.apart key₁ key₂ r h₁ h₂
  · have ho' := rows o ho
    rw [links]
    by_cases hid : o.id ∈ ids
    · rw [if_pos hid] at ho' ⊢
      obtain ⟨o', hget, -⟩ := ho'
      obtain ⟨o'', hget', hopen, -⟩ := hgroup o.id hid
      obtain rfl := Option.some.inj (hget.symm.trans hget')
      have hnone := hinv.conserved.unlinked o' (Table.mem_of_get? hget) (by rw [hopen]; decide)
      have hkey : o'.id = o.id := Table.key_of_get? hget
      refine ⟨remittance, ?_, ?_⟩
      · rw [h.remittances, hremittances]
        exact (Table.mem_insert? hins).mpr (.inr rfl)
      · rw [← hkey, hnone, List.nil_append]
    · rw [if_neg hid] at ho' ⊢
      obtain ⟨r, hr, hlinked⟩ := hinv.conserved.linked o (Table.mem_of_get? ho') hclosed
      refine ⟨r, ?_, by rw [hlinked, List.append_nil]⟩
      rw [h.remittances, hremittances]
      exact (Table.mem_insert? hins).mpr (.inl hr)
  · have ho' := rows o ho
    rw [links]
    by_cases hid : o.id ∈ ids
    · rw [if_pos hid] at ho'
      obtain ⟨o', -, rfl⟩ := ho'
      exact absurd rfl hopen
    · rw [if_neg hid] at ho' ⊢
      rw [hinv.conserved.unlinked o (Table.mem_of_get? ho') hopen, List.append_nil]

/-! ### Taking an order -/

/-- The group of an order, with the order. -/
def groupFor (cfg : Config) (now : ℤ) (o : RemittanceOrder) (s : Stores) : Current :=
  added o (currentOf now o.createdAt (s.currentGroups.get? (groupKey cfg o)))

/-- If the group of the order becomes a remittance, its orders are found. -/
def Finds (cfg : Config) (now : ℤ) (o : RemittanceOrder) (s : Stores) : Prop :=
  o.id ∉ s.updatedOrdersIds →
    ∀ rule ∈ s.remittanceExposureRules.rows.find? (·.currency = o.currency),
      reached now rule (groupFor cfg now o s) →
        ∀ id ∈ (groupFor cfg now o s).currentGroupIds, id ∉ s.withdrawn

instance (cfg : Config) (now : ℤ) (o : RemittanceOrder) (s : Stores) :
    Decidable (Finds cfg now o s) :=
  inferInstanceAs (Decidable (_ → ∀ rule ∈ _, _ → _))

/-- The order is stored as it is, and open. -/
def Opened (o : RemittanceOrder) (s : Stores) : Prop :=
  s.remittanceOrders.get? o.id = some o ∧ o.status = .OPEN

/-- An order that this run has not closed stays as it is. -/
structure Others (s s' : Stores) : Prop where
  updated : ∀ id ∈ s.updatedOrdersIds, id ∈ s'.updatedOrdersIds
  orders : ∀ id ∉ s'.updatedOrdersIds, s'.remittanceOrders.get? id = s.remittanceOrders.get? id

theorem Others.rfl : Others s s := ⟨fun _ h => h, fun _ _ => Eq.refl _⟩

/-- The cached group of a key, with an open order of the key, is a group. -/
theorem Inv.collected (hinv : Inv cfg s) (ho : Opened o s) :
    Collected cfg (groupKey cfg o) s.remittanceOrders (groupFor cfg now o s) := by
  have hc : Collected cfg (groupKey cfg o) s.remittanceOrders
      (currentOf now o.createdAt (s.currentGroups.get? (groupKey cfg o))) := by
    cases hg : s.currentGroups.get? (groupKey cfg o) with
    | none => exact ⟨rfl, List.nodup_nil, fun _ h => absurd h List.not_mem_nil⟩
    | some g =>
        have hmem := Table.mem_of_get? hg
        have hkey : g.key = groupKey cfg o := Table.key_of_get? hg
        exact ⟨hinv.sum g hmem, hinv.nodup g hmem, hkey ▸ hinv.inGroup g hmem⟩
  rw [groupFor, added]
  split
  · exact hc
  · refine ⟨?_, hc.nodup.append (List.nodup_singleton _)
      (List.disjoint_singleton.mpr ‹_›), fun id hid => ?_⟩
    · rw [Table.sumAt_append, Table.sumAt_cons ho.1, Table.sumAt_nil, add_zero, ← hc.sum,
        RemittanceOrder.signed]
      cases o.side with
      | BUY => rfl
      | SELL => exact sub_eq_add_neg _ _
    · rcases List.mem_append.mp hid with hid | hid
      · exact hc.inGroup id hid
      · exact List.mem_singleton.mp hid ▸ ⟨o, ho.1, ho.2, rfl⟩

theorem mem_groupFor (cfg : Config) (now : ℤ) (o : RemittanceOrder) (s : Stores) :
    o.id ∈ (groupFor cfg now o s).currentGroupIds := by
  rw [groupFor, added]
  split
  · assumption
  · exact List.mem_append_right _ (List.mem_singleton_self _)

/-- Caching a group keeps the invariant, when only orders of its key were changed. -/
theorem Inv.upsert (hinv : Inv cfg s) (hgroups : s'.currentGroups = s.currentGroups)
    (hsame : ∀ id, ¬ OfKey cfg key s.remittanceOrders id →
      s'.remittanceOrders.get? id = s.remittanceOrders.get? id)
    (hc : Collected cfg key s'.remittanceOrders c)
    (hlinks : ∀ l ∈ s'.remittanceOrderRemittances,
      (∃ o, s'.remittanceOrders.get? l.remittanceOrder = some o) ∧
        ∃ r, s'.remittances.get? l.remittance = some r)
    (hconserved : Conserved cfg s') :
    Inv cfg { s' with currentGroups := s'.currentGroups.upsert (groupOf key c) } := by
  have others : ∀ g ∈ s.currentGroups.rows, g.key ≠ key → ∀ id ∈ g.remittanceOrderGroup,
      s'.remittanceOrders.get? id = s.remittanceOrders.get? id :=
    fun g hg hne id hid => hsame id fun h => hne ((hinv.inGroup g hg id hid).ofKey.eq h)
  have rows : ∀ g, g ∈ (s'.currentGroups.upsert (groupOf key c)).rows →
      (g ∈ s.currentGroups.rows ∧ g.key ≠ key) ∨ g = groupOf key c := by
    intro g hg
    rw [hgroups] at hg
    exact Table.mem_upsert.mp hg
  refine ⟨fun g hg => ?_, fun g hg => ?_, fun g hg => ?_, hlinks, ?_⟩
  · rcases rows g hg with ⟨hg, hne⟩ | rfl
    · exact (hinv.sum g hg).trans (Table.sumAt_congr fun id hid => by rw [others g hg hne id hid])
    · exact hc.sum
  · rcases rows g hg with ⟨hg, -⟩ | rfl
    · exact hinv.nodup g hg
    · exact hc.nodup
  · rcases rows g hg with ⟨hg, hne⟩ | rfl
    · intro id hid
      obtain ⟨o, ho, hrest⟩ := hinv.inGroup g hg id hid
      exact ⟨o, (others g hg hne id hid).trans ho, hrest⟩
    · exact hc.inGroup
  · exact hconserved.congr rfl rfl rfl

theorem remittanceOf_signed (rule : RemittanceExposureRule) :
    (remittanceOf cfg now id rule o c).signed = c.groupAmount := by
  by_cases h : 0 ≤ c.groupAmount
  · simp [remittanceOf, Remittance.signed, h, abs_of_nonneg h]
  · simp [remittanceOf, Remittance.signed, h, abs_of_neg (not_le.mp h)]

/-- A group whose orders are found becomes a remittance, and is left empty. -/
theorem createNewRemittance_inv (hinv : Inv cfg s) (ho : Opened o s) (rule : RemittanceExposureRule)
    (hfound : ∀ id ∈ (groupFor cfg now o s).currentGroupIds, id ∉ s.withdrawn) :
    ∃ c' s', createNewRemittance cfg now o rule (groupFor cfg now o s) s = .ok c' s' ∧
      Inv cfg { s' with
        currentGroups := s'.currentGroups.upsert (groupOf (groupKey cfg o) c') } ∧
      Others s s' := by
  have hc : Collected cfg (groupKey cfg o) s.remittanceOrders (groupFor cfg now o s) :=
    hinv.collected ho
  have hne : (groupFor cfg now o s).currentGroupIds ≠ [] :=
    List.ne_nil_of_mem (mem_groupFor cfg now o s)
  have hids : (daily now (groupFor cfg now o s)).currentGroupIds =
      (groupFor cfg now o s).currentGroupIds := by
    rw [daily]
    split <;> rfl
  have hamount : (daily now (groupFor cfg now o s)).groupAmount =
      (groupFor cfg now o s).groupAmount := by
    rw [daily]
    split <;> rfl
  generalize groupFor cfg now o s = c at *
  generalize hr : remittanceOf cfg now (fresh (s.remittances.rows.map (·.id))) rule o
    (daily now c) = remittance
  have hid : remittance.id = fresh (s.remittances.rows.map (·.id)) := by rw [← hr]; rfl
  obtain ⟨t, ht⟩ := Table.insert?_of_fresh (t := s.remittances) (r := remittance)
    (Table.get?_eq_none.mpr fun x hx e => by
      have hlt : x.id < remittance.id := hid ▸ lt_fresh (List.mem_map_of_mem hx)
      exact hlt.ne e)
  have hfresh : s.remittances.get? remittance.id = none := (Table.insert?_eq_some ht).1
  let s₁ : Stores := { s with
    remittances := t
    events := s.events ++ [.createdRemittance remittance] }
  obtain ⟨s', hrun, hs'⟩ := closeOrders_eq (s := s₁) remittance hfound
    (fun id hid => by
      obtain ⟨o', ho', -⟩ := hc.inGroup id hid
      exact ⟨o', ho'⟩) hc.nodup
    (fun l hl e => by
      obtain ⟨-, r, hr⟩ := hinv.links l hl
      rw [e, hfresh] at hr
      cases hr)
  have create : RemittanceRepository.create remittance s = .ok () { s with remittances := t } :=
    bind_ok.mpr ⟨_, _, get_ok.mpr ⟨rfl, rfl⟩, bind_ok.mpr ⟨t, _, orThrow_ok.mpr ⟨ht, rfl⟩, rfl⟩⟩
  refine ⟨{ daily now c with groupAmount := 0, groupAmountDate := none, currentGroupIds := [] }, s',
    ?_, ?_, ?_⟩
  · rw [createNewRemittance, bind_of_ok (get_ok.mpr ⟨rfl, rfl⟩)]
    simp only [hr, hids]
    rw [bind_of_ok create, bind_of_ok (rfl : emit _ _ = .ok () s₁), bind_of_ok hrun]
    rfl
  · refine hinv.upsert hs'.currentGroups (fun id hid => ?_)
      ⟨rfl, List.nodup_nil, fun _ h => absurd h List.not_mem_nil⟩ (fun l hl => ?_)
      (hs'.conserved hinv ht rfl rfl rfl hne hc.nodup hc.inGroup
        (hr ▸ ⟨rfl, rfl, rfl⟩) ?_)
    · have hout : id ∉ c.currentGroupIds := fun m => hid (hc.inGroup id m).ofKey
      rw [hs'.orders, if_neg hout]
    · have stored : ∀ id, (∃ o, s.remittanceOrders.get? id = some o) →
          ∃ o, s'.remittanceOrders.get? id = some o := by
        rintro id ⟨o', ho'⟩
        rw [hs'.orders]
        split
        · exact ⟨closed o', congrArg (Option.map closed) ho'⟩
        · exact ⟨o', ho'⟩
      rw [hs'.links] at hl
      rw [hs'.remittances]
      rcases List.mem_append.mp hl with hl | hl
      · obtain ⟨horder, r, hr⟩ := hinv.links l hl
        exact ⟨stored _ horder, r, Table.get?_insert?_of_some ht hr⟩
      · obtain ⟨id, hid, rfl⟩ := List.mem_map.mp hl
        obtain ⟨o', ho', -⟩ := hc.inGroup id hid
        exact ⟨stored id ⟨o', ho'⟩, remittance, Table.get?_insert?_self ht⟩
    · rw [← hr, remittanceOf_signed, hamount, hc.sum]
  · refine ⟨fun id hid => ?_, fun id hid => ?_⟩
    · rw [hs'.updated]
      exact List.mem_append_left _ hid
    · rw [hs'.updated] at hid
      rw [hs'.orders, if_neg fun m => hid (List.mem_append_right _ m)]

/-- **Taking an order keeps the invariant.** -/
theorem createRemittance_inv (hinv : Inv cfg s) (ho : o.id ∉ s.updatedOrdersIds → Opened o s)
    (hf : Finds cfg now o s) :
    ∃ s', (createRemittance cfg now o s = .ok () s' ∨
        ∃ e, createRemittance cfg now o s = .error e s') ∧ Inv cfg s' ∧ Others s s' := by
  rw [createRemittance, bind_of_ok (get_ok.mpr ⟨rfl, rfl⟩)]
  by_cases hupdated : o.id ∈ s.updatedOrdersIds
  · rw [if_pos hupdated]
    exact ⟨s, .inl rfl, hinv, .rfl⟩
  rw [if_neg hupdated]
  have hopened := ho hupdated
  have hrule : RemittanceExposureRuleRepository.getByCurrency o.currency s =
      .ok (s.remittanceExposureRules.rows.find? (·.currency = o.currency)) s :=
    bind_ok.mpr ⟨s, s, get_ok.mpr ⟨rfl, rfl⟩, rfl⟩
  rw [bind_of_ok hrule]
  cases hfind : s.remittanceExposureRules.rows.find? (·.currency = o.currency) with
  | none =>
      exact ⟨s, .inr ⟨.remittanceExposureRuleNotFound o.currency, rfl⟩, hinv, .rfl⟩
  | some rule =>
      rw [bind_of_ok (orThrow_ok.mpr ⟨rfl, rfl⟩)]
      simp only [← groupFor.eq_1]
      by_cases hreached : reached now rule (groupFor cfg now o s) = true
      · rw [if_pos hreached]
        obtain ⟨c', s', hrun, hinv', hothers⟩ := createNewRemittance_inv hinv hopened rule
          (hf hupdated rule hfind hreached)
        exact ⟨_, .inl (bind_of_ok hrun), hinv', hothers.updated, hothers.orders⟩
      · rw [if_neg hreached]
        refine ⟨_, .inl (bind_of_ok (pure_ok.mpr ⟨rfl, rfl⟩)), ?_, fun _ h => h, fun _ _ => rfl⟩
        exact hinv.upsert rfl (fun _ _ => rfl) (hinv.collected hopened) hinv.links hinv.conserved

/-! ### Runs -/

/-- The orders of the page that the run has not closed are stored and open. -/
def PageOpened (s : State) : Prop :=
  ∀ o ∈ s.page, o.id ∉ s.stores.updatedOrdersIds → Opened o s.stores

/-- When an order is taken whose group becomes a remittance, the orders of the group are found. -/
def FindsOrders (cfg : Config) (s : State) (l : ℤ × Command) : Prop :=
  l.2 = .next → s.running → ∀ o ∈ s.page.head?, Finds cfg l.1 o s.stores

instance (cfg : Config) (s : State) (l : ℤ × Command) : Decidable (FindsOrders cfg s l) :=
  inferInstanceAs (Decidable (_ → _ → ∀ o ∈ s.page.head?, Finds cfg l.1 o s.stores))

/-- The orders that a page reads are stored and open. -/
theorem getAllByStatus_opened (page pageSize : ℕ) (s : Stores) :
    ∀ o ∈ RemittanceOrderRepository.getAllByStatus page pageSize .OPEN s, Opened o s := by
  intro o ho
  have hmem : o ∈ RemittanceOrderRepository.allByStatus .OPEN s :=
    List.mem_of_mem_drop (List.mem_of_mem_take ho)
  obtain ⟨hrow, hopen⟩ := List.mem_filter.mp ((List.perm_insertionSort
    (fun a b : RemittanceOrder => a.createdAt ≤ b.createdAt) _).mem_iff.mp hmem)
  exact ⟨Table.get?_of_mem hrow, (of_decide_eq_true hopen).1⟩

theorem get?_create {o o' : RemittanceOrder} {id : Uuid}
    (h : t.get? id = some o') : ((t.insert? o).getD t).get? id = some o' := by
  cases hins : t.insert? o with
  | none => exact h
  | some t' => exact Table.get?_insert?_of_some hins h

/-- An order that is stored later is of no group, no link and no remittance. -/
theorem Inv.create (hinv : Inv cfg s) (o : RemittanceOrder) (hopen : o.status = .OPEN) :
    Inv cfg { s with
      remittanceOrders := (s.remittanceOrders.insert? o).getD s.remittanceOrders } := by
  cases hins : s.remittanceOrders.insert? o with
  | none => exact hinv
  | some t =>
      rw [Option.getD_some]
      have hnone : s.remittanceOrders.get? o.id = none := (Table.insert?_eq_some hins).1
      have same : ∀ {id}, (∃ o', s.remittanceOrders.get? id = some o') →
          t.get? id = s.remittanceOrders.get? id := by
        rintro id ⟨o', ho'⟩
        exact (Table.get?_insert?_of_some hins ho').trans ho'.symm
      have stored : ∀ {key id}, InGroup cfg key s.remittanceOrders id →
          ∃ o', s.remittanceOrders.get? id = some o' := by
        rintro key id ⟨o', ho', -⟩
        exact ⟨o', ho'⟩
      have created : ∀ key r, CreatedFor cfg key { s with remittanceOrders := t } r ↔
          CreatedFor cfg key s r := by
        intro key r
        refine exists_congr fun l => and_congr_right fun hl => and_congr_right fun _ => ?_
        change OfKey cfg key t _ ↔ _
        rw [OfKey, OfKey, same (hinv.links l hl).1]
      have noLinks : linksOf s o.id = [] := by
        refine List.filter_eq_nil_iff.mpr fun l hl e => ?_
        obtain ⟨⟨o', ho'⟩, -⟩ := hinv.links l hl
        rw [of_decide_eq_true e, hnone] at ho'
        cases ho'
      refine ⟨fun g hg => ?_, hinv.nodup, fun g hg id hid => ?_, fun l hl => ?_, ?_⟩
      · refine (hinv.sum g hg).trans (Table.sumAt_congr fun id hid => ?_)
        rw [same (stored (hinv.inGroup g hg id hid))]
      · obtain ⟨o', ho', hrest⟩ := hinv.inGroup g hg id hid
        exact ⟨o', (same ⟨o', ho'⟩).trans ho', hrest⟩
      · obtain ⟨⟨o', ho'⟩, hr⟩ := hinv.links l hl
        exact ⟨⟨o', (same ⟨o', ho'⟩).trans ho'⟩, hr⟩
      · refine ⟨fun key => ?_, fun r hr => ?_, fun key key' r h h' => ?_,
          fun o' ho' hclosed => ?_, fun o' ho' hne => ?_⟩
        · have hclosed : closedExposure cfg key { s with remittanceOrders := t } =
              closedExposure cfg key s := by
            rw [closedExposure, Table.total_insert? hins, if_neg, add_zero, closedExposure]
            rw [hopen]
            rintro ⟨⟨⟩, -⟩
          have hcreated : createdExposure cfg key { s with remittanceOrders := t } =
              createdExposure cfg key s := Table.total_congr fun r _ => by simp only [created]
          rw [hclosed, hcreated, hinv.conserved.exposure key]
        · obtain ⟨key, hkey, hof⟩ := hinv.conserved.created r hr
          exact ⟨key, (created key r).mpr hkey, hof⟩
        · exact hinv.conserved.apart key key' r ((created key r).mp h) ((created key' r).mp h')
        · rcases (Table.mem_insert? hins).mp ho' with ho' | rfl
          · exact hinv.conserved.linked o' ho' hclosed
          · rw [hopen] at hclosed
            cases hclosed
        · rcases (Table.mem_insert? hins).mp ho' with ho' | rfl
          · exact hinv.conserved.unlinked o' ho' hne
          · exact noLinks

theorem takeNext_inv {s : State} (hinv : Inv cfg s.stores) (hpage : PageOpened s)
    (hf : ∀ o ∈ s.page.head?, Finds cfg now o s.stores) :
    Inv cfg (takeNext cfg now s).stores ∧ PageOpened (takeNext cfg now s) := by
  rw [takeNext]
  cases hentries : s.page with
  | nil => exact ⟨hinv, hpage⟩
  | cons o page =>
      have ho : o.id ∉ s.stores.updatedOrdersIds → Opened o s.stores :=
        hpage o (hentries ▸ List.mem_cons_self)
      obtain ⟨stores, hrun | ⟨e, hrun⟩, hinv', hothers⟩ :=
        createRemittance_inv hinv ho (hf o (by rw [hentries]; rfl))
      · simp only [hrun]
        refine ⟨hinv', fun o' ho' hupdated => ?_⟩
        obtain ⟨hget, hopen⟩ := hpage o' (hentries ▸ List.mem_cons_of_mem o ho')
          fun h => hupdated (hothers.updated _ h)
        exact ⟨(hothers.orders _ hupdated).trans hget, hopen⟩
      · simp only [hrun]
        exact ⟨hinv', fun _ h => absurd h List.not_mem_nil⟩

/-- **A step keeps the invariant.** -/
theorem inv_step {s : State} {l : ℤ × Command} (h : Inv cfg s.stores ∧ PageOpened s)
    (hok : FindsOrders cfg s l) : Inv cfg (step cfg s l).stores ∧ PageOpened (step cfg s l) := by
  obtain ⟨hinv, hpage⟩ := h
  obtain ⟨now, command⟩ := l
  cases command with
  | create o =>
      refine ⟨hinv.create _ rfl, fun o' ho' hupdated => ?_⟩
      obtain ⟨hget, hopen⟩ := hpage o' ho' hupdated
      exact ⟨get?_create hget, hopen⟩
  | withdraw id =>
      exact ⟨⟨hinv.sum, hinv.nodup, hinv.inGroup, hinv.links,
        hinv.conserved.congr rfl rfl rfl⟩, hpage⟩
  | saveExposureRule rule =>
      exact ⟨⟨hinv.sum, hinv.nodup, hinv.inGroup, hinv.links,
        hinv.conserved.congr rfl rfl rfl⟩, hpage⟩
  | begin =>
      exact ⟨⟨hinv.sum, hinv.nodup, hinv.inGroup, hinv.links, hinv.conserved.congr rfl rfl rfl⟩,
        fun _ h => absurd h List.not_mem_nil⟩
  | getAllByStatus page =>
      by_cases hrun : s.running
      · simp only [step, if_pos hrun]
        exact ⟨hinv, fun o ho _ => getAllByStatus_opened page pageSize s.stores o ho⟩
      · simp only [step, if_neg hrun]
        exact ⟨hinv, hpage⟩
  | next =>
      by_cases hrun : s.running
      · simp only [step, if_pos hrun]
        exact takeNext_inv hinv hpage (hok rfl hrun)
      · simp only [step, if_neg hrun]
        exact ⟨hinv, hpage⟩

/-- Nothing is stored but exposure rules. -/
structure Fresh (s : State) : Prop where
  orders : s.stores.remittanceOrders = .empty
  remittances : s.stores.remittances = .empty
  links : s.stores.remittanceOrderRemittances = []
  groups : s.stores.currentGroups = .empty
  page : s.page = []

theorem Fresh.inv {s : State} (h : Fresh s) (cfg : Config) : Inv cfg s.stores ∧ PageOpened s := by
  have noCreated : ∀ key r, ¬ CreatedFor cfg key s.stores r := by
    rintro key r ⟨l, hl, -⟩
    rw [h.links] at hl
    cases hl
  refine ⟨⟨fun g hg => ?_, fun g hg => ?_, fun g hg => ?_, fun l hl => ?_,
    ⟨fun key => ?_, fun r hr => ?_, fun key _ r hr => absurd hr (noCreated key r),
      fun o ho => ?_, fun o ho => ?_⟩⟩, fun o ho => ?_⟩
  · rw [h.groups] at hg
    cases hg
  · rw [h.groups] at hg
    cases hg
  · rw [h.groups] at hg
    cases hg
  · rw [h.links] at hl
    cases hl
  · have hnone : createdExposure cfg key s.stores = 0 := by
      refine List.sum_eq_zero fun x hx => ?_
      obtain ⟨r, -, rfl⟩ := List.mem_map.mp hx
      rw [if_neg (noCreated key r)]
    rw [hnone, closedExposure, h.orders]
    rfl
  · rw [h.remittances] at hr
    cases hr
  · rw [h.orders] at ho
    cases ho
  · rw [h.orders] at ho
    cases ho
  · rw [h.page] at ho
    cases ho

namespace Netting

def config : Config := ⟨.D0, .D2⟩

def order (id : Uuid) (side : RemittanceOrderSide) (amount createdAt : ℤ) : RemittanceOrder :=
  ⟨id, side, 1, amount, .OPEN, 1, 1, none, none, createdAt⟩

/-- Remittances of 100 and more, or after an hour. -/
def rule : RemittanceExposureRule := ⟨1, 1, 100, 3600, []⟩

def start : State :=
  ⟨⟨.empty, [], .empty, [], Table.empty.upsert rule, .empty, [], []⟩, false, []⟩

/-- A buy of 160 and a sell of 50, and a buy of 20 that is too small for a remittance. -/
def netted : List (ℤ × Command) :=
  ([.create (order 1 .SELL 50 1), .create (order 2 .BUY 160 2), .create (order 3 .BUY 20 3),
    .begin, .getAllByStatus 1, .next, .next, .next] : List Command).map (10, ·)

/-- The row of an order is withdrawn while its group waits. -/
def withdrawal : List (ℤ × Command) :=
  ([.create (order 1 .BUY 60 1), .begin, .getAllByStatus 1, .next, .withdraw 1,
    .create (order 2 .BUY 60 2), .begin, .getAllByStatus 1, .next] : List Command).map (10, ·)

end Netting

end ZroServices.Otc.Exposure
