import ZroServices.Otc.Grouping

/-!
# OTC — the amount and the remittances of a group

A cached group is worth the sum of its remittances, each of which is open, of the key of the
group, and in it once; a batch that was emitted has remittances that wait (`Inv`).  Taking a
remittance keeps this, but when the group gets worth too much: the last remittance is split as if
it were a buy, or it is taken out of the group by its index in the page (`LastSplit`).

`run_grouping` is the result over runs; `spliced` is a group from which nothing is taken out.
-/

namespace ZroServices.Otc

open Foundation SyncOpenRemittanceUseCase

/-! ### What a group is -/

/-- The remittance is open, and of the group of `key`. -/
def InGroup (cfg : Config) (key : GroupKey) (t : Table Remittance) (id : Uuid) : Prop :=
  ∃ r p, t.get? id = some r ∧ r.status = .OPEN ∧ r.provider = some p ∧ groupKey cfg r p = key

/-- The remittance waits for the PSP. -/
def Waits (t : Table Remittance) (id : Uuid) : Prop :=
  ∃ r, t.get? id = some r ∧ r.status = .WAITING

/-- The fields are those of a group of `key`. -/
structure Collected (cfg : Config) (key : GroupKey) (t : Table Remittance) (c : Current) :
    Prop where
  sum : c.groupAmount = amountIn t c.currentGroupIds
  nodup : c.currentGroupIds.Nodup
  inGroup : ∀ id ∈ c.currentGroupIds, InGroup cfg key t id

/-- What holds between the cached groups, the remittances and the batches. -/
structure Inv (cfg : Config) (s : Stores) : Prop where
  sum : ∀ g ∈ s.currentGroups.rows, g.groupAmount = amountIn s.remittances g.remittanceGroup
  nodup : ∀ g ∈ s.currentGroups.rows, g.remittanceGroup.Nodup
  inGroup : ∀ g ∈ s.currentGroups.rows, ∀ id ∈ g.remittanceGroup,
    InGroup cfg g.key s.remittances id
  waits : ∀ q ∈ batches s, ∀ id ∈ q.remittanceIds, Waits s.remittances id

variable {cfg : Config} {now : ℤ} {key key' : GroupKey} {s s' s₁ : Stores} {c c' c₁ : Current}
  {r last : Remittance} {i : ℕ} {p : Uuid} {t t' : Table Remittance} {id : Uuid}

section

variable (h : InGroup cfg key t id)
include h

/-- A remittance is of one group. -/
theorem InGroup.key_eq (h' : InGroup cfg key' t id) : key = key' := by
  obtain ⟨r, p, hr, -, hp, hk⟩ := h
  obtain ⟨r', p', hr', -, hp', hk'⟩ := h'
  obtain rfl := Option.some.inj (hr.symm.trans hr')
  obtain rfl := Option.some.inj (hp.symm.trans hp')
  exact hk.symm.trans hk'

theorem InGroup.not_waits : ¬ Waits t id := by
  rintro ⟨r', hr', hwaits⟩
  obtain ⟨r, p, hr, hopen, -⟩ := h
  obtain rfl := Option.some.inj (hr.symm.trans hr')
  rw [hopen] at hwaits
  cases hwaits

theorem InGroup.congr (e : t'.get? id = t.get? id) : InGroup cfg key t' id := by
  obtain ⟨r, p, hr, hrest⟩ := h
  exact ⟨r, p, e.trans hr, hrest⟩

theorem InGroup.stored : ∃ r, t.get? id = some r := by
  obtain ⟨r, -, hr, -⟩ := h
  exact ⟨r, hr⟩

end

/-- **Writing one group keeps the invariant**, when only remittances of that group were changed
(`touched`), and what was emitted waits. -/
theorem Inv.upsert (h : Inv cfg s) {touched : List Uuid} {new : List ReadyExchangeQuotation}
    (hgroups : s'.currentGroups = s.currentGroups)
    (htouched : ∀ id ∈ touched, InGroup cfg key s.remittances id)
    (hsame : ∀ id ∉ touched, ∀ r, s.remittances.get? id = some r →
      s'.remittances.get? id = some r)
    (hc : Collected cfg key s'.remittances c) (hbatches : batches s' = batches s ++ new)
    (hnew : ∀ q ∈ new, ∀ id ∈ q.remittanceIds, Waits s'.remittances id) :
    Inv cfg { s' with currentGroups := s'.currentGroups.upsert (groupOf key c) } := by
  have others : ∀ g ∈ s.currentGroups.rows, g.key ≠ key → ∀ id ∈ g.remittanceGroup,
      s'.remittances.get? id = s.remittances.get? id := by
    intro g hg hne id hid
    have hin := h.inGroup g hg id hid
    obtain ⟨r, hr⟩ := hin.stored
    exact (hsame id (fun m => hne (hin.key_eq (htouched id m))) r hr).trans hr.symm
  have rows : ∀ g, g ∈ (s'.currentGroups.upsert (groupOf key c)).rows →
      (g ∈ s.currentGroups.rows ∧ g.key ≠ key) ∨ g = groupOf key c := by
    intro g hg
    rw [hgroups] at hg
    exact Table.mem_upsert.mp hg
  refine ⟨fun g hg => ?_, fun g hg => ?_, fun g hg => ?_, fun q hq => ?_⟩
  · rcases rows g hg with ⟨hg, hne⟩ | rfl
    · exact (h.sum g hg).trans (amountIn_congr fun id hid => by rw [others g hg hne id hid])
    · exact hc.sum
  · rcases rows g hg with ⟨hg, -⟩ | rfl
    · exact h.nodup g hg
    · exact hc.nodup
  · rcases rows g hg with ⟨hg, hne⟩ | rfl
    · exact fun id hid => (h.inGroup g hg id hid).congr (others g hg hne id hid)
    · exact hc.inGroup
  · change q ∈ batches s' at hq
    rw [hbatches] at hq
    rcases List.mem_append.mp hq with hq | hq
    · intro id hid
      obtain ⟨r, hr, hwaits⟩ := h.waits q hq id hid
      exact ⟨r, hsame id (fun m => (htouched id m).not_waits ⟨r, hr, hwaits⟩) r hr, hwaits⟩
    · exact hnew q hq

/-! ### One remittance -/

/-- The cached group of a key, or an empty one, is a group. -/
theorem Inv.collected (h : Inv cfg s) (createdAt : ℤ) :
    Collected cfg key s.remittances (currentOf now createdAt (s.currentGroups.get? key)) := by
  cases hg : s.currentGroups.get? key with
  | none => exact ⟨rfl, List.nodup_nil, fun _ hid => absurd hid List.not_mem_nil⟩
  | some g =>
      have hmem := Table.mem_of_get? hg
      have hkey : g.key = key := Table.key_of_get? hg
      exact ⟨h.sum g hmem, h.nodup g hmem, hkey ▸ h.inGroup g hmem⟩

/-- An open remittance that is added. -/
theorem Collected.added (h : Collected cfg key t c) (hr : InGroup cfg key t r.id)
    (hget : t.get? r.id = some r) (hnew : r.id ∉ c.currentGroupIds) :
    Collected cfg key t (added r c) := by
  refine ⟨?_, h.nodup.append (List.nodup_singleton _) (List.disjoint_singleton.mpr hnew), ?_⟩
  · change c.groupAmount + r.signed = amountIn t (c.currentGroupIds ++ [r.id])
    rw [amountIn_append, amountIn_singleton hget, h.sum]
  · intro id hid
    rcases List.mem_append.mp hid with hid | hid
    · exact h.inGroup id hid
    · exact List.mem_singleton.mp hid ▸ hr

/-- An empty group. -/
theorem collected_nil (hids : c.currentGroupIds = []) (hamount : c.groupAmount = 0) :
    Collected cfg key t c := by
  refine ⟨by rw [hids, hamount]; rfl, hids ▸ List.nodup_nil, fun id hid => ?_⟩
  rw [hids] at hid
  cases hid

/-- The stores `s₁` before the group is handled: only a remittance of the group was changed. -/
structure Before (cfg : Config) (key : GroupKey) (s s₁ : Stores) (c : Current) : Prop where
  groups : s₁.currentGroups = s.currentGroups
  batches : batches s₁ = batches s
  collected : Collected cfg key s₁.remittances c
  inGroup : ∀ id ∈ c.currentGroupIds, InGroup cfg key s.remittances id
  same : ∀ id ∉ c.currentGroupIds, ∀ r, s.remittances.get? id = some r →
    s₁.remittances.get? id = some r

/-- Remittances of other groups stay as they are. -/
theorem Handled.same (hb : Before cfg key s s₁ c) (hh : Handled cfg now key last s₁ c c' s') :
    ∀ id ∉ c.currentGroupIds, ∀ r, s.remittances.get? id = some r →
      s'.remittances.get? id = some r := by
  intro id hid r hr
  cases hh with
  | kept => exact hb.same id hid r hr
  | closed _ hs => rw [hs.remittances, if_neg hid, hb.same id hid r hr]
  | sent _ _ _ _ hs =>
      exact (hs.remittances id).trans (by rw [if_neg hid, hb.same id hid r hr])

/-- The batches after one was sent. -/
theorem batches_sent {s₂ : Stores} {q : ReadyExchangeQuotation} (h : batches s₂ = batches s) :
    batches { s₂ with events := s₂.events ++ [.readyExchangeQuotation q] } = batches s ++ [q] := by
  rw [batches, List.filterMap_append]
  exact congrArg (· ++ _) h

/-- Handling a group keeps the invariant. -/
theorem Handled.inv (h : Inv cfg s) (hb : Before cfg key s s₁ c)
    (hh : Handled cfg now key last s₁ c c' s') :
    Inv cfg { s' with currentGroups := s'.currentGroups.upsert (groupOf key c') } := by
  have same := hh.same hb
  cases hh with
  | kept =>
      exact h.upsert hb.groups hb.inGroup hb.same hb.collected
        (hb.batches.trans (List.append_nil _).symm) fun q hq => absurd hq List.not_mem_nil
  | closed hzero hs =>
      refine h.upsert (hs.currentGroups.trans hb.groups) hb.inGroup same
        (collected_nil rfl rfl) ?_ fun q hq => absurd hq List.not_mem_nil
      rw [hs.batches, hb.batches, List.append_nil]
  | sent daily tag hdaily hlimits hs =>
      refine h.upsert (hs.currentGroups.trans hb.groups) hb.inGroup same
        (collected_nil rfl rfl) (batches_sent (hs.batches.trans hb.batches)) ?_
      · intro q hq id hid
        obtain rfl := List.mem_singleton.mp hq
        have hid : id ∈ c.currentGroupIds := hid
        obtain ⟨r, hr⟩ := (hb.collected.inGroup id hid).stored
        exact ⟨_, (hs.remittances id).trans (by rw [if_pos hid, hr]; rfl), rfl⟩

/-- Splitting the last remittance, a buy, leaves the group the maximum. -/
theorem before_split {new : Remittance} (hc : Collected cfg key s.remittances (added r c))
    (hr : s.remittances.get? r.id = some r) (hnew : r.id ∉ c.currentGroupIds)
    (hbuy : r.side = .BUY)
    (hins : (s.remittances.set (remaining cfg (added r c) r)).insert? new = some t)
    {orders : List RemittanceOrderRemittance} {event : Event} (hevent : event.batch? = none) :
    Before cfg key s { s with
      remittances := t
      remittanceOrderRemittances := orders
      events := s.events ++ [event] }
      { added r c with groupAmount := cfg.pspTradeMaxAmount } := by
  have hself : t.get? r.id = some (remaining cfg (added r c) r) :=
    Table.get?_insert?_of_some hins (Table.get?_set_self hr rfl)
  have hother : ∀ id, id ≠ r.id → ∀ r', s.remittances.get? id = some r' → t.get? id = some r' :=
    fun id hne r' hr' =>
      Table.get?_insert?_of_some hins ((Table.get?_set_ne (fun e => hne e.symm)).trans hr')
  have hne : ∀ id ∈ c.currentGroupIds, id ≠ r.id := fun id hid e => hnew (e ▸ hid)
  have hkept : amountIn t c.currentGroupIds = amountIn s.remittances c.currentGroupIds := by
    refine amountIn_congr fun id hid => ?_
    obtain ⟨r', hr'⟩ := (hc.inGroup id (List.mem_append_left _ hid)).stored
    rw [hr', hother id (hne id hid) r' hr']
  refine ⟨rfl, ?_, ⟨?_, hc.nodup, ?_⟩, hc.inGroup, ?_⟩
  · change (s.events ++ [event]).filterMap _ = _
    rw [List.filterMap_append, List.filterMap_cons_none hevent, List.filterMap_nil, List.append_nil]
    rfl
  · have hsum : c.groupAmount + r.signed = amountIn s.remittances (c.currentGroupIds ++ [r.id]) :=
      hc.sum
    change cfg.pspTradeMaxAmount = amountIn t (c.currentGroupIds ++ [r.id])
    rw [amountIn_append, amountIn_singleton hr] at hsum
    rw [amountIn_append, amountIn_singleton hself, hkept, ← add_right_cancel hsum]
    simp only [remaining, added, Remittance.signed, hbuy]
    omega
  · intro id hid
    rcases List.mem_append.mp hid with hid' | hid'
    · obtain ⟨r', p, hr', hrest⟩ := hc.inGroup id hid
      exact ⟨r', p, hother id (hne id hid') r' hr', hrest⟩
    · obtain rfl := List.mem_singleton.mp hid'
      obtain ⟨r', p, hr', hrest⟩ := hc.inGroup r.id hid
      obtain rfl := Option.some.inj (hr.symm.trans hr')
      exact ⟨_, p, hself, hrest⟩
  · intro id hid r' hr'
    exact hother id (fun e => hid (List.mem_append_right _ (List.mem_singleton.mpr e))) r' hr'

/-- When the group with the remittance `r` is worth too much: if more than `r` has to go, the index
of `r` in its page is its index in the group; otherwise `r` is a buy. -/
def LastSplit (cfg : Config) (now : ℤ) (i : ℕ) (r : Remittance) (s : Stores) : Prop :=
  ∀ p ∈ r.provider,
    let c := currentOf now r.createdAt (s.currentGroups.get? (groupKey cfg r p))
    r.id ∉ s.updatedRemittancesIds → (newDailyConstants cfg now s.remittances c).isSome →
    r.id ∉ c.currentGroupIds → cfg.pspTradeMaxAmount < (added r c).groupAmount →
      if (remaining cfg (added r c) r).amount ≤ 0 then i = c.currentGroupIds.length
      else r.side = .BUY

instance (cfg : Config) (now : ℤ) (i : ℕ) (r : Remittance) (s : Stores) :
    Decidable (LastSplit cfg now i r s) :=
  inferInstanceAs (Decidable (∀ p ∈ r.provider, _ → _ → _ → _ → ite _ _ _))

theorem Collects.lastSplit (hcollects : Collects cfg now r s p c) (h : LastSplit cfg now i r s) :
    cfg.pspTradeMaxAmount < (added r c).groupAmount →
      if (remaining cfg (added r c) r).amount ≤ 0 then i = c.currentGroupIds.length
      else r.side = .BUY := by
  have h := h p hcollects.provider
  rw [← hcollects.current] at h
  exact h hcollects.fresh hcollects.daily hcollects.new

theorem Collects.collected (hcollects : Collects cfg now r s p c) (h : Inv cfg s)
    (hr : r.id ∉ s.updatedRemittancesIds → s.remittances.get? r.id = some r ∧ r.status = .OPEN) :
    Collected cfg (groupKey cfg r p) s.remittances (added r c) := by
  obtain ⟨hget, hopen⟩ := hr hcollects.fresh
  have hc : Collected cfg (groupKey cfg r p) s.remittances c :=
    hcollects.current ▸ h.collected r.createdAt
  exact hc.added ⟨r, p, hget, hopen, hcollects.provider, rfl⟩ hget hcollects.new

/-- What happens to a group that got `r` is that a group of the same day is handled, with a last
remittance of the same settlement dates. -/
theorem GroupEffect.before (hc : Collected cfg key s.remittances (added r c))
    (hget : s.remittances.get? r.id = some r) (hnew : r.id ∉ c.currentGroupIds)
    (hlast : cfg.pspTradeMaxAmount < (added r c).groupAmount →
      if (remaining cfg (added r c) r).amount ≤ 0 then i = c.currentGroupIds.length
      else r.side = .BUY)
    (hg : GroupEffect cfg now key r i s (added r c) c' s') :
    ∃ last c₁ s₁, Before cfg key s s₁ c₁ ∧ Handled cfg now key last s₁ c₁ c' s' ∧
      (Prepared cfg now r s (added r c) last c₁ s₁ ∨
        s₁ = s ∧ s' = s ∧ c' = c₁ ∧ c₁ = { c with currentGroupIds := c.currentGroupIds }) := by
  cases hg with
  | handled hp hh =>
      refine ⟨_, _, _, ?_, hh, Or.inl hp⟩
      cases hp with
      | whole => exact ⟨rfl, rfl, hc, hc.inGroup, fun _ _ _ hr => hr⟩
      | split id t orders hover hrest hins =>
          have hbuy := hlast hover
          rw [if_neg (not_le.mpr hrest)] at hbuy
          exact before_split hc hget hnew hbuy hins rfl
  | spliced hover hrest =>
      have hlength := hlast hover
      rw [if_pos hrest] at hlength
      have hids : (added r c).currentGroupIds.eraseIdx i = c.currentGroupIds := by
        rw [hlength]
        exact List.eraseIdx_append_of_length_le le_rfl _ |>.trans (by simp)
      have hamount : (added r c).groupAmount - r.signed = c.groupAmount :=
        add_sub_cancel_right _ _
      have hbase : Collected cfg key s.remittances c := by
        refine ⟨?_, (List.nodup_append.mp hc.nodup).1, fun id hid =>
          hc.inGroup id (List.mem_append_left _ hid)⟩
        have hsum : c.groupAmount + r.signed
            = amountIn s.remittances (c.currentGroupIds ++ [r.id]) := hc.sum
        rw [amountIn_append, amountIn_singleton hget] at hsum
        exact add_right_cancel hsum
      refine ⟨r, c, s, ⟨rfl, rfl, hbase, hbase.inGroup, fun _ _ _ hr => hr⟩, ?_,
        Or.inr ⟨rfl, rfl, ?_, rfl⟩⟩
      · rw [hids, hamount]
        exact .kept
      · rw [hids, hamount]
        rfl

/-- Taking a remittance keeps the invariant, when it is split as it should be. -/
theorem Effect.inv (h : Inv cfg s)
    (hr : r.id ∉ s.updatedRemittancesIds → s.remittances.get? r.id = some r ∧ r.status = .OPEN)
    (hlast : LastSplit cfg now i r s) (he : Effect cfg now i r s s') : Inv cfg s' := by
  cases he with
  | none => exact h
  | grouped p hcollects hg =>
      obtain ⟨hget, -⟩ := hr hcollects.fresh
      obtain ⟨last, c₁, s₁, hb, hh, -⟩ := hg.before (hcollects.collected h hr) hget hcollects.new
        (hcollects.lastSplit hlast)
      exact hh.inv h hb

/-! ### The page -/

/-- The remittances that are still to be taken are each once in the page, and were updated in this
run or are stored as they were read. -/
structure PageInv (s : State) : Prop where
  nodup : (s.page.map (·.id)).Nodup
  fresh : ∀ r ∈ s.page, r.id ∉ s.stores.updatedRemittancesIds →
    s.stores.remittances.get? r.id = some r ∧ r.status = .OPEN

/-- Another remittance than the one that is taken stays as it is, or is updated in this run. -/
structure Others (id : Uuid) (s s' : Stores) : Prop where
  updated : ∀ x ∈ s.updatedRemittancesIds, x ∈ s'.updatedRemittancesIds
  rows : ∀ x ≠ id, ∀ r, s.remittances.get? x = some r → x ∉ s'.updatedRemittancesIds →
    s'.remittances.get? x = some r

theorem Settles.others {f : Remittance → Remittance} {ids : List Uuid} (h : Settles f ids s s') :
    Others id s s' := by
  refine ⟨fun x hx => ?_, fun x _ r hr hx => ?_⟩
  · rw [h.updated]
    exact List.mem_append_left _ hx
  · rw [h.updated, List.mem_append, not_or] at hx
    rw [h.remittances, if_neg hx.2, hr]

theorem Others.refl (id : Uuid) (s : Stores) : Others id s s :=
  ⟨fun _ hx => hx, fun _ _ _ hr _ => hr⟩

theorem Others.trans (h : Others id s s₁) (h' : Others id s₁ s') : Others id s s' :=
  ⟨fun x hx => h'.updated x (h.updated x hx), fun x hne r hr hx =>
    h'.rows x hne r (h.rows x hne r hr fun hx' => hx (h'.updated x hx')) hx⟩

theorem Prepared.others (hp : Prepared cfg now r s c last c₁ s₁) : Others r.id s s₁ := by
  cases hp with
  | whole => exact .refl r.id s
  | split id t orders hover hrest hins =>
      refine ⟨fun _ hx => hx, fun x hne r' hr' _ => ?_⟩
      exact Table.get?_insert?_of_some hins ((Table.get?_set_ne fun e => hne e.symm).trans hr')

theorem Handled.others (hh : Handled cfg now key last s c c' s') : Others id s s' := by
  cases hh with
  | kept => exact .refl id _
  | closed _ hs => exact hs.others
  | sent _ _ _ _ hs =>
      have ho : Others id s _ := hs.others
      exact ⟨ho.updated, ho.rows⟩

theorem Effect.others (he : Effect cfg now i r s s') : Others r.id s s' := by
  cases he with
  | none => exact .refl r.id _
  | grouped p hcollects hg =>
      cases hg with
      | handled hp hh => exact ⟨(hp.others.trans hh.others).updated, (hp.others.trans hh.others).rows⟩
      | spliced => exact ⟨fun _ hx => hx, fun _ _ _ hr _ => hr⟩

/-- The rest of the page, after its first remittance was taken. -/
theorem PageInv.rest {page : List Remittance} {s : State} {stores : Stores} (h : PageInv s)
    (hpage : s.page = r :: page) (ho : Others r.id s.stores stores) :
    (page.map (·.id)).Nodup ∧ ∀ r' ∈ page, r'.id ∉ stores.updatedRemittancesIds →
      stores.remittances.get? r'.id = some r' ∧ r'.status = .OPEN := by
  have hnodup := h.nodup
  rw [hpage, List.map_cons, List.nodup_cons] at hnodup
  refine ⟨hnodup.2, fun r' hr' hx => ?_⟩
  obtain ⟨hget, hopen⟩ := h.fresh r' (hpage ▸ List.mem_cons_of_mem r hr')
    fun hx' => hx (ho.updated r'.id hx')
  have hne : r'.id ≠ r.id := fun e => hnodup.1 (e ▸ List.mem_map_of_mem hr')
  exact ⟨ho.rows r'.id hne r' hget hx, hopen⟩

/-! ### Runs -/

/-- The remittance that is taken next meets `LastSplit`. -/
def SplitsLast (cfg : Config) (s : State) (l : ℤ × Command) : Prop :=
  l.2 = .next → s.running → ∀ r ∈ s.page.head?, LastSplit cfg l.1 s.index r s.stores

instance (cfg : Config) (s : State) (l : ℤ × Command) : Decidable (SplitsLast cfg s l) :=
  inferInstanceAs (Decidable (_ → _ → ∀ r ∈ s.page.head?, _))

/-- The remittances of a page that is read are stored and open, each once. -/
theorem getAllByStatus_spec (page pageSize : ℕ) (s : Stores) :
    ((RemittanceRepository.getAllByStatus page pageSize .OPEN s).map (·.id)).Nodup ∧
      ∀ r ∈ RemittanceRepository.getAllByStatus page pageSize .OPEN s,
        s.remittances.get? r.id = some r ∧ r.status = .OPEN := by
  let opens := s.remittances.rows.filter fun r => decide (r.status = .OPEN)
  let sorted := opens.insertionSort (·.createdAt ≤ ·.createdAt)
  have hperm : sorted.Perm opens := List.perm_insertionSort _ opens
  have hsub : (RemittanceRepository.getAllByStatus page pageSize .OPEN s).Sublist sorted :=
    (List.take_sublist _ _).trans (List.drop_sublist _ _)
  constructor
  · have hopens : (opens.map (·.id)).Nodup :=
      s.remittances.nodup.sublist (List.filter_sublist.map _)
    exact ((hperm.map _).nodup_iff.mpr hopens).sublist (hsub.map _)
  · intro r hr
    obtain ⟨hmem, hopen⟩ := List.mem_filter.mp (hperm.mem_iff.mp (hsub.subset hr))
    exact ⟨Table.get?_of_mem hmem, of_decide_eq_true hopen⟩

/-- What a run does not touch is stored after a remittance is created. -/
theorem create_spec {r : Remittance} {t : Table Remittance} {x : Uuid} {r' : Remittance}
    (h : t.get? x = some r') : ((t.insert? r).getD t).get? x = some r' := by
  cases hins : t.insert? r with
  | none => exact h
  | some t' => exact Table.get?_insert?_of_some hins h

theorem Inv.create (h : Inv cfg s) (r : Remittance) :
    Inv cfg { s with remittances := (s.remittances.insert? r).getD s.remittances } := by
  have same : ∀ {x}, (∃ r', s.remittances.get? x = some r') →
      ((s.remittances.insert? r).getD s.remittances).get? x = s.remittances.get? x := by
    rintro x ⟨r', hr'⟩
    exact (create_spec hr').trans hr'.symm
  refine ⟨fun g hg => ?_, h.nodup, fun g hg id hid => ?_, fun q hq id hid => ?_⟩
  · exact (h.sum g hg).trans (amountIn_congr fun id hid => by
      rw [same (h.inGroup g hg id hid).stored])
  · exact (h.inGroup g hg id hid).congr (same (h.inGroup g hg id hid).stored)
  · obtain ⟨r', hr', hwaits⟩ := h.waits q hq id hid
    exact ⟨r', create_spec hr', hwaits⟩

theorem takeNext_nil {s : State} (h : s.page = []) : takeNext cfg now s = s := by
  rw [takeNext, h]

theorem takeNext_cons {s : State} {page : List Remittance} (cfg : Config) (now : ℤ)
    (h : s.page = r :: page) :
    (takeNext cfg now s).stores = after (openRemittance cfg now s.index r) s.stores ∧
      ((takeNext cfg now s).page = page ∨ (takeNext cfg now s).page = []) := by
  rw [takeNext, h, after]
  dsimp only
  cases openRemittance cfg now s.index r s.stores with
  | ok u stores => exact ⟨rfl, Or.inl rfl⟩
  | error e stores => exact ⟨rfl, Or.inr rfl⟩

/-- A step keeps the page, when the remittances of the cached groups are stored. -/
theorem pageInv_step {s : State} {l : ℤ × Command} (hpage : PageInv s)
    (hgroups : ∀ g ∈ s.stores.currentGroups.rows, g.remittanceGroup.Nodup ∧
      ∀ id ∈ g.remittanceGroup, ∃ r, s.stores.remittances.get? id = some r) :
    PageInv (step cfg s l) := by
  obtain ⟨now, command⟩ := l
  cases command with
  | create r =>
      refine ⟨hpage.nodup, fun r' hr' hx => ?_⟩
      obtain ⟨hget, hopen⟩ := hpage.fresh r' hr' hx
      exact ⟨create_spec hget, hopen⟩
  | begin => exact ⟨List.nodup_nil, fun _ hr => absurd hr List.not_mem_nil⟩
  | getAllByStatus page =>
      by_cases hrun : s.running
      · have hspec := getAllByStatus_spec page pageSize s.stores
        rw [step, execCommand, if_pos hrun]
        exact ⟨hspec.1, fun r hr _ => hspec.2 r hr⟩
      · rw [step, execCommand, if_neg hrun]
        exact ⟨hpage.nodup, hpage.fresh⟩
  | next =>
      by_cases hrun : s.running
      · rw [step, execCommand, if_pos hrun]
        cases hentries : s.page with
        | nil =>
            rw [takeNext_nil hentries]
            exact ⟨hpage.nodup, hpage.fresh⟩
        | cons r page =>
            have hr := hpage.fresh r (hentries ▸ List.mem_cons_self)
            have heffect := openRemittance_effect cfg now s.index (fun hx => (hr hx).1) hgroups
            have hrest := hpage.rest hentries heffect.others
            obtain ⟨hstores, hnext⟩ := takeNext_cons cfg now hentries
            constructor
            · rcases hnext with e | e
              · exact e ▸ hrest.1
              · exact e ▸ List.nodup_nil
            · intro r' hr' hx
              rcases hnext with e | e
              · exact hstores ▸ hrest.2 r' (e ▸ hr') (hstores ▸ hx)
              · exact absurd (e ▸ hr' : r' ∈ []) List.not_mem_nil
      · rw [step, execCommand, if_neg hrun]
        exact ⟨hpage.nodup, hpage.fresh⟩

/-- **A step keeps the invariants.** -/
theorem inv_step {s : State} {l : ℤ × Command} (h : Inv cfg s.stores ∧ PageInv s)
    (hok : SplitsLast cfg s l) : Inv cfg (step cfg s l).stores ∧ PageInv (step cfg s l) := by
  obtain ⟨hinv, hpage⟩ := h
  have hgroups : ∀ g ∈ s.stores.currentGroups.rows, g.remittanceGroup.Nodup ∧
      ∀ id ∈ g.remittanceGroup, ∃ r, s.stores.remittances.get? id = some r := fun g hg =>
    ⟨hinv.nodup g hg, fun id hid => (hinv.inGroup g hg id hid).stored⟩
  refine ⟨?_, pageInv_step hpage hgroups⟩
  obtain ⟨now, command⟩ := l
  cases command with
  | create r => exact hinv.create _
  | begin => exact ⟨hinv.sum, hinv.nodup, hinv.inGroup, hinv.waits⟩
  | getAllByStatus page =>
      rw [step, execCommand]
      split <;> exact hinv
  | next =>
      by_cases hrun : s.running
      · rw [step, execCommand, if_pos hrun]
        cases hentries : s.page with
        | nil =>
            rw [takeNext_nil hentries]
            exact hinv
        | cons r page =>
            have hr := hpage.fresh r (hentries ▸ List.mem_cons_self)
            have hlast : LastSplit cfg now s.index r s.stores :=
              hok rfl hrun r (by rw [hentries]; rfl)
            have heffect := openRemittance_effect cfg now s.index (fun hx => (hr hx).1) hgroups
            exact (takeNext_cons cfg now hentries).1 ▸ heffect.inv hinv hr hlast
      · rw [step, execCommand, if_neg hrun]
        exact hinv

/-- The groups are in step with the remittances: each is worth the sum of its remittances, has each
once, and shares none with another group or with a batch that was emitted. -/
structure InStep (s : Stores) : Prop where
  sum : ∀ g ∈ s.currentGroups.rows, g.groupAmount = amountIn s.remittances g.remittanceGroup
  nodup : ∀ g ∈ s.currentGroups.rows, g.remittanceGroup.Nodup
  apart : ∀ g ∈ s.currentGroups.rows, ∀ g' ∈ s.currentGroups.rows, ∀ id ∈ g.remittanceGroup,
    id ∈ g'.remittanceGroup → g = g'
  unsent : ∀ g ∈ s.currentGroups.rows, ∀ q ∈ batches s, ∀ id ∈ g.remittanceGroup,
    id ∉ q.remittanceIds

theorem Inv.inStep (h : Inv cfg s) : InStep s where
  sum := h.sum
  nodup := h.nodup
  apart g hg g' hg' id hid hid' :=
    Table.eq_of_key hg hg' ((h.inGroup g hg id hid).key_eq (h.inGroup g' hg' id hid'))
  unsent g hg q hq id hid hid' := (h.inGroup g hg id hid).not_waits (h.waits q hq id hid')

/-- **The groups stay in step with the remittances** over every run in which a remittance that
makes its group worth too much is split as it should be. -/
theorem run_grouping {s : State} {ls : List (ℤ × Command)} (h : Inv cfg s.stores) (hpage : PageInv s)
    (hok : Along (step cfg) (SplitsLast cfg) s ls) : InStep (run (step cfg) s ls).stores :=
  (Along.invariant (I := fun s => Inv cfg s.stores ∧ PageInv s) (fun _ _ => inv_step)
    ⟨h, hpage⟩ hok).1.inStep

/-! ### A group that is over the maximum -/

def State.empty : State := ⟨⟨.empty, [], .empty, [], []⟩, false, [], 0, 0⟩

theorem inv_empty : Inv cfg State.empty.stores :=
  ⟨fun _ hg => absurd hg List.not_mem_nil, fun _ hg => absurd hg List.not_mem_nil,
    fun _ hg => absurd hg List.not_mem_nil, fun _ hq => absurd hq List.not_mem_nil⟩

theorem pageInv_empty : PageInv .empty := ⟨List.nodup_nil, fun _ hr => absurd hr List.not_mem_nil⟩

namespace Sample

/-- Trades from 50 to 100, and 100 a day. -/
def config : Config where
  defaultSendDateCode := .D0
  defaultReceiveDateCode := .D2
  pspSettlementDateByStartingTime := []
  pspMarketOpenTime := 0
  pspMarketCloseTime := 1439
  pspTradeMinAmount := 50
  pspTradeMaxAmount := 100
  pspDailyMaxAmount := 100
  serverOffset := -10800000
  currencyTag _ := some "USD"
  createExchangeQuotationDeactive _ := false
  isHoliday _ := false

/-- Noon of a day. -/
def noon (day : ℤ) : ℤ := day * msPerDay + midnight + 43200000

def remittance (id system : Uuid) (side : RemittanceSide) (amount createdAt : ℤ) : Remittance :=
  ⟨id, side, 1, amount, .OPEN, system, some 1, 0, 0, none, none, none, createdAt⟩

/-- On Monday two buys of 100: the first is sent, the second waits for the next day. -/
def monday : List (ℤ × Command) :=
  ([.create (remittance 1 1 .BUY 100 1), .create (remittance 2 1 .BUY 100 2), .begin,
    .getAllByStatus 1, .next, .next] : List Command).map (noon 4, ·)

/-- On Tuesday a buy of 10 for another system, and a buy of 30. -/
def tuesday : List (ℤ × Command) :=
  ([.create (remittance 3 2 .BUY 10 3), .create (remittance 4 1 .BUY 30 4), .begin,
    .getAllByStatus 1, .next, .next, .next] : List Command).map (noon 5, ·)

/-- The group of system 1. -/
def group : GroupKey := ⟨1, 1, 1, .D0, .D2⟩

end Sample

open Sample in
theorem monday_grouping : InStep (run (step config) .empty monday).stores :=
  run_grouping inv_empty pageInv_empty (by decide +kernel)

open Sample in
/-- The buy of 30 has the index 2 in its page and the index 1 in its group: it stays in the group,
which is worth 30 less than its remittances. -/
theorem spliced :
    ∃ g ∈ (run (step config) .empty (monday ++ tuesday)).stores.currentGroups.rows,
      g.key = group ∧ g.remittanceGroup = [2, 4] ∧ g.groupAmount = 100 ∧
        amountIn (run (step config) .empty (monday ++ tuesday)).stores.remittances
          g.remittanceGroup = 130 := by
  have h : ((run (step config) .empty (monday ++ tuesday)).stores.currentGroups.get? group).map
      (fun g => (g.key, g.remittanceGroup, g.groupAmount)) = some (group, [2, 4], 100) := by
    decide +kernel
  obtain ⟨g, hg, e⟩ := Option.map_eq_some_iff.mp h
  obtain ⟨hkey, hids, hamount⟩ : g.key = group ∧ g.remittanceGroup = [2, 4] ∧ g.groupAmount = 100 := by
    simpa using e
  refine ⟨g, Table.mem_of_get? hg, hkey, hids, hamount, ?_⟩
  rw [hids]
  decide +kernel

end ZroServices.Otc
