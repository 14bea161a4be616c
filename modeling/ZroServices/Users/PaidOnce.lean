import ZroServices.Foundation.Dictionary
import ZroServices.Users.ReferralReward

/-!
# Users — a reward is paid once

An operation has one reward, and a reward is part of one cashback at most: a cashback takes the id of
the group of its rewards, and no reward of a group that has a cashback leaves the group.

That the amount of a cashback is the sum of the rewards marked with it is more.  A cashback may be
created in a run that fails to mark its rewards; the next run marks those that it sees.  The amounts
agree after every successful run when each of those runs sees them all (`paid_of_seen`): they have not
left the window of dates, and their user has enough affiliates still, and an active wallet.
-/

namespace ZroServices.Users.ReferralRewards

open Foundation

variable {config : Config} {w : World}

/-! ### What is promised -/

/-- No call of the execution fails; an amount may be under the minimum, or a wallet not active. -/
structure Calls.Succeeds (calls : Calls) : Prop where
  getRewards : calls.getRewards.isOk
  countAffiliates : ∀ uuid, (calls.countAffiliates uuid).isOk
  updateGroup : ∀ id, calls.updateGroup id = .done
  getWallet : ∀ uuid, calls.getWallet uuid ≠ .raised
  createCashback : ∀ id, calls.createCashback id = .done ∨ calls.createCashback id = .underMinAmount
  updatePaymentOperation : ∀ id, calls.updatePaymentOperation id = .done
  resetGroup : ∀ id, calls.resetGroup id = .done

namespace World

variable (w : World)

/-- The sum of the rewards that are marked with the cashback. -/
def marked (c : Cashback) : ℤ :=
  w.rewards.total fun r => if r.paymentOperation = some c.id then r.amount else 0

/-- An operation has one reward at most, and a reward is part of one cashback at most. -/
structure EarnedOnce : Prop where
  operations : (w.rewards.rows.map ReferralReward.operation).Nodup
  items : ∀ c ∈ w.cashbacks.rows, ∀ c' ∈ w.cashbacks.rows, ∀ i ∈ c.items, i ∈ c'.items → c = c'

end World

variable {r : ReferralReward} {g : Group} {gs : List Group}
variable {rs : List ReferralReward} {newGroup : Uuid → Uuid} {k : Key} {answer : ℕ → Answer}
  {calls : Calls}

/-- What is earned once is paid once, and after every successful execution of the job the amount of
every cashback is the sum of the rewards marked with it. -/
def Paid (config : Config) (now : ℤ) (ls : List Step) : Prop :=
  (∀ ms, ms <+: ls → (run (step config) (start now) ms).EarnedOnce) ∧
    ∀ ms calls, ms ++ [.sync calls] <+: ls → calls.Succeeds →
      ∀ c ∈ (run (step config) (start now) (ms ++ [.sync calls])).cashbacks.rows,
        c.amount = (run (step config) (start now) (ms ++ [.sync calls])).marked c

/-- A successful execution sees every reward of a cashback that is not marked yet: it is still in
the window, and its user has enough affiliates and an active wallet. -/
def Seen (config : Config) (w : World) : Step → Prop
  | .sync calls => calls.Succeeds → ∀ c ∈ w.cashbacks.rows, ∀ r ∈ w.rewards.rows,
      r.id ∈ c.items → r.paymentOperation = none → startDate config w.now ≤ r.createdAt ∧
        ∃ uuid ∈ r.awardedTo, calls.Enough config uuid ∧ calls.getWallet uuid = .active
  | _ => True

/-! ### What every run keeps -/

structure RewardOk (config : Config) (w : World) (r : ReferralReward) : Prop where
  awarded : r.awardedTo ≠ none
  grouped : r.group ≠ none → r.createdAt ≤ endDate config w.now
  item : ∀ c ∈ w.cashbacks.rows, r.id ∈ c.items → r.group = some c.id
  /-- A reward of the group that is not part of the cashback is not seen again. -/
  late : ∀ c ∈ w.cashbacks.rows, r.group = some c.id → r.id ∉ c.items →
    r.createdAt < startDate config w.now
  paid : ∀ g, r.paymentOperation = some g → ∃ c ∈ w.cashbacks.rows, c.id = g ∧ r.id ∈ c.items

structure Sound (config : Config) (w : World) : Prop where
  operations : (w.rewards.rows.map ReferralReward.operation).Nodup
  amount : ∀ c ∈ w.cashbacks.rows,
    c.amount = w.rewards.total fun r => if r.id ∈ c.items then r.amount else 0
  items : ∀ c ∈ w.cashbacks.rows, ∀ i ∈ c.items, ∃ r ∈ w.rewards.rows, r.id = i
  rewards : ∀ r ∈ w.rewards.rows, RewardOk config w r

theorem sound_start (config : Config) (now : ℤ) : Sound config (start now) where
  operations := List.nodup_nil
  amount _ hc := absurd hc List.not_mem_nil
  items _ hc := absurd hc List.not_mem_nil
  rewards _ hr := absurd hr List.not_mem_nil

/-- A reward with its group and its payment changed. -/
structure SameReward (r s : ReferralReward) : Prop where
  id : s.id = r.id
  amount : s.amount = r.amount
  operation : s.operation = r.operation

/-- Rewards may be rewritten, when what is written is in order. -/
theorem Sound.updateAll (h : Sound config w) (answer : ℕ → Answer)
    (hold : ∀ r ∈ rs, ∃ s ∈ w.rewards.rows, SameReward s r)
    (hok : ∀ r ∈ rs, RewardOk config w r) : Sound config (w.updateAll answer rs) := by
  have hcolumn {β : Type} (f : ReferralReward → β) (hf : ∀ r s, SameReward r s → f r = f s) :
      (w.updateAll answer rs).rewards.rows.map f = w.rewards.rows.map f := by
    refine Table.map_setAll fun r hr s hs hkey => ?_
    obtain ⟨s', hs', hsame⟩ := hold r (List.mem_filter.mp hr).1
    rw [Table.eq_of_key hs hs' (hkey.trans hsame.id)]
    exact hf s' r hsame
  have hid : (w.updateAll answer rs).rewards.rows.map ReferralReward.id =
      w.rewards.rows.map ReferralReward.id :=
    hcolumn _ fun r s hsame => hsame.id.symm
  refine ⟨?_, fun c hc => ?_, fun c hc i hi => ?_, fun r hr => ?_⟩
  · rw [hcolumn _ fun r s hsame => hsame.operation.symm]
    exact h.operations
  · refine (h.amount c hc).trans (congrArg List.sum (hcolumn _ fun r s hsame => ?_).symm)
    rw [hsame.id, hsame.amount]
  · obtain ⟨r, hr, rfl⟩ := h.items c hc i hi
    have hmem : r.id ∈ (w.updateAll answer rs).rewards.rows.map ReferralReward.id :=
      hid ▸ List.mem_map_of_mem hr
    exact List.mem_map.mp hmem
  · have hr' : RewardOk config w r := by
      rcases Table.mem_setAll hr with ⟨hr, -⟩ | hr
      · exact h.rewards r hr
      · exact hok r (List.mem_filter.mp hr).1
    exact ⟨hr'.awarded, hr'.grouped, hr'.item, hr'.late, hr'.paid⟩

/-! ### The groups of an execution -/

/-- The key of a reward that has a user. -/
def ReferralReward.keyOf (item : ReferralReward) : Key := item.key.getD (.user 0)

/-- A group of one reward. -/
def ReferralReward.begin (newGroup : Uuid → Uuid) (item : ReferralReward) : Group :=
  ⟨item.keyOf.groupId newGroup, item.awardedTo.getD 0, item.amount, [item]⟩

def Group.take (g : Group) (item : ReferralReward) : Group :=
  { g with
    amount := g.amount + item.amount
    items := g.items ++ [item] }

/-- A round of the `reduce` collects a reward that has a user. -/
theorem addItem_eq {acc : List (Key × Group)} (hnodup : (acc.map Prod.fst).Nodup)
    (item : ReferralReward) : addItem newGroup acc item = if item.key.isSome then
      insertEntry ReferralReward.keyOf (ReferralReward.begin newGroup) Group.take acc item
    else acc := by
  rw [addItem]
  cases huuid : item.awardedTo with
  | none => simp [ReferralReward.key, huuid]
  | some uuid =>
      have hkey : item.key = some (item.group.elim (Key.user uuid) Key.group) := by
        rw [ReferralReward.key, huuid]
        rfl
      have hof : item.group.elim (Key.user uuid) Key.group = item.keyOf := by
        rw [ReferralReward.keyOf, hkey]
        rfl
      rw [hkey, Option.isSome_some, if_pos rfl]
      simp only [hof]
      split
      case isTrue hmem =>
        rw [insertEntry_of_mem hnodup hmem]
        refine List.map_congr_left fun e _ => ?_
        by_cases he : e.1 = item.keyOf
        · rw [if_pos he, if_pos he.symm, he]
          rfl
        · rw [if_neg he, if_neg (Ne.symm he)]
      case isFalse hnot =>
        rw [insertEntry_of_notMem hnot, ReferralReward.begin, huuid]
        rfl

theorem foldl_addItem (rs : List ReferralReward) : rs.foldl (addItem newGroup) [] =
    collect ReferralReward.keyOf (ReferralReward.begin newGroup) Group.take
      (rs.filter (·.key.isSome)) := by
  induction rs using List.reverseRecOn with
  | nil => rfl
  | append_singleton rs r ih =>
      rw [List.foldl_append, ih, List.foldl_cons, List.foldl_nil, addItem_eq nodup_collect,
        List.filter_append, List.filter_cons]
      split
      case isTrue => exact collect_append_singleton.symm
      case isFalse => rw [List.filter_nil, List.append_nil]

theorem foldl_take (rs : List ReferralReward) (g : Group) : rs.foldl Group.take g =
    { g with
      amount := g.amount + (rs.map ReferralReward.amount).sum
      items := g.items ++ rs } := by
  induction rs generalizing g with
  | nil => simp
  | cons r rs ih => simp [ih, Group.take, add_assoc]

theorem Key.groupId_eq
    (hk : r.key = some k) (hgroup : r.group ≠ none) : r.group = some (k.groupId newGroup) := by
  obtain ⟨id, hid⟩ := Option.ne_none_iff_exists'.mp hgroup
  obtain ⟨uuid, -, rfl⟩ := Option.map_eq_some_iff.mp hk
  rw [hid]
  rfl

/-- The id of a new group is in use nowhere. -/
theorem lt_newGroup {id : Uuid} (uuid : Uuid)
    (hid : id ∈ w.rewards.rows.filterMap ReferralReward.group ++ w.cashbacks.rows.map Cashback.id) :
    id < w.newGroup uuid :=
  Nat.lt_of_lt_of_le (lt_fresh hid) (Nat.le_add_right _ _)

theorem group_lt_newGroup (uuid : Uuid) {id : Uuid}
    (hr : r ∈ w.rewards.rows) (hid : r.group = some id) : id < w.newGroup uuid :=
  lt_newGroup uuid (List.mem_append_left _ (List.mem_filterMap.mpr ⟨r, hr, hid⟩))

theorem cashback_lt_newGroup {c : Cashback} {uuid : Uuid} (hc : c ∈ w.cashbacks.rows) :
    c.id < w.newGroup uuid :=
  lt_newGroup uuid (List.mem_append_right _ (List.mem_map_of_mem hc))

/-- A group of the rewards found. -/
structure GroupOf (config : Config) (w : World) (k : Key) (g : Group) : Prop where
  items : g.items = (w.getPending config).filter fun r => r.key = some k
  group : g.group = k.groupId w.newGroup
  amount : g.amount = (g.items.map ReferralReward.amount).sum
  awardedTo : ∃ r ∈ g.items, r.awardedTo = some g.awardedTo

theorem mem_getPending : r ∈ w.getPending config ↔ r ∈ w.rewards.rows ∧
    r.paymentOperation = none ∧ startDate config w.now ≤ r.createdAt ∧
      r.createdAt ≤ endDate config w.now := by
  rw [World.getPending, List.mem_filter, decide_eq_true_eq]

section

variable (h : GroupOf config w k g)
include h

theorem GroupOf.mem_items : r ∈ g.items ↔ r ∈ w.getPending config ∧ r.key = some k := by
  rw [h.items, List.mem_filter, decide_eq_true_eq]

theorem GroupOf.nodup : (g.items.map ReferralReward.id).Nodup := by
  refine w.rewards.nodup.sublist (List.Sublist.map _ ?_)
  rw [h.items]
  exact List.filter_sublist.trans List.filter_sublist

/-- A reward that has no group gets one that nothing else has. -/
theorem GroupOf.group_of_none
    (hr : r ∈ g.items) (hnone : r.group = none) : ∃ uuid, g.group = w.newGroup uuid := by
  obtain ⟨uuid, -, hk⟩ := Option.map_eq_some_iff.mp (h.mem_items.mp hr).2
  rw [hnone] at hk
  exact ⟨uuid, by rw [h.group, ← hk]; rfl⟩

theorem GroupOf.group_of_some
    (hr : r ∈ g.items) (hsome : r.group ≠ none) : r.group = some g.group := by
  rw [h.group]
  exact Key.groupId_eq (h.mem_items.mp hr).2 hsome

/-- Groups of two keys have different ids. -/
theorem GroupOf.group_ne {k' : Key} {g' : Group}
    (h' : GroupOf config w k' g') (hne : k ≠ k') : g.group ≠ g'.group := by
  have hused {k : Key} {g : Group} {id uuid : Uuid} (h : GroupOf config w k g)
      (hk : k = .group id) : id < w.newGroup uuid := by
    obtain ⟨r, hr, -⟩ := h.awardedTo
    obtain ⟨hpending, hkey⟩ := h.mem_items.mp hr
    refine group_lt_newGroup _ (r := r) (mem_getPending.mp hpending).1 ?_
    obtain ⟨u, -, hu⟩ := Option.map_eq_some_iff.mp hkey
    subst hk
    cases hg : r.group with
    | none => rw [hg] at hu; cases hu
    | some i => rw [hg] at hu; cases hu; rfl
  rw [h.group, h'.group]
  cases hk : k with
  | group id =>
      cases hk' : k' with
      | group id' => exact fun heq => hne (by rw [hk, hk', show id = id' from heq])
      | user uuid => exact Nat.ne_of_lt (hused h hk)
  | user uuid =>
      cases hk' : k' with
      | group id => exact (Nat.ne_of_lt (hused h' hk')).symm
      | user uuid' => exact fun heq => hne (by rw [hk, hk', Nat.add_left_cancel heq])

end

/-- The groups, each with its key. -/
theorem groups_spec (config : Config) (w : World) : ∃ acc : List (Key × Group),
    w.groups config = acc.map Prod.snd ∧ (acc.map Prod.fst).Nodup ∧
      (∀ e ∈ acc, GroupOf config w e.1 e.2) ∧
      ∀ r ∈ w.getPending config, ∀ k, r.key = some k → k ∈ acc.map Prod.fst := by
  have hkey : ∀ (r : ReferralReward) k, (r.keyOf = k ∧ r.key.isSome) ↔ r.key = some k := by
    intro r k
    rw [ReferralReward.keyOf]
    cases r.key <;> simp
  refine ⟨_, congrArg (List.map Prod.snd) (foldl_addItem _), nodup_collect,
    fun ⟨k, g⟩ he => ?_, fun r hr k hk => ?_⟩
  · obtain ⟨first, rest, hfilter, hg⟩ := entry_collect he
    have hitems : first :: rest = (w.getPending config).filter fun r => r.key = some k := by
      rw [← hfilter, List.filter_filter]
      refine List.filter_congr fun r _ => ?_
      rw [← Bool.decide_coe r.key.isSome, ← Bool.decide_and, decide_eq_decide, ← hkey]
    have hmem : first ∈ first :: rest := List.mem_cons_self
    rw [hitems, List.mem_filter, decide_eq_true_eq] at hmem
    have hfirst := hmem.2
    obtain ⟨uuid, huuid, -⟩ := Option.map_eq_some_iff.mp hfirst
    rw [foldl_take] at hg
    subst hg
    refine ⟨hitems, ?_, rfl, first, List.mem_cons_self, ?_⟩
    · rw [← ((hkey first k).mpr hfirst).1]
      rfl
    · rw [huuid]
      simp [ReferralReward.begin, huuid]
  · rw [mem_keys_collect]
    obtain ⟨rfl, hsome⟩ := (hkey r k).mpr hk
    exact List.mem_map_of_mem (List.mem_filter.mpr ⟨hr, hsome⟩)

theorem groupOf_of_mem (hg : g ∈ w.groups config) : ∃ k, GroupOf config w k g := by
  obtain ⟨acc, hacc, -, hof, -⟩ := groups_spec config w
  rw [hacc] at hg
  obtain ⟨e, he, rfl⟩ := List.mem_map.mp hg
  exact ⟨e.1, hof e he⟩

/-- A reward that is found is in a group. -/
theorem exists_group (hr : r ∈ w.getPending config)
    (hk : r.key = some k) : ∃ g ∈ w.groups config, GroupOf config w k g ∧ r ∈ g.items := by
  obtain ⟨acc, hacc, -, hof, hcovered⟩ := groups_spec config w
  obtain ⟨e, he, rfl⟩ := List.mem_map.mp (hcovered r hr k hk)
  exact ⟨e.2, hacc ▸ List.mem_map_of_mem he, hof e he, (hof e he).mem_items.mpr ⟨hr, hk⟩⟩

/-- No two groups have one id. -/
theorem groups_pairwise (config : Config) (w : World) :
    (w.groups config).Pairwise fun g g' => g.group ≠ g'.group := by
  obtain ⟨acc, hacc, hkeys, hof, -⟩ := groups_spec config w
  rw [hacc, List.pairwise_map]
  refine List.Pairwise.imp_of_mem (fun he he' hne => ?_) (List.pairwise_map.mp hkeys)
  exact (hof _ he).group_ne (hof _ he') hne

/-! ### A round of the loop -/

theorem mem_updateAll_of_ne (hr : r ∈ w.rewards.rows) (hne : ∀ x ∈ rs, x.id ≠ r.id) :
    r ∈ (w.updateAll answer rs).rewards.rows := by
  refine Table.mem_of_get? (k := r.id) ((Table.get?_setAll_of_ne fun x hx => ?_).trans
    (Table.get?_of_mem hr))
  exact hne x (List.mem_filter.mp hx).1

theorem mem_updateAll (h : r ∈ (w.updateAll answer rs).rewards.rows) :
    (r ∈ w.rewards.rows ∧ ∀ x ∈ rs, (answer x.id).Writes → r.id ≠ x.id) ∨ r ∈ rs := by
  rcases Table.mem_setAll h with ⟨hr, hne⟩ | hr
  · exact .inl ⟨hr, fun x hx hw => hne x (List.mem_filter.mpr ⟨hx, decide_eq_true hw⟩)⟩
  · exact .inr (List.mem_filter.mp hr).1

/-- A group whose rewards are all those of its id that can be paid. -/
structure Ready (config : Config) (w : World) (g : Group) : Prop where
  items : ∀ r ∈ g.items, r ∈ w.rewards.rows
  nodup : (g.items.map ReferralReward.id).Nodup
  group : ∀ r ∈ g.items, r.group = some g.group
  unpaid : ∀ r ∈ g.items, r.paymentOperation = none
  amount : g.amount = (g.items.map ReferralReward.amount).sum
  complete : ∀ r ∈ w.rewards.rows, r.group = some g.group → r.paymentOperation = none →
    startDate config w.now ≤ r.createdAt → r ∈ g.items
  now : ∀ r ∈ g.items, startDate config w.now ≤ r.createdAt

theorem Ready.mem_of_id (hg : Ready config w g)
    (hr : r ∈ w.rewards.rows) (hid : r.id ∈ g.items.map ReferralReward.id) : r ∈ g.items := by
  obtain ⟨s, hs, hsr⟩ := List.mem_map.mp hid
  rwa [← Table.eq_of_key (hg.items s hs) hr hsr]

/-- A reward of a group that has no cashback is not paid. -/
theorem RewardOk.unpaid_of_group {id : Uuid} (h : RewardOk config w r)
    (hgroup : r.group = some id) (hnone : w.cashbacks.get? id = none) :
    r.paymentOperation = none := by
  by_contra hpaid
  obtain ⟨p, hp⟩ := Option.ne_none_iff_exists'.mp hpaid
  obtain ⟨c, hc, -, hin⟩ := h.paid p hp
  have hid : c.id = id := Option.some.inj ((h.item c hc hin).symm.trans hgroup)
  exact Table.get?_eq_none.mp hnone c hc hid

section

variable (h : Sound config w)
include h

/-- The rewards of a group are marked with the cashback that they are part of. -/
theorem Sound.markPaid (hg : Ready config w g) {c : Cashback}
    (hc : c ∈ w.cashbacks.rows) (hid : c.id = g.group) (hin : ∀ r ∈ g.items, r.id ∈ c.items)
    (answer : ℕ → Answer) : Sound config (w.updateAll answer g.paid) := by
  refine h.updateAll answer (fun r hr => ?_) fun r hr => ?_
  all_goals obtain ⟨s, hs, rfl⟩ := List.mem_map.mp hr
  · exact ⟨s, hg.items s hs, rfl, rfl, rfl⟩
  · have hok := h.rewards s (hg.items s hs)
    refine ⟨hok.awarded, hok.grouped, hok.item, hok.late, fun p hp => ?_⟩
    exact ⟨c, hc, hid.trans (Option.some.inj hp), hin s hs⟩

/-- A cashback of a group that had none. -/
theorem Sound.created (hg : Ready config w g)
    (hnone : w.cashbacks.get? g.group = none) : Sound config { w with
      cashbacks := w.cashbacks.upsert ⟨g.group, g.amount, g.items.map ReferralReward.id⟩ } where
  operations := h.operations
  amount c hc := by
    rcases Table.mem_upsert.mp hc with ⟨hc, -⟩ | rfl
    · exact h.amount c hc
    · exact hg.amount.trans
        (Table.total_mem_keys hg.items hg.nodup ReferralReward.amount).symm
  items c hc i hi := by
    rcases Table.mem_upsert.mp hc with ⟨hc, -⟩ | rfl
    · exact h.items c hc i hi
    · obtain ⟨r, hr, hri⟩ := List.mem_map.mp hi
      exact ⟨r, hg.items r hr, hri⟩
  rewards r hr := by
    have hok := h.rewards r hr
    refine ⟨hok.awarded, hok.grouped, fun c hc hin => ?_, fun c hc hgroup hout => ?_,
      fun p hp => ?_⟩
    · rcases Table.mem_upsert.mp hc with ⟨hc, -⟩ | rfl
      · exact hok.item c hc hin
      · exact hg.group r (hg.mem_of_id hr hin)
    · rcases Table.mem_upsert.mp hc with ⟨hc, -⟩ | rfl
      · exact hok.late c hc hgroup hout
      · refine Int.not_le.mp fun hstart => hout (List.mem_map_of_mem ?_)
        exact hg.complete r hr hgroup (hok.unpaid_of_group hgroup hnone) hstart
    · obtain ⟨c, hc, hid, hin⟩ := hok.paid p hp
      exact ⟨c, Table.mem_upsert.mpr (.inl ⟨hc, Table.get?_eq_none.mp hnone c hc⟩), hid, hin⟩

/-- The rewards of a group that has no cashback lose it. -/
theorem Sound.resetGroup (hg : Ready config w g)
    (hnone : w.cashbacks.get? g.group = none) (answer : ℕ → Answer) :
    Sound config (w.updateAll answer g.reset) := by
  refine h.updateAll answer (fun r hr => ?_) fun r hr => ?_
  all_goals obtain ⟨s, hs, rfl⟩ := List.mem_map.mp hr
  · exact ⟨s, hg.items s hs, rfl, rfl, rfl⟩
  · have hok := h.rewards s (hg.items s hs)
    refine ⟨hok.awarded, fun hgroup => absurd rfl hgroup, fun c hc hin => ?_,
      fun c hc hgroup => ?_, hok.paid⟩
    · have hid : c.id = g.group :=
        Option.some.inj ((hok.item c hc hin).symm.trans (hg.group s hs))
      exact absurd hid (Table.get?_eq_none.mp hnone c hc)
    · cases hgroup

theorem Sound.pay (hg : Ready config w g) (calls : Calls) : Sound config (w.pay calls g) := by
  rw [World.pay]
  split
  · exact h
  have hmark {c : Cashback} (hc : w.cashbacks.get? g.group = some c) :
      Sound config (w.updateAll calls.updatePaymentOperation g.paid) := by
    have hmem := Table.mem_of_get? hc
    have hid : c.id = g.group := Table.key_of_get? hc
    refine h.markPaid hg hmem hid (fun r hr => ?_) _
    by_contra hout
    have hlate := (h.rewards r (hg.items r hr)).late c hmem (hid ▸ hg.group r hr) hout
    exact absurd (hg.now r hr) (Int.not_le.mpr hlate)
  split
  · next hc _ => exact hmark hc
  · next hc _ => exact hmark hc
  · exact h
  · exact h
  · next hnone _ =>
    have hg' : Ready config { w with
        cashbacks := w.cashbacks.upsert ⟨g.group, g.amount, g.items.map ReferralReward.id⟩ } g :=
      ⟨hg.items, hg.nodup, hg.group, hg.unpaid, hg.amount, hg.complete, hg.now⟩
    exact (h.created hg hnone).markPaid hg' (Table.mem_upsert.mpr (.inr rfl)) rfl
      (fun r hr => List.mem_map_of_mem hr) _
  · next hnone _ => exact h.created hg hnone
  · exact h
  · next hnone _ => exact h.resetGroup hg hnone _

end

/-- What a round writes on the rewards: those of its group, which keep their group or lose it. -/
theorem pay_rewards (w : World) (calls : Calls) (g : Group) :
    (w.pay calls g).now = w.now ∧ ((w.pay calls g).rewards = w.rewards ∨
      ∃ answer rs, (w.pay calls g).rewards = (w.updateAll answer rs).rewards ∧
        ∀ x ∈ rs, ∃ s ∈ g.items, x.id = s.id ∧ (x.group = s.group ∨ x.group = none)) := by
  have hpaid : ∀ x ∈ g.paid, ∃ s ∈ g.items, x.id = s.id ∧ (x.group = s.group ∨ x.group = none) := by
    intro x hx
    obtain ⟨s, hs, rfl⟩ := List.mem_map.mp hx
    exact ⟨s, hs, rfl, .inl rfl⟩
  have hreset : ∀ x ∈ g.reset,
      ∃ s ∈ g.items, x.id = s.id ∧ (x.group = s.group ∨ x.group = none) := by
    intro x hx
    obtain ⟨s, hs, rfl⟩ := List.mem_map.mp hx
    exact ⟨s, hs, rfl, .inr rfl⟩
  rw [World.pay]
  split
  · exact ⟨rfl, .inl rfl⟩
  split
  · exact ⟨rfl, .inr ⟨_, _, rfl, hpaid⟩⟩
  · exact ⟨rfl, .inr ⟨_, _, rfl, hpaid⟩⟩
  · exact ⟨rfl, .inl rfl⟩
  · exact ⟨rfl, .inl rfl⟩
  · exact ⟨rfl, .inr ⟨_, _, rfl, hpaid⟩⟩
  · exact ⟨rfl, .inl rfl⟩
  · exact ⟨rfl, .inl rfl⟩
  · exact ⟨rfl, .inr ⟨_, _, rfl, hreset⟩⟩

/-- A round does not touch the rewards of another group. -/
theorem Ready.pay {g' : Group} (hg' : Ready config w g') (hg : Ready config w g)
    (hne : g.group ≠ g'.group) (calls : Calls) : Ready config (w.pay calls g) g' := by
  obtain ⟨hnow, hrewards⟩ := pay_rewards w calls g
  suffices (∀ r ∈ g'.items, r ∈ (w.pay calls g).rewards.rows) ∧
      ∀ r ∈ (w.pay calls g).rewards.rows, r.group = some g'.group → r ∈ w.rewards.rows by
    refine ⟨this.1, hg'.nodup, hg'.group, hg'.unpaid, hg'.amount, fun r hr hgroup => ?_, ?_⟩
    · rw [hnow]
      exact hg'.complete r (this.2 r hr hgroup) hgroup
    · rw [hnow]
      exact hg'.now
  rcases hrewards with hrewards | ⟨answer, rs, hrewards, hrs⟩
  · rw [hrewards]
    exact ⟨hg'.items, fun r hr _ => hr⟩
  rw [hrewards]
  constructor
  · intro r hr
    refine mem_updateAll_of_ne (hg'.items r hr) fun x hx heq => hne ?_
    obtain ⟨s, hs, hid, -⟩ := hrs x hx
    have hsr : s = r := Table.eq_of_key (hg.items s hs) (hg'.items r hr) (hid.symm.trans heq)
    exact Option.some.inj ((hg.group s hs).symm.trans (hsr ▸ hg'.group r hr))
  · intro r hr hgroup
    rcases mem_updateAll hr with ⟨hr, -⟩ | hr
    · exact hr
    obtain ⟨s, hs, -, hkept | hlost⟩ := hrs r hr
    · rw [hgroup, hg.group s hs] at hkept
      exact absurd (Option.some.inj hkept).symm hne
    · rw [hgroup] at hlost
      cases hlost

theorem Sound.payAll (h : Sound config w) (hgs : ∀ g ∈ gs, Ready config w g)
    (hne : gs.Pairwise fun g g' => g.group ≠ g'.group) (calls : Calls) :
    Sound config (World.payAll calls w gs) := by
  induction gs generalizing w with
  | nil => exact h
  | cons g gs ih =>
      obtain ⟨hg, hrest⟩ := List.forall_mem_cons.mp hgs
      obtain ⟨hother, hne⟩ := List.pairwise_cons.mp hne
      rw [World.payAll]
      split
      · exact h.pay hg calls
      · exact ih (h.pay hg calls) (fun g' hg' => (hrest g' hg').pay hg (hother g' hg') calls) hne

/-! ### A round of an execution that does not fail -/

/-- Every reward of a cashback is marked with it, or is of a group that is still to be paid. -/
def Awaits (calls : Calls) (w : World) (gs : List Group) : Prop :=
  ∀ c ∈ w.cashbacks.rows, ∀ r ∈ w.rewards.rows, r.id ∈ c.items → r.paymentOperation = none →
    ∃ g ∈ gs, r ∈ g.items ∧ calls.getWallet g.awardedTo = .active

theorem Calls.Succeeds.not_stops (h : calls.Succeeds) (w : World) (g : Group) :
    ¬ World.Stops calls w g := by
  rintro ⟨-, -, -, r, -, hraises⟩
  exact hraises (h.resetGroup r.id)

/-- After the rewards of the group are marked, the others wait still. -/
theorem Awaits.markPaid (ha : Awaits calls w (g :: gs)) (hcalls : calls.Succeeds) :
    Awaits calls (w.updateAll calls.updatePaymentOperation g.paid) gs := by
  intro c hc r hr hin hunpaid
  rcases mem_updateAll hr with ⟨hr, hne⟩ | hr
  · obtain ⟨g', hg', hrg, hactive⟩ := ha c hc r hr hin hunpaid
    rcases List.mem_cons.mp hg' with rfl | hg'
    · have hwrites : (calls.updatePaymentOperation r.id).Writes := by
        rw [hcalls.updatePaymentOperation r.id]
        decide
      exact absurd rfl (hne { r with paymentOperation := some g'.group }
        (List.mem_map.mpr ⟨r, hrg, rfl⟩) hwrites)
    · exact ⟨g', hg', hrg, hactive⟩
  · obtain ⟨s, -, rfl⟩ := List.mem_map.mp hr
    cases hunpaid

theorem Awaits.pay (h : Sound config w)
    (hg : Ready config w g) (ha : Awaits calls w (g :: gs)) (hcalls : calls.Succeeds) :
    Awaits calls (w.pay calls g) gs := by
  rw [World.pay]
  split
  · next hwallet =>
    intro c hc r hr hin hunpaid
    obtain ⟨g', hg', hrg, hactive⟩ := ha c hc r hr hin hunpaid
    rcases List.mem_cons.mp hg' with rfl | hg'
    · exact absurd hactive hwallet
    · exact ⟨g', hg', hrg, hactive⟩
  rename_i hwallet
  split
  · exact ha.markPaid hcalls
  · exact ha.markPaid hcalls
  · next hlost => rcases hcalls.createCashback g.group with h | h <;> simp [h] at hlost
  · next hfailed => rcases hcalls.createCashback g.group with h | h <;> simp [h] at hfailed
  · next hnone _ =>
    refine Awaits.markPaid (fun c hc r hr hin hunpaid => ?_) hcalls
    rcases Table.mem_upsert.mp hc with ⟨hc, -⟩ | rfl
    · exact ha c hc r hr hin hunpaid
    · exact ⟨g, List.mem_cons_self, hg.mem_of_id hr hin, not_not.mp hwallet⟩
  · next hlost => rcases hcalls.createCashback g.group with h | h <;> simp [h] at hlost
  · next hfailed => rcases hcalls.createCashback g.group with h | h <;> simp [h] at hfailed
  · next hnone _ =>
    intro c hc r hr hin hunpaid
    have hapart : r.id ∉ g.items.map ReferralReward.id := by
      intro hid
      obtain ⟨s, hs, hsr⟩ := List.mem_map.mp hid
      have hcid := (h.rewards s (hg.items s hs)).item c hc (hsr ▸ hin)
      rw [hg.group s hs] at hcid
      exact Table.get?_eq_none.mp hnone c hc (Option.some.inj hcid).symm
    rcases mem_updateAll hr with ⟨hr, -⟩ | hr
    · obtain ⟨g', hg', hrg, hactive⟩ := ha c hc r hr hin hunpaid
      rcases List.mem_cons.mp hg' with rfl | hg'
      · exact absurd (List.mem_map_of_mem hrg) hapart
      · exact ⟨g', hg', hrg, hactive⟩
    · obtain ⟨s, hs, rfl⟩ := List.mem_map.mp hr
      exact absurd (List.mem_map_of_mem (f := ReferralReward.id) hs) hapart

theorem Awaits.payAll (h : Sound config w)
    (hgs : ∀ g ∈ gs, Ready config w g) (hne : gs.Pairwise fun g g' => g.group ≠ g'.group)
    (ha : Awaits calls w gs) (hcalls : calls.Succeeds) : Awaits calls (World.payAll calls w gs) [] := by
  induction gs generalizing w with
  | nil => exact ha
  | cons g gs ih =>
      obtain ⟨hg, hrest⟩ := List.forall_mem_cons.mp hgs
      obtain ⟨hother, hne⟩ := List.pairwise_cons.mp hne
      rw [World.payAll, if_neg (hcalls.not_stops w g)]
      exact ih (h.pay hg calls) (fun g' hg' => (hrest g' hg').pay hg (hother g' hg') calls) hne
        (Awaits.pay h hg ha hcalls)

/-- When no reward waits, the cashbacks are the sums of what is marked with them. -/
theorem Sound.amount_eq (h : Sound config w) (ha : Awaits calls w [])
    {c : Cashback} (hc : c ∈ w.cashbacks.rows) : c.amount = w.marked c := by
  rw [h.amount c hc, World.marked]
  refine Table.total_congr fun r hr => if_congr ?_ rfl rfl
  constructor
  · intro hin
    cases hpaid : r.paymentOperation with
    | none =>
        obtain ⟨g, hg, -⟩ := ha c hc r hr hin hpaid
        exact absurd hg List.not_mem_nil
    | some p =>
        obtain ⟨c', hc', rfl, hin'⟩ := (h.rewards r hr).paid p hpaid
        rw [← (h.rewards r hr).item c hc hin, ← (h.rewards r hr).item c' hc' hin']
  · intro hpaid
    obtain ⟨c', hc', hid, hin'⟩ := (h.rewards r hr).paid c.id hpaid
    rwa [← Table.eq_of_key hc' hc hid]

/-! ### An execution -/

theorem mem_ungrouped {x : ReferralReward} :
    x ∈ gs.flatMap Group.ungrouped ↔ ∃ g ∈ gs, ∃ r ∈ g.items, r.group = none ∧
      { r with group := some g.group } = x := by
  simp only [List.mem_flatMap, Group.ungrouped, List.mem_map, List.mem_filter, decide_eq_true_eq,
    and_assoc]

theorem GroupOf.mem_rows (h : GroupOf config w k g) (hr : r ∈ g.items) : r ∈ w.rewards.rows :=
  (mem_getPending.mp (h.mem_items.mp hr).1).1

theorem Sound.updateGroups (h : Sound config w)
    (hgs : ∀ g ∈ gs, ∃ k, GroupOf config w k g) (answer : ℕ → Answer) :
    Sound config (w.updateAll answer (gs.flatMap Group.ungrouped)) := by
  refine h.updateAll answer (fun x hx => ?_) fun x hx => ?_
  all_goals
    obtain ⟨g, hg, r, hr, hnone, rfl⟩ := mem_ungrouped.mp hx
    obtain ⟨k, hk⟩ := hgs g hg
  · exact ⟨r, hk.mem_rows hr, rfl, rfl, rfl⟩
  · have hok := h.rewards r (hk.mem_rows hr)
    obtain ⟨-, -, -, hend⟩ := mem_getPending.mp (hk.mem_items.mp hr).1
    obtain ⟨uuid, hnew⟩ := hk.group_of_none hr hnone
    refine ⟨hok.awarded, fun _ => hend, fun c hc hin => ?_, fun c hc hgroup => ?_, hok.paid⟩
    · have hitem := hok.item c hc hin
      rw [hnone] at hitem
      cases hitem
    · have hid : g.group = c.id := Option.some.inj hgroup
      exact absurd (hnew ▸ hid).symm (Nat.ne_of_lt (cashback_lt_newGroup hc))

/-- A reward that had a group is stored as it was. -/
theorem mem_updateGroups_of_some (hgs : ∀ g ∈ gs, ∃ k, GroupOf config w k g)
    (hr : r ∈ w.rewards.rows) (hsome : r.group ≠ none) :
    r ∈ (w.updateAll answer (gs.flatMap Group.ungrouped)).rewards.rows := by
  refine mem_updateAll_of_ne hr fun x hx hid => hsome ?_
  obtain ⟨g, hg, s, hs, hnone, rfl⟩ := mem_ungrouped.mp hx
  obtain ⟨k, hk⟩ := hgs g hg
  rwa [← Table.eq_of_key (hk.mem_rows hs) hr hid]

section Written

variable {gs : List Group} {answer : ℕ → Answer} (hgs : ∀ g ∈ gs, ∃ k, GroupOf config w k g)
  (hdone : ∀ r ∈ gs.flatMap Group.ungrouped, (answer r.id).Writes)

include hgs hdone

/-- A reward that had no group is stored with that of the group it is in. -/
theorem mem_updateGroups_of_none {g : Group} (hg : g ∈ gs) {r : ReferralReward} (hr : r ∈ g.items)
    (hnone : r.group = none) : { r with group := some g.group } ∈
      (w.updateAll answer (gs.flatMap Group.ungrouped)).rewards.rows := by
  obtain ⟨k, hk⟩ := hgs g hg
  have hmem : { r with group := some g.group } ∈ gs.flatMap Group.ungrouped :=
    mem_ungrouped.mpr ⟨g, hg, r, hr, hnone, rfl⟩
  have hids : r.id ∈ (w.updateAll answer (gs.flatMap Group.ungrouped)).rewards.rows.map
      ReferralReward.id := by
    have hcolumn := Table.map_key_setAll w.rewards
      ((gs.flatMap Group.ungrouped).filter fun r => (answer r.id).Writes)
    exact hcolumn.symm ▸ List.mem_map_of_mem (hk.mem_rows hr)
  obtain ⟨x, hx, hid⟩ := List.mem_map.mp hids
  rcases mem_updateAll hx with ⟨-, hne⟩ | hxw
  · have hapart := hne _ hmem (hdone _ hmem)
    exact absurd hid hapart
  · obtain ⟨g', hg', s, hs, -, rfl⟩ := mem_ungrouped.mp hxw
    obtain ⟨k', hk'⟩ := hgs g' hg'
    obtain rfl : s = r := Table.eq_of_key (hk'.mem_rows hs) (hk.mem_rows hr) hid
    have hkey : k' = k :=
      Option.some.inj ((hk'.mem_items.mp hs).2.symm.trans (hk.mem_items.mp hr).2)
    have hgroup : g'.group = g.group := by rw [hk.group, hk'.group, hkey]
    rwa [← hgroup]

/-- The groups are ready once their rewards are stored with them. -/
theorem Sound.ready_stored (h : Sound config w) {g : Group} (hg : g ∈ gs) :
    Ready config (w.updateAll answer (gs.flatMap Group.ungrouped)) g.stored := by
  obtain ⟨k, hk⟩ := hgs g hg
  have hid : g.stored.items.map ReferralReward.id = g.items.map ReferralReward.id := by
    rw [Group.stored, List.map_map]
    refine List.map_congr_left fun r _ => ?_
    rw [Function.comp_apply]
    split <;> rfl
  have hamount : g.stored.items.map ReferralReward.amount = g.items.map ReferralReward.amount := by
    rw [Group.stored, List.map_map]
    refine List.map_congr_left fun r _ => ?_
    rw [Function.comp_apply]
    split <;> rfl
  have hpending {r : ReferralReward} (hr : r ∈ g.items) := mem_getPending.mp (hk.mem_items.mp hr).1
  refine ⟨fun x hx => ?_, hid ▸ hk.nodup, fun x hx => ?_, fun x hx => ?_, ?_,
    fun r hr hgroup hunpaid hstart => ?_, fun x hx => ?_⟩
  · obtain ⟨r, hr, rfl⟩ := List.mem_map.mp hx
    split
    · next hnone => exact mem_updateGroups_of_none hgs hdone hg hr hnone
    · next hsome => exact mem_updateGroups_of_some hgs (hk.mem_rows hr) hsome
  · obtain ⟨r, hr, rfl⟩ := List.mem_map.mp hx
    split
    · rfl
    · next hsome => exact hk.group_of_some hr hsome
  · obtain ⟨r, hr, rfl⟩ := List.mem_map.mp hx
    split <;> exact (hpending hr).2.1
  · exact hk.amount.trans (congrArg List.sum hamount).symm
  · rcases mem_updateAll hr with ⟨hr, -⟩ | hr
    · -- A group whose id is in use is of rewards that had it.
      have hsome : r.group ≠ none := fun hnone => by rw [hnone] at hgroup; cases hgroup
      have hok := h.rewards r hr
      obtain ⟨uuid, huuid⟩ := Option.ne_none_iff_exists'.mp hok.awarded
      have hkey : r.key = some (.group g.group) := by
        rw [ReferralReward.key, huuid, hgroup]
        rfl
      have hmem : r ∈ g.items := by
        refine hk.mem_items.mpr ⟨mem_getPending.mpr ⟨hr, hunpaid, hstart, hok.grouped hsome⟩, ?_⟩
        rw [hkey]
        cases k with
        | group id => rw [hk.group]; rfl
        | user u =>
            have hlt := group_lt_newGroup u hr hgroup
            exact absurd hk.group (Nat.ne_of_lt hlt)
      exact List.mem_map.mpr ⟨r, hmem, if_neg hsome⟩
    · obtain ⟨g', hg', s, hs, hnone, rfl⟩ := mem_ungrouped.mp hr
      obtain ⟨k', hk'⟩ := hgs g' hg'
      have hid : g'.group = g.group := Option.some.inj hgroup
      have hkey : k' = k := by_contra fun hdiff => hk'.group_ne hk hdiff hid
      have hmem : s ∈ g.items := hk.mem_items.mpr (hkey ▸ hk'.mem_items.mp hs)
      exact List.mem_map.mpr ⟨s, hmem, by rw [if_pos hnone, hid]⟩
  · obtain ⟨r, hr, rfl⟩ := List.mem_map.mp hx
    split <;> exact (hpending hr).2.2.1

end Written

/-- The groups whose user has enough affiliates. -/
theorem groupOf_of_enough (config : Config) (w : World) (calls : Calls) {g : Group}
    (hg : g ∈ (w.groups config).filter fun g => calls.Enough config g.awardedTo) :
    ∃ k, GroupOf config w k g :=
  groupOf_of_mem (List.mem_filter.mp hg).1

theorem stored_pairwise (config : Config) (w : World) (calls : Calls) :
    (((w.groups config).filter fun g => calls.Enough config g.awardedTo).map
      Group.stored).Pairwise fun g g' => g.group ≠ g'.group :=
  List.pairwise_map.mpr ((groups_pairwise config w).filter _)

section

variable (h : Sound config w)
include h

theorem Sound.sync (calls : Calls) : Sound config (w.sync config calls) := by
  rw [World.sync]
  split
  · exact h
  split
  · exact h
  have hupdated := h.updateGroups (fun g hg => groupOf_of_enough config w calls hg)
    calls.updateGroup
  dsimp only
  split
  · exact hupdated
  · next hraises =>
    have hdone : ∀ r ∈ ((w.groups config).filter fun g =>
        calls.Enough config g.awardedTo).flatMap Group.ungrouped,
        (calls.updateGroup r.id).Writes := by
      intro r hr hfailed
      exact hraises ⟨r, hr, by rw [hfailed]; decide⟩
    refine hupdated.payAll (fun g hg => ?_) (stored_pairwise config w calls) calls
    obtain ⟨x, hx, rfl⟩ := List.mem_map.mp hg
    exact h.ready_stored (fun g hg => groupOf_of_enough config w calls hg) hdone hx

/-- What a cashback has not been marked on is in a group of the execution that sees it. -/
theorem Sound.awaits {calls : Calls} (hcalls : calls.Succeeds)
    (hseen : Seen config w (.sync calls)) :
    Awaits calls (w.updateAll calls.updateGroup (((w.groups config).filter fun g =>
      calls.Enough config g.awardedTo).flatMap Group.ungrouped))
      (((w.groups config).filter fun g => calls.Enough config g.awardedTo).map Group.stored) := by
  intro c hc r hr hin hunpaid
  have hold : r ∈ w.rewards.rows := by
    rcases mem_updateAll hr with ⟨hr, -⟩ | hr
    · exact hr
    obtain ⟨g, hg, s, hs, hnone, rfl⟩ := mem_ungrouped.mp hr
    obtain ⟨k, hk⟩ := groupOf_of_enough config w calls hg
    have hitem := (h.rewards s (hk.mem_rows hs)).item c hc hin
    rw [hnone] at hitem
    cases hitem
  have hok := h.rewards r hold
  have hgroup := hok.item c hc hin
  have hsome : r.group ≠ none := by simp [hgroup]
  obtain ⟨hstart, uuid, huuid, -⟩ := hseen hcalls c hc r hold hin hunpaid
  have hkey : r.key = some (.group c.id) := by
    rw [ReferralReward.key, huuid, hgroup]
    rfl
  have hpending : r ∈ w.getPending config :=
    mem_getPending.mpr ⟨hold, hunpaid, hstart, hok.grouped hsome⟩
  obtain ⟨g, hg, hk, hrg⟩ := exists_group hpending hkey
  -- The user of the group is that of its first reward, which is part of the cashback also.
  obtain ⟨s, hs, hawarded⟩ := hk.awardedTo
  obtain ⟨hspending, hskey⟩ := hk.mem_items.mp hs
  obtain ⟨hsmem, hsunpaid, hsstart, -⟩ := mem_getPending.mp hspending
  have hsgroup : s.group = some c.id := by
    obtain ⟨u, -, hu⟩ := Option.map_eq_some_iff.mp hskey
    cases hsg : s.group with
    | none => rw [hsg] at hu; cases hu
    | some id => rw [hsg] at hu; cases hu; rfl
  have hsin : s.id ∈ c.items := by
    by_contra hout
    exact absurd hsstart (Int.not_le.mpr ((h.rewards s hsmem).late c hc hsgroup hout))
  obtain ⟨-, u, hu, henough, hactive⟩ := hseen hcalls c hc s hsmem hsin hsunpaid
  obtain rfl : u = g.awardedTo := Option.some.inj (hu.symm.trans hawarded)
  refine ⟨g.stored, List.mem_map_of_mem (List.mem_filter.mpr ⟨hg, decide_eq_true henough⟩), ?_,
    hactive⟩
  exact List.mem_map.mpr ⟨r, hrg, if_neg hsome⟩

/-- An execution that does not fail, and sees what is not marked, leaves nothing unmarked. -/
theorem Sound.amount_sync {calls : Calls} (hcalls : calls.Succeeds)
    (hseen : Seen config w (.sync calls)) {c : Cashback}
    (hc : c ∈ (w.sync config calls).cashbacks.rows) :
    c.amount = (w.sync config calls).marked c := by
  have hwrites (id : ℕ) : (calls.updateGroup id).Writes := by
    rw [hcalls.updateGroup id]
    decide
  have hraises (id : ℕ) : ¬ (calls.updateGroup id).Raises := by
    rw [hcalls.updateGroup id]
    decide
  have hsync : w.sync config calls = World.payAll calls
      (w.updateAll calls.updateGroup (((w.groups config).filter fun g =>
        calls.Enough config g.awardedTo).flatMap Group.ungrouped))
      (((w.groups config).filter fun g => calls.Enough config g.awardedTo).map Group.stored) := by
    rw [World.sync, if_neg (not_not.mpr hcalls.getRewards), if_neg, if_neg]
    · rintro ⟨r, -, hr⟩
      exact hraises r.id hr
    · rintro ⟨g, -, hg⟩
      exact hg (hcalls.countAffiliates g.awardedTo)
  have hgs := fun (g : Group) hg => groupOf_of_enough config w calls (g := g) hg
  have hawaits := Awaits.payAll (h.updateGroups hgs calls.updateGroup)
    (fun g hg => by
      obtain ⟨x, hx, rfl⟩ := List.mem_map.mp hg
      exact h.ready_stored hgs (fun r _ => hwrites r.id) hx)
    (stored_pairwise config w calls) (h.awaits hcalls hseen) hcalls
  rw [← hsync] at hawaits
  exact (h.sync calls).amount_eq hawaits hc

/-! ### A run -/

theorem Sound.create (awardedTo awardedBy : Uuid) (amount : ℤ)
    (operation : Uuid) : Sound config (w.create awardedTo awardedBy amount operation) := by
  rw [World.create]
  split
  · exact h
  · next hnew =>
    have hid {r : ReferralReward} (hr : r ∈ w.rewards.rows) :
        r.id ≠ fresh (w.rewards.rows.map ReferralReward.id) :=
      Nat.ne_of_lt (lt_fresh (List.mem_map_of_mem hr))
    have hout {c : Cashback} (hc : c ∈ w.cashbacks.rows) :
        fresh (w.rewards.rows.map ReferralReward.id) ∉ c.items := by
      intro hin
      obtain ⟨r, hr, hri⟩ := h.items c hc _ hin
      exact hid hr hri
    have hrows := Table.rows_upsert_of_fresh (t := w.rewards)
      (r := ⟨fresh (w.rewards.rows.map ReferralReward.id), some awardedTo, awardedBy, amount,
        operation, none, none, w.now⟩)
      (Table.get?_eq_none.mpr fun r hr => hid hr)
    refine ⟨?_, fun c hc => ?_, fun c hc i hi => ?_, fun r hr => ?_⟩
    · rw [hrows, List.map_append, List.nodup_append]
      refine ⟨h.operations, List.nodup_singleton _, fun o ho o' ho' heq => hnew ?_⟩
      obtain ⟨r, hr, rfl⟩ := List.mem_map.mp ho
      exact ⟨r, hr, heq.trans (List.mem_singleton.mp ho')⟩
    · rw [Table.total, hrows, List.map_append, List.sum_append, List.map_singleton,
        List.sum_singleton, if_neg (hout hc), add_zero]
      exact h.amount c hc
    · obtain ⟨r, hr, hri⟩ := h.items c hc i hi
      exact ⟨r, hrows ▸ List.mem_append_left _ hr, hri⟩
    · rw [hrows] at hr
      rcases List.mem_append.mp hr with hr | hr
      · have hok := h.rewards r hr
        exact ⟨hok.awarded, hok.grouped, hok.item, hok.late, hok.paid⟩
      · rw [List.mem_singleton.mp hr]
        refine ⟨Option.some_ne_none _, fun hgroup => absurd rfl hgroup,
          fun c hc hin => absurd hin (hout hc), fun c _ hgroup => ?_, fun p hp => ?_⟩
        · cases hgroup
        · cases hp

theorem Sound.tick (ms : ℕ) : Sound config { w with now := w.now + ms } := by
  have hday : startOf .day w.now ≤ startOf .day (w.now + ms) :=
    (MomentUnit.period .day).start_strictMono.monotone
      ((MomentUnit.period .day).index_mono (Int.le_add_of_nonneg_right (Int.natCast_nonneg ms)))
  refine ⟨h.operations, h.amount, h.items, fun r hr => ?_⟩
  have hok := h.rewards r hr
  refine ⟨hok.awarded, fun hgroup => (hok.grouped hgroup).trans ?_, hok.item,
    fun c hc hgroup hout => Int.lt_of_lt_of_le (hok.late c hc hgroup hout) ?_, hok.paid⟩
  · dsimp only [endDate]
    omega
  · dsimp only [startDate]
    omega

theorem Sound.step (l : Step) : Sound config (ReferralRewards.step config w l) := by
  cases l with
  | accepted calls ownerOperation beneficiaryOperation conversionCurrency =>
      rw [ReferralRewards.step, World.accepted]
      split
      · exact h.create _ _ _ _
      · exact h
  | sync calls => exact h.sync calls
  | tick ms => exact h.tick ms

end

theorem Sound.run (config : Config) (now : ℤ) (ls : List Step) :
    Sound config (Foundation.run (ReferralRewards.step config) (start now) ls) :=
  run_invariant (fun _ l h => h.step l) (sound_start config now) ls

theorem Sound.earnedOnce (h : Sound config w) : w.EarnedOnce where
  operations := h.operations
  items c hc c' hc' i hi hi' := by
    obtain ⟨r, hr, rfl⟩ := h.items c hc i hi
    have hok := h.rewards r hr
    refine Table.eq_of_key hc hc' (Option.some.inj ?_)
    exact (hok.item c hc hi).symm.trans (hok.item c' hc' hi')

/-- What is earned once is paid once, and the cashbacks are the sums of the rewards marked with them
after every successful execution, when every one of these sees the rewards that are not marked. -/
theorem paid_of_seen (config : Config) (now : ℤ) (ls : List Step)
    (hseen : Along (step config) (Seen config) (start now) ls) : Paid config now ls := by
  refine ⟨fun ms _ => (Sound.run config now ms).earnedOnce, fun ms calls hms hcalls c hc => ?_⟩
  obtain ⟨rest, rfl⟩ := hms
  have hlast := (along_append.mp (along_append.mp hseen).1).2.1
  rw [run_append] at hc ⊢
  exact (Sound.run config now ms).amount_sync hcalls hlast hc

namespace Sample

/-- Rewards are paid from the day after theirs, for five days. -/
def conversions : Config := ⟨"CONV", 12, 100, 5, 1, 0, fun _ _ _ => 10⟩

/-- User 7 was referred by user 8, and finished the onboarding at once. -/
def referred : AcceptedCalls where
  getById id := .ok (some ⟨id, id, .NATURAL_PERSON, if id = 7 then some 8 else none⟩)
  onboarding _ := .ok (some 0)

/-- User 7 converts in an operation. -/
def converts (operation : Uuid) : Step :=
  .accepted referred (some ⟨operation, "CONV", 1, some 7, none, 100, 100⟩) none ⟨1, 2⟩

/-- Nothing fails. -/
def calm : Calls where
  getRewards := .ok ()
  countAffiliates _ := .ok 3
  updateGroup _ := .done
  getWallet _ := .active
  createCashback _ := .done
  updatePaymentOperation _ := .done
  resetGroup _ := .done

/-- The first reward cannot be marked. -/
def unmarked : Calls := { calm with
  updatePaymentOperation := fun id => if id = 1 then .failed else .done }

theorem calm_succeeds : calm.Succeeds :=
  ⟨rfl, fun _ => rfl, fun _ => rfl, fun _ h => WalletAnswer.noConfusion h, fun _ => .inl rfl,
    fun _ => rfl, fun _ => rfl⟩

def day : ℕ := 86400000

/-- Two rewards are paid, one of them is marked, and the other after the days given. -/
def markedAfter (days : ℕ) : List Step :=
  [converts 50, converts 51, .tick day, .sync unmarked, .tick (days * day), .sync calm]

end Sample

open Sample in
theorem paid_markedAfter : Paid conversions 0 (markedAfter 1) := by
  refine paid_of_seen conversions 0 _ ⟨trivial, trivial, trivial, ?_, trivial, ?_, trivial⟩
  · exact fun _ => by decide +kernel
  · exact fun _ => by decide +kernel

open Sample in
/-- The reward that was not marked has left the window when nothing fails. -/
theorem not_paid : ¬ Paid conversions 0 (markedAfter 5) := by
  rintro ⟨-, hamount⟩
  have hmany : ¬ ∀ c ∈ (run (step conversions) (start 0) (markedAfter 5)).cashbacks.rows,
      c.amount = (run (step conversions) (start 0) (markedAfter 5)).marked c := by decide +kernel
  exact hmany (hamount ((markedAfter 5).dropLast) calm (List.prefix_refl _) calm_succeeds)

end ZroServices.Users.ReferralRewards
