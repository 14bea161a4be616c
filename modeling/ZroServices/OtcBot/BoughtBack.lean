import ZroServices.OtcBot.Trades

/-!
# OTC bot — what is sold is bought back

A bot has one order under way at most.  While it is PENDING, the exchange may execute it; when it is
SOLD it has been executed in full, and its buy order is to be created.  Once no order of the bot is
under way, what was bought is what the exchange executed, and that is what left the balance.

This holds as long as what the exchange executes is of stored orders that end filled: the handler of
a pending order gives the full amount back for an order that was executed in part, and a sell order
whose call failed is not stored at all.

* `boughtBack_of_orderly`: what is bought, executed and taken from the balance agree after every run
  of orderly commands that leaves no order under way.
-/

namespace ZroServices.OtcBot

open Foundation

/-! ### What a bot sold and bought -/

section

variable (w : World) (botOtc : Uuid)

/-- What the exchange executed of the bot's sell orders. -/
def World.executed : ℤ := w.exchange.total fun p => if p.botOtc = botOtc then (p.executed : ℤ) else 0

/-- The amounts of the bot's stored orders. -/
def World.ordered : ℤ :=
  w.botOtcOrders.total fun o => if o.botOtc = botOtc then (o.amount : ℤ) else 0

/-- The amounts of some rows of the OTC service that are buy orders. -/
def boughtIn (l : List (Created CreateCryptoOrderServiceRequest))
    (p : Created CreateCryptoOrderServiceRequest → Prop) [DecidablePred p] : ℤ :=
  (l.map fun x => if p x ∧ x.row.side = .BUY then (x.row.amount : ℤ) else 0).sum

/-- The amounts of the buy orders that were created for the bot. -/
def World.bought : ℤ := boughtIn w.cryptoOrders fun x => x.botOtc = botOtc

/-- The amounts of the buy orders that were created for a bot order. -/
def World.boughtFor (botOtcOrder : Uuid) : ℤ :=
  boughtIn w.cryptoOrders fun x => x.botOtcOrder = botOtcOrder

/-- No order of the bot is PENDING or SOLD. -/
def Settled : Prop :=
  ∀ o ∈ w.botOtcOrders.rows, o.botOtc = botOtc → o.state ≠ .PENDING ∧ o.state ≠ .SOLD

instance : Decidable (Settled w botOtc) := inferInstanceAs (Decidable (∀ _ ∈ _, _))

/-- Everything that was sold is bought back, and has left the balance, which was `balance`. -/
structure BoughtBack (balance : ℤ) : Prop where
  bought : w.bought botOtc = w.executed botOtc
  balance : ∃ bot, w.botOtcs.get? botOtc = some bot ∧ bot.balance = balance - w.executed botOtc

/-- The stored orders under way refer to orders of their bots at the exchange. -/
def World.Linked : Prop :=
  ∀ o ∈ w.botOtcOrders.rows, o.state = .PENDING → ∃ p, w.Pending o p ∧ p.botOtc = o.botOtc ∧
    p.amount = o.amount ∧ p.executed ≤ p.amount

/-- A bot that has not traded yet. -/
structure Untraded (balance : ℤ) : Prop where
  linked : w.Linked
  bot : ∃ bot, w.botOtcs.get? botOtc = some bot ∧ bot.balance = balance
  botOtcOrders : ∀ o ∈ w.botOtcOrders.rows, o.botOtc ≠ botOtc
  exchange : ∀ p ∈ w.exchange.rows, p.botOtc ≠ botOtc
  cryptoOrders : ∀ x ∈ w.cryptoOrders, x.botOtc ≠ botOtc

/-- A command after which nothing of the bot is executed but stored orders that end filled. -/
def Orderly : Command → Prop
  -- a sell order that is not stored is not executed
  | .runSpreadBot services botOtc' =>
      botOtc' = botOtc → ∀ p, Unrecorded w services botOtc p → p.executed = 0
  -- an order that is deleted before it is filled is not executed
  | .handlePending services botOtcOrder =>
      ∀ o p, o.id = botOtcOrder → o.botOtc = botOtc → w.Pending o p → p.executed ≠ p.amount →
        services.Deletes o p → (p.execute services.meanwhile).executed = 0
  -- what is booked and bought back was not bought back before
  | .handleSold services _ botOtcOrder =>
      ∀ o, w.botOtcOrders.get? botOtcOrder = some o → o.botOtc = botOtc → o.state = .SOLD →
        (SoldDelivery.mk services true).completes → w.boughtFor botOtcOrder = 0
  -- an order that is not stored is not executed later either
  | .execute id quantity =>
      ∀ p, w.exchange.get? id = some p → p.botOtc = botOtc →
        (∃ o, w.Pending o p) ∨ (p.execute quantity).executed = p.executed
  | .cancel _ => True

end

/-! ### The invariant -/

/-- No other order of the bot is under way. -/
def Alone (w : World) (botOtc : Uuid) (o : BotOtcOrder) : Prop :=
  ∀ o' ∈ w.botOtcOrders.rows, o'.botOtc = botOtc → o'.id ≠ o.id →
    o'.state ≠ .PENDING ∧ o'.state ≠ .SOLD

/-- What a bot has under way. -/
inductive Phase (w : World) (botOtc : Uuid) : Prop
  | idle (settled : Settled w botOtc) (executed : w.executed botOtc = w.ordered botOtc)
      (bought : w.bought botOtc = w.ordered botOtc)
  | pending {o : BotOtcOrder} {p : Placement} (hp : w.Pending o p) (hbot : o.botOtc = botOtc)
      (alone : Alone w botOtc o)
      (executed : w.executed botOtc = w.ordered botOtc - o.amount + p.executed)
      (bought : w.bought botOtc = w.ordered botOtc - o.amount) (boughtFor : w.boughtFor o.id = 0)
  | sold {o : BotOtcOrder} (row : w.botOtcOrders.get? o.id = some o) (hsold : o.state = .SOLD)
      (hbot : o.botOtc = botOtc) (alone : Alone w botOtc o)
      (amount : o.sellExecutedAmount = some o.amount)
      (executed : w.executed botOtc = w.ordered botOtc)
      (bought : w.bought botOtc = w.ordered botOtc - o.amount + w.boughtFor o.id)

structure Trading (w : World) (botOtc : Uuid) (balance : ℤ) : Prop where
  linked : w.Linked
  bot : ∃ bot, w.botOtcs.get? botOtc = some bot ∧ bot.balance = balance - w.ordered botOtc
  phase : Phase w botOtc

section

variable {w w' : World} {botOtc : Uuid} {balance : ℤ} {c : Command} {o o' : BotOtcOrder}
  {p p' : Placement}
variable {l : List (Created CreateCryptoOrderServiceRequest)}

/-! ### Sums of buy orders -/

theorem boughtIn_append {m : List (Created CreateCryptoOrderServiceRequest)}
    {p : Created CreateCryptoOrderServiceRequest → Prop} [DecidablePred p] :
    boughtIn (l ++ m) p = boughtIn l p + boughtIn m p := by
  rw [boughtIn, List.map_append, List.sum_append, boughtIn, boughtIn]

theorem boughtIn_eq_zero
    {p : Created CreateCryptoOrderServiceRequest → Prop} [DecidablePred p] (h : ∀ x ∈ l, ¬ p x) :
    boughtIn l p = 0 := by
  refine List.sum_eq_zero fun n hn => ?_
  obtain ⟨x, hx, rfl⟩ := List.mem_map.mp hn
  exact if_neg fun hp => h x hx hp.1

theorem boughtIn_congr
    {p q : Created CreateCryptoOrderServiceRequest → Prop} [DecidablePred p] [DecidablePred q]
    (h : ∀ x ∈ l, p x ↔ q x) : boughtIn l p = boughtIn l q := by
  rw [boughtIn, boughtIn]
  refine congrArg List.sum (List.map_congr_left fun x hx => ?_)
  simp only [h x hx]

theorem Untraded.trading (h : Untraded w botOtc balance) : Trading w botOtc balance := by
  have hordered : w.ordered botOtc = 0 := by
    refine List.sum_eq_zero fun n hn => ?_
    obtain ⟨o, ho, rfl⟩ := List.mem_map.mp hn
    exact if_neg (h.botOtcOrders o ho)
  have hexecuted : w.executed botOtc = 0 := by
    refine List.sum_eq_zero fun n hn => ?_
    obtain ⟨p, hp, rfl⟩ := List.mem_map.mp hn
    exact if_neg (h.exchange p hp)
  have hbought : w.bought botOtc = 0 := boughtIn_eq_zero h.cryptoOrders
  refine ⟨h.linked, ?_, .idle (fun o ho hof => absurd hof (h.botOtcOrders o ho)) ?_ ?_⟩
  · rw [hordered, sub_zero]
    exact h.bot
  · rw [hexecuted, hordered]
  · rw [hbought, hordered]

theorem Trading.boughtBack (h : Trading w botOtc balance) (hsettled : Settled w botOtc) :
    BoughtBack w botOtc balance := by
  cases h.phase with
  | idle _ executed bought =>
      refine ⟨bought.trans executed.symm, ?_⟩
      rw [executed]
      exact h.bot
  | pending hp hbot => exact absurd hp.pending (hsettled _ (Table.mem_of_get? hp.row) hbot).1
  | sold row hsold hbot => exact absurd hsold (hsettled _ (Table.mem_of_get? row) hbot).2

/-! ### The exchange -/

theorem Placement.Later.refl (p : Placement) : p.Later p := ⟨rfl, rfl, rfl, le_rfl, fun h => h⟩

/-- The orders at the exchange stay, and may be executed. -/
def World.Continues (w w' : World) : Prop :=
  ∀ id p, w.exchange.get? id = some p → ∃ p', w'.exchange.get? id = some p' ∧ p.Later p'

theorem continues_set (hp : w.exchange.get? p.providerOrderId = some p) (hlater : p.Later p')
    (hexchange : w'.exchange = w.exchange.set p') : w.Continues w' := by
  intro id q hq
  rw [hexchange]
  by_cases hid : p.providerOrderId = id
  · obtain rfl : q = p := Option.some.inj (hq.symm.trans (hid ▸ hp))
    exact ⟨p', Table.get?_set_self hq (hlater.providerOrderId.trans hid), hlater⟩
  · have hne : Keyed.key p' ≠ id := fun h => hid (hlater.providerOrderId.symm.trans h)
    exact ⟨q, (Table.get?_set_ne hne).trans hq, .refl q⟩

/-- An order that is placed leaves the others as they are. -/
theorem get?_upsert_next {q : Placement} {id : ProviderOrderId}
    (hp : p.providerOrderId = w.nextProviderOrderId) (hq : w.exchange.get? id = some q) :
    (w.exchange.upsert p).get? id = some q := by
  have hne : Keyed.key p ≠ id := by
    have hlt := lt_nextProviderOrderId (Table.mem_of_get? hq)
    have hkey : q.providerOrderId = id := Table.key_of_get? hq
    exact fun h => absurd (hp.symm.trans (h.trans hkey.symm)) hlt.ne'
  exact (Table.get?_upsert_ne hne).trans hq

theorem continues_upsert (hp : p.providerOrderId = w.nextProviderOrderId)
    (hexchange : w'.exchange = w.exchange.upsert p) : w.Continues w' :=
  fun _ q hq => ⟨q, by rw [hexchange, get?_upsert_next hp hq], .refl q⟩

variable (botOtc) in
theorem executed_set (hp : w.exchange.get? p.providerOrderId = some p) (hlater : p.Later p')
    (hexchange : w'.exchange = w.exchange.set p') :
    w'.executed botOtc = w.executed botOtc +
      if p.botOtc = botOtc then ((p'.executed : ℤ) - p.executed) else 0 := by
  rw [World.executed, hexchange, Table.total_set hp hlater.providerOrderId, ← World.executed,
    hlater.botOtc]
  split
  · abel
  · abel

variable (botOtc) in
theorem executed_upsert (hp : p.providerOrderId = w.nextProviderOrderId)
    (hexchange : w'.exchange = w.exchange.upsert p) :
    w'.executed botOtc = w.executed botOtc +
      if p.botOtc = botOtc then (p.executed : ℤ) else 0 := by
  have hnone : w.exchange.get? (Keyed.key p) = none :=
    Table.get?_eq_none.mpr fun q hq h => absurd (h.trans hp) (lt_nextProviderOrderId hq).ne
  rw [World.executed, hexchange, Table.total_upsert, hnone, ← World.executed]
  simp

/-! ### References -/

theorem World.Pending.placed (h : w.Pending o p) : w.exchange.get? p.providerOrderId = some p := by
  have hkey : p.providerOrderId = o.sellProviderOrderId := Table.key_of_get? h.placement
  rw [hkey]
  exact h.placement

/-- What a stored order under way refers to. -/
theorem World.Linked.pending (h : w.Linked) (hp : w.Pending o p) :
    p.botOtc = o.botOtc ∧ p.amount = o.amount ∧ p.executed ≤ p.amount := by
  obtain ⟨q, hq, hfacts⟩ := h o (Table.mem_of_get? hp.row) hp.pending
  obtain rfl := Option.some.inj (hp.placement.symm.trans hq.placement)
  exact hfacts

theorem World.Linked.continues (h : w.Linked) (hcontinues : w.Continues w')
    (hrows : ∀ o ∈ w'.botOtcOrders.rows, o.state = .PENDING → o ∈ w.botOtcOrders.rows) :
    w'.Linked := by
  intro o ho hpending
  obtain ⟨p, hp, hbot, hamount, hle⟩ := h o (hrows o ho hpending) hpending
  obtain ⟨p', hp', hlater⟩ := hcontinues _ p hp.placement
  exact ⟨p', ⟨Table.get?_of_mem ho, hpending, hp'⟩, hlater.botOtc.trans hbot,
    hlater.amount.trans hamount, hlater.le hle⟩

theorem lt_uuidV4_of_row (ho : o ∈ w.botOtcOrders.rows) : o.id < w.uuidV4 :=
  lt_fresh (List.mem_append_left _ (List.mem_append_left _ (List.mem_append_left _
    (List.mem_map_of_mem ho))))

theorem get?_uuidV4 (hid : o.id = w.uuidV4) : w.botOtcOrders.get? (Keyed.key o) = none :=
  Table.get?_eq_none.mpr fun _ ho' h => absurd (h.trans hid) (lt_uuidV4_of_row ho').ne

theorem World.Linked.moved (h : w.Linked) (hmoved : Moved w c w') : w'.Linked := by
  cases hmoved with
  | rest => exact h
  | unrecorded p hp =>
      obtain ⟨_, _, _, _, -, -, rfl, -⟩ := hp
      exact h.continues (continues_upsert rfl rfl) fun _ ho _ => ho
  | recorded o p hbot hidle hid hbotOtc hpending href hp =>
      have hcontinues : w.Continues { w with exchange := w.exchange.upsert p } :=
        continues_upsert hp.1 rfl
      intro o' ho' hpending'
      rcases Table.mem_upsert.mp ho' with ⟨ho, -⟩ | rfl
      · obtain ⟨q, hq, hfacts⟩ := h.continues hcontinues (fun _ h _ => h) o' ho hpending'
        exact ⟨q, ⟨Table.get?_of_mem ho', hpending', hq.placement⟩, hfacts⟩
      · refine ⟨p, ⟨Table.get?_of_mem ho', hpending', ?_⟩, hp.2.1.trans hbotOtc.symm, hp.2.2⟩
        rw [href, ← hp.1]
        exact Table.get?_upsert_self
  | traded _ hp hlater => exact h.continues (continues_set hp hlater rfl) fun _ ho _ => ho
  | discarded hdiscards =>
      exact h.continues (continues_set hdiscards.placed hdiscards.later rfl) fun _ ho _ =>
        (Table.mem_filter.mp ho).1
  | sold hp _ hlater _ _ _ _ _ hsold =>
      refine h.continues (continues_set hp.placed hlater rfl) fun o₁ ho₁ hpending => ?_
      rcases Table.mem_set.mp ho₁ with ⟨ho₁, -⟩ | ⟨rfl, -⟩
      · exact ho₁
      · exact absurd (hsold.symm.trans hpending) (by rintro ⟨⟩)
  | halfway _ _ hhalf =>
      refine h.continues (fun _ q hq => ⟨q, hhalf.exchange ▸ hq, .refl q⟩) fun _ ho _ => ?_
      exact hhalf.botOtcOrders ▸ ho
  | booked hrow _ _ hbooking =>
      refine h.continues (fun _ q hq => ⟨q, hbooking.exchange ▸ hq, .refl q⟩) fun o₁ ho₁ hpending => ?_
      rw [hbooking.botOtcOrders] at ho₁
      rcases Table.mem_set.mp ho₁ with ⟨ho₁, -⟩ | ⟨rfl, -⟩
      · exact ho₁
      · exact absurd hpending (by rintro ⟨⟩)

/-! ### The other bots -/

/-- Nothing of the bot changes. -/
structure Aside (w w' : World) (botOtc : Uuid) : Prop where
  bot : w'.botOtcs.get? botOtc = w.botOtcs.get? botOtc
  row : ∀ o, o.botOtc = botOtc → (o ∈ w'.botOtcOrders.rows ↔ o ∈ w.botOtcOrders.rows)
  ordered : w'.ordered botOtc = w.ordered botOtc
  placement : ∀ id p, p.botOtc = botOtc → w.exchange.get? id = some p →
    w'.exchange.get? id = some p
  executed : w'.executed botOtc = w.executed botOtc
  bought : w'.bought botOtc = w.bought botOtc
  boughtFor : ∀ o ∈ w.botOtcOrders.rows, o.botOtc = botOtc → w'.boughtFor o.id = w.boughtFor o.id

theorem Aside.settled (h : Aside w w' botOtc) (hsettled : Settled w botOtc) : Settled w' botOtc :=
  fun o ho hof => hsettled o ((h.row o hof).mp ho) hof

theorem Aside.alone (h : Aside w w' botOtc) (halone : Alone w botOtc o) : Alone w' botOtc o :=
  fun o' ho' hof hne => halone o' ((h.row o' hof).mp ho') hof hne

theorem Aside.phase (h : Aside w w' botOtc) (hlinked : w.Linked) (hphase : Phase w botOtc) :
    Phase w' botOtc := by
  cases hphase with
  | idle settled executed bought =>
      refine .idle (h.settled settled) ?_ ?_
      · rw [h.executed, h.ordered, executed]
      · rw [h.bought, h.ordered, bought]
  | @pending o p hp hbot alone executed bought boughtFor =>
      have hmem : o ∈ w.botOtcOrders.rows := Table.mem_of_get? hp.row
      have hplacement := h.placement _ p ((hlinked.pending hp).1.trans hbot) hp.placement
      have hrow := Table.get?_of_mem ((h.row o hbot).mpr hmem)
      refine .pending ⟨hrow, hp.pending, hplacement⟩ hbot (h.alone alone) ?_ ?_ ?_
      · rw [h.executed, h.ordered, executed]
      · rw [h.bought, h.ordered, bought]
      · rw [h.boughtFor o hmem hbot, boughtFor]
  | @sold o row hsold hbot alone amount executed bought =>
      have hmem : o ∈ w.botOtcOrders.rows := Table.mem_of_get? row
      have hrow := Table.get?_of_mem ((h.row o hbot).mpr hmem)
      refine .sold hrow hsold hbot (h.alone alone) amount ?_ ?_
      · rw [h.executed, h.ordered, executed]
      · rw [h.bought, h.ordered, bought, h.boughtFor o hmem hbot]

theorem Aside.trading (h : Aside w w' botOtc) (htrading : Trading w botOtc balance)
    (hlinked : w'.Linked) : Trading w' botOtc balance := by
  refine ⟨hlinked, ?_, h.phase htrading.linked htrading.phase⟩
  rw [h.bot, h.ordered]
  exact htrading.bot

/-! ### One order under way -/

/-- The bot's order under way is the only one. -/
theorem Alone.eq (h : Alone w botOtc o) (ho : o ∈ w.botOtcOrders.rows)
    (ho' : o' ∈ w.botOtcOrders.rows) (hof : o'.botOtc = botOtc)
    (hstate : o'.state = .PENDING ∨ o'.state = .SOLD) : o' = o := by
  by_contra hne
  have hid : o'.id ≠ o.id := fun hid => hne (Table.eq_of_key ho' ho hid)
  exact hstate.elim (h o' ho' hof hid).1 (h o' ho' hof hid).2

/-- What is executed of an order at the exchange. -/
theorem Trading.traded (h : Trading w botOtc balance)
    (hp : w.exchange.get? p.providerOrderId = some p) (hlater : p.Later p')
    (hwhy : p.botOtc = botOtc → (∃ o, w.Pending o p) ∨ p'.executed = p.executed)
    (hexchange : w' = { w with exchange := w.exchange.set p' }) : Phase w' botOtc := by
  subst hexchange
  have hexecuted : World.executed { w with exchange := w.exchange.set p' } botOtc = _ :=
    executed_set botOtc hp hlater rfl
  -- the bot's pending order is the only one that is executed
  have hrest (hno : ∀ o, w.Pending o p → o.botOtc ≠ botOtc) :
      World.executed { w with exchange := w.exchange.set p' } botOtc = w.executed botOtc := by
    rw [hexecuted]
    split
    · next hof =>
      rcases hwhy hof with ⟨o, ho⟩ | heq
      · exact absurd ((h.linked.pending ho).1.symm.trans hof) (hno o ho)
      · rw [heq, sub_self, add_zero]
    · exact add_zero _
  cases h.phase with
  | idle settled executed bought =>
      refine .idle settled ((hrest fun o ho hof => ?_).trans executed) bought
      exact (settled o (Table.mem_of_get? ho.row) hof).1 ho.pending
  | @pending o₁ p₁ hp₁ hbot alone executed bought boughtFor =>
      by_cases hkey : p.providerOrderId = o₁.sellProviderOrderId
      · obtain rfl : p₁ = p := Option.some.inj (hp₁.placement.symm.trans (hkey ▸ hp))
        refine .pending (p := p') ⟨hp₁.row, hp₁.pending, ?_⟩ hbot alone ?_ bought boughtFor
        · exact Table.get?_set_self hp₁.placement (hlater.providerOrderId.trans hkey)
        · rw [hexecuted, executed, if_pos ((h.linked.pending hp₁).1.trans hbot)]
          change _ = w.ordered botOtc - _ + _
          abel
      · have hne : Keyed.key p' ≠ o₁.sellProviderOrderId :=
          fun heq => hkey (hlater.providerOrderId.symm.trans heq)
        refine .pending (p := p₁) ⟨hp₁.row, hp₁.pending, ?_⟩ hbot alone ?_ bought boughtFor
        · exact (Table.get?_set_ne hne).trans hp₁.placement
        · refine (hrest fun o ho hof => hkey ?_).trans executed
          obtain rfl := alone.eq (Table.mem_of_get? hp₁.row) (Table.mem_of_get? ho.row) hof
            (.inl ho.pending)
          exact Table.key_of_get? ho.placement
  | sold row hsold hbot alone amount executed bought =>
      refine .sold row hsold hbot alone amount ((hrest fun o ho hof => ?_).trans executed) bought
      obtain rfl := alone.eq (Table.mem_of_get? row) (Table.mem_of_get? ho.row) hof (.inl ho.pending)
      exact absurd (ho.pending.symm.trans hsold) (by rintro ⟨⟩)

/-! ### Writes of the stores -/

theorem ordered_set (ho : w.botOtcOrders.get? o.id = some o) (hid : o'.id = o.id)
    (hbot : o'.botOtc = o.botOtc) (hamount : o'.amount = o.amount)
    (hrows : w'.botOtcOrders = w.botOtcOrders.set o') : w'.ordered botOtc = w.ordered botOtc := by
  rw [World.ordered, hrows, Table.total_set ho hid, hbot, hamount, ← World.ordered, sub_add_cancel]

variable (botOtc) in
theorem ordered_upsert (hid : o.id = w.uuidV4) (hrows : w'.botOtcOrders = w.botOtcOrders.upsert o) :
    w'.ordered botOtc = w.ordered botOtc + if o.botOtc = botOtc then (o.amount : ℤ) else 0 := by
  rw [World.ordered, hrows, Table.total_upsert, get?_uuidV4 hid, ← World.ordered]
  simp

variable (botOtc) in
theorem ordered_filter (ho : w.botOtcOrders.get? o.id = some o)
    (hrows : w'.botOtcOrders = w.botOtcOrders.filter fun o' => o'.id ≠ o.id) :
    w'.ordered botOtc = w.ordered botOtc - if o.botOtc = botOtc then (o.amount : ℤ) else 0 := by
  rw [World.ordered, hrows]
  exact Table.total_filter_key_ne ho _

/-- A write of a row of another bot. -/
theorem mem_set_aside (ho : w.botOtcOrders.get? o.id = some o) (hid : o'.id = o.id)
    (hbot : o'.botOtc = o.botOtc) (hother : o.botOtc ≠ botOtc) (o₁ : BotOtcOrder)
    (hof : o₁.botOtc = botOtc) :
    o₁ ∈ (w.botOtcOrders.set o').rows ↔ o₁ ∈ w.botOtcOrders.rows := by
  rw [Table.mem_set]
  constructor
  · rintro (⟨ho₁, -⟩ | ⟨rfl, -⟩)
    · exact ho₁
    · exact absurd (hbot.symm.trans hof) hother
  · intro ho₁
    refine .inl ⟨ho₁, fun hkey => hother ?_⟩
    obtain rfl := Table.eq_of_key ho₁ (Table.mem_of_get? ho) (hkey.trans hid)
    exact hof

/-- What the OTC service creates for an order of another bot. -/
theorem bought_aside {l : List (Created CreateCryptoOrderServiceRequest)}
    (ho : w.botOtcOrders.get? o.id = some o) (hother : o.botOtc ≠ botOtc)
    (hl : ∀ x ∈ l, x.Of o.id o) (hcreated : w'.cryptoOrders = w.cryptoOrders ++ l) :
    w'.bought botOtc = w.bought botOtc ∧
      ∀ o₁ ∈ w.botOtcOrders.rows, o₁.botOtc = botOtc → w'.boughtFor o₁.id = w.boughtFor o₁.id := by
  constructor
  · rw [World.bought, hcreated, boughtIn_append, boughtIn_eq_zero (l := l), add_zero, ← World.bought]
    exact fun x hx hof => hother ((hl x hx).botOtc.symm.trans hof)
  · intro o₁ ho₁ hof
    rw [World.boughtFor, hcreated, boughtIn_append, boughtIn_eq_zero (l := l), add_zero,
      ← World.boughtFor]
    intro x hx hid
    have hkey : o.id = o₁.id := (hl x hx).botOtcOrder.symm.trans hid
    obtain rfl := Table.eq_of_key (Table.mem_of_get? ho) ho₁ hkey
    exact hother hof

/-- What the OTC service creates for an order of the bot. -/
theorem bought_created {l : List (Created CreateCryptoOrderServiceRequest)}
    (hof : o.botOtc = botOtc) (hl : ∀ x ∈ l, x.Of o.id o)
    (hcreated : w'.cryptoOrders = w.cryptoOrders ++ l) :
    w'.bought botOtc = w.bought botOtc + (w'.boughtFor o.id - w.boughtFor o.id) := by
  have hsame : boughtIn l (fun x => x.botOtc = botOtc) = boughtIn l (fun x => x.botOtcOrder = o.id) :=
    boughtIn_congr fun x hx =>
      ⟨fun _ => (hl x hx).botOtcOrder, fun _ => (hl x hx).botOtc.trans hof⟩
  rw [World.bought, World.boughtFor, hcreated, boughtIn_append, boughtIn_append, hsame,
    ← World.bought, ← World.boughtFor, add_sub_cancel_left]

/-! ### One command -/

theorem boughtFor_uuidV4 : w.boughtFor w.uuidV4 = 0 := by
  refine boughtIn_eq_zero fun x hx hid => ?_
  have hlt : x.botOtcOrder < w.uuidV4 := lt_fresh (List.mem_append_left _ (List.mem_append_left _
    (List.mem_append_right _ (List.mem_map_of_mem hx))))
  exact hlt.ne hid

/-- A bot without an order under way. -/
theorem Phase.idle_of_settled (h : Phase w botOtc) (hsettled : Settled w botOtc) :
    w.executed botOtc = w.ordered botOtc ∧ w.bought botOtc = w.ordered botOtc := by
  cases h with
  | idle _ executed bought => exact ⟨executed, bought⟩
  | pending hp hbot => exact absurd hp.pending (hsettled _ (Table.mem_of_get? hp.row) hbot).1
  | sold row hsold hbot => exact absurd hsold (hsettled _ (Table.mem_of_get? row) hbot).2

/-- A bot with a pending order. -/
theorem Phase.of_pending (h : Phase w botOtc) (hp : w.Pending o p) (hbot : o.botOtc = botOtc) :
    Alone w botOtc o ∧ w.executed botOtc = w.ordered botOtc - o.amount + p.executed ∧
      w.bought botOtc = w.ordered botOtc - o.amount ∧ w.boughtFor o.id = 0 := by
  have hmem : o ∈ w.botOtcOrders.rows := Table.mem_of_get? hp.row
  cases h with
  | idle settled => exact absurd hp.pending (settled o hmem hbot).1
  | pending hp₁ _ alone executed bought boughtFor =>
      obtain rfl := alone.eq (Table.mem_of_get? hp₁.row) hmem hbot (.inl hp.pending)
      obtain rfl := Option.some.inj (hp.placement.symm.trans hp₁.placement)
      exact ⟨alone, executed, bought, boughtFor⟩
  | sold row hsold _ alone =>
      obtain rfl := alone.eq (Table.mem_of_get? row) hmem hbot (.inl hp.pending)
      exact absurd (hp.pending.symm.trans hsold) (by rintro ⟨⟩)

/-- A bot with a sold order. -/
theorem Phase.of_sold (h : Phase w botOtc) (hrow : w.botOtcOrders.get? o.id = some o)
    (hsold : o.state = .SOLD) (hbot : o.botOtc = botOtc) :
    Alone w botOtc o ∧ o.sellExecutedAmount = some o.amount ∧
      w.executed botOtc = w.ordered botOtc ∧
        w.bought botOtc = w.ordered botOtc - o.amount + w.boughtFor o.id := by
  have hmem : o ∈ w.botOtcOrders.rows := Table.mem_of_get? hrow
  cases h with
  | idle settled => exact absurd hsold (settled o hmem hbot).2
  | pending hp _ alone =>
      obtain rfl := alone.eq (Table.mem_of_get? hp.row) hmem hbot (.inr hsold)
      exact absurd (hp.pending.symm.trans hsold) (by rintro ⟨⟩)
  | sold row _ _ alone amount executed bought =>
      obtain rfl := alone.eq (Table.mem_of_get? row) hmem hbot (.inr hsold)
      exact ⟨alone, amount, executed, bought⟩

section

variable (h : Trading w botOtc balance)
include h

theorem Trading.unrecorded (hp : p.providerOrderId = w.nextProviderOrderId)
    (hexecuted : p.botOtc = botOtc → p.executed = 0) (hlinked : w'.Linked)
    (hw' : w' = { w with exchange := w.exchange.upsert p }) : Trading w' botOtc balance := by
  subst hw'
  refine Aside.trading (w := w) ⟨rfl, fun _ _ => Iff.rfl, rfl,
    fun id q _ hq => get?_upsert_next hp hq, ?_, rfl, fun _ _ _ => rfl⟩ h hlinked
  · rw [executed_upsert botOtc hp rfl]
    split
    · next hof => rw [hexecuted hof, Nat.cast_zero, add_zero]
    · exact add_zero _

theorem Trading.recorded {bot : BotOtc}
    (hbot : w.botOtcs.get? bot.id = some bot) (hidle : Settled w bot.id) (hid : o.id = w.uuidV4)
    (hbotOtc : o.botOtc = bot.id) (hpending : o.state = .PENDING)
    (href : o.sellProviderOrderId = w.nextProviderOrderId)
    (hp : p.providerOrderId = w.nextProviderOrderId ∧ p.botOtc = bot.id) (hlinked : w'.Linked)
    (hw' : w' = { w with
      botOtcs := w.botOtcs.set { bot with balance := bot.balance - o.amount }
      botOtcOrders := w.botOtcOrders.upsert o
      exchange := w.exchange.upsert p }) : Trading w' botOtc balance := by
  have hordered : w'.ordered botOtc = _ := ordered_upsert botOtc hid (by rw [hw'])
  have hexecuted : w'.executed botOtc = _ := executed_upsert botOtc hp.1 (by rw [hw'])
  by_cases hof : bot.id = botOtc
  · subst hof
    obtain ⟨executed, bought⟩ := h.phase.idle_of_settled hidle
    rw [if_pos hbotOtc] at hordered
    rw [if_pos hp.2] at hexecuted
    refine ⟨hlinked, ?_, .pending (o := o) (p := p) ⟨?_, hpending, ?_⟩ hbotOtc ?_ ?_ ?_ ?_⟩
    · obtain ⟨bot₁, hbot₁, hbalance⟩ := h.bot
      obtain rfl := Option.some.inj (hbot.symm.trans hbot₁)
      refine ⟨_, by rw [hw']; exact Table.get?_set_self hbot rfl, ?_⟩
      rw [hordered]
      change bot.balance - _ = _
      rw [hbalance]
      abel
    · rw [hw']
      exact Table.get?_upsert_self
    · rw [hw', href, ← hp.1]
      exact Table.get?_upsert_self
    · intro o' ho' hof' hne
      rw [hw'] at ho'
      rcases Table.mem_upsert.mp ho' with ⟨ho', -⟩ | rfl
      · exact hidle o' ho' hof'
      · exact absurd rfl hne
    · rw [hexecuted, hordered, executed, add_sub_cancel_right]
    · rw [hordered, add_sub_cancel_right, ← bought, hw']
      rfl
    · rw [hid, ← boughtFor_uuidV4 (w := w), hw']
      rfl
  · rw [if_neg (hbotOtc ▸ hof), add_zero] at hordered
    rw [if_neg (hp.2 ▸ hof), add_zero] at hexecuted
    subst hw'
    refine Aside.trading (w := w) ⟨Table.get?_set_ne hof, fun o₁ hof₁ => ?_, hordered,
      fun id q _ hq => get?_upsert_next hp.1 hq, hexecuted, rfl, fun _ _ _ => rfl⟩ h hlinked
    rw [Table.mem_upsert]
    constructor
    · rintro (⟨ho₁, -⟩ | rfl)
      · exact ho₁
      · exact absurd (hbotOtc.symm.trans hof₁) hof
    · exact fun ho₁ => .inl ⟨ho₁, fun hkey => absurd (hkey.trans hid) (lt_uuidV4_of_row ho₁).ne⟩

theorem Trading.discarded {services : PendingServices} {bot : BotOtc}
    (hdiscards : Discards w services o p p') (hbot : w.botOtcs.get? bot.id = some bot)
    (hbotOtc : o.botOtc = bot.id)
    (hnone : o.botOtc = botOtc → services.Deletes o p → p'.executed = 0) (hlinked : w'.Linked)
    (hw' : w' = { w with
      botOtcs := w.botOtcs.set { bot with balance := bot.balance + o.amount }
      botOtcOrders := w.botOtcOrders.filter fun o' => o'.id ≠ o.id
      exchange := w.exchange.set p' }) : Trading w' botOtc balance := by
  have hp := hdiscards.toPending
  have hplacement := hp.placed
  obtain ⟨hpbot, hpamount, hle⟩ := h.linked.pending hp
  have hordered : w'.ordered botOtc = _ := ordered_filter botOtc hp.row (by rw [hw'])
  have hexecuted : w'.executed botOtc = _ :=
    executed_set botOtc hplacement hdiscards.later (by rw [hw'])
  by_cases hof : o.botOtc = botOtc
  · obtain ⟨alone, executed, bought, -⟩ := h.phase.of_pending hp hof
    have hzero : p'.executed = 0 := hnone hof
      (hdiscards.deletes (hpamount ▸ lt_of_le_of_ne hle hdiscards.unfilled))
    rw [if_pos hof] at hordered
    rw [if_pos (hpbot.trans hof), hzero, Nat.cast_zero] at hexecuted
    refine ⟨hlinked, ?_, .idle ?_ ?_ ?_⟩
    · obtain ⟨bot₁, hbot₁, hbalance⟩ := h.bot
      obtain rfl := Option.some.inj (hbot.symm.trans ((hbotOtc.symm.trans hof) ▸ hbot₁))
      refine ⟨_, by rw [hw']; exact Table.get?_set_self hbot₁ (hbotOtc.symm.trans hof), ?_⟩
      rw [hordered]
      change bot.balance + _ = _
      rw [hbalance]
      abel
    · intro o₁ ho₁ hof₁
      rw [hw'] at ho₁
      obtain ⟨ho₁, hne⟩ := Table.mem_filter.mp ho₁
      exact alone o₁ ho₁ hof₁ hne
    · rw [hexecuted, hordered, executed]
      abel
    · rw [hordered, ← bought, hw']
      rfl
  · rw [if_neg hof, sub_zero] at hordered
    rw [if_neg (hpbot ▸ hof), add_zero] at hexecuted
    subst hw'
    refine Aside.trading (w := w) ⟨Table.get?_set_ne fun hkey => hof (hbotOtc.trans hkey),
      fun o₁ hof₁ => ?_, hordered, fun id q hqbot hq => ?_, hexecuted, rfl, fun _ _ _ => rfl⟩ h hlinked
    · rw [Table.mem_filter]
      refine ⟨And.left, fun ho₁ => ⟨ho₁, fun hid => hof ?_⟩⟩
      rw [Table.eq_of_key (Table.mem_of_get? hp.row) ho₁ hid.symm, hof₁]
    · refine (Table.get?_set_ne fun hkey => ?_).trans hq
      have hid : p.providerOrderId = id := hdiscards.later.providerOrderId.symm.trans hkey
      obtain rfl := Option.some.inj (hq.symm.trans (hid ▸ hplacement))
      exact hof (hpbot.symm.trans hqbot)

theorem Trading.sold (hp : w.Pending o p)
    (hfilled : p.executed = p.amount) (hlater : p.Later p') (hexecuted : p'.executed = p.executed)
    (hid : o'.id = o.id) (hbotOtc : o'.botOtc = o.botOtc) (hamount : o'.amount = o.amount)
    (hsold : o'.state = .SOLD) (hexecutedAmount : o'.sellExecutedAmount = some p.executed)
    (hlinked : w'.Linked)
    (hw' : w' = { w with
      botOtcOrders := w.botOtcOrders.set o', exchange := w.exchange.set p' }) :
    Trading w' botOtc balance := by
  have hplacement := hp.placed
  obtain ⟨hpbot, hpamount, -⟩ := h.linked.pending hp
  have hordered : w'.ordered botOtc = w.ordered botOtc :=
    ordered_set hp.row hid hbotOtc hamount (by rw [hw'])
  have hexecuted' : w'.executed botOtc = w.executed botOtc := by
    have hset : w'.executed botOtc = _ := executed_set botOtc hplacement hlater (by rw [hw'])
    rw [hset, hexecuted, sub_self, ite_self, add_zero]
  by_cases hof : o.botOtc = botOtc
  · obtain ⟨alone, executed, bought, boughtFor⟩ := h.phase.of_pending hp hof
    refine ⟨hlinked, ?_, .sold (o := o') ?_ hsold (hbotOtc.trans hof) ?_ ?_ ?_ ?_⟩
    · rw [hordered, hw']
      exact h.bot
    · rw [hw', hid]
      exact Table.get?_set_self hp.row hid
    · intro o₁ ho₁ hof₁ hne
      rw [hw'] at ho₁
      rcases Table.mem_set.mp ho₁ with ⟨ho₁, -⟩ | ⟨rfl, -⟩
      · exact alone o₁ ho₁ hof₁ (hid ▸ hne)
      · exact absurd rfl hne
    · rw [hexecutedAmount, hfilled, hpamount, hamount]
    · rw [hexecuted', hordered, executed, hfilled, hpamount, sub_add_cancel]
    · rw [hordered, hamount, ← bought, hid, hw']
      change _ = w.bought botOtc + w.boughtFor o.id
      rw [boughtFor, add_zero]
      rfl
  · subst hw'
    refine Aside.trading (w := w) ⟨rfl, mem_set_aside hp.row hid hbotOtc hof, hordered,
      fun id q hqbot hq => ?_, hexecuted', rfl, fun _ _ _ => rfl⟩ h hlinked
    refine (Table.get?_set_ne fun hkey => ?_).trans hq
    have hid : p.providerOrderId = id := hlater.providerOrderId.symm.trans hkey
    obtain rfl := Option.some.inj (hq.symm.trans (hid ▸ hplacement))
    exact hof (hpbot.symm.trans hqbot)

theorem Trading.halfway (hrow : w.botOtcOrders.get? o.id = some o)
    (hsold : o.state = .SOLD) (hhalf : Halfway o.id o w w') (hlinked : w'.Linked) :
    Trading w' botOtc balance := by
  obtain ⟨l, hcreated, hl⟩ := hhalf.cryptoOrders
  have hordered : w'.ordered botOtc = w.ordered botOtc := by
    rw [World.ordered, hhalf.botOtcOrders, ← World.ordered]
  have hexecuted : w'.executed botOtc = w.executed botOtc := by
    rw [World.executed, hhalf.exchange, ← World.executed]
  by_cases hof : o.botOtc = botOtc
  · obtain ⟨alone, amount, executed, bought⟩ := h.phase.of_sold hrow hsold hof
    refine ⟨hlinked, ?_, .sold (hhalf.botOtcOrders ▸ hrow) hsold hof ?_ amount ?_ ?_⟩
    · rw [hordered, hhalf.botOtcs]
      exact h.bot
    · intro o₁ ho₁
      exact alone o₁ (hhalf.botOtcOrders ▸ ho₁)
    · rw [hexecuted, hordered, executed]
    · rw [bought_created hof hl hcreated, hordered, bought]
      abel
  · obtain ⟨hbought, hboughtFor⟩ := bought_aside hrow hof hl hcreated
    refine Aside.trading ⟨by rw [hhalf.botOtcs], fun o₁ _ => by rw [hhalf.botOtcOrders], hordered,
      fun id q _ hq => by rw [hhalf.exchange, hq], hexecuted, hbought, hboughtFor⟩ h hlinked

theorem Trading.booked {r : Created CreateCryptoRemittanceServiceRequest}
    {s b : Created CreateCryptoOrderServiceRequest}
    (hrow : w.botOtcOrders.get? o.id = some o) (hsold : o.state = .SOLD)
    (hbooking : Booking o.id o r s b w w')
    (hnone : o.botOtc = botOtc → w.boughtFor o.id = 0) (hlinked : w'.Linked) :
    Trading w' botOtc balance := by
  have hl : ∀ x ∈ [s, b], x.Of o.id o := by
    intro x hx
    rcases List.mem_pair.mp hx with rfl | rfl
    · exact hbooking.sell.1
    · exact hbooking.buy.1
  obtain ⟨o', hrows, hid, hbotOtc, hamount, hfilled⟩ : ∃ o', w'.botOtcOrders = w.botOtcOrders.set o' ∧
      o'.id = o.id ∧ o'.botOtc = o.botOtc ∧ o'.amount = o.amount ∧ o'.state = .FILLED :=
    ⟨_, hbooking.botOtcOrders, rfl, rfl, rfl, rfl⟩
  have hordered : w'.ordered botOtc = w.ordered botOtc := ordered_set hrow hid hbotOtc hamount hrows
  have hexecuted : w'.executed botOtc = w.executed botOtc := by
    rw [World.executed, hbooking.exchange, ← World.executed]
  by_cases hof : o.botOtc = botOtc
  · obtain ⟨alone, amount, executed, bought⟩ := h.phase.of_sold hrow hsold hof
    have hnew : w'.boughtFor o.id = o.amount := by
      rw [World.boughtFor, hbooking.cryptoOrders, boughtIn_append, ← World.boughtFor, hnone hof]
      have hsell : s.row.side = .SELL := hbooking.sell.2
      obtain ⟨hb, hbuy, hquantity⟩ := hbooking.buy
      rw [amount, Option.getD_some] at hquantity
      simp [boughtIn, hsell, hbuy, hb.botOtcOrder, hquantity]
    refine ⟨hlinked, ?_, .idle ?_ ?_ ?_⟩
    · rw [hordered, hbooking.botOtcs]
      exact h.bot
    · intro o₁ ho₁ hof₁
      rw [hrows] at ho₁
      rcases Table.mem_set.mp ho₁ with ⟨ho₁, hne⟩ | ⟨rfl, -⟩
      · exact alone o₁ ho₁ hof₁ (hid ▸ hne)
      · simp [hfilled]
    · rw [hexecuted, hordered, executed]
    · rw [bought_created hof hl hbooking.cryptoOrders, hordered, bought, hnew, hnone hof]
      abel
  · obtain ⟨hbought, hboughtFor⟩ := bought_aside hrow hof hl hbooking.cryptoOrders
    refine Aside.trading ⟨by rw [hbooking.botOtcs], fun o₁ hof₁ => ?_, hordered,
      fun id q _ hq => by rw [hbooking.exchange, hq], hexecuted, hbought, hboughtFor⟩ h hlinked
    rw [hrows]
    exact mem_set_aside hrow hid hbotOtc hof o₁ hof₁

theorem Trading.moved (hmoved : Moved w c w')
    (horderly : Orderly w botOtc c) : Trading w' botOtc balance := by
  have hlinked : w'.Linked := h.linked.moved hmoved
  cases hmoved with
  | rest => exact h
  | @unrecorded services id p hp =>
      have ⟨_, _, _, _, _, _, hplaced, _⟩ := hp
      refine h.unrecorded (p := p) (by rw [hplaced]) (fun hof => ?_) hlinked rfl
      have hid : id = botOtc := by rw [← hof, hplaced]
      exact horderly hid p (hid ▸ hp)
  | recorded o p hbot hidle hid hbotOtc hpending href hp =>
      exact h.recorded hbot hidle hid hbotOtc hpending href ⟨hp.1, hp.2.1⟩ hlinked rfl
  | @traded _ p p' hp hlater hwhy =>
      refine ⟨hlinked, h.bot, h.traded hp hlater (fun hof => ?_) rfl⟩
      rcases hwhy with hpending | hsame | ⟨quantity, rfl, rfl⟩
      · exact .inl hpending
      · exact .inr hsame
      · exact horderly p hp hof
  | discarded hdiscards hbot hbotOtc =>
      refine h.discarded hdiscards hbot hbotOtc (fun hof hdeletes => ?_) hlinked rfl
      rw [hdiscards.executed]
      exact horderly _ _ rfl hof hdiscards.toPending hdiscards.unfilled hdeletes
  | sold hp hfilled hlater hexecuted hid hbotOtc hamount _ hsold hexecutedAmount =>
      exact h.sold hp hfilled hlater hexecuted hid hbotOtc hamount hsold hexecutedAmount hlinked rfl
  | halfway hrow hsold hhalf => exact h.halfway hrow hsold hhalf hlinked
  | booked hrow hsold hcompletes hbooking =>
      refine h.booked hrow hsold hbooking (fun hof => ?_) hlinked
      exact horderly _ hrow hof hsold hcompletes

end

/-- Whenever no order of the bot is under way, all it sold is bought back and has left its balance,
as long as the commands were orderly. -/
theorem boughtBack_of_orderly (huntraded : Untraded w botOtc balance) {cs : List Command}
    (h : Along step (fun w c => Orderly w botOtc c) w cs) (ms : List Command) (hms : ms <+: cs)
    (hsettled : Settled (run step w ms) botOtc) : BoughtBack (run step w ms) botOtc balance := by
  obtain ⟨rest, rfl⟩ := hms
  have htrading : Trading (run step w ms) botOtc balance :=
    (along_append.mp h).1.invariant (I := fun w => Trading w botOtc balance)
      (fun w c hw hc => hw.moved (moved_step w c) hc) huntraded.trading
  exact htrading.boughtBack hsettled

end

/-! A bot with a balance of 100, which sells 10 at a time. -/

def spreadBot : BotOtc where
  id := 1
  name := "BTC"
  fromPair := 1
  fromProvider := 1
  toPair := 2
  toProvider := 2
  spread := 100
  balance := 100
  step := 10
  control := .START
  status := .RUNNING
  failedCode := none
  failedMessage := none

def spreadWorld : World := ⟨Table.empty.upsert spreadBot, Table.empty, [], [], Table.empty⟩

/-- The exchange takes the order and executes nothing at once. -/
def spreadServices : RunServices where
  getStreamPairById pair := .ok (some
    ⟨"BTC", "BRL", if pair = 1 then "B2C2" else "BINANCE", true⟩)
  getProviderById provider := .ok (some (if provider = 1 then "B2C2" else "BINANCE"))
  cryptoRemittanceGateways := ["B2C2", "BINANCE"]
  getCurrencyBySymbol symbol := .ok (some ⟨symbol, .CRYPTO⟩)
  getStreamQuotation := .ok (some 500)
  getCryptoMarketByBaseAndQuote :=
    .ok (some ⟨"BTCBRL", 8, false, none, none, none, none, none, none, none⟩)
  now := 0
  createCryptoRemittance := .placed 0 true true

/-- The exchange reports the order, and deletes what is left of it. -/
def pendingServices : PendingServices := ⟨["BINANCE"], .ok (true, some 500), 0, .answered, false⟩

def spreadRun (quantity : ℕ) : List Command :=
  [.runSpreadBot spreadServices 1, .execute 1 quantity, .handlePending pendingServices 1]

theorem spreadWorld_untraded : Untraded spreadWorld 1 100 where
  linked := by simp [World.Linked, spreadWorld, Table.empty]
  bot := ⟨spreadBot, rfl, rfl⟩
  botOtcOrders := by simp [spreadWorld, Table.empty]
  exchange := by simp [spreadWorld, Table.empty]
  cryptoOrders := by simp [spreadWorld]

/-- The exchange fills the order, and the sale is booked and bought back. -/
def filledRun : List Command :=
  spreadRun 10 ++ [.handleSold ⟨.answered, .answered, .answered⟩ 3 1]

theorem filledRun_orderly : Along step (fun w c => Orderly w 1 c) spreadWorld filledRun := by
  refine ⟨?_, ?_, ?_, ?_, trivial⟩
  · rintro - p ⟨_, _, executed, _, -, -, rfl, ⟨_, hplaced, -⟩ | ⟨_, hlost⟩⟩
    · obtain ⟨rfl, -⟩ := Placing.placed.inj hplaced
      exact Nat.zero_min _
    · cases hlost
  · intro p hp _
    obtain ⟨o, ho, hpending, href⟩ :
        ∃ o ∈ (step spreadWorld (.runSpreadBot spreadServices 1)).botOtcOrders.rows,
          o.state = .PENDING ∧ o.sellProviderOrderId = 1 := by decide +kernel
    exact .inl ⟨o, Table.get?_of_mem ho, hpending, href.symm ▸ hp⟩
  · rintro o p hid - hp hunfilled
    obtain rfl := Option.some.inj (hid ▸ hp.row)
    obtain rfl := Option.some.inj hp.placement
    exact absurd rfl hunfilled
  · intro _ _ _ _ _
    decide +kernel

theorem boughtBack_filled : BoughtBack (run step spreadWorld filledRun) 1 100 := by
  refine boughtBack_of_orderly spreadWorld_untraded filledRun_orderly filledRun (List.prefix_refl _) ?_
  decide +kernel

/-- The exchange executes 3, and the handler gives back 10. -/
theorem not_boughtBack :
    ¬ ∀ (w : World) (botOtc : Uuid) (balance : ℤ), Untraded w botOtc balance →
      ∀ cs, Settled (run step w cs) botOtc → BoughtBack (run step w cs) botOtc balance := by
  intro h
  have hback := h spreadWorld 1 100 spreadWorld_untraded (spreadRun 3) (by decide +kernel)
  exact absurd hback.bought (by decide +kernel)

end ZroServices.OtcBot
