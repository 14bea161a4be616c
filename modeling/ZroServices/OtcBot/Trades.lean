import ZroServices.OtcBot.HedgedOnce
import ZroServices.OtcBot.SpreadBot

/-!
# OTC bot — what the use cases and the exchange do

`Moved` lists what a command makes of the stores and the exchange, and `moved_step` says that it does
one of these.  A use case that throws is rolled back, and what the exchange and the OTC service did
stays.
-/

namespace ZroServices.OtcBot

open Foundation

/-! ### Runs -/

inductive Command where
  | runSpreadBot (services : RunServices) (botOtc : Uuid)
  | handlePending (services : PendingServices) (botOtcOrder : Uuid)
  | handleSold (services : SoldServices) (system : SystemId) (botOtcOrder : Uuid)
  /-- The exchange executes a quantity of an order. -/
  | execute (id : ProviderOrderId) (quantity : ℕ)
  /-- The exchange closes an order. -/
  | cancel (id : ProviderOrderId)

def step (w : World) : Command → World
  | .runSpreadBot services botOtc =>
      left (transaction World.rollback (runSpreadBot services botOtc)) w
  | .handlePending services botOtcOrder =>
      left (transaction World.rollback (handlePendingBotOtcOrder services botOtcOrder)) w
  | .handleSold services system botOtcOrder =>
      left (transaction World.rollback (handleSoldBotOtcOrder services system botOtcOrder)) w
  | .execute id quantity => w.execute id quantity
  | .cancel id => w.cancel id

/-! ### What a command does -/

/-- The same order at the exchange, later. -/
structure Placement.Later (p p' : Placement) : Prop where
  providerOrderId : p'.providerOrderId = p.providerOrderId
  botOtc : p'.botOtc = p.botOtc
  amount : p'.amount = p.amount
  executed : p.executed ≤ p'.executed
  le : p.executed ≤ p.amount → p'.executed ≤ p'.amount

/-- A stored order that is PENDING, and the order at the exchange that it refers to. -/
structure World.Pending (w : World) (o : BotOtcOrder) (p : Placement) : Prop where
  row : w.botOtcOrders.get? o.id = some o
  pending : o.state = .PENDING
  placement : w.exchange.get? o.sellProviderOrderId = some p

/-- The exchange has placed an order that the bot does not store. -/
def Unrecorded (w : World) (services : RunServices) (botOtc : Uuid) (p : Placement) : Prop :=
  ∃ bot sellOrder executed isOpen, w.botOtcs.get? botOtc = some bot ∧
    prepareSellOrder services bot = .ok (some sellOrder) ∧
      p = ⟨w.nextProviderOrderId, botOtc, sellOrder.amount, min executed sellOrder.amount, isOpen⟩ ∧
        ((∃ waiting, services.createCryptoRemittance = .placed executed isOpen waiting ∧
          p.status waiting = .CANCELED) ∨
          ∃ e, services.createCryptoRemittance = .lost e executed isOpen)

/-- The exchange says what it executed, and then that it has deleted what was left. -/
structure PendingServices.Deletes (services : PendingServices) (o : BotOtcOrder) (p : Placement) :
    Prop where
  gateway : o.sellProviderName ∈ services.cryptoRemittanceGateways
  read : ∃ r, services.getCryptoRemittanceById = .ok r
  answered : services.deleteCryptoRemittanceById = .answered
  left : 0 < (p.execute services.meanwhile).rest ∨ services.deletesClosed

/-- The handler of a pending order throws it away; `p'` is what the exchange has of it then. -/
structure Discards (w : World) (services : PendingServices) (o : BotOtcOrder) (p p' : Placement) :
    Prop extends w.Pending o p where
  unfilled : p.executed ≠ p.amount
  deletes : p.executed < o.amount → services.Deletes o p
  executed : p'.executed = (p.execute services.meanwhile).executed
  later : p.Later p'

/-- What a command makes of the stores and the exchange. -/
inductive Moved (w : World) : Command → World → Prop
  | rest (c : Command) : Moved w c w
  | unrecorded {services : RunServices} {botOtc : Uuid} (p : Placement)
      (hp : Unrecorded w services botOtc p) :
      Moved w (.runSpreadBot services botOtc) { w with exchange := w.exchange.upsert p }
  /-- A sell order is placed, and stored. -/
  | recorded {services : RunServices} {bot : BotOtc} (o : BotOtcOrder) (p : Placement)
      (hbot : w.botOtcs.get? bot.id = some bot)
      (hidle : ∀ o' ∈ w.botOtcOrders.rows, o'.botOtc = bot.id →
        o'.state ≠ .PENDING ∧ o'.state ≠ .SOLD)
      (hid : o.id = w.uuidV4) (hbotOtc : o.botOtc = bot.id) (hpending : o.state = .PENDING)
      (href : o.sellProviderOrderId = w.nextProviderOrderId)
      (hp : p.providerOrderId = w.nextProviderOrderId ∧ p.botOtc = bot.id ∧
        p.amount = o.amount ∧ p.executed ≤ p.amount) :
      Moved w (.runSpreadBot services bot.id) { w with
        botOtcs := w.botOtcs.set { bot with balance := bot.balance - o.amount }
        botOtcOrders := w.botOtcOrders.upsert o
        exchange := w.exchange.upsert p }
  /-- The exchange executes a part of an order, or closes it. -/
  | traded (c : Command) {p p' : Placement} (hp : w.exchange.get? p.providerOrderId = some p)
      (hlater : p.Later p')
      (hwhy : (∃ o, w.Pending o p) ∨ p'.executed = p.executed ∨
        ∃ quantity, c = .execute p.providerOrderId quantity ∧ p' = p.execute quantity) :
      Moved w c { w with exchange := w.exchange.set p' }
  /-- A pending order is thrown away. -/
  | discarded {services : PendingServices} {o : BotOtcOrder} {p p' : Placement} {bot : BotOtc}
      (hdiscards : Discards w services o p p') (hbot : w.botOtcs.get? bot.id = some bot)
      (hbotOtc : o.botOtc = bot.id) :
      Moved w (.handlePending services o.id) { w with
        botOtcs := w.botOtcs.set { bot with balance := bot.balance + o.amount }
        botOtcOrders := w.botOtcOrders.filter fun o' => o'.id ≠ o.id
        exchange := w.exchange.set p' }
  /-- A pending order is stored SOLD. -/
  | sold {services : PendingServices} {o o' : BotOtcOrder} {p p' : Placement} (hp : w.Pending o p)
      (hfilled : p.executed = p.amount) (hlater : p.Later p') (hexecuted : p'.executed = p.executed)
      (hid : o'.id = o.id) (hbotOtc : o'.botOtc = o.botOtc) (hamount : o'.amount = o.amount)
      (href : o'.sellProviderOrderId = o.sellProviderOrderId) (hsold : o'.state = .SOLD)
      (hexecutedAmount : o'.sellExecutedAmount = some p.executed) :
      Moved w (.handlePending services o.id) { w with
        botOtcOrders := w.botOtcOrders.set o', exchange := w.exchange.set p' }
  | halfway {services : SoldServices} {system : SystemId} {o : BotOtcOrder} {w' : World}
      (hrow : w.botOtcOrders.get? o.id = some o) (hsold : o.state = .SOLD)
      (h : Halfway o.id o w w') : Moved w (.handleSold services system o.id) w'
  /-- A sold order is booked and bought back. -/
  | booked {services : SoldServices} {system : SystemId} {o : BotOtcOrder} {w' : World}
      {r : Created CreateCryptoRemittanceServiceRequest}
      {s b : Created CreateCryptoOrderServiceRequest}
      (hrow : w.botOtcOrders.get? o.id = some o) (hsold : o.state = .SOLD)
      (hcompletes : (SoldDelivery.mk services true).completes)
      (h : Booking o.id o r s b w w') : Moved w (.handleSold services system o.id) w'

section

variable {w w' : World} {p : Placement} {o : BotOtcOrder} {bot : BotOtc}

/-! ### The exchange -/

theorem Placement.executed_le_execute (p : Placement) (quantity : ℕ) :
    p.executed ≤ (p.execute quantity).executed := Nat.le_add_right _ _

theorem Placement.execute_le (h : p.executed ≤ p.amount) (quantity : ℕ) :
    (p.execute quantity).executed ≤ p.amount := by
  simp only [Placement.execute, Placement.rest]
  split
  · omega
  · omega

theorem Placement.later_execute (p : Placement) (quantity : ℕ) : p.Later (p.execute quantity) :=
  ⟨rfl, rfl, rfl, p.executed_le_execute quantity, fun h => Placement.execute_le h quantity⟩

theorem Placement.later_close (p : Placement) : p.Later p.close :=
  ⟨rfl, rfl, rfl, le_rfl, fun h => h⟩

theorem Placement.Later.close {p' : Placement} (h : p.Later p') : p.Later p'.close :=
  ⟨h.providerOrderId, h.botOtc, h.amount, h.executed, h.le⟩

/-- An order that is filled is not executed any more. -/
theorem Placement.execute_of_filled (h : p.executed = p.amount) (quantity : ℕ) :
    (p.execute quantity).executed = p.executed := by
  simp [Placement.execute, Placement.rest, h]

theorem moved_execute (id : ProviderOrderId) (quantity : ℕ) :
    Moved w (.execute id quantity) (w.execute id quantity) := by
  rw [World.execute]
  cases hp : w.exchange.get? id with
  | none => exact .rest _
  | some p =>
      obtain rfl : p.providerOrderId = id := Table.key_of_get? hp
      exact .traded _ hp (p.later_execute quantity) (.inr (.inr ⟨quantity, rfl, rfl⟩))

theorem moved_cancel (id : ProviderOrderId) : Moved w (.cancel id) (w.cancel id) := by
  rw [World.cancel]
  cases hp : w.exchange.get? id with
  | none => exact .rest _
  | some p =>
      obtain rfl : p.providerOrderId = id := Table.key_of_get? hp
      exact .traded _ hp p.later_close (.inr (.inl rfl))

/-! ### A pending order -/

theorem Placement.status_eq_filled {waiting : Bool} :
    p.status waiting = .FILLED ↔ p.executed = p.amount := by
  rw [Placement.status]
  split
  · next h => simp [h]
  · next h =>
    refine iff_of_false ?_ h
    split
    · cases waiting <;> rintro ⟨⟩
    · rintro ⟨⟩

/-- What the deletion at the exchange does. -/
theorem outcome_deleteRest {services : PendingServices} {status : CryptoRemittanceStatus}
    {executed : ℕ} (hp : w.exchange.get? o.sellProviderOrderId = some p) :
    Outcome (deleteRest services o status executed) w
      (fun _ w' => (¬ (status = .PENDING ∨ status = .WAITING ∨ executed < o.amount) ∧ w' = w) ∨
        services.deleteCryptoRemittanceById = .answered ∧
          (0 < p.rest ∨ services.deletesClosed) ∧ w' = w.cancel o.sellProviderOrderId)
      (fun _ w' => w' = w ∨ w' = w.cancel o.sellProviderOrderId) := by
  rw [deleteRest]
  split
  · rw [deleteCryptoRemittanceById, outcome_remote]
    refine ⟨fun w₁ hw₁ => ?_, fun _ _ => .inl rfl, fun _ _ _ => .inl rfl⟩
    simp only [hp] at hw₁
    cases hleft : decide (0 < p.rest) || services.deletesClosed with
    | false =>
        rw [hleft] at hw₁
        cases hw₁
    | true =>
        rw [hleft] at hw₁
        obtain rfl := Except.ok.inj hw₁
        exact ⟨fun hanswered => .inr ⟨hanswered, by simpa using hleft, rfl⟩, fun _ _ => .inr rfl⟩
  · next h => exact .inl ⟨h, rfl⟩

theorem moved_handlePendingBotOtcOrder {services : PendingServices} {id : Uuid} :
    Outcome (handlePendingBotOtcOrder services id) w
      (fun _ w' => Moved w (.handlePending services id) w')
      (fun _ w' => Moved w (.handlePending services id) (w.rollback w')) := by
  have hrest : Moved w (.handlePending services id) (w.rollback w) := .rest _
  rw [handlePendingBotOtcOrder, outcome_bind, outcome_get, outcome_bind, outcome_orThrow]
  refine ⟨fun _ => hrest, fun o hrow => ?_⟩
  obtain rfl : o.id = id := Table.key_of_get? hrow
  rw [outcome_bind, outcome_throwIf]
  refine ⟨fun _ => hrest, fun hpending => ?_⟩
  rw [outcome_bind, outcome_throwIf]
  refine ⟨fun _ => hrest, fun hgateway => ?_⟩
  rw [not_not] at hgateway
  rw [outcome_bind, outcome_call]
  refine ⟨fun _ _ => hrest, fun (waiting, executedPrice) hread => ?_⟩
  rw [outcome_bind, outcome_orThrow]
  refine ⟨fun _ => hrest, fun p hp => ?_⟩
  have hpend : w.Pending o p := ⟨hrow, not_not.mp hpending, hp⟩
  have hkey : p.providerOrderId = o.sellProviderOrderId := Table.key_of_get? hp
  -- the order at the exchange, after what is executed meanwhile and after the deletion
  set p₁ : Placement := p.execute services.meanwhile
  have hlater : p.Later p₁ := p.later_execute services.meanwhile
  have hexecute : w.execute o.sellProviderOrderId services.meanwhile =
      { w with exchange := w.exchange.set p₁ } := by
    rw [World.execute, hp]
  have hp₁ : (w.exchange.set p₁).get? o.sellProviderOrderId = some p₁ :=
    Table.get?_set_self hp hkey
  have hcancel : ({ w with exchange := w.exchange.set p₁ } : World).cancel o.sellProviderOrderId =
      { w with exchange := w.exchange.set p₁.close } := by
    rw [World.cancel]
    simp only [hp₁]
    have hset : (w.exchange.set p₁).set p₁.close = w.exchange.set p₁.close := Table.set_set rfl
    rw [hset]
  have hthrow (w₂ : World) (hw₂ : w₂ = { w with exchange := w.exchange.set p₁ } ∨
      w₂ = { w with exchange := w.exchange.set p₁.close }) :
      Moved w (.handlePending services o.id) (w.rollback w₂) := by
    have hplaced : w.exchange.get? p.providerOrderId = some p := hkey ▸ hp
    rcases hw₂ with rfl | rfl
    · exact .traded _ hplaced hlater (.inl ⟨o, hpend⟩)
    · exact .traded _ hplaced hlater.close (.inl ⟨o, hpend⟩)
  rw [outcome_bind, outcome_modify, hexecute, outcome_bind]
  refine Outcome.mono (outcome_deleteRest (p := p₁) ?_) ?_ ?_
  · exact hp₁
  · rintro _ w₂ hw₂
    -- what the exchange has of the order now
    obtain ⟨p₂, rfl, hlater₂, hexecuted, hdeletes⟩ : ∃ p₂, w₂ = { w with exchange := w.exchange.set p₂ } ∧
        p.Later p₂ ∧ p₂.executed = p₁.executed ∧
          (p.executed ≠ p.amount → p.executed < o.amount → services.Deletes o p) := by
      rcases hw₂ with ⟨hno, rfl⟩ | ⟨hanswered, hrest, rfl⟩
      · exact ⟨p₁, rfl, hlater, rfl, fun _ hlt => absurd (.inr (.inr hlt)) hno⟩
      · exact ⟨p₁.close, hcancel, hlater.close, rfl, fun _ _ => ⟨hgateway, ⟨_, hread⟩, hanswered, hrest⟩⟩
    rw [outcome_bind, outcome_orThrow]
    refine ⟨fun _ => ?_, fun bot hbot => ?_⟩
    · exact .traded _ (hkey ▸ hp) hlater₂ (.inl ⟨o, hpend⟩)
    · obtain hbotId : bot.id = o.botOtc := Table.key_of_get? hbot
      split
      · next hstatus =>
        have hunfilled : p.executed ≠ p.amount := fun h => hstatus (Placement.status_eq_filled.mpr h)
        exact .discarded ⟨hpend, hunfilled, hdeletes hunfilled, hexecuted, hlater₂⟩
          (hbotId ▸ hbot) hbotId.symm
      · next hstatus =>
        have hfilled : p.executed = p.amount :=
          Placement.status_eq_filled.mp (not_not.mp hstatus)
        refine .sold hpend hfilled hlater₂ ?_ rfl rfl rfl rfl rfl rfl
        exact hexecuted.trans (Placement.execute_of_filled hfilled _)
  · rintro _ w₂ (rfl | rfl)
    · exact hthrow _ (.inl rfl)
    · exact hthrow _ (.inr hcancel)

/-! ### The bot -/

theorem lt_nextProviderOrderId (hp : p ∈ w.exchange.rows) :
    p.providerOrderId < w.nextProviderOrderId :=
  lt_fresh (List.mem_map_of_mem hp)

theorem moved_runSpreadBot {services : RunServices} {id : Uuid} :
    Outcome (runSpreadBot services id) w
      (fun _ w' => Moved w (.runSpreadBot services id) w')
      (fun _ w' => Moved w (.runSpreadBot services id) (w.rollback w')) := by
  have hrest : Moved w (.runSpreadBot services id) (w.rollback w) := .rest _
  rw [runSpreadBot, outcome_bind, outcome_get, outcome_bind, outcome_orThrow]
  refine ⟨fun _ => hrest, fun bot hbot => ?_⟩
  obtain rfl : bot.id = id := Table.key_of_get? hbot
  split
  · exact .rest _
  split
  · exact .rest _
  split
  · exact .rest _
  next hidle =>
  rw [outcome_bind, outcome_call]
  refine ⟨fun _ _ => hrest, fun prepared hprepared => ?_⟩
  cases prepared with
  | none => exact .rest _
  | some sellOrder =>
      simp only [outcome_bind, placeSellOrder, outcome_get]
      cases hplacing : services.createCryptoRemittance with
      | rejected => exact .rest _
      | refused e => exact hrest
      | lost e executed isOpen =>
          exact .unrecorded _
            ⟨bot, sellOrder, executed, isOpen, hbot, hprepared, rfl, .inr ⟨e, hplacing⟩⟩
      | placed executed isOpen waiting =>
          simp only [outcome_bind, outcome_modify, outcome_pure]
          split
          · next hcanceled =>
            exact .unrecorded _ ⟨bot, sellOrder, executed, isOpen, hbot, hprepared, rfl,
              .inl ⟨waiting, hplacing, hcanceled⟩⟩
          · simp only [outcome_bind, updateBotOtc, outcome_modify]
            have hidle' (o : BotOtcOrder) (ho : o ∈ w.botOtcOrders.rows) (hof : o.botOtc = bot.id) :
                o.state ≠ .PENDING ∧ o.state ≠ .SOLD :=
              ⟨fun h => hidle ⟨o, ho, hof, .inl h⟩, fun h => hidle ⟨o, ho, hof, .inr h⟩⟩
            exact .recorded (sellOrder.botOtcOrder w.uuidV4 bot.id w.nextProviderOrderId _)
              ⟨w.nextProviderOrderId, bot.id, sellOrder.amount, _, isOpen⟩ hbot hidle' rfl rfl rfl rfl
              ⟨rfl, rfl, rfl, Nat.min_le_right _ _⟩

/-! ### A sold order -/

theorem moved_handleSoldBotOtcOrder {services : SoldServices} {system : SystemId} {id : Uuid} :
    Outcome (handleSoldBotOtcOrder services system id) w
      (fun _ w' => Moved w (.handleSold services system id) w')
      (fun _ w' => Moved w (.handleSold services system id) (w.rollback w')) := by
  have hrest : Moved w (.handleSold services system id) (w.rollback w) := .rest _
  cases hrow : w.botOtcOrders.get? id with
  | none =>
      rw [handleSoldBotOtcOrder, outcome_bind, outcome_get, hrow]
      exact hrest
  | some o =>
      obtain rfl : o.id = id := Table.key_of_get? hrow
      cases hstate : o.state with
      | SOLD =>
          refine Outcome.mono
            (outcome_handleSoldBotOtcOrder system (d := ⟨services, true⟩) hrow hstate) ?_ ?_
          · rintro _ w' ⟨-, hcompletes, r, s, b, hbooking⟩
            exact .booked hrow hstate hcompletes hbooking
          · rintro _ w' (⟨-, rfl⟩ | ⟨-, -, hhalf⟩)
            · exact hrest
            · exact .halfway hrow hstate ⟨rfl, rfl, hhalf.exchange, hhalf.remittances,
                hhalf.cryptoOrders, hhalf.buyOrders⟩
      | FILLED | PENDING | COMPLETED | ERROR =>
          rw [handleSoldBotOtcOrder, outcome_bind, outcome_get, hrow]
          simp only [orThrow, outcome_bind, outcome_pure, hstate]
          exact .rest _

/-- What a command does. -/
theorem moved_step (w : World) (c : Command) : Moved w c (step w c) := by
  cases c with
  | runSpreadBot => exact left_transaction_iff.mpr moved_runSpreadBot
  | handlePending => exact left_transaction_iff.mpr moved_handlePendingBotOtcOrder
  | handleSold => exact left_transaction_iff.mpr moved_handleSoldBotOtcOrder
  | execute id quantity => exact moved_execute id quantity
  | cancel id => exact moved_cancel id

end

end ZroServices.OtcBot
