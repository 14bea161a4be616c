import ZroServices.Foundation.Session
import ZroServices.OtcBot.BoughtBack

/-!
# OtcBot — the balance, side by side

Everything that writes a bot writes its whole row, from a copy: the spread bot from the row it read at
its start, the handler of a pending order and the update from the row they read before they write, and
the bot cron from the object it holds in memory, which it refreshes once in a while.  No row is locked,
so what the others store between the read and the store is lost.

Each writer is a `Program`: its reads, in order, and what it stores when it commits.  A gateway's
answers are given with the writer.

* `balance_serial`: when every writer that stores something would read the same again, the balance of
  a bot is the result of the writers one after the other, in the order of their commits.
* `alone_executeBot`, `alone_handlePending`: executed alone, a program stores what its use case does.
-/

namespace ZroServices.OtcBot

open Foundation
export Foundation (Program)

/-- The tables of the bot service. -/
structure Rows where
  botOtcs : Table BotOtc
  botOtcOrders : Table BotOtcOrder

def World.rows (w : World) : Rows := ⟨w.botOtcs, w.botOtcOrders⟩

/-! ### The spread bot -/

/-- The answer to a sell order, when there is one. -/
def Placing.answer (placing : Placing) (providerOrderId : ProviderOrderId) (botOtc : Uuid)
    (amount : ℕ) : Except Exception (Option CryptoRemittanceStatus) :=
  match placing with
  | .placed executed isOpen waiting =>
      let placement : Placement := ⟨providerOrderId, botOtc, amount, min executed amount, isOpen⟩
      .ok (some (placement.status waiting))
  | .rejected => .ok none
  | .refused e => .error e
  | .lost e _ _ => .error e

/-- The sell order that the exchange took, and its status. -/
def sell (services : RunServices) (bot : BotOtc) (providerOrderId : ProviderOrderId) :
    Except Exception (Option (SellOrder × CryptoRemittanceStatus)) := do
  match ← prepareSellOrder services bot with
  | none => return none
  | some sellOrder => do
      match ← services.createCryptoRemittance.answer providerOrderId bot.id sellOrder.amount with
      | none => return none
      | some status => return if status = .CANCELED then none else some (sellOrder, status)

/-- An order of the bot is PENDING or SOLD. -/
def Rows.inProcess (s : Rows) (botOtc : Uuid) : Prop :=
  ∃ o ∈ s.botOtcOrders.rows, o.botOtc = botOtc ∧ (o.state = .PENDING ∨ o.state = .SOLD)

instance (s : Rows) (botOtc : Uuid) : Decidable (s.inProcess botOtc) :=
  inferInstanceAs (Decidable (∃ _ ∈ _, _))

/-- `RunSpreadBotUseCase`, which stores its order under a new `id`. -/
def executeBot (services : RunServices) (botOtc id : Uuid) (providerOrderId : ProviderOrderId) :
    Program Rows :=
  .read (fun s => s.botOtcs.get? botOtc) fun
    | none => .done
    | some bot =>
        if bot.balance ≤ 0 ∨ bot.balance < bot.step then .done
        else if bot.shouldStop then .done
        else .read (fun s => decide (s.inProcess botOtc)) fun
          | true => .done
          | false =>
              match sell services bot providerOrderId with
              | .error _ => .done
              | .ok none => .done
              | .ok (some (sellOrder, status)) => .store fun s =>
                  { botOtcs := s.botOtcs.set { bot with balance := bot.balance - sellOrder.amount }
                    botOtcOrders := s.botOtcOrders.upsert
                      (sellOrder.botOtcOrder id botOtc providerOrderId status) }

/-! ### The bot cron -/

/-- The object that the cron holds: the row, as it was at the last refresh, and the cron's status. -/
def Rows.cached (botOtc : Uuid) (status : BotOtcStatus) (s : Rows) : Option BotOtc :=
  (s.botOtcs.get? botOtc).map fun bot => { bot with status := status }

/-- A transaction of the cron stores a change of the object, if it is to. -/
def updateCached (botOtc : Uuid) (status : BotOtcStatus) (change : BotOtc → Option BotOtc) :
    Program Rows :=
  .read (Rows.cached botOtc status) fun cached =>
    match cached.bind change with
    | none => .done
    | some bot => .store fun s => { s with botOtcs := s.botOtcs.set bot }

/-- The catch of `executeBot`. -/
def failBot (botOtc : Uuid) (status : BotOtcStatus) (code : Option String) (message : String) :
    Program Rows :=
  updateCached botOtc status fun bot => some
    { bot with
      status := .ERROR
      control := .STOP
      failedCode := some (code.getD "UNEXPECTED_BOT_ERROR")
      failedMessage := some message }

def startBot (botOtc : Uuid) (status : BotOtcStatus) : Program Rows :=
  updateCached botOtc status fun bot =>
    if bot.shouldStart then some { bot with status := .RUNNING } else none

/-- The first transaction of `stopBot`: a bot that is running is asked to stop. -/
def askBotToStop (botOtc : Uuid) (status : BotOtcStatus) : Program Rows :=
  updateCached botOtc status fun bot =>
    if bot.shouldStop ∧ bot.isRunning then some { bot with status := .STOPPING } else none

/-- The last transaction of `stopBot`; the bot was asked to stop, or had failed. -/
def stopBot (botOtc : Uuid) (status : BotOtcStatus) : Program Rows :=
  updateCached botOtc status fun bot =>
    if bot.control = .STOP ∧ (bot.isStoping ∨ bot.status = .ERROR) then some
      { bot with
        status := if bot.isStoping then .STOPPED else bot.status
        control := .STAND_BY }
    else none

/-! ### A pending order -/

/-- What the gateways answer. -/
structure PendingAnswers where
  cryptoRemittanceGateways : List ProviderName
  /-- The status, the quantity executed and the price. -/
  getCryptoRemittanceById : Except Exception (Option (CryptoRemittanceStatus × ℕ × Option ℕ))
  /-- The answer has an id. -/
  deleteCryptoRemittanceById : Except Exception Bool

/-- What was not filled is deleted at the exchange, or there is nothing to delete. -/
def PendingAnswers.deletes (answers : PendingAnswers) (order : BotOtcOrder)
    (status : CryptoRemittanceStatus) (executed : ℕ) : Prop :=
  status = .PENDING ∨ status = .WAITING ∨ executed < order.amount →
    answers.deleteCryptoRemittanceById = .ok true

instance (r : Except Exception Bool) : Decidable (r = .ok true) :=
  match r with
  | .ok true => .isTrue rfl
  | .ok false => .isFalse nofun
  | .error _ => .isFalse nofun

instance (answers : PendingAnswers) (order : BotOtcOrder) (status : CryptoRemittanceStatus)
    (executed : ℕ) : Decidable (answers.deletes order status executed) :=
  inferInstanceAs (Decidable (_ → _))

/-- `HandlePendingBotOtcOrderUseCase`. -/
def handlePending (answers : PendingAnswers) (id : Uuid) : Program Rows :=
  .read (fun s => s.botOtcOrders.get? id) fun
    | none => .done
    | some order =>
        if order.state ≠ .PENDING then .done
        else if order.sellProviderName ∉ answers.cryptoRemittanceGateways then .done
        else match answers.getCryptoRemittanceById with
          | .error _ => .done
          | .ok none => .done
          | .ok (some (status, executed, executedPrice)) =>
              if ¬ answers.deletes order status executed then .done
              else .read (fun s => s.botOtcs.get? order.botOtc) fun
                | none => .done
                | some bot =>
                    if status ≠ .FILLED then .store fun s =>
                      { botOtcs := s.botOtcs.set { bot with balance := bot.balance + order.amount }
                        botOtcOrders := s.botOtcOrders.filter fun o => o.id ≠ id }
                    else .store fun s => { s with
                      botOtcOrders := s.botOtcOrders.set
                        { order with
                          sellExecutedPrice := executedPrice
                          sellExecutedAmount := some executed
                          sellStatus := status
                          state := .SOLD } }

/-! ### An update -/

structure UpdateBotOtcRequest where
  id : Uuid
  control : Option BotOtcControl
  balance : Option ℤ
  step : Option ℕ
  spread : Option ℕ

/-- A field that is 0 counts as missing. -/
def UpdateBotOtcRequest.isMissing (request : UpdateBotOtcRequest) : Prop :=
  request.spread.getD 0 = 0 ∧ request.step.getD 0 = 0 ∧ request.control = none ∧
    request.balance.getD 0 = 0

instance (request : UpdateBotOtcRequest) : Decidable request.isMissing :=
  inferInstanceAs (Decidable (_ ∧ _))

def UpdateBotOtcRequest.apply (request : UpdateBotOtcRequest) (bot : BotOtc) : BotOtc :=
  { bot with
    control := request.control.getD bot.control
    balance := request.balance.getD bot.balance
    step := request.step.getD bot.step
    spread := request.spread.getD bot.spread }

/-- `UpdateBotOtcUseCase`. -/
def updateBot (request : UpdateBotOtcRequest) : Program Rows :=
  if request.isMissing then .done
  else .read (fun s => s.botOtcs.get? request.id) fun
    | none => .done
    | some bot => .store fun s => { s with botOtcs := s.botOtcs.set (request.apply bot) }

/-! ### Side by side -/

inductive Writer where
  | executeBot (services : RunServices) (botOtc id : Uuid) (providerOrderId : ProviderOrderId)
  | failBot (botOtc : Uuid) (status : BotOtcStatus) (code : Option String) (message : String)
  | startBot (botOtc : Uuid) (status : BotOtcStatus)
  | askBotToStop (botOtc : Uuid) (status : BotOtcStatus)
  | stopBot (botOtc : Uuid) (status : BotOtcStatus)
  | handlePending (answers : PendingAnswers) (botOtcOrder : Uuid)
  | updateBot (request : UpdateBotOtcRequest)

def Writer.program : Writer → Program Rows
  | .executeBot services botOtc id providerOrderId =>
      OtcBot.executeBot services botOtc id providerOrderId
  | .failBot botOtc status code message => OtcBot.failBot botOtc status code message
  | .startBot botOtc status => OtcBot.startBot botOtc status
  | .askBotToStop botOtc status => OtcBot.askBotToStop botOtc status
  | .stopBot botOtc status => OtcBot.stopBot botOtc status
  | .handlePending answers botOtcOrder => OtcBot.handlePending answers botOtcOrder
  | .updateBot request => OtcBot.updateBot request

/-- The stored balance of a bot. -/
def Rows.balance (s : Rows) (botOtc : Uuid) : Option ℤ :=
  (s.botOtcs.get? botOtc).map BotOtc.balance

section

variable {ι : Type} (writers : ι → Writer)

/-- The rows after writers one after the other. -/
def serially (s : Rows) (order : List ι) : Rows :=
  order.foldl (fun s i => (writers i).program.alone s) s

variable [DecidableEq ι]

/-- The sessions of the writers, after some of their steps. -/
def sideBySide (s : Rows) (is : List ι) : Sessions Rows ι :=
  run Sessions.step (.init s fun i => (writers i).program) is

variable {writers}

/-- When everything that was stored was fresh, the balance is that of the writers that stored
something, one after the other. -/
theorem balance_serial {s : Rows} {is : List ι}
    (h : Along Sessions.step Sessions.Fresh (.init s fun i => (writers i).program) is)
    (botOtc : Uuid) :
    ∃ order, order.Perm (sideBySide writers s is).stored ∧
      (sideBySide writers s is).store.balance botOtc = (serially writers s order).balance botOtc := by
  have hserial := Sessions.Serial.run h
  refine ⟨(sideBySide writers s is).stored, .refl _, ?_⟩
  rw [sideBySide, hserial.store]
  rfl

end

/-! ### Executed alone -/

section

variable {w : World}

/-- Executed alone, the program of the spread bot stores what the use case does. -/
theorem alone_executeBot (services : RunServices) (botOtc : Uuid) :
    (left (transaction World.rollback (runSpreadBot services botOtc)) w).rows =
      (executeBot services botOtc w.uuidV4 w.nextProviderOrderId).alone w.rows := by
  refine left_transaction_iff (P := fun w' => World.rows w' = _).mpr ?_
  change Outcome _ w (fun _ w' => w'.rows = _) fun _ _ => w.rows = _
  rw [runSpreadBot, outcome_bind, outcome_get, outcome_bind, executeBot, Program.alone]
  have hrows : w.rows.botOtcs = w.botOtcs := rfl
  rw [outcome_orThrow, hrows]
  refine ⟨fun hnone => ?_, fun bot hbot => ?_⟩
  · rw [hnone, Program.alone]
  obtain rfl : bot.id = botOtc := Table.key_of_get? hbot
  rw [hbot]
  split
  · next hfunds => simp only [if_pos hfunds, Program.alone, outcome_pure]
  next hfunds =>
  split
  · next hstop => simp only [if_neg hfunds, if_pos hstop, Program.alone, outcome_pure]
  next hstop =>
  simp only [if_neg hfunds, if_neg hstop, Program.alone]
  split
  · next hprocess =>
    have hprocess' : w.rows.inProcess bot.id := hprocess
    simp only [hprocess', decide_true, Program.alone, outcome_pure]
  next hprocess =>
  have hprocess' : ¬ w.rows.inProcess bot.id := hprocess
  simp only [hprocess', decide_false]
  rw [outcome_bind, outcome_call]
  refine ⟨fun e he => ?_, fun prepared hprepared => ?_⟩
  · rw [sell, he]
    rfl
  cases prepared with
  | none =>
      rw [sell, hprepared]
      rfl
  | some sellOrder =>
      simp only [outcome_bind, placeSellOrder, outcome_get]
      cases hplacing : services.createCryptoRemittance with
      | rejected | refused | lost =>
          rw [sell, hprepared, hplacing]
          rfl
      | placed executed isOpen waiting =>
          set p : Placement :=
            ⟨w.nextProviderOrderId, bot.id, sellOrder.amount, min executed sellOrder.amount, isOpen⟩
          have hsell : sell services bot w.nextProviderOrderId = .ok
              (if p.status waiting = .CANCELED then none else some (sellOrder, p.status waiting)) := by
            rw [sell, hprepared, hplacing]
            rfl
          simp only [outcome_bind, outcome_modify, outcome_pure, hsell]
          split
          · rfl
          · rfl

/-- What the gateways answer while the pending order is handled. -/
def PendingServices.answers (services : PendingServices) (w : World) (id : Uuid) : PendingAnswers :=
  let placement := (w.botOtcOrders.get? id).bind fun o => w.exchange.get? o.sellProviderOrderId
  { cryptoRemittanceGateways := services.cryptoRemittanceGateways
    getCryptoRemittanceById := services.getCryptoRemittanceById.map fun (waiting, executedPrice) =>
      placement.map fun p => (p.status waiting, p.executed, executedPrice)
    deleteCryptoRemittanceById :=
      match services.deleteCryptoRemittanceById with
      | .answered => .ok (placement.any fun p =>
          decide (0 < (p.execute services.meanwhile).rest) || services.deletesClosed)
      | .refused e => .error e
      | .lost e => .error e }

/-- The answer to a deletion, for an order that is placed. -/
theorem answers_delete {services : PendingServices} {o : BotOtcOrder} {p : Placement}
    (ho : w.botOtcOrders.get? o.id = some o) (hp : w.exchange.get? o.sellProviderOrderId = some p) :
    (services.answers w o.id).deleteCryptoRemittanceById =
      match services.deleteCryptoRemittanceById with
      | .answered => .ok
          (decide (0 < (p.execute services.meanwhile).rest) || services.deletesClosed)
      | .refused e => .error e
      | .lost e => .error e := by
  simp only [PendingServices.answers, ho, Option.bind_some, hp, Option.any_some]

/-- The rest of an order is deleted if the gateway's answer says so. -/
theorem outcome_deleteRest_answers {services : PendingServices} {o o' : BotOtcOrder} {p : Placement}
    {status : CryptoRemittanceStatus} {executed : ℕ} {w' : World}
    (ho : w.botOtcOrders.get? o.id = some o) (hp : w.exchange.get? o.sellProviderOrderId = some p)
    (hp' : w'.exchange.get? o.sellProviderOrderId = some (p.execute services.meanwhile))
    (ho' : o'.sellProviderOrderId = o.sellProviderOrderId) (hamount : o'.amount = o.amount) :
    Outcome (deleteRest services o' status executed) w'
      (fun _ w'' => (services.answers w o.id).deletes o status executed ∧ w''.rows = w'.rows)
      (fun _ _ => ¬ (services.answers w o.id).deletes o status executed) := by
  rw [deleteRest, hamount, PendingAnswers.deletes, answers_delete ho hp]
  split
  · next hrest =>
    simp only [hrest, true_imp_iff]
    rw [deleteCryptoRemittanceById, outcome_remote, ho', hp']
    simp only []
    have hrows : (w'.cancel o.sellProviderOrderId).rows = w'.rows := by
      rw [World.cancel, hp']
      rfl
    cases decide (0 < (p.execute services.meanwhile).rest) || services.deletesClosed with
    | false =>
        refine ⟨(fun _ h => by cases h), fun e he => ?_, fun _ _ _ => ?_⟩
        · rw [he]
          rintro ⟨⟩
        · cases services.deleteCryptoRemittanceById <;> rintro ⟨⟩
    | true =>
        refine ⟨fun w'' hw'' => ?_, fun e he => ?_, (fun _ _ h => by cases h)⟩
        · obtain rfl := Except.ok.inj hw''
          refine ⟨fun hanswered => ⟨by rw [hanswered], hrows⟩, fun e he => ?_⟩
          rw [he]
          rintro ⟨⟩
        · rw [he]
          rintro ⟨⟩
  · next hrest => exact ⟨fun h => absurd h hrest, rfl⟩

/-- Executed alone, the program of a pending order stores what the use case does. -/
theorem alone_handlePending (services : PendingServices) (id : Uuid) :
    (left (transaction World.rollback (handlePendingBotOtcOrder services id)) w).rows =
      (handlePending (services.answers w id) id).alone w.rows := by
  refine left_transaction_iff (P := fun w' => World.rows w' = _).mpr ?_
  change Outcome _ w (fun _ w' => w'.rows = _) fun _ _ => w.rows = _
  rw [handlePendingBotOtcOrder, outcome_bind, outcome_get, outcome_bind, handlePending, Program.alone]
  have hrows : w.rows.botOtcOrders = w.botOtcOrders := rfl
  rw [outcome_orThrow, hrows]
  refine ⟨fun hnone => ?_, fun o ho => ?_⟩
  · rw [hnone, Program.alone]
  obtain rfl : o.id = id := Table.key_of_get? ho
  rw [ho, outcome_bind, outcome_throwIf]
  refine ⟨fun hstate => ?_, fun hstate => ?_⟩
  · simp only [if_pos hstate, Program.alone]
  simp only [if_neg hstate]
  rw [outcome_bind, outcome_throwIf]
  refine ⟨fun hgateway => ?_, fun hgateway => ?_⟩
  · have hgateway' : o.sellProviderName ∉ (services.answers w o.id).cryptoRemittanceGateways := hgateway
    simp only [if_pos hgateway', Program.alone]
  have hgateway' : ¬ o.sellProviderName ∉ (services.answers w o.id).cryptoRemittanceGateways :=
    hgateway
  simp only [if_neg hgateway']
  have hget : (services.answers w o.id).getCryptoRemittanceById =
      services.getCryptoRemittanceById.map fun read =>
        (w.exchange.get? o.sellProviderOrderId).map fun p =>
          (p.status read.1, p.executed, read.2) := by
    simp only [PendingServices.answers, ho, Option.bind_some]
  rw [hget, outcome_bind, outcome_call]
  refine ⟨fun e he => ?_, fun read hread => ?_⟩
  · rw [he]
    rfl
  rw [hread, outcome_bind, outcome_orThrow]
  refine ⟨fun hnone => ?_, fun p hp => ?_⟩
  · rw [hnone]
    rfl
  simp only [Except.map, hp, Option.map_some]
  have hexecute : (w.execute o.sellProviderOrderId services.meanwhile).rows = w.rows := by
    rw [World.execute, hp]
    rfl
  have hp' : (w.execute o.sellProviderOrderId services.meanwhile).exchange.get?
      o.sellProviderOrderId = some (p.execute services.meanwhile) := by
    rw [World.execute, hp]
    have hkey : p.providerOrderId = o.sellProviderOrderId := Table.key_of_get? hp
    exact Table.get?_set_self hp hkey
  rw [outcome_bind, outcome_modify, outcome_bind]
  refine Outcome.mono (outcome_deleteRest_answers (o := o) ho hp hp' ?_ ?_) ?_ ?_
  · rfl
  · rfl
  · rintro _ w' ⟨hdeletes, hrows'⟩
    simp only [not_not.mpr hdeletes, if_false]
    rw [outcome_bind, outcome_orThrow, Program.alone]
    refine ⟨fun hnone => ?_, fun bot hbot => ?_⟩
    · have hnone' : w.rows.botOtcs.get? o.botOtc = none := hnone
      rw [hnone', Program.alone]
    have hbot' : w.rows.botOtcs.get? o.botOtc = some bot := hbot
    rw [hbot', ← hrows'.trans hexecute]
    split
    · rfl
    · rfl
  · intro _ _ hdeletes
    simp only [if_pos hdeletes, Program.alone]

end

/-! A bot that failed, and is to be started again. -/

def failedRows : Rows :=
  ⟨Table.empty.upsert { spreadBot with status := .ERROR }, Table.empty⟩

/-- The cron starts the bot, and the spread bot runs. -/
def startAndExecute : Bool → Writer
  | false => .startBot 1 .ERROR
  | true => .executeBot spreadServices 1 1 1

/-- The spread bot runs after the cron has started the bot. -/
theorem startAndExecute_fresh :
    Along Sessions.step Sessions.Fresh (.init failedRows fun i => (startAndExecute i).program)
      [false, false, true, true, true] :=
  ⟨(fun _ h => by cases h), fun _ _ => ⟨trivial, rfl⟩, (fun _ h => by cases h),
    (fun _ h => by cases h), fun _ _ => ⟨⟨trivial, rfl⟩, rfl⟩, trivial⟩

theorem balance_started :
    ∃ order,
      order.Perm (sideBySide startAndExecute failedRows [false, false, true, true, true]).stored ∧
      (sideBySide startAndExecute failedRows [false, false, true, true, true]).store.balance 1 =
        (serially startAndExecute failedRows order).balance 1 :=
  balance_serial startAndExecute_fresh 1

/-- The cron starts the bot with the balance that it read before an order was placed. -/
theorem balance_lost :
    ¬ ∀ (ι : Type) [DecidableEq ι] (writers : ι → Writer) (s : Rows) (is : List ι) (botOtc : Uuid),
      ∃ order, order.Perm (sideBySide writers s is).stored ∧
        (sideBySide writers s is).store.balance botOtc =
          (serially writers s order).balance botOtc := by
  intro h
  obtain ⟨order, horder, hbalance⟩ :=
    h Bool startAndExecute failedRows [false, true, true, true, false] 1
  have hserial : ∀ a b, [a, b].Perm [true, false] →
      (serially startAndExecute failedRows [a, b]).balance 1 = some 90 := by decide +kernel
  obtain ⟨a, b, rfl⟩ := List.length_eq_two.mp horder.length_eq
  rw [hserial a b horder] at hbalance
  exact absurd hbalance (by decide +kernel)

end ZroServices.OtcBot
