import ZroServices.Foundation.Attempt
import ZroServices.OtcBot.Domain

/-!
# OTC bot — a sold order is hedged once

The handler of the sold event books the sale as a remittance and an order of the OTC service, then
creates the order that buys back, each under a new id, and stores the bot order FILLED last.  That
state is all that says whether it was done: when something fails after the remittance is there, the
next delivery books the sale again.

* `hedgedOnce_iff`: the sale is booked once and bought back once in every state of a run, and
  completely when a delivery succeeds, if and only if the first delivery that reaches the OTC
  service succeeds, or is the only one.
-/

namespace ZroServices.OtcBot

open Foundation

/-! ### Deliveries -/

/-- A delivery of the sold event, and whether the rows that its handler wrote are committed. -/
structure SoldDelivery where
  services : SoldServices
  committed : Bool

/-- The state after a delivery, and whether that succeeded. -/
structure Served where
  world : World
  succeeded : Bool

def SoldDelivery.step (system : SystemId) (id : Uuid) (s : Served) (d : SoldDelivery) : Served :=
  match handleSoldBotOtcOrder d.services system id s.world with
  | .ok _ w' => if d.committed then ⟨w', true⟩ else ⟨s.world.rollback w', false⟩
  | .error _ w' => ⟨s.world.rollback w', false⟩

/-! ### What there is for a bot order -/

/-- The filled sell remittances of a bot order. -/
def World.sellRemittances (w : World) (id : Uuid) :
    List (Created CreateCryptoRemittanceServiceRequest) :=
  w.cryptoRemittances.filter fun x =>
    x.botOtcOrder = id ∧ x.row.side = .SELL ∧ x.row.status = .FILLED

/-- The pending buy orders of a bot order. -/
def World.buyOrders (w : World) (id : Uuid) : List (Created CreateCryptoOrderServiceRequest) :=
  w.cryptoOrders.filter fun x => x.botOtcOrder = id ∧ x.row.side = .BUY ∧ x.row.state = .PENDING

/-- One remittance and one buy order are there, and the bot order refers to both. -/
structure Hedged (w : World) (id : Uuid) : Prop where
  hedged : ∃ order remittance sellOrder buyOrder,
    w.botOtcOrders.get? id = some order ∧ order.state = .FILLED ∧
      w.sellRemittances id = [remittance] ∧ w.buyOrders id = [buyOrder] ∧
      sellOrder ∈ w.cryptoOrders ∧ order.sellOrder = some sellOrder.row.id ∧
      sellOrder.row.cryptoRemittance = some remittance.row.id ∧
      order.buyOrder = some buyOrder.row.id

/-- The sale is booked once at most, and bought back once at most, and both when a delivery
succeeded. -/
structure HedgedOnce (id : Uuid) (s : Served) : Prop where
  remittances : (s.world.sellRemittances id).length ≤ 1
  buyOrders : (s.world.buyOrders id).length ≤ 1
  hedged : s.succeeded → Hedged s.world id

/-- A sold bot order of which nothing was booked yet. -/
structure Unbooked (w : World) (id : Uuid) (order : BotOtcOrder) : Prop where
  row : w.botOtcOrders.get? id = some order
  sold : order.state = .SOLD
  remittances : w.sellRemittances id = []
  buyOrders : w.buyOrders id = []

/-- The delivery books the sale, if that is still to be done. -/
def BotOtcOrder.books (order : BotOtcOrder) (d : SoldDelivery) : Bool :=
  order.sellExecutedAmount.getD 0 ≠ 0 && d.services.createCryptoRemittance.arrives

/-- Every call is answered, and the rows are committed. -/
def SoldDelivery.completes (d : SoldDelivery) : Bool :=
  d.services.createCryptoRemittance.isAnswered && d.services.createSellCryptoOrder.isAnswered &&
    d.services.createBuyCryptoOrder.isAnswered && d.committed

/-! ### What a delivery does -/

section

variable {w w' : World} {id : Uuid} {order : BotOtcOrder} {system : SystemId}

theorem lt_uuidV4_of_remittance {x : Created CreateCryptoRemittanceServiceRequest}
    (h : x ∈ w.cryptoRemittances) : x.row.id < w.uuidV4 :=
  lt_fresh (List.mem_append_left _ (List.mem_append_right _ (List.mem_map_of_mem h)))

theorem lt_uuidV4_of_order {x : Created CreateCryptoOrderServiceRequest}
    (h : x ∈ w.cryptoOrders) : x.row.id < w.uuidV4 :=
  lt_fresh (List.mem_append_right _ (List.mem_map_of_mem h))

section

variable {P : Unit → World → Prop} {E : Exception → World → Prop} {fate : Fate Exception}

/-- A remittance under a new id. -/
theorem outcome_createCryptoRemittance {x : Created CreateCryptoRemittanceServiceRequest}
    (hx : x.row.id = w.uuidV4) :
    Outcome (createCryptoRemittance fate x) w P E ↔
      (x.row.amount ≠ 0 →
        (fate = .answered → P () { w with cryptoRemittances := w.cryptoRemittances ++ [x] }) ∧
          ∀ e, fate = .lost e → E e { w with cryptoRemittances := w.cryptoRemittances ++ [x] }) ∧
        (∀ e, fate = .refused e → E e w) ∧
          (fate.arrives → x.row.amount = 0 → E (.missingData ["Amount"]) w) := by
  have hnone : w.cryptoRemittances.find? (fun y => y.row.id = x.row.id) = none := by
    refine List.find?_eq_none.mpr fun y hy => ?_
    rw [hx, decide_eq_true_iff]
    exact (lt_uuidV4_of_remittance hy).ne
  rw [createCryptoRemittance, outcome_remote]
  by_cases hzero : x.row.amount = 0
  · simp [check, hzero, bind, Except.bind]
  · simp [check, hzero, hnone, bind, Except.bind, pure, Except.pure]

/-- An order under a new id. -/
theorem outcome_createCryptoOrder {x : Created CreateCryptoOrderServiceRequest}
    (hx : x.row.id = w.uuidV4) :
    Outcome (createCryptoOrder fate x) w P E ↔
      (x.row.amount ≠ 0 →
        (fate = .answered → P () { w with cryptoOrders := w.cryptoOrders ++ [x] }) ∧
          ∀ e, fate = .lost e → E e { w with cryptoOrders := w.cryptoOrders ++ [x] }) ∧
        (∀ e, fate = .refused e → E e w) ∧
          (fate.arrives → x.row.amount = 0 → E (.missingData ["Amount"]) w) := by
  have hnone : w.cryptoOrders.find? (fun y => y.row.id = x.row.id) = none := by
    refine List.find?_eq_none.mpr fun y hy => ?_
    rw [hx, decide_eq_true_iff]
    exact (lt_uuidV4_of_order hy).ne
  rw [createCryptoOrder, outcome_remote]
  by_cases hzero : x.row.amount = 0
  · simp [check, hzero, bind, Except.bind]
  · simp [check, hzero, hnone, bind, Except.bind, pure, Except.pure]

end

/-- A row that was created for an order. -/
structure Created.Of {ρ : Type} (x : Created ρ) (id : Uuid) (order : BotOtcOrder) : Prop where
  botOtc : x.botOtc = order.botOtc
  botOtcOrder : x.botOtcOrder = id

/-- What a delivery leaves that booked the sale and did not get to its end. -/
structure Halfway (id : Uuid) (order : BotOtcOrder) (w w' : World) : Prop where
  botOtcs : w'.botOtcs = w.botOtcs
  botOtcOrders : w'.botOtcOrders = w.botOtcOrders
  exchange : w'.exchange = w.exchange
  remittances : ∃ r, w'.sellRemittances id = w.sellRemittances id ++ [r]
  cryptoOrders : ∃ l, w'.cryptoOrders = w.cryptoOrders ++ l ∧ ∀ x ∈ l, x.Of id order
  buyOrders : w'.buyOrders id = w.buyOrders id ∨ ∃ b, w'.buyOrders id = w.buyOrders id ++ [b]

/-- The rows that a delivery created which booked the sale and the buy order. -/
structure Booking (id : Uuid) (order : BotOtcOrder)
    (r : Created CreateCryptoRemittanceServiceRequest)
    (s b : Created CreateCryptoOrderServiceRequest) (w w' : World) : Prop where
  botOtcs : w'.botOtcs = w.botOtcs
  botOtcOrders : w'.botOtcOrders = w.botOtcOrders.set
    { order with sellOrder := some s.row.id, buyOrder := some b.row.id, state := .FILLED }
  exchange : w'.exchange = w.exchange
  remittances : w'.sellRemittances id = w.sellRemittances id ++ [r]
  cryptoOrders : w'.cryptoOrders = w.cryptoOrders ++ [s, b]
  sell : s.Of id order ∧ s.row.side = .SELL
  buy : b.Of id order ∧ b.row.side = .BUY ∧ b.row.amount = order.sellExecutedAmount.getD 0
  buyOrders : w'.buyOrders id = w.buyOrders id ++ [b]
  cryptoRemittance : s.row.cryptoRemittance = some r.row.id

def Booked (id : Uuid) (order : BotOtcOrder) (w w' : World) : Prop :=
  ∃ r s b, Booking id order r s b w w'

variable (system) in
/-- A delivery of the event of a sold order. -/
theorem outcome_handleSoldBotOtcOrder {d : SoldDelivery}
    (hrow : w.botOtcOrders.get? id = some order) (hsold : order.state = .SOLD) :
    Outcome (handleSoldBotOtcOrder d.services system id) w
      (fun _ w' => order.books d ∧ d.completes = d.committed ∧ Booked id order w w')
      (fun _ w' => (order.books d = false ∧ w' = w) ∨
        order.books d ∧ d.completes = false ∧ Halfway id order w w') := by
  -- the rows that the OTC service has after each of the three calls
  set r : Created CreateCryptoRemittanceServiceRequest :=
    ⟨order.botOtc, id, order.sellCryptoRemittance w.uuidV4⟩
  set w₁ : World := { w with cryptoRemittances := w.cryptoRemittances ++ [r] }
  set s : Created CreateCryptoOrderServiceRequest :=
    ⟨order.botOtc, id, order.sellCryptoOrder system w₁.uuidV4 r.row.id⟩
  set w₂ : World := { w₁ with cryptoOrders := w₁.cryptoOrders ++ [s] }
  set b : Created CreateCryptoOrderServiceRequest :=
    ⟨order.botOtc, id, order.buyCryptoOrder system w₂.uuidV4⟩
  set w₃ : World := { w₂ with cryptoOrders := w₂.cryptoOrders ++ [b] }
  have hremittances : w₁.sellRemittances id = w.sellRemittances id ++ [r] := by
    simp [World.sellRemittances, w₁, r, BotOtcOrder.sellCryptoRemittance]
  have hsell : w₂.buyOrders id = w.buyOrders id := by
    simp [World.buyOrders, w₂, w₁, s, BotOtcOrder.sellCryptoOrder]
  have hbuy : w₃.buyOrders id = w.buyOrders id ++ [b] := by
    rw [← hsell]
    simp [World.buyOrders, w₃, b, BotOtcOrder.buyCryptoOrder]
  have hboth : w₃.cryptoOrders = w.cryptoOrders ++ [s, b] := List.append_assoc _ [s] [b]
  have h₁ : Halfway id order w w₁ :=
    ⟨rfl, rfl, rfl, ⟨r, hremittances⟩, ⟨[], (List.append_nil _).symm, (fun _ h => by cases h)⟩, .inl rfl⟩
  have h₂ : Halfway id order w w₂ :=
    ⟨rfl, rfl, rfl, ⟨r, hremittances⟩, ⟨[s], rfl, fun x hx => by
      rw [List.mem_singleton.mp hx]
      exact ⟨rfl, rfl⟩⟩, .inl hsell⟩
  have h₃ : Halfway id order w w₃ :=
    ⟨rfl, rfl, rfl, ⟨r, hremittances⟩, ⟨[s, b], hboth, fun x hx => by
      rcases List.mem_pair.mp hx with rfl | rfl
      · exact ⟨rfl, rfl⟩
      · exact ⟨rfl, rfl⟩⟩, .inr ⟨b, hbuy⟩⟩
  rw [handleSoldBotOtcOrder, outcome_bind, outcome_get, outcome_bind, outcome_orThrow]
  refine ⟨fun hnone => absurd (hrow.symm.trans hnone) (by rintro ⟨⟩), fun order' horder => ?_⟩
  obtain rfl := Option.some.inj (hrow.symm.trans horder)
  simp only [hsold]
  rw [outcome_bind, outcome_createCryptoRemittance (x := r) rfl]
  refine ⟨fun hamount => ⟨fun hr => ?_, fun e hr => ?_⟩, fun e hr => ?_, fun harrives hzero => ?_⟩
  · have hquantity : order.sellExecutedAmount.getD 0 ≠ 0 := hamount
    have hbooks : order.books d := by
      simpa [BotOtcOrder.books, hr, Fate.arrives] using hquantity
    have hs₀ : s.row.amount ≠ 0 := hamount
    have hb₀ : b.row.amount ≠ 0 := hamount
    rw [outcome_bind, outcome_get, outcome_bind, outcome_createCryptoOrder (x := s) rfl]
    refine ⟨fun _ => ⟨fun hs => ?_, fun e hs => ?_⟩, fun e hs => ?_, fun _ h => absurd h hs₀⟩
    · rw [outcome_bind, outcome_get, outcome_bind, outcome_createCryptoOrder (x := b) rfl]
      refine ⟨fun _ => ⟨fun hb => ?_, fun e hb => ?_⟩, fun e hb => ?_, fun _ h => absurd h hb₀⟩
      · rw [updateBotOtcOrder, outcome_modify]
        exact ⟨hbooks, by simp [SoldDelivery.completes, Fate.isAnswered, hr, hs, hb], r, s, b, rfl, rfl,
          rfl, hremittances, hboth, ⟨⟨rfl, rfl⟩, rfl⟩, ⟨⟨rfl, rfl⟩, rfl, rfl⟩, hbuy, rfl⟩
      · exact .inr ⟨hbooks, by simp [SoldDelivery.completes, Fate.isAnswered, hb], h₃⟩
      · exact .inr ⟨hbooks, by simp [SoldDelivery.completes, Fate.isAnswered, hb], h₂⟩
    · exact .inr ⟨hbooks, by simp [SoldDelivery.completes, Fate.isAnswered, hs], h₂⟩
    · exact .inr ⟨hbooks, by simp [SoldDelivery.completes, Fate.isAnswered, hs], h₁⟩
  · refine .inr ⟨?_, by simp [SoldDelivery.completes, Fate.isAnswered, hr], h₁⟩
    have hquantity : order.sellExecutedAmount.getD 0 ≠ 0 := hamount
    simpa [BotOtcOrder.books, hr, Fate.arrives] using hquantity
  · exact .inl ⟨by simp [BotOtcOrder.books, hr, Fate.arrives], rfl⟩
  · have hnothing : order.sellExecutedAmount.getD 0 = 0 := hzero
    exact .inl ⟨by simp [BotOtcOrder.books, hnothing], rfl⟩

variable (system) in
/-- What a delivery does for a sold order. -/
theorem step_sold (hrow : w.botOtcOrders.get? id = some order) (hsold : order.state = .SOLD)
    (succeeded : Bool) (d : SoldDelivery) :
    (order.books d = false ∧ SoldDelivery.step system id ⟨w, succeeded⟩ d = ⟨w, false⟩) ∨
      order.books d ∧ ∃ w', SoldDelivery.step system id ⟨w, succeeded⟩ d = ⟨w', d.completes⟩ ∧
        (d.completes = false → Halfway id order w w') ∧ (d.completes → Booked id order w w') := by
  have h := outcome_handleSoldBotOtcOrder system (d := d) hrow hsold
  rw [SoldDelivery.step]
  cases hx : handleSoldBotOtcOrder d.services system id w with
  | ok a w' =>
      obtain ⟨hbooks, hcompletes, hbooked⟩ := (outcome_of_ok hx).mp h
      refine .inr ⟨hbooks, ?_⟩
      rw [hcompletes]
      cases d.committed with
      | true => exact ⟨w', rfl, (by rintro ⟨⟩), fun _ => hbooked⟩
      | false =>
          obtain ⟨r, s, b, hbooked⟩ := hbooked
          refine ⟨w.rollback w', rfl, fun _ => ⟨rfl, rfl, hbooked.exchange, ⟨r, hbooked.remittances⟩,
            ⟨[s, b], hbooked.cryptoOrders, fun x hx => ?_⟩, .inr ⟨b, hbooked.buyOrders⟩⟩, (by rintro ⟨⟩)⟩
          rcases List.mem_pair.mp hx with rfl | rfl
          · exact hbooked.sell.1
          · exact hbooked.buy.1
  | error e w' =>
      rcases (outcome_of_error hx).mp h with ⟨hno, rfl⟩ | ⟨hbooks, hcompletes, hhalf⟩
      · exact .inl ⟨hno, rfl⟩
      · refine .inr ⟨hbooks, w.rollback w', ?_, ?_, ?_⟩
        · rw [hcompletes]
        · exact fun _ => ⟨rfl, rfl, hhalf.exchange, hhalf.remittances, hhalf.cryptoOrders,
            hhalf.buyOrders⟩
        · rw [hcompletes]
          rintro ⟨⟩

variable (system) in
/-- A delivery does nothing for an order that is filled. -/
theorem step_filled (hrow : w.botOtcOrders.get? id = some order) (hfilled : order.state = .FILLED)
    (succeeded : Bool) (d : SoldDelivery) :
    (SoldDelivery.step system id ⟨w, succeeded⟩ d).world = w := by
  have hx : handleSoldBotOtcOrder d.services system id w = .ok () w := by
    rw [handleSoldBotOtcOrder, get_bind_apply, hrow, some_bind_apply]
    simp only [hfilled]
    rfl
  rw [SoldDelivery.step, hx]
  cases d.committed <;> rfl

end

/-! ### Runs -/

/-- The bot order is as it was before a run, or it is filled. -/
def BotOtcOrder.Same (order : BotOtcOrder) (id : Uuid) (s : Served) : Prop :=
  ∃ row, s.world.botOtcOrders.get? id = some row ∧ (row = order ∨ row.state = .FILLED)

/-- The bot order is filled. -/
def Served.filled (id : Uuid) (s : Served) : Bool :=
  (s.world.botOtcOrders.get? id).any fun row => row.state = .FILLED

/-- What there is while the sale is booked once at most. -/
inductive Hedging (id : Uuid) (order : BotOtcOrder) (s : Served) : Prop
  | unbooked (h : Unbooked s.world id order) (succeeded : s.succeeded = false)
  | halfway {r : Created CreateCryptoRemittanceServiceRequest}
      (row : s.world.botOtcOrders.get? id = some order) (sold : order.state = .SOLD)
      (remittances : s.world.sellRemittances id = [r])
      (buyOrders : (s.world.buyOrders id).length ≤ 1) (succeeded : s.succeeded = false)
  | hedged (h : Hedged s.world id)

section

variable {system : SystemId} {id : Uuid} {order : BotOtcOrder} {s : Served} {d : SoldDelivery}

theorem Booked.row {w w' : World} (h : Booked id order w w')
    (hrow : w.botOtcOrders.get? id = some order) :
    ∃ row, w'.botOtcOrders.get? id = some row ∧ row.state = .FILLED := by
  obtain ⟨r, s, b, h⟩ := h
  have hkey : order.id = id := Table.key_of_get? hrow
  refine ⟨{ order with
    sellOrder := some s.row.id, buyOrder := some b.row.id, state := .FILLED }, ?_, rfl⟩
  rw [h.botOtcOrders]
  exact Table.get?_set_self hrow hkey

variable (system) in
/-- The bot order stays, or is filled. -/
theorem BotOtcOrder.Same.step (hsold : order.state = .SOLD) (h : order.Same id s) :
    order.Same id (SoldDelivery.step system id s d) := by
  obtain ⟨row, hrow, rfl | hfilled⟩ := h
  · rcases step_sold system hrow hsold s.succeeded d with
      ⟨-, hstep⟩ | ⟨-, w', hstep, hhalf, hbooked⟩
    · rw [hstep]
      exact ⟨row, hrow, .inl rfl⟩
    · rw [hstep]
      cases hc : d.completes with
      | false => exact ⟨row, (hhalf hc).botOtcOrders ▸ hrow, .inl rfl⟩
      | true =>
          obtain ⟨row', hrow', hfilled⟩ := (hbooked hc).row hrow
          exact ⟨row', hrow', .inr hfilled⟩
  · refine ⟨row, ?_, .inr hfilled⟩
    rw [step_filled system hrow hfilled]
    exact hrow

/-- Every delivery is an attempt to book the sale. -/
theorem BotOtcOrder.Same.attempt (hsold : order.state = .SOLD) (h : order.Same id s) :
    (⟨((SoldDelivery.step system id s d).world.sellRemittances id).length,
        (SoldDelivery.step system id s d).filled id⟩ : Attempts) =
      attempt order.books SoldDelivery.completes
        ⟨(s.world.sellRemittances id).length, s.filled id⟩ d := by
  obtain ⟨row, hrow, rfl | hfilled⟩ := h
  · have hunfilled : s.filled id = false := by simp [Served.filled, hrow, hsold]
    rw [hunfilled, Foundation.attempt]
    rcases step_sold system hrow hsold s.succeeded d with
      ⟨hno, hstep⟩ | ⟨hbooks, w', hstep, hhalf, hbooked⟩
    · rw [hstep, hno]
      exact congrArg _ hunfilled
    · rw [hstep, hbooks]
      cases hc : d.completes with
      | false =>
          obtain ⟨r, hr⟩ := (hhalf hc).remittances
          simp [Served.filled, hr, (hhalf hc).botOtcOrders, hrow, hsold]
      | true =>
          obtain ⟨_, _, _, hb⟩ := hbooked hc
          obtain ⟨row', hrow', hfilled⟩ := (hbooked hc).row hrow
          simp [Served.filled, hb.remittances, hrow', hfilled]
  · have hdone : s.filled id = true := by simp [Served.filled, hrow, hfilled]
    have hworld := step_filled system hrow hfilled s.succeeded d
    rw [hdone, Foundation.attempt, Served.filled, hworld, ← Served.filled, hdone]
    rfl

theorem Hedging.hedgedOnce (h : Hedging id order s) : HedgedOnce id s := by
  cases h with
  | unbooked h succeeded =>
      refine ⟨by simp [h.remittances], by simp [h.buyOrders], ?_⟩
      rw [succeeded]
      rintro ⟨⟩
  | halfway _ _ remittances buyOrders succeeded =>
      refine ⟨by simp [remittances], buyOrders, ?_⟩
      rw [succeeded]
      rintro ⟨⟩
  | hedged h =>
      obtain ⟨_, _, _, _, -, -, hr, hb, -⟩ := h.hedged
      exact ⟨by simp [hr], by simp [hb], fun _ => h⟩

/-- A delivery after which the sale is booked once at most. -/
theorem Hedging.step (h : Hedging id order s)
    (honce : ((SoldDelivery.step system id s d).world.sellRemittances id).length ≤ 1) :
    Hedging id order (SoldDelivery.step system id s d) := by
  obtain ⟨w, succeeded⟩ := s
  cases h with
  | unbooked h =>
      rcases step_sold system h.row h.sold succeeded d with
        ⟨-, hstep⟩ | ⟨-, w', hstep, hhalf, hbooked⟩
      · rw [hstep]
        exact .unbooked h rfl
      · rw [hstep]
        cases hc : d.completes with
        | false =>
            obtain ⟨r, hr⟩ := (hhalf hc).remittances
            rw [h.remittances] at hr
            refine .halfway ((hhalf hc).botOtcOrders ▸ h.row) h.sold hr ?_ rfl
            rcases (hhalf hc).buyOrders with hb | ⟨b, hb⟩
            · simp [hb, h.buyOrders]
            · simp [hb, h.buyOrders]
        | true =>
            obtain ⟨r, s, b, hbooking⟩ := hbooked hc
            have hr := hbooking.remittances
            have hb := hbooking.buyOrders
            have hs : s ∈ w'.cryptoOrders := by simp [hbooking.cryptoOrders]
            rw [h.remittances] at hr
            rw [h.buyOrders] at hb
            refine .hedged ⟨{ order with
              sellOrder := some s.row.id, buyOrder := some b.row.id, state := .FILLED },
              r, s, b, ?_, rfl, hr, hb, hs, rfl, hbooking.cryptoRemittance, rfl⟩
            have hkey : order.id = id := Table.key_of_get? h.row
            rw [hbooking.botOtcOrders]
            exact Table.get?_set_self h.row hkey
  | @halfway r row sold remittances buyOrders =>
      -- another remittance would be the second
      have hmore {r' : Created CreateCryptoRemittanceServiceRequest} {w' : World}
          (hstep : SoldDelivery.step system id ⟨w, succeeded⟩ d = ⟨w', d.completes⟩)
          (hr' : w'.sellRemittances id = World.sellRemittances w id ++ [r']) : False := by
        rw [hstep, hr', show World.sellRemittances w id = [r] from remittances] at honce
        exact absurd honce (by simp)
      rcases step_sold system row sold succeeded d with
        ⟨-, hstep⟩ | ⟨-, w', hstep, hhalf, hbooked⟩
      · rw [hstep]
        exact .halfway row sold remittances buyOrders rfl
      · cases hc : d.completes with
        | false =>
            obtain ⟨r', hr'⟩ := (hhalf hc).remittances
            exact (hmore hstep hr').elim
        | true =>
            obtain ⟨r', _, _, hbooking⟩ := hbooked hc
            exact (hmore hstep hbooking.remittances).elim
  | hedged h =>
      obtain ⟨row, _, _, _, hrow, hfilled, -⟩ := h.hedged
      refine .hedged ?_
      rw [step_filled system hrow hfilled]
      exact h

/-- In every state of a run the sale of a bot order is booked once at most and bought back once at
most, and a delivery that succeeds leaves both, if and only if the first delivery that books the sale
completes, or no other delivery would book it. -/
theorem hedgedOnce_iff {w : World} (hunbooked : Unbooked w id order) (ds : List SoldDelivery) :
    (∀ ms, ms <+: ds → HedgedOnce id (run (SoldDelivery.step system id) ⟨w, false⟩ ms)) ↔
      MarksFirst order.books SoldDelivery.completes ds := by
  have hcounted := counted_le_one_iff (I := order.Same id)
    (fun s : Served => (s.world.sellRemittances id).length) (Served.filled id)
    (fun _ _ h => h.step system hunbooked.sold) (fun _ _ h => h.attempt hunbooked.sold)
    (s := ⟨w, false⟩) ⟨order, hunbooked.row, .inl rfl⟩ (by simp [hunbooked.remittances])
    (by simp [Served.filled, hunbooked.row, hunbooked.sold]) ds
  refine Iff.trans ⟨fun h ms hms => (h ms hms).remittances, fun h ms hms => ?_⟩ hcounted
  have hedging : Hedging id order (run (SoldDelivery.step system id) ⟨w, false⟩ ms) :=
    run_invariant_of_prefix (P := fun s => (s.world.sellRemittances id).length ≤ 1)
      (fun _ _ h => h.step) (.unbooked hunbooked rfl) fun ns hns => h ns (hns.trans hms)
  exact hedging.hedgedOnce

end

/-! The bot order 4 sold 10 BTC. -/

def soldBotOtcOrder : BotOtcOrder where
  id := 4
  botOtc := 1
  state := .SOLD
  baseCurrency := ⟨"BTC", .CRYPTO⟩
  quoteCurrency := ⟨"BRL", .FIAT⟩
  market := ⟨"BTCBRL", 8, false, none, none, none, none, none, none, none⟩
  amount := 10
  type := .LIMIT
  sellStatus := .FILLED
  sellPrice := 500
  sellStopPrice := none
  sellValidUntil := none
  sellProvider := 2
  sellProviderOrderId := 9
  sellProviderName := "BINANCE"
  sellExecutedPrice := some 500
  sellExecutedAmount := some 10
  sellOrder := none
  buyOrder := none

def soldWorld : World := ⟨Table.empty, Table.empty.upsert soldBotOtcOrder, [], [], Table.empty⟩

/-- The OTC service answers, but for its last call, which meets a fate. -/
def soldDelivery (createBuyCryptoOrder : Fate Exception) : SoldDelivery :=
  ⟨⟨.answered, .answered, createBuyCryptoOrder⟩, true⟩

theorem soldWorld_unbooked : Unbooked soldWorld 4 soldBotOtcOrder where
  row := rfl
  sold := rfl
  remittances := rfl
  buyOrders := rfl

theorem hedgedOnce_answered :
    (∀ ms, ms <+: [soldDelivery .answered, soldDelivery .answered] →
        HedgedOnce 4 (run (SoldDelivery.step 3 4) ⟨soldWorld, false⟩ ms)) ↔
      MarksFirst soldBotOtcOrder.books SoldDelivery.completes
        [soldDelivery .answered, soldDelivery .answered] :=
  hedgedOnce_iff soldWorld_unbooked _

/-- The answer to the last call is lost, and the sale is booked and bought back twice. -/
theorem hedged_twice :
    ¬ ∀ (system : SystemId) (id : Uuid) (w : World) (order : BotOtcOrder), Unbooked w id order →
      ∀ ds, HedgedOnce id (run (SoldDelivery.step system id) ⟨w, false⟩ ds) := by
  intro h
  have honce := h 3 4 soldWorld soldBotOtcOrder soldWorld_unbooked
    [soldDelivery (.lost (.service "timeout")), soldDelivery .answered]
  exact absurd honce.buyOrders (by decide +kernel)

end ZroServices.OtcBot
