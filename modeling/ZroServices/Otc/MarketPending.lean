import ZroServices.Otc.SyncMarketPending

/-!
# OTC — each crypto order is executed once

A step that takes a system does one of four things (`Effect`): nothing, it reconciles orders that
cancel, it places an order of which nothing is reported executed, or it places an order, confirms
the orders it covers and keeps what is left pending.  Whatever the answers, the stores agree with
the answers (`Books`).  They agree with the exchange as long as no order that was placed can be
executed further than its answer says.

* `covered_iff`: every state of a run covers each order once if and only if each order that the
  run places is answered with a final status and its quantity, or as executed in whole;
* `waiting_executed_twice`: an order that waits at the exchange is sent again.
-/

namespace ZroServices.Otc.CryptoOrders

open Foundation

/-! ### What each order is covered by -/

/-- A market order of the currency and the system. -/
def Of (b : CurrencyTag) (system : SystemId) (o : CryptoOrder) : Prop :=
  o.type = .MARKET ∧ o.baseCurrency = b ∧ o.system = system

instance (b : CurrencyTag) (system : SystemId) (o : CryptoOrder) : Decidable (Of b system o) :=
  inferInstanceAs (Decidable (_ ∧ _))

/-- What an order asks for, unless it carries a remainder on. -/
def orderedOf (b : CurrencyTag) (system : SystemId) (o : CryptoOrder) : ℤ :=
  if Of b system o ∧ o.remainingCryptoRemittance = none then o.signed else 0

/-- What a pending order asks for. -/
def pendingOf (b : CurrencyTag) (system : SystemId) (o : CryptoOrder) : ℤ :=
  if Of b system o ∧ o.state = .PENDING then o.signed else 0

/-- What the market orders ask for. -/
def ordered (b : CurrencyTag) (system : SystemId) (w : World) : ℤ :=
  w.cryptoOrders.total (orderedOf b system)

/-- What is left pending. -/
def pending (b : CurrencyTag) (system : SystemId) (w : World) : ℤ :=
  w.cryptoOrders.total (pendingOf b system)

/-- The sum of `f` over the orders that the exchange holds. -/
def placements (b : CurrencyTag) (system : SystemId) (f : Placement → ℤ) (w : World) : ℤ :=
  (w.exchange.map fun p => if p.baseCurrency = b ∧ p.system = system then f p else 0).sum

/-- What the exchange executed. -/
def executed (b : CurrencyTag) (system : SystemId) (w : World) : ℤ :=
  placements b system Placement.signed w

/-- What the exchange may still execute. -/
def live (b : CurrencyTag) (system : SystemId) (w : World) : ℤ :=
  placements b system (fun p => p.side.signed p.rest) w

/-- What an order with the given link asks for. -/
def linkedOf (link : CryptoOrder → Option Uuid) (id : Uuid) (o : CryptoOrder) : ℤ :=
  if link o = some id then o.signed else 0

/-- What the orders that a remittance confirmed ask for. -/
def covered (id : Uuid) (w : World) : ℤ :=
  w.cryptoOrders.total (linkedOf CryptoOrder.cryptoRemittance id)

/-- What a remittance left to be executed later. -/
def remaining (id : Uuid) (w : World) : ℤ :=
  w.cryptoOrders.total (linkedOf CryptoOrder.remainingCryptoRemittance id)

/-- What the orders that cancelled each other ask for. -/
def netted (id : Uuid) (w : World) : ℤ :=
  w.cryptoOrders.total (linkedOf CryptoOrder.reconciledId id)

/-- The order has a size that its market takes. -/
def Placement.Sized (p : Placement) : Prop :=
  0 < p.amount ∧ (∀ m ∈ truthy p.market.minSize, m ≤ p.amount) ∧
    (∀ m ∈ truthy p.market.maxSize, p.amount ≤ m) ∧
    ∀ i ∈ truthy p.market.sizeIncrement, i ∣ p.amount

/-- The state of an order says what covers it. -/
def Settled (o : CryptoOrder) : Prop :=
  (o.state = .PENDING ∧ o.cryptoRemittance = none ∧ o.reconciledId = none) ∨
    (o.state = .CONFIRMED ∧ o.cryptoRemittance.isSome ∧ o.reconciledId = none) ∨
    (o.state = .RECONCILIED ∧ o.cryptoRemittance = none ∧ o.reconciledId.isSome)

/-- Each order is covered once by what was placed, netted or left pending. -/
structure CoveredOnce (w : World) : Prop where
  balanced : ∀ b system, ordered b system w = executed b system w + pending b system w
  /-- What the exchange may still execute is not pending as well. -/
  once : ∀ b system,
    ordered b system w = executed b system w + live b system w + pending b system w
  confirmed : ∀ r ∈ w.cryptoRemittances.rows,
    covered r.id w = r.side.signed r.executedAmount + remaining r.id w
  reconciled : ∀ id, netted id w = 0
  settled : ∀ o ∈ w.cryptoOrders.rows, Settled o
  sized : ∀ p ∈ w.exchange, Placement.Sized p

/-! ### Signed amounts -/

theorem signed_add (side : OrderSide) (m n : ℕ) :
    side.signed (m + n) = side.signed m + side.signed n := by
  cases side with
  | BUY => exact Nat.cast_add m n
  | SELL =>
      simp only [OrderSide.signed]
      omega

theorem signed_eq_zero {side : OrderSide} {n : ℕ} : side.signed n = 0 ↔ n = 0 := by
  cases side <;> simp [OrderSide.signed]

theorem foldl_signed (acc : ℤ) (orders : List CryptoOrder) :
    orders.foldl (fun acc cur => acc + cur.signed) acc
      = acc + (orders.map CryptoOrder.signed).sum := by
  induction orders generalizing acc with
  | nil => simp
  | cons o orders ih => rw [List.foldl_cons, ih, List.map_cons, List.sum_cons, add_assoc]

theorem netAmount_eq (orders : List CryptoOrder) :
    netAmount orders = (orders.map CryptoOrder.signed).sum := by
  rw [netAmount, foldl_signed, zero_add]

/-- The net amount, from its side and its size. -/
theorem signed_netAmount (orders : List CryptoOrder) :
    (netSide orders).signed (netAmount orders).natAbs = netAmount orders := by
  rw [netSide]
  split <;> simp only [OrderSide.signed] <;> omega

/-! ### What a step sends -/

section Sending

variable {env : Env} {orders : List CryptoOrder} {b : CurrencyTag} {system : SystemId} {w : World}
  {amount : ℕ} {side : OrderSide} {q : StreamPair} {id : Uuid} {g : Gateway}
  {r : CreateCryptoRemittanceRequest}

/-- The order that is placed of an amount, and its answer. -/
def answerOf (env : Env) (amount : ℕ) (side : OrderSide) (q : StreamPair) (w : World) :
    Option (Σ r : CreateCryptoRemittanceRequest, CreateCryptoRemittanceResponse r.amount) :=
  match request env amount side q (fresh (w.cryptoRemittances.rows.map (·.id))) with
  | .ok (some (g, r)) =>
      match g.createCryptoRemittance r with
      | .ok created => if created.status = .ERROR then none else some ⟨r, created⟩
      | .error _ => none
  | _ => none

/-- The order that is placed for the orders of a system, and its answer. -/
def answer (env : Env) (orders : List CryptoOrder) (b : CurrencyTag) (w : World) :
    Option (Σ r : CreateCryptoRemittanceRequest, CreateCryptoRemittanceResponse r.amount) :=
  if netAmount orders = 0 then none
  else (quotationFor env b).bind fun q =>
    answerOf env (netAmount orders).natAbs (netSide orders) q w

theorem sized_le (market : CryptoMarket) (amount : ℕ) : sized market amount ≤ amount := by
  rw [sized]
  cases truthy market.maxSize with
  | none =>
      cases truthy market.sizeIncrement with
      | none => exact le_rfl
      | some increment => exact Nat.sub_le _ _
  | some m =>
      cases truthy market.sizeIncrement with
      | none => exact min_le_right m amount
      | some increment => exact (Nat.sub_le _ _).trans (min_le_right m amount)

/-- What is requested: on the side of the orders, and no more than they ask for. -/
theorem request_some (h : request env amount side q id = .ok (some (g, r))) :
    r.id = id ∧ r.baseCurrency = q.baseCurrency ∧ r.side = side ∧ r.amount ≤ amount := by
  rw [request] at h
  split at h
  · cases h
  · split at h
    · cases h
    · split at h
      · cases h
      · rename_i market _
        dsimp only at h
        split at h
        · cases h
        · cases h
          exact ⟨rfl, rfl, rfl, sized_le market amount⟩

/-- A quotation of the base currency is taken. -/
theorem quotationFor_some (h : quotationFor env b = some q) : q.baseCurrency.symbol = b := by
  simp only [quotationFor, Option.bind_eq_bind, Option.bind_eq_some_iff] at h
  obtain ⟨found, -, q', hq', h⟩ := h
  split at h
  · cases h
  · cases h
    rw [bestQuotation] at hq'
    generalize found.composedBy.getD [found.toStreamPair] = streams at hq'
    cases hn : streams.length with
    | zero =>
        rw [hn] at hq'
        cases hq'
    | succ n =>
        rw [hn, orderQuotations] at hq'
        split at hq'
        · cases hq'
        · rename_i stream hfind
          cases hq'
          simpa using List.find?_some hfind

/-- A size that passes the gateway's checks is one that the market takes. -/
theorem verify_ok {u : Unit} (h : g.verify r = .ok u) :
    0 < r.amount ∧ (∀ m ∈ truthy r.market.minSize, m ≤ r.amount) ∧
      (∀ m ∈ truthy r.market.maxSize, r.amount ≤ m) ∧
      ∀ i ∈ truthy r.market.sizeIncrement, i ∣ r.amount := by
  simp only [Gateway.verify, bind_eq_ok, check_eq_ok] at h
  obtain ⟨-, -, -, -, -, hzero, -, hmin, -, hmax, -, hinc, -⟩ := h
  push Not at hmin hmax hinc
  exact ⟨by omega, hmin.2, hmax, fun i hi => Nat.dvd_of_mod_eq_zero (hinc i hi)⟩

/-- The order that is sent for the orders of a system. -/
structure Sent (orders : List CryptoOrder) (b : CurrencyTag) (w : World)
    (r : CreateCryptoRemittanceRequest) : Prop where
  id : r.id = fresh (w.cryptoRemittances.rows.map (·.id))
  baseCurrency : r.baseCurrency.symbol = b
  side : r.side = netSide orders
  le : r.amount ≤ (netAmount orders).natAbs
  sized : ∀ system created, Placement.Sized (placementOf system r created)

/-- What taking a system does to the stores. -/
inductive Effect (env : Env) (orders : List CryptoOrder) (b : CurrencyTag) (system : SystemId)
    (w : World) : World → Prop
  | idle (hanswer : answer env orders b w = none) : Effect env orders b system w w
  | reconciled (hanswer : answer env orders b w = none) (hzero : netAmount orders = 0) :
      Effect env orders b system w (reconcile orders w)
  | placed {g : Gateway} {r : CreateCryptoRemittanceRequest}
      {created : CreateCryptoRemittanceResponse r.amount}
      (hanswer : answer env orders b w = some ⟨r, created⟩) (hsent : Sent orders b w r)
      (hzero : created.executedQuantity.getD 0 = 0) :
      Effect env orders b system w (placed g system r created w)
  | settled {g : Gateway} {q : StreamPair} {r : CreateCryptoRemittanceRequest}
      {created : CreateCryptoRemittanceResponse r.amount}
      (hanswer : answer env orders b w = some ⟨r, created⟩) (hsent : Sent orders b w r)
      (hquoted : q.baseCurrency.symbol = b) :
      Effect env orders b system w
        (settle orders (remittanceOf g r created) q (netSide orders) system
          (netAmount orders).natAbs (placed g system r created w))

/-- What is placed of an amount: nothing, or an order whose answer is stored. -/
theorem process_effect (env : Env) (amount : ℕ) (side : OrderSide) (q : StreamPair)
    (system : SystemId) (w : World) :
    (answerOf env amount side q w = none ∧
      ((∃ e, processNaturalCryptoRemittance env amount side q system w = .error e) ∨
        processNaturalCryptoRemittance env amount side q system w = .ok (none, w))) ∨
    ∃ (g : Gateway) (r : CreateCryptoRemittanceRequest)
      (created : CreateCryptoRemittanceResponse r.amount),
      answerOf env amount side q w = some ⟨r, created⟩ ∧
      request env amount side q (fresh (w.cryptoRemittances.rows.map (·.id))) =
        .ok (some (g, r)) ∧
      g.verify r = .ok () ∧
      processNaturalCryptoRemittance env amount side q system w =
        .ok (some (remittanceOf g r created), placed g system r created w) := by
  rw [answerOf, processNaturalCryptoRemittance]
  cases hr : request env amount side q (fresh (w.cryptoRemittances.rows.map (·.id))) with
  | error e => exact .inl ⟨rfl, .inl ⟨e, rfl⟩⟩
  | ok o =>
      cases o with
      | none => exact .inl ⟨rfl, .inr rfl⟩
      | some gr =>
          obtain ⟨g, r⟩ := gr
          dsimp only
          cases hc : g.createCryptoRemittance r with
          | error e => exact .inl ⟨rfl, .inl ⟨e, by simp [bind, Except.bind, hc]⟩⟩
          | ok created =>
              by_cases herr : created.status = .ERROR
              · refine .inl ⟨if_pos herr, .inl ⟨.cryptoRemittanceNotPlaced r.id, ?_⟩⟩
                simp [bind, Except.bind, hc, herr, throw, throwThe, MonadExceptOf.throw]
              · obtain ⟨u, hverify, -⟩ := bind_eq_ok.mp hc
                refine .inr ⟨g, r, created, if_neg herr, rfl, hverify, ?_⟩
                simp [bind, Except.bind, hc, herr, pure, Except.pure]

/-- Taking a system has an effect, or it throws and nothing was placed. -/
theorem executeBySystem_effect (env : Env) (orders : List CryptoOrder) (b : CurrencyTag)
    (system : SystemId) (w : World) :
    (∃ w', executeBySystem env orders b system w = .ok w' ∧ Effect env orders b system w w') ∨
      ((∃ e, executeBySystem env orders b system w = .error e) ∧ answer env orders b w = none) := by
  by_cases hnet : netAmount orders = 0
  · exact .inl ⟨_, if_pos hnet, .reconciled (if_pos hnet) hnet⟩
  · rw [executeBySystem, if_neg hnet]
    cases hq : quotationFor env b with
    | none => exact .inl ⟨w, rfl, .idle (by rw [answer, if_neg hnet, hq]; rfl)⟩
    | some q =>
        have hbase := quotationFor_some hq
        have hanswer : answer env orders b w =
            answerOf env (netAmount orders).natAbs (netSide orders) q w := by
          rw [answer, if_neg hnet, hq]
          rfl
        rcases process_effect env (netAmount orders).natAbs (netSide orders) q system w with
          ⟨hnone, ⟨e, he⟩ | hidle⟩ | ⟨g, r, created, hsome, hreq, hverify, hplaced⟩
        · refine .inr ⟨⟨e, ?_⟩, hanswer.trans hnone⟩
          dsimp only
          rw [he]
          rfl
        · refine .inl ⟨w, ?_, .idle (hanswer.trans hnone)⟩
          dsimp only
          rw [hidle]
          rfl
        · obtain ⟨hid, hcurrency, hside, hle⟩ := request_some hreq
          have hsent : Sent orders b w r :=
            ⟨hid, hcurrency ▸ hbase, hside, hle, fun _ _ => verify_ok hverify⟩
          have hzero_or : created.executedQuantity.getD 0 = 0 ∨
              created.executedQuantity.getD 0 ≠ 0 := eq_or_ne _ _
          rcases hzero_or with hzero | hpos
          · refine .inl ⟨_, ?_, .placed (g := g) (hanswer.trans hsome) hsent hzero⟩
            dsimp only
            rw [hplaced]
            exact if_pos hzero
          · refine .inl ⟨_, ?_, .settled (g := g) (hanswer.trans hsome) hsent hbase⟩
            dsimp only
            rw [hplaced]
            exact if_neg hpos

end Sending

/-! ### The stores after a step -/

section Stores

variable {b b' : CurrencyTag} {system system' : SystemId} {w w' : World} {orders : List CryptoOrder}
  {order : Uuid → CryptoOrder} {remittance : CryptoRemittance} {q : StreamPair} {id : Uuid}
  {o : CryptoOrder}

/-- Pending orders of a system, as they are stored. -/
structure Group (b : CurrencyTag) (system : SystemId) (w : World) (orders : List CryptoOrder) :
    Prop where
  nodup : (orders.map Keyed.key).Nodup
  stored : ∀ o ∈ orders, w.cryptoOrders.get? (Keyed.key o) = some o
  of : ∀ o ∈ orders, Of b system o
  pending : ∀ o ∈ orders, o.state = .PENDING

theorem create_insert (order : Uuid → CryptoOrder) (hid : ∀ i, (order i).id = i) (w : World) :
    ∃ i, w.cryptoOrders.insert? (order i) = some (w.create order).cryptoOrders := by
  refine ⟨fresh (w.cryptoOrders.rows.map (·.id)), ?_⟩
  obtain ⟨t, ht⟩ := Table.insert?_of_fresh (t := w.cryptoOrders)
    (r := order (fresh (w.cryptoOrders.rows.map (·.id)))) (Table.get?_eq_none.mpr fun x hx e => by
      have hlt : x.id < fresh (w.cryptoOrders.rows.map (·.id)) := lt_fresh (List.mem_map_of_mem hx)
      exact hlt.ne (e.trans (hid _)))
  rw [ht, World.create]
  dsimp only
  rw [ht]
  rfl

theorem get?_create (hid : ∀ i, (order i).id = i) (h : w.cryptoOrders.get? id = some o) :
    (w.create order).cryptoOrders.get? id = some o := by
  obtain ⟨i, hi⟩ := create_insert order hid w
  exact Table.get?_insert?_of_some hi h

section

variable (h : Group b system w orders)
include h

theorem Group.create (hid : ∀ i, (order i).id = i) : Group b system (w.create order) orders :=
  ⟨h.nodup, fun o ho => get?_create hid (h.stored o ho), h.of, h.pending⟩

theorem total_confirmAll (f : CryptoOrder → ℤ) :
    (confirmAll orders remittance w).cryptoOrders.total f = w.cryptoOrders.total f +
      (orders.map fun o => f (confirmed remittance o) - f o).sum :=
  Table.total_setAll_map (fun _ => rfl) h.nodup h.stored

theorem total_reconcile :
    ∃ i, ∀ f : CryptoOrder → ℤ, (reconcile orders w).cryptoOrders.total f =
      w.cryptoOrders.total f + (orders.map fun o => f (reconciled i o) - f o).sum :=
  ⟨_, fun _ => Table.total_setAll_map (fun _ => rfl) h.nodup h.stored⟩

/-- How a total over the orders moves when an execution is settled. -/
theorem total_settle (side : OrderSide) (amount : ℕ) :
    ∃ i j, ∀ f : CryptoOrder → ℤ,
      (settle orders remittance q side system' amount w).cryptoOrders.total f =
        w.cryptoOrders.total f +
        (if (amount : ℤ) - remittance.executedAmount = 0 then 0
          else f (remainingOrder remittance q side system'
            ((amount : ℤ) - remittance.executedAmount) i)) +
        (orders.map fun o => f (confirmed remittance o) - f o).sum +
        (if q.quoteCurrency.type = .CRYPTO then f (nextOrder remittance q side system' j)
          else 0) := by
  -- the two creations, each of which may be left out
  have remains : ∃ i w₁, Group b system w₁ orders ∧
      (if (amount : ℤ) - remittance.executedAmount = 0 then w
        else w.create (remainingOrder remittance q side system'
          ((amount : ℤ) - remittance.executedAmount))) = w₁ ∧
      ∀ f : CryptoOrder → ℤ, w₁.cryptoOrders.total f = w.cryptoOrders.total f +
        (if (amount : ℤ) - remittance.executedAmount = 0 then 0
          else f (remainingOrder remittance q side system'
            ((amount : ℤ) - remittance.executedAmount) i)) := by
    by_cases hrem : (amount : ℤ) - remittance.executedAmount = 0
    · exact ⟨0, w, h, if_pos hrem, fun f => by rw [if_pos hrem, add_zero]⟩
    · obtain ⟨i, hi⟩ := create_insert (remainingOrder remittance q side system'
        ((amount : ℤ) - remittance.executedAmount)) (fun _ => rfl) w
      exact ⟨i, _, h.create fun _ => rfl, if_neg hrem, fun f => by
        rw [if_neg hrem, Table.total_insert? hi]⟩
  obtain ⟨i, w₁, hgroup, hw₁, hremains⟩ := remains
  rw [settle]
  rw [hw₁]
  by_cases hnext : q.quoteCurrency.type = .CRYPTO
  · obtain ⟨j, hj⟩ := create_insert (nextOrder remittance q side system')
      (fun _ => rfl) (confirmAll orders remittance w₁)
    refine ⟨i, j, fun f => ?_⟩
    rw [if_pos hnext, if_pos hnext, Table.total_insert? hj, total_confirmAll hgroup, hremains]
  · refine ⟨i, 0, fun f => ?_⟩
    rw [if_neg hnext, if_neg hnext, total_confirmAll hgroup, hremains, add_zero]

end

/-- The orders that a step does not rewrite stay as they are. -/
theorem get?_settle (side : OrderSide) (amount : ℕ) (h : w.cryptoOrders.get? id = some o)
    (hid : ∀ x ∈ orders, x.id ≠ id) :
    (settle orders remittance q side system' amount w).cryptoOrders.get? id = some o := by
  have hremains : (if (amount : ℤ) - remittance.executedAmount = 0 then w
      else w.create (remainingOrder remittance q side system'
        ((amount : ℤ) - remittance.executedAmount))).cryptoOrders.get? id = some o := by
    split
    · exact h
    · exact get?_create (fun _ => rfl) h
  have hconfirmed : ∀ w₁ : World, w₁.cryptoOrders.get? id = some o →
      (confirmAll orders remittance w₁).cryptoOrders.get? id = some o := by
    intro w₁ h₁
    refine (Table.get?_setAll_of_ne fun r hr => ?_).trans h₁
    obtain ⟨x, hx, rfl⟩ := List.mem_map.mp hr
    exact hid x hx
  rw [settle]
  split
  · exact get?_create (fun _ => rfl) (hconfirmed _ hremains)
  · exact hconfirmed _ hremains

/-- The orders of a group, added up under a condition that does not depend on the order. -/
theorem sum_if (p : Prop) [Decidable p] (orders : List CryptoOrder) :
    (orders.map fun o => if p then o.signed else 0).sum = if p then netAmount orders else 0 := by
  split
  · exact (netAmount_eq orders).symm
  · exact List.sum_eq_zero fun x hx => by
      obtain ⟨o, -, rfl⟩ := List.mem_map.mp hx
      rfl

theorem sum_congr {f g : CryptoOrder → ℤ} (h : ∀ o ∈ orders, f o = g o) :
    (orders.map f).sum = (orders.map g).sum := by
  rw [List.map_congr_left h]

theorem sum_zero {f : CryptoOrder → ℤ} (h : ∀ o ∈ orders, f o = 0) : (orders.map f).sum = 0 :=
  List.sum_eq_zero fun x hx => by
    obtain ⟨o, ho, rfl⟩ := List.mem_map.mp hx
    exact h o ho

end Stores

/-! ### Books -/

/-- The stores agree with the answers of the exchange. -/
structure Books (w : World) : Prop where
  balanced : ∀ b system, ordered b system w = executed b system w + pending b system w
  confirmed : ∀ r ∈ w.cryptoRemittances.rows,
    covered r.id w = r.side.signed r.executedAmount + remaining r.id w
  reconciled : ∀ id, netted id w = 0
  settled : ∀ o ∈ w.cryptoOrders.rows, Settled o
  sized : ∀ p ∈ w.exchange, Placement.Sized p
  /-- A remittance that an order is linked to is stored. -/
  linked : ∀ o ∈ w.cryptoOrders.rows, ∀ id,
    o.cryptoRemittance = some id ∨ o.remainingCryptoRemittance = some id →
    ∃ r, w.cryptoRemittances.get? id = some r

section Books

variable {b b' : CurrencyTag} {system system' : SystemId} {w w' : World} {orders : List CryptoOrder}
  {q : StreamPair} {g : Gateway} {r : CreateCryptoRemittanceRequest}
  {created : CreateCryptoRemittanceResponse r.amount} {id : Uuid}

theorem Group.settled (h : Group b system w orders) (hb : Books w) {o : CryptoOrder}
    (ho : o ∈ orders) : o.cryptoRemittance = none ∧ o.reconciledId = none := by
  have hpending := h.pending o ho
  rcases hb.settled o (Table.mem_of_get? (h.stored o ho)) with ⟨-, hnone⟩ | ⟨hs, -⟩ | ⟨hs, -⟩
  · exact hnone
  · rw [hpending] at hs
    cases hs
  · rw [hpending] at hs
    cases hs

theorem placements_placed (f : Placement → ℤ) :
    placements b' system' f (placed g system r created w) = placements b' system' f w +
      if r.baseCurrency.symbol = b' ∧ system = system' then f (placementOf system r created)
      else 0 := by
  rw [placements, placed, List.map_append, List.sum_append, List.map_singleton, List.sum_singleton,
    placements]
  rfl

/-- The amount is what was executed and what is left. -/
theorem signed_split (side : OrderSide) {e amount : ℕ} (h : e ≤ amount) :
    side.signed amount = side.signed e + side.signed ((amount : ℤ) - e).natAbs := by
  rw [← signed_add]
  congr 1
  omega

theorem Sent.executed_le (h : Sent orders b w r) :
    created.executedQuantity.getD 0 ≤ (netAmount orders).natAbs :=
  created.le.trans h.le

/-- What the orders ask for is executed or left. -/
theorem Sent.net (h : Sent orders b w r) (created : CreateCryptoRemittanceResponse r.amount) :
    netAmount orders = r.side.signed (created.executedQuantity.getD 0) +
      r.side.signed (((netAmount orders).natAbs : ℤ) -
        (created.executedQuantity.getD 0 : ℕ)).natAbs := by
  rw [← signed_split r.side h.executed_le, h.side]
  exact (signed_netAmount orders).symm

theorem Group.pendingOf (h : Group b system w orders) {o : CryptoOrder} (ho : o ∈ orders) :
    pendingOf b' system' o = if b = b' ∧ system = system' then o.signed else 0 := by
  obtain ⟨htype, rfl, rfl⟩ := h.of o ho
  simp [CryptoOrders.pendingOf, Of, htype, h.pending o ho]

/-- Settling changes the orders, not what was placed. -/
theorem settle_frame (orders : List CryptoOrder) (remittance : CryptoRemittance) (q : StreamPair)
    (side : OrderSide) (system : SystemId) (amount : ℕ) (w : World) :
    (settle orders remittance q side system amount w).exchange = w.exchange ∧
      (settle orders remittance q side system amount w).cryptoRemittances =
        w.cryptoRemittances := by
  rw [settle]
  split <;> split <;> exact ⟨rfl, rfl⟩

/-- The stores after an execution is settled. -/
abbrev settledWorld (g : Gateway) (q : StreamPair) (system : SystemId) (orders : List CryptoOrder)
    (r : CreateCryptoRemittanceRequest) (created : CreateCryptoRemittanceResponse r.amount)
    (w : World) : World :=
  settle orders (remittanceOf g r created) q (netSide orders) system (netAmount orders).natAbs
    (placed g system r created w)

/-- What is left of the orders once an answer is settled. -/
def left (orders : List CryptoOrder) (created : CreateCryptoRemittanceResponse r.amount) : ℤ :=
  ((netAmount orders).natAbs : ℤ) - (created.executedQuantity.getD 0 : ℕ)

/-- How a total over the orders moves from before an order is placed to after it is settled. -/
theorem Group.total (hgroup : Group b system w orders) (g : Gateway) (q : StreamPair)
    (created : CreateCryptoRemittanceResponse r.amount) :
    ∃ i j, ∀ f : CryptoOrder → ℤ,
      (settledWorld g q system orders r created w).cryptoOrders.total f =
        w.cryptoOrders.total f +
        (if left orders created = 0 then 0
          else f (remainingOrder (remittanceOf g r created) q (netSide orders) system
            (left orders created) i)) +
        (orders.map fun o => f (confirmed (remittanceOf g r created) o) - f o).sum +
        (if q.quoteCurrency.type = .CRYPTO then
          f (nextOrder (remittanceOf g r created) q (netSide orders) system j) else 0) :=
  total_settle (w := placed g system r created w)
    ⟨hgroup.nodup, hgroup.stored, hgroup.of, hgroup.pending⟩ (netSide orders)
    (netAmount orders).natAbs

/-- A remaining order, when one is created, asks for what is left. -/
theorem remaining_signed (p : Prop) [Decidable p] (side : OrderSide) (z : ℤ) :
    (if z = 0 then 0 else if p then side.signed z.natAbs else 0) =
      if p then side.signed z.natAbs else 0 := by
  split
  · rename_i hz
    rw [hz, Int.natAbs_zero, signed_eq_zero.mpr rfl, ite_self]
  · rfl

theorem settle_balanced (hgroup : Group b system w orders) (hb : Books w) (hsent : Sent orders b w r)
    (hq : q.baseCurrency.symbol = b) (b' : CurrencyTag) (system' : SystemId) :
    ordered b' system' (settledWorld g q system orders r created w) =
      executed b' system' (settledWorld g q system orders r created w) +
        pending b' system' (settledWorld g q system orders r created w) := by
  obtain ⟨i, j, htotal⟩ := hgroup.total g q created
  have hexecuted : executed b' system' (settledWorld g q system orders r created w) =
      executed b' system' w + if b = b' ∧ system = system' then
        r.side.signed (created.executedQuantity.getD 0) else 0 := by
    rw [executed, placements, (settle_frame ..).1, ← hsent.baseCurrency]
    exact placements_placed Placement.signed
  have hkept : (orders.map fun o =>
      orderedOf b' system' (confirmed (remittanceOf g r created) o) - orderedOf b' system' o).sum
        = 0 :=
    sum_zero fun o _ => sub_self _
  have hgone : (orders.map fun o =>
      pendingOf b' system' (confirmed (remittanceOf g r created) o) - pendingOf b' system' o).sum
        = - if b = b' ∧ system = system' then netAmount orders else 0 := by
    rw [← sum_if, List.sum_neg, List.map_map]
    refine sum_congr fun o ho => ?_
    rw [hgroup.pendingOf ho, pendingOf, if_neg (by simp [confirmed]), zero_sub]
    rfl
  -- a remaining order was ordered before; the next order is ordered and pending in one
  have hcarried : ∀ z, orderedOf b' system'
      (remainingOrder (remittanceOf g r created) q (netSide orders) system z i) = 0 :=
    fun z => if_neg (by simp [remainingOrder])
  have hleft : ∀ z, pendingOf b' system'
      (remainingOrder (remittanceOf g r created) q (netSide orders) system z i) =
        if b = b' ∧ system = system' then r.side.signed z.natAbs else 0 := by
    intro z
    simp [pendingOf, Of, remainingOrder, hq, hsent.side, CryptoOrder.signed]
  have hnext : pendingOf b' system'
      (nextOrder (remittanceOf g r created) q (netSide orders) system j) = orderedOf b' system'
      (nextOrder (remittanceOf g r created) q (netSide orders) system j) := by
    simp [pendingOf, orderedOf, nextOrder]
  rw [ordered, pending, htotal, htotal, hkept, hgone, hexecuted, hcarried, hleft, remaining_signed,
    hnext, ← ordered, ← pending, hb.balanced, ite_self]
  have hnet := hsent.net created
  rw [← left] at hnet
  by_cases hof : b = b' ∧ system = system'
  · simp only [if_pos hof]
    omega
  · simp only [if_neg hof]
    omega

/-- A remittance that is not stored yet has no orders. -/
theorem Books.unlinked (hb : Books w) (h : w.cryptoRemittances.get? id = none) :
    covered id w = 0 ∧ remaining id w = 0 := by
  constructor
  · refine List.sum_eq_zero fun x hx => ?_
    obtain ⟨o, ho, rfl⟩ := List.mem_map.mp hx
    refine if_neg fun e => ?_
    obtain ⟨r, hr⟩ := hb.linked o ho id (.inl e)
    rw [h] at hr
    cases hr
  · refine List.sum_eq_zero fun x hx => ?_
    obtain ⟨o, ho, rfl⟩ := List.mem_map.mp hx
    refine if_neg fun e => ?_
    obtain ⟨r, hr⟩ := hb.linked o ho id (.inr e)
    rw [h] at hr
    cases hr

/-- How the total of a link moves when an execution is settled. -/
theorem settle_covered (hgroup : Group b system w orders) (hb : Books w) (id : Uuid) :
    covered id (settledWorld g q system orders r created w) =
      covered id w + if r.id = id then netAmount orders else 0 := by
  obtain ⟨i, j, htotal⟩ := hgroup.total g q created
  have hnew : (orders.map fun o => linkedOf CryptoOrder.cryptoRemittance id
      (confirmed (remittanceOf g r created) o) - linkedOf CryptoOrder.cryptoRemittance id o).sum =
        if r.id = id then netAmount orders else 0 := by
    rw [← sum_if]
    refine sum_congr fun o ho => ?_
    have hold : linkedOf CryptoOrder.cryptoRemittance id o = 0 := by
      rw [linkedOf, (hgroup.settled hb ho).1, if_neg (Option.some_ne_none id).symm]
    rw [hold, sub_zero]
    exact if_congr Option.some_inj rfl rfl
  rw [covered, htotal, hnew]
  simp [covered, linkedOf, remainingOrder, nextOrder]

theorem settle_remaining (hgroup : Group b system w orders) (hsent : Sent orders b w r) (id : Uuid) :
    remaining id (settledWorld g q system orders r created w) =
      remaining id w + if r.id = id then r.side.signed (left orders created).natAbs else 0 := by
  obtain ⟨i, j, htotal⟩ := hgroup.total g q created
  have hkept : (orders.map fun o => linkedOf CryptoOrder.remainingCryptoRemittance id
      (confirmed (remittanceOf g r created) o) -
        linkedOf CryptoOrder.remainingCryptoRemittance id o).sum = 0 :=
    sum_zero fun o _ => sub_self _
  have hleft : ∀ z, linkedOf CryptoOrder.remainingCryptoRemittance id
      (remainingOrder (remittanceOf g r created) q (netSide orders) system z i) =
        if r.id = id then r.side.signed z.natAbs else 0 := by
    intro z
    rw [hsent.side]
    exact if_congr Option.some_inj rfl rfl
  rw [remaining, htotal, hkept, hleft, remaining_signed, ← remaining]
  simp [linkedOf, nextOrder]

theorem settle_netted (hgroup : Group b system w orders) (id : Uuid) :
    netted id (settledWorld g q system orders r created w) = netted id w := by
  obtain ⟨i, j, htotal⟩ := hgroup.total g q created
  have hkept : (orders.map fun o => linkedOf CryptoOrder.reconciledId id
      (confirmed (remittanceOf g r created) o) - linkedOf CryptoOrder.reconciledId id o).sum = 0 :=
    sum_zero fun o _ => sub_self _
  rw [netted, htotal, hkept]
  simp [netted, linkedOf, remainingOrder, nextOrder]

end Books

section Effects

variable {env : Env} {b : CurrencyTag} {system : SystemId} {w w' : World}
  {orders : List CryptoOrder} {order : Uuid → CryptoOrder} {remittance : CryptoRemittance}
  {q : StreamPair} {g : Gateway} {r : CreateCryptoRemittanceRequest}
  {created : CreateCryptoRemittanceResponse r.amount} {o : CryptoOrder} {id : Uuid}

theorem mem_create (hid : ∀ i, (order i).id = i) (h : o ∈ (w.create order).cryptoOrders.rows) :
    o ∈ w.cryptoOrders.rows ∨ ∃ i, o = order i := by
  obtain ⟨i, hi⟩ := create_insert order hid w
  exact ((Table.mem_insert? hi).mp h).imp_right fun e => ⟨i, e⟩

/-- An order after an execution is settled. -/
theorem mem_settle {side : OrderSide} {amount : ℕ}
    (h : o ∈ (settle orders remittance q side system amount w).cryptoOrders.rows) :
    o ∈ w.cryptoOrders.rows ∨ (∃ x ∈ orders, o = confirmed remittance x) ∨
      (∃ z i, o = remainingOrder remittance q side system z i) ∨
      ∃ i, o = nextOrder remittance q side system i := by
  have hremains : ∀ z : ℤ, o ∈ (if z = 0 then w else w.create
      (remainingOrder remittance q side system z)).cryptoOrders.rows →
      o ∈ w.cryptoOrders.rows ∨ ∃ z i, o = remainingOrder remittance q side system z i := by
    intro z hz
    split at hz
    · exact .inl hz
    · exact (mem_create (fun _ => rfl) hz).imp_right fun ⟨i, e⟩ => ⟨z, i, e⟩
  have hconfirmed : ∀ z : ℤ, o ∈ (confirmAll orders remittance (if z = 0 then w else w.create
      (remainingOrder remittance q side system z))).cryptoOrders.rows →
      o ∈ w.cryptoOrders.rows ∨ (∃ x ∈ orders, o = confirmed remittance x) ∨
        ∃ z i, o = remainingOrder remittance q side system z i := by
    intro z hz
    rcases Table.mem_setAll hz with ⟨hz, -⟩ | hz
    · exact (hremains z hz).imp_right .inr
    · obtain ⟨x, hx, rfl⟩ := List.mem_map.mp hz
      exact .inr (.inl ⟨x, hx, rfl⟩)
  rw [settle] at h
  split at h
  · rcases mem_create (fun _ => rfl) h with h | hnext
    · exact (hconfirmed _ h).imp_right (Or.imp_right .inl)
    · exact .inr (.inr (.inr hnext))
  · exact (hconfirmed _ h).imp_right (Or.imp_right .inl)

/-- The new remittance is stored. -/
theorem placed_insert (hsent : Sent orders b w r) (g : Gateway) (system : SystemId)
    (created : CreateCryptoRemittanceResponse r.amount) :
    w.cryptoRemittances.insert? (remittanceOf g r created) =
      some (placed g system r created w).cryptoRemittances := by
  obtain ⟨t, ht⟩ := Table.insert?_of_fresh (t := w.cryptoRemittances)
    (r := remittanceOf g r created) (Table.get?_eq_none.mpr fun x hx e => by
      have hlt : x.id < fresh (w.cryptoRemittances.rows.map (·.id)) :=
        lt_fresh (List.mem_map_of_mem hx)
      exact hlt.ne (e.trans hsent.id))
  rw [ht, placed]
  simp only [ht]
  rfl

/-- An order that is placed, of which nothing is reported executed, changes no order. -/
theorem placed_books (hb : Books w) (hsent : Sent orders b w r)
    (hzero : created.executedQuantity.getD 0 = 0) : Books (placed g system r created w) := by
  have hins := placed_insert hsent g system created
  have hnone : w.cryptoRemittances.get? r.id = none := (Table.insert?_eq_some hins).1
  refine ⟨fun b' system' => ?_, fun x hx => ?_, hb.reconciled, hb.settled, fun p hp => ?_,
    fun o ho id hid => ?_⟩
  · have hexecuted : executed b' system' (placed g system r
        created w) = executed b' system' w := by
      rw [executed, placements_placed, executed, Placement.signed, placementOf]
      simp [hzero, signed_eq_zero]
    rw [hexecuted]
    exact hb.balanced b' system'
  · rcases (Table.mem_insert? hins).mp hx with hx | rfl
    · exact hb.confirmed x hx
    · obtain ⟨hcovered, hremaining⟩ := hb.unlinked hnone
      refine hcovered.trans (Eq.symm ?_)
      change r.side.signed (created.executedQuantity.getD 0) + remaining r.id w = 0
      rw [hzero, hremaining, signed_eq_zero.mpr rfl, add_zero]
  · rcases List.mem_append.mp hp with hp | hp
    · exact hb.sized p hp
    · rw [List.mem_singleton.mp hp]
      exact hsent.sized system created
  · obtain ⟨x, hx⟩ := hb.linked o ho id hid
    exact ⟨x, Table.get?_insert?_of_some hins hx⟩

/-- The books agree after an execution is settled. -/
theorem settle_books (hb : Books w) (hgroup : Group b system w orders) (hsent : Sent orders b w r)
    (hq : q.baseCurrency.symbol = b) : Books (settledWorld g q system orders r created w) := by
  have hins := placed_insert hsent g system created
  have hnone : w.cryptoRemittances.get? r.id = none := (Table.insert?_eq_some hins).1
  obtain ⟨hexchange, hremittances⟩ := settle_frame orders (remittanceOf g r created) q
    (netSide orders) system (netAmount orders).natAbs
    (placed g system r created w)
  have hstored : ∃ x, (settledWorld g q system orders r created w).cryptoRemittances.get? r.id =
      some x := ⟨_, hremittances ▸ Table.get?_insert?_self hins⟩
  have hkept : ∀ id, (∃ x, w.cryptoRemittances.get? id = some x) →
      ∃ x, (settledWorld g q system orders r created w).cryptoRemittances.get? id = some x :=
    fun id ⟨x, hx⟩ => ⟨x, hremittances ▸ Table.get?_insert?_of_some hins hx⟩
  refine ⟨settle_balanced hgroup hb hsent hq, fun x hx => ?_,
    fun id => (settle_netted hgroup id).trans (hb.reconciled id), fun o ho => ?_, fun p hp => ?_,
    fun o ho id hid => ?_⟩
  · rw [hremittances] at hx
    rw [settle_covered hgroup hb, settle_remaining hgroup hsent]
    rcases (Table.mem_insert? hins).mp hx with hx | rfl
    · have hne : r.id ≠ x.id := by
        intro e
        have hstored := Table.get?_of_mem hx
        rw [show Keyed.key x = r.id from e.symm, hnone] at hstored
        cases hstored
      rw [if_neg hne, if_neg hne, add_zero, add_zero]
      exact hb.confirmed x hx
    · obtain ⟨hcovered, hremaining⟩ := hb.unlinked hnone
      change covered r.id w + (if r.id = r.id then _ else _) =
        r.side.signed (created.executedQuantity.getD 0) +
          (remaining r.id w + if r.id = r.id then _ else _)
      rw [if_pos rfl, if_pos rfl, hcovered, hremaining, zero_add, zero_add]
      exact hsent.net created
  · rcases mem_settle ho with ho | ⟨x, hx, rfl⟩ | ⟨z, i, rfl⟩ | ⟨i, rfl⟩
    · exact hb.settled o ho
    · exact .inr (.inl ⟨rfl, rfl, (hgroup.settled hb hx).2⟩)
    · exact .inl ⟨rfl, rfl, rfl⟩
    · exact .inl ⟨rfl, rfl, rfl⟩
  · rw [hexchange] at hp
    rcases List.mem_append.mp hp with hp | hp
    · exact hb.sized p hp
    · rw [List.mem_singleton.mp hp]
      exact hsent.sized system created
  · rcases mem_settle ho with ho | ⟨x, hx, rfl⟩ | ⟨z, i, rfl⟩ | ⟨i, rfl⟩
    · exact hkept id (hb.linked o ho id hid)
    · rcases hid with hid | hid
      · exact Option.some.inj hid ▸ hstored
      · exact hkept id (hb.linked x (Table.mem_of_get? (hgroup.stored x hx)) id (.inr hid))
    · rcases hid with hid | hid
      · cases hid
      · exact Option.some.inj hid ▸ hstored
    · rcases hid with hid | hid <;> cases hid

/-- The books agree after orders that cancel are reconciled. -/
theorem reconcile_books (hb : Books w) (hgroup : Group b system w orders)
    (hzero : netAmount orders = 0) : Books (reconcile orders w) := by
  obtain ⟨i, htotal⟩ := total_reconcile hgroup
  have hlink : ∀ link : CryptoOrder → Option Uuid, (∀ o, link (reconciled i o) = link o) →
      ∀ id, (reconcile orders w).cryptoOrders.total
        (linkedOf link id) = w.cryptoOrders.total (linkedOf link id) := by
    intro link hlink id
    rw [htotal, sum_zero, add_zero]
    intro o _
    rw [linkedOf, linkedOf, hlink]
    exact sub_self _
  refine ⟨fun b' system' => ?_, fun x hx => ?_, fun id => ?_, fun o ho => ?_, hb.sized,
    fun o ho id hid => ?_⟩
  · have hordered : ordered b' system' (reconcile orders w) =
        ordered b' system' w := by
      have hkept : (orders.map fun o =>
          orderedOf b' system' (reconciled i o) - orderedOf b' system' o).sum = 0 :=
        sum_zero fun o _ => sub_self _
      rw [ordered, htotal, hkept, add_zero, ordered]
    have hpending : pending b' system' (reconcile orders w) =
        pending b' system' w := by
      have hgone : (orders.map fun o =>
          pendingOf b' system' (reconciled i o) - pendingOf b' system' o).sum =
            - if b = b' ∧ system = system' then netAmount orders else 0 := by
        rw [← sum_if, List.sum_neg, List.map_map]
        refine sum_congr fun o ho => ?_
        rw [hgroup.pendingOf ho, pendingOf, if_neg (by simp [reconciled]), zero_sub]
        rfl
      rw [pending, htotal, hgone, hzero, ite_self, neg_zero, add_zero, pending]
    rw [hordered, hpending]
    exact hb.balanced b' system'
  · rw [covered, hlink _ fun _ => rfl, remaining, hlink _ fun _ => rfl]
    exact hb.confirmed x hx
  · have hnew : (orders.map fun o => linkedOf CryptoOrder.reconciledId id (reconciled i o) -
        linkedOf CryptoOrder.reconciledId id o).sum = if i = id then netAmount orders else 0 := by
      rw [← sum_if]
      refine sum_congr fun o ho => ?_
      have hold : linkedOf CryptoOrder.reconciledId id o = 0 := by
        rw [linkedOf, (hgroup.settled hb ho).2, if_neg (Option.some_ne_none id).symm]
      rw [hold, sub_zero]
      exact if_congr Option.some_inj rfl rfl
    rw [netted, htotal, hnew, hzero, ite_self, add_zero]
    exact hb.reconciled id
  · rcases Table.mem_setAll ho with ⟨ho, -⟩ | ho
    · exact hb.settled o ho
    · obtain ⟨x, hx, rfl⟩ := List.mem_map.mp ho
      exact .inr (.inr ⟨rfl, (hgroup.settled hb hx).1, rfl⟩)
  · rcases Table.mem_setAll ho with ⟨ho, -⟩ | ho
    · exact hb.linked o ho id hid
    · obtain ⟨x, hx, rfl⟩ := List.mem_map.mp ho
      exact hb.linked x (Table.mem_of_get? (hgroup.stored x hx)) id hid

section

variable (h : Effect env orders b system w w')
include h

theorem Effect.books (hgroup : Group b system w orders) (hb : Books w) : Books w' := by
  cases h with
  | idle => exact hb
  | reconciled _ hzero => exact reconcile_books hb hgroup hzero
  | placed _ hsent hzero => exact placed_books hb hsent hzero
  | settled _ hsent hq => exact settle_books hb hgroup hsent hq

/-- What the exchange holds after a step: what it held, and the order that was answered. -/
theorem Effect.exchange :
    (answer env orders b w = none ∧ w'.exchange = w.exchange) ∨
      ∃ (r : CreateCryptoRemittanceRequest) (created : CreateCryptoRemittanceResponse r.amount),
        answer env orders b w = some ⟨r, created⟩ ∧
          w'.exchange = w.exchange ++ [placementOf system r created] := by
  cases h with
  | idle hanswer => exact .inl ⟨hanswer, rfl⟩
  | reconciled hanswer => exact .inl ⟨hanswer, rfl⟩
  | placed hanswer => exact .inr ⟨_, _, hanswer, rfl⟩
  | settled hanswer => exact .inr ⟨_, _, hanswer, (settle_frame ..).1⟩

/-- Orders that are not of the group stay as they are. -/
theorem Effect.get? (ho : w.cryptoOrders.get? id = some o)
    (hid : ∀ x ∈ orders, x.id ≠ id) : w'.cryptoOrders.get? id = some o := by
  cases h with
  | idle => exact ho
  | reconciled =>
      refine (Table.get?_setAll_of_ne fun x hx => ?_).trans ho
      obtain ⟨y, hy, rfl⟩ := List.mem_map.mp hx
      exact hid y hy
  | placed => exact ho
  | settled => exact get?_settle _ _ ho hid

end

end Effects

/-! ### Runs -/

section Runs

variable {systems : Systems} {env : Env} {b b' : CurrencyTag} {system : SystemId} {w w' : World}
  {s s' : State} {orders : List CryptoOrder} {sweep : Sweep} {rest : List SystemId}
  {c : Command}

/-- What a sweep has read of the systems that it has left is what is stored. -/
structure Reads (b : CurrencyTag) (sweep : Sweep) (w : World) : Prop where
  systems : sweep.systems.Nodup
  nodup : (sweep.orders.map Keyed.key).Nodup
  stored : ∀ o ∈ sweep.orders, o.system ∈ sweep.systems →
    w.cryptoOrders.get? (Keyed.key o) = some o ∧ o.baseCurrency = b ∧ o.state = .PENDING ∧
      o.type = .MARKET

/-- What holds in every state, as long as no order is left open at the exchange. -/
structure Inv (s : State) : Prop where
  books : Books s.world
  reads : ∀ b sweep, s.sweeps b = some sweep → Reads b sweep s.world
  closed : ∀ p ∈ s.world.exchange, p.rest = 0

/-- The answer says that the order is closed and how much of it was executed, or that it was
executed in whole. -/
def Complete (a : Σ r : CreateCryptoRemittanceRequest, CreateCryptoRemittanceResponse r.amount) :
    Prop :=
  a.2.final = true ∨ a.2.executedQuantity = some a.1.amount

instance (a : Σ r : CreateCryptoRemittanceRequest, CreateCryptoRemittanceResponse r.amount) :
    Decidable (Complete a) :=
  inferInstanceAs (Decidable (_ ∨ _))

/-- The order that a step places, and its answer. -/
def stepAnswer (s : State) : Command →
    Option (Σ r : CreateCryptoRemittanceRequest, CreateCryptoRemittanceResponse r.amount)
  | .next b env =>
      match s.sweeps b with
      | some ⟨orders, system :: _⟩ => answer env (ordersBySystem orders system) b s.world
      | _ => none
  | _ => none

/-- An order that the step places is answered completely. -/
def AnsweredComplete (s : State) (c : Command) : Prop := ∀ a ∈ stepAnswer s c, Complete a

instance (s : State) (c : Command) : Decidable (AnsweredComplete s c) :=
  inferInstanceAs (Decidable (∀ _ ∈ _, _))

/-- An order is answered completely when nothing of it is left to be executed. -/
theorem rest_placementOf {r : CreateCryptoRemittanceRequest}
    {created : CreateCryptoRemittanceResponse r.amount} (hpos : 0 < r.amount) :
    (placementOf system r created).rest = 0 ↔ Complete ⟨r, created⟩ := by
  have hle := created.le
  change (if !created.final then r.amount - created.executedQuantity.getD 0 else 0) = 0 ↔
    (created.final = true ∨ created.executedQuantity = some r.amount)
  cases hfinal : created.final with
  | true => simp
  | false =>
      simp only [Bool.not_false, if_true, Bool.false_eq_true, false_or]
      cases hq : created.executedQuantity with
      | none =>
          simp only [Option.getD_none, reduceCtorEq, iff_false]
          omega
      | some n =>
          rw [hq] at hle
          simp only [Option.getD_some, Option.some.injEq] at hle ⊢
          omega

/-! #### The exchange -/

theorem live_of_closed (h : ∀ p ∈ w.exchange, p.rest = 0) (b : CurrencyTag) (system : SystemId) :
    live b system w = 0 := by
  refine List.sum_eq_zero fun x hx => ?_
  obtain ⟨p, hp, rfl⟩ := List.mem_map.mp hx
  exact ite_eq_right_iff.mpr fun _ => signed_eq_zero.mpr (h p hp)

theorem Books.coveredOnce (hb : Books w) (h : ∀ b system, live b system w = 0) : CoveredOnce w :=
  ⟨hb.balanced, fun b system => by rw [h, add_zero, hb.balanced], hb.confirmed, hb.reconciled,
    hb.settled, hb.sized⟩

theorem CoveredOnce.live (h : CoveredOnce w) (b : CurrencyTag) (system : SystemId) :
    live b system w = 0 := by
  have hbalanced := h.balanced b system
  have honce := h.once b system
  omega

theorem Inv.coveredOnce (h : Inv s) : CoveredOnce s.world :=
  h.books.coveredOnce (live_of_closed h.closed)

/-- The exchange executes no more of orders of which nothing is left. -/
theorem execute_closed (h : ∀ p ∈ w.exchange, p.rest = 0) (i quantity : ℕ) :
    w.exchange.modify i (Placement.execute quantity) = w.exchange := by
  refine List.ext_getElem? fun n => ?_
  rw [List.getElem?_modify]
  cases hn : w.exchange[n]? with
  | none => rfl
  | some p =>
      have hp : p.rest = 0 := h p (List.mem_of_getElem? hn)
      have hself : Placement.execute quantity p = p := by
        simp [Placement.execute, hp]
      simp [hself]

/-! #### Reads -/

/-- The orders of the next system, as they are stored. -/
theorem Reads.group (h : Reads b ⟨orders, system :: rest⟩ w) :
    Group b system w (ordersBySystem orders system) := by
  have hstored : ∀ o ∈ ordersBySystem orders system, o ∈ orders ∧ o.system = system := by
    intro o ho
    simpa [ordersBySystem] using ho
  have hread : ∀ o ∈ ordersBySystem orders system, _ := fun o ho =>
    h.stored o (hstored o ho).1 (by rw [(hstored o ho).2]; exact List.mem_cons_self)
  exact ⟨h.nodup.sublist (List.filter_sublist.map _), fun o ho => (hread o ho).1,
    fun o ho => ⟨(hread o ho).2.2.2, (hread o ho).2.1, (hstored o ho).2⟩,
    fun o ho => (hread o ho).2.2.1⟩

theorem Reads.mono (h : Reads b sweep w)
    (hkept : ∀ o ∈ sweep.orders, o.system ∈ sweep.systems →
      w.cryptoOrders.get? (Keyed.key o) = some o → w'.cryptoOrders.get? (Keyed.key o) = some o) :
    Reads b sweep w' :=
  ⟨h.systems, h.nodup, fun o ho hs =>
    ⟨hkept o ho hs (h.stored o ho hs).1, (h.stored o ho hs).2⟩⟩

/-- The sweep that took a system has read the rest. -/
theorem Reads.next (h : Reads b ⟨orders, system :: rest⟩ w)
    (heffect : Effect env (ordersBySystem orders system) b system w w') :
    Reads b ⟨orders, rest⟩ w' := by
  have hnodup := List.nodup_cons.mp h.systems
  have hrest : Reads b ⟨orders, rest⟩ w :=
    ⟨hnodup.2, h.nodup, fun o ho hs => h.stored o ho (List.mem_cons_of_mem system hs)⟩
  refine hrest.mono fun o ho hs hstored => heffect.get? hstored fun x hx e => ?_
  -- a row of the system that was taken is not one of the systems that are left
  have hx' := h.group.stored x hx
  rw [show Keyed.key x = Keyed.key o from e, hstored] at hx'
  have hsystem := (h.group.of x hx).2.2
  rw [← Option.some.inj hx'] at hsystem
  exact hnodup.1 (hsystem ▸ hs)

/-- A sweep of another currency has read other orders. -/
theorem Reads.other (h : Reads b' sweep w) (hne : b' ≠ b)
    (hgroup : Group b system w orders) (heffect : Effect env orders b system w w') :
    Reads b' sweep w' := by
  refine h.mono fun o ho hs hstored => heffect.get? hstored fun x hx e => hne ?_
  have hx' := hgroup.stored x hx
  rw [show Keyed.key x = Keyed.key o from e, hstored] at hx'
  have hof := (hgroup.of x hx).2.1
  rw [← Option.some.inj hx'] at hof
  exact (h.stored o ho hs).2.1.symm.trans hof

/-! #### Steps -/

/-- A step that takes a system has an effect, or it ends the sweep and places nothing. -/
theorem step_next (systems : Systems) (env : Env)
    (hsweep : s.sweeps b = some ⟨orders, system :: rest⟩) :
    (∃ w', Effect env (ordersBySystem orders system) b system s.world w' ∧
      step systems s (.next b env) =
        ⟨w', Function.update s.sweeps b (some ⟨orders, rest⟩)⟩) ∨
    (stepAnswer s (.next b env) = none ∧
      step systems s (.next b env) = { s with sweeps := Function.update s.sweeps b none }) := by
  have hanswer : stepAnswer s (.next b env) =
      answer env (ordersBySystem orders system) b s.world := by
    rw [stepAnswer, hsweep]
  by_cases hempty : (ordersBySystem orders system).isEmpty
  · refine .inl ⟨s.world, .idle ?_, ?_⟩
    · rw [List.isEmpty_iff.mp hempty]
      rfl
    · simp only [step, hsweep, if_pos hempty]
  · rcases executeBySystem_effect env (ordersBySystem orders system) b system s.world with
      ⟨w', hok, heffect⟩ | ⟨⟨e, herror⟩, hnone⟩
    · refine .inl ⟨w', heffect, ?_⟩
      simp only [step, hsweep, if_neg hempty, hok]
    · refine .inr ⟨hanswer.trans hnone, ?_⟩
      simp only [step, hsweep, if_neg hempty, herror]

/-- An order that another use case creates is ordered and pending. -/
theorem create_books (hb : Books w) {o : CryptoOrder} {t : Table CryptoOrder}
    (hins : w.cryptoOrders.insert? (created o) = some t) :
    Books { w with cryptoOrders := t } := by
  refine ⟨fun b system => ?_, fun r hr => ?_, fun id => ?_, fun x hx => ?_, hb.sized,
    fun x hx id hid => ?_⟩
  · change t.total _ = executed b system w + t.total _
    have hboth : orderedOf b system (created o) = pendingOf b system (created o) := by
      simp [orderedOf, pendingOf, created]
    rw [Table.total_insert? hins, Table.total_insert? hins, hboth, ← ordered, hb.balanced, pending,
      add_assoc]
  · change t.total _ = _ + t.total _
    rw [Table.total_insert? hins, Table.total_insert? hins]
    simpa [linkedOf, created, covered, remaining] using hb.confirmed r hr
  · change t.total _ = 0
    rw [Table.total_insert? hins]
    simpa [linkedOf, created, netted] using hb.reconciled id
  · rcases (Table.mem_insert? hins).mp hx with hx | rfl
    · exact hb.settled x hx
    · exact .inl ⟨rfl, rfl, rfl⟩
  · rcases (Table.mem_insert? hins).mp hx with hx | rfl
    · exact hb.linked x hx id hid
    · rcases hid with hid | hid <;> cases hid

theorem Inv.create (h : Inv s) (o : CryptoOrder) : Inv (step systems s (.create o)) := by
  rw [step]
  cases hins : s.world.cryptoOrders.insert? (created o) with
  | none => exact ⟨h.books, h.reads, h.closed⟩
  | some t =>
      exact ⟨create_books h.books hins, fun b sweep hsweep => (h.reads b sweep hsweep).mono
        fun _ _ _ hstored => Table.get?_insert?_of_some hins hstored, h.closed⟩

/-- What holds of the sweeps, after the sweep of one currency changed. -/
theorem forall_update {P : CurrencyTag → Sweep → Prop} {sweeps : CurrencyTag → Option Sweep}
    {o : Option Sweep} (hself : ∀ sweep, o = some sweep → P b sweep)
    (hother : ∀ b' sweep, b' ≠ b → sweeps b' = some sweep → P b' sweep) (b' : CurrencyTag)
    (sweep : Sweep) (h : Function.update sweeps b o b' = some sweep) : P b' sweep := by
  by_cases hb : b' = b
  · subst hb
    rw [Function.update_self] at h
    exact hself sweep h
  · rw [Function.update_of_ne hb] at h
    exact hother b' sweep hb h

theorem Inv.begin (h : Inv s) (b : CurrencyTag) : Inv (step systems s (.begin b)) := by
  rw [step]
  split
  · rename_i o os _ hpending
    refine ⟨h.books, forall_update (fun sweep hsweep => ?_) fun b' sweep _ => h.reads b' sweep,
      h.closed⟩
    cases hsweep
    rw [← hpending]
    refine ⟨systems.nodup, s.world.cryptoOrders.nodup.sublist (List.filter_sublist.map _),
      fun x hx _ => ?_⟩
    obtain ⟨hrow, hread⟩ := List.mem_filter.mp hx
    exact ⟨Table.get?_of_mem hrow, of_decide_eq_true hread⟩
  · exact h

theorem Inv.execute (h : Inv s) (i quantity : ℕ) : step systems s (.execute i quantity) = s := by
  rw [step, execute_closed h.closed]

/-- Ending a sweep changes no store. -/
theorem Inv.ended (h : Inv s) (b : CurrencyTag) :
    Inv { s with sweeps := Function.update s.sweeps b none } :=
  ⟨h.books, forall_update (fun _ hsweep => by cases hsweep) fun b' sweep _ => h.reads b' sweep,
    h.closed⟩

/-- A step that has an effect: the invariant is kept, and each order stays covered once, if and
only if the answer is complete. -/
theorem Inv.next (h : Inv s) (hsweep : s.sweeps b = some ⟨orders, system :: rest⟩)
    (heffect : Effect env (ordersBySystem orders system) b system s.world w') :
    (CoveredOnce w' ↔ AnsweredComplete s (.next b env)) ∧
      (AnsweredComplete s (.next b env) →
        Inv ⟨w', Function.update s.sweeps b (some ⟨orders, rest⟩)⟩) := by
  have hreads := h.reads b _ hsweep
  have hbooks : Books w' := heffect.books hreads.group h.books
  have hclosed : (∀ p ∈ w'.exchange, p.rest = 0) →
      Inv ⟨w', Function.update s.sweeps b (some ⟨orders, rest⟩)⟩ := by
    refine fun hclosed => ⟨hbooks, forall_update (fun sweep e => ?_) fun b' sweep hne hs => ?_,
      hclosed⟩
    · cases e
      exact hreads.next heffect
    · exact (h.reads b' sweep hs).other hne hreads.group heffect
  have hanswer : stepAnswer s (.next b env) =
      answer env (ordersBySystem orders system) b s.world := by
    rw [stepAnswer, hsweep]
  rcases heffect.exchange with ⟨hnone, hexchange⟩ | ⟨r, created, hsome, hexchange⟩
  · have hcomplete : AnsweredComplete s (.next b env) := by
      intro a ha
      rw [hanswer, hnone] at ha
      cases ha
    have hcl : ∀ p ∈ w'.exchange, p.rest = 0 := hexchange ▸ h.closed
    exact ⟨iff_of_true (hbooks.coveredOnce (live_of_closed hcl)) hcomplete, fun _ => hclosed hcl⟩
  · have hlast : placementOf system r created ∈ w'.exchange :=
      hexchange ▸ List.mem_append_right _ (List.mem_singleton_self _)
    have hpos : 0 < r.amount := (hbooks.sized _ hlast).1
    have hiff : AnsweredComplete s (.next b env) ↔ (placementOf system r created).rest = 0 := by
      rw [rest_placementOf hpos, AnsweredComplete, hanswer, hsome]
      simp
    have hlive : live r.baseCurrency.symbol system w' =
        r.side.signed (placementOf system r created).rest := by
      rw [live, placements, hexchange, List.map_append, List.sum_append, List.map_singleton,
        List.sum_singleton, if_pos ⟨rfl, rfl⟩]
      exact (congrArg (· + _) (live_of_closed h.closed _ _)).trans (zero_add _)
    have hcl : (placementOf system r created).rest = 0 → ∀ p ∈ w'.exchange, p.rest = 0 := by
      intro hrest p hp
      rw [hexchange] at hp
      rcases List.mem_append.mp hp with hp | hp
      · exact h.closed p hp
      · rw [List.mem_singleton.mp hp, hrest]
    rw [hiff]
    refine ⟨⟨fun hcovered => ?_, fun hrest => ?_⟩, fun hrest => hclosed (hcl hrest)⟩
    · exact signed_eq_zero.mp (hlive.symm.trans (hcovered.live _ _))
    · exact hbooks.coveredOnce (live_of_closed (hcl hrest))

/-- One step from the invariant. -/
theorem Inv.step (h : Inv s) (c : Command) :
    (CoveredOnce (step systems s c).world ↔ AnsweredComplete s c) ∧
      (AnsweredComplete s c → Inv (step systems s c)) := by
  -- a step that places nothing keeps the invariant
  have quiet : stepAnswer s c = none → Inv (CryptoOrders.step systems s c) →
      (CoveredOnce (CryptoOrders.step systems s c).world ↔ AnsweredComplete s c) ∧
        (AnsweredComplete s c → Inv (CryptoOrders.step systems s c)) := by
    intro hnone hinv
    refine ⟨iff_of_true hinv.coveredOnce fun a ha => ?_, fun _ => hinv⟩
    rw [hnone] at ha
    cases ha
  cases c with
  | create o => exact quiet rfl (h.create o)
  | begin b => exact quiet rfl (h.begin b)
  | execute i quantity => exact quiet rfl (by rw [h.execute]; exact h)
  | next b env =>
      rcases hsweep : s.sweeps b with - | ⟨orders, - | ⟨system, rest⟩⟩
      · refine quiet (by rw [stepAnswer, hsweep]) ?_
        simp only [CryptoOrders.step, hsweep]
        exact h
      · refine quiet (by rw [stepAnswer, hsweep]) ?_
        simp only [CryptoOrders.step, hsweep]
        exact h.ended b
      · rcases step_next systems env hsweep with
          ⟨w', heffect, hstep⟩ | ⟨hnone, hstep⟩
        · rw [hstep]
          exact h.next hsweep heffect
        · refine quiet hnone ?_
          rw [hstep]
          exact h.ended b

/-- Before the first order. -/
def initial : State := ⟨⟨.empty, .empty, [], [], []⟩, fun _ => none⟩

theorem inv_initial : Inv initial := by
  refine ⟨⟨fun _ _ => rfl, fun _ hr => ?_, fun _ => rfl, fun _ ho => ?_, fun _ hp => ?_,
    fun _ ho => ?_⟩, fun _ _ hsweep => ?_, fun _ hp => ?_⟩
  · cases hr
  · cases ho
  · cases hp
  · cases ho
  · cases hsweep
  · cases hp

/-- **Each order is covered once** in every state of a run if and only if each order that the run
places is answered completely. -/
theorem covered_iff (systems : Systems) (cs : List Command) :
    (∀ ds, ds <+: cs → CoveredOnce (run (step systems) initial ds).world) ↔
      Along (step systems) AnsweredComplete initial cs :=
  along_iff (P := fun s => CoveredOnce s.world) (fun _ => Inv.coveredOnce)
    (fun _ c h => (h.step c).1) (fun _ c h => (h.step c).2) inv_initial cs

end Runs

/-! ### An order that waits at the exchange -/

namespace Waiting

def btc : Currency := ⟨"BTC", .CRYPTO⟩
def brl : Currency := ⟨"BRL", .FIAT⟩

def order : CryptoOrder :=
  ⟨1, "BTC", 100, .MARKET, .BUY, .PENDING, 1, none, none, none, none, none, none⟩

def systems : Systems := ⟨[1], List.nodup_singleton 1⟩

/-- An exchange that takes each order, and answers the same to each. -/
def env (answer : (amount : ℕ) → CreateCryptoRemittanceResponse amount) : Env where
  streamQuotation := some ⟨⟨btc, brl, "exchange"⟩, none⟩
  cryptoRemittanceGateways :=
    [⟨"exchange", fun _ _ => some ⟨"BTCBRL", none, none, none⟩, fun _ => true, fun _ => true,
      fun _ => true, fun request => .ok (answer request.amount)⟩]
  providers := ["exchange"]

/-- The order is taken and nothing is executed yet. -/
def waiting (amount : ℕ) : CreateCryptoRemittanceResponse amount :=
  ⟨"order", .WAITING, none, none, none, Nat.zero_le amount⟩

def filled (amount : ℕ) : CreateCryptoRemittanceResponse amount :=
  ⟨"order", .FILLED, some 10, some amount, none, le_rfl⟩

/-- Two runs, of which the first finds the order waiting; then the exchange executes it. -/
def commands : List Command :=
  [.create order, .begin "BTC", .next "BTC" (env waiting), .next "BTC" (env waiting),
    .begin "BTC", .next "BTC" (env filled), .execute 0 100]

end Waiting

open Waiting in
/-- An order of 100 is placed by both runs, and 200 are bought. -/
theorem waiting_executed_twice :
    ¬ CoveredOnce (run (step systems) initial commands).world := by
  intro h
  have hordered : ordered "BTC" 1 (run (step systems) initial commands).world = 100 := by
    decide +kernel
  have hexecuted : executed "BTC" 1 (run (step systems) initial commands).world = 200 := by
    decide +kernel
  have hpending : pending "BTC" 1 (run (step systems) initial commands).world = 0 := by
    decide +kernel
  have hbalanced := h.balanced "BTC" 1
  omega

end ZroServices.Otc.CryptoOrders
