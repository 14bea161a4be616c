import ZroServices.Foundation.Attempt
import ZroServices.Otc.Cashback

/-!
# OTC — a cashback is credited once, a filled remittance ordered once

The cashback's id is looked up in rows that are written last, after the operations service has
credited the wallet: a request that fails in between leaves the credit and no row, and the next one
credits again.  The event of a filled remittance looks at a status that nothing changes, so each
delivery creates an order.

* `creditedOnce_iff`: both are done once throughout a run if and only if the first request that
  credits stores the cashback, or no other one would credit, and one delivery of the event succeeds
  at most.
-/

namespace ZroServices.Otc.Cashbacks

open Foundation

/-- The operations that credited a cashback. -/
def World.creditsOf (w : World) (id : Uuid) : List Credit := w.credits.filter (·.cashback = id)

/-- The orders of a crypto remittance. -/
def World.ordersOf (w : World) (cryptoRemittance : Uuid) : List RemittanceOrder :=
  w.remittanceOrders.filter (·.cryptoRemittance = cryptoRemittance)

/-- The user is credited once at most, and the remittance has one order at most. -/
structure CreditedOnce (id cryptoRemittance : Uuid) (w : World) : Prop where
  credits : (w.creditsOf id).length ≤ 1
  orders : (w.ordersOf cryptoRemittance).length ≤ 1

/-- The request credits its wallet, if its cashback is not there. -/
def Reaches (services : CashbackServices) (request : CreateCashbackRequest) : Bool :=
  request.missing = [] && (checkServices services request).isOk &&
    services.createAndAcceptOperation.arrives

/-- What comes after the credit succeeds. -/
def Stores (services : CashbackServices) (request : CreateCashbackRequest) : Bool :=
  services.createAndAcceptOperation.isAnswered &&
    (checkServices services request).toOption.any (·.quotation.composedBy.isSome) &&
      services.createConversion.isOk && services.getSystemByName.isOk &&
        services.createCryptoOrder.isOk && services.createQuotation.isAnswered &&
          services.createCashback.isOk

/-- A request for the cashback that credits, if the cashback is not there. -/
def Delivery.credits (id : Uuid) (d : Delivery) : Bool :=
  match d.command with
  | .cashback services request => request.id = id && Reaches services request
  | .filled .. => false

/-- A request that stores its cashback, if it credits. -/
def Delivery.stores (d : Delivery) : Bool :=
  match d.command with
  | .cashback services request => Stores services request && d.committed
  | .filled .. => false

/-- A delivery of the event that creates an order of the remittance. -/
def Delivery.orders (cryptoRemittances : Table CryptoRemittance) (id : Uuid) (d : Delivery) : Bool :=
  match d.command with
  | .cashback .. => false
  | .filled services cryptoRemittance systemName =>
      cryptoRemittance = id && systemName ≠ "" &&
        (cryptoRemittances.get? id).any (fun r => r.status = .FILLED) &&
          (services.getSystemByName systemName).toOption.any (·.isSome) &&
            services.createRemittanceOrder.isOk && d.committed

/-! ### A request for a cashback -/

section

variable {config : Config} {services : CashbackServices} {request : CreateCashbackRequest}
  {w w' : World}

/-- What the rest of a request, after the credit, leaves as it is. -/
structure Beside (w w' : World) : Prop where
  credits : w'.credits = w.credits
  cryptoRemittances : w'.cryptoRemittances = w.cryptoRemittances
  remittanceOrders : w'.remittanceOrders = w.remittanceOrders

/-- The rest of a request succeeds. -/
def StoresRest (services : CashbackServices) (checked : Checked) : Bool :=
  checked.quotation.composedBy.isSome && services.createConversion.isOk &&
    services.getSystemByName.isOk && services.createCryptoOrder.isOk &&
      services.createQuotation.isAnswered && services.createCashback.isOk

theorem outcome_storeCashback {checked : Checked} {operation : Uuid}
    (hnone : w.cashbacks.get? request.id = none) :
    Outcome (storeCashback config services request checked operation) w
      (fun _ w' => StoresRest services checked ∧ Beside w w' ∧
        ∃ cashback, cashback.id = request.id ∧ w.cashbacks.insert? cashback = some w'.cashbacks)
      (fun _ w' => StoresRest services checked = false ∧ Beside w w') := by
  rw [storeCashback, outcome_bind, outcome_orThrow]
  refine ⟨fun hcomposed => ⟨by simp [StoresRest, hcomposed], rfl, rfl, rfl⟩,
    fun composedBy hcomposed => ?_⟩
  simp only [outcome_bind, outcome_get, outcome_call, outcome_modify, outcome_remote]
  refine ⟨fun e h => ⟨by simp [StoresRest, h, Except.isOk, Except.toBool], rfl, rfl, rfl⟩,
    fun _ hconversion => ?_⟩
  refine ⟨fun e h => ⟨by simp [StoresRest, h, Except.isOk, Except.toBool], rfl, rfl, rfl⟩,
    fun _ hsystem => ?_⟩
  refine ⟨fun e h => ⟨by simp [StoresRest, h, Except.isOk, Except.toBool], rfl, rfl, rfl⟩,
    fun _ horder => ?_⟩
  refine ⟨fun w₁ hw₁ => ?_, fun e h => ?_, fun _ _ h => nomatch h⟩
  · obtain rfl := Except.ok.inj hw₁
    refine ⟨fun hquotation => ?_, fun e h => ?_⟩
    · refine ⟨fun e h => ⟨by simp [StoresRest, h, Except.isOk, Except.toBool], rfl, rfl, rfl⟩,
        fun _ hcashback => ?_⟩
      rw [insertCashback, outcome_bind, outcome_get, outcome_bind, outcome_orThrow]
      refine ⟨fun hins => ?_, fun cashbacks hins => ?_⟩
      · obtain ⟨cashbacks, hnew⟩ := Table.insert?_of_fresh (r := (⟨request.id, request.user, _,
          request.amount.getD 0, checked.currency.id, request.description, request.issuedBy⟩ :
            Cashback)) hnone
        exact absurd (hins.symm.trans hnew) (by rintro ⟨⟩)
      · refine ⟨?_, ⟨rfl, rfl, rfl⟩, _, rfl, hins⟩
        simp [StoresRest, hcomposed, hconversion, hsystem, horder, hquotation, hcashback,
          Except.isOk, Except.toBool, Fate.isAnswered]
    · exact ⟨by simp [StoresRest, h, Fate.isAnswered], rfl, rfl, rfl⟩
  · exact ⟨by simp [StoresRest, h, Fate.isAnswered], rfl, rfl, rfl⟩

/-- What a request that credits leaves. -/
structure Credited (id : Uuid) (w w' : World) : Prop where
  credits : ∃ credit, credit.cashback = id ∧ w'.credits = w.credits ++ [credit]
  cryptoRemittances : w'.cryptoRemittances = w.cryptoRemittances
  remittanceOrders : w'.remittanceOrders = w.remittanceOrders

variable (config services) in
/-- A request of a cashback that is not there. -/
theorem outcome_createCashback (hnone : w.cashbacks.get? request.id = none) :
    Outcome (createCashback config services request) w
      (fun _ w' => Reaches services request ∧ Stores services request ∧ Credited request.id w w' ∧
        ∃ cashback, cashback.id = request.id ∧ w.cashbacks.insert? cashback = some w'.cashbacks)
      (fun _ w' => (Reaches services request = false ∧ w' = w) ∨
        Reaches services request ∧ Stores services request = false ∧ Credited request.id w w') := by
  rw [createCashback, outcome_bind, outcome_throwIf]
  refine ⟨fun hmissing => .inl ⟨by simp [Reaches, hmissing], rfl⟩, fun hmissing => ?_⟩
  rw [outcome_bind, outcome_get, hnone]
  simp only [outcome_bind, outcome_call, createAndAcceptOperation, outcome_remote]
  refine ⟨fun e h => .inl ⟨by simp [Reaches, h, Except.isOk, Except.toBool], trivial⟩,
    fun checked hchecked => ?_⟩
  have hreaches (harrives : services.createAndAcceptOperation.arrives) :
      Reaches services request := by
    simpa [Reaches, hchecked, Except.isOk, Except.toBool, harrives] using hmissing
  refine ⟨fun w₁ hw₁ => ?_, fun e h => .inl ⟨by simp [Reaches, h, Fate.arrives], trivial⟩,
    fun _ _ h => nomatch h⟩
  obtain rfl := Except.ok.inj hw₁
  refine ⟨fun hanswered => ?_, fun e h => .inr ⟨hreaches (by rw [h]; rfl), ?_, ?_⟩⟩
  · have hr : Reaches services request := hreaches (by rw [hanswered]; rfl)
    have hstores : Stores services request = StoresRest services checked := by
      simp [Stores, StoresRest, hanswered, hchecked, Fate.isAnswered, Except.toOption]
    rw [hstores]
    refine Outcome.mono (outcome_storeCashback ?_) ?_ ?_
    · exact hnone
    · rintro _ w' ⟨hrest, hbeside, hcashback⟩
      exact ⟨hr, hrest, ⟨⟨_, rfl, hbeside.credits⟩, hbeside.cryptoRemittances,
        hbeside.remittanceOrders⟩, hcashback⟩
    · rintro _ w' ⟨hrest, hbeside⟩
      exact .inr ⟨hr, hrest, ⟨_, rfl, hbeside.credits⟩, hbeside.cryptoRemittances,
        hbeside.remittanceOrders⟩
  · simp [Stores, h, Fate.isAnswered]
  · exact ⟨⟨_, rfl, rfl⟩, rfl, rfl⟩

/-- What a request leaves. -/
theorem step_cashback (committed : Bool) :
    let d : Delivery := ⟨.cashback services request, committed⟩
    (step config w d = w ∧
        (w.cashbacks.get? request.id ≠ none ∨ Reaches services request = false)) ∨
      w.cashbacks.get? request.id = none ∧ Reaches services request ∧
        Credited request.id w (step config w d) ∧
          (d.stores = false ∧ (step config w d).cashbacks = w.cashbacks ∨
            d.stores ∧ ∃ cashback, cashback.id = request.id ∧
              w.cashbacks.insert? cashback = some (step config w d).cashbacks) := by
  intro d
  have hstep : step config w d =
      if committed then left (transaction World.rollback (createCashback config services request)) w
      else w.rollback
        (left (transaction World.rollback (createCashback config services request)) w) := rfl
  cases hget : w.cashbacks.get? request.id with
  | some cashback =>
      have hsame : left (transaction World.rollback (createCashback config services request)) w =
          w := by
        refine (left_transaction_iff (P := fun s => s = w)).mpr ?_
        rw [createCashback, outcome_bind, outcome_throwIf]
        refine ⟨fun _ => rfl, fun _ => ?_⟩
        rw [outcome_bind, outcome_get, hget]
        exact outcome_throwIf.mpr ⟨fun _ => rfl, fun _ => rfl⟩
      refine .inl ⟨?_, .inl (by rintro ⟨⟩)⟩
      rw [hstep, hsame]
      cases committed <;> rfl
  | none =>
      have h := outcome_createCashback config services hget
      cases hx : createCashback config services request w with
      | ok a w' =>
          obtain ⟨hreaches, hstores, hcredited, hcashback⟩ := (outcome_of_ok hx).mp h
          have hleft : step config w d = if committed then w' else w.rollback w' := by
            rw [hstep, left, transaction, hx]
          cases committed with
          | true =>
              rw [if_pos rfl] at hleft
              rw [hleft]
              exact .inr ⟨rfl, hreaches, hcredited, .inr ⟨by simp [d, Delivery.stores, hstores],
                hcashback⟩⟩
          | false =>
              rw [if_neg (by rintro ⟨⟩)] at hleft
              rw [hleft]
              exact .inr ⟨rfl, hreaches, ⟨hcredited.credits, rfl, rfl⟩,
                .inl ⟨by simp [d, Delivery.stores], rfl⟩⟩
      | error e w' =>
          have hleft : step config w d = w.rollback w' := by
            rw [hstep, left, transaction, hx]
            cases committed <;> rfl
          rw [hleft]
          rcases (outcome_of_error hx).mp h with ⟨hno, rfl⟩ | ⟨hreaches, hstores, hcredited⟩
          · exact .inl ⟨rfl, .inr hno⟩
          · exact .inr ⟨rfl, hreaches, ⟨hcredited.credits, rfl, rfl⟩,
              .inl ⟨by simp [d, Delivery.stores, hstores], rfl⟩⟩

variable (config w) in
/-- The event of a filled remittance. -/
theorem outcome_handleFilledCryptoRemittance (services : FilledServices) (id : Uuid)
    (systemName : String) (committed : Bool) :
    Outcome (handleFilledCryptoRemittance config services id systemName) w
      (fun _ w' => (Delivery.orders w.cryptoRemittances id
          ⟨.filled services id systemName, committed⟩ = committed) ∧
        ∃ order, order.cryptoRemittance = id ∧
          w' = { w with remittanceOrders := w.remittanceOrders ++ [order] })
      (fun _ w' => Delivery.orders w.cryptoRemittances id
          ⟨.filled services id systemName, committed⟩ = false ∧ w' = w) := by
  rw [handleFilledCryptoRemittance, outcome_bind, outcome_throwIf]
  refine ⟨fun h => ⟨by simp [Delivery.orders, h], rfl⟩, fun hname => ?_⟩
  rw [outcome_bind, outcome_get, outcome_bind, outcome_orThrow]
  refine ⟨fun h => ⟨by simp [Delivery.orders, h], rfl⟩, fun r hr => ?_⟩
  rw [outcome_bind, outcome_throwIf]
  refine ⟨fun h => ⟨by simp [Delivery.orders, hr, h], rfl⟩, fun hfilled => ?_⟩
  rw [outcome_bind, outcome_call]
  refine ⟨fun e h => ⟨by simp [Delivery.orders, h, Except.toOption], rfl⟩, fun found hfound => ?_⟩
  rw [outcome_bind, outcome_orThrow]
  refine ⟨fun h => ⟨by simp [Delivery.orders, hfound, h, Except.toOption], rfl⟩, fun system hs => ?_⟩
  rw [outcome_bind, outcome_call]
  refine ⟨fun e h => ⟨by simp [Delivery.orders, h, Except.isOk, Except.toBool], rfl⟩,
    fun _ hcreate => ?_⟩
  refine ⟨?_, _, rfl, rfl⟩
  have hstatus : r.status = .FILLED := not_not.mp hfilled
  simp [Delivery.orders, hname, hr, hstatus, hfound, hs, hcreate, Except.toOption, Except.isOk,
    Except.toBool]

/-- What a delivery of the event leaves. -/
theorem step_filled (services : FilledServices) (id : Uuid) (systemName : String)
    (committed : Bool) :
    let d : Delivery := ⟨.filled services id systemName, committed⟩
    (d.orders w.cryptoRemittances id = false ∧ step config w d = w) ∨
      d.orders w.cryptoRemittances id ∧ ∃ order, order.cryptoRemittance = id ∧
        step config w d = { w with remittanceOrders := w.remittanceOrders ++ [order] } := by
  intro d
  have h := outcome_handleFilledCryptoRemittance config w services id systemName committed
  cases hx : handleFilledCryptoRemittance config services id systemName w with
  | ok a w' =>
      obtain ⟨horders, order, horder, hw'⟩ := (outcome_of_ok hx).mp h
      have hleft : step config w d = if committed then w' else w.rollback w' := by
        rw [step]
        simp only [d, left, transaction, hx]
      cases committed with
      | true => exact .inr ⟨horders, order, horder, hleft.trans hw'⟩
      | false => exact .inl ⟨horders, hleft.trans (by rw [hw']; rfl)⟩
  | error e w' =>
      obtain ⟨horders, rfl⟩ := (outcome_of_error hx).mp h
      have hleft : step config w' d = w' := by
        rw [step]
        simp only [d, left, transaction, hx]
        cases committed <;> rfl
      exact .inl ⟨horders, hleft⟩

/-! ### Runs -/

variable (config w) in
/-- Every delivery is an attempt to credit a cashback. -/
theorem attempt_credits (id : Uuid) (d : Delivery) :
    (⟨((step config w d).creditsOf id).length, ((step config w d).cashbacks.get? id).isSome⟩ :
        Attempts) =
      attempt (Delivery.credits id) Delivery.stores
        ⟨(w.creditsOf id).length, (w.cashbacks.get? id).isSome⟩ d := by
  obtain ⟨command, committed⟩ := d
  cases command with
  | filled services cryptoRemittance systemName =>
      have hsame : (step config w ⟨.filled services cryptoRemittance systemName, committed⟩).creditsOf
            id = w.creditsOf id ∧
          (step config w ⟨.filled services cryptoRemittance systemName, committed⟩).cashbacks =
            w.cashbacks := by
        rcases step_filled services cryptoRemittance systemName committed with
          ⟨-, hstep⟩ | ⟨-, _, -, hstep⟩
        · rw [hstep]
          exact ⟨rfl, rfl⟩
        · rw [hstep]
          exact ⟨rfl, rfl⟩
      rw [hsame.1, hsame.2]
      simp [attempt, Delivery.credits]
  | cashback services request =>
      rcases step_cashback committed with
        ⟨hstep, hidle⟩ | ⟨hnone, hreaches, hcredited, hstored⟩
      · rw [hstep, attempt]
        rcases hidle with hsome | hno
        · by_cases hid : request.id = id
          · rw [if_pos (Option.isSome_iff_ne_none.mpr (hid ▸ hsome))]
          · simp [Delivery.credits, hid]
        · simp [Delivery.credits, hno]
      · obtain ⟨credit, hcredit, hcredits⟩ := hcredited.credits
        by_cases hid : request.id = id
        · subst hid
          rw [attempt, World.creditsOf, hcredits, hnone]
          rcases hstored with ⟨hno, hrows⟩ | ⟨hstores, cashback, hkey, hins⟩
          · rw [hrows, hnone, hno]
            simp [Delivery.credits, hreaches, hcredit, World.creditsOf]
          · rw [← hkey, show Table.get? _ cashback.id = _ from Table.get?_insert?_self hins, hstores]
            simp [Delivery.credits, hreaches, hcredit, World.creditsOf, hkey]
        · have hcount : (step config w ⟨.cashback services request, committed⟩).creditsOf id =
              w.creditsOf id := by
            rw [World.creditsOf, hcredits]
            simp [World.creditsOf, hcredit, hid]
          have hrow : (step config w ⟨.cashback services request, committed⟩).cashbacks.get? id =
              w.cashbacks.get? id := by
            rcases hstored with ⟨-, hrows⟩ | ⟨-, cashback, hkey, hins⟩
            · rw [hrows]
            · exact Table.get?_insert?_ne hins fun h => hid (hkey.symm.trans h)
          rw [hcount, hrow]
          simp [attempt, Delivery.credits, hid]

variable (config w) in
/-- Every delivery is an attempt to order a remittance, which leaves no mark. -/
theorem attempt_orders (cryptoRemittance : Uuid) (d : Delivery) :
    (⟨((step config w d).ordersOf cryptoRemittance).length, false⟩ : Attempts) =
      attempt (Delivery.orders w.cryptoRemittances cryptoRemittance) (fun _ => false)
        ⟨(w.ordersOf cryptoRemittance).length, false⟩ d := by
  obtain ⟨command, committed⟩ := d
  cases command with
  | cashback services request =>
      have hsame : (step config w ⟨.cashback services request, committed⟩).remittanceOrders =
          w.remittanceOrders := by
        rcases step_cashback committed with ⟨hstep, -⟩ | ⟨-, -, hcredited, -⟩
        · rw [hstep]
        · exact hcredited.remittanceOrders
      rw [World.ordersOf, hsame]
      simp [attempt, Delivery.orders, World.ordersOf]
  | filled services id systemName =>
      rcases step_filled services id systemName committed with
        ⟨horders, hstep⟩ | ⟨horders, order, horder, hstep⟩
      · rw [hstep]
        by_cases hid : id = cryptoRemittance
        · subst hid
          simp [attempt, horders]
        · simp [attempt, Delivery.orders, hid]
      · rw [hstep]
        by_cases hid : id = cryptoRemittance
        · subst hid
          simp [attempt, horders, World.ordersOf, horder]
        · simp [attempt, Delivery.orders, hid, World.ordersOf, horder]

variable (config w) in
theorem cryptoRemittances_step (d : Delivery) :
    (step config w d).cryptoRemittances = w.cryptoRemittances := by
  obtain ⟨command, committed⟩ := d
  cases command with
  | cashback services request =>
      rcases step_cashback committed with ⟨hstep, -⟩ | ⟨-, -, hcredited, -⟩
      · rw [hstep]
      · exact hcredited.cryptoRemittances
  | filled services id systemName =>
      rcases step_filled services id systemName committed with
        ⟨-, hstep⟩ | ⟨-, _, -, hstep⟩
      · rw [hstep]
      · rw [hstep]

/-- Throughout a run a cashback is credited once at most, and a remittance ordered once at most, if
and only if the first request that credits stores the cashback, or is the only one, and one delivery
of the event creates an order at most. -/
theorem creditedOnce_iff (config : Config) {id cryptoRemittance : Uuid} {w : World}
    (hcredits : w.creditsOf id = []) (hcashback : w.cashbacks.get? id = none)
    (horders : w.ordersOf cryptoRemittance = []) (ds : List Delivery) :
    (∀ ms, ms <+: ds → CreditedOnce id cryptoRemittance (run (step config) w ms)) ↔
      MarksFirst (Delivery.credits id) Delivery.stores ds ∧
        (ds.filter (Delivery.orders w.cryptoRemittances cryptoRemittance)).length ≤ 1 := by
  have hcredited := counted_le_one_iff (I := fun _ => True) (fun s : World => (s.creditsOf id).length)
    (fun s => (s.cashbacks.get? id).isSome) (fun _ _ _ => trivial)
    (fun s d _ => attempt_credits config s id d) (s := w) trivial
    (by simp [hcredits]) (by simp [hcashback]) ds
  have hordered := counted_le_one_iff (I := fun s => s.cryptoRemittances = w.cryptoRemittances)
    (fun s : World => (s.ordersOf cryptoRemittance).length) (fun _ => false)
    (fun s d hs => (cryptoRemittances_step config s d).trans hs)
    (fun s d hs => hs ▸ attempt_orders config s cryptoRemittance d) (s := w) rfl
    (by simp [horders]) rfl ds
  rw [← hcredited, ← marksFirst_false_iff, ← hordered]
  constructor
  · exact fun h => ⟨fun ms hms => (h ms hms).credits, fun ms hms => (h ms hms).orders⟩
  · exact fun h ms hms => ⟨h.1 ms hms, h.2 ms hms⟩

end

/-! A cashback of the user 3 into the wallet 5, and the filled remittance 6. -/

def sampleConfig : Config := ⟨"CASHBACK", "USD", .D0, .D2⟩

def sampleCurrency : Currency := ⟨1, "BTC", 8, true⟩

def sampleQuotation : Quotation where
  id := 2
  provider := some "BINANCE"
  baseCurrency := some "BTC"
  quoteCurrency := some "BRL"
  quoteDecimal := 2
  baseAmountBuy := 10
  baseAmountSell := 10
  quoteAmountBuy := 500
  quoteAmountSell := 500
  partialBuy := 500
  partialSell := 500
  spreads := [7]
  spreadBuy := some 1
  spreadSell := some 1
  spreadAmountBuy := some 1
  spreadAmountSell := some 1
  side := some .BUY
  composedBy := some []

/-- Services that answer every call, but for the insert of the cashback. -/
def sampleServices (createCashback : Except Exception Unit) : CashbackServices where
  getUserByUuid := .ok (some ⟨some "11122233344", some "Rui", some .NATURAL_PERSON⟩)
  getOnboardingByUserAndStatusIsFinished := .ok true
  getCurrencyBySymbol _ := .ok (some sampleCurrency)
  getQuotation := .ok (some sampleQuotation)
  getWalletAccountByWalletAndCurrency := .ok (some true)
  createAndAcceptOperation := .answered
  createConversion := .ok ()
  getSystemByName := .ok (some 1)
  createCryptoOrder := .ok ()
  createQuotation := .answered
  createCashback := createCashback

def sampleRequest : CreateCashbackRequest := ⟨9, 3, 5, "BTC", "BRL", some 5, none, none⟩

def sampleWorld : World where
  conversions := []
  cryptoOrders := []
  cashbacks := Table.empty
  cryptoRemittances := Table.empty.upsert ⟨6, .FILLED, .BUY, 8, 1, 2, none, 10, 500, 1⟩
  remittanceOrders := []
  credits := []
  quotations := []

theorem creditedOnce_stored :
    (∀ ms, ms <+: [⟨.cashback (sampleServices (.ok ())) sampleRequest, true⟩,
          ⟨.cashback (sampleServices (.ok ())) sampleRequest, true⟩] →
        CreditedOnce 9 6 (run (step sampleConfig) sampleWorld ms)) ↔
      MarksFirst (Delivery.credits 9) Delivery.stores
          [⟨.cashback (sampleServices (.ok ())) sampleRequest, true⟩,
            ⟨.cashback (sampleServices (.ok ())) sampleRequest, true⟩] ∧
        (List.filter (Delivery.orders sampleWorld.cryptoRemittances 6)
          [⟨.cashback (sampleServices (.ok ())) sampleRequest, true⟩,
            ⟨.cashback (sampleServices (.ok ())) sampleRequest, true⟩]).length ≤ 1 :=
  creditedOnce_iff sampleConfig rfl rfl rfl _

/-- The cashback's insert fails after the credit, and the next request credits again. -/
theorem credited_twice :
    ¬ ∀ (config : Config) (id cryptoRemittance : Uuid) (w : World), w.creditsOf id = [] →
      w.cashbacks.get? id = none → w.ordersOf cryptoRemittance = [] → ∀ ds,
        CreditedOnce id cryptoRemittance (run (step config) w ds) := by
  intro h
  have honce := h sampleConfig 9 6 sampleWorld rfl rfl rfl
    [⟨.cashback (sampleServices (.error (.service "connection lost"))) sampleRequest, true⟩,
      ⟨.cashback (sampleServices (.ok ())) sampleRequest, true⟩]
  exact absurd honce.credits (by decide +kernel)

end ZroServices.Otc.Cashbacks
