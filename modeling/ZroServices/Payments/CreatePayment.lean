import ZroServices.Payments.InStep

/-!
# Payments — how a payment is asked for

Eight use cases make a payment: to an account, to a PIX key, or by a QR code that was decoded.  They
find the payer in the same way, and differ in where the beneficiary and the value come from, and in
whether the payment may be scheduled.  A payment that pays cash back has a second operation.

The ids of a request, of the user and of the wallet are there: the controllers check them.
-/

namespace ZroServices.Payments.CreatePayment

open Foundation
open Pix (Ispb)

inductive PaymentType where
  | ACCOUNT
  | KEY
  | QR_CODE_STATIC_INSTANT
  | QR_CODE_STATIC_WITHDRAWAL
  | QR_CODE_DYNAMIC_INSTANT
  | QR_CODE_DYNAMIC_DUE_DATE
  | QR_CODE_DYNAMIC_WITHDRAWAL
  | QR_CODE_DYNAMIC_CHANGE
  deriving DecidableEq, Repr

inductive DecodedQrCodeType where
  | QR_CODE_STATIC_INSTANT_PAYMENT
  | QR_CODE_STATIC_WITHDRAWAL
  | QR_CODE_DYNAMIC_DUE_DATE
  | QR_CODE_DYNAMIC_WITHDRAWAL
  | QR_CODE_DYNAMIC_CHANGE
  | QR_CODE_DYNAMIC_INSTANT_PAYMENT
  deriving DecidableEq, Repr

inductive DecodedQrCodeState where
  | PENDING
  | READY
  | ERROR
  deriving DecidableEq, Repr

/-- The states of a decoded account and of a decoded key. -/
inductive DecodedState where
  | PENDING
  | CONFIRMED
  | ERROR
  deriving DecidableEq, Repr

inductive Exception where
  | missingData (fields : List String)
  | forbidden
  | userNotFound (user : Uuid)
  | onboardingNotFound (user : Uuid)
  | walletAccountNotFound (wallet : Uuid)
  | walletAccountNotActive (wallet : Uuid)
  | paymentInvalidDate (paymentDate : Option ℤ)
  | decodedPixAccountNotFound (id : Uuid)
  | decodedPixAccountInvalidState (id : Uuid)
  | decodedPixKeyNotFound (id : Uuid)
  | decodedPixKeyInvalidState (id : Uuid)
  | decodedQrCodeNotFound (id : Uuid)
  | decodedQrCodeInvalidState (id : Uuid)
  | decodedQrCodeInvalidType (type : DecodedQrCodeType)
  | decodedQrCodeExpired (id : Uuid)
  | paymentValueIsNotPositive (value : Option ℕ)
  | bankNotFound
  | uniqueConstraint (id : Uuid)
  /-- Of the database, about a value that is not a number. -/
  | invalidValue
  | service (message : String)
  deriving DecidableEq, Repr

/-! ### What the other services answer -/

structure User where
  document : Option String
  fullName : Option String

structure OwnerWalletAccount where
  isActive : Bool
  accountNumber : Option String
  branchNumber : Option String

structure DecodedPixAccount where
  state : DecodedState
  branch : String
  bank : Ispb
  name : Option String
  accountNumber : String
  document : String

structure DecodedPixKey where
  state : DecodedState
  branch : String
  ispb : Ispb
  name : Option String
  accountNumber : String
  document : String
  endToEndId : Option String
  key : Option String

structure DecodedQrCode where
  state : DecodedQrCodeState
  type : DecodedQrCodeType
  allowUpdate : Bool
  documentValue : Option ℕ
  paymentValue : Option ℕ
  withdrawValue : Option ℕ
  changeValue : Option ℕ
  expirationDate : Option ℤ
  paymentDate : Option ℤ
  pss : Option Ispb
  txId : Option String
  key : Option String
  endToEndId : Option String
  recipientBranch : String
  recipientAccountNumber : String
  recipientBankIspb : Ispb
  recipientDocument : String
  recipientName : Option String

structure Services where
  getUserByUuid : Uuid → Except Exception (Option User)
  /-- Whether there is one. -/
  getOnboardingByUserAndStatusIsFinished : Uuid → Except Exception Bool
  getWalletAccountByWalletAndCurrency : Uuid → Except Exception (Option OwnerWalletAccount)
  getDecodedPixAccountById : Uuid → Except Exception (Option DecodedPixAccount)
  confirmDecodedPixAccount : Uuid → Except Exception Unit
  getDecodedPixKeyById : Uuid → Except Exception (Option DecodedPixKey)
  confirmDecodedPixKey : Uuid → Except Exception Unit
  getDecodedQrCodeById : Uuid → Except Exception (Option DecodedQrCode)
  /-- Whether there is one. -/
  getBankByIspb : Ispb → Except Exception Bool

/-- The transaction tags of the settings. -/
structure Config where
  sendAccountTransactionTag : String
  sendKeyTransactionTag : String
  sendQrsTransactionTag : String
  sendQrdTransactionTag : String
  withdrawalQrsTransactionTag : String
  withdrawalQrdTransactionTag : String
  duedateQrdTransactionTag : String
  changeQrdTransactionTag : String

/-- The payment as it is asked for, with the id of what was decoded. -/
structure Request where
  id : Uuid
  value : Option ℕ
  paymentDate : Option ℤ
  description : Option String
  decoded : Option Uuid

abbrev App := EStateM Exception World

/-! ### The steps that use cases share -/

structure Owner where
  user : Uuid
  wallet : Uuid
  branch : String
  accountNumber : String
  document : String
  fullName : String

structure Beneficiary where
  bankIspb : Ispb
  branch : String
  accountNumber : String
  document : String
  name : Option String
  key : Option String
  txId : Option String
  endToEndId : Option String

def DecodedPixAccount.beneficiary (a : DecodedPixAccount) : Beneficiary :=
  ⟨a.bank, a.branch, a.accountNumber, a.document, a.name, none, none, none⟩

def DecodedPixKey.beneficiary (k : DecodedPixKey) : Beneficiary :=
  ⟨k.ispb, k.branch, k.accountNumber, k.document, k.name, k.key, none, k.endToEndId⟩

def DecodedQrCode.beneficiary (q : DecodedQrCode) : Beneficiary :=
  ⟨q.recipientBankIspb, q.recipientBranch, q.recipientAccountNumber, q.recipientDocument,
    q.recipientName, q.key, q.txId, q.endToEndId⟩

/-- JavaScript's `!text`. -/
def lacking (text : Option String) : Bool := text.getD "" = ""

/-- A value is missing when it is 0, too. -/
def missingFields (request : Request) (decoded : String) : List String :=
  (if request.value.getD 0 = 0 then ["Payment Value"] else []) ++
    if request.decoded = none then [decoded] else []

section

variable (services : Services) (now : ℤ) (user wallet : Uuid) (request : Request)

/-- The payer. -/
def findOwner : App Owner := do
  let userFound ← call (services.getUserByUuid user)
  let userFound ← orThrow userFound (.userNotFound user)
  throwIf (lacking userFound.document ∨ lacking userFound.fullName) (.missingData
    ((if lacking userFound.document then ["Document"] else []) ++
      if lacking userFound.fullName then ["FullName"] else []))
  let onboarding ← call (services.getOnboardingByUserAndStatusIsFinished user)
  throwIf (¬onboarding) (.onboardingNotFound user)
  let account ← call (services.getWalletAccountByWalletAndCurrency wallet)
  let account ← orThrow account (.walletAccountNotFound wallet)
  throwIf (¬account.isActive) (.walletAccountNotActive wallet)
  throwIf (lacking account.accountNumber ∨ lacking account.branchNumber) (.missingData
    ((if lacking account.accountNumber then ["Account Number"] else []) ++
      if lacking account.branchNumber then ["Branch Number"] else []))
  return ⟨user, wallet, account.branchNumber.getD "", account.accountNumber.getD "",
    userFound.document.getD "", userFound.fullName.getD ""⟩

/-- A payment of that id is answered again; else the payer is found, and the payment is built. -/
def withNewPayment (missing : List String) (build : Owner → App Payment) : App Payment := do
  throwIf (missing ≠ []) (.missingData missing)
  let w ← get
  match w.payments.get? request.id with
  | some payment => do
      throwIf (payment.wallet ≠ wallet) .forbidden
      return payment
  | none => do
      let owner ← findOwner services user wallet
      build owner

/-- `isTodayPayment`. -/
def isToday (paymentDate : Option ℤ) : Bool :=
  match paymentDate with
  | none => true
  | some date => localDay date = localDay now

/-- `isScheduledPayment`: after today, for three months. -/
def isScheduled (paymentDate : Option ℤ) : Bool :=
  match paymentDate with
  | none => false
  | some date => localDay now < localDay date ∧ localDay date ≤ localDay (subtractMonths (-3) now)

/-- Whether the payment is right now or scheduled. -/
def stateAt (paymentDate : Option ℤ) : App PaymentState :=
  if isToday now paymentDate then return .PENDING
  else if isScheduled now paymentDate then return .SCHEDULED
  else throw (.paymentInvalidDate paymentDate)

/-- The decoded QR code, ready and of the type. -/
def getDecodedQrCode (type : DecodedQrCodeType) : App DecodedQrCode := do
  let id := request.decoded.getD 0
  let decodedQrCode ← call (services.getDecodedQrCodeById id)
  let decodedQrCode ← orThrow decodedQrCode (.decodedQrCodeNotFound id)
  throwIf (decodedQrCode.state ≠ .READY) (.decodedQrCodeInvalidState id)
  throwIf (decodedQrCode.type ≠ type) (.decodedQrCodeInvalidType decodedQrCode.type)
  return decodedQrCode

/-- `isExpiredQrCode`: the day of the expiration date is over. -/
def checkExpired (q : DecodedQrCode) : App Unit :=
  throwIf (∃ date ∈ q.expirationDate, localDay date < localDay now)
    (.decodedQrCodeExpired (request.decoded.getD 0))

/-- The value of a static QR code, or else the value that was sent.  A value that was not sent
passes for one that is positive. -/
def staticValue (q : DecodedQrCode) : App (Option ℕ) :=
  if 0 < q.paymentValue.getD 0 then return q.paymentValue
  else do
    throwIf (request.value = some 0) (.paymentValueIsNotPositive request.value)
    return request.value

/-- The value of a dynamic QR code, unless the QR code allows for another one. -/
def dynamicValue (q : DecodedQrCode) (value : Option ℕ) : App (Option ℕ) :=
  if q.allowUpdate then do
    throwIf (request.value = some 0) (.paymentValueIsNotPositive request.value)
    return request.value
  else do
    throwIf (value.getD 0 = 0) (.paymentValueIsNotPositive value)
    return value

/-- The row of a payment.  A value that is not there is 0 in the database. -/
def newPayment (owner : Owner) (beneficiary : Beneficiary) (tag : String) (state : PaymentState)
    (paymentDate : Option ℤ) (value : Option ℕ) (operation : Uuid)
    (changeOperation : Option Uuid) : Payment where
  id := request.id
  user := owner.user
  wallet := owner.wallet
  operation := some operation
  changeOperation := changeOperation
  state := state
  value := value.getD 0
  transactionTag := tag
  paymentDate := paymentDate
  endToEndId := beneficiary.endToEndId
  externalId := none
  txId := beneficiary.txId
  key := beneficiary.key
  description := request.description
  beneficiaryBankIspb := beneficiary.bankIspb
  beneficiaryBranch := beneficiary.branch
  beneficiaryAccountNumber := beneficiary.accountNumber
  beneficiaryDocument := beneficiary.document
  beneficiaryName := beneficiary.name
  ownerBranch := owner.branch
  ownerAccountNumber := owner.accountNumber
  ownerDocument := owner.document
  ownerFullName := owner.fullName
  chargebackReason := none
  failed := none
  createdAt := now
  updatedAt := now
  confirmedAt := none
  canceledAt := none

/-- `PaymentRepository.create`. -/
def createRow (payment : Payment) : App Payment := do
  let w ← get
  let payments ← orThrow (w.payments.insert? payment) (.uniqueConstraint payment.id)
  modify fun w => { w with payments }
  return payment

/-- A payment with one operation. -/
def createPayment (owner : Owner) (beneficiary : Beneficiary) (tag : String) (state : PaymentState)
    (paymentDate : Option ℤ) (value : Option ℕ) : App Payment := do
  let w ← get
  createRow (newPayment now request owner beneficiary tag state paymentDate value w.uuidV4 none)

end

/-! ### The use cases -/

section

variable (config : Config) (services : Services) (now : ℤ) (user wallet : Uuid) (request : Request)

def createByAccountPayment : App Payment :=
  withNewPayment services user wallet request (missingFields request "Payment Pix Account ID")
    fun owner => do
      let state ← stateAt now request.paymentDate
      let id := request.decoded.getD 0
      let decodedPixAccount ← call (services.getDecodedPixAccountById id)
      let decodedPixAccount ← orThrow decodedPixAccount (.decodedPixAccountNotFound id)
      throwIf (decodedPixAccount.state ≠ .PENDING) (.decodedPixAccountInvalidState id)
      let payment ← createPayment now request owner decodedPixAccount.beneficiary
        config.sendAccountTransactionTag state request.paymentDate request.value
      call (services.confirmDecodedPixAccount id)
      return payment

def createByPixKeyPayment : App Payment :=
  withNewPayment services user wallet request (missingFields request "Payment Pix Key ID")
    fun owner => do
      let state ← stateAt now request.paymentDate
      let id := request.decoded.getD 0
      let decodedPixKey ← call (services.getDecodedPixKeyById id)
      let decodedPixKey ← orThrow decodedPixKey (.decodedPixKeyNotFound id)
      throwIf (decodedPixKey.state ≠ .PENDING) (.decodedPixKeyInvalidState id)
      let foundBank ← call (services.getBankByIspb decodedPixKey.ispb)
      throwIf (¬foundBank) .bankNotFound
      let payment ← createPayment now request owner decodedPixKey.beneficiary
        config.sendKeyTransactionTag state request.paymentDate request.value
      call (services.confirmDecodedPixKey id)
      return payment

/-- The fields that a payment by a QR code must have. -/
def missingQrCode : List String :=
  if request.decoded = none then ["Payment Qr Code ID"] else []

def createByQrCodeStaticPayment : App Payment :=
  withNewPayment services user wallet request (missingQrCode request) fun owner => do
    let state ← stateAt now request.paymentDate
    let decodedQrCode ← getDecodedQrCode services request .QR_CODE_STATIC_INSTANT_PAYMENT
    let value ← staticValue request decodedQrCode
    createPayment now request owner decodedQrCode.beneficiary config.sendQrsTransactionTag state
      (some (request.paymentDate.getD now)) value

def createByQrCodeDynamicPayment : App Payment :=
  withNewPayment services user wallet request (missingQrCode request) fun owner => do
    let state ← stateAt now request.paymentDate
    let decodedQrCode ← getDecodedQrCode services request .QR_CODE_DYNAMIC_INSTANT_PAYMENT
    checkExpired now request decodedQrCode
    let value ← dynamicValue request decodedQrCode decodedQrCode.documentValue
    createPayment now request owner decodedQrCode.beneficiary config.sendQrdTransactionTag state
      (some (request.paymentDate.getD now)) value

def duedateByQrCodeDynamicPayment : App Payment :=
  withNewPayment services user wallet request (missingQrCode request) fun owner => do
    let decodedQrCode ← getDecodedQrCode services request .QR_CODE_DYNAMIC_DUE_DATE
    checkExpired now request decodedQrCode
    let paymentDate := decodedQrCode.paymentDate.getD now
    throwIf (decodedQrCode.paymentValue.getD 0 = 0)
      (.paymentValueIsNotPositive decodedQrCode.paymentValue)
    let state ← stateAt now (some paymentDate)
    createPayment now request owner decodedQrCode.beneficiary config.duedateQrdTransactionTag state
      (some paymentDate) decodedQrCode.paymentValue

def withdrawalByQrCodeStaticPayment : App Payment :=
  withNewPayment services user wallet request (missingQrCode request) fun owner => do
    let decodedQrCode ← getDecodedQrCode services request .QR_CODE_STATIC_WITHDRAWAL
    let value ← staticValue request decodedQrCode
    throwIf (lacking decodedQrCode.pss) (.missingData ["PSS Agent ISPB"])
    let foundBank ← call (services.getBankByIspb (decodedQrCode.pss.getD ""))
    throwIf (¬foundBank) .bankNotFound
    createPayment now request owner decodedQrCode.beneficiary config.withdrawalQrsTransactionTag
      .PENDING (some now) value

def withdrawalByQrCodeDynamicPayment : App Payment :=
  withNewPayment services user wallet request (missingQrCode request) fun owner => do
    let decodedQrCode ← getDecodedQrCode services request .QR_CODE_DYNAMIC_WITHDRAWAL
    checkExpired now request decodedQrCode
    let value ← dynamicValue request decodedQrCode decodedQrCode.withdrawValue
    createPayment now request owner decodedQrCode.beneficiary config.withdrawalQrdTransactionTag
      .PENDING (some now) value

/-- The value is the cash back and the value of the document, and there is an operation for the cash
back. -/
def changeByQrCodeDynamicPayment : App Payment :=
  withNewPayment services user wallet request (missingQrCode request) fun owner => do
    let decodedQrCode ← getDecodedQrCode services request .QR_CODE_DYNAMIC_CHANGE
    checkExpired now request decodedQrCode
    let value ← dynamicValue request decodedQrCode decodedQrCode.changeValue
    -- a value that was not sent makes the sum `NaN`
    let value ← orThrow value .invalidValue
    let w ← get
    createRow (newPayment now request owner decodedQrCode.beneficiary
      config.changeQrdTransactionTag .PENDING (some now)
      (some (value + decodedQrCode.documentValue.getD 0)) w.uuidV4 (some (w.uuidV4 + 1)))

/-- The use case that makes payments of a type. -/
def execute : PaymentType → App Payment
  | .ACCOUNT => createByAccountPayment config services now user wallet request
  | .KEY => createByPixKeyPayment config services now user wallet request
  | .QR_CODE_STATIC_INSTANT => createByQrCodeStaticPayment config services now user wallet request
  | .QR_CODE_STATIC_WITHDRAWAL =>
      withdrawalByQrCodeStaticPayment config services now user wallet request
  | .QR_CODE_DYNAMIC_INSTANT => createByQrCodeDynamicPayment config services now user wallet request
  | .QR_CODE_DYNAMIC_DUE_DATE =>
      duedateByQrCodeDynamicPayment config services now user wallet request
  | .QR_CODE_DYNAMIC_WITHDRAWAL =>
      withdrawalByQrCodeDynamicPayment config services now user wallet request
  | .QR_CODE_DYNAMIC_CHANGE => changeByQrCodeDynamicPayment config services now user wallet request

end

/-! ### What is made -/

/-- Every payment that the code returns has `Q`. -/
def Returns (Q : Payment → Prop) (x : App Payment) : Prop := ∀ w p w', x w = .ok p w' → Q p

section

variable {α : Type} {Q : Payment → Prop} {config : Config} {services : Services} {now : ℤ}
  {user wallet : Uuid} {request : Request}

theorem Returns.bind {x : App α} {k : α → App Payment} (hk : ∀ a, Returns Q (k a)) :
    Returns Q (x >>= k) := by
  intro w p w' h
  obtain ⟨a, w₁, -, hka⟩ := bind_ok.mp h
  exact hk a w₁ p w' hka

/-- Code that goes on with the payment it has made. -/
theorem Returns.then_call {x : App Payment} {c : Except Exception Unit} (hx : Returns Q x) :
    Returns Q (x >>= fun payment => call c >>= fun _ => pure payment) := by
  intro w p w' h
  obtain ⟨payment, w₁, hpayment, h⟩ := bind_ok.mp h
  obtain ⟨-, -, h⟩ := call_bind_ok.mp h
  obtain ⟨rfl, -⟩ := pure_ok.mp h
  exact hx w p w₁ hpayment

theorem returns_createRow {payment : Payment} (h : Q payment) : Returns Q (createRow payment) := by
  intro w p w' hrun
  obtain ⟨_, -, hrun⟩ := orThrow_bind_ok.mp (get_bind_ok.mp hrun)
  obtain ⟨_, _, -, hrun⟩ := bind_ok.mp hrun
  obtain ⟨rfl, -⟩ := pure_ok.mp hrun
  exact h

theorem returns_createPayment {owner : Owner} {beneficiary : Beneficiary} {tag : String}
    {state : PaymentState} {paymentDate : Option ℤ} {value : Option ℕ} :
    Returns (fun p => p.changeOperation = none)
      (createPayment now request owner beneficiary tag state paymentDate value) :=
  Returns.bind fun _ => returns_createRow rfl

/-- A payment of an id that is new is the one that is built. -/
theorem withNewPayment_ok {missing : List String} {build : Owner → App Payment} {w w' : World}
    {p : Payment} (hbuild : ∀ owner, Returns Q (build owner))
    (hnew : w.payments.get? request.id = none)
    (h : withNewPayment services user wallet request missing build w = .ok p w') : Q p := by
  obtain ⟨-, h⟩ := throwIf_bind_ok.mp h
  have hrun := get_bind_ok.mp h
  rw [hnew] at hrun
  obtain ⟨owner, w₁, -, hrun⟩ := bind_ok.mp hrun
  exact hbuild owner w₁ p w' hrun

/-- A value that passed is not 0. -/
theorem dynamicValue_ok {q : DecodedQrCode} {value : Option ℕ} {v : Option ℕ} {w w' : World}
    (h : dynamicValue request q value w = .ok v w') : v ≠ some 0 := by
  rw [dynamicValue] at h
  split at h
  · obtain ⟨hpos, h⟩ := throwIf_bind_ok.mp h
    obtain ⟨rfl, -⟩ := pure_ok.mp h
    exact hpos
  · obtain ⟨hpos, h⟩ := throwIf_bind_ok.mp h
    obtain ⟨rfl, -⟩ := pure_ok.mp h
    rintro rfl
    exact hpos rfl

theorem returns_change (owner : Owner) : Returns (fun p => p.changeOperation.isSome ∧ 0 < p.value)
    (getDecodedQrCode services request .QR_CODE_DYNAMIC_CHANGE >>= fun decodedQrCode =>
      checkExpired now request decodedQrCode >>= fun _ =>
        dynamicValue request decodedQrCode decodedQrCode.changeValue >>= fun value =>
          orThrow value .invalidValue >>= fun value =>
            get >>= fun w => createRow (newPayment now request owner decodedQrCode.beneficiary
              config.changeQrdTransactionTag .PENDING (some now)
              (some (value + decodedQrCode.documentValue.getD 0)) w.uuidV4
                (some (w.uuidV4 + 1)))) := by
  refine Returns.bind fun decodedQrCode => Returns.bind fun _ => ?_
  intro w p w' h
  obtain ⟨value, w₁, hvalue, h⟩ := bind_ok.mp h
  obtain ⟨v, rfl, hrun⟩ := orThrow_bind_ok.mp h
  have hpos : v ≠ 0 := fun hzero => dynamicValue_ok hvalue (congrArg some hzero)
  have hrow := get_bind_ok.mp hrun
  have hvalue : 0 < v + decodedQrCode.documentValue.getD 0 :=
    (Nat.pos_of_ne_zero hpos).trans_le (Nat.le_add_right v _)
  exact returns_createRow (Q := fun p => p.changeOperation.isSome ∧ 0 < p.value) ⟨rfl, hvalue⟩
    w₁ p w' hrow

/-- The payment of a use case has an operation for cash back, and then a value, or it has none. -/
theorem execute_ok {type : PaymentType} {w w' : World} {p : Payment}
    (hnew : w.payments.get? request.id = none)
    (h : execute config services now user wallet request type w = .ok p w') :
    (type = .QR_CODE_DYNAMIC_CHANGE ∧ p.changeOperation.isSome ∧ 0 < p.value) ∨
      (type ≠ .QR_CODE_DYNAMIC_CHANGE ∧ p.changeOperation = none) := by
  by_cases hchange : type = .QR_CODE_DYNAMIC_CHANGE
  · subst hchange
    exact .inl ⟨rfl, withNewPayment_ok (Q := fun p => p.changeOperation.isSome ∧ 0 < p.value)
      returns_change hnew h⟩
  · refine .inr ⟨hchange, ?_⟩
    cases type
    case QR_CODE_DYNAMIC_CHANGE => exact absurd rfl hchange
    all_goals
      refine withNewPayment_ok (Q := fun p => p.changeOperation = none) (fun _ => ?_) hnew h
      refine Returns.bind fun _ => Returns.bind fun _ => Returns.bind fun _ => ?_
    case ACCOUNT => exact Returns.bind fun _ => returns_createPayment.then_call
    case KEY =>
      refine Returns.bind fun _ => ?_
      exact Returns.bind fun _ => Returns.bind fun _ => returns_createPayment.then_call
    case QR_CODE_STATIC_WITHDRAWAL =>
      exact Returns.bind fun _ => Returns.bind fun _ => returns_createPayment
    case QR_CODE_DYNAMIC_INSTANT | QR_CODE_DYNAMIC_DUE_DATE =>
      exact Returns.bind fun _ => returns_createPayment
    case QR_CODE_STATIC_INSTANT | QR_CODE_DYNAMIC_WITHDRAWAL => exact returns_createPayment

end

end ZroServices.Payments.CreatePayment
