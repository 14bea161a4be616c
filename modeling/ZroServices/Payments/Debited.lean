import ZroServices.Foundation.Ghost
import ZroServices.Payments.CreatePayment

/-!
# Payments — what the payer is debited

The handler of a pending payment creates its operations with the payer as their owner, and then
sends the value to the PSP or to a deposit inside the bank.  `Sent` notes the raw values of the
operations and the amounts that are sent; without these notes the handler is `handlePendingPayment`
(`erases_handlePendingPayment`).

Each operation of a payment has the whole value.  So the payer is debited once exactly when the
payment pays no cash back (`debitedOnce_iff`).
-/

namespace ZroServices.Payments.Debited

open Foundation

structure Debit where
  operation : Option Uuid
  owner : Uuid
  rawValue : ℕ
  deriving DecidableEq, Repr

structure Sent where
  debits : List Debit
  amounts : List ℕ
  deriving DecidableEq, Repr

abbrev Books := Ghosted World Sent

abbrev App := EStateM Exception Books

def noteDebit (operation : Option Uuid) (owner : Uuid) (rawValue : ℕ) : App Unit :=
  note fun s => { s with debits := s.debits ++ [⟨operation, owner, rawValue⟩] }

def noteAmount (amount : ℕ) : App Unit :=
  note fun s => { s with amounts := s.amounts ++ [amount] }

/-! ### The handler, with notes -/

section

variable (config : Config) (services : Services) (now : ℤ)

def createOperation (tag : String) (operation : Option Uuid) (rawValue : ℕ) (ownerWallet : Uuid) :
    App Unit := do
  onState (Payments.createOperation services tag operation rawValue ownerWallet)
  noteDebit operation ownerWallet rawValue

def createAndAcceptOperation (tag : String) (operation : Option Uuid) (rawValue : ℕ)
    (ownerWallet beneficiaryWallet : Uuid) : App Unit := do
  onState (Payments.createAndAcceptOperation services tag operation rawValue ownerWallet
    beneficiaryWallet)
  noteDebit operation ownerWallet rawValue

def createChangeOperationPSP (payment : Payment) : App Unit :=
  match payment.changeOperation with
  | none => pure ()
  | some change => do
      createOperation services config.changeTransactionTag (some change) payment.value
        payment.wallet
      onState (setOperationReference services payment.operation (some change))

/-- The amount is sent, whether the PSP answers or not. -/
def createPayment (request : CreatePaymentPspRequest) : App CreatePaymentPspResponse := do
  noteAmount request.value
  onState (Payments.createPayment services request)

def sendPaymentPSP (payment : Payment) : App Payment := do
  createOperation services payment.transactionTag payment.operation payment.value payment.wallet
  createChangeOperationPSP config services payment
  let pspResult ← createPayment services (payment.pspRequest config)
  let sent : Payment :=
    { payment with
      endToEndId := pspResult.endToEndId.or payment.endToEndId
      state := .WAITING
      externalId := some pspResult.externalId }
  onState (updatePayment now sent)
  return sent

def createAndAcceptChangeOperationP2P (payment : Payment) (beneficiaryWallet : Uuid) : App Unit :=
  match payment.changeOperation with
  | none => pure ()
  | some change => do
      createAndAcceptOperation services config.changeTransactionTag (some change) payment.value
        payment.wallet beneficiaryWallet
      onState (setOperationReference services payment.operation (some change))

def createDeposit (deposit : Uuid → PaidDeposit) (amount : ℕ) : App Unit := do
  noteAmount amount
  onState (Payments.createDeposit deposit)

def sendPaymentP2P (payment : Payment) (beneficiary : Pix.WalletAccount) : App Payment := do
  createAndAcceptOperation services payment.transactionTag payment.operation payment.value
    payment.wallet beneficiary.wallet
  createAndAcceptChangeOperationP2P config services payment beneficiary.wallet
  let foundBank ← onState (call (services.getBankByIspb payment.beneficiaryBankIspb))
  let bank ← onState (orThrow foundBank .bankNotFound)
  createDeposit (fun id => payment.deposit config id beneficiary bank)
    (payment.deposit config 0 beneficiary bank).amount
  let confirmed : Payment := { payment with state := .CONFIRMED }
  onState (updatePayment now confirmed)
  return confirmed

/-- The money goes to the PSP, or to a wallet of the bank. -/
def sendPending (payment : Payment) : App Payment :=
  match decide (payment.beneficiaryBankIspb = config.zroBankIspb) with
  | false => sendPaymentPSP config services now payment
  | true => do
      let found ← onState (call (services.getWalletAccountByAccountNumberAndCurrency
        payment.beneficiaryAccountNumber))
      let beneficiary ← onState (orThrow found (.pixPaymentZroAccountNotExists payment.id))
      onState (throwIf (¬ beneficiary.isActive) (.walletAccountNotActive beneficiary.wallet))
      onState (throwIf (payment.wallet = beneficiary.wallet)
        (.paymentBetweenSameWallet payment.wallet))
      sendPaymentP2P config services now payment beneficiary

def handlePendingPayment (id : Uuid) : App Payment := do
  let payment ← onState (getById id)
  match payment.state with
  | .WAITING | .CONFIRMED => return payment
  | .PENDING => sendPending config services now payment
  | state => throw (.paymentInvalidState id state)

end

/-! ### Without the notes -/

section

variable {config : Config} {services : Services} {now : ℤ} {payment : Payment}

theorem erases_createChangeOperationPSP : Erases (createChangeOperationPSP config services payment)
    (Payments.createChangeOperationPSP config services payment) := by
  rw [createChangeOperationPSP, Payments.createChangeOperationPSP]
  cases payment.changeOperation with
  | none => exact erases_pure ()
  | some change => exact (erases_then_note _ _).bind fun _ => erases_onState _

theorem erases_sendPaymentPSP : Erases (sendPaymentPSP config services now payment)
    (Payments.sendPaymentPSP config services now payment) := by
  refine (erases_then_note _ _).bind fun _ => erases_createChangeOperationPSP.bind fun _ => ?_
  refine (Erases.note_bind (erases_onState _)).bind fun _ => ?_
  exact (erases_onState _).bind fun _ => erases_pure _

theorem erases_createAndAcceptChangeOperationP2P {wallet : Uuid} :
    Erases (createAndAcceptChangeOperationP2P config services payment wallet)
      (Payments.createAndAcceptChangeOperationP2P config services payment wallet) := by
  rw [createAndAcceptChangeOperationP2P, Payments.createAndAcceptChangeOperationP2P]
  cases payment.changeOperation with
  | none => exact erases_pure ()
  | some change => exact (erases_then_note _ _).bind fun _ => erases_onState _

theorem erases_sendPaymentP2P {beneficiary : Pix.WalletAccount} :
    Erases (sendPaymentP2P config services now payment beneficiary)
      (Payments.sendPaymentP2P config services now payment beneficiary) := by
  refine (erases_then_note _ _).bind fun _ =>
    erases_createAndAcceptChangeOperationP2P.bind fun _ => ?_
  refine (erases_onState _).bind fun _ => (erases_onState _).bind fun _ => ?_
  refine (Erases.note_bind (erases_onState _)).bind fun _ => ?_
  exact (erases_onState _).bind fun _ => erases_pure _

/-- Without the notes, this is the handler. -/
theorem erases_handlePendingPayment {id : Uuid} :
    Erases (handlePendingPayment config services now id)
      (Payments.handlePendingPayment config services now id) := by
  refine (erases_onState _).bind fun payment => ?_
  cases payment.state with
  | WAITING => exact erases_pure _
  | CONFIRMED => exact erases_pure _
  | PENDING =>
      dsimp only
      rw [sendPending]
      cases decide (payment.beneficiaryBankIspb = config.zroBankIspb) with
      | false => exact erases_sendPaymentPSP
      | true =>
          refine (erases_onState _).bind fun _ => (erases_onState _).bind fun _ => ?_
          refine (erases_onState _).bind fun _ => (erases_onState _).bind fun _ => ?_
          exact erases_sendPaymentP2P
  | ERROR => exact erases_throw _
  | FAILED => exact erases_throw _
  | CANCELED => exact erases_throw _
  | SCHEDULED => exact erases_throw _

end

/-! ### What is noted -/

section

variable {α β : Type} {x : App α} {k : α → App β} {l l' : List Debit} {amounts : List ℕ}
  {b b' : Books} {config : Config} {services : Services} {now : ℤ} {payment : Payment}

/-- Code that sends nothing, and notes `l` when it returns. -/
def Books.Notes (l : List Debit) (x : App α) : Prop :=
  ∀ b, Outcome x b
    (fun _ b' => b'.ghost.debits = b.ghost.debits ++ l ∧ b'.ghost.amounts = b.ghost.amounts)
    fun _ b' => b'.ghost.amounts = b.ghost.amounts

/-- The books after code that sends `amounts` once it noted `l`. -/
def Added (l : List Debit) (amounts : List ℕ) (b b' : Books) : Prop :=
  b'.ghost.debits = b.ghost.debits ++ l ∧ b'.ghost.amounts = b.ghost.amounts ++ amounts

/-- Code that throws before it sends, or sends and does not note a debit afterwards. -/
def Books.Sends (l : List Debit) (amounts : List ℕ) (x : App α) : Prop :=
  ∀ b, Outcome x b (fun _ b' => Added l amounts b b')
    fun _ b' => Added l amounts b b' ∨ b'.ghost.amounts = b.ghost.amounts

theorem notes_pure (a : α) : Books.Notes [] (pure a : App α) := fun _ =>
  outcome_pure.mpr ⟨(List.append_nil _).symm, rfl⟩

theorem notes_onState (x : EStateM Exception World α) : Books.Notes [] (onState x) := by
  intro b
  rw [outcome_onState, Outcome]
  cases x b.state with
  | ok a w => exact ⟨(List.append_nil _).symm, rfl⟩
  | error e w => rfl

theorem notes_noteDebit (operation : Option Uuid) (owner : Uuid) (rawValue : ℕ) :
    Books.Notes [⟨operation, owner, rawValue⟩] (noteDebit operation owner rawValue) := fun _ =>
  outcome_note.mpr ⟨rfl, rfl⟩

theorem Books.Notes.bind (hx : Books.Notes l x) (hk : ∀ a, Books.Notes l' (k a)) :
    Books.Notes (l ++ l') (x >>= k) := by
  intro b
  rw [outcome_bind]
  refine (hx b).mono ?_ fun _ _ h => h
  rintro a b₁ ⟨hdebits, hamounts⟩
  refine (hk a b₁).mono ?_ fun _ b' h => h.trans hamounts
  rintro _ b' ⟨hdebits', hamounts'⟩
  exact ⟨by rw [hdebits', hdebits, List.append_assoc], hamounts'.trans hamounts⟩

/-- What is sent after debits were noted. -/
theorem Books.Notes.sends (hx : Books.Notes l x) (hk : ∀ a, Books.Sends l' amounts (k a)) :
    Books.Sends (l ++ l') amounts (x >>= k) := by
  intro b
  rw [outcome_bind]
  refine (hx b).mono ?_ fun _ _ h => .inr h
  rintro a b₁ ⟨hdebits, hamounts⟩
  have hadded : ∀ b', Added l' amounts b₁ b' → Added (l ++ l') amounts b b' := by
    rintro b' ⟨hdebits', hamounts'⟩
    exact ⟨by rw [hdebits', hdebits, List.append_assoc], by rw [hamounts', hamounts]⟩
  refine (hk a b₁).mono (fun _ b' h => hadded b' h) fun _ b' h => ?_
  exact h.imp (hadded b') fun h => h.trans hamounts

/-- What is done after the amount was sent. -/
theorem Books.Sends.bind (hx : Books.Sends l amounts x)
    (hk : ∀ a b, Outcome (k a) b (fun _ b' => b'.ghost = b.ghost) fun _ b' => b'.ghost = b.ghost) :
    Books.Sends l amounts (x >>= k) := by
  intro b
  rw [outcome_bind]
  refine (hx b).mono (fun a b₁ hadded => ?_) fun _ _ h => h
  refine (hk a b₁).mono ?_ ?_
  · intro _ b' h
    rw [Added, h]
    exact hadded
  · intro _ b' h
    rw [Added, h]
    exact .inl hadded

theorem keeps_ghost (x : EStateM Exception World α) (b : Books) :
    Outcome (onState x) b (fun _ b' => b'.ghost = b.ghost) fun _ b' => b'.ghost = b.ghost := by
  rw [outcome_onState, Outcome]
  cases x b.state <;> rfl

/-- The amount is noted first. -/
theorem sends_onState (amount : ℕ) (x : EStateM Exception World α) :
    Books.Sends [] [amount] (noteAmount amount >>= fun _ => onState x) := by
  intro b
  rw [outcome_bind]
  refine outcome_note.mpr ((keeps_ghost x _).mono ?_ ?_)
  · intro _ b' h
    rw [Added, h]
    exact ⟨(List.append_nil _).symm, rfl⟩
  · intro _ b' h
    rw [Added, h]
    exact .inl ⟨(List.append_nil _).symm, rfl⟩

/-! ### What the handler notes -/

/-- The debits of a payment: the whole value for each operation. -/
def debitsOf (payment : Payment) : List Debit :=
  ⟨payment.operation, payment.wallet, payment.value⟩ ::
    payment.changeOperation.toList.map fun change => ⟨some change, payment.wallet, payment.value⟩

theorem notes_createOperation (tag : String) (operation : Option Uuid) (rawValue owner : ℕ) :
    Books.Notes [⟨operation, owner, rawValue⟩]
      (createOperation services tag operation rawValue owner) :=
  (notes_onState _).bind fun _ => notes_noteDebit operation owner rawValue

theorem notes_createAndAcceptOperation (tag : String) (operation : Option Uuid)
    (rawValue owner beneficiary : ℕ) : Books.Notes [⟨operation, owner, rawValue⟩]
      (createAndAcceptOperation services tag operation rawValue owner beneficiary) :=
  (notes_onState _).bind fun _ => notes_noteDebit operation owner rawValue

theorem notes_createChangeOperationPSP :
    Books.Notes (payment.changeOperation.toList.map fun change =>
      ⟨some change, payment.wallet, payment.value⟩)
        (createChangeOperationPSP config services payment) := by
  rw [createChangeOperationPSP]
  cases payment.changeOperation with
  | none => exact notes_pure ()
  | some change => exact (notes_createOperation _ _ _ _).bind fun _ => notes_onState _

theorem notes_createAndAcceptChangeOperationP2P {wallet : Uuid} :
    Books.Notes (payment.changeOperation.toList.map fun change =>
      ⟨some change, payment.wallet, payment.value⟩)
        (createAndAcceptChangeOperationP2P config services payment wallet) := by
  rw [createAndAcceptChangeOperationP2P]
  cases payment.changeOperation with
  | none => exact notes_pure ()
  | some change => exact (notes_createAndAcceptOperation _ _ _ _ _).bind fun _ => notes_onState _

theorem keeps_updated (updated : Payment) (b : Books) :
    Outcome (onState (updatePayment now updated) >>= fun _ => (pure updated : App Payment)) b
      (fun _ b' => b'.ghost = b.ghost) fun _ b' => b'.ghost = b.ghost := by
  rw [outcome_bind]
  exact (keeps_ghost _ b).mono (fun _ _ h => h) fun _ _ h => h

/-- The debits in the order in which they are noted, with nothing between the last of them and the
end. -/
theorem debitsOf_eq : debitsOf payment = [⟨payment.operation, payment.wallet, payment.value⟩] ++
    (payment.changeOperation.toList.map (fun change =>
      (⟨some change, payment.wallet, payment.value⟩ : Debit)) ++ []) := by
  rw [List.append_nil]
  rfl

theorem sends_sendPaymentPSP : Books.Sends (debitsOf payment) [payment.value]
    (sendPaymentPSP config services now payment) := by
  rw [debitsOf_eq]
  refine (notes_createOperation _ _ _ _).sends fun _ =>
    notes_createChangeOperationPSP.sends fun _ => ?_
  exact (sends_onState _ _).bind fun _ => keeps_updated _

theorem sends_sendPaymentP2P {beneficiary : Pix.WalletAccount} :
    Books.Sends (debitsOf payment) [payment.value]
      (sendPaymentP2P config services now payment beneficiary) := by
  rw [debitsOf_eq]
  refine (notes_createAndAcceptOperation _ _ _ _ _).sends fun _ =>
    notes_createAndAcceptChangeOperationP2P.sends fun _ => ?_
  refine (notes_onState _).sends fun _ => (notes_onState _).sends fun _ => ?_
  exact (sends_onState _ _).bind fun _ => keeps_updated _

theorem sends_sendPending : Books.Sends (debitsOf payment) [payment.value]
    (sendPending config services now payment) := by
  rw [sendPending]
  split
  · exact sends_sendPaymentPSP
  · rw [← List.nil_append (debitsOf payment)]
    refine (notes_onState _).sends fun _ => (notes_onState _).sends fun _ => ?_
    exact (notes_onState _).sends fun _ => (notes_onState _).sends fun _ => sends_sendPaymentP2P

/-- A pending payment: when an amount was sent it is the value, and each operation was debited. -/
theorem handlePendingPayment_sent (hrow : b.state.payments.get? payment.id = some payment)
    (hstate : payment.state = .PENDING)
    (hsent : (left (handlePendingPayment config services now payment.id) b).ghost.amounts ≠
      b.ghost.amounts) :
    Added (debitsOf payment) [payment.value] b
      (left (handlePendingPayment config services now payment.id) b) := by
  have hget : onState (γ := Sent) (getById payment.id) b = .ok payment b := by
    rw [onState, show getById payment.id b.state = .ok payment b.state from
      bind_ok.mpr ⟨_, _, rfl, orThrow_ok.mpr ⟨hrow, rfl⟩⟩]
  rw [handlePendingPayment, left_bind_ok hget, hstate] at hsent ⊢
  have hleft : ∀ b', (Added (debitsOf payment) [payment.value] b b' ∨
      b'.ghost.amounts = b.ghost.amounts) → b'.ghost.amounts ≠ b.ghost.amounts →
        Added (debitsOf payment) [payment.value] b b' := fun b' h hne => h.resolve_right hne
  refine hleft _ ?_ hsent
  refine (left_iff (P := fun b' => Added (debitsOf payment) [payment.value] b b' ∨
    b'.ghost.amounts = b.ghost.amounts)).mpr ?_
  exact (sends_sendPending b).mono (fun _ _ h => .inl h) fun _ _ h => h

/-! ### The use cases -/

/-- An amount was sent, it is the value of the payment, and what the payer was debited. -/
def DebitedOnce (payment : Payment) (b b' : Books) : Prop :=
  ∃ l, Added l [payment.value] b b' ∧
    ((l.filter fun d => d.owner = payment.wallet).map Debit.rawValue).sum = payment.value

/-- The payer is debited for each operation. -/
theorem sum_debitsOf : (((debitsOf payment).filter fun d => d.owner = payment.wallet).map
    Debit.rawValue).sum = payment.value + (payment.changeOperation.toList.map fun _ =>
      payment.value).sum := by
  have hall : (debitsOf payment).filter (fun d => d.owner = payment.wallet) = debitsOf payment := by
    refine List.filter_eq_self.mpr fun d hd => decide_eq_true ?_
    rcases List.mem_cons.mp hd with rfl | hd
    · rfl
    · obtain ⟨_, _, rfl⟩ := List.mem_map.mp hd
      rfl
  rw [hall, debitsOf, List.map_cons, List.sum_cons, List.map_map]
  rfl

theorem debitedOnce_iff_of_added (hadded : Added (debitsOf payment) [payment.value] b b')
    (hvalue : payment.changeOperation.isSome → 0 < payment.value) :
    DebitedOnce payment b b' ↔ payment.changeOperation = none := by
  have hsum : (((debitsOf payment).filter fun d => d.owner = payment.wallet).map
      Debit.rawValue).sum = payment.value + (payment.changeOperation.toList.map fun _ =>
        payment.value).sum := sum_debitsOf
  constructor
  · rintro ⟨l, hl, hvalueOf⟩
    have heq : l = debitsOf payment := List.append_cancel_left (hl.1.symm.trans hadded.1)
    rw [heq, hsum] at hvalueOf
    cases hchange : payment.changeOperation with
    | none => rfl
    | some change =>
        have hpos := hvalue (by rw [hchange]; rfl)
        rw [hchange] at hvalueOf
        change payment.value + (payment.value + 0) = payment.value at hvalueOf
        omega
  · intro hnone
    refine ⟨debitsOf payment, hadded, ?_⟩
    rw [hsum, hnone]
    rfl

/-- A payment that a use case has made, when its time has come. -/
def pending (payment : Payment) (updatedAt : ℤ) : Payment :=
  { payment with state := .PENDING, updatedAt }

/-- The handler has sent the value of a payment that is new: the payer is debited once, unless the
payment pays cash back. -/
theorem debitedOnce_iff {createConfig : CreatePayment.Config} {world : CreatePayment.Services}
    {created updatedAt : ℤ} {user wallet : Uuid} {request : CreatePayment.Request}
    {type : CreatePayment.PaymentType} {w w' : World}
    (hcreate : CreatePayment.execute createConfig world created user wallet request type w =
      .ok payment w')
    (hnew : w.payments.get? request.id = none)
    (hrow : b.state.payments.get? payment.id = some (pending payment updatedAt))
    (hsent : (left (handlePendingPayment config services now payment.id) b).ghost.amounts ≠
      b.ghost.amounts) :
    DebitedOnce (pending payment updatedAt) b
      (left (handlePendingPayment config services now payment.id) b) ↔
        type ≠ .QR_CODE_DYNAMIC_CHANGE := by
  have hadded : Added (debitsOf (pending payment updatedAt)) [payment.value] b
      (left (handlePendingPayment config services now payment.id) b) :=
    handlePendingPayment_sent hrow rfl hsent
  rcases CreatePayment.execute_ok hnew hcreate with ⟨htype, hsome, hpos⟩ | ⟨htype, hnone⟩
  · rw [debitedOnce_iff_of_added hadded fun _ => hpos]
    refine ⟨fun h => ?_, fun h => absurd htype h⟩
    rw [show payment.changeOperation = none from h] at hsome
    cases hsome
  · have hvalue : (pending payment updatedAt).changeOperation.isSome → 0 < payment.value := by
      intro h
      rw [show (pending payment updatedAt).changeOperation = none from hnone] at h
      cases h
    rw [debitedOnce_iff_of_added hadded hvalue]
    exact ⟨fun _ => htype, fun _ => hnone⟩

end

/-! ### A payment to an account, and one with cash back -/

namespace Samples

def createConfig : CreatePayment.Config where
  sendAccountTransactionTag := "PIXSENDACC"
  sendKeyTransactionTag := "PIXSENDKEY"
  sendQrsTransactionTag := "PIXSENDQRS"
  sendQrdTransactionTag := "PIXSENDQRD"
  withdrawalQrsTransactionTag := "PIXWITHDQRS"
  withdrawalQrdTransactionTag := "PIXWITHDQRD"
  duedateQrdTransactionTag := "PIXDDQRD"
  changeQrdTransactionTag := "PIXCHANGEQRD"

/-- A purchase of 80 with 20 of cash back. -/
def decodedQrCode : CreatePayment.DecodedQrCode where
  state := .READY
  type := .QR_CODE_DYNAMIC_CHANGE
  allowUpdate := false
  documentValue := some 80
  paymentValue := some 100
  withdrawValue := none
  changeValue := some 20
  expirationDate := none
  paymentDate := none
  pss := none
  txId := some "T"
  key := some "K"
  endToEndId := some "E"
  recipientBranch := "1"
  recipientAccountNumber := "1"
  recipientBankIspb := "00000000"
  recipientDocument := "1"
  recipientName := none

def world : CreatePayment.Services where
  getUserByUuid _ := .ok (some ⟨some "1", some "A"⟩)
  getOnboardingByUserAndStatusIsFinished _ := .ok true
  getWalletAccountByWalletAndCurrency _ := .ok (some ⟨true, some "2", some "1"⟩)
  getDecodedPixAccountById _ := .ok (some ⟨.PENDING, "1", "00000000", none, "1", "1"⟩)
  confirmDecodedPixAccount _ := .ok ()
  getDecodedPixKeyById _ := .ok none
  confirmDecodedPixKey _ := .ok ()
  getDecodedQrCodeById _ := .ok (some decodedQrCode)
  getBankByIspb _ := .ok true

def request : CreatePayment.Request where
  id := 1
  value := some 100
  paymentDate := none
  description := none
  decoded := some 1

/-- The payment that a use case makes of the request. -/
def made (type : CreatePayment.PaymentType) : Payment :=
  match CreatePayment.execute createConfig world 0 2 3 request type World.empty with
  | .ok payment _ => payment
  | .error _ _ => samplePayment

/-- The books when the payment was made. -/
def books (type : CreatePayment.PaymentType) : Books where
  state := left (CreatePayment.execute createConfig world 0 2 3 request type) World.empty
  ghost := ⟨[], []⟩

/-- The books when the payment was handled. -/
def handled (type : CreatePayment.PaymentType) : Books :=
  left (handlePendingPayment sampleConfig sampleServices 0 1) (books type)

end Samples

open Samples in
/-- A payment to an account. -/
theorem debitedOnce_account : DebitedOnce (made .ACCOUNT) (books .ACCOUNT) (handled .ACCOUNT) := by
  have hcreate : CreatePayment.execute createConfig world 0 2 3 request .ACCOUNT World.empty =
      .ok (made .ACCOUNT) (books .ACCOUNT).state := rfl
  have hrow : (books .ACCOUNT).state.payments.get? (made .ACCOUNT).id =
      some (pending (made .ACCOUNT) 0) := by decide
  have hsent : (handled .ACCOUNT).ghost.amounts ≠ (books .ACCOUNT).ghost.amounts := by decide
  exact (debitedOnce_iff hcreate rfl hrow hsent).mpr (by decide)

open Samples in
/-- A purchase of 80 with 20 of cash back: 100 are sent, and the payer is debited 200. -/
theorem cashBack_twice :
    CreatePayment.execute createConfig world 0 2 3 request .QR_CODE_DYNAMIC_CHANGE World.empty =
      .ok (made .QR_CODE_DYNAMIC_CHANGE) (books .QR_CODE_DYNAMIC_CHANGE).state ∧
    (handled .QR_CODE_DYNAMIC_CHANGE).ghost = ⟨[⟨some 1, 3, 100⟩, ⟨some 2, 3, 100⟩], [100]⟩ ∧
    ¬ DebitedOnce (made .QR_CODE_DYNAMIC_CHANGE) (books .QR_CODE_DYNAMIC_CHANGE)
      (handled .QR_CODE_DYNAMIC_CHANGE) := by
  have hghost : (handled .QR_CODE_DYNAMIC_CHANGE).ghost =
      ⟨[⟨some 1, 3, 100⟩, ⟨some 2, 3, 100⟩], [100]⟩ := by decide
  refine ⟨rfl, hghost, ?_⟩
  rintro ⟨l, ⟨hdebits, -⟩, hsum⟩
  rw [hghost] at hdebits
  have hl : [⟨some 1, 3, 100⟩, ⟨some 2, 3, 100⟩] = l := hdebits
  rw [← hl] at hsum
  exact absurd hsum (by decide)

end ZroServices.Payments.Debited
