import Mathlib.Data.List.Sort
import Mathlib.Data.Rat.Floor
import ZroServices.Operations.UserLimits

/-!
# Operations — creating an operation

`CreateOperationUseCase`: check the request, load the wallets and wallet accounts, check the
owner's funds and both sides' limits, store one operation or two, block the owner's balance, and
send the pending event.

The shapes of an operation are the calls of `createOperation` (`OperationInfo`): an owner alone, a
beneficiary alone, or both in one operation.  With two currencies there are two operations, one
for each side, that refer to each other.

The pending wallet account transactions are written to the cache before the checks.  They are
given a time to live when the operation is stored, or when the use case throws.
-/

namespace ZroServices

open Foundation

/-- `CreateOperationParticipant`, as the use case receives it. -/
structure CreateOperationParticipant where
  operation : Option Uuid
  wallet : Option Uuid
  currency : Option String
  rawValue : Option ℤ
  fee : Option ℤ
  description : Option String
  ownerAllowAvailableRawValue : Bool
  ownerRequestedRawValue : Option ℤ
  ownerRequestedFee : Option ℤ
  deriving DecidableEq, Repr

/-- A participant that passed `checkInputData`. -/
structure Participant where
  operation : Uuid
  wallet : Uuid
  currency : String
  rawValue : ℤ
  fee : ℤ
  description : String
  ownerAllowAvailableRawValue : Bool
  ownerRequestedRawValue : Option ℤ
  ownerRequestedFee : Option ℤ
  rawValue_pos : 0 < rawValue
  fee_nonneg : 0 ≤ fee

/-- A participant with its wallet and its wallet account. -/
structure LoadedParticipant where
  info : Participant
  wallet : Wallet
  walletAccount : WalletAccount

/-- What the owner pays: as requested, or as much as is available. -/
structure OwnerAmount where
  rawValue : ℤ
  fee : ℤ
  ownerRequestedRawValue : Option ℤ
  ownerRequestedFee : Option ℤ
  deriving DecidableEq, Repr

namespace OwnerAmount

/-- `ownerValue`: fee plus raw value. -/
def value (a : OwnerAmount) : ℤ := a.fee + a.rawValue

end OwnerAmount

/-- The owner after its checks. -/
structure OwnerSide extends LoadedParticipant where
  amount : OwnerAmount
  userLimitTracker : Option TrackedLimit

/-- The beneficiary after its checks. -/
structure BeneficiarySide extends LoadedParticipant where
  userLimitTracker : Option TrackedLimit

/-- What `createOperation` is called with. -/
inductive OperationInfo where
  | owner (o : OwnerSide)
  | beneficiary (b : BeneficiarySide)
  | shared (o : OwnerSide) (b : BeneficiarySide)

namespace LoadedParticipant

/-- The side of the operation that the participant takes. -/
def party (p : LoadedParticipant) : Party := ⟨p.wallet.user, p.walletAccount.id⟩

end LoadedParticipant

namespace OperationInfo

def ownerSide : OperationInfo → Option OwnerSide
  | owner o | shared o _ => some o
  | beneficiary _ => none

def beneficiarySide : OperationInfo → Option BeneficiarySide
  | owner _ => none
  | beneficiary b | shared _ b => some b

/-- The participant whose info is used: the owner, if there is one. -/
def info : OperationInfo → Participant
  | owner o | shared o _ => o.info
  | beneficiary b => b.info

/-- The fee; a beneficiary's fee is taken from what it receives. -/
def fee : OperationInfo → ℤ
  | owner o | shared o _ => o.amount.fee
  | beneficiary b => -b.info.fee

def rawValue : OperationInfo → ℤ
  | owner o | shared o _ => o.amount.rawValue
  | beneficiary b => b.info.rawValue

def currency : OperationInfo → CurrencyId
  | owner o | shared o _ => o.walletAccount.currency.id
  | beneficiary b => b.walletAccount.currency.id

/-- The operation's value: fee plus raw value. -/
def value (i : OperationInfo) : ℤ := i.fee + i.rawValue

/-- The tracker the value is charged to. -/
def userLimitTracker : OperationInfo → Option TrackedLimit
  | owner o | shared o _ => o.userLimitTracker
  | beneficiary b => b.userLimitTracker

/-- The operation before it is charged to a tracker. -/
def newOperation (now : ℤ) (transactionType : TransactionType) (i : OperationInfo) :
    Operation where
  id := i.info.operation
  state := .PENDING
  owner := i.ownerSide.map (·.party)
  beneficiary := i.beneficiarySide.map (·.party)
  transactionType := transactionType
  currency := i.currency
  rawValue := i.rawValue
  fee := |i.fee|
  value := i.value
  description := i.info.description
  operationRef := none
  ownerRequestedRawValue := i.ownerSide.bind (·.amount.ownerRequestedRawValue)
  ownerRequestedFee := i.ownerSide.bind (·.amount.ownerRequestedFee)
  analysisTags := []
  userLimitTracker := none
  createdAt := now
  revertedAt := none

end OperationInfo

/-- What the use case returns. -/
structure CreatedOperation where
  ownerOperation : Option Operation
  beneficiaryOperation : Option Operation
  deriving DecidableEq

namespace CreateOperationUseCase

variable (env : Env) (now : ℤ)

/-! ### The request -/

/-- The mandatory fields a participant lacks.  Empty texts and a raw value of `0` are lacking, as
JavaScript's falsy values. -/
def missingFields (p : CreateOperationParticipant) : List String :=
  (if p.operation = none then ["Operation"] else [])
    ++ (if p.wallet = none then ["Wallet"] else [])
    ++ (if p.currency.filter (· ≠ "") = none then ["Currency"] else [])
    ++ (if p.description.filter (· ≠ "") = none then ["Description"] else [])
    ++ (if p.rawValue.filter (· ≠ 0) = none then ["rawValue"] else [])
    ++ (if p.fee = none then ["fee"] else [])

/-- `checkInputData`. -/
def checkInputData (p : CreateOperationParticipant) : App Participant := do
  let missing := Exception.missingData (missingFields p)
  let operation ← orThrow p.operation missing
  let wallet ← orThrow p.wallet missing
  let currency ← orThrow (p.currency.filter (· ≠ "")) missing
  let description ← orThrow (p.description.filter (· ≠ "")) missing
  let rawValue ← orThrow (p.rawValue.filter (· ≠ 0)) missing
  let fee ← orThrow p.fee missing
  if hr : rawValue ≤ 0 then throw (.invalidDataFormat ["rawValue"])
  else if hf : fee < 0 then throw (.invalidDataFormat ["Fee"])
  else return {
    operation, wallet, currency, rawValue, fee, description
    ownerAllowAvailableRawValue := p.ownerAllowAvailableRawValue
    ownerRequestedRawValue := p.ownerRequestedRawValue
    ownerRequestedFee := p.ownerRequestedFee
    rawValue_pos := not_le.mp hr
    fee_nonneg := not_lt.mp hf }

/-- The checks of the transaction type. -/
def checkTransactionType (transactionTypeTag : String) (hasOwner hasBeneficiary : Bool) :
    App TransactionType := do
  let transactionType ← orThrow (env.transactionTypeByTag transactionTypeTag)
    (.transactionTypeTagNotFound transactionTypeTag)
  throwIf (¬ transactionType.state.isSupported)
    (.data ["Transaction type state " ++ transactionType.state.text ++ " is not supported."])
  throwIf (¬ transactionType.isActive) (.transactionTypeNotActive transactionType)
  throwIf (transactionType.participants = .BOTH ∧ ¬ (hasOwner ∧ hasBeneficiary))
    (.missingData ((if hasOwner then [] else ["Owner Info"])
      ++ (if hasBeneficiary then [] else ["Beneficiary Info"])))
  throwIf (transactionType.participants = .OWNER ∧ ¬ hasOwner) (.missingData ["Owner Info"])
  throwIf (transactionType.participants = .BENEFICIARY ∧ ¬ hasBeneficiary)
    (.missingData ["Beneficiary Info"])
  return transactionType

/-! ### Loading -/

/-- The wallet and the wallet account of a participant. -/
def loadParticipant (p : Participant) : App LoadedParticipant := do
  let currency ← orThrow (env.currencyByTag p.currency) (.currencyNotFound p.currency)
  throwIf (¬ currency.isActive) (.currencyNotActive p.currency)
  let wallet ← readDb (·.wallets.get? p.wallet)
  let wallet ← orThrow wallet (.walletNotFound p.wallet)
  throwIf (¬ wallet.isActive) (.walletNotActive wallet)
  let walletAccount ← readDb (·.walletAccountByWalletAndCurrency wallet currency)
  let walletAccount ← orThrow walletAccount
    (.walletAccountNotFound none (some wallet.uuid) (some currency.id))
  throwIf (¬ walletAccount.isActive) (.walletAccountNotActive walletAccount)
  return ⟨p, wallet, walletAccount⟩

/-- `pendingWalletAccountOwnerTransaction`. -/
def pendingOwner (o : LoadedParticipant) : PendingWalletAccountTransaction :=
  ⟨o.walletAccount.id, o.info.operation, |o.info.fee + o.info.rawValue| * -1, none⟩

/-- `pendingWalletAccountBeneficiaryTransaction`. -/
def pendingBeneficiary (b : LoadedParticipant) : PendingWalletAccountTransaction :=
  ⟨b.walletAccount.id, b.info.operation, |b.info.rawValue|, none⟩

/-- `removePendingWalletAccountTransaction`: the entries are given their time to live.  To give it
to them a second time, in one execution, changes nothing. -/
def removePendingWalletAccountTransaction (ps : List PendingWalletAccountTransaction) : App Unit :=
  PendingWalletAccountTransactionRepository.createOrUpdate (ps.map fun p =>
    { p with expiresAt := some (now + env.pendingWalletAccountTransactionTTL) })

/-! ### The owner's funds -/

/-- `getUserCreditBalance`. -/
def getUserCreditBalance (transactionType : TransactionType) (user : UserId) (db : Db) : ℕ :=
  match env.limitTypeByTransactionType transactionType with
  | some limitType =>
      ((db.userLimitByUserAndLimitType user limitType.id).map (·.creditBalance)).getD 0
  | none => 0

/-- `formatValueFromIntToFloat`. -/
def formatValueFromIntToFloat (value : ℤ) (decimals : ℕ) : ℚ := value / 10 ^ decimals

/-- `formatValueFromFloatToInt`. -/
def formatValueFromFloatToInt (value : ℚ) : ℤ := ⌊1 / 2 + value * 10 ^ 2⌋

/-- The balance of a wallet account once its pending transactions are done. -/
def expectedBalance (cache : List PendingWalletAccountTransaction) (a : WalletAccount) : ℤ :=
  a.balance +
    ((PendingWalletAccountTransactionRepository.getByWalletAccount now a.id cache).map
      (·.value)).sum

/-- The quotation of the lowest priority number. -/
def quotation (baseCurrency : CurrencyId) : Option OperationStreamQuotation :=
  ((env.quotations.filter fun q =>
      q.baseCurrency = baseCurrency ∧
        q.quoteCurrency = env.operationSymbolCurrencyReal).insertionSort
    fun p q => p.priority ≤ q.priority).head?

/-- What a wallet account owes, in BRL. -/
def walletAccountLiability (cache : List PendingWalletAccountTransaction) (a : WalletAccount) :
    App ℤ :=
  let balance := expectedBalance now cache a
  if balance < 0 then
    if a.currency.symbol = env.operationSymbolCurrencyReal then return |balance|
    else do
      let streamQuotation ← orThrow (quotation env a.currency.id)
        (.streamQuotationNotFound a.currency.id env.operationSymbolCurrencyReal)
      return formatValueFromFloatToInt
        (streamQuotation.price * formatValueFromIntToFloat |balance| a.currency.decimal)
  else return 0

/-- What wallet accounts owe together. -/
def liability (cache : List PendingWalletAccountTransaction) : List WalletAccount → App ℤ
  | [] => return 0
  | a :: as => do
      let x ← walletAccountLiability env now cache a
      let y ← liability cache as
      return x + y

/-- `checkCreditBalance`. -/
def checkCreditBalance (wallet : Wallet) (creditBalanceAvailable : ℕ) : App Bool := do
  let walletAccounts ← readDb (·.walletAccountsByUser wallet.user)
  throwIf (walletAccounts = []) (.walletAccountNotFound none (some wallet.uuid) none)
  let w ← get
  let liability ← liability env now w.cache walletAccounts
  return decide (liability ≤ creditBalanceAvailable)

/-- `checkCreditBalance`, when there is credit at all. -/
def hasCreditBalance (wallet : Wallet) (creditBalanceAvailable : ℕ) : App Bool :=
  if 0 < creditBalanceAvailable then checkCreditBalance env now wallet creditBalanceAvailable
  else return false

/-- What the owner pays out of a balance. -/
def availableAmount (p : Participant) (balance : ℤ) : OwnerAmount :=
  if p.ownerAllowAvailableRawValue ∧ balance < p.rawValue + p.fee then
    if balance < p.fee then ⟨0, balance, some p.rawValue, some p.fee⟩
    else ⟨balance - p.fee, p.fee, some p.rawValue, some p.fee⟩
  else ⟨p.rawValue, p.fee, p.ownerRequestedRawValue, p.ownerRequestedFee⟩

/-- The checks of the owner. -/
def checkOwner (transactionType : TransactionType) (o : LoadedParticipant) : App OwnerSide := do
  let creditBalanceAvailable ← readDb (getUserCreditBalance env transactionType o.wallet.user)
  let ownerHasCreditBalanceAvailable ← hasCreditBalance env now o.wallet creditBalanceAvailable
  let amount := availableAmount o.info o.walletAccount.balance
  throwIf (o.walletAccount.balance < amount.value ∧ ¬ ownerHasCreditBalanceAvailable)
    (.notEnoughFunds o.walletAccount amount.value)
  let userLimitTracker ←
    checkUserLimits env now 0 o.wallet.user o.walletAccount transactionType amount.value
  return { toLoadedParticipant := o, amount, userLimitTracker }

/-- The checks of the beneficiary. -/
def checkBeneficiary (transactionType : TransactionType) (b : LoadedParticipant) :
    App BeneficiarySide := do
  let userLimitTracker ←
    checkUserLimits env now 1 b.wallet.user b.walletAccount transactionType b.info.rawValue
  return { toLoadedParticipant := b, userLimitTracker }

/-! ### Storing -/

/-- A wallet account with a value blocked on it. -/
def blocked (value : ℤ) (a : WalletAccount) : WalletAccount :=
  { a with balance := a.balance - value, pendingAmount := a.pendingAmount + value }

/-- `blockWalletAccountBalance`. -/
def blockWalletAccountBalance (a : WalletAccount) (value : ℤ) : App Unit :=
  WalletAccountRepository.update (blocked value a)

/-- Block the value on the owner's wallet account, if there is an owner. -/
def blockOwnerBalance (i : OperationInfo) : App Unit :=
  match i.ownerSide with
  | some o => blockWalletAccountBalance o.walletAccount i.value
  | none => return ()

/-- Charge the operation to the tracker of its info, if there is one. -/
def chargeOperation (i : OperationInfo) (o : Operation) : App Operation :=
  match i.userLimitTracker with
  | some c => do
      let (updatedUserLimitTracker, updatedOperation) :=
        updateUserLimitTrackerAndOperation env now c o
      UserLimitTrackerRepository.createOrUpdate now updatedUserLimitTracker
      return updatedOperation
  | none => return o

/-- `createOperation`. -/
def createOperation (pending : List PendingWalletAccountTransaction)
    (transactionType : TransactionType) (i : OperationInfo) : App Operation := do
  let operation ← chargeOperation env now i (i.newOperation now transactionType)
  let createdOperation ← OperationRepository.create operation
  removePendingWalletAccountTransaction env now pending
  blockOwnerBalance i
  return createdOperation

/-- `createIndependentOperations`. -/
def createIndependentOperations (pending : List PendingWalletAccountTransaction)
    (transactionType : TransactionType) (o : OwnerSide) (b : BeneficiarySide) :
    App CreatedOperation := do
  let ownerOperation ← createOperation env now pending transactionType (.owner o)
  let beneficiaryOperation ← createOperation env now pending transactionType (.beneficiary b)
  let ownerOperation := { ownerOperation with operationRef := some beneficiaryOperation.id }
  let beneficiaryOperation := { beneficiaryOperation with operationRef := some ownerOperation.id }
  OperationRepository.update ownerOperation
  OperationRepository.update beneficiaryOperation
  return ⟨some ownerOperation, some beneficiaryOperation⟩

/-- Store the operation, or the two operations, of the sides there are. -/
def createOperations (pending : List PendingWalletAccountTransaction)
    (transactionType : TransactionType) :
    Option OwnerSide → Option BeneficiarySide → App CreatedOperation
  | some o, some b =>
      if o.walletAccount.currency.id ≠ b.walletAccount.currency.id then
        createIndependentOperations env now pending transactionType o b
      else do
        let operation ← createOperation env now pending transactionType (.shared o b)
        return ⟨some operation, some operation⟩
  | some o, none => do
      let operation ← createOperation env now pending transactionType (.owner o)
      return ⟨some operation, none⟩
  | none, some b => do
      let operation ← createOperation env now pending transactionType (.beneficiary b)
      return ⟨none, some operation⟩
  | none, none => throw (.typeError "beneficiaryInfo is null")

/-- The checks, the operations and the event, once both sides are loaded. -/
def checkAndCreate (pending : List PendingWalletAccountTransaction)
    (transactionType : TransactionType) (owner beneficiary : Option LoadedParticipant) :
    App CreatedOperation := do
  let owner ← forSome owner (checkOwner env now transactionType)
  let beneficiary ← forSome beneficiary (checkBeneficiary env now transactionType)
  let created ← createOperations env now pending transactionType owner beneficiary
  OperationEventEmitter.emitOperationEvent .PENDING created.ownerOperation
    created.beneficiaryOperation
  return created

/-- `CreateOperationUseCase.execute`. -/
def execute (transactionTypeTag : String)
    (ownerInfo beneficiaryInfo : Option CreateOperationParticipant) : App CreatedOperation := do
  throwIf (ownerInfo = none ∧ beneficiaryInfo = none)
    (.missingData ["Owner Info", "Beneficiary Info"])
  throwIf (transactionTypeTag = "") (.missingData ["Transaction Type Tag"])
  let ownerInfo ← forSome ownerInfo checkInputData
  let beneficiaryInfo ← forSome beneficiaryInfo checkInputData
  let transactionType ← checkTransactionType env transactionTypeTag ownerInfo.isSome
    beneficiaryInfo.isSome
  let owner ← forSome ownerInfo (loadParticipant env)
  let ownerPending := (owner.map pendingOwner).toList
  PendingWalletAccountTransactionRepository.createOrUpdate ownerPending
  let beneficiary ← onThrow (forSome beneficiaryInfo (loadParticipant env))
    (removePendingWalletAccountTransaction env now ownerPending)
  let beneficiaryPending := (beneficiary.map pendingBeneficiary).toList
  PendingWalletAccountTransactionRepository.createOrUpdate beneficiaryPending
  let pending := ownerPending ++ beneficiaryPending
  onThrow (checkAndCreate env now pending transactionType owner beneficiary)
    (removePendingWalletAccountTransaction env now pending)

end CreateOperationUseCase

end ZroServices
