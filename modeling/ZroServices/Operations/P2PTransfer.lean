import ZroServices.Operations.System

/-!
# Operations — transfers between wallets

`CreateP2PTransferUseCase`: create an operation between two wallets, and accept it.  A transfer
from the ZRO wallet has a beneficiary only, a transfer to it an owner only.  The id of the
transfer makes the request idempotent.

A transfer is made of changes, like the commands (`execute_changes`).
-/

namespace ZroServices

open Foundation

namespace CreateP2PTransferUseCase

variable (env : Env) (now : ℤ)

/-- A side of the operation. -/
def participant (operation wallet : Uuid) (currency : Currency) (rawValue fee : ℤ)
    (description : String) : CreateOperationParticipant where
  operation := some operation
  wallet := some wallet
  currency := some currency.tag
  rawValue := some rawValue
  fee := some fee
  description := some description
  ownerAllowAvailableRawValue := false
  ownerRequestedRawValue := none
  ownerRequestedFee := none

/-- What the use case of the operation is called with: the tag, the owner and the beneficiary. -/
def operationRequest (operation wallet beneficiaryWallet : Uuid) (currency : Currency)
    (amount fee : ℤ) (description : Option String) :
    String × Option CreateOperationParticipant × Option CreateOperationParticipant :=
  if wallet = env.ZROWalletId then
    (env.creditTransactionTypeTag, none,
      some (participant operation beneficiaryWallet currency amount fee
        (description.getD env.creditTransactionTypeTag)))
  else if beneficiaryWallet = env.ZROWalletId then
    (env.debitTransactionTypeTag,
      some (participant operation wallet currency amount fee
        (description.getD env.debitTransactionTypeTag)),
      none)
  else
    (env.p2pTransactionTypeTag,
      -- The fee should exist only on the beneficiary's side.
      some (participant operation wallet currency amount 0
        (description.getD env.p2pTransactionTypeTag)),
      some (participant operation beneficiaryWallet currency amount fee
        (description.getD env.p2pTransactionTypeTag)))

/-- Insert the transfer. -/
def storeTransfer (transfer : P2PTransfer) : App P2PTransfer := do
  let p2pTransfers ← readDb (·.p2pTransfers)
  let p2pTransfers ← orThrow (p2pTransfers.insert? transfer) (.uniqueConstraint "p2p_transfers")
  writeDb fun db => { db with p2pTransfers }
  return transfer

/-- A transfer whose id is new. -/
def createTransfer (id : Uuid) (user : UserId) (wallet beneficiaryWallet : Uuid)
    (amountCurrency : String) (amount fee : ℤ) (description : Option String) :
    App P2PTransfer := do
  let currency ← orThrow (env.currencyBySymbol amountCurrency) (.currencyNotFound amountCurrency)
  throwIf (¬ currency.isActive) (.currencyNotActive amountCurrency)
  let operation ← readDb (·.uuidV4 2)
  let (transactionTypeTag, ownerInfo, beneficiaryInfo) :=
    operationRequest env operation wallet beneficiaryWallet currency amount fee description
  let _ ← CreateOperationUseCase.execute env now transactionTypeTag ownerInfo beneficiaryInfo
  let _ ← App.ofProg (AcceptOperationUseCase.execute operation)
  storeTransfer
    { id, user, wallet, beneficiaryWallet, currency := currency.id, operation, amount, fee,
      description }

/-- The transfer that has the id already, for its own wallet or for the ZRO wallet. -/
def existingTransfer (wallet : Uuid) (p2pTransfer : P2PTransfer) : App P2PTransfer :=
  if wallet = env.ZROWalletId ∨ p2pTransfer.wallet = wallet then return p2pTransfer
  else throw .forbidden

/-- The fields that are missing in a request. -/
def missingFields (id : Option Uuid) (user : Option UserId) (wallet beneficiaryWallet : Option Uuid)
    (amountCurrency : Option String) (amount : Option ℤ) : List String :=
  (if id = none then ["ID"] else [])
    ++ (if user = none then ["User"] else [])
    ++ (if wallet = none then ["Wallet"] else [])
    ++ (if beneficiaryWallet = none then ["Beneficiary Wallet"] else [])
    ++ (if amountCurrency.filter (· ≠ "") = none then ["Amount Currency"] else [])
    ++ (if amount = none then ["Amount"] else [])

/-- `CreateP2PTransferUseCase.execute`. -/
def execute (id : Option Uuid) (user : Option UserId) (wallet beneficiaryWallet : Option Uuid)
    (amountCurrency : Option String) (amount : Option ℤ) (fee : ℤ) (description : Option String) :
    App P2PTransfer := do
  let missing := Exception.missingData
    (missingFields id user wallet beneficiaryWallet amountCurrency amount)
  let id ← orThrow id missing
  let user ← orThrow user missing
  let wallet ← orThrow wallet missing
  let beneficiaryWallet ← orThrow beneficiaryWallet missing
  let amountCurrency ← orThrow (amountCurrency.filter (· ≠ "")) missing
  let amount ← orThrow amount missing
  match ← readDb (·.p2pTransfers.get? id) with
  | some p2pTransfer => existingTransfer env wallet p2pTransfer
  | none =>
      createTransfer env now id user wallet beneficiaryWallet amountCurrency amount fee description

variable {env now} {id : Option Uuid} {user : Option UserId}
  {wallet beneficiaryWallet : Option Uuid} {amountCurrency : Option String} {amount : Option ℤ}
  {fee : ℤ} {description : Option String} {r : P2PTransfer} {w w' : World}

/-- **A transfer is made of changes**, and is stored. -/
theorem execute_changes
    (h : execute env now id user wallet beneficiaryWallet amountCurrency amount fee description w
      = .ok r w') :
    ∃ db p2pTransfers, Changes env now w.db db ∧ w'.db = { db with p2pTransfers } := by
  simp only [execute, bind_ok, orThrow_ok, readDb_ok] at h
  obtain ⟨_, _, ⟨-, rfl⟩, _, _, ⟨-, rfl⟩, _, _, ⟨-, rfl⟩, _, _, ⟨-, rfl⟩, _, _, ⟨-, rfl⟩,
    _, _, ⟨-, rfl⟩, found, _, ⟨-, rfl⟩, h⟩ := h
  cases found with
  | some p2pTransfer =>
      simp only [existingTransfer] at h
      split at h
      · obtain ⟨-, rfl⟩ := pure_ok.mp h
        exact ⟨w'.db, _, .refl, rfl⟩
      · exact absurd h throw_ok
  | none =>
      simp only [createTransfer, storeTransfer, bind_ok, orThrow_ok, throwIf_ok, readDb_ok,
        writeDb_ok, pure_ok] at h
      obtain ⟨currency, _, ⟨-, rfl⟩, _, _, ⟨-, rfl⟩, operation, _, ⟨-, rfl⟩, created, w₁, hcreate,
        accepted, w₂, haccept, _, _, ⟨rfl, rfl⟩, t, _, ⟨-, rfl⟩, _, _, rfl, -, rfl⟩ := h
      obtain ⟨tt, owner, beneficiary, db₁, db₂, db₃, hx⟩ :=
        CreateOperationUseCase.execute_ok hcreate
      obtain ⟨db, hrun, rfl⟩ := ofProg_ok.mp haccept
      obtain ⟨o, -, ha⟩ := AcceptOperationUseCase.accept_ok hrun
      exact ⟨db, t, (CreateOperationUseCase.execution_changes hx).tail (.accepted o ha), rfl⟩

end CreateP2PTransferUseCase

end ZroServices
