import ZroServices.Foundation.Effect
import ZroServices.Foundation.Run
import ZroServices.Operations.Domain

/-!
# Wallets — users of a wallet

A wallet has an owner, and users that the owner invited.  What a user may do with a wallet is said
by the permission types of its *user wallet*; the owner's has the permission type ROOT.

The permission types are stored in one column, their tags joined by commas, and read back by
splitting the column (`UserWalletModel.toDomain`).  The use cases refuse a request that names ROOT
as one of its tags; a tag may have commas of its own (`PermissionTypes.split_join`).
-/

namespace ZroServices

open Foundation

namespace Wallets

abbrev PermissionTypeTag := String

/-! ### The permission column -/

namespace PermissionTypes

/-- `tags.join(',')`. -/
def join (tags : List PermissionTypeTag) : String :=
  String.ofList ([','].intercalate (tags.map (·.toList)))

/-- `permissionTypeIds.split(',')`. -/
def split (permissionTypeIds : String) : List PermissionTypeTag :=
  (permissionTypeIds.toList.splitOn ',').map String.ofList

theorem splitOn_intercalate_flatMap {α : Type*} [DecidableEq α] {sep : α} {xs : List (List α)}
    (h : xs ≠ []) : ([sep].intercalate xs).splitOn sep = xs.flatMap (·.splitOn sep) := by
  induction xs with
  | nil => exact absurd rfl h
  | cons x xs ih =>
      cases xs with
      | nil => simp
      | cons y ys =>
          rw [List.intercalate_cons_cons, List.append_assoc, List.singleton_append,
            List.splitOn_append_cons_self, ih (List.cons_ne_nil y ys)]
          rfl

/-- What is read back are the tags, each split at its own commas. -/
theorem split_join {tags : List PermissionTypeTag} (h : tags ≠ []) :
    split (join tags) = tags.flatMap split := by
  have hne : tags.map (·.toList) ≠ [] := fun e => h (List.map_eq_nil_iff.mp e)
  rw [split, join, String.toList_ofList, splitOn_intercalate_flatMap hne, List.flatMap_map,
    List.map_flatMap]
  rfl

/-- What is read of a column is written back as it was. -/
theorem join_split (permissionTypeIds : String) :
    join (split permissionTypeIds) = permissionTypeIds := by
  have read : (split permissionTypeIds).map (·.toList) = permissionTypeIds.toList.splitOn ',' := by
    rw [split, List.map_map]
    exact (List.map_congr_left fun l _ => String.toList_ofList).trans (List.map_id _)
  rw [join, read, List.intercalate_splitOn, String.ofList_toList]

/-- A tag without commas is read back as it is. -/
theorem split_of_no_comma {tag : PermissionTypeTag} (h : ',' ∉ tag.toList) : split tag = [tag] := by
  have single : tag.toList.splitOn ',' = [tag.toList] := by
    have noComma : ∀ l ∈ [tag.toList], ',' ∉ l := by
      intro l hl
      rw [List.mem_singleton.mp hl]
      exact h
    simpa only [List.intercalate_singleton] using
      List.splitOn_intercalate ',' noComma (List.cons_ne_nil _ _)
  rw [split, single, List.map_singleton, String.ofList_toList]

end PermissionTypes

/-! ### Rows -/

structure UserWallet where
  id : Uuid
  user : UserId
  wallet : Uuid
  permissionTypes : List PermissionTypeTag
  deriving DecidableEq, Repr

structure UserWalletModel where
  id : Uuid
  userId : UserId
  walletId : Uuid
  permissionTypeIds : String
  deriving DecidableEq, Repr

instance : Keyed UserWalletModel Uuid := ⟨UserWalletModel.id⟩

namespace UserWalletModel

/-- The row of a user wallet. -/
def ofDomain (u : UserWallet) : UserWalletModel :=
  ⟨u.id, u.user, u.wallet, PermissionTypes.join u.permissionTypes⟩

def toDomain (m : UserWalletModel) : UserWallet :=
  ⟨m.id, m.userId, m.walletId, PermissionTypes.split m.permissionTypeIds⟩

end UserWalletModel

inductive WalletInvitationState where
  | ACCEPTED
  | DECLINED
  | PENDING
  | CANCELED
  | EXPIRED
  deriving DecidableEq, Repr

structure WalletInvitation where
  id : Uuid
  user : UserId
  wallet : Uuid
  email : String
  state : WalletInvitationState
  permissionTypes : List PermissionTypeTag
  confirmCode : String
  expiredAt : ℤ
  acceptedAt : Option ℤ
  deriving DecidableEq, Repr

structure WalletInvitationModel where
  id : Uuid
  userId : UserId
  walletId : Uuid
  email : String
  state : WalletInvitationState
  permissionTypeIds : String
  confirmCode : String
  expiredAt : ℤ
  acceptedAt : Option ℤ
  deriving DecidableEq, Repr

instance : Keyed WalletInvitationModel Uuid := ⟨WalletInvitationModel.id⟩

namespace WalletInvitationModel

/-- The row of a wallet invitation. -/
def ofDomain (i : WalletInvitation) : WalletInvitationModel :=
  ⟨i.id, i.user, i.wallet, i.email, i.state, PermissionTypes.join i.permissionTypes, i.confirmCode,
    i.expiredAt, i.acceptedAt⟩

def toDomain (m : WalletInvitationModel) : WalletInvitation :=
  ⟨m.id, m.userId, m.walletId, m.email, m.state, PermissionTypes.split m.permissionTypeIds,
    m.confirmCode, m.expiredAt, m.acceptedAt⟩

end WalletInvitationModel

/-- A wallet account as it is created with its wallet. -/
structure NewWalletAccount where
  wallet : Uuid
  currency : CurrencyId
  state : WalletAccountState
  deriving DecidableEq, Repr

structure State where
  wallets : Table Wallet
  walletAccounts : List NewWalletAccount
  userWallets : Table UserWalletModel
  walletInvitations : Table WalletInvitationModel
  deriving DecidableEq

/-- What the use cases do not write: the configuration, the currencies, the users that the user
service knows, and the invitations that the notification service takes. -/
structure Env where
  permissionRootTag : PermissionTypeTag
  walletMaxNumber : ℕ
  expiredInviteH : ℕ
  currencies : List CurrencyId
  getUserByUuid : UserId → Bool
  sendEmailWalletInvitation : WalletInvitation → Bool

inductive Exception where
  | missingData (fields : List String)
  | forbidden
  | uniqueConstraint (table : String)
  | walletMaxNumber (numberOfWallet : ℕ)
  | walletNotFound (wallet : Uuid)
  | walletNotActive (wallet : Wallet)
  | walletUserNotRoot (wallet : Wallet)
  | walletCannotBeDeleted (wallet : Wallet)
  | walletInvitationAlreadyExists (email : String) (wallet : Uuid)
  | walletInvitationNotFound (id : Uuid)
  | walletInvitationInvalidState (walletInvitation : WalletInvitation)
  | walletInvitationIsExpired (walletInvitation : WalletInvitation)
  | walletInvitationNotPermitted (walletInvitation : WalletInvitation)
  | walletInvitationInvalidCodeConfirm (confirmCode : String)
  | userNotFound (user : UserId)
  | userWalletAlreadyExists (user : UserId) (wallet : Uuid)
  | userWalletNotFound (user : UserId) (wallet : Uuid)
  | notification
  deriving DecidableEq, Repr

abbrev App := EStateM Exception State

/-- The names of the parameters that are missing. -/
def missing (fields : List (Bool × String)) : Exception :=
  .missingData ((fields.filter (¬ ·.1)).map (·.2))

/-! ### Repositories -/

namespace UserWalletRepository

def create (u : UserWallet) : App Unit := do
  let s ← get
  let userWallets ← orThrow (s.userWallets.insert? (.ofDomain u)) (.uniqueConstraint "users_wallets")
  modify fun s => { s with userWallets }

def update (u : UserWallet) : App Unit :=
  modify fun s => { s with userWallets := s.userWallets.set (.ofDomain u) }

def getByUserAndWallet (user : UserId) (wallet : Uuid) (s : State) : Option UserWallet :=
  (s.userWallets.rows.find? fun m => decide (m.userId = user ∧ m.walletId = wallet)).map (·.toDomain)

def deleteByUserAndWallet (user : UserId) (wallet : Uuid) : App Unit :=
  modify fun s => { s with
    userWallets := s.userWallets.filter fun m => ¬ (m.walletId = wallet ∧ m.userId = user) }

end UserWalletRepository

namespace WalletRepository

def create (w : Wallet) : App Unit := do
  let s ← get
  let wallets ← orThrow (s.wallets.insert? w) (.uniqueConstraint "Wallets")
  modify fun s => { s with wallets }

def getByUuid (uuid : Uuid) (s : State) : Option Wallet := s.wallets.get? uuid

def countByUserAndStateIsNotDeactivate (user : UserId) (s : State) : ℕ :=
  (s.wallets.rows.filter fun w => decide (w.user = user ∧ w.state ≠ .deactivate)).length

end WalletRepository

namespace WalletInvitationRepository

def create (i : WalletInvitation) : App Unit := do
  let s ← get
  let walletInvitations ← orThrow (s.walletInvitations.insert? (.ofDomain i))
    (.uniqueConstraint "wallet_invitations")
  modify fun s => { s with walletInvitations }

def update (i : WalletInvitation) : App Unit :=
  modify fun s => { s with walletInvitations := s.walletInvitations.set (.ofDomain i) }

def getById (id : Uuid) (s : State) : Option WalletInvitation :=
  (s.walletInvitations.get? id).map (·.toDomain)

def getByEmailAndWalletAndStateIn (email : String) (wallet : Uuid)
    (states : List WalletInvitationState) (s : State) : Option WalletInvitation :=
  (s.walletInvitations.rows.find? fun m =>
    decide (m.email = email ∧ m.walletId = wallet ∧ m.state ∈ states)).map (·.toDomain)

end WalletInvitationRepository

/-! ### Use cases -/

variable (env : Env) (now : ℤ)

/-- A wallet with its accounts, and the user wallet of its owner. -/
def createWallet (w : Wallet) (state : WalletAccountState) : App Unit := do
  WalletRepository.create w
  modify fun s => { s with
    walletAccounts := s.walletAccounts ++ env.currencies.map fun currency =>
      ⟨w.uuid, currency, state⟩ }
  let s ← get
  UserWalletRepository.create
    ⟨fresh (s.userWallets.rows.map (·.id)), w.user, w.uuid, [env.permissionRootTag]⟩

/-- `CreateActiveWalletUseCase`. -/
def CreateActiveWalletUseCase.execute (uuid : Option Uuid) (name : Option String)
    (user : Option UserId) : App Unit := do
  let e := missing [(uuid.isSome, "UUID"), (name.isSome, "Name"), (user.isSome, "User ID"),
    (user.isSome, "User UUID")]
  let uuid ← orThrow uuid e
  let _ ← orThrow name e
  let user ← orThrow user e
  let s ← get
  match WalletRepository.getByUuid uuid s with
  | some walletFound => throwIf (walletFound.user ≠ user) .forbidden
  | none =>
      let numberOfWallet := WalletRepository.countByUserAndStateIsNotDeactivate user s
      throwIf (env.walletMaxNumber ≤ numberOfWallet) (.walletMaxNumber numberOfWallet)
      createWallet env ⟨uuid, user, false, .active⟩ .active

/-- `CreatePendingWalletUseCase`. -/
def CreatePendingWalletUseCase.execute (user : Option UserId) : App Unit := do
  let user ← orThrow user (missing [(user.isSome, "User ID"), (user.isSome, "User UUID")])
  let s ← get
  if WalletRepository.countByUserAndStateIsNotDeactivate user s = 0 then
    createWallet env ⟨fresh (s.wallets.rows.map (·.uuid)), user, true, .pending⟩ .pending

/-- `CreateWalletInvitationUseCase`, with the confirm code that is drawn. -/
def CreateWalletInvitationUseCase.execute (id : Option Uuid) (email : Option String)
    (wallet : Option Uuid) (user : Option UserId) (permissionTypes : List PermissionTypeTag)
    (confirmCode : String) : App Unit := do
  let e := missing [(id.isSome, "ID"), (wallet.isSome, "Wallet"), (user.isSome, "User ID"),
    (email.isSome, "Contact Information Email"), (¬ permissionTypes.isEmpty, "Permission Types")]
  let id ← orThrow id e
  let wallet ← orThrow wallet e
  let user ← orThrow user e
  let email ← orThrow email e
  throwIf (permissionTypes = []) e
  throwIf (env.permissionRootTag ∈ permissionTypes) (.missingData ["Permission Type invalid"])
  let s ← get
  match WalletInvitationRepository.getById id s with
  | some _ => return ()
  | none =>
      let walletFound ← orThrow (WalletRepository.getByUuid wallet s) (.walletNotFound wallet)
      throwIf (¬ walletFound.isActive) (.walletNotActive walletFound)
      throwIf (walletFound.user ≠ user) (.walletUserNotRoot walletFound)
      throwIf (WalletInvitationRepository.getByEmailAndWalletAndStateIn email wallet
        [.ACCEPTED, .PENDING] s).isSome (.walletInvitationAlreadyExists email wallet)
      throwIf (¬ env.getUserByUuid user) (.userNotFound user)
      let newWalletInvitation : WalletInvitation :=
        ⟨id, user, wallet, email, .PENDING, permissionTypes, confirmCode,
          now + env.expiredInviteH * 3600000, none⟩
      WalletInvitationRepository.create newWalletInvitation
      throwIf (¬ env.sendEmailWalletInvitation newWalletInvitation) .notification

/-- `AcceptWalletInvitationUseCase`. -/
def AcceptWalletInvitationUseCase.execute (id : Option Uuid) (confirmCode : Option String)
    (user : Option UserId) (userEmail : Option String) : App Unit := do
  let e := missing [(id.isSome, "ID"), (confirmCode.isSome, "Code confirm"),
    (user.isSome, "User ID"), (userEmail.isSome, "Contact Information Email")]
  let id ← orThrow id e
  let confirmCode ← orThrow confirmCode e
  let user ← orThrow user e
  let userEmail ← orThrow userEmail e
  let s ← get
  let i ← orThrow (WalletInvitationRepository.getById id s) (.walletInvitationNotFound id)
  if i.state = .ACCEPTED then return ()
  throwIf (i.state ≠ .PENDING) (.walletInvitationInvalidState i)
  throwIf (i.expiredAt < now) (.walletInvitationIsExpired i)
  throwIf (userEmail ≠ i.email) (.walletInvitationNotPermitted i)
  throwIf (i.confirmCode ≠ confirmCode) (.walletInvitationInvalidCodeConfirm confirmCode)
  throwIf (UserWalletRepository.getByUserAndWallet user i.wallet s).isSome
    (.userWalletAlreadyExists user i.wallet)
  WalletInvitationRepository.update { i with state := .ACCEPTED, acceptedAt := some now }
  UserWalletRepository.create
    ⟨fresh (s.userWallets.rows.map (·.id)), user, i.wallet, i.permissionTypes⟩

/-- `UpdateUserWalletByWalletUseCase`. -/
def UpdateUserWalletByWalletUseCase.execute (ownerWallet user : Option UserId)
    (wallet : Option Uuid) (permissionTypes : List PermissionTypeTag) : App Unit := do
  let e := missing [(ownerWallet.isSome, "Owner Wallet UUID"), (user.isSome, "User UUID"),
    (wallet.isSome, "Wallet UUID"), (¬ permissionTypes.isEmpty, "Permission Types")]
  let ownerWallet ← orThrow ownerWallet e
  let user ← orThrow user e
  let wallet ← orThrow wallet e
  throwIf (permissionTypes = []) e
  throwIf (env.permissionRootTag ∈ permissionTypes) (.missingData ["Permission Type invalid"])
  let s ← get
  let walletFound ← orThrow (WalletRepository.getByUuid wallet s) (.walletNotFound wallet)
  throwIf (walletFound.user ≠ ownerWallet) (.walletNotFound wallet)
  throwIf (walletFound.user = user) (.userWalletAlreadyExists user wallet)
  let userWallet ← orThrow (UserWalletRepository.getByUserAndWallet user wallet s)
    (.userWalletNotFound user wallet)
  throwIf (¬ env.getUserByUuid userWallet.user) (.userNotFound userWallet.user)
  if env.permissionRootTag ∈ userWallet.permissionTypes then return ()
  UserWalletRepository.update { userWallet with permissionTypes }

/-- `DeleteUserWalletByUserAndWalletUseCase`. -/
def DeleteUserWalletByUserAndWalletUseCase.execute (user : Option UserId) (wallet : Option Uuid) :
    App Unit := do
  let e := missing [(user.isSome, "User UUID"), (wallet.isSome, "Wallet UUID")]
  let user ← orThrow user e
  let wallet ← orThrow wallet e
  let s ← get
  match UserWalletRepository.getByUserAndWallet user wallet s, WalletRepository.getByUuid wallet s with
  | some _, some walletFound =>
      throwIf (walletFound.user = user) (.walletCannotBeDeleted walletFound)
      UserWalletRepository.deleteByUserAndWallet user wallet
  | _, _ => return ()

/-- `DeleteUserWalletUseCase`. -/
def DeleteUserWalletUseCase.execute (ownerWallet user : Option UserId) (wallet : Option Uuid) :
    App Unit := do
  let e := missing [(ownerWallet.isSome, "Owner Wallet UUID"), (user.isSome, "User UUID"),
    (wallet.isSome, "Wallet UUID")]
  let ownerWallet ← orThrow ownerWallet e
  let user ← orThrow user e
  let wallet ← orThrow wallet e
  let s ← get
  match WalletRepository.getByUuid wallet s with
  | none => return ()
  | some walletFound =>
      if walletFound.user ≠ ownerWallet then return ()
      throwIf (walletFound.user = user) (.walletCannotBeDeleted walletFound)
      match UserWalletRepository.getByUserAndWallet user wallet s with
      | none => return ()
      | some _ => UserWalletRepository.deleteByUserAndWallet user wallet

/-! ### The system -/

inductive Command where
  | createActive (uuid : Option Uuid) (name : Option String) (user : Option UserId)
  | createPending (user : Option UserId)
  | createInvitation (id : Option Uuid) (email : Option String) (wallet : Option Uuid)
      (user : Option UserId) (permissionTypes : List PermissionTypeTag) (confirmCode : String)
  | acceptInvitation (id : Option Uuid) (confirmCode : Option String) (user : Option UserId)
      (userEmail : Option String)
  | updateByWallet (ownerWallet user : Option UserId) (wallet : Option Uuid)
      (permissionTypes : List PermissionTypeTag)
  | deleteByUserAndWallet (user : Option UserId) (wallet : Option Uuid)
  | deleteByWallet (ownerWallet user : Option UserId) (wallet : Option Uuid)
  deriving DecidableEq, Repr

/-- The use case of a command. -/
def Command.app : Command → App Unit
  | createActive uuid name user => CreateActiveWalletUseCase.execute env uuid name user
  | createPending user => CreatePendingWalletUseCase.execute env user
  | createInvitation id email wallet user permissionTypes confirmCode =>
      CreateWalletInvitationUseCase.execute env now id email wallet user permissionTypes confirmCode
  | acceptInvitation id confirmCode user userEmail =>
      AcceptWalletInvitationUseCase.execute now id confirmCode user userEmail
  | updateByWallet ownerWallet user wallet permissionTypes =>
      UpdateUserWalletByWalletUseCase.execute env ownerWallet user wallet permissionTypes
  | deleteByUserAndWallet user wallet => DeleteUserWalletByUserAndWalletUseCase.execute user wallet
  | deleteByWallet ownerWallet user wallet =>
      DeleteUserWalletUseCase.execute ownerWallet user wallet

/-- An execution in its transaction, at an instant. -/
def step (s : State) (l : ℤ × Command) : State :=
  match transaction (fun before _ => before) (l.2.app env l.1) s with
  | .ok _ s' => s'
  | .error _ s' => s'

end Wallets

end ZroServices
