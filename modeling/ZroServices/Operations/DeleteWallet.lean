import ZroServices.Operations.Conservation
import ZroServices.Operations.P2PTransfer

/-!
# Operations — deleting a wallet

`DeleteWalletByUuidAndUserUseCase`: transfer the balances of the wallet's active accounts to a
backup wallet, deactivate the accounts and the wallet, and forget who has access to it.

The accounts are read once, before the transfers, and written back after them as they were read,
with a new state.  So an account ends with the balance and the pending amount it had before, and
what was transferred is there twice: `execute_moves_iff` says that the money is moved exactly when
there is none to move.
-/

namespace ZroServices

open Foundation

namespace DeleteWalletByUuidAndUserUseCase

variable (env : Env) (now : ℤ)

/-- A wallet of the user. -/
def getWallet (uuid : Uuid) (user : UserId) : App Wallet := do
  let wallet ← readDb (·.wallets.get? uuid)
  let wallet ← orThrow wallet (.walletNotFound uuid)
  throwIf (wallet.user ≠ user) (.walletNotFound wallet.uuid)
  return wallet

/-- `getWalletBackupByUser`. -/
def getWalletBackupByUser (uuid : Uuid) (user : UserId) : App Wallet := do
  let wallet ← getWallet uuid user
  throwIf (wallet.state = .deactivate) (.walletNotActive wallet)
  return wallet

/-- The wallet's accounts that are active, as the cache table has them. -/
def activeWalletAccounts (wallet : Wallet) (db : Db) : List WalletAccount :=
  (db.walletAccountsByWallet wallet).filter (·.isActive)

/-- Transfer the balance of an account to the backup wallet. -/
def transferBalance (user : UserId) (wallet walletBackup : Wallet) (a : WalletAccount) :
    App Unit := do
  let id ← readDb (·.uuidV4 3)
  let _ ← CreateP2PTransferUseCase.execute env now (some id) (some user) (some wallet.uuid)
    (some walletBackup.uuid) (some a.currency.symbol) (some a.balance) 0 none
  return ()

/-- Transfer the balances of the accounts that have one. -/
def transferBalances (user : UserId) (wallet : Wallet) (walletBackup : Option Uuid)
    (walletAccountsWithBalance : List WalletAccount) : App Unit :=
  if walletAccountsWithBalance = [] then return ()
  else do
    let walletBackup ← orThrow walletBackup (.walletAccountHasBalance walletAccountsWithBalance)
    let walletBackup ← getWalletBackupByUser walletBackup user
    walletAccountsWithBalance.forM (transferBalance env now user wallet walletBackup)

/-- An account as it was read, deactivated. -/
def disabled (a : WalletAccount) : WalletAccount := { a with state := .deactivate }

/-- Write the accounts back, deactivated. -/
def disableWalletAccounts (as : List WalletAccount) : App Unit :=
  as.forM fun a => WalletAccountRepository.update (disabled a)

/-- Deactivate the wallet and delete who has access to it. -/
def disableWallet (wallet : Wallet) : App Unit :=
  writeDb fun db => { db with
    wallets := db.wallets.set { wallet with state := .deactivate }
    userWallets := db.userWallets.filter fun u => u.1 ≠ wallet.uuid }

/-- Delete a wallet that is not deactivated. -/
def deleteWallet (wallet : Wallet) (user : UserId) (walletBackup : Option Uuid) : App Unit := do
  throwIf (wallet.default = true) (.walletCannotBeDeleted wallet)
  let activeWalletAccounts ← readDb (activeWalletAccounts wallet)
  transferBalances env now user wallet walletBackup (activeWalletAccounts.filter (·.balance ≠ 0))
  disableWalletAccounts activeWalletAccounts
  disableWallet wallet

/-- `DeleteWalletByUuidAndUserUseCase.execute`. -/
def execute (uuid : Option Uuid) (user : Option UserId) (walletBackup : Option Uuid) :
    App Unit := do
  let missing := Exception.missingData
    ((if uuid = none then ["UUID"] else []) ++ (if user = none then ["User UUID"] else []))
  let uuid ← orThrow uuid missing
  let user ← orThrow user missing
  let wallet ← getWallet uuid user
  if wallet.state = .deactivate then return ()
  else deleteWallet env now wallet user walletBackup

/-! ### What deleting a wallet does -/

section
variable {env now} {wallet : Wallet} {user : UserId} {walletBackup : Option Uuid} {w w' : World}
  {t : Unit}

theorem getWallet_ok {uuid : Uuid} {r : Wallet} (h : getWallet uuid user w = .ok r w') :
    w' = w ∧ w.db.wallets.get? uuid = some r ∧ r.user = user := by
  simp only [getWallet, bind_ok, readDb_ok, orThrow_ok, throwIf_ok, pure_ok] at h
  obtain ⟨_, _, ⟨rfl, rfl⟩, _, _, ⟨hw, rfl⟩, _, _, ⟨hu, rfl⟩, rfl, rfl⟩ := h
  exact ⟨rfl, hw, not_not.mp hu⟩

/-- The two worlds have the same accounts, whatever is on them. -/
def SameAccounts (w w' : World) : Prop :=
  w'.db.walletAccounts.rows.map (·.id) = w.db.walletAccounts.rows.map (·.id)

theorem transferBalance_sameAccounts {walletBackup : Wallet} {a : WalletAccount}
    (h : transferBalance env now user wallet walletBackup a w = .ok t w') :
    SameAccounts w w' := by
  simp only [transferBalance, bind_ok, readDb_ok, pure_ok] at h
  obtain ⟨id, _, ⟨-, rfl⟩, r, _, htransfer, -, rfl⟩ := h
  obtain ⟨db, p2pTransfers, hchanges, hdb⟩ := CreateP2PTransferUseCase.execute_changes htransfer
  rw [SameAccounts, hdb]
  exact hchanges.invariant (fun _ _ hc e => hc.walletAccountIds.trans e) rfl

/-- The transfers open and close no account, and without accounts to transfer nothing happens. -/
theorem transferBalances_ok {as : List WalletAccount}
    (h : transferBalances env now user wallet walletBackup as w = .ok t w') :
    SameAccounts w w' ∧ (as = [] → w' = w) := by
  rw [transferBalances] at h
  split at h
  · rename_i hnil
    obtain ⟨-, rfl⟩ := pure_ok.mp h
    exact ⟨rfl, fun _ => rfl⟩
  · rename_i hne
    simp only [getWalletBackupByUser, bind_ok, orThrow_ok, throwIf_ok, pure_ok] at h
    obtain ⟨backup, _, ⟨-, rfl⟩, found, w₁, ⟨_, w₂, hget, _, _, ⟨-, rfl⟩, -, rfl⟩, h⟩ := h
    obtain ⟨rfl, -⟩ := getWallet_ok hget
    refine ⟨?_, fun hnil => absurd hnil hne⟩
    exact forM_ok (R := SameAccounts) (fun _ => rfl) (fun _ _ _ h h' => Eq.trans h' h)
      (fun _ _ _ _ => transferBalance_sameAccounts) h

theorem disableWalletAccounts_ok {as : List WalletAccount}
    (h : disableWalletAccounts as w = .ok t w') :
    w'.db.walletAccounts = w.db.walletAccounts.setAll (as.map disabled) := by
  rw [forM_writes (fun a s s' t hs => WalletAccountRepository.update_ok.mp hs) h]
  clear h
  induction as generalizing w with
  | nil => rfl
  | cons a as ih => exact ih

/-- **What deleting a wallet does to the accounts**: the active ones are written as they were
before it. -/
theorem deleteWallet_ok (h : deleteWallet env now wallet user walletBackup w = .ok t w') :
    ∃ db : Db, db.walletAccounts.rows.map (·.id) = w.db.walletAccounts.rows.map (·.id) ∧
      ((∀ a ∈ activeWalletAccounts wallet w.db, a.balance = 0) →
        db.walletAccounts = w.db.walletAccounts) ∧
      w'.db.walletAccounts
        = db.walletAccounts.setAll ((activeWalletAccounts wallet w.db).map disabled) := by
  simp only [deleteWallet, bind_ok, throwIf_ok, readDb_ok] at h
  obtain ⟨_, _, ⟨-, rfl⟩, as, _, ⟨rfl, rfl⟩, _, w₁, htransfer, _, w₂, hdisable, hwallet⟩ := h
  obtain ⟨hids, hnone⟩ := transferBalances_ok htransfer
  rw [disableWallet, writeDb_ok] at hwallet
  refine ⟨w₁.db, hids, fun hzero => ?_, ?_⟩
  · rw [hnone]
    rw [List.filter_eq_nil_iff]
    intro a ha
    simp [hzero a ha]
  · subst hwallet
    exact (disableWalletAccounts_ok hdisable :)

end

/-! ### Moving the money -/

/-- An account of `db₀` that is active there and not in `db`. -/
def Deactivated (db₀ db : Db) (a : WalletAccount) : Prop :=
  a ∈ db₀.walletAccounts.rows ∧ a.isActive ∧
    ∀ a' ∈ db.walletAccounts.rows, a'.id = a.id → ¬ a'.isActive

/-- The money of the accounts that were deactivated is moved to the backup wallet. -/
structure MovesMoney (db₀ db : Db) (walletBackup : Option Uuid) : Prop where
  emptied : ∀ a, Deactivated db₀ db a →
    ∀ a' ∈ db.walletAccounts.rows, a'.id = a.id → a'.balance = 0 ∧ a'.pendingAmount = 0
  gained : ∀ a, Deactivated db₀ db a →
    ∀ b ∈ db₀.walletAccounts.rows, walletBackup = some b.wallet → b.currency.id = a.currency.id →
      ∀ b' ∈ db.walletAccounts.rows, b'.id = b.id → b'.balance = b.balance + a.balance
  total : db.walletAccounts.total (fun a => a.balance + a.pendingAmount)
    = db₀.walletAccounts.total fun a => a.balance + a.pendingAmount

/-- There is nothing to move: the wallet is deactivated already, or nothing is on its active
accounts. -/
def NothingToMove (wallet : Wallet) (db : Db) : Prop :=
  wallet.state = .deactivate ∨
    ∀ a ∈ activeWalletAccounts wallet db, a.balance = 0 ∧ a.pendingAmount = 0

section
variable {wallet : Wallet} {db₀ db : Db} {a a' : WalletAccount} {t : Table WalletAccount}

theorem mem_activeWalletAccounts :
    a ∈ activeWalletAccounts wallet db ↔
      a ∈ db.walletAccounts.rows ∧ a.wallet = wallet.uuid ∧ a.isActive := by
  simp only [activeWalletAccounts, Db.walletAccountsByWallet, List.mem_filter, decide_eq_true_eq,
    and_assoc]

theorem nodup_activeWalletAccounts :
    (((activeWalletAccounts wallet db).map disabled).map Keyed.key).Nodup := by
  rw [List.map_map]
  have sub : (activeWalletAccounts wallet db).Sublist db.walletAccounts.rows :=
    List.filter_sublist.trans List.filter_sublist
  exact db.walletAccounts.nodup.sublist (sub.map Keyed.key)

/-- An active account ends as it was, deactivated. -/
theorem get?_disabled (hids : t.rows.map (·.id) = db.walletAccounts.rows.map (·.id))
    (ha : a ∈ activeWalletAccounts wallet db) :
    (t.setAll ((activeWalletAccounts wallet db).map disabled)).get? a.id
      = some (disabled a) := by
  have hmem : a.id ∈ t.rows.map (·.id) := by
    rw [hids]
    exact List.mem_map_of_mem (mem_activeWalletAccounts.mp ha).1
  obtain ⟨s, hs, hid⟩ := List.mem_map.mp hmem
  have found : t.get? (Keyed.key (disabled a)) = some s := Table.get?_eq_some.mpr ⟨hs, hid⟩
  exact Table.get?_setAll_of_mem nodup_activeWalletAccounts (List.mem_map_of_mem ha) found

/-- The other accounts are not written. -/
theorem get?_not_disabled (hmem : a ∈ db.walletAccounts.rows)
    (ha : a ∉ activeWalletAccounts wallet db) :
    (db.walletAccounts.setAll ((activeWalletAccounts wallet db).map disabled)).get? a.id
      = some a := by
  rw [Table.get?_setAll_of_ne]
  · exact Table.get?_of_mem hmem
  · intro r hr e
    obtain ⟨x, hx, rfl⟩ := List.mem_map.mp hr
    have : x = a := Table.eq_of_key (mem_activeWalletAccounts.mp hx).1 hmem e
    exact ha (this ▸ hx)

/-- What is known of an account that has the id of another. -/
theorem eq_of_get? (h : t.get? a.id = some a) (ha' : a' ∈ t.rows) (hid : a'.id = a.id) :
    a' = a := by
  have := Table.get?_of_mem ha'
  rw [WalletAccount.key_eq, hid, h] at this
  exact (Option.some.inj this).symm

/-- Without money on the accounts, deactivating them moves it. -/
theorem movesMoney_of_zero (walletBackup : Option Uuid)
    (hzero : ∀ a ∈ activeWalletAccounts wallet db₀, a.balance = 0 ∧ a.pendingAmount = 0)
    (hdb : db.walletAccounts
      = db₀.walletAccounts.setAll ((activeWalletAccounts wallet db₀).map disabled)) :
    MovesMoney db₀ db walletBackup := by
  have row : ∀ a ∈ db₀.walletAccounts.rows, ∀ a' ∈ db.walletAccounts.rows, a'.id = a.id →
      (a ∈ activeWalletAccounts wallet db₀ ∧ a' = disabled a) ∨ a' = a := by
    intro a ha a' ha' hid
    rw [hdb] at ha'
    by_cases hactive : a ∈ activeWalletAccounts wallet db₀
    · have h := get?_disabled (t := db₀.walletAccounts) rfl hactive
      exact Or.inl ⟨hactive, eq_of_get? h ha' hid⟩
    · exact Or.inr (eq_of_get? (get?_not_disabled ha hactive) ha' hid)
  have active : ∀ a, Deactivated db₀ db a → a ∈ activeWalletAccounts wallet db₀ := by
    rintro a ⟨ha, hactive, hnot⟩
    by_contra hother
    have h := get?_not_disabled ha hother
    rw [← hdb] at h
    exact hnot a (Table.mem_of_get? h) rfl hactive
  refine ⟨fun a ha a' ha' hid => ?_, fun a ha b hb _ _ b' hb' hid => ?_, ?_⟩
  · rcases row a ha.1 a' ha' hid with ⟨hactive, rfl⟩ | rfl
    · exact hzero a hactive
    · exact hzero a' (active a' ha)
  · rw [(hzero a (active a ha)).1, add_zero]
    rcases row b hb b' hb' hid with ⟨-, rfl⟩ | rfl
    · rfl
    · rfl
  · rw [hdb]
    refine Table.total_setAll nodup_activeWalletAccounts fun r hr => ?_
    obtain ⟨a, ha, rfl⟩ := List.mem_map.mp hr
    exact ⟨a, Table.get?_of_mem (mem_activeWalletAccounts.mp ha).1, rfl⟩

/-- Nothing deactivated, nothing moved. -/
theorem movesMoney_refl (db : Db) (walletBackup : Option Uuid) : MovesMoney db db walletBackup where
  emptied a ha := absurd ha.2.1 (ha.2.2 a ha.1 rfl)
  gained a ha := absurd ha.2.1 (ha.2.2 a ha.1 rfl)
  total := rfl

/-- Accounts that are written back as they were are not emptied. -/
theorem zero_of_movesMoney {walletBackup : Option Uuid}
    (hids : t.rows.map (·.id) = db₀.walletAccounts.rows.map (·.id))
    (hdb : db.walletAccounts = t.setAll ((activeWalletAccounts wallet db₀).map disabled))
    (h : MovesMoney db₀ db walletBackup) (ha : a ∈ activeWalletAccounts wallet db₀) :
    a.balance = 0 ∧ a.pendingAmount = 0 := by
  have found := get?_disabled hids ha
  rw [← hdb] at found
  obtain ⟨hmem, -, hactive⟩ := mem_activeWalletAccounts.mp ha
  refine h.emptied a ⟨hmem, hactive, fun a' ha' hid hactive' => ?_⟩ (disabled a)
    (Table.mem_of_get? found) rfl
  obtain rfl : a' = disabled a := eq_of_get? (a := disabled a) found ha' hid
  cases hactive'

end

/-- **Deleting a wallet moves its money exactly when there is none to move.** -/
theorem execute_moves_iff (env : Env) (now : ℤ) (uuid : Option Uuid) (user : Option UserId)
    (walletBackup : Option Uuid) (w w' : World)
    (h : execute env now uuid user walletBackup w = .ok () w') :
    MovesMoney w.db w'.db walletBackup ↔
      ∃ wallet, uuid.bind w.db.wallets.get? = some wallet ∧ NothingToMove wallet w.db := by
  simp only [execute, bind_ok, orThrow_ok] at h
  obtain ⟨uuid, w₁, ⟨rfl, hw₁⟩, user, w₂, ⟨-, hw₂⟩, wallet, w₃, hget, h⟩ := h
  obtain ⟨hw₃, hwallet, -⟩ := getWallet_ok hget
  rw [hw₂, hw₁] at hwallet
  rw [hw₃, hw₂, hw₁] at h
  have found : ∀ wallet', (some uuid).bind w.db.wallets.get? = some wallet' ↔ wallet' = wallet :=
    fun wallet' => by rw [Option.bind_some, hwallet, Option.some_inj, eq_comm]
  split at h
  · rename_i hstate
    obtain ⟨-, rfl⟩ := pure_ok.mp h
    exact iff_of_true (movesMoney_refl _ _) ⟨wallet, (found wallet).mpr rfl, Or.inl hstate⟩
  · rename_i hstate
    obtain ⟨db, hids, hnone, hdb⟩ := deleteWallet_ok h
    constructor
    · intro hmoves
      exact ⟨wallet, (found wallet).mpr rfl, Or.inr fun a => zero_of_movesMoney hids hdb hmoves⟩
    · rintro ⟨wallet', hfound, hnothing⟩
      obtain rfl := (found wallet').mp hfound
      have hzero := hnothing.resolve_left hstate
      rw [hnone fun a ha => (hzero a ha).1] at hdb
      exact movesMoney_of_zero walletBackup hzero hdb

end DeleteWalletByUuidAndUserUseCase

namespace Sample

/-- The first user has a second wallet, with a balance. -/
def secondWallet (balance : ℤ) : World :=
  let w := (start 0 0).world
  { w with db := { w.db with
      wallets := ⟨[⟨1, 1, true, .active⟩, ⟨3, 1, false, .active⟩], by decide⟩
      walletAccounts := ⟨[account 1 1 0, account 3 3 balance], by simp [account]⟩ } }

end Sample

open DeleteWalletByUuidAndUserUseCase

/-- **A balance of 100 is copied to the backup wallet.** -/
theorem delete_copies_balance :
    ∃ w', execute (Sample.env .DATE) Sample.noon (some 3) (some 1) (some 1)
        (Sample.secondWallet 100) = .ok () w' ∧
      (w'.db.walletAccounts.rows.map fun a => (a.balance, a.pendingAmount, a.state))
        = [(100, 0, .active), (100, 0, .deactivate)] ∧
      ¬ MovesMoney (Sample.secondWallet 100).db w'.db (some 1) := by
  have h : Returns (execute (Sample.env .DATE) Sample.noon (some 3) (some 1) (some 1))
      (Sample.secondWallet 100) fun w' =>
        (w'.db.walletAccounts.rows.map fun a => (a.balance, a.pendingAmount, a.state))
            = [(100, 0, .active), (100, 0, .deactivate)] ∧
          ¬ (w'.db.walletAccounts.total (fun a => a.balance + a.pendingAmount)
            = (Sample.secondWallet 100).db.walletAccounts.total
              fun a => a.balance + a.pendingAmount) := by
    decide +kernel
  obtain ⟨_, w', hrun, hrows, htotal⟩ := h
  exact ⟨w', hrun, hrows, fun hmoves => htotal hmoves.total⟩

/-- A wallet without money is deleted. -/
theorem delete_empty_wallet :
    ∃ w', execute (Sample.env .DATE) Sample.noon (some 3) (some 1) none
        (Sample.secondWallet 0) = .ok () w' ∧
      MovesMoney (Sample.secondWallet 0).db w'.db none := by
  have h : Returns (execute (Sample.env .DATE) Sample.noon (some 3) (some 1) none)
      (Sample.secondWallet 0) fun _ => True := by decide +kernel
  obtain ⟨_, w', hrun, -⟩ := h
  refine ⟨w', hrun, (execute_moves_iff _ _ _ _ _ _ _ hrun).mpr ?_⟩
  exact ⟨⟨3, 1, false, .active⟩, by decide, Or.inr (by decide)⟩

end ZroServices
