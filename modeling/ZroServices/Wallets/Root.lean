import ZroServices.Wallets.UserWallet

/-!
# Wallets — the ROOT of a wallet

Every active wallet has one user wallet with the permission type ROOT, its owner's
(`Rooted`).  `Effect` says what an execution does to the user wallets; only the creation of a
wallet writes a ROOT, unless a request names one between the commas of a tag (`NamesNoRoot`).

`run_rooted`: in a run without such requests, every active wallet is rooted, and the ROOT of a
wallet is never granted, changed or removed.  `invited_root` is an invitation with the tag
`CLIENT,ROOT`.
-/

namespace ZroServices.Wallets

open Foundation

variable {env : Env} {now : ℤ} {s s' : State} {c : Command} {u : Unit}
variable {user : Option UserId}
variable {w : Wallet} {wallet : Option Uuid} {l : ℤ × Command}

/-! ### Requests that name ROOT -/

/-- The checks that an invitation passes when it is accepted. -/
def Accepts (now : ℤ) (s : State) (i : WalletInvitation) (confirmCode : String) (user : UserId)
    (userEmail : String) : Prop :=
  i.state = .PENDING ∧ ¬ i.expiredAt < now ∧ userEmail = i.email ∧ i.confirmCode = confirmCode ∧
    UserWalletRepository.getByUserAndWallet user i.wallet s = none

instance (now : ℤ) (s : State) (i : WalletInvitation) (confirmCode : String) (user : UserId)
    (userEmail : String) : Decidable (Accepts now s i confirmCode user userEmail) :=
  inferInstanceAs (Decidable (_ ∧ _ ∧ _ ∧ _ ∧ _))

/-- The checks on the wallet and its users that an update of a user wallet passes. -/
def Updates (env : Env) (s : State) (ownerWallet user : UserId) (wallet : Uuid) : Prop :=
  (∃ w, WalletRepository.getByUuid wallet s = some w ∧ w.user = ownerWallet ∧ w.user ≠ user) ∧
    ∃ userWallet, UserWalletRepository.getByUserAndWallet user wallet s = some userWallet ∧
      env.getUserByUuid userWallet.user ∧ env.permissionRootTag ∉ userWallet.permissionTypes

/-- The request does not give ROOT to a user: an invitation that is accepted does not have it, nor
has any tag of an update between its commas. -/
def NamesNoRoot (env : Env) (s : State) : ℤ × Command → Prop
  | (now, .acceptInvitation (some id) (some confirmCode) (some user) (some userEmail)) =>
      ∀ i, WalletInvitationRepository.getById id s = some i →
        Accepts now s i confirmCode user userEmail → env.permissionRootTag ∉ i.permissionTypes
  | (_, .updateByWallet (some ownerWallet) (some user) (some wallet) permissionTypes) =>
      Updates env s ownerWallet user wallet → env.permissionRootTag ∉ permissionTypes →
        ∀ tag ∈ permissionTypes, env.permissionRootTag ∉ PermissionTypes.split tag
  | _ => True

/-! ### What an execution does -/

/-- What an execution did to the wallets and the user wallets. -/
inductive Effect (env : Env) (now : ℤ) (s : State) : Command → State → Prop
  | none {c : Command} {s' : State} (hw : s'.wallets = s.wallets)
      (hu : s'.userWallets = s.userWallets) : Effect env now s c s'
  | created {c : Command} {s' : State} (w : Wallet) (id : Uuid)
      (hw : s.wallets.insert? w = some s'.wallets)
      (hu : s.userWallets.insert? (.ofDomain ⟨id, w.user, w.uuid, [env.permissionRootTag]⟩)
        = some s'.userWallets) : Effect env now s c s'
  | accepted {s' : State} (id : Uuid) (code : String) (user : UserId) (email : String)
      (i : WalletInvitation) (newId : Uuid)
      (hi : WalletInvitationRepository.getById id s = some i)
      (haccepts : Accepts now s i code user email) (hw : s'.wallets = s.wallets)
      (hu : s.userWallets.insert? (.ofDomain ⟨newId, user, i.wallet, i.permissionTypes⟩)
        = some s'.userWallets) :
      Effect env now s (.acceptInvitation (some id) (some code) (some user) (some email)) s'
  | updated {s' : State} (owner user : UserId) (wallet : Uuid)
      (permissionTypes : List PermissionTypeTag) (m : UserWalletModel)
      (hm : m ∈ s.userWallets.rows) (htags : permissionTypes ≠ [])
      (hroot : env.permissionRootTag ∉ permissionTypes)
      (hupdates : Updates env s owner user wallet)
      (hold : env.permissionRootTag ∉ m.toDomain.permissionTypes) (hw : s'.wallets = s.wallets)
      (hu : s'.userWallets = s.userWallets.set
        { m with permissionTypeIds := PermissionTypes.join permissionTypes }) :
      Effect env now s (.updateByWallet (some owner) (some user) (some wallet) permissionTypes) s'
  | deleted {c : Command} {s' : State} (w : Wallet) (user : UserId)
      (hget : s.wallets.get? w.uuid = some w) (hne : w.user ≠ user) (hw : s'.wallets = s.wallets)
      (hu : s'.userWallets = s.userWallets.filter fun m => ¬ (m.walletId = w.uuid ∧ m.userId = user)) :
      Effect env now s c s'

/-- The invitations are to wallets that are stored, if they were before. -/
def InvitesStored (s s' : State) : Prop :=
  ∀ m ∈ s'.walletInvitations.rows, (∃ m' ∈ s.walletInvitations.rows, m'.walletId = m.walletId) ∨
    ∃ w ∈ s.wallets.rows, w.uuid = m.walletId

theorem invitesStored_of_eq (h : s'.walletInvitations = s.walletInvitations) : InvitesStored s s' :=
  fun m hm => Or.inl ⟨m, h ▸ hm, rfl⟩

theorem createWallet_ok {state : WalletAccountState} (h : createWallet env w state s = .ok u s') :
    Effect env now s c s' ∧ s'.walletInvitations = s.walletInvitations := by
  simp only [createWallet, WalletRepository.create, UserWalletRepository.create, bind_ok, get_ok,
    orThrow_ok, modify_ok] at h
  obtain ⟨_, _, ⟨_, _, ⟨rfl, rfl⟩, wallets, _, ⟨hw, rfl⟩, rfl⟩, _, _, rfl, _, _, ⟨rfl, rfl⟩,
    _, _, ⟨rfl, rfl⟩, userWallets, _, ⟨hu, rfl⟩, rfl⟩ := h
  exact ⟨.created w _ hw hu, rfl⟩

theorem createActive_ok {uuid : Option Uuid} {name : Option String}
    (h : CreateActiveWalletUseCase.execute env uuid name user s = .ok u s') :
    Effect env now s c s' ∧ s'.walletInvitations = s.walletInvitations := by
  simp only [CreateActiveWalletUseCase.execute, bind_ok, orThrow_ok, get_ok] at h
  obtain ⟨uuid, _, ⟨-, rfl⟩, _, _, ⟨-, rfl⟩, user, _, ⟨-, rfl⟩, _, s₁, ⟨rfl, rfl⟩, hmatch⟩ := h
  cases hfound : WalletRepository.getByUuid uuid s₁ with
  | some walletFound =>
      rw [hfound] at hmatch
      obtain ⟨-, rfl⟩ := throwIf_ok.mp hmatch
      exact ⟨.none rfl rfl, rfl⟩
  | none =>
      rw [hfound] at hmatch
      obtain ⟨_, _, hmax, hcreate⟩ := bind_ok.mp hmatch
      obtain ⟨-, rfl⟩ := throwIf_ok.mp hmax
      exact createWallet_ok hcreate

theorem createPending_ok (h : CreatePendingWalletUseCase.execute env user s = .ok u s') :
    Effect env now s c s' ∧ s'.walletInvitations = s.walletInvitations := by
  simp only [CreatePendingWalletUseCase.execute, bind_ok, orThrow_ok, get_ok] at h
  obtain ⟨user, _, ⟨-, rfl⟩, _, _, ⟨rfl, rfl⟩, h⟩ := h
  split at h
  · exact createWallet_ok h
  · obtain ⟨-, rfl⟩ := pure_ok.mp h
    exact ⟨.none rfl rfl, rfl⟩

theorem createInvitation_ok {id : Option Uuid} {email : Option String}
    {permissionTypes : List PermissionTypeTag} {code : String}
    (h : CreateWalletInvitationUseCase.execute env now id email wallet user permissionTypes code s
      = .ok u s') : Effect env now s c s' ∧ InvitesStored s s' := by
  simp only [CreateWalletInvitationUseCase.execute, bind_ok, orThrow_ok, throwIf_ok, get_ok] at h
  obtain ⟨id, _, ⟨-, rfl⟩, wallet, _, ⟨-, rfl⟩, user, _, ⟨-, rfl⟩, email, _, ⟨-, rfl⟩,
    _, _, ⟨-, rfl⟩, _, _, ⟨-, rfl⟩, _, s₁, ⟨rfl, rfl⟩, hmatch⟩ := h
  cases hfound : WalletInvitationRepository.getById id s₁ with
  | some i =>
      rw [hfound] at hmatch
      obtain ⟨-, rfl⟩ := pure_ok.mp hmatch
      exact ⟨.none rfl rfl, invitesStored_of_eq rfl⟩
  | none =>
      rw [hfound] at hmatch
      simp only [WalletInvitationRepository.create, bind_ok, orThrow_ok, throwIf_ok, get_ok,
        modify_ok] at hmatch
      obtain ⟨w, _, ⟨hw, rfl⟩, _, _, ⟨-, rfl⟩, _, _, ⟨-, rfl⟩, _, _, ⟨-, rfl⟩, _, _, ⟨-, rfl⟩,
        _, _, ⟨_, _, ⟨rfl, rfl⟩, invitations, _, ⟨hins, rfl⟩, rfl⟩, -, rfl⟩ := hmatch
      refine ⟨.none rfl rfl, fun m hm => ?_⟩
      rcases (Table.mem_insert? hins).mp hm with hm | rfl
      · exact Or.inl ⟨m, hm, rfl⟩
      · exact Or.inr ⟨w, Table.mem_of_get? hw, Table.key_of_get? hw⟩

theorem acceptInvitation_ok {id : Option Uuid} {code email : Option String}
    (h : AcceptWalletInvitationUseCase.execute now id code user email s = .ok u s') :
    Effect env now s (.acceptInvitation id code user email) s' ∧ InvitesStored s s' := by
  simp only [AcceptWalletInvitationUseCase.execute, bind_ok, orThrow_ok, get_ok] at h
  obtain ⟨id, _, ⟨rfl, rfl⟩, code, _, ⟨rfl, rfl⟩, user, _, ⟨rfl, rfl⟩, email, _, ⟨rfl, rfl⟩,
    _, _, ⟨rfl, rfl⟩, i, _, ⟨hi, rfl⟩, h⟩ := h
  split at h
  · obtain ⟨-, rfl⟩ := pure_ok.mp h
    exact ⟨.none rfl rfl, invitesStored_of_eq rfl⟩
  · simp only [WalletInvitationRepository.update, UserWalletRepository.create, bind_ok, orThrow_ok,
      throwIf_ok, get_ok, modify_ok] at h
    obtain ⟨_, _, ⟨hstate, rfl⟩, _, _, ⟨hexpired, rfl⟩, _, _, ⟨hemail, rfl⟩, _, _, ⟨hcode, rfl⟩,
      _, _, ⟨huser, rfl⟩, _, _, rfl, _, _, ⟨rfl, rfl⟩, userWallets, _, ⟨hu, rfl⟩, rfl⟩ := h
    have haccepts : Accepts now _ i code user email :=
      ⟨not_not.mp hstate, hexpired, not_not.mp hemail, not_not.mp hcode,
        Option.not_isSome_iff_eq_none.mp huser⟩
    refine ⟨.accepted id code user email i _ hi haccepts rfl hu, fun m hm => ?_⟩
    rcases Table.mem_set.mp hm with ⟨hm, -⟩ | ⟨rfl, -⟩
    · exact Or.inl ⟨m, hm, rfl⟩
    · obtain ⟨m', hm', rfl⟩ := Option.map_eq_some_iff.mp hi
      exact Or.inl ⟨m', Table.mem_of_get? hm', rfl⟩

theorem updateByWallet_ok {owner : Option UserId} {permissionTypes : List PermissionTypeTag}
    (h : UpdateUserWalletByWalletUseCase.execute env owner user wallet permissionTypes s
      = .ok u s') :
    Effect env now s (.updateByWallet owner user wallet permissionTypes) s' ∧
      s'.walletInvitations = s.walletInvitations := by
  simp only [UpdateUserWalletByWalletUseCase.execute, bind_ok, orThrow_ok, throwIf_ok, get_ok] at h
  obtain ⟨owner, _, ⟨rfl, rfl⟩, user, _, ⟨rfl, rfl⟩, wallet, _, ⟨rfl, rfl⟩, _, _, ⟨htags, rfl⟩,
    _, _, ⟨hroot, rfl⟩, _, s₁, ⟨rfl, rfl⟩, w, _, ⟨hw, rfl⟩, _, _, ⟨howner, rfl⟩,
    _, _, ⟨huser, rfl⟩, found, _, ⟨hfound, rfl⟩, _, _, ⟨hknown, rfl⟩, h⟩ := h
  obtain ⟨m, hm, rfl⟩ := Option.map_eq_some_iff.mp hfound
  by_cases hold : env.permissionRootTag ∈ m.toDomain.permissionTypes
  · rw [if_pos hold] at h
    obtain ⟨-, rfl⟩ := pure_ok.mp h
    exact ⟨.none rfl rfl, rfl⟩
  · rw [if_neg hold] at h
    rw [UserWalletRepository.update] at h
    obtain rfl := modify_ok.mp h
    have hupdates : Updates env _ owner user wallet :=
      ⟨⟨w, hw, not_not.mp howner, huser⟩, m.toDomain, hfound, not_not.mp hknown, hold⟩
    exact ⟨.updated owner user wallet permissionTypes m (List.mem_of_find?_eq_some hm) htags hroot
      hupdates hold rfl rfl, rfl⟩

theorem deleteByUserAndWallet_ok
    (h : DeleteUserWalletByUserAndWalletUseCase.execute user wallet s = .ok u s') :
    Effect env now s c s' ∧ s'.walletInvitations = s.walletInvitations := by
  simp only [DeleteUserWalletByUserAndWalletUseCase.execute, bind_ok, orThrow_ok, get_ok] at h
  obtain ⟨user, _, ⟨-, rfl⟩, wallet, _, ⟨-, rfl⟩, _, s₁, ⟨rfl, rfl⟩, hmatch⟩ := h
  cases hfound : UserWalletRepository.getByUserAndWallet user wallet s₁ with
  | none =>
      rw [hfound] at hmatch
      obtain ⟨-, rfl⟩ := pure_ok.mp hmatch
      exact ⟨.none rfl rfl, rfl⟩
  | some found =>
      cases hwallet : WalletRepository.getByUuid wallet s₁ with
      | none =>
          rw [hfound, hwallet] at hmatch
          obtain ⟨-, rfl⟩ := pure_ok.mp hmatch
          exact ⟨.none rfl rfl, rfl⟩
      | some w =>
          rw [hfound, hwallet] at hmatch
          simp only [bind_ok, throwIf_ok, UserWalletRepository.deleteByUserAndWallet,
            modify_ok] at hmatch
          obtain ⟨_, _, ⟨hne, rfl⟩, rfl⟩ := hmatch
          have huuid : w.uuid = wallet := Table.key_of_get? hwallet
          subst huuid
          exact ⟨.deleted w user hwallet hne rfl rfl, rfl⟩

theorem deleteByWallet_ok {owner : Option UserId}
    (h : DeleteUserWalletUseCase.execute owner user wallet s = .ok u s') :
    Effect env now s c s' ∧ s'.walletInvitations = s.walletInvitations := by
  simp only [DeleteUserWalletUseCase.execute, bind_ok, orThrow_ok, get_ok] at h
  obtain ⟨owner, _, ⟨-, rfl⟩, user, _, ⟨-, rfl⟩, wallet, _, ⟨-, rfl⟩, _, s₁, ⟨rfl, rfl⟩,
    hmatch⟩ := h
  cases hwallet : WalletRepository.getByUuid wallet s₁ with
  | none =>
      rw [hwallet] at hmatch
      obtain ⟨-, rfl⟩ := pure_ok.mp hmatch
      exact ⟨.none rfl rfl, rfl⟩
  | some w =>
      rw [hwallet] at hmatch
      by_cases howner : w.user ≠ owner
      · obtain ⟨-, rfl⟩ := pure_ok.mp (by simpa only [if_pos howner] using hmatch)
        exact ⟨.none rfl rfl, rfl⟩
      · simp only [if_neg howner] at hmatch
        obtain ⟨_, s₂, hthrow, hrest⟩ := bind_ok.mp hmatch
        obtain ⟨hne, rfl⟩ := throwIf_ok.mp hthrow
        cases hfound : UserWalletRepository.getByUserAndWallet user wallet s₂ with
        | none =>
            rw [hfound] at hrest
            obtain ⟨-, rfl⟩ := pure_ok.mp hrest
            exact ⟨.none rfl rfl, rfl⟩
        | some found =>
            rw [hfound] at hrest
            simp only [UserWalletRepository.deleteByUserAndWallet, modify_ok] at hrest
            subst hrest
            have huuid : w.uuid = wallet := Table.key_of_get? hwallet
            subst huuid
            exact ⟨.deleted w user hwallet hne rfl rfl, rfl⟩

/-- **What a step does.** -/
theorem step_effect (env : Env) (s : State) (l : ℤ × Command) :
    Effect env l.1 s l.2 (step env s l) ∧ InvitesStored s (step env s l) := by
  obtain ⟨now, c⟩ := l
  rw [step]
  cases h : transaction (fun before _ => before) (c.app env now) s with
  | error e s' =>
      obtain ⟨_, -, rfl⟩ := transaction_error h
      exact ⟨.none rfl rfl, invitesStored_of_eq rfl⟩
  | ok u s' =>
      rw [transaction_ok] at h
      cases c with
      | createActive => exact (createActive_ok h).imp_right invitesStored_of_eq
      | createPending => exact (createPending_ok h).imp_right invitesStored_of_eq
      | createInvitation => exact createInvitation_ok h
      | acceptInvitation => exact acceptInvitation_ok h
      | updateByWallet => exact (updateByWallet_ok h).imp_right invitesStored_of_eq
      | deleteByUserAndWallet => exact (deleteByUserAndWallet_ok h).imp_right invitesStored_of_eq
      | deleteByWallet => exact (deleteByWallet_ok h).imp_right invitesStored_of_eq

/-! ### One ROOT -/

/-- The user wallets of a wallet that have ROOT. -/
def roots (env : Env) (s : State) (wallet : Uuid) : List UserWalletModel :=
  s.userWallets.rows.filter fun m =>
    decide (m.walletId = wallet ∧ env.permissionRootTag ∈ m.toDomain.permissionTypes)

/-- The wallet has one ROOT, its owner. -/
def Rooted (env : Env) (s : State) (w : Wallet) : Prop :=
  ∃ m, roots env s w.uuid = [m] ∧ m.userId = w.user

/-- What holds between the tables: every active wallet is rooted, and the user wallets and the
invitations are of wallets that are stored. -/
structure Inv (env : Env) (s : State) : Prop where
  rooted : ∀ w ∈ s.wallets.rows, w.isActive → Rooted env s w
  users : ∀ m ∈ s.userWallets.rows, ∃ w ∈ s.wallets.rows, w.uuid = m.walletId
  invitations : ∀ m ∈ s.walletInvitations.rows, ∃ w ∈ s.wallets.rows, w.uuid = m.walletId

/-- What an insert leaves of the roots of a wallet. -/
theorem roots_insert {m : UserWalletModel} {wallet : Uuid}
    (hu : s.userWallets.insert? m = some s'.userWallets)
    (hm : m.walletId = wallet → env.permissionRootTag ∉ m.toDomain.permissionTypes) :
    roots env s' wallet = roots env s wallet := by
  rw [roots, roots, (Table.insert?_eq_some hu).2, List.filter_append,
    List.filter_cons_of_neg (by simpa using hm), List.filter_nil, List.append_nil]

/-- The tags of an invitation that was read have no commas left. -/
theorem split_join_of_stored {id : Uuid} {i : WalletInvitation}
    (hi : WalletInvitationRepository.getById id s = some i) :
    PermissionTypes.split (PermissionTypes.join i.permissionTypes) = i.permissionTypes := by
  obtain ⟨m, -, rfl⟩ := Option.map_eq_some_iff.mp hi
  exact congrArg PermissionTypes.split (PermissionTypes.join_split m.permissionTypeIds)

/-- **The ROOT of a rooted wallet stays as it is** in a step that names no ROOT. -/
theorem roots_step (hok : NamesNoRoot env s l)
    (hw : w ∈ s.wallets.rows) (hrooted : Rooted env s w) :
    roots env (step env s l) w.uuid = roots env s w.uuid := by
  obtain ⟨now, c⟩ := l
  have heffect := (step_effect env s (now, c)).1
  generalize step env s (now, c) = s' at heffect ⊢
  cases heffect with
  | none _ hu => rw [roots, roots, hu]
  | created w' id hins hu =>
      refine roots_insert hu fun (e : w'.uuid = w.uuid) => ?_
      exact absurd e.symm (Table.get?_eq_none.mp (Table.insert?_eq_some hins).1 w hw)
  | accepted id code user email i newId hi haccepts _ hu =>
      refine roots_insert hu fun _ => ?_
      change env.permissionRootTag ∉
        PermissionTypes.split (PermissionTypes.join i.permissionTypes)
      rw [split_join_of_stored hi]
      exact hok i hi haccepts
  | updated owner user wallet tags m hm htags hroot hupdates hold _ hu =>
      have hnew : env.permissionRootTag ∉ PermissionTypes.split (PermissionTypes.join tags) := by
        rw [PermissionTypes.split_join htags, List.mem_flatMap]
        rintro ⟨tag, htag, hin⟩
        exact hok hupdates hroot tag htag hin
      rw [roots, roots, hu]
      refine Table.filter_set (by simp [UserWalletModel.toDomain, hnew]) fun x hx hkey => ?_
      rw [Table.eq_of_key hx hm hkey]
      simp [hold]
  | deleted w' user hget hne _ hu =>
      obtain ⟨m₀, hroots, huser⟩ := hrooted
      rw [roots, roots, hu, Table.filter, List.filter_filter]
      refine List.filter_congr fun m hm => ?_
      by_cases hp : m.walletId = w.uuid ∧ env.permissionRootTag ∈ m.toDomain.permissionTypes
      · have hmem : m ∈ roots env s w.uuid := by simp [roots, hm, hp]
        rw [hroots, List.mem_singleton] at hmem
        subst hmem
        have hkept : ¬ (m.walletId = w'.uuid ∧ m.userId = user) := by
          rintro ⟨hwallet, hmuser⟩
          obtain rfl := Table.eq_of_key (Table.mem_of_get? hget) hw (hwallet.symm.trans hp.1)
          exact hne (huser.symm.trans hmuser)
        simp only [hkept, not_false_eq_true, decide_true, Bool.and_true]
      · simp [hp]

/-- A wallet that is created is rooted. -/
theorem rooted_created (hcomma : ',' ∉ env.permissionRootTag.toList) (h : Inv env s)
    {id : Uuid} (hins : s.wallets.insert? w = some s'.wallets)
    (hu : s.userWallets.insert? (.ofDomain ⟨id, w.user, w.uuid, [env.permissionRootTag]⟩)
      = some s'.userWallets) : Rooted env s' w := by
  have hold : roots env s w.uuid = [] := by
    refine List.filter_eq_nil_iff.mpr fun m hm hp => ?_
    obtain ⟨w', hw', huuid⟩ := h.users m hm
    have hwallet : m.walletId = w.uuid := (of_decide_eq_true hp).1
    exact Table.get?_eq_none.mp (Table.insert?_eq_some hins).1 w' hw' (huuid.trans hwallet)
  have hnew : env.permissionRootTag ∈
      PermissionTypes.split (PermissionTypes.join [env.permissionRootTag]) := by
    rw [PermissionTypes.split_join (List.cons_ne_nil _ _), List.flatMap_singleton,
      PermissionTypes.split_of_no_comma hcomma]
    exact List.mem_singleton_self _
  refine ⟨.ofDomain ⟨id, w.user, w.uuid, [env.permissionRootTag]⟩, ?_, rfl⟩
  rw [roots] at hold ⊢
  rw [(Table.insert?_eq_some hu).2, List.filter_append, hold, List.nil_append,
    List.filter_cons_of_pos, List.filter_nil]
  simpa [UserWalletModel.ofDomain, UserWalletModel.toDomain] using hnew

/-- A step keeps the wallets, but for one that it creates. -/
theorem wallets_step (hw : w ∈ s.wallets.rows) : w ∈ (step env s l).wallets.rows := by
  obtain ⟨now, c⟩ := l
  have heffect := (step_effect env s (now, c)).1
  generalize step env s (now, c) = s' at heffect ⊢
  cases heffect with
  | none hw' => rwa [hw']
  | created _ _ hins => exact (Table.mem_insert? hins).mpr (Or.inl hw)
  | accepted _ _ _ _ _ _ _ _ hw' => rwa [hw']
  | updated _ _ _ _ _ _ _ _ _ _ hw' => rwa [hw']
  | deleted _ _ _ _ hw' => rwa [hw']

/-- The user wallets stay those of stored wallets. -/
theorem users_step (h : Inv env s) (l : ℤ × Command) :
    ∀ m ∈ (step env s l).userWallets.rows,
      ∃ w ∈ (step env s l).wallets.rows, w.uuid = m.walletId := by
  have keep : ∀ wallet, (∃ w ∈ s.wallets.rows, w.uuid = wallet) →
      ∃ w ∈ (step env s l).wallets.rows, w.uuid = wallet := by
    rintro _ ⟨w, hw, rfl⟩
    exact ⟨w, wallets_step hw, rfl⟩
  obtain ⟨now, c⟩ := l
  intro m hm
  have heffect := (step_effect env s (now, c)).1
  generalize step env s (now, c) = s' at heffect hm keep ⊢
  cases heffect with
  | none _ hu => exact keep _ (h.users m (hu ▸ hm))
  | created w id hins hu =>
      rcases (Table.mem_insert? hu).mp hm with hm | rfl
      · exact keep _ (h.users m hm)
      · exact ⟨w, (Table.mem_insert? hins).mpr (Or.inr rfl), rfl⟩
  | accepted id code user email i newId hi _ _ hu =>
      rcases (Table.mem_insert? hu).mp hm with hm | rfl
      · exact keep _ (h.users m hm)
      · obtain ⟨mi, hmi, rfl⟩ := Option.map_eq_some_iff.mp hi
        exact keep _ (h.invitations mi (Table.mem_of_get? hmi))
  | updated owner user wallet tags m₀ hm₀ _ _ _ _ _ hu =>
      rw [hu] at hm
      rcases Table.mem_set.mp hm with ⟨hm, -⟩ | ⟨rfl, -⟩
      · exact keep _ (h.users m hm)
      · exact keep _ (h.users m₀ hm₀)
  | deleted w user _ _ _ hu =>
      rw [hu] at hm
      exact keep _ (h.users m (Table.mem_filter.mp hm).1)

/-- **A step keeps the invariant** when it names no ROOT. -/
theorem inv_step (hcomma : ',' ∉ env.permissionRootTag.toList) (h : Inv env s)
    (hok : NamesNoRoot env s l) : Inv env (step env s l) := by
  have old : ∀ w ∈ s.wallets.rows, w.isActive → Rooted env (step env s l) w := by
    intro w hw hactive
    obtain ⟨m, hroots, huser⟩ := h.rooted w hw hactive
    exact ⟨m, (roots_step hok hw ⟨m, hroots, huser⟩).trans hroots, huser⟩
  refine ⟨?_, users_step h l, fun m hm => ?_⟩
  · obtain ⟨now, c⟩ := l
    intro w hw hactive
    have heffect := (step_effect env s (now, c)).1
    generalize step env s (now, c) = s' at heffect hw old ⊢
    cases heffect with
    | none hw' => exact old w (hw' ▸ hw) hactive
    | created w' id hins hu =>
        rcases (Table.mem_insert? hins).mp hw with hw | rfl
        · exact old w hw hactive
        · exact rooted_created hcomma h hins hu
    | accepted _ _ _ _ _ _ _ _ hw' => exact old w (hw' ▸ hw) hactive
    | updated _ _ _ _ _ _ _ _ _ _ hw' => exact old w (hw' ▸ hw) hactive
    | deleted _ _ _ _ hw' => exact old w (hw' ▸ hw) hactive
  · rcases (step_effect env s l).2 m hm with ⟨m', hm', hwallet⟩ | ⟨w, hw, hwallet⟩
    · obtain ⟨w, hw, huuid⟩ := h.invitations m' hm'
      exact ⟨w, wallets_step hw, huuid.trans hwallet⟩
    · exact ⟨w, wallets_step hw, hwallet⟩

/-- **Every active wallet has one ROOT, its owner's, and no step grants, changes or removes one**:
in every run whose requests name no ROOT, with a ROOT tag that has no comma. -/
theorem run_rooted {ls : List (ℤ × Command)} (hcomma : ',' ∉ env.permissionRootTag.toList)
    (h : Inv env s) (hok : Along (step env) (NamesNoRoot env) s ls) :
    (∀ w ∈ (run (step env) s ls).wallets.rows, w.isActive →
        Rooted env (run (step env) s ls) w) ∧
      ∀ w ∈ s.wallets.rows, w.isActive →
        roots env (run (step env) s ls) w.uuid = roots env s w.uuid := by
  induction ls generalizing s with
  | nil => exact ⟨h.rooted, fun _ _ _ => rfl⟩
  | cons l ls ih =>
      obtain ⟨hrooted, hsame⟩ := ih (inv_step hcomma h hok.1) hok.2
      refine ⟨hrooted, fun w hw hactive => ?_⟩
      exact (hsame w (wallets_step hw) hactive).trans
        (roots_step hok.1 hw (h.rooted w hw hactive))

/-! ### An invitation with two tags in one -/

/-- The state before the first wallet. -/
def State.empty : State := ⟨.empty, [], .empty, .empty⟩

theorem inv_empty (env : Env) : Inv env .empty :=
  ⟨fun _ hw => absurd hw List.not_mem_nil, fun _ hm => absurd hm List.not_mem_nil,
    fun _ hm => absurd hm List.not_mem_nil⟩

def sampleEnv : Env where
  permissionRootTag := "ROOT"
  walletMaxNumber := 5
  expiredInviteH := 24
  currencies := []
  getUserByUuid _ := true
  sendEmailWalletInvitation _ := true

/-- User 1 creates a wallet and invites, with the tag `tag`; user 2 accepts. -/
def invite (tag : PermissionTypeTag) : List (ℤ × Command) :=
  [(0, .createActive (some 1) (some "wallet") (some 1)),
    (1, .createInvitation (some 1) (some "two@zro") (some 1) (some 1) [tag] "0001"),
    (2, .acceptInvitation (some 1) (some "0001") (some 2) (some "two@zro"))]

/-- With the tag `CLIENT` the owner keeps the only ROOT. -/
theorem invite_rooted :
    (∀ w ∈ (run (step sampleEnv) .empty (invite "CLIENT")).wallets.rows, w.isActive →
        Rooted sampleEnv (run (step sampleEnv) .empty (invite "CLIENT")) w) ∧
      ∀ w ∈ State.empty.wallets.rows, w.isActive →
        roots sampleEnv (run (step sampleEnv) .empty (invite "CLIENT")) w.uuid
          = roots sampleEnv .empty w.uuid := by
  refine run_rooted (by decide) (inv_empty sampleEnv) ⟨trivial, trivial, ?_, trivial⟩
  intro i hi _
  have tags : (WalletInvitationRepository.getById 1
      (run (step sampleEnv) .empty ((invite "CLIENT").take 2))).map (·.permissionTypes)
        = some ["CLIENT"] := by
    decide +kernel
  have found : WalletInvitationRepository.getById 1
      (run (step sampleEnv) .empty ((invite "CLIENT").take 2)) = some i := hi
  rw [found, Option.map_some, Option.some_inj] at tags
  rw [tags]
  decide

/-- With the tag `CLIENT,ROOT`, which is not ROOT, the wallet has two users with ROOT. -/
theorem invited_root :
    ∃ w ∈ (run (step sampleEnv) .empty (invite "CLIENT,ROOT")).wallets.rows, w.isActive ∧
      (roots sampleEnv (run (step sampleEnv) .empty (invite "CLIENT,ROOT")) w.uuid).map (·.userId)
        = [1, 2] ∧ ¬ Rooted sampleEnv (run (step sampleEnv) .empty (invite "CLIENT,ROOT")) w := by
  have users : (roots sampleEnv (run (step sampleEnv) .empty (invite "CLIENT,ROOT")) 1).map
      (·.userId) = [1, 2] := by
    decide +kernel
  refine ⟨⟨1, 1, false, .active⟩, by decide +kernel, rfl, users, ?_⟩
  rintro ⟨m, hroots, -⟩
  rw [hroots] at users
  simp at users

end ZroServices.Wallets
