import ZroServices.Operations.GetStatement

/-!
# Operations — receipts

`GetOperationReceiptByUserAndWalletAndIdUseCase` builds the receipt of an operation for a user of a
wallet that has a side of it.  The receipt of a P2P operation names the payer's wallet and the
recipient's.  The recipient's wallet is found by the wallet account of the operation; for the
payer's wallet the wallet of the request is taken.

The users, the receipts of other services, the names of wallets, which nothing else reads, and the
formats of numbers, dates and documents are parameters.

* `execute_p2p`: the receipt of a P2P operation.
* `same_receipt_iff`: the owner and the beneficiary get the payer and the recipient of the operation
  exactly when their wallets have one name.
-/

namespace ZroServices

open Foundation

/-- What the receipts need of a user; the fields may be missing. -/
structure UserInfo where
  document : Option String
  fullName : Option String
  deriving DecidableEq, Repr

/-- A titled part of a receipt: its entries with their values. -/
structure ReceiptSection where
  title : String
  entries : List (String × Option String)
  deriving DecidableEq, Repr

structure Receipt where
  paymentTitle : String
  paymentData : List ReceiptSection
  operationId : Uuid
  deriving DecidableEq, Repr

/-- What other packages say of a text: the validator of documents, the language's format of a
currency, and the format of a date. -/
structure Formats where
  isCpf : Option String → Bool
  cpfFormat : String → String
  cnpjFormat : String → String
  toLocaleString : ℚ → String
  momentFormat : ℤ → String → String

namespace Formats

variable (f : Formats)

def formatToFloatValueReal (value : ℤ) : String := f.toLocaleString (value / 100)

def formatDateAndTime (date : ℤ) (format : String) : String := f.momentFormat date format

/-- `***.777.888-**`. -/
def formatCpf (cpfDigits : Option String) : Option String :=
  cpfDigits.map fun digits =>
    if digits.length ≠ 11 then digits
    else "***" ++ String.ofList (((f.cpfFormat digits).toList.take 12).drop 3) ++ "**"

def formatCpfWithoutMask (cpfDigits : Option String) : Option String :=
  cpfDigits.map fun digits => if digits.length ≠ 11 then digits else f.cpfFormat digits

def formatCnpj (cnpjDigits : Option String) : Option String :=
  cnpjDigits.map fun digits => if digits.length ≠ 14 then digits else f.cnpjFormat digits

def formatPersonDocument (document : Option String) : String × Option String :=
  if f.isCpf document then ("CPF", f.formatCpf document) else ("CNPJ", f.formatCnpj document)

def formatPersonDocumentWithoutMask (document : Option String) : String × Option String :=
  if f.isCpf document then ("CPF", f.formatCpfWithoutMask document)
  else ("CNPJ", f.formatCnpj document)

end Formats

/-- The other services. -/
structure ReceiptServices where
  getUserById : UserId → Option UserInfo
  getPaymentReceipt : UserId → Uuid → Operation → Except Exception Receipt
  getBankingTedReceipt : UserId → Operation → Except Exception Receipt
  getOtcReceipt : UserId → Operation → CurrencyId → Except Exception Receipt

namespace GetOperationReceiptByUserAndWalletAndIdUseCase

def PIX_PAYMENTS_TAGS : List String :=
  ["PIXCHANGE", "PIXDEVREC", "PIXDEVSEND", "PIXREC", "PIXREFUND", "PIXREFUNDDEV", "PIXSEND",
    "PIXWITHDRAWL"]

def BANKING_TAGS : List String := ["TED"]

def OTC_TAGS : List String := ["CONV"]

variable (f : Formats) (services : ReceiptServices) (walletName : Uuid → String) (env : Env)

/-- The data of an operation that was sent. -/
def sendingData (o : Operation) : List (String × Option String) :=
  [("Valor enviado", some (f.formatToFloatValueReal o.value)),
    ("Data/hora", some (f.formatDateAndTime o.createdAt "DD/MM/YYYY - HH:mm:ss"))]

def description (o : Operation) : String × Option String :=
  ("Descrição", some (if o.description = "" then "Não informada" else o.description))

def institution : String × Option String := ("Instituição", some "ZRO PAGAMENTOS S.A.")

/-- The recipient of a receipt. -/
def recipientInfo (beneficiary : UserInfo) (wallet : List (String × Option String)) :
    ReceiptSection where
  title := "Informações do destinatário"
  entries := [institution, f.formatPersonDocument beneficiary.document,
    ("Nome", beneficiary.fullName)] ++ wallet

/-- The payer of a receipt. -/
def payerInfo (owner : UserInfo) (wallet : List (String × Option String)) : ReceiptSection where
  title := "Informações do pagador"
  entries := [institution, ("Nome", owner.fullName), f.formatPersonDocument owner.document] ++ wallet

/-- The entry of a wallet. -/
def walletEntry (wallet : Uuid) : List (String × Option String) :=
  [("Carteira", some (walletName wallet))]

/-- `generateP2PReceipt`. -/
def generateP2PReceipt (o : Operation) (owner beneficiary : UserInfo)
    (ownerWallet beneficiaryWallet : Uuid) : Receipt where
  paymentTitle := "Transfêrencia entre contas"
  paymentData := [⟨"Dados do envio", sendingData f o ++ [description o]⟩,
    recipientInfo f beneficiary (walletEntry walletName beneficiaryWallet),
    payerInfo f owner (walletEntry walletName ownerWallet)]
  operationId := o.id

/-- `generateGwdebReceipt` and `generateGwcredReceipt`. -/
def generateGwReceipt (o : Operation) (owner beneficiary : UserInfo) : Receipt where
  paymentTitle := "Transfêrencia entre contas"
  paymentData := [⟨"Dados do envio", sendingData f o ++ [description o]⟩,
    recipientInfo f beneficiary [], payerInfo f owner []]
  operationId := o.id

/-- `generateWithdrawReceipt`. -/
def generateWithdrawReceipt (o : Operation) (owner : UserInfo) : Receipt where
  paymentTitle := "Comprovante de transferência"
  paymentData := [⟨"Dados do envio", sendingData f o⟩,
    ⟨"Conta de origem", [f.formatPersonDocumentWithoutMask owner.document,
      ("Nome", owner.fullName)]⟩]
  operationId := o.id

def getWalletByUuid (uuid : Uuid) : App Wallet := do
  let walletFound ← readDb (·.wallets.get? uuid)
  orThrow walletFound (.walletNotFound uuid)

def getBeneficiaryWalletByWalletAccount (walletAccountId : WalletAccountId) : App Wallet := do
  let beneficiaryWalletAccount ← readDb (·.walletAccounts.get? walletAccountId)
  let beneficiaryWalletAccount ← orThrow beneficiaryWalletAccount
    (.walletAccountNotFound (some walletAccountId) none none)
  getWalletByUuid beneficiaryWalletAccount.wallet

/-- The user of a side, as far as the users' service knows it. -/
def userOf (p : Party) : UserInfo := (services.getUserById p.user).getD ⟨none, none⟩

/-- The receipt of an operation of this service, for the wallet of the request.  A side that is
missing is `undefined`. -/
def operationReceipt (wallet : Uuid) (o : Operation) : App (Option Receipt) := do
  let owner := o.owner.map (userOf services)
  let beneficiary := o.beneficiary.map (userOf services)
  let noOwner := Exception.typeError "owner is undefined"
  let noBeneficiary := Exception.typeError "beneficiary is undefined"
  if o.transactionType.tag = "P2PBT" then do
    let ownerWallet ← getWalletByUuid wallet
    let owner ← orThrow owner noOwner
    let party ← orThrow o.beneficiary noBeneficiary
    let beneficiaryWallet ← getBeneficiaryWalletByWalletAccount party.walletAccount
    return some (generateP2PReceipt f walletName o owner (userOf services party) ownerWallet.uuid
      beneficiaryWallet.uuid)
  else if o.transactionType.tag = "WITHDRAW" then do
    let owner ← orThrow owner noOwner
    return some (generateWithdrawReceipt f o owner)
  else do
    let beneficiary ← orThrow beneficiary noBeneficiary
    let owner ← orThrow owner noOwner
    return some (generateGwReceipt f o owner beneficiary)

/-- `operationRepository.getByWalletAccountsAndId`. -/
def getByWalletAccountsAndId (walletAccounts : List WalletAccount) (id : Uuid) (db : Db) :
    Option Operation :=
  db.operations.rows.find? fun o => decide (o.id = id ∧
    (o.owner.any (fun p => p.walletAccount ∈ walletAccounts.map (·.id)) ∨
      o.beneficiary.any fun p => p.walletAccount ∈ walletAccounts.map (·.id)) ∧
    ∃ currency ∈ env.currencies, currency.id = o.currency)

/-- The fields that are missing in a request. -/
def missingFields (user : Option UserId) (wallet id : Option Uuid) : List String :=
  (if user = none then ["User uuid"] else []) ++ (if wallet = none then ["Wallet"] else [])
    ++ (if id = none then ["ID"] else [])

/-- `GetOperationReceiptByUserAndWalletAndIdUseCase.execute`; there is no receipt of an operation of
another type. -/
def execute (user : Option UserId) (wallet id : Option Uuid) : App (Option Receipt) := do
  let missing := Exception.missingData (missingFields user wallet id)
  let user ← orThrow user missing
  let wallet ← orThrow wallet missing
  let id ← orThrow id missing
  let userWallets ← readDb (·.userWallets)
  throwIf ((wallet, user) ∉ userWallets) .forbidden
  let walletAccounts ← readDb (·.getAllByWallet wallet)
  throwIf (walletAccounts = []) (.walletAccountNotFound none (some wallet) none)
  let operation ← readDb (getByWalletAccountsAndId env walletAccounts id)
  let operation ← orThrow operation (.operationNotFound id)
  let tag := operation.transactionType.tag
  if tag ∈ ["P2PBT", "WITHDRAW", "GWDEB", "GWCRED"] then
    operationReceipt f services walletName wallet operation
  else if tag ∈ PIX_PAYMENTS_TAGS then
    some <$> call (services.getPaymentReceipt user wallet operation)
  else if tag ∈ BANKING_TAGS then some <$> call (services.getBankingTedReceipt user operation)
  else if tag ∈ OTC_TAGS then
    some <$> call (services.getOtcReceipt user operation operation.currency)
  else return none

open CreateP2PTransferUseCase (walletOf)

variable {f services walletName env} {user : UserId} {wallet id : Uuid} {o : Operation}
  {p b : Party} {ownerWallet beneficiaryWallet : Uuid} {r : Option Receipt} {x x₁ x₂ : Receipt}
  {w w' : World} {db : Db}

/-- An accepted P2P operation between two wallets. -/
structure P2POperation (db : Db) (o : Operation) (p b : Party)
    (ownerWallet beneficiaryWallet : Uuid) : Prop where
  stored : db.operations.get? o.id = some o
  accepted : o.state = .ACCEPTED
  tag : o.transactionType.tag = "P2PBT"
  owner : o.owner = some p
  beneficiary : o.beneficiary = some b
  ownerWallet : walletOf db p.walletAccount = some ownerWallet
  beneficiaryWallet : walletOf db b.walletAccount = some beneficiaryWallet

/-- The payer of a receipt. -/
def payer (r : Receipt) : Option ReceiptSection :=
  r.paymentData.find? (·.title = "Informações do pagador")

/-- The recipient of a receipt. -/
def recipient (r : Receipt) : Option ReceiptSection :=
  r.paymentData.find? (·.title = "Informações do destinatário")

variable (f services walletName) in
/-- A receipt has the payer and the recipient of the operation. -/
structure OfOperation (p b : Party) (ownerWallet beneficiaryWallet : Uuid) (r : Receipt) : Prop where
  payer : payer r = some (payerInfo f (userOf services p) (walletEntry walletName ownerWallet))
  recipient : recipient r = some
    (recipientInfo f (userOf services b) (walletEntry walletName beneficiaryWallet))

variable (f services walletName) in
/-- Two receipts of the operation have one payer and one recipient, those of the operation. -/
structure SameParties (p b : Party) (ownerWallet beneficiaryWallet : Uuid) (x₁ x₂ : Receipt) :
    Prop where
  payer : payer x₁ = payer x₂
  recipient : recipient x₁ = recipient x₂
  left : OfOperation f services walletName p b ownerWallet beneficiaryWallet x₁
  right : OfOperation f services walletName p b ownerWallet beneficiaryWallet x₂

theorem SameParties.of_left_right
    (h₁ : OfOperation f services walletName p b ownerWallet beneficiaryWallet x₁)
    (h₂ : OfOperation f services walletName p b ownerWallet beneficiaryWallet x₂) :
    SameParties f services walletName p b ownerWallet beneficiaryWallet x₁ x₂ :=
  ⟨h₁.payer.trans h₂.payer.symm, h₁.recipient.trans h₂.recipient.symm, h₁, h₂⟩

theorem getWalletByUuid_ok {x : Wallet} (h : getWalletByUuid wallet w = .ok x w') :
    w' = w ∧ x.uuid = wallet := by
  simp only [getWalletByUuid, bind_ok, readDb_ok, orThrow_ok] at h
  obtain ⟨_, _, ⟨rfl, rfl⟩, hx, rfl⟩ := h
  exact ⟨rfl, Table.key_of_get? hx⟩

/-- The recipient's wallet is that of the wallet account. -/
theorem getBeneficiaryWallet_ok {a : WalletAccountId} {x : Wallet}
    (h : getBeneficiaryWalletByWalletAccount a w = .ok x w') :
    w' = w ∧ walletOf w.db a = some x.uuid := by
  simp only [getBeneficiaryWalletByWalletAccount, bind_ok, readDb_ok, orThrow_ok] at h
  obtain ⟨_, _, ⟨rfl, rfl⟩, account, _, ⟨haccount, rfl⟩, h⟩ := h
  obtain ⟨rfl, hx⟩ := getWalletByUuid_ok h
  refine ⟨rfl, ?_⟩
  rw [walletOf, haccount, Option.map_some, hx]

/-- **The receipt of a P2P operation** names the wallet of the request as the payer's. -/
theorem execute_p2p (ho : P2POperation w.db o p b ownerWallet beneficiaryWallet)
    (h : execute f services walletName env (some user) (some wallet) (some o.id) w = .ok r w') :
    r = some (generateP2PReceipt f walletName o (userOf services p) (userOf services b) wallet
      beneficiaryWallet) := by
  simp only [execute, orThrow_bind_ok, throwIf_bind_ok, readDb_bind_ok, Option.some.injEq,
    exists_eq_left'] at h
  obtain ⟨-, -, o', ho', h⟩ := h
  have hid : o'.id = o.id := by
    have := List.find?_some ho'
    exact (of_decide_eq_true this).1
  have hstored := Table.get?_of_mem (List.mem_of_find?_eq_some ho')
  rw [Operation.key_eq, hid, ho.stored] at hstored
  obtain rfl := Option.some.inj hstored
  have htag : o.transactionType.tag ∈ ["P2PBT", "WITHDRAW", "GWDEB", "GWCRED"] := by
    rw [ho.tag]
    exact List.mem_cons_self
  rw [if_pos htag, operationReceipt, if_pos ho.tag, ho.owner, ho.beneficiary] at h
  simp only [bind_ok, orThrow_ok, pure_ok, Option.map_some, Option.some.injEq] at h
  obtain ⟨x, _, hx, _, _, ⟨rfl, rfl⟩, _, _, ⟨rfl, rfl⟩, y, _, hy, rfl, rfl⟩ := h
  obtain ⟨rfl, hpayer⟩ := getWalletByUuid_ok hx
  obtain ⟨rfl, hrecipient⟩ := getBeneficiaryWallet_ok hy
  rw [ho.beneficiaryWallet] at hrecipient
  rw [hpayer, Option.some.inj hrecipient]

/-- A receipt of the operation is right when it names the owner's wallet. -/
theorem ofOperation_iff :
    OfOperation f services walletName p b ownerWallet beneficiaryWallet
      (generateP2PReceipt f walletName o (userOf services p) (userOf services b) wallet
        beneficiaryWallet) ↔ walletName wallet = walletName ownerWallet := by
  constructor
  · intro h
    have hentries : (payerInfo f (userOf services p) (walletEntry walletName wallet)).entries
        = (payerInfo f (userOf services p) (walletEntry walletName ownerWallet)).entries :=
      congrArg ReceiptSection.entries (Option.some.inj h.payer)
    have hentry := List.append_cancel_left hentries
    exact Option.some.inj (Prod.mk.inj (List.cons.inj hentry).1).2
  · intro h
    refine ⟨?_, rfl⟩
    rw [walletEntry, ← h]
    rfl

end GetOperationReceiptByUserAndWalletAndIdUseCase

open GetOperationReceiptByUserAndWalletAndIdUseCase in
/-- **The owner and the beneficiary get the payer and the recipient of the operation exactly when
their wallets have one name.** -/
theorem same_receipt_iff {f : Formats} {services : ReceiptServices} {walletName : Uuid → String}
    {env : Env} {w w₁ w₂ : World} {o : Operation} {p b : Party}
    {ownerWallet beneficiaryWallet : Uuid} {owner beneficiary : UserId} {r₁ r₂ : Option Receipt}
    (ho : P2POperation w.db o p b ownerWallet beneficiaryWallet)
    (h₁ : execute f services walletName env (some owner) (some ownerWallet) (some o.id) w
      = .ok r₁ w₁)
    (h₂ : execute f services walletName env (some beneficiary) (some beneficiaryWallet) (some o.id)
      w = .ok r₂ w₂) :
    ∃ x₁ x₂, r₁ = some x₁ ∧ r₂ = some x₂ ∧
      (SameParties f services walletName p b ownerWallet beneficiaryWallet x₁ x₂ ↔
        walletName ownerWallet = walletName beneficiaryWallet) := by
  refine ⟨_, _, execute_p2p ho h₁, execute_p2p ho h₂, fun h => ?_, fun h => ?_⟩
  · exact (ofOperation_iff.mp h.right).symm
  · exact .of_left_right (ofOperation_iff.mpr rfl) (ofOperation_iff.mpr h.symm)

namespace Sample

open GetOperationReceiptByUserAndWalletAndIdUseCase

/-- The service with the transaction type of transfers. -/
def receiptEnv : Env :=
  { env .DATE with
    transactionTypes := [pix 3 "P2PBT" .BOTH]
    transactionTypes_nodup := List.nodup_singleton _ }

/-- The first user transferred 300 to the second. -/
def receiptWorld : World :=
  (run (step receiptEnv) (start 1000 0)
    [(noon, .create "P2PBT" (some (request 1 1 300)) (some (request 1 2 300))),
      (noon, .accept 1)]).world

def p2pOperation : Operation where
  id := 1
  state := .ACCEPTED
  owner := some ⟨1, 1⟩
  beneficiary := some ⟨2, 2⟩
  transactionType := pix 3 "P2PBT" .BOTH
  currency := 1
  rawValue := 300
  fee := 0
  value := 300
  description := "PIX"
  operationRef := none
  ownerRequestedRawValue := none
  ownerRequestedFee := none
  analysisTags := [.DATE_LIMIT_INCLUDED]
  userLimitTracker := some 2
  createdAt := noon
  revertedAt := none

theorem p2pOperation_sides : P2POperation receiptWorld.db p2pOperation ⟨1, 1⟩ ⟨2, 2⟩ 1 2 where
  stored := by decide +kernel
  accepted := rfl
  tag := rfl
  owner := rfl
  beneficiary := rfl
  ownerWallet := by decide +kernel
  beneficiaryWallet := by decide +kernel

/-- The formats, at the values of the operation. -/
def formats : Formats where
  isCpf document := document = some "11144477735"
  cpfFormat _ := "111.444.777-35"
  cnpjFormat digits := digits
  toLocaleString _ := "R$ 3,00"
  momentFormat _ _ := "31/03/2024 - 12:00:00"

def receiptServices : ReceiptServices where
  getUserById id := some ⟨some "11144477735", some (if id = 1 then "Pagador" else "Recebedor")⟩
  getPaymentReceipt _ _ _ := .error .forbidden
  getBankingTedReceipt _ _ := .error .forbidden
  getOtcReceipt _ _ _ := .error .forbidden

def walletNames (wallet : Uuid) : String := if wallet = 1 then "Loja" else "Casa"

/-- The receipt, for a wallet. -/
def p2pReceipt (wallet : Uuid) : Receipt :=
  generateP2PReceipt formats walletNames p2pOperation (userOf receiptServices ⟨1, 1⟩)
    (userOf receiptServices ⟨2, 2⟩) wallet 2

theorem p2pReceipt_owner : ∃ w, execute formats receiptServices walletNames receiptEnv (some 1)
    (some 1) (some 1) receiptWorld = .ok (some (p2pReceipt 1)) w :=
  ⟨_, ok_exec (by decide +kernel)⟩

theorem p2pReceipt_beneficiary : ∃ w, execute formats receiptServices walletNames receiptEnv
    (some 2) (some 2) (some 1) receiptWorld = .ok (some (p2pReceipt 2)) w :=
  ⟨_, ok_exec (by decide +kernel)⟩

end Sample

open Sample GetOperationReceiptByUserAndWalletAndIdUseCase

theorem same_receipt_sample : ∃ x₁ x₂, some (p2pReceipt 1) = some x₁ ∧
    some (p2pReceipt 2) = some x₂ ∧
    (SameParties formats receiptServices walletNames ⟨1, 1⟩ ⟨2, 2⟩ 1 2 x₁ x₂ ↔
      walletNames 1 = walletNames 2) := by
  obtain ⟨w₁, h₁⟩ := p2pReceipt_owner
  obtain ⟨w₂, h₂⟩ := p2pReceipt_beneficiary
  exact same_receipt_iff p2pOperation_sides h₁ h₂

/-- The beneficiary's receipt names the beneficiary's wallet as the payer's. -/
theorem not_same_receipt : P2POperation receiptWorld.db p2pOperation ⟨1, 1⟩ ⟨2, 2⟩ 1 2 ∧
    (∃ w, execute formats receiptServices walletNames receiptEnv (some 1) (some 1) (some 1)
      receiptWorld = .ok (some (p2pReceipt 1)) w) ∧
    (∃ w, execute formats receiptServices walletNames receiptEnv (some 2) (some 2) (some 1)
      receiptWorld = .ok (some (p2pReceipt 2)) w) ∧
    payer (p2pReceipt 1) = some ⟨"Informações do pagador", [("Instituição", "ZRO PAGAMENTOS S.A."),
      ("Nome", "Pagador"), ("CPF", "***.444.777-**"), ("Carteira", "Loja")]⟩ ∧
    payer (p2pReceipt 2) = some ⟨"Informações do pagador", [("Instituição", "ZRO PAGAMENTOS S.A."),
      ("Nome", "Pagador"), ("CPF", "***.444.777-**"), ("Carteira", "Casa")]⟩ ∧
    ¬SameParties formats receiptServices walletNames ⟨1, 1⟩ ⟨2, 2⟩ 1 2 (p2pReceipt 1)
      (p2pReceipt 2) := by
  refine ⟨p2pOperation_sides, p2pReceipt_owner, p2pReceipt_beneficiary, by decide +kernel,
    by decide +kernel, fun h => ?_⟩
  exact absurd h.payer (by decide +kernel)

end ZroServices
