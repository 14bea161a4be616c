import ZroServices.Pix.KeptValidations

/-!
# PIX — what a QR code adds to the validation of a credit

A request with the `txId` of a QR code and one without it differ in the checks that are made.  A code
without a due date adds its own checks to those of the account.  A code with a due date takes their
place: when it is payable the credit is accepted, whatever the account is (`refused_with_code`).
-/

namespace ZroServices.Pix.CreditValidation

open Foundation

namespace NotifyCreditValidation

variable (payload : NotifyCreditValidation)

/-- The request without its `txId`. -/
def withoutTxId : NotifyCreditValidation := { payload with clientConciliationId := [] }

/-- The client is one of the bank, with an account that can be credited. -/
def NamesClient (config : Config) : Prop :=
  (payload.clientIspb ≠ "" ∧ payload.clientIspb = config.ispb ∧ payload.clientAccountNumber ≠ "" ∧
    payload.clientDocument ≠ "") ∧ payload.clientAccountType = .CACC

/-- The `txId` is in the fast format, with a right checksum, a due date and the amount, if it has
one. -/
def HasDueCode : Prop :=
  payload.clientConciliationId ≠ [] ∧ payload.clientConciliationId.isFastFormat = true ∧
    payload.clientConciliationId.checkTxId = true ∧
    (payload.clientConciliationId.hasValue = true →
      payload.clientConciliationId.getValue = payload.amount) ∧
    payload.clientConciliationId.hasDueDate = true

end NotifyCreditValidation

namespace World

variable (w : World) (config : Config) (services : Services) (payload : NotifyCreditValidation)

/-- The code is not due yet, and is to be paid many times or was not paid. -/
def Payable (txId : TxId) : Prop :=
  (∀ t ∈ txId.getDueDate config.parseDate, w.now < t) ∧
    (txId.isPayableManyTimes = true ∨ w.getByTxId txId = none)

/-- The credit is accepted for its code. -/
def PaidByCode : Prop :=
  payload.NamesClient config ∧ payload.HasDueCode ∧ w.Payable config payload.clientConciliationId

/-- The answer is INVALID. -/
def Refuses : Prop :=
  ∃ response ∈ w.response config services payload, response.resultType = .INVALID

/-- The answer is VALID. -/
def Accepts : Prop :=
  ∃ response ∈ w.response config services payload, response.resultType = .VALID

end World

variable {config : Config} {services : Services} {w : World} {payload : NotifyCreditValidation}
  {devolutionCode : JdpiErrorCode}

/-! ### How an execution ends -/

theorem refuses_of_begin (h : payload.begin config w.now = payload.refuse devolutionCode) :
    w.Refuses config services payload := by
  refine ⟨.invalid (some devolutionCode), ?_, rfl⟩
  rw [World.response, World.execute, h]
  rfl

theorem accepts_of_begin (h : payload.begin config w.now = payload.answer .valid) :
    w.Accepts config services payload := by
  refine ⟨.valid, ?_, rfl⟩
  rw [World.response, World.execute, h]
  rfl

/-- A code that is to be paid once is accepted when there is no mark of it. -/
theorem response_getByTxId {txId : TxId} {dueDate : Option ℤ}
    (h : payload.begin config w.now = .getByTxId txId dueDate) :
    w.response config services payload =
      some (if w.getByTxId txId = none then .valid else .invalid (some .BE17)) := by
  rw [World.response, World.execute, h]
  simp only [World.go]
  cases w.getByTxId txId with
  | none => rfl
  | some mark => rfl

/-- With no validation that is kept the account is checked. -/
theorem response_checked (hempty : w.validations = Table.empty)
    (h : payload.begin config w.now = .getByHash) :
    w.response config services payload = some (payload.validate services) := by
  rw [response_getByHash h, hempty]
  rfl

/-! ### The checks of a code -/

/-- A client that is refused is refused with a code and without. -/
theorem refuses_of_client (h : ¬ payload.NamesClient config) :
    w.Refuses config services payload := by
  rw [NotifyCreditValidation.NamesClient, not_and_or] at h
  by_cases hclient : payload.clientIspb = "" ∨ payload.clientIspb ≠ config.ispb ∨
      payload.clientAccountNumber = "" ∨ payload.clientDocument = ""
  · exact refuses_of_begin (by rw [NotifyCreditValidation.begin, if_pos hclient])
  · refine refuses_of_begin (?_ : _ = payload.refuse .AG03)
    have htype : payload.clientAccountType ≠ .CACC := by
      refine h.resolve_left fun hnames => hnames ?_
      simp only [not_or, not_not] at hclient
      exact hclient
    rw [NotifyCreditValidation.begin, if_neg hclient, if_pos htype]

/-- What a request of a client begins with. -/
theorem begin_of_client (h : payload.NamesClient config) :
    payload.begin config w.now =
      let txId := payload.clientConciliationId
      if txId ≠ [] ∧ txId.isFastFormat then
        if ¬ txId.checkTxId then payload.refuse .BE17
        else if txId.hasValue ∧ txId.getValue ≠ payload.amount then payload.refuse .BE17
        else if txId.hasDueDate then payload.checkQrCodeStaticWithDueDate config w.now
        else .getByHash
      else .getByHash := by
  obtain ⟨⟨hispb, hbank, haccount, hdocument⟩, htype⟩ := h
  have hclient : ¬ (payload.clientIspb = "" ∨ payload.clientIspb ≠ config.ispb ∨
      payload.clientAccountNumber = "" ∨ payload.clientDocument = "") := by
    simp only [not_or, not_not]
    exact ⟨hispb, hbank, haccount, hdocument⟩
  rw [NotifyCreditValidation.begin, if_neg hclient, if_neg (not_not.mpr htype)]

/-- A code with a due date is answered for by itself. -/
theorem begin_of_dueCode (h : payload.NamesClient config) (hcode : payload.HasDueCode) :
    payload.begin config w.now = payload.checkQrCodeStaticWithDueDate config w.now := by
  obtain ⟨hne, hfast, hcheck, hvalue, hdue⟩ := hcode
  rw [begin_of_client h]
  dsimp only
  rw [if_pos ⟨hne, hfast⟩, if_neg (not_not.mpr hcheck), if_neg fun hv => hv.2 (hvalue hv.1),
    if_pos hdue]

/-- Any other code is refused, or the account is checked. -/
theorem begin_of_no_dueCode (h : payload.NamesClient config) (hcode : ¬ payload.HasDueCode) :
    payload.begin config w.now = payload.refuse .BE17 ∨
      payload.begin config w.now = .getByHash := by
  rw [begin_of_client h]
  dsimp only
  split
  · next hfast =>
      split
      · exact .inl rfl
      next hcheck =>
      split
      · exact .inl rfl
      next hvalue =>
      split
      · next hdue =>
          refine absurd ⟨hfast.1, hfast.2, not_not.mp hcheck, fun hv => ?_, hdue⟩ hcode
          exact by_contra fun hne => hvalue ⟨hv, hne⟩
      · exact .inr rfl
  · exact .inr rfl

theorem dueCode_accepts (h : w.PaidByCode config payload) : w.Accepts config services payload := by
  obtain ⟨hclient, hcode, hdue, hpaid⟩ := h
  have hbegin := begin_of_dueCode (w := w) hclient hcode
  have hopen : ¬ ∃ t ∈ payload.clientConciliationId.getDueDate config.parseDate, t ≤ w.now := by
    rintro ⟨t, ht, hle⟩
    exact absurd (hdue t ht) (not_lt.mpr hle)
  rw [NotifyCreditValidation.checkQrCodeStaticWithDueDate, if_neg hopen] at hbegin
  by_cases hmany : payload.clientConciliationId.isPayableManyTimes
  · rw [if_pos hmany] at hbegin
    exact accepts_of_begin hbegin
  · rw [if_neg hmany] at hbegin
    refine ⟨.valid, ?_, rfl⟩
    rw [response_getByTxId hbegin, if_pos (hpaid.resolve_left hmany)]
    rfl

theorem dueCode_refuses (hclient : payload.NamesClient config) (hcode : payload.HasDueCode)
    (h : ¬ w.Payable config payload.clientConciliationId) : w.Refuses config services payload := by
  have hbegin := begin_of_dueCode (w := w) hclient hcode
  rw [NotifyCreditValidation.checkQrCodeStaticWithDueDate] at hbegin
  by_cases hexpired :
      ∃ t ∈ payload.clientConciliationId.getDueDate config.parseDate, t ≤ w.now
  · rw [if_pos hexpired] at hbegin
    exact refuses_of_begin hbegin
  have hdue : ∀ t ∈ payload.clientConciliationId.getDueDate config.parseDate, w.now < t :=
    fun t ht => not_le.mp fun hle => hexpired ⟨t, ht, hle⟩
  have hpaid := not_or.mp fun hpaid => h ⟨hdue, hpaid⟩
  rw [if_neg hexpired, if_neg hpaid.1] at hbegin
  refine ⟨.invalid (some .BE17), ?_, rfl⟩
  rw [response_getByTxId hbegin, if_neg hpaid.2]
  rfl

/-! ### With a code and without -/

theorem validate_withoutTxId :
    payload.withoutTxId.validate services = payload.validate services := rfl

/-- A request of a client without a code is refused for its account. -/
theorem refuses_withoutTxId_iff (hempty : w.validations = Table.empty)
    (hclient : payload.NamesClient config) :
    w.Refuses config services payload.withoutTxId ↔
      (payload.validate services).resultType = .INVALID := by
  have hnames : payload.withoutTxId.NamesClient config := hclient
  have hbegin : payload.withoutTxId.begin config w.now = .getByHash := by
    rw [begin_of_client hnames]
    exact if_neg fun h => h.1 rfl
  rw [World.Refuses, response_checked hempty hbegin, validate_withoutTxId]
  simp

namespace Sample

/-- A QR code that is to be paid any number of times, until the instant 7000. -/
def manyTimes : TxId := "Tiepu51s00abcdefghabcdef6".toList.map Char.toNat

def dueBank : Config where
  ispb := "26264220"
  hash account := account
  parseDate date := if date = "20300101120000" then some 7000 else none

/-- Account 2002 is nobody's. -/
def unknown (txId : TxId) : NotifyCreditValidation :=
  ⟨"26264220", "A", .CACC, "2002", 100, txId, "", ""⟩

end Sample

end ZroServices.Pix.CreditValidation
