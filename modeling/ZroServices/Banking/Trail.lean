import ZroServices.Banking.Teds

/-!
# Banking — what there is of a TED

`Trail` holds the row of a TED, its operation, and what the PSP and the operations service made for
it.  `Moved` lists what a delivery can do to it, and `moved_step` says that it does one of these.
-/

namespace ZroServices.Banking

open Foundation

/-- What there is of one TED. -/
structure Trail where
  row : Option BankingTed
  operation : Option Operation
  transfers : List Transfer
  reversals : List Reversal

def World.trail (w : World) (id : BankingTedId) : Trail where
  row := w.bankingTeds.get? id
  operation := (w.bankingTeds.get? id).bind fun t => w.operations.get? t.operation
  transfers := w.transfers.filter fun x => x.bankingTed = id
  reversals := w.reversals.filter fun r => r.bankingTed = id

/-- The delivery has the PSP take a transfer. -/
def Sends (config : Config) (s : Trail) (c : Command) : Prop :=
  ∃ services ownerWallet t, c = .pending services ownerWallet ∧ s.row = some t ∧
    t.state = .PENDING ∧ t.beneficiaryBankCode ≠ config.bankingTedZroBankCode ∧
      (∃ r, checkOwner services t ownerWallet = .ok r) ∧ services.createBankingTed.arrives

/-- The PSP's answer comes back, and the operations service can create the operation. -/
def Command.Debits : Command → Prop
  | .pending services _ =>
      services.createBankingTed = .answered ∧ services.createAndAcceptOperation.arrives
  | _ => False

/-- The delivery has the operations service credit the payer. -/
def Credits (s : Trail) (c : Command) : Prop :=
  ∃ services code message t, c = .reject services code message ∧ s.row = some t ∧
    (t.state = .CONFIRMED ∨ t.state = .FORWARDED) ∧
      (∃ r, checkPayer services t = .ok r) ∧ services.createAndAcceptOperation.arrives

/-- Neither of the two. -/
structure Quiet (config : Config) (s : Trail) (c : Command) : Prop where
  sends : ¬ Sends config s c
  credits : ¬ Credits s c

/-- What a delivery does to the trail of a TED. -/
inductive Moved (config : Config) (c : Command) (s : Trail) : Trail → Prop
  | rest (hquiet : Quiet config s c) : Moved config c s s
  /-- The PSP has a transfer, and there is no new operation. -/
  | asked (x : Transfer) (hsends : Sends config s c)
      (hno : s.operation ≠ none ∨ ¬ c.Debits) :
      Moved config c s { s with transfers := s.transfers ++ [x] }
  /-- The PSP has a transfer, and the payer is debited. -/
  | debited {t t' : BankingTed} (x : Transfer) (wallet : Uuid) (hsends : Sends config s c)
      (hdebits : c.Debits) (hrow : s.row = some t) (hx : x.request.amount = t.amount)
      (hnone : s.operation = none)
      (ht' : t' = t ∨ ∃ transactionId, t' = { t with transactionId, state := .WAITING }) :
      Moved config c s { s with
        row := some t'
        operation := some ⟨t.operation, t.amount, some wallet, none, .ACCEPTED⟩
        transfers := s.transfers ++ [x] }
  /-- The payer is debited, and a beneficiary of this bank credited. -/
  | paid {t t' : BankingTed} (hquiet : Quiet config s c) (wallet beneficiary : Uuid) (hrow : s.row = some t)
      (hpending : t.state = .PENDING)
      (hzro : t.beneficiaryBankCode = config.bankingTedZroBankCode) (hnone : s.operation = none)
      (ht' : t' = t ∨ t' = { t with state := .CONFIRMED }) :
      Moved config c s { s with
        row := some t'
        operation := some ⟨t.operation, t.amount, some wallet, some beneficiary, .ACCEPTED⟩ }
  /-- A dead letter of a TED without an operation. -/
  | failed {t : BankingTed} (hquiet : Quiet config s c) (hrow : s.row = some t) (hpending : t.state = .PENDING)
      (hnone : s.operation = none) :
      Moved config c s { s with row := some { t with state := .FAILED } }
  /-- A dead letter of a TED with an operation that can be reverted. -/
  | reverted {t t' : BankingTed} {o o' : Operation} (hquiet : Quiet config s c)
      (hrow : s.row = some t) (hpending : t.state = .PENDING) (ho : s.operation = some o)
      (haccepted : o.state ≠ .ACCEPTED)
      (ht' : t' = t ∨ t' = { t with state := .FAILED })
      (ho' : o' = o ∨ o' = { o with state := .REVERTED }) :
      Moved config c s { s with row := some t', operation := some o' }
  | confirmed {t : BankingTed} (hquiet : Quiet config s c) (hrow : s.row = some t)
      (hwaiting : t.state = .WAITING) :
      Moved config c s { s with row := some { t with state := .CONFIRMED } }
  | forwarded {t : BankingTed} (hquiet : Quiet config s c) (hrow : s.row = some t)
      (hconfirmed : t.state = .CONFIRMED) :
      Moved config c s { s with row := some { t with state := .FORWARDED } }
  /-- The payer is credited. -/
  | rejected {t t' : BankingTed} (r : Reversal) (hcredits : Credits s c) (hrow : s.row = some t)
      (hr : r.operation.rawValue = t.amount) (ht' : t' = t ∨ t' = { t with state := .FAILED }) :
      Moved config c s { s with row := some t', reversals := s.reversals ++ [r] }

/-! ### The trail of a world -/

section

variable {config : Config} {c : Command} {id : BankingTedId} {w w' : World} {t t' : BankingTed}

theorem trail_of_row (h : w.bankingTeds.get? id = some t) :
    w.trail id = ⟨some t, w.operations.get? t.operation,
      w.transfers.filter fun x => x.bankingTed = id,
      w.reversals.filter fun r => r.bankingTed = id⟩ := by
  rw [World.trail, h]
  rfl

/-- What a handler leaves is what a delivery does, whether the rows it wrote are committed or
not. -/
def Follows (config : Config) (c : Command) (id : BankingTedId) (w w' : World) : Prop :=
  ∀ bankingTeds bankingTedFailures,
    bankingTeds = w.bankingTeds ∨ bankingTeds = w'.bankingTeds →
      Moved config c (w.trail id) ({ w' with bankingTeds, bankingTedFailures }.trail id)

theorem Follows.rollback (h : Follows config c id w w') :
    Follows config c id w (w.rollback w') := by
  intro bankingTeds bankingTedFailures hrows
  exact h bankingTeds bankingTedFailures (.inl (hrows.elim (fun h => h) fun h => h))

theorem Follows.commit (h : Follows config c id w w') (committed : Bool) :
    Moved config c (w.trail id) ((w.commit w' committed).trail id) := by
  cases committed with
  | false => exact h _ _ (.inl rfl)
  | true => exact h _ _ (.inr rfl)

/-- A handler that leaves the row of the TED as it was, or writes it. -/
theorem follows_of_row (hrow : w.bankingTeds.get? id = some t)
    (hrow' : w'.bankingTeds.get? id = some t') (hoperation : t'.operation = t.operation)
    (h : ∀ r, r = t ∨ r = t' → Moved config c (w.trail id) ⟨some r, w'.operations.get? t.operation,
      w'.transfers.filter fun x => x.bankingTed = id,
      w'.reversals.filter fun r => r.bankingTed = id⟩) : Follows config c id w w' := by
  rintro bankingTeds bankingTedFailures (rfl | rfl)
  · have hr := h t (.inl rfl)
    rw [trail_of_row hrow] at hr ⊢
    rw [trail_of_row (w := { w' with bankingTeds := w.bankingTeds, bankingTedFailures }) hrow]
    exact hr
  · have hr := h t' (.inr rfl)
    rw [trail_of_row (w := { w' with bankingTedFailures }) hrow', hoperation]
    exact hr

/-- A handler that does nothing for the TED. -/
theorem follows_self (hquiet : Quiet config (w.trail id) c) : Follows config c id w w := by
  rintro bankingTeds bankingTedFailures (rfl | rfl)
  · exact .rest hquiet
  · exact .rest hquiet

theorem not_sends (hc : ∀ services ownerWallet, c ≠ .pending services ownerWallet) {s : Trail} :
    ¬ Sends config s c := by
  rintro ⟨services, ownerWallet, _, h, -⟩
  exact hc services ownerWallet h

theorem not_credits (hc : ∀ services code message, c ≠ .reject services code message) {s : Trail} :
    ¬ Credits s c := by
  rintro ⟨services, code, message, _, h, -⟩
  exact hc services code message h

/-! ### The calls of the other services -/

section

variable {P : Unit → World → Prop} {E : Exception → World → Prop} {fate : Fate Exception}

theorem outcome_createBankingTed {x : Transfer} :
    Outcome (createBankingTed fate x) w P E ↔
      (fate = .answered → P () { w with transfers := w.transfers ++ [x] }) ∧
        (∀ e, fate = .lost e → E e { w with transfers := w.transfers ++ [x] }) ∧
          ∀ e, fate = .refused e → E e w := by
  simp [createBankingTed, outcome_remote, and_assoc]

theorem outcome_createAndAcceptOperation {id : Uuid} {rawValue : ℕ}
    {ownerWallet beneficiaryWallet : Option Uuid} :
    Outcome (createAndAcceptOperation fate id rawValue ownerWallet beneficiaryWallet) w P E ↔
      (∀ operations,
        w.operations.insert? ⟨id, rawValue, ownerWallet, beneficiaryWallet, .ACCEPTED⟩ =
          some operations →
        (fate = .answered → P () { w with operations }) ∧
          ∀ e, fate = .lost e → E e { w with operations }) ∧
        (∀ e, fate = .refused e → E e w) ∧
          (fate.arrives →
            w.operations.insert? ⟨id, rawValue, ownerWallet, beneficiaryWallet, .ACCEPTED⟩ = none →
              E (.operationAlreadyExists id) w) := by
  rw [createAndAcceptOperation, outcome_remote]
  cases w.operations.insert? ⟨id, rawValue, ownerWallet, beneficiaryWallet, .ACCEPTED⟩ with
  | none => simp
  | some operations => simp [and_assoc]

theorem outcome_createAndAcceptReversal {r : Reversal} :
    Outcome (createAndAcceptReversal fate r) w P E ↔
      (fate = .answered → P () { w with reversals := w.reversals ++ [r] }) ∧
        (∀ e, fate = .lost e → E e { w with reversals := w.reversals ++ [r] }) ∧
          ∀ e, fate = .refused e → E e w := by
  simp [createAndAcceptReversal, outcome_remote, and_assoc]

end

/-! ### The pending event -/

section

variable {services : PendingServices} {ownerWallet : Uuid}

section

variable (hc : c = .pending services ownerWallet)
include hc

/-- A handler that gets no further than its checks. -/
theorem follows_unsent (hsends : ¬ Sends config (w.trail id) c) : Follows config c id w w := by
  refine follows_self ⟨hsends, ?_⟩
  rintro ⟨_, _, _, _, rfl, -⟩
  cases hc

theorem follows_sendBankingTedPSP {document fullName : String} {account : WalletAccount}
    (hrow : w.bankingTeds.get? id = some t)
    (hpending : t.state = .PENDING) (hzro : t.beneficiaryBankCode ≠ config.bankingTedZroBankCode)
    (hchecked : ∃ r, checkOwner services t ownerWallet = .ok r) :
    Outcome (sendBankingTedPSP services t document fullName account) w
      (fun _ => Follows config c id w) fun _ => Follows config c id w := by
  obtain rfl : t.id = id := Table.key_of_get? hrow
  have hsends (harrives : services.createBankingTed.arrives) : Sends config (w.trail t.id) c :=
    ⟨services, ownerWallet, t, hc, by rw [trail_of_row hrow], hpending, hzro, hchecked, harrives⟩
  have hasked {x : Transfer} (hx : x.bankingTed = t.id)
      (harrives : services.createBankingTed.arrives)
      (hno : w.operations.get? t.operation ≠ none ∨ ¬ c.Debits) :
      Follows config c t.id w { w with transfers := w.transfers ++ [x] } := by
    refine follows_of_row hrow hrow rfl fun r hr => ?_
    obtain rfl : r = t := hr.elim (fun h => h) fun h => h
    have hs := hsends harrives
    rw [trail_of_row hrow] at hs ⊢
    have hmoved : Moved config c _ _ := .asked x hs hno
    simpa [hx] using hmoved
  have hdebited {x : Transfer} {wallet : Uuid} {operations : Table Operation}
      {bankingTeds : Table BankingTed} {t' : BankingTed} (hx : x.bankingTed = t.id)
      (hamount : x.request.amount = t.amount) (hanswered : services.createBankingTed = .answered)
      (harrives : services.createAndAcceptOperation.arrives)
      (hins : w.operations.insert? ⟨t.operation, t.amount, some wallet, none, .ACCEPTED⟩ =
        some operations)
      (hget : bankingTeds.get? t.id = some t')
      (ht' : t' = t ∨ ∃ transactionId, t' = { t with transactionId, state := .WAITING }) :
      Follows config c t.id w
        { w with bankingTeds, operations, transfers := w.transfers ++ [x] } := by
    have hoperation : t'.operation = t.operation := by
      rcases ht' with rfl | ⟨_, rfl⟩
      · rfl
      · rfl
    refine follows_of_row hrow hget hoperation fun r hr => ?_
    have hr' : r = t ∨ ∃ transactionId, r = { t with transactionId, state := .WAITING } := by
      rcases hr with rfl | rfl
      · exact .inl rfl
      · exact ht'
    have hs := hsends (by rw [hanswered]; rfl)
    have hdebits : c.Debits := by
      rw [hc]
      exact ⟨hanswered, harrives⟩
    have hnone := (Table.insert?_eq_some hins).1
    have hself := Table.get?_insert?_self hins
    rw [trail_of_row hrow] at hs ⊢
    have hmoved : Moved config c _ _ :=
      .debited x wallet hs hdebits rfl hamount hnone hr'
    change Moved config c _ ⟨some r, operations.get? t.operation, _, _⟩
    rw [show operations.get? t.operation = _ from hself]
    simpa [hx] using hmoved
  rw [sendBankingTedPSP, outcome_bind, outcome_get, outcome_bind, outcome_createBankingTed]
  refine ⟨fun hanswered => ?_, fun e hlost => ?_, fun e hrefused => ?_⟩
  · have harrives : services.createBankingTed.arrives := by
      rw [hanswered]
      rfl
    rw [outcome_bind, outcome_createAndAcceptOperation]
    refine ⟨fun operations hins => ⟨fun hcreated => ?_, fun e hlost => ?_⟩, fun e hrefused => ?_,
      fun _ hnone => ?_⟩
    · have hset : (w.bankingTeds.set { t with
          transactionId := some w.uuidV4, state := .WAITING }).get? t.id = _ :=
        Table.get?_set_self hrow rfl
      have hdone := hdebited (x := ⟨t.id, t.pspRequest w.uuidV4 document fullName account⟩) rfl rfl
        hanswered (by rw [hcreated]; rfl) hins hset (.inr ⟨_, rfl⟩)
      rw [outcome_bind, update, outcome_modify, outcome_bind, outcome_call]
      exact ⟨fun _ _ => hdone, fun _ _ => hdone⟩
    · exact hdebited rfl rfl hanswered (by rw [hlost]; rfl) hins hrow (.inl rfl)
    · refine hasked rfl harrives (.inr ?_)
      rw [hc]
      rintro ⟨-, hcreates⟩
      rw [hrefused] at hcreates
      cases hcreates
    · refine hasked rfl harrives (.inl fun hget => ?_)
      obtain ⟨operations, hins⟩ := Table.insert?_of_fresh
        (r := (⟨t.operation, t.amount, some account.wallet, none, .ACCEPTED⟩ : Operation)) hget
      rw [hins] at hnone
      cases hnone
  · refine hasked rfl (by rw [hlost]; rfl) (.inr ?_)
    rw [hc]
    rintro ⟨hanswered, -⟩
    rw [hlost] at hanswered
    cases hanswered
  · refine follows_unsent hc ?_
    rintro ⟨services', _, _, hc', -, -, -, -, harrives⟩
    obtain ⟨rfl, rfl⟩ := Command.pending.inj (hc.symm.trans hc')
    rw [hrefused] at harrives
    cases harrives

theorem follows_sendBankingTedP2P {beneficiary : Uuid}
    (hrow : w.bankingTeds.get? id = some t) (hpending : t.state = .PENDING)
    (hzro : t.beneficiaryBankCode = config.bankingTedZroBankCode) :
    Outcome (sendBankingTedP2P services t ownerWallet beneficiary) w
      (fun _ => Follows config c id w) fun _ => Follows config c id w := by
  obtain rfl : t.id = id := Table.key_of_get? hrow
  have hquiet : Quiet config (w.trail t.id) c := by
    refine ⟨?_, not_credits fun _ _ _ => by rw [hc]; rintro ⟨⟩⟩
    rintro ⟨_, _, t', -, ht', -, hzro', -⟩
    rw [trail_of_row hrow] at ht'
    obtain rfl := Option.some.inj ht'
    exact hzro' hzro
  have hunsent : Follows config c t.id w w := follows_self hquiet
  have hpaid {operations : Table Operation} {bankingTeds : Table BankingTed} {t' : BankingTed}
      (hins : w.operations.insert?
        ⟨t.operation, t.amount, some ownerWallet, some beneficiary, .ACCEPTED⟩ = some operations)
      (hget : bankingTeds.get? t.id = some t')
      (ht' : t' = t ∨ t' = { t with state := .CONFIRMED }) :
      Follows config c t.id w { w with bankingTeds, operations } := by
    have hoperation : t'.operation = t.operation := by
      rcases ht' with rfl | rfl
      · rfl
      · rfl
    refine follows_of_row hrow hget hoperation fun r hr => ?_
    have hr' : r = t ∨ r = { t with state := .CONFIRMED } := by
      rcases hr with rfl | rfl
      · exact .inl rfl
      · exact ht'
    have hnone := (Table.insert?_eq_some hins).1
    have hself := Table.get?_insert?_self hins
    have hq := hquiet
    rw [trail_of_row hrow] at hq ⊢
    change Moved config c _ ⟨some r, operations.get? t.operation, _, _⟩
    rw [show operations.get? t.operation = _ from hself]
    exact .paid hq ownerWallet beneficiary rfl hpending hzro hnone hr'
  rw [sendBankingTedP2P, outcome_bind, outcome_call]
  refine ⟨fun _ _ => hunsent, fun foundBank _ => ?_⟩
  rw [outcome_bind, outcome_orThrow]
  refine ⟨fun _ => hunsent, fun _ _ => ?_⟩
  rw [outcome_bind, outcome_createAndAcceptOperation]
  refine ⟨fun operations hins => ⟨fun _ => ?_, fun _ _ => ?_⟩, fun _ _ => hunsent,
    fun _ _ => hunsent⟩
  · have hset : (w.bankingTeds.set { t with state := .CONFIRMED }).get? t.id = _ :=
      Table.get?_set_self hrow rfl
    have hdone := hpaid hins hset (.inr rfl)
    rw [outcome_bind, outcome_call]
    refine ⟨fun _ _ => hpaid hins hrow (.inl rfl), fun _ _ => ?_⟩
    rw [outcome_bind, update, outcome_modify, outcome_bind, outcome_call]
    exact ⟨fun _ _ => hdone, fun _ _ => hdone⟩
  · exact hpaid hins hrow (.inl rfl)

theorem follows_handlePendingBankingTed :
    Outcome (handlePendingBankingTed config services id ownerWallet) w
      (fun _ => Follows config c id w) fun _ => Follows config c id w := by
  have hunsent (h : ∀ t, w.bankingTeds.get? id = some t → t.state = .PENDING →
      t.beneficiaryBankCode ≠ config.bankingTedZroBankCode →
        ¬ ∃ r, checkOwner services t ownerWallet = .ok r) : Follows config c id w w := by
    refine follows_unsent hc ?_
    rintro ⟨services', ownerWallet', t, hc', ht, hpending, hzro, hchecked, -⟩
    obtain ⟨rfl, rfl⟩ := Command.pending.inj (hc.symm.trans hc')
    exact h t ht hpending hzro hchecked
  rw [handlePendingBankingTed, outcome_bind, outcome_get, outcome_bind, outcome_orThrow]
  refine ⟨fun hnone => hunsent fun t ht => ?_, fun t hrow => ?_⟩
  · rw [hnone] at ht
    cases ht
  have hother (hstate : t.state ≠ .PENDING) : Follows config c id w w := by
    refine hunsent fun t' ht' hpending => ?_
    obtain rfl := Option.some.inj (hrow.symm.trans ht')
    exact absurd hpending hstate
  cases hstate : t.state with
  | WAITING | CONFIRMED => exact hother (by simp [hstate])
  | FAILED | FORWARDED => exact hother (by simp [hstate])
  | PENDING =>
      simp only [outcome_bind, outcome_call]
      refine ⟨fun e he => hunsent fun t' ht' _ _ => ?_, fun r hr => ?_⟩
      · obtain rfl := Option.some.inj (hrow.symm.trans ht')
        rintro ⟨r, hr⟩
        rw [hr] at he
        cases he
      by_cases hzro : t.beneficiaryBankCode = config.bankingTedZroBankCode
      · simp only [hzro, decide_true, outcome_bind, outcome_call]
        refine ⟨fun _ _ => hunsent fun t' ht' _ hzro' => ?_, fun wallet _ => ?_⟩
        · obtain rfl := Option.some.inj (hrow.symm.trans ht')
          exact absurd hzro hzro'
        · exact follows_sendBankingTedP2P hc hrow hstate hzro
      · simp only [hzro, decide_false]
        exact follows_sendBankingTedPSP hc hrow hstate hzro ⟨r, hr⟩

end

end

/-! ### The dead letters and the callbacks -/

/-- A handler that writes the row of the TED, and nothing else. -/
theorem follows_update (hrow : w.bankingTeds.get? id = some t)
    (ht' : t'.id = t.id) (hoperation : t'.operation = t.operation)
    (hquiet : Quiet config (w.trail id) c)
    (h : Moved config c (w.trail id) { w.trail id with row := some t' }) :
    Follows config c id w { w with bankingTeds := w.bankingTeds.set t' } := by
  have hset : (w.bankingTeds.set t').get? id = some t' :=
    Table.get?_set_self hrow (ht'.trans (Table.key_of_get? hrow))
  refine follows_of_row hrow hset hoperation fun r hr => ?_
  rcases hr with rfl | rfl
  · have hrest := Moved.rest hquiet
    rwa [trail_of_row hrow] at hrest ⊢
  · rwa [trail_of_row hrow] at h ⊢

theorem follows_forwardBankingTed (hc : c = .forward) :
    Outcome (forwardBankingTed id) w
      (fun _ => Follows config c id w) fun _ => Follows config c id w := by
  subst hc
  have hquiet : Quiet config (w.trail id) .forward := ⟨not_sends (by simp), not_credits (by simp)⟩
  have hself := follows_self hquiet
  rw [forwardBankingTed, outcome_bind, outcome_get, outcome_bind, outcome_orThrow]
  refine ⟨fun _ => hself, fun t hrow => ?_⟩
  cases hstate : t.state with
  | CONFIRMED =>
      refine follows_update hrow rfl rfl hquiet ?_
      exact .forwarded hquiet (by rw [trail_of_row hrow]) hstate
  | PENDING | WAITING | FAILED | FORWARDED => exact hself

/-- A handler that writes the row of another TED. -/
theorem follows_other {u : BankingTed} (hu : u.id ≠ id) (hquiet : Quiet config (w.trail id) c) :
    Follows config c id w { w with bankingTeds := w.bankingTeds.set u } := by
  have hget : (w.bankingTeds.set u).get? id = w.bankingTeds.get? id := Table.get?_set_ne hu
  rintro bankingTeds bankingTedFailures (rfl | rfl)
  · exact .rest hquiet
  · have htrail : ({ w with
        bankingTeds := w.bankingTeds.set u, bankingTedFailures } : World).trail id = w.trail id := by
      rw [World.trail, World.trail, hget]
    rw [htrail]
    exact .rest hquiet

theorem follows_confirmBankingTed {payload : ConfirmRequest} (hc : c = .confirm payload) :
    Outcome (confirmBankingTed payload) w
      (fun _ => Follows config c id w) fun _ => Follows config c id w := by
  subst hc
  have hquiet : Quiet config (w.trail id) (.confirm payload) :=
    ⟨not_sends (by simp), not_credits (by simp)⟩
  have hself := follows_self hquiet
  rw [confirmBankingTed, outcome_bind, outcome_throwIf]
  refine ⟨fun _ => hself, fun _ => ?_⟩
  rw [outcome_bind, outcome_get, outcome_bind, outcome_orThrow]
  refine ⟨fun _ => hself, fun t hfound => ?_⟩
  rw [outcome_bind, outcome_throwIf]
  refine ⟨fun _ => hself, fun _ => ?_⟩
  cases hstate : t.state with
  | WAITING =>
      simp only [validateTedInfo, outcome_bind, outcome_throwIf, update, outcome_modify]
      refine ⟨fun _ => hself, fun _ => ?_⟩
      have hmem : t ∈ w.bankingTeds.rows := List.mem_of_find?_eq_some hfound
      by_cases hid : t.id = id
      · subst hid
        have hrow : w.bankingTeds.get? t.id = some t := Table.get?_of_mem hmem
        refine follows_update hrow rfl rfl hquiet ?_
        exact .confirmed hquiet (by rw [trail_of_row hrow]) hstate
      · exact follows_other hid hquiet
  | PENDING | FAILED | FORWARDED | CONFIRMED => exact hself

theorem follows_handlePendingFailedBankingTed {getOperationById : Except Exception Unit}
    {revert : Fate Exception} (hc : c = .deadLetter getOperationById revert) :
    Outcome (handlePendingFailedBankingTed getOperationById revert id) w
      (fun _ => Follows config c id w) fun _ => Follows config c id w := by
  subst hc
  have hquiet : Quiet config (w.trail id) (.deadLetter getOperationById revert) :=
    ⟨not_sends (by simp), not_credits (by simp)⟩
  have hself := follows_self hquiet
  rw [handlePendingFailedBankingTed, outcome_bind, outcome_get, outcome_bind, outcome_orThrow]
  refine ⟨fun _ => hself, fun t hrow => ?_⟩
  obtain rfl : t.id = id := Table.key_of_get? hrow
  cases hstate : t.state with
  | WAITING | FAILED | FORWARDED | CONFIRMED => exact hself
  | PENDING =>
      simp only [outcome_bind, outcome_call]
      refine ⟨fun _ _ => hself, fun _ _ => ?_⟩
      cases ho : w.operations.get? t.operation with
      | none =>
          refine follows_update hrow rfl rfl hquiet ?_
          exact .failed hquiet (by rw [trail_of_row hrow]) hstate (by rw [trail_of_row hrow]; exact ho)
      | some o =>
          have hkey : o.id = t.operation := Table.key_of_get? ho
          -- the row is written after the operation is reverted
          have hreverted {operations : Table Operation} {bankingTeds : Table BankingTed}
              {t' : BankingTed} {o' : Operation} (haccepted : o.state ≠ .ACCEPTED)
              (hget : bankingTeds.get? t.id = some t')
              (ht' : t' = t ∨ t' = { t with state := .FAILED })
              (hoperation : operations.get? t.operation = some o')
              (ho' : o' = o ∨ o' = { o with state := .REVERTED }) :
              Follows config (.deadLetter getOperationById revert) t.id w
                { w with bankingTeds, operations } := by
            have hkept : t'.operation = t.operation := by
              rcases ht' with rfl | rfl
              · rfl
              · rfl
            refine follows_of_row hrow hget hkept fun r hr => ?_
            have hr' : r = t ∨ r = { t with state := .FAILED } := by
              rcases hr with rfl | rfl
              · exact .inl rfl
              · exact ht'
            have hq := hquiet
            rw [trail_of_row hrow] at hq ⊢
            change Moved config _ _ ⟨some r, operations.get? t.operation, _, _⟩
            rw [hoperation]
            exact .reverted hq rfl hstate ho haccepted hr' ho'
          have hset : (w.bankingTeds.set { t with state := .FAILED }).get? t.id = _ :=
            Table.get?_set_self hrow rfl
          simp only [outcome_bind, revertOperation, outcome_remote, ho]
          cases hostate : o.state with
          | ACCEPTED => simp only; exact ⟨(fun _ h => by cases h), fun _ _ => hself, fun _ _ _ => hself⟩
          | REVERTED =>
              simp only
              refine ⟨fun s' hs' => ?_, fun _ _ => hself, fun _ _ _ => hself⟩
              obtain rfl := Except.ok.inj hs'
              refine ⟨fun _ => ?_, fun _ _ => hself⟩
              exact hreverted (by simp [hostate]) hset (.inr rfl) ho (.inl rfl)
          | PENDING =>
              simp only
              refine ⟨fun s' hs' => ?_, fun _ _ => hself, fun _ _ _ => hself⟩
              obtain rfl := Except.ok.inj hs'
              have hoset : (w.operations.set { o with state := .REVERTED }).get? t.operation = _ :=
                Table.get?_set_self ho hkey
              refine ⟨fun _ => ?_, fun _ _ => ?_⟩
              · exact hreverted (by simp [hostate]) hset (.inr rfl) hoset (.inr rfl)
              · exact hreverted (by simp [hostate]) hrow (.inl rfl) hoset (.inr rfl)

theorem follows_rejectBankingTed {services : RejectServices} {code message : Option String}
    (hc : c = .reject services code message) :
    Outcome (rejectBankingTed services id code message) w
      (fun _ => Follows config c id w) fun _ => Follows config c id w := by
  have hsends : ¬ Sends config (w.trail id) c := not_sends fun _ _ => by rw [hc]; rintro ⟨⟩
  have hself (h : ∀ t, w.bankingTeds.get? id = some t → (t.state = .CONFIRMED ∨ t.state = .FORWARDED) →
      (∃ r, checkPayer services t = .ok r) → ¬ services.createAndAcceptOperation.arrives) :
      Follows config c id w w := by
    refine follows_self ⟨hsends, ?_⟩
    rintro ⟨services', code', message', t, hc', ht, hstate, hchecked, harrives⟩
    obtain ⟨rfl, -, -⟩ := Command.reject.inj (hc.symm.trans hc')
    exact h t ht hstate hchecked harrives
  rw [rejectBankingTed, outcome_bind, outcome_get, outcome_bind, outcome_orThrow]
  refine ⟨fun hnone => hself fun t ht => ?_, fun t hrow => ?_⟩
  · rw [hnone] at ht
    cases ht
  obtain rfl : t.id = id := Table.key_of_get? hrow
  have hother (hstate : ¬ (t.state = .CONFIRMED ∨ t.state = .FORWARDED)) :
      Follows config c t.id w w := by
    refine hself fun t' ht' hstate' => ?_
    obtain rfl := Option.some.inj (hrow.symm.trans ht')
    exact absurd hstate' hstate
  have hlive (hstate : t.state = .CONFIRMED ∨ t.state = .FORWARDED) :
      Outcome (do
        let reversal ← createAndAcceptReversalOperation services t
        let failed : BankingTed := { t with state := .FAILED }
        update failed
        call services.createBankingTedFailure
        modify fun w => { w with
          bankingTedFailures := w.bankingTedFailures ++
            [⟨reversal.id, t.transactionId, t.id, code, message⟩] }
        return failed : App BankingTed) w
        (fun _ => Follows config c t.id w) fun _ => Follows config c t.id w := by
    rw [outcome_bind, createAndAcceptReversalOperation, outcome_bind, outcome_call]
    refine ⟨fun e he => hself fun t' ht' _ => ?_, fun wallet hwallet => ?_⟩
    · obtain rfl := Option.some.inj (hrow.symm.trans ht')
      rintro ⟨r, hr⟩
      rw [hr] at he
      cases he
    have hcredited {r : Reversal} {bankingTeds : Table BankingTed}
        {bankingTedFailures : List BankingTedFailure} {t' : BankingTed}
        (hr : r.bankingTed = t.id) (hvalue : r.operation.rawValue = t.amount)
        (harrives : services.createAndAcceptOperation.arrives)
        (hget : bankingTeds.get? t.id = some t')
        (ht' : t' = t ∨ t' = { t with state := .FAILED }) :
        Follows config c t.id w
          { w with bankingTeds, bankingTedFailures, reversals := w.reversals ++ [r] } := by
      have hkept : t'.operation = t.operation := by
        rcases ht' with rfl | rfl
        · rfl
        · rfl
      refine follows_of_row hrow hget hkept fun u hu => ?_
      have hu' : u = t ∨ u = { t with state := .FAILED } := by
        rcases hu with rfl | rfl
        · exact .inl rfl
        · exact ht'
      have hcredits : Credits (w.trail t.id) c :=
        ⟨services, code, message, t, hc, by rw [trail_of_row hrow], hstate, ⟨wallet, hwallet⟩,
          harrives⟩
      rw [trail_of_row hrow] at hcredits ⊢
      have hmoved : Moved config c _ _ := .rejected r hcredits rfl hvalue hu'
      simpa [hr] using hmoved
    simp only [outcome_bind, outcome_get, outcome_createAndAcceptReversal]
    have hset : (w.bankingTeds.set { t with state := .FAILED }).get? t.id = _ :=
      Table.get?_set_self hrow rfl
    refine ⟨fun hanswered => ?_, fun e hlost => ?_, fun e hrefused => hself fun _ _ _ _ => ?_⟩
    · have harrives : services.createAndAcceptOperation.arrives := by
        rw [hanswered]
        rfl
      simp only [outcome_pure, update, outcome_modify, outcome_call]
      refine ⟨fun _ _ => ?_, fun _ _ => ?_⟩
      · exact hcredited rfl rfl harrives hset (.inr rfl)
      · exact hcredited rfl rfl harrives hset (.inr rfl)
    · exact hcredited rfl rfl (by rw [hlost]; rfl) hrow (.inl rfl)
    · rw [hrefused]
      rintro ⟨⟩
  cases hstate : t.state with
  | CONFIRMED => exact hlive (.inl hstate)
  | FORWARDED => exact hlive (.inr hstate)
  | FAILED | PENDING | WAITING => exact hother (by simp [hstate])

/-! ### A delivery -/

theorem follows_handled : Follows config c id w (handled config id w c) := by
  cases c with
  | pending => exact left_iff.mpr (follows_handlePendingBankingTed rfl)
  | deadLetter => exact left_iff.mpr (follows_handlePendingFailedBankingTed rfl)
  | confirm =>
      refine left_transaction_iff.mpr ((follows_confirmBankingTed rfl).mono (fun _ _ h => h) ?_)
      exact fun _ _ h => h.rollback
  | forward =>
      refine left_transaction_iff.mpr ((follows_forwardBankingTed rfl).mono (fun _ _ h => h) ?_)
      exact fun _ _ h => h.rollback
  | reject =>
      refine left_transaction_iff.mpr ((follows_rejectBankingTed rfl).mono (fun _ _ h => h) ?_)
      exact fun _ _ h => h.rollback

/-- What a delivery does. -/
theorem moved_step (d : Delivery) :
    Moved config d.command (w.trail id) ((step config id w d).trail id) :=
  follows_handled.commit d.committed

end

end ZroServices.Banking
