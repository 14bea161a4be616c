import ZroServices.Webhooks.Events

/-!
# Webhooks — a notification is not lost

Of a chain at most one event is pending, and none is once one is confirmed, so that after that
nothing is sent (`Sound`, `Sound.quiet`).  That there is a pending one, and that something will
deliver it, depends on the calls: the failure handler closes an event in one step, opens its
successor in another and pushes the retry in a third, and a throw between them is swallowed.

`notified_iff` says which throws lose a chain.  They are those of the failure handler after it has
closed a row that is within its limit, and those before it, or of the report of a failure, when no
other message for the event is on its way.
-/

namespace ZroServices.Webhooks

open Foundation

variable {config : RetryConfig} {w : World} {e : WebhookEvent} {id c : Uuid}

/-! ### What a chain is promised -/

namespace World

variable (w : World) (c : Uuid)

/-- The chain's one pending event. -/
def IsPending (e : WebhookEvent) : Prop :=
  e ∈ w.events.rows ∧ e.chain = c ∧ e.state = .PENDING

def Confirmed : Prop := ∃ e ∈ w.events.rows, e.chain = c ∧ e.state = .CONFIRMED

def InLimit : Prop := ∃ e ∈ w.events.rows, e.chain = c ∧ e.isInRetryLimit w.now

/-- Until an event is confirmed, and within the limit, exactly one event is pending, and
something that delivers it is still to come. -/
def Kept : Prop :=
  ¬ w.Confirmed c → w.InLimit c → ∃ e, w.IsPending c e ∧ w.InHand e.id ∧
    ∀ e', w.IsPending c e' → e' = e

/-- What was sent for the chain. -/
def sentFor : List Sent := w.sent.filter fun s => s.chain = c

end World

variable {calls : FailedCalls} {w' : World} {e' x : WebhookEvent}

/-- In every state of the run the chain is kept, and once an event of it is confirmed nothing more
is sent for it. -/
def Notified (config : RetryConfig) (now : ℤ) (ls : List Step) (c : Uuid) : Prop :=
  (∀ ms, ms <+: ls → (run (step config) (start now) ms).Kept c) ∧
    ∀ ms ms', ms ++ ms' <+: ls → (run (step config) (start now) ms).Confirmed c →
      (run (step config) (start now) (ms ++ ms')).sentFor c =
        (run (step config) (start now) ms).sentFor c

/-- Every call of the delivery of `e` returns. -/
def CreatedCalls.Delivers (calls : CreatedCalls) (e : WebhookEvent) : Prop :=
  calls.getById.isOk ∧ (calls.decrypt e.targetUrl).isOk ∧ (calls.decrypt e.apiKey).isOk ∧
    calls.send.isOk ∧ calls.update.isOk

/-- The calls of the failure handler return up to the one that closes the row. -/
def FailedCalls.Closes (calls : FailedCalls) : Prop := calls.getById.isOk ∧ calls.update.isOk

/-- Those after it return, and there is the webhook. -/
def FailedCalls.Opens (calls : FailedCalls) : Prop :=
  calls.getWebhook = .ok true ∧ calls.create.isOk ∧ calls.push.isOk

instance (calls : CreatedCalls) (e : WebhookEvent) : Decidable (calls.Delivers e) :=
  inferInstanceAs (Decidable (_ ∧ _ ∧ _ ∧ _ ∧ _))

instance (calls : FailedCalls) : Decidable calls.Closes := inferInstanceAs (Decidable (_ ∧ _))

/-- The step does not lose the chain: for its pending event, within its limit, a delivery that
fails is reported; the failure handler throws nowhere after it has closed the row; and where a
report fails, or the handler throws before that, another message for the event is on its way. -/
def Undisturbed (c : Uuid) (w : World) : Step → Prop
  | .created id again calls =>
      id ∈ w.created → ∀ e, w.IsPending c e → e.id = id → e.isInRetryLimit w.now →
        calls.Delivers e ∨ calls.notifyCreatedFailed.isOk ∨ (w.takeCreated id again).InHand id
  | .createdFailed id again calls =>
      id ∈ w.createdFailed → ∀ e, w.IsPending c e → e.id = id → e.isInRetryLimit w.now →
        if calls.Closes then calls.Opens else (w.takeCreatedFailed id again).InHand id
  | _ => True

/-! ### What the handlers do -/

/-- The event as its delivery leaves it. -/
def WebhookEvent.confirm (e : WebhookEvent) (httpStatusCodeResponse : String) : WebhookEvent :=
  { e with httpStatusCodeResponse := some httpStatusCodeResponse, state := .CONFIRMED }

/-- The event as the report of a failure leaves it. -/
def WebhookEvent.fail (e : WebhookEvent) : WebhookEvent :=
  { e with state := .FAILED, httpStatusCodeResponse := some INTERNAL_SERVER_ERROR }

theorem WebhookEvent.id_fail (e : WebhookEvent) : e.fail.id = e.id := rfl

theorem WebhookEvent.fail_ne (e : WebhookEvent) : e.fail.state ≠ .PENDING := by
  rw [fail]
  exact fun h => WebhookEventState.noConfusion h

theorem WebhookEvent.id_confirm (e : WebhookEvent) (code : String) :
    (e.confirm code).id = e.id := rfl

theorem WebhookEvent.confirm_ne (e : WebhookEvent) (code : String) :
    (e.confirm code).state ≠ .PENDING := by
  rw [confirm]
  exact fun h => WebhookEventState.noConfusion h

/-- A delivered event: something was sent, and the row confirmed. -/
theorem handleCreated_of_delivers (he : w.events.get? id = some e) (hp : e.state = .PENDING)
    {calls : CreatedCalls} (h : calls.Delivers e) :
    ∃ s code, s.chain = e.chain ∧ handleCreatedWebhookEvent calls id w =
      { (w.send s).update (e.confirm code) with confirmed := w.confirmed ++ [id] } := by
  obtain ⟨hget, hurl, hkey, hsend, hupdate⟩ := h
  obtain ⟨getById, decrypt, send, update, report⟩ := calls
  dsimp only at hget hurl hkey hsend hupdate
  cases getById with
  | error _ => cases hget
  | ok _ =>
  cases hu : decrypt e.targetUrl with
  | error _ => rw [hu] at hurl; cases hurl
  | ok url =>
  cases hk : decrypt e.apiKey with
  | error _ => rw [hk] at hkey; cases hkey
  | ok key =>
  cases send with
  | error _ => cases hsend
  | ok code =>
  cases update with
  | error _ => cases hupdate
  | ok _ =>
  refine ⟨⟨id, e.chain, e.type, url, key, e.data⟩, code, rfl, ?_⟩
  simp only [handleCreatedWebhookEvent, handleWebhookEventCreated, call_bind_apply, get_bind_apply,
    he, some_bind_apply, hp, ne_eq, not_true_eq_false, if_false, hu, hk, modify_bind_apply]
  rfl

/-- What the observer makes of a throw. -/
theorem handleCreated_of_error {calls : CreatedCalls} {err : WebhookException}
    (h : handleWebhookEventCreated calls id w = .error err w') :
    handleCreatedWebhookEvent calls id w =
      if calls.notifyCreatedFailed.isOk then w'.notifyCreatedFailed id else w' := by
  rw [handleCreatedWebhookEvent, h]
  cases hr : calls.notifyCreatedFailed with
  | ok _ => rfl
  | error _ => rfl

section

variable (he : w.events.get? id = some e)
include he

/-- A delivery that throws has written no row. -/
theorem handleWebhookEventCreated_of_not_delivers
    (hp : e.state = .PENDING) {calls : CreatedCalls} (h : ¬ calls.Delivers e) :
    ∃ err sent, (∀ s ∈ sent, s.chain = e.chain) ∧
      handleWebhookEventCreated calls id w = .error err { w with sent := w.sent ++ sent } := by
  have hnone : w = { w with sent := w.sent ++ [] } := by rw [List.append_nil]
  have hnil : ∀ s ∈ ([] : List Sent), s.chain = e.chain := fun s hs => absurd hs List.not_mem_nil
  obtain ⟨getById, decrypt, send, update, report⟩ := calls
  simp only [handleWebhookEventCreated, call_bind_apply, get_bind_apply]
  cases getById with
  | error err => exact ⟨err, [], hnil, congrArg _ hnone⟩
  | ok _ =>
  simp only [he, some_bind_apply, hp, ne_eq, not_true_eq_false, if_false, call_bind_apply]
  cases hurl : decrypt e.targetUrl with
  | error err => exact ⟨err, [], hnil, congrArg _ hnone⟩
  | ok url =>
  dsimp only
  cases hkey : decrypt e.apiKey with
  | error err => exact ⟨err, [], hnil, congrArg _ hnone⟩
  | ok key =>
  have hone : ∀ s ∈ [(⟨id, e.chain, e.type, url, key, e.data⟩ : Sent)], s.chain = e.chain := by
    intro s hs
    rw [List.mem_singleton.mp hs]
  simp only [modify_bind_apply]
  cases send with
  | error err => exact ⟨err, _, hone, rfl⟩
  | ok code =>
  cases update with
  | error err => exact ⟨err, _, hone, rfl⟩
  | ok _ =>
      have hurl' : (decrypt e.targetUrl).isOk := by rw [hurl]; rfl
      have hkey' : (decrypt e.apiKey).isOk := by rw [hkey]; rfl
      exact absurd ⟨rfl, hurl', hkey', rfl, rfl⟩ h

/-- Of an event that is not pending nothing is sent. -/
theorem handleCreated_of_settled (hp : e.state ≠ .PENDING) (calls : CreatedCalls) :
    handleCreatedWebhookEvent calls id w = w ∨
      handleCreatedWebhookEvent calls id w = w.notifyCreatedFailed id := by
  cases hget : calls.getById with
  | ok _ =>
      have hreturn : handleWebhookEventCreated calls id w = .ok e w := by
        rw [handleWebhookEventCreated, call_bind_apply, hget]
        dsimp only
        rw [get_bind_apply, he, some_bind_apply, if_pos hp]
        rfl
      left
      rw [handleCreatedWebhookEvent, hreturn]
  | error err =>
      have hthrow : handleWebhookEventCreated calls id w = .error err w := by
        rw [handleWebhookEventCreated, call_bind_apply, hget]
      rw [handleCreated_of_error hthrow]
      split
      · exact .inr rfl
      · exact .inl rfl

/-- The report for an event that is not pending changes nothing. -/
theorem handleFailed_of_settled (hp : e.state ≠ .PENDING)
    (calls : FailedCalls) : handleFailedCreatedWebhookEvent config calls id w = w := by
  have hcode : INTERNAL_SERVER_ERROR ≠ "" := by decide
  rw [handleFailedCreatedWebhookEvent, handleFailedWebhookEventCreated, left_throwIf_bind,
    if_neg hcode, left, call_bind_apply]
  cases calls.getById with
  | error err => rfl
  | ok _ =>
      dsimp only
      rw [get_bind_apply, he, some_bind_apply]
      by_cases hf : e.state = .FAILED
      · rw [if_pos hf]
        rfl
      · rw [if_neg hf, throwIf_bind_apply, if_pos hp]

/-- A throw before the row is closed. -/
theorem handleFailed_of_not_closes (hp : e.state = .PENDING) (h : ¬ calls.Closes) :
    handleFailedCreatedWebhookEvent config calls id w = w := by
  have hcode : INTERNAL_SERVER_ERROR ≠ "" := by decide
  have hfailed : e.state ≠ .FAILED := by rw [hp]; decide
  obtain ⟨getById, update, getWebhook, create, push⟩ := calls
  rw [handleFailedCreatedWebhookEvent, handleFailedWebhookEventCreated, left_throwIf_bind,
    if_neg hcode, left, call_bind_apply]
  cases getById with
  | error err => rfl
  | ok _ =>
  dsimp only
  rw [get_bind_apply, he, some_bind_apply, if_neg hfailed, throwIf_bind_apply,
    if_neg (not_not_intro hp), call_bind_apply]
  cases update with
  | error err => rfl
  | ok _ => exact absurd ⟨rfl, rfl⟩ h

/-- What the handler leaves once it has closed the row: the successor, if it is created, with its
retry, if that is pushed. -/
theorem handleFailed_of_closes (hp : e.state = .PENDING) (h : calls.Closes) :
    handleFailedCreatedWebhookEvent config calls id w =
      if ¬ e.isInRetryLimit w.now ∨ calls.getWebhook ≠ .ok true ∨ ¬ calls.create.isOk then
        w.update e.fail
      else if calls.push.isOk then
        ((w.update e.fail).create (e.fail.successor config w.newId w.now)).push
          ((e.fail.successor config w.newId w.now).retry (e.fail.generateRetryAt config w.now))
      else (w.update e.fail).create (e.fail.successor config w.newId w.now) := by
  have hcode : INTERNAL_SERVER_ERROR ≠ "" := by decide
  have hfailed : e.state ≠ .FAILED := by rw [hp]; decide
  obtain ⟨getById, update, getWebhook, create, push⟩ := calls
  obtain ⟨hget, hupdate⟩ := h
  dsimp only at hget hupdate ⊢
  cases getById with
  | error _ => cases hget
  | ok _ =>
  cases update with
  | error _ => cases hupdate
  | ok _ =>
  rw [handleFailedCreatedWebhookEvent, handleFailedWebhookEventCreated, left_throwIf_bind,
    if_neg hcode, left, call_bind_apply]
  dsimp only
  rw [get_bind_apply, he, some_bind_apply, if_neg hfailed, throwIf_bind_apply,
    if_neg (not_not_intro hp), call_bind_apply]
  dsimp only
  rw [modify_bind_apply]
  change left (if ¬ e.fail.isInRetryLimit w.now then _ else _) (w.update e.fail) = _
  by_cases hlimit : e.fail.isInRetryLimit w.now
  · rw [if_neg (not_not_intro hlimit), left, call_bind_apply]
    cases getWebhook with
    | error err => rw [if_pos (.inr (.inl (by simp)))]
    | ok found =>
    dsimp only
    rw [throwIf_bind_apply]
    by_cases hfound : found = false
    · rw [if_pos hfound, if_pos (.inr (.inl (by simp [hfound])))]
    rw [if_neg hfound, call_bind_apply]
    cases create with
    | error err => rw [if_pos (.inr (.inr Bool.false_ne_true))]
    | ok _ =>
    dsimp only
    rw [modify_bind_apply, call_bind_apply, eq_true_of_ne_false hfound, if_neg]
    · cases push with
      | error err => rfl
      | ok _ => rfl
    · rintro (h | h | h)
      · exact h hlimit
      · exact h rfl
      · exact h rfl
  · rw [if_pos hlimit, if_pos (.inl hlimit)]
    rfl

end

/-! ### What holds of every chain -/

/-- What every run keeps: a pending event is the only one of its chain that has not failed, a
chain has one limit, and every message is about an event of the table. -/
structure Sound (w : World) : Prop where
  alone : ∀ e ∈ w.events.rows, ∀ e' ∈ w.events.rows, e'.chain = e.chain → e.state = .PENDING →
    e'.state ≠ .FAILED → e' = e
  limit : ∀ e ∈ w.events.rows, ∀ e' ∈ w.events.rows, e'.chain = e.chain →
    e'.retryLimit = e.retryLimit
  first : ∀ e ∈ w.events.rows, ∃ e' ∈ w.events.rows, e'.id = e.chain
  created : ∀ id ∈ w.created, ∃ e ∈ w.events.rows, e.id = id
  createdFailed : ∀ id ∈ w.createdFailed, ∃ e ∈ w.events.rows, e.id = id
  retries : ∀ r ∈ w.retries, ∃ e ∈ w.events.rows, e.id = r.id ∧ e.retryLimit = r.abortAt

theorem sound_start (now : ℤ) : Sound (start now) where
  alone _ he := absurd he List.not_mem_nil
  limit _ he := absurd he List.not_mem_nil
  first _ he := absurd he List.not_mem_nil
  created _ h := absurd h List.not_mem_nil
  createdFailed _ h := absurd h List.not_mem_nil
  retries _ h := absurd h List.not_mem_nil

/-- Messages about events of the table may come and go. -/
theorem Sound.messages (h : Sound w) (hevents : w'.events = w.events)
    (hcreated : ∀ id ∈ w'.created, ∃ e ∈ w.events.rows, e.id = id)
    (hcreatedFailed : ∀ id ∈ w'.createdFailed, ∃ e ∈ w.events.rows, e.id = id)
    (hretries : ∀ r ∈ w'.retries, r ∈ w.retries) : Sound w' where
  alone := hevents ▸ h.alone
  limit := hevents ▸ h.limit
  first := hevents ▸ h.first
  created := hevents ▸ hcreated
  createdFailed := hevents ▸ hcreatedFailed
  retries r hr := hevents ▸ h.retries r (hretries r hr)

theorem mem_of_taken {α : Type} [DecidableEq α] {a b : α} {again : Bool} {messages : List α}
    (h : b ∈ taken a again messages) : b ∈ messages := by
  rw [taken] at h
  split at h
  · exact h
  · exact List.mem_of_mem_erase h

theorem mem_taken_of_ne {α : Type} [DecidableEq α] {a b : α} (hne : b ≠ a) (again : Bool)
    {messages : List α} (h : b ∈ messages) : b ∈ taken a again messages := by
  rw [taken]
  split
  · exact h
  · exact (List.mem_erase_of_ne hne).mpr h

theorem Sound.takeCreated (h : Sound w) (id : Uuid) (again : Bool) :
    Sound (w.takeCreated id again) :=
  h.messages rfl (fun i hi => h.created i (mem_of_taken hi)) h.createdFailed fun _ hr => hr

theorem Sound.takeCreatedFailed (h : Sound w) (id : Uuid) (again : Bool) :
    Sound (w.takeCreatedFailed id again) :=
  h.messages rfl h.created (fun i hi => h.createdFailed i (mem_of_taken hi)) fun _ hr => hr

theorem Sound.notifyCreatedFailed (h : Sound w) (he : ∃ e ∈ w.events.rows, e.id = id) :
    Sound (w.notifyCreatedFailed id) := by
  refine h.messages rfl h.created (fun i hi => ?_) fun _ hr => hr
  rcases List.mem_append.mp hi with hi | hi
  · exact h.createdFailed i hi
  · rw [List.mem_singleton.mp hi]
    exact he

/-- The rows after `e` was replaced by `e'`. -/
theorem mem_update (he : e ∈ w.events.rows) (hid : e'.id = e.id) :
    x ∈ (w.update e').events.rows ↔ (x ∈ w.events.rows ∧ x.id ≠ e.id) ∨ x = e' := by
  rw [← hid]
  refine Table.mem_set.trans (or_congr Iff.rfl ⟨fun h => h.1, fun h => ⟨h, e, he, hid.symm⟩⟩)

/-- A row of another chain stands as it stood. -/
theorem mem_update_of_chain (hmem : e ∈ w.events.rows) (hid : e'.id = e.id)
    (hchain : e'.chain = e.chain) (hne : x.chain ≠ e.chain) :
    x ∈ (w.update e').events.rows ↔ x ∈ w.events.rows := by
  rw [mem_update hmem hid]
  constructor
  · rintro (⟨hx, -⟩ | rfl)
    · exact hx
    · exact absurd hchain hne
  · intro hx
    refine .inl ⟨hx, fun hxid => hne ?_⟩
    rw [Table.eq_of_key hx hmem hxid]

/-- Closing a pending event. -/
theorem Sound.update (h : Sound w) (he : e ∈ w.events.rows) (hp : e.state = .PENDING)
    (hid : e'.id = e.id) (hchain : e'.chain = e.chain)
    (hlimit : e'.retryLimit = e.retryLimit) (hclosed : e'.state ≠ .PENDING) :
    Sound (w.update e') := by
  have hids (i : Uuid) (hi : ∃ x ∈ w.events.rows, x.id = i) :
      ∃ x ∈ (w.update e').events.rows, x.id = i := by
    obtain ⟨x, hx, rfl⟩ := hi
    by_cases hxe : x.id = e.id
    · exact ⟨e', (mem_update he hid).mpr (.inr rfl), hid.trans hxe.symm⟩
    · exact ⟨x, (mem_update he hid).mpr (.inl ⟨hx, hxe⟩), rfl⟩
  -- every row is, for its chain and limit, a row of before
  have hold {x : WebhookEvent} (hx : x ∈ (w.update e').events.rows) :
      ∃ y ∈ w.events.rows, y.id = x.id ∧ y.chain = x.chain ∧ y.retryLimit = x.retryLimit := by
    rcases (mem_update he hid).mp hx with ⟨hx, -⟩ | rfl
    · exact ⟨x, hx, rfl, rfl, rfl⟩
    · exact ⟨e, he, hid.symm, hchain.symm, hlimit.symm⟩
  refine ⟨?_, ?_, ?_, fun i hi => hids i (h.created i hi),
    fun i hi => hids i (h.createdFailed i hi), ?_⟩
  · intro x hx y hy hxy hxp hyf
    rcases (mem_update he hid).mp hx with ⟨hxw, hxe⟩ | rfl
    · rcases (mem_update he hid).mp hy with ⟨hyw, -⟩ | rfl
      · exact h.alone x hxw y hyw hxy hxp hyf
      · have hxf : x.state ≠ .FAILED := by rw [hxp]; decide
        have hx_eq : x = e := h.alone e he x hxw (hxy.symm.trans hchain) hp hxf
        exact absurd (congrArg WebhookEvent.id hx_eq) hxe
    · exact absurd hxp hclosed
  · intro x hx y hy hxy
    obtain ⟨x', hx', -, hxc, hxl⟩ := hold hx
    obtain ⟨y', hy', -, hyc, hyl⟩ := hold hy
    exact hyl.symm.trans ((h.limit x' hx' y' hy' (hyc.trans (hxy.trans hxc.symm))).trans hxl)
  · intro x hx
    obtain ⟨x', hx', -, hxc, -⟩ := hold hx
    exact hids _ (hxc ▸ h.first x' hx')
  · intro r hr
    obtain ⟨x, hx, hxid, hxl⟩ := h.retries r hr
    by_cases hxe : x.id = e.id
    · obtain rfl := Table.eq_of_key hx he hxe
      exact ⟨e', (mem_update he hid).mpr (.inr rfl), hid.trans hxid, hlimit.trans hxl⟩
    · exact ⟨x, (mem_update he hid).mpr (.inl ⟨hx, hxe⟩), hxid, hxl⟩

theorem get?_newId (w : World) : w.events.get? w.newId = none :=
  Table.get?_eq_none.mpr fun _ hx hid =>
    (lt_fresh (List.mem_map_of_mem hx)).ne hid

/-- The rows after a new one was written. -/
theorem mem_create (hnew : w.events.get? e.id = none) :
    x ∈ (w.create e).events.rows ↔ x ∈ w.events.rows ∨ x = e := by
  change x ∈ (w.events.upsert e).rows ↔ _
  rw [Table.rows_upsert_of_fresh hnew, List.mem_append, List.mem_singleton]

/-- Opening an event in a chain all of whose events have failed. -/
theorem Sound.create (h : Sound w) (hnew : w.events.get? e.id = none)
    (hlimit : ∀ e' ∈ w.events.rows, e'.chain = e.chain → e'.retryLimit = e.retryLimit)
    (hfailed : ∀ e' ∈ w.events.rows, e'.chain = e.chain → e'.state = .FAILED)
    (hfirst : e.id = e.chain ∨ ∃ e' ∈ w.events.rows, e'.id = e.chain) : Sound (w.create e) := by
  have hold {x : WebhookEvent} (hx : x ∈ w.events.rows) : x ∈ (w.create e).events.rows :=
    (mem_create hnew).mpr (.inl hx)
  have hids (i : Uuid) (hi : ∃ x ∈ w.events.rows, x.id = i) :
      ∃ x ∈ (w.create e).events.rows, x.id = i := hi.imp fun x ⟨hx, hxi⟩ => ⟨hold hx, hxi⟩
  refine ⟨?_, ?_, ?_, fun i hi => hids i (h.created i hi),
    fun i hi => hids i (h.createdFailed i hi), ?_⟩
  · intro x hx y hy hxy hxp hyf
    rcases (mem_create hnew).mp hx with hxw | rfl
    · rcases (mem_create hnew).mp hy with hyw | rfl
      · exact h.alone x hxw y hyw hxy hxp hyf
      · have hxf : x.state ≠ .FAILED := by rw [hxp]; decide
        exact absurd (hfailed x hxw hxy.symm) hxf
    · rcases (mem_create hnew).mp hy with hyw | rfl
      · exact absurd (hfailed y hyw hxy) hyf
      · rfl
  · intro x hx y hy hxy
    rcases (mem_create hnew).mp hx with hxw | rfl
    · rcases (mem_create hnew).mp hy with hyw | rfl
      · exact h.limit x hxw y hyw hxy
      · exact (hlimit x hxw hxy.symm).symm
    · rcases (mem_create hnew).mp hy with hyw | rfl
      · exact hlimit y hyw hxy
      · rfl
  · intro x hx
    rcases (mem_create hnew).mp hx with hx | rfl
    · exact hids _ (h.first x hx)
    · rcases hfirst with hid | hi
      · exact ⟨x, (mem_create hnew).mpr (.inr rfl), hid⟩
      · exact hids _ hi
  · intro r hr
    obtain ⟨x, hx, hxr⟩ := h.retries r hr
    exact ⟨x, hold hx, hxr⟩

/-- Next to a pending event the chain has only failed ones. -/
theorem Sound.failed_of_pending (h : Sound w) (he : e ∈ w.events.rows) (hp : e.state = .PENDING)
    (hx : x ∈ w.events.rows) (hchain : x.chain = e.chain) (hne : x.id ≠ e.id) :
    x.state = .FAILED := by
  by_contra hf
  exact hne (congrArg WebhookEvent.id (h.alone e he x hx hchain hp hf))

/-- Once its pending event has failed, all events of the chain have. -/
theorem Sound.failed_of_fail (h : Sound w) (he : e ∈ w.events.rows) (hp : e.state = .PENDING)
    (hx : x ∈ (w.update e.fail).events.rows) (hchain : x.chain = e.chain) :
    x.state = .FAILED := by
  rcases (mem_update he e.id_fail).mp hx with ⟨hxw, hne⟩ | rfl
  · exact h.failed_of_pending he hp hxw hchain hne
  · rfl

theorem newId_update (w : World) (e : WebhookEvent) : (w.update e).newId = w.newId :=
  congrArg fresh (Table.map_key_set w.events e)

/-- The chain of a row within the limit, after its event was closed and a successor opened. -/
theorem Sound.successor (h : Sound w) (he : e ∈ w.events.rows) (hp : e.state = .PENDING) :
    Sound ((w.update e.fail).create (e.fail.successor config w.newId w.now)) := by
  have hclosed : Sound (w.update e.fail) := h.update he hp rfl rfl rfl e.fail_ne
  have hfail : e.fail ∈ (w.update e.fail).events.rows := (mem_update he e.id_fail).mpr (.inr rfl)
  refine hclosed.create ?_ (fun x hx hxc => ?_) (fun x hx hxc => ?_) (.inr ?_)
  · exact newId_update w e.fail ▸ get?_newId (w.update e.fail)
  · exact hclosed.limit e.fail hfail x hx hxc
  · exact h.failed_of_fail he hp hx hxc
  · exact hclosed.first e.fail hfail

theorem Sound.handleCreated (h : Sound w) (he : w.events.get? id = some e)
    (calls : CreatedCalls) : Sound (handleCreatedWebhookEvent calls id w) := by
  obtain ⟨hmem, hid⟩ := Table.get?_eq_some.mp he
  have hreport : Sound (w.notifyCreatedFailed id) := h.notifyCreatedFailed ⟨e, hmem, hid⟩
  by_cases hp : e.state = .PENDING
  · by_cases hd : calls.Delivers e
    · obtain ⟨s, code, -, heq⟩ := handleCreated_of_delivers he hp hd
      have hconfirm : Sound (w.update (e.confirm code)) :=
        h.update hmem hp rfl rfl rfl (e.confirm_ne code)
      rw [heq]
      exact hconfirm.messages rfl hconfirm.created hconfirm.createdFailed fun _ hr => hr
    · obtain ⟨err, sent, -, heq⟩ := handleWebhookEventCreated_of_not_delivers he hp hd
      rw [handleCreated_of_error heq]
      split
      · exact hreport.messages rfl hreport.created hreport.createdFailed fun _ hr => hr
      · exact h.messages rfl h.created h.createdFailed fun _ hr => hr
  · rcases handleCreated_of_settled he hp calls with heq | heq
    · rwa [heq]
    · rwa [heq]

theorem Sound.handleFailed (h : Sound w) (he : w.events.get? id = some e) (calls : FailedCalls) :
    Sound (handleFailedCreatedWebhookEvent config calls id w) := by
  have hmem : e ∈ w.events.rows := Table.mem_of_get? he
  by_cases hp : e.state = .PENDING
  · by_cases hc : calls.Closes
    · have hsuccessor : Sound ((w.update e.fail).create (e.fail.successor config w.newId w.now)) :=
        h.successor hmem hp
      rw [handleFailed_of_closes he hp hc]
      split
      · exact h.update hmem hp rfl rfl rfl e.fail_ne
      split
      · refine ⟨hsuccessor.alone, hsuccessor.limit, hsuccessor.first, hsuccessor.created,
          hsuccessor.createdFailed, fun r hr => ?_⟩
        rcases List.mem_append.mp hr with hr | hr
        · exact hsuccessor.retries r hr
        · obtain rfl := List.mem_singleton.mp hr
          exact ⟨_, (mem_create (newId_update w e.fail ▸ get?_newId (w.update e.fail))).mpr
            (.inr rfl), rfl, rfl⟩
      · exact hsuccessor
    · rwa [handleFailed_of_not_closes he hp hc]
  · rwa [handleFailed_of_settled he hp]

theorem Sound.notify (h : Sound w) (webhook : Webhook) (type : WebhookType) (data : String) :
    Sound (w.notify webhook type data) := by
  have hfresh {x : WebhookEvent} (hx : x ∈ w.events.rows) : x.chain ≠ w.newId := by
    obtain ⟨y, hy, hid⟩ := h.first x hx
    rw [← hid]
    exact (lt_fresh (List.mem_map_of_mem hy)).ne
  have hcreate : Sound (w.create (firstEvent webhook type data w.newId w.now)) :=
    h.create (get?_newId w) (fun x hx hc => absurd hc (hfresh hx))
      (fun x hx hc => absurd hc (hfresh hx)) (.inl rfl)
  refine hcreate.messages rfl (fun i hi => ?_) hcreate.createdFailed fun _ hr => hr
  rcases List.mem_append.mp hi with hi | hi
  · exact hcreate.created i hi
  · rw [List.mem_singleton.mp hi]
    exact ⟨_, (mem_create (get?_newId w)).mpr (.inr rfl), rfl⟩

theorem Sound.step (h : Sound w) (l : Step) : Sound (step config w l) := by
  cases l with
  | notify webhook type data => exact h.notify webhook type data
  | created id again calls =>
      rw [Webhooks.step]
      split
      · next hin =>
        obtain ⟨e, he, rfl⟩ := h.created id hin
        exact (h.takeCreated e.id again).handleCreated (Table.get?_of_mem he) calls
      · exact h
  | createdFailed id again calls =>
      rw [Webhooks.step]
      split
      · next hin =>
        obtain ⟨e, he, rfl⟩ := h.createdFailed id hin
        exact (h.takeCreatedFailed e.id again).handleFailed (Table.get?_of_mem he) calls
      · exact h
  | fire r again =>
      rw [Webhooks.step]
      split
      · next hr =>
        refine h.messages rfl (fun i hi => ?_) h.createdFailed fun _ => mem_of_taken
        rcases List.mem_append.mp hi with hi | hi
        · exact h.created i hi
        · obtain ⟨e, he, hid, -⟩ := h.retries r hr.1
          rw [List.mem_singleton.mp hi]
          exact ⟨e, he, hid⟩
      · exact h
  | abort r =>
      rw [Webhooks.step]
      split
      · exact h.messages rfl h.created h.createdFailed fun _ => List.mem_of_mem_erase
      · exact h
  | tick ms => exact h.messages rfl h.created h.createdFailed fun _ hr => hr

/-! ### What is still to come -/

/-- What a step does to other chains, and what comes as it goes, keeps a chain. -/
theorem World.Kept.frame (h : w.Kept c) (hnow : w.now ≤ w'.now)
    (hrows : ∀ x : WebhookEvent, x.chain = c → (x ∈ w'.events.rows ↔ x ∈ w.events.rows))
    (hinHand : ∀ x, w.IsPending c x → w.InHand x.id → w'.InHand x.id) : w'.Kept c := by
  intro hconfirmed hlimit
  have hlimit' : w.InLimit c := by
    obtain ⟨x, hx, hxc, hin⟩ := hlimit
    have hin' : w.now < x.retryLimit := Int.lt_of_le_of_lt hnow hin
    exact ⟨x, (hrows x hxc).mp hx, hxc, hin'⟩
  have hconfirmed' : ¬ w.Confirmed c := fun ⟨x, hx, hxc, hstate⟩ =>
    hconfirmed ⟨x, (hrows x hxc).mpr hx, hxc, hstate⟩
  obtain ⟨x, ⟨hx, hxc, hxp⟩, hin, honly⟩ := h hconfirmed' hlimit'
  refine ⟨x, ⟨(hrows x hxc).mpr hx, hxc, hxp⟩, hinHand x ⟨hx, hxc, hxp⟩ hin, ?_⟩
  rintro y ⟨hy, hyc, hyp⟩
  exact honly y ⟨(hrows y hyc).mp hy, hyc, hyp⟩

/-- A chain with a pending event is kept if something still delivers the event. -/
theorem Sound.kept_iff (h : Sound w) (he : w.IsPending c e) :
    w.Kept c ↔ (e.isInRetryLimit w.now → w.InHand e.id) := by
  obtain ⟨hmem, hchain, hp⟩ := he
  have honly (x : WebhookEvent) (hx : w.IsPending c x) : x = e := by
    have hxf : x.state ≠ .FAILED := by rw [hx.2.2]; decide
    exact h.alone e hmem x hx.1 (hx.2.1.trans hchain.symm) hp hxf
  constructor
  · intro hkept hlimit
    have hconfirmed : ¬ w.Confirmed c := by
      rintro ⟨x, hx, hxc, hstate⟩
      have hxf : x.state ≠ .FAILED := by rw [hstate]; decide
      rw [h.alone e hmem x hx (hxc.trans hchain.symm) hp hxf, hp] at hstate
      cases hstate
    obtain ⟨x, hx, hin, -⟩ := hkept hconfirmed ⟨e, hmem, hchain, hlimit⟩
    exact honly x hx ▸ hin
  · rintro hin - ⟨x, hx, hxc, hlimit⟩
    have hle : e.isInRetryLimit w.now :=
      lt_of_lt_of_eq hlimit (h.limit e hmem x hx (hxc.trans hchain.symm))
    exact ⟨e, ⟨hmem, hchain, hp⟩, hin hle, honly⟩

/-- A chain whose events have all failed is kept if it is past its limit. -/
theorem Sound.kept_iff_of_failed (h : Sound w) (he : e ∈ w.events.rows) (hchain : e.chain = c)
    (hfailed : ∀ x ∈ w.events.rows, x.chain = c → x.state = .FAILED) :
    w.Kept c ↔ ¬ e.isInRetryLimit w.now := by
  constructor
  · intro hkept hlimit
    have hconfirmed : ¬ w.Confirmed c := by
      rintro ⟨x, hx, hxc, hstate⟩
      rw [hfailed x hx hxc] at hstate
      cases hstate
    obtain ⟨x, ⟨hx, hxc, hxp⟩, -⟩ := hkept hconfirmed ⟨e, he, hchain, hlimit⟩
    rw [hfailed x hx hxc] at hxp
    cases hxp
  · rintro hlimit - ⟨x, hx, hxc, hin⟩
    exact absurd (lt_of_lt_of_eq hin (h.limit e he x hx (hxc.trans hchain.symm))) hlimit

theorem kept_of_confirmed (h : w.Confirmed c) : w.Kept c := fun hn => absurd h hn

/-- What is in hand for one event stays when a message for another is taken. -/
theorem World.InHand.takeCreated {i : Uuid} (h : w.InHand i) (hne : i ≠ id) (again : Bool) :
    (w.takeCreated id again).InHand i :=
  h.imp_left (mem_taken_of_ne hne again)

theorem World.InHand.takeCreatedFailed {i : Uuid} (h : w.InHand i) (hne : i ≠ id)
    (again : Bool) : (w.takeCreatedFailed id again).InHand i :=
  h.imp_right (Or.imp_right (mem_taken_of_ne hne again))

theorem World.InHand.notifyCreatedFailed {i : Uuid} (h : w.InHand i) :
    (w.notifyCreatedFailed id).InHand i :=
  h.imp_right (Or.imp_right (List.mem_append_left _))

theorem World.inHand_notifyCreatedFailed {i : Uuid} : (w.notifyCreatedFailed i).InHand i :=
  .inr (.inr (List.mem_append_right _ List.mem_cons_self))

/-- Handling a created event of another chain, or of an event that is closed, keeps a chain. -/
theorem World.Kept.created_aside (hk : w.Kept c) (he : w.events.get? id = some e)
    (haside : ¬ w.IsPending c e) (again : Bool) (calls : CreatedCalls) :
    (handleCreatedWebhookEvent calls id (w.takeCreated id again)).Kept c := by
  obtain ⟨hmem, hid⟩ := Table.get?_eq_some.mp he
  have hother (x : WebhookEvent) (hx : w.IsPending c x) : x.id ≠ id := fun hxid =>
    haside (Table.eq_of_key hx.1 hmem (hxid.trans hid.symm) ▸ hx)
  have htake : (w.takeCreated id again).Kept c :=
    hk.frame (Int.le_refl _) (fun _ _ => Iff.rfl) fun x hx hin => hin.takeCreated (hother x hx) again
  have hreport (w' : World) (hw' : w'.Kept c) : (w'.notifyCreatedFailed id).Kept c :=
    hw'.frame (Int.le_refl _) (fun _ _ => Iff.rfl) fun x _ hin => hin.notifyCreatedFailed
  by_cases hp : e.state = .PENDING
  · have hchain : e.chain ≠ c := fun hc => haside ⟨hmem, hc, hp⟩
    have he' : (w.takeCreated id again).events.get? id = some e := he
    by_cases hd : calls.Delivers e
    · obtain ⟨s, code, -, heq⟩ := handleCreated_of_delivers he' hp hd
      rw [heq]
      exact htake.frame (Int.le_refl _) (fun x hxc => mem_update_of_chain (w := w) hmem
        (e.id_confirm code) rfl (hxc.trans_ne hchain.symm)) fun x _ hin => hin
    · obtain ⟨err, sent, -, heq⟩ := handleWebhookEventCreated_of_not_delivers he' hp hd
      have hsent : ({ w.takeCreated id again with
          sent := (w.takeCreated id again).sent ++ sent } : World).Kept c := htake
      rw [handleCreated_of_error heq]
      split
      · exact hreport _ hsent
      · exact hsent
  · rcases handleCreated_of_settled (w := w.takeCreated id again) he hp calls with heq | heq
    · rwa [heq]
    · rw [heq]
      exact hreport _ htake

/-- A created event is handled without losing a chain if and only if its failure is reported, or
something else delivers the event. -/
theorem Sound.created_iff (h : Sound w) (hk : w.Kept c) (id : Uuid) (again : Bool)
    (calls : CreatedCalls) :
    (Webhooks.step config w (.created id again calls)).Kept c ↔
      Undisturbed c w (.created id again calls) := by
  rw [Webhooks.step, Undisturbed]
  by_cases hin : id ∈ w.created
  swap
  · rw [if_neg hin]
    exact iff_of_true hk fun h => absurd h hin
  rw [if_pos hin]
  obtain ⟨e, hmem, rfl⟩ := h.created id hin
  have he : w.events.get? e.id = some e := Table.get?_of_mem hmem
  by_cases hpending : w.IsPending c e
  swap
  · refine iff_of_true (hk.created_aside he hpending again calls) fun _ x hx hid => ?_
    exact absurd (Table.eq_of_key hx.1 hmem hid ▸ hx) hpending
  have hx_eq (x : WebhookEvent) (hx : w.IsPending c x) (hid : x.id = e.id) : x = e :=
    Table.eq_of_key hx.1 hmem hid
  by_cases hd : calls.Delivers e
  · refine iff_of_true ?_ fun _ x hx hid _ => .inl (hx_eq x hx hid ▸ hd)
    obtain ⟨s, code, -, heq⟩ :=
      handleCreated_of_delivers (w := w.takeCreated e.id again) he hpending.2.2 hd
    rw [heq]
    exact kept_of_confirmed
      ⟨e.confirm code, (mem_update (w := w) hmem (e.id_confirm code)).mpr (.inr rfl), hpending.2.1, rfl⟩
  · obtain ⟨err, sent, -, heq⟩ :=
      handleWebhookEventCreated_of_not_delivers (w := w.takeCreated e.id again) he hpending.2.2 hd
    have htake : Sound (w.takeCreated e.id again) := h.takeCreated e.id again
    have hreport : Sound ((w.takeCreated e.id again).notifyCreatedFailed e.id) :=
      htake.notifyCreatedFailed ⟨e, hmem, rfl⟩
    have hkept : (handleCreatedWebhookEvent calls e.id (w.takeCreated e.id again)).Kept c ↔
        (e.isInRetryLimit w.now →
          calls.notifyCreatedFailed.isOk ∨ (w.takeCreated e.id again).InHand e.id) := by
      rw [handleCreated_of_error heq]
      by_cases hr : calls.notifyCreatedFailed.isOk
      · rw [if_pos hr]
        have hiff := hreport.kept_iff (c := c) (e := e) hpending
        exact iff_of_true (hiff.mpr fun _ => World.inHand_notifyCreatedFailed) fun _ => .inl hr
      · rw [if_neg hr]
        have hiff := htake.kept_iff (c := c) (e := e) hpending
        refine Iff.trans hiff (forall_congr' fun _ => ?_)
        exact (or_iff_right hr).symm
    rw [hkept]
    constructor
    · intro hall _ x hx hid hlimit
      exact .inr (hall (hx_eq x hx hid ▸ hlimit))
    · intro hall hlimit
      exact (hall hin e hpending rfl hlimit).resolve_left hd

/-- Handling a report of another chain, or of an event that is closed, keeps a chain. -/
theorem World.Kept.createdFailed_aside (hk : w.Kept c) (he : w.events.get? id = some e)
    (haside : ¬ w.IsPending c e) (again : Bool) (calls : FailedCalls) :
    (handleFailedCreatedWebhookEvent config calls id (w.takeCreatedFailed id again)).Kept c := by
  obtain ⟨hmem, hid⟩ := Table.get?_eq_some.mp he
  have hother (x : WebhookEvent) (hx : w.IsPending c x) : x.id ≠ id := fun hxid =>
    haside (Table.eq_of_key hx.1 hmem (hxid.trans hid.symm) ▸ hx)
  have htake : (w.takeCreatedFailed id again).Kept c :=
    hk.frame (Int.le_refl _) (fun _ _ => Iff.rfl) fun x hx hin =>
      hin.takeCreatedFailed (hother x hx) again
  have he' : (w.takeCreatedFailed id again).events.get? id = some e := he
  by_cases hp : e.state = .PENDING
  · have hchain : e.chain ≠ c := fun hc => haside ⟨hmem, hc, hp⟩
    by_cases hc : calls.Closes
    · have hclosed : ((w.takeCreatedFailed id again).update e.fail).Kept c :=
        htake.frame (Int.le_refl _) (fun x hxc => mem_update_of_chain (w := w) hmem e.id_fail rfl
          (hxc.trans_ne hchain.symm)) fun x _ hin => hin
      have hopened : (((w.takeCreatedFailed id again).update e.fail).create
          (e.fail.successor config w.newId w.now)).Kept c := by
        refine hclosed.frame (Int.le_refl _) (fun x hxc => ?_) fun x _ hin => hin
        refine (mem_create (newId_update w e.fail ▸ get?_newId (w.update e.fail))).trans ?_
        exact or_iff_left fun hx => hchain ((congrArg WebhookEvent.chain hx).symm.trans hxc)
      rw [handleFailed_of_closes he' hp hc]
      split
      · exact hclosed
      split
      · exact hopened.frame (Int.le_refl _) (fun _ _ => Iff.rfl) fun x _ hin =>
          hin.imp_right (Or.imp_left fun ⟨r, hr, hid⟩ => ⟨r, List.mem_append_left _ hr, hid⟩)
      · exact hopened
    · rwa [handleFailed_of_not_closes he' hp hc]
  · rwa [handleFailed_of_settled he' hp]

/-- A chain whose event was closed is kept if and only if it is past its limit, or its successor was
opened and its retry pushed. -/
theorem Sound.closes_iff (h : Sound w) (he : w.IsPending c e)
    (hc : calls.Closes) : (handleFailedCreatedWebhookEvent config calls e.id w).Kept c ↔
      (e.isInRetryLimit w.now → calls.Opens) := by
  obtain ⟨hmem, hchain, hp⟩ := he
  have hget : w.events.get? e.id = some e := Table.get?_of_mem hmem
  have hclosed : Sound (w.update e.fail) := h.update hmem hp rfl rfl rfl e.fail_ne
  have hsuccessor : Sound ((w.update e.fail).create (e.fail.successor config w.newId w.now)) :=
    h.successor hmem hp
  have hleft : Sound (handleFailedCreatedWebhookEvent config calls e.id w) :=
    h.handleFailed hget calls
  have hfailed : (w.update e.fail).Kept c ↔ ¬ e.isInRetryLimit w.now :=
    hclosed.kept_iff_of_failed (e := e.fail) ((mem_update hmem e.id_fail).mpr (.inr rfl)) hchain
      fun x hx hxc => h.failed_of_fail hmem hp hx (hxc.trans hchain.symm)
  have hnew : e.fail.successor config w.newId w.now ∈
      ((w.update e.fail).create (e.fail.successor config w.newId w.now)).events.rows :=
    (mem_create (newId_update w e.fail ▸ get?_newId (w.update e.fail))).mpr (.inr rfl)
  rw [handleFailed_of_closes hget hp hc] at hleft ⊢
  by_cases hstop : ¬ e.isInRetryLimit w.now ∨ calls.getWebhook ≠ .ok true ∨ ¬ calls.create.isOk
  · rw [if_pos hstop, hfailed]
    refine ⟨fun hlimit hin => absurd hin hlimit, fun hopens hin => ?_⟩
    obtain ⟨hwebhook, hcreate, -⟩ := hopens hin
    rcases hstop with hstop | hstop | hstop
    · exact hstop hin
    · exact hstop hwebhook
    · exact hstop hcreate
  rw [if_neg hstop] at hleft ⊢
  simp only [not_or, not_not, ne_eq] at hstop
  obtain ⟨hin, hwebhook, hcreate⟩ := hstop
  by_cases hpush : calls.push.isOk
  · rw [if_pos hpush] at hleft ⊢
    refine iff_of_true ?_ fun _ => ⟨hwebhook, hcreate, hpush⟩
    refine (hleft.kept_iff ⟨hnew, hchain, rfl⟩).mpr fun _ => .inr (.inl ?_)
    exact ⟨_, List.mem_append_right _ List.mem_cons_self, rfl⟩
  · rw [if_neg hpush]
    refine iff_of_false (fun hkept => ?_) fun hopens => hpush (hopens hin).2.2
    -- nothing is about the successor, since nothing can be about an id that was free
    have hfree (hid : ∃ x ∈ w.events.rows, x.id = w.newId) : False := by
      obtain ⟨x, hx, hxid⟩ := hid
      exact Table.get?_eq_none.mp (get?_newId w) x hx hxid
    have hinHand := (hsuccessor.kept_iff ⟨hnew, hchain, rfl⟩).mp hkept hin
    rcases hinHand with hcreated | ⟨r, hr, hrid⟩ | hcreatedFailed
    · exact hfree (h.created _ hcreated)
    · obtain ⟨x, hx, hxid, -⟩ := h.retries r hr
      exact hfree ⟨x, hx, hxid.trans hrid⟩
    · exact hfree (h.createdFailed _ hcreatedFailed)

/-- A report is handled without losing a chain if and only if nothing is thrown once the row is
closed, or nothing before that or something else delivers the event. -/
theorem Sound.createdFailed_iff (h : Sound w) (hk : w.Kept c) (id : Uuid) (again : Bool)
    (calls : FailedCalls) :
    (Webhooks.step config w (.createdFailed id again calls)).Kept c ↔
      Undisturbed c w (.createdFailed id again calls) := by
  rw [Webhooks.step, Undisturbed]
  by_cases hin : id ∈ w.createdFailed
  swap
  · rw [if_neg hin]
    exact iff_of_true hk fun h => absurd h hin
  rw [if_pos hin]
  obtain ⟨e, hmem, rfl⟩ := h.createdFailed id hin
  have he : w.events.get? e.id = some e := Table.get?_of_mem hmem
  by_cases hpending : w.IsPending c e
  swap
  · refine iff_of_true (hk.createdFailed_aside he hpending again calls) fun _ x hx hid => ?_
    exact absurd (Table.eq_of_key hx.1 hmem hid ▸ hx) hpending
  have hx_eq (x : WebhookEvent) (hx : w.IsPending c x) (hid : x.id = e.id) : x = e :=
    Table.eq_of_key hx.1 hmem hid
  have htake : Sound (w.takeCreatedFailed e.id again) := h.takeCreatedFailed e.id again
  have he' : (w.takeCreatedFailed e.id again).events.get? e.id = some e := he
  have hkept : (handleFailedCreatedWebhookEvent config calls e.id
      (w.takeCreatedFailed e.id again)).Kept c ↔ (e.isInRetryLimit w.now →
        if calls.Closes then calls.Opens else (w.takeCreatedFailed e.id again).InHand e.id) := by
    by_cases hc : calls.Closes
    swap
    · rw [handleFailed_of_not_closes he' hpending.2.2 hc, if_neg hc]
      exact htake.kept_iff (c := c) (e := e) hpending
    rw [if_pos hc]
    exact htake.closes_iff (c := c) (e := e) hpending hc
  rw [hkept]
  constructor
  · intro hall _ x hx hid hlimit
    exact hall (hx_eq x hx hid ▸ hlimit)
  · intro hall hlimit
    exact hall hin e hpending rfl hlimit

theorem Sound.notify_kept (h : Sound w) (hk : w.Kept c) (webhook : Webhook) (type : WebhookType)
    (data : String) : (w.notify webhook type data).Kept c := by
  have hnew : firstEvent webhook type data w.newId w.now ∈
      (w.notify webhook type data).events.rows :=
    (mem_create (get?_newId w)).mpr (.inr rfl)
  by_cases hc : w.newId = c
  · refine ((h.notify webhook type data).kept_iff ⟨hnew, hc, rfl⟩).mpr fun _ => .inl ?_
    exact List.mem_append_right _ List.mem_cons_self
  · refine hk.frame (Int.le_refl _) (fun x hxc => (mem_create (get?_newId w)).trans ?_)
      fun x _ hin => hin.imp_left (List.mem_append_left _)
    exact or_iff_left fun hx => hc ((congrArg WebhookEvent.chain hx).symm.trans hxc)

/-- A retry that is fired leaves a created event. -/
theorem World.Kept.fire (hk : w.Kept c) (r : Retry) (again : Bool) : (w.fire r again).Kept c := by
  refine hk.frame (Int.le_refl _) (fun _ _ => Iff.rfl) fun x _ hin => ?_
  rcases hin with hin | ⟨r', hr', hid⟩ | hin
  · exact .inl (List.mem_append_left _ hin)
  · by_cases hr : r' = r
    · exact .inl (List.mem_append_right _ (hr ▸ hid ▸ List.mem_cons_self))
    · exact .inr (.inl ⟨r', mem_taken_of_ne hr again hr', hid⟩)
  · exact .inr (.inr hin)

/-- A retry is given up at the limit of its chain. -/
theorem Sound.abort_kept (h : Sound w) (hk : w.Kept c) {r : Retry} (hr : r ∈ w.retries)
    (hnow : r.abortAt ≤ w.now) : (w.abort r).Kept c := by
  by_cases hpending : ∃ e, w.IsPending c e
  swap
  · exact hk.frame (Int.le_refl _) (fun _ _ => Iff.rfl) fun x hx => absurd ⟨x, hx⟩ hpending
  obtain ⟨e, he⟩ := hpending
  have hsound : Sound (w.abort r) :=
    h.messages rfl h.created h.createdFailed fun _ => List.mem_of_mem_erase
  refine (hsound.kept_iff (e := e) he).mpr fun hlimit => ?_
  rcases (h.kept_iff he).mp hk hlimit with hin | ⟨r', hr', hid⟩ | hin
  · exact .inl hin
  · refine .inr (.inl ⟨r', ?_, hid⟩)
    refine (List.mem_erase_of_ne fun hr_eq => ?_).mpr hr'
    obtain ⟨x, hx, hxid, hxl⟩ := h.retries r hr
    obtain rfl := Table.eq_of_key hx he.1 (hxid.trans (hr_eq ▸ hid))
    exact absurd hlimit (Int.not_lt.mpr (hxl ▸ hnow))
  · exact .inr (.inr hin)

theorem Sound.kept_step_iff (h : Sound w) (hk : w.Kept c) (l : Step) :
    (Webhooks.step config w l).Kept c ↔ Undisturbed c w l := by
  cases l with
  | notify webhook type data => exact iff_of_true (h.notify_kept hk webhook type data) trivial
  | created id again calls => exact h.created_iff hk id again calls
  | createdFailed id again calls => exact h.createdFailed_iff hk id again calls
  | fire r again =>
      refine iff_of_true ?_ trivial
      rw [Webhooks.step]
      split
      · exact hk.fire r again
      · exact hk
  | abort r =>
      refine iff_of_true ?_ trivial
      rw [Webhooks.step]
      split
      · next hr => exact h.abort_kept hk hr.1 hr.2
      · exact hk
  | tick ms =>
      refine iff_of_true (hk.frame ?_ (fun _ _ => Iff.rfl) fun x _ hin => hin) trivial
      exact Int.le_add_of_nonneg_right (Int.natCast_nonneg ms)

/-! ### After a confirmation -/

theorem World.Confirmed.mono (h : w.Confirmed c)
    (hrows : ∀ x : WebhookEvent, x.chain = c → x ∈ w.events.rows → x ∈ w'.events.rows) :
    w'.Confirmed c := by
  obtain ⟨x, hx, hxc, hstate⟩ := h
  exact ⟨x, hrows x hxc hx, hxc, hstate⟩

/-- A chain with a confirmed event has no pending one. -/
theorem Sound.chain_ne (h : Sound w) (hc : w.Confirmed c) (hmem : e ∈ w.events.rows)
    (hp : e.state = .PENDING) : e.chain ≠ c := by
  rintro rfl
  obtain ⟨x, hx, hxc, hstate⟩ := hc
  have hxf : x.state ≠ .FAILED := by rw [hstate]; decide
  rw [h.alone e hmem x hx hxc hp hxf, hp] at hstate
  cases hstate

/-- What is sent for another chain. -/
theorem sentFor_append {sent sent' : List Sent} (h : ∀ s ∈ sent', s.chain ≠ c) :
    ((sent ++ sent').filter fun s => s.chain = c) = sent.filter fun s => s.chain = c := by
  have hnone : (sent'.filter fun s => s.chain = c) = [] :=
    List.filter_eq_nil_iff.mpr fun s hs => by simpa using h s hs
  rw [List.filter_append, hnone, List.append_nil]

theorem Sound.quiet_created (h : Sound w) (hc : w.Confirmed c) (he : w.events.get? id = some e)
    (calls : CreatedCalls) : (handleCreatedWebhookEvent calls id w).Confirmed c ∧
      (handleCreatedWebhookEvent calls id w).sentFor c = w.sentFor c := by
  have hmem : e ∈ w.events.rows := Table.mem_of_get? he
  by_cases hp : e.state = .PENDING
  · have hne : e.chain ≠ c := h.chain_ne hc hmem hp
    by_cases hd : calls.Delivers e
    · obtain ⟨s, code, hs, heq⟩ := handleCreated_of_delivers he hp hd
      rw [heq]
      refine ⟨hc.mono fun x hxc hx => ?_, sentFor_append fun s' hs' => ?_⟩
      · exact (mem_update_of_chain hmem (e.id_confirm code) rfl (hxc.trans_ne hne.symm)).mpr hx
      · rw [List.mem_singleton.mp hs', hs]
        exact hne
    · obtain ⟨err, sent, hsent, heq⟩ := handleWebhookEventCreated_of_not_delivers he hp hd
      have hsame : ({ w with sent := w.sent ++ sent } : World).sentFor c = w.sentFor c :=
        sentFor_append fun s hs => (hsent s hs).trans_ne hne
      rw [handleCreated_of_error heq]
      split
      · exact ⟨hc, hsame⟩
      · exact ⟨hc, hsame⟩
  · rcases handleCreated_of_settled he hp calls with heq | heq
    · rw [heq]
      exact ⟨hc, rfl⟩
    · rw [heq]
      exact ⟨hc, rfl⟩

theorem Sound.quiet_createdFailed (h : Sound w) (hc : w.Confirmed c)
    (he : w.events.get? id = some e) (calls : FailedCalls) :
    (handleFailedCreatedWebhookEvent config calls id w).Confirmed c ∧
      (handleFailedCreatedWebhookEvent config calls id w).sentFor c = w.sentFor c := by
  have hmem : e ∈ w.events.rows := Table.mem_of_get? he
  by_cases hp : e.state = .PENDING
  · have hne : e.chain ≠ c := h.chain_ne hc hmem hp
    by_cases hcloses : calls.Closes
    · have hclosed : (w.update e.fail).Confirmed c := hc.mono fun x hxc hx =>
        (mem_update_of_chain hmem e.id_fail rfl (hxc.trans_ne hne.symm)).mpr hx
      have hopened : ((w.update e.fail).create
          (e.fail.successor config w.newId w.now)).Confirmed c :=
        hclosed.mono fun x _ hx =>
          (mem_create (newId_update w e.fail ▸ get?_newId (w.update e.fail))).mpr (.inl hx)
      rw [handleFailed_of_closes he hp hcloses]
      split
      · exact ⟨hclosed, rfl⟩
      split
      · exact ⟨hopened, rfl⟩
      · exact ⟨hopened, rfl⟩
    · rw [handleFailed_of_not_closes he hp hcloses]
      exact ⟨hc, rfl⟩
  · rw [handleFailed_of_settled he hp]
    exact ⟨hc, rfl⟩

/-- Nothing is sent for a chain that has a confirmed event, and it keeps that event. -/
theorem Sound.quiet (h : Sound w) (hc : w.Confirmed c) (l : Step) :
    (Webhooks.step config w l).Confirmed c ∧
      (Webhooks.step config w l).sentFor c = w.sentFor c := by
  cases l with
  | notify webhook type data =>
      refine ⟨hc.mono fun x _ hx => ?_, rfl⟩
      exact (mem_create (get?_newId w)).mpr (.inl hx)
  | created id again calls =>
      rw [Webhooks.step]
      split
      · next hin =>
        obtain ⟨e, he, rfl⟩ := h.created id hin
        exact (h.takeCreated e.id again).quiet_created hc (Table.get?_of_mem he) calls
      · exact ⟨hc, rfl⟩
  | createdFailed id again calls =>
      rw [Webhooks.step]
      split
      · next hin =>
        obtain ⟨e, he, rfl⟩ := h.createdFailed id hin
        exact (h.takeCreatedFailed e.id again).quiet_createdFailed hc (Table.get?_of_mem he) calls
      · exact ⟨hc, rfl⟩
  | fire r again =>
      rw [Webhooks.step]
      split
      · exact ⟨hc, rfl⟩
      · exact ⟨hc, rfl⟩
  | abort r =>
      rw [Webhooks.step]
      split
      · exact ⟨hc, rfl⟩
      · exact ⟨hc, rfl⟩
  | tick ms => exact ⟨hc, rfl⟩

theorem sound_run (config : RetryConfig) (now : ℤ) (ls : List Step) :
    Sound (run (step config) (start now) ls) :=
  run_invariant (fun _ l h => h.step l) (sound_start now) ls

/-- After a confirmation nothing more is sent, whatever follows. -/
theorem Sound.quiet_run (h : Sound w) (hc : w.Confirmed c) (ls : List Step) :
    (run (Webhooks.step config) w ls).sentFor c = w.sentFor c :=
  (run_invariant (I := fun w' => Sound w' ∧ w'.Confirmed c ∧ w'.sentFor c = w.sentFor c)
    (fun w' l ⟨hs, hc, hsent⟩ => by
      obtain ⟨hc', hsent'⟩ := hs.quiet hc l
      exact ⟨hs.step l, hc', hsent'.trans hsent⟩) ⟨h, hc, rfl⟩ ls).2.2

theorem kept_start (now : ℤ) : (start now).Kept c :=
  fun _ ⟨_, hx, _⟩ => absurd hx List.not_mem_nil

/-- A chain is kept in every state of a run, and quiet after its confirmation, if and only if no
step of the run loses it. -/
theorem notified_iff (config : RetryConfig) (now : ℤ) (ls : List Step) (c : Uuid) :
    Notified config now ls c ↔ Along (step config) (Undisturbed c) (start now) ls := by
  have hkept : (∀ ms, ms <+: ls → (run (step config) (start now) ms).Kept c) ↔
      Along (step config) (Undisturbed c) (start now) ls :=
    along_iff (I := fun w => Sound w ∧ w.Kept c) (fun _ h => h.2)
      (fun _ l h => h.1.kept_step_iff h.2 l)
      (fun _ l h hl => ⟨h.1.step l, (h.1.kept_step_iff h.2 l).mpr hl⟩)
      ⟨sound_start now, kept_start now⟩ ls
  rw [Notified, hkept, and_iff_left_iff_imp]
  intro _ ms ms' _ hconfirmed
  rw [run_append]
  exact (sound_run config now ms).quiet_run hconfirmed ms'

/-! A chain that is lost: the first delivery fails, the failure handler opens the successor and
cannot push its retry, and the report comes a second time, to an event that has failed. -/

namespace Lost

def retryConfig : RetryConfig := ⟨10, 3600⟩

def webhook : Webhook := ⟨7, "url", "key", .PAYMENT_COMPLETED, "123", "0001"⟩

def unanswered : CreatedCalls :=
  ⟨.ok (), .ok, .error (.raised "timeout"), .ok (), .ok ()⟩

def unpushed : FailedCalls := ⟨.ok (), .ok (), .ok true, .ok (), .error (.raised "kafka")⟩

def finished : FailedCalls := ⟨.ok (), .ok (), .ok true, .ok (), .ok ()⟩

def steps : List Step :=
  [.notify webhook .PAYMENT_COMPLETED "data", .created 1 false unanswered,
    .createdFailed 1 true unpushed, .createdFailed 1 false finished]

end Lost

open Lost in
theorem not_notified : ¬ Notified retryConfig 0 steps 1 := by
  rintro ⟨hkept, -⟩
  have hconfirmed : ∀ e ∈ (run (step retryConfig) (start 0) steps).events.rows, e.chain = 1 →
      e.state ≠ .CONFIRMED := by decide +kernel
  have hlimit : ∃ e ∈ (run (step retryConfig) (start 0) steps).events.rows, e.chain = 1 ∧
      e.isInRetryLimit (run (step retryConfig) (start 0) steps).now := by decide +kernel
  have hnone : (run (step retryConfig) (start 0) steps).created = [] ∧
      (run (step retryConfig) (start 0) steps).retries = [] ∧
      (run (step retryConfig) (start 0) steps).createdFailed = [] := by decide +kernel
  obtain ⟨e, -, hin, -⟩ := hkept steps (List.prefix_refl steps)
    (fun ⟨e, he, hc, hstate⟩ => hconfirmed e he hc hstate) hlimit
  obtain ⟨hcreated, hretries, hcreatedFailed⟩ := hnone
  rcases hin with hin | ⟨r, hr, -⟩ | hin
  · rw [hcreated] at hin
    exact List.not_mem_nil hin
  · rw [hretries] at hr
    exact List.not_mem_nil hr
  · rw [hcreatedFailed] at hin
    exact List.not_mem_nil hin

end ZroServices.Webhooks
