import ZroServices.Utils.PushRetry

/-!
# Utils — a retry is fired once

A message may be delivered again.  While the retry has a row, the use case finds it and creates none,
but the observer pushes the message to the queue all the same, and the retry is fired for each copy;
after it was fired the row's id is taken, and the message goes to the fail queue.  The row itself may
still be in a transaction when the agent looks for it, and then comes after the retry was fired.

* `exactlyOnce_of_orderly`: where no message is delivered again, and the commit of its row has ended
  when the agent looks for it, each retry is fired once, at the tick and to the queue that its times
  say, none gets lost, and no row of it is left.
-/

namespace ZroServices.PushRetry

open Foundation

/-! ### What holds -/

/-- A tick at which the retry is neither due nor out of time. -/
def Retry.Waits (retry : Retry) (now : ℤ) : Prop := now < retry.retryAt ∧ now < retry.abortAt

instance (retry : Retry) (now : ℤ) : Decidable (retry.Waits now) :=
  inferInstanceAs (Decidable (_ ∧ _))

def Retry.Due (retry : Retry) (now : ℤ) : Prop := retry.retryAt ≤ now ∧ now < retry.abortAt

instance (retry : Retry) (now : ℤ) : Decidable (retry.Due now) :=
  inferInstanceAs (Decidable (_ ∧ _))

/-- The message was sent at the first tick after its retry was queued at which that was due, or out
of time, and to the queue for which it was. -/
def Emission.Rule (x : Emission) (ticks : List ℤ) : Prop :=
  match x.tick with
  | none => x.topic = x.retry.failQueue
  | some k => ∃ now, ticks[k]? = some now ∧
      (∀ j now', x.since ≤ j → j < k → ticks[j]? = some now' → x.retry.Waits now') ∧
      (x.topic = x.retry.retryQueue ∧ x.retry.Due now ∨
        x.topic = x.retry.failQueue ∧ x.retry.abortAt ≤ now)

namespace World

variable (w : World)

/-- The retry that was fired last, until its row is deleted. -/
def head : Option Entry := w.agent.bind fun a => a.rest.head?

/-- The retries of the loop that were fired. -/
def fired : List Entry := (w.agent.map Agent.done).getD [] ++ w.head.toList

/-- The ticks at which the agent has done its work. -/
def finished : List ℤ := if w.agent.isSome then w.ticks.dropLast else w.ticks

/-- No row of the id is left, and none will come. -/
def Clear (id : Uuid) : Prop :=
  (∀ row ∈ w.retries.rows, row.retry.id = id → row.deleted = true) ∧
    ∀ d ∈ w.deliveries, d.message.id = id → ¬ d.Uncommitted

/-- Each retry is fired once, at its tick, and leaves no row; those that were queued and not fired are
in the queue, and no tick was theirs. -/
structure ExactlyOnce : Prop where
  once : (w.emitted.map fun x => x.retry.id).Nodup
  rule : ∀ x ∈ w.emitted, x.Rule w.ticks
  kept : ∀ e ∈ w.queued, (∃ x ∈ w.emitted, x.retry.id = e.retry.id) ∨
    e ∈ w.retryQueue ∧ ∀ k now, w.finished[k]? = some now → e.since ≤ k → e.retry.Waits now
  gone : ∀ x ∈ w.emitted, (∀ e, w.head = some e → e.retry.id ≠ x.retry.id) → w.Clear x.retry.id

end World

/-- The retry whose row the agent looks for. -/
def World.looking (w : World) : Option Entry :=
  w.agent.bind fun a => if a.stage = .looking then a.rest.head? else none

/-- The message is not delivered again, and the commit of a row has ended when the agent looks for
it. -/
def Orderly (w : World) : Label → Prop
  | .deliver message => (∀ row ∈ w.retries.rows, row.retry.id ≠ message.id) ∧
      ∀ d ∈ w.deliveries, d.message.id ≠ message.id
  | .agent => ∀ e ∈ w.looking, ∀ d ∈ w.deliveries, d.message.id = e.retry.id → ¬ d.Uncommitted
  | _ => True

instance (w : World) : ∀ l, Decidable (Orderly w l)
  | .tick _ => inferInstanceAs (Decidable True)
  | .agent => inferInstanceAs (Decidable (∀ e ∈ w.looking, ∀ d ∈ w.deliveries, _ → _))
  | .deliver _ => inferInstanceAs (Decidable ((∀ row ∈ _, _) ∧ ∀ d ∈ _, _))
  | .handler _ _ => inferInstanceAs (Decidable True)
  | .commit _ _ => inferInstanceAs (Decidable True)

/-! ### The invariant -/

/-- A handler that has not pushed its message. -/
def Stage.Early : Stage → Prop
  | .atGetById => True
  | .atCreate => True
  | .atPush _ => True
  | _ => False

/-- What holds while the retries `fired` of a loop were fired, of which the row of `head` is not
deleted yet. -/
structure Core (w : World) (fired : List Entry) (head : Option Entry) (finished : List ℤ) : Prop where
  queued : (w.queued.map fun e => e.retry.id).Nodup
  queue : w.retryQueue.Sublist w.queued
  delivered : (w.deliveries.map fun d => d.message.id).Nodup
  early : ∀ d ∈ w.deliveries, d.stage.Early →
    (∀ row ∈ w.retries.rows, row.retry.id ≠ d.message.id) ∧
      (∀ e ∈ w.queued, e.retry.id ≠ d.message.id) ∧ ∀ x ∈ w.emitted, x.retry.id ≠ d.message.id
  known : ∀ id, (∃ e ∈ w.queued, e.retry.id = id) ∨ (∃ x ∈ w.emitted, x.retry.id = id) →
    (∃ row ∈ w.retries.rows, row.retry.id = id) ∨ ∃ d ∈ w.deliveries, d.message.id = id
  once : (w.emitted.map fun x => x.retry.id).Nodup
  unfired : ∀ e ∈ w.retryQueue, e ∉ fired → ∀ x ∈ w.emitted, x.retry.id ≠ e.retry.id
  sent : ∀ e ∈ fired, ∃ x ∈ w.emitted, x.retry.id = e.retry.id
  kept : ∀ e ∈ w.queued, e ∈ w.retryQueue ∨ ∃ x ∈ w.emitted, x.retry.id = e.retry.id
  waits : ∀ e ∈ w.retryQueue, ∀ k now, finished[k]? = some now → e.since ≤ k → e.retry.Waits now
  rule : ∀ x ∈ w.emitted, x.Rule w.ticks
  gone : ∀ x ∈ w.emitted, (∀ e, head = some e → e.retry.id ≠ x.retry.id) → w.Clear x.retry.id

/-- The agent's loop: what it has done, and what it goes on with. -/
structure Batch (w : World) (now : ℤ) (aborting : Bool) (done rest : List Entry) : Prop where
  queue : (done ++ rest).Sublist w.retryQueue
  tick : ∃ earlier, w.ticks = earlier ++ [now]
  due : ∀ e ∈ rest, if aborting then e.retry.abortAt ≤ now else e.retry.Due now
  others : ∀ e ∈ w.retryQueue, e ∉ done ++ rest → e.since < w.ticks.length →
    ¬ e.retry.Due now ∧ (aborting = true → now < e.retry.abortAt)

/-- The agent at work on its loop. -/
structure Working (w : World) (a : Agent) : Prop where
  batch : Batch w a.now a.aborting a.done a.rest
  rest : a.rest ≠ []
  deleting : a.stage = .deleting → ∀ e, a.rest.head? = some e →
    ∀ d ∈ w.deliveries, d.message.id = e.retry.id → ¬ d.Uncommitted

structure Sound (w : World) : Prop where
  core : Core w w.fired w.head w.finished
  working : ∀ a, w.agent = some a → Working w a

theorem Sound.exactlyOnce {w : World} (h : Sound w) : w.ExactlyOnce where
  once := h.core.once
  rule := h.core.rule
  kept e he := (h.core.kept e he).symm.imp_right fun hq => ⟨hq, h.core.waits e hq⟩
  gone := h.core.gone

section

variable {w : World} {fired done rest : List Entry} {head : Option Entry} {finished : List ℤ}
  {now : ℤ} {e : Entry}
variable {d : Delivery} {aborting : Bool} {i : ℕ}

theorem eq_of_id {l : List Entry} (hl : (l.map fun e => e.retry.id).Nodup) {e e' : Entry}
    (he : e ∈ l) (he' : e' ∈ l) (h : e.retry.id = e'.retry.id) : e = e' :=
  List.inj_on_of_nodup_map hl he he' h

theorem Core.eq_delivery (h : Core w fired head finished) {d' : Delivery} (hd : d ∈ w.deliveries)
    (hd' : d' ∈ w.deliveries) (hid : d.message.id = d'.message.id) : d = d' :=
  List.inj_on_of_nodup_map h.delivered hd hd' hid

/-! ### The agent -/

theorem Core.withAgent (h : Core w fired head finished) (agent : Option Agent) :
    Core { w with agent := agent } fired head finished :=
  ⟨h.queued, h.queue, h.delivered, h.early, h.known, h.once, h.unfired, h.sent, h.kept, h.waits,
    h.rule, h.gone⟩

/-- A retry of the queue is fired. -/
theorem Core.emit (h : Core w fired none finished) (he : e ∈ w.retryQueue) (hnot : e ∉ fired)
    {k : ℕ} {topic : String}
    (hrule : Emission.Rule ⟨e.retry, e.since, some k, topic⟩ w.ticks) :
    Core (w.emit e.retry e.since (some k) topic) (fired ++ [e]) (some e) finished where
  queued := h.queued
  queue := h.queue
  delivered := h.delivered
  early d hd hearly := by
    obtain ⟨hrows, hqueued, hemitted⟩ := h.early d hd hearly
    refine ⟨hrows, hqueued, fun x hx => ?_⟩
    rcases List.mem_append.mp hx with hx | hx
    · exact hemitted x hx
    · rw [List.mem_singleton.mp hx]
      exact hqueued e (h.queue.subset he)
  known id hid := by
    refine h.known id (hid.elim .inl fun ⟨x, hx, hxid⟩ => ?_)
    rcases List.mem_append.mp hx with hx | hx
    · exact .inr ⟨x, hx, hxid⟩
    · rw [List.mem_singleton.mp hx] at hxid
      exact .inl ⟨e, h.queue.subset he, hxid⟩
  once := by
    change ((w.emitted ++ [_]).map _).Nodup
    rw [List.map_append]
    refine List.nodup_append.mpr ⟨h.once, List.nodup_singleton _, ?_⟩
    rintro id hid id' hid' rfl
    obtain ⟨x, hx, rfl⟩ := List.mem_map.mp hid
    exact h.unfired e he hnot x hx (List.mem_singleton.mp hid')
  unfired e' he' hnot' x hx := by
    rw [List.mem_append, List.mem_singleton, not_or] at hnot'
    rcases List.mem_append.mp hx with hx | hx
    · exact h.unfired e' he' hnot'.1 x hx
    · rw [List.mem_singleton.mp hx]
      intro hid
      exact hnot'.2 (eq_of_id h.queued (h.queue.subset he') (h.queue.subset he) hid.symm)
  sent e' he' := by
    rcases List.mem_append.mp he' with he' | he'
    · obtain ⟨x, hx, hid⟩ := h.sent e' he'
      exact ⟨x, List.mem_append_left _ hx, hid⟩
    · rw [List.mem_singleton.mp he']
      exact ⟨_, List.mem_append_right _ (List.mem_singleton_self _), rfl⟩
  kept e' he' := (h.kept e' he').imp_right fun ⟨x, hx, hid⟩ => ⟨x, List.mem_append_left _ hx, hid⟩
  waits := h.waits
  rule x hx := by
    rcases List.mem_append.mp hx with hx | hx
    · exact h.rule x hx
    · rw [List.mem_singleton.mp hx]
      exact hrule
  gone x hx hne := by
    rcases List.mem_append.mp hx with hx | hx
    · exact h.gone x hx (fun _ h => by cases h)
    · rw [List.mem_singleton.mp hx] at hne
      exact absurd rfl (hne e rfl)

/-- The retries of a loop leave the queue. -/
theorem Core.remove (h : Core w done none finished) : Core (w.remove done) [] none finished where
  queued := h.queued
  queue := List.filter_sublist.trans h.queue
  delivered := h.delivered
  early := h.early
  known := h.known
  once := h.once
  unfired e he _ := by
    obtain ⟨he, hnot⟩ := List.mem_filter.mp he
    exact h.unfired e he (of_decide_eq_true hnot)
  sent _ he := absurd he List.not_mem_nil
  kept e he := by
    rcases h.kept e he with hq | hx
    · by_cases hdone : e ∈ done
      · exact .inr (h.sent e hdone)
      · exact .inl (List.mem_filter.mpr ⟨hq, decide_eq_true hdone⟩)
    · exact .inr hx
  waits e he := h.waits e (List.mem_of_mem_filter he)
  rule := h.rule
  gone := h.gone

/-- The row of the retry that was fired last is deleted. -/
theorem Core.cleared (h : Core w fired (some e) finished) (hclear : w.Clear e.retry.id) :
    Core w fired none finished := by
  refine { h with gone := fun x hx _ => ?_ }
  by_cases hid : e.retry.id = x.retry.id
  · exact hid ▸ hclear
  · refine h.gone x hx fun e' he' => ?_
    rw [← Option.some.inj he']
    exact hid

theorem Batch.mem_queue (h : Batch w now aborting done (e :: rest)) : e ∈ w.retryQueue :=
  h.queue.subset (List.mem_append_right _ List.mem_cons_self)

theorem Core.notMem_done (h : Core w done head finished)
    (hb : Batch w now aborting done (e :: rest)) : e ∉ done := by
  have hnodup : (done ++ e :: rest).Nodup :=
    (List.Nodup.of_map _ h.queued).sublist (hb.queue.trans h.queue)
  exact fun he => List.disjoint_of_nodup_append hnodup he List.mem_cons_self

/-- A retry that the agent fires is fired by the rule. -/
theorem Batch.rule (h : Core w done head w.ticks.dropLast)
    (hb : Batch w now aborting done (e :: rest)) {topic : String}
    (htopic : topic = e.retry.retryQueue ∧ e.retry.Due now ∨
      topic = e.retry.failQueue ∧ e.retry.abortAt ≤ now) :
    Emission.Rule ⟨e.retry, e.since, some (w.ticks.length - 1), topic⟩ w.ticks := by
  obtain ⟨earlier, hticks⟩ := hb.tick
  have hwaits := h.waits e hb.mem_queue
  rw [hticks, List.dropLast_concat] at hwaits
  have hlength : w.ticks.length - 1 = earlier.length := by
    rw [hticks, List.length_append, List.length_singleton, Nat.add_sub_cancel]
  refine ⟨now, ?_, fun j now' hj hlt hnow' => ?_, htopic⟩
  · rw [hlength, hticks, List.getElem?_concat_length]
  · rw [hlength] at hlt
    rw [hticks, List.getElem?_append_left hlt] at hnow'
    exact hwaits j now' hnow' hj

section

variable (h : Core w done none w.ticks.dropLast)
include h

/-- A retry that the agent goes on with is fired, and the loop goes on. -/
theorem sound_fire (hb : Batch w now aborting done (e :: rest)) {topic : String}
    (htopic : topic = e.retry.retryQueue ∧ e.retry.Due now ∨
      topic = e.retry.failQueue ∧ e.retry.abortAt ≤ now) :
    Sound { w.emit e.retry e.since (some (w.ticks.length - 1)) topic with
      agent := some ⟨now, aborting, done, e :: rest, .emitting⟩ } := by
  have hcore := h.emit hb.mem_queue (h.notMem_done hb) (Batch.rule h hb htopic)
  refine ⟨hcore.withAgent _, ?_⟩
  rintro a ⟨⟩
  exact ⟨⟨hb.queue, hb.tick, hb.due, hb.others⟩, List.cons_ne_nil _ _, (by rintro ⟨⟩)⟩

theorem sound_abortNext (hb : Batch w now true done rest) : Sound (w.abortNext now done rest) := by
  cases rest with
  | nil =>
      refine ⟨?_, (fun _ h => by cases h)⟩
      refine Core.withAgent (w := w.remove done) ?_ none
      refine { h.remove with waits := fun e he k now' hk hsince => ?_ }
      obtain ⟨earlier, hticks⟩ := hb.tick
      have hearlier := h.remove.waits e he k now'
      change w.ticks[k]? = some now' at hk
      rw [hticks, List.dropLast_concat] at hearlier
      rw [hticks] at hk
      rcases Nat.lt_or_ge k earlier.length with hlt | hge
      · rw [List.getElem?_append_left hlt] at hk
        exact hearlier hk hsince
      -- the tick whose work ends
      · rw [List.getElem?_append_right hge] at hk
        obtain ⟨hlast, rfl⟩ := List.getElem?_eq_some_iff.mp hk
        obtain ⟨he, hnot⟩ := List.mem_filter.mp he
        have hbefore : e.since < w.ticks.length := by
          rw [hticks, List.length_append]
          rw [List.length_singleton] at hlast ⊢
          omega
        obtain ⟨hdue, habort⟩ := hb.others e he (by simpa using hnot) hbefore
        have hnow := habort rfl
        rw [List.getElem_singleton]
        exact ⟨Int.not_le.mp fun hle => hdue ⟨hle, hnow⟩, hnow⟩
  | cons e rest => exact sound_fire h hb (.inr ⟨rfl, hb.due e List.mem_cons_self⟩)

theorem sound_retryNext (hb : Batch w now false done rest) : Sound (w.retryNext now done rest) := by
  cases rest with
  | nil =>
      refine sound_abortNext h.remove ⟨List.filter_sublist, hb.tick, fun e he => ?_,
        fun e he hnot hbefore => ?_⟩
      · exact of_decide_eq_true (List.mem_filter.mp he).2
      · obtain ⟨hq, hdone⟩ := List.mem_filter.mp he
        refine ⟨(hb.others e hq (by simpa using hdone) hbefore).1, fun _ => Int.not_le.mp fun hle => ?_⟩
        exact hnot (List.mem_filter.mpr ⟨he, decide_eq_true hle⟩)
  | cons e rest => exact sound_fire h hb (.inl ⟨rfl, hb.due e List.mem_cons_self⟩)

end

/-- The agent goes on after a retry. -/
theorem sound_next {a : Agent} (h : Core w (a.done ++ [e]) none w.ticks.dropLast)
    (hb : Batch w a.now a.aborting a.done (e :: rest)) : Sound (w.next a (a.done ++ [e]) rest) := by
  have hb' : Batch w a.now a.aborting (a.done ++ [e]) rest := by
    refine ⟨?_, hb.tick, fun e he => hb.due e (List.mem_cons_of_mem _ he), ?_⟩
    · rw [List.append_assoc]
      exact hb.queue
    · rw [List.append_assoc]
      exact hb.others
  rw [World.next]
  split
  · next haborting => exact sound_abortNext h (haborting ▸ hb')
  · next haborting => exact sound_retryNext h (Bool.eq_false_iff.mpr haborting ▸ hb')

theorem Emission.Rule.append {x : Emission} {ticks : List ℤ} (h : x.Rule ticks) (now : ℤ) :
    x.Rule (ticks ++ [now]) := by
  rw [Emission.Rule] at h ⊢
  split at h
  · exact h
  · obtain ⟨now', hnow', hbefore, htopic⟩ := h
    obtain ⟨hlt, -⟩ := List.getElem?_eq_some_iff.mp hnow'
    refine ⟨now', ?_, fun j t hj hjk ht => hbefore j t hj hjk ?_, htopic⟩
    · rw [List.getElem?_append_left hlt, hnow']
    · rwa [List.getElem?_append_left (hjk.trans hlt)] at ht

theorem Sound.tick (h : Sound w) (now : ℤ) : Sound (w.tick now) := by
  rw [World.tick]
  split
  · exact h
  · next hagent =>
    have hcore := h.core
    rw [World.fired, World.head, World.finished, hagent] at hcore
    have hfirst : Core { w with ticks := w.ticks ++ [now] } [] none (w.ticks ++ [now]).dropLast := by
      rw [List.dropLast_concat]
      exact ⟨hcore.queued, hcore.queue, hcore.delivered, hcore.early, hcore.known, hcore.once,
        hcore.unfired, hcore.sent, hcore.kept, hcore.waits, fun x hx => (hcore.rule x hx).append now,
        hcore.gone⟩
    refine sound_retryNext hfirst ⟨List.filter_sublist, ⟨w.ticks, rfl⟩, fun e he => ?_,
      fun e he hnot _ => ⟨fun hdue => hnot ?_, (by rintro ⟨⟩)⟩⟩
    · exact of_decide_eq_true (List.mem_filter.mp he).2
    · exact List.mem_filter.mpr ⟨he, decide_eq_true hdue⟩

/-- What the deletion of a row leaves. -/
theorem delete_eq (w : World) (id : Uuid) : ∃ retries : Table RetryModel,
    w.delete id = { w with retries := retries } ∧
      retries.rows.map Keyed.key = w.retries.rows.map Keyed.key ∧
        ∀ row ∈ retries.rows, row ∈ w.retries.rows ∧ row.retry.id ≠ id ∨ row.deleted = true := by
  rw [World.delete]
  split
  · next hnone =>
    have hne := Table.get?_eq_none.mp hnone
    exact ⟨w.retries, rfl, rfl, fun row hrow => .inl ⟨hrow, hne row hrow⟩⟩
  · next row' hrow' =>
    have hkey : row'.retry.id = id := Table.key_of_get? hrow'
    refine ⟨w.retries.set { row' with deleted := true }, rfl, Table.map_key_set .., fun row hrow => ?_⟩
    rcases Table.mem_set.mp hrow with ⟨hmem, hne⟩ | ⟨rfl, -⟩
    · exact .inl ⟨hmem, fun hid => hne (hid.trans hkey.symm)⟩
    · exact .inr rfl

theorem exists_row {retries retries' : Table RetryModel} {id : Uuid}
    (heq : retries'.rows.map Keyed.key = retries.rows.map Keyed.key)
    (h : ∃ row ∈ retries.rows, row.retry.id = id) : ∃ row ∈ retries'.rows, row.retry.id = id := by
  obtain ⟨row, hrow, hid⟩ := h
  have hmem : id ∈ retries'.rows.map Keyed.key := heq ▸ List.mem_map.mpr ⟨row, hrow, hid⟩
  exact List.mem_map.mp hmem

/-- A row is deleted. -/
theorem Core.delete (h : Core w fired head finished) {retries : Table RetryModel}
    (hkeys : retries.rows.map Keyed.key = w.retries.rows.map Keyed.key)
    (hrows : ∀ row ∈ retries.rows, row ∈ w.retries.rows ∨ row.deleted = true) :
    Core { w with retries := retries } fired head finished where
  queued := h.queued
  queue := h.queue
  delivered := h.delivered
  early d hd hearly := by
    obtain ⟨hnone, hrest⟩ := h.early d hd hearly
    refine ⟨fun row hrow hid => ?_, hrest⟩
    obtain ⟨row', hrow', hid'⟩ := exists_row hkeys.symm ⟨row, hrow, hid⟩
    exact hnone row' hrow' hid'
  known id hid := (h.known id hid).imp_left (exists_row hkeys)
  once := h.once
  unfired := h.unfired
  sent := h.sent
  kept := h.kept
  waits := h.waits
  rule := h.rule
  gone x hx hne := by
    obtain ⟨hdeleted, hcommitted⟩ := h.gone x hx hne
    exact ⟨fun row hrow hid => (hrows row hrow).elim (fun hold => hdeleted row hold hid) id,
      hcommitted⟩

theorem Sound.agentStep (h : Sound w) (horderly : Orderly w .agent) : Sound w.agentStep := by
  rw [World.agentStep]
  split
  · exact h
  · next a hagent =>
    have hworking := h.working a hagent
    have hcore := h.core
    rw [World.fired, World.head, World.finished, hagent] at hcore
    split
    · exact h
    · next e rest hrest =>
      have hbatch := hworking.batch
      rw [hrest] at hbatch
      have hhead : a.rest.head? = some e := by rw [hrest, List.head?_cons]
      change Core w (a.done ++ a.rest.head?.toList) a.rest.head? w.ticks.dropLast at hcore
      rw [hhead] at hcore
      -- the agent only goes on to the next `await`
      have hstage (stage : AgentStage) (hdeleting : stage = .deleting →
          ∀ d ∈ w.deliveries, d.message.id = e.retry.id → ¬ d.Uncommitted) :
          Sound { w with agent := some { a with stage := stage } } := by
        refine ⟨?_, ?_⟩
        · change Core { w with agent := _ } (a.done ++ a.rest.head?.toList) a.rest.head?
            w.ticks.dropLast
          rw [hhead]
          exact hcore.withAgent _
        · rintro a' ⟨⟩
          have hb := hworking.batch
          refine ⟨⟨hb.queue, hb.tick, hb.due, hb.others⟩, hworking.rest, fun hs e' he' => ?_⟩
          rw [← Option.some.inj (hhead.symm.trans he')]
          exact hdeleting hs
      split
      · exact hstage .looking (by rintro ⟨⟩)
      · next hlooking =>
        have hcommitted := horderly e (by rw [World.looking, hagent]; simp [hlooking, hhead])
        split
        · exact hstage .deleting fun _ => hcommitted
        · next hnone =>
          refine sound_next (hcore.cleared ⟨fun row hrow hid => ?_, hcommitted⟩) hbatch
          have hget : w.retries.get? e.retry.id = some row :=
            Table.get?_eq_some.mpr ⟨hrow, hid⟩
          rw [World.getById, hget] at hnone
          by_contra hlive
          rw [Bool.not_eq_true] at hlive
          rw [Option.filter_some, if_pos (decide_eq_true hlive)] at hnone
          cases hnone
      · next hdeleting =>
        obtain ⟨retries, heq, hkeys, hrows⟩ := delete_eq w e.retry.id
        rw [heq]
        have hdeleted := hcore.delete hkeys fun row hrow => (hrows row hrow).imp_left And.left
        refine sound_next (w := { w with retries := retries }) (hdeleted.cleared ⟨?_, ?_⟩)
          ⟨hbatch.queue, hbatch.tick, hbatch.due, hbatch.others⟩
        · exact fun row hrow hid => (hrows row hrow).resolve_left fun hold => hold.2 hid
        · exact hworking.deleting hdeleting e hhead

/-! ### The handlers -/

/-- The retry whose row is being deleted was queued. -/
theorem Sound.mem_queued_head (h : Sound w) {a : Agent} (hagent : w.agent = some a)
    (he : a.rest.head? = some e) : e ∈ w.queued := by
  have hrest : e ∈ a.rest := List.mem_of_mem_head? he
  exact h.core.queue.subset ((h.working a hagent).batch.queue.subset
    (List.mem_append_right _ hrest))

theorem map_set_of_getElem? {α β : Type} {l : List α} {f : α → β} {a b : α}
    (h : l[i]? = some a) (hf : f b = f a) : (l.set i b).map f = l.map f := by
  obtain ⟨hlt, rfl⟩ := List.getElem?_eq_some_iff.mp h
  rw [List.map_set, hf]
  refine List.ext_getElem? fun j => ?_
  rw [List.getElem?_set]
  split
  · next hij => simp [hij.symm, hlt]
  · rfl

/-- A handler goes on; only one that had not pushed its message may write a row. -/
theorem Core.setStage (h : Core w fired head finished)
    (hd : w.deliveries[i]? = some d) {stage : Stage} (hearly : stage.Early → d.stage.Early)
    (hcommitted : Delivery.Uncommitted ⟨d.message, stage⟩ → d.Uncommitted ∨ d.stage.Early) :
    Core (w.setStage i d stage) fired head finished := by
  have hdw : d ∈ w.deliveries := List.mem_of_getElem? hd
  have hids : (w.deliveries.set i { d with stage := stage }).map (fun d => d.message.id) =
      w.deliveries.map fun d => d.message.id := map_set_of_getElem? hd rfl
  refine { h with delivered := hids ▸ h.delivered, early := ?_, known := ?_, gone := ?_ }
  · intro d' hd' hearly'
    rcases List.mem_or_eq_of_mem_set hd' with hd' | rfl
    · exact h.early d' hd' hearly'
    · exact h.early d hdw (hearly hearly')
  · refine fun id hid => (h.known id hid).imp_right fun ⟨d', hd', hid'⟩ => ?_
    exact List.mem_map.mp (hids ▸ List.mem_map.mpr ⟨d', hd', hid'⟩)
  · intro x hx hne
    obtain ⟨hdeleted, hclear⟩ := h.gone x hx hne
    refine ⟨hdeleted, fun d' hd' hid hun => ?_⟩
    rcases List.mem_or_eq_of_mem_set hd' with hd' | rfl
    · exact hclear d' hd' hid hun
    · rcases hcommitted hun with hold | hold
      · exact hclear d hdw hid hold
      · exact (h.early d hdw hold).2.2 x hx hid.symm

theorem Sound.setStage (h : Sound w) (hd : w.deliveries[i]? = some d)
    {stage : Stage} (hearly : stage.Early → d.stage.Early)
    (hcommitted : Delivery.Uncommitted ⟨d.message, stage⟩ → d.Uncommitted ∨ d.stage.Early) :
    Sound (w.setStage i d stage) := by
  have hdw : d ∈ w.deliveries := List.mem_of_getElem? hd
  refine ⟨h.core.setStage hd hearly hcommitted, fun a hagent => ?_⟩
  obtain ⟨hb, hrest, hdeleting⟩ := h.working a hagent
  refine ⟨⟨hb.queue, hb.tick, hb.due, hb.others⟩, hrest, fun hstage e he d' hd' hid hun => ?_⟩
  rcases List.mem_or_eq_of_mem_set hd' with hd' | rfl
  · exact hdeleting hstage e he d' hd' hid hun
  · rcases hcommitted hun with hold | hold
    · exact hdeleting hstage e he d hdw hid hold
    · exact (h.core.early d hdw hold).2.1 e (h.mem_queued_head hagent he) hid.symm

/-- A message is queued that was not queued, or fired, before. -/
theorem Sound.push (h : Sound w) {message : Retry}
    (hqueued : ∀ e ∈ w.queued, e.retry.id ≠ message.id)
    (hemitted : ∀ x ∈ w.emitted, x.retry.id ≠ message.id)
    (hdelivered : ∃ d ∈ w.deliveries, d.message.id = message.id)
    (hlate : ∀ d ∈ w.deliveries, d.message.id = message.id → ¬ d.stage.Early) :
    Sound (w.push message) := by
  have hcore := h.core
  have hold {l : List Entry} {e : Entry} (he : e ∈ l ++ [⟨w.queued.length, message, w.ticks.length⟩]) :
      e ∈ l ∨ e.retry = message ∧ e.since = w.ticks.length := by
    refine (List.mem_append.mp he).imp_right fun he => ?_
    rw [List.mem_singleton.mp he]
    exact ⟨rfl, rfl⟩
  have hfinished : w.finished.length ≤ w.ticks.length := by
    rw [World.finished]
    split
    · exact (List.dropLast_sublist _).length_le
    · exact le_rfl
  refine ⟨?_, fun a hagent => ?_⟩
  · refine { hcore with
      queued := ?_, queue := hcore.queue.append (.refl _), early := ?_, known := ?_, unfired := ?_,
      kept := ?_, waits := ?_ }
    · change ((w.queued ++ [_]).map _).Nodup
      rw [List.map_append]
      refine List.nodup_append.mpr ⟨hcore.queued, List.nodup_singleton _, ?_⟩
      rintro id hid id' hid' rfl
      obtain ⟨e, he, rfl⟩ := List.mem_map.mp hid
      exact hqueued e he (List.mem_singleton.mp hid')
    · intro d hd hearly
      obtain ⟨hrows, hother, hsent⟩ := hcore.early d hd hearly
      refine ⟨hrows, fun e he => ?_, hsent⟩
      rcases hold he with he | ⟨he, -⟩
      · exact hother e he
      · rw [he]
        exact fun hid => hlate d hd hid.symm hearly
    · rintro id (⟨e, he, hid⟩ | hx)
      · rcases hold he with he | ⟨he, -⟩
        · exact hcore.known id (.inl ⟨e, he, hid⟩)
        · rw [← hid, he]
          exact .inr hdelivered
      · exact hcore.known id (.inr hx)
    · intro e he hnot
      rcases hold he with he | ⟨he, -⟩
      · exact hcore.unfired e he hnot
      · rw [he]
        exact hemitted
    · intro e he
      rcases List.mem_append.mp he with he | he
      · exact (hcore.kept e he).imp_left (List.mem_append_left _)
      · exact .inl (List.mem_append_right _ he)
    · intro e he k now hk hsince
      rcases hold he with he | ⟨-, heq⟩
      · exact hcore.waits e he k now hk hsince
      · obtain ⟨hlt, -⟩ := List.getElem?_eq_some_iff.mp hk
        exact absurd (heq ▸ hsince) (not_le.mpr (hlt.trans_le hfinished))
  · obtain ⟨hb, hrest, hdeleting⟩ := h.working a hagent
    refine ⟨⟨hb.queue.trans (List.sublist_append_left _ _), hb.tick, hb.due,
      fun e he hnot hsince => ?_⟩, hrest, hdeleting⟩
    rcases hold he with he | ⟨-, heq⟩
    · exact hb.others e he hnot hsince
    · exact absurd hsince (heq ▸ lt_irrefl _)

/-- A message that was not queued goes to its fail queue. -/
theorem Sound.reject (h : Sound w) {message : Retry}
    (hqueued : ∀ e ∈ w.queued, e.retry.id ≠ message.id)
    (hemitted : ∀ x ∈ w.emitted, x.retry.id ≠ message.id)
    (hdelivered : ∃ d ∈ w.deliveries, d.message.id = message.id)
    (hlate : ∀ d ∈ w.deliveries, d.message.id = message.id → ¬ d.stage.Early)
    (hclear : w.Clear message.id) :
    Sound (w.emit message w.ticks.length none message.failQueue) := by
  have hcore := h.core
  have hold {x : Emission} (hx : x ∈ w.emitted ++ [⟨message, w.ticks.length, none, message.failQueue⟩]) :
      x ∈ w.emitted ∨ x = ⟨message, w.ticks.length, none, message.failQueue⟩ :=
    (List.mem_append.mp hx).imp_right List.mem_singleton.mp
  refine ⟨{ hcore with
    early := ?_, known := ?_, once := ?_, unfired := ?_, sent := ?_, kept := ?_, rule := ?_,
    gone := ?_ }, fun a hagent => ?_⟩
  · intro d hd hearly
    obtain ⟨hrows, hother, hsent⟩ := hcore.early d hd hearly
    refine ⟨hrows, hother, fun x hx => ?_⟩
    rcases hold hx with hx | rfl
    · exact hsent x hx
    · exact fun hid => hlate d hd hid.symm hearly
  · rintro id (he | ⟨x, hx, hid⟩)
    · exact hcore.known id (.inl he)
    · rcases hold hx with hx | rfl
      · exact hcore.known id (.inr ⟨x, hx, hid⟩)
      · exact .inr (hid ▸ hdelivered)
  · change ((w.emitted ++ [_]).map _).Nodup
    rw [List.map_append]
    refine List.nodup_append.mpr ⟨hcore.once, List.nodup_singleton _, ?_⟩
    rintro id hid id' hid' rfl
    obtain ⟨x, hx, rfl⟩ := List.mem_map.mp hid
    exact hemitted x hx (List.mem_singleton.mp hid')
  · intro e he hnot x hx
    rcases hold hx with hx | rfl
    · exact hcore.unfired e he hnot x hx
    · exact (hqueued e (hcore.queue.subset he)).symm
  · intro e he
    obtain ⟨x, hx, hid⟩ := hcore.sent e he
    exact ⟨x, List.mem_append_left _ hx, hid⟩
  · exact fun e he => (hcore.kept e he).imp_right fun ⟨x, hx, hid⟩ =>
      ⟨x, List.mem_append_left _ hx, hid⟩
  · intro x hx
    rcases hold hx with hx | rfl
    · exact hcore.rule x hx
    · rfl
  · intro x hx hne
    rcases hold hx with hx | rfl
    · exact hcore.gone x hx hne
    · exact hclear
  · obtain ⟨hb, hrest, hdeleting⟩ := h.working a hagent
    exact ⟨⟨hb.queue, hb.tick, hb.due, hb.others⟩, hrest, hdeleting⟩

/-- The deliveries of one message, after its handler went on. -/
theorem Core.eq_setStage (h : Core w fired head finished)
    (hd : w.deliveries[i]? = some d) (stage : Stage) :
    { d with stage := stage } ∈ (w.setStage i d stage).deliveries ∧
      ∀ d' ∈ (w.setStage i d stage).deliveries, d'.message.id = d.message.id →
        d' = { d with stage := stage } := by
  have hids : (w.deliveries.set i { d with stage := stage }).map (fun d => d.message.id) =
      w.deliveries.map fun d => d.message.id := map_set_of_getElem? hd rfl
  have hmem : { d with stage := stage } ∈ (w.setStage i d stage).deliveries :=
    List.mem_set (List.getElem?_eq_some_iff.mp hd).1 _
  exact ⟨hmem, fun d' hd' hid => List.inj_on_of_nodup_map (hids ▸ h.delivered) hd' hmem hid⟩

theorem Sound.handlerStep (h : Sound w) (i : ℕ) (failure : Bool) : Sound (w.handlerStep i failure) := by
  rw [World.handlerStep]
  split
  · exact h
  · next d hd =>
    have hdw : d ∈ w.deliveries := List.mem_of_getElem? hd
    -- a message that could not be stored
    have hreject (hstage : d.stage.Early) : Sound (w.reject i d) := by
      obtain ⟨hrows, hqueued, hemitted⟩ := h.core.early d hdw hstage
      obtain ⟨hmem, huniq⟩ := h.core.eq_setStage hd (.atCommit false)
      have hset : Sound (w.setStage i d (.atCommit false)) := by
        refine h.setStage hd (by rintro ⟨⟩) fun hun => ?_
        rcases hun with hun | hun <;> cases hun
      refine hset.reject hqueued hemitted ⟨_, hmem, rfl⟩ (fun d' hd' hid => ?_) ⟨?_, ?_⟩
      · rw [huniq d' hd' hid]
        exact id
      · exact fun row hrow hid => absurd hid (hrows row hrow)
      · intro d' hd' hid hun
        rw [huniq d' hd' hid] at hun
        rcases hun with hun | hun <;> cases hun
    split
    · next hstage =>
      have hearly : d.stage.Early := hstage ▸ trivial
      split
      · exact hreject hearly
      · split
        · exact h.setStage hd (fun _ => hearly) fun _ => .inr hearly
        · exact h.setStage hd (fun _ => hearly) fun _ => .inr hearly
    · next hstage =>
      have hearly : d.stage.Early := hstage ▸ trivial
      split
      · exact hreject hearly
      · split
        · exact h
        · exact h.setStage hd (fun _ => hearly) fun _ => .inr hearly
    · next wrote hstage =>
      have hearly : d.stage.Early := hstage ▸ trivial
      obtain ⟨-, hqueued, hemitted⟩ := h.core.early d hdw hearly
      obtain ⟨hmem, huniq⟩ := h.core.eq_setStage hd (.atCommit wrote)
      have hset : Sound (w.setStage i d (.atCommit wrote)) :=
        h.setStage hd (by rintro ⟨⟩) fun _ => .inr hearly
      refine hset.push hqueued hemitted ⟨_, hmem, rfl⟩ fun d' hd' hid => ?_
      rw [huniq d' hd' hid]
      exact id
    · exact h
    · exact h

/-- A row is committed. -/
theorem Sound.store (h : Sound w) (hd : w.deliveries[i]? = some d)
    (hstage : d.stage = .atCommit true) :
    Sound { w with retries := w.retries.upsert ⟨d.message, false⟩ } := by
  have hdw : d ∈ w.deliveries := List.mem_of_getElem? hd
  have hcore := h.core
  refine ⟨{ hcore with early := ?_, known := ?_, gone := ?_ }, fun a hagent => ?_⟩
  · intro d' hd' hearly
    obtain ⟨hrows, hrest⟩ := hcore.early d' hd' hearly
    refine ⟨fun row hrow => ?_, hrest⟩
    rcases Table.mem_upsert.mp hrow with ⟨hrow, -⟩ | rfl
    · exact hrows row hrow
    · intro hid
      rw [hcore.eq_delivery hd' hdw hid.symm, hstage] at hearly
      exact hearly
  · intro id hid
    refine (hcore.known id hid).imp_left fun ⟨row, hrow, hrid⟩ => ?_
    by_cases hkey : row.retry.id = d.message.id
    · exact ⟨_, Table.mem_upsert.mpr (.inr rfl), hkey.symm.trans hrid⟩
    · exact ⟨row, Table.mem_upsert.mpr (.inl ⟨hrow, hkey⟩), hrid⟩
  · intro x hx hne
    obtain ⟨hdeleted, hclear⟩ := hcore.gone x hx hne
    refine ⟨fun row hrow hid => ?_, hclear⟩
    rcases Table.mem_upsert.mp hrow with ⟨hrow, -⟩ | rfl
    · exact hdeleted row hrow hid
    · exact absurd (.inr hstage) (hclear d hdw hid)
  · obtain ⟨hb, hrest, hdeleting⟩ := h.working a hagent
    exact ⟨⟨hb.queue, hb.tick, hb.due, hb.others⟩, hrest, hdeleting⟩

theorem Sound.commitStep (h : Sound w) (i : ℕ) (failure : Bool) : Sound (w.commitStep i failure) := by
  rw [World.commitStep]
  split
  · exact h
  · next d hd =>
    have hended {w : World} (h : Sound w) (hd : w.deliveries[i]? = some d) :
        Sound (w.setStage i d .ended) := by
      refine h.setStage hd (by rintro ⟨⟩) fun hun => ?_
      rcases hun with hun | hun <;> cases hun
    split
    · next wrote hstage =>
      split
      · next hwrote =>
        rw [hwrote.1] at hstage
        exact hended (h.store hd hstage) hd
      · exact hended h hd
    · exact h

theorem Sound.deliver (h : Sound w) {message : Retry} (horderly : Orderly w (.deliver message)) :
    Sound (step w (.deliver message)) := by
  obtain ⟨hrows, hother⟩ := horderly
  have hcore := h.core
  have hnew {id : Uuid} (hid : (∃ e ∈ w.queued, e.retry.id = id) ∨ ∃ x ∈ w.emitted, x.retry.id = id) :
      id ≠ message.id := by
    rintro rfl
    rcases hcore.known _ hid with ⟨row, hrow, hid⟩ | ⟨d, hd, hid⟩
    · exact hrows row hrow hid
    · exact hother d hd hid
  have hold {d : Delivery} (hd : d ∈ w.deliveries ++ [⟨message, .atGetById⟩]) :
      d ∈ w.deliveries ∨ d = ⟨message, .atGetById⟩ :=
    (List.mem_append.mp hd).imp_right List.mem_singleton.mp
  have huncommitted {d : Delivery} (hd : d ∈ w.deliveries ++ [⟨message, .atGetById⟩])
      (hun : d.Uncommitted) : d ∈ w.deliveries := by
    refine (hold hd).resolve_right fun heq => ?_
    rw [heq] at hun
    rcases hun with hun | hun <;> cases hun
  refine ⟨{ hcore with delivered := ?_, early := ?_, known := ?_, gone := ?_ }, fun a hagent => ?_⟩
  · change ((w.deliveries ++ [_]).map _).Nodup
    rw [List.map_append]
    refine List.nodup_append.mpr ⟨hcore.delivered, List.nodup_singleton _, ?_⟩
    rintro id hid id' hid' rfl
    obtain ⟨d, hd, rfl⟩ := List.mem_map.mp hid
    exact hother d hd (List.mem_singleton.mp hid')
  · intro d hd hearly
    rcases hold hd with hd | rfl
    · exact hcore.early d hd hearly
    · exact ⟨hrows, fun e he => hnew (.inl ⟨e, he, rfl⟩), fun x hx => hnew (.inr ⟨x, hx, rfl⟩)⟩
  · exact fun id hid => (hcore.known id hid).imp_right fun ⟨d, hd, hid⟩ =>
      ⟨d, List.mem_append_left _ hd, hid⟩
  · intro x hx hne
    obtain ⟨hdeleted, hclear⟩ := hcore.gone x hx hne
    exact ⟨hdeleted, fun d hd hid hun => hclear d (huncommitted hd hun) hid hun⟩
  · obtain ⟨hb, hrest, hdeleting⟩ := h.working a hagent
    refine ⟨⟨hb.queue, hb.tick, hb.due, hb.others⟩, hrest, fun hstage e he d hd hid hun => ?_⟩
    exact hdeleting hstage e he d (huncommitted hd hun) hid hun

/-! ### Runs -/

theorem Sound.step (h : Sound w) {l : Label} (hl : Orderly w l) : Sound (step w l) := by
  cases l with
  | tick now => exact h.tick now
  | agent => exact h.agentStep hl
  | deliver message => exact h.deliver hl
  | handler i failure => exact h.handlerStep i failure
  | commit i failure => exact h.commitStep i failure

theorem map_entries (retries : List Retry) : (entries retries).map Entry.retry = retries := by
  refine List.ext_getElem? fun i => ?_
  rw [entries, List.getElem?_map, List.getElem?_mapIdx]
  cases retries[i]? with
  | none => rfl
  | some retry => rfl

theorem sound_init (retries : Table RetryModel) : Sound (World.init retries) := by
  have hids : ((World.init retries).queued.map fun e => e.retry.id).Nodup := by
    have hmap (l : List Retry) : (entries l).map (fun e => e.retry.id) = l.map Retry.id := by
      conv_rhs => rw [← map_entries l, List.map_map]
      rfl
    change ((entries _).map _).Nodup
    rw [hmap, List.map_map]
    exact retries.nodup.sublist (List.filter_sublist.map _)
  refine ⟨⟨hids, .refl _, List.nodup_nil, fun _ h => absurd h List.not_mem_nil, ?_,
    List.nodup_nil, fun _ _ _ _ h => absurd h List.not_mem_nil,
    fun _ h => absurd h List.not_mem_nil, fun e he => .inl he, ?_,
    fun _ h => absurd h List.not_mem_nil, fun _ h => absurd h List.not_mem_nil⟩,
    fun _ h => by cases h⟩
  · rintro id (⟨e, he, rfl⟩ | ⟨x, hx, -⟩)
    · have hretry : e.retry ∈ (entries _).map Entry.retry := List.mem_map_of_mem he
      rw [map_entries] at hretry
      obtain ⟨row, hrow, heq⟩ := List.mem_map.mp hretry
      exact .inl ⟨row, List.mem_of_mem_filter hrow, congrArg Retry.id heq⟩
    · cases hx
  · intro e _ k now hk
    cases hk

end

/-! A retry whose message is delivered once, and one whose message is delivered again. -/

def sample : Retry := ⟨7, 1, "retry", "fail", 10, 20, "data", by decide⟩

/-- The message is stored and queued, and then fired at the first tick at which it is due. -/
def once : List Label :=
  [.deliver sample, .handler 0 false, .handler 0 false, .handler 0 false, .commit 0 false, .tick 5,
    .tick 12, .agent, .agent, .agent]

/-- The second copy is fired, too. -/
def again : List Label :=
  [.deliver sample, .handler 0 false, .handler 0 false, .handler 0 false, .commit 0 false,
    .deliver sample, .handler 1 false, .handler 1 false, .commit 1 false, .tick 12, .agent, .agent,
    .agent]

end ZroServices.PushRetry
