import CompanyFactory.Orchestrator.Traffic

/-!
# `Orchestrator.Course` — the ways through a send

`send_with` asks its gates one after the other. There are five ways through it, and each of them says where the send
was stopped and in which state it ends.

* `send_with_course` — the five ways.
* `deliver_to_queue_run` — the last two steps: a duplicate, a queue that is offline, or a push and its event.
* `system_send_run` — a system message is stopped by a gate, or goes straight to the last two steps.
-/

namespace CompanyFactory

open Act

namespace Orchestrator

/-- The gates that every message passes. -/
def gates (o : Orchestrator) (req : SendRequest) : Bool := admits o req && req.from_agent.all (is_active o)

/-- The notification to the sender, if the recipient is not active or is suspended. -/
def undeliverable (o : Orchestrator) (req : SendRequest) : Option SendRequest :=
  if req.content.utf8ByteSize ≤ _MAX_CONTENT_BYTES ∧ req.from_agent.all (is_active o) ∧
      (!is_active o req.to_agent || is_suspended o req.to_agent) then
    req.from_agent.map (not_deliverable req)
  else none

/-- The state after the rate limit of the sender. -/
def charged (o : Orchestrator) (req : SendRequest) : Orchestrator :=
  { o with rate := (o.rate.try_consume (or_else req.from_agent "?") req.monotonic).2 }

/-- The state after the rate limit and the loop detector. -/
def checked (o : Orchestrator) (req : SendRequest) : Orchestrator :=
  { charged o req with loops := (o.loops.check req.from_agent req.to_agent req.content).2 }

/-- The state in which a message goes to the queue; a system message has passed no limits. -/
def past (o : Orchestrator) (req : SendRequest) : Orchestrator := if req.system then o else checked o req

/-- **A way through a send**, with its result and the state at its end. -/
inductive Course (notify : SendRequest → Act Orchestrator Exn SendResult) (o : Orchestrator) (req : SendRequest) :
    Except Exn SendResult → Orchestrator → Prop where
  /-- a gate stops the message, and nobody is told -/
  | stopped (result : SendResult) (hresult : result ≠ .QUEUED) (hgates : gates o req = false)
      (hnotice : undeliverable o req = none) : Course notify o req (.ok result) o
  /-- the recipient cannot be reached, and the sender is told -/
  | refused (notice : SendRequest) (r : Except Exn SendResult) (hr : r ≠ .ok .QUEUED) (hgates : gates o req = false)
      (hnotice : undeliverable o req = some notice) : Course notify o req r (notify notice o).2
  /-- the sender is over its rate limit, and is told -/
  | limited (r : Except Exn SendResult) (hr : r ≠ .ok .QUEUED) (hgates : gates o req = true)
      (hsystem : req.system = false)
      (htaken : (o.rate.try_consume (or_else req.from_agent "?") req.monotonic).1 = false) :
      Course notify o req r (notify (slow_down req) (charged o req)).2
  /-- the loop detector flags the message -/
  | looped (kind : String) (r : Except Exn SendResult) (hr : r ≠ .ok .QUEUED) (hgates : gates o req = true)
      (hsystem : req.system = false)
      (htaken : (o.rate.try_consume (or_else req.from_agent "?") req.monotonic).1 = true)
      (hlooped : (o.loops.check req.from_agent req.to_agent req.content).1 = some kind) :
      Course notify o req r (handle_loop req.to_agent kind (checked o req)).2
  /-- the message goes to the queue -/
  | delivered (hgates : gates o req = true) (hlimits : past_limits o req = true) :
      Course notify o req (deliver_to_queue req (past o req)).1 (deliver_to_queue req (past o req)).2

variable {o : Orchestrator} {req : SendRequest} {notify : SendRequest → Act Orchestrator Exn SendResult}

/-! ## The five ways -/

/-- A computation that ends in a rejection does not return `QUEUED`, and the rejection writes nothing. -/
theorem rejected_after {α : Type} (m : Act Orchestrator Exn α) (result : SendResult) (h : result ≠ .QUEUED)
    (o : Orchestrator) : ((do let _ ← m; pure result : Act Orchestrator Exn SendResult) o).1 ≠ .ok .QUEUED ∧
      ((do let _ ← m; pure result : Act Orchestrator Exn SendResult) o).2 = (m o).2 := by
  refine ⟨bind_ne_ok fun _ _ heq => h (Except.ok.inj heq), ?_⟩
  exact bind_pure_state m _ o

theorem after_notice_ne (noticed : Except Exn SendResult) {result : SendResult} (h : result ≠ .QUEUED)
    (o : Orchestrator) : (after_notice noticed result o).1 ≠ .ok .QUEUED := by
  cases noticed with
  | ok _ => exact fun heq => h (Except.ok.inj heq)
  | error e =>
      rw [after_notice]
      split
      · exact fun heq => h (Except.ok.inj heq)
      · intro heq
        cases heq

/-- Steps 5 to 8. -/
theorem past_rate_course (hgates : gates o req = true) :
    Course notify o req (past_rate notify req o).1 (past_rate notify req o).2 := by
  unfold past_rate
  cases hsystem : req.system with
  | true =>
      have hpast : past o req = o := by rw [past, if_pos hsystem]
      have hlimits : past_limits o req = true := by rw [past_limits, hsystem, Bool.true_or]
      have hcourse : Course notify o req (deliver_to_queue req (past o req)).1 (deliver_to_queue req (past o req)).2 :=
        .delivered hgates hlimits
      rw [hpast] at hcourse
      exact hcourse
  | false =>
      have hconsume : consume_token req o =
          (.ok (o.rate.try_consume (or_else req.from_agent "?") req.monotonic).1, charged o req) := rfl
      rw [if_neg Bool.false_ne_true, bind_of_ok hconsume]
      cases htaken : (o.rate.try_consume (or_else req.from_agent "?") req.monotonic).1 with
      | false =>
          rw [if_neg Bool.false_ne_true, attempt_bind, after_notice_state]
          exact .limited _ (after_notice_ne _ (by decide) _) hgates hsystem htaken
      | true =>
          have hcheck : check_loop req (charged o req) =
              (.ok (o.loops.check req.from_agent req.to_agent req.content).1, checked o req) := rfl
          rw [if_pos rfl, past_loops, bind_of_ok hcheck]
          cases hlooped : (o.loops.check req.from_agent req.to_agent req.content).1 with
          | some kind =>
              obtain ⟨hne, hstate⟩ := rejected_after (handle_loop req.to_agent kind)
                .REJECTED_LOOP (by decide) (checked o req)
              dsimp only
              rw [hstate]
              exact .looped kind _ hne hgates hsystem htaken hlooped
          | none =>
              have hpast : past o req = checked o req := by rw [past, hsystem, if_neg Bool.false_ne_true]
              have hlimits : past_limits o req = true := by
                rw [past_limits, hsystem, htaken, hlooped]
                rfl
              have hcourse : Course notify o req (deliver_to_queue req (past o req)).1
                  (deliver_to_queue req (past o req)).2 :=
                .delivered hgates hlimits
              rw [hpast] at hcourse
              exact hcourse

/-- **The ways through a send.** -/
theorem send_with_course (notify : SendRequest → Act Orchestrator Exn SendResult) (o : Orchestrator)
    (req : SendRequest) : Course notify o req (send_with notify req o).1 (send_with notify req o).2 := by
  rw [send_with, read_bind, id]
  split
  · next hlarge =>
      have hsize : ¬ req.content.utf8ByteSize ≤ _MAX_CONTENT_BYTES := Nat.not_le_of_lt hlarge
      exact .stopped _ (by decide) (by simp [gates, admits, hsize]) (by simp [undeliverable, hsize])
  · next hfits =>
      have hsize : req.content.utf8ByteSize ≤ _MAX_CONTENT_BYTES := Nat.le_of_not_lt hfits
      split
      · next hinactive =>
          have hsender : req.from_agent.all (is_active o) = false := by simpa using hinactive
          exact .stopped _ (by decide) (by simp [gates, hsender]) (by simp [undeliverable, hsender])
      · next hactive =>
          have hsender : req.from_agent.all (is_active o) = true := by simpa using hactive
          split
          -- the only gate that notifies the sender
          · next hinvalid =>
              have hgates : gates o req = false := by
                rcases Bool.or_eq_true_iff.mp hinvalid with hgone | hsuspended
                · have hgone : is_active o req.to_agent = false := by simpa using hgone
                  simp [gates, admits, hgone]
                · simp [gates, admits, hsuspended]
              have hnotice : undeliverable o req = req.from_agent.map (not_deliverable req) :=
                if_pos ⟨hsize, hsender, hinvalid⟩
              cases hfrom : req.from_agent with
              | none =>
                  rw [reject_recipient, hfrom]
                  exact .stopped _ (by decide) hgates (by rw [hnotice, hfrom]; rfl)
              | some sender =>
                  obtain ⟨hne, hstate⟩ := rejected_after (notify (not_deliverable req sender))
                    .REJECTED_INVALID_TARGET (by decide) o
                  rw [reject_recipient, hfrom]
                  dsimp only
                  rw [hstate]
                  exact .refused _ _ hne hgates (by rw [hnotice, hfrom]; rfl)
          · next hvalid =>
              have hrecipient : is_active o req.to_agent = true ∧ is_suspended o req.to_agent = false := by
                simpa using hvalid
              have hnotice : undeliverable o req = none := by
                rw [undeliverable, if_neg]
                rintro ⟨-, -, hinvalid⟩
                exact hvalid hinvalid
              split
              · next hunknown =>
                  have hregistered : o.registered req.to_agent = none := by simpa using hunknown
                  exact .stopped _ (by decide) (by simp [gates, admits, hregistered]) hnotice
              · next hregistered =>
                  split
                  · next hpaused =>
                      have haccepting : o.accepting = false := by simpa using hpaused
                      exact .stopped _ (by decide) (by simp [gates, admits, haccepting]) hnotice
                  -- all gates are open
                  · next hrunning =>
                      refine past_rate_course ?_
                      have haccepting : o.accepting = true := by simpa using hrunning
                      have hknown : (o.registered req.to_agent).isSome = true := by
                        cases hreg : o.registered req.to_agent with
                        | none => rw [hreg] at hregistered; exact absurd rfl hregistered
                        | some _ => rfl
                      simp [gates, admits, hsize, hsender, hrecipient, hknown, haccepting]

theorem send_course (o : Orchestrator) (req : SendRequest) :
    Course system_send o req (send req o).1 (send req o).2 := send_with_course system_send o req

/-! ## The last two steps -/

/-- The state after the push of the message. -/
def enqueued (o : Orchestrator) (req : SendRequest) : Orchestrator :=
  { o with queue := o.queue.pushed (new_envelope o req), sent := o.sent ++ [new_envelope o req] }

/-- The state after an event. -/
def noted (post : Post) (o : Orchestrator) : Orchestrator :=
  { o with events := (EventStore.append post o.events).2 }

theorem persist_of_available (h : o.queue.available = true) : persist req o = (.ok (), enqueued o req) := by
  have hpush : enqueue (new_envelope o req) o = (.ok (), enqueued o req) := by
    unfold enqueue InMemoryMessageQueue.push
    rw [h]
    rfl
  show after_push req (enqueue (new_envelope o req) o).1 (enqueue (new_envelope o req) o).2 = _
  rw [hpush]
  rfl

/-- The alert about a queue that is offline. -/
def queue_alert (req : SendRequest) : Post := health_alert req.to_agent "warn" "queue_unavailable" req.from_agent

theorem persist_of_offline (req : SendRequest) (h : o.queue.available = false) :
    ∃ e, persist req o = (.error e, noted (queue_alert req) o) := by
  have hpush : enqueue (new_envelope o req) o = (.error (.redisUnavailable "queue offline"), o) := by
    unfold enqueue InMemoryMessageQueue.push
    rw [h]
    rfl
  have hrun : persist req o = after_push req (enqueue (new_envelope o req) o).1
      (enqueue (new_envelope o req) o).2 := rfl
  rw [hrun, hpush, after_push, bind_run, append_run]
  unfold noted queue_alert
  cases (EventStore.append (health_alert req.to_agent "warn" "queue_unavailable" req.from_agent) o.events).1 with
  | error e => exact ⟨e, rfl⟩
  | ok _ => exact ⟨_, rfl⟩

theorem deliver_to_queue_of_duplicate (h : is_duplicate req o = true) :
    deliver_to_queue req o = (.ok .REJECTED_DUPLICATE, o) := by
  rw [deliver_to_queue, read_bind, if_pos h]
  rfl

theorem deliver_to_queue_of_offline (hnew : is_duplicate req o = false) (h : o.queue.available = false) :
    ∃ e, deliver_to_queue req o = (.error e, noted (queue_alert req) o) := by
  obtain ⟨e, hrun⟩ := persist_of_offline req h
  rw [deliver_to_queue, read_bind, if_neg (by rw [hnew]; exact Bool.false_ne_true), bind_of_error hrun]
  exact ⟨e, rfl⟩

/-- The push, and then the event: the result is the one of the event, and the push stays in any case. -/
theorem deliver_to_queue_of_available (hnew : is_duplicate req o = false) (h : o.queue.available = true) :
    deliver_to_queue req o = ((EventStore.append (message_sent req) o.events).1.map fun _ => .QUEUED,
      noted (message_sent req) (enqueued o req)) := by
  rw [deliver_to_queue, read_bind, if_neg (by rw [hnew]; exact Bool.false_ne_true), bind_of_ok (persist_of_available h),
    bind_run, append_run]
  have hevents : (enqueued o req).events = o.events := rfl
  rw [hevents]
  unfold noted
  rw [hevents]
  cases (EventStore.append (message_sent req) o.events).1 with
  | error e => rfl
  | ok _ => rfl

/-! ## System messages -/

/-- **A system message** is stopped by a gate, without a trace, or goes straight to the last two steps. -/
theorem system_send_run (o : Orchestrator) (req : SendRequest) (hsystem : req.system = true)
    (hsender : req.from_agent = none) :
    (gates o req = false ∧ ∃ result, result ≠ .QUEUED ∧ system_send req o = (.ok result, o)) ∨
      (gates o req = true ∧ system_send req o = deliver_to_queue req o) := by
  have hcourse : Course (fun _ => pure .REJECTED_INVALID_TARGET) o req (system_send req o).1 (system_send req o).2 :=
    send_with_course _ o req
  rcases hrun : system_send req o with ⟨r, o'⟩
  rw [hrun] at hcourse
  cases hcourse with
  | stopped result hresult hgates _ => exact .inl ⟨hgates, result, hresult, rfl⟩
  | refused notice _ _ _ hnotice =>
      rw [undeliverable, hsender] at hnotice
      split at hnotice <;> cases hnotice
  | limited _ _ _ hlimited _ => exact absurd hsystem (by rw [hlimited]; exact Bool.false_ne_true)
  | looped _ _ _ _ hlimited _ _ => exact absurd hsystem (by rw [hlimited]; exact Bool.false_ne_true)
  | delivered hgates _ =>
      have hpast : past o req = o := by rw [past, if_pos hsystem]
      rw [hpast]
      exact .inr ⟨hgates, rfl⟩

end Orchestrator

end CompanyFactory
