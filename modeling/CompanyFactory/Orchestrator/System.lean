import CompanyFactory.Orchestrator.Send

/-!
# `Orchestrator.System` — what becomes of a system message

A message without a sender passes no rate limit and no loop detector, so that `system_send` comes down to two
questions about the state before it: does the queue take the message (`takes`), and does the log take the event that
follows (`logs`)?

* `system_send_cases` — the queue holds the message exactly if it takes it, and the result says so **unless the log
  refuses the event**: then the call raises with the message in the queue.
-/

namespace CompanyFactory

open Act

namespace Orchestrator

/-- The gates of a system message. -/
def admits (o : Orchestrator) (req : SendRequest) : Bool :=
  req.content.utf8ByteSize ≤ _MAX_CONTENT_BYTES && is_active o req.to_agent && !is_suspended o req.to_agent &&
    (o.registered req.to_agent).isSome && o.accepting

/-- Does the queue take the message? -/
def takes (o : Orchestrator) (req : SendRequest) : Bool :=
  admits o req && !is_duplicate req o && o.queue.available

/-- Does the log take the event about the message? -/
def logs (o : Orchestrator) (req : SendRequest) : Bool := (EventStore.append (message_sent req)).returns o.events

/-- What a system message can come to. -/
inductive Outcome (o : Orchestrator) (req : SendRequest) : Except Exn SendResult → Orchestrator → Prop where
  | queued (o' : Orchestrator) (htakes : takes o req = true) (hlogs : logs o req = true)
      (hsent : o'.sent = o.sent ++ [new_envelope o req]) : Outcome o req (.ok .QUEUED) o'
  | unlogged (e : Exn) (o' : Orchestrator) (htakes : takes o req = true) (hlogs : logs o req = false)
      (he : e.isException = true) (hsent : o'.sent = o.sent ++ [new_envelope o req]) : Outcome o req (.error e) o'
  | rejected (result : SendResult) (o' : Orchestrator) (htakes : takes o req = false) (hresult : result ≠ .QUEUED)
      (hsent : o'.sent = o.sent) : Outcome o req (.ok result) o'
  | raised (e : Exn) (o' : Orchestrator) (htakes : takes o req = false) (he : e.isException = true)
      (hsent : o'.sent = o.sent) : Outcome o req (.error e) o'

variable {o : Orchestrator} {req : SendRequest}

theorem exception_of_store {e : Exn} (h : e.isStoreError = true) : e.isException = true := by
  cases e <;> first | rfl | cases h

theorem append_run (post : Post) (o : Orchestrator) :
    append post o = (((EventStore.append post o.events).1.map fun _ => ()),
      { o with events := (EventStore.append post o.events).2 }) := by
  show (((EventStore.append post >>= fun _ => pure ()) o.events).1, _) = _
  rw [bind_run]
  rcases EventStore.append post o.events with ⟨_ | _, _⟩ <;> rfl

/-- An event leaves the messages alone, and what it raises is an exception. -/
theorem append_sent (post : Post) (o : Orchestrator) : (append post o).2.sent = o.sent ∧
    ∀ e, (append post o).1 = .error e → e.isException = true := by
  rw [append_run]
  refine ⟨rfl, fun e he => ?_⟩
  obtain ⟨e', herror, hstore, -⟩ | ⟨event, hok, -, -⟩ := EventStore.append_cases post o.events
  · rw [herror] at he
    cases he
    exact exception_of_store hstore
  · rw [hok] at he
    cases he

/-- The push goes through while the backend is there. -/
theorem persist_ok (req : SendRequest) (havailable : o.queue.available = true) : persist req o =
    (.ok (), { o with queue := o.queue.pushed (new_envelope o req), sent := o.sent ++ [new_envelope o req] }) := by
  have hpush : enqueue (new_envelope o req) o =
      (.ok (), { o with queue := o.queue.pushed (new_envelope o req), sent := o.sent ++ [new_envelope o req] }) := by
    unfold enqueue InMemoryMessageQueue.push
    rw [havailable]
    rfl
  show after_push req (enqueue (new_envelope o req) o).1 (enqueue (new_envelope o req) o).2 = _
  rw [hpush]
  rfl

/-- The push, with what follows it. -/
theorem persist_cases (o : Orchestrator) (req : SendRequest) :
    (o.queue.available = true ∧ ∃ queue, persist req o =
      (.ok (), { o with queue, sent := o.sent ++ [new_envelope o req] })) ∨
    (o.queue.available = false ∧ ∃ e o', persist req o = (.error e, o') ∧ e.isException = true ∧
      o'.sent = o.sent) := by
  cases havailable : o.queue.available with
  | true => exact .inl ⟨rfl, _, persist_ok req havailable⟩
  | false =>
      have hpush : enqueue (new_envelope o req) o = (.error (.redisUnavailable "queue offline"), o) := by
        unfold enqueue InMemoryMessageQueue.push
        rw [havailable]
        rfl
      refine .inr ⟨rfl, ?_⟩
      have hrun : persist req o = after_push req (enqueue (new_envelope o req) o).1
          (enqueue (new_envelope o req) o).2 := rfl
      rw [hrun, hpush, after_push, bind_run]
      obtain ⟨hsent, hexn⟩ := append_sent (health_alert req.to_agent "warn" "queue_unavailable" req.from_agent) o
      rcases happend : append (health_alert req.to_agent "warn" "queue_unavailable" req.from_agent) o with ⟨r, o'⟩
      rw [happend] at hsent hexn
      cases r with
      | error e => exact ⟨e, o', rfl, hexn e rfl, hsent⟩
      | ok _ => exact ⟨_, o', rfl, rfl, hsent⟩

/-- The last two steps of a message that the gates admit. -/
theorem deliver_to_queue_cases (hadmits : admits o req = true) :
    Outcome o req (deliver_to_queue req o).1 (deliver_to_queue req o).2 := by
  rw [deliver_to_queue, read_bind]
  cases hduplicate : is_duplicate req o with
  | true => exact .rejected _ o (by simp [takes, hduplicate]) (by decide) rfl
  | false =>
      rw [if_neg (by simp)]
      obtain ⟨havailable, queue, hrun⟩ | ⟨hoffline, e, o', hrun, he, hsent⟩ := persist_cases o req
      · have htakes : takes o req = true := by simp [takes, hadmits, hduplicate, havailable]
        rw [bind_of_ok hrun, bind_run, append_run]
        have hlogs : logs o req = (EventStore.append (message_sent req) o.events).1.isOk := rfl
        rcases hlog : (EventStore.append (message_sent req) o.events).1 with e | event
        · rw [hlog] at hlogs
          refine .unlogged e _ htakes hlogs ?_ rfl
          obtain ⟨e', herror, hstore, -⟩ | ⟨event, hok, -, -⟩ :=
            EventStore.append_cases (message_sent req) o.events
          · rw [hlog] at herror
            cases herror
            exact exception_of_store hstore
          · rw [hlog] at hok
            cases hok
        · rw [hlog] at hlogs
          exact .queued _ htakes hlogs rfl
      · rw [bind_of_error hrun]
        exact .raised e o' (by simp [takes, hoffline]) he hsent

/-- A system message that the gates refuse changes nothing, and nobody is told. -/
theorem system_send_refused (hsender : req.from_agent = none) (hno : admits o req = false) :
    ∃ result, result ≠ .QUEUED ∧ system_send req o = (.ok result, o) := by
  rw [system_send, send_with, read_bind, id]
  split
  · exact ⟨_, by decide, rfl⟩
  · rename_i hfits
    split
    · exact ⟨_, by decide, rfl⟩
    · split
      · rw [reject_recipient, hsender]
        exact ⟨_, by decide, rfl⟩
      · rename_i hvalid
        split
        · exact ⟨_, by decide, rfl⟩
        · rename_i hregistered
          split
          · exact ⟨_, by decide, rfl⟩
          · rename_i hrunning
            -- all the gates are passed
            cases hreg : o.registered req.to_agent with
            | none => rw [hreg] at hregistered; exact absurd rfl hregistered
            | some _ =>
                simp only [Bool.or_eq_true, Bool.not_eq_true', not_or, Bool.not_eq_false, Bool.not_eq_true]
                  at hvalid hrunning
                simp [admits, Nat.le_of_not_lt hfits, hvalid.1, hvalid.2, hreg, hrunning] at hno

/-- A system message that the gates admit goes to the queue. -/
theorem system_send_admitted (hsystem : req.system = true) (hsender : req.from_agent = none)
    (hadmits : admits o req = true) : system_send req o = deliver_to_queue req o := by
  unfold admits at hadmits
  simp only [Bool.and_eq_true, Bool.not_eq_true', decide_eq_true_eq] at hadmits
  obtain ⟨⟨⟨⟨hfits, hactive⟩, hsuspended⟩, hregistered⟩, haccepting⟩ := hadmits
  have hknown : (o.registered req.to_agent).isNone = false := by rw [← Option.not_isSome, hregistered]; rfl
  rw [system_send, send_with, read_bind, id, if_neg (Nat.not_lt.mpr hfits), hsender, hactive, hsuspended, hknown,
    haccepting, past_rate, hsystem]
  rfl

/-- **What a system message comes to.** -/
theorem system_send_cases (o : Orchestrator) (hsystem : req.system = true) (hsender : req.from_agent = none) :
    Outcome o req (system_send req o).1 (system_send req o).2 := by
  cases hadmits : admits o req with
  | true =>
      rw [system_send_admitted hsystem hsender hadmits]
      exact deliver_to_queue_cases hadmits
  | false =>
      obtain ⟨result, hresult, hrun⟩ := system_send_refused hsender hadmits
      rw [hrun]
      exact .rejected result o (by simp [takes, hadmits]) hresult rfl

end Orchestrator

end CompanyFactory
