import CompanyFactory.Orchestrator.Custody
import CompanyFactory.Orchestrator.System

/-!
# `Orchestrator.Traffic` — what one step queues, and what it dispatches

For every step of the orchestrator: which envelopes the queue takes, and which deliveries begin.

* `send_queues_exactly` — a send queues its message exactly if the orchestrator `accepts` it; whatever else it
  queues is a notification, which has no sender. No other step queues anything (`step_sent`).
* `begun_iff` — a delivery begins exactly when a consumer that goes on, or a drain, finds an envelope.
-/

namespace CompanyFactory

open Act

namespace Orchestrator

/-! ## What is queued -/

/-- The rate limit of the sender and the loop detector, which a system message does not pass through. -/
def past_limits (o : Orchestrator) (req : SendRequest) : Bool :=
  req.system || ((o.rate.try_consume (or_else req.from_agent "?") req.monotonic).1 &&
    (o.loops.check req.from_agent req.to_agent req.content).1.isNone)

/-- Does the queue take the message of the request? -/
def accepts (o : Orchestrator) (req : SendRequest) : Bool :=
  takes o req && req.from_agent.all (is_active o) && past_limits o req

/-- The message was queued, or nothing but notifications were. -/
def QueuesExactly (o : Orchestrator) (req : SendRequest) (accepted : Bool) (o' : Orchestrator) : Prop :=
  if accepted then o'.sent = o.sent ++ [new_envelope o req]
  else ∃ notices, o'.sent = o.sent ++ notices ∧ ∀ env ∈ notices, env.from_agent = none

/-- The computation queues nothing. -/
def SameSent (o o' : Orchestrator) : Prop := o'.sent = o.sent

variable {o : Orchestrator} {req : SendRequest}

theorem SameSent.refl (o : Orchestrator) : SameSent o o := rfl

theorem SameSent.trans (o o' o'' : Orchestrator) (h : SameSent o o') (h' : SameSent o' o'') : SameSent o o'' :=
  Eq.trans h' h

theorem QueuesExactly.none {o' : Orchestrator} (h : o'.sent = o.sent) : QueuesExactly o req false o' :=
  ⟨[], by rw [h, List.append_nil], fun _ hmem => absurd hmem List.not_mem_nil⟩

theorem notify_manager_suspended_sent (agent_id : String) : Moves SameSent (notify_manager_suspended agent_id) := by
  refine .bind SameSent.trans (.read SameSent.refl _) fun manager => ?_
  cases manager with
  | none => exact .pure SameSent.refl _
  | some _ => exact fun o => (append_sent _ o).1

theorem handle_loop_sent (agent_id kind : String) : Moves SameSent (handle_loop agent_id kind) := by
  refine .bind SameSent.trans (.write fun _ => rfl) fun _ => ?_
  refine .bind SameSent.trans (fun o => (append_sent _ o).1) fun _ => ?_
  refine .bind SameSent.trans (.read SameSent.refl _) fun strikes => .ite ?_ (.pure SameSent.refl _)
  exact .bind SameSent.trans (.write fun _ => rfl) fun _ => notify_manager_suspended_sent _

theorem suspend_sent (agent_id reason : String) : Moves SameSent (suspend agent_id reason) := by
  refine .bind SameSent.trans (.read SameSent.refl _) fun suspended => .ite (.pure SameSent.refl _) ?_
  refine .bind SameSent.trans (.write fun _ => rfl) fun _ => ?_
  exact .bind SameSent.trans (fun o => (append_sent _ o).1) fun _ => notify_manager_suspended_sent _

/-- Steps 7 and 8. -/
theorem deliver_to_queue_exactly (o : Orchestrator) (req : SendRequest) :
    QueuesExactly o req (!is_duplicate req o && o.queue.available) (deliver_to_queue req o).2 := by
  rw [deliver_to_queue, read_bind]
  cases hduplicate : is_duplicate req o with
  | true => exact .none rfl
  | false =>
      rw [if_neg (by decide)]
      obtain ⟨havailable, queue, hrun⟩ | ⟨hoffline, e, o', hrun, -, hsent⟩ := persist_cases o req
      · rw [havailable, bind_of_ok hrun]
        show (_ : Orchestrator).sent = _
        rw [bind_pure_state (append (message_sent req))]
        exact (append_sent _ _).1
      · rw [hoffline, bind_of_error hrun]
        exact .none hsent

/-- Step 6 and what follows: the detector changes nothing that the queue asks for. -/
theorem past_loops_exactly (o : Orchestrator) (req : SendRequest) :
    QueuesExactly o req ((o.loops.check req.from_agent req.to_agent req.content).1.isNone &&
      (!is_duplicate req o && o.queue.available)) (past_loops req o).2 := by
  have hrun : check_loop req o = (.ok (o.loops.check req.from_agent req.to_agent req.content).1,
      { o with loops := (o.loops.check req.from_agent req.to_agent req.content).2 }) := rfl
  have hnext := deliver_to_queue_exactly
    { o with loops := (o.loops.check req.from_agent req.to_agent req.content).2 } req
  rw [past_loops, bind_of_ok hrun]
  cases (o.loops.check req.from_agent req.to_agent req.content).1 with
  | none => exact hnext
  | some kind =>
      refine .none ?_
      rw [bind_pure_state (handle_loop req.to_agent kind)]
      exact handle_loop_sent _ _ _

/-- A notification is a system message, and queues at most itself. -/
theorem notice_sent (notice : SendRequest) (hsystem : notice.system = true) (hsender : notice.from_agent = none)
    (o : Orchestrator) :
    ∃ notices, (system_send notice o).2.sent = o.sent ++ notices ∧ ∀ env ∈ notices, env.from_agent = none := by
  have hcases : Outcome o notice _ _ := system_send_cases o hsystem hsender
  have hone : ∀ env ∈ [new_envelope o notice], env.from_agent = none := by
    intro env hmem
    rw [List.mem_singleton.mp hmem]
    exact hsender
  generalize system_send notice o = sent at hcases ⊢
  obtain ⟨result, o'⟩ := sent
  cases hcases with
  | queued _ _ _ hsent => exact ⟨_, hsent, hone⟩
  | unlogged _ _ _ _ _ hsent => exact ⟨_, hsent, hone⟩
  | rejected _ _ _ _ hsent => exact ⟨[], by rw [hsent, List.append_nil], fun _ h => absurd h List.not_mem_nil⟩
  | raised _ _ _ _ hsent => exact ⟨[], by rw [hsent, List.append_nil], fun _ h => absurd h List.not_mem_nil⟩

theorem after_notice_state {α : Type} (noticed : Except Exn SendResult) (result : α) (o : Orchestrator) :
    (after_notice noticed result o).2 = o := by
  cases noticed with
  | ok _ => rfl
  | error e =>
      rw [after_notice]
      split <;> rfl

/-- Step 5 and what follows. -/
theorem past_rate_exactly (o : Orchestrator) (req : SendRequest) :
    QueuesExactly o req (past_limits o req && (!is_duplicate req o && o.queue.available))
      (past_rate system_send req o).2 := by
  unfold past_rate past_limits
  cases hsystem : req.system with
  | true => exact deliver_to_queue_exactly o req
  | false =>
      rw [if_neg (by decide)]
      have hrun : consume_token req o = (.ok (o.rate.try_consume (or_else req.from_agent "?") req.monotonic).1,
          { o with rate := (o.rate.try_consume (or_else req.from_agent "?") req.monotonic).2 }) := rfl
      have hnext := past_loops_exactly
        { o with rate := (o.rate.try_consume (or_else req.from_agent "?") req.monotonic).2 } req
      rw [bind_of_ok hrun]
      cases (o.rate.try_consume (or_else req.from_agent "?") req.monotonic).1 with
      | true =>
          rw [if_pos rfl, Bool.false_or, Bool.true_and]
          exact hnext
      | false =>
          rw [if_neg (by decide)]
          obtain ⟨notices, hsent, hnotices⟩ := notice_sent (slow_down req) rfl rfl
            { o with rate := (o.rate.try_consume (or_else req.from_agent "?") req.monotonic).2 }
          refine ⟨notices, ?_, hnotices⟩
          rw [attempt_bind, after_notice_state, hsent]

/-- **What a send queues.** -/
theorem send_queues_exactly (o : Orchestrator) (req : SendRequest) :
    QueuesExactly o req (accepts o req) (send req o).2 := by
  have hstop : ∀ result, accepts o req = false →
      QueuesExactly o req (accepts o req) ((pure result : Act Orchestrator Exn SendResult) o).2 := by
    intro result hno
    rw [hno]
    exact .none rfl
  rw [send, send_with, read_bind, id]
  split
  · rename_i hlarge
    exact hstop _ (by simp [accepts, takes, admits, Nat.not_le_of_lt hlarge])
  · rename_i hfits
    split
    · rename_i hinactive
      have hsender : req.from_agent.all (is_active o) = false := by simpa using hinactive
      exact hstop _ (by simp [accepts, hsender])
    · rename_i hactive
      have hsender : req.from_agent.all (is_active o) = true := by simpa using hactive
      split
      · rename_i hrefused
        have hno : accepts o req = false := by
          rcases Bool.or_eq_true_iff.mp hrefused with hinactive | hsuspended
          · have hgone : is_active o req.to_agent = false := by simpa using hinactive
            simp [accepts, takes, admits, hgone]
          · simp [accepts, takes, admits, hsuspended]
        cases hfrom : req.from_agent with
        | none =>
            rw [reject_recipient, hfrom]
            exact hstop _ hno
        | some sender =>
            rw [reject_recipient, hfrom, hno]
            obtain ⟨notices, hsent, hnotices⟩ := notice_sent (not_deliverable req sender) rfl rfl o
            refine ⟨notices, ?_, hnotices⟩
            rw [← hsent]
            exact congrArg Orchestrator.sent (bind_pure_state (system_send (not_deliverable req sender)) _ o)
      · rename_i hvalid
        have hrecipient : is_active o req.to_agent = true ∧ is_suspended o req.to_agent = false := by
          simpa using hvalid
        cases hregistered : o.registered req.to_agent with
        | none => exact hstop _ (by simp [accepts, takes, admits, hregistered])
        | some agent =>
            rw [Option.isNone_some, if_neg Bool.false_ne_true]
            cases haccepting : o.accepting with
            | false => exact hstop _ (by simp [accepts, takes, admits, haccepting])
            | true =>
                rw [if_neg (by decide)]
                have hall : accepts o req =
                    (past_limits o req && (!is_duplicate req o && o.queue.available)) := by
                  unfold accepts takes admits
                  rw [hsender, hrecipient.1, hrecipient.2, hregistered, haccepting,
                    decide_eq_true (Nat.le_of_not_lt hfits)]
                  cases past_limits o req <;> cases is_duplicate req o <;> cases o.queue.available <;> rfl
                rw [hall]
                exact past_rate_exactly o req

/-- Nothing was sent, delivered or given up. -/
structure SameRecords (o o' : Orchestrator) : Prop where
  sent : o'.sent = o.sent
  delivered : o'.delivered = o.delivered
  dlq : o'.queue.dlq = o.queue.dlq

/-- An envelope that is pushed back was queued before, and is no task's business. -/
theorem push_back_same {env : MessageEnvelope} {o o' : Orchestrator} (h : push_back env o = some o') :
    SameRecords o o' ∧ o'.tasks = o.tasks := by
  unfold push_back InMemoryMessageQueue.push at h
  cases havailable : o.queue.available with
  | true =>
      rw [havailable] at h
      cases h
      exact ⟨⟨rfl, rfl, rfl⟩, rfl⟩
  | false =>
      rw [havailable] at h
      cases h

theorem pop_records {agent_id : String} {env : MessageEnvelope} {queue : InMemoryMessageQueue} {o : Orchestrator}
    (h : o.queue.pop agent_id = (some env, queue)) : SameRecords o { o with queue } := by
  refine ⟨rfl, rfl, ?_⟩
  show queue.dlq = _
  rw [(InMemoryMessageQueue.pop_some h).2, InMemoryMessageQueue.popped_dlq]

theorem SameRecords.trans {o o' o'' : Orchestrator} (h : SameRecords o o') (h' : SameRecords o' o'') :
    SameRecords o o'' := ⟨h'.sent.trans h.sent, h'.delivered.trans h.delivered, h'.dlq.trans h.dlq⟩

theorem take_up_records (n : Nat) (task : ConsumerTask) (env : MessageEnvelope) (o : Orchestrator) :
    SameRecords o (take_up n task env o) := by
  unfold take_up
  split
  · exact ⟨rfl, rfl, rfl⟩
  · split
    · cases hback : push_back env o with
      | none => exact ⟨rfl, rfl, rfl⟩
      | some o' => exact (push_back_same hback).1
    · exact ⟨rfl, rfl, rfl⟩

theorem poll_records (n : Nat) (o : Orchestrator) : SameRecords o (poll n o) := by
  unfold poll take_next
  split
  · exact ⟨rfl, rfl, rfl⟩
  · split
    · exact ⟨rfl, rfl, rfl⟩
    · split
      · exact ⟨rfl, rfl, rfl⟩
      · split
        · exact ⟨rfl, rfl, rfl⟩
        · rename_i hpop
          exact (pop_records hpop).trans (take_up_records _ _ _ _)

theorem drain_records (agent : AgentHandle) (o : Orchestrator) : SameRecords o (drain agent o) := by
  unfold drain drain_up
  split
  · exact ⟨rfl, rfl, rfl⟩
  · rename_i env queue hpop
    have htaken := pop_records hpop
    split
    · cases hback : push_back env { o with queue } with
      | none => exact htaken
      | some o' => exact htaken.trans (push_back_same hback).1
    · exact htaken.trans ⟨rfl, rfl, rfl⟩

theorem deliver_ends_sent (n : Nat) (outcome : Except Exn Unit) (now : Time) (o : Orchestrator) :
    (deliver_ends n outcome now o).sent = o.sent := by
  have hretry : ∀ task env e, (retry n task env e now o).sent = o.sent := by
    intro task env e
    unfold retry
    split
    · rfl
    · cases hback : push_back env.bumped o with
      | none => rfl
      | some o' => exact (push_back_same hback).1.sent
  unfold deliver_ends end_delivery
  split
  · rfl
  · split
    · split
      · rfl
      · split
        · exact hretry _ _ _
        · rfl
    · rfl

/-- **Only a send queues anything.** -/
theorem step_sent {label : Label} (hlabel : ∀ req, label ≠ .send req) (o : Orchestrator) :
    (step o label).sent = o.sent := by
  cases label with
  | send req => exact absurd rfl (hlabel req)
  | start => exact (start_same o).2
  | stop_ends k => exact (stop_ends_same k o).2
  | poll n => exact (poll_records n o).sent
  | deliver_ends n outcome now => exact deliver_ends_sent n outcome now o
  | drain agent => exact (drain_records agent o).sent
  | suspend agent_id reason => exact suspend_sent agent_id reason o
  | publish post => exact (append_sent post o).1
  | register | unregister | stop | resume | clock | set_available | hire_or_fire | configure_rate_limit => rfl

/-- What a send leaves of the records. -/
theorem records_respects : Respects (fun o o' => o'.delivered = o.delivered ∧ o'.queue.dlq = o.queue.dlq) where
  refl := fun _ => ⟨rfl, rfl⟩
  trans := fun _ _ _ h h' => ⟨h'.1.trans h.1, h'.2.trans h.2⟩
  gates := fun _ _ _ _ _ _ => ⟨rfl, rfl⟩
  push := by
    intro o req
    unfold enqueue InMemoryMessageQueue.push
    cases o.queue.available <;> exact ⟨rfl, rfl⟩

/-- **Only the end of a delivery delivers or gives up anything.** -/
theorem step_records {label : Label} (hlabel : ∀ n outcome now, label ≠ .deliver_ends n outcome now)
    (o : Orchestrator) :
    (step o label).delivered = o.delivered ∧ (step o label).queue.dlq = o.queue.dlq := by
  have hsame : ∀ {o' : Orchestrator}, SameRecords o o' → o'.delivered = o.delivered ∧ o'.queue.dlq = o.queue.dlq :=
    fun h => ⟨h.delivered, h.dlq⟩
  cases label with
  | deliver_ends n outcome now => exact absurd rfl (hlabel n outcome now)
  | send req => exact send_respects records_respects req o
  | suspend agent_id reason => exact suspend_respects records_respects agent_id reason o
  | publish post => exact append_respects records_respects post o
  | poll n => exact hsame (poll_records n o)
  | drain agent => exact hsame (drain_records agent o)
  | start =>
      exact hsame (start_moves (fun _ => ⟨rfl, rfl, rfl⟩) (fun _ _ _ => .trans) (fun _ _ => ⟨rfl, rfl, rfl⟩)
        (fun _ _ _ => ⟨rfl, rfl, rfl⟩) o)
  | stop_ends k =>
      show (stop_ends k o).delivered = _ ∧ (stop_ends k o).queue.dlq = _
      unfold stop_ends
      split
      · exact ⟨rfl, rfl⟩
      · split <;> exact ⟨rfl, rfl⟩
  | register | unregister | stop | resume | clock | set_available | hire_or_fire | configure_rate_limit =>
      exact ⟨rfl, rfl⟩

/-! ## What is dispatched -/

/-- The envelope that a task is delivering. -/
def delivering (o : Orchestrator) (n : Nat) : Option MessageEnvelope := o.tasks[n]?.bind ConsumerTask.hand

/-- A delivery that was not there before. -/
def Begun (o o' : Orchestrator) (env : MessageEnvelope) : Prop :=
  ∃ n, delivering o' n = some env ∧ delivering o n ≠ some env

/-- The step dispatches the envelope. -/
inductive Begins (o : Orchestrator) : Label → MessageEnvelope → Prop where
  | poll (n : Nat) (task : ConsumerTask) (env : MessageEnvelope) (hn : o.tasks[n]? = some task)
      (hidle : task.phase = .idle) (hgoes : task.cancelling = false) (hstop : o.stop_event = false)
      (haccepting : o.accepting = true) (hhead : (o.queue.bucket task.handle.id).head? = some env) :
      Begins o (.poll n) env
  | drain (agent : AgentHandle) (env : MessageEnvelope) (haccepting : o.accepting = true)
      (hhead : (o.queue.bucket agent.id).head? = some env) : Begins o (.drain agent) env

/-- No delivery begins. -/
def BeginsNothing (o o' : Orchestrator) : Prop := ∀ n env, delivering o' n = some env → delivering o n = some env

theorem BeginsNothing.not_begun {o o' : Orchestrator} (h : BeginsNothing o o') (env : MessageEnvelope) :
    ¬ Begun o o' env := by
  rintro ⟨n, hnew, hold⟩
  exact hold (h n env hnew)

theorem BeginsNothing.of_eq {o o' : Orchestrator} (h : o'.tasks = o.tasks) : BeginsNothing o o' := by
  intro n env hnew
  rwa [delivering, h] at hnew

/-- Tasks with the same hands. -/
theorem BeginsNothing.of_hands {o o' : Orchestrator}
    (h : o'.tasks.map ConsumerTask.hand = o.tasks.map ConsumerTask.hand) : BeginsNothing o o' := by
  intro n env hnew
  have hhands : ∀ p : Orchestrator, delivering p n = (p.tasks.map ConsumerTask.hand)[n]?.bind id := by
    intro p
    rw [delivering, List.getElem?_map]
    cases p.tasks[n]? <;> rfl
  rw [hhands, h, ← hhands] at hnew
  exact hnew

/-- Tasks that are new, and deliver nothing. -/
theorem BeginsNothing.of_append {o o' : Orchestrator} {tasks : List ConsumerTask} (h : o'.tasks = o.tasks ++ tasks)
    (hidle : ∀ task ∈ tasks, task.hand = none) : BeginsNothing o o' := by
  intro n env hnew
  rw [delivering, h] at hnew
  by_cases hlt : n < o.tasks.length
  · rwa [List.getElem?_append_left hlt] at hnew
  · rw [List.getElem?_append_right (Nat.le_of_not_lt hlt)] at hnew
    obtain ⟨task, htask, hhand⟩ := Option.bind_eq_some_iff.mp hnew
    rw [hidle task (List.mem_of_getElem? htask)] at hhand
    cases hhand

theorem BeginsNothing.trans {o o' o'' : Orchestrator} (h : BeginsNothing o o') (h' : BeginsNothing o' o'') :
    BeginsNothing o o'' := fun n env hnew => h n env (h' n env hnew)

theorem delivering_set {n : Nat} {task next : ConsumerTask} {o : Orchestrator} (hn : o.tasks[n]? = some task)
    (m : Nat) : delivering (set_task n next o) m = if m = n then next.hand else delivering o m := by
  have hlt : n < o.tasks.length := (List.getElem?_eq_some_iff.mp hn).1
  unfold delivering set_task
  dsimp only
  by_cases hm : m = n
  · rw [if_pos hm, hm, List.getElem?_set_self hlt]
    rfl
  · rw [if_neg hm, List.getElem?_set_ne (Ne.symm hm)]

/-- A task goes on without an envelope. -/
theorem BeginsNothing.set_task {n : Nat} {task next : ConsumerTask} {o : Orchestrator}
    (hn : o.tasks[n]? = some task) (hnext : next.hand = none) : BeginsNothing o (set_task n next o) := by
  intro m env hnew
  rw [delivering_set hn] at hnew
  split at hnew
  · rw [hnext] at hnew
    cases hnew
  · exact hnew

/-! ### The steps -/

def SameTasks (o o' : Orchestrator) : Prop := o'.tasks = o.tasks

theorem tasks_respects : Respects SameTasks where
  refl := fun _ => rfl
  trans := fun _ _ _ h h' => Eq.trans h' h
  gates := fun _ _ _ _ _ _ => rfl
  push := by
    intro o req
    unfold enqueue
    split <;> rfl

theorem mem_bucket_of_head {o : Orchestrator} {agent_id : String} {env : MessageEnvelope}
    (h : (o.queue.bucket agent_id).head? = some env) : env.to_agent = agent_id := by
  have hmem := List.mem_of_head? h
  unfold InMemoryMessageQueue.bucket at hmem
  simpa using (List.mem_filter.mp hmem).2

section Polls

variable {n : Nat} {task : ConsumerTask} {env : MessageEnvelope} {queue : InMemoryMessageQueue} {agent : AgentHandle}

theorem head_of_pop {agent_id : String} {o : Orchestrator} (h : o.queue.pop agent_id = (some env, queue)) :
    (o.queue.bucket agent_id).head? = some env := by
  rw [← InMemoryMessageQueue.pop_head, h]

theorem pop_of_head {agent_id : String} {o : Orchestrator} (h : (o.queue.bucket agent_id).head? = some env) :
    ∃ queue, o.queue.pop agent_id = (some env, queue) := by
  rw [← InMemoryMessageQueue.pop_head] at h
  exact ⟨(o.queue.pop agent_id).2, Prod.ext h rfl⟩

/-- A consumer that cannot go on begins nothing. -/
theorem take_up_nothing {o : Orchestrator} (hn : o.tasks[n]? = some task)
    (hno : o.stop_event = true ∨ o.accepting = false) : BeginsNothing o (take_up n task env o) := by
  unfold take_up
  split
  · exact .set_task hn rfl
  · rename_i hstop
    have haccepting := hno.resolve_left hstop
    rw [if_pos (by rw [haccepting]; rfl)]
    cases hback : push_back env o with
    | none => exact .set_task hn rfl
    | some o' => exact .of_eq (push_back_same hback).2

/-- The task takes the envelope into its hands. -/
def handed (n : Nat) (task : ConsumerTask) (env : MessageEnvelope) (queue : InMemoryMessageQueue) (o : Orchestrator) :
    Orchestrator := set_task n { task with phase := .delivering env } { o with queue }

theorem handed_begun_iff {o : Orchestrator} {env' : MessageEnvelope} (hn : o.tasks[n]? = some task)
    (hidle : task.hand = none) : Begun o (handed n task env queue o) env' ↔ env = env' := by
  have hset : ∀ m, delivering (handed n task env queue o) m = if m = n then some env else delivering o m :=
    fun m => delivering_set (o := { o with queue }) hn m
  constructor
  · rintro ⟨m, hnew, hold⟩
    rw [hset] at hnew
    split at hnew
    · exact Option.some.inj hnew
    · exact absurd hnew hold
  · rintro rfl
    refine ⟨n, by rw [hset, if_pos rfl], ?_⟩
    rw [delivering, hn]
    show task.hand ≠ _
    rw [hidle]
    nofun

theorem poll_of_begins {o : Orchestrator} (h : Begins o (.poll n) env) :
    ∃ task queue, o.tasks[n]? = some task ∧ task.hand = none ∧ o.queue.pop task.handle.id = (some env, queue) ∧
      poll n o = handed n task env queue o := by
  cases h with
  | poll _ task _ hn hidle hgoes hstop haccepting hhead =>
      obtain ⟨queue, hpop⟩ := pop_of_head hhead
      refine ⟨task, queue, hn, hand_idle hidle, hpop, ?_⟩
      rw [poll, hn]
      dsimp only
      rw [if_neg (not_not_intro hidle), hgoes, if_neg Bool.false_ne_true, take_next, hpop]
      dsimp only
      rw [take_up, if_neg (by rw [hstop]; decide), if_neg (by rw [haccepting]; decide), handed]

/-- A poll that dispatches nothing begins nothing: the task is not there, ends, waits, or puts the envelope back. -/
theorem poll_nothing {o : Orchestrator} (hno : ∀ env, ¬ Begins o (.poll n) env) : BeginsNothing o (poll n o) := by
  unfold poll
  split
  · exact .of_eq rfl
  · rename_i task hn
    split
    · exact .of_eq rfl
    · rename_i hphase
      split
      · exact .set_task hn rfl
      · rename_i hcancel
        unfold take_next
        split
        · exact .of_eq rfl
        · rename_i taken queue hpop
          have hnothing : BeginsNothing { o with queue } (take_up n task taken { o with queue }) := by
            refine take_up_nothing hn ?_
            by_contra hgo
            rw [not_or, Bool.not_eq_true, Bool.not_eq_false] at hgo
            exact hno taken (.poll n task taken hn (not_not.mp hphase) (by simpa using hcancel) hgo.1 hgo.2
              (head_of_pop hpop))
          exact hnothing

theorem poll_begun_iff (o : Orchestrator) : Begun o (poll n o) env ↔ Begins o (.poll n) env := by
  constructor
  · intro hbegun
    by_cases hsome : ∃ env', Begins o (.poll n) env'
    · obtain ⟨env', hbegins⟩ := hsome
      obtain ⟨task, queue, hn, hidle, -, hpoll⟩ := poll_of_begins hbegins
      rw [hpoll, handed_begun_iff hn hidle] at hbegun
      exact hbegun ▸ hbegins
    · exact absurd hbegun ((poll_nothing (not_exists.mp hsome)).not_begun env)
  · intro hbegins
    obtain ⟨task, queue, hn, hidle, -, hpoll⟩ := poll_of_begins hbegins
    rw [hpoll, handed_begun_iff hn hidle]

/-! ### A drain -/

/-- A drain hands the envelope to a task of its own. -/
def drained (agent : AgentHandle) (env : MessageEnvelope) (queue : InMemoryMessageQueue) (o : Orchestrator) :
    Orchestrator :=
  { o with
    queue
    tasks := o.tasks ++ [{ handle := agent, loops := false, phase := .delivering env, cancelling := false }] }

theorem drained_begun_iff {o : Orchestrator} {env' : MessageEnvelope} :
    Begun o (drained agent env queue o) env' ↔ env = env' := by
  have hlast : delivering (drained agent env queue o) o.tasks.length = some env := by
    rw [delivering, drained]
    dsimp only
    rw [List.getElem?_append_right (Nat.le_refl _), Nat.sub_self]
    rfl
  constructor
  · rintro ⟨m, hnew, hold⟩
    by_cases hlt : m < o.tasks.length
    · rw [delivering, drained] at hnew
      dsimp only at hnew
      rw [List.getElem?_append_left hlt] at hnew
      exact absurd hnew hold
    · by_cases heq : m = o.tasks.length
      · rw [heq, hlast] at hnew
        exact Option.some.inj hnew
      · have hbeyond : (drained agent env queue o).tasks[m]? = none := by
          rw [List.getElem?_eq_none_iff]
          show (o.tasks ++ [_]).length ≤ m
          rw [List.length_append, List.length_singleton]
          omega
        rw [delivering, hbeyond] at hnew
        cases hnew
  · rintro rfl
    refine ⟨o.tasks.length, hlast, ?_⟩
    rw [delivering, List.getElem?_eq_none (Nat.le_refl _)]
    nofun

theorem drain_of_begins {o : Orchestrator} (h : Begins o (.drain agent) env) :
    ∃ queue, o.queue.pop agent.id = (some env, queue) ∧ drain agent o = drained agent env queue o := by
  cases h with
  | drain _ _ haccepting hhead =>
      obtain ⟨queue, hpop⟩ := pop_of_head hhead
      refine ⟨queue, hpop, ?_⟩
      rw [drain, hpop]
      dsimp only
      rw [drain_up, if_neg (by rw [haccepting]; decide), drained]

theorem drain_nothing {o : Orchestrator} (hno : ∀ env, ¬ Begins o (.drain agent) env) :
    BeginsNothing o (drain agent o) := by
  unfold drain
  split
  · exact .of_eq rfl
  · rename_i taken queue hpop
    have hpaused : o.accepting = false := by
      by_contra haccepting
      exact hno taken (.drain agent taken (by simpa using haccepting) (head_of_pop hpop))
    rw [drain_up, if_pos (by rw [hpaused]; rfl)]
    cases hback : push_back taken { o with queue } with
    | none => exact .of_eq rfl
    | some o' => exact .of_eq (push_back_same hback).2

theorem drain_begun_iff (o : Orchestrator) : Begun o (drain agent o) env ↔ Begins o (.drain agent) env := by
  constructor
  · intro hbegun
    by_cases hsome : ∃ env', Begins o (.drain agent) env'
    · obtain ⟨env', hbegins⟩ := hsome
      obtain ⟨queue, -, hdrain⟩ := drain_of_begins hbegins
      rw [hdrain, drained_begun_iff] at hbegun
      exact hbegun ▸ hbegins
    · exact absurd hbegun ((drain_nothing (not_exists.mp hsome)).not_begun env)
  · intro hbegins
    obtain ⟨queue, -, hdrain⟩ := drain_of_begins hbegins
    rw [hdrain, drained_begun_iff]

end Polls

/-! ### Every step -/

theorem spawn_nothing (agent : AgentHandle) (o : Orchestrator) : BeginsNothing o (spawn agent o) := by
  refine .of_append rfl fun task hmem => ?_
  rw [List.mem_singleton.mp hmem]
  rfl

theorem start_nothing (o : Orchestrator) : BeginsNothing o (start o) :=
  start_moves (fun _ => .of_eq rfl) (fun _ _ _ => .trans) spawn_nothing (fun _ _ _ => .of_eq rfl) o

theorem resumed_nothing {n : Nat} {task : ConsumerTask} {o o' : Orchestrator} (htasks : o'.tasks = o.tasks)
    (hn : o.tasks[n]? = some task) : BeginsNothing o (resumed n task o') := by
  rw [← htasks] at hn
  have hset : BeginsNothing o' (resumed n task o') := .set_task hn (resumed_hand task)
  exact (BeginsNothing.of_eq htasks).trans hset

theorem deliver_ends_nothing (n : Nat) (outcome : Except Exn Unit) (now : Time) (o : Orchestrator) :
    BeginsNothing o (deliver_ends n outcome now o) := by
  unfold deliver_ends
  split
  · exact .of_eq rfl
  · rename_i task hn
    split
    · rename_i env _
      unfold end_delivery
      split
      · exact resumed_nothing (o := o) rfl hn
      · split
        · unfold retry
          split
          · exact resumed_nothing (o := o) rfl hn
          · split
            · rename_i o' hback
              exact resumed_nothing (push_back_same hback).2 hn
            · exact .set_task hn rfl
        · exact .set_task hn rfl
    · exact .of_eq rfl

/-- **Which deliveries begin.** -/
theorem begun_iff (o : Orchestrator) (label : Label) (env : MessageEnvelope) :
    Begun o (step o label) env ↔ Begins o label env := by
  have hnone : ∀ {o' : Orchestrator}, BeginsNothing o o' → (∀ env, ¬ Begins o label env) →
      (Begun o o' env ↔ Begins o label env) := fun h hno => iff_of_false (h.not_begun env) (hno env)
  cases label with
  | poll n => exact poll_begun_iff o
  | drain agent => exact drain_begun_iff o
  | send req => exact hnone (.of_eq (send_respects tasks_respects req o)) (fun _ => nofun)
  | suspend agent_id reason => exact hnone (.of_eq (suspend_respects tasks_respects agent_id reason o)) (fun _ => nofun)
  | publish post => exact hnone (.of_eq (append_respects tasks_respects post o)) (fun _ => nofun)
  | start => exact hnone (start_nothing o) (fun _ => nofun)
  | deliver_ends n outcome now => exact hnone (deliver_ends_nothing n outcome now o) (fun _ => nofun)
  | unregister agent_id => exact hnone (.of_hands (cancel_tasks_hands _ o.tasks)) (fun _ => nofun)
  | stop => exact hnone (.of_hands (cancel_tasks_hands _ o.tasks)) (fun _ => nofun)
  | stop_ends k =>
      refine hnone ?_ (fun _ => nofun)
      show BeginsNothing o (stop_ends k o)
      unfold stop_ends
      split
      · exact .of_eq rfl
      · split <;> exact .of_eq rfl
  | register | resume | clock | set_available | hire_or_fire | configure_rate_limit =>
      exact hnone (.of_eq rfl) (fun _ => nofun)

end Orchestrator

end CompanyFactory
