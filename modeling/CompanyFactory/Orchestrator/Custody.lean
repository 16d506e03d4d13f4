import CompanyFactory.Lib.Counter
import CompanyFactory.Lib.Run
import CompanyFactory.Orchestrator.Consumers

/-!
# `Orchestrator.Custody` — where the envelopes are

Every envelope that the queue took is in one of four places: the queue, the hands of a task, the
deliveries, the dead letters. `located` lists them all, and `Conserved` says that, up to the order and the
counters of attempts, they are the envelopes that were sent.

* `step_conserved` — a step that meets `Keeps` moves envelopes, and loses and doubles none.
* `Keeps` rules out the steps that drop one: a consumer that takes an envelope while a stop is requested, a
  handler that is cancelled, and a push that raises with an envelope in hand.
* `queued_in_one_place` — after a run of such steps, what a `send` has queued is in exactly one place.
-/

namespace CompanyFactory

open Act Machine

namespace Orchestrator

/-- The envelope that a task is delivering. -/
def ConsumerTask.hand (task : ConsumerTask) : Option MessageEnvelope :=
  match task.phase with
  | .delivering env => some env
  | _ => none

def hands (o : Orchestrator) : List MessageEnvelope := o.tasks.filterMap ConsumerTask.hand

/-- Every envelope, wherever it is. -/
def located (o : Orchestrator) : List MessageEnvelope :=
  o.queue.queues ++ o.hands ++ o.delivered.map Delivery.envelope ++
    o.queue.dlq.map DeadLetter.envelope

/-- The messages in all places are the ones that were sent, and these are numbered. -/
structure Conserved (o : Orchestrator) : Prop where
  census : (o.located.map MessageEnvelope.message).Perm o.sent
  numbered : o.sent.map MessageEnvelope.msg_id = List.range o.sent.length

/-- How often the message of an envelope is in each of the places. -/
def in_queue (o : Orchestrator) (env : MessageEnvelope) : Nat :=
  ((o.queue.bucket env.to_agent).map MessageEnvelope.message).count env

def in_hands (o : Orchestrator) (env : MessageEnvelope) : Nat :=
  (o.hands.map MessageEnvelope.message).count env

def in_delivered (o : Orchestrator) (env : MessageEnvelope) : Nat :=
  ((o.delivered.map Delivery.envelope).map MessageEnvelope.message).count env

def in_dlq (o : Orchestrator) (env : MessageEnvelope) : Nat :=
  ((o.queue.dlq.map DeadLetter.envelope).map MessageEnvelope.message).count env

/-! ## From the census to the places -/

@[simp] theorem message_to_agent (env : MessageEnvelope) : env.message.to_agent = env.to_agent := rfl

/-- What is queued for the recipient is all that is queued of the message. -/
theorem in_queue_eq (o : Orchestrator) (env : MessageEnvelope) :
    o.in_queue env = (o.queue.queues.map MessageEnvelope.message).count env := by
  unfold in_queue InMemoryMessageQueue.bucket
  induction o.queue.queues with
  | nil => rfl
  | cons e rest ih =>
      by_cases hto : e.to_agent = env.to_agent
      · simp only [List.filter_cons, hto, decide_true, if_true, List.map_cons, List.count_cons, ih]
      · have hne : e.message ≠ env := by
          intro h
          apply hto
          rw [← h, message_to_agent]
        simp [hto, hne, ih]

/-- Messages that are numbered in their order are distinct. -/
theorem sent_nodup {o : Orchestrator} (h : o.sent.map MessageEnvelope.msg_id = List.range o.sent.length) :
    o.sent.Nodup := by
  apply List.Nodup.of_map MessageEnvelope.msg_id
  rw [h]
  exact List.nodup_range

/-- **A conserved envelope is in exactly one place.** -/
theorem Conserved.one_place {o : Orchestrator} (h : Conserved o) {env : MessageEnvelope}
    (hsent : env ∈ o.sent) :
    o.in_queue env + o.in_hands env + o.in_delivered env + o.in_dlq env = 1 := by
  have hone := Census.count_eq_one h.census (sent_nodup h.numbered) hsent
  rw [in_queue_eq]
  unfold in_hands in_delivered in_dlq
  simpa only [located, List.map_append, List.count_append] using hone

/-! ## Steps that move envelopes and send none -/

/-- The same messages, in whatever places, and the same sends. -/
def SameCensus (o o' : Orchestrator) : Prop :=
  (o'.located.map MessageEnvelope.message).Perm (o.located.map MessageEnvelope.message) ∧
    o'.sent = o.sent

theorem SameCensus.refl (o : Orchestrator) : SameCensus o o := ⟨.refl _, rfl⟩

theorem SameCensus.trans {o o' o'' : Orchestrator} (h : SameCensus o o') (h' : SameCensus o' o'') :
    SameCensus o o'' := ⟨h'.1.trans h.1, h'.2.trans h.2⟩

theorem SameCensus.of_perm {o o' : Orchestrator} (h : o'.located.Perm o.located)
    (hsent : o'.sent = o.sent) : SameCensus o o' := ⟨h.map _, hsent⟩

theorem SameCensus.of_eq {o o' : Orchestrator} (h : o'.located = o.located)
    (hsent : o'.sent = o.sent) : SameCensus o o' := .of_perm (h ▸ .refl _) hsent

theorem Conserved.of_same {o o' : Orchestrator} (h : Conserved o) (hsame : SameCensus o o') :
    Conserved o' where
  census := hsame.2 ▸ hsame.1.trans h.census
  numbered := hsame.2 ▸ h.numbered

/-! ## The queue as a place -/

variable {o : Orchestrator} {env : MessageEnvelope} {n : Nat} {task : ConsumerTask}

/-- The orchestrator with an envelope that is nowhere: it was taken, and is not placed yet. -/
def Loose (env : MessageEnvelope) (o o' : Orchestrator) : Prop :=
  (o.located.map MessageEnvelope.message).Perm
      (env.message :: o'.located.map MessageEnvelope.message) ∧ o'.sent = o.sent

theorem pop_loose {agent_id : String} {queue : InMemoryMessageQueue}
    (h : o.queue.pop agent_id = (some env, queue)) : Loose env o { o with queue } := by
  obtain ⟨hfind, rfl⟩ := InMemoryMessageQueue.pop_some h
  refine ⟨?_, rfl⟩
  rw [← List.map_cons]
  apply List.Perm.map
  unfold located hands
  simp only [InMemoryMessageQueue.popped_queues, InMemoryMessageQueue.popped_dlq,
    List.append_assoc, ← List.cons_append]
  exact (Census.take_first hfind).append_right _

/-- Placing the envelope in the queue again, whatever its counter says. -/
theorem Loose.pushed {o₀ : Orchestrator} {env' : MessageEnvelope} (h : Loose env o₀ o)
    (hmsg : env'.message = env.message) :
    SameCensus o₀ { o with queue := o.queue.pushed env' } := by
  refine ⟨List.Perm.trans ?_ h.1.symm, h.2⟩
  rw [← hmsg, ← List.map_cons]
  apply List.Perm.map
  unfold located hands InMemoryMessageQueue.pushed
  simp only [List.append_assoc, List.singleton_append]
  exact List.perm_middle

/-! ## The hands of a task -/

/-- The envelope at the head of the second place, before all others. -/
theorem perm_second {q hand hand' rest dead : List MessageEnvelope} (h : hand.Perm (env :: hand')) :
    (q ++ hand ++ rest ++ dead).Perm (env :: (q ++ hand' ++ rest ++ dead)) := by
  have hfirst : (q ++ hand).Perm (env :: (q ++ hand')) :=
    (h.append_left q).trans List.perm_middle
  exact (hfirst.append_right rest).append_right dead

theorem take_hand {o₀ : Orchestrator} (h : Loose env o₀ o) (hn : o.tasks[n]? = some task)
    (hidle : task.hand = none) :
    SameCensus o₀ (set_task n { task with phase := .delivering env } o) := by
  refine ⟨List.Perm.trans ?_ h.1.symm, h.2⟩
  rw [← List.map_cons]
  apply List.Perm.map
  exact perm_second (Census.hold_at hn hidle rfl)

/-- A task that lets its envelope go. -/
theorem release_hand {next : ConsumerTask} (hn : o.tasks[n]? = some task)
    (hand : task.hand = some env) (hnext : next.hand = none) : Loose env o (set_task n next o) := by
  refine ⟨?_, rfl⟩
  rw [← List.map_cons]
  apply List.Perm.map
  exact perm_second (Census.release_at hn hand hnext)

/-- A task without an envelope changes into another one. -/
theorem set_task_same {next : ConsumerTask} (hn : o.tasks[n]? = some task) (hand : task.hand = none)
    (hnext : next.hand = none) : SameCensus o (set_task n next o) := by
  refine SameCensus.of_perm ?_ rfl
  have hswap := Census.swap_at (f := ConsumerTask.hand) (b := next) hn
  rw [hand, hnext] at hswap
  exact ((hswap.append_left _).append_right _).append_right _

/-! ## The steps of the consumers -/

/-- The step drops no envelope. -/
def Keeps (o : Orchestrator) : Label → Prop
  | .poll n => ∀ task, o.tasks[n]? = some task → task.phase = .idle → task.cancelling = false →
      o.queue.bucket task.handle.id ≠ [] →
      o.stop_event = false ∧ (o.accepting = true ∨ o.queue.available = true)
  | .deliver_ends n outcome _ => ∀ task env e, o.tasks[n]? = some task →
      task.phase = .delivering env → outcome = .error e →
      e.isException = true ∧ (_MAX_ATTEMPTS ≤ env.attempts + 1 ∨ o.queue.available = true)
  | .drain agent => o.queue.bucket agent.id ≠ [] →
      o.accepting = true ∨ o.queue.available = true
  | _ => True

theorem hand_idle (h : task.phase = .idle) : task.hand = none := by
  unfold ConsumerTask.hand
  rw [h]

theorem hand_delivering (h : task.phase = .delivering env) : task.hand = some env := by
  unfold ConsumerTask.hand
  rw [h]

theorem poll_same (hC : Keeps o (.poll n)) : SameCensus o (poll n o) := by
  unfold poll
  split
  · exact .refl o
  · rename_i task hn
    by_cases hidle : task.phase = .idle
    · rw [if_neg (not_not_intro hidle)]
      have hhand := hand_idle hidle
      by_cases hcancel : task.cancelling = true
      · rw [if_pos hcancel]
        exact set_task_same hn hhand rfl
      · rw [if_neg hcancel]
        unfold take_next
        split
        · exact .refl o
        · rename_i env queue hpop
          obtain ⟨hstop, hback⟩ := hC task hn hidle (by simpa using hcancel)
            (InMemoryMessageQueue.bucket_of_pop hpop)
          have hloose := pop_loose hpop
          unfold take_up
          rw [if_neg (by simpa using hstop)]
          split
          · -- not accepting: the push goes through
            rename_i haccepting
            have havailable : queue.available = true := by
              rw [InMemoryMessageQueue.available_of_pop hpop]
              exact hback.resolve_left (by simpa using haccepting)
            rw [push_back_run (o := { o with queue }) env havailable]
            exact hloose.pushed rfl
          · exact take_hand hloose hn hhand
    · rw [if_pos hidle]
      exact .refl o

theorem resumed_hand (task : ConsumerTask) : ({ task with
    phase := if task.loops then Phase.idle else .done, cancelling := false } : ConsumerTask).hand =
      none := by
  unfold ConsumerTask.hand
  cases task.loops <;> rfl

theorem end_delivery_same {outcome : Except Exn Unit} {now : Time} (hn : o.tasks[n]? = some task)
    (hand : task.hand = some env)
    (hC : ∀ e, outcome = .error e → e.isException = true ∧
      (_MAX_ATTEMPTS ≤ env.attempts + 1 ∨ o.queue.available = true)) :
    SameCensus o (end_delivery n task env outcome now o) := by
  have hloose := release_hand hn hand (resumed_hand task)
  cases outcome with
  | ok u =>
      refine ⟨List.Perm.trans ?_ hloose.1.symm, rfl⟩
      rw [← List.map_cons]
      apply List.Perm.map
      unfold end_delivery resumed located hands set_task
      simp only [List.map_append, List.map_cons, List.map_nil, List.append_assoc,
        List.singleton_append]
      simp only [← List.append_assoc]
      exact List.perm_middle
  | error e =>
      obtain ⟨hexc, hback⟩ := hC e rfl
      unfold end_delivery
      dsimp only
      rw [if_pos hexc]
      unfold retry
      split
      · refine ⟨List.Perm.trans ?_ hloose.1.symm, rfl⟩
        rw [← List.map_cons]
        apply List.Perm.map
        unfold resumed located hands set_task InMemoryMessageQueue.to_dlq
        simp only [List.map_append, List.map_cons, List.map_nil]
        rw [← List.append_assoc]
        exact List.perm_append_singleton _ _
      · rename_i hfew
        rw [push_back_run env.bumped (hback.resolve_left hfew)]
        have hmsg : env.bumped.message = env.message := rfl
        have hpushed := hloose.pushed hmsg
        exact hpushed

theorem deliver_ends_same {outcome : Except Exn Unit} {now : Time}
    (hC : Keeps o (.deliver_ends n outcome now)) : SameCensus o (deliver_ends n outcome now o) := by
  unfold deliver_ends
  split
  · exact .refl o
  · rename_i task hn
    split
    · rename_i env hphase
      exact end_delivery_same hn (hand_delivering hphase) fun e he => hC task env e hn hphase he
    · exact .refl o

theorem drain_same {agent : AgentHandle} (hC : Keeps o (.drain agent)) :
    SameCensus o (drain agent o) := by
  unfold drain
  split
  · exact .refl o
  · rename_i env queue hpop
    have hloose := pop_loose hpop
    unfold drain_up
    split
    · rename_i haccepting
      have havailable : queue.available = true := by
        rw [InMemoryMessageQueue.available_of_pop hpop]
        exact (hC (InMemoryMessageQueue.bucket_of_pop hpop)).resolve_left (by simpa using haccepting)
      rw [push_back_run (o := { o with queue }) env havailable]
      exact hloose.pushed rfl
    · refine ⟨List.Perm.trans ?_ hloose.1.symm, rfl⟩
      rw [← List.map_cons]
      apply List.Perm.map
      unfold located
      refine perm_second ?_
      show (List.filterMap ConsumerTask.hand (o.tasks ++ _)).Perm _
      rw [List.filterMap_append]
      exact List.perm_append_singleton _ _

/-! ## Registry, lifecycle and gates -/

theorem cancel_hand (task : ConsumerTask) : task.cancel.hand = task.hand := by
  unfold ConsumerTask.cancel
  split <;> rfl

theorem cancel_tasks_hands (ids : List Nat) (tasks : List ConsumerTask) :
    (cancel_tasks ids tasks).map ConsumerTask.hand = tasks.map ConsumerTask.hand := by
  apply List.ext_getElem?
  intro n
  unfold cancel_tasks
  rw [List.getElem?_map, List.getElem?_map, List.getElem?_mapIdx]
  cases tasks[n]? with
  | none => rfl
  | some task =>
      show some _ = some _
      split
      · rw [cancel_hand]
      · rfl

/-- Tasks with the same hands hold the same envelopes. -/
theorem hands_eq {tasks tasks' : List ConsumerTask}
    (h : tasks'.map ConsumerTask.hand = tasks.map ConsumerTask.hand) :
    tasks'.filterMap ConsumerTask.hand = tasks.filterMap ConsumerTask.hand := by
  have hcomp : ∀ ts : List ConsumerTask,
      ts.filterMap ConsumerTask.hand = (ts.map ConsumerTask.hand).filterMap id := by
    intro ts
    rw [List.filterMap_map]
    rfl
  rw [hcomp, hcomp, h]

theorem unregister_same (agent_id : String) (o : Orchestrator) :
    SameCensus o (unregister agent_id o) := by
  refine .of_eq ?_ rfl
  unfold located hands unregister
  dsimp only
  rw [hands_eq (cancel_tasks_hands _ o.tasks)]

theorem stop_same (o : Orchestrator) : SameCensus o (stop o) := by
  refine .of_eq ?_ rfl
  unfold located hands stop
  dsimp only
  rw [hands_eq (cancel_tasks_hands _ o.tasks)]

theorem spawn_same (agent : AgentHandle) (o : Orchestrator) : SameCensus o (spawn agent o) := by
  refine .of_eq ?_ rfl
  unfold located hands spawn
  dsimp only
  rw [List.filterMap_append]
  simp [ConsumerTask.hand]

theorem start_same (o : Orchestrator) : SameCensus o (start o) :=
  start_moves .refl (fun _ _ _ => .trans) spawn_same (fun _ _ _ => .of_eq rfl rfl) o

theorem stop_ends_same (k : Nat) (o : Orchestrator) : SameCensus o (stop_ends k o) := by
  unfold stop_ends
  split
  · exact .refl o
  · split <;> exact .of_eq rfl rfl

/-! ## Sends -/

/-- What a send may do to the census: keep it, or add what it adds to the sent envelopes. -/
def Accounts (o o' : Orchestrator) : Prop :=
  o.sent <+: o'.sent ∧ (Conserved o → Conserved o')

theorem Accounts.refl (o : Orchestrator) : Accounts o o := ⟨List.prefix_rfl, id⟩

theorem Accounts.trans (o o' o'' : Orchestrator) (h : Accounts o o') (h' : Accounts o' o'') :
    Accounts o o'' := ⟨h.1.trans h'.1, h'.2 ∘ h.2⟩

theorem Accounts.of_same {o o' : Orchestrator} (h : SameCensus o o') : Accounts o o' :=
  ⟨h.2 ▸ List.prefix_rfl, fun hc => hc.of_same h⟩

/-- The push of a new envelope adds it to the queue and to the sent ones. -/
theorem enqueue_accounts (req : SendRequest) (o : Orchestrator) :
    Accounts o (enqueue (new_envelope o req) o).2 := by
  unfold enqueue InMemoryMessageQueue.push
  cases o.queue.available with
  | false => exact .of_same (.of_eq rfl rfl)
  | true =>
      refine ⟨List.prefix_append _ _, fun h => ⟨?_, ?_⟩⟩
      · show (List.map _ (o.queue.queues ++ [new_envelope o req] ++ o.hands ++ _ ++ _)).Perm
          (o.sent ++ [new_envelope o req])
        have hsplit : (o.queue.queues ++ [new_envelope o req] ++ o.hands ++
            o.delivered.map Delivery.envelope ++ o.queue.dlq.map DeadLetter.envelope).Perm
              (o.located ++ [new_envelope o req]) := by
          unfold located
          simp only [List.append_assoc]
          refine List.Perm.append_left _ ?_
          have hlast : ([new_envelope o req] ++ (o.hands ++ (o.delivered.map Delivery.envelope ++
              o.queue.dlq.map DeadLetter.envelope))).Perm _ := List.perm_append_comm
          simpa only [List.append_assoc] using hlast
        refine (hsplit.map _).trans ?_
        rw [List.map_append]
        exact h.census.append_right _
      · show List.map _ (o.sent ++ [new_envelope o req]) = List.range (o.sent ++ [_]).length
        rw [List.map_append, h.numbered, List.length_append, List.length_singleton,
          List.range_succ]
        rfl

theorem accounts_respects : Respects Accounts where
  refl := .refl
  trans := .trans
  gates := fun _ _ _ _ _ _ => .of_same (.of_eq rfl rfl)
  push := fun o req => enqueue_accounts req o

/-! ## What a send has queued -/

/-- If the result is `QUEUED`, one envelope was added to the sent ones: the one of the request. -/
def Queues (req : SendRequest) (m : Act Orchestrator Exn SendResult) : Prop :=
  ∀ o, (m o).1 = .ok .QUEUED → (m o).2.sent = o.sent ++ [new_envelope o req]

theorem Queues.of_ne {req : SendRequest} {m : Act Orchestrator Exn SendResult}
    (h : ∀ o, (m o).1 ≠ .ok .QUEUED) : Queues req m := fun o hq => absurd hq (h o)

theorem rejected {result : SendResult} (h : result ≠ .QUEUED) (o : Orchestrator) :
    ((pure result : Act Orchestrator Exn SendResult) o).1 ≠ .ok .QUEUED := by
  intro hq
  cases hq
  exact h rfl

theorem Queues.ite {req : SendRequest} {c : Prop} [Decidable c]
    {m k : Act Orchestrator Exn SendResult} (hm : Queues req m) (hk : Queues req k) :
    Queues req (if c then m else k) := by
  split
  · exact hm
  · exact hk

/-- What runs before the push sends nothing itself. -/
theorem Queues.after {α : Type} {req : SendRequest} {m : Act Orchestrator Exn α}
    {f : α → Act Orchestrator Exn SendResult} (hm : ∀ o, (m o).2.sent = o.sent)
    (hf : ∀ a, Queues req (f a)) : Queues req (m >>= f) := by
  intro o hq
  obtain ⟨a, p, hrun, hrest⟩ := bind_eq_ok.mp (Prod.ext hq rfl)
  have hp : p.sent = o.sent := by
    have hkeep := hm o
    rw [hrun] at hkeep
    exact hkeep
  have henv : new_envelope p req = new_envelope o req := by
    unfold new_envelope
    rw [hp]
  rw [bind_of_ok hrun]
  have hadd := hf a p (congrArg Prod.fst hrest)
  rw [hadd, hp, henv]

theorem enqueue_sent {env : MessageEnvelope} {o o' : Orchestrator}
    (h : enqueue env o = (.ok (), o')) : o'.sent = o.sent ++ [env] := by
  unfold enqueue at h
  split at h
  · cases h
    rfl
  · cases h

theorem persist_sent {req : SendRequest} {o o' : Orchestrator} (h : persist req o = (.ok (), o')) :
    o'.sent = o.sent ++ [new_envelope o req] := by
  have hrun : persist req o =
      after_push req (enqueue (new_envelope o req) o).1 (enqueue (new_envelope o req) o).2 := rfl
  rw [hrun] at h
  rcases hpush : enqueue (new_envelope o req) o with ⟨r, p⟩
  rw [hpush] at h
  cases r with
  | ok u =>
      cases h
      exact enqueue_sent hpush
  | error e =>
      obtain ⟨a, t, -, hraise⟩ := bind_eq_ok.mp h
      cases hraise

theorem deliver_to_queue_queues (req : SendRequest) : Queues req (deliver_to_queue req) := by
  refine .after (fun o => rfl) fun duplicate => .ite (.of_ne (rejected (by decide))) ?_
  intro o hq
  obtain ⟨⟨⟩, p, hpersist, hrest⟩ := bind_eq_ok.mp (Prod.ext hq rfl)
  rw [bind_of_ok hpersist]
  rw [← persist_sent hpersist]
  have hevent : ((do append (message_sent req); pure .QUEUED :
      Act Orchestrator Exn SendResult) p).2 = (append (message_sent req) p).2 :=
    bind_pure_state (append (message_sent req)) _ p
  show _ = (append (message_sent req) p).2.sent
  exact congrArg Orchestrator.sent hevent

theorem past_loops_queues (req : SendRequest) : Queues req (past_loops req) := by
  refine .after (fun o => rfl) fun looped => ?_
  cases looped with
  | none => exact deliver_to_queue_queues req
  | some kind => exact .of_ne fun o => bind_ne_ok fun _ => rejected (by decide)

theorem after_notice_rejects (noticed : Except Exn SendResult) (o : Orchestrator) :
    (after_notice noticed SendResult.REJECTED_RATE_LIMIT o).1 ≠ .ok .QUEUED := by
  unfold after_notice
  cases noticed with
  | ok r => exact rejected (by decide) o
  | error e =>
      dsimp only
      split
      · exact rejected (by decide) o
      · intro hq
        cases hq

theorem past_rate_queues (notify : SendRequest → Act Orchestrator Exn SendResult)
    (req : SendRequest) : Queues req (past_rate notify req) := by
  refine .ite (deliver_to_queue_queues req) (.after (fun o => rfl) fun taken => ?_)
  refine .ite (past_loops_queues req) (.of_ne fun o => ?_)
  exact bind_ne_ok fun noticed => after_notice_rejects noticed

theorem send_queues (req : SendRequest) : Queues req (send req) := by
  have hno : ∀ r : SendResult, r ≠ .QUEUED → Queues req (pure r) := fun r hr => .of_ne (rejected hr)
  refine .after (fun o => rfl) fun o => ?_
  refine .ite (hno _ (by decide)) (.ite (hno _ (by decide)) (.ite ?_ (.ite (hno _ (by decide))
    (.ite (hno _ (by decide)) (past_rate_queues _ req)))))
  unfold reject_recipient
  split
  · exact hno _ (by decide)
  · exact .of_ne fun o => bind_ne_ok fun _ => rejected (by decide)

/-! ## Runs -/

/-- **What a step that drops nothing can do**: move envelopes, or what a send does. -/
theorem step_moves {R : Orchestrator → Orchestrator → Prop} (hrespects : Respects R)
    (hsame : ∀ {o o'}, SameCensus o o' → R o o') {o : Orchestrator} {label : Label} (hC : Keeps o label) :
    R o (step o label) := by
  cases label with
  | send req => exact send_respects hrespects req o
  | register agent => exact hsame (.of_eq rfl rfl)
  | unregister agent_id => exact hsame (unregister_same agent_id o)
  | start => exact hsame (start_same o)
  | stop => exact hsame (stop_same o)
  | stop_ends k => exact hsame (stop_ends_same k o)
  | poll n => exact hsame (poll_same hC)
  | deliver_ends n outcome now => exact hsame (deliver_ends_same hC)
  | drain agent => exact hsame (drain_same hC)
  | suspend agent_id reason => exact suspend_respects hrespects agent_id reason o
  | resume agent_id => exact hsame (.of_eq rfl rfl)
  | clock accepting => exact hsame (.of_eq rfl rfl)
  | set_available value => exact hsame (.of_eq rfl rfl)
  | hire_or_fire org => exact hsame (.of_eq rfl rfl)
  | configure_rate_limit agent_id cfg now => exact hsame (.of_eq rfl rfl)
  | publish post => exact append_respects hrespects post o

theorem step_accounts {o : Orchestrator} {label : Label} (hC : Keeps o label) :
    Accounts o (step o label) := step_moves accounts_respects .of_same hC

theorem step_conserved {o : Orchestrator} {label : Label} (h : Conserved o) (hC : Keeps o label) :
    Conserved (step o label) := (step_accounts hC).2 h

theorem exec_accounts {labels : List Label} :
    ∀ {o : Orchestrator}, Along step Keeps o labels → Accounts o (exec step o labels) := by
  induction labels with
  | nil => intro o _; exact .refl o
  | cons label rest ih => intro o hC; exact (step_accounts hC.1).trans _ _ _ (ih hC.2)

theorem fresh_conserved (org : List OrgRow) (events : EventStore) (rate : RateLimitConfig)
    (loop_config : LoopDetectorConfig) (lower : String → String) :
    Conserved (fresh org events rate loop_config lower) := ⟨.refl _, rfl⟩

/-- **Conservation.** Along a run whose steps drop no envelope, what a `send` has queued is, at the end of
    every prefix that contains the send, in exactly one place and there once. -/
theorem queued_in_one_place (org : List OrgRow) (events : EventStore) (rate : RateLimitConfig)
    (loop_config : LoopDetectorConfig) (lower : String → String) (before after : List Label)
    (req : SendRequest)
    (hC : Along step Keeps (fresh org events rate loop_config lower)
      (before ++ .send req :: after))
    (hqueued : (send req
      (exec step (fresh org events rate loop_config lower) before)).1 = .ok .QUEUED) :
    let env := new_envelope (exec step (fresh org events rate loop_config lower) before) req
    let o := exec step (fresh org events rate loop_config lower) (before ++ .send req :: after)
    o.in_queue env + o.in_hands env + o.in_delivered env + o.in_dlq env = 1 := by
  intro env o
  obtain ⟨hbefore, hsend, hafter⟩ := (along_append _ _ _).mp hC
  have hconserved : Conserved o := (exec_accounts hC).2 (fresh_conserved _ _ _ _ _)
  apply hconserved.one_place
  have hnew := send_queues req _ hqueued
  have hgrows := (exec_accounts hafter).1
  show env ∈ (exec step (fresh org events rate loop_config lower)
    (before ++ .send req :: after)).sent
  rw [exec_append]
  refine hgrows.subset ?_
  show env ∈ (send req (exec step (fresh org events rate loop_config lower) before)).2.sent
  rw [hnew]
  exact List.mem_append_right _ List.mem_cons_self

/-- An organisation of two. -/
def ceo_and_engineer : List OrgRow := [⟨"ceo", true, none⟩, ⟨"eng", true, some "ceo"⟩]

def two_agents : Orchestrator := fresh ceo_and_engineer .quiet {} {} id

def greeting : SendRequest :=
  { from_agent := some "ceo", to_agent := "eng", content := "hi", kind := .AGENT_MESSAGE
    correlation_id := none, system := false, now := 0, monotonic := 0 }

def both_registered : List Label := [.register ⟨"ceo", 0⟩, .register ⟨"eng", 1⟩, .start]

/-- The first delivery fails, the second one does not. -/
theorem queued_in_one_place_run :
    let env := new_envelope (exec step two_agents both_registered) greeting
    let o := exec step two_agents (both_registered ++ .send greeting ::
      [.poll 1, .deliver_ends 1 (.error (.other "RuntimeError" "busy")) 0, .poll 1,
        .deliver_ends 1 (.ok ()) 1])
    o.in_queue env + o.in_hands env + o.in_delivered env + o.in_dlq env = 1 := by
  refine queued_in_one_place _ _ _ _ _ both_registered _ greeting ?_ (by decide +kernel)
  refine ⟨trivial, trivial, trivial, trivial, ?_, ?_, ?_, ?_, trivial⟩
  · exact fun _ _ _ _ _ => ⟨by decide +kernel, .inl (by decide +kernel)⟩
  · intro _ _ e _ _ he
    cases he
    exact ⟨rfl, .inr (by decide +kernel)⟩
  · exact fun _ _ _ _ _ => ⟨by decide +kernel, .inl (by decide +kernel)⟩
  · intro _ _ e _ _ he
    cases he

/-- **A retry while the backend is offline.** The handler raises, the push of the retry raises, and the
    envelope of a queued message is nowhere. -/
theorem failed_retry_loses :
    let o := exec step two_agents (both_registered ++ .send greeting ::
      [.poll 1, .set_available false, .deliver_ends 1 (.error (.other "RuntimeError" "busy")) 0])
    let env := new_envelope (exec step two_agents both_registered) greeting
    (send greeting (exec step two_agents both_registered)).1 = .ok .QUEUED ∧
      o.in_queue env + o.in_hands env + o.in_delivered env + o.in_dlq env = 0 := by
  decide +kernel

end Orchestrator

end CompanyFactory
