import CompanyFactory.Lib.Lines
import CompanyFactory.Orchestrator.Traffic

/-!
# `Orchestrator.Fifo` — the order of the messages of one sender to one recipient

An envelope goes from the queue into the hands of a task and from there to its recipient, while a handler may wait
or raise. The queue is read from the front, for each recipient. **Whatever puts an envelope back puts it at the
end**: a consumer and a drain while the company is paused, and the retry of a delivery that has raised.

* `InLine` — for each sender and recipient, what was delivered, is in a hand and is queued is in the order of the
  sends.
* `InTurn` — the step puts no envelope behind another one of its pair, and begins no second delivery of a pair.
* `InLine.step` — a step in turn keeps the lines.
-/

namespace CompanyFactory

open Act Machine Lines

namespace Orchestrator

/-- The sender and the recipient. -/
def pair (env : MessageEnvelope) : Option String × String := (env.from_agent, env.to_agent)

/-- The messages of a pair, whatever their counters of attempts say. -/
abbrev messages (k : Option String × String) (envelopes : List MessageEnvelope) : List MessageEnvelope :=
  line pair MessageEnvelope.message k envelopes

/-- Everything that is delivered or may still be, the oldest first. -/
def pipeline (o : Orchestrator) : List MessageEnvelope :=
  o.delivered.map Delivery.envelope ++ o.hands ++ o.queue.queues

/-- For each pair, the messages are in the order in which they were sent, and a task delivers one of them at most. -/
structure InLine (o : Orchestrator) : Prop where
  order : ∀ k, (messages k o.pipeline).Sublist o.sent
  single : (o.hands.map pair).Nodup

/-! ## The condition -/

/-- The envelope that was taken out of the queue overtakes none of its pair, and is overtaken by none. -/
def TakenInTurn (o : Orchestrator) (env : MessageEnvelope) (queue : InMemoryMessageQueue) : Prop :=
  if o.accepting then Apart pair env o.hands else o.queue.available = true → Apart pair env queue.queues

theorem TakenInTurn.of_free {o : Orchestrator} {env : MessageEnvelope} {queue : InMemoryMessageQueue}
    (haccepting : o.accepting = true) (hhands : o.hands = []) : TakenInTurn o env queue := by
  unfold TakenInTurn
  rw [haccepting, if_pos rfl]
  exact .of_nil hhands

/-- **A step in turn.** Where it puts an envelope back, no other one of its pair is in the queue, and where it begins
    a delivery, no other one of its pair is going on. -/
def InTurn (o : Orchestrator) : Label → Prop
  | .poll n => ∀ task env queue, o.tasks[n]? = some task → task.phase = .idle → task.cancelling = false →
      o.stop_event = false → o.queue.pop task.handle.id = (some env, queue) → TakenInTurn o env queue
  | .drain agent => ∀ env queue, o.queue.pop agent.id = (some env, queue) → TakenInTurn o env queue
  | .deliver_ends n outcome _ => ∀ task env e, o.tasks[n]? = some task → task.phase = .delivering env →
      outcome = .error e → e.isException = true → env.attempts + 1 < _MAX_ATTEMPTS →
      o.queue.available = true → Apart pair env o.queue.queues
  | _ => True

/-! ## Steps that only send -/

/-- Nothing moves; what is new is at the end of the queue. -/
def Flows (o o' : Orchestrator) : Prop :=
  ∃ fresh, o'.sent = o.sent ++ fresh.map MessageEnvelope.message ∧ o'.queue.queues = o.queue.queues ++ fresh ∧
    o'.delivered = o.delivered ∧ o'.hands = o.hands

theorem Flows.of_eq {o o' : Orchestrator} (hsent : o'.sent = o.sent) (hqueue : o'.queue.queues = o.queue.queues)
    (hdelivered : o'.delivered = o.delivered) (hhands : o'.hands = o.hands) : Flows o o' :=
  ⟨[], by rw [hsent, List.map_nil, List.append_nil], by rw [hqueue, List.append_nil], hdelivered, hhands⟩

theorem Flows.refl (o : Orchestrator) : Flows o o := .of_eq rfl rfl rfl rfl

theorem Flows.trans (o o' o'' : Orchestrator) (h : Flows o o') (h' : Flows o' o'') : Flows o o'' := by
  obtain ⟨fresh, hsent, hqueue, hdelivered, hhands⟩ := h
  obtain ⟨fresh', hsent', hqueue', hdelivered', hhands'⟩ := h'
  refine ⟨fresh ++ fresh', ?_, ?_, hdelivered'.trans hdelivered, hhands'.trans hhands⟩
  · rw [hsent', hsent, List.map_append, List.append_assoc]
  · rw [hqueue', hqueue, List.append_assoc]

theorem enqueue_flows (req : SendRequest) (o : Orchestrator) : Flows o (enqueue (new_envelope o req) o).2 := by
  unfold enqueue InMemoryMessageQueue.push
  cases o.queue.available with
  | false => exact .of_eq rfl rfl rfl rfl
  | true => exact ⟨[new_envelope o req], rfl, rfl, rfl, rfl⟩

theorem flows_respects : Respects Flows where
  refl := .refl
  trans := .trans
  gates := fun _ _ _ _ _ _ => .of_eq rfl rfl rfl rfl
  push := fun o req => enqueue_flows req o

theorem spawn_flows (agent : AgentHandle) (o : Orchestrator) : Flows o (spawn agent o) := by
  refine .of_eq rfl rfl rfl ?_
  show List.filterMap ConsumerTask.hand (o.tasks ++ _) = _
  rw [List.filterMap_append]
  exact List.append_nil _

theorem stop_ends_flows (k : Nat) (o : Orchestrator) : Flows o (stop_ends k o) := by
  unfold stop_ends
  split
  · exact .refl o
  · split <;> exact .of_eq rfl rfl rfl rfl

/-- The steps that take no envelope and end no delivery. -/
theorem step_flows {label : Label} (hpoll : ∀ n, label ≠ .poll n) (hdrain : ∀ agent, label ≠ .drain agent)
    (hends : ∀ n outcome now, label ≠ .deliver_ends n outcome now) (o : Orchestrator) :
    Flows o (step o label) := by
  cases label with
  | poll n => exact absurd rfl (hpoll n)
  | drain agent => exact absurd rfl (hdrain agent)
  | deliver_ends n outcome now => exact absurd rfl (hends n outcome now)
  | send req => exact send_respects flows_respects req o
  | suspend agent_id reason => exact suspend_respects flows_respects agent_id reason o
  | publish post => exact append_respects flows_respects post o
  | start => exact start_moves .refl .trans spawn_flows (fun _ _ _ => .of_eq rfl rfl rfl rfl) o
  | stop_ends k => exact stop_ends_flows k o
  | unregister agent_id => exact .of_eq rfl rfl rfl (hands_eq (cancel_tasks_hands _ o.tasks))
  | stop => exact .of_eq rfl rfl rfl (hands_eq (cancel_tasks_hands _ o.tasks))
  | register | resume | clock | set_available | hire_or_fire | configure_rate_limit => exact .of_eq rfl rfl rfl rfl

variable {o o' : Orchestrator} {n : Nat} {task : ConsumerTask} {env : MessageEnvelope} {queue : InMemoryMessageQueue}

theorem InLine.flows (h : InLine o) (hflows : Flows o o') : InLine o' := by
  obtain ⟨fresh, hsent, hqueue, hdelivered, hhands⟩ := hflows
  refine ⟨fun k => ?_, hhands ▸ h.single⟩
  have hpipeline : o'.pipeline = o.pipeline ++ fresh := by
    rw [pipeline, hqueue, hdelivered, hhands, ← List.append_assoc, pipeline]
  rw [hpipeline, hsent, messages, line_append]
  exact (h.order k).append (line_sublist_map k fresh)

/-! ## Steps that move an envelope -/

/-- A step that sends nothing. -/
theorem InLine.moved (h : InLine o) (hsent : o'.sent = o.sent)
    (hline : ∀ k, (messages k o'.pipeline).Sublist (messages k o.pipeline))
    (hsingle : (o'.hands.map pair).Nodup) : InLine o' :=
  ⟨fun k => hsent ▸ (hline k).trans (h.order k), hsingle⟩

/-- The lines of the pipeline, place by place. -/
theorem messages_pipeline (k : Option String × String) (o : Orchestrator) : messages k o.pipeline =
    messages k (o.delivered.map Delivery.envelope) ++ messages k o.hands ++ messages k o.queue.queues := by
  rw [pipeline, messages, line_append, line_append]

/-- An envelope is taken from the head of its line. -/
theorem messages_pop {agent_id : String} (h : o.queue.pop agent_id = (some env, queue))
    (k : Option String × String) :
    messages k o.queue.queues = messages k [env] ++ messages k queue.queues := by
  obtain ⟨hfind, rfl⟩ := InMemoryMessageQueue.pop_some h
  rw [InMemoryMessageQueue.popped_queues]
  refine line_take_first hfind (fun e he => ?_) k
  have hto : env.to_agent = agent_id := by simpa using List.find?_some hfind
  have hsame : e.to_agent = env.to_agent := congrArg Prod.snd he
  rw [decide_eq_true_eq, hsame, hto]

/-- Taken, and in no place. -/
theorem InLine.popped {agent_id : String} (h : InLine o) (hpop : o.queue.pop agent_id = (some env, queue)) :
    InLine { o with queue } := by
  refine h.moved rfl (fun k => ?_) h.single
  rw [messages_pipeline, messages_pipeline, messages_pop hpop]
  exact (List.sublist_append_right _ _).append_left _

/-- **Put back**: it is the last one of the queue now, and nothing of its pair was before it. -/
theorem InLine.put_back {agent_id : String} (h : InLine o) (hpop : o.queue.pop agent_id = (some env, queue))
    (hapart : Apart pair env queue.queues) : InLine { o with queue := queue.pushed env } := by
  refine h.moved rfl (fun k => ?_) h.single
  have hback : messages k (queue.queues ++ [env]) = messages k o.queue.queues := by
    rw [messages_pop hpop, messages, line_append, line_commute hapart]
  rw [messages_pipeline, messages_pipeline, ← hback]
  exact List.Sublist.refl _

/-- A push that may raise, with what comes of it then. -/
theorem InLine.pushed_back {agent_id : String} (h : InLine o) (hpop : o.queue.pop agent_id = (some env, queue))
    (hturn : o.queue.available = true → Apart pair env queue.queues) (hraised : InLine o') :
    InLine ((push_back env { o with queue }).getD o') := by
  have hsame := InMemoryMessageQueue.available_of_pop hpop
  cases havailable : queue.available with
  | true =>
      rw [push_back_run (o := { o with queue }) env havailable]
      exact h.put_back hpop (hturn (hsame.symm.trans havailable))
  | false =>
      rw [push_back_offline (o := { o with queue }) env havailable]
      exact hraised

/-- **Taken into a hand** that was empty, while no other one holds an envelope of the pair. -/
theorem InLine.taken {agent_id : String} (h : InLine o) (hpop : o.queue.pop agent_id = (some env, queue))
    (hapart : Apart pair env o.hands) (hsent : o'.sent = o.sent) (hdelivered : o'.delivered = o.delivered)
    (hqueue : o'.queue.queues = queue.queues) (hhands : o'.hands.Perm (env :: o.hands)) : InLine o' := by
  have hsingle := hapart.nodup h.single
  refine h.moved hsent (fun k => ?_) ((hhands.map pair).nodup_iff.mpr hsingle)
  have hhand : messages k o'.hands = messages k o.hands ++ messages k [env] := by
    rw [messages, line_perm hhands hsingle, line_cons, line_commute hapart]
  rw [messages_pipeline, messages_pipeline, hdelivered, hqueue, hhand, messages_pop hpop]
  simp only [List.append_assoc]
  exact List.Sublist.refl _

/-- **A hand lets go**: for each pair, what it held comes first. -/
theorem messages_release (h : InLine o) {hands : List MessageEnvelope} (hhands : o.hands.Perm (env :: hands)) :
    Apart pair env hands ∧ (hands.map pair).Nodup ∧
      ∀ k, messages k o.hands = messages k [env] ++ messages k hands := by
  have hnodup : ((env :: hands).map pair).Nodup := (hhands.map pair).nodup_iff.mp h.single
  refine ⟨apart_of_nodup hnodup, (List.nodup_cons.mp hnodup).2, fun k => ?_⟩
  rw [messages, line_perm hhands hnodup, line_cons]

/-- A delivery has ended; what was in the hand is delivered, put back or gone. -/
theorem InLine.released (h : InLine o) (hhands : o.hands.Perm (env :: o'.hands)) (hsent : o'.sent = o.sent)
    (hplace : (o'.delivered.map Delivery.envelope = o.delivered.map Delivery.envelope ++ [env] ∧
        o'.queue.queues = o.queue.queues) ∨
      (o'.delivered = o.delivered ∧ o'.queue.queues = o.queue.queues) ∨
      (o'.delivered = o.delivered ∧ o'.queue.queues = o.queue.queues ++ [env.bumped] ∧
        Apart pair env o.queue.queues)) : InLine o' := by
  obtain ⟨hapart, hsingle, hline⟩ := messages_release h hhands
  refine h.moved hsent (fun k => ?_) hsingle
  rw [messages_pipeline, messages_pipeline, hline]
  rcases hplace with ⟨hdelivered, hqueue⟩ | ⟨hdelivered, hqueue⟩ | ⟨hdelivered, hqueue, hbehind⟩
  · -- delivered: from the front of the hands to the end of the deliveries
    rw [hdelivered, hqueue, messages, line_append]
    simp only [List.append_assoc]
    exact List.Sublist.refl _
  · rw [hdelivered, hqueue]
    exact ((List.sublist_append_right _ _).append_left _).append_right _
  · -- put back: nothing of its pair comes after it, so its line is the one it was in
    have hrest : messages k o'.hands ++ messages k (o.queue.queues ++ [env.bumped]) =
        messages k [env] ++ (messages k o'.hands ++ messages k o.queue.queues) := by
      have hpast := line_commute (f := MessageEnvelope.message) (hapart.append hbehind) k
      have hpair : pair env.bumped = pair env := rfl
      have hmessage : env.bumped.message = env.message := rfl
      have hbumped := line_same (f := MessageEnvelope.message) hpair hmessage k
      unfold messages
      rw [line_append, ← List.append_assoc, ← line_append, hbumped, hpast, line_append]
    rw [hdelivered, hqueue]
    simp only [List.append_assoc]
    rw [hrest]

/-! ## Every step -/

/-- A task that held nothing ends. -/
theorem InLine.finished (h : InLine o) (hn : o.tasks[n]? = some task) (hhand : task.hand = none) :
    InLine (finished n task o) := by
  have hhands : (Orchestrator.finished n task o).hands.Perm o.hands := by
    have hswap := Census.swap_at (f := ConsumerTask.hand) (b := { task with phase := .done }) hn
    rw [hhand] at hswap
    exact hswap
  refine h.moved rfl (fun k => ?_) ((hhands.map pair).nodup_iff.mpr h.single)
  have hline : messages k (Orchestrator.finished n task o).hands = messages k o.hands :=
    line_perm hhands h.single k
  rw [messages_pipeline, messages_pipeline, hline]
  exact List.Sublist.refl _

theorem InLine.took_up (h : InLine o) (hn : o.tasks[n]? = some task) (hhand : task.hand = none)
    (hpop : o.queue.pop task.handle.id = (some env, queue))
    (hC : o.stop_event = false → TakenInTurn o env queue) : InLine (take_up n task env { o with queue }) := by
  have hpopped := h.popped hpop
  unfold take_up
  split
  · -- a stop was requested: the envelope is in no place any more
    exact hpopped.finished hn hhand
  · rename_i hstop
    have hturn := hC (by simpa using hstop)
    unfold TakenInTurn at hturn
    split
    · -- the company is paused: the consumer pushes the envelope and sleeps
      rename_i hpaused
      have hnot : o.accepting = false := by simpa using hpaused
      rw [hnot, if_neg Bool.false_ne_true] at hturn
      exact h.pushed_back hpop hturn (hpopped.finished hn hhand)
    · rename_i haccepting
      have hyes : o.accepting = true := by simpa using haccepting
      rw [hyes, if_pos rfl] at hturn
      exact h.taken hpop hturn rfl rfl rfl (Census.hold_at hn hhand rfl)

theorem InLine.polled (h : InLine o) (hC : InTurn o (.poll n)) : InLine (poll n o) := by
  unfold poll
  split
  · exact h
  · rename_i task hn
    split
    · exact h
    · rename_i hphase
      have hidle : task.phase = .idle := not_not.mp hphase
      have hhand := hand_idle hidle
      split
      · exact h.finished hn hhand
      · rename_i hcancel
        have hgoes : task.cancelling = false := by simpa using hcancel
        unfold take_next
        split
        · exact h
        · rename_i env queue hpop
          exact h.took_up hn hhand hpop fun hstop => hC task env queue hn hidle hgoes hstop hpop

theorem InLine.drained {agent : AgentHandle} (h : InLine o) (hC : InTurn o (.drain agent)) :
    InLine (drain agent o) := by
  unfold drain
  split
  · exact h
  · rename_i env queue hpop
    have hturn := hC env queue hpop
    unfold TakenInTurn at hturn
    unfold drain_up
    split
    · rename_i hpaused
      have hnot : o.accepting = false := by simpa using hpaused
      rw [hnot, if_neg Bool.false_ne_true] at hturn
      exact h.pushed_back hpop hturn (h.popped hpop)
    · rename_i haccepting
      have hyes : o.accepting = true := by simpa using haccepting
      rw [hyes, if_pos rfl] at hturn
      refine h.taken hpop hturn rfl rfl rfl ?_
      show (List.filterMap ConsumerTask.hand (o.tasks ++ _)).Perm _
      rw [List.filterMap_append]
      exact List.perm_append_singleton _ _

theorem InLine.ended {outcome : Except Exn Unit} {now : Time} (h : InLine o)
    (hC : InTurn o (.deliver_ends n outcome now)) : InLine (deliver_ends n outcome now o) := by
  unfold deliver_ends
  split
  · exact h
  · rename_i task hn
    split
    · rename_i env hphase
      have hrelease : ∀ next : ConsumerTask, next.hand = none →
          o.hands.Perm (env :: (set_task n next o).hands) :=
        fun next hnext => Census.release_at hn (hand_delivering hphase) hnext
      have hresumed := hrelease _ (resumed_hand task)
      have hfinished := hrelease { task with phase := .done } rfl
      unfold end_delivery
      cases outcome with
      | ok u => exact h.released hresumed rfl (.inl ⟨List.map_append, rfl⟩)
      | error e =>
          dsimp only
          split
          · rename_i hexc
            unfold retry
            split
            · -- the attempts are used up: a dead letter
              exact h.released hresumed rfl (.inr (.inl ⟨rfl, rfl⟩))
            · rename_i hfew
              cases havailable : o.queue.available with
              | true =>
                  have hapart := hC task env e hn hphase rfl hexc (Nat.lt_of_not_le hfew) havailable
                  rw [push_back_run env.bumped havailable]
                  exact h.released hresumed rfl (.inr (.inr ⟨rfl, rfl, hapart⟩))
              | false =>
                  -- the push raises out of the task
                  rw [push_back_offline env.bumped havailable]
                  exact h.released hfinished rfl (.inr (.inl ⟨rfl, rfl⟩))
          · exact h.released hfinished rfl (.inr (.inl ⟨rfl, rfl⟩))
    · exact h

/-- **A step in turn keeps the lines.** -/
theorem InLine.step (h : InLine o) {label : Label} (hC : InTurn o label) : InLine (step o label) := by
  cases label with
  | poll n => exact h.polled hC
  | drain agent => exact h.drained hC
  | deliver_ends n outcome now => exact h.ended hC
  | _ => exact h.flows (step_flows (by intro n; nofun) (by intro agent; nofun) (by intro n outcome now; nofun) o)

theorem InLine.fresh (org : List OrgRow) (events : EventStore) (rate : RateLimitConfig)
    (loop_config : LoopDetectorConfig) (lower : String → String) :
    InLine (fresh org events rate loop_config lower) := ⟨fun _ => List.nil_sublist _, List.nodup_nil⟩

/-! ## The order of the sends -/

/-- The sent messages are numbered in their order. -/
def Numbered (o : Orchestrator) : Prop := o.sent.map MessageEnvelope.msg_id = List.range o.sent.length

theorem numbered_respects : Respects fun o o' => Numbered o → Numbered o' where
  refl := fun _ => id
  trans := fun _ _ _ h h' => h' ∘ h
  gates := fun _ _ _ _ _ _ => id
  push := by
    intro o req h
    unfold enqueue InMemoryMessageQueue.push
    cases o.queue.available with
    | false => exact h
    | true =>
        show List.map _ (o.sent ++ [new_envelope o req]) = List.range (o.sent ++ [_]).length
        rw [List.map_append, h, List.length_append, List.length_singleton, List.range_succ]
        rfl

theorem Numbered.step (h : Numbered o) (label : Label) : Numbered (step o label) := by
  cases label with
  | send req => exact send_respects numbered_respects req o h
  | _ =>
      unfold Numbered
      rw [step_sent (by intro req; nofun)]
      exact h

end Orchestrator

end CompanyFactory
