import CompanyFactory.Factory.Idle
import CompanyFactory.Orchestrator.Fifo

/-!
# `Factory.Fifo` — the order in which an agent gets its messages

The workforce again, with deliveries that take their time and may raise: what the orchestrator does with an envelope
in the hands of a task is a step of its own, and the message is in the inbox of its agent when the delivery has gone
through. The inbox is read from the front, and a message that a run loop puts back while the company is paused goes to
its end.

* `step_awaits` — a dispatch to an agent, which does not wait, is two of these steps.
* `orderly` — no step puts a message behind another one of its sender.
* `delivers_in_order` — in a run of such steps, what is delivered to a recipient from one sender, and what its agent
  has handled, is in the order in which it was accepted.
* `overtaken` — a pause that comes when two messages are queued.
-/

namespace CompanyFactory

open Act Machine Orchestrator Lines

/-! ## The loop of an agent -/

namespace AgentProcess

/-- Does the loop read the inbox when it wakes up? -/
def reads_on_waking (p : AgentProcess) : Bool :=
  match p.task with
  | .starting | .backing_off => !p.stop_event
  | .waiting => true
  | _ => false

/-- Does the loop read the inbox when the turn has ended? -/
def reads_after_turn (ending : TurnEnd) (p : AgentProcess) : Bool :=
  decide (ending = .returned) && p.hand.isSome && !p.stop_event

/-- A message that the loop would put back is the only one of its pair. -/
def InTurn (accepting : Bool) (p : AgentProcess) : Prop :=
  accepting = false → ∀ env rest, p.inbox = some env :: rest → Apart pair env (rest.filterMap id)

/-- The messages of each pair are the same, in the same order. -/
def SameLines (p p' : AgentProcess) : Prop := ∀ k, messages k p'.contents = messages k p.contents

variable {p : AgentProcess} {accepting : Bool}

theorem SameLines.of_contents {p' : AgentProcess} (h : p'.contents = p.contents) : SameLines p p' :=
  fun _ => by rw [h]

theorem take_lines (hhand : p.hand = none) (hturn : InTurn accepting p) : SameLines p (take accepting p) := by
  intro k
  rcases take_contents accepting hhand with heq | ⟨env, rest, hpaused, hinbox, hback⟩
  · rw [heq]
  · have hapart := hturn hpaused env rest hinbox
    have hbefore : p.contents = p.handled ++ env :: rest.filterMap id := by
      rw [contents_of_none hhand, waiting_messages, hinbox]
      rfl
    unfold messages
    rw [hback, hbefore, line_append, line_append, line_commute hapart, line_append, line_cons k env (rest.filterMap id)]

theorem run_loop_lines (hhand : p.hand = none) (hturn : p.stop_event = false → InTurn accepting p) :
    SameLines p (run_loop accepting p) := by
  unfold run_loop
  split
  · exact .of_contents ((contents_of_none rfl).trans (contents_of_none hhand).symm)
  · rename_i hstop
    exact take_lines hhand (hturn (by simpa using hstop))

theorem wakes_lines (hturn : p.reads_on_waking = true → InTurn accepting p) : SameLines p (wakes accepting p) := by
  unfold wakes
  split
  · rename_i htask
    exact run_loop_lines (by rw [hand, htask]) fun hstop => hturn (by simp [reads_on_waking, htask, hstop])
  · rename_i htask
    exact run_loop_lines (by rw [hand, htask]) fun hstop => hturn (by simp [reads_on_waking, htask, hstop])
  · rename_i htask
    split
    · exact fun _ => rfl
    · exact take_lines (by rw [hand, htask]) (hturn (by simp [reads_on_waking, htask]))
  · exact fun _ => rfl

theorem turn_ends_lines {ending : TurnEnd} (hturn : p.reads_after_turn ending = true → InTurn accepting p) :
    SameLines p (turn_ends ending accepting p) := by
  unfold turn_ends
  split
  · rename_i env htask
    have hhand : p.hand = some env := by rw [hand, htask]
    have hcontents : p.handled ++ [env] ++ p.waiting_messages = p.contents := by
      rw [contents, hhand]
      rfl
    cases ending with
    | failed => exact .of_contents ((contents_of_none rfl).trans hcontents)
    | raised => exact .of_contents ((contents_of_none rfl).trans hcontents)
    | returned =>
        -- the loop does not look at the task that has just ended
        have hended : SameLines p { p with handled := p.handled ++ [env], status := .IDLE, task := .starting } :=
          .of_contents ((contents_of_none rfl).trans hcontents)
        have hloop : SameLines { p with handled := p.handled ++ [env], status := .IDLE, task := .starting }
            (run_loop accepting { p with handled := p.handled ++ [env], status := .IDLE, task := .starting }) := by
          refine run_loop_lines rfl fun hstop => ?_
          have hrunning : p.stop_event = false := hstop
          exact hturn (by simp [reads_after_turn, hhand, hrunning])
        exact fun k => (hloop k).trans (hended k)
  · exact fun _ => rfl

end AgentProcess

namespace Workforce

/-! ## Deliveries that are awaited -/

/-- The inboxes after a delivery that went through. -/
def arriving (n : Nat) (w : Workforce) : AgentHandle → AgentProcess :=
  match w.orchestrator.tasks[n]? with
  | none => w.processes
  | some task =>
    match task.phase with
    | .delivering env => (w.on_agent task.handle (AgentProcess.deliver env)).processes
    | _ => w.processes

/-- The inboxes after a step of the orchestrator. -/
def arrivals (w : Workforce) : Orchestrator.Label → AgentHandle → AgentProcess
  | .deliver_ends n (.ok _) _ => arriving n w
  | _ => w.processes

/-- One step; the end of a delivery is one of them. -/
def awaited_step (w : Workforce) : Label → Workforce
  | .orchestrator label =>
    { orchestrator := Orchestrator.step w.orchestrator label, processes := arrivals w label }
  | label => step w label

theorem dispatch_awaited (n : Nat) (w : Workforce) :
    dispatch n w = awaited_step w (.orchestrator (.deliver_ends n (.ok ()) 0)) := by
  show _ = Workforce.mk (deliver_ends n (.ok ()) 0 w.orchestrator) (arriving n w)
  unfold dispatch arriving deliver_ends
  cases w.orchestrator.tasks[n]? with
  | none => rfl
  | some task =>
      cases hphase : task.phase with
      | delivering env => simp only [hphase, on_agent]
      | idle | done => simp only [hphase]

/-- **A dispatch that does not wait** is the step of the orchestrator and the end of the delivery. -/
theorem step_awaits (w : Workforce) {label : Orchestrator.Label}
    (hlabel : ∀ n outcome now, label ≠ .deliver_ends n outcome now) :
    step w (.orchestrator label) = exec awaited_step w (.orchestrator label ::
      ((dispatcher w.orchestrator label).map fun n => .orchestrator (.deliver_ends n (.ok ()) 0)).toList) := by
  have hquiet : arrivals w label = w.processes := by
    cases label with
    | deliver_ends n outcome now => exact absurd rfl (hlabel n outcome now)
    | _ => rfl
  have hfirst : awaited_step w (.orchestrator label) =
      { w with orchestrator := Orchestrator.step w.orchestrator label } := by
    rw [awaited_step, hquiet]
  unfold Workforce.step
  dsimp only
  cases dispatcher w.orchestrator label with
  | none => exact hfirst.symm
  | some n =>
      rw [Option.map_some, Option.toList_some, exec_cons, exec_cons, exec_nil, hfirst]
      exact dispatch_awaited n _

/-! ## Order -/

/-- **An orderly step**: what it puts back, it puts behind messages of other senders. -/
def orderly (w : Workforce) : Label → Prop
  | .orchestrator label => Orchestrator.InTurn w.orchestrator label
  | .wakes agent => (w.processes agent).reads_on_waking = true →
      (w.processes agent).InTurn w.orchestrator.accepting
  | .turn_ends agent ending => (w.processes agent).reads_after_turn ending = true →
      (w.processes agent).InTurn w.orchestrator.accepting
  | _ => True

/-- In the orchestrator and in every inbox, the messages of a pair are in order. -/
structure InOrder (w : Workforce) : Prop where
  line : w.orchestrator.InLine
  numbered : w.orchestrator.Numbered
  filed : ∀ agent k, messages k (w.processes agent).contents = messages k (deliveries w.orchestrator agent)

section Steps

variable {w : Workforce}

theorem InOrder.on_agent (h : InOrder w) (agent : AgentHandle) {f : AgentProcess → AgentProcess}
    (hf : (w.processes agent).SameLines (f (w.processes agent))) : InOrder (w.on_agent agent f) where
  line := h.line
  numbered := h.numbered
  filed other k := by
    show messages k (Function.update w.processes agent (f (w.processes agent)) other).contents = _
    by_cases heq : other = agent
    · subst heq
      rw [Function.update_self, hf k]
      exact h.filed other k
    · rw [Function.update_of_ne heq]
      exact h.filed other k

/-- A step of the orchestrator that delivers nothing. -/
theorem InOrder.of_orchestrator (h : InOrder w) {label : Orchestrator.Label}
    (hC : Orchestrator.InTurn w.orchestrator label) (hquiet : arrivals w label = w.processes)
    (hsame : (Orchestrator.step w.orchestrator label).delivered = w.orchestrator.delivered) :
    InOrder (awaited_step w (.orchestrator label)) where
  line := h.line.step hC
  numbered := h.numbered.step label
  filed agent k := by
    show messages k (arrivals w label agent).contents =
      messages k (deliveries (Orchestrator.step w.orchestrator label) agent)
    rw [hquiet, deliveries, hsame]
    exact h.filed agent k

/-- A delivery that went through. -/
theorem InOrder.arrived (h : InOrder w) {n : Nat} {now : Time} {task : ConsumerTask} {env : MessageEnvelope}
    (hC : Orchestrator.InTurn w.orchestrator (.deliver_ends n (.ok ()) now))
    (hn : w.orchestrator.tasks[n]? = some task) (hphase : task.phase = .delivering env) :
    InOrder (awaited_step w (.orchestrator (.deliver_ends n (.ok ()) now))) where
  line := h.line.step hC
  numbered := h.numbered.step _
  filed agent k := by
    have hdelivered : (deliver_ends n (.ok ()) now w.orchestrator).delivered =
        w.orchestrator.delivered ++ [{ handle := task.handle, envelope := env }] := by
      rw [deliver_ends, hn]
      dsimp only
      rw [hphase]
      rfl
    have harrived : arrivals w (.deliver_ends n (.ok ()) now) =
        (w.on_agent task.handle (AgentProcess.deliver env)).processes := by
      show arriving n w = _
      unfold arriving
      rw [hn]
      dsimp only
      rw [hphase]
    show messages k (arrivals w (.deliver_ends n (.ok ()) now) agent).contents =
      messages k (deliveries (deliver_ends n (.ok ()) now w.orchestrator) agent)
    rw [harrived, deliveries, hdelivered, List.filter_append, List.map_append]
    show messages k (Function.update w.processes task.handle _ agent).contents = _
    by_cases heq : agent = task.handle
    · subst heq
      rw [Function.update_self, AgentProcess.deliver_contents, List.filter_singleton, decide_eq_true rfl]
      unfold messages
      rw [line_append, line_append]
      exact congrArg (· ++ _) (h.filed task.handle k)
    · have hother : ¬ task.handle = agent := fun h => heq h.symm
      rw [Function.update_of_ne heq, List.filter_singleton, decide_eq_false hother]
      show _ = messages k (deliveries w.orchestrator agent ++ [])
      rw [List.append_nil]
      exact h.filed agent k

/-- A delivery that raised delivered nothing. -/
theorem error_delivered (n : Nat) (e : Exn) (now : Time) (o : Orchestrator) :
    (deliver_ends n (.error e) now o).delivered = o.delivered := by
  unfold deliver_ends end_delivery
  split
  · rfl
  · split
    · dsimp only
      split
      · unfold retry
        split
        · rfl
        · cases hback : push_back _ o with
          | none => rfl
          | some o' => exact (push_back_same hback).1.delivered
      · rfl
    · rfl

/-- **An orderly step keeps the order.** -/
theorem InOrder.step (h : InOrder w) {label : Label} (hC : orderly w label) : InOrder (awaited_step w label) := by
  cases label with
  | start agent persona_loads => exact h.on_agent agent (.of_contents (AgentProcess.start_contents _ _))
  | wakes agent => exact h.on_agent agent (AgentProcess.wakes_lines hC)
  | turn_ends agent ending => exact h.on_agent agent (AgentProcess.turn_ends_lines hC)
  | stop agent drain => exact h.on_agent agent (.of_contents (AgentProcess.stop_contents _ _))
  | stop_goes_on agent k => exact h.on_agent agent (.of_contents (AgentProcess.stop_goes_on_contents _ _))
  | orchestrator label =>
      -- only a delivery that goes through reaches an inbox
      cases label with
      | deliver_ends n outcome now =>
          cases outcome with
          | error e => exact h.of_orchestrator hC rfl (error_delivered n e now w.orchestrator)
          | ok u =>
              cases hn : w.orchestrator.tasks[n]? with
              | none =>
                  refine h.of_orchestrator hC ?_ ?_
                  · show arriving n w = _
                    rw [arriving, hn]
                  · show (deliver_ends n _ now w.orchestrator).delivered = _
                    rw [deliver_ends, hn]
              | some task =>
                  cases hphase : task.phase with
                  | delivering env => exact h.arrived hC hn hphase
                  | idle | done =>
                      refine h.of_orchestrator hC ?_ ?_
                      · show arriving n w = _
                        rw [arriving, hn]
                        dsimp only
                        rw [hphase]
                      · show (deliver_ends n _ now w.orchestrator).delivered = _
                        rw [deliver_ends, hn]
                        dsimp only
                        rw [hphase]
      | _ =>
          refine h.of_orchestrator hC rfl (step_records ?_ w.orchestrator).1
          intro n outcome now heq
          cases heq

end Steps

/-- Nothing was accepted twice, and what one sender has sent to one recipient is delivered to it, and handled by each
    of its agents, in the order in which it was accepted. -/
def DeliversInOrder (w : Workforce) : Prop :=
  w.orchestrator.sent.Nodup ∧ ∀ sender recipient,
    (messages (sender, recipient) (w.orchestrator.delivered.map Delivery.envelope)).Sublist w.orchestrator.sent ∧
    ∀ agent, (messages (sender, recipient) (w.processes agent).handled).Sublist w.orchestrator.sent

theorem InOrder.delivers {w : Workforce} (h : InOrder w) : DeliversInOrder w := by
  refine ⟨sent_nodup h.numbered, fun sender recipient => ?_⟩
  have hdelivered : (messages (sender, recipient) (w.orchestrator.delivered.map Delivery.envelope)).Sublist
      w.orchestrator.sent := by
    refine List.Sublist.trans ?_ (h.line.order (sender, recipient))
    unfold pipeline
    rw [List.append_assoc]
    exact line_sublist (List.sublist_append_left _ _) _
  refine ⟨hdelivered, fun agent => ?_⟩
  have hhandled : (w.processes agent).handled.Sublist (w.processes agent).contents := by
    unfold AgentProcess.contents
    rw [List.append_assoc]
    exact List.sublist_append_left _ _
  -- what was handled is the front of what was filed, and the filed messages are in the order of the deliveries
  have hcontents : (messages (sender, recipient) (w.processes agent).handled).Sublist
      (messages (sender, recipient) (deliveries w.orchestrator agent)) := by
    rw [← h.filed agent (sender, recipient)]
    exact line_sublist hhandled _
  have hfiled : (deliveries w.orchestrator agent).Sublist (w.orchestrator.delivered.map Delivery.envelope) :=
    List.filter_sublist.map Delivery.envelope
  exact hcontents.trans ((line_sublist hfiled _).trans hdelivered)

/-- **First in, first out.** In a run in which no step puts a message back behind another one of its sender, each
    recipient gets the messages of each sender in the order in which they were accepted. -/
theorem delivers_in_order (org : List OrgRow) (events : EventStore) (rate : RateLimitConfig)
    (loop_config : LoopDetectorConfig) (lower : String → String) (run : List Label)
    (h : Along awaited_step orderly (fresh org events rate loop_config lower) run) :
    DeliversInOrder (exec awaited_step (fresh org events rate loop_config lower) run) := by
  have hfresh : InOrder (fresh org events rate loop_config lower) :=
    ⟨InLine.fresh org events rate loop_config lower, rfl, fun _ _ => rfl⟩
  exact (exec_invariant_along (fun _ _ h hC => h.step hC) hfresh h).delivers

/-- One message: its first delivery fails, the second one does not, and the agent handles it. -/
theorem delivers_in_order_small :
    DeliversInOrder (exec awaited_step (fresh ceo_and_engineer .quiet {} {} id)
      [.orchestrator (.register ⟨"ceo", 0⟩), .orchestrator (.register ⟨"eng", 1⟩), .orchestrator .start,
        .start ⟨"eng", 1⟩ true, .orchestrator (.send greeting), .orchestrator (.poll 1),
        .orchestrator (.deliver_ends 1 (.error (.other "RuntimeError" "busy")) 0), .orchestrator (.poll 1),
        .orchestrator (.deliver_ends 1 (.ok ()) 1), .wakes ⟨"eng", 1⟩, .turn_ends ⟨"eng", 1⟩ .returned]) := by
  refine delivers_in_order _ _ _ _ _ _ ⟨trivial, trivial, trivial, trivial, trivial, ?_, ?_, ?_, ?_, ?_, ?_, trivial⟩
  · intro task env queue _ _ _ _ _
    exact .of_free (by decide +kernel) (by decide +kernel)
  · intro task env e _ _ _ _ _ _
    exact Apart.of_nil (by decide +kernel)
  · intro task env queue _ _ _ _ _
    exact .of_free (by decide +kernel) (by decide +kernel)
  · intro task env e _ _ he
    cases he
  · intro _ haccepting
    exact absurd haccepting (by decide +kernel)
  · intro _ haccepting
    exact absurd haccepting (by decide +kernel)

/-- **Overtaken.** Two messages are queued; a consumer takes up the first one while the company is paused, and puts
    it behind the second one. -/
theorem overtaken :
    ¬ DeliversInOrder (exec awaited_step (fresh ceo_and_engineer .quiet {} {} id)
      [.orchestrator (.register ⟨"ceo", 0⟩), .orchestrator (.register ⟨"eng", 1⟩), .orchestrator .start,
        .orchestrator (.send greeting), .orchestrator (.send { greeting with content := "there" }),
        .orchestrator (.clock false), .orchestrator (.poll 1), .orchestrator (.clock true),
        .orchestrator (.poll 1), .orchestrator (.deliver_ends 1 (.ok ()) 0),
        .orchestrator (.poll 1), .orchestrator (.deliver_ends 1 (.ok ()) 0)]) := by
  intro h
  exact absurd (h.2 (some "ceo") "eng").1 (by decide +kernel)

end Workforce

end CompanyFactory
