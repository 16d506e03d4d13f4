import CompanyFactory.AgentRuntime.Process
import CompanyFactory.Orchestrator.Losses

/-!
# `Factory.Idle` — what an idle company has left to do

The orchestrator of a company with the agents it dispatches to. `Agent.deliver` does not wait, so that a dispatch is
over in the step in which it begins; from then on the message is in the inbox of the agent.

`is_company_idle` looks at the queues and the statuses of the registered agents. **It does not look at their
inboxes**, and not at agents that are not registered (any more). `Attended` says that nothing is there.

* `Balanced` — what was delivered is with the agent, in its inbox, in hand or handled, and nothing is on its way.
* `idle_means_settled` — an idle company has settled all it has accepted, for good, exactly if it is `Attended` and no
  step has dropped an envelope.
* `idle_drops` — a pause that comes between the dispatch and the turn, and a close that finds the company idle.
-/

namespace CompanyFactory

open Act Machine Orchestrator

structure Workforce where
  orchestrator : Orchestrator
  processes : AgentHandle → AgentProcess

namespace Workforce

/-- `is_company_idle` -/
def is_company_idle (w : Workforce) : Bool :=
  w.orchestrator.agents.all fun agent =>
    decide (w.orchestrator.queue.bucket agent.id = []) &&
      decide ((w.processes agent).status = .IDLE ∨ (w.processes agent).status = .STOPPED)

/-- Something happens to one agent. -/
def on_agent (agent : AgentHandle) (f : AgentProcess → AgentProcess) (w : Workforce) : Workforce :=
  { w with processes := Function.update w.processes agent (f (w.processes agent)) }

/-- `_dispatch`: the task that has an envelope in its hands delivers it. -/
def dispatch (n : Nat) (w : Workforce) : Workforce :=
  match w.orchestrator.tasks[n]? with
  | none => w
  | some task =>
    match task.phase with
    | .delivering env =>
      { (w.on_agent task.handle (AgentProcess.deliver env)) with
        orchestrator := deliver_ends n (.ok ()) 0 w.orchestrator }
    | _ => w

inductive Label where
  | orchestrator (label : Orchestrator.Label)
  | start (agent : AgentHandle) (persona_loads : Bool)
  | wakes (agent : AgentHandle)
  | turn_ends (agent : AgentHandle) (ending : AgentProcess.TurnEnd)
  | stop (agent : AgentHandle) (drain : Bool)
  | stop_goes_on (agent : AgentHandle) (k : Nat)

/-- The task that a step may leave with an envelope. -/
def dispatcher (o : Orchestrator) : Orchestrator.Label → Option Nat
  | .poll n => some n
  | .drain _ => some o.tasks.length
  | _ => none

def step (w : Workforce) : Label → Workforce
  | .orchestrator label =>
    let w' := { w with orchestrator := Orchestrator.step w.orchestrator label }
    match dispatcher w.orchestrator label with
    | some n => dispatch n w'
    | none => w'
  | .start agent persona_loads => w.on_agent agent (AgentProcess.start persona_loads)
  | .wakes agent => w.on_agent agent (AgentProcess.wakes w.orchestrator.accepting)
  | .turn_ends agent ending => w.on_agent agent (AgentProcess.turn_ends ending w.orchestrator.accepting)
  | .stop agent drain => w.on_agent agent (AgentProcess.stop drain)
  | .stop_goes_on agent k => w.on_agent agent (AgentProcess.stop_goes_on k)

/-- A new orchestrator, and agents that were not started yet. -/
def fresh (org : List OrgRow) (events : EventStore) (rate : RateLimitConfig) (loop_config : LoopDetectorConfig)
    (lower : String → String) : Workforce :=
  { orchestrator := Orchestrator.fresh org events rate loop_config lower, processes := fun _ => {} }

/-! ## Where the deliveries are -/

/-- What was delivered to an agent. -/
def deliveries (o : Orchestrator) (agent : AgentHandle) : List MessageEnvelope :=
  (o.delivered.filter fun d => d.handle = agent).map Delivery.envelope

/-- Every delivery is with its agent. -/
structure Filed (w : Workforce) : Prop where
  given : ∀ agent, (w.processes agent).contents.Perm (deliveries w.orchestrator agent)
  addressed : ∀ d ∈ w.orchestrator.delivered, d.handle.id = d.envelope.to_agent
  honest : ∀ agent, (w.processes agent).Honest

/-- No task has an envelope in its hands. -/
def Free (o : Orchestrator) : Prop := ∀ n, delivering o n = none

structure Balanced (w : Workforce) : Prop where
  filed : Filed w
  free : Free w.orchestrator

section Steps

variable {w : Workforce}

theorem Filed.of_orchestrator (h : Filed w) {o : Orchestrator} (hsame : o.delivered = w.orchestrator.delivered) :
    Filed { w with orchestrator := o } where
  given agent := by
    have heq : deliveries o agent = deliveries w.orchestrator agent := by rw [deliveries, hsame, deliveries]
    show (w.processes agent).contents.Perm (deliveries o agent)
    rw [heq]
    exact h.given agent
  addressed := by
    show ∀ d ∈ o.delivered, _
    rw [hsame]
    exact h.addressed
  honest := h.honest

/-- An agent does something of its own. -/
theorem Filed.on_agent (h : Filed w) (agent : AgentHandle) {f : AgentProcess → AgentProcess}
    (hf : (w.processes agent).Keeps (f (w.processes agent))) : Filed (w.on_agent agent f) where
  given other := by
    by_cases heq : other = agent
    · subst heq
      show (Function.update w.processes other (f (w.processes other)) other).contents.Perm _
      rw [Function.update_self]
      exact hf.contents.trans (h.given other)
    · show (Function.update w.processes agent (f (w.processes agent)) other).contents.Perm _
      rw [Function.update_of_ne heq]
      exact h.given other
  addressed := h.addressed
  honest other := by
    by_cases heq : other = agent
    · subst heq
      show (Function.update w.processes other (f (w.processes other)) other).Honest
      rw [Function.update_self]
      exact hf.honest (h.honest other)
    · show (Function.update w.processes agent (f (w.processes agent)) other).Honest
      rw [Function.update_of_ne heq]
      exact h.honest other

/-! ### A dispatch -/

variable {n : Nat} {task : ConsumerTask} {env : MessageEnvelope}

theorem dispatch_of_free (hfree : delivering w.orchestrator n = none) : dispatch n w = w := by
  unfold dispatch
  split
  · rfl
  · rename_i task hn
    split
    · rename_i env hphase
      rw [delivering, hn] at hfree
      have hhand : task.hand = none := hfree
      rw [hand_delivering hphase] at hhand
      cases hhand
    · rfl

/-- The orchestrator after a dispatch. -/
theorem dispatch_eq (hn : w.orchestrator.tasks[n]? = some task) (hphase : task.phase = .delivering env) :
    dispatch n w = { (w.on_agent task.handle (AgentProcess.deliver env)) with
      orchestrator := resumed n task { w.orchestrator with
        delivered := w.orchestrator.delivered ++ [{ handle := task.handle, envelope := env }] } } := by
  have hends : deliver_ends n (.ok ()) 0 w.orchestrator = resumed n task { w.orchestrator with
      delivered := w.orchestrator.delivered ++ [{ handle := task.handle, envelope := env }] } := by
    rw [deliver_ends, hn]
    dsimp only
    rw [hphase]
    rfl
  rw [dispatch, hn]
  dsimp only
  rw [hphase]
  dsimp only
  rw [hends]

/-- A dispatch puts the envelope into the inbox of the agent. -/
theorem Filed.dispatch (h : Filed w) (hn : w.orchestrator.tasks[n]? = some task)
    (hphase : task.phase = .delivering env) (hto : task.handle.id = env.to_agent) : Filed (dispatch n w) := by
  rw [dispatch_eq hn hphase]
  refine ⟨fun agent => ?_, fun d hmem => ?_, fun agent => ?_⟩
  · show (Function.update w.processes task.handle _ agent).contents.Perm
      (((w.orchestrator.delivered ++ [_]).filter _).map _)
    rw [List.filter_append, List.map_append]
    by_cases heq : agent = task.handle
    · subst heq
      rw [Function.update_self, AgentProcess.deliver_contents]
      simpa [deliveries] using (h.given task.handle).append_right [env]
    · rw [Function.update_of_ne heq]
      have hother : ¬ task.handle = agent := fun h => heq h.symm
      simpa [hother, deliveries] using h.given agent
  · rcases List.mem_append.mp hmem with hold | hlast
    · exact h.addressed d hold
    · rw [List.mem_singleton.mp hlast]
      exact hto
  · show (Function.update w.processes task.handle _ agent).Honest
    by_cases heq : agent = task.handle
    · subst heq
      rw [Function.update_self]
      exact h.honest task.handle
    · rw [Function.update_of_ne heq]
      exact h.honest agent

/-! ### Every step -/

/-- A step that begins no delivery leaves the tasks free. -/
theorem Free.step {o : Orchestrator} (h : Free o) {label : Orchestrator.Label}
    (hno : ∀ env, ¬ Begins o label env) : Free (Orchestrator.step o label) := by
  intro n
  cases hnew : delivering (Orchestrator.step o label) n with
  | none => rfl
  | some env =>
      have hbegun : Begun o (Orchestrator.step o label) env := ⟨n, hnew, by rw [h n]; nofun⟩
      exact absurd ((begun_iff o label env).mp hbegun) (hno env)

theorem deliver_ends_of_free {o : Orchestrator} (h : Free o) (n : Nat) (outcome : Except Exn Unit) (now : Time) :
    deliver_ends n outcome now o = o := by
  unfold deliver_ends
  split
  · rfl
  · rename_i task hn
    split
    · rename_i env hphase
      have hfree := h n
      rw [delivering, hn] at hfree
      have hhand : task.hand = none := hfree
      rw [hand_delivering hphase] at hhand
      cases hhand
    · rfl

/-- Only the task that dispatches has an envelope, and after the dispatch none has. -/
theorem free_after_dispatch (hn : w.orchestrator.tasks[n]? = some task) (hphase : task.phase = .delivering env)
    (hothers : ∀ m, m ≠ n → delivering w.orchestrator m = none) : Free (dispatch n w).orchestrator := by
  rw [dispatch_eq hn hphase]
  intro m
  have hset : delivering (resumed n task { w.orchestrator with
      delivered := w.orchestrator.delivered ++ [{ handle := task.handle, envelope := env }] }) m =
      if m = n then _ else delivering w.orchestrator m := delivering_set hn m
  refine hset.trans ?_
  split
  · exact resumed_hand task
  · rename_i hm
    exact hothers m hm

theorem Balanced.polled (h : Balanced w) (n : Nat) : Balanced (step w (.orchestrator (.poll n))) := by
  have hfiled : Filed { w with orchestrator := poll n w.orchestrator } :=
    h.filed.of_orchestrator (poll_records n w.orchestrator).delivered
  show Balanced (dispatch n { w with orchestrator := poll n w.orchestrator })
  by_cases hsome : ∃ env, Begins w.orchestrator (.poll n) env
  · obtain ⟨env, hbegins⟩ := hsome
    obtain ⟨task, queue, hn, hidle, -, hpoll⟩ := poll_of_begins hbegins
    have hnext : (poll n w.orchestrator).tasks[n]? = some { task with phase := .delivering env } := by
      rw [hpoll]
      exact List.getElem?_set_self (List.getElem?_eq_some_iff.mp hn).1
    have hto : task.handle.id = env.to_agent := by
      cases hbegins with
      | poll _ task' _ hn' _ _ _ _ hhead =>
          rw [hn] at hn'
          cases hn'
          exact (mem_bucket_of_head hhead).symm
    refine ⟨hfiled.dispatch hnext rfl hto, free_after_dispatch hnext rfl fun m hm => ?_⟩
    show delivering (poll n w.orchestrator) m = none
    have hset : delivering (handed n task env queue w.orchestrator) m =
        if m = n then _ else delivering w.orchestrator m := delivering_set (o := { w.orchestrator with queue }) hn m
    rw [hpoll, hset, if_neg hm]
    exact h.free m
  · have hfree : Free (poll n w.orchestrator) := h.free.step (not_exists.mp hsome)
    rw [dispatch_of_free (hfree n)]
    exact ⟨hfiled, hfree⟩

theorem Balanced.drained (h : Balanced w) (agent : AgentHandle) :
    Balanced (step w (.orchestrator (.drain agent))) := by
  have hfiled : Filed { w with orchestrator := drain agent w.orchestrator } :=
    h.filed.of_orchestrator (drain_records agent w.orchestrator).delivered
  show Balanced (dispatch w.orchestrator.tasks.length { w with orchestrator := drain agent w.orchestrator })
  by_cases hsome : ∃ env, Begins w.orchestrator (.drain agent) env
  · obtain ⟨env, hbegins⟩ := hsome
    obtain ⟨queue, -, hdrain⟩ := drain_of_begins hbegins
    have hnext : (drain agent w.orchestrator).tasks[w.orchestrator.tasks.length]? =
        some { handle := agent, loops := false, phase := .delivering env, cancelling := false } := by
      rw [hdrain]
      exact List.getElem?_concat_length
    have hto : agent.id = env.to_agent := by
      cases hbegins with
      | drain _ _ _ hhead => exact (mem_bucket_of_head hhead).symm
    refine ⟨hfiled.dispatch hnext rfl hto, free_after_dispatch hnext rfl fun m hm => ?_⟩
    show delivering (drain agent w.orchestrator) m = none
    cases hnew : delivering (drain agent w.orchestrator) m with
    | none => rfl
    | some env' =>
        have hlt : m < (drain agent w.orchestrator).tasks.length := by
          obtain ⟨task, htask, -⟩ := Option.bind_eq_some_iff.mp hnew
          exact (List.getElem?_eq_some_iff.mp htask).1
        rw [hdrain] at hlt hnew
        have hlen : (Orchestrator.drained agent env queue w.orchestrator).tasks.length = w.orchestrator.tasks.length + 1 :=
          List.length_append
        have hold : delivering (Orchestrator.drained agent env queue w.orchestrator) m = delivering w.orchestrator m := by
          rw [delivering, delivering]
          exact congrArg (Option.bind · ConsumerTask.hand) (List.getElem?_append_left (by omega))
        rw [hold, h.free m] at hnew
        cases hnew
  · have hfree : Free (drain agent w.orchestrator) := h.free.step (not_exists.mp hsome)
    rw [dispatch_of_free (hfree _)]
    exact ⟨hfiled, hfree⟩

/-- **Nothing that was delivered gets lost**, whatever the step is. -/
theorem Balanced.step (h : Balanced w) (label : Label) : Balanced (step w label) := by
  cases label with
  | start agent persona_loads => exact ⟨h.filed.on_agent agent (AgentProcess.start_keeps _ _), h.free⟩
  | wakes agent => exact ⟨h.filed.on_agent agent (AgentProcess.wakes_keeps _ _), h.free⟩
  | turn_ends agent ending => exact ⟨h.filed.on_agent agent (AgentProcess.turn_ends_keeps _ _ _), h.free⟩
  | stop agent drain => exact ⟨h.filed.on_agent agent (AgentProcess.stop_keeps _ _), h.free⟩
  | stop_goes_on agent k => exact ⟨h.filed.on_agent agent (AgentProcess.stop_goes_on_keeps _ _), h.free⟩
  | orchestrator label =>
      cases label with
      | poll n => exact h.polled n
      | drain agent => exact h.drained agent
      | deliver_ends n outcome now =>
          have hstep : Workforce.step w (.orchestrator (.deliver_ends n outcome now)) =
              { w with orchestrator := deliver_ends n outcome now w.orchestrator } := rfl
          rw [hstep, deliver_ends_of_free h.free]
          exact h
      | _ =>
          refine ⟨h.filed.of_orchestrator (step_records ?_ w.orchestrator).1, h.free.step fun _ => nofun⟩
          intro n outcome now h
          cases h

/-- The step drops no envelope. -/
def keeps (w : Workforce) : Label → Prop
  | .orchestrator label => Keeps w.orchestrator label
  | _ => True

/-- A dispatch moves an envelope. -/
theorem dispatch_same (n : Nat) (w : Workforce) : SameCensus w.orchestrator (dispatch n w).orchestrator := by
  unfold dispatch
  split
  · exact .refl _
  · split
    · have hok : Keeps w.orchestrator (.deliver_ends n (.ok ()) 0) := fun _ _ _ _ _ => nofun
      exact deliver_ends_same hok
    · exact .refl _

/-- What a run keeps. -/
structure Steady (w : Workforce) : Prop where
  balanced : Balanced w
  conserved : Conserved w.orchestrator

theorem Steady.step (h : Steady w) {label : Label} (hkeeps : keeps w label) : Steady (step w label) := by
  refine ⟨h.balanced.step label, ?_⟩
  cases label with
  | orchestrator label =>
      have hstep := step_conserved h.conserved hkeeps
      unfold Workforce.step
      dsimp only
      split
      · exact hstep.of_same (dispatch_same _ _)
      · exact hstep
  | _ => exact h.conserved

end Steps

theorem fresh_steady (org : List OrgRow) (events : EventStore) (rate : RateLimitConfig)
    (loop_config : LoopDetectorConfig) (lower : String → String) :
    Steady (fresh org events rate loop_config lower) where
  balanced :=
    { filed :=
        { given := fun _ => .refl _
          addressed := fun _ h => absurd h List.not_mem_nil
          honest := fun _ => .of_none rfl }
      free := fun _ => rfl }
  conserved := fresh_conserved org events rate loop_config lower

/-! ## Settled messages -/

/-- The message was handled by an agent of its recipient, or given up. -/
def Settled (w : Workforce) (env : MessageEnvelope) : Prop :=
  (∃ agent : AgentHandle, agent.id = env.to_agent ∧ env ∈ (w.processes agent).handled.map MessageEnvelope.message) ∨
    env ∈ w.orchestrator.queue.dlq.map fun dead => dead.envelope.message

section Settled

variable {w : Workforce} {env : MessageEnvelope}

/-- What is handled or given up stays so. -/
def Grows (w w' : Workforce) : Prop :=
  (∀ agent, (w.processes agent).handled <+: (w'.processes agent).handled) ∧
    w'.orchestrator.queue.dlq = w.orchestrator.queue.dlq

theorem Settled.grows {w' : Workforce} (h : Settled w env) (hgrows : Grows w w') : Settled w' env := by
  rcases h with ⟨agent, hid, hmem⟩ | hdead
  · exact .inl ⟨agent, hid, ((hgrows.1 agent).map _).subset hmem⟩
  · right
    rw [hgrows.2]
    exact hdead

theorem on_agent_grows (w : Workforce) (agent : AgentHandle) {f : AgentProcess → AgentProcess}
    (hf : (w.processes agent).handled <+: (f (w.processes agent)).handled) : Grows w (w.on_agent agent f) := by
  refine ⟨fun other => ?_, rfl⟩
  show _ <+: (Function.update w.processes agent (f (w.processes agent)) other).handled
  by_cases heq : other = agent
  · subst heq
    rw [Function.update_self]
    exact hf
  · have hsame : Function.update w.processes agent (f (w.processes agent)) other = w.processes other :=
      Function.update_of_ne heq _ _
    exact hsame ▸ List.prefix_rfl

theorem dispatch_grows (n : Nat) (w : Workforce) : Grows w (dispatch n w) := by
  unfold dispatch
  split
  · exact ⟨fun _ => List.prefix_rfl, rfl⟩
  · rename_i task hn
    split
    · rename_i env hphase
      refine ⟨(on_agent_grows w task.handle List.prefix_rfl).1, ?_⟩
      show (deliver_ends n (.ok ()) 0 w.orchestrator).queue.dlq = _
      rw [deliver_ends, hn]
      dsimp only
      rw [hphase]
      rfl
    · exact ⟨fun _ => List.prefix_rfl, rfl⟩

theorem step_grows (h : Balanced w) (label : Label) : Grows w (step w label) := by
  cases label with
  | start agent persona_loads => exact on_agent_grows w agent (AgentProcess.start_keeps _ _).handled
  | wakes agent => exact on_agent_grows w agent (AgentProcess.wakes_keeps _ _).handled
  | turn_ends agent ending => exact on_agent_grows w agent (AgentProcess.turn_ends_keeps _ _ _).handled
  | stop agent drain => exact on_agent_grows w agent (AgentProcess.stop_keeps _ _).handled
  | stop_goes_on agent k => exact on_agent_grows w agent (AgentProcess.stop_goes_on_keeps _ _).handled
  | orchestrator label =>
      have hdlq : (Orchestrator.step w.orchestrator label).queue.dlq = w.orchestrator.queue.dlq := by
        cases label with
        | deliver_ends n outcome now =>
            show (deliver_ends n outcome now w.orchestrator).queue.dlq = _
            rw [deliver_ends_of_free h.free]
        | _ => exact (step_records (by intro _ _ _ h; cases h) w.orchestrator).2
      unfold Workforce.step
      dsimp only
      split
      · rename_i n _
        have hdispatch := dispatch_grows n { w with orchestrator := Orchestrator.step w.orchestrator label }
        exact ⟨hdispatch.1, hdispatch.2.trans hdlq⟩
      · exact ⟨fun _ => List.prefix_rfl, hdlq⟩

/-- **Settled once, settled for good.** -/
theorem Settled.exec (h : Settled w env) (hbalanced : Balanced w) (run : List Label) :
    Settled (Machine.exec step w run) env := by
  have hstep : ∀ w label, (Balanced w ∧ Settled w env) → Balanced (step w label) ∧ Settled (step w label) env := by
    rintro w label ⟨hbalanced, h⟩
    exact ⟨hbalanced.step label, h.grows (step_grows hbalanced label)⟩
  exact (exec_invariant hstep ⟨hbalanced, h⟩ run).2

end Settled

/-! ## Idle -/

/-- Nothing is where `is_company_idle` does not look: in an inbox, in the hands of an agent that is not registered, in
    the queue of one. -/
structure Attended (w : Workforce) : Prop where
  inboxes : ∀ agent, (w.processes agent).waiting_messages = []
  hands : ∀ agent, (w.processes agent).hand ≠ none → agent ∈ w.orchestrator.agents
  queues : ∀ agent_id, w.orchestrator.registered agent_id = none → w.orchestrator.queue.bucket agent_id = []

section Idle

variable {w : Workforce} {env : MessageEnvelope}

theorem idle_agent (hidle : w.is_company_idle = true) {agent : AgentHandle} (hmem : agent ∈ w.orchestrator.agents) :
    w.orchestrator.queue.bucket agent.id = [] ∧ (w.processes agent).status ≠ .WORKING := by
  have hall := List.all_eq_true.mp hidle agent hmem
  rw [Bool.and_eq_true, decide_eq_true_eq, decide_eq_true_eq] at hall
  refine ⟨hall.1, ?_⟩
  rcases hall.2 with hstatus | hstatus
  · rw [hstatus]
    decide
  · rw [hstatus]
    decide

/-- What is in the contents of an agent was delivered to it. -/
theorem Filed.delivered (h : Filed w) {agent : AgentHandle} (hmem : env ∈ (w.processes agent).contents) :
    ∃ d ∈ w.orchestrator.delivered, d.handle = agent ∧ d.envelope = env := by
  rw [(h.given agent).mem_iff, deliveries] at hmem
  obtain ⟨d, hd, rfl⟩ := List.mem_map.mp hmem
  obtain ⟨hd, hhandle⟩ := List.mem_filter.mp hd
  exact ⟨d, hd, by simpa using hhandle, rfl⟩

/-- **An attended company that is idle has settled everything.** -/
theorem Attended.settled (h : Attended w) (hsteady : Steady w) (hidle : w.is_company_idle = true)
    (hsent : env ∈ w.orchestrator.sent) : Settled w env := by
  rw [← hsteady.conserved.census.mem_iff] at hsent
  obtain ⟨e, hlocated, rfl⟩ := List.mem_map.mp hsent
  unfold located at hlocated
  simp only [List.mem_append] at hlocated
  obtain ((hqueue | hhand) | hdelivered) | hdead := hlocated
  · have hbucket : e ∈ w.orchestrator.queue.bucket e.to_agent := List.mem_filter.mpr ⟨hqueue, by simp⟩
    have hempty : w.orchestrator.queue.bucket e.to_agent = [] := by
      cases hregistered : w.orchestrator.registered e.to_agent with
      | none => exact h.queues _ hregistered
      | some agent =>
          have hid : agent.id = e.to_agent := by simpa using List.find?_some hregistered
          rw [← hid]
          exact (idle_agent hidle (List.mem_of_find?_eq_some hregistered)).1
    rw [hempty] at hbucket
    exact absurd hbucket List.not_mem_nil
  · obtain ⟨task, htask, hhand⟩ := List.mem_filterMap.mp hhand
    obtain ⟨n, hn⟩ := List.mem_iff_getElem?.mp htask
    have hfree := hsteady.balanced.free n
    rw [delivering, hn, Option.bind_some, hhand] at hfree
    cases hfree
  · obtain ⟨d, hd, rfl⟩ := List.mem_map.mp hdelivered
    have hcontents : d.envelope ∈ (w.processes d.handle).contents := by
      rw [(hsteady.balanced.filed.given d.handle).mem_iff]
      exact List.mem_map.mpr ⟨d, List.mem_filter.mpr ⟨hd, by simp⟩, rfl⟩
    unfold AgentProcess.contents at hcontents
    rw [h.inboxes d.handle, List.append_nil] at hcontents
    rcases List.mem_append.mp hcontents with hhandled | hhand
    · exact .inl ⟨d.handle, hsteady.balanced.filed.addressed d hd, List.mem_map_of_mem hhandled⟩
    · have hne : (w.processes d.handle).hand ≠ none := by
        rw [Option.mem_toList] at hhand
        rw [hhand]
        exact Option.some_ne_none _
      have hworking := hsteady.balanced.filed.honest d.handle hne
      exact absurd hworking (idle_agent hidle (h.hands d.handle hne)).2
  · obtain ⟨dead, hmem, rfl⟩ := List.mem_map.mp hdead
    exact .inr (List.mem_map.mpr ⟨dead, hmem, rfl⟩)

/-! ### One place for each message -/

/-- The messages of the queue, of the deliveries and of the dead letters are all different. -/
theorem Steady.apart (h : Steady w) :
    (∀ e ∈ w.orchestrator.queue.queues, ∀ d ∈ w.orchestrator.delivered, e.message ≠ d.envelope.message) ∧
    (∀ e ∈ w.orchestrator.queue.queues, ∀ dead ∈ w.orchestrator.queue.dlq, e.message ≠ dead.envelope.message) ∧
    (∀ d ∈ w.orchestrator.delivered, ∀ dead ∈ w.orchestrator.queue.dlq,
      d.envelope.message ≠ dead.envelope.message) ∧
    (w.orchestrator.delivered.map fun d => d.envelope.message).Nodup := by
  have hnodup : (w.orchestrator.located.map MessageEnvelope.message).Nodup :=
    h.conserved.census.nodup_iff.mpr (Orchestrator.sent_nodup h.conserved.numbered)
  unfold located at hnodup
  simp only [List.map_append, List.map_map] at hnodup
  obtain ⟨hfirst, -, hdead⟩ := List.nodup_append.mp hnodup
  obtain ⟨-, hdelivered, hqueue⟩ := List.nodup_append.mp hfirst
  refine ⟨fun e he d hd => ?_, fun e he dead hmem => ?_, fun d hd dead hmem => ?_, hdelivered⟩
  · exact hqueue _ (List.mem_append_left _ (List.mem_map_of_mem he)) _ (List.mem_map.mpr ⟨d, hd, rfl⟩)
  · refine hdead _ ?_ _ (List.mem_map.mpr ⟨dead, hmem, rfl⟩)
    exact List.mem_append_left _ (List.mem_append_left _ (List.mem_map_of_mem he))
  · exact hdead _ (List.mem_append_right _ (List.mem_map.mpr ⟨d, hd, rfl⟩)) _ (List.mem_map.mpr ⟨dead, hmem, rfl⟩)

/-- A settled message was handled in a delivery, or is a dead letter. -/
theorem Settled.place (h : Settled w env) (hfiled : Filed w) :
    (∃ d ∈ w.orchestrator.delivered, d.envelope ∈ (w.processes d.handle).handled ∧ d.envelope.message = env) ∨
      ∃ dead ∈ w.orchestrator.queue.dlq, dead.envelope.message = env := by
  rcases h with ⟨agent, -, hmem⟩ | hdead
  · obtain ⟨e, he, rfl⟩ := List.mem_map.mp hmem
    have hcontents : e ∈ (w.processes agent).contents :=
      List.mem_append_left _ (List.mem_append_left _ he)
    obtain ⟨d, hd, rfl, rfl⟩ := hfiled.delivered hcontents
    exact .inl ⟨d, hd, he, rfl⟩
  · obtain ⟨dead, hmem, rfl⟩ := List.mem_map.mp hdead
    exact .inr ⟨dead, hmem, rfl⟩

/-- A delivery that is settled is handled. -/
theorem Steady.handled (h : Steady w) {d : Delivery} (hd : d ∈ w.orchestrator.delivered)
    (hsettled : Settled w d.envelope.message) : d.envelope ∈ (w.processes d.handle).handled := by
  obtain ⟨-, -, hdead, hnodup⟩ := h.apart
  rcases hsettled.place h.balanced.filed with ⟨d', hd', hhandled, hmessage⟩ | ⟨dead, hmem, hmessage⟩
  · obtain rfl : d' = d := List.inj_on_of_nodup_map hnodup hd' hd hmessage
    exact hhandled
  · exact absurd hmessage.symm (hdead d hd dead hmem)

/-- The contents of an agent are all different. -/
theorem Steady.contents_nodup (h : Steady w) (agent : AgentHandle) : (w.processes agent).contents.Nodup := by
  obtain ⟨-, -, -, hnodup⟩ := h.apart
  rw [(h.balanced.filed.given agent).nodup_iff, deliveries]
  have hsub : (w.orchestrator.delivered.filter fun d => d.handle = agent).Sublist w.orchestrator.delivered :=
    List.filter_sublist
  have hmessages := hnodup.sublist (hsub.map fun d => d.envelope.message)
  refine List.Nodup.of_map MessageEnvelope.message ?_
  rwa [List.map_map]

theorem Steady.sent_of_located (h : Steady w) {e : MessageEnvelope} (hmem : e ∈ w.orchestrator.located) :
    e.message ∈ w.orchestrator.sent := h.conserved.census.mem_iff.mp (List.mem_map_of_mem hmem)

/-- What an agent still has to handle is not settled. -/
theorem Steady.unsettled (h : Steady w) {agent : AgentHandle} {e : MessageEnvelope}
    (hmem : e ∈ (w.processes agent).hand.toList ++ (w.processes agent).waiting_messages) :
    e.message ∈ w.orchestrator.sent ∧ ¬ Settled w e.message := by
  have hcontents : e ∈ (w.processes agent).contents := by
    unfold AgentProcess.contents
    rw [List.append_assoc]
    exact List.mem_append_right _ hmem
  obtain ⟨d, hd, rfl, rfl⟩ := h.balanced.filed.delivered hcontents
  refine ⟨h.sent_of_located ?_, fun hsettled => ?_⟩
  · unfold located
    exact List.mem_append_left _ (List.mem_append_right _ (List.mem_map_of_mem hd))
  · have hhandled := h.handled hd hsettled
    have hnodup := h.contents_nodup d.handle
    unfold AgentProcess.contents at hnodup
    rw [List.append_assoc] at hnodup
    exact (List.nodup_append.mp hnodup).2.2 _ hhandled _ hmem rfl

/-- **A company that has settled everything is attended.** -/
theorem Steady.attended (h : Steady w) (hall : ∀ env ∈ w.orchestrator.sent, Settled w env) : Attended w where
  inboxes agent := by
    rw [List.eq_nil_iff_forall_not_mem]
    intro e hmem
    obtain ⟨hsent, hno⟩ := h.unsettled (List.mem_append_right _ hmem)
    exact hno (hall _ hsent)
  hands agent hne := by
    obtain ⟨e, he⟩ := Option.ne_none_iff_exists'.mp hne
    have hmem : e ∈ (w.processes agent).hand.toList ++ (w.processes agent).waiting_messages :=
      List.mem_append_left _ (Option.mem_toList.mpr he)
    obtain ⟨hsent, hno⟩ := h.unsettled hmem
    exact absurd (hall _ hsent) hno
  queues agent_id _ := by
    rw [List.eq_nil_iff_forall_not_mem]
    intro e hmem
    have hqueue : e ∈ w.orchestrator.queue.queues := (List.mem_filter.mp hmem).1
    have hlocated : e ∈ w.orchestrator.located := by
      unfold located
      exact List.mem_append_left _ (List.mem_append_left _ (List.mem_append_left _ hqueue))
    obtain ⟨hdelivered, hdead, -⟩ := h.apart
    rcases (hall _ (h.sent_of_located hlocated)).place h.balanced.filed with ⟨d, hd, -, hmessage⟩ | ⟨dead, hd, hmessage⟩
    · exact hdelivered e hqueue d hd hmessage.symm
    · exact hdead e hqueue dead hd hmessage.symm

end Idle

/-! ## Dropped messages -/

section Dropped

variable {w : Workforce} {env : MessageEnvelope} {label : Label}

/-- With the tasks free, a step that does not keep all envelopes drops one: no handler can end. -/
theorem Free.drops {o : Orchestrator} (h : Free o) {label : Orchestrator.Label} (hno : ¬ Keeps o label) :
    ∃ env, Loose env o (Orchestrator.step o label) := by
  refine step_drops hno ?_
  rintro n outcome now rfl
  apply hno
  intro task env _ hn hphase _
  have hfree := h n
  rw [delivering, hn, Option.bind_some, hand_delivering hphase] at hfree
  cases hfree

/-- What is located after a step was so before it, or is new. -/
theorem Balanced.accrues (h : Balanced w) (label : Label) :
    Accrues w.orchestrator (Workforce.step w label).orchestrator := by
  cases label with
  | orchestrator label =>
      have haccrues : Accrues w.orchestrator (Orchestrator.step w.orchestrator label) := by
        by_cases hkeeps : Keeps w.orchestrator label
        · exact step_moves accrues_respects .of_same hkeeps
        · obtain ⟨env, hloose⟩ := h.free.drops hkeeps
          exact .of_loose hloose
      unfold Workforce.step
      dsimp only
      split
      · exact haccrues.trans _ _ _ (.of_same (dispatch_same _ _))
      · exact haccrues
  | _ => exact .refl _

/-- A step that does not keep all envelopes loses one. -/
theorem Steady.loses (h : Steady w) (hno : ¬ keeps w label) : ∃ env, Lost (Workforce.step w label).orchestrator env := by
  cases label with
  | orchestrator label =>
      obtain ⟨env, hloose⟩ := h.balanced.free.drops hno
      have hlost := h.conserved.lost hloose
      refine ⟨env.message, ?_⟩
      unfold Workforce.step
      dsimp only
      split
      · exact hlost.accrues (.of_same (dispatch_same _ _))
      · exact hlost
  | _ => exact absurd trivial hno

theorem Balanced.lost_exec (h : Balanced w) (hlost : Lost w.orchestrator env) (run : List Label) :
    Lost (exec Workforce.step w run).orchestrator env := by
  have hstep : ∀ w label, (Balanced w ∧ Lost w.orchestrator env) →
      Balanced (Workforce.step w label) ∧ Lost (Workforce.step w label).orchestrator env := by
    rintro w label ⟨h, hlost⟩
    exact ⟨h.step label, hlost.accrues (h.accrues label)⟩
  exact (exec_invariant hstep ⟨h, hlost⟩ run).2

/-- **A run that drops an envelope has lost one for good.** -/
theorem Steady.lost_of_dropped (h : Steady w) {run : List Label} (hno : ¬ Along Workforce.step keeps w run) :
    ∃ env, Lost (exec Workforce.step w run).orchestrator env := by
  induction run generalizing w with
  | nil => exact absurd trivial hno
  | cons label run ih =>
      by_cases hkeeps : keeps w label
      · exact ih (h.step hkeeps) fun hrest => hno ⟨hkeeps, hrest⟩
      · obtain ⟨env, hlost⟩ := h.loses hkeeps
        exact ⟨env, (h.balanced.step label).lost_exec hlost run⟩

/-- What is lost is not settled. -/
theorem Filed.unsettled_of_lost (h : Filed w) (hlost : Lost w.orchestrator env) : ¬ Settled w env := by
  intro hsettled
  apply hlost.nowhere
  unfold located
  rcases hsettled.place h with ⟨d, hd, -, rfl⟩ | ⟨dead, hmem, rfl⟩
  · exact List.mem_map_of_mem (List.mem_append_left _ (List.mem_append_right _ (List.mem_map_of_mem hd)))
  · exact List.mem_map_of_mem (List.mem_append_right _ (List.mem_map_of_mem hmem))

end Dropped

/-! ## When an idle company has settled everything -/

/-- `is_company_idle` sees a reason to wait: a queued message, or an agent that is neither idle nor stopped. -/
def Busy (w : Workforce) : Prop :=
  ∃ agent ∈ w.orchestrator.agents, w.orchestrator.queue.bucket agent.id ≠ [] ∨
    ((w.processes agent).status ≠ .IDLE ∧ (w.processes agent).status ≠ .STOPPED)

theorem idle_iff (w : Workforce) : w.is_company_idle = true ↔ ¬ Busy w := by
  unfold is_company_idle Busy
  rw [List.all_eq_true]
  push Not
  refine forall₂_congr fun agent _ => ?_
  rw [Bool.and_eq_true, decide_eq_true_eq, decide_eq_true_eq, or_iff_not_imp_left]

/-- **When idle means settled.** Whatever the company has accepted is handled or dead-lettered when `is_company_idle`
    returns true, and stays so in whatever follows (a shutdown, for one), if and only if there is something that
    `is_company_idle` sees, or nothing that it does not see: no step has dropped an envelope, and the state is
    `Attended`. -/
theorem idle_means_settled (org : List OrgRow) (events : EventStore) (rate : RateLimitConfig)
    (loop_config : LoopDetectorConfig) (lower : String → String) (run : List Label) :
    ((exec step (fresh org events rate loop_config lower) run).is_company_idle = true →
      ∀ env ∈ (exec step (fresh org events rate loop_config lower) run).orchestrator.sent, ∀ later,
        Settled (exec step (fresh org events rate loop_config lower) (run ++ later)) env) ↔
    (Busy (exec step (fresh org events rate loop_config lower) run) ∨
      (Along step keeps (fresh org events rate loop_config lower) run ∧
        Attended (exec step (fresh org events rate loop_config lower) run))) := by
  have hfresh := fresh_steady org events rate loop_config lower
  have hbalanced : Balanced (exec step (fresh org events rate loop_config lower) run) :=
    exec_invariant (fun _ label h => h.step label) hfresh.balanced run
  rw [idle_iff, or_iff_not_imp_left]
  refine imp_congr_right fun hidle => ?_
  constructor
  · intro hall
    have hnow : ∀ env ∈ (exec step (fresh org events rate loop_config lower) run).orchestrator.sent,
        Settled (exec step (fresh org events rate loop_config lower) run) env := by
      intro env hsent
      have hnil := hall env hsent []
      rwa [List.append_nil] at hnil
    have hkeeps : Along step keeps (fresh org events rate loop_config lower) run := by
      by_contra hno
      obtain ⟨env, hlost⟩ := hfresh.lost_of_dropped hno
      exact hbalanced.filed.unsettled_of_lost hlost (hnow env hlost.sent)
    have hsteady : Steady (exec step (fresh org events rate loop_config lower) run) :=
      exec_invariant_along (fun _ _ h hkeeps => h.step hkeeps) hfresh hkeeps
    exact ⟨hkeeps, hsteady.attended hnow⟩
  · rintro ⟨hkeeps, hattended⟩ env hsent later
    have hsteady : Steady (exec step (fresh org events rate loop_config lower) run) :=
      exec_invariant_along (fun _ _ h hkeeps => h.step hkeeps) hfresh hkeeps
    rw [exec_append]
    exact (hattended.settled hsteady ((idle_iff _).mpr hidle) hsent).exec hbalanced later

/-! ## A pause, and a close in it -/

/-- A company of two at work. The engineer gets a message and the company is paused before it takes it up, so that the
    loop of the engineer puts it back. -/
def paused_in_time : List Label :=
  [.orchestrator (.register ⟨"ceo", 0⟩), .orchestrator (.register ⟨"eng", 1⟩), .orchestrator .start,
    .start ⟨"ceo", 0⟩ true, .start ⟨"eng", 1⟩ true, .wakes ⟨"ceo", 0⟩, .wakes ⟨"eng", 1⟩,
    .orchestrator (.send greeting), .orchestrator (.poll 1), .orchestrator (.clock false), .wakes ⟨"eng", 1⟩]

/-- What `close_handle` does once it has seen the company idle, with every wait running to its end. -/
def closing : List Label :=
  [.orchestrator (.clock false), .stop ⟨"ceo", 0⟩ true, .wakes ⟨"ceo", 0⟩, .stop_goes_on ⟨"ceo", 0⟩ 0,
    .stop ⟨"eng", 1⟩ true, .wakes ⟨"eng", 1⟩, .stop_goes_on ⟨"eng", 1⟩ 0, .orchestrator .stop,
    .orchestrator (.poll 0), .orchestrator (.poll 1), .orchestrator (.stop_ends 0)]

theorem Filed.unsettled {w : Workforce} (h : Filed w) (env : MessageEnvelope)
    (hwaiting : ∀ d ∈ w.orchestrator.delivered, d.envelope ∉ (w.processes d.handle).handled)
    (hdlq : w.orchestrator.queue.dlq = []) : ¬ Settled w env := by
  intro hsettled
  rcases hsettled.place h with ⟨d, hd, hhandled, -⟩ | ⟨dead, hmem, -⟩
  · exact hwaiting d hd hhandled
  · rw [hdlq] at hmem
    exact absurd hmem List.not_mem_nil

/-- **An idle company with a message in an inbox.** It was accepted and is not handled; and when the company is
    closed it is still where it was, with the agent stopped. -/
theorem idle_drops :
    let w := exec step (fresh ceo_and_engineer .quiet {} {} id) paused_in_time
    let closed := exec step w closing
    w.is_company_idle = true ∧ (∃ env ∈ w.orchestrator.sent, ¬ Settled w env ∧ ¬ Settled closed env) ∧
      (closed.processes ⟨"eng", 1⟩).status = .STOPPED ∧ (closed.processes ⟨"eng", 1⟩).waiting_messages ≠ [] := by
  intro w closed
  have hbalanced : Balanced w :=
    exec_invariant (fun _ label h => h.step label) (fresh_steady _ _ _ _ _).balanced paused_in_time
  have hclosed : Balanced closed := exec_invariant (fun _ label h => h.step label) hbalanced closing
  refine ⟨by decide +kernel, ⟨new_envelope two_agents greeting, by decide +kernel, ?_, ?_⟩, by decide +kernel,
    by decide +kernel⟩
  · exact hbalanced.filed.unsettled _ (by decide +kernel) (by decide +kernel)
  · exact hclosed.filed.unsettled _ (by decide +kernel) (by decide +kernel)

end Workforce

end CompanyFactory
