import CompanyFactory.Orchestrator.Send

/-!
# `Orchestrator.Consumers` — registry, lifecycle and the consumer tasks

What happens between two suspension points is one step: `poll` is a consumer that goes on after a wait, takes
the next envelope and starts its delivery or puts it back; `deliver_ends` is the end of the handler, with
everything `_dispatch` and the loop do after it. Cancelling a task only marks it; the exception is raised where
the task waits.

* An envelope is in the hands of a task from the `pop` to the end of the delivery. **Nothing puts it back when
  the task ends early**, or when the push of a retry raises.
* `start` creates the consumers; `register` does not.
-/

namespace CompanyFactory

open Act

namespace Orchestrator

/-! ## Registry and lifecycle -/

/-- `_agents[agent.id] = agent` -/
def put_agent (agents : List AgentHandle) (agent : AgentHandle) : List AgentHandle :=
  if agents.any (fun a => decide (a.id = agent.id)) then
    agents.map (fun a => if a.id = agent.id then agent else a)
  else agents ++ [agent]

def register (agent : AgentHandle) (o : Orchestrator) : Orchestrator :=
  { o with agents := put_agent o.agents agent }

/-- `task.cancel()` -/
def ConsumerTask.cancel (task : ConsumerTask) : ConsumerTask :=
  if task.phase = .done then task else { task with cancelling := true }

/-- Cancel the tasks with these numbers. -/
def cancel_tasks (ids : List Nat) (tasks : List ConsumerTask) : List ConsumerTask :=
  tasks.mapIdx (fun n task => if ids.contains n then task.cancel else task)

def unregister (agent_id : String) (o : Orchestrator) : Orchestrator :=
  { o with
    agents := o.agents.filter (fun agent => agent.id ≠ agent_id)
    consumers := o.consumers.filter (fun entry => entry.1 ≠ agent_id)
    tasks := cancel_tasks (o.consumers.lookup agent_id).toList o.tasks }

/-- Is there a task for the agent that is not done? -/
def has_consumer (o : Orchestrator) (agent_id : String) : Bool :=
  match (o.consumers.lookup agent_id).bind (fun n => o.tasks[n]?) with
  | none => false
  | some task => decide (task.phase ≠ .done)

/-- `create_task(self._consume_loop(agent))` -/
def spawn (agent : AgentHandle) (o : Orchestrator) : Orchestrator :=
  { o with
    tasks := o.tasks ++ [{ handle := agent, loops := true, phase := .idle, cancelling := false }]
    consumers := (agent.id, o.tasks.length) ::
      o.consumers.filter (fun entry => entry.1 ≠ agent.id) }

def ensure_consumer (o : Orchestrator) (agent : AgentHandle) : Orchestrator :=
  if has_consumer o agent.id then o else spawn agent o

def start (o : Orchestrator) : Orchestrator :=
  { o.agents.foldl ensure_consumer { o with stop_event := false } with running := true }

/-- A start is a number of spawns, between two changes of flags. -/
theorem start_moves {R : Orchestrator → Orchestrator → Prop} (hrefl : ∀ o, R o o)
    (htrans : ∀ o o' o'', R o o' → R o' o'' → R o o'') (hspawn : ∀ agent o, R o (spawn agent o))
    (hflags : ∀ o stop_event running, R o { o with stop_event, running }) (o : Orchestrator) : R o (start o) := by
  have hensure : ∀ p agent, R p (ensure_consumer p agent) := by
    intro p agent
    unfold ensure_consumer
    split
    · exact hrefl p
    · exact hspawn agent p
  have hfold : ∀ agents p, R p (List.foldl ensure_consumer p agents) := by
    intro agents
    induction agents with
    | nil => exact hrefl
    | cons agent rest ih => exact fun p => htrans _ _ _ (hensure p agent) (ih _)
  have hcleared := hflags o false o.running
  have hspawned := hfold o.agents { o with stop_event := false }
  exact htrans _ _ _ hcleared (htrans _ _ _ hspawned (hflags _ _ true))

/-- `stop` up to its first `await`. -/
def stop (o : Orchestrator) : Orchestrator :=
  { o with
    stop_event := true, tasks := cancel_tasks (o.consumers.map Prod.snd) o.tasks
    stops := o.stops ++ [o.consumers.map Prod.snd], running := false }

def task_done (o : Orchestrator) (n : Nat) : Bool :=
  match o.tasks[n]? with
  | none => true
  | some task => decide (task.phase = .done)

/-- The rest of a `stop`, once every task that it waits for is done. -/
def stop_ends (k : Nat) (o : Orchestrator) : Orchestrator :=
  match o.stops[k]? with
  | none => o
  | some ids =>
    if ids.all (task_done o) then { o with consumers := [], stops := o.stops.eraseIdx k } else o

/-! ## The consumer tasks -/

def set_task (n : Nat) (task : ConsumerTask) (o : Orchestrator) : Orchestrator :=
  { o with tasks := o.tasks.set n task }

/-- The coroutine of the task has ended. -/
def finished (n : Nat) (task : ConsumerTask) (o : Orchestrator) : Orchestrator :=
  set_task n { task with phase := .done } o

/-- The task goes on after a delivery; a cancellation was raised within it. -/
def resumed (n : Nat) (task : ConsumerTask) (o : Orchestrator) : Orchestrator :=
  set_task n { task with phase := if task.loops then .idle else .done, cancelling := false } o

/-- Push an envelope that was taken; `none` if the push raises. -/
def push_back (env : MessageEnvelope) (o : Orchestrator) : Option Orchestrator :=
  match InMemoryMessageQueue.push env o.queue with
  | (.ok (), queue) => some { o with queue }
  | (.error _, _) => none

/-- A push goes through while the backend is there. -/
theorem push_back_run {o : Orchestrator} (env : MessageEnvelope) (h : o.queue.available = true) :
    push_back env o = some { o with queue := o.queue.pushed env } := by
  unfold push_back InMemoryMessageQueue.push
  rw [h]
  rfl

theorem push_back_offline {o : Orchestrator} (env : MessageEnvelope) (h : o.queue.available = false) :
    push_back env o = none := by
  unfold push_back InMemoryMessageQueue.push
  rw [h]
  rfl

/-- What a consumer does with the envelope that it has just taken. -/
def take_up (n : Nat) (task : ConsumerTask) (env : MessageEnvelope) (o : Orchestrator) :
    Orchestrator :=
  if o.stop_event then finished n task o
  else if !o.accepting then (push_back env o).getD (finished n task o)
  else set_task n { task with phase := .delivering env } o

/-- One round of `_consume_loop`, up to the delivery. -/
def take_next (n : Nat) (task : ConsumerTask) (o : Orchestrator) : Orchestrator :=
  match o.queue.pop task.handle.id with
  | (none, _) => o
  | (some env, queue) => take_up n task env { o with queue }

def poll (n : Nat) (o : Orchestrator) : Orchestrator :=
  match o.tasks[n]? with
  | none => o
  | some task =>
    if task.phase ≠ .idle then o
    else if task.cancelling then finished n task o
    else take_next n task o

def _MAX_ATTEMPTS : Nat := 3

/-- The envelope that is pushed again after a failed delivery. -/
def MessageEnvelope.bumped (env : MessageEnvelope) : MessageEnvelope :=
  { env with attempts := env.attempts + 1 }

/-- `_dispatch` after the handler has raised an exception. -/
def retry (n : Nat) (task : ConsumerTask) (env : MessageEnvelope) (e : Exn) (now : Time)
    (o : Orchestrator) : Orchestrator :=
  if _MAX_ATTEMPTS ≤ env.attempts + 1 then
    resumed n task { o with queue := o.queue.to_dlq env e.str now }
  else
    match push_back env.bumped o with
    | some o => resumed n task o
    | none => finished n task o

/-- What follows the end of the handler. -/
def end_delivery (n : Nat) (task : ConsumerTask) (env : MessageEnvelope) (outcome : Except Exn Unit)
    (now : Time) (o : Orchestrator) : Orchestrator :=
  match outcome with
  | .ok () =>
    resumed n task { o with delivered := o.delivered ++ [{ handle := task.handle, envelope := env }] }
  | .error e => if e.isException then retry n task env e now o else finished n task o

def deliver_ends (n : Nat) (outcome : Except Exn Unit) (now : Time) (o : Orchestrator) :
    Orchestrator :=
  match o.tasks[n]? with
  | none => o
  | some task =>
    match task.phase with
    | .delivering env => end_delivery n task env outcome now o
    | _ => o

/-- What `drain` does with an envelope; a push that raises ends the call. -/
def drain_up (agent : AgentHandle) (env : MessageEnvelope) (o : Orchestrator) : Orchestrator :=
  if !o.accepting then (push_back env o).getD o
  else
    { o with
      tasks := o.tasks ++
        [{ handle := agent, loops := false, phase := .delivering env, cancelling := false }] }

/-- One agent of the list that `drain` goes through. -/
def drain (agent : AgentHandle) (o : Orchestrator) : Orchestrator :=
  match o.queue.pop agent.id with
  | (none, _) => o
  | (some env, queue) => drain_up agent env { o with queue }

/-! ## The gates from outside -/

def suspend (agent_id reason : String) : Act Orchestrator Exn Unit := do
  let suspended ← Act.read (fun o => is_suspended o agent_id)
  if suspended then pure ()
  else do
    Act.write fun o => { o with suspended := o.suspended ++ [agent_id] }
    append (health_alert agent_id "high" ("suspended:" ++ reason) (some agent_id))
    notify_manager_suspended agent_id

theorem suspend_respects {R : Orchestrator → Orchestrator → Prop} (h : Respects R)
    (agent_id reason : String) : Moves R (suspend agent_id reason) := by
  refine .bind h.trans (.read h.refl _) fun suspended => .ite (.pure h.refl _) ?_
  refine .bind h.trans (.write fun o => h.gates o o.events o.rate o.loops o.loop_strikes _) fun _ => ?_
  refine .bind h.trans (append_respects h _) fun _ => ?_
  exact notify_manager_suspended_respects h _

def resume (agent_id : String) (o : Orchestrator) : Orchestrator :=
  { o with suspended := o.suspended.filter (fun id => id ≠ agent_id) }

/-! ## Steps -/

inductive Label where
  | send (req : SendRequest)
  | register (agent : AgentHandle)
  | unregister (agent_id : String)
  | start
  | stop
  | stop_ends (k : Nat)
  | poll (task : Nat)
  | deliver_ends (task : Nat) (outcome : Except Exn Unit) (now : Time)
  | drain (agent : AgentHandle)
  | suspend (agent_id reason : String)
  | resume (agent_id : String)
  /-- the company is paused or resumed -/
  | clock (accepting : Bool)
  /-- the backend of the queue goes away or comes back -/
  | set_available (value : Bool)
  | hire_or_fire (org : List OrgRow)
  | configure_rate_limit (agent_id : String) (cfg : RateLimitConfig) (now : Rat)
  /-- an event of a sweep, a nudge or another service -/
  | publish (post : Post)

def step (o : Orchestrator) : Label → Orchestrator
  | .send req => (send req).after o
  | .register agent => register agent o
  | .unregister agent_id => unregister agent_id o
  | .start => start o
  | .stop => stop o
  | .stop_ends k => stop_ends k o
  | .poll n => poll n o
  | .deliver_ends n outcome now => deliver_ends n outcome now o
  | .drain agent => drain agent o
  | .suspend agent_id reason => (suspend agent_id reason).after o
  | .resume agent_id => resume agent_id o
  | .clock accepting => { o with accepting }
  | .set_available value => { o with queue := { o.queue with available := value } }
  | .hire_or_fire org => { o with org }
  | .configure_rate_limit agent_id cfg now => { o with rate := o.rate.configure agent_id cfg now }
  | .publish post => (append post).after o

end Orchestrator

end CompanyFactory
