import CompanyFactory.Lib.Run
import CompanyFactory.Lib.Teardown
import Mathlib.Logic.Function.Basic

/-!
# `Factory.Tasks` — the tasks of a company, and the calls that stop them

`build_company` starts the consumers and the watchdog of the orchestrator, the run loops of the agents, the pump of
the clock and, if it can, the loop of the efficiency service. A hire starts one more run loop; an approved `HIRE`
request and an alert of the watchdog start a task that nobody keeps.

`close_handle` stops the agents, the orchestrator and the clock; `CompanyHandle.shutdown` stops the efficiency
service too. A `stop` returns when the task it waits for is done: `wait_for` cancels it after five seconds, and waits
on. The pause of the clock is left out, since it starts and stops no task; so is the test for idleness, so that a
close may find the company idle at any time.

* `Grows` — what a step does to the tasks: a task that runs was running, or is a new one.
* `runs_on` — a task goes on running unless it ends.
* `step_writes` — a task that is done writes nothing.
-/

namespace CompanyFactory.Shutdown

open Machine Teardown

/-! ## The tasks -/

/-- What `build_company` finds, and what it can start. -/
structure Build where
  /-- the active agents -/
  agents : List String
  /-- `IdleSweepConfig.enabled` -/
  watchdog_enabled : Bool
  /-- neither the migration of the findings nor the start of the service raises -/
  efficiency_starts : Bool

inductive Task where
  /-- `orch:{aid}` -/
  | consumer (agent : String)
  /-- `orch-watchdog` -/
  | watchdog
  /-- `agent:{id}` -/
  | agent (id : String)
  | clock
  /-- `efficiency-loop` -/
  | efficiency
  /-- `hire-spawn:{request_id}` -/
  | hire_spawn (n : Nat)
  /-- the `system_send` of `_notify_manager_unhealthy` -/
  | notice (n : Nat)
  deriving DecidableEq

namespace Task

/-- A turn may call the hire tool, and `_spawn_hired_agent` hires. -/
def can_hire : Task → Bool
  | .agent _ | .hire_spawn _ => true
  | _ => false

/-- Tasks that end, or that an exception may end. The other loops catch every exception, and go on until they are
    asked to stop. -/
def ends_by_itself : Task → Bool
  | .watchdog | .clock | .efficiency => false
  | _ => true

/-- Tasks that are created and not kept. -/
def untracked : Task → Bool
  | .hire_spawn _ | .notice _ => true
  | _ => false

end Task

/-- `handle.agents`, and the tasks of the company on the event loop. -/
structure EventLoop where
  /-- the keys of `handle.agents` -/
  agents : List String
  /-- created, and not done -/
  tasks : List Task
  /-- all that were ever created -/
  started : List Task
  spawned : Nat := 0
  notified : Nat := 0

namespace EventLoop

def create_task (t : Task) (l : EventLoop) : EventLoop :=
  { l with tasks := l.tasks ++ [t], started := l.started ++ [t] }

def done (t : Task) (l : EventLoop) : EventLoop := { l with tasks := l.tasks.filter (· ≠ t) }

/-- `_hire_member_from_payload`: the agent has a new id. Without its persona it is in `handle.agents`, and has no
    task. -/
def hire (agent : String) (persona_loads : Bool) (l : EventLoop) : EventLoop :=
  let l := { l with agents := l.agents ++ [agent] }
  if persona_loads then l.create_task (.agent agent) else l

/-- `_on_approval` -/
def on_approval (l : EventLoop) : EventLoop := { l.create_task (.hire_spawn l.spawned) with spawned := l.spawned + 1 }

/-- `_notify_manager_unhealthy` -/
def notify_manager (l : EventLoop) : EventLoop := { l.create_task (.notice l.notified) with notified := l.notified + 1 }

end EventLoop

/-- What `build_company` has started when it returns, in its order. -/
def Build.tasks (b : Build) : List Task :=
  b.agents.map .consumer ++ (if b.watchdog_enabled then [.watchdog] else []) ++ b.agents.map .agent ++ [.clock] ++
    (if b.efficiency_starts then [.efficiency] else [])

/-! ## The database and the directory -/

structure Disk where
  /-- `_local.conn is not None` -/
  connected : Bool := true
  /-- `<root>/companies/<id>` exists -/
  directory : Bool := true
  /-- `<archive_root>/<id>` exists -/
  archived : Bool := false
  deriving DecidableEq

namespace Disk

/-- `connect`: the directory is made, if need be with its parents, and the database is opened. -/
def connect (d : Disk) : Disk := if d.connected then d else { d with connected := true, directory := true }

/-- `close` -/
def close (d : Disk) : Disk := { d with connected := false }

/-- `_purge_company_artifacts` -/
def purge_company_artifacts (d : Disk) : Disk := { d with directory := false, archived := false }

/-- `archive_company`, with `FileNotFoundError` and `FileExistsError` suppressed -/
def archive_company (d : Disk) : Disk :=
  if d.directory && !d.archived then { d with directory := false, archived := true } else d

end Disk

/-! ## The calls that stop a company -/

inductive Service where
  | agents
  | efficiency
  | orchestrator
  | clock
  deriving DecidableEq

inductive Call where
  | close_handle (force purge : Bool)
  /-- `CompanyHandle.shutdown` -/
  | shutdown
  deriving DecidableEq

/-- The services that a call stops, in its order. -/
def Call.services : Call → List Service
  | .close_handle _ _ => [.agents, .orchestrator, .clock]
  | .shutdown => [.agents, .efficiency, .orchestrator, .clock]

/-- The tasks that the `stop` of a service waits for; `agents` is `list(handle.agents.values())`. -/
def Build.tasks_of (b : Build) (agents : List String) : Service → List Task
  | .agents => agents.map .agent
  | .efficiency => if b.efficiency_starts then [.efficiency] else []
  | .orchestrator => b.agents.map .consumer ++ if b.watchdog_enabled then [.watchdog] else []
  | .clock => [.clock]

/-- Where a call is. -/
inductive Phase where
  /-- in `_wait_idle` -/
  | waiting_idle
  /-- at the `stop` of a service -/
  | stopping
  /-- `shutdown`, at `await asyncio.sleep(0)` -/
  | sleeping
  | returned
  | raised
  deriving DecidableEq

structure Closing where
  call : Call
  /-- the list of agents, once it is taken -/
  agents : List String
  rest : Rest Task Service
  phase : Phase

namespace Closing

def opened (call : Call) : Closing := ⟨call, [], ⟨[], call.services⟩, .waiting_idle⟩

/-- The tasks that a call has asked to stop. -/
def asked (b : Build) (cl : Closing) : List Task :=
  (cl.call.services.filter (· ∉ cl.rest.to_come)).flatMap (b.tasks_of cl.agents)

/-- From one `await` to the next. -/
def settle (b : Build) (tasks : List Task) (cl : Closing) : Closing :=
  let rest := advance tasks (b.tasks_of cl.agents) cl.rest.awaited cl.rest.to_come
  { cl with
    rest := rest
    phase :=
      if rest = .finished then
        match cl.call with
        | .close_handle _ _ => .returned
        | .shutdown => .sleeping
      else .stopping }

def goes_on (b : Build) (l : EventLoop) (cl : Closing) : Closing :=
  match cl.phase with
  | .waiting_idle => settle b l.tasks { cl with agents := l.agents }
  | .stopping => settle b l.tasks cl
  | .sleeping => { cl with phase := .returned }
  | .returned | .raised => cl

/-- `ShutdownTimeout`, an error of the last event or of the archive, or a cancellation. -/
def raises (cl : Closing) : Closing :=
  match cl.phase with
  | .returned => cl
  | _ => { cl with phase := .raised }

end Closing

/-- What a call does to the database and the directory after its last `await`. -/
def Call.finish (call : Call) (d : Disk) : Disk :=
  match call with
  | .close_handle _ purge =>
    -- the last event of the company
    let d := d.connect.close
    -- in the same stretch as the last event: nothing runs between the two
    if purge then d.purge_company_artifacts else d.archive_company
  | .shutdown => d.close

/-! ## The company -/

structure State where
  build : Build
  loop : EventLoop
  disk : Disk := {}
  closings : List Closing := []
  /-- how often a task has used the database or the directory -/
  writes : Task → Nat := fun _ => 0

def built (b : Build) : State :=
  { build := b, loop := { agents := b.agents, tasks := b.tasks, started := b.tasks } }

inductive Label where
  /-- a step of a task that uses the database or the directory -/
  | works (t : Task)
  | ends (t : Task)
  | hires (t : Task) (agent : String) (persona_loads : Bool)
  /-- somebody approves a `HIRE` request -/
  | approves
  | notifies
  | calls (call : Call)
  | goes_on (k : Nat)
  | raises (k : Nat)
  deriving DecidableEq

namespace State

/-- A running task uses the database or the directory. -/
def write (t : Task) (s : State) : State :=
  { s with disk := s.disk.connect, writes := Function.update s.writes t (s.writes t + 1) }

/-- Whether some call has asked a task to stop. -/
def asked (s : State) (t : Task) : Bool := s.closings.any fun cl => decide (t ∈ cl.asked s.build)

/-- The call `k` goes on to its next `await`, or to its end. -/
def goes_on (k : Nat) (s : State) : State :=
  match s.closings[k]? with
  | none => s
  | some cl =>
    let cl' := cl.goes_on s.build s.loop
    { s with
      closings := s.closings.set k cl'
      disk := if cl.phase ≠ .returned ∧ cl'.phase = .returned then cl.call.finish s.disk else s.disk }

/-- `close_handle` appends an event first; without `force` it waits until the company is idle. -/
def calls (call : Call) (s : State) : State :=
  let opened := { s with closings := s.closings ++ [.opened call] }
  match call with
  | .close_handle false _ => { opened with disk := s.disk.connect }
  -- no wait before the first `stop`
  | .close_handle true _ => goes_on s.closings.length { opened with disk := s.disk.connect }
  | .shutdown => goes_on s.closings.length opened

def raises (k : Nat) (s : State) : State :=
  match s.closings[k]? with
  | none => s
  | some cl => { s with closings := s.closings.set k cl.raises }

end State

def step (s : State) : Label → State
  | .works t => if t ∈ s.loop.tasks then s.write t else s
  | .ends t => if t.ends_by_itself || s.asked t then { s with loop := s.loop.done t } else s
  | .hires t agent persona_loads =>
    -- the new id is not one of the company
    if t ∈ s.loop.tasks ∧ t.can_hire ∧ agent ∉ s.loop.agents then
      { s.write t with loop := s.loop.hire agent persona_loads }
    else s
  | .approves => { s with loop := s.loop.on_approval }
  | .notifies =>
    if .watchdog ∈ s.loop.tasks then { s.write .watchdog with loop := s.loop.notify_manager } else s
  | .calls call => s.calls call
  | .goes_on k => s.goes_on k
  | .raises k => s.raises k

/-! ## What a step does to the tasks -/

namespace EventLoop

/-- Tasks that will not be created (again). -/
def Known (l : EventLoop) : Task → Prop
  | .agent a => a ∈ l.agents
  | .hire_spawn n => n < l.spawned
  | .notice n => n < l.notified
  | _ => True

/-- A running task was started, and a started one is known. -/
structure Sound (l : EventLoop) : Prop where
  started : ∀ t ∈ l.tasks, t ∈ l.started
  known : ∀ t ∈ l.started, l.Known t

/-- What happens between two states of the event loop: a task that runs was running, or is a new one. -/
structure Grows (l l' : EventLoop) : Prop where
  known : ∀ t, l.Known t → l'.Known t
  tasks : ∀ t ∈ l'.tasks, t ∈ l.tasks ∨ ¬ l.Known t
  sound : l.Sound → l'.Sound

variable {l l' : EventLoop}

theorem Grows.refl (l : EventLoop) : l.Grows l where
  known _ h := h
  tasks _ h := .inl h
  sound h := h

/-- A known task that is done stays done. -/
theorem Grows.gone (h : l.Grows l') {t : Task} (hknown : l.Known t) (hdone : t ∉ l.tasks) : t ∉ l'.tasks := by
  intro ht
  rcases h.tasks t ht with hrun | hnew
  · exact hdone hrun
  · exact hnew hknown

theorem grows_done (t : Task) (l : EventLoop) : l.Grows (l.done t) where
  known _ h := h
  tasks _ hu := .inl (List.mem_filter.mp hu).1
  sound h := ⟨fun u hu => h.started u (List.mem_filter.mp hu).1, h.known⟩

/-- The rule for a new task: it was not known, and is now. -/
theorem grows_create {t : Task} (hnew : ¬ l.Known t) (hknown : ∀ u, l.Known u → l'.Known u) (ht : l'.Known t)
    (htasks : l'.tasks = l.tasks ++ [t]) (hstarted : l'.started = l.started ++ [t]) : l.Grows l' where
  known := hknown
  tasks u hu := by
    rw [htasks] at hu
    rcases List.mem_append.mp hu with hu | hu
    · exact .inl hu
    · rw [List.mem_singleton] at hu
      exact .inr (hu ▸ hnew)
  sound h := by
    constructor
    · intro u hu
      rw [htasks] at hu
      rw [hstarted]
      exact List.mem_append.mpr ((List.mem_append.mp hu).imp (h.started u) id)
    · intro u hu
      rw [hstarted] at hu
      rcases List.mem_append.mp hu with hu | hu
      · exact hknown u (h.known u hu)
      · rw [List.mem_singleton] at hu
        exact hu ▸ ht

theorem grows_hire {agent : String} (hnew : agent ∉ l.agents) (persona_loads : Bool) :
    l.Grows (l.hire agent persona_loads) := by
  have hknown : ∀ u, l.Known u → Known { l with agents := l.agents ++ [agent] } u := by
    intro u hu
    cases u with
    | agent a => exact List.mem_append_left _ hu
    | consumer | watchdog | clock | efficiency | hire_spawn | notice => exact hu
  cases persona_loads with
  | false => exact ⟨hknown, fun _ h => .inl h, fun h => ⟨h.started, fun t ht => hknown t (h.known t ht)⟩⟩
  | true =>
      apply grows_create (t := .agent agent) hnew
      · intro u hu
        exact hknown u hu
      · exact List.mem_append_right _ List.mem_cons_self
      · rfl
      · rfl

theorem grows_on_approval (l : EventLoop) : l.Grows l.on_approval := by
  apply grows_create (t := .hire_spawn l.spawned) (Nat.lt_irrefl _)
  · intro u hu
    cases u with
    | hire_spawn n => exact Nat.lt_succ_of_lt hu
    | consumer | watchdog | agent | clock | efficiency | notice => exact hu
  · exact Nat.lt_succ_self _
  · rfl
  · rfl

theorem grows_notify_manager (l : EventLoop) : l.Grows l.notify_manager := by
  apply grows_create (t := .notice l.notified) (Nat.lt_irrefl _)
  · intro u hu
    cases u with
    | notice n => exact Nat.lt_succ_of_lt hu
    | consumer | watchdog | agent | clock | efficiency | hire_spawn => exact hu
  · exact Nat.lt_succ_self _
  · rfl
  · rfl

end EventLoop

section Frame

variable (s : State)

@[simp] theorem goes_on_loop (k : Nat) : (s.goes_on k).loop = s.loop := by
  unfold State.goes_on
  split <;> rfl

@[simp] theorem goes_on_build (k : Nat) : (s.goes_on k).build = s.build := by
  unfold State.goes_on
  split <;> rfl

@[simp] theorem goes_on_writes (k : Nat) : (s.goes_on k).writes = s.writes := by
  unfold State.goes_on
  split <;> rfl

@[simp] theorem calls_loop (call : Call) : (s.calls call).loop = s.loop := by
  unfold State.calls
  split <;> simp

@[simp] theorem calls_build (call : Call) : (s.calls call).build = s.build := by
  unfold State.calls
  split <;> simp

@[simp] theorem calls_writes (call : Call) : (s.calls call).writes = s.writes := by
  unfold State.calls
  split <;> simp

@[simp] theorem raises_loop (k : Nat) : (s.raises k).loop = s.loop := by
  unfold State.raises
  split <;> rfl

@[simp] theorem raises_build (k : Nat) : (s.raises k).build = s.build := by
  unfold State.raises
  split <;> rfl

@[simp] theorem raises_writes (k : Nat) : (s.raises k).writes = s.writes := by
  unfold State.raises
  split <;> rfl

@[simp] theorem step_build (label : Label) : (step s label).build = s.build := by
  cases label <;> simp only [step] <;> (try split) <;> simp [State.write]

theorem step_grows (label : Label) : s.loop.Grows (step s label).loop := by
  have hrefl := EventLoop.Grows.refl s.loop
  cases label with
  | works t =>
      rw [step]
      split
      · exact hrefl
      · exact hrefl
  | ends t =>
      rw [step]
      split
      · exact EventLoop.grows_done t s.loop
      · exact hrefl
  | hires t agent persona_loads =>
      rw [step]
      split
      · rename_i h
        exact EventLoop.grows_hire h.2.2 persona_loads
      · exact hrefl
  | approves => exact EventLoop.grows_on_approval s.loop
  | notifies =>
      rw [step]
      split
      · exact EventLoop.grows_notify_manager s.loop
      · exact hrefl
  | calls call => rw [step, calls_loop]; exact hrefl
  | goes_on k => rw [step, goes_on_loop]; exact hrefl
  | raises k => rw [step, raises_loop]; exact hrefl

variable {s} in
/-- A task goes on running unless it ends, by itself or because it was asked to. -/
theorem runs_on {label : Label} {t : Task} (ht : t ∈ s.loop.tasks)
    (hend : label = .ends t → t.ends_by_itself = false ∧ s.asked t = false) : t ∈ (step s label).loop.tasks := by
  cases label with
  | works u =>
      rw [step]
      split <;> exact ht
  | ends u =>
      rw [step]
      split
      · rename_i hu
        have hne : t ≠ u := by
          rintro rfl
          obtain ⟨hself, hasked⟩ := hend rfl
          simp [hself, hasked] at hu
        exact List.mem_filter.mpr ⟨ht, by simpa using hne⟩
      · exact ht
  | hires u agent persona_loads =>
      rw [step]
      split
      · cases persona_loads with
        | false => exact ht
        | true => exact List.mem_append_left _ ht
      · exact ht
  | approves => exact List.mem_append_left _ ht
  | notifies =>
      rw [step]
      split
      · exact List.mem_append_left _ ht
      · exact ht
  | calls call => rwa [step, calls_loop]
  | goes_on k => rwa [step, goes_on_loop]
  | raises k => rwa [step, raises_loop]

/-- Only a running task writes. -/
theorem step_writes (label : Label) {t : Task} (ht : t ∉ s.loop.tasks) :
    (step s label).writes t = s.writes t := by
  have hwrite : ∀ u ∈ s.loop.tasks, (s.write u).writes t = s.writes t := by
    intro u hu
    have hne : t ≠ u := fun h => ht (h ▸ hu)
    exact Function.update_of_ne hne _ _
  cases label with
  | works u =>
      rw [step]
      split
      · exact hwrite u ‹_›
      · rfl
  | hires u agent persona_loads =>
      rw [step]
      split
      · rename_i h
        exact hwrite u h.1
      · rfl
  | notifies =>
      rw [step]
      split
      · exact hwrite .watchdog ‹_›
      · rfl
  | ends u =>
      rw [step]
      split <;> rfl
  | approves => rfl
  | calls call => rw [step, calls_writes]
  | goes_on k => rw [step, goes_on_writes]
  | raises k => rw [step, raises_writes]

end Frame

end CompanyFactory.Shutdown
