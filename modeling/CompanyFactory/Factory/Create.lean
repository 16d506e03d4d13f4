import CompanyFactory.BoardApi.Board
import CompanyFactory.Factory.Tasks
import CompanyFactory.Lib.Points

/-!
# `Factory.Create` — the creation of a company

`build_company` is one stretch of code without a suspension: it makes the directory, hires the agents, starts the
tasks of the company and goes on with steps that may raise. `create_company` rolls back by removing the directory, **and
knows nothing of the tasks**: those that are started when the build raises are never asked to stop, and the agents among
them write files.

* `build_tasks` — a build that returns has started the tasks of `Build.tasks`.
* `build_idle_iff` — a build has started no task exactly if it raises in its preparation.
* `handles_are_rows` — a company with a handle has its row.
* `failed_create_iff` — a failed creation leaves nothing behind exactly if it fails in the preparation, and the directory
  can be removed.
-/

namespace CompanyFactory

open Act Machine

namespace Creation

open BoardApi
open Shutdown (EventLoop Task)

/-! ## The build -/

/-- Where `build_company` may raise. A constructor between two of these calls counts with the second one. -/
inductive Point where
  | company_db_init | db_migrate | cost_migrate | events_migrate | approvals_migrate | org_migrate
  | performance_migrate | set_limit | ensure_project_workspace | wire_pricing | set_budget | memory_migrate
  | llm_counter_migrate | connector | register_builtins
  | add_agent (agent : String)
  | create_for_agent (agent : String)
  | resolve_role (agent : String)
  | existing_core_ids | clock_migrate | orchestrator | org_all
  | llm_factory (agent : String)
  /-- the constructor of `Agent` reads the row -/
  | agent_init (agent : String)
  | security_policy
  | persona_load (agent : String)
  | finding_store_migrate | company_created | send_welcome | cancel_approvals | repair_members
  deriving DecidableEq

structure CompanySpec where
  company_id : Option String
  /-- how many agents there are besides the core -/
  extra_agents : Nat

/-- What a creation takes from outside, with what goes wrong there. -/
structure Surroundings where
  /-- `str(ULID())` -/
  ulid : String
  /-- the id of the agent that is hired as number `n` -/
  agent_id : Nat → String
  /-- the active agents that the database has already -/
  existing : List String
  /-- `IdleSweepConfig.enabled` -/
  watchdog_enabled : Bool
  faults : Point → Option Exn
  /-- `str(exc)` -/
  str : Exn → String
  /-- does the insertion of the row raise? -/
  reserve_row : Option Exn
  /-- does the update of the status raise? -/
  mark_status : CompanyStatus → Option Exn
  /-- does `shutil.rmtree(target, ignore_errors=True)` remove all of the directory? -/
  removable : Bool

/-- What a build works on. What it writes to the database is left out, as it goes with the directory. -/
structure Site where
  /-- `<root>/companies/<id>` exists -/
  directory : Bool
  /-- `org.all(status=ACTIVE)` -/
  roster : List String
  loop : EventLoop

namespace Site

def make_directory (s : Site) : Site := { s with directory := true }

def insert_agent (agent : String) (s : Site) : Site := { s with roster := s.roster ++ [agent] }

/-- `agents[record.id] = agent`, with its `register` -/
def set_agent (agent : String) (s : Site) : Site :=
  if agent ∈ s.loop.agents then s else { s with loop := { s.loop with agents := s.loop.agents ++ [agent] } }

def create_task (t : Task) (s : Site) : Site := { s with loop := s.loop.create_task t }

end Site

variable (env : Surroundings)

/-- The points between the database and the agents. -/
def service_points (fresh : Bool) : List Point :=
  [.db_migrate, .cost_migrate, .events_migrate, .approvals_migrate, .org_migrate, .performance_migrate, .set_limit,
    .ensure_project_workspace, .wire_pricing] ++
  (if fresh then [.set_budget] else []) ++ [.memory_migrate, .llm_counter_migrate, .connector, .register_builtins]

/-- `CompanyDB.init` -/
def open_database : Act Site Exn Unit := do
  call env.faults .company_db_init
  write Site.make_directory

def add_agent (agent : String) : Act Site Exn Unit := do
  call env.faults (.add_agent agent)
  write (Site.insert_agent agent)

/-- One passage of `for ex in spec.extra_agents`. -/
def add_extra_agent (agent : String) : Act Site Exn Unit := do
  call env.faults (.resolve_role agent)
  add_agent env agent
  call env.faults (.create_for_agent agent)

/-- The CEO, HR and Security. -/
def core_agents : List String := (List.range 3).map env.agent_id

def extra_agents (spec : CompanySpec) : List String := (List.range spec.extra_agents).map fun n => env.agent_id (n + 3)

def hire_agents (spec : CompanySpec) (fresh : Bool) : Act Site Exn Unit :=
  if fresh then do
    each (add_agent env) (core_agents env)
    each (call env.faults) ((core_agents env).map .create_for_agent)
    each (add_extra_agent env) (extra_agents env spec)
  else call env.faults .existing_core_ids

/-- One passage of `for record in org.all(status=Status.ACTIVE)`. -/
def make_agent (agent : String) : Act Site Exn Unit := do
  call env.faults (.llm_factory agent)
  call env.faults (.agent_init agent)
  write (Site.set_agent agent)

/-- The services, the agents and their objects. -/
def set_up (spec : CompanySpec) (fresh : Bool) : Act Site Exn Unit := do
  each (call env.faults) (service_points fresh)
  hire_agents env spec fresh
  each (call env.faults) [.clock_migrate, .orchestrator, .org_all]
  let roster ← read Site.roster
  each (make_agent env) roster
  call env.faults .security_policy

/-- The build, up to `await orchestrator.start()`. -/
def prepare (spec : CompanySpec) (fresh : Bool) : Act Site Exn Unit := do
  open_database env
  set_up env spec fresh

/-- `orchestrator.start()` -/
def start_orchestrator : Act Site Exn Unit := do
  let agents ← read fun s => s.loop.agents
  each (fun agent => write (Site.create_task (.consumer agent))) agents
  if env.watchdog_enabled then write (Site.create_task .watchdog) else pure ()

/-- `agent.start()` -/
def start_agent (agent : String) : Act Site Exn Unit := do
  call env.faults (.persona_load agent)
  write (Site.create_task (.agent agent))

/-- An exception of the efficiency service is logged, and the build goes on. -/
def start_efficiency : Act Site Exn Unit :=
  match env.faults .finding_store_migrate with
  | none => write (Site.create_task .efficiency)
  | some e => if e.isException then pure () else raise e

/-- The first event, and the message to the CEO. -/
def announce (fresh send_welcome : Bool) : Act Site Exn Unit :=
  if fresh && send_welcome then each (call env.faults) [.company_created, .send_welcome] else pure ()

/-- What follows the start of the orchestrator. -/
def launch_agents (fresh send_welcome : Bool) : Act Site Exn Unit := do
  let agents ← read fun s => s.loop.agents
  each (start_agent env) agents
  write (Site.create_task .clock)
  start_efficiency env
  announce env fresh send_welcome
  each (call env.faults) [.cancel_approvals, .repair_members]

/-- The build, from `await orchestrator.start()` on. -/
def launch (fresh send_welcome : Bool) : Act Site Exn Unit := do
  start_orchestrator env
  launch_agents env fresh send_welcome

def build_company (spec : CompanySpec) (fresh send_welcome : Bool) : Act Site Exn Unit := do
  prepare env spec fresh
  launch env fresh send_welcome

/-! ## What a build starts -/

/-- The agents that the build hires. -/
def hired_agents (spec : CompanySpec) (fresh : Bool) : List String :=
  if fresh then core_agents env ++ extra_agents env spec else []

def hiring_points (spec : CompanySpec) (fresh : Bool) : List Point :=
  if fresh then
    (core_agents env).flatMap (fun agent => [.add_agent agent]) ++ ((core_agents env).map .create_for_agent ++
      (extra_agents env spec).flatMap fun agent => [.resolve_role agent, .add_agent agent, .create_for_agent agent])
  else [.existing_core_ids]

/-- Where the preparation may raise. -/
def preparation (spec : CompanySpec) (fresh : Bool) : List Point :=
  [.company_db_init] ++ (service_points fresh ++ (hiring_points env spec fresh ++
    ([.clock_migrate, .orchestrator, .org_all] ++
      ((env.existing ++ hired_agents env spec fresh).flatMap (fun agent => [.llm_factory agent, .agent_init agent]) ++
        [.security_policy]))))

/-- The objects of the agents. -/
def Site.set_agents (agents : List String) (s : Site) : Site := agents.foldl (fun s agent => s.set_agent agent) s

/-- The site once it is set up. -/
def Site.ready (spec : CompanySpec) (fresh : Bool) (s : Site) : Site :=
  Site.set_agents (s.roster ++ hired_agents env spec fresh)
    { s with directory := true, roster := s.roster ++ hired_agents env spec fresh }

section Preparation

variable {spec : CompanySpec} {fresh : Bool} {s : Site}

theorem foldl_insert_agent (agents : List String) :
    ∀ s : Site, agents.foldl (fun s agent => s.insert_agent agent) s = { s with roster := s.roster ++ agents } := by
  induction agents with
  | nil =>
      intro s
      rw [List.append_nil]
      rfl
  | cons agent agents ih =>
      intro s
      rw [List.foldl_cons, ih]
      show { s with roster := s.roster ++ [agent] ++ agents } = _
      rw [List.append_assoc]
      rfl

theorem add_agent_passes (s : Site) (agent : String) :
    Passes env.faults s [.add_agent agent] (s.insert_agent agent) (add_agent env agent) :=
  (Passes.call _).bind (.write _)

theorem add_extra_agent_passes (s : Site) (agent : String) : Passes env.faults s
    [.resolve_role agent, .add_agent agent, .create_for_agent agent] (s.insert_agent agent) (add_extra_agent env agent) :=
  (Passes.call _).bind ((add_agent_passes env s agent).bind (.call _))

theorem hire_agents_passes (s : Site) : Passes env.faults s (hiring_points env spec fresh)
    { s with roster := s.roster ++ hired_agents env spec fresh } (hire_agents env spec fresh) := by
  cases fresh with
  | false =>
      refine (Passes.call _).ends ?_
      rw [hired_agents, if_neg Bool.false_ne_true, List.append_nil]
  | true =>
      have hcore := Passes.each (add_agent_passes env) (core_agents env) s
      have hextra := Passes.each (add_extra_agent_passes env) (extra_agents env spec)
      refine (hcore.bind ((Passes.calls _ _ _).bind (hextra _))).ends ?_
      rw [foldl_insert_agent, foldl_insert_agent, hired_agents, if_pos rfl, List.append_assoc]

theorem mem_set_agents {agent : String} (agents : List String) :
    ∀ s : Site, agent ∈ s.loop.agents ∨ agent ∈ agents → agent ∈ (s.set_agents agents).loop.agents := by
  induction agents with
  | nil =>
      rintro s (h | h)
      · exact h
      · cases h
  | cons first agents ih =>
      intro s h
      apply ih (s.set_agent first)
      unfold Site.set_agent
      rcases h with h | h
      · left
        split
        · exact h
        · exact List.mem_append_left _ h
      · rcases List.mem_cons.mp h with rfl | h
        · left
          split
          · assumption
          · exact List.mem_append_right _ List.mem_cons_self
        · exact .inr h

theorem make_agent_passes (s : Site) (agent : String) :
    Passes env.faults s [.llm_factory agent, .agent_init agent] (s.set_agent agent) (make_agent env agent) :=
  (Passes.call _).bind ((Passes.call _).bind (.write _))

/-- **The preparation goes by its points**, and has set up the site at the end. -/
theorem prepare_passes (hexisting : s.roster = env.existing) :
    Passes env.faults s (preparation env spec fresh) (s.ready env spec fresh) (prepare env spec fresh) := by
  have hopen : Passes env.faults s [.company_db_init] s.make_directory (open_database env) :=
    (Passes.call _).bind (.write _)
  refine hopen.bind ((Passes.calls _ _ _).bind ((hire_agents_passes env _).bind ((Passes.calls _ _ _).bind ?_)))
  have hagents := Passes.each (make_agent_passes env) (s.roster ++ hired_agents env spec fresh)
    { s.make_directory with roster := s.roster ++ hired_agents env spec fresh }
  rw [← hexisting]
  exact .read_bind (hagents.bind (.call _))

end Preparation

section Launch

variable {spec : CompanySpec} {fresh send_welcome : Bool} {s : Site}

/-- The tasks and the directory stay as they are. -/
def Idle (s s' : Site) : Prop := s'.loop.tasks = s.loop.tasks ∧ s'.directory = s.directory

theorem Idle.refl (s : Site) : Idle s s := ⟨rfl, rfl⟩

theorem Idle.trans (s t u : Site) (h : Idle s t) (h' : Idle t u) : Idle s u :=
  ⟨h'.1.trans h.1, h'.2.trans h.2⟩

/-- The tasks that run go on, and the directory stays as it is. -/
def Grows (s s' : Site) : Prop := (∀ t ∈ s.loop.tasks, t ∈ s'.loop.tasks) ∧ s'.directory = s.directory

theorem Grows.refl (s : Site) : Grows s s := ⟨fun _ h => h, rfl⟩

theorem Grows.trans (s t u : Site) (h : Grows s t) (h' : Grows t u) : Grows s u :=
  ⟨fun x hx => h'.1 x (h.1 x hx), h'.2.trans h.2⟩

theorem calls_idle (ps : List Point) : Moves Idle (each (call env.faults) ps) :=
  .each Idle.refl Idle.trans (fun p => .call Idle.refl env.faults p) ps

theorem add_agent_idle (agent : String) : Moves Idle (add_agent env agent) :=
  .bind Idle.trans (.call Idle.refl env.faults _) fun _ => .write Idle.refl

theorem add_extra_agent_idle (agent : String) : Moves Idle (add_extra_agent env agent) := by
  refine .bind Idle.trans (.call Idle.refl env.faults _) fun _ => ?_
  exact .bind Idle.trans (add_agent_idle env agent) fun _ => .call Idle.refl env.faults _

theorem make_agent_idle (agent : String) : Moves Idle (make_agent env agent) := by
  refine .bind Idle.trans (.call Idle.refl env.faults _) fun _ => ?_
  refine .bind Idle.trans (.call Idle.refl env.faults _) fun _ => .write fun s => ?_
  unfold Site.set_agent
  split
  · exact Idle.refl s
  · exact ⟨rfl, rfl⟩

/-- The set-up starts no task. -/
theorem set_up_idle : Moves Idle (set_up env spec fresh) := by
  refine .bind Idle.trans (calls_idle env _) fun _ => ?_
  refine .bind Idle.trans ?_ fun _ => ?_
  · unfold hire_agents
    refine .ite ?_ (.call Idle.refl env.faults _)
    refine .bind Idle.trans (.each Idle.refl Idle.trans (add_agent_idle env) _) fun _ => ?_
    refine .bind Idle.trans (calls_idle env _) fun _ => ?_
    exact .each Idle.refl Idle.trans (add_extra_agent_idle env) _
  refine .bind Idle.trans (calls_idle env _) fun _ => ?_
  refine .bind Idle.trans (.read Idle.refl _) fun roster => ?_
  refine .bind Idle.trans (.each Idle.refl Idle.trans (make_agent_idle env) _) fun _ => ?_
  exact .call Idle.refl env.faults _

theorem create_task_grows (t : Task) : Moves (ε := Exn) Grows (write (Site.create_task t)) :=
  .write fun _ => ⟨fun _ h => List.mem_append_left _ h, rfl⟩

theorem calls_grow (ps : List Point) : Moves Grows (each (call env.faults) ps) :=
  .each Grows.refl Grows.trans (fun p => .call Grows.refl env.faults p) ps

theorem start_agent_grows (agent : String) : Moves Grows (start_agent env agent) :=
  .bind Grows.trans (.call Grows.refl env.faults _) fun _ => create_task_grows _

theorem start_orchestrator_grows : Moves Grows (start_orchestrator env) := by
  refine .bind Grows.trans (.read Grows.refl _) fun agents => ?_
  refine .bind Grows.trans (.each Grows.refl Grows.trans (fun agent => create_task_grows _) _) fun _ => ?_
  exact .ite (create_task_grows _) (.pure Grows.refl ())

theorem start_efficiency_grows : Moves Grows (start_efficiency env) := by
  unfold start_efficiency
  split
  · exact create_task_grows _
  · exact .ite (.pure Grows.refl ()) (.raise Grows.refl _)

/-- What follows the start of the orchestrator stops no task. -/
theorem launch_agents_grows : Moves Grows (launch_agents env fresh send_welcome) := by
  refine .bind Grows.trans (.read Grows.refl _) fun agents => ?_
  refine .bind Grows.trans (.each Grows.refl Grows.trans (start_agent_grows env) _) fun _ => ?_
  refine .bind Grows.trans (create_task_grows _) fun _ => ?_
  refine .bind Grows.trans (start_efficiency_grows env) fun _ => ?_
  refine .bind Grows.trans ?_ fun _ => calls_grow env _
  unfold announce
  exact .ite (calls_grow env _) (.pure Grows.refl ())

theorem launch_grows : Moves Grows (launch env fresh send_welcome) :=
  .bind Grows.trans (start_orchestrator_grows env) fun _ => launch_agents_grows env

/-- `create_task`, one after the other. -/
def Site.create_tasks (ts : List Task) (s : Site) : Site :=
  { s with loop := { s.loop with tasks := s.loop.tasks ++ ts, started := s.loop.started ++ ts } }

theorem foldl_create_task (kind : String → Task) (agents : List String) :
    ∀ s : Site, agents.foldl (fun s agent => s.create_task (kind agent)) s = s.create_tasks (agents.map kind) := by
  induction agents with
  | nil =>
      intro s
      simp [Site.create_tasks]
  | cons agent agents ih =>
      intro s
      rw [List.foldl_cons, ih]
      simp [Site.create_tasks, Site.create_task, EventLoop.create_task]

/-- The consumers, and the watchdog. -/
theorem start_orchestrator_run (s : Site) : start_orchestrator env s = (.ok (), s.create_tasks
    (s.loop.agents.map .consumer ++ if env.watchdog_enabled then [.watchdog] else [])) := by
  rw [start_orchestrator, read_bind, bind_of_ok (each_write _ _ s), foldl_create_task]
  cases env.watchdog_enabled with
  | true => simp [Site.create_tasks, Site.create_task, EventLoop.create_task]
  | false => simp [Site.create_tasks]

theorem set_agent_loop (agent : String) (s : Site) :
    (s.set_agent agent).loop = { s.loop with agents := (s.set_agent agent).loop.agents } := by
  unfold Site.set_agent
  split
  · rfl
  · rfl

theorem set_agents_loop (agents : List String) :
    ∀ s : Site, (s.set_agents agents).loop = { s.loop with agents := (s.set_agents agents).loop.agents } := by
  induction agents with
  | nil => exact fun s => rfl
  | cons agent agents ih =>
      intro s
      refine (ih (s.set_agent agent)).trans ?_
      rw [set_agent_loop]
      rfl

/-- The agents that a build starts from an empty event loop are those of `Build.tasks`. -/
theorem launch_tasks {s' : Site} (hrun : launch env fresh send_welcome s = (.ok (), s')) :
    s' = s.create_tasks (Shutdown.Build.tasks
      ⟨s.loop.agents, env.watchdog_enabled, (env.faults .finding_store_migrate).isNone⟩) := by
  rw [launch, bind_of_ok (start_orchestrator_run env s), launch_agents, read_bind] at hrun
  obtain ⟨_, s₁, hagents, hrun⟩ := bind_eq_ok.mp hrun
  -- the agents have all started, as the loop over them has returned
  have hstart : ∀ (s : Site) (agent : String), Passes env.faults s [.persona_load agent]
      (s.create_task (.agent agent)) (start_agent env agent) := fun s agent => (Passes.call _).bind (.write _)
  obtain ⟨-, rfl⟩ := (Passes.each hstart _ _).of_returns hagents
  rw [write_bind, foldl_create_task] at hrun
  obtain ⟨_, s₂, hefficiency, hrun⟩ := bind_eq_ok.mp hrun
  obtain ⟨_, s₃, hwelcome, hrun⟩ := bind_eq_ok.mp hrun
  obtain ⟨-, hlast⟩ := (Passes.calls _ _ _).of_returns hrun
  -- the announcement changes nothing here
  have hsame : s₃ = s₂ := by
    unfold announce at hwelcome
    split at hwelcome
    · exact ((Passes.calls _ _ _).of_returns hwelcome).2
    · exact (Prod.mk.inj hwelcome).2.symm
  have hs₂ : s₂ = Site.create_tasks
      ([.clock] ++ if (env.faults .finding_store_migrate).isNone then [.efficiency] else [])
      (Site.create_tasks (s.loop.agents.map .agent) (s.create_tasks
        (s.loop.agents.map .consumer ++ if env.watchdog_enabled then [.watchdog] else []))) := by
    unfold start_efficiency at hefficiency
    cases hfault : env.faults .finding_store_migrate with
    | none =>
        rw [hfault] at hefficiency
        cases hefficiency
        simp [Site.create_tasks, Site.create_task, EventLoop.create_task]
    | some e =>
        rw [hfault] at hefficiency
        dsimp only at hefficiency
        split at hefficiency
        · cases hefficiency
          simp [Site.create_tasks, Site.create_task, EventLoop.create_task]
        · cases hefficiency
  rw [hlast, hsame, hs₂]
  simp [Site.create_tasks, Shutdown.Build.tasks]

end Launch

section Build

variable {spec : CompanySpec} {fresh send_welcome : Bool} {s s' : Site}

/-- The tasks stay as they are. -/
def SameTasks (s s' : Site) : Prop := s'.loop.tasks = s.loop.tasks

theorem SameTasks.refl (s : Site) : SameTasks s s := rfl

theorem SameTasks.trans (s t u : Site) (h : SameTasks s t) (h' : SameTasks t u) : SameTasks s u := Eq.trans h' h

/-- The preparation starts no task. -/
theorem prepare_tasks : Moves SameTasks (prepare env spec fresh) := by
  refine .bind SameTasks.trans ?_ fun _ s => (set_up_idle env s).1
  exact .bind SameTasks.trans (.call SameTasks.refl env.faults _) fun _ => .write SameTasks.refl

/-- **A build that returns** has the tasks of a company at work. -/
theorem build_tasks (hexisting : s.roster = env.existing) (hloop : s.loop = { agents := [], tasks := [], started := [] })
    (hrun : build_company env spec fresh send_welcome s = (.ok (), s')) : s'.loop =
      (Shutdown.built ⟨s'.loop.agents, env.watchdog_enabled, (env.faults .finding_store_migrate).isNone⟩).loop := by
  -- the event loop is empty when the build begins
  obtain ⟨directory, roster, loop⟩ := s
  obtain rfl : loop = _ := hloop
  obtain ⟨_, s₁, hprepare, hlaunch⟩ := bind_eq_ok.mp hrun
  obtain ⟨-, rfl⟩ := (prepare_passes env hexisting).of_returns hprepare
  have hready := set_agents_loop (roster ++ hired_agents env spec fresh)
    ⟨true, roster ++ hired_agents env spec fresh, { agents := [], tasks := [], started := [] }⟩
  rw [launch_tasks env hlaunch]
  unfold Site.create_tasks
  unfold Site.ready
  dsimp only
  rw [hready]
  rfl

/-- **A build has started no task exactly if its preparation raises**: the first tasks are the consumers. -/
theorem build_idle_iff (spec : CompanySpec) (send_welcome : Bool) (hexisting : s.roster = env.existing)
    (hidle : s.loop.tasks = []) :
    (build_company env spec true send_welcome s).2.loop.tasks = [] ↔
      ¬ Clear env.faults (preparation env spec true) := by
  have hpasses : Passes env.faults s (preparation env spec true) (s.ready env spec true) (prepare env spec true) :=
    prepare_passes env hexisting
  constructor
  · intro hnone hclear
    -- the CEO has a consumer, and nothing that follows stops it
    have hagent : env.agent_id 0 ∈ (s.ready env spec true).loop.agents := by
      refine mem_set_agents _ _ (.inr (List.mem_append_right _ ?_))
      rw [hired_agents, if_pos rfl]
      exact List.mem_append_left _ (List.mem_map.mpr ⟨0, by simp, rfl⟩)
    have hstarted : Task.consumer (env.agent_id 0) ∈
        (launch env true send_welcome (s.ready env spec true)).2.loop.tasks := by
      rw [launch, bind_of_ok (start_orchestrator_run env _)]
      refine (launch_agents_grows env _).1 _ (List.mem_append_right _ (List.mem_append_left _ ?_))
      exact List.mem_map.mpr ⟨_, hagent, rfl⟩
    rw [build_company, bind_of_ok (hpasses.returns hclear)] at hnone
    rw [hnone] at hstarted
    cases hstarted
  · intro hfault
    obtain ⟨e, he⟩ := hpasses.raises hfault
    have hrun : build_company env spec true send_welcome s = (.error e, (prepare env spec true s).2) :=
      bind_of_error (Prod.ext he rfl)
    rw [hrun]
    exact Eq.trans (prepare_tasks env s) hidle

/-- The directory is there after a build if it was there, or if the database could be opened. -/
theorem build_directory (s : Site) : (build_company env spec fresh send_welcome s).2.directory =
    (s.directory || (env.faults .company_db_init).isNone) := by
  -- the directory is made first, and only the rollback removes it
  cases hinit : env.faults .company_db_init with
  | some e =>
      have hopen : open_database env s = (.error e, s) := by
        refine bind_of_error ?_
        rw [call, hinit]
      have hrun : build_company env spec fresh send_welcome s = (.error e, s) :=
        bind_of_error (bind_of_error hopen)
      rw [hrun]
      simp
  | none =>
      have hcall : call env.faults .company_db_init s = (.ok (), s) := by
        rw [call, hinit]
      have hopen : open_database env s = (.ok (), s.make_directory) := (bind_of_ok hcall).trans rfl
      have hprepare : (prepare env spec fresh s).2.directory = true := by
        rw [prepare, bind_of_ok hopen]
        exact (set_up_idle env s.make_directory).2
      have hbuild : (build_company env spec fresh send_welcome s).2.directory = true := by
        refine bind_after (P := fun t : Site => t.directory = true) hprepare fun _ t hrun => ?_
        rw [hrun] at hprepare
        exact (launch_grows env t).2.trans hprepare
      rw [hbuild]
      simp

end Build

/-! ## The factory -/

/-- A build, with its event loop. -/
structure Started where
  company_id : String
  loop : EventLoop
  /-- `_local.conn is not None` -/
  connected : Bool

end Creation

open Creation BoardApi in
structure Factory where
  /-- the status column of the `companies` table -/
  companies : String → Option CompanyStatus
  /-- `_handles`, with the number of the build -/
  handles : String → Option Nat
  /-- `<root>/companies/<id>` exists -/
  directory : String → Bool
  builds : List Started

/-- `UPDATE companies SET status = ? WHERE id = ?` -/
def Factory.set_status (company_id : String) (status : BoardApi.CompanyStatus) (f : Factory) : Factory :=
  { f with companies := Function.update f.companies company_id ((f.companies company_id).map fun _ => status) }

namespace Creation

open BoardApi
open Shutdown (EventLoop Task)

inductive CreateError where
  | CompanyAlreadyExists (company_id : String)
  | CompanyNotFound (company_id : String)
  | BootstrapFailed (message : String)
  | raised (e : Exn)
  deriving DecidableEq

section Operations

variable (env : Surroundings)

/-- `_reserve_row` -/
def reserve_row (company_id : String) : Act Factory CreateError Unit := do
  let f ← read id
  if (f.companies company_id).isSome then raise (.CompanyAlreadyExists company_id)
  else
    match env.reserve_row with
    | some e => raise (.raised e)
    | none => write fun f => { f with companies := Function.update f.companies company_id (some .CREATING) }

/-- `_mark_status` -/
def mark_status (company_id : String) (status : CompanyStatus) : Act Factory CreateError Unit :=
  match env.mark_status status with
  | some e => raise (.raised e)
  | none => write (Factory.set_status company_id status)

/-- `rollback_company_dir` -/
def rollback_company_dir (company_id : String) : Act Factory CreateError Unit := write fun f =>
  if f.directory company_id && env.removable then { f with directory := Function.update f.directory company_id false }
  else f

/-- The site on which a company is built. -/
def site (company_id : String) (f : Factory) : Site :=
  { directory := f.directory company_id, roster := env.existing, loop := { agents := [], tasks := [], started := [] } }

/-- `await build_company(…)`, in a `try` statement -/
def build (company_id : String) (spec : CompanySpec) (fresh send_welcome : Bool) :
    Act Factory CreateError (Except Exn Unit) := fun f =>
  let run := build_company env spec fresh send_welcome (site env company_id f)
  (.ok run.1,
    { f with
      directory := Function.update f.directory company_id run.2.directory
      builds := f.builds ++ [{ company_id, loop := run.2.loop, connected := true }] })

/-- `self._handles[company_id] = handle` -/
def set_handle (company_id : String) : Act Factory CreateError Unit := write fun f =>
  { f with handles := Function.update f.handles company_id (some (f.builds.length - 1)) }

/-- `spec.company_id or str(ULID())` -/
def id_of (spec : CompanySpec) : String :=
  match spec.company_id with
  | none => env.ulid
  | some company_id => if company_id = "" then env.ulid else company_id

/-- What `create_company` makes of the end of the build; the hook after the creation is best-effort. -/
def conclude (company_id : String) : Except Exn Unit → Act Factory CreateError Unit
  | .ok () => do
    set_handle company_id
    mark_status env company_id .ACTIVE
  | .error e =>
    if e.isException then do
      mark_status env company_id .FAILED
      rollback_company_dir env company_id
      raise (.BootstrapFailed (env.str e))
    else raise (.raised e)

def create_company (spec : CompanySpec) : Act Factory CreateError Unit := do
  reserve_row env (id_of env spec)
  let built ← build env (id_of env spec) spec true true
  conclude env (id_of env spec) built

/-- What `restart_company` makes of the end of the build. -/
def reattach (company_id : String) : Except Exn Unit → Act Factory CreateError Unit
  | .ok () => do
    set_handle company_id
    mark_status env company_id .ACTIVE
  | .error e => raise (.raised e)

/-- `restart_company` -/
def restart_company (company_id : String) (spec : CompanySpec) : Act Factory CreateError Unit := do
  let f ← read id
  match f.companies company_id with
  | none => raise (.CompanyNotFound company_id)
  | some status =>
    if status ≠ .ACTIVE ∧ status ≠ .CREATING then
      raise (.BootstrapFailed ("cannot restart company in status '" ++ status.value ++ "'"))
    else do
      let built ← build env company_id spec false false
      reattach env company_id built

end Operations

/-! ## The factory as a system -/

inductive Label where
  | create (env : Surroundings) (spec : CompanySpec)
  | restart (env : Surroundings) (company_id : String) (spec : CompanySpec)
  /-- a `close_company` marks the company -/
  | closing (company_id : String)
  /-- it is over, for the build `n`: the tasks that it leaves, and what becomes of the directory and the connection -/
  | closed (company_id : String) (n : Nat) (left : Task → Bool) (gone connected : Bool)
  | purge_orphan (company_id : String) (removable : Bool)
  /-- a step of a task of the build `n`, which may write a file -/
  | works (n : Nat) (t : Task) (files : Bool)
  | ends (n : Nat) (t : Task)
  | spawns (n : Nat) (t new : Task)

/-- The build whose task takes the step. -/
def Label.build : Label → Option Nat
  | .works n _ _ | .ends n _ | .spawns n _ _ => some n
  | _ => none

end Creation

namespace Factory

open Creation BoardApi
open Shutdown (EventLoop Task)

/-- Is the task running? -/
def running (f : Factory) (n : Nat) (t : Task) : Bool :=
  match f.builds[n]? with
  | none => false
  | some b => decide (t ∈ b.loop.tasks)

def set_loop (n : Nat) (g : EventLoop → EventLoop) (f : Factory) : Factory :=
  match f.builds[n]? with
  | none => f
  | some b => { f with builds := f.builds.set n { b with loop := g b.loop } }

/-- The tools of an agent make the directories of the files that they write; any task makes the directory when it has to
connect to the database again. -/
def work (n : Nat) (t : Task) (files : Bool) (f : Factory) : Factory :=
  match f.builds[n]? with
  | none => f
  | some b =>
    if files && t.can_hire || !b.connected then { f with directory := Function.update f.directory b.company_id true }
    else f

/-- `close_company`, from its `finally` on -/
def close (company_id : String) (n : Nat) (left : Task → Bool) (gone connected : Bool) (f : Factory) : Factory :=
  { f.set_status company_id .CLOSED with
    handles := Function.update f.handles company_id none
    directory := if gone then Function.update f.directory company_id false else f.directory
    builds := match f.builds[n]? with
      | none => f.builds
      | some b =>
        let loop := { b.loop with tasks := b.loop.tasks.filter left }
        f.builds.set n { b with loop := loop, connected := b.connected && connected } }

def step (f : Factory) : Label → Factory
  | .create env spec => (create_company env spec f).2
  | .restart env company_id spec => (restart_company env company_id spec f).2
  | .closing company_id =>
    if (f.handles company_id).isSome then f.set_status company_id .CLOSING else f
  | .closed company_id n left gone connected => f.close company_id n left gone connected
  | .purge_orphan company_id removable =>
    { f with
      directory := if removable then Function.update f.directory company_id false else f.directory
      companies := Function.update f.companies company_id none
      handles := Function.update f.handles company_id none }
  | .works n t files => if f.running n t then f.work n t files else f
  | .ends n t => if f.running n t && t.ends_by_itself then f.set_loop n (.done t) else f
  | .spawns n t new => if f.running n t then f.set_loop n (.create_task new) else f

/-- A factory without companies. -/
def opened : Factory :=
  { companies := fun _ => none, handles := fun _ => none, directory := fun _ => false, builds := [] }

/-! ## A company with a handle has its row -/

def Registered (f : Factory) : Prop := ∀ x, (f.handles x).isSome = true → (f.companies x).isSome = true

/-- One company is touched, and a row that it has stays. -/
structure Touches (company_id : String) (f f' : Factory) : Prop where
  handles : ∀ x, x ≠ company_id → f'.handles x = f.handles x
  companies : ∀ x, x ≠ company_id → f'.companies x = f.companies x
  row : (f.companies company_id).isSome = true → (f'.companies company_id).isSome = true

section Rows

variable {env : Surroundings} {spec : CompanySpec} {company_id : String} {f f' : Factory}

theorem Touches.refl (f : Factory) : Touches company_id f f := ⟨fun _ _ => rfl, fun _ _ => rfl, id⟩

theorem Touches.trans (f g k : Factory) (h : Touches company_id f g) (h' : Touches company_id g k) :
    Touches company_id f k where
  handles x hx := (h'.handles x hx).trans (h.handles x hx)
  companies x hx := (h'.companies x hx).trans (h.companies x hx)
  row hrow := h'.row (h.row hrow)

theorem set_status_touches (company_id : String) (status : CompanyStatus) (f : Factory) :
    Touches company_id f (f.set_status company_id status) := by
  refine ⟨fun _ _ => rfl, fun x hx => Function.update_of_ne hx _ _, fun hrow => ?_⟩
  unfold set_status
  dsimp only
  rw [Function.update_self, Option.isSome_map]
  exact hrow

theorem mark_status_touches (status : CompanyStatus) :
    Moves (Touches company_id) (mark_status env company_id status) := by
  unfold mark_status
  split
  · exact .raise Touches.refl _
  · exact .write fun f => set_status_touches _ status f

theorem build_touches (fresh send_welcome : Bool) :
    Moves (Touches company_id) (Creation.build env company_id spec fresh send_welcome) :=
  fun _ => ⟨fun _ _ => rfl, fun _ _ => rfl, id⟩

theorem set_handle_touches : Moves (Touches company_id) (set_handle company_id) :=
  .write fun _ => ⟨fun _ hx => Function.update_of_ne hx _ _, fun _ _ => rfl, id⟩

theorem conclude_touches (built : Except Exn Unit) : Moves (Touches company_id) (conclude env company_id built) := by
  cases built with
  | ok u => exact .bind Touches.trans set_handle_touches fun _ => mark_status_touches _
  | error e =>
      refine .ite ?_ (.raise Touches.refl _)
      refine .bind Touches.trans (mark_status_touches _) fun _ => ?_
      refine .bind Touches.trans (.write fun f => ?_) fun _ => .raise Touches.refl _
      split
      · exact ⟨fun _ _ => rfl, fun _ _ => rfl, id⟩
      · exact Touches.refl f

theorem reattach_touches (built : Except Exn Unit) : Moves (Touches company_id) (reattach env company_id built) := by
  cases built with
  | ok u => exact .bind Touches.trans set_handle_touches fun _ => mark_status_touches _
  | error e => exact .raise Touches.refl _

/-- The row is refused, or it is a new one. -/
theorem reserve_row_cases (env : Surroundings) (company_id : String) (f : Factory) :
    (∃ e, reserve_row env company_id f = (.error e, f) ∧ ∀ message, e ≠ .BootstrapFailed message) ∨
      f.companies company_id = none ∧ reserve_row env company_id f =
        (.ok (), { f with companies := Function.update f.companies company_id (some .CREATING) }) := by
  rw [reserve_row, read_bind, id]
  cases hrow : f.companies company_id with
  | some status => exact .inl ⟨_, rfl, nofun⟩
  | none =>
      cases hreserve : env.reserve_row with
      | some e => exact .inl ⟨_, rfl, nofun⟩
      | none => exact .inr ⟨rfl, rfl⟩

theorem Registered.of_touches (h : Registered f) (ht : Touches company_id f f')
    (hrow : (f'.companies company_id).isSome = true) : Registered f' := by
  intro x hx
  by_cases heq : x = company_id
  · rw [heq]
    exact hrow
  · rw [ht.handles x heq] at hx
    rw [ht.companies x heq]
    exact h x hx

theorem create_registered (h : Registered f) : Registered (create_company env spec f).2 := by
  rw [create_company]
  obtain ⟨e, he, -⟩ | ⟨-, hreserved⟩ := reserve_row_cases env (id_of env spec) f
  · rw [bind_of_error he]
    exact h
  · rw [bind_of_ok hreserved]
    -- from here on the row is there
    have hrest : Moves (Touches (id_of env spec)) (Creation.build env (id_of env spec) spec true true >>=
        conclude env (id_of env spec)) := .bind Touches.trans (build_touches _ _) conclude_touches
    have hrow : (Function.update f.companies (id_of env spec) (some .CREATING) (id_of env spec)).isSome = true := by
      rw [Function.update_self]
      rfl
    have hfirst : Touches (id_of env spec) f
        { f with companies := Function.update f.companies (id_of env spec) (some .CREATING) } :=
      ⟨fun _ _ => rfl, fun _ hx => Function.update_of_ne hx _ _, fun _ => hrow⟩
    exact h.of_touches (hfirst.trans _ _ _ (hrest _)) ((hrest _).row hrow)

theorem restart_registered (h : Registered f) : Registered (restart_company env company_id spec f).2 := by
  rw [restart_company, read_bind, id]
  cases hrow : f.companies company_id with
  | none => exact h
  | some status =>
      have hsome : (f.companies company_id).isSome = true := by rw [hrow]; rfl
      dsimp only
      split
      · exact h
      · have hrest : Moves (Touches company_id) (Creation.build env company_id spec false false >>=
            reattach env company_id) := .bind Touches.trans (build_touches _ _) reattach_touches
        exact h.of_touches (hrest f) ((hrest f).row hsome)

theorem set_loop_rows (n : Nat) (g : EventLoop → EventLoop) (f : Factory) :
    (f.set_loop n g).handles = f.handles ∧ (f.set_loop n g).companies = f.companies := by
  unfold set_loop
  split
  · exact ⟨rfl, rfl⟩
  · exact ⟨rfl, rfl⟩

theorem work_rows (n : Nat) (t : Task) (files : Bool) (f : Factory) :
    (f.work n t files).handles = f.handles ∧ (f.work n t files).companies = f.companies := by
  unfold work
  split
  · exact ⟨rfl, rfl⟩
  · split
    · exact ⟨rfl, rfl⟩
    · exact ⟨rfl, rfl⟩

theorem Registered.of_same (h : Registered f) (hsame : f'.handles = f.handles ∧ f'.companies = f.companies) :
    Registered f' := by
  intro x hx
  rw [hsame.1] at hx
  rw [hsame.2]
  exact h x hx

/-- The company whose handle is taken away, or whose row is changed and stays. -/
theorem Registered.of_popped (company_id : String) (h : Registered f) (ht : ∀ x, x ≠ company_id → f'.handles x = f.handles x ∧
    f'.companies x = f.companies x) (hpopped : f'.handles company_id = none) : Registered f' := by
  intro x hx
  by_cases heq : x = company_id
  · rw [heq, hpopped] at hx
    cases hx
  · rw [(ht x heq).1] at hx
    rw [(ht x heq).2]
    exact h x hx

theorem step_registered (h : Registered f) (label : Creation.Label) : Registered (step f label) := by
  cases label with
  | create env spec => exact create_registered h
  | restart env company_id spec => exact restart_registered h
  | closing company_id =>
      -- a company that is marked has a handle, and so a row
      rw [step]
      split
      · rename_i hhandle
        have ht := set_status_touches company_id .CLOSING f
        exact h.of_touches ht (ht.row (h company_id hhandle))
      · exact h
  | closed company_id n left gone connected =>
      refine h.of_popped company_id (fun x hx => ?_) (Function.update_self _ _ _)
      exact ⟨Function.update_of_ne hx _ _, Function.update_of_ne hx _ _⟩
  | purge_orphan company_id removable =>
      refine h.of_popped company_id (fun x hx => ?_) (Function.update_self _ _ _)
      exact ⟨Function.update_of_ne hx _ _, Function.update_of_ne hx _ _⟩
  | works n t files =>
      rw [step]
      split
      · exact h.of_same (work_rows n t files f)
      · exact h
  | ends n t =>
      rw [step]
      split
      · exact h.of_same (set_loop_rows n _ f)
      · exact h
  | spawns n t new =>
      rw [step]
      split
      · exact h.of_same (set_loop_rows n _ f)
      · exact h

/-- **A company with a handle has its row**, in every state of the factory. -/
theorem handles_are_rows (run : List Creation.Label) : Registered (exec step opened run) :=
  have hstep := fun (f : Factory) (label : Creation.Label) (h : Registered f) => step_registered h label
  have hopened : Registered opened := fun _ hx => absurd hx Bool.false_ne_true
  exec_invariant hstep hopened run

end Rows

/-! ## A creation that fails -/

section Failed

variable {env : Surroundings} {spec : CompanySpec} {company_id message : String} {f : Factory}

/-- A status that is marked leaves all but the status alone. -/
theorem mark_status_cases (env : Surroundings) (company_id : String) (status : CompanyStatus) (f : Factory) :
    (∃ e, mark_status env company_id status f = (.error (.raised e), f)) ∨
      mark_status env company_id status f = (.ok (), f.set_status company_id status) := by
  unfold mark_status
  cases env.mark_status status with
  | some e => exact .inl ⟨e, rfl⟩
  | none => exact .inr rfl

/-- The rollback looks at the directory only. -/
theorem rollback_run (env : Surroundings) (company_id : String) (e : CreateError) (f : Factory) :
    (rollback_company_dir env company_id >>= fun _ => (raise e : Act Factory CreateError Unit)) f =
      (.error e, { f with
        directory := Function.update f.directory company_id (f.directory company_id && !env.removable) }) := by
  rw [rollback_company_dir, write_bind, raise_run]
  cases hdirectory : f.directory company_id with
  | false =>
      rw [Bool.false_and, if_neg Bool.false_ne_true, Bool.false_and, ← hdirectory, Function.update_eq_self]
  | true =>
      cases env.removable with
      | false => rw [Bool.and_false, if_neg Bool.false_ne_true, Bool.not_false, Bool.and_true, ← hdirectory,
          Function.update_eq_self]
      | true => rfl

/-- What is left of a build by a `BootstrapFailed`: its tasks, and the directory if it cannot be removed. -/
theorem conclude_failed {built : Except Exn Unit}
    (h : (conclude env company_id built f).1 = .error (.BootstrapFailed message)) :
    (conclude env company_id built f).2.handles = f.handles ∧
      (conclude env company_id built f).2.directory company_id = (f.directory company_id && !env.removable) ∧
      (conclude env company_id built f).2.builds = f.builds := by
  cases built with
  | ok u =>
      rw [conclude, set_handle, write_bind] at h
      rcases mark_status_cases env company_id .ACTIVE
        { f with handles := Function.update f.handles company_id (some (f.builds.length - 1)) } with ⟨e, he⟩ | hok
      · rw [he] at h
        cases h
      · rw [hok] at h
        cases h
  | error e =>
      -- a cancellation passes by the handler
      cases hexception : e.isException with
      | false =>
          rw [conclude, hexception, if_neg Bool.false_ne_true] at h
          cases h
      | true =>
          rw [conclude, hexception, if_pos rfl] at h ⊢
          rcases mark_status_cases env company_id .FAILED f with ⟨e', he⟩ | hok
          · rw [bind_of_error he] at h
            cases h
          · rw [bind_of_ok hok, rollback_run]
            exact ⟨rfl, Function.update_self _ _ _, rfl⟩

/-- **What a failed creation leaves**: no new handle, the tasks of the build, and the directory if it cannot be removed. -/
theorem create_failed (hfailed : (create_company env spec f).1 = .error (.BootstrapFailed message)) :
    f.companies (id_of env spec) = none ∧ (create_company env spec f).2.handles = f.handles ∧
      (create_company env spec f).2.directory (id_of env spec) =
        ((build_company env spec true true (site env (id_of env spec) f)).2.directory && !env.removable) ∧
      (create_company env spec f).2.builds = f.builds ++ [{
        company_id := id_of env spec
        loop := (build_company env spec true true (site env (id_of env spec) f)).2.loop
        connected := true }] := by
  rw [create_company] at hfailed ⊢
  rcases reserve_row_cases env (id_of env spec) f with ⟨e, he, hne⟩ | ⟨hnew, hreserved⟩
  · rw [bind_of_error he] at hfailed
    cases hfailed
    exact absurd rfl (hne message)
  · rw [bind_of_ok hreserved] at hfailed ⊢
    obtain ⟨hhandles, hdirectory, hbuilds⟩ := conclude_failed hfailed
    refine ⟨hnew, hhandles, hdirectory.trans ?_, hbuilds⟩
    show (Function.update f.directory (id_of env spec) _ (id_of env spec) && _) = _
    rw [Function.update_self]
    rfl

/-! ### Whether anything is left -/

/-- No task of the build does anything any more. -/
theorem step_of_ended {n : Nat} (hended : ∀ t, f.running n t = false) {label : Creation.Label}
    (hlabel : label.build = some n) : step f label = f := by
  cases label with
  | works k t files =>
      obtain rfl : k = n := Option.some.inj hlabel
      rw [step, if_neg (by rw [hended t]; exact Bool.false_ne_true)]
  | ends k t =>
      obtain rfl : k = n := Option.some.inj hlabel
      rw [step, hended t, Bool.false_and, if_neg Bool.false_ne_true]
  | spawns k t new =>
      obtain rfl : k = n := Option.some.inj hlabel
      rw [step, if_neg (by rw [hended t]; exact Bool.false_ne_true)]
  | create | restart | closing | closed | purge_orphan => cases hlabel

theorem exec_of_ended {n : Nat} (hended : ∀ t, f.running n t = false) (later : List Creation.Label)
    (hlater : ∀ label ∈ later, label.build = some n) : exec step f later = f := by
  induction later with
  | nil => rfl
  | cons label later ih =>
      rw [exec_cons, step_of_ended hended (hlater label List.mem_cons_self)]
      exact ih fun l hl => hlater l (List.mem_cons_of_mem _ hl)

/-- The build `n` of the company has left nothing behind: no handle, no task that runs, and no directory, now or after
any steps of its tasks. -/
structure NothingLeft (company_id : String) (n : Nat) (f : Factory) : Prop where
  handle : f.handles company_id = none
  tasks : ∀ t, f.running n t = false
  directory : ∀ later : List Creation.Label, (∀ label ∈ later, label.build = some n) →
    (exec step f later).directory company_id = false

/-- What is left later is what is left now: without a task nothing more is done. -/
theorem nothing_left_iff {n : Nat} : NothingLeft company_id n f ↔
    f.handles company_id = none ∧ (∀ t, f.running n t = false) ∧ f.directory company_id = false := by
  constructor
  · exact fun h => ⟨h.handle, h.tasks, h.directory [] fun _ hlabel => absurd hlabel List.not_mem_nil⟩
  · rintro ⟨hhandle, hended, hgone⟩
    refine ⟨hhandle, hended, fun later hlater => ?_⟩
    rw [exec_of_ended hended later hlater]
    exact hgone

/-- When a rollback leaves no directory. -/
theorem rolled_back_iff {directory removable : Bool} {fault : Option Exn} :
    ((directory || fault.isNone) && !removable) = false ↔
      removable = true ∨ fault ≠ none ∧ directory = false := by
  cases removable with
  | true => simp
  | false =>
      cases fault with
      | none => simp
      | some e => simp

theorem Registered.no_handle (h : Registered f) (hnew : f.companies company_id = none) :
    f.handles company_id = none := by
  cases hhandle : f.handles company_id with
  | none => rfl
  | some n =>
      have hrow := h company_id (by rw [hhandle]; rfl)
      rw [hnew] at hrow
      cases hrow

/-- **A creation that fails leaves nothing behind exactly if it fails in its preparation**, before the orchestrator is
started, and the directory can be removed or was never made. -/
theorem failed_create_iff (run : List Creation.Label) (env : Surroundings) (spec : CompanySpec) {message : String}
    (hfailed : (create_company env spec (exec step opened run)).1 = .error (.BootstrapFailed message)) :
    NothingLeft (id_of env spec) (exec step opened run).builds.length
        (create_company env spec (exec step opened run)).2 ↔
      (∃ p ∈ preparation env spec true, env.faults p ≠ none) ∧ (env.removable = true ∨
        env.faults .company_db_init ≠ none ∧ (exec step opened run).directory (id_of env spec) = false) := by
  have hrows := handles_are_rows run
  generalize exec step opened run = f at hfailed hrows ⊢
  obtain ⟨hnew, hhandles, hdirectory, hbuilds⟩ := create_failed hfailed
  generalize (create_company env spec f).2 = f' at hhandles hdirectory hbuilds ⊢
  have hidle : (build_company env spec true true (site env (id_of env spec) f)).2.loop.tasks = [] ↔ _ :=
    build_idle_iff env spec true rfl rfl
  have hrunning : (∀ t, f'.running f.builds.length t = false) ↔
      (build_company env spec true true (site env (id_of env spec) f)).2.loop.tasks = [] := by
    unfold running
    rw [hbuilds, List.getElem?_concat_length, List.eq_nil_iff_forall_not_mem]
    simp
  -- the row was a new one, so that there was no handle; the tasks and the directory are those of the build
  rw [nothing_left_iff, hhandles, hdirectory, build_directory, hrunning, hidle, not_clear_iff, rolled_back_iff]
  exact ⟨fun h => h.2, fun h => ⟨hrows.no_handle hnew, h⟩⟩

/-- A host on which the step at one point raises. -/
def failing_at (point : Point) (e : Exn) : Surroundings :=
  { ulid := "acme", agent_id := fun n => ["ceo", "hr", "security"].getD n "member", existing := [], watchdog_enabled := true
    faults := fun p => if p = point then some e else none, str := fun _ => "", reserve_row := none
    mark_status := fun _ => none, removable := true }

/-- The core agents, and nobody else. -/
def core_only : CompanySpec := { company_id := none, extra_agents := 0 }

/-- The tools cannot be registered. -/
theorem failed_create_small : NothingLeft "acme" 0
    (create_company (failing_at .register_builtins (.other "RuntimeError" "wiring")) core_only opened).2 :=
  (failed_create_iff [] (failing_at .register_builtins (.other "RuntimeError" "wiring")) core_only rfl).mpr
    ⟨⟨.register_builtins, by decide, by decide⟩, .inl rfl⟩

/-- The name of the company is too long for the first event: the company is at work by then, and its first agent makes
the directory again. -/
theorem late_failure_leaves_tasks : ¬ ∀ (run : List Creation.Label) (env : Surroundings) (spec : CompanySpec)
    (message : String), (create_company env spec (exec step opened run)).1 = .error (.BootstrapFailed message) →
      NothingLeft (id_of env spec) (exec step opened run).builds.length
        (create_company env spec (exec step opened run)).2 := by
  intro hnothing
  have hleft := hnothing [] (failing_at .company_created (.payloadTooLarge "company_created: 300030 bytes > 262144")) core_only "" rfl
  have hgone := hleft.directory [.works 0 (.agent "ceo") true] (by decide)
  have hback : (exec step
      (create_company (failing_at .company_created (.payloadTooLarge "company_created: 300030 bytes > 262144")) core_only opened).2
      [.works 0 (.agent "ceo") true]).directory "acme" = true := by decide +kernel
  exact Bool.false_ne_true (hgone.symm.trans hback)

end Failed

end Factory

end CompanyFactory
