import CompanyFactory.Connector.Service
import CompanyFactory.Orchestrator.Consumers
import CompanyFactory.Storage.Quota
import CompanyFactory.Tools.External

/-!
# `Factory.Restart` — what a restart leaves of the settings

The board sets the budget total, the disk quotas, the allowlist and the auto-approve thresholds of a company
(`routes/settings.py`); its agents are suspended and resumed. `restart_company` builds the company again with
`fresh=False`:

* what stands in a table is found again — the budget total, the quota of every agent;
* the **company quota** stands in a table too, and is set to the number in the specification, as in a first build;
* the allowlist, the thresholds and the suspensions are attributes of the connector and of the orchestrator, which are
  **new objects**.

The routes check the access first and write an audit record last; a request that is not let in changes nothing.
-/

namespace CompanyFactory

open Act Machine FileTree

/-- What the specification and the configuration of the factory contribute to a build. -/
structure BuildConfig where
  company_disk_quota_mb : Int
  rate_limit : Orchestrator.RateLimitConfig := {}
  lower : String → String := id
  /-- the service that the `post_create` hook registers, and the names of its actions -/
  post_create : Option (ServiceDef × List String) := none

/-- The parts of a company that keep the settings. -/
structure Running where
  company : Company
  storage : Storage
  orchestrator : Orchestrator

namespace Running

/-! ## The routes -/

/-- What a route answers when it does not go through; `raised` is an exception that it does not catch. -/
inductive RouteError where
  | validation_error (message : String)
  | not_found (code message : String)
  | raised (e : Exn)
  | storage (e : StorageError)
  deriving DecidableEq

/-- The handler of an exception. -/
def guarded {σ ε α : Type} (handler : ε → RouteError) (m : Act σ ε α) : Act σ RouteError α := fun s =>
  ((m s).1.mapError handler, (m s).2)

/-- `except ValueError` -/
def budget_error : Exn → RouteError
  | .valueError message => .validation_error message
  | e => .raised e

/-- `PATCH /budget` -/
def update_budget (total_usd : String) : Act Company RouteError Unit :=
  match Money.of total_usd with
  | .ok amount => guarded budget_error (Company.on_budget (Budget.set_total amount))
  | .error (.negative units) => Act.raise (.validation_error (Tools.amount_error_text (.negative units)))
  | .error e => Act.raise (.raised (.other "InvalidOperation" (Tools.amount_error_text e)))

/-- `PATCH /allowlist` -/
def update_allowlist (allow revoke : List (String × Option String)) (co : Company) : Company :=
  let allowed := allow.foldl (fun list entry => list.allow entry.1 entry.2) co.allowlist
  { co with allowlist := revoke.foldl (fun list entry => list.revoke entry.1 entry.2) allowed }

/-- `except (UnknownService, UnknownAction)` -/
def threshold_error : Exn → RouteError
  | .connector .UnknownService message | .connector .UnknownAction message => .not_found "action_not_found" message
  | e => .raised e

/-- `PATCH /auto_approve_thresholds` -/
def update_threshold (service action : String) (auto_approve_threshold_usd : Option String) :
    Act Company RouteError Unit :=
  match auto_approve_threshold_usd.mapM Money.of with
  | .ok threshold => guarded threshold_error (Connector.set_action_threshold service action threshold)
  | .error e => Act.raise (.validation_error (Tools.amount_error_text e))

/-- `except WorkspaceNotInitialized` -/
def quota_error : StorageError → RouteError
  | .WorkspaceNotInitialized agent_id => .not_found "agent_not_found" ("agent_workspace_missing:" ++ agent_id)
  | e => .storage e

def update_agent_quotas (f : Faults) : List (String × Int) → Act Storage RouteError Unit
  | [] => pure ()
  | (agent_id, mb) :: rest => do
      guarded quota_error (Storage.set_limit f (.AgentQuota agent_id) mb)
      update_agent_quotas f rest

/-- `PATCH /disk_quota` -/
def update_disk_quota (f : Faults) (company_quota_mb : Option Int) (agent_quota_mb : List (String × Int)) :
    Act Storage RouteError Unit := do
  match company_quota_mb with
  | some mb => guarded .storage (Storage.set_limit f .CompanyQuota mb)
  | none => pure ()
  update_agent_quotas f agent_quota_mb

/-! ## The restart -/

/-- `quota.set_limit(CompanyQuota(), ...)` and `_ensure_project_workspace`: both in every build. -/
def renew_quotas (h : Host String UInt8) (f : Faults) (cfg : BuildConfig) : Act Storage StorageError Unit := do
  Storage.set_limit f .CompanyQuota cfg.company_disk_quota_mb
  Storage.ensure_for_agent h f PROJECT_WORKSPACE_ID cfg.company_disk_quota_mb

/-- New objects over the same tables, and the hook. -/
def rewire (cfg : BuildConfig) (now : Rat) (co : Company) : Company :=
  let bare : Company :=
    { co with
      tools_completed := fun _ => none, services := [], allowlist := ⟨[]⟩, rate := ⟨fun _ => none, fun _ => none⟩
      connector_completed := fun _ => none }
  match cfg.post_create with
  | none => bare
  | some (service, action_names) => (Connector.register_service service action_names now).after bare

/-- A new orchestrator, with an agent object for every active agent. -/
def reorchestrate (cfg : BuildConfig) (ref : Nat) (o : Orchestrator) : Orchestrator :=
  let fresh : Orchestrator :=
    { Orchestrator.fresh o.org o.events cfg.rate_limit {} cfg.lower with accepting := o.accepting }
  let agents := (o.org.filter Orchestrator.OrgRow.active).map fun row => Orchestrator.AgentHandle.mk row.agent_id ref
  (agents.foldl (fun o agent => o.register agent) fresh).start

/-- `restart_company`, of a company whose build goes through after the quotas. -/
def restart (h : Host String UInt8) (cfg : BuildConfig) (f : Faults) (now : Rat) (ref : Nat) :
    Act Running StorageError Unit := do
  Act.on Running.storage (fun storage r => { r with storage }) (renew_quotas h f cfg)
  Act.write fun r =>
    { r with company := rewire cfg now r.company, orchestrator := reorchestrate cfg ref r.orchestrator }

/-! ## Steps -/

inductive Label where
  | update_budget (total_usd : String)
  | update_allowlist (allow revoke : List (String × Option String))
  | update_threshold (service action : String) (auto_approve_threshold_usd : Option String)
  | update_disk_quota (f : Faults) (company_quota_mb : Option Int) (agent_quota_mb : List (String × Int))
  /-- `suspend`, `resume`, and whatever else the orchestrator does -/
  | orchestrator (label : Orchestrator.Label)
  /-- a hire, a write, a reconciliation -/
  | workspace (op : Storage.QuotaOp) (f : Faults)
  | restart (f : Faults) (now : Rat) (ref : Nat)
  /-- a build that raises after the quotas -/
  | restart_fails (f : Faults)

/-- One log for the services of the company. -/
def step (h : Host String UInt8) (cfg : BuildConfig) (r : Running) : Label → Running
  | .update_budget total_usd =>
      let company := (update_budget total_usd).after r.company
      { r with company, orchestrator := { r.orchestrator with events := company.events } }
  | .update_allowlist allow revoke => { r with company := update_allowlist allow revoke r.company }
  | .update_threshold service action threshold =>
      { r with company := (update_threshold service action threshold).after r.company }
  | .update_disk_quota f company_quota_mb agent_quota_mb =>
      { r with storage := (update_disk_quota f company_quota_mb agent_quota_mb).after r.storage }
  | .orchestrator label =>
      let orchestrator := r.orchestrator.step label
      { r with company := { r.company with events := orchestrator.events }, orchestrator }
  | .workspace op f => { r with storage := Storage.step h r.storage (op, f) }
  | .restart f now ref => (restart h cfg f now ref).after r
  | .restart_fails f => { r with storage := (renew_quotas h f cfg).after r.storage }

/-! ## The settings -/

/-- The auto-approve threshold of an action, if it is registered. -/
def threshold (services : List ServiceDef) (service action : String) : Option (Option Money) :=
  ((services.find? fun s => s.name = service).bind fun s => s.actions action).map ActionDef.auto_approve_threshold

/-- **The settings are as they were.** -/
structure SameSettings (before after : Running) : Prop where
  total : after.company.budget.total_units = before.company.budget.total_units
  company_quota : after.storage.limit .CompanyQuota = before.storage.limit .CompanyQuota
  agent_quotas : ∀ agent_id, agent_id ≠ PROJECT_WORKSPACE_ID →
    after.storage.limit (.AgentQuota agent_id) = before.storage.limit (.AgentQuota agent_id)
  allowlist : ∀ key, key ∈ after.company.allowlist.entries ↔ key ∈ before.company.allowlist.entries
  thresholds : ∀ service action,
    threshold after.company.services service action = threshold before.company.services service action
  suspensions : ∀ agent_id, after.orchestrator.is_suspended agent_id = before.orchestrator.is_suspended agent_id

/-- The services that a build registers. -/
def registered (cfg : BuildConfig) : List ServiceDef := (cfg.post_create.map Prod.fst).toList

/-- **Nothing is set** of what a build makes anew: the company quota is the one of the specification, nothing is on the
    allowlist, the thresholds are those with which the services are registered, and nobody is suspended. -/
structure Unset (cfg : BuildConfig) (r : Running) : Prop where
  company_quota : ∀ quota ∈ r.storage.company_quota, quota = cfg.company_disk_quota_mb * 1024 * 1024
  allowlist : r.company.allowlist.entries = []
  thresholds : ∀ service action,
    threshold r.company.services service action = threshold (registered cfg) service action
  suspensions : r.orchestrator.suspended = []

/-! ## What a restart does to each of them -/

section Parts

variable {h : Host String UInt8} {f : Faults} {cfg : BuildConfig}

/-- A provision leaves the company quota alone, and the rows are as they were or the new ones. -/
theorem provision_cases (agent_id : String) (rows : List WorkspaceRow) (s : Storage) :
    (Storage.provision h f agent_id rows s).2.company_quota = s.company_quota ∧
      ((Storage.provision h f agent_id rows s).2.rows = s.rows ∨
        (Storage.provision h f agent_id rows s).2.rows = rows) := by
  unfold Storage.provision Storage.make_dir
  cases (if f.mkdir then .error .failed else h.mkdirs s.tree (s.root ++ [agent_id])) with
  | error e => exact ⟨rfl, .inl rfl⟩
  | ok made =>
      cases f.record with
      | true => exact ⟨rfl, .inl rfl⟩
      | false => exact ⟨rfl, .inr rfl⟩

/-- `ensure_for_agent` raises, or it provisions rows in which those of the other agents are as they were. -/
theorem ensure_cases (agent_id : String) (mb : Int) (s : Storage) :
    (∃ e, Storage.ensure_for_agent h f agent_id mb s = (.error e, s)) ∨
      ∃ rows, Storage.ensure_for_agent h f agent_id mb s = Storage.provision h f agent_id rows s ∧
        ∀ other, other ≠ agent_id → Table.find WorkspaceRow.agent_id rows other = s.row other := by
  unfold Storage.ensure_for_agent
  split
  · exact .inl ⟨_, rfl⟩
  · split
    · exact .inl ⟨_, rfl⟩
    · split
      · exact .inl ⟨_, rfl⟩
      · split
        · exact .inr ⟨_, rfl, fun other hne => Table.find_insert_ne hne.symm⟩
        · refine .inr ⟨_, rfl, fun other hne => ?_⟩
          refine (Table.find_update_key ?_ s.rows agent_id other).trans (if_neg hne.symm)
          exact fun _ => rfl

theorem ensure_quota (agent_id : String) (mb : Int) (s : Storage) :
    (Storage.ensure_for_agent h f agent_id mb s).2.company_quota = s.company_quota := by
  obtain ⟨e, hraises⟩ | ⟨rows, hprovisions, -⟩ := ensure_cases (h := h) (f := f) agent_id mb s
  · rw [hraises]
  · rw [hprovisions]
    exact (provision_cases agent_id rows s).1

/-- The quotas of the other agents stay. -/
theorem ensure_limit (agent_id : String) (mb : Int) (s : Storage) {other : String} (hne : other ≠ agent_id) :
    (Storage.ensure_for_agent h f agent_id mb s).2.limit (.AgentQuota other) = s.limit (.AgentQuota other) := by
  have hrow : (Storage.ensure_for_agent h f agent_id mb s).2.row other = s.row other := by
    obtain ⟨e, hraises⟩ | ⟨rows, hprovisions, hothers⟩ := ensure_cases (h := h) (f := f) agent_id mb s
    · rw [hraises]
    · rw [hprovisions]
      obtain ⟨-, hkept | hnew⟩ := provision_cases (h := h) (f := f) agent_id rows s
      · exact congrArg (Table.find WorkspaceRow.agent_id · other) hkept
      · exact (congrArg (Table.find WorkspaceRow.agent_id · other) hnew).trans (hothers other hne)
  show ((Storage.row _ other).map WorkspaceRow.quota_bytes).getD 0 = _
  rw [hrow]
  rfl

theorem set_company_limit (mb : Int) (s : Storage) :
    (∃ e, Storage.set_limit f .CompanyQuota mb s = (.error e, s)) ∨
      Storage.set_limit f .CompanyQuota mb s =
        (.ok (), { s with company_quota := s.company_quota.map fun _ => mb * 1024 * 1024 }) := by
  unfold Storage.set_limit
  split
  · exact .inl ⟨_, rfl⟩
  · split
    · exact .inl ⟨_, rfl⟩
    · exact .inr rfl

/-- **The quotas after a build.** -/
theorem renew_quotas_limits {s : Storage} (hok : (renew_quotas h f cfg).returns s = true) :
    ((renew_quotas h f cfg).after s).company_quota =
        s.company_quota.map (fun _ => cfg.company_disk_quota_mb * 1024 * 1024) ∧
      ∀ agent_id, agent_id ≠ PROJECT_WORKSPACE_ID →
        ((renew_quotas h f cfg).after s).limit (.AgentQuota agent_id) = s.limit (.AgentQuota agent_id) := by
  unfold renew_quotas Act.returns Act.after at *
  obtain ⟨e, hset⟩ | hset := set_company_limit (f := f) cfg.company_disk_quota_mb s
  · rw [bind_of_error hset] at hok
    cases hok
  · rw [bind_of_ok hset]
    exact ⟨ensure_quota _ _ _, fun agent_id hne => ensure_limit _ _ _ hne⟩

theorem rewire_budget (now : Rat) (co : Company) : (rewire cfg now co).budget = co.budget := by
  unfold rewire
  cases cfg.post_create with
  | none => rfl
  | some hook => rfl

theorem rewire_allowlist (now : Rat) (co : Company) : (rewire cfg now co).allowlist.entries = [] := by
  unfold rewire
  cases cfg.post_create with
  | none => rfl
  | some hook => rfl

theorem rewire_services (now : Rat) (co : Company) : (rewire cfg now co).services = registered cfg := by
  unfold rewire registered
  cases cfg.post_create with
  | none => rfl
  | some hook => rfl

theorem reorchestrate_suspended (ref : Nat) (o : Orchestrator) : (reorchestrate cfg ref o).suspended = [] := by
  have hfold : ∀ (agents : List Orchestrator.AgentHandle) (o : Orchestrator),
      (agents.foldl (fun o agent => o.register agent) o).suspended = o.suspended := by
    intro agents
    induction agents with
    | nil => exact fun _ => rfl
    | cons agent agents ih => exact fun o => ih (o.register agent)
  have hstart : ∀ o : Orchestrator, o.start.suspended = o.suspended :=
    Orchestrator.start_moves (R := fun o o' => o'.suspended = o.suspended) (fun _ => rfl)
      (fun _ _ _ h h' => h'.trans h) (fun _ _ => rfl) fun _ _ _ => rfl
  unfold reorchestrate
  rw [hstart, hfold]
  rfl

/-- A restart that goes through. -/
theorem restart_after {now : Rat} {ref : Nat} {r : Running} (hok : (restart h cfg f now ref).returns r = true) :
    (renew_quotas h f cfg).returns r.storage = true ∧ (restart h cfg f now ref).after r =
      { company := rewire cfg now r.company, storage := (renew_quotas h f cfg).after r.storage
        orchestrator := reorchestrate cfg ref r.orchestrator } := by
  unfold restart Act.returns Act.after at *
  rw [bind_run, on_run] at hok ⊢
  rcases hrun : renew_quotas h f cfg r.storage with ⟨_ | _, storage⟩
  · rw [hrun] at hok
    cases hok
  · exact ⟨rfl, rfl⟩

end Parts

/-- **Restart preserves what operators set.** After any history of a company, a restart that goes through leaves the budget
    total and the quota of every agent as they were. It leaves all the settings as they were if and only if nothing is
    set of what a build makes anew. -/
theorem restart_keeps (h : Host String UInt8) (cfg : BuildConfig) (company : Running) (run : List Label) (f : Faults)
    (now : Rat) (ref : Nat) (hok : (restart h cfg f now ref).returns (exec (step h cfg) company run) = true) :
    (((restart h cfg f now ref).after (exec (step h cfg) company run)).company.budget.total_units =
        (exec (step h cfg) company run).company.budget.total_units ∧
      ∀ agent_id, agent_id ≠ PROJECT_WORKSPACE_ID →
        ((restart h cfg f now ref).after (exec (step h cfg) company run)).storage.limit (.AgentQuota agent_id) =
          (exec (step h cfg) company run).storage.limit (.AgentQuota agent_id)) ∧
    (SameSettings (exec (step h cfg) company run) ((restart h cfg f now ref).after (exec (step h cfg) company run)) ↔
      Unset cfg (exec (step h cfg) company run)) := by
  generalize exec (step h cfg) company run = r at *
  obtain ⟨hquotas, hafter⟩ := restart_after hok
  obtain ⟨hcompany, hagents⟩ := renew_quotas_limits hquotas
  have htotal : (rewire cfg now r.company).budget.total_units = r.company.budget.total_units :=
    congrArg BudgetDb.total_units (rewire_budget now r.company)
  have hlimit : ((renew_quotas h f cfg).after r.storage).limit .CompanyQuota =
      (r.storage.company_quota.map fun _ => cfg.company_disk_quota_mb * 1024 * 1024).getD 0 :=
    congrArg (Option.getD · 0) hcompany
  have hsuspended : ∀ agent_id, (reorchestrate cfg ref r.orchestrator).is_suspended agent_id = false := by
    intro agent_id
    unfold Orchestrator.is_suspended
    rw [reorchestrate_suspended]
    rfl
  rw [hafter]
  refine ⟨⟨htotal, hagents⟩, fun hsame => ⟨fun quota hquota => ?_, ?_, fun service action => ?_, ?_⟩, fun hunset => ?_⟩
  · have hsamequota : (r.storage.company_quota.map fun _ => cfg.company_disk_quota_mb * 1024 * 1024).getD 0 =
        r.storage.company_quota.getD 0 := hlimit.symm.trans hsame.company_quota
    rw [Option.mem_def.mp hquota] at hsamequota
    exact hsamequota.symm
  · refine List.eq_nil_iff_forall_not_mem.mpr fun key hkey => ?_
    have hgone := (hsame.allowlist key).mpr hkey
    rw [rewire_allowlist] at hgone
    cases hgone
  · have hsamethreshold := hsame.thresholds service action
    rw [rewire_services] at hsamethreshold
    exact hsamethreshold.symm
  · refine List.eq_nil_iff_forall_not_mem.mpr fun agent_id hmem => ?_
    have hgone := (hsuspended agent_id).symm.trans (hsame.suspensions agent_id)
    unfold Orchestrator.is_suspended at hgone
    rw [List.contains_iff_mem.mpr hmem] at hgone
    cases hgone
  · refine ⟨htotal, ?_, hagents, fun key => ?_, fun service action => ?_, fun agent_id => ?_⟩
    · refine hlimit.trans ?_
      show _ = r.storage.company_quota.getD 0
      cases hquota : r.storage.company_quota with
      | none => rfl
      | some quota => exact (hunset.company_quota quota hquota).symm
    · rw [rewire_allowlist, hunset.allowlist]
    · rw [rewire_services, hunset.thresholds]
    · rw [hsuspended]
      unfold Orchestrator.is_suspended
      rw [hunset.suspensions]
      rfl

/-- The company `acme` with a budget of 1000 USD and the agent `alice`. -/
def acme : Running :=
  { company := .opened .quiet ⟨10000000⟩ "alice", storage := .acme []
    orchestrator := .fresh [⟨"alice", true, none⟩] .quiet {} {} id }

/-- What stands in a table is found again. -/
theorem restart_keeps_small : SameSettings
    (exec (step linux { company_disk_quota_mb := 1 }) acme
      [.update_budget "500", .update_disk_quota .none none [("alice", 5)]])
    ((restart linux { company_disk_quota_mb := 1 } .none 0 1).after
      (exec (step linux { company_disk_quota_mb := 1 }) acme
        [.update_budget "500", .update_disk_quota .none none [("alice", 5)]])) := by
  refine (restart_keeps linux { company_disk_quota_mb := 1 } acme
    [.update_budget "500", .update_disk_quota .none none [("alice", 5)]] .none 0 1 (by decide +kernel)).2.mpr ?_
  have hservices : (exec (step linux { company_disk_quota_mb := 1 }) acme
      [.update_budget "500", .update_disk_quota .none none [("alice", 5)]]).company.services.length = 0 := by
    decide +kernel
  refine ⟨by decide +kernel, by decide +kernel, fun service action => ?_, by decide +kernel⟩
  rw [List.length_eq_zero_iff.mp hservices]
  rfl

/-- **A quota that is undone.** The board raises the company quota to two megabytes; after a restart it is the one megabyte
    of the specification. An allowed service is not allowed any more, a suspended agent is not suspended. -/
theorem restart_undoes : ¬ SameSettings
    (exec (step linux { company_disk_quota_mb := 1 }) acme
      [.update_disk_quota .none (some 2) [], .update_allowlist [("http", none)] [],
        .orchestrator (.suspend "alice" "security")])
    ((restart linux { company_disk_quota_mb := 1 } .none 0 1).after
      (exec (step linux { company_disk_quota_mb := 1 }) acme
        [.update_disk_quota .none (some 2) [], .update_allowlist [("http", none)] [],
          .orchestrator (.suspend "alice" "security")])) := by
  intro hsame
  exact absurd hsame.company_quota (by decide +kernel)

end Running

end CompanyFactory
