import CompanyFactory.AgentRuntime.Process
import CompanyFactory.Factory.Staff
import CompanyFactory.SecurityAgent.StaticRules
import CompanyFactory.Storage.Workspace

/-!
# `Factory.Hire` — the hire of a member

`_hire_member_from_payload` writes in four places, one after the other: the row of the agent, its workspace, the agent
object with its entry in the routing table, and the notifications. **No step takes back what the steps before it have
written**, so that whatever raises after the row leaves an agent that is active and cannot work.

* `hire_refused` — a hire that is refused writes nothing.
* `hire_row` — any other hire writes the row, and whatever follows keeps it.
* `settle_in_ok` — if what follows goes through, nothing has failed.
* `hire_atomic_iff` — the hire is atomic exactly if it is refused, or nothing fails.
-/

namespace CompanyFactory

open Act

namespace Hiring

open BoardApi Identity Orchestrator StaticRules FileTree

/-- An `Agent` of the runtime. -/
structure Runtime where
  handle : AgentHandle
  process : AgentProcess

/-- The parts of a company that a hire changes, and what it reads of the handle. -/
structure Workplace where
  company : CompanyHandle
  storage : Storage
  /-- `handle.agents` -/
  agents : String → Option Runtime
  company_id : String
  default_agent_quota_mb : Int

/-- What a hire takes from outside, with what can go wrong there. -/
structure Surroundings where
  /-- `_new_id()` -/
  agent_id : String
  hired_at : Time
  /-- the object that is made for the agent -/
  ref : Nat
  host : Host String UInt8
  faults : Faults
  /-- does `config.llm_factory(company_id, agent_id)` return? -/
  llm_factory : String → String → Except Exn Unit
  /-- does `persona_loader.load(role, persona_ref, …)` return? -/
  persona_load : Role → String → Except Exn Unit
  /-- the two clocks, at each notification -/
  clocks : Nat → Time × Rat
  /-- `str.lower` -/
  lower : String → String
  /-- `str` of a value that is no string -/
  repr : Json → String

inductive HireError where
  | org (halt : Org.Halt)
  | storage (e : StorageError)
  | raised (e : Exn)

/-! ## The payload -/

/-- What the payload says, once it is cleaned. -/
structure Candidate where
  first_name : String
  last_name : String
  role_title : String
  role_description : String
  reports_to : String

def _FALLBACK_MEMBER_NAMES : List (String × String) :=
  [("Huseyin", "Kucukdal"), ("Ulara", "Kucukdal"), ("Luna", "Kucukdal"), ("Taylor", "Brooks"), ("Jamie", "Blake"),
    ("Quinn", "Hayes"), ("Sage", "Carter"), ("Rowan", "Ellis")]

def _PLACEHOLDER_HIRE_NAMES : List String :=
  ["tbd", "todo", "unknown", "new", "candidate", "hire", "n/a", "na", "none", "null", "product designer", "engineer",
    "designer"]

/-- `str(value or "")` -/
def text_of (repr : Json → String) : Option Json → String
  | none => ""
  | some value => if truthy value then py_str repr value else ""

/-- `text.strip()` -/
def stripped (text : String) : String := String.ofList (strip text.toList)

/-- `_clean_hire_name` -/
def clean_hire_name (lower : String → String) (value : String) : String :=
  let cleaned := Org.squeezed value
  if cleaned = "" then ""
  else if _PLACEHOLDER_HIRE_NAMES.contains (lower cleaned) then ""
  else if 2 < ((cleaned.toList.splitOnP is_space).filter (fun word => decide (word ≠ []))).length then ""
  else cleaned

local instance lawfulNames : LawfulBEq (String × String) := inferInstance

/-- `_fallback_member_name` -/
def fallback_member_name (lower : String → String) (agents : List Agent) : String × String :=
  let existing := ((agents.filter fun a => decide (a.first_name ≠ "") || decide (a.last_name ≠ "")).map
    fun a => (lower a.first_name, lower a.last_name)).dedup
  let candidates := (List.range _FALLBACK_MEMBER_NAMES.length).map fun idx =>
    _FALLBACK_MEMBER_NAMES.getD ((existing.length + idx) % _FALLBACK_MEMBER_NAMES.length) ("", "")
  (candidates.find? fun name => decide ((lower name.1, lower name.2) ∉ existing)).getD
    ("Member", toString (existing.length + 1))

def candidate (env : Surroundings) (agents : List Agent) (payload : Fields) : Except Exn Candidate :=
  let field := fun key => text_of env.repr (payload.lookup key)
  let role_title := stripped (field "role_title")
  let role_description := stripped (field "role_description")
  let reports_to := stripped (field "reports_to")
  if role_title = "" ∨ role_description = "" ∨ reports_to = "" then .error (.valueError "invalid_hire_payload")
  else
    let first_name := clean_hire_name env.lower (field "first_name")
    let last_name := clean_hire_name env.lower (field "last_name")
    let name := if first_name = "" ∨ last_name = "" then fallback_member_name env.lower agents
      else (first_name, last_name)
    .ok { first_name := name.1, last_name := name.2, role_title, role_description, reports_to }

/-- The arguments of `add_agent`. -/
def Candidate.hire (c : Candidate) (requester_id : String) : Hire :=
  { role := .MEMBER, persona_ref := "default", reports_to := some c.reports_to, requested_by := requester_id
    via_hr := true, first_name := c.first_name, last_name := c.last_name, role_title := some c.role_title
    role_description := some c.role_description }

/-! ## The notifications -/

/-- `a or b` -/
def or_text (a b : String) : String := if a = "" then b else a

/-- The `system_send` number `n`. -/
def notice (env : Surroundings) (n : Nat) (to_agent content : String) : SendRequest :=
  { from_agent := none, to_agent, content, kind := .NOTIFY, correlation_id := none, system := true
    now := (env.clocks n).1, monotonic := (env.clocks n).2 }

def Candidate.short_role_desc (c : Candidate) : String :=
  let text := stripped c.role_description
  if 500 < text.length then clip 497 text ++ "…" else text

def Candidate.display_name (c : Candidate) (agent_id : String) : String :=
  or_text (stripped (c.first_name ++ " " ++ c.last_name)) agent_id

def Candidate.title_str (c : Candidate) : String :=
  if c.role_title = "" then "" else " (" ++ c.role_title ++ ")"

/-- To the new agent, to its manager, and to the requester if that is somebody else; `opening` is the
`notification_prefix`. -/
def Candidate.notices (c : Candidate) (env : Surroundings) (opening requester_id agent_id : String) :
    List SendRequest :=
  let manager_recipient := or_text c.reports_to requester_id
  [notice env 0 agent_id
      ("You have been hired as " ++ c.role_title ++ ". You report to " ++ or_text c.reports_to "—" ++
        ". Your role description:\n" ++ or_text c.short_role_desc "(no description)" ++ "\n\n" ++
        "Your manager will send your first concrete task shortly. " ++
        "If a few minutes pass with no message, introduce yourself " ++
        "to your manager and ask for the first deliverable."),
    notice env 1 manager_recipient
      (c.display_name agent_id ++ c.title_str ++ " just joined your team " ++ "(id: " ++ agent_id ++
        "). Send them their first concrete " ++ "deliverable NOW via send_message. Derive a specific 1–2 " ++
        "sentence task from this role description: " ++ or_text c.short_role_desc "(no description)")] ++
  if requester_id ≠ "" ∧ requester_id ≠ manager_recipient then
    [notice env 2 requester_id
      (opening ++ " " ++ c.display_name agent_id ++ c.title_str ++ " is " ++ "active (id: " ++ agent_id ++
        ", reports to " ++ or_text c.reports_to "—" ++ "). The reporting manager has been " ++
        "asked to send the first task — your part is done.")]
  else []

def send_all : List SendRequest → Act Orchestrator Exn Unit
  | [] => pure ()
  | req :: rest => do
    let _ ← system_send req
    send_all rest

/-! ## The hire -/

/-- The organisation, over the event store that it shares with the orchestrator. -/
def on_org {α : Type} (lower : String → String) (m : Act Org Org.Halt α) : Act Workplace HireError α := fun w =>
  let run := m (Staff.org lower w.company)
  (run.1.mapError .org, { w with company := { w.company.set_events run.2.events with identity := run.2.agents } })

def on_storage {α : Type} (m : Act Storage StorageError α) : Act Workplace HireError α := fun w =>
  ((m w.storage).1.mapError .storage, { w with storage := (m w.storage).2 })

def on_orchestrator {α : Type} (m : Act Orchestrator Exn α) : Act Workplace HireError α := fun w =>
  ((m w.company.orchestra).1.mapError .raised,
    { w with company := { w.company with orchestrator := (m w.company.orchestra).2 } })

/-- `handle.agents[agent.id] = agent` -/
def Workplace.set_agent (w : Workplace) (agent : Runtime) : Workplace :=
  { w with agents := Function.update w.agents agent.handle.id (some agent) }

/-- `handle.orchestrator.register(agent)` -/
def Workplace.register (w : Workplace) (agent : AgentHandle) : Workplace :=
  { w with company := { w.company with orchestrator := w.company.orchestrator.register agent } }

/-- `agent.start()`: the persona is loaded when the status is set already. -/
def start_agent (env : Surroundings) (agent : AgentHandle) (row : Agent) : Act Workplace HireError Unit := do
  let loaded := env.persona_load row.role (or_text row.persona_ref "default")
  Act.write fun w => w.set_agent { handle := agent, process := AgentProcess.start loaded.isOk {} }
  Act.ofExcept (loaded.mapError .raised)

/-- What follows the row. -/
def settle_in (env : Surroundings) (opening requester_id : String) (c : Candidate) (record : Agent) :
    Act Workplace HireError Agent := do
  let w ← Act.read id
  on_storage (Storage.create_for_agent env.host env.faults record.id w.default_agent_quota_mb)
  Act.ofExcept ((env.llm_factory w.company_id record.id).mapError .raised)
  -- the constructor of `Agent` reads the row
  let row ← Act.ofExcept ((Org.get w.company.identity record.id).mapError .raised)
  Act.write fun w => w.set_agent { handle := ⟨record.id, env.ref⟩, process := {} }
  Act.write fun w => w.register ⟨record.id, env.ref⟩
  start_agent env ⟨record.id, env.ref⟩ row
  on_orchestrator (send_all (c.notices env opening requester_id record.id))
  pure record

/-- `_hire_member_from_payload` -/
def hire_member_from_payload (env : Surroundings) (opening requester_id : String) (payload : Fields) :
    Act Workplace HireError Agent := do
  let w ← Act.read id
  let c ← Act.ofExcept ((candidate env w.company.identity payload).mapError .raised)
  let record ← on_org env.lower (Org.add_agent env.agent_id env.hired_at (c.hire requester_id))
  settle_in env opening requester_id c record

/-! ## Steps that return -/

section Steps

variable {α : Type} {w w' : Workplace} {a : α}

theorem map_error_ok {ε ε' : Type} {f : ε → ε'} {r : Except ε α} : r.mapError f = .ok a ↔ r = .ok a := by
  cases r with
  | error e => exact ⟨nofun, nofun⟩
  | ok b =>
      constructor
      · intro h
        cases h
        rfl
      · intro h
        cases h
        rfl

theorem pure_step_ok {ε : Type} {f : ε → HireError} {r : Except ε α} :
    Act.ofExcept (r.mapError f) w = (.ok a, w') ↔ r = .ok a ∧ w = w' := by
  rw [ofExcept_run, Prod.mk.injEq, map_error_ok]

theorem on_storage_ok {m : Act Storage StorageError α} :
    on_storage m w = (.ok a, w') ↔ ∃ s, m w.storage = (.ok a, s) ∧ { w with storage := s } = w' := by
  rw [on_storage, Prod.mk.injEq, map_error_ok]
  constructor
  · rintro ⟨hresult, rfl⟩
    exact ⟨(m w.storage).2, Prod.ext hresult rfl, rfl⟩
  · rintro ⟨s, hrun, rfl⟩
    rw [hrun]
    exact ⟨rfl, rfl⟩

theorem on_orchestrator_ok {m : Act Orchestrator Exn α} : on_orchestrator m w = (.ok a, w') ↔
    ∃ o, m w.company.orchestra = (.ok a, o) ∧ { w with company := { w.company with orchestrator := o } } = w' := by
  rw [on_orchestrator, Prod.mk.injEq, map_error_ok]
  constructor
  · rintro ⟨hresult, rfl⟩
    exact ⟨(m w.company.orchestra).2, Prod.ext hresult rfl, rfl⟩
  · rintro ⟨o, hrun, rfl⟩
    rw [hrun]
    exact ⟨rfl, rfl⟩

end Steps

/-! ### The workspace -/

/-- The workspace can be made: nothing is there yet, and neither the database nor the file system fails. -/
structure Provides (h : Host String UInt8) (f : Faults) (agent_id : String) (quota_mb : Int) (s : Storage) : Prop where
  quota : 0 ≤ quota_mb
  valid : valid_workspace_id agent_id = true
  begins : f.begin_tx = false
  free : s.row agent_id = none
  makes : f.mkdir = false
  dirs : ∃ made, h.mkdirs s.tree (s.root ++ [agent_id]) = .ok made
  records : f.record = false

/-- The agent has a workspace: its row, and its directory. -/
structure HasWorkspace (h : Host String UInt8) (s : Storage) (agent_id : String) : Prop where
  row : (s.row agent_id).isSome = true
  dir : ∃ p, h.follow s.tree (names (s.root ++ [agent_id])) = .ok p ∧ s.tree.entry p = some .dir

variable {h : Host String UInt8} {f : Faults} {agent_id : String} {quota_mb : Int} {s s' : Storage}

theorem create_for_agent_of_provides (hp : Provides h f agent_id quota_mb s) :
    ∃ s', Storage.create_for_agent h f agent_id quota_mb s = (.ok (), s') := by
  obtain ⟨⟨tree, made⟩, hmk⟩ := hp.dirs
  unfold Storage.create_for_agent Storage.provision Storage.make_dir
  rw [if_neg (Int.not_lt.mpr hp.quota), hp.valid, hp.begins, hp.free, hp.makes, hp.records]
  dsimp only
  rw [if_neg Bool.false_ne_true, hmk]
  exact ⟨_, rfl⟩

/-- A workspace that is made could be made, and is there. -/
theorem create_for_agent_ok (hrun : Storage.create_for_agent h f agent_id quota_mb s = (.ok (), s')) :
    Provides h f agent_id quota_mb s ∧ HasWorkspace h s' agent_id := by
  unfold Storage.create_for_agent at hrun
  split at hrun
  · cases hrun
  rename_i hquota
  split at hrun
  · cases hrun
  rename_i hvalid
  split at hrun
  · cases hrun
  rename_i hbegins
  split at hrun
  · cases hrun
  rename_i hfree
  unfold Storage.provision at hrun
  cases hmake : s.make_dir h f agent_id with
  | error e => rw [hmake] at hrun; cases hrun
  | ok made =>
      rw [hmake] at hrun
      dsimp only at hrun
      split at hrun
      · cases hrun
      rename_i hrecords
      unfold Storage.make_dir at hmake
      cases hmakes : f.mkdir with
      | true => rw [hmakes] at hmake; cases hmake
      | false =>
          rw [hmakes, if_neg Bool.false_ne_true] at hmake
          cases hmk : h.mkdirs s.tree (s.root ++ [agent_id]) with
          | error e => rw [hmk] at hmake; cases hmake
          | ok result =>
              obtain ⟨tree, dirs⟩ := result
              rw [hmk] at hmake
              cases hmake
              cases hrun
              obtain ⟨-, hleads, hdir, -⟩ := mkdirs_spec hmk
              refine ⟨⟨Int.not_lt.mp hquota, by simpa using hvalid, by simpa using hbegins, hfree, hmakes, ⟨_, hmk⟩,
                by simpa using hrecords⟩, ?_, _, hleads, hdir⟩
              unfold Storage.row at hfree ⊢
              rw [Table.find_insert, hfree, if_pos rfl]
              rfl

/-! ### The notifications -/

variable {o : Orchestrator} {req : SendRequest}

/-- A message of the system that is no repetition. -/
structure Plain (req : SendRequest) : Prop where
  system : req.system = true
  sender : req.from_agent = none
  fresh : req.correlation_id = none

/-- A notification that is admitted is queued, and the log is asked for its event. -/
theorem system_send_queued (hplain : Plain req) (hadmits : admits o req = true) (havailable : o.queue.available = true) :
    system_send req o = ((EventStore.append (message_sent req) o.events).1.map fun _ => .QUEUED,
      { o with
        queue := o.queue.pushed (new_envelope o req), sent := o.sent ++ [new_envelope o req]
        events := (EventStore.append (message_sent req) o.events).2 }) := by
  have hduplicate : is_duplicate req o = false := by rw [is_duplicate, hplain.fresh]
  rw [system_send_admitted hplain.system hplain.sender hadmits, deliver_to_queue, read_bind, hduplicate,
    if_neg Bool.false_ne_true, bind_of_ok (persist_ok req havailable), bind_run, append_run]
  rcases EventStore.append (message_sent req) o.events with ⟨_ | _, _⟩ <;> rfl

/-- Without the queue, a notification that is admitted raises. -/
theorem system_send_offline (hplain : Plain req) (hadmits : admits o req = true) (hoffline : o.queue.available = false) :
    ∃ e o', system_send req o = (.error e, o') := by
  have hduplicate : is_duplicate req o = false := by rw [is_duplicate, hplain.fresh]
  rw [system_send_admitted hplain.system hplain.sender hadmits, deliver_to_queue, read_bind, hduplicate,
    if_neg Bool.false_ne_true]
  obtain ⟨havailable, -⟩ | ⟨-, e, o', hrun, -, -⟩ := persist_cases o req
  · rw [hoffline] at havailable
    cases havailable
  · exact ⟨e, o', bind_of_error hrun⟩

/-- **The notifications go through** exactly if the queue and the log take those that the gates admit. -/
theorem send_all_ok_iff {reqs : List SendRequest} (hplain : ∀ req ∈ reqs, Plain req) :
    (send_all reqs o).1 = .ok () ↔ (reqs.filter (admits o) = [] ∨ o.queue.available = true) ∧
      o.events.accepts ((reqs.filter (admits o)).map message_sent) = true := by
  -- the gates are asked again at each notification, in a state in which only the queue and the log are new
  induction reqs generalizing o with
  | nil => exact iff_of_true rfl ⟨.inl rfl, rfl⟩
  | cons req rest ih =>
      have hfirst := hplain req List.mem_cons_self
      have hrest := fun r hr => hplain r (List.mem_cons_of_mem req hr)
      rw [send_all]
      cases hadmits : admits o req with
      | false =>
          obtain ⟨result, -, hrun⟩ := system_send_refused hfirst.sender hadmits
          rw [bind_of_ok hrun, List.filter_cons_of_neg (by simp [hadmits])]
          exact ih hrest
      | true =>
          rw [List.filter_cons_of_pos hadmits, List.map_cons, EventStore.accepts_cons]
          cases havailable : o.queue.available with
          | false =>
              obtain ⟨e, o', hrun⟩ := system_send_offline hfirst hadmits havailable
              rw [bind_of_error hrun]
              refine iff_of_false nofun ?_
              rintro ⟨hnil | hoff, -⟩
              · cases hnil
              · cases hoff
          | true =>
              rw [bind_run, system_send_queued hfirst hadmits havailable]
              rcases EventStore.append (message_sent req) o.events with ⟨e | event, events⟩
              · exact iff_of_false nofun fun hboth => nomatch hboth.2.1
              · refine (ih hrest).trans ?_
                exact ⟨fun hboth => ⟨.inr rfl, rfl, hboth.2⟩, fun hboth => ⟨.inr havailable, hboth.2.2⟩⟩

/-! ## What follows the row -/

/-- The roster is the same. -/
def SameRoster (w w' : Workplace) : Prop := w'.company.identity = w.company.identity

theorem SameRoster.refl (w : Workplace) : SameRoster w w := rfl

theorem SameRoster.trans (w w' w'' : Workplace) (h : SameRoster w w') (h' : SameRoster w' w'') : SameRoster w w'' :=
  Eq.trans h' h

variable {env : Surroundings} {opening requester_id : String} {c : Candidate} {record : Agent} {w w' : Workplace}
  {payload : Fields}

theorem on_storage_same {α : Type} (m : Act Storage StorageError α) : Moves SameRoster (on_storage m) := fun _ => rfl

theorem on_orchestrator_same {α : Type} (m : Act Orchestrator Exn α) : Moves SameRoster (on_orchestrator m) :=
  fun _ => rfl

/-- Nothing that follows the row takes it back, whether or not it goes through. -/
theorem settle_in_same (env : Surroundings) (opening requester_id : String) (c : Candidate) (record : Agent) :
    Moves SameRoster (settle_in env opening requester_id c record) := by
  refine .bind SameRoster.trans (.read SameRoster.refl _) fun w => ?_
  refine .bind SameRoster.trans (on_storage_same _) fun _ => ?_
  refine .bind SameRoster.trans (.ofExcept SameRoster.refl _) fun _ => ?_
  refine .bind SameRoster.trans (.ofExcept SameRoster.refl _) fun row => ?_
  refine .bind SameRoster.trans (.write fun _ => rfl) fun _ => ?_
  refine .bind SameRoster.trans (.write fun _ => rfl) fun _ => ?_
  refine .bind SameRoster.trans ?_ fun _ => ?_
  · exact .bind SameRoster.trans (.write fun _ => rfl) fun _ => .ofExcept SameRoster.refl _
  · exact .bind SameRoster.trans (on_orchestrator_same _) fun _ => .pure SameRoster.refl _

/-- The orchestrator with the new agent in its routing table. -/
def Workplace.routing (w : Workplace) (agent : AgentHandle) : Orchestrator := (w.register agent).company.orchestra

/-- The notifications that its gates admit. -/
def heard (env : Surroundings) (opening requester_id : String) (c : Candidate) (record : Agent) (w : Workplace) :
    List SendRequest :=
  (c.notices env opening requester_id record.id).filter (admits (w.routing ⟨record.id, env.ref⟩))

/-- Nothing that follows the row fails. -/
structure Unhindered (env : Surroundings) (opening requester_id : String) (c : Candidate) (record : Agent)
    (w : Workplace) : Prop where
  workspace : Provides env.host env.faults record.id w.default_agent_quota_mb w.storage
  llm : env.llm_factory w.company_id record.id = .ok ()
  persona : ∃ row, Org.find w.company.identity record.id = some row ∧
    env.persona_load row.role (or_text row.persona_ref "default") = .ok ()
  queued : heard env opening requester_id c record w = [] ∨ w.company.orchestrator.queue.available = true
  logged : w.company.events.accepts ((heard env opening requester_id c record w).map message_sent) = true

theorem notices_plain (env : Surroundings) (opening requester_id : String) (c : Candidate) (agent_id : String) :
    ∀ req ∈ c.notices env opening requester_id agent_id, Plain req := by
  intro req hreq
  unfold Candidate.notices at hreq
  dsimp only at hreq
  split at hreq
  · simp only [List.cons_append, List.nil_append, List.mem_cons, List.not_mem_nil, or_false] at hreq
    rcases hreq with rfl | rfl | rfl
    · exact ⟨rfl, rfl, rfl⟩
    · exact ⟨rfl, rfl, rfl⟩
    · exact ⟨rfl, rfl, rfl⟩
  · simp only [List.append_nil, List.mem_cons, List.not_mem_nil, or_false] at hreq
    rcases hreq with rfl | rfl
    · exact ⟨rfl, rfl, rfl⟩
    · exact ⟨rfl, rfl, rfl⟩

/-- An agent whose persona is there starts. -/
theorem start_agent_loaded (agent : AgentHandle) {row : Agent}
    (hpersona : env.persona_load row.role (or_text row.persona_ref "default") = .ok ()) (w : Workplace) :
    start_agent env agent row w =
      (.ok (), w.set_agent { handle := agent, process := AgentProcess.start true {} }) := by
  rw [start_agent, write_bind, hpersona]
  rfl

theorem get_ok_iff {agents : List Agent} {x : String} {row : Agent} :
    Org.get agents x = .ok row ↔ Org.find agents x = some row := by
  unfold Org.get
  cases Org.find agents x with
  | none => exact ⟨nofun, nofun⟩
  | some a => exact ⟨fun h => congrArg some (Except.ok.inj h), fun h => congrArg Except.ok (Option.some.inj h)⟩

/-- What the new agent has after the hire: its workspace, an agent object that runs, and its place in the routing
table. -/
structure Equipped (env : Surroundings) (agent_id : String) (w : Workplace) : Prop where
  workspace : HasWorkspace env.host w.storage agent_id
  runtime : ∃ agent, w.agents agent_id = some agent ∧ agent.process.alive = true ∧
    w.company.orchestrator.registered agent_id = some agent.handle

/-- `_agents[agent.id] = agent`, seen through the lookup. -/
theorem registered_register (agent : AgentHandle) (o : Orchestrator) (x : String) :
    (o.register agent).registered x = if x = agent.id then some agent else o.registered x := by
  show Table.find AgentHandle.id (put_agent o.agents agent) x =
    if x = agent.id then some agent else Table.find AgentHandle.id o.agents x
  unfold put_agent
  split
  · -- there is one with the id, which is replaced in its place
    rename_i hany
    have hid : ∀ a : AgentHandle, (if a.id = agent.id then agent else a).id = a.id := by
      intro a
      split
      · exact Eq.symm ‹_›
      · rfl
    rw [Table.find_update hid]
    cases hfind : Table.find AgentHandle.id o.agents x with
    | none =>
        have hx : x ≠ agent.id := by
          rintro rfl
          obtain ⟨old, hold, heq⟩ := List.any_eq_true.mp hany
          exact Table.find_eq_none.mp hfind old hold (of_decide_eq_true heq)
        rw [if_neg hx]
        rfl
    | some first => rw [Option.map_some, Table.key_of_find hfind, apply_ite some]
  · rename_i hnone
    have hnew : Table.find AgentHandle.id o.agents agent.id = none := by
      rw [Table.find_eq_none]
      intro a ha hid
      exact hnone (List.any_eq_true.mpr ⟨a, ha, decide_eq_true hid⟩)
    rw [Table.find_insert]
    by_cases hx : x = agent.id
    · rw [if_pos hx, hx, hnew, if_pos rfl]
      rfl
    · rw [if_neg hx, if_neg (Ne.symm hx), Option.or_none]

/-- The routing table is the same. -/
def SameRouting (o o' : Orchestrator) : Prop := o'.agents = o.agents

theorem routing_respects : Respects SameRouting where
  refl _ := rfl
  trans _ _ _ h h' := Eq.trans h' h
  gates _ _ _ _ _ _ := rfl
  push o req := by
    unfold enqueue
    split <;> rfl

theorem send_all_routing (reqs : List SendRequest) : Moves SameRouting (send_all reqs) := by
  induction reqs with
  | nil => exact .pure routing_respects.refl _
  | cons req rest ih =>
      have hfirst : Moves SameRouting (system_send req) :=
        send_with_respects routing_respects (fun _ => .pure routing_respects.refl _) req
      exact .bind routing_respects.trans hfirst fun _ => ih

/-- What follows the row has gone through: nothing has failed, and the agent has what it needs. -/
theorem settle_in_ok {result : Agent} (hrun : settle_in env opening requester_id c record w = (.ok result, w')) :
    Unhindered env opening requester_id c record w ∧ result = record ∧ Equipped env record.id w' := by
  -- step by step: what has returned, and the state that it has left
  rw [settle_in, read_bind] at hrun
  obtain ⟨_, w₁, hcreate, hrun⟩ := bind_eq_ok.mp hrun
  obtain ⟨s, hs, rfl⟩ := on_storage_ok.mp hcreate
  obtain ⟨_, w₂, hstep, hrun⟩ := bind_eq_ok.mp hrun
  obtain ⟨hllm, rfl⟩ := pure_step_ok.mp hstep
  obtain ⟨row, w₃, hstep, hrun⟩ := bind_eq_ok.mp hrun
  obtain ⟨hget, rfl⟩ := pure_step_ok.mp hstep
  rw [write_bind, write_bind] at hrun
  obtain ⟨_, w₄, hstep, hrun⟩ := bind_eq_ok.mp hrun
  rw [start_agent, write_bind] at hstep
  obtain ⟨hpersona, rfl⟩ := pure_step_ok.mp hstep
  obtain ⟨_, w₅, hstep, hrun⟩ := bind_eq_ok.mp hrun
  obtain ⟨o, hnotify, rfl⟩ := on_orchestrator_ok.mp hstep
  obtain ⟨rfl, rfl⟩ := (Prod.mk.inj hrun).imp Except.ok.inj id
  obtain ⟨hprovides, hworkspace⟩ := create_for_agent_ok hs
  obtain ⟨hqueued, hlogged⟩ := (send_all_ok_iff (notices_plain env opening requester_id c record.id)).mp
    (congrArg Prod.fst hnotify)
  have hrouting := send_all_routing (c.notices env opening requester_id record.id)
    (w.register ⟨record.id, env.ref⟩).company.orchestra
  refine ⟨⟨hprovides, hllm, ⟨row, get_ok_iff.mp hget, hpersona⟩, hqueued, hlogged⟩, rfl, hworkspace, ?_⟩
  -- the notifications do not touch the routing table, so that the agent is still in it
  refine ⟨⟨⟨record.id, env.ref⟩, AgentProcess.start true {}⟩, ?_, rfl, ?_⟩
  · show Function.update _ _ _ _ = _
    rw [Function.update_self, hpersona]
    rfl
  · have hagents : o.agents = (w.register ⟨record.id, env.ref⟩).company.orchestrator.agents := by
      rw [show o = (send_all (c.notices env opening requester_id record.id)
        (w.register ⟨record.id, env.ref⟩).company.orchestra).2 from (congrArg Prod.snd hnotify).symm]
      exact hrouting
    show o.registered record.id = _
    unfold Orchestrator.registered
    rw [hagents]
    exact (registered_register ⟨record.id, env.ref⟩ w.company.orchestrator record.id).trans (if_pos rfl)

/-- Without a failure, what follows the row goes through. -/
theorem settle_in_of_unhindered (hu : Unhindered env opening requester_id c record w) :
    ∃ w', settle_in env opening requester_id c record w = (.ok record, w') := by
  obtain ⟨s, hs⟩ := create_for_agent_of_provides hu.workspace
  obtain ⟨row, hrow, hpersona⟩ := hu.persona
  have hsent := (send_all_ok_iff (notices_plain env opening requester_id c record.id)).mpr ⟨hu.queued, hu.logged⟩
  rcases hnotify : send_all (c.notices env opening requester_id record.id)
    (w.routing ⟨record.id, env.ref⟩) with ⟨r, o⟩
  rw [hnotify] at hsent
  obtain rfl : r = .ok () := hsent
  have hcreate := on_storage_ok.mpr ⟨s, hs, rfl⟩
  have hstart := start_agent_loaded ⟨record.id, env.ref⟩ hpersona
  rw [settle_in, read_bind, id, bind_of_ok hcreate, bind_of_ok (pure_step_ok.mpr ⟨hu.llm, rfl⟩),
    bind_of_ok (pure_step_ok.mpr ⟨get_ok_iff.mpr hrow, rfl⟩), write_bind, write_bind, bind_of_ok (hstart _)]
  exact ⟨_, bind_of_ok (on_orchestrator_ok.mpr ⟨o, hnotify, rfl⟩)⟩

/-! ## The hire -/

/-- The payload is no good, or the organisation refuses the hire. -/
def Refused (env : Surroundings) (requester_id : String) (payload : Fields) (w : Workplace) : Prop :=
  ∀ c, candidate env w.company.identity payload = .ok c →
    ¬ (Org.check_hire w.company.identity env.agent_id (c.hire requester_id) = .ok () ∧
      Org.find w.company.identity env.agent_id = none)

/-- The row that a hire inserts. -/
def Candidate.row (c : Candidate) (env : Surroundings) (requester_id : String) : Agent :=
  Org.hired env.agent_id env.hired_at (c.hire requester_id)

/-- The company with the row, and with what the store has made of the event behind it. -/
def Workplace.joined (w : Workplace) (env : Surroundings) (requester_id : String) (c : Candidate) : Workplace :=
  { w with
    company :=
      { w.company.set_events (EventStore.append (Org.hired_post env.agent_id (c.hire requester_id)) w.company.events).2 with
        identity := w.company.identity ++ [c.row env requester_id] } }

/-- A hire that is refused writes nothing. -/
theorem hire_refused (opening : String) (hrefused : Refused env requester_id payload w) :
    ∃ e, hire_member_from_payload env opening requester_id payload w = (.error e, w) := by
  rw [hire_member_from_payload, read_bind, id]
  cases hcandidate : candidate env w.company.identity payload with
  | error e => exact ⟨_, rfl⟩
  | ok c =>
      obtain ⟨e, he⟩ := Org.add_agent_refused (o := Staff.org env.lower w.company) env.hired_at (hrefused c hcandidate)
      have hadd : on_org env.lower (Org.add_agent env.agent_id env.hired_at (c.hire requester_id)) w =
          (.error (.org e), w) := by
        rw [on_org, he]
        rfl
      rw [show (Except.ok c : Except Exn Candidate).mapError HireError.raised = .ok c from rfl, ofExcept_ok_bind,
        bind_of_error hadd]
      exact ⟨_, rfl⟩

/-- **Any other hire inserts the row**, and goes on if the store takes the event behind it. -/
theorem hire_row (opening : String) (hcandidate : candidate env w.company.identity payload = .ok c)
    (hcheck : Org.check_hire w.company.identity env.agent_id (c.hire requester_id) = .ok ())
    (hnew : Org.find w.company.identity env.agent_id = none) :
    hire_member_from_payload env opening requester_id payload w =
      match (EventStore.append (Org.hired_post env.agent_id (c.hire requester_id)) w.company.events).1 with
      | .ok _ => settle_in env opening requester_id c (c.row env requester_id) (w.joined env requester_id c)
      | .error e => (.error (.org (.raises e)), w.joined env requester_id c) := by
  have hadd := Org.add_agent_passed (o := Staff.org env.lower w.company) env.hired_at hcheck hnew
  rw [hire_member_from_payload, read_bind, id, hcandidate,
    show (Except.ok c : Except Exn Candidate).mapError HireError.raised = .ok c from rfl, ofExcept_ok_bind, bind_run,
    on_org, hadd]
  unfold Workplace.joined
  rcases happend : EventStore.append (Org.hired_post env.agent_id (c.hire requester_id)) w.company.events with
    ⟨e | event, events⟩
  · have happend' : EventStore.append (Org.hired_post env.agent_id (c.hire requester_id))
        (Staff.org env.lower w.company).events = (.error e, events) := happend
    simp only [happend']
    rfl
  · have happend' : EventStore.append (Org.hired_post env.agent_id (c.hire requester_id))
        (Staff.org env.lower w.company).events = (.ok event, events) := happend
    simp only [happend']
    rfl

/-! ### Whether the hire is atomic -/

/-- Will the recipient get a notification, once the agent is there? -/
def hears (env : Surroundings) (w : Workplace) (req : SendRequest) : Bool :=
  req.content.utf8ByteSize ≤ _MAX_CONTENT_BYTES &&
    (req.to_agent = env.agent_id ||
      (Org.find w.company.identity req.to_agent).any Agent.active &&
        (w.company.orchestrator.registered req.to_agent).isSome) &&
    !is_suspended w.company.orchestrator req.to_agent && w.company.orchestrator.accepting

theorem admits_joined (hnew : Org.find w.company.identity env.agent_id = none) (req : SendRequest) :
    admits ((w.joined env requester_id c).routing ⟨env.agent_id, env.ref⟩) req = hears env w req := by
  have hfound : Org.find (w.company.identity ++ [c.row env requester_id]) req.to_agent =
      if req.to_agent = env.agent_id then some (c.row env requester_id) else Org.find w.company.identity req.to_agent :=
    Org.find_added hnew req.to_agent
  have hactive : is_active ((w.joined env requester_id c).routing ⟨env.agent_id, env.ref⟩) req.to_agent =
      (Org.find (w.company.identity ++ [c.row env requester_id]) req.to_agent).any Agent.active :=
    Staff.is_active_orchestra ((w.joined env requester_id c).register ⟨env.agent_id, env.ref⟩).company req.to_agent
  have hsuspended : is_suspended ((w.joined env requester_id c).routing ⟨env.agent_id, env.ref⟩) req.to_agent =
      is_suspended w.company.orchestrator req.to_agent := rfl
  have haccepting : ((w.joined env requester_id c).routing ⟨env.agent_id, env.ref⟩).accepting =
      w.company.orchestrator.accepting := rfl
  have hregistered : ((w.joined env requester_id c).routing ⟨env.agent_id, env.ref⟩).registered req.to_agent =
      if req.to_agent = env.agent_id then some ⟨env.agent_id, env.ref⟩
        else w.company.orchestrator.registered req.to_agent :=
    registered_register ⟨env.agent_id, env.ref⟩ (w.joined env requester_id c).company.orchestra req.to_agent
  unfold admits hears
  rw [hactive, hsuspended, haccepting, hfound, hregistered]
  by_cases hto : req.to_agent = env.agent_id
  · -- the new agent is active, and has just been registered
    rw [if_pos hto, if_pos hto]
    simp [hto, Candidate.row, Org.hired, Agent.active]
  · rw [if_neg hto, if_neg hto]
    simp only [hto, decide_false, Bool.false_or]
    ac_rfl

/-- The notifications that reach their recipients. -/
def told (env : Surroundings) (opening requester_id : String) (c : Candidate) (w : Workplace) : List SendRequest :=
  (c.notices env opening requester_id env.agent_id).filter (hears env w)

/-- Nothing fails after the row is there: not the event about it, the workspace, the client of the model, the persona
or a notification. -/
structure Smooth (env : Surroundings) (opening requester_id : String) (c : Candidate) (w : Workplace) : Prop where
  workspace : Provides env.host env.faults env.agent_id w.default_agent_quota_mb w.storage
  llm : env.llm_factory w.company_id env.agent_id = .ok ()
  persona : env.persona_load .MEMBER "default" = .ok ()
  queued : told env opening requester_id c w = [] ∨ w.company.orchestrator.queue.available = true
  logged : w.company.events.accepts (Org.hired_post env.agent_id (c.hire requester_id) ::
    (told env opening requester_id c w).map message_sent) = true

theorem smooth_iff (hnew : Org.find w.company.identity env.agent_id = none) :
    Smooth env opening requester_id c w ↔
      (EventStore.append (Org.hired_post env.agent_id (c.hire requester_id)) w.company.events).1.isOk = true ∧
        Unhindered env opening requester_id c (c.row env requester_id) (w.joined env requester_id c) := by
  have hheard : heard env opening requester_id c (c.row env requester_id) (w.joined env requester_id c) =
      told env opening requester_id c w :=
    List.filter_congr fun req _ => admits_joined hnew req
  have hfound : Org.find (w.joined env requester_id c).company.identity env.agent_id =
      some (c.row env requester_id) :=
    (Org.find_added hnew env.agent_id).trans (if_pos rfl)
  constructor
  · intro hs
    obtain ⟨hevent, hrest⟩ := (EventStore.accepts_cons _ _ _).mp hs.logged
    refine ⟨hevent, hs.workspace, hs.llm, ⟨_, hfound, hs.persona⟩, ?_, ?_⟩
    · rw [hheard]
      exact hs.queued
    · rw [hheard]
      exact hrest
  · rintro ⟨hevent, hu⟩
    obtain ⟨row, hrow, hpersona⟩ := hu.persona
    -- the row that the agent reads is the one that was inserted
    obtain rfl := Option.some.inj (hfound.symm.trans hrow)
    refine ⟨hu.workspace, hu.llm, hpersona, ?_, (EventStore.accepts_cons _ _ _).mpr ⟨hevent, ?_⟩⟩
    · rw [← hheard]
      exact hu.queued
    · rw [← hheard]
      exact hu.logged

/-- The agent has joined: a new row that is active, and all that the agent needs. -/
structure Joined (env : Surroundings) (w w' : Workplace) (record : Agent) : Prop where
  new : Org.find w.company.identity record.id = none
  found : Org.find w'.company.identity record.id = some record
  active : record.status = .ACTIVE
  equipped : Equipped env record.id w'

/-- The roster, the workspaces, the agent objects and the routing table are as they were. -/
structure Unchanged (w w' : Workplace) : Prop where
  roster : w'.company.identity = w.company.identity
  workspaces : w'.storage = w.storage
  agents : w'.agents = w.agents
  routing : w'.company.orchestrator.agents = w.company.orchestrator.agents

/-- The hire is all or nothing. -/
inductive Atomic (env : Surroundings) (opening requester_id : String) (payload : Fields) (w : Workplace) : Prop where
  | returns (record : Agent) (w' : Workplace)
      (hrun : hire_member_from_payload env opening requester_id payload w = (.ok record, w'))
      (hjoined : Joined env w w' record)
  | raises (e : HireError) (w' : Workplace)
      (hrun : hire_member_from_payload env opening requester_id payload w = (.error e, w'))
      (hunchanged : Unchanged w w')

/-- A hire that goes on writes its row, and nothing that follows takes it back. -/
theorem roster_of_hire (opening : String) (hcandidate : candidate env w.company.identity payload = .ok c)
    (hcheck : Org.check_hire w.company.identity env.agent_id (c.hire requester_id) = .ok ())
    (hnew : Org.find w.company.identity env.agent_id = none) :
    (hire_member_from_payload env opening requester_id payload w).2.company.identity =
      w.company.identity ++ [c.row env requester_id] := by
  rw [hire_row opening hcandidate hcheck hnew]
  split
  · exact settle_in_same env opening requester_id c (c.row env requester_id) (w.joined env requester_id c)
  · rfl

/-- **The hire is atomic exactly if it is refused, or nothing fails after the row is there.** -/
theorem hire_atomic_iff (env : Surroundings) (opening requester_id : String) (payload : Fields) (w : Workplace) :
    Atomic env opening requester_id payload w ↔ Refused env requester_id payload w ∨
      ∃ c, candidate env w.company.identity payload = .ok c ∧ Smooth env opening requester_id c w := by
  by_cases hrefused : Refused env requester_id payload w
  · refine iff_of_true ?_ (.inl hrefused)
    obtain ⟨e, he⟩ := hire_refused opening hrefused
    exact .raises e w he ⟨rfl, rfl, rfl, rfl⟩
  rw [or_iff_right hrefused]
  unfold Refused at hrefused
  push Not at hrefused
  obtain ⟨c, hcandidate, hcheck, hnew⟩ := hrefused
  have hroster := roster_of_hire opening hcandidate hcheck hnew
  constructor
  · intro hatomic
    refine ⟨c, hcandidate, (smooth_iff hnew).mpr ?_⟩
    cases hatomic with
    | raises e w' hrun hunchanged =>
        -- the roster is longer, so that the call may not raise
        rw [hrun] at hroster
        have hsame := hroster.symm.trans hunchanged.roster
        exact absurd hsame (by simp)
    | returns record w' hrun hjoined =>
        rw [hire_row opening hcandidate hcheck hnew] at hrun
        split at hrun
        · rename_i event happend
          exact ⟨by rw [happend]; rfl, (settle_in_ok hrun).1⟩
        · cases hrun
  · rintro ⟨c', hcandidate', hsmooth⟩
    obtain rfl : c = c' := Except.ok.inj (hcandidate.symm.trans hcandidate')
    obtain ⟨hevent, hu⟩ := (smooth_iff hnew).mp hsmooth
    obtain ⟨w', hsettle⟩ := settle_in_of_unhindered hu
    obtain ⟨-, -, hequipped⟩ := settle_in_ok hsettle
    have hrun : hire_member_from_payload env opening requester_id payload w =
        (.ok (c.row env requester_id), w') := by
      rw [hire_row opening hcandidate hcheck hnew]
      split
      · exact hsettle
      · rename_i e happend
        rw [happend] at hevent
        cases hevent
    rw [hrun] at hroster
    have hfound : Org.find w'.company.identity env.agent_id = some (c.row env requester_id) := by
      rw [hroster]
      exact (Org.find_added hnew env.agent_id).trans (if_pos rfl)
    exact .returns _ w' hrun ⟨hnew, hfound, rfl, hequipped⟩

/-- The company of `small_company`, with its agents at work. -/
def small_workplace : Workplace :=
  { company := { identity := Org.small_company.agents, orchestrator := Orchestrator.fresh [] .quiet {} {} id }
    storage := .acme [], agents := fun _ => none, company_id := "acme", default_agent_quota_mb := 64 }

/-- The disk is full. -/
def full_disk : Surroundings :=
  { agent_id := "m1", hired_at := 20, ref := 1, host := linux, faults := { mkdir := true }
    llm_factory := fun _ _ => .ok (), persona_load := fun _ _ => .ok (), clocks := fun _ => (20, 0), lower := id
    repr := fun _ => "" }

def designer : Fields :=
  [("role_title", .str "Designer"), ("role_description", .str "Designs the product."), ("reports_to", .str "c1")]

/-- The directory cannot be made: the call raises, and the agent stays in the roster as an active one. -/
theorem hire_without_workspace : ¬ ∀ (env : Surroundings) (opening requester_id : String) (payload : Fields)
    (w : Workplace), Atomic env opening requester_id payload w := by
  intro hatomic
  have hhere := hatomic full_disk "" "hr" designer small_workplace
  have hrun : (hire_member_from_payload full_disk "" "hr" designer small_workplace).1.isOk = false ∧
      (hire_member_from_payload full_disk "" "hr" designer small_workplace).2.company.identity.length = 4 := by
    decide +kernel
  cases hhere with
  | raises e w' hresult hunchanged =>
      rw [hresult] at hrun
      have hthree : small_workplace.company.identity.length = 3 := by decide +kernel
      have hfour : w'.company.identity.length = 4 := hrun.2
      rw [hunchanged.roster, hthree] at hfour
      omega
  | returns record w' hresult hjoined =>
      rw [hresult] at hrun
      cases hrun.1

end Hiring

end CompanyFactory
