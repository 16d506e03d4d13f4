import CompanyFactory.AgentRuntime.Models
import CompanyFactory.Identity.Models
import CompanyFactory.Lib.Run
import CompanyFactory.Lib.Table
import Mathlib.Data.List.Infix
import Mathlib.Data.List.Sort

/-!
# `Identity.Org` — the organisation of one company

The `agents` table is a list of rows in the order of the inserts; the ids and the readings of the clock are
arguments. `reassign`, `depth` and `chain_up` walk up the chart in a `while` loop. The model gives the loop a
number of rounds: `none` says that it has not ended within them. In a call the number is `rounds`, one more than
there are rows; a walk that is not over then has come back to a row, and goes on for ever (`Halt.never`).

What a call writes before it raises stays: the transaction is committed before the events are appended.
-/

namespace CompanyFactory

open Act

/-- The `agents` table and the event store of a company. -/
structure Org where
  agents : List Identity.Agent
  events : EventStore
  /-- `str.lower` -/
  lower : String → String

namespace Org

open Identity

/-- How a call ends without a result: by an exception, or not at all. -/
inductive Halt where
  | raises (e : Exn)
  | never
  deriving DecidableEq

def MAX_ACTIVE_AGENTS : Nat := 100
def MAX_CEO_DIRECT_REPORTS : Nat := 5
def MAX_MANAGER_DIRECT_REPORTS : Nat := 4
def _MIN_FIRE_REASON_CHARS : Nat := 8

def denied (cls message : String) : Halt := .raises (.other cls message)

/-! ## Queries -/

def find (agents : List Agent) (agent_id : String) : Option Agent :=
  Table.find Agent.id agents agent_id

/-- `ORDER BY hired_at` -/
def by_hire (agents : List Agent) : List Agent :=
  agents.insertionSort (fun a b => a.hired_at ≤ b.hired_at)

/-- `all(status=ACTIVE)` -/
def all_active (agents : List Agent) : List Agent := by_hire (agents.filter Agent.active)

def active_count (agents : List Agent) : Nat := agents.countP Agent.active

/-- `reports_to = ? AND status = 'active'` -/
def reports (manager_id : String) (a : Agent) : Bool :=
  decide (a.reports_to = some manager_id) && a.active

def direct_report_count (agents : List Agent) (manager_id : String) : Nat :=
  agents.countP (reports manager_id)

def direct_reports (agents : List Agent) (manager_id : String) : List String :=
  (by_hire (agents.filter (reports manager_id))).map Agent.id

def _direct_report_limit (role : Role) : Nat :=
  if role = .CEO then MAX_CEO_DIRECT_REPORTS else MAX_MANAGER_DIRECT_REPORTS

/-- The manager in the row of an agent, if there are both. -/
def manager (agents : List Agent) (agent_id : String) : Option String :=
  (find agents agent_id).bind Agent.reports_to

def manager_of (agents : List Agent) (agent_id : String) : Except Exn (Option String) :=
  match find agents agent_id with
  | none => .error (.keyError agent_id)
  | some row => .ok row.reports_to

def get (agents : List Agent) (agent_id : String) : Except Exn Agent :=
  match find agents agent_id with
  | none => .error (.keyError agent_id)
  | some row => .ok row

/-- `_get_active` -/
def get_active (agents : List Agent) (agent_id : String) : Option Agent :=
  (find agents agent_id).filter Agent.active

/-- `_has_other_active_hr` -/
def has_other_active_hr (agents : List Agent) (exclude_id : String) : Bool :=
  agents.any (fun a => decide (a.role = .HR) && a.active && decide (a.id ≠ exclude_id))

/-! ## Walks up the chart -/

/-- More rounds than a walk without repetition can take. -/
def rounds (agents : List Agent) : Nat := agents.length + 1

/-- The loop of `reassign`: does the walk meet the target? -/
def meets (agents : List Agent) (target_id : String) : Nat → Option String → Option Bool
  | _, none => some false
  | 0, some _ => none
  | n + 1, some cur =>
    if cur = target_id then some true
    else
      match find agents cur with
      | none => some false
      | some row => meets agents target_id n row.reports_to

/-- The loop of `chain_up`. -/
def climb (agents : List Agent) :
    Nat → Option String → List String → List String → Option (Except Exn (List String))
  | _, none, _, chain => some (.ok chain)
  | 0, some _, _, _ => none
  | n + 1, some cur, seen, chain =>
    if cur ∈ seen then some (.error (.other "CycleDetected" ("cycle_at:" ++ cur)))
    else
      match manager_of agents cur with
      | .error e => some (.error e)
      | .ok next => climb agents n next (cur :: seen) (chain ++ [cur])

def chain_up (agents : List Agent) (n : Nat) (agent_id : String) :
    Option (Except Exn (List String)) :=
  match manager_of agents agent_id with
  | .error e => some (.error e)
  | .ok next => climb agents n next [agent_id] []

/-- The loop of `depth`. -/
def levels (agents : List Agent) (ancestor_id : String) :
    Nat → Option String → Nat → Option (Except Exn (Option Nat))
  | _, none, _ => some (.ok none)
  | 0, some _, _ => none
  | n + 1, some cur, d =>
    if cur = ancestor_id then some (.ok (some (d + 1)))
    else
      match manager_of agents cur with
      | .error e => some (.error e)
      | .ok next => levels agents ancestor_id n next (d + 1)

def depth (agents : List Agent) (n : Nat) (ancestor_id descendant_id : String) :
    Option (Except Exn (Option Nat)) :=
  if ancestor_id = descendant_id then some (.ok (some 0))
  else
    match manager_of agents descendant_id with
    | .error e => some (.error e)
    | .ok next => levels agents ancestor_id n next 0

/-- What a walk gives to the call it is part of. -/
def ended {α : Type} : Option (Except Exn α) → Except Halt α
  | none => .error .never
  | some (.error e) => .error (.raises e)
  | some (.ok a) => .ok a

/-! ## Writing -/

def set_agents (f : List Agent → List Agent) : Act Org Halt Unit :=
  Act.write fun o => { o with agents := f o.agents }

def append (post : Post) : Act Org Halt Unit := fun o =>
  match EventStore.append post o.events with
  | (.ok _, events) => (.ok (), { o with events })
  | (.error e, events) => (.error (.raises e), { o with events })

def appendAll : List Post → Act Org Halt Unit
  | [] => pure ()
  | post :: posts => do
    append post
    appendAll posts

/-- The rows are the same. -/
def SameAgents (o o' : Org) : Prop := o'.agents = o.agents

theorem SameAgents.refl (o : Org) : SameAgents o o := rfl

theorem SameAgents.trans (o o' o'' : Org) (h : SameAgents o o') (h' : SameAgents o' o'') :
    SameAgents o o'' := Eq.trans h' h

theorem append_same (post : Post) : Moves SameAgents (append post) := by
  intro o
  unfold append SameAgents
  split <;> rfl

theorem appendAll_same (posts : List Post) : Moves SameAgents (appendAll posts) := by
  induction posts with
  | nil => exact .pure SameAgents.refl _
  | cons post posts ih => exact .bind SameAgents.trans (append_same post) fun _ => ih

/-! ## Hiring -/

/-- Is there a place under this manager? -/
def place_under (agents : List Agent) (agent_id : String) (hire : Hire) (reports_to : String) :
    Except Halt Unit :=
  match find agents reports_to with
  | none => .error (denied "HireDenied" ("manager_not_found:" ++ reports_to))
  | some row =>
    if row.status ≠ .ACTIVE then .error (denied "HireDenied" ("manager_not_active:" ++ reports_to))
    else if row.id = agent_id then .error (denied "CycleDetected" "self_report")
    else if !hire.bootstrap && decide (row.role = .HR) && decide (hire.role ≠ .HR) then
      .error (denied "HireDenied" ("hr_can_only_manage_hr:" ++ reports_to))
    else if _direct_report_limit row.role ≤ direct_report_count agents reports_to then
      .error (denied "HireDenied" ("direct_report_limit_exceeded:" ++ reports_to ++ ":" ++
        toString (_direct_report_limit row.role)))
    else .ok ()

/-- The checks of `add_agent`. -/
def check_hire (agents : List Agent) (agent_id : String) (hire : Hire) : Except Halt Unit :=
  if !hire.bootstrap && !hire.via_hr then .error (denied "HireDenied" "must_route_via_hr")
  else if !hire.bootstrap && hire.reports_to.isNone then
    .error (denied "HireDenied" "manager_required")
  else if MAX_ACTIVE_AGENTS ≤ active_count agents then
    .error (denied "HireDenied" ("company_headcount_limit_exceeded:" ++ toString MAX_ACTIVE_AGENTS))
  else
    match hire.reports_to with
    | none => .ok ()
    | some reports_to => place_under agents agent_id hire reports_to

/-- The row that is inserted. -/
def hired (agent_id : String) (now : Time) (hire : Hire) : Agent :=
  { id := agent_id, role := hire.role, persona_ref := hire.persona_ref
    reports_to := hire.reports_to, status := .ACTIVE, hired_at := now
    first_name := hire.first_name, last_name := hire.last_name
    role_title := hire.role_title, role_description := hire.role_description }

/-- The `INSERT`, with its primary key. -/
def insert (agents : List Agent) (row : Agent) : Except Halt (List Agent) :=
  if (find agents row.id).isSome then
    .error (denied "IntegrityError" "UNIQUE constraint failed: agents.id")
  else .ok (agents ++ [row])

def hired_post (agent_id : String) (hire : Hire) : Post :=
  { kind := if hire.bootstrap then .AGENT_CREATED else .AGENT_HIRED
    payload := [("agent_id", .str agent_id), ("role", .str hire.role.value),
      ("manager_id", .ofOption hire.reports_to), ("first_name", .str hire.first_name),
      ("last_name", .str hire.last_name), ("role_title", .ofOption hire.role_title)] ++
      (if hire.bootstrap then [] else [("by_agent_id", .str hire.requested_by)])
    actor := some hire.requested_by }

def add_agent (agent_id : String) (now : Time) (hire : Hire) : Act Org Halt Agent := do
  let agents ← Act.read Org.agents
  Act.ofExcept (check_hire agents agent_id hire)
  let rows ← Act.ofExcept (insert agents (hired agent_id now hire))
  set_agents fun _ => rows
  append (hired_post agent_id hire)
  pure (hired agent_id now hire)

/-! ## Reassignment -/

/-- `" ".join(text.split())` -/
def squeezed (text : String) : String :=
  " ".intercalate (((text.toList.splitOnP is_space).filter (fun w => decide (w ≠ []))).map String.ofList)

/-- The target must be active and have no special role. -/
def movable (agents : List Agent) (target_id : String) : Except Halt Agent :=
  match find agents target_id with
  | none => .error (denied "FireDenied" ("target_not_found:" ++ target_id))
  | some row =>
    if row.status ≠ .ACTIVE then .error (denied "FireDenied" ("target_not_active:" ++ target_id))
    else if special row.role then
      .error (denied "SpecialRoleProtected" ("cannot_reassign_special_role:" ++ row.role.value))
    else .ok row

def active_manager (agents : List Agent) (new_reports_to : String) : Except Halt Agent :=
  match find agents new_reports_to with
  | none => .error (denied "FireDenied" ("manager_not_found:" ++ new_reports_to))
  | some row =>
    if row.status ≠ .ACTIVE then
      .error (denied "FireDenied" ("manager_not_active:" ++ new_reports_to))
    else .ok row

/-- The actor must be the CEO or the current manager. -/
def may_move (agents : List Agent) (actor_id : String) (target : Agent) : Except Halt Unit :=
  match get_active agents actor_id with
  | none => .error (denied "FireDenied" ("actor_not_active:" ++ actor_id))
  | some actor =>
    if actor.role ≠ .CEO ∧ some actor_id ≠ target.reports_to then
      .error (denied "FireDenied" "only_current_manager_or_ceo_may_reassign")
    else .ok ()

/-- HR manages HR, and the new manager must have a place left. -/
def has_place (agents : List Agent) (new_mgr target : Agent) : Except Halt Unit :=
  if new_mgr.role = .HR ∧ target.role ≠ .HR then
    .error (denied "HireDenied" ("hr_can_only_manage_hr:" ++ new_mgr.id))
  else if _direct_report_limit new_mgr.role ≤ direct_report_count agents new_mgr.id then
    .error (denied "HireDenied" ("direct_report_limit_exceeded:" ++ new_mgr.id ++ ":" ++
      toString (_direct_report_limit new_mgr.role)))
  else .ok ()

/-- The new manager must not be below the target. -/
def not_below (agents : List Agent) (target new_mgr : Agent) : Except Halt Unit :=
  match meets agents target.id (rounds agents) new_mgr.reports_to with
  | none => .error .never
  | some true => .error (denied "CycleDetected" ("cycle:" ++ target.id ++ "->" ++ new_mgr.id))
  | some false => .ok ()

/-- The checks of `reassign`: the row of the target, and whether there is something to do. -/
def check_reassign (agents : List Agent) (r : Reassignment) : Except Halt (Agent × Bool) :=
  if (squeezed r.reason).length < _MIN_FIRE_REASON_CHARS then
    .error (denied "FireDenied" ("reassign_reason_too_short:" ++ toString _MIN_FIRE_REASON_CHARS))
  else if r.target_id = r.new_reports_to then .error (denied "CycleDetected" "self_report")
  else do
    let target ← movable agents r.target_id
    let new_mgr ← active_manager agents r.new_reports_to
    if target.reports_to = some r.new_reports_to then pure (target, false)
    else do
      may_move agents r.actor_id target
      has_place agents new_mgr target
      not_below agents target new_mgr
      pure (target, true)

def reassigned_post (r : Reassignment) (from_manager : Option String) : Post :=
  { kind := .AGENT_REASSIGNED
    payload := [("agent_id", .str r.target_id), ("from_manager_id", .ofOption from_manager),
      ("to_manager_id", .str r.new_reports_to), ("by_agent_id", .str r.actor_id),
      ("reason", .str (squeezed r.reason))]
    actor := some r.actor_id }

/-- `UPDATE agents SET reports_to = ? WHERE id = ?` -/
def set_manager (target_id new_reports_to : String) (agents : List Agent) : List Agent :=
  Table.update Agent.id target_id (fun a => { a with reports_to := some new_reports_to }) agents

def reassign (r : Reassignment) : Act Org Halt Agent := do
  let agents ← Act.read Org.agents
  let (target, moves) ← Act.ofExcept (check_reassign agents r)
  if !moves then pure target
  else do
    set_agents (set_manager r.target_id r.new_reports_to)
    append (reassigned_post r target.reports_to)
    pure { target with reports_to := some r.new_reports_to }

/-! ## Firing -/

/-- `_validate_fire_reason` -/
def invalid_reason (lower : String → String) (reason : String) : Option String :=
  let cleaned := squeezed reason
  let lowered := lower cleaned
  if cleaned.length < _MIN_FIRE_REASON_CHARS then
    some ("fire_reason_too_short:" ++ toString _MIN_FIRE_REASON_CHARS)
  else if ["n/a", "na", "none", "test"].contains lowered then some "fire_reason_invalid"
  else if ["this is a test", "test to check", "system functionality", "no reason"].any
      (fun phrase => decide (phrase.toList <:+: lowered.toList)) then
    some "fire_reason_invalid"
  else none

/-- The guards of `fire` before the chart is consulted. -/
def fire_guard (agents : List Agent) (f : Firing) : Option String :=
  if !f.via_hr then some "must_route_via_hr"
  else
    match get_active agents f.actor_id, get_active agents f.target_id with
    | none, _ => some "actor_not_active"
    | some _, none => some "target_not_active"
    | some actor, some target =>
      if actor.id = target.id then some "self_fire"
      else if target.role = .CEO then some "ceo_cannot_be_fired_directly"
      else if target.role = .HR ∧ has_other_active_hr agents target.id = false then
        some "no_hr_replacement"
      else none

/-- Why a request to fire is denied, if it is. -/
def fire_denied (lower : String → String) (agents : List Agent) (f : Firing) :
    Except Halt (Option String) :=
  match fire_guard agents f with
  | some reason => .ok (some reason)
  | none => do
    let d ← ended (depth agents (rounds agents) f.actor_id f.target_id)
    if d = none ∨ d = some 0 then pure (some "not_subordinate")
    else pure (invalid_reason lower f.reason)

/-- The two `UPDATE`s of `_do_fire`. -/
def dismiss (target_id actor_id reason : String) (now : Time) (agents : List Agent) : List Agent :=
  (Table.update Agent.id target_id (fun a =>
    { a with status := .FIRED, fired_at := some now, fired_by := some actor_id, fire_reason := some reason })
      agents).map
    fun a => if reports target_id a then { a with reports_to := none } else a

def fired_posts (f : Firing) (former_manager : Option String) (orphans : List String) : List Post :=
  { kind := .AGENT_FIRED
    payload := [("agent_id", .str f.target_id), ("by_agent_id", .str f.actor_id),
      ("reason", .str f.reason)]
    actor := some f.actor_id } ::
  ((match former_manager with
    | none => []
    | some manager =>
      if manager = "" ∨ manager = f.actor_id then []
      else [{ kind := .AGENT_FIRE_NOTIFY
              payload := [("to_agent", .str manager), ("fired_agent", .str f.target_id),
                ("actor", .str f.actor_id), ("reason", .str f.reason)]
              actor := some f.actor_id }]) ++
    orphans.map fun orphan_id =>
      { kind := .AGENT_ORPHANED
        payload := [("agent_id", .str orphan_id), ("former_manager_id", .str f.target_id)]
        actor := some f.actor_id })

/-- `_do_fire` -/
def do_fire (now : Time) (f : Firing) : Act Org Halt Unit := do
  let agents ← Act.read Org.agents
  let target ← Act.ofExcept (ended (some (get agents f.target_id)))
  if target.role = .HR ∧ has_other_active_hr agents f.target_id = false then
    Act.raise (denied "SpecialRoleProtected" "no_hr_replacement")
  else do
    set_agents (dismiss f.target_id f.actor_id f.reason now)
    appendAll (fired_posts f target.reports_to (direct_reports agents f.target_id))

def fire (now : Time) (f : Firing) : Act Org Halt FireOutcome := do
  let o ← Act.read id
  let refusal ← Act.ofExcept (fire_denied o.lower o.agents f)
  match refusal with
  | some reason => pure { result := .DENIED, reason := some reason }
  | none => do
    do_fire now f
    pure { result := .DIRECT_FIRED }

end Org

end CompanyFactory
