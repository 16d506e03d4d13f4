import CompanyFactory.Company.State

/-!
# `Tools.Service` — the tool pipeline

`invoke` has one await point, the executor. The model cuts it there: `invoke_start` runs from the replay
check to the executor (or to an early end), `invoke_finish` from the executor's outcome to the result.
Between the two, other calls may run; `invoke` is the call in which nothing but `exec` does.

The executor is third-party code: its outcome is an input. So are the schemas, the cost estimators and
the permission checks, which a `ToolDef` carries as functions.
-/

namespace CompanyFactory

inductive ApprovalRequirement where
  | NONE | EXPENSE | EXTERNAL
  deriving DecidableEq, Repr

/-- `_APPROVAL_KIND_FOR` -/
def ApprovalRequirement.kind : ApprovalRequirement → Option ApprovalKind
  | .NONE => none
  | .EXPENSE => some .EXPENSE
  | .EXTERNAL => some .EXTERNAL_ACTION

/-- The execution context; its services are the company it is used with. -/
structure ToolContext where
  agent_id : String
  role : Role
  correlation_id : String
  deriving DecidableEq

structure ToolDef where
  name : String
  /-- `schema.model_validate`; a failure carries the text of the `ValidationError` -/
  schema : Fields → Except String Fields
  /-- the name of the output class, and whether an instance is one of it -/
  output_schema : String
  conforms : Instance → Bool
  /-- `none` is `"any"` -/
  roles_allowed : Option (List Role)
  requires_approval : ApprovalRequirement := .NONE
  cost_estimator : Option (Fields → Except Exn Money) := none
  permission_check : Option (Company → ToolContext → Fields → Except Exn Unit) := none

def ToolDef.is_role_allowed (tool : ToolDef) (role : Role) : Bool :=
  match tool.roles_allowed with
  | none => true
  | some roles => roles.contains role

/-- The registry: `register` refuses a second tool of one name. -/
abbrev ToolDefs := List ToolDef

/-- The arguments of `invoke`; `uuid` and `now` are what `uuid4` and the clock answer. -/
structure Invocation where
  agent_id : String
  tool_name : String
  args : Fields
  correlation_id : Option String
  uuid : String
  now : Time
  deriving DecidableEq

def Invocation.cid (i : Invocation) : String := or_new_id i.correlation_id i.uuid

/-- A call whose executor is running: the locals of `invoke` at its await point. -/
structure ToolCall where
  cid : String
  agent_id : String
  tool : ToolDef
  args : Fields
  estimate : Money
  reservation_id : Nat

/-- How an executor ends: with an instance of a model, or by raising (a cancellation included). -/
abbrev ToolOutcome := Except Exn Instance

namespace Tools

open Company

/-- `get` -/
def get (defs : ToolDefs) (name : String) : Option ToolDef := defs.find? (fun t => t.name = name)

def cache (cid : String) (result : ToolResult) : Act Company Exn Unit :=
  Act.write (fun co => { co with
    tools_completed := Function.update co.tools_completed cid (some result) })

def denied_post (cid tool_name : String) (cls : ToolErrorClass) (actor : String) : Post :=
  { kind := .TOOL_DENIED
    payload := [("tool", .str tool_name), ("request_id", .str cid), ("reason", .str cls.code)]
    actor := some actor, correlation := some cid }

def failed_post (cid tool_name : String) (cls : ToolErrorClass) (message actor : String) : Post :=
  { kind := .TOOL_RESULT
    payload := [("tool", .str tool_name), ("request_id", .str cid), ("ok", .bool false),
      ("error", .str (cls.code ++ ": " ++ message))]
    actor := some actor, correlation := some cid }

def called_post (cid tool_name : String) (args : Fields) (actor : String) : Post :=
  { kind := .TOOL_CALLED
    payload := [("tool", .str tool_name), ("arguments", .obj args), ("request_id", .str cid)]
    actor := some actor, correlation := some cid }

def result_post (cid tool_name : String) (output : Instance) (actor : String) : Post :=
  { kind := .TOOL_RESULT
    payload := [("tool", .str tool_name), ("request_id", .str cid), ("ok", .bool true),
      ("result", .obj output.dump)]
    actor := some actor, correlation := some cid }

def failure (cls : ToolErrorClass) (message : String) : ToolResult :=
  { ok := false, error_code := some cls.code, error_message := some message }

/-- `_fail`: one event, and the failure is cached. -/
def fail (post : Post) (cid : String) (cls : ToolErrorClass) (message : String) :
    Act Company Exn ToolResult := do
  append post
  cache cid (failure cls message)
  pure (failure cls message)

/-- `_fail` with a `TOOL_DENIED` event. -/
def deny (cid tool_name : String) (cls : ToolErrorClass) (message actor : String) :
    Act Company Exn ToolResult :=
  fail (denied_post cid tool_name cls actor) cid cls message

/-- `_fail` with a `TOOL_RESULT` event. -/
def fail_result (cid tool_name : String) (cls : ToolErrorClass) (message actor : String) :
    Act Company Exn ToolResult :=
  fail (failed_post cid tool_name cls message actor) cid cls message

/-- The answer to a call whose approval is pending. -/
def pending_result (cid : String) : ToolResult :=
  { failure .PendingApproval ("pending:" ++ cid) with extra := [("approval_request_id", .str cid)] }

/-- `_emit_only` for a pending approval: an event but no cache entry, so that a retry is possible. -/
def emit_pending (cid tool_name actor : String) : Act Company Exn ToolResult := do
  append (denied_post cid tool_name .PendingApproval actor)
  pure (pending_result cid)

/-! ## The gates before the reservation -/

/-- What the gates decide: a refusal, an exception that passes through, or the tool with the parsed
    arguments and the cost estimate. -/
inductive Admission where
  | refused (tool_name : String) (cls : ToolErrorClass) (message : String)
  | raised (e : Exn)
  | admitted (tool : ToolDef) (parsed : Fields) (estimate : Money)

/-- The estimate of a call. -/
def estimate_cost (tool : ToolDef) (parsed : Fields) : Except Exn Money :=
  match tool.cost_estimator with
  | some estimator => estimator parsed
  | none => .ok ⟨0⟩

/-- The tool's own permission check. -/
def check_permission (tool : ToolDef) (co : Company) (ctx : ToolContext) (parsed : Fields) :
    Except Exn Unit :=
  match tool.permission_check with
  | some check => check co ctx parsed
  | none => .ok ()

/-- Lookup, agent and role gate, argument validation, permission check and estimate, in this order. -/
def run_gates (defs : ToolDefs) (co : Company) (i : Invocation) : Admission :=
  match get defs i.tool_name with
  | none => .refused i.tool_name .UnknownTool i.tool_name
  | some tool =>
    match co.agents i.agent_id with
    | none => .raised (.keyError i.agent_id)
    | some agent =>
      if !agent.active then
        .refused tool.name .ToolPermissionDenied ("agent_not_active:" ++ i.agent_id)
      else if !tool.is_role_allowed agent.role then
        .refused tool.name .RoleNotAllowed (agent.role.value ++ ":" ++ tool.name)
      else
        match tool.schema i.args with
        | .error message => .refused tool.name .ArgsValidationError message
        | .ok parsed =>
          let ctx : ToolContext :=
            { agent_id := i.agent_id, role := agent.role, correlation_id := i.cid }
          match check_permission tool co ctx parsed with
          | .error (.tool cls message) => .refused tool.name cls message
          | .error e => .raised e
          | .ok () =>
            match estimate_cost tool parsed with
            | .error e => .raised e
            | .ok estimate => .admitted tool parsed estimate

/-! ## The call -/

/-- The approval that a gated call asks for. -/
def approval_request (tool : ToolDef) (kind : ApprovalKind) (i : Invocation) : ApprovalRequest :=
  { kind, requester_id := i.agent_id
    payload := [("tool", .str tool.name), ("args", .obj i.args)]
    route := { target := .BOARD, valid := ApprovalRoute.board_valid }
    request_id := some i.cid }

/-- `_handle_approval`: the status of the approval under the call's id; a tool that needs none counts as
    approved. -/
def handle_approval (tool : ToolDef) (i : Invocation) : Act Company Exn ApprovalStatus :=
  match tool.requires_approval.kind with
  | none => pure .APPROVED
  | some kind => do
      let approval ← on_approvals (Approvals.request (approval_request tool kind i) i.uuid i.now)
      pure approval.status

/-- How the part before the executor ends: with a result, or at the await point. -/
inductive Started where
  | done (result : ToolResult)
  | awaiting (call : ToolCall)

/-- From the reservation to the executor. -/
def announce (tool : ToolDef) (i : Invocation) (estimate : Money) (reservation_id : Nat) :
    Act Company Exn Started := do
  let status ← handle_approval tool i
  match status with
  | .APPROVED => do
      append (called_post i.cid tool.name i.args i.agent_id)
      pure (.awaiting { cid := i.cid, agent_id := i.agent_id, tool, args := i.args, estimate,
                        reservation_id })
  | .PENDING => do
      on_budget (Budget.release reservation_id)
      let result ← emit_pending i.cid tool.name i.agent_id
      pure (.done result)
  | _ => do
      on_budget (Budget.release reservation_id)
      let result ← deny i.cid tool.name .ApprovalDenied ("denied:" ++ i.cid) i.agent_id
      pure (.done result)

/-- `invoke` up to its await point. -/
def invoke_start (defs : ToolDefs) (i : Invocation) : Act Company Exn Started := do
  let co ← Act.read id
  match co.tools_completed i.cid with
  | some cached => pure (.done cached)
  | none =>
    match run_gates defs co i with
    | .refused tool_name cls message => do
        let result ← deny i.cid tool_name cls message i.agent_id
        pure (.done result)
    | .raised e => Act.raise e
    | .admitted tool _ estimate => do
        let reserved ← Act.attempt (on_budget (Budget.reserve estimate i.cid))
        match reserved with
        | .error (.overBudget message) => do
            let result ← deny i.cid tool.name .OverBudget message i.agent_id
            pure (.done result)
        | .error e => Act.raise e
        | .ok reservation => announce tool i estimate reservation.id

/-- `invoke` after its await point. -/
def invoke_finish (call : ToolCall) (outcome : ToolOutcome) : Act Company Exn ToolResult :=
  match outcome with
  | .error (.tool cls message) => do
      on_budget (Budget.release call.reservation_id)
      fail_result call.cid call.tool.name cls message call.agent_id
  | .error e =>
    if e.isException then do
      on_budget (Budget.release call.reservation_id)
      fail_result call.cid call.tool.name .ExecutorFailure e.str call.agent_id
    else Act.raise e
  | .ok output =>
    if !call.tool.conforms output then do
      on_budget (Budget.release call.reservation_id)
      fail_result call.cid call.tool.name .ExecutorFailure
        ("executor returned " ++ output.cls ++ ", expected " ++ call.tool.output_schema)
        call.agent_id
    else do
      let charge ← on_budget (Budget.commit call.reservation_id call.estimate)
      if !charge.ok then
        fail_result call.cid call.tool.name .OverBudget ("commit_failed:" ++ call.cid) call.agent_id
      else do
        let result : ToolResult := { ok := true, output := some output, cost_usd := call.estimate }
        append (result_post call.cid call.tool.name output call.agent_id)
        cache call.cid result
        pure result

/-- A tool that answers its arguments, at a fixed price. -/
def echo_tool (requires_approval : ApprovalRequirement) : ToolDef :=
  { name := "echo", schema := .ok, output_schema := "EchoOutput", conforms := fun _ => true
    roles_allowed := none, requires_approval, cost_estimator := some (fun _ => .ok ⟨10⟩) }

/-- A call of it. -/
def echo_call : Invocation :=
  { agent_id := "eng-1", tool_name := "echo", args := [], correlation_id := some "t1", uuid := "u1"
    now := 0 }

/-- The whole call; `exec` is everything that happens while the executor runs. -/
def invoke (defs : ToolDefs) (exec : ToolCall → Company → ToolOutcome × Company) (i : Invocation) :
    Act Company Exn ToolResult := do
  let started ← invoke_start defs i
  match started with
  | .done result => pure result
  | .awaiting call => do
      let outcome ← (fun co => (.ok (exec call co).1, (exec call co).2) : Act Company Exn ToolOutcome)
      invoke_finish call outcome

end Tools

end CompanyFactory
