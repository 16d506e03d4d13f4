import CompanyFactory.Company.State

/-!
# `Connector.Service` — the gateway to external services

As `Tools.invoke`, `call` is cut at its await point: `call_start` runs from the replay check to the
executor, `call_finish` from the outcome of `_execute_with_retry` to the result. Unlike the tool layer,
the connector asks for the approval before it reserves, so nothing is held while an approval is pending.
-/

namespace CompanyFactory

/-- The arguments of `call`; `uuid`, `now` and `monotonic` are what `uuid4` and the clocks answer. -/
structure ConnectorRequest where
  agent_id : String
  service : String
  action : String
  args : Fields
  correlation_id : Option String
  uuid : String
  now : Time
  monotonic : Rat

def ConnectorRequest.cid (r : ConnectorRequest) : String := or_new_id r.correlation_id r.uuid

/-- A call whose executor is running: the locals of `call` at its await point. -/
structure ConnectorCall where
  cid : String
  agent_id : String
  service : String
  action : String
  action_def : ActionDef
  /-- the risk of the service and the arguments: what the approval gate has looked at -/
  risk : RiskLevel
  args : Fields
  estimate : Money
  reservation_id : Nat

namespace Connector

open Company

def RETRYABLE_LIMIT : Nat := 3

/-- `_execute_with_retry` from its `k`-th attempt, with `left` attempts to go; `attempt k` is how the
    executor ends then. Only `ExternalServiceFailure` is tried again. -/
def retry (attempt : Nat → Except Exn Json) : Nat → Nat → Except Exn Json
  | 0, k => attempt k
  | left + 1, k =>
    match attempt k with
    | .error (.connector .ExternalServiceFailure _) => retry attempt left (k + 1)
    | outcome => outcome

def execute_with_retry (action_def : ActionDef) (attempt : Nat → Except Exn Json) :
    Except Exn Json :=
  retry attempt (if action_def.idempotent then RETRYABLE_LIMIT - 1 else 0) 1

def cache (cid : String) (result : ConnectorResult) : Act Company Exn Unit :=
  Act.write (fun co => { co with
    connector_completed := Function.update co.connector_completed cid (some result) })

/-- The event of `_emit_event`. -/
def external_post (service action status actor cid : String) : Post :=
  { kind := .EXTERNAL_CALL
    payload := [("service", .str service), ("endpoint", .str action), ("request_id", .str cid),
      ("status", .str status)]
    actor := some actor, correlation := some cid }

/-- The result of a failure; `ApprovalDeniedError` is the one exception here with a `request_id`. -/
def failure (cid : String) (cls : ConnectorErrorClass) (message : String) : ConnectorResult :=
  { ok := false, error_code := some cls.code, error_message := some message
    approval_request_id := if cls = .ApprovalDeniedError then some cid else none }

/-- `_fail`: an event, and a cache entry unless the call was rate limited. -/
def fail (cid service action : String) (cls : ConnectorErrorClass) (message actor : String) :
    Act Company Exn ConnectorResult := do
  append (external_post service action "error" actor cid)
  if cls ≠ .RateLimited then cache cid (failure cid cls message)
  pure (failure cid cls message)

/-! ## The gates before the approval -/

inductive Admission where
  | refused (cls : ConnectorErrorClass) (message : String)
  | raised (e : Exn)
  | admitted (service_def : ServiceDef) (action_def : ActionDef) (estimate : Money)

/-- `get_service` -/
def get_service (co : Company) (name : String) : Option ServiceDef :=
  co.services.find? (fun service => service.name = name)

/-- Configure the rate limits of a service; `action_names` are the keys of its actions. -/
def configure_limits (service : ServiceDef) (now : Rat) (limiter : RateLimiter)
    (action_names : List String) : RateLimiter :=
  action_names.foldl (fun limiter action_name =>
    match (service.actions action_name).bind ActionDef.rate_limit with
    | some limit => limiter.configure (service.name ++ ":" ++ action_name) limit now
    | none => limiter) limiter

/-- `register_service` -/
def register_service (service : ServiceDef) (action_names : List String) (now : Rat) :
    Act Company Exn Unit := do
  let co ← Act.read id
  match get_service co service.name with
  | some _ => Act.raise (.valueError ("service already registered: " ++ service.name))
  | none => Act.write (fun co => { co with
      services := co.services ++ [service]
      rate := configure_limits service now co.rate action_names })

/-- Override the auto-approve threshold of one action. -/
def override_threshold (action_name : String) (threshold : Option Money) (service : ServiceDef) :
    ServiceDef :=
  let action := (service.actions action_name).map
    (fun old => { old with auto_approve_threshold := threshold })
  { service with actions := Function.update service.actions action_name action }

/-- `set_action_threshold` -/
def set_action_threshold (service_name action_name : String) (threshold : Option Money) :
    Act Company Exn Unit := do
  let co ← Act.read id
  match get_service co service_name with
  | none => Act.raise (.connector .UnknownService service_name)
  | some service =>
    match service.actions action_name with
    | none => Act.raise (.connector .UnknownAction (service_name ++ ":" ++ action_name))
    | some _ => Act.write (fun co => { co with
        services := co.services.map (fun s =>
          if s.name = service_name then override_threshold action_name threshold s else s) })

/-- Registry lookup, allowlist, argument validation and estimate, in this order. -/
def run_gates (co : Company) (r : ConnectorRequest) : Admission :=
  match get_service co r.service with
  | none => .refused .UnknownService r.service
  | some service_def =>
    match service_def.actions r.action with
    | none => .refused .UnknownAction (r.service ++ "." ++ r.action)
    | some action_def =>
      if !co.allowlist.is_allowed r.service r.action then
        .refused .ServiceNotAllowed (r.service ++ "." ++ r.action)
      else
        match action_def.args_schema r.args with
        | .error message => .refused .ConnectorError ("args:" ++ message)
        | .ok parsed =>
          match action_def.cost_estimator parsed with
          | .error e => .raised e
          | .ok estimate => .admitted service_def action_def estimate

/-- `str(Money.amount_usd)`: four decimals. -/
def usd_text (amount : Money) : String :=
  let frac := amount.units % 10000
  let pad := if frac < 10 then "000" else if frac < 100 then "00" else if frac < 1000 then "0" else ""
  toString (amount.units / 10000) ++ "." ++ pad ++ toString frac

/-- May the call run without an approval? -/
def auto_approved (service_def : ServiceDef) (action_def : ActionDef) (estimate : Money) : Bool :=
  decide (service_def.risk = .LOW) &&
    (action_def.auto_approve_threshold.any (fun threshold => decide (estimate.units ≤ threshold.units)))

/-- The approval that a call asks for; a critical service forces the security pre-veto. -/
def approval_request (service_def : ServiceDef) (estimate : Money) (r : ConnectorRequest) :
    ApprovalRequest :=
  { kind := .EXTERNAL_ACTION, requester_id := r.agent_id
    payload := [("service", .str service_def.name), ("action", .str r.action),
      ("args", .obj r.args), ("estimated_cost_usd", .str (usd_text estimate)),
      ("risk", .str service_def.risk.value)]
    route :=
      { target := .BOARD, require_security := decide (service_def.risk = .CRITICAL)
        valid := by simp [ApprovalRoute.post_init] }
    request_id := some r.cid }

/-- `_evaluate_approval` -/
def evaluate_approval (service_def : ServiceDef) (action_def : ActionDef) (estimate : Money)
    (r : ConnectorRequest) : Act Company Exn ApprovalStatus :=
  if auto_approved service_def action_def estimate then pure .APPROVED
  else do
    let approval ← on_approvals
      (Approvals.request (approval_request service_def estimate r) r.uuid r.now)
    pure approval.status

/-! ## The call -/

inductive Started where
  | done (result : ConnectorResult)
  | awaiting (call : ConnectorCall)

/-- From the approved request to the executor. -/
def reserve_call (service_def : ServiceDef) (action_def : ActionDef) (estimate : Money)
    (r : ConnectorRequest) : Act Company Exn Started := do
  let reserved ← Act.attempt (on_budget (Budget.reserve estimate r.cid))
  match reserved with
  | .error (.overBudget message) => do
      let result ← fail r.cid r.service r.action .ConnectorError ("over_budget:" ++ message)
        r.agent_id
      pure (.done result)
  | .error e => Act.raise e
  | .ok reservation =>
      pure (.awaiting
        { cid := r.cid, agent_id := r.agent_id, service := r.service, action := r.action, action_def,
          risk := service_def.risk, args := r.args, estimate, reservation_id := reservation.id })

/-- From the rate limiter to the executor. -/
def route_call (service_def : ServiceDef) (action_def : ActionDef) (estimate : Money)
    (r : ConnectorRequest) : Act Company Exn Started := do
  let co ← Act.read id
  let acquired := co.rate.acquire (r.service ++ ":" ++ r.action) r.monotonic
  Act.write (fun co => { co with rate := acquired.2 })
  match acquired.1 with
  | .error message => do
      let result ← fail r.cid r.service r.action .RateLimited message r.agent_id
      pure (.done result)
  | .ok () => do
      let status ← evaluate_approval service_def action_def estimate r
      match status with
      | .APPROVED => reserve_call service_def action_def estimate r
      | .PENDING => do
          append (external_post r.service r.action "issued" r.agent_id r.cid)
          pure (.done { ok := false, error_code := some "pending_approval",
                        error_message := some ("pending:" ++ r.cid),
                        approval_request_id := some r.cid })
      | _ => do
          let result ← fail r.cid r.service r.action .ApprovalDeniedError ("denied:" ++ r.cid)
            r.agent_id
          pure (.done result)

/-- `call` up to its await point. -/
def call_start (r : ConnectorRequest) : Act Company Exn Started := do
  let co ← Act.read id
  match co.connector_completed r.cid with
  | some cached => pure (.done cached)
  | none =>
    match run_gates co r with
    | .refused cls message => do
        let result ← fail r.cid r.service r.action cls message r.agent_id
        pure (.done result)
    | .raised e => Act.raise e
    | .admitted service_def action_def estimate => route_call service_def action_def estimate r

/-- Release the reservation and fail. -/
def release_fail (call : ConnectorCall) (cls : ConnectorErrorClass) (message : String) :
    Act Company Exn ConnectorResult := do
  on_budget (Budget.release call.reservation_id)
  fail call.cid call.service call.action cls message call.agent_id

/-- From the executor's output to the result: sanitize, check the class, commit. -/
def complete_call (call : ConnectorCall) (output : Json) : Act Company Exn ConnectorResult :=
  match call.action_def.sanitizer output with
  | .error e =>
    if e.isException then release_fail call .ConnectorError ("malformed:" ++ e.str) else Act.raise e
  | .ok sanitized =>
    if !call.action_def.conforms sanitized then
      release_fail call .ConnectorError
        ("sanitizer returned " ++ sanitized.cls ++ ", expected " ++ call.action_def.output_schema)
    else do
      let charge ← on_budget (Budget.commit call.reservation_id call.estimate)
      if !charge.ok then
        fail call.cid call.service call.action .ConnectorError "commit_failed" call.agent_id
      else do
        let result : ConnectorResult :=
          { ok := true, output := some sanitized, cost_usd := call.estimate }
        append (external_post call.service call.action "ok" call.agent_id call.cid)
        cache call.cid result
        pure result

/-- `call` after its await point, with the outcome of `_execute_with_retry`. -/
def call_finish (call : ConnectorCall) (outcome : Except Exn Json) :
    Act Company Exn ConnectorResult :=
  match outcome with
  | .error (.connector .ExternalServiceFailure message) =>
      release_fail call .ExternalServiceFailure message
  | .error e =>
    if e.isException then release_fail call .ExternalServiceFailure e.str else Act.raise e
  | .ok output => complete_call call output

/-- The whole call; `exec` is everything that happens while the executor runs. -/
def call (exec : ConnectorCall → Company → Except Exn Json × Company) (r : ConnectorRequest) :
    Act Company Exn ConnectorResult := do
  let started ← call_start r
  match started with
  | .done result => pure result
  | .awaiting call => do
      let outcome ← (fun co => (.ok (exec call co).1, (exec call co).2) : Act Company Exn _)
      call_finish call outcome

end Connector

end CompanyFactory
