import CompanyFactory.Connector.Service
import CompanyFactory.Cost.Amount
import CompanyFactory.Tools.Spec

/-!
# `Tools.External` — the built-in tools that act outside of the company

`external_call` goes through the connector and needs an EXTERNAL_ACTION approval; `pay_invoice` and
`register_subscription` need an EXPENSE approval. Their argument models are strict pydantic models: a field
list with constraints, whose `ValidationError` text is left open (`describe`).

`Connector.call` takes its arguments by keyword only, and `_exec_external_call` passes three by position. So
the call is refused when its arguments are bound, before the connector is entered:

* `bind_keywords` — how a method with keyword-only parameters binds its arguments;
* `exec_external_call_raises` — the executor always ends with a `TypeError` and changes nothing;
* `external_call_disagrees` — no approved call runs the action.
-/

namespace CompanyFactory

open Act Company

namespace Tools

/-! ## The argument models -/

section Models

variable (describe : Fields → String)

/-- A string field of parsed arguments. -/
def text (parsed : Fields) (name : String) : String :=
  match parsed.lookup name with
  | some (.str s) => s
  | _ => ""

/-- `Field(min_length=…)` of a string -/
def min_length (n : Nat) (name : String) (parsed : Fields) : Bool :=
  decide (n ≤ (text parsed name).length)

/-- `Field(max_length=…)` of a string -/
def max_length (n : Nat) (name : String) (parsed : Fields) : Bool :=
  decide ((text parsed name).length ≤ n)

/-- `model_validate` and `model_dump`: the fields, and then their constraints. -/
def validate_args (specs : List FieldSpec) (check : Fields → Bool) (args : Fields) :
    Except String Fields :=
  match validateFields specs args with
  | some parsed => if check parsed then .ok parsed else .error (describe args)
  | none => .error (describe args)

def ExternalCallArgs : Fields → Except String Fields :=
  validate_args describe
    [{ name := "service", type := .str }, { name := "endpoint", type := .str },
      { name := "payload", type := .dict, default := some (.obj []) },
      { name := "estimated_cost_usd", type := .str, default := some (.str "0.00") }]
    (fun parsed => min_length 1 "service" parsed && min_length 1 "endpoint" parsed)

/-- `str(exc)` of what `Money.of` raises. -/
def amount_error_text : AmountError → String
  | .syntax_error => "[<class 'decimal.ConversionSyntax'>]"
  | .invalid_operation => "[<class 'decimal.InvalidOperation'>]"
  | .negative units => "Money cannot be negative: -" ++ Connector.usd_text ⟨units⟩

/-- The estimators: the amount in a text field, or an `ArgsValidationError`. -/
def estimate_field (name : String) (parsed : Fields) : Except Exn Money :=
  match Money.of (text parsed name) with
  | .ok amount => .ok amount
  | .error e =>
    .error (.tool .ArgsValidationError ("bad " ++ name ++ ": " ++ amount_error_text e))

def estimate_external : Fields → Except Exn Money := estimate_field "estimated_cost_usd"

def external_call : ToolDef :=
  { name := "external_call", schema := ExternalCallArgs describe
    output_schema := "ExternalCallOut", conforms := fun output => decide (output.cls = "ExternalCallOut")
    roles_allowed := none, requires_approval := .EXTERNAL, cost_estimator := some estimate_external }

end Models

/-! ## How `Connector.call` is called -/

/-- The parameters after `self` of a method that takes keywords only. -/
structure Signature where
  qualname : String
  /-- the names, and whether there is no default -/
  keyword_only : List (String × Bool)

/-- `def call(self, *, agent_id, service, action, args, correlation_id=None)` -/
def connector_call_signature : Signature :=
  { qualname := "Connector.call"
    keyword_only := [("agent_id", true), ("service", true), ("action", true), ("args", true),
      ("correlation_id", false)] }

/-- A list of names as an error message writes it. -/
def name_list : List String → String
  | [] => ""
  | [a] => "'" ++ a ++ "'"
  | [a, b] => "'" ++ a ++ "' and '" ++ b ++ "'"
  | [a, b, c] => "'" ++ a ++ "', '" ++ b ++ "', and '" ++ c ++ "'"
  | a :: rest => "'" ++ a ++ "', " ++ name_list rest

def plural (n : Nat) : String := if n = 1 then "" else "s"

/-- The names without a default that are not given. -/
def Signature.missing (sig : Signature) (keywords : Fields) : List String :=
  (sig.keyword_only.filter (fun param => param.2 && (keywords.lookup param.1).isNone)).map Prod.fst

/-- Binding the arguments of a call; the error is the text of the `TypeError`. -/
def bind_keywords (sig : Signature) (positional : List Json) (keywords : Fields) :
    Except String Fields :=
  match keywords.find? (fun kv => !sig.keyword_only.any (fun param => param.1 == kv.1)) with
  | some kv => .error (sig.qualname ++ "() got an unexpected keyword argument '" ++ kv.1 ++ "'")
  | none =>
    if positional ≠ [] then
      let given := toString (positional.length + 1)
      if keywords = [] then
        .error (sig.qualname ++ "() takes 1 positional argument but " ++ given ++ " were given")
      else
        .error (sig.qualname ++ "() takes 1 positional argument but " ++ given ++
          " positional arguments (and " ++ toString keywords.length ++ " keyword-only argument" ++
          plural keywords.length ++ ") were given")
    else if sig.missing keywords = [] then .ok keywords
    else .error (sig.qualname ++ "() missing " ++ toString (sig.missing keywords).length ++
      " required keyword-only argument" ++ plural (sig.missing keywords).length ++ ": " ++
      name_list (sig.missing keywords))

/-- What `uuid4` and the clocks answer during a call of the connector. -/
structure Clocks where
  uuid : String
  now : Time
  monotonic : Rat

/-- The request that bound arguments stand for, if they have the types of the annotations. -/
def request_of (clocks : Clocks) (bound : Fields) : Option ConnectorRequest :=
  match bound.lookup "agent_id", bound.lookup "service", bound.lookup "action",
    bound.lookup "args" with
  | some (.str agent_id), some (.str service), some (.str action), some (.obj args) =>
    some { agent_id, service, action, args
           correlation_id := match bound.lookup "correlation_id" with
             | some (.str cid) => some cid
             | _ => none
           uuid := clocks.uuid, now := clocks.now, monotonic := clocks.monotonic }
  | _, _, _, _ => none

/-- How the executors of the connector's actions end, and what happens meanwhile. -/
abbrev Actions := ConnectorCall → Company → Except Exn Json × Company

/-- The request that a call of the method passes to the connector. -/
def passed_request (clocks : Clocks) (positional : List Json) (keywords : Fields) :
    Except Exn ConnectorRequest :=
  match bind_keywords connector_call_signature positional keywords with
  | .error message => .error (.other "TypeError" message)
  | .ok bound =>
    match request_of clocks bound with
    | some r => .ok r
    -- the annotations are not checked at run time; arguments of other types do not occur
    | none => .error (.other "TypeError" "")

/-- `connector.call(…)` -/
def connector_call (actions : Actions) (clocks : Clocks) (positional : List Json) (keywords : Fields) :
    Act Company Exn ConnectorResult :=
  match passed_request clocks positional keywords with
  | .error e => Act.raise e
  | .ok r => Connector.call actions r

/-! ## The executors -/

/-- A `ConnectorResult` inside a JSON value: the fields of the dataclass. -/
def result_json (result : ConnectorResult) : Json :=
  .obj [("ok", .bool result.ok),
    ("output", match result.output with
      | some output => .obj output.dump
      | none => .null),
    ("error_code", .ofOption result.error_code), ("error_message", .ofOption result.error_message),
    ("cost_usd", .str (Connector.usd_text result.cost_usd)),
    ("approval_request_id", .ofOption result.approval_request_id)]

/-- The payload argument of an external call. -/
def payload_of (parsed : Fields) : Fields :=
  match parsed.lookup "payload" with
  | some (.obj payload) => payload
  | _ => []

/-- The positional arguments that `_exec_external_call` passes. -/
def external_positional (parsed : Fields) : List Json :=
  [.str (text parsed "service"), .str (text parsed "endpoint"), .obj (payload_of parsed)]

/-- `_exec_external_call`; a `ConnectorResult` is neither a model nor a dictionary, so it becomes the value
    of one field. -/
def exec_external_call (connector : Option Actions) (clocks : Clocks) (agent_id correlation_id : String)
    (parsed : Fields) : Act Company Exn Instance :=
  match connector with
  | none => Act.raise (.tool .ExecutorFailure "no_connector_configured")
  | some actions => do
      let response ← connector_call actions clocks (external_positional parsed) []
      append (Connector.external_post (text parsed "service") (text parsed "endpoint") "ok" agent_id
        correlation_id)
      pure { cls := "ExternalCallOut"
             dump := [("response", .obj [("value", result_json response)])] }

def exec_pay_invoice (parsed : Fields) : Instance :=
  { cls := "PayInvoiceOut"
    dump := [("vendor", .str (text parsed "vendor")), ("paid_usd", .str (text parsed "amount_usd"))] }

def exec_register_subscription (parsed : Fields) : Instance :=
  { cls := "RegisterSubOut"
    dump := [("description", .str (text parsed "description")),
      ("amount_usd", .str (text parsed "amount_usd")),
      ("period_days", (parsed.lookup "period_days").getD .null)] }

/-- The parsed arguments of a call whose executor is running. -/
def parsed_args (call : ToolCall) : Fields := (call.tool.schema call.args).toOption.getD []

/-- The executor of `external_call`, as `invoke` runs it. -/
def run_external_call (connector : Option Actions) (clocks : Clocks) (call : ToolCall) (co : Company) :
    ToolOutcome × Company :=
  exec_external_call connector clocks call.agent_id call.cid (parsed_args call) co

/-! ## Does the tool agree with the connector? -/

/-- The request of the executor to the connector. -/
def external_request (clocks : Clocks) (call : ToolCall) : Except Exn ConnectorRequest :=
  passed_request clocks (external_positional (parsed_args call)) []

/-- The connector answers the executor's request, and its result is ok. -/
def ConnectorOk (actions : Actions) (clocks : Clocks) (call : ToolCall) (co : Company) : Prop :=
  ∃ r result, external_request clocks call = .ok r ∧ (Connector.call actions r co).1 = .ok result ∧
    result.ok = true

/-- **The tool agrees with the connector** on a call whose executor starts in `co`. -/
structure Agrees (actions : Actions) (clocks : Clocks) (call : ToolCall) (co : Company) : Prop where
  /-- the executor of the action runs, with exactly the arguments of the tool call, for its agent -/
  runs : ∃ r waiting co', external_request clocks call = .ok r ∧ r.agent_id = call.agent_id ∧
    r.service = text (parsed_args call) "service" ∧ r.action = text (parsed_args call) "endpoint" ∧
    r.args = payload_of (parsed_args call) ∧ Connector.call_start r co = (.ok (.awaiting waiting), co')
  ok_iff : (∃ result, (invoke_finish call (run_external_call (some actions) clocks call co).1
      (run_external_call (some actions) clocks call co).2).1 = .ok result ∧ result.ok = true) ↔
    ConnectorOk actions clocks call co
  logged : (∃ e ∈ (run_external_call (some actions) clocks call co).2.events.log.drop
      co.events.log.length, e.kind = .EXTERNAL_CALL ∧ e.payload.lookup "status" = some (.str "ok")) →
    ConnectorOk actions clocks call co

/-- The text of the `TypeError`. -/
def positional_error : String := "Connector.call() takes 1 positional argument but 4 were given"

/-- A method that takes keywords only refuses every positional argument. -/
theorem bind_positional (sig : Signature) (a : Json) (rest : List Json) :
    bind_keywords sig (a :: rest) [] = .error (sig.qualname ++ "() takes 1 positional argument but " ++
      toString (rest.length + 2) ++ " were given") := by
  simp [bind_keywords]

theorem external_request_refused (clocks : Clocks) (call : ToolCall) :
    external_request clocks call = .error (.other "TypeError" positional_error) := by
  have htext : connector_call_signature.qualname ++ "() takes 1 positional argument but " ++
      toString (2 + 2) ++ " were given" = positional_error := by decide +kernel
  rw [external_request, passed_request, external_positional, bind_positional]
  exact congrArg (fun message => (.error (.other "TypeError" message) : Except Exn _)) htext

/-- **The executor raises**, for every call and whatever the connector would do, and changes nothing. -/
theorem exec_external_call_raises (actions : Actions) (clocks : Clocks) (call : ToolCall) (co : Company) :
    run_external_call (some actions) clocks call co =
      (.error (.other "TypeError" positional_error), co) := by
  have hrequest : passed_request clocks (external_positional (parsed_args call)) [] = _ :=
    external_request_refused clocks call
  have hcall : connector_call actions clocks (external_positional (parsed_args call)) [] co =
      (.error (.other "TypeError" positional_error), co) := by
    rw [connector_call, hrequest]
    rfl
  exact bind_of_error hcall

/-- The tool that the gates admit is the one that is registered under the name. -/
theorem tool_of_admitted {defs : ToolDefs} {co : Company} {i : Invocation} {tool : ToolDef}
    {parsed : Fields} {estimate : Money} (h : run_gates defs co i = .admitted tool parsed estimate) :
    get defs i.tool_name = some tool ∧ tool.schema i.args = .ok parsed ∧
      estimate_cost tool parsed = .ok estimate := by
  unfold run_gates at h
  cases hget : get defs i.tool_name with
  | none =>
      rw [hget] at h
      cases h
  | some tool' =>
      rw [hget] at h
      dsimp only at h
      repeat' split at h
      all_goals cases h
      exact ⟨rfl, ‹_›, ‹_›⟩

/-- **No approved call agrees with the connector**: the executor of the action never runs. -/
theorem external_call_disagrees (describe : Fields → String) (defs : ToolDefs) (i : Invocation)
    (co s : Company) (call : ToolCall) (actions : Actions) (clocks : Clocks)
    (htool : get defs i.tool_name = some (external_call describe))
    (hstart : invoke_start defs i co = (.ok (.awaiting call), s)) :
    call.tool.name = "external_call" ∧ ¬ Agrees actions clocks call s ∧
      run_external_call (some actions) clocks call s =
        (.error (.other "TypeError" positional_error), s) := by
  obtain ⟨tool, estimate, ⟨-, ⟨parsed, hadm⟩, -⟩, -, hcall, -⟩ := awaiting_inv hstart
  have hget := (tool_of_admitted hadm).1
  rw [htool] at hget
  refine ⟨?_, ?_, exec_external_call_raises actions clocks call s⟩
  · rw [hcall, waiting, ← Option.some.inj hget]
    rfl
  · intro hagrees
    obtain ⟨r, -, -, hrequest, -⟩ := hagrees.runs
    rw [external_request_refused] at hrequest
    cases hrequest

/-! ### An approved call of a registered and allow-listed action -/

/-- An action that takes anything and answers at once, free of charge. -/
def ping_service : ServiceDef :=
  { name := "http", risk := .LOW
    actions := fun action =>
      if action = "ping" then
        some { args_schema := .ok, output_schema := "Pong", conforms := fun _ => true
               cost_estimator := fun _ => .ok ⟨0⟩, sanitizer := fun _ => .ok ⟨"Pong", []⟩
               auto_approve_threshold := some ⟨0⟩ }
      else none }

def ping_call : Invocation :=
  { agent_id := "eng-1", tool_name := "external_call"
    args := [("service", .str "http"), ("endpoint", .str "ping")]
    correlation_id := some "t1", uuid := "u1", now := 0 }

/-- The same as a call of the connector. -/
def ping_request : ConnectorRequest :=
  { agent_id := "eng-1", service := "http", action := "ping", args := [], correlation_id := some "c1"
    uuid := "u2", now := 0, monotonic := 0 }

/-- A company in which the tool call is approved, and the service registered and allow-listed. -/
def gateway_company : Company :=
  { opened .quiet ⟨100⟩ "eng-1" with
    services := [ping_service]
    allowlist := ⟨["http"]⟩
    approvals := [{ Approvals.new_row {} (approval_request (external_call fun _ => "") .EXTERNAL_ACTION
      ping_call) "t1" 0 with status := .APPROVED }] }

def answers_at_once : Actions := fun _ co => (.ok .null, co)

def some_clocks : Clocks := { uuid := "u2", now := 0, monotonic := 0 }

/-- Does the first part of a call reach the executor? -/
def reaches : Except Exn Started → Bool
  | .ok (.awaiting _) => true
  | _ => false

theorem ping_awaits : ∃ call s, invoke_start [external_call fun _ => ""] ping_call gateway_company =
    (.ok (.awaiting call), s) := by
  have h : reaches (invoke_start [external_call fun _ => ""] ping_call gateway_company).1 = true := by
    decide +kernel
  rcases hrun : invoke_start [external_call fun _ => ""] ping_call gateway_company with
    ⟨e | result | call, s⟩
  · rw [hrun] at h
    cases h
  · rw [hrun] at h
    cases h
  · exact ⟨call, s, rfl⟩

theorem external_call_disagrees_ping :
    ∃ call s, invoke_start [external_call fun _ => ""] ping_call gateway_company =
        (.ok (.awaiting call), s) ∧
      call.tool.name = "external_call" ∧ ¬ Agrees answers_at_once some_clocks call s ∧
      run_external_call (some answers_at_once) some_clocks call s =
        (.error (.other "TypeError" positional_error), s) := by
  obtain ⟨call, s, h⟩ := ping_awaits
  exact ⟨call, s, h, external_call_disagrees (fun _ => "") _ ping_call gateway_company s call
    answers_at_once some_clocks rfl h⟩

/-- **The connector would answer**, and the tool fails: the call is refused for how it passes its
    arguments. -/
theorem external_call_fails_where_connector_answers :
    ((Connector.call answers_at_once ping_request gateway_company).1.toOption.map
        ConnectorResult.ok = some true) ∧
      ((invoke [external_call fun _ => ""] (run_external_call (some answers_at_once) some_clocks)
        ping_call gateway_company).1.toOption.map (fun result => (result.ok, result.error_message)) =
          some (false, some positional_error)) := by
  constructor <;> decide +kernel

end Tools

end CompanyFactory
