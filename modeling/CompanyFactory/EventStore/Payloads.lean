import CompanyFactory.EventStore.Json

/-!
# `EventStore.Payloads` — event kinds and their payload models

`kinds.py` and `payloads.py`: the catalogue of event kinds, and for every kind the pydantic model its
payload must satisfy. Extra fields are forbidden, a missing field takes its default, and the stored
payload lists every field of the model. `AGENT_REASSIGNED` is a kind without a model.
-/

namespace CompanyFactory

inductive EventKind where
  | MESSAGE_SENT | MESSAGE_DELIVERED
  | TOOL_CALLED | TOOL_RESULT | TOOL_DENIED
  | AGENT_CREATED | AGENT_FIRED | AGENT_HIRED | AGENT_FIRE_NOTIFY | AGENT_ORPHANED
  | AGENT_HEARTBEAT | AGENT_HEALTH_ALERT | AGENT_TURN_TRUNCATED | AGENT_TURN_COMPLETED
  | AGENT_FEEDBACK_GIVEN | AGENT_PROMOTED | AGENT_REASSIGNED
  | EXPENSE_CHARGED | BUDGET_WARNING | BUDGET_BLOCKED
  | APPROVAL_REQUESTED | APPROVAL_DECIDED | APPROVAL_TIMEOUT
  | SECURITY_FLAG | SECURITY_VETO
  | EXTERNAL_CALL
  | QUOTA_WARNING | QUOTA_EXCEEDED | QUOTA_DRIFT
  | CLOCK_PAUSED | CLOCK_RESUMED | DAY_TICK
  | COMPANY_CREATED | COMPANY_CLOSED
  | LINK_REQUESTED | LINK_APPROVED
  | EFFICIENCY_FINDING_OPENED | EFFICIENCY_FINDING_CLOSED
  deriving Repr, DecidableEq

/-- The string value of the kind. -/
def EventKind.value : EventKind → String
  | .MESSAGE_SENT => "message.sent"
  | .MESSAGE_DELIVERED => "message.delivered"
  | .TOOL_CALLED => "tool.called"
  | .TOOL_RESULT => "tool.result"
  | .TOOL_DENIED => "tool.denied"
  | .AGENT_CREATED => "agent.created"
  | .AGENT_FIRED => "agent.fired"
  | .AGENT_HIRED => "agent.hired"
  | .AGENT_FIRE_NOTIFY => "agent.fire_notify"
  | .AGENT_ORPHANED => "agent.orphaned"
  | .AGENT_HEARTBEAT => "agent.heartbeat"
  | .AGENT_HEALTH_ALERT => "agent.health_alert"
  | .AGENT_TURN_TRUNCATED => "agent.turn_truncated"
  | .AGENT_TURN_COMPLETED => "agent.turn_completed"
  | .AGENT_FEEDBACK_GIVEN => "agent.feedback_given"
  | .AGENT_PROMOTED => "agent.promoted"
  | .AGENT_REASSIGNED => "agent.reassigned"
  | .EXPENSE_CHARGED => "expense.charged"
  | .BUDGET_WARNING => "budget.warning"
  | .BUDGET_BLOCKED => "budget.blocked"
  | .APPROVAL_REQUESTED => "approval.requested"
  | .APPROVAL_DECIDED => "approval.decided"
  | .APPROVAL_TIMEOUT => "approval.timeout"
  | .SECURITY_FLAG => "security.flag"
  | .SECURITY_VETO => "security.veto"
  | .EXTERNAL_CALL => "connector.external_call"
  | .QUOTA_WARNING => "quota.warning"
  | .QUOTA_EXCEEDED => "quota.exceeded"
  | .QUOTA_DRIFT => "quota.drift"
  | .CLOCK_PAUSED => "clock.paused"
  | .CLOCK_RESUMED => "clock.resumed"
  | .DAY_TICK => "clock.day_tick"
  | .COMPANY_CREATED => "company.created"
  | .COMPANY_CLOSED => "company.closed"
  | .LINK_REQUESTED => "link.requested"
  | .LINK_APPROVED => "link.approved"
  | .EFFICIENCY_FINDING_OPENED => "efficiency.finding.opened"
  | .EFFICIENCY_FINDING_CLOSED => "efficiency.finding.closed"

/-- The field types that occur in the payload models. -/
inductive FieldType where
  | str | int | float | bool | dict | optStr | optInt | optDict
  deriving Repr, DecidableEq

/-- Does the value have the type? An `int` is accepted where a `float` is asked for. The lax
    conversions of pydantic (a digit string for an `int`) are left out: no caller relies on one. -/
def FieldType.admits : FieldType → Json → Bool
  | .str, .str _ => true
  | .int, .num q => q.den == 1
  | .float, .num _ => true
  | .bool, .bool _ => true
  | .dict, .obj _ => true
  | .optStr, .null | .optStr, .str _ => true
  | .optInt, .null => true
  | .optInt, .num q => q.den == 1
  | .optDict, .null | .optDict, .obj _ => true
  | _, _ => false

/-- One field of a payload model; `none` as default means that the field is required. -/
structure FieldSpec where
  name : String
  type : FieldType
  default : Option Json := none

private def req (name : String) (type : FieldType) : FieldSpec := { name, type }

private def opt (name : String) (type : FieldType) : FieldSpec :=
  { name, type, default := some .null }

open EventKind FieldType in
/-- `PAYLOAD_MODELS`: the payload model of a kind, if it has one. -/
def model_for : EventKind → Option (List FieldSpec)
  | MESSAGE_SENT => some
      [req "from_agent" str, req "to_agent" str, req "content" str, opt "thread_id" optStr]
  | MESSAGE_DELIVERED => some [req "message_id" str, req "to_agent" str, opt "thread_id" optStr]
  | TOOL_CALLED => some
      [req "tool" str, { name := "arguments", type := dict, default := some (.obj []) },
        req "request_id" str]
  | TOOL_RESULT => some
      [req "tool" str, req "request_id" str, req "ok" bool, opt "result" optDict,
        opt "error" optStr]
  | TOOL_DENIED => some [req "tool" str, req "request_id" str, req "reason" str]
  | AGENT_CREATED => some
      [req "agent_id" str, req "role" str, opt "manager_id" optStr, opt "first_name" optStr,
        opt "last_name" optStr, opt "role_title" optStr]
  | AGENT_FIRED => some [req "agent_id" str, req "by_agent_id" str, opt "reason" optStr]
  | AGENT_HIRED => some
      [req "agent_id" str, req "role" str, req "by_agent_id" str, opt "manager_id" optStr,
        opt "first_name" optStr, opt "last_name" optStr, opt "role_title" optStr]
  | AGENT_FIRE_NOTIFY => some
      [req "to_agent" str, req "fired_agent" str, req "actor" str, opt "reason" optStr]
  | AGENT_ORPHANED => some [req "agent_id" str, req "former_manager_id" str]
  | AGENT_HEARTBEAT => some [req "agent_id" str, req "state" str]
  | AGENT_HEALTH_ALERT => some
      [req "agent_id" str, req "issue" str,
        { name := "severity", type := str, default := some (.str "warn") }, opt "detail" optStr]
  | AGENT_TURN_TRUNCATED => some
      [req "agent_id" str, req "reason" str,
        { name := "tool_invocations", type := int, default := some (.int 0) }]
  | AGENT_TURN_COMPLETED => some
      [req "agent_id" str, req "task_done" bool, req "duration_seconds" float,
        { name := "tool_invocations", type := int, default := some (.int 0) }]
  | AGENT_FEEDBACK_GIVEN => some
      [req "feedback_id" str, req "target_agent_id" str, req "from_agent_id" str,
        req "rating" int]
  | AGENT_PROMOTED => some
      [req "agent_id" str, req "by_agent_id" str, opt "old_role_title" optStr,
        req "new_role_title" str, opt "old_role_description" optStr,
        req "new_role_description" str, opt "approval_id" optStr]
  | AGENT_REASSIGNED => none
  | EXPENSE_CHARGED => some
      [req "amount_cents" int, req "category" str, opt "note" optStr, req "request_id" str]
  | BUDGET_WARNING => some
      [req "scope" str, req "used_cents" int, req "limit_cents" int, req "ratio" float]
  | BUDGET_BLOCKED => some
      [req "scope" str, req "used_cents" int, req "limit_cents" int, req "attempted_cents" int]
  | APPROVAL_REQUESTED => some
      [req "approval_id" str, req "requested_by" str, req "subject" str,
        { name := "details", type := dict, default := some (.obj []) }]
  | APPROVAL_DECIDED => some
      [req "approval_id" str, req "decided_by" str, req "decision" str, opt "note" optStr]
  | APPROVAL_TIMEOUT => some [req "approval_id" str]
  | SECURITY_FLAG => some
      [req "severity" str, req "target" str, req "rule" str, opt "note" optStr]
  | SECURITY_VETO => some [req "target" str, req "rule" str, opt "note" optStr]
  | EXTERNAL_CALL => some
      [req "service" str, req "endpoint" str, req "request_id" str, req "status" str,
        opt "duration_ms" optInt]
  | QUOTA_WARNING => some
      [req "agent_id" str, req "used" int, req "limit" int, req "ratio" float]
  | QUOTA_EXCEEDED => some
      [req "scope" str, opt "agent_id" optStr, req "limit" int, req "would_use" int]
  | QUOTA_DRIFT => some [req "agent_id" str, req "drift_bytes" int]
  | CLOCK_PAUSED => some [opt "by" optStr]
  | CLOCK_RESUMED => some [opt "by" optStr]
  | DAY_TICK => some [req "day" int]
  | COMPANY_CREATED => some [req "company_id" str, req "name" str]
  | COMPANY_CLOSED => some [req "company_id" str, opt "reason" optStr]
  | LINK_REQUESTED => some
      [req "link_id" str, req "from_company" str, req "to_company" str, req "purpose" str]
  | LINK_APPROVED => some [req "link_id" str]
  | EFFICIENCY_FINDING_OPENED => some
      [req "finding_id" str, req "detector_code" str, req "severity" str,
        req "subject_type" str, opt "subject_id" optStr,
        { name := "evidence", type := dict, default := some (.obj []) },
        opt "recommendation" optStr]
  | EFFICIENCY_FINDING_CLOSED => some
      [req "finding_id" str, req "detector_code" str, req "reason" str]

/-- `model_dump` of one field: the value given, or the default. -/
def FieldSpec.dump (spec : FieldSpec) (payload : Fields) : Option (String × Json) :=
  match payload.lookup spec.name with
  | some v => if spec.type.admits v then some (spec.name, v) else none
  | none => spec.default.map (fun v => (spec.name, v))

/-- `model_validate` followed by `model_dump`: no extra field, every field present or defaulted. -/
def validateFields (specs : List FieldSpec) (payload : Fields) : Option Fields :=
  if payload.all (fun kv => specs.any (fun spec => spec.name == kv.1)) then
    specs.mapM (fun spec => spec.dump payload)
  else none

/-- Every default is a value of its field. -/
theorem default_admitted {kind : EventKind} {specs : List FieldSpec}
    (h : model_for kind = some specs) :
    ∀ spec ∈ specs, ∀ v, spec.default = some v → spec.type.admits v = true := by
  have hall : ∀ k, (model_for k).all (fun specs =>
      specs.all (fun spec => spec.default.all spec.type.admits)) = true := by
    intro k
    cases k <;> rfl
  have hk := hall kind
  rw [h] at hk
  simpa [List.all_eq_true, Option.all_eq_true] using hk

end CompanyFactory
