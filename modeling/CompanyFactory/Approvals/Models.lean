import CompanyFactory.EventStore.Store

/-!
# `Approvals.Models` — kinds, routes and approvals

`ApprovalRoute` carries the check of its `__post_init__` as a field, so an invalid route cannot be built.
The table stores a route as one text column; `decode_encode_target` says that reading it back gives the
route that was written, which is why a row of the model holds the route itself.
-/

namespace CompanyFactory

inductive ApprovalKind where
  | HIRE | FIRE_DEPTH_1 | EXPENSE | EXTERNAL_ACTION | INTER_COMPANY_LINK | SECURITY_FLAG
  | BUDGET_INCREASE | ROLE_CHANGE
  deriving DecidableEq, Repr

def ApprovalKind.value : ApprovalKind → String
  | .HIRE => "hire"
  | .FIRE_DEPTH_1 => "fire_depth_1"
  | .EXPENSE => "expense"
  | .EXTERNAL_ACTION => "external_action"
  | .INTER_COMPANY_LINK => "inter_company_link"
  | .SECURITY_FLAG => "security_flag"
  | .BUDGET_INCREASE => "budget_increase"
  | .ROLE_CHANGE => "role_change"

inductive ApprovalStatus where
  | PENDING | APPROVED | DENIED | TIMEOUT | CANCELLED
  deriving DecidableEq, Repr

def ApprovalStatus.value : ApprovalStatus → String
  | .PENDING => "pending"
  | .APPROVED => "approved"
  | .DENIED => "denied"
  | .TIMEOUT => "timeout"
  | .CANCELLED => "cancelled"

inductive Decision where
  | APPROVE | DENY
  deriving DecidableEq, Repr

/-- The status a decision leads to. -/
def Decision.status : Decision → ApprovalStatus
  | .APPROVE => .APPROVED
  | .DENY => .DENIED

/-- `_DECISION_EVENT_VALUE` -/
def Decision.event_value : Decision → String
  | .APPROVE => "approved"
  | .DENY => "rejected"

/-- Who can decide the main leg of an approval. -/
inductive RouteTarget where
  | BOARD | AGENT | SECURITY
  deriving DecidableEq, Repr

def RouteTarget.value : RouteTarget → String
  | .BOARD => "board"
  | .AGENT => "agent"
  | .SECURITY => "security"

/-- `RouteTarget(encoded)` -/
def RouteTarget.of_value (encoded : String) : Option RouteTarget :=
  [RouteTarget.BOARD, .AGENT, .SECURITY].find? (fun t => t.value = encoded)

/-- The `ValueError` that `ApprovalRoute.__post_init__` raises, if any. -/
def ApprovalRoute.post_init (target : RouteTarget) (agent_id : Option String)
    (require_security : Bool) : Option String :=
  if target = .AGENT ∧ agent_id.getD "" = "" then some "agent_id required when target is AGENT"
  else if target ≠ .AGENT ∧ agent_id ≠ none then some "agent_id only valid when target is AGENT"
  else if target = .SECURITY ∧ require_security = true then
    some "require_security must be False when target is SECURITY"
  else none

structure ApprovalRoute where
  target : RouteTarget
  agent_id : Option String := none
  require_security : Bool := false
  valid : ApprovalRoute.post_init target agent_id require_security = none
  deriving DecidableEq

namespace ApprovalRoute

theorem board_valid : post_init .BOARD none false = none := rfl

/-- The constructor call. -/
def build (target : RouteTarget) (agent_id : Option String) (require_security : Bool) :
    Except Exn ApprovalRoute :=
  match h : post_init target agent_id require_security with
  | some message => .error (.valueError message)
  | none => .ok { target, agent_id, require_security, valid := h }

theorem build_of_valid (route : ApprovalRoute) :
    build route.target route.agent_id route.require_security = .ok route := by
  unfold build
  split
  · rename_i message h
    rw [route.valid] at h
    cases h
  · rfl

theorem valid_iff {target : RouteTarget} {agent_id : Option String} {require_security : Bool} :
    post_init target agent_id require_security = none ↔
      (target = .AGENT ∧ ∃ id, agent_id = some id ∧ id ≠ "") ∨
      (target = .BOARD ∧ agent_id = none) ∨
      (target = .SECURITY ∧ agent_id = none ∧ require_security = false) := by
  unfold post_init
  cases target <;> cases agent_id <;> cases require_security <;> simp

/-- The same route with a security pre-veto if `required`; a route to Security never has one. -/
def requiring (route : ApprovalRoute) (required : Bool) (h : required = true → route.target ≠ .SECURITY) :
    ApprovalRoute :=
  { target := route.target, agent_id := route.agent_id, require_security := required,
    valid := by
      obtain ⟨ht, id, hid⟩ | ⟨ht, hid⟩ | ⟨ht, hid, -⟩ := valid_iff.mp route.valid
      · exact valid_iff.mpr (.inl ⟨ht, id, hid⟩)
      · exact valid_iff.mpr (.inr (.inl ⟨ht, hid⟩))
      · refine valid_iff.mpr (.inr (.inr ⟨ht, hid, ?_⟩))
        exact Bool.eq_false_iff.mpr fun hreq => h hreq ht }

def encode_target (route : ApprovalRoute) : String :=
  match route.target with
  | .AGENT => "agent:" ++ route.agent_id.getD ""
  | target => target.value

/-- `ApprovalRoute.decode`; the part after the first colon is the agent id. -/
def decode (encoded : String) (require_security : Bool) : Except Exn ApprovalRoute :=
  if "agent:".toList.isPrefixOf encoded.toList then
    build .AGENT (some (String.ofList (encoded.toList.drop 6))) require_security
  else
    match RouteTarget.of_value encoded with
    | some target => build target none require_security
    | none => .error (.valueError ("'" ++ encoded ++ "' is not a valid RouteTarget"))

/-- **Round trip.** The stored text of a route reads back as the route. -/
theorem decode_encode_target (route : ApprovalRoute) :
    decode route.encode_target route.require_security = .ok route := by
  have hbuild := build_of_valid route
  obtain ⟨ht, id, hid, -⟩ | ⟨ht, hid⟩ | ⟨ht, hid, -⟩ := valid_iff.mp route.valid
  · have htext : route.encode_target.toList = "agent:".toList ++ id.toList := by
      simp [encode_target, ht, hid]
    have hunder : "agent:".toList.isPrefixOf route.encode_target.toList = true := by
      rw [htext, List.isPrefixOf_iff_prefix]
      exact List.prefix_append _ _
    have hdrop : String.ofList (route.encode_target.toList.drop 6) = id := by
      rw [htext]
      simp
    rw [decode, if_pos hunder, hdrop, ← ht, ← hid]
    exact hbuild
  · have htext : route.encode_target = "board" := by simp [encode_target, ht, RouteTarget.value]
    rw [decode, htext, if_neg (by decide), ← hbuild, ht, hid]
    rfl
  · have htext : route.encode_target = "security" := by simp [encode_target, ht, RouteTarget.value]
    rw [decode, htext, if_neg (by decide), ← hbuild, ht, hid]
    rfl

end ApprovalRoute

/-- An approval, and a row of the `approvals` table. -/
structure Approval where
  request_id : String
  kind : ApprovalKind
  requester_id : String
  payload : Fields
  route : ApprovalRoute
  status : ApprovalStatus
  decided_by : Option String := none
  decided_at : Option Time := none
  note : Option String := none
  expires_at : Time
  created_at : Time
  security_decision : Option Decision := none
  security_decided_at : Option Time := none
  deriving DecidableEq

/-- `id or uuid4().hex`: an empty id counts as none. -/
def or_new_id (id : Option String) (uuid : String) : String :=
  match id with
  | some rid => if rid = "" then uuid else rid
  | none => uuid

/-- An id that was made in this way is taken as it is. -/
theorem or_new_id_or_new_id (id : Option String) (uuid : String) :
    or_new_id (some (or_new_id id uuid)) uuid = or_new_id id uuid := by
  by_cases h : or_new_id id uuid = ""
  · have huuid : uuid = "" := by
      unfold or_new_id at h
      split at h
      · split at h
        · exact h
        · exact absurd h ‹_›
      · exact h
    rw [h, or_new_id, if_pos rfl, huuid]
  · rw [or_new_id, if_neg h]

/-- The column `require_security`. -/
abbrev Approval.require_security (row : Approval) : Bool := row.route.require_security

end CompanyFactory
