import CompanyFactory.EventStore.Store

/-!
# `Identity.Models` — roles and the rows of the `agents` table

`Agent` is a row with all its columns. The constructor names of the enumerations are those of the source,
their string values are in `value`.
-/

namespace CompanyFactory

inductive Role where
  | CEO | HR | SECURITY | MEMBER
  deriving DecidableEq, Repr

def Role.value : Role → String
  | .CEO => "ceo"
  | .HR => "hr"
  | .SECURITY => "security"
  | .MEMBER => "member"

namespace Identity

/-- `role in SPECIAL_ROLES` -/
def special : Role → Bool
  | .CEO | .HR | .SECURITY => true
  | .MEMBER => false

inductive Status where
  | ACTIVE | FIRED
  deriving DecidableEq, Repr

structure Agent where
  id : String
  role : Role
  persona_ref : String
  reports_to : Option String
  status : Status
  hired_at : Time
  first_name : String := ""
  last_name : String := ""
  role_title : Option String := none
  role_description : Option String := none
  fired_at : Option Time := none
  fired_by : Option String := none
  fire_reason : Option String := none
  deriving DecidableEq

def Agent.active (a : Agent) : Bool := decide (a.status = .ACTIVE)

inductive FireResult where
  | DIRECT_FIRED | PENDING_APPROVAL | DENIED
  deriving DecidableEq, Repr

structure FireOutcome where
  result : FireResult
  reason : Option String := none
  request_id : Option String := none
  deriving DecidableEq

/-- The arguments of `add_agent`. -/
structure Hire where
  role : Role
  persona_ref : String
  reports_to : Option String
  requested_by : String
  via_hr : Bool
  bootstrap : Bool := false
  first_name : String := ""
  last_name : String := ""
  role_title : Option String := none
  role_description : Option String := none
  deriving DecidableEq

/-- The arguments of `reassign`. -/
structure Reassignment where
  actor_id : String
  target_id : String
  new_reports_to : String
  reason : String
  deriving DecidableEq

/-- The arguments of `fire`. -/
structure Firing where
  actor_id : String
  target_id : String
  reason : String
  via_hr : Bool
  deriving DecidableEq

end Identity

end CompanyFactory
