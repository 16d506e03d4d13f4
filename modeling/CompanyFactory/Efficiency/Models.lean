import CompanyFactory.Approvals.Models

/-!
# `Efficiency.Models` — findings, thresholds and what a detector is given

`models.py`, `config.py` and `detectors/base.py`. A detector is any function from its context to the candidates that
fire now, and it may raise. Of the company it is given, the detectors read the table of the approvals only; the
organisation and the approvals service are handed to them and used by none.
-/

namespace CompanyFactory

namespace Efficiency

inductive Severity where
  | INFO | WARN | CRITICAL
  deriving DecidableEq, Repr

def Severity.value : Severity → String
  | .INFO => "info"
  | .WARN => "warn"
  | .CRITICAL => "critical"

inductive FindingStatus where
  | OPEN | ACKNOWLEDGED | CLOSED
  deriving DecidableEq, Repr

inductive SubjectType where
  | AGENT | MANAGER | COMPANY | TOOL | APPROVAL
  deriving DecidableEq, Repr

def SubjectType.value : SubjectType → String
  | .AGENT => "agent"
  | .MANAGER => "manager"
  | .COMPANY => "company"
  | .TOOL => "tool"
  | .APPROVAL => "approval"

/-- What a finding is about: the detector and its subject. -/
abbrev FindingKey := String × SubjectType × Option String

instance : LawfulBEq FindingKey := inferInstance

/-- A detector's output for a single subject. -/
structure FindingCandidate where
  detector_code : String
  severity : Severity
  subject_type : SubjectType
  subject_id : Option String
  evidence : Fields := []
  recommendation : Option String := none
  deriving DecidableEq

def FindingCandidate.key (cand : FindingCandidate) : FindingKey :=
  (cand.detector_code, cand.subject_type, cand.subject_id)

/-- A row of `efficiency_findings`. -/
structure Finding where
  id : String
  detector_code : String
  severity : Severity
  subject_type : SubjectType
  subject_id : Option String
  opened_at : Time
  last_seen_at : Time
  closed_at : Option Time := none
  occurrences : Nat := 1
  evidence : Fields
  recommendation : Option String
  status : FindingStatus := .OPEN
  deriving DecidableEq

def Finding.key (finding : Finding) : FindingKey :=
  (finding.detector_code, finding.subject_type, finding.subject_id)

/-- `status IN ('open', 'acknowledged')` -/
def Finding.is_open (finding : Finding) : Bool :=
  decide (finding.status = .OPEN) || decide (finding.status = .ACKNOWLEDGED)

/-! ## Thresholds -/

structure LoopToolRepeatConfig where
  window_seconds : Int := 5 * 60
  repeat_threshold : Int := 4

structure StallNoEventConfig where
  window_seconds : Int := 15 * 60
  min_prior_events : Int := 1

structure ApprovalsBacklogConfig where
  min_age_seconds : Int := 30 * 60
  min_count : Int := 1

structure CostNoOutputConfig where
  window_seconds : Int := 60 * 60
  min_spend_usd : Rat := 5

structure ToolErrorStormConfig where
  window_seconds : Int := 10 * 60
  min_calls : Int := 10
  error_rate : Rat := 3 / 10

structure OrgManagerBottleneckConfig where
  min_total_pending : Int := 5
  top1_share : Rat := 6 / 10

structure EfficiencyConfig where
  loop_tool_repeat : LoopToolRepeatConfig := {}
  stall_no_event : StallNoEventConfig := {}
  approvals_backlog : ApprovalsBacklogConfig := {}
  cost_no_output : CostNoOutputConfig := {}
  tool_error_storm : ToolErrorStormConfig := {}
  org_manager_bottleneck : OrgManagerBottleneckConfig := {}

/-- The largest window any detector cares about. -/
def EfficiencyConfig.max_window_seconds (config : EfficiencyConfig) : Int :=
  max (max config.loop_tool_repeat.window_seconds config.stall_no_event.window_seconds)
    (max config.cost_no_output.window_seconds config.tool_error_storm.window_seconds)

example : ({} : EfficiencyConfig).max_window_seconds = 3600 := by decide

/-! ## Detectors -/

/-- The snapshot that every detector is given. -/
structure DetectorContext where
  now : Time
  events : List Event
  config : EfficiencyConfig
  /-- the table `approvals` of the company's database, if there is one -/
  db : Option (List Approval) := none

abbrev Detector := DetectorContext → Except Exn (List FindingCandidate)

end Efficiency

end CompanyFactory
