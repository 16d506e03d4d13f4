import CompanyFactory.Approvals.Service
import CompanyFactory.Connector.Models
import CompanyFactory.Identity.Models

/-!
# `Company.State` — the services of one company

One record for everything the tool layer and the connector read and write: the budget tables and the
approvals table, the event store they share, the organisation, and the in-memory state of `Tools` and of
`Connector`. `on_budget` and `on_approvals` run an operation of one service on its part of the record.
-/

namespace CompanyFactory

/-- What the tool layer reads of an agent: its role and whether it is active. -/
structure AgentRow where
  role : Role
  active : Bool
  deriving DecidableEq, Repr

structure ToolResult where
  ok : Bool
  output : Option Instance := none
  error_code : Option String := none
  error_message : Option String := none
  cost_usd : Money := ⟨0⟩
  extra : Fields := []
  deriving DecidableEq

structure Company where
  events : EventStore
  budget : BudgetDb
  approvals_config : ApprovalsConfig
  approvals : Approvals.Rows
  broadcasts : List Approval
  agents : String → Option AgentRow
  /-- `Tools._completed` -/
  tools_completed : String → Option ToolResult
  /-- `Connector._services`; `register_service` refuses a second service of one name -/
  services : List ServiceDef
  allowlist : Allowlist
  rate : RateLimiter
  /-- `Connector._completed` -/
  connector_completed : String → Option ConnectorResult

namespace Company

def budget_view (co : Company) : Budget := { db := co.budget, events := co.events }

def set_budget (b : Budget) (co : Company) : Company :=
  { co with budget := b.db, events := b.events }

def approvals_view (co : Company) : Approvals :=
  { config := co.approvals_config, rows := co.approvals, events := co.events,
    broadcasts := co.broadcasts }

def set_approvals (a : Approvals) (co : Company) : Company :=
  { co with
    approvals_config := a.config, approvals := a.rows, events := a.events
    broadcasts := a.broadcasts }

def on_budget {α : Type} (m : Act Budget Exn α) : Act Company Exn α :=
  Act.on budget_view set_budget m

def on_approvals {α : Type} (m : Act Approvals Exn α) : Act Company Exn α :=
  Act.on approvals_view set_approvals m

/-- A company after bootstrap: a total is set, one member is active, nothing has happened yet. -/
def opened (events : EventStore) (total : Money) (member : String) : Company :=
  { events
    budget := { BudgetDb.fresh with total_units := total.units }
    approvals_config := {}
    approvals := []
    broadcasts := []
    agents := fun agent_id => if agent_id = member then some ⟨.MEMBER, true⟩ else none
    tools_completed := fun _ => none
    services := []
    allowlist := ⟨[]⟩
    rate := ⟨fun _ => none, fun _ => none⟩
    connector_completed := fun _ => none }

/-- Append one event. -/
def append (post : Post) : Act Company Exn Unit :=
  Act.on events (fun events co => { co with events }) (do
    let _ ← EventStore.append post
    pure ())

end Company

end CompanyFactory
