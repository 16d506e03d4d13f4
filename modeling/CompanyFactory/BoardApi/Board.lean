import CompanyFactory.Identity.Models
import CompanyFactory.Lib.Effect
import CompanyFactory.Orchestrator.Send

/-!
# `BoardApi.Board` — the board database and the loaded companies

The board sees a company in two places: its row of the `companies` table, with the status, and its handle, if
the company is loaded. A handle has the roster of the company and its orchestrator; the orchestrator asks the
same roster who is active, so `orchestra` puts the roster's rows in its place before a call.

`write_links` is a transaction on `board_links`: the rows it leaves must have unique ids, and no two of them the
same pair of companies **and the same status** (`slot`). Otherwise it raises and nothing is written.
-/

namespace CompanyFactory

namespace BoardApi

open Orchestrator

inductive LinkStatus where
  | REQUESTED | APPROVED | DENIED | SUSPENDED | REVOKED
  deriving DecidableEq, Repr

def LinkStatus.value : LinkStatus → String
  | .REQUESTED => "requested"
  | .APPROVED => "approved"
  | .DENIED => "denied"
  | .SUSPENDED => "suspended"
  | .REVOKED => "revoked"

inductive LinkRelationship where
  | PEER | VENDOR | CUSTOMER
  deriving DecidableEq, Repr

def LinkRelationship.value : LinkRelationship → String
  | .PEER => "peer"
  | .VENDOR => "vendor"
  | .CUSTOMER => "customer"

structure LinkScope where
  allowed_messages : List String := []
  rate_limit_per_hour : Int := 100
  max_payload_bytes : Int := 65536
  deriving DecidableEq

/-- A row of `board_links`. -/
structure Link where
  id : String
  from_company : String
  to_company : String
  relationship : LinkRelationship
  scope : LinkScope
  status : LinkStatus
  requested_by : String
  requested_at : Time
  decided_by : Option String := none
  decided_at : Option Time := none
  note : Option String := none
  deriving DecidableEq

/-- The columns that are unique together. -/
def Link.slot (link : Link) : String × String × LinkStatus :=
  (link.from_company, link.to_company, link.status)

/-- Is the company at one of the ends? -/
def Link.touches (company_id : String) (link : Link) : Bool :=
  decide (link.from_company = company_id) || decide (link.to_company = company_id)

inductive CompanyStatus where
  | CREATING | ACTIVE | CLOSING | CLOSED | FAILED
  deriving DecidableEq, Repr

def CompanyStatus.value : CompanyStatus → String
  | .CREATING => "creating"
  | .ACTIVE => "active"
  | .CLOSING => "closing"
  | .CLOSED => "closed"
  | .FAILED => "failed"

/-- `status in (CLOSED, FAILED)` -/
def CompanyStatus.ended : CompanyStatus → Bool
  | .CLOSED | .FAILED => true
  | .CREATING | .ACTIVE | .CLOSING => false

/-- A loaded company. -/
structure CompanyHandle where
  identity : List Identity.Agent
  orchestrator : Orchestrator

/-- What the orchestrator reads of a row of the roster. -/
def org_row (a : Identity.Agent) : OrgRow :=
  { agent_id := a.id, active := a.active, manager := a.reports_to }

namespace CompanyHandle

def events (handle : CompanyHandle) : EventStore := handle.orchestrator.events

def set_events (handle : CompanyHandle) (events : EventStore) : CompanyHandle :=
  { handle with orchestrator := { handle.orchestrator with events } }

/-- The orchestrator, over the roster. -/
def orchestra (handle : CompanyHandle) : Orchestrator :=
  { handle.orchestrator with org := handle.identity.map org_row }

end CompanyHandle

end BoardApi

open BoardApi in
/-- The board database, and the companies that are loaded. -/
structure Board where
  links : List Link
  /-- the status column of the `companies` table -/
  companies : String → Option CompanyStatus
  handles : String → Option CompanyHandle

namespace Board

open BoardApi

def get_summary (b : Board) (company_id : String) : Except Exn CompanyStatus :=
  match b.companies company_id with
  | none => .error (.other "CompanyNotFound" company_id)
  | some status => .ok status

def get_handle (b : Board) (company_id : String) : Except Exn CompanyHandle :=
  match b.handles company_id with
  | none => .error (.other "CompanyNotFound" company_id)
  | some handle => .ok handle

def set_handle (company_id : String) (handle : Option CompanyHandle) (b : Board) : Board :=
  { b with handles := Function.update b.handles company_id handle }

def set_company (company_id : String) (status : Option CompanyStatus) (b : Board) : Board :=
  { b with companies := Function.update b.companies company_id status }

/-- Is there no such company, or has it ended? -/
def closed (b : Board) (company_id : String) : Bool :=
  match b.companies company_id with
  | none => true
  | some status => status.ended

/-- The constraints of `board_links`. -/
def Consistent (links : List Link) : Prop :=
  (links.map Link.id).Nodup ∧ (links.map Link.slot).Nodup

instance (links : List Link) : Decidable (Consistent links) :=
  inferInstanceAs (Decidable (_ ∧ _))

def integrity_error : Exn :=
  .other "IntegrityError"
    "UNIQUE constraint failed: board_links.from_company, board_links.to_company, board_links.status"

/-- A transaction that writes links. -/
def write_links (f : List Link → List Link) : Act Board Exn Unit := fun b =>
  if Consistent (f b.links) then (.ok (), { b with links := f b.links })
  else (.error integrity_error, b)

/-- `_emit_to_company`: a company that is not loaded, and an event that is refused, are passed over. -/
def emit_to_company (post : Post) (company_id : String) : Act Board Exn Unit := fun b =>
  match b.handles company_id with
  | none => (.ok (), b)
  | some handle =>
    let events := (EventStore.append post).after handle.events
    (.ok (), b.set_handle company_id (some (handle.set_events events)))

def emit_to_both (post : Post) (link : Link) : Act Board Exn Unit := do
  emit_to_company post link.from_company
  emit_to_company post link.to_company

/-! ## What an event leaves alone -/

/-- The links and the companies are the same. -/
def SameLinks (b b' : Board) : Prop := b'.links = b.links ∧ b'.companies = b.companies

theorem SameLinks.refl (b : Board) : SameLinks b b := ⟨rfl, rfl⟩

theorem SameLinks.trans (b b' b'' : Board) (h : SameLinks b b') (h' : SameLinks b' b'') :
    SameLinks b b'' := ⟨h'.1.trans h.1, h'.2.trans h.2⟩

theorem emit_to_company_same (post : Post) (company_id : String) :
    Act.Moves SameLinks (emit_to_company post company_id) := by
  intro b
  unfold emit_to_company
  split
  · exact .refl b
  · exact ⟨rfl, rfl⟩

theorem emit_to_both_same (post : Post) (link : Link) : Act.Moves SameLinks (emit_to_both post link) :=
  .bind SameLinks.trans (emit_to_company_same post _) fun _ => emit_to_company_same post _

/-- An emission returns. -/
theorem emit_to_company_ok (post : Post) (company_id : String) (b : Board) :
    (emit_to_company post company_id b).1 = .ok () := by
  unfold emit_to_company
  split <;> rfl

theorem emit_to_both_ok (post : Post) (link : Link) (b : Board) :
    (emit_to_both post link b).1 = .ok () := by
  rw [emit_to_both, Act.bind_run]
  have hfirst := emit_to_company_ok post link.from_company b
  rcases hrun : emit_to_company post link.from_company b with ⟨r, b'⟩
  rw [hrun] at hfirst
  cases hfirst
  exact emit_to_company_ok post link.to_company b'

end Board

end CompanyFactory
