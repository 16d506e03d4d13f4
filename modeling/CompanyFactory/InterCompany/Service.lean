import CompanyFactory.BoardApi.Links
import CompanyFactory.InterCompany.Models
import CompanyFactory.Lib.Run

/-!
# `InterCompany.Service` — sending from company to company

`InterCompanyService` over the board: the outbox, the rate limiter and the two ways to a target company.
`send_cross` hands a new message over and then writes its row; `deliver_pending` hands the queued rows over again.
Neither gives the control away between its first read and its last write: `system_send` does not wait for anything.

`handed` is no data of the source. It lists what was handed to an orchestrator, with the link and the company as
they were at that moment, and whether the queue of the company took the message.
-/

namespace CompanyFactory

open Act

namespace InterCompany

open BoardApi

/-- A message that was handed to the orchestrator of a company. -/
structure Handover where
  id : String
  from_company : String
  to_company : String
  kind : CrossMessageKind
  body : String
  /-- the row of the link -/
  link : Option Link
  /-- the status of the target company -/
  company : Option CompanyStatus
  /-- did the queue take the message? -/
  accepted : Bool
  deriving DecidableEq

end InterCompany

open InterCompany BoardApi in
structure InterCompany where
  board : Board
  outbox : List CrossEntry
  /-- `_buckets`: the timestamps of each link -/
  buckets : String → List Rat
  handed : List Handover

namespace InterCompany

open BoardApi Orchestrator

def _HOUR_SECONDS : Rat := 3600

def inter_company_error (cls message : String) : Exn := .other cls message

/-! ## Link checks -/

def lookup_link (b : Board) (link_id : String) : Except Exn Link :=
  match Board.find_link b.links link_id with
  | none => .error (inter_company_error "LinkNotFound" link_id)
  | some link => .ok link

def enforce_direction (link : Link) (from_company : String) : Except Exn Unit :=
  if link.from_company ≠ from_company then
    .error (inter_company_error "DirectionMismatch" ("link " ++ link.id ++ " is " ++ link.from_company ++
      "->" ++ link.to_company ++ ", caller is " ++ from_company))
  else .ok ()

def enforce_status (link : Link) : Except Exn Unit :=
  if link.status ≠ .APPROVED then
    .error (inter_company_error "LinkNotApproved" ("link " ++ link.id ++ " status=" ++ link.status.value))
  else .ok ()

/-- `sorted(set(allowed))`, as text. -/
def sorted_text (allowed : List String) : String :=
  "[" ++ ", ".intercalate ((allowed.dedup.insertionSort (· ≤ ·)).map fun s => "'" ++ s ++ "'") ++ "]"

def enforce_scope (link : Link) (message : CrossMessage) : Except Exn Unit :=
  if link.scope.allowed_messages ≠ [] ∧ message.kind.value ∉ link.scope.allowed_messages then
    .error (inter_company_error "ScopeViolation" ("kind " ++ message.kind.value ++ " not in " ++
      sorted_text link.scope.allowed_messages))
  else if link.scope.max_payload_bytes < message.body.utf8ByteSize then
    .error (inter_company_error "PayloadTooLarge" (toString message.body.utf8ByteSize ++ " > " ++
      toString link.scope.max_payload_bytes))
  else .ok ()

/-- `_enforce_rate`: old timestamps are dropped, also when the message is refused. -/
def enforce_rate (link : Link) (monotonic : Rat) : Act InterCompany Exn Unit := fun ic =>
  let cap := link.scope.rate_limit_per_hour.toNat
  if cap = 0 then (.ok (), ic)
  else
    let recent := (ic.buckets link.id).dropWhile (fun t => t < monotonic - _HOUR_SECONDS)
    if cap ≤ recent.length then
      (.error (inter_company_error "CrossRateLimited"
          ("link " ++ link.id ++ ": " ++ toString cap ++ " msg/hour exceeded")),
        { ic with buckets := Function.update ic.buckets link.id recent })
    else (.ok (), { ic with buckets := Function.update ic.buckets link.id (recent ++ [monotonic]) })

/-! ## The target -/

def get_target_handle (b : Board) (company_id : String) : Except Exn CompanyHandle :=
  match b.get_summary company_id with
  | .error _ => .error (inter_company_error "TargetUnavailable" company_id)
  | .ok status =>
    if status.ended then
      .error (inter_company_error "TargetUnavailable" (company_id ++ ":" ++ status.value))
    else
      match b.get_handle company_id with
      | .error _ => .error (inter_company_error "TargetUnavailable" company_id)
      | .ok handle => .ok handle

def _INBOX_ROLES : List Role := [.HR, .CEO]

def resolve_inbox_agent (b : Board) (company_id : String) : Option String :=
  match b.get_handle company_id with
  | .error _ => none
  | .ok handle =>
    let actives := Org.all_active handle.identity
    _INBOX_ROLES.findSome? fun role => (actives.find? fun a => a.role = role).map Identity.Agent.id

/-! ## Handing over -/

/-- What is handed over, and to whom. -/
structure Parcel where
  id : String
  link_id : String
  from_company : String
  to_company : String
  target_agent : String
  kind : CrossMessageKind
  subject : String
  body : String
  deriving DecidableEq

/-- The `system_send` of a parcel. -/
def Parcel.request (p : Parcel) (now : Time) : SendRequest :=
  { from_agent := none, to_agent := p.target_agent
    content := format_envelope p.link_id p.from_company p.kind p.subject p.body
    kind := .USER_REQUEST, correlation_id := some p.id, system := true, now, monotonic := 0 }

/-- The record of a parcel. -/
def Parcel.handover (p : Parcel) (b : Board) (accepted : Bool) : Handover :=
  { id := p.id, from_company := p.from_company, to_company := p.to_company, kind := p.kind, body := p.body
    link := Board.find_link b.links p.link_id, company := b.companies p.to_company, accepted }

/-- The handle after its orchestrator has run. -/
def with_orchestra (handle : CompanyHandle) (o : Orchestrator) : CompanyHandle :=
  { handle with orchestrator := o }

/-- `target_handle.orchestrator.system_send(…)` -/
def hand_over (p : Parcel) (handle : CompanyHandle) (now : Time) : Act InterCompany Exn SendResult := fun ic =>
  let sent := Orchestrator.system_send (p.request now) handle.orchestra
  (sent.1,
    { ic with
      board := ic.board.set_handle p.to_company (some (with_orchestra handle sent.2))
      handed := ic.handed ++
        [p.handover ic.board (decide (sent.2.sent.length ≠ handle.orchestrator.sent.length))] })

/-! ## The outbox -/

def outbox_error : Exn := .other "IntegrityError" "UNIQUE constraint failed: inter_company_outbox.id"

def find_entry (outbox : List CrossEntry) (id : String) : Option CrossEntry :=
  Table.find CrossEntry.id outbox id

def insert_entry (entry : CrossEntry) : Act InterCompany Exn Unit := fun ic =>
  if (find_entry ic.outbox entry.id).isSome then (.error outbox_error, ic)
  else (.ok (), { ic with outbox := ic.outbox ++ [entry] })

/-- What `_update_status` makes of a row. -/
def updated (status : CrossStatus) (reason : Option String) (target_agent : Option String) (now : Time)
    (entry : CrossEntry) : CrossEntry :=
  { entry with
    status, reason, delivered_at := if status = .DELIVERED then some now else none
    target_agent := target_agent.or entry.target_agent }

def update_status (outbox_id : String) (status : CrossStatus) (reason : Option String)
    (target_agent : Option String) (now : Time) : Act InterCompany Exn Unit :=
  Act.write fun ic =>
    { ic with
      outbox := Table.update CrossEntry.id outbox_id (updated status reason target_agent now) ic.outbox }

/-- The event that mirrors a row in the log of one of the companies. -/
def external_call (entry : CrossEntry) (direction : String) : Post :=
  { kind := .EXTERNAL_CALL
    payload := [("channel", .str "inter_company"), ("outbox_id", .str entry.id),
      ("link_id", .str entry.link_id), ("direction", .str direction), ("kind", .str entry.kind.value),
      ("status", .str entry.status.value), ("subject", .str entry.subject), ("reason", .ofOption entry.reason)]
    actor := some entry.from_agent }

def emit_event (post : Post) (company_id : String) : Act InterCompany Exn Unit :=
  Act.on InterCompany.board (fun board ic => { ic with board }) (Board.emit_to_company post company_id)

/-- `_record_and_emit` -/
def record_and_emit (entry : CrossEntry) : Act InterCompany Exn CrossResult := do
  insert_entry entry
  emit_event (external_call entry "outbound") entry.from_company
  emit_event (external_call entry "inbound") entry.to_company
  pure { id := entry.id, link_id := entry.link_id, status := entry.status
         target_agent := entry.target_agent, reason := entry.reason }

/-! ## Sending -/

/-- The arguments of `send_cross`, with the readings of the clocks and the id that `uuid4` would give. -/
structure CrossSend where
  link_id : String
  from_agent : String
  from_company : String
  message : CrossMessage
  request_id : Option String
  uuid : String
  now : Time
  monotonic : Rat
  deriving DecidableEq

def CrossSend.rid (args : CrossSend) : String := or_else args.request_id args.uuid

/-- The row of a call, before its outcome is known. -/
def CrossSend.entry (args : CrossSend) (link : Link) (target_agent : Option String) (status : CrossStatus)
    (reason : Option String) : CrossEntry :=
  { id := args.rid, link_id := args.link_id, from_company := link.from_company, to_company := link.to_company
    from_agent := args.from_agent, target_agent, kind := args.message.kind
    subject := sanitize args.message.subject _MAX_SUBJECT_BYTES
    body := sanitize args.message.body link.scope.max_payload_bytes
    metadata := args.message.metadata, status, reason, created_at := args.now
    delivered_at := if status = .DELIVERED then some args.now else none }

def CrossSend.parcel (args : CrossSend) (link : Link) (target_agent : String) : Parcel :=
  { id := args.rid, link_id := args.link_id, from_company := args.from_company, to_company := link.to_company
    target_agent, kind := args.message.kind, subject := sanitize args.message.subject _MAX_SUBJECT_BYTES
    body := sanitize args.message.body link.scope.max_payload_bytes }

/-- The reason of a result, if it is a rejection. -/
def rejection (result : SendResult) : Option String :=
  if map_result result = .REJECTED then some (result_value result) else none

/-- What the outcome of the hand-over leaves in the outbox. -/
def record_outcome (args : CrossSend) (link : Link) (target_agent : String) :
    Except Exn SendResult → Act InterCompany Exn CrossResult
  | .error e =>
    if e.isException then
      record_and_emit (args.entry link (some target_agent) .REJECTED (some "delivery_error"))
    else Act.raise e
  | .ok result =>
    record_and_emit (args.entry link (some target_agent) (map_result result) (rejection result))

/-- `send_cross`, once the checks are passed and the target is known. -/
def deliver (args : CrossSend) (link : Link) (handle : CompanyHandle) : Option String →
    Act InterCompany Exn CrossResult
  | none => record_and_emit (args.entry link none .REJECTED (some "no_inbox_agent"))
  | some target_agent => do
    let result ← Act.attempt (hand_over (args.parcel link target_agent) handle args.now)
    record_outcome args link target_agent result

/-- The checks of `send_cross` on the link. -/
def admitted (b : Board) (args : CrossSend) : Except Exn Link := do
  let link ← lookup_link b args.link_id
  enforce_direction link args.from_company
  enforce_status link
  enforce_scope link args.message
  pure link

def send_cross (args : CrossSend) : Act InterCompany Exn CrossResult := do
  let b ← Act.read InterCompany.board
  let link ← Act.ofExcept (admitted b args)
  enforce_rate link args.monotonic
  let handle ← Act.ofExcept (get_target_handle b link.to_company)
  deliver args link handle (resolve_inbox_agent b link.to_company)

/-! ## Delivering what was queued -/

/-- The queued rows of a company, in the order of their creation. -/
def pending (outbox : List CrossEntry) (company_id : String) : List CrossEntry :=
  (outbox.filter fun entry => entry.to_company = company_id && entry.status = .QUEUED).insertionSort
    fun a b => a.created_at ≤ b.created_at

/-- `row["target_agent"] or self._resolve_inbox_agent(…)` -/
def inbox_of (b : Board) (row : CrossEntry) (company_id : String) : Option String :=
  match row.target_agent with
  | some agent => if agent = "" then resolve_inbox_agent b company_id else some agent
  | none => resolve_inbox_agent b company_id

def CrossEntry.parcel (row : CrossEntry) (company_id target_agent : String) : Parcel :=
  { id := row.id, link_id := row.link_id, from_company := row.from_company, to_company := company_id
    target_agent, kind := row.kind, subject := row.subject, body := row.body }

/-- What the outcome of a redelivery makes of the row; is the row settled? -/
def settle (row : CrossEntry) (target_agent : String) (now : Time) :
    Except Exn SendResult → Act InterCompany Exn Bool
  | .error e => if e.isException then pure false else Act.raise e
  | .ok result =>
    if map_result result = .QUEUED then pure false
    else do
      update_status row.id (map_result result)
        (if map_result result = .DELIVERED then none else some (result_value result)) (some target_agent) now
      pure true

/-- One row of `deliver_pending`. -/
def redeliver (company_id : String) (now : Time) (handle : CompanyHandle) (row : CrossEntry) :
    Act InterCompany Exn Bool := do
  let b ← Act.read InterCompany.board
  let link ← Act.ofExcept (lookup_link b row.link_id)
  if link.status ≠ .APPROVED then do
    update_status row.id .REJECTED (some "link_not_approved") none now
    pure true
  else
    match inbox_of b row company_id with
    | none => do
      update_status row.id .REJECTED (some "no_inbox_agent") none now
      pure true
    | some target_agent => do
      let result ← Act.attempt (hand_over (row.parcel company_id target_agent) handle now)
      settle row target_agent now result

/-- The loop of `deliver_pending`. -/
def flush (company_id : String) (now : Time) : List CrossEntry → Act InterCompany Exn Nat
  | [] => pure 0
  | row :: rows => do
    let b ← Act.read InterCompany.board
    match get_target_handle b company_id with
    | .error _ => pure 0
    | .ok handle => do
      let settled ← redeliver company_id now handle row
      let flushed ← flush company_id now rows
      pure (settled.toNat + flushed)

def deliver_pending (company_id : String) (now : Time) : Act InterCompany Exn Nat := do
  let rows ← Act.read (fun ic => pending ic.outbox company_id)
  flush company_id now rows

/-! ## Steps -/

inductive Label where
  | send_cross (args : CrossSend)
  | deliver_pending (company_id : String) (now : Time)
  /-- link operations, and what happens to the companies -/
  | board (label : Board.Label)

def step (ic : InterCompany) : Label → InterCompany
  | .send_cross args => (send_cross args).after ic
  | .deliver_pending company_id now => (deliver_pending company_id now).after ic
  | .board label => { ic with board := Board.step ic.board label }

/-- Nothing was requested or sent yet. -/
def fresh (companies : String → Option CompanyStatus) (handles : String → Option CompanyHandle) :
    InterCompany :=
  { board := { links := [], companies, handles }, outbox := [], buckets := fun _ => [], handed := [] }

end InterCompany

end CompanyFactory
