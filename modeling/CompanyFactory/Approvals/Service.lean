import CompanyFactory.Approvals.Models
import CompanyFactory.Lib.Table

/-!
# `Approvals.Service` — the approval queue and its state machine

As in the budget, every method runs one transaction on the `approvals` table and announces the outcome
after it has committed: it appends the events and hands the approval to the subscribers. The `_tx`
functions are the transactions; `announce` is what follows, and it never touches the table
(`announce_rows`).

The clock reading of a call and the id that `uuid4` would give it are arguments of the call.
-/

namespace CompanyFactory

def SECOND : Time := 1000000
def HOUR : Time := 3600 * SECOND
def DAY : Time := 24 * HOUR

/-- `routing.DEFAULT_TIMEOUTS` -/
def DEFAULT_TIMEOUTS : ApprovalKind → Time
  | .HIRE => 7 * DAY
  | .FIRE_DEPTH_1 => 7 * DAY
  | .EXPENSE => 24 * HOUR
  | .EXTERNAL_ACTION => 24 * HOUR
  | .INTER_COMPANY_LINK => 30 * DAY
  | .SECURITY_FLAG => 5 * 60 * SECOND
  | .BUDGET_INCREASE => 7 * DAY
  | .ROLE_CHANGE => 7 * DAY

def AUTO_DENY_ON_TIMEOUT : List ApprovalKind := [.SECURITY_FLAG]

def DEFAULT_REQUIRE_SECURITY : List ApprovalKind := [.EXPENSE, .EXTERNAL_ACTION]

/-- The constructor arguments of the service. -/
structure ApprovalsConfig where
  timeouts : ApprovalKind → Time := DEFAULT_TIMEOUTS
  require_security_kinds : List ApprovalKind := DEFAULT_REQUIRE_SECURITY
  auto_deny_kinds : List ApprovalKind := AUTO_DENY_ON_TIMEOUT

/-- The arguments of `request`. -/
structure ApprovalRequest where
  kind : ApprovalKind
  requester_id : String
  payload : Fields
  route : ApprovalRoute
  request_id : Option String := none
  timeout_seconds : Option Int := none
  deriving DecidableEq

namespace Approvals

/-- The `approvals` table. -/
abbrev Rows := List Approval

/-- `SELECT * FROM approvals WHERE request_id = ?` -/
def find (rows : Rows) (request_id : String) : Option Approval :=
  Table.find Approval.request_id rows request_id

/-- `UPDATE approvals SET … WHERE request_id = ?` -/
def update (rows : Rows) (request_id : String) (f : Approval → Approval) : Rows :=
  Table.update Approval.request_id request_id f rows

/-- What is announced once the transaction has committed: events, then a broadcast. -/
structure Notice where
  posts : List Post
  approval : Approval

/-- The result of a transaction: an exception, or a value, the announcements and the table. -/
abbrev Tx (α : Type) := Except Exn (α × List Notice × Rows)

def rejected_post (request_id by_id note : String) : Post :=
  { kind := .APPROVAL_DECIDED
    payload := [("approval_id", .str request_id), ("decided_by", .str by_id),
      ("decision", .str "rejected"), ("note", .str ("cancelled:" ++ note))]
    actor := some by_id }

def decided_post (request_id decider_id : String) (decision : Decision) (note : Option String) :
    Post :=
  { kind := .APPROVAL_DECIDED
    payload := [("approval_id", .str request_id), ("decided_by", .str decider_id),
      ("decision", .str decision.event_value), ("note", .ofOption note)]
    actor := some decider_id }

def requested_post (approval : Approval) : Post :=
  { kind := .APPROVAL_REQUESTED
    payload := [("approval_id", .str approval.request_id),
      ("requested_by", .str approval.requester_id), ("subject", .str approval.kind.value),
      ("details", .obj approval.payload)]
    actor := some approval.requester_id }

/-! ## The transactions -/

/-- Is a security pre-veto needed? Asked for by the route, or by the kind unless Security decides. -/
def requires_security (config : ApprovalsConfig) (kind : ApprovalKind) (route : ApprovalRoute) :
    Bool :=
  route.require_security ||
    (config.require_security_kinds.contains kind && decide (route.target ≠ .SECURITY))

theorem requires_security_target {config : ApprovalsConfig} {kind : ApprovalKind}
    {route : ApprovalRoute} (h : requires_security config kind route = true) :
    route.target ≠ .SECURITY := by
  intro htarget
  have hroute : route.require_security = true := by simpa [requires_security, htarget] using h
  obtain ⟨ht, -⟩ | ⟨ht, -⟩ | ⟨-, -, hr⟩ := ApprovalRoute.valid_iff.mp route.valid
  · simp [htarget] at ht
  · simp [htarget] at ht
  · simp [hroute] at hr

/-- The row that `request` inserts under the id `rid`. -/
def new_row (config : ApprovalsConfig) (req : ApprovalRequest) (rid : String) (now : Time) :
    Approval :=
  { request_id := rid
    kind := req.kind
    requester_id := req.requester_id
    payload := req.payload
    route := req.route.requiring (requires_security config req.kind req.route)
      requires_security_target
    status := .PENDING
    expires_at := now +
      (match req.timeout_seconds with
        | some seconds => seconds * SECOND
        | none => config.timeouts req.kind)
    created_at := now }

def request_tx (config : ApprovalsConfig) (req : ApprovalRequest) (uuid : String) (now : Time)
    (rows : Rows) : Tx Approval :=
  let rid := or_new_id req.request_id uuid
  match find rows rid with
  | some existing => .ok (existing, [], rows)
  | none =>
    let approval := new_row config req rid now
    .ok (approval, [{ posts := [requested_post approval], approval }], rows ++ [approval])

/-- Is the security leg of the row still open? -/
def in_security_step (row : Approval) : Bool :=
  row.require_security && decide (row.security_decision = none)

/-- The row after a decision that arrives while it is pending. -/
def decided_row (row : Approval) (decider_id : String) (decision : Decision) (note : Option String)
    (now : Time) : Approval :=
  if in_security_step row then
    match decision with
    | .DENY =>
      { row with
        security_decision := some decision, security_decided_at := some now, status := .DENIED,
        decided_by := some decider_id, decided_at := some now, note }
    | .APPROVE => { row with security_decision := some decision, security_decided_at := some now }
  else
    { row with
      status := decision.status, decided_by := some decider_id, decided_at := some now, note }

def decide_tx (request_id decider_id : String) (decision : Decision) (note : Option String)
    (now : Time) (rows : Rows) : Tx Approval :=
  match find rows request_id with
  | none => .error (.approvalNotFound request_id)
  | some row =>
    if row.status ≠ .PENDING then
      if row.status = decision.status then .ok (row, [], rows)
      else .error (.approvalConflict ("already_" ++ row.status.value ++ ":" ++ request_id))
    else
      let approval := decided_row row decider_id decision note now
      let posts :=
        -- an approval by Security leaves the main leg pending: no decided event yet
        if in_security_step row && decide (decision = .APPROVE) then []
        else [decided_post request_id decider_id decision note]
      .ok (approval, [{ posts, approval }],
        update rows request_id (fun row => decided_row row decider_id decision note now))

def cancelled_row (row : Approval) (by_id reason : String) (now : Time) : Approval :=
  { row with
    status := .CANCELLED, decided_by := some by_id, decided_at := some now, note := some reason }

def cancel_tx (request_id by_id reason : String) (now : Time) (rows : Rows) : Tx Approval :=
  match find rows request_id with
  | none => .error (.approvalNotFound request_id)
  | some row =>
    if row.status ≠ .PENDING then
      .error (.invalidTransition ("cannot_cancel_" ++ row.status.value ++ ":" ++ request_id))
    else
      let approval := cancelled_row row by_id reason now
      .ok (approval, [{ posts := [rejected_post request_id by_id reason], approval }],
        update rows request_id (fun row => cancelled_row row by_id reason now))

/-- Has the pending row passed its `expires_at`? -/
def expired (now : Time) (row : Approval) : Bool :=
  decide (row.status = .PENDING) && decide (row.expires_at ≤ now)

def timed_out_row (config : ApprovalsConfig) (now : Time) (row : Approval) : Approval :=
  let auto_deny := config.auto_deny_kinds.contains row.kind
  { row with
    status := if auto_deny then .DENIED else .TIMEOUT
    decided_at := some now
    note := row.note.or (some (if auto_deny then "auto_deny_on_timeout" else "expired")) }

def timeout_post (approval : Approval) : Post :=
  { kind := .APPROVAL_TIMEOUT, payload := [("approval_id", .str approval.request_id)] }

def process_timeouts_tx (config : ApprovalsConfig) (now : Time) (rows : Rows) : Tx Nat :=
  let timed_out := (rows.filter (expired now)).map (timed_out_row config now)
  .ok (timed_out.length,
    timed_out.map (fun approval => { posts := [timeout_post approval], approval }),
    rows.map (fun row => if expired now row then timed_out_row config now row else row))

/-! ## What a transaction that commits has done -/

theorem request_tx_ok {config : ApprovalsConfig} {req : ApprovalRequest} {uuid : String} {now : Time}
    {rows rows' : Rows} {r : Approval} {notices : List Notice}
    (h : request_tx config req uuid now rows = .ok (r, notices, rows')) :
    (find rows (or_new_id req.request_id uuid) = some r ∧ rows' = rows) ∨
    (find rows (or_new_id req.request_id uuid) = none ∧ r = new_row config req (or_new_id req.request_id uuid) now ∧
      rows' = rows ++ [r]) := by
  unfold request_tx at h
  cases hrow : find rows (or_new_id req.request_id uuid) with
  | none =>
      simp only [hrow, Except.ok.injEq, Prod.mk.injEq] at h
      obtain ⟨rfl, -, rfl⟩ := h
      exact .inr ⟨rfl, rfl, rfl⟩
  | some existing =>
      simp only [hrow, Except.ok.injEq, Prod.mk.injEq] at h
      obtain ⟨rfl, -, rfl⟩ := h
      exact .inl ⟨rfl, rfl⟩

theorem decide_tx_ok {request_id decider_id : String} {decision : Decision} {note : Option String}
    {now : Time} {rows rows' : Rows} {r : Approval} {notices : List Notice}
    (h : decide_tx request_id decider_id decision note now rows = .ok (r, notices, rows')) :
    ∃ row, find rows request_id = some row ∧
      ((row.status ≠ .PENDING ∧ row.status = decision.status ∧ r = row ∧ rows' = rows) ∨
      (row.status = .PENDING ∧ r = decided_row row decider_id decision note now ∧
        rows' = update rows request_id (fun row => decided_row row decider_id decision note now))) := by
  unfold decide_tx at h
  cases hrow : find rows request_id with
  | none => simp [hrow] at h
  | some row =>
      refine ⟨row, rfl, ?_⟩
      simp only [hrow] at h
      split at h
      · rename_i hpending
        split at h
        · rename_i hsame
          cases h
          exact .inl ⟨hpending, hsame, rfl, rfl⟩
        · cases h
      · rename_i hpending
        cases h
        exact .inr ⟨not_not.mp hpending, rfl, rfl⟩

theorem cancel_tx_ok {request_id by_id reason : String} {now : Time} {rows rows' : Rows}
    {r : Approval} {notices : List Notice}
    (h : cancel_tx request_id by_id reason now rows = .ok (r, notices, rows')) :
    ∃ row, find rows request_id = some row ∧ row.status = .PENDING ∧
      r = cancelled_row row by_id reason now ∧
      rows' = update rows request_id (fun row => cancelled_row row by_id reason now) := by
  unfold cancel_tx at h
  cases hrow : find rows request_id with
  | none => simp [hrow] at h
  | some row =>
      simp only [hrow] at h
      split at h
      · cases h
      · rename_i hpending
        cases h
        exact ⟨row, rfl, not_not.mp hpending, rfl, rfl⟩

theorem find_append (rows : Rows) (row : Approval) (rid : String) :
    find (rows ++ [row]) rid =
      (find rows rid).or (if row.request_id = rid then some row else none) :=
  Table.find_insert rows row rid

/-- An update is seen through the lookup. -/
theorem find_update_row {f : Approval → Approval} (hf : ∀ row, (f row).request_id = row.request_id)
    (rows : Rows) (request_id rid : String) :
    find (update rows request_id f) rid =
      if request_id = rid then (find rows rid).map f else find rows rid :=
  Table.find_update_key hf rows request_id rid

/-- A decision on the main leg. -/
theorem decided_row_main {row : Approval} (h : in_security_step row = false) (decider_id : String)
    (decision : Decision) (note : Option String) (now : Time) :
    decided_row row decider_id decision note now =
      { row with
        status := decision.status, decided_by := some decider_id, decided_at := some now, note } := by
  simp [decided_row, h]

/-- An approval by Security only closes its leg. -/
theorem decided_row_cleared {row : Approval} (h : in_security_step row = true) (decider_id : String)
    (note : Option String) (now : Time) :
    decided_row row decider_id .APPROVE note now =
      { row with security_decision := some .APPROVE, security_decided_at := some now } := by
  simp [decided_row, h]

/-- A veto decides the approval. -/
theorem decided_row_vetoed {row : Approval} (h : in_security_step row = true) (decider_id : String)
    (note : Option String) (now : Time) :
    (decided_row row decider_id .DENY note now).status = .DENIED := by
  simp [decided_row, h]

theorem decided_row_id (row : Approval) (decider_id : String) (decision : Decision)
    (note : Option String) (now : Time) :
    (decided_row row decider_id decision note now).request_id = row.request_id := by
  unfold decided_row
  split
  · cases decision <;> rfl
  · rfl

end Approvals

/-! ## The service -/

/-- The approvals service of one company; `broadcasts` is what its subscribers have been handed. -/
structure Approvals where
  config : ApprovalsConfig
  rows : Approvals.Rows
  events : EventStore
  broadcasts : List Approval

namespace Approvals

def broadcast (approval : Approval) : Act Approvals Exn Unit :=
  Act.write (fun a => { a with broadcasts := a.broadcasts ++ [approval] })

/-- Append events to the company's event store. -/
def append_events (posts : List Post) : Act Approvals Exn Unit :=
  Act.on Approvals.events (fun events a => { a with events }) (EventStore.appendAll posts)

def announce : List Notice → Act Approvals Exn Unit
  | [] => pure ()
  | notice :: notices => do
      append_events notice.posts
      broadcast notice.approval
      announce notices

/-- Run a transaction, then announce. -/
def transact {α : Type} (tx : ApprovalsConfig → Rows → Tx α) : Act Approvals Exn α := fun a =>
  match tx a.config a.rows with
  | .error e => (.error e, a)
  | .ok (r, notices, rows) =>
    let announced := announce notices { a with rows }
    (announced.1.map (fun _ => r), announced.2)

def request (req : ApprovalRequest) (uuid : String) (now : Time) : Act Approvals Exn Approval :=
  transact (fun config => request_tx config req uuid now)

def decide (request_id decider_id : String) (decision : Decision) (note : Option String)
    (now : Time) : Act Approvals Exn Approval :=
  transact (fun _ => decide_tx request_id decider_id decision note now)

def cancel (request_id by_id reason : String) (now : Time) : Act Approvals Exn Approval :=
  transact (fun _ => cancel_tx request_id by_id reason now)

def process_timeouts (now : Time) : Act Approvals Exn Nat :=
  transact (fun config => process_timeouts_tx config now)

theorem announce_rows (notices : List Notice) (a : Approvals) :
    (announce notices a).2.rows = a.rows ∧ (announce notices a).2.config = a.config := by
  have hmoves : Act.Moves (fun a b : Approvals => b.rows = a.rows ∧ b.config = a.config)
      (announce notices) := by
    induction notices with
    | nil => exact fun a => ⟨rfl, rfl⟩
    | cons n ns ih =>
        have htrans : ∀ a b c : Approvals, (b.rows = a.rows ∧ b.config = a.config) →
            (c.rows = b.rows ∧ c.config = b.config) → c.rows = a.rows ∧ c.config = a.config :=
          fun a b c hab hbc => ⟨hbc.1.trans hab.1, hbc.2.trans hab.2⟩
        refine Act.Moves.bind htrans (fun a => ⟨rfl, rfl⟩) fun _ => ?_
        exact Act.Moves.bind htrans (fun a => ⟨rfl, rfl⟩) fun _ => ih
  exact hmoves a

theorem transact_error {α : Type} {tx : ApprovalsConfig → Rows → Tx α} {a : Approvals} {e : Exn}
    (h : tx a.config a.rows = .error e) : transact tx a = (.error e, a) := by rw [transact, h]

/-- The table after a call is the one its transaction committed, whatever is announced. -/
theorem transact_rows {α : Type} {tx : ApprovalsConfig → Rows → Tx α} {a : Approvals} {r : α}
    {notices : List Notice} {rows : Rows} (h : tx a.config a.rows = .ok (r, notices, rows)) :
    (transact tx a).2.rows = rows ∧ (transact tx a).2.config = a.config := by
  rw [transact, h]
  exact announce_rows notices { a with rows }

/-- A call that returns has committed its transaction. -/
theorem transact_returns {α : Type} {tx : ApprovalsConfig → Rows → Tx α} {a : Approvals} {r : α}
    (h : (transact tx a).1 = .ok r) :
    ∃ notices rows, tx a.config a.rows = .ok (r, notices, rows) ∧ (transact tx a).2.rows = rows := by
  rcases htx : tx a.config a.rows with e | ⟨r', notices, rows⟩
  · rw [transact_error htx] at h
    cases h
  · refine ⟨notices, rows, ?_, (transact_rows htx).1⟩
    rw [transact, htx] at h
    dsimp only at h
    cases hann : (announce notices { a with rows }).1 with
    | error e => simp [hann, Except.map] at h
    | ok u =>
        obtain rfl : r' = r := by simpa [hann, Except.map] using h
        rfl

/-- A transaction that writes nothing and has nothing to announce. -/
theorem transact_silent {α : Type} {tx : ApprovalsConfig → Rows → Tx α} {a : Approvals} {r : α}
    (h : tx a.config a.rows = .ok (r, [], a.rows)) : transact tx a = (.ok r, a) := by
  rw [transact, h]
  rfl

/-- **What a decision does to the table**: nothing, or the update of a pending row. -/
theorem decide_rows (request_id decider_id : String) (decision : Decision) (note : Option String) (now : Time)
    (a : Approvals) :
    (Approvals.decide request_id decider_id decision note now a).2.rows = a.rows ∨
      ∃ row, find a.rows request_id = some row ∧ row.status = .PENDING ∧
        (Approvals.decide request_id decider_id decision note now a).2.rows =
          update a.rows request_id (fun row => decided_row row decider_id decision note now) := by
  unfold Approvals.decide
  rcases htx : decide_tx request_id decider_id decision note now a.rows with e | ⟨r, notices, rows⟩
  · rw [transact_error htx]
    exact .inl rfl
  · rw [(transact_rows htx).1]
    obtain ⟨row, hrow, ⟨-, -, -, rfl⟩ | ⟨hpending, -, rfl⟩⟩ := decide_tx_ok htx
    · exact .inl rfl
    · exact .inr ⟨row, hrow, hpending, rfl⟩

/-- **A decision on a pending row takes effect**, whatever becomes of its announcement. -/
theorem find_decided {a : Approvals} {request_id : String} {row : Approval}
    (hrow : find a.rows request_id = some row) (hpending : row.status = .PENDING) (decider_id : String)
    (decision : Decision) (note : Option String) (now : Time) :
    find (Approvals.decide request_id decider_id decision note now a).2.rows request_id =
      some (decided_row row decider_id decision note now) := by
  have htx : ∃ r notices, decide_tx request_id decider_id decision note now a.rows = .ok (r, notices,
      update a.rows request_id (fun row => decided_row row decider_id decision note now)) := by
    unfold decide_tx
    simp only [hrow]
    rw [if_neg (not_not.mpr hpending)]
    exact ⟨_, _, rfl⟩
  obtain ⟨r, notices, htx⟩ := htx
  rw [Approvals.decide, (transact_rows htx).1, find_update_row (fun row => decided_row_id row _ _ _ _), if_pos rfl,
    hrow]
  rfl

end Approvals

end CompanyFactory
