import CompanyFactory.EventStore.Store
import Mathlib.Algebra.GroupWithZero.Nat

/-!
# `Cost.Budget` — the budget engine

`Budget` keeps three tables: `budget_state` (one row), `expenses` and `reservations`. Every method runs
one transaction and appends its events **after** the transaction has committed; an append that raises
therefore ends the call without undoing the write. The transactions are the `_tx` functions: pure, either
an exception (and the database is unchanged) or a result, the events to append, and the new database.

* Amounts are units of 1e-4 USD. `Money` refuses a negative amount, so a `Nat` carries that check and the
  `amount.to_units() < 0` guards of the methods cannot fire.
* Rows are only ever added, and an id (`uuid4`) is never given twice: the position of a row is its id.
* `new_pct >= p` is decided on integers: `p * total <= 100 * used`.
* The columns that nothing reads (`created_at`, the timestamps of an expense) are left out.
-/

namespace CompanyFactory

/-- A non-negative USD amount, in units of 1e-4 USD. -/
structure Money where
  units : Nat
  deriving DecidableEq, Repr

inductive Category where
  | LLM | TOOL | HOSTING | DOMAIN | EMAIL | ADS | PAYMENT | OTHER
  deriving DecidableEq, Repr

def Category.value : Category → String
  | .LLM => "llm"
  | .TOOL => "tool"
  | .HOSTING => "hosting"
  | .DOMAIN => "domain"
  | .EMAIL => "email"
  | .ADS => "ads"
  | .PAYMENT => "payment"
  | .OTHER => "other"

inductive ReservationStatus where
  | OPEN | COMMITTED | RELEASED
  deriving DecidableEq, Repr

/-- One row of `expenses`. -/
structure Expense where
  id : Nat
  agent_id : Option String
  amount_units : Nat
  category : Category
  memo : String
  approval_id : Option String
  deriving DecidableEq, Repr

/-- One row of `reservations`. -/
structure ReservationRow where
  amount_units : Nat
  ref : String
  status : ReservationStatus
  deriving DecidableEq, Repr

/-- The tables of the cost module. -/
structure BudgetDb where
  total_units : Nat
  blocked : Bool
  last_warn_pct : Nat
  expenses : List Expense
  reservations : List ReservationRow
  deriving DecidableEq, Repr

structure ChargeResult where
  ok : Bool
  reason : Option String := none
  expense_id : Option Nat := none
  deriving DecidableEq, Repr

/-- What `reserve` returns. -/
structure Reservation where
  id : Nat
  amount : Money
  ref : String
  status : ReservationStatus
  deriving DecidableEq, Repr

def WARNING_PCT : Nat := 80
def BLOCKED_PCT : Nat := 100

/-- `_units_to_cents`: round half up. -/
def units_to_cents (units : Nat) : Nat := (units + 50) / 100

namespace ReservationRow

/-- What the row counts for in the sum of the open reservations. -/
def held (r : ReservationRow) : Nat := if r.status = .OPEN then r.amount_units else 0

@[simp] theorem held_open (n : Nat) (ref : String) : held ⟨n, ref, .OPEN⟩ = n := rfl

@[simp] theorem held_released (n : Nat) (ref : String) : held ⟨n, ref, .RELEASED⟩ = 0 := rfl

@[simp] theorem held_committed (n : Nat) (ref : String) : held ⟨n, ref, .COMMITTED⟩ = 0 := rfl

end ReservationRow

namespace BudgetDb

/-- The tables after `migrate`. -/
def fresh : BudgetDb :=
  { total_units := 0, blocked := false, last_warn_pct := 0, expenses := [], reservations := [] }

/-- `_sum_expenses` -/
def sum_expenses (db : BudgetDb) : Nat := (db.expenses.map Expense.amount_units).sum

/-- `_sum_open_reservations` -/
def sum_open_reservations (db : BudgetDb) : Nat := (db.reservations.map ReservationRow.held).sum

/-- Spent plus open reservations. -/
def used (db : BudgetDb) : Nat := db.sum_expenses + db.sum_open_reservations

/-- Is the usage at or over `pct` percent of the total? A total of 0 counts as 0 percent. -/
def reached (db : BudgetDb) (pct : Nat) : Bool :=
  decide (0 < db.total_units) && decide (pct * db.total_units ≤ 100 * db.used)

/-- The reservation with this id, if it is `OPEN`. -/
def open_row (db : BudgetDb) (rid : Nat) : Option ReservationRow :=
  db.reservations[rid]?.filter (fun r => r.status = .OPEN)

def is_open (db : BudgetDb) (rid : Nat) : Bool := (db.open_row rid).isSome

/-- Write a status into a row. -/
def set_status (db : BudgetDb) (rid : Nat) (row : ReservationRow) (status : ReservationStatus) :
    BudgetDb :=
  { db with reservations := db.reservations.set rid { row with status } }

def set_blocked (db : BudgetDb) : BudgetDb :=
  { db with blocked := true, last_warn_pct := BLOCKED_PCT }

/-- The `BUDGET_BLOCKED` event of a refusal or of a crossing. -/
def blocked_post (db : BudgetDb) (attempted : Nat) (used : Nat) (actor : Option String := none) :
    Post :=
  { kind := .BUDGET_BLOCKED
    payload := [("scope", .str "company"), ("used_cents", .int (units_to_cents used)),
      ("limit_cents", .int (units_to_cents db.total_units)),
      ("attempted_cents", .int (units_to_cents attempted))]
    actor }

/-- The `BUDGET_WARNING` event. -/
def warning_post (db : BudgetDb) (actor : Option String := none) : Post :=
  { kind := .BUDGET_WARNING
    payload := [("scope", .str "company"), ("used_cents", .int (units_to_cents db.used)),
      ("limit_cents", .int (units_to_cents db.total_units)),
      ("ratio", .num (db.used / db.total_units : Rat))]
    actor }

/-- `_evaluate_thresholds_locked`: compare usage and thresholds, update `last_warn_pct` and `blocked`. -/
def evaluate_thresholds_locked (db : BudgetDb) (actor : Option String := none) :
    List Post × BudgetDb :=
  -- crossings upward
  let (out, new_last, new_blocked) :=
    if db.reached BLOCKED_PCT && db.last_warn_pct < BLOCKED_PCT then
      ([db.blocked_post 0 db.used actor], BLOCKED_PCT, true)
    else if db.reached WARNING_PCT && db.last_warn_pct < WARNING_PCT then
      ([db.warning_post actor], WARNING_PCT, db.blocked)
    else ([], db.last_warn_pct, db.blocked)
  -- crossings downward
  let new_last :=
    if !db.reached WARNING_PCT && WARNING_PCT ≤ db.last_warn_pct then 0
    else if !db.reached BLOCKED_PCT && BLOCKED_PCT ≤ db.last_warn_pct then WARNING_PCT
    else new_last
  let new_blocked := if !db.reached BLOCKED_PCT && db.blocked then false else new_blocked
  (out, { db with last_warn_pct := new_last, blocked := new_blocked })

section Frame

variable (db : BudgetDb) (actor : Option String)

@[simp] theorem evaluate_total_units :
    (db.evaluate_thresholds_locked actor).2.total_units = db.total_units := rfl

@[simp] theorem evaluate_expenses :
    (db.evaluate_thresholds_locked actor).2.expenses = db.expenses := rfl

@[simp] theorem evaluate_reservations :
    (db.evaluate_thresholds_locked actor).2.reservations = db.reservations := rfl

@[simp] theorem set_blocked_total_units : db.set_blocked.total_units = db.total_units := rfl

@[simp] theorem set_blocked_expenses : db.set_blocked.expenses = db.expenses := rfl

@[simp] theorem set_blocked_reservations : db.set_blocked.reservations = db.reservations := rfl

end Frame

/-! ## The transactions -/

/-- The result of a transaction: an exception, or a value, the events to append and the database. -/
abbrev Tx (α : Type) := Except Exn (α × List Post × BudgetDb)

/-- SQLite stores 64-bit integers; a larger total is refused by the driver. -/
def MAX_UNITS : Nat := 2 ^ 63

def set_total_tx (db : BudgetDb) (amount : Money) : Tx Unit :=
  if MAX_UNITS ≤ amount.units then
    .error (.other "OverflowError" "Python int too large to convert to SQLite INTEGER")
  else
    let (post, db) := { db with total_units := amount.units }.evaluate_thresholds_locked
    .ok ((), post, db)

def charge_tx (db : BudgetDb) (agent_id : Option String) (amount : Money) (category : Category)
    (memo : String) (approval_id : Option String) : Tx ChargeResult :=
  let refusal := [db.blocked_post amount.units db.sum_expenses agent_id]
  if db.blocked then
    .ok ({ ok := false, reason := some "over_budget" }, refusal, db)
  else if db.total_units < db.used + amount.units then
    .ok ({ ok := false, reason := some "over_budget" }, refusal, db.set_blocked)
  else
    let expense : Expense :=
      { id := db.expenses.length, agent_id, amount_units := amount.units, category, memo,
        approval_id }
    let (post, db) :=
      { db with expenses := db.expenses ++ [expense] }.evaluate_thresholds_locked agent_id
    let charged : Post :=
      { kind := .EXPENSE_CHARGED
        payload := [("amount_cents", .int (units_to_cents amount.units)),
          ("category", .str category.value), ("note", .str memo),
          ("request_id", .str (toString expense.id))]
        actor := agent_id }
    .ok ({ ok := true, expense_id := some expense.id }, charged :: post, db)

def reserve_tx (db : BudgetDb) (amount : Money) (ref : String) : Tx Reservation :=
  if db.blocked || db.total_units < db.used + amount.units then
    .error (.overBudget (
      "reserve refused: spent=" ++ toString db.sum_expenses ++ " reserved=" ++
      toString db.sum_open_reservations ++ " requested=" ++ toString amount.units ++ " total=" ++
      toString db.total_units ++ " blocked=" ++ (if db.blocked then "True" else "False")))
  else
    let rid := db.reservations.length
    let row : ReservationRow := { amount_units := amount.units, ref, status := .OPEN }
    let (post, db) :=
      { db with reservations := db.reservations ++ [row] }.evaluate_thresholds_locked
    .ok ({ id := rid, amount, ref, status := .OPEN }, post, db)

/-- Would a reservation of the amount be granted? -/
def grants (db : BudgetDb) (amount : Money) : Bool :=
  !db.blocked && decide (db.used + amount.units ≤ db.total_units)

/-- What a granted reservation writes, with the threshold events it causes. -/
def reserved (db : BudgetDb) (amount : Money) (ref : String) : List Post × BudgetDb :=
  ({ db with reservations := db.reservations ++ [ReservationRow.mk amount.units ref .OPEN] } :
    BudgetDb).evaluate_thresholds_locked

theorem reserve_granted {db : BudgetDb} {amount : Money} (ref : String)
    (h : db.grants amount = true) :
    db.reserve_tx amount ref = .ok
      ({ id := db.reservations.length, amount, ref, status := .OPEN }, (db.reserved amount ref).1,
        (db.reserved amount ref).2) := by
  obtain ⟨hb, hfits⟩ : db.blocked = false ∧ db.used + amount.units ≤ db.total_units := by
    simpa [grants] using h
  have hif : ¬ db.total_units < db.used + amount.units := by omega
  simp [reserve_tx, hb, hif, reserved]

theorem reserve_refused {db : BudgetDb} {amount : Money} (ref : String)
    (h : db.grants amount = false) :
    ∃ message, db.reserve_tx amount ref = .error (.overBudget message) := by
  have hif : (db.blocked || decide (db.total_units < db.used + amount.units)) = true := by
    cases hb : db.blocked with
    | true => rfl
    | false =>
        have hover : db.total_units < db.used + amount.units := by
          simpa [grants, hb] using h
        simpa using hover
  unfold reserve_tx
  rw [if_pos hif]
  exact ⟨_, rfl⟩

/-- A charge always returns: it is ok, and adds one expense, exactly if the amount is granted. -/
theorem charge_tx_returns (db : BudgetDb) (agent_id : Option String) (amount : Money) (category : Category)
    (memo : String) (approval_id : Option String) :
    ∃ r post db', db.charge_tx agent_id amount category memo approval_id = .ok (r, post, db') ∧
      r.ok = db.grants amount ∧ db'.expenses.length = db.expenses.length + (db.grants amount).toNat := by
  unfold charge_tx grants
  cases hb : db.blocked with
  | true => exact ⟨_, _, _, rfl, rfl, rfl⟩
  | false =>
      by_cases hover : db.total_units < db.used + amount.units
      · have hno : decide (db.used + amount.units ≤ db.total_units) = false :=
          decide_eq_false (Nat.not_le.mpr hover)
        rw [if_neg (by simp), if_pos hover, hno]
        exact ⟨_, _, _, rfl, rfl, rfl⟩
      · have hyes : decide (db.used + amount.units ≤ db.total_units) = true :=
          decide_eq_true (Nat.not_lt.mp hover)
        rw [if_neg (by simp), if_neg hover, hyes]
        exact ⟨_, _, _, rfl, rfl, by simp⟩

/-- The row of an `OPEN` reservation, or the exception the methods raise for another id. -/
def require_open (db : BudgetDb) (rid : Nat) : Except Exn ReservationRow :=
  match db.reservations[rid]? with
  | none => .error (.unknownReservation rid)
  | some row => if row.status = .OPEN then .ok row else .error (.reservationAlreadyClosed rid)

def release_tx (db : BudgetDb) (rid : Nat) : Tx Unit :=
  match db.require_open rid with
  | .error e => .error e
  | .ok row => .ok ((), [], db.set_status rid row .RELEASED)

def commit_tx (db : BudgetDb) (rid : Nat) (actual_amount : Money) : Tx ChargeResult :=
  match db.require_open rid with
  | .error e => .error e
  | .ok row =>
    let other_reserved := db.sum_open_reservations - row.amount_units
    if db.blocked || db.total_units < db.sum_expenses + other_reserved + actual_amount.units then
      .ok ({ ok := false, reason := some "over_budget" },
        [db.blocked_post actual_amount.units db.sum_expenses],
        (db.set_status rid row .RELEASED).set_blocked)
    else
      let memo := "commit:" ++ row.ref
      let expense : Expense :=
        { id := db.expenses.length, agent_id := none, amount_units := actual_amount.units,
          category := .OTHER, memo, approval_id := none }
      let db := db.set_status rid row .COMMITTED
      let (post, db) := { db with expenses := db.expenses ++ [expense] }.evaluate_thresholds_locked
      let charged : Post :=
        { kind := .EXPENSE_CHARGED
          payload := [("amount_cents", .int (units_to_cents actual_amount.units)),
            ("category", .str Category.OTHER.value), ("note", .str memo),
            ("request_id", .str (toString expense.id))] }
      .ok ({ ok := true, expense_id := some expense.id }, charged :: post, db)

end BudgetDb

/-- The budget of one company. -/
structure Budget where
  db : BudgetDb
  events : EventStore

namespace Budget

open BudgetDb

/-- Run a transaction, then append its events. -/
def transact {α : Type} (tx : BudgetDb → Tx α) : Act Budget Exn α := fun b =>
  match tx b.db with
  | .error e => (.error e, b)
  | .ok (a, post, db) =>
    let appended := EventStore.appendAll post b.events
    (appended.1.map (fun _ => a), { db, events := appended.2 })

def set_total (amount : Money) : Act Budget Exn Unit := transact (·.set_total_tx amount)

def charge (agent_id : Option String) (amount : Money) (category : Category) (memo : String)
    (approval_id : Option String := none) : Act Budget Exn ChargeResult :=
  transact (·.charge_tx agent_id amount category memo approval_id)

def reserve (amount : Money) (ref : String) : Act Budget Exn Reservation :=
  transact (·.reserve_tx amount ref)

def release (rid : Nat) : Act Budget Exn Unit := transact (·.release_tx rid)

def commit (rid : Nat) (actual_amount : Money) : Act Budget Exn ChargeResult :=
  transact (·.commit_tx rid actual_amount)

/-- The exceptions of a transaction leave everything as it was. -/
theorem transact_error {α : Type} {tx : BudgetDb → Tx α} {b : Budget} {e : Exn}
    (h : tx b.db = .error e) : transact tx b = (.error e, b) := by rw [transact, h]

/-- The database after the call is the one its transaction committed, whatever the appends do. -/
theorem transact_ok {α : Type} {tx : BudgetDb → Tx α} {b : Budget} {a : α} {post : List Post}
    {db : BudgetDb} (h : tx b.db = .ok (a, post, db)) :
    transact tx b = ((EventStore.appendAll post b.events).1.map (fun _ => a),
      { db, events := (EventStore.appendAll post b.events).2 }) := by rw [transact, h]

/-- A call that returns is a transaction that committed and whose events were taken. -/
theorem transact_returns {α : Type} {tx : BudgetDb → Tx α} {b : Budget} {a : α}
    (h : (transact tx b).1 = .ok a) :
    ∃ post, tx b.db = .ok (a, post, (transact tx b).2.db) ∧ b.events.accepts post = true := by
  rcases htx : tx b.db with e | ⟨a', post, db⟩
  · simp [transact_error htx] at h
  · rw [transact_ok htx] at h ⊢
    cases happ : (EventStore.appendAll post b.events).1 with
    | error e => simp [happ, Except.map] at h
    | ok _ =>
        obtain rfl : a' = a := by simpa [happ, Except.map] using h
        exact ⟨post, rfl, by simp [EventStore.accepts, Act.returns, happ, Except.isOk, Except.toBool]⟩

end Budget

end CompanyFactory
