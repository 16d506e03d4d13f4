import CompanyFactory.Cost.Ledger
import CompanyFactory.Lib.Table
import Mathlib.Data.List.Sort
import Mathlib.Data.String.Basic

/-!
# `Cost.Subscriptions` — recurring charges

`subscriptions.py`. A subscription keeps the next day on which it is due. `on_day_tick` reads the rows that are due,
once, and goes through them: it charges the budget and **then**, in a transaction of its own, writes the next day down.
`Budget.charge` appends its events in between, and may raise there.

* A row is built by `add`, which refuses a period that is not positive; the field `positive` keeps that.
* Integers of the table have 64 bits; the driver refuses others, in an `add`, a query and an update alike.
* Ids are `uuid4`. They are chosen by the environment; the primary key refuses one that is there.
* The field `charged` records for which due day of which subscription an expense was written.
-/

namespace CompanyFactory

open Act BudgetDb

/-- One row of `subscriptions`. -/
structure Subscription where
  id : String
  description : String
  amount_per_company_month : Money
  category : Category
  next_charge_company_day : Int
  period_days : Int
  cancelled : Bool
  positive : 0 < period_days

structure Subscriptions where
  /-- the table -/
  rows : List Subscription
  budget : Budget
  /-- the subscriptions and due days for which an expense was written; nothing reads it -/
  charged : List (String × Int)

/-- Does the driver take the integer? -/
def fits (n : Int) : Bool := decide (-MAX_UNITS ≤ n) && decide (n < MAX_UNITS)

def overflow : Exn := .other "OverflowError" "Python int too large to convert to SQLite INTEGER"

namespace Subscription

/-- One period later. -/
def advanced (sub : Subscription) : Subscription :=
  { sub with next_charge_company_day := sub.next_charge_company_day + sub.period_days }

/-- `ORDER BY next_charge_company_day, id` -/
def before (a b : Subscription) : Prop :=
  a.next_charge_company_day < b.next_charge_company_day ∨
    (a.next_charge_company_day = b.next_charge_company_day ∧ a.id ≤ b.id)

instance : DecidableRel before := fun _ _ => inferInstanceAs (Decidable (_ ∨ _))

/-- The charge of a due day. -/
def call (sub : Subscription) : Budget.Call :=
  .charge none sub.amount_per_company_month sub.category ("subscription:" ++ sub.description) none

/-- Would the budget grant the charge? -/
def grants (sub : Subscription) (b : Budget) : Bool := b.db.grants sub.amount_per_company_month

/-- The events of the charge. -/
def posts (sub : Subscription) (db : BudgetDb) : List Post :=
  match db.charge_tx none sub.amount_per_company_month sub.category ("subscription:" ++ sub.description) none with
  | .ok (_, post, _) => post
  | .error _ => []

/-- Would the event log take the events of the charge? -/
def takes (sub : Subscription) (b : Budget) : Bool := b.events.accepts (sub.posts b.db)

end Subscription

namespace Subscriptions

/-! ## The table -/

def add (sub_id description : String) (amount : Money) (category : Category) (next_charge_company_day : Int)
    (period_days : Int := 30) : Act Subscriptions Exn Subscription := fun s =>
  if hperiod : period_days ≤ 0 then (.error (.valueError "period_days must be positive"), s)
  else if ¬ (fits amount.units ∧ fits next_charge_company_day ∧ fits period_days) then (.error overflow, s)
  else if (Table.find Subscription.id s.rows sub_id).isSome then
    (.error (.database "UNIQUE constraint failed: subscriptions.id"), s)
  else
    let sub : Subscription :=
      { id := sub_id, description, amount_per_company_month := amount, category, next_charge_company_day, period_days
        cancelled := false, positive := Int.not_le.mp hperiod }
    (.ok sub, { s with rows := s.rows ++ [sub] })

/-- `UPDATE subscriptions SET cancelled = 1 WHERE id = ?` -/
def cancel (sub_id : String) (s : Subscriptions) : Subscriptions :=
  { s with rows := Table.update Subscription.id sub_id (fun row => { row with cancelled := true }) s.rows }

def remove (sub_id : String) : Act Subscriptions Exn Unit := Act.write (cancel sub_id)

def all (include_cancelled : Bool) (s : Subscriptions) : List Subscription :=
  if include_cancelled then s.rows else s.rows.filter fun row => !row.cancelled

def due (day : Int) (s : Subscriptions) : List Subscription :=
  (s.rows.filter fun row => !row.cancelled && decide (row.next_charge_company_day ≤ day)).insertionSort
    Subscription.before

/-! ## The tick -/

/-- `self._budget.charge(...)`, and the record of an expense that it wrote. -/
def charge (sub : Subscription) : Act Subscriptions Exn ChargeResult := fun s =>
  let (result, budget) := Budget.charge none sub.amount_per_company_month sub.category
    ("subscription:" ++ sub.description) none s.budget
  let written := if s.budget.db.expenses.length < budget.db.expenses.length then
    [(sub.id, sub.next_charge_company_day)] else []
  (result, { s with budget, charged := s.charged ++ written })

/-- `UPDATE subscriptions SET next_charge_company_day = ? WHERE id = ?` -/
def advance (sub : Subscription) : Act Subscriptions Exn Unit := fun s =>
  if fits sub.advanced.next_charge_company_day then
    (.ok (), { s with rows := Table.update Subscription.id sub.id (fun row =>
      { row with next_charge_company_day := sub.advanced.next_charge_company_day }) s.rows })
  else (.error overflow, s)

/-- The body of the loop. -/
def charge_due (sub : Subscription) : Act Subscriptions Exn Unit := do
  let result ← charge sub
  if result.ok then advance sub else Act.write (cancel sub.id)

def charge_all : List Subscription → Act Subscriptions Exn Unit
  | [] => pure ()
  | sub :: subs => do
      charge_due sub
      charge_all subs

def on_day_tick (day : Int) : Act Subscriptions Exn Unit := do
  if fits day then
    let subs ← Act.read (due day)
    charge_all subs
  else Act.raise overflow

/-- The last thing that a process does. -/
def charge_last : Option Subscription → Act Subscriptions Exn Unit
  | none => pure ()
  | some sub => do
      let _ ← charge sub
      pure ()

/-- A tick in a process that dies when it has dealt with `k` of the rows, and perhaps charged one more. -/
def tick_dies (day : Int) (k : Nat) (charges : Bool) : Act Subscriptions Exn Unit := do
  if fits day then
    let subs ← Act.read (due day)
    charge_all (subs.take k)
    charge_last (if charges then subs[k]? else none)
  else Act.raise overflow

/-! ## Steps -/

inductive Label where
  | add (sub_id description : String) (amount : Money) (category : Category) (next_charge_company_day period_days : Int)
  | remove (sub_id : String)
  | on_day_tick (day : Int)
  /-- the process dies in the tick; the objects are built again over the same tables -/
  | tick_dies (day : Int) (k : Nat) (charges : Bool)
  /-- another call on the budget -/
  | budget (call : Budget.Call)
  /-- the objects are built again; they keep nothing that is not in the tables -/
  | restart

def step (s : Subscriptions) : Label → Subscriptions
  | .add sub_id description amount category next_charge_company_day period_days =>
      (add sub_id description amount category next_charge_company_day period_days).after s
  | .remove sub_id => (remove sub_id).after s
  | .on_day_tick day => (on_day_tick day).after s
  | .tick_dies day k charges => (tick_dies day k charges).after s
  | .budget call => { s with budget := s.budget.step call }
  | .restart => s

/-- The subscriptions of a company that is opened. -/
def opened (budget : Budget) : Subscriptions := { rows := [], budget, charged := [] }

/-! ## What the charge of a due day does -/

section Charge

variable (sub : Subscription) (s : Subscriptions)

/-- An expense was written. -/
def paid : Subscriptions :=
  { s with budget := s.budget.step sub.call, charged := s.charged ++ [(sub.id, sub.next_charge_company_day)] }

/-- The charge was refused. -/
def refused : Subscriptions := { s with budget := s.budget.step sub.call }

/-- The next day was written. -/
def moved : Subscriptions :=
  { s with rows := Table.update Subscription.id sub.id (fun row =>
      { row with next_charge_company_day := sub.advanced.next_charge_company_day }) s.rows }

theorem charge_after : (charge sub s).2 = if sub.grants s.budget then paid sub s else refused sub s := by
  obtain ⟨r, post, db, htx, -, hlength⟩ := charge_tx_returns s.budget.db none sub.amount_per_company_month sub.category
    ("subscription:" ++ sub.description) none
  have hbudget : (Budget.charge none sub.amount_per_company_month sub.category ("subscription:" ++ sub.description) none
      s.budget).2 = s.budget.step sub.call := (Act.bind_pure_state _ _ _).symm
  have hdb : (s.budget.step sub.call).db = db := by
    rw [← hbudget, Budget.charge, Budget.transact_ok htx]
  unfold charge
  dsimp only
  rw [hbudget, hdb, hlength]
  unfold Subscription.grants paid refused
  cases s.budget.db.grants sub.amount_per_company_month with
  | true => simp
  | false => simp

theorem charge_result : (charge sub s).1.isOk = sub.takes s.budget ∧
    ∀ r, (charge sub s).1 = .ok r → r.ok = sub.grants s.budget := by
  obtain ⟨r, post, db, htx, hok, -⟩ := charge_tx_returns s.budget.db none sub.amount_per_company_month sub.category
    ("subscription:" ++ sub.description) none
  have hposts : sub.posts s.budget.db = post := by
    unfold Subscription.posts
    rw [htx]
  have hrun : (charge sub s).1 = (EventStore.appendAll post s.budget.events).1.map fun _ => r := by
    show (Budget.charge none _ _ _ none s.budget).1 = _
    rw [Budget.charge, Budget.transact_ok htx]
  rw [hrun]
  unfold Subscription.takes EventStore.accepts Act.returns
  rw [hposts]
  cases EventStore.appendAll post s.budget.events with
  | mk result events =>
      cases result with
      | error e => exact ⟨rfl, nofun⟩
      | ok u =>
          refine ⟨rfl, fun r' hr' => ?_⟩
          cases hr'
          exact hok

/-- **What one turn of the loop does.** -/
theorem charge_due_cases :
    (sub.grants s.budget = true ∧ sub.takes s.budget = true ∧ fits sub.advanced.next_charge_company_day = true ∧
      charge_due sub s = (.ok (), moved sub (paid sub s))) ∨
    (sub.grants s.budget = true ∧
      (sub.takes s.budget = false ∨ fits sub.advanced.next_charge_company_day = false) ∧
      ∃ e, charge_due sub s = (.error e, paid sub s)) ∨
    (sub.grants s.budget = false ∧ sub.takes s.budget = true ∧
      charge_due sub s = (.ok (), cancel sub.id (refused sub s))) ∨
    (sub.grants s.budget = false ∧ sub.takes s.budget = false ∧
      ∃ e, charge_due sub s = (.error e, refused sub s)) := by
  obtain ⟨hreturns, hok⟩ := charge_result sub s
  have hafter := charge_after sub s
  unfold charge_due
  rcases hcharge : charge sub s with ⟨result, s'⟩
  rw [hcharge] at hreturns hok hafter
  rw [bind_run, hcharge]
  dsimp only at hafter hreturns ⊢
  rw [hafter]
  cases result with
  | error e =>
      -- the expense was committed before the event log refused its event
      have htakes : sub.takes s.budget = false := hreturns.symm
      cases hgrants : sub.grants s.budget with
      | true => exact .inr (.inl ⟨rfl, .inl htakes, e, rfl⟩)
      | false => exact .inr (.inr (.inr ⟨rfl, htakes, e, rfl⟩))
  | ok r =>
      have htakes : sub.takes s.budget = true := hreturns.symm
      have hr := hok r rfl
      dsimp only
      rw [hr]
      cases hgrants : sub.grants s.budget with
      | false => exact .inr (.inr (.inl ⟨rfl, htakes, rfl⟩))
      | true =>
          cases hfits : fits sub.advanced.next_charge_company_day with
          | true => exact .inl ⟨rfl, htakes, rfl, by simp [advance, hfits, moved]⟩
          | false => exact .inr (.inl ⟨rfl, .inr rfl, overflow, by simp [advance, hfits]⟩)

end Charge

/-! ## Rows -/

section Rows

variable {s : Subscriptions} {sub : Subscription}

/-- Rows with different ids. -/
theorem eq_of_id (h : (s.rows.map Subscription.id).Nodup) {a b : Subscription} (ha : a ∈ s.rows) (hb : b ∈ s.rows)
    (heq : a.id = b.id) : a = b := List.inj_on_of_nodup_map h ha hb heq

theorem cancel_ids (sub_id : String) (s : Subscriptions) :
    (cancel sub_id s).rows.map Subscription.id = s.rows.map Subscription.id := by
  refine Table.keys_update_key ?_ s.rows
  exact fun _ => rfl

theorem moved_ids (sub : Subscription) (s : Subscriptions) :
    (moved sub s).rows.map Subscription.id = s.rows.map Subscription.id := by
  refine Table.keys_update_key ?_ s.rows
  exact fun _ => rfl

theorem mem_due {day : Int} :
    sub ∈ s.due day ↔ sub ∈ s.rows ∧ sub.cancelled = false ∧ sub.next_charge_company_day ≤ day := by
  unfold due
  rw [(List.perm_insertionSort _ _).mem_iff, List.mem_filter]
  simp

theorem due_ids (h : (s.rows.map Subscription.id).Nodup) (day : Int) :
    ((s.due day).map Subscription.id).Nodup := by
  unfold due
  rw [((List.perm_insertionSort Subscription.before _).map Subscription.id).nodup_iff]
  exact h.sublist (List.filter_sublist.map _)

theorem add_cases (sub_id description : String) (amount : Money) (category : Category) (next period : Int)
    (s : Subscriptions) : (add sub_id description amount category next period).after s = s ∨
    Table.find Subscription.id s.rows sub_id = none ∧ ∃ sub : Subscription, sub.id = sub_id ∧
      sub.next_charge_company_day = next ∧ (add sub_id description amount category next period).after s =
        { s with rows := s.rows ++ [sub] } := by
  unfold add Act.after
  split
  · exact .inl rfl
  · split
    · exact .inl rfl
    · dsimp only
      split
      · exact .inl rfl
      · rename_i hnew
        exact .inr ⟨Option.not_isSome_iff_eq_none.mp hnew, _, rfl, rfl, rfl⟩

end Rows

end Subscriptions

end CompanyFactory
