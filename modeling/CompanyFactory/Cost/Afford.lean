import CompanyFactory.Cost.Threshold

/-!
# `Cost.Afford` — what the budget says about itself, and what it then does

Three methods decide whether an amount fits: `can_afford` on the amounts of `state()`, `charge` and `reserve`
on raw units, inside their transactions. All three ask for the same two things, `grants`: the flag is off, and
spent, open reservations and amount are within the total.

* `can_afford_eq` — the detour through `Money` loses nothing.
* `afford_agrees` — so the three agree in every reachable budget.
* `set_total_reblocks` — the flag that they consult is put right by every `set_total`.
-/

namespace CompanyFactory

namespace Money

/-- `Money.from_units` -/
def from_units (units : Nat) : Money := ⟨units⟩

/-- `Money.to_units` -/
def to_units (amount : Money) : Nat := amount.units

/-- Four decimal places are exactly the units. -/
@[simp] theorem to_units_from_units (units : Nat) : (from_units units).to_units = units := rfl

end Money

/-- What `state()` returns. -/
structure BudgetState where
  total : Money
  spent : Money
  reserved : Money
  remaining : Money
  /-- a category without an expense is no key of the dict -/
  by_category : Category → Option Money
  blocked : Bool

namespace BudgetDb

/-- `SELECT category, SUM(amount_units) … GROUP BY category` -/
def sum_category (db : BudgetDb) (category : Category) : Option Nat :=
  let rows := db.expenses.filter (fun e => e.category = category)
  if rows.isEmpty then none else some (rows.map Expense.amount_units).sum

/-- `Budget.state` -/
def state (db : BudgetDb) : BudgetState :=
  { total := .from_units db.total_units
    spent := .from_units db.sum_expenses
    reserved := .from_units db.sum_open_reservations
    remaining := .from_units (db.total_units - db.sum_expenses - db.sum_open_reservations)
    by_category := fun category => (db.sum_category category).map .from_units
    blocked := db.blocked }

/-- `Budget.can_afford` -/
def can_afford (db : BudgetDb) (amount : Money) : Bool :=
  let s := db.state
  if s.blocked then false
  else decide (s.spent.to_units + s.reserved.to_units + amount.to_units ≤ s.total.to_units)

/-- `can_afford` asks what `charge` and `reserve` ask. -/
theorem can_afford_eq (db : BudgetDb) (amount : Money) : db.can_afford amount = db.grants amount := by
  unfold can_afford grants
  cases hb : db.blocked with
  | true => simp [state, hb]
  | false =>
      simp only [state, hb, Money.to_units_from_units, used]
      rfl

end BudgetDb

namespace Budget

open BudgetDb Machine

/-- The charge goes through: one expense of the amount is recorded, and what the call returns is an ok result
    (unless the event store refuses one of its events, which is then raised). -/
def ChargeSucceeds (b : Budget) (agent_id : Option String) (amount : Money) (category : Category)
    (memo : String) (approval_id : Option String) : Prop :=
  (∃ expense, (charge agent_id amount category memo approval_id b).2.db.expenses =
      b.db.expenses ++ [expense] ∧ expense.amount_units = amount.units) ∧
  (∀ r, (charge agent_id amount category memo approval_id b).1 = .ok r → r.ok = true) ∧
  (∀ e, (charge agent_id amount category memo approval_id b).1 = .error e → e.isStoreError = true)

/-- The reservation is refused. -/
def RaisesOverBudget (b : Budget) (amount : Money) (ref : String) : Prop :=
  ∃ message, (reserve amount ref b).1 = .error (.overBudget message)

/-- A charge goes through exactly if the amount is granted. -/
theorem charge_succeeds_iff (b : Budget) (agent_id : Option String) (amount : Money) (category : Category)
    (memo : String) (approval_id : Option String) :
    ChargeSucceeds b agent_id amount category memo approval_id ↔ b.db.grants amount = true := by
  obtain ⟨r, post, db', htx, hok, hlen⟩ := charge_tx_returns b.db agent_id amount category memo approval_id
  have hdb : (charge agent_id amount category memo approval_id b).2.db = db' := by
    rw [charge, transact_ok htx]
  have hmap : Call.tx b.db (.charge agent_id amount category memo approval_id) =
      .ok (.charged r, post, db') := by
    rw [Call.tx, htx]
    rfl
  constructor
  · rintro ⟨⟨expense, hrow, -⟩, -⟩
    -- a refused charge records nothing
    rw [hdb] at hrow
    cases hg : b.db.grants amount with
    | true => rfl
    | false =>
        rw [hrow, hg, List.length_append] at hlen
        simp at hlen
  · intro hg
    rw [hg] at hok
    refine ⟨?_, fun r' hr' => ?_, fun e he => ?_⟩
    · rw [hdb]
      have hw := written_of_tx hmap
      clear hdb hmap htx hlen
      cases hw with
      | charge_refused _ _ _ _ _ _ _ hno =>
          rw [hok] at hno
          cases hno
      | charged _ _ _ _ _ _ expense _ _ _ hamount => exact ⟨expense, rfl, hamount⟩
    · obtain ⟨post', htx', -⟩ := transact_returns hr'
      rw [htx] at htx'
      obtain rfl : r = r' := (Prod.mk.inj (Except.ok.inj htx')).1
      exact hok
    · rw [charge, transact_ok htx] at he
      cases happ : (EventStore.appendAll post b.events).1 with
      | error e' =>
          obtain rfl : e' = e := by simpa [happ, Except.map] using he
          exact EventStore.appendAll_error happ
      | ok _ => simp [happ, Except.map] at he

/-- A reservation raises `OverBudget` exactly if the amount is not granted. -/
theorem raises_over_budget_iff (b : Budget) (amount : Money) (ref : String) :
    RaisesOverBudget b amount ref ↔ b.db.grants amount = false := by
  cases hg : b.db.grants amount with
  | false =>
      obtain ⟨message, htx⟩ := reserve_refused ref hg
      refine iff_of_true ⟨message, ?_⟩ rfl
      rw [reserve, transact_error htx]
  | true =>
      refine iff_of_false ?_ (by simp)
      rintro ⟨message, hraised⟩
      -- what a granted reservation can raise is an error of the event store
      rw [reserve, transact_ok (reserve_granted ref hg)] at hraised
      cases happ : (EventStore.appendAll (b.db.reserved amount ref).1 b.events).1 with
      | ok _ => simp [happ, Except.map] at hraised
      | error e =>
          have hstore := EventStore.appendAll_error happ
          obtain rfl : e = .overBudget message := by simpa [happ, Except.map] using hraised
          cases hstore

/-- **Affordability agrees.** In every reachable budget, for every amount: `can_afford` says yes exactly if a
    charge of the amount succeeds, and exactly if a reservation of it does not raise `OverBudget`. -/
theorem afford_agrees (events : EventStore) (past : List Call) (amount : Money) :
    (∀ agent_id category memo approval_id,
      (exec step (fresh events) past).db.can_afford amount = true ↔
        ChargeSucceeds (exec step (fresh events) past) agent_id amount category memo approval_id) ∧
    ∀ ref, (exec step (fresh events) past).db.can_afford amount = true ↔
      ¬ RaisesOverBudget (exec step (fresh events) past) amount ref := by
  constructor
  · intro agent_id category memo approval_id
    rw [charge_succeeds_iff, can_afford_eq]
  · intro ref
    rw [raises_over_budget_iff, can_afford_eq, Bool.not_eq_false]

/-! ## A new total -/

/-- What `set_total` commits. -/
theorem set_total_written {b : Budget} {amount : Money} (h : amount.units < MAX_UNITS) :
    (set_total amount b).2.db =
      ({ b.db with total_units := amount.units } : BudgetDb).evaluate_thresholds_locked.2 := by
  have htx : b.db.set_total_tx amount = .ok ((),
      ({ b.db with total_units := amount.units } : BudgetDb).evaluate_thresholds_locked.1,
      ({ b.db with total_units := amount.units } : BudgetDb).evaluate_thresholds_locked.2) := by
    unfold set_total_tx
    rw [if_neg (by omega)]
  rw [set_total, transact_ok htx]

/-- **A new total puts the flag right.** In every reachable budget: setting a positive total leaves it blocked exactly
    if spent and open reservations are at least the total. A total that SQLite cannot store is refused, and then
    nothing has changed. -/
theorem set_total_reblocks (events : EventStore) (past : List Call) (amount : Money) :
    (amount.units < MAX_UNITS →
      (set_total amount (exec step (fresh events) past)).2.db.total_units = amount.units ∧
      (0 < amount.units →
        ((set_total amount (exec step (fresh events) past)).2.db.blocked = true ↔
          amount.units ≤ (set_total amount (exec step (fresh events) past)).2.db.used))) ∧
    (MAX_UNITS ≤ amount.units →
      set_total amount (exec step (fresh events) past) =
        (.error (.other "OverflowError" "Python int too large to convert to SQLite INTEGER"),
          exec step (fresh events) past)) := by
  have hs := synced_exec events past
  generalize exec step (fresh events) past = b at hs ⊢
  constructor
  · intro hlt
    rw [set_total_written hlt]
    refine ⟨rfl, fun hpos => ?_⟩
    have hcapped : Synced { b.db with total_units := amount.units } := hs
    rw [evaluate_blocked hcapped, reached_blocked_iff]
    -- the check changes neither an expense nor a reservation
    exact and_iff_right hpos
  · intro hbig
    apply transact_error
    unfold set_total_tx
    rw [if_pos hbig]

/-- A refused charge blocks a budget of 1 USD with nothing spent; the same total again lifts the block. -/
theorem set_total_reblocks_refused :
    (exec step (fresh .quiet) [.set_total ⟨10000⟩, .charge none ⟨20000⟩ .LLM "turn" none]).db.blocked = true ∧
    (set_total ⟨10000⟩ (exec step (fresh .quiet)
      [.set_total ⟨10000⟩, .charge none ⟨20000⟩ .LLM "turn" none])).2.db.blocked = false := by
  refine ⟨by rfl, ?_⟩
  have hiff := ((set_total_reblocks .quiet
    [.set_total ⟨10000⟩, .charge none ⟨20000⟩ .LLM "turn" none] ⟨10000⟩).1 (by decide)).2 (by decide)
  rw [Bool.eq_false_iff, Ne, hiff]
  decide

end Budget

end CompanyFactory
