import CompanyFactory.Cost.Posts
import Mathlib.Algebra.BigOperators.Group.List.Basic
import Mathlib.Data.Rat.Floor

/-!
# `Cost.Audit` — the expenses as the event log tells them

The ledger keeps units of 1e-4 USD; an `EXPENSE_CHARGED` event carries whole cents, and each event rounds its own
amount half up. So the log adds up to the rounded expenses, one by one, and not to the rounded total: every expense
moves the two apart by up to half a cent.
-/

namespace CompanyFactory

namespace EventStore

/-- `int(payload.get("amount_cents", 0))` -/
def cents_of (payload : Fields) : Int :=
  match payload.lookup "amount_cents" with
  | some (.num q) => ⌊q⌋
  | _ => 0

/-- What one event adds to the sum over the `EXPENSE_CHARGED` events. -/
def charge_of (e : Event) : Int := if e.kind = .EXPENSE_CHARGED then cents_of e.payload else 0

/-- The sum of `amount_cents` over all `EXPENSE_CHARGED` events. -/
def charged_cents (st : EventStore) : Int := (st.log.map charge_of).sum

end EventStore

namespace BudgetDb

/-- The expenses in cents, each one rounded. -/
def rounded_cents (db : BudgetDb) : Nat := (db.expenses.map (fun e => units_to_cents e.amount_units)).sum

theorem units_to_cents_bounds (units : Nat) :
    100 * units_to_cents units ≤ units + 50 ∧ units < 100 * units_to_cents units + 50 := by
  unfold units_to_cents
  omega

theorem units_to_cents_whole {units : Nat} (h : 100 ∣ units) : 100 * units_to_cents units = units := by
  unfold units_to_cents
  omega

/-- Rounding one by one is off by at most half a cent an expense. -/
theorem rounded_cents_bounds (db : BudgetDb) :
    100 * db.rounded_cents ≤ db.sum_expenses + 50 * db.expenses.length ∧
      db.sum_expenses ≤ 100 * db.rounded_cents + 50 * db.expenses.length := by
  unfold rounded_cents sum_expenses
  induction db.expenses with
  | nil => simp
  | cons e expenses ih =>
      have hbounds := units_to_cents_bounds e.amount_units
      simp only [List.map_cons, List.sum_cons, List.length_cons]
      omega

/-- Expenses of whole cents are not rounded. -/
theorem rounded_cents_whole {db : BudgetDb} (h : ∀ e ∈ db.expenses, 100 ∣ e.amount_units) :
    100 * db.rounded_cents = db.sum_expenses := by
  unfold rounded_cents sum_expenses
  revert h
  induction db.expenses with
  | nil => simp
  | cons e expenses ih =>
      intro h
      have hhead := units_to_cents_whole (h e List.mem_cons_self)
      have htail := ih fun e' he' => h e' (List.mem_cons_of_mem _ he')
      simp only [List.map_cons, List.sum_cons]
      omega

end BudgetDb

namespace Budget

open BudgetDb Machine

/-- The store takes the events of the call. -/
def Taken (b : Budget) (c : Call) : Prop := b.events.accepts (c.posts b.db) = true

instance (b : Budget) (c : Call) : Decidable (Taken b c) := inferInstanceAs (Decidable (_ = _))

/-! ## One call -/

/-- The row of an expense's event carries its rounded amount. -/
theorem charge_of_logged {expense : Expense} {e : Event} (h : EventStore.Logged (charged_post expense) e) :
    EventStore.charge_of e = units_to_cents expense.amount_units := by
  have hkind : e.kind = .EXPENSE_CHARGED := h.kind
  have hpayload : (charged_post expense).payload = e.payload := Except.ok.inj h.payload
  rw [EventStore.charge_of, if_pos hkind, ← hpayload]
  simp [EventStore.cents_of, charged_post, Json.int]

/-- The row of a post of another kind adds nothing. -/
theorem charge_of_other {post : Post} {e : Event} (h : EventStore.Logged post e)
    (hpost : post.kind ≠ .EXPENSE_CHARGED) : EventStore.charge_of e = 0 := by
  rw [EventStore.charge_of, if_neg]
  rw [h.kind]
  exact hpost

theorem charges_of_others {posts : List Post} {rows : List Event} (h : List.Forall₂ EventStore.Logged posts rows)
    (hposts : ∀ p ∈ posts, p.kind ≠ .EXPENSE_CHARGED) : (rows.map EventStore.charge_of).sum = 0 := by
  induction h with
  | nil => rfl
  | @cons post e posts rows hlogged _ ih =>
      rw [List.map_cons, List.sum_cons, charge_of_other hlogged (hposts post List.mem_cons_self),
        ih fun p hp => hposts p (List.mem_cons_of_mem _ hp)]
      rfl

/-- The threshold check posts no charge. -/
theorem evaluate_no_charge (db : BudgetDb) (actor : Option String) :
    ∀ p ∈ (db.evaluate_thresholds_locked actor).1, p.kind ≠ .EXPENSE_CHARGED := by
  unfold evaluate_thresholds_locked
  dsimp only
  split_ifs <;> simp [blocked_post, warning_post]

/-- What a call adds to the sum in the log is what it adds to the rounded expenses. -/
theorem charged_cents_step (b : Budget) (c : Call) (h : Taken b c) :
    (step b c).events.charged_cents + b.db.rounded_cents =
      b.events.charged_cents + (step b c).db.rounded_cents := by
  obtain ⟨hsame, -⟩ | ⟨hposted, hevents⟩ := step_posted b c
  · rw [hsame]
  · have hrun : EventStore.appendAll (c.posts b.db) b.events = (.ok (), (step b c).events) :=
      Prod.ext (EventStore.appendAll_of_accepts h) hevents.symm
    obtain ⟨rows, hlog, hall⟩ := EventStore.appendAll_logged hrun
    have hsum : (step b c).events.charged_cents =
        b.events.charged_cents + (rows.map EventStore.charge_of).sum := by
      unfold EventStore.charged_cents
      rw [hlog, List.map_append, List.sum_append]
    rw [hsum]
    clear hlog hsum hevents hrun
    generalize c.posts b.db = posts at hposted hall
    generalize (step b c).db = db' at hposted
    cases hposted with
    | checked base actor hexpenses =>
        have hsame : (base.evaluate_thresholds_locked actor).2.rounded_cents = b.db.rounded_cents := by
          rw [rounded_cents, evaluate_expenses, hexpenses, rounded_cents]
        rw [charges_of_others hall (evaluate_no_charge base actor), hsame, Int.add_zero]
    | charged base actor expense hexpenses =>
        have hmore : (base.evaluate_thresholds_locked actor).2.rounded_cents =
            b.db.rounded_cents + units_to_cents expense.amount_units := by
          rw [rounded_cents, evaluate_expenses, hexpenses, rounded_cents, List.map_append, List.sum_append]
          simp
        cases hall with
        | cons hlogged hrest =>
            rw [List.map_cons, List.sum_cons, charge_of_logged hlogged,
              charges_of_others hrest (evaluate_no_charge base actor), hmore]
            omega
    | refused _ _ hkinds _ hexpenses =>
        have hothers : ∀ p ∈ posts, p.kind ≠ .EXPENSE_CHARGED := by
          intro p hp
          rw [hkinds p hp]
          decide
        have hsame : db'.rounded_cents = b.db.rounded_cents := by
          rw [rounded_cents, hexpenses, rounded_cents]
        rw [charges_of_others hall hothers, hsame, Int.add_zero]

/-! ## Whole runs -/

theorem charged_cents_exec (events : EventStore) (calls : List Call)
    (h : Along step Taken (fresh events) calls) :
    (exec step (fresh events) calls).events.charged_cents =
      events.charged_cents + (exec step (fresh events) calls).db.rounded_cents := by
  have hstep : ∀ b c, b.events.charged_cents = events.charged_cents + b.db.rounded_cents → Taken b c →
      (step b c).events.charged_cents = events.charged_cents + (step b c).db.rounded_cents := by
    intro b c hb hc
    have hone := charged_cents_step b c hc
    omega
  have hfresh : (fresh events).events.charged_cents =
      events.charged_cents + (fresh events).db.rounded_cents := by
    simp [fresh, BudgetDb.fresh, rounded_cents]
  exact exec_invariant_along hstep hfresh h

/-- **The audit trail.** In every run in which the store takes the events, the sum of `amount_cents` over the
    `EXPENSE_CHARGED` events grows by the sum of the expenses, each rounded to cents. That is within half a cent an
    expense of the total spent, and it is the total spent, rounded once, if every expense is of whole cents. -/
theorem audit_trail (events : EventStore) (calls : List Call) (h : Along step Taken (fresh events) calls) :
    (exec step (fresh events) calls).events.charged_cents =
        events.charged_cents + (exec step (fresh events) calls).db.rounded_cents ∧
      (100 * (exec step (fresh events) calls).db.rounded_cents ≤
          (exec step (fresh events) calls).db.sum_expenses +
            50 * (exec step (fresh events) calls).db.expenses.length ∧
        (exec step (fresh events) calls).db.sum_expenses ≤
          100 * (exec step (fresh events) calls).db.rounded_cents +
            50 * (exec step (fresh events) calls).db.expenses.length) ∧
      ((∀ e ∈ (exec step (fresh events) calls).db.expenses, 100 ∣ e.amount_units) →
        (exec step (fresh events) calls).db.rounded_cents =
          units_to_cents (exec step (fresh events) calls).db.sum_expenses) := by
  refine ⟨charged_cents_exec events calls h, rounded_cents_bounds _, fun hwhole => ?_⟩
  have hexact := rounded_cents_whole hwhole
  unfold units_to_cents
  omega

/-- Charges of 12.50 USD and 0.0050 USD: 1251 cents in the log. -/
theorem audit_trail_two_charges :
    (exec step (fresh .quiet) [.set_total ⟨1000000⟩, .charge none ⟨125000⟩ .LLM "turn" none,
      .charge none ⟨50⟩ .TOOL "probe" none]).events.charged_cents = 1251 := by
  have htrail := (audit_trail .quiet [.set_total ⟨1000000⟩, .charge none ⟨125000⟩ .LLM "turn" none,
    .charge none ⟨50⟩ .TOOL "probe" none] (by decide +kernel)).1
  rw [htrail]
  decide +kernel

/-- Two charges of half a cent: two cents in the log, one cent spent. -/
theorem half_cents_add_up :
    (exec step (fresh .quiet) [.set_total ⟨1000000⟩, .charge none ⟨50⟩ .LLM "turn" none,
        .charge none ⟨50⟩ .LLM "turn" none]).events.charged_cents = 2 ∧
      units_to_cents (exec step (fresh .quiet) [.set_total ⟨1000000⟩, .charge none ⟨50⟩ .LLM "turn" none,
        .charge none ⟨50⟩ .LLM "turn" none]).db.sum_expenses = 1 := by decide +kernel

end Budget

end CompanyFactory
