import CompanyFactory.Cost.Budget
import CompanyFactory.Lib.Escrow
import CompanyFactory.Lib.Run
import Mathlib.Algebra.Order.Group.Nat

/-!
# `Cost.Ledger` — budget safety over whole runs

Three layers:

* **What one call writes.** `Written` lists the outcomes of the five transactions; `written_of_tx` is the
  inversion lemma all later proofs split on.
* **Refinement.** Under `BudgetDb.account` every written outcome is a movement of an `Escrow.Account`
  (`Written.refines`), so usage stays within the total (`budget_safety`).
* **Rows.** A reservation row that has left `OPEN` never returns to it (`Written.closed_stays`).
-/

namespace CompanyFactory

/-- The account that the tables keep. -/
def BudgetDb.account (db : BudgetDb) : Escrow.Account Nat :=
  { cap := db.total_units, spent := db.sum_expenses, held := db.sum_open_reservations }

namespace Budget

open BudgetDb Machine

/-- The state-changing calls on a budget. -/
inductive Call where
  | set_total (amount : Money)
  | charge (agent_id : Option String) (amount : Money) (category : Category) (memo : String)
      (approval_id : Option String)
  | reserve (amount : Money) (ref : String)
  | release (rid : Nat)
  | commit (rid : Nat) (actual_amount : Money)
  deriving DecidableEq, Repr

/-- What a call returns. -/
inductive Reply where
  | none
  | charged (r : ChargeResult)
  | reserved (r : Reservation)
  deriving DecidableEq, Repr

def handle : Call → Act Budget Exn Reply
  | .set_total amount => do
      set_total amount
      pure .none
  | .charge agent_id amount category memo approval_id => do
      let r ← charge agent_id amount category memo approval_id
      pure (.charged r)
  | .reserve amount ref => do
      let r ← reserve amount ref
      pure (.reserved r)
  | .release rid => do
      release rid
      pure .none
  | .commit rid actual_amount => do
      let r ← commit rid actual_amount
      pure (.charged r)

/-- The state after a call, whether it returned or raised. -/
def step (b : Budget) (c : Call) : Budget := (handle c b).2

/-- The transaction of a call. -/
def Call.tx (db : BudgetDb) : Call → Tx Reply
  | .set_total amount => (db.set_total_tx amount).map (Prod.map (fun _ => .none) id)
  | .charge agent_id amount category memo approval_id =>
      (db.charge_tx agent_id amount category memo approval_id).map (Prod.map .charged id)
  | .reserve amount ref => (db.reserve_tx amount ref).map (Prod.map .reserved id)
  | .release rid => (db.release_tx rid).map (Prod.map (fun _ => .none) id)
  | .commit rid actual_amount => (db.commit_tx rid actual_amount).map (Prod.map .charged id)

theorem transact_map {α β : Type} (tx : BudgetDb → Tx α) (f : α → β) :
    (do let a ← transact tx; pure (f a)) = transact (fun db => (tx db).map (Prod.map f id)) := by
  funext b
  rw [Act.bind_run]
  rcases htx : tx b.db with e | ⟨a, post, db⟩
  · have hmap : (tx b.db).map (Prod.map f id) = .error e := by rw [htx]; rfl
    rw [transact_error htx, transact_error hmap]
  · have hmap : (tx b.db).map (Prod.map f id) = .ok (f a, post, db) := by rw [htx]; rfl
    rw [transact_ok htx, transact_ok hmap]
    cases (EventStore.appendAll post b.events).1 <;> rfl

theorem handle_eq_transact (c : Call) : handle c = transact (fun db => c.tx db) := by
  cases c <;> exact transact_map _ _

/-! ## What one call writes -/

/-- The outcomes of the transactions: the call, its reply and the database it commits. -/
inductive Written (db : BudgetDb) : Call → Reply → BudgetDb → Prop
  | capped (amount) : Written db (.set_total amount) .none
      ({ db with total_units := amount.units }.evaluate_thresholds_locked).2
  | charge_refused (agent_id amount category memo approval_id r db') : r.ok = false →
      db.blocked = true ∧ db' = db ∨
        db.blocked = false ∧ db.total_units < db.used + amount.units ∧ db' = db.set_blocked →
      Written db (.charge agent_id amount category memo approval_id) (.charged r) db'
  | charged (agent_id amount category memo approval_id r expense) : r.ok = true →
      db.blocked = false → db.used + amount.units ≤ db.total_units →
      expense.amount_units = amount.units →
      Written db (.charge agent_id amount category memo approval_id) (.charged r)
        ({ db with expenses := db.expenses ++ [expense] }.evaluate_thresholds_locked agent_id).2
  | reserved (amount ref) (r : Reservation) : db.blocked = false → db.used + amount.units ≤ db.total_units →
      r.id = db.reservations.length →
      Written db (.reserve amount ref) (.reserved r)
        ({ db with reservations :=
            db.reservations ++ [ReservationRow.mk amount.units ref .OPEN] }.evaluate_thresholds_locked).2
  | released (rid row) : db.require_open rid = .ok row →
      Written db (.release rid) .none (db.set_status rid row .RELEASED)
  | commit_refused (rid actual row r) : db.require_open rid = .ok row → r.ok = false →
      db.blocked = true ∨
        db.total_units < db.sum_expenses + (db.sum_open_reservations - row.amount_units) +
          actual.units →
      Written db (.commit rid actual) (.charged r) (db.set_status rid row .RELEASED).set_blocked
  | committed (rid actual row r expense) : db.require_open rid = .ok row → r.ok = true →
      db.blocked = false →
      db.sum_expenses + (db.sum_open_reservations - row.amount_units) + actual.units ≤
        db.total_units →
      expense.amount_units = actual.units →
      Written db (.commit rid actual) (.charged r)
        ({ db.set_status rid row .COMMITTED with
            expenses := db.expenses ++ [expense] }.evaluate_thresholds_locked).2

/-- The transaction behind a renamed reply. -/
theorem tx_of_map {α β : Type} {tx : Tx α} {f : α → β} {reply : β} {post : List Post}
    {db : BudgetDb} (h : tx.map (Prod.map f id) = .ok (reply, post, db)) :
    ∃ a, tx = .ok (a, post, db) ∧ f a = reply := by
  rcases tx with e | ⟨a, post', db'⟩
  · simp [Except.map] at h
  · simp only [Except.map, Prod.map, id, Except.ok.injEq, Prod.mk.injEq] at h
    obtain ⟨rfl, rfl, rfl⟩ := h
    exact ⟨a, rfl, rfl⟩

/-- **Inversion.** A transaction that commits is one of the listed outcomes. -/
theorem written_of_tx {db db' : BudgetDb} {c : Call} {reply : Reply} {post : List Post}
    (h : c.tx db = .ok (reply, post, db')) : Written db c reply db' := by
  cases c with
  | set_total amount =>
      obtain ⟨r, htx, rfl⟩ := tx_of_map h
      unfold set_total_tx at htx
      split at htx
      · cases htx
      · cases htx
        exact .capped amount
  | charge agent_id amount category memo approval_id =>
      obtain ⟨r, htx, rfl⟩ := tx_of_map h
      unfold charge_tx at htx
      split at htx
      · rename_i hb
        cases htx
        exact .charge_refused _ _ _ _ _ _ _ rfl (.inl ⟨hb, rfl⟩)
      · rename_i hb
        split at htx
        · rename_i hover
          cases htx
          exact .charge_refused _ _ _ _ _ _ _ rfl (.inr ⟨by simpa using hb, hover, rfl⟩)
        · rename_i hfits
          cases htx
          exact .charged _ _ _ _ _ _ _ rfl (by simpa using hb) (by omega) rfl
  | reserve amount ref =>
      obtain ⟨r, htx, rfl⟩ := tx_of_map h
      unfold reserve_tx at htx
      split at htx
      · cases htx
      · rename_i hfits
        obtain ⟨hb, hle⟩ : db.blocked = false ∧ db.used + amount.units ≤ db.total_units := by
          simpa using hfits
        cases htx
        exact .reserved _ _ _ hb hle rfl
  | release rid =>
      obtain ⟨r, htx, rfl⟩ := tx_of_map h
      unfold release_tx at htx
      split at htx
      · cases htx
      · rename_i row hrow
        cases htx
        exact .released rid row hrow
  | commit rid actual =>
      obtain ⟨r, htx, rfl⟩ := tx_of_map h
      unfold commit_tx at htx
      split at htx
      · cases htx
      · rename_i row hrow
        dsimp only at htx
        split at htx
        · rename_i hover
          cases htx
          exact .commit_refused rid actual row _ hrow rfl (by simpa using hover)
        · rename_i hfits
          obtain ⟨hb, hle⟩ : db.blocked = false ∧ db.sum_expenses +
              (db.sum_open_reservations - row.amount_units) + actual.units ≤ db.total_units := by
            simpa using hfits
          cases htx
          exact .committed rid actual row _ _ hrow rfl hb hle rfl

/-- A call either raises inside its transaction and changes nothing, or commits a listed outcome. -/
theorem step_cases (b : Budget) (c : Call) :
    (∃ e, c.tx b.db = .error e ∧ handle c b = (.error e, b)) ∨
    (∃ reply, Written b.db c reply (step b c).db ∧
      ∀ r, (handle c b).1 = .ok r → r = reply) := by
  rw [step, handle_eq_transact]
  rcases htx : c.tx b.db with e | ⟨reply, post, db⟩
  · exact .inl ⟨e, rfl, transact_error htx⟩
  · refine .inr ⟨reply, ?_, ?_⟩
    · rw [transact_ok htx]
      exact written_of_tx htx
    · intro r hr
      obtain ⟨post', hpost', -⟩ := transact_returns hr
      simp only [htx, Except.ok.injEq, Prod.mk.injEq] at hpost'
      exact hpost'.1.symm

/-! ## Rows -/

theorem require_open_iff {db : BudgetDb} {rid : Nat} {row : ReservationRow} :
    db.require_open rid = .ok row ↔ db.reservations[rid]? = some row ∧ row.status = .OPEN := by
  unfold require_open
  cases hrow : db.reservations[rid]? with
  | none => simp
  | some r =>
      by_cases hopen : r.status = .OPEN
      · simp only [hopen, if_true, Except.ok.injEq, Option.some.injEq, iff_self_and]
        rintro rfl
        exact hopen
      · simp only [hopen, if_false, reduceCtorEq, Option.some.injEq, false_iff, not_and]
        rintro rfl
        exact hopen

/-- Closing a row takes its amount out of the sum of the open reservations. -/
theorem sum_open_close {db : BudgetDb} {rid : Nat} {row : ReservationRow}
    {status : ReservationStatus} (h : db.require_open rid = .ok row)
    (hs : status ≠ .OPEN) :
    db.sum_open_reservations = (db.set_status rid row status).sum_open_reservations +
      row.amount_units := by
  obtain ⟨hrow, hopen⟩ := require_open_iff.mp h
  have hsum := Escrow.sum_map_set ReservationRow.held { row with status } hrow
  have hold : row.held = row.amount_units := by simp [ReservationRow.held, hopen]
  have hnew : ReservationRow.held { row with status } = 0 := by simp [ReservationRow.held, hs]
  rw [hold, hnew, Nat.add_zero] at hsum
  exact hsum.symm

/-- The row is in the table and no longer `OPEN`. -/
def Closed (rid : Nat) (db : BudgetDb) : Prop :=
  ∃ row, db.reservations[rid]? = some row ∧ row.status ≠ .OPEN

theorem is_open_iff {db : BudgetDb} {rid : Nat} :
    db.is_open rid = true ↔ ∃ row, db.require_open rid = .ok row := by
  simp only [require_open_iff, is_open, open_row, Option.isSome_filter, Option.any_eq_true,
    decide_eq_true_eq]

theorem closed_set_status {db : BudgetDb} {rid rid' : Nat} {row : ReservationRow}
    {status : ReservationStatus} (hs : status ≠ .OPEN) (h : Closed rid db) :
    Closed rid (db.set_status rid' row status) := by
  obtain ⟨r, hr, hclosed⟩ := h
  by_cases heq : rid' = rid
  · subst heq
    have hlt : rid' < db.reservations.length := (List.getElem?_eq_some_iff.mp hr).1
    exact ⟨{ row with status }, by simp [set_status, hlt], hs⟩
  · exact ⟨r, by simp [set_status, List.getElem?_set_ne heq, hr], hclosed⟩

/-- **A reservation that has left `OPEN` never returns to it.** -/
theorem Written.closed_stays {db db' : BudgetDb} {c : Call} {reply : Reply} {rid : Nat}
    (h : Written db c reply db') (hclosed : Closed rid db) : Closed rid db' := by
  cases h with
  | capped => exact hclosed
  | charge_refused _ _ _ _ _ _ _ _ hdb =>
      obtain ⟨-, rfl⟩ | ⟨-, -, rfl⟩ := hdb
      · exact hclosed
      · exact hclosed
  | charged => exact hclosed
  | reserved =>
      obtain ⟨r, hr, hne⟩ := hclosed
      exact ⟨r, by simp [List.getElem?_append_left (List.getElem?_eq_some_iff.mp hr).1, hr], hne⟩
  | released => exact closed_set_status (by simp) hclosed
  | commit_refused => exact closed_set_status (by simp) (by exact hclosed)
  | committed => exact closed_set_status (by simp) (by exact hclosed)

/-- Rows are never deleted. -/
theorem Written.rows_stay {db db' : BudgetDb} {c : Call} {reply : Reply}
    (h : Written db c reply db') : db.reservations.length ≤ db'.reservations.length := by
  cases h with
  | capped => exact le_rfl
  | charge_refused _ _ _ _ _ _ _ _ hdb =>
      obtain ⟨-, rfl⟩ | ⟨-, -, rfl⟩ := hdb
      · exact le_rfl
      · exact le_rfl
  | charged => exact le_rfl
  | reserved => simp
  | released => simp [set_status]
  | commit_refused => simp [set_status]
  | committed => simp [set_status]

/-- Is the call a `release` or a `commit` of this reservation? -/
def Call.closes (rid : Nat) : Call → Bool
  | .release r => r == rid
  | .commit r _ => r == rid
  | _ => false

theorem open_set_status {db : BudgetDb} {rid rid' : Nat} {row row' : ReservationRow}
    {status : ReservationStatus} (hne : rid' ≠ rid) (h : db.require_open rid = .ok row) :
    (db.set_status rid' row' status).require_open rid = .ok row := by
  rw [require_open_iff] at h ⊢
  rw [set_status, List.getElem?_set_ne hne]
  exact h

/-- Only its own `release` and `commit` close an open reservation. -/
theorem Written.open_stays {db db' : BudgetDb} {c : Call} {reply : Reply} {rid : Nat}
    {row : ReservationRow} (h : Written db c reply db') (hc : c.closes rid = false)
    (hrow : db.require_open rid = .ok row) : db'.require_open rid = .ok row := by
  cases h with
  | capped => exact hrow
  | charge_refused _ _ _ _ _ _ _ _ hdb =>
      obtain ⟨-, rfl⟩ | ⟨-, -, rfl⟩ := hdb
      · exact hrow
      · exact hrow
  | charged => exact hrow
  | reserved =>
      rw [require_open_iff] at hrow ⊢
      refine ⟨?_, hrow.2⟩
      simpa [List.getElem?_append_left (List.getElem?_eq_some_iff.mp hrow.1).1] using hrow.1
  | released rid' => exact open_set_status (by simpa [Call.closes] using hc) hrow
  | commit_refused rid' => exact open_set_status (by simpa [Call.closes] using hc) hrow
  | committed rid' => exact open_set_status (by simpa [Call.closes] using hc) hrow

theorem open_stays_step (b : Budget) (c : Call) {rid : Nat} {row : ReservationRow}
    (hc : c.closes rid = false) (hrow : b.db.require_open rid = .ok row) :
    (step b c).db.require_open rid = .ok row := by
  obtain ⟨e, -, herr⟩ | ⟨reply, hw, -⟩ := step_cases b c
  · simpa [step, herr] using hrow
  · exact hw.open_stays hc hrow

/-- Does the call take reservation `rid` out of `OPEN`? -/
def leaves_open (rid : Nat) (b : Budget) (c : Call) : Bool :=
  b.db.is_open rid && !(step b c).db.is_open rid

theorem not_open_of_closed {db : BudgetDb} {rid : Nat} (h : Closed rid db) :
    ¬ db.is_open rid = true := by
  rw [is_open_iff]
  rintro ⟨row, hrow⟩
  obtain ⟨row', hrow', hne⟩ := h
  obtain ⟨hget, hopen⟩ := require_open_iff.mp hrow
  obtain rfl : row = row' := by simpa [hget] using hrow'
  exact hne hopen

theorem closed_set_status_self {db : BudgetDb} {rid : Nat} {row : ReservationRow}
    {status : ReservationStatus} (hrow : db.require_open rid = .ok row) (hs : status ≠ .OPEN) :
    Closed rid (db.set_status rid row status) := by
  have hlt := (List.getElem?_eq_some_iff.mp (require_open_iff.mp hrow).1).1
  exact ⟨{ row with status }, by simp [set_status, hlt], hs⟩

/-- After a `release` or a `commit`, whatever its outcome, the reservation is not open. -/
theorem not_open_after {b : Budget} {c : Call} {rid : Nat} (hc : c.closes rid = true) :
    (step b c).db.is_open rid = false := by
  rw [Bool.eq_false_iff]
  obtain ⟨e, htx, herr⟩ | ⟨reply, hw, -⟩ := step_cases b c
  · simp only [step, herr]
    intro hopen
    obtain ⟨row, hrow⟩ := is_open_iff.mp hopen
    cases c with
    | release r =>
        obtain rfl : r = rid := by simpa [Call.closes] using hc
        simp [Call.tx, release_tx, hrow, Except.map] at htx
    | commit r actual =>
        obtain rfl : r = rid := by simpa [Call.closes] using hc
        simp only [Call.tx, commit_tx, hrow] at htx
        split_ifs at htx <;> cases htx
    | set_total | charge | reserve => cases hc
  · apply not_open_of_closed
    generalize (step b c).db = db' at hw
    cases hw with
    | released r row hrow =>
        obtain rfl : r = rid := by simpa [Call.closes] using hc
        exact closed_set_status_self hrow (by simp)
    | commit_refused r _ row _ hrow =>
        obtain rfl : r = rid := by simpa [Call.closes] using hc
        exact closed_set_status_self hrow (by simp)
    | committed r _ row _ _ hrow =>
        obtain rfl : r = rid := by simpa [Call.closes] using hc
        exact closed_set_status_self hrow (by simp)
    | capped | charge_refused | charged | reserved => cases hc

theorem open_of_leaves_open {b : Budget} {c : Call} {rid : Nat}
    (h : leaves_open rid b c = true) : b.db.is_open rid = true := by
  unfold leaves_open at h
  exact (Bool.and_eq_true_iff.mp h).1

theorem closed_of_leaves_open {b : Budget} {c : Call} {rid : Nat}
    (h : leaves_open rid b c = true) : Closed rid (step b c).db := by
  have hshut : (step b c).db.is_open rid = false := by
    simpa using (Bool.and_eq_true_iff.mp h).2
  obtain ⟨row, hrow⟩ := is_open_iff.mp (open_of_leaves_open h)
  have hlt : rid < b.db.reservations.length :=
    (List.getElem?_eq_some_iff.mp (require_open_iff.mp hrow).1).1
  have hlen : b.db.reservations.length ≤ (step b c).db.reservations.length := by
    obtain ⟨e, -, herr⟩ | ⟨reply, hw, -⟩ := step_cases b c
    · simp [step, herr]
    · exact hw.rows_stay
  refine ⟨(step b c).db.reservations.get ⟨rid, by omega⟩, by simp, fun hstatus => ?_⟩
  have : (step b c).db.is_open rid = true :=
    is_open_iff.mpr ⟨_, require_open_iff.mpr ⟨List.getElem?_eq_getElem (by omega), hstatus⟩⟩
  simp [hshut] at this

theorem closed_step (b : Budget) (c : Call) {rid : Nat} (h : Closed rid b.db) :
    Closed rid (step b c).db := by
  obtain ⟨e, -, herr⟩ | ⟨reply, hw, -⟩ := step_cases b c
  · simpa [step, herr] using h
  · exact hw.closed_stays h

/-! ## Refinement of the escrow account -/

theorem sum_expenses_append (db : BudgetDb) (e : Expense) :
    ({ db with expenses := db.expenses ++ [e] } : BudgetDb).sum_expenses =
      db.sum_expenses + e.amount_units := by simp [sum_expenses]

theorem sum_open_append (db : BudgetDb) (row : ReservationRow) :
    ({ db with reservations := db.reservations ++ [row] } : BudgetDb).sum_open_reservations =
      db.sum_open_reservations + row.held := by simp [sum_open_reservations]

/-- A `set_total` that does not lower the total below the usage; any other call. -/
def covers (b : Budget) (c : Call) : Prop := ∀ amount, c = .set_total amount → b.db.used ≤ amount.units

/-- **Every outcome is a movement of the account.** -/
theorem Written.refines {db db' : BudgetDb} {c : Call} {reply : Reply} (h : Written db c reply db')
    (hcap : ∀ amount, c = .set_total amount → db.used ≤ amount.units) :
    Escrow.Step db.account db'.account := by
  cases h with
  | capped amount => exact .recap db.account amount.units (hcap amount rfl)
  | charge_refused _ _ _ _ _ _ _ _ hdb =>
      obtain ⟨-, rfl⟩ | ⟨-, -, rfl⟩ := hdb
      · exact .idle _
      · exact .idle _
  | charged agent_id amount _ _ _ _ expense _ _ hfits hamount =>
      have hstep := Escrow.Step.spend db.account amount.units hfits
      rw [← hamount] at hstep
      convert hstep using 1
      show Escrow.Account.mk _ _ _ = Escrow.Account.mk _ _ _
      congr 1
      exact sum_expenses_append db expense
  | reserved amount ref _ _ hfits _ =>
      have hstep := Escrow.Step.hold db.account amount.units hfits
      convert hstep using 1
      show Escrow.Account.mk _ _ _ = Escrow.Account.mk _ _ _
      congr 1
      exact sum_open_append db _
  | released rid row hrow => exact .drop db.account _ _ (sum_open_close hrow (by simp))
  | commit_refused rid _ row _ hrow => exact .drop db.account _ _ (sum_open_close hrow (by simp))
  | committed rid actual row _ expense hrow _ _ hfits hamount =>
      have hclose : db.sum_open_reservations = (db.set_status rid row
          .COMMITTED).sum_open_reservations + row.amount_units := sum_open_close hrow (by simp)
      have hstep := Escrow.Step.settle db.account _ _ actual.units hclose
        (by show db.sum_expenses + _ + _ ≤ db.total_units; omega)
      rw [← hamount] at hstep
      convert hstep using 1
      show Escrow.Account.mk _ _ _ = Escrow.Account.mk _ _ _
      congr 1
      exact sum_expenses_append (db.set_status rid row .COMMITTED) expense

theorem step_refines (b : Budget) (c : Call) (hcap : covers b c) :
    Escrow.Step b.db.account (step b c).db.account := by
  obtain ⟨e, -, herr⟩ | ⟨reply, hw, -⟩ := step_cases b c
  · simp only [step, herr]
    exact .idle _
  · exact hw.refines hcap

/-- Usage stays within the total, whatever is called. -/
theorem used_le_total {b : Budget} {calls : List Call} (hb : b.db.used ≤ b.db.total_units)
    (hcap : Along step covers b calls) :
    (exec step b calls).db.used ≤ (exec step b calls).db.total_units := by
  have hsafe : ∀ b c, b.db.account.Safe → covers b c → (step b c).db.account.Safe :=
    fun b c h hc => (step_refines b c hc).safe h
  exact exec_invariant_along hsafe hb hcap

/-! ## Budget safety -/

/-- A budget without a total, an expense or a reservation. -/
def fresh (events : EventStore) : Budget := { db := .fresh, events }

/-- The call was refused: it raised `OverBudget`, or returned a result that is not ok. -/
def Refused (b : Budget) (c : Call) : Prop :=
  (∃ message, (handle c b).1 = .error (.overBudget message)) ∨
    ∃ r, (handle c b).1 = .ok (.charged r) ∧ r.ok = false

theorem Written.refused_expenses {db db' : BudgetDb} {c : Call} {r : ChargeResult}
    (h : Written db c (.charged r) db') (hr : r.ok = false) : db'.expenses = db.expenses := by
  cases h with
  | charge_refused _ _ _ _ _ _ _ _ hdb =>
      obtain ⟨-, rfl⟩ | ⟨-, -, rfl⟩ := hdb
      · rfl
      · rfl
  | charged _ _ _ _ _ _ _ hok => simp [hok] at hr
  | commit_refused => rfl
  | committed _ _ _ _ _ _ hok => simp [hok] at hr

theorem handle_error {b : Budget} {c : Call} {e : Exn} (h : (handle c b).1 = .error e) :
    step b c = b ∨ e.isStoreError = true := by
  rw [step]
  rw [handle_eq_transact] at h ⊢
  rcases htx : c.tx b.db with e' | ⟨reply, post, db⟩
  · exact .inl (by rw [transact_error htx])
  · rw [transact_ok htx] at h
    cases happ : (EventStore.appendAll post b.events).1 with
    | ok _ => simp [happ, Except.map] at h
    | error e' =>
        obtain rfl : e' = e := by simpa [happ, Except.map] using h
        exact .inr (EventStore.appendAll_error happ)

/-- A refused call records nothing. -/
theorem refused_expenses {b : Budget} {c : Call} (h : Refused b c) :
    (step b c).db.expenses = b.db.expenses := by
  obtain ⟨message, hexn⟩ | ⟨r, hret, hr⟩ := h
  · obtain heq | hstore := handle_error hexn
    · rw [heq]
    · cases hstore
  · obtain ⟨e, -, herr⟩ | ⟨reply, hw, hreply⟩ := step_cases b c
    · simp [herr] at hret
    · obtain rfl := hreply _ hret
      exact hw.refused_expenses hr

/-- A successful commit records one expense. -/
theorem committed_expense {b : Budget} {rid : Nat} {actual : Money} {r : ChargeResult}
    (h : (commit rid actual b).1 = .ok r) (hr : r.ok = true) :
    ∃ expense, (commit rid actual b).2.db.expenses = b.db.expenses ++ [expense] ∧
      expense.amount_units = actual.units := by
  obtain ⟨post, htx, -⟩ := transact_returns h
  have hmap : Call.tx b.db (.commit rid actual) =
      .ok (.charged r, post, (commit rid actual b).2.db) := by
    rw [Call.tx, htx]
    rfl
  have hw := written_of_tx hmap
  generalize (commit rid actual b).2.db = db' at hw
  cases hw with
  | commit_refused _ _ _ _ _ hno => simp [hr] at hno
  | committed _ _ _ _ expense _ _ _ _ hamount => exact ⟨expense, rfl, hamount⟩

/-- **Budget safety.** After any calls on a new budget: usage is within the total if no `set_total`
    lowered the total below the usage; a refused call records no expense and leaves the spent amount as
    it was; every reservation has left `OPEN` at most once; a successful commit records exactly one
    expense, of the committed amount. -/
theorem budget_safety (events : EventStore) (calls : List Call) :
    (Along step covers (fresh events) calls →
      (exec step (fresh events) calls).db.sum_expenses +
        (exec step (fresh events) calls).db.sum_open_reservations ≤
          (exec step (fresh events) calls).db.total_units) ∧
    (∀ c, Refused (exec step (fresh events) calls) c →
      (step (exec step (fresh events) calls) c).db.expenses =
        (exec step (fresh events) calls).db.expenses ∧
      (step (exec step (fresh events) calls) c).db.sum_expenses =
        (exec step (fresh events) calls).db.sum_expenses) ∧
    (∀ rid, tally step (leaves_open rid) (fresh events) calls ≤ 1) ∧
    (∀ rid actual r, (commit rid actual (exec step (fresh events) calls)).1 = .ok r → r.ok = true →
      ∃ expense, (commit rid actual (exec step (fresh events) calls)).2.db.expenses =
          (exec step (fresh events) calls).db.expenses ++ [expense] ∧
        expense.amount_units = actual.units) := by
  refine ⟨used_le_total le_rfl, fun c hc => ?_, fun rid => ?_, fun rid actual r => committed_expense⟩
  · have h := refused_expenses hc
    exact ⟨h, by rw [sum_expenses, sum_expenses, h]⟩
  · have hall : Along step (fun _ _ => True) (fresh events) calls :=
      along_of_forall (fun _ _ => trivial) calls
    have hstay : ∀ b c, True → Closed rid b.db → Closed rid (step b c).db :=
      fun b c _ h => closed_step b c h
    refine (tally_le_one_of_latch hstay (fun b c _ h hclosed => ?_)
      (fun b c _ h => closed_of_leaves_open h) hall).1
    exact not_open_of_closed hclosed (open_of_leaves_open h)

end Budget

end CompanyFactory
