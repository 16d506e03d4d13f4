import CompanyFactory.Cost.Threshold
import Mathlib.Algebra.BigOperators.Group.List.Basic

/-!
# `Cost.Undo` — what a reservation that is released at once leaves behind

`release` takes the row out of `OPEN` and looks at no threshold, while `reserve` may have moved
`last_warn_pct` and the block flag. The module compares the budget after the pair with the one before.

* **One closed row more.** `with_row n row` puts a closed reservation at position `n`; every transaction
  does the same on both databases, up to the ids behind `n` (`tx_with_row`), so every later run looks the same.
* **The levels.** `Leveled` says which levels a budget can have, and with that a level that the pair has moved
  shows in one later charge (`seen_of_moved`).
* `reserve_release_noop_iff` puts both together: nobody can tell exactly if the reservation crosses no threshold.
-/

namespace CompanyFactory

/-- The place of an element after another one was put in at place `n`. -/
def shift (n i : Nat) : Nat := if i < n then i else i + 1

section Insert

variable {α : Type} {l : List α} {n : Nat} (x : α)

theorem getElem?_shift (i : Nat) : (l.insertIdx n x)[shift n i]? = l[i]? := by
  unfold shift
  split
  · rename_i hlt
    rw [List.getElem?_insertIdx_of_lt hlt]
  · rename_i hge
    rw [List.getElem?_insertIdx_of_gt (by omega), Nat.add_sub_cancel]

theorem insertIdx_append {ys : List α} (h : n ≤ l.length) :
    (l ++ ys).insertIdx n x = l.insertIdx n x ++ ys := by
  induction l generalizing n with
  | nil =>
      obtain rfl : n = 0 := by simpa using h
      rfl
  | cons a l ih =>
      cases n with
      | zero => rfl
      | succ n =>
          rw [List.cons_append, List.insertIdx_succ_cons, List.insertIdx_succ_cons, List.cons_append,
            ih (by simpa using h)]

theorem insertIdx_set (i : Nat) (y : α) :
    (l.insertIdx n x).set (shift n i) y = (l.set i y).insertIdx n x := by
  induction l generalizing n i with
  | nil =>
      cases n with
      | zero => simp [shift]
      | succ n => simp
  | cons a l ih =>
      cases n with
      | zero => simp [shift]
      | succ n =>
          cases i with
          | zero => simp [shift]
          | succ i =>
              have hshift : shift (n + 1) (i + 1) = shift n i + 1 := by
                unfold shift
                split_ifs <;> omega
              rw [hshift, List.insertIdx_succ_cons, List.set_cons_succ, List.set_cons_succ,
                List.insertIdx_succ_cons, ih]

end Insert

namespace BudgetDb

/-! ## One closed row more -/

/-- The same tables with one more reservation, at position `n`. -/
def with_row (n : Nat) (row : ReservationRow) (db : BudgetDb) : BudgetDb :=
  { db with reservations := db.reservations.insertIdx n row }

/-- The two exceptions that name a reservation. -/
def shiftedExn (n : Nat) : Exn → Exn
  | .unknownReservation rid => .unknownReservation (shift n rid)
  | .reservationAlreadyClosed rid => .reservationAlreadyClosed (shift n rid)
  | e => e

section WithRow

variable {n : Nat} {row : ReservationRow} {db : BudgetDb}

@[simp] theorem with_row_expenses : (db.with_row n row).expenses = db.expenses := rfl

@[simp] theorem with_row_blocked : (db.with_row n row).blocked = db.blocked := rfl

@[simp] theorem with_row_total_units : (db.with_row n row).total_units = db.total_units := rfl

@[simp] theorem with_row_last_warn_pct : (db.with_row n row).last_warn_pct = db.last_warn_pct := rfl

@[simp] theorem with_row_sum_expenses : (db.with_row n row).sum_expenses = db.sum_expenses := rfl

/-- A closed row holds nothing. -/
theorem with_row_sum_open (hrow : row.status ≠ .OPEN) (hn : n ≤ db.reservations.length) :
    (db.with_row n row).sum_open_reservations = db.sum_open_reservations := by
  have hperm := ((List.perm_insertIdx row db.reservations hn).map ReservationRow.held).sum_eq
  have hheld : row.held = 0 := by simp [ReservationRow.held, hrow]
  rw [List.map_cons, List.sum_cons, hheld, Nat.zero_add] at hperm
  exact hperm

theorem with_row_used (hrow : row.status ≠ .OPEN) (hn : n ≤ db.reservations.length) :
    (db.with_row n row).used = db.used := by
  rw [used, with_row_sum_open hrow hn, with_row_sum_expenses, used]

theorem with_row_reached (hrow : row.status ≠ .OPEN) (hn : n ≤ db.reservations.length) (pct : Nat) :
    (db.with_row n row).reached pct = db.reached pct := by
  rw [reached, with_row_used hrow hn, with_row_total_units, reached]

theorem with_row_evaluate (hrow : row.status ≠ .OPEN) (hn : n ≤ db.reservations.length)
    (actor : Option String) :
    (db.with_row n row).evaluate_thresholds_locked actor =
      ((db.evaluate_thresholds_locked actor).1,
        (db.evaluate_thresholds_locked actor).2.with_row n row) := by
  simp only [evaluate_thresholds_locked, with_row_reached hrow hn, blocked_post, warning_post,
    with_row_used hrow hn, with_row_blocked, with_row_last_warn_pct, with_row_total_units]
  rfl

theorem with_row_require_open (rid : Nat) :
    (db.with_row n row).require_open (shift n rid) = (db.require_open rid).mapError (shiftedExn n) := by
  have hget : (db.with_row n row).reservations[shift n rid]? = db.reservations[rid]? :=
    getElem?_shift row rid
  unfold require_open
  rw [hget]
  cases db.reservations[rid]? with
  | none => rfl
  | some r =>
      dsimp only
      split_ifs <;> rfl

theorem with_row_set_status (rid : Nat) (r : ReservationRow) (status : ReservationStatus) :
    (db.with_row n row).set_status (shift n rid) r status =
      (db.set_status rid r status).with_row n row := by
  simp only [set_status, with_row, insertIdx_set]

end WithRow

end BudgetDb

namespace Budget

open BudgetDb Machine

/-- The call with the ids that the reservations have once another one was granted as number `n`. -/
def Call.shifted (n : Nat) : Call → Call
  | .release rid => .release (shift n rid)
  | .commit rid actual_amount => .commit (shift n rid) actual_amount
  | c => c

def Reply.shifted (n : Nat) : Reply → Reply
  | .reserved r => .reserved { r with id := shift n r.id }
  | reply => reply

/-- The same result of a transaction, with one closed row more. -/
def Tx.shifted (n : Nat) (row : ReservationRow) : Tx Reply → Tx Reply
  | .error e => .error (shiftedExn n e)
  | .ok (reply, post, db) => .ok (reply.shifted n, post, db.with_row n row)

section Simulation

variable {n : Nat} {row : ReservationRow} {db : BudgetDb}

/-- **Simulation.** With one closed row more every transaction does the same. -/
theorem tx_with_row (hrow : row.status ≠ .OPEN) (hn : n ≤ db.reservations.length) (c : Call) :
    (c.shifted n).tx (db.with_row n row) = Tx.shifted n row (c.tx db) := by
  cases c with
  | set_total amount =>
      have hcap : { db.with_row n row with total_units := amount.units } =
          ({ db with total_units := amount.units } : BudgetDb).with_row n row := rfl
      simp only [Call.shifted, Call.tx, set_total_tx, hcap]
      rw [with_row_evaluate hrow (by exact hn)]
      split_ifs <;> rfl
  | charge agent_id amount category memo approval_id =>
      have hev (e : Expense) := @with_row_evaluate n row { db with expenses := db.expenses ++ [e] }
        hrow (by exact hn) agent_id
      simp only [with_row] at hev
      simp only [Call.shifted, Call.tx, charge_tx, with_row_used hrow hn]
      simp only [with_row, hev]
      split_ifs <;> rfl
  | reserve amount ref =>
      have hlen : (db.with_row n row).reservations.length = shift n db.reservations.length := by
        rw [shift, if_neg (by omega)]
        exact List.length_insertIdx_of_le_length hn row
      have hev (r : ReservationRow) := @with_row_evaluate n row
        { db with reservations := db.reservations ++ [r] } hrow (by simp; omega) none
      simp only [with_row, insertIdx_append row hn] at hev
      simp only [Call.shifted, Call.tx, reserve_tx, with_row_used hrow hn, with_row_sum_open hrow hn, hlen,
        with_row_blocked, with_row_total_units, with_row_sum_expenses]
      simp only [with_row, hev]
      by_cases hrefused : (db.blocked || decide (db.total_units < db.used + amount.units)) = true
      · rw [if_pos hrefused, if_pos hrefused]
        rfl
      · rw [if_neg hrefused, if_neg hrefused]
        rfl
  | release rid =>
      simp only [Call.shifted, Call.tx, release_tx, with_row_require_open]
      cases db.require_open rid with
      | error e => rfl
      | ok r =>
          show Except.map _ (Except.ok _) = _
          rw [with_row_set_status]
          rfl
  | commit rid actual =>
      simp only [Call.shifted, Call.tx, commit_tx, with_row_require_open]
      cases db.require_open rid with
      | error e => rfl
      | ok r =>
          have hev (e : Expense) := @with_row_evaluate n row
            { db.set_status rid r .COMMITTED with
                expenses := (db.set_status rid r .COMMITTED).expenses ++ [e] }
            hrow (by simpa [set_status] using hn) none
          simp only [with_row] at hev
          simp only [Except.mapError, with_row_set_status, with_row_sum_open hrow hn, with_row_blocked,
            with_row_total_units, with_row_sum_expenses]
          simp only [with_row, hev]
          split_ifs <;> rfl

end Simulation

/-! ## What a caller sees -/

/-- The events of the two thresholds. -/
def signals (post : List Post) : List Post :=
  post.filter (fun p => p.kind == .BUDGET_WARNING || p.kind == .BUDGET_BLOCKED)

/-- The threshold events that a call raises. -/
def raised (db : BudgetDb) (c : Call) : List Post :=
  match c.tx db with
  | .error _ => []
  | .ok (_, post, _) => signals post

/-- The result of every call of a run, with the threshold events it raises. -/
def outcomes (b : Budget) : List Call → List (Except Exn Reply × List Post)
  | [] => []
  | c :: calls => ((handle c b).1, raised b.db c) :: outcomes (step b c) calls

/-- The same outcome, with the ids behind `n` renamed. -/
def shiftedOutcome (n : Nat) (o : Except Exn Reply × List Post) : Except Exn Reply × List Post :=
  ((o.1.mapError (shiftedExn n)).map (Reply.shifted n), o.2)

/-- **Nobody can tell.** On `b'`, where one reservation more was granted as number `n`, every later sequence of
    charges, reservations, commits and releases has the outcomes it has on `b`. -/
def SameLater (n : Nat) (b b' : Budget) : Prop :=
  ∀ calls : List Call, (∀ c ∈ calls, c.recaps = false) →
    outcomes b' (calls.map (Call.shifted n)) = (outcomes b calls).map (shiftedOutcome n)

/-- The same budget with one closed reservation more. -/
def with_row (n : Nat) (row : ReservationRow) (b : Budget) : Budget := { b with db := b.db.with_row n row }

/-- An error of the store names no reservation. -/
theorem shiftedExn_store {n : Nat} {e : Exn} (h : e.isStoreError = true) : shiftedExn n e = e := by
  cases e <;> first | rfl | cases h

section WithRow

variable {n : Nat} {row : ReservationRow} {b : Budget}

/-- One call on both budgets. -/
theorem handle_with_row (hrow : row.status ≠ .OPEN) (hn : n ≤ b.db.reservations.length) (c : Call) :
    handle (c.shifted n) (b.with_row n row) =
      (((handle c b).1.mapError (shiftedExn n)).map (Reply.shifted n), (step b c).with_row n row) := by
  have htx : (c.shifted n).tx (b.with_row n row).db = _ := tx_with_row hrow hn c
  rcases hc : c.tx b.db with e | ⟨reply, post, db⟩
  · rw [hc] at htx
    have hcall : handle c b = (.error e, b) := by
      rw [handle_eq_transact]
      exact transact_error hc
    rw [step, hcall, handle_eq_transact]
    exact transact_error htx
  · rw [hc] at htx
    have hcall : handle c b = ((EventStore.appendAll post b.events).1.map (fun _ => reply),
        { db, events := (EventStore.appendAll post b.events).2 }) := by
      rw [handle_eq_transact]
      exact transact_ok hc
    rw [step, hcall, handle_eq_transact, transact_ok htx]
    -- both hand the same events to the same store, so both end in the same way
    show ((EventStore.appendAll post b.events).1.map (fun _ => reply.shifted n), _) = _
    cases happ : (EventStore.appendAll post b.events).1 with
    | ok _ => rfl
    | error e =>
        have hexn : shiftedExn n e = e := shiftedExn_store (EventStore.appendAll_error happ)
        show (Except.error e, _) = (Except.error (shiftedExn n e), _)
        rw [hexn]
        rfl

theorem raised_with_row (hrow : row.status ≠ .OPEN) (hn : n ≤ b.db.reservations.length) (c : Call) :
    raised (b.with_row n row).db (c.shifted n) = raised b.db c := by
  have htx : (c.shifted n).tx (b.with_row n row).db = _ := tx_with_row hrow hn c
  rw [raised, htx, raised]
  rcases c.tx b.db with e | ⟨reply, post, db⟩ <;> rfl

theorem rows_step (hn : n ≤ b.db.reservations.length) (c : Call) :
    n ≤ (step b c).db.reservations.length := by
  obtain ⟨e, -, herr⟩ | ⟨reply, hw, -⟩ := step_cases b c
  · simpa [step, herr] using hn
  · exact hn.trans hw.rows_stay

/-- **A closed reservation more changes nothing**, over any later run. -/
theorem outcomes_with_row (hrow : row.status ≠ .OPEN) (calls : List Call) :
    ∀ {b : Budget}, n ≤ b.db.reservations.length →
      outcomes (b.with_row n row) (calls.map (Call.shifted n)) =
        (outcomes b calls).map (shiftedOutcome n) := by
  induction calls with
  | nil => intro b _; rfl
  | cons c calls ih =>
      intro b hn
      have hstep : step (b.with_row n row) (c.shifted n) = (step b c).with_row n row := by
        rw [step, handle_with_row hrow hn]
      rw [List.map_cons, outcomes, handle_with_row hrow hn, raised_with_row hrow hn, hstep,
        ih (rows_step hn c)]
      rfl

end WithRow

/-! ## The levels -/

/-- What holds of the recorded level in every reachable budget. -/
structure Leveled (db : BudgetDb) : Prop where
  synced : Synced db
  level : db.last_warn_pct = 0 ∨ db.last_warn_pct = WARNING_PCT ∨ db.last_warn_pct = BLOCKED_PCT
  /-- below a total of 5 units no usage reaches the warning without filling the total -/
  wide : db.last_warn_pct = WARNING_PCT → 5 ≤ db.total_units
  full : db.reached BLOCKED_PCT = true → db.blocked = true

theorem Leveled.set_blocked (db : BudgetDb) : Leveled db.set_blocked :=
  { synced := synced_set_blocked db
    level := .inr (.inr rfl)
    wide := fun h => absurd h (by simp [BudgetDb.set_blocked, BLOCKED_PCT, WARNING_PCT])
    full := fun _ => rfl }

/-- A warning that does not fill the total takes a total of 5 units. -/
theorem five_le {db : BudgetDb} (hw : db.reached WARNING_PCT = true) (hb : db.reached BLOCKED_PCT = false) :
    5 ≤ db.total_units := by
  have hfull : ¬ (0 < db.total_units ∧ db.total_units ≤ db.used) := by
    rw [← reached_blocked_iff, hb]
    exact Bool.false_ne_true
  obtain ⟨hpos, hle⟩ := reached_iff.mp hw
  rw [WARNING_PCT] at hle
  omega

/-- A threshold check brings the level in order, from any level. -/
theorem Leveled.evaluate {db : BudgetDb} (hs : Synced db)
    (hlevel : db.last_warn_pct = 0 ∨ db.last_warn_pct = WARNING_PCT ∨ db.last_warn_pct = BLOCKED_PCT)
    (actor : Option String) : Leveled (db.evaluate_thresholds_locked actor).2 := by
  have hreached (pct : Nat) : (db.evaluate_thresholds_locked actor).2.reached pct = db.reached pct := rfl
  refine ⟨evaluate_synced hs actor, ?_, ?_, fun h => ?_⟩
  · rw [evaluate_last]
    split_ifs
    · exact .inl rfl
    · exact .inr (.inl rfl)
    · exact .inr (.inr rfl)
    · exact .inr (.inl rfl)
    · exact hlevel
  · rw [evaluate_last, evaluate_total_units]
    cases hw : db.reached WARNING_PCT with
    | false =>
        cases hb : db.reached BLOCKED_PCT with
        | true => simp [reached_mono hb] at hw
        | false =>
            intro h
            obtain h0 | h1 | h2 := hlevel <;> simp [*, WARNING_PCT, BLOCKED_PCT] at h
    | true =>
        cases hb : db.reached BLOCKED_PCT with
        | false => exact fun _ => five_le hw hb
        | true =>
            intro h
            obtain h0 | h1 | h2 := hlevel <;> simp [*, WARNING_PCT, BLOCKED_PCT] at h
  · rw [evaluate_blocked hs]
    exact hreached BLOCKED_PCT ▸ h

theorem Written.leveled {db db' : BudgetDb} {c : Call} {reply : Reply} (h : Written db c reply db')
    (hl : Leveled db) : Leveled db' := by
  -- a closed reservation only lowers the usage
  have hclose {rid : Nat} {row : ReservationRow} (hrow : db.require_open rid = .ok row) :
      Leveled (db.set_status rid row .RELEASED) := by
    refine ⟨hl.synced, hl.level, hl.wide, fun hfull => hl.full ?_⟩
    have hsum := @sum_open_close _ _ _ .RELEASED hrow (by simp)
    rw [reached_blocked_iff] at hfull ⊢
    have hspent : (db.set_status rid row .RELEASED).sum_expenses = db.sum_expenses := rfl
    have htotal : (db.set_status rid row .RELEASED).total_units = db.total_units := rfl
    unfold used at hfull ⊢
    omega
  cases h with
  | capped => exact Leveled.evaluate (by exact hl.synced) (by exact hl.level) none
  | charge_refused _ _ _ _ _ _ _ _ hdb =>
      obtain ⟨-, rfl⟩ | ⟨-, -, rfl⟩ := hdb
      · exact hl
      · exact Leveled.set_blocked db
  | charged agent_id => exact Leveled.evaluate (by exact hl.synced) (by exact hl.level) agent_id
  | reserved => exact Leveled.evaluate (by exact hl.synced) (by exact hl.level) none
  | released _ _ hrow => exact hclose hrow
  | commit_refused => exact Leveled.set_blocked _
  | committed => exact Leveled.evaluate (by exact hl.synced) (by exact hl.level) none

theorem leveled_step (b : Budget) (c : Call) (hl : Leveled b.db) : Leveled (step b c).db := by
  obtain ⟨e, -, herr⟩ | ⟨reply, hw, -⟩ := step_cases b c
  · simpa [step, herr] using hl
  · exact hw.leveled hl

theorem leveled_fresh : Leveled BudgetDb.fresh :=
  { synced := ⟨by decide, by decide⟩, level := .inl rfl, wide := by decide, full := by decide }

theorem leveled_exec (events : EventStore) (calls : List Call) :
    Leveled (exec step (fresh events) calls).db := exec_invariant leveled_step leveled_fresh calls

/-! ## The pair -/

/-- **Crossing nothing.** With the reservation the usage stays below the total, and it reaches the warning
    percentage exactly if the recorded level already says so. -/
def CrossesNothing (db : BudgetDb) (amount : Money) : Prop :=
  ¬ (0 < db.total_units ∧ db.total_units ≤ db.used + amount.units) ∧
    (WARNING_PCT ≤ db.last_warn_pct ↔
      0 < db.total_units ∧ WARNING_PCT * db.total_units ≤ 100 * (db.used + amount.units))

/-- The budget after a granted reservation and its release. -/
def undone (b : Budget) (amount : Money) (ref : String) : Budget :=
  step (step b (.reserve amount ref)) (.release b.db.reservations.length)

section Pair

variable {b : Budget} {amount : Money} {ref : String}

theorem step_reserve (h : b.db.grants amount = true) :
    step b (.reserve amount ref) =
      { db := (b.db.reserved amount ref).2
        events := (EventStore.appendAll (b.db.reserved amount ref).1 b.events).2 } := by
  have htx : Call.tx b.db (.reserve amount ref) = .ok (.reserved
      { id := b.db.reservations.length, amount, ref, status := .OPEN },
      (b.db.reserved amount ref).1, (b.db.reserved amount ref).2) := by
    rw [Call.tx, reserve_granted ref h]
    rfl
  rw [step, handle_eq_transact, transact_ok htx]

/-- What the pair leaves behind: the row, now `RELEASED`, and the levels that the reservation moved. -/
theorem undone_eq (h : b.db.grants amount = true) :
    undone b amount ref =
      { db := { (b.db.reserved amount ref).2 with
          reservations := b.db.reservations ++ [⟨amount.units, ref, .RELEASED⟩] }
        events := (EventStore.appendAll (b.db.reserved amount ref).1 b.events).2 } := by
  have hrow : (b.db.reserved amount ref).2.require_open b.db.reservations.length =
      .ok ⟨amount.units, ref, .OPEN⟩ := by
    rw [require_open_iff]
    exact ⟨by simp [reserved], rfl⟩
  have hset : (b.db.reserved amount ref).2.set_status b.db.reservations.length ⟨amount.units, ref, .OPEN⟩
      .RELEASED = { (b.db.reserved amount ref).2 with
        reservations := b.db.reservations ++ [⟨amount.units, ref, .RELEASED⟩] } := by
    simp [set_status, reserved]
  have htx : Call.tx (b.db.reserved amount ref).2 (.release b.db.reservations.length) =
      .ok (.none, [], (b.db.reserved amount ref).2.set_status b.db.reservations.length
        ⟨amount.units, ref, .OPEN⟩ .RELEASED) := by
    simp only [Call.tx, release_tx, hrow]
    rfl
  rw [undone, step_reserve h, step, handle_eq_transact, transact_ok htx, hset]
  rfl

/-- The usage with the reservation, as the threshold check sees it. -/
theorem reached_reserved (db : BudgetDb) (amount : Money) (ref : String) (pct : Nat) :
    ({ db with reservations := db.reservations ++ [ReservationRow.mk amount.units ref .OPEN] } :
      BudgetDb).reached pct = true ↔
        0 < db.total_units ∧ pct * db.total_units ≤ 100 * (db.used + amount.units) := by
  rw [reached_iff, used_reserve]

/-- A check that finds the levels as they are recorded changes nothing. -/
theorem evaluate_idle {db : BudgetDb} (hfull : db.reached BLOCKED_PCT = false)
    (hwarn : WARNING_PCT ≤ db.last_warn_pct ↔ db.reached WARNING_PCT = true) (hb : db.blocked = false)
    (hlast : db.last_warn_pct < BLOCKED_PCT) : db.evaluate_thresholds_locked none = ([], db) := by
  unfold evaluate_thresholds_locked
  rw [hfull]
  have hbelow : ¬ BLOCKED_PCT ≤ db.last_warn_pct := Nat.not_le.mpr hlast
  cases hw : db.reached WARNING_PCT with
  | true =>
      have hnot : ¬ db.last_warn_pct < WARNING_PCT := Nat.not_lt.mpr (hwarn.mpr hw)
      simp [hb, hbelow, hnot]
      rw [← hb]
  | false =>
      have hnot : ¬ WARNING_PCT ≤ db.last_warn_pct := fun hle => by simp [hw] at hwarn; omega
      simp [hb, hbelow, hnot]
      rw [← hb]

theorem not_blocked_of_grants {db : BudgetDb} (h : db.grants amount = true) :
    db.blocked = false ∧ db.used + amount.units ≤ db.total_units := by
  simpa [grants] using h

theorem last_lt {db : BudgetDb} (hl : Leveled db) (hb : db.blocked = false) :
    db.last_warn_pct < BLOCKED_PCT := by
  refine Nat.lt_of_le_of_ne hl.synced.1 fun heq => ?_
  simp [hl.synced.2.mpr heq] at hb

/-- A reservation that crosses nothing writes its row and no event. -/
theorem reserved_quiet (hl : Leveled b.db) (hb : b.db.blocked = false) (h : CrossesNothing b.db amount) :
    b.db.reserved amount ref =
      ([], { b.db with reservations := b.db.reservations ++ [⟨amount.units, ref, .OPEN⟩] }) := by
  have hlast := last_lt hl hb
  refine evaluate_idle ?_ (h.2.trans (reached_reserved b.db amount ref _).symm) hb (by exact hlast)
  rw [Bool.eq_false_iff]
  intro hfull
  obtain ⟨hpos, hle⟩ := (reached_reserved b.db amount ref _).mp hfull
  rw [BLOCKED_PCT] at hle
  exact h.1 ⟨hpos, by omega⟩

theorem undone_with_row (hl : Leveled b.db) (hg : b.db.grants amount = true)
    (h : CrossesNothing b.db amount) :
    undone b amount ref = b.with_row b.db.reservations.length ⟨amount.units, ref, .RELEASED⟩ := by
  have hb := (not_blocked_of_grants hg).1
  rw [undone_eq hg, reserved_quiet hl hb h, with_row, BudgetDb.with_row, List.insertIdx_length_self]
  rfl

/-! ## A moved level shows -/

/-- A charge of this many units. -/
def probe (units : Nat) : Call := .charge none ⟨units⟩ .OTHER "" none

theorem SameLater.raised {n : Nat} {b b' : Budget} (h : SameLater n b b') (units : Nat) :
    raised b'.db (probe units) = Budget.raised b.db (probe units) := by
  have hsame := h [probe units] (by simp [probe, Call.recaps])
  exact congrArg Prod.snd (List.cons.inj hsame).1

/-- What a granted charge raises. -/
theorem raised_probe {db : BudgetDb} {units : Nat} (hb : db.blocked = false)
    (hfits : db.used + units ≤ db.total_units) :
    ∃ e : Expense, e.amount_units = units ∧ raised db (probe units) = signals
      (({ db with expenses := db.expenses ++ [e] } : BudgetDb).evaluate_thresholds_locked none).1 := by
  have hif : ¬ db.total_units < db.used + units := Nat.not_lt.mpr hfits
  refine ⟨⟨db.expenses.length, none, units, .OTHER, "", none⟩, rfl, ?_⟩
  simp only [Budget.raised, probe, Call.tx, charge_tx, hb, hif, if_false, Bool.false_eq_true]
  rfl

/-- **The warning level shows**: a charge into the warning zone raises a warning exactly if the level does not
    record one yet. -/
theorem raised_warning {db : BudgetDb} {units : Nat} (hb : db.blocked = false)
    (hbelow : db.used + units < db.total_units)
    (hwarn : WARNING_PCT * db.total_units ≤ 100 * (db.used + units)) :
    raised db (probe units) = [] ↔ WARNING_PCT ≤ db.last_warn_pct := by
  obtain ⟨e, he, hraised⟩ := raised_probe hb hbelow.le
  have hused := used_charge db e
  rw [he] at hused
  have hfull : ({ db with expenses := db.expenses ++ [e] } : BudgetDb).reached BLOCKED_PCT = false := by
    rw [Bool.eq_false_iff]
    intro hfull
    have hle := (reached_blocked_iff.mp hfull).2
    rw [hused] at hle
    exact absurd hle (Nat.not_le.mpr hbelow)
  have hyes : ({ db with expenses := db.expenses ++ [e] } : BudgetDb).reached WARNING_PCT = true := by
    rw [reached_iff, hused]
    exact ⟨by show 0 < db.total_units; omega, hwarn⟩
  rw [hraised, evaluate_thresholds_locked, hfull, hyes]
  by_cases hle : WARNING_PCT ≤ db.last_warn_pct
  · simp [hle, Nat.not_lt.mpr hle, signals]
  · simp [hle, Nat.lt_of_not_le hle, signals, warning_post]

/-- **The block flag shows**: a charge of nothing raises a blocked event exactly if the flag is set. -/
theorem raised_blocked {db : BudgetDb} (hl : Leveled db) (hle : db.used ≤ db.total_units) :
    (∃ p ∈ raised db (probe 0), p.kind = .BUDGET_BLOCKED) ↔ db.blocked = true := by
  cases hb : db.blocked with
  | true =>
      refine ⟨fun _ => rfl, fun _ => ⟨db.blocked_post 0 db.sum_expenses none, ?_, rfl⟩⟩
      simp [Budget.raised, probe, Call.tx, charge_tx, hb, Except.map, signals, blocked_post]
  | false =>
      obtain ⟨e, he, hraised⟩ := @raised_probe db 0 hb hle
      have hused := used_charge db e
      rw [he] at hused
      have hsame : ({ db with expenses := db.expenses ++ [e] } : BudgetDb).reached BLOCKED_PCT =
          db.reached BLOCKED_PCT := by
        rw [reached, hused, Nat.add_zero]
        rfl
      have hfull : db.reached BLOCKED_PCT = false := by
        rw [Bool.eq_false_iff]
        intro hfull
        simp [hl.full hfull] at hb
      constructor
      · rintro ⟨p, hp, hkind⟩
        rw [hraised, evaluate_thresholds_locked, hsame, hfull] at hp
        simp only [signals, Bool.false_and, Bool.false_eq_true, if_false] at hp
        split_ifs at hp <;> simp [warning_post] at hp
        subst hp
        cases hkind
      · intro h
        simp at h

/-- Below the total, a check records the warning exactly if the usage has reached it. -/
theorem evaluate_warned {db : BudgetDb} (hfull : db.reached BLOCKED_PCT = false)
    (hlast : db.last_warn_pct < BLOCKED_PCT) :
    WARNING_PCT ≤ (db.evaluate_thresholds_locked none).2.last_warn_pct ↔ db.reached WARNING_PCT = true := by
  have hbelow : ¬ BLOCKED_PCT ≤ db.last_warn_pct := Nat.not_le.mpr hlast
  rw [evaluate_last, hfull]
  cases db.reached WARNING_PCT with
  | true =>
      simp only [Bool.true_eq_false, false_and, hbelow, and_false, Bool.false_eq_true, true_and, if_false,
        iff_true]
      split_ifs <;> omega
  | false =>
      simp only [hbelow, true_and, and_false, Bool.false_eq_true, false_and, if_false, iff_false]
      split_ifs
      · decide
      · assumption

/-- The levels after the pair are those that the reservation left. -/
theorem undone_levels (hl : Leveled b.db) (hg : b.db.grants amount = true) :
    ((undone b amount ref).db.blocked = true ↔
      0 < b.db.total_units ∧ b.db.total_units ≤ b.db.used + amount.units) ∧
    (¬ (0 < b.db.total_units ∧ b.db.total_units ≤ b.db.used + amount.units) →
      (WARNING_PCT ≤ (undone b amount ref).db.last_warn_pct ↔
        0 < b.db.total_units ∧ WARNING_PCT * b.db.total_units ≤ 100 * (b.db.used + amount.units))) := by
  have hb := (not_blocked_of_grants hg).1
  have hfull := reached_reserved b.db amount ref BLOCKED_PCT
  have hwarn := reached_reserved b.db amount ref WARNING_PCT
  have hhundred : BLOCKED_PCT * b.db.total_units ≤ 100 * (b.db.used + amount.units) ↔
      b.db.total_units ≤ b.db.used + amount.units := by
    rw [BLOCKED_PCT]
    omega
  rw [hhundred] at hfull
  rw [undone_eq hg]
  constructor
  · show (b.db.reserved amount ref).2.blocked = true ↔ _
    rw [reserved, evaluate_blocked (by exact hl.synced), hfull]
  · intro hno
    have hlast := last_lt hl hb
    exact (evaluate_warned (Bool.eq_false_iff.mpr (mt hfull.mp hno)) (by exact hlast)).trans hwarn

theorem undone_used (hg : b.db.grants amount = true) :
    (undone b amount ref).db.used = b.db.used ∧
      (undone b amount ref).db.total_units = b.db.total_units := by
  have hsum : (undone b amount ref).db.sum_open_reservations = b.db.sum_open_reservations := by
    rw [undone_eq hg]
    simp [sum_open_reservations]
  have hspent : (undone b amount ref).db.sum_expenses = b.db.sum_expenses := by
    rw [undone_eq hg]
    rfl
  rw [used, hsum, hspent, undone_eq hg]
  exact ⟨rfl, rfl⟩

/-- A reservation that crosses something is seen by a later charge. -/
theorem seen_of_moved (hl : Leveled b.db) (hg : b.db.grants amount = true)
    (h : ¬ CrossesNothing b.db amount) :
    ¬ SameLater b.db.reservations.length b (undone b amount ref) := by
  intro hsame
  obtain ⟨hb, hfits⟩ := not_blocked_of_grants hg
  obtain ⟨hused, htotal⟩ := @undone_used b amount ref hg
  obtain ⟨hblocked, hlevel⟩ := @undone_levels b amount ref hl hg
  have hl' : Leveled (undone b amount ref).db := leveled_step _ _ (leveled_step _ _ hl)
  have hle : b.db.used ≤ b.db.total_units := by omega
  by_cases hfull : 0 < b.db.total_units ∧ b.db.total_units ≤ b.db.used + amount.units
  · -- blocked by the pair: a charge of nothing is refused afterwards only
    have hseen := raised_blocked hl' (by rw [hused, htotal]; exact hle)
    rw [hsame.raised 0, raised_blocked hl hle, hb, hblocked] at hseen
    exact Bool.false_ne_true (hseen.mpr hfull)
  · -- otherwise the recorded warning level moved: some charge into the warning zone tells
    have hb' : (undone b amount ref).db.blocked = false := by
      rw [Bool.eq_false_iff]
      exact mt hblocked.mp hfull
    have hmoved : ¬ (WARNING_PCT ≤ b.db.last_warn_pct ↔
        WARNING_PCT ≤ (undone b amount ref).db.last_warn_pct) := fun hiff =>
      h ⟨hfull, hiff.trans (hlevel hfull)⟩
    have htell (units : Nat) (hbelow : b.db.used + units < b.db.total_units)
        (hzone : WARNING_PCT * b.db.total_units ≤ 100 * (b.db.used + units)) : False := by
      have hbefore := raised_warning hb hbelow hzone
      have hafter := @raised_warning _ units hb' (by rw [hused, htotal]; exact hbelow)
        (by rw [hused, htotal]; exact hzone)
      rw [hsame.raised units] at hafter
      exact hmoved (hbefore.symm.trans hafter)
    by_cases hwarn : 0 < b.db.total_units ∧ WARNING_PCT * b.db.total_units ≤ 100 * (b.db.used + amount.units)
    · exact htell amount.units (by omega) hwarn.2
    · -- the stale level of 80 percent is gone: the least charge that reaches the warning
      have hrecorded : b.db.last_warn_pct = WARNING_PCT := by
        have hyes : WARNING_PCT ≤ b.db.last_warn_pct := by
          by_contra hno
          exact hmoved ⟨fun hle => absurd hle hno, fun hle => absurd ((hlevel hfull).mp hle) hwarn⟩
        have hlt := last_lt hl hb
        obtain h0 | h1 | h2 := hl.level
        · rw [h0] at hyes
          cases hyes
        · exact h1
        · omega
      have hwide := hl.wide hrecorded
      rw [WARNING_PCT] at hwarn
      refine htell ((80 * b.db.total_units + 99) / 100 - b.db.used) ?_ ?_
      · omega
      · rw [WARNING_PCT]
        omega

end Pair

/-- **Reserve, then release.** In every reachable budget, a granted reservation that is released at once can never be
    told from none by later charges, reservations, commits and releases, exactly if it crosses no threshold. -/
theorem reserve_release_noop_iff (events : EventStore) (past : List Call) (amount : Money) (ref : String)
    (r : Reservation) (h : (reserve amount ref (exec step (fresh events) past)).1 = .ok r) :
    SameLater r.id (exec step (fresh events) past)
        (exec step (fresh events) (past ++ [.reserve amount ref, .release r.id])) ↔
      CrossesNothing (exec step (fresh events) past).db amount := by
  have hl := leveled_exec events past
  rw [exec_append]
  generalize exec step (fresh events) past = b at h hl ⊢
  obtain ⟨post, htx, -⟩ := transact_returns h
  have hg : b.db.grants amount = true := by
    cases hg : b.db.grants amount with
    | true => rfl
    | false =>
        obtain ⟨message, hrefused⟩ := reserve_refused ref hg
        rw [htx] at hrefused
        cases hrefused
  obtain rfl : r = { id := b.db.reservations.length, amount, ref, status := .OPEN } := by
    rw [reserve_granted ref hg] at htx
    exact (Prod.mk.inj (Except.ok.inj htx)).1.symm
  show SameLater b.db.reservations.length b (undone b amount ref) ↔ _
  constructor
  · intro hsame
    by_contra hno
    exact seen_of_moved hl hg hno hsame
  · intro hnothing calls _
    rw [undone_with_row hl hg hnothing]
    exact outcomes_with_row (by simp) calls le_rfl

/-- The reservation of 4 USD under a total of 10 USD: the released reservation is never seen again. -/
theorem reserve_release_noop_small :
    CrossesNothing (exec step (fresh .quiet) [.set_total ⟨100000⟩]).db ⟨40000⟩ ∧
    SameLater 0 (exec step (fresh .quiet) [.set_total ⟨100000⟩])
      (exec step (fresh .quiet) [.set_total ⟨100000⟩, .reserve ⟨40000⟩ "probe", .release 0]) := by
  have hnothing : CrossesNothing (exec step (fresh .quiet) [.set_total ⟨100000⟩]).db ⟨40000⟩ := by
    unfold CrossesNothing
    decide
  exact ⟨hnothing, (reserve_release_noop_iff .quiet [.set_total ⟨100000⟩] ⟨40000⟩ "probe"
    ⟨0, ⟨40000⟩, "probe", .OPEN⟩ (by rfl)).mpr hnothing⟩

/-- A reservation of 9 USD under a total of 10 USD, released at once: the budget is unused again, but a charge
    of 9 USD no longer raises the warning. After one of 10 USD it takes no charge at all. -/
theorem released_reservation_seen :
    ((reserve ⟨90000⟩ "probe" (exec step (fresh .quiet) [.set_total ⟨100000⟩])).1 =
        .ok ⟨0, ⟨90000⟩, "probe", .OPEN⟩ ∧
      ¬ SameLater 0 (exec step (fresh .quiet) [.set_total ⟨100000⟩])
        (exec step (fresh .quiet) [.set_total ⟨100000⟩, .reserve ⟨90000⟩ "probe", .release 0])) ∧
    (reserve ⟨100000⟩ "probe" (exec step (fresh .quiet) [.set_total ⟨100000⟩])).1 =
        .ok ⟨0, ⟨100000⟩, "probe", .OPEN⟩ ∧
      (charge none ⟨1⟩ .LLM "turn" none
        (exec step (fresh .quiet) [.set_total ⟨100000⟩])).1.map ChargeResult.ok = .ok true ∧
      (charge none ⟨1⟩ .LLM "turn" none (exec step (fresh .quiet)
        [.set_total ⟨100000⟩, .reserve ⟨100000⟩ "probe", .release 0])).1.map ChargeResult.ok = .ok false := by
  refine ⟨⟨by rfl, fun hsame => ?_⟩, by rfl, by rfl, by rfl⟩
  have hraised := hsame.raised 90000
  revert hraised
  decide

end Budget

end CompanyFactory
