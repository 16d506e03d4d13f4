import CompanyFactory.Cost.Ledger

/-!
# `Cost.Threshold` — the block flag, and when a granted reservation can be committed

`commit` refuses while the budget is blocked, and the block flag is set not only by refusals: the
threshold check sets it as soon as the usage, which includes the open reservations, reaches the total.
Only `set_total` clears it again.

* `Synced` ties the flag to `last_warn_pct`; then the flag after a threshold check says exactly whether
  the usage has reached the total (`evaluate_blocked`).
* `trips` is the condition, on the state before a call and its arguments, under which the call sets the
  flag (`step_blocked_iff`).
* `reservation_committable` puts both together over whole runs.
-/

namespace CompanyFactory

namespace Budget

open BudgetDb Machine

/-! ## The flag -/

/-- The flag agrees with the last threshold crossed. -/
def Synced (db : BudgetDb) : Prop :=
  db.last_warn_pct ≤ BLOCKED_PCT ∧ (db.blocked = true ↔ db.last_warn_pct = BLOCKED_PCT)

theorem reached_iff {db : BudgetDb} {pct : Nat} :
    db.reached pct = true ↔ 0 < db.total_units ∧ pct * db.total_units ≤ 100 * db.used := by
  unfold reached
  rw [Bool.and_eq_true, decide_eq_true_eq, decide_eq_true_eq]

theorem reached_blocked_iff {db : BudgetDb} :
    db.reached BLOCKED_PCT = true ↔ 0 < db.total_units ∧ db.total_units ≤ db.used := by
  rw [reached_iff, BLOCKED_PCT]
  omega

theorem reached_mono {db : BudgetDb} (h : db.reached BLOCKED_PCT = true) :
    db.reached WARNING_PCT = true := by
  rw [reached_iff] at h ⊢
  rw [BLOCKED_PCT] at h
  rw [WARNING_PCT]
  omega

theorem synced_set_blocked (db : BudgetDb) : Synced db.set_blocked := by
  simp [Synced, set_blocked]

/-- After a threshold check the flag says whether the usage has reached the total. -/
theorem evaluate_blocked {db : BudgetDb} (h : Synced db) (actor : Option String) :
    (db.evaluate_thresholds_locked actor).2.blocked = db.reached BLOCKED_PCT := by
  obtain ⟨hle, hiff⟩ := h
  unfold evaluate_thresholds_locked
  cases hb : db.reached BLOCKED_PCT with
  | false =>
      cases db.blocked <;> simp
      split <;> rfl
  | true =>
      by_cases hlast : db.last_warn_pct < BLOCKED_PCT
      · simp [hlast]
      · have hblocked : db.blocked = true := hiff.mpr (by omega)
        have hwarn : ¬ db.last_warn_pct < WARNING_PCT := by
          simp only [BLOCKED_PCT, WARNING_PCT] at hlast ⊢
          omega
        simp [hlast, hwarn, hblocked]

/-- The two `if` chains of the threshold check, as one. -/
theorem evaluate_last (db : BudgetDb) (actor : Option String) :
    (db.evaluate_thresholds_locked actor).2.last_warn_pct =
      if db.reached WARNING_PCT = false ∧ WARNING_PCT ≤ db.last_warn_pct then 0
      else if db.reached BLOCKED_PCT = false ∧ BLOCKED_PCT ≤ db.last_warn_pct then WARNING_PCT
      else if db.reached BLOCKED_PCT = true ∧ db.last_warn_pct < BLOCKED_PCT then BLOCKED_PCT
      else if db.reached WARNING_PCT = true ∧ db.last_warn_pct < WARNING_PCT then WARNING_PCT
      else db.last_warn_pct := by
  unfold evaluate_thresholds_locked
  cases hb : db.reached BLOCKED_PCT <;> cases hw : db.reached WARNING_PCT <;> simp
  all_goals split_ifs <;> simp_all

theorem evaluate_synced {db : BudgetDb} (h : Synced db) (actor : Option String) :
    Synced (db.evaluate_thresholds_locked actor).2 := by
  have hle := h.1
  have hmono := @reached_mono db
  rw [Synced, evaluate_blocked h actor, evaluate_last]
  revert hmono hle
  generalize db.reached BLOCKED_PCT = b
  generalize db.reached WARNING_PCT = w
  unfold BLOCKED_PCT WARNING_PCT
  intro hle hmono
  split_ifs <;> grind

/-! ## When a call sets the flag -/

/-- Would this usage fill the total? -/
def fills (db : BudgetDb) (usage : Nat) : Prop := db.total_units ≤ usage ∧ 0 < usage

/-- **The block condition.** On a budget that is not blocked, the call will set the block flag: it asks
    for a usage that fills the total. A `reserve` beyond the total is refused without setting the flag;
    a total of 0 is never full. -/
def trips (db : BudgetDb) : Call → Prop
  | .set_total amount => 0 < amount.units ∧ amount.units ≤ db.used
  | .charge _ amount _ _ _ => fills db (db.used + amount.units)
  | .reserve amount _ => db.used + amount.units = db.total_units ∧ 0 < db.total_units
  | .release _ => False
  | .commit rid actual => ∃ row, db.require_open rid = .ok row ∧
      fills db (db.sum_expenses + (db.sum_open_reservations - row.amount_units) + actual.units)

/-- Is it a `set_total`? -/
def Call.recaps : Call → Bool
  | .set_total _ => true
  | _ => false

theorem Written.synced {db db' : BudgetDb} {c : Call} {reply : Reply} (h : Written db c reply db')
    (hs : Synced db) : Synced db' := by
  cases h with
  | capped => exact evaluate_synced (by exact hs) none
  | charge_refused _ _ _ _ _ _ _ _ hdb =>
      obtain ⟨-, rfl⟩ | ⟨-, -, rfl⟩ := hdb
      · exact hs
      · exact synced_set_blocked db
  | charged agent_id => exact evaluate_synced (by exact hs) agent_id
  | reserved => exact evaluate_synced (by exact hs) none
  | released => exact hs
  | commit_refused => exact synced_set_blocked _
  | committed => exact evaluate_synced (by exact hs) none

theorem synced_step (b : Budget) (c : Call) (hs : Synced b.db) : Synced (step b c).db := by
  obtain ⟨e, -, herr⟩ | ⟨reply, hw, -⟩ := step_cases b c
  · simpa [step, herr] using hs
  · exact hw.synced hs

theorem synced_exec (events : EventStore) (calls : List Call) :
    Synced (exec step (fresh events) calls).db :=
  exec_invariant synced_step (by simp [Synced, fresh, BudgetDb.fresh, BLOCKED_PCT]) calls

/-- A grown usage sets the flag exactly if it fills the total. -/
theorem evaluate_blocked_iff {db : BudgetDb} (hs : Synced db) (actor : Option String)
    (hfits : db.used ≤ db.total_units) :
    (db.evaluate_thresholds_locked actor).2.blocked = true ↔ fills db db.used := by
  rw [evaluate_blocked hs, reached_blocked_iff, fills]
  omega

theorem used_charge (db : BudgetDb) (e : Expense) :
    ({ db with expenses := db.expenses ++ [e] } : BudgetDb).used = db.used + e.amount_units := by
  rw [used, sum_expenses_append, used]
  show db.sum_expenses + e.amount_units + db.sum_open_reservations = _
  omega

theorem used_reserve (db : BudgetDb) (amount : Nat) (ref : String) :
    ({ db with reservations := db.reservations ++ [ReservationRow.mk amount ref .OPEN] } :
      BudgetDb).used = db.used + amount := by
  rw [used, sum_open_append, used]
  show db.sum_expenses + (db.sum_open_reservations + amount) = _
  omega

theorem used_commit {db : BudgetDb} {rid : Nat} {row : ReservationRow} (expense : Expense)
    (hrow : db.require_open rid = .ok row) :
    ({ db.set_status rid row .COMMITTED with expenses := db.expenses ++ [expense] } : BudgetDb).used =
      db.sum_expenses + (db.sum_open_reservations - row.amount_units) + expense.amount_units := by
  have hclose : db.sum_open_reservations = (db.set_status rid row .COMMITTED).sum_open_reservations +
      row.amount_units := sum_open_close hrow (by simp)
  have hspent : ({ db.set_status rid row .COMMITTED with
      expenses := db.expenses ++ [expense] } : BudgetDb).sum_expenses =
      db.sum_expenses + expense.amount_units :=
    sum_expenses_append (db.set_status rid row .COMMITTED) expense
  have hheld : ({ db.set_status rid row .COMMITTED with
      expenses := db.expenses ++ [expense] } : BudgetDb).sum_open_reservations =
      (db.set_status rid row .COMMITTED).sum_open_reservations := rfl
  rw [used, hspent, hheld, hclose]
  omega

theorem Written.blocked_iff {db db' : BudgetDb} {c : Call} {reply : Reply}
    (h : Written db c reply db') (hs : Synced db) (hb : db.blocked = false) :
    db'.blocked = true ↔ trips db c := by
  cases h with
  | capped amount =>
      rw [evaluate_blocked (by exact hs), reached_blocked_iff]
      exact Iff.rfl
  | charge_refused _ amount _ _ _ _ _ _ hdb =>
      obtain ⟨hblocked, rfl⟩ | ⟨-, hover, rfl⟩ := hdb
      · simp [hb] at hblocked
      · have : fills db (db.used + amount.units) := ⟨by omega, by omega⟩
        simpa [set_blocked, trips] using this
  | charged _ amount _ _ _ _ expense _ _ hfits hamount =>
      have hused := used_charge db expense
      rw [hamount] at hused
      rw [evaluate_blocked_iff (by exact hs) _ (by rw [hused]; exact hfits), hused]
      exact Iff.rfl
  | reserved amount ref _ _ hfits _ =>
      have hused := used_reserve db amount.units ref
      rw [evaluate_blocked_iff (by exact hs) _ (by rw [hused]; exact hfits), hused]
      simp only [fills, trips]
      omega
  | released rid row => simpa [set_status, trips] using hb
  | commit_refused rid actual row _ hrow _ hover =>
      have hfills : fills db (db.sum_expenses + (db.sum_open_reservations - row.amount_units) +
          actual.units) := by
        obtain hblocked | hover := hover
        · simp [hb] at hblocked
        · exact ⟨by omega, by omega⟩
      simpa [set_blocked, trips] using ⟨row, hrow, hfills⟩
  | committed rid actual row _ expense hrow _ _ hfits hamount =>
      have hused := used_commit expense hrow
      rw [hamount] at hused
      rw [evaluate_blocked_iff (by exact hs) _ (by rw [hused]; exact hfits), hused]
      constructor
      · exact fun hfills => ⟨row, hrow, hfills⟩
      · rintro ⟨row', hrow', hfills⟩
        obtain rfl : row = row' := by simpa [hrow] using hrow'
        exact hfills

/-- A call that raises inside its transaction would not have set the flag. -/
theorem not_trips_of_error {db : BudgetDb} {c : Call} {e : Exn} (h : c.tx db = .error e)
    (hb : db.blocked = false) (hc : c.recaps = false) : ¬ trips db c := by
  cases c with
  | set_total => cases hc
  | charge agent_id amount category memo approval_id =>
      simp only [Call.tx, charge_tx] at h
      split_ifs at h <;> cases h
  | reserve amount ref =>
      rintro ⟨heq, -⟩
      have hfits : ¬ db.total_units < db.used + amount.units := by omega
      simp [Call.tx, reserve_tx, hb, hfits, Except.map] at h
  | release => exact id
  | commit rid actual =>
      rintro ⟨row, hrow, -⟩
      simp only [Call.tx, commit_tx, hrow] at h
      split_ifs at h <;> cases h

/-- **One step.** A call on a budget that is not blocked leaves it so unless it trips; and unless it is
    a `set_total`, it sets the flag if it trips. -/
theorem step_blocked_iff {b : Budget} {c : Call} (hs : Synced b.db) (hb : b.db.blocked = false) :
    ((step b c).db.blocked = true → trips b.db c) ∧
      (c.recaps = false → trips b.db c → (step b c).db.blocked = true) := by
  obtain ⟨e, htx, herr⟩ | ⟨reply, hw, -⟩ := step_cases b c
  · have hstep : step b c = b := by simp [step, herr]
    exact ⟨by simp [hstep, hb], fun hc htrips => absurd htrips (not_trips_of_error htx hb hc)⟩
  · exact ⟨(hw.blocked_iff hs hb).mp, fun _ => (hw.blocked_iff hs hb).mpr⟩

/-- Only `set_total` clears the flag. -/
theorem stays_blocked {b : Budget} {c : Call} (hc : c.recaps = false) (hb : b.db.blocked = true) :
    (step b c).db.blocked = true := by
  obtain ⟨e, htx, herr⟩ | ⟨reply, hw, -⟩ := step_cases b c
  · simpa [step, herr] using hb
  · generalize (step b c).db = db' at hw
    cases hw with
    | capped => cases hc
    | charge_refused _ _ _ _ _ _ _ _ hdb =>
        obtain ⟨-, rfl⟩ | ⟨-, -, rfl⟩ := hdb
        · exact hb
        · rfl
    | charged _ _ _ _ _ _ _ _ hno => simp [hb] at hno
    | reserved _ _ _ hno => simp [hb] at hno
    | released => exact hb
    | commit_refused => rfl
    | committed _ _ _ _ _ _ _ hno => simp [hb] at hno

/-- Along calls other than `set_total`, the flag stays off exactly if no call trips. -/
theorem exec_blocked_iff {calls : List Call} (hcalls : ∀ c ∈ calls, c.recaps = false) :
    ∀ {b : Budget}, Synced b.db → ((exec step b calls).db.blocked = false ↔
      b.db.blocked = false ∧ Along step (fun b c => ¬ trips b.db c) b calls) := by
  induction calls with
  | nil => simp
  | cons c calls ih =>
      intro b hs
      have hc : c.recaps = false := hcalls c (by simp)
      rw [exec_cons, ih (fun c' h' => hcalls c' (by simp [h'])) (synced_step b c hs), along_cons]
      cases hb : b.db.blocked with
      | false =>
          have hstep := step_blocked_iff (c := c) hs hb
          cases hblocked : (step b c).db.blocked with
          | false =>
              have : ¬ trips b.db c := fun h => by simp [hstep.2 hc h] at hblocked
              simp [this]
          | true => simp [hstep.1 hblocked]
      | true => simp [stays_blocked hc hb]

/-! ## Committing a granted reservation -/

/-- The commit goes through: the row becomes `COMMITTED`, one expense of the amount is recorded, and the
    call returns an ok result unless the event store refuses one of its events. -/
def Commits (b : Budget) (rid : Nat) (actual : Money) : Prop :=
  (∃ row, (commit rid actual b).2.db.reservations[rid]? = some row ∧ row.status = .COMMITTED) ∧
  (∃ expense, (commit rid actual b).2.db.expenses = b.db.expenses ++ [expense] ∧
    expense.amount_units = actual.units) ∧
  (∀ r, (commit rid actual b).1 = .ok r → r.ok = true) ∧
  (∀ e, (commit rid actual b).1 = .error e → e.isStoreError = true)

theorem commit_refused_tx {db : BudgetDb} {rid : Nat} {row : ReservationRow} {actual : Money}
    (hrow : db.require_open rid = .ok row) (h : db.blocked = true ∨ db.total_units <
      db.sum_expenses + (db.sum_open_reservations - row.amount_units) + actual.units) :
    ∃ r post, db.commit_tx rid actual =
      .ok (r, post, (db.set_status rid row .RELEASED).set_blocked) := by
  have hif : (db.blocked || decide (db.total_units < db.sum_expenses +
      (db.sum_open_reservations - row.amount_units) + actual.units)) = true := by simpa using h
  simp only [commit_tx, hrow, hif, if_true]
  exact ⟨_, _, rfl⟩

theorem commit_granted_tx {db : BudgetDb} {rid : Nat} {row : ReservationRow} {actual : Money}
    (hrow : db.require_open rid = .ok row) (hb : db.blocked = false)
    (hfits : db.sum_expenses + (db.sum_open_reservations - row.amount_units) + actual.units ≤
      db.total_units) :
    ∃ r post expense, db.commit_tx rid actual = .ok (r, post, ({ db.set_status rid row .COMMITTED with
        expenses := db.expenses ++ [expense] } : BudgetDb).evaluate_thresholds_locked.2) ∧
      r.ok = true ∧ expense.amount_units = actual.units := by
  have hif : (db.blocked || decide (db.total_units < db.sum_expenses +
      (db.sum_open_reservations - row.amount_units) + actual.units)) = false := by
    simpa [hb] using hfits
  simp only [commit_tx, hrow, hif, Bool.false_eq_true, if_false]
  exact ⟨_, _, _, rfl, rfl, rfl⟩

/-- A commit of an open reservation goes through exactly if the budget is not blocked and has room. -/
theorem commits_iff {b : Budget} {rid : Nat} {row : ReservationRow} {actual : Money}
    (hrow : b.db.require_open rid = .ok row) :
    Commits b rid actual ↔ b.db.blocked = false ∧
      b.db.sum_expenses + (b.db.sum_open_reservations - row.amount_units) + actual.units ≤
        b.db.total_units := by
  obtain ⟨hget, -⟩ := require_open_iff.mp hrow
  have hlt : rid < b.db.reservations.length := (List.getElem?_eq_some_iff.mp hget).1
  constructor
  · rintro ⟨⟨row', hrow', hcommitted⟩, -⟩
    by_contra hno
    have hover : b.db.blocked = true ∨ b.db.total_units < b.db.sum_expenses +
        (b.db.sum_open_reservations - row.amount_units) + actual.units := by
      rw [not_and_or, Bool.not_eq_false, not_le] at hno
      exact hno
    obtain ⟨r, post, htx⟩ := commit_refused_tx hrow hover
    rw [commit, transact_ok htx] at hrow'
    obtain rfl : { row with status := .RELEASED } = row' := by
      simpa [set_status, hlt] using hrow'
    cases hcommitted
  · rintro ⟨hb, hfits⟩
    obtain ⟨r, post, expense, htx, hok, hamount⟩ := commit_granted_tx hrow hb hfits
    rw [Commits, commit, transact_ok htx]
    refine ⟨⟨{ row with status := .COMMITTED }, by simp [set_status, hlt], rfl⟩,
      ⟨expense, rfl, hamount⟩, fun r' hr' => ?_, fun e he => ?_⟩
    · cases happ : (EventStore.appendAll post b.events).1 with
      | error e => simp [happ, Except.map] at hr'
      | ok _ =>
          obtain rfl : r = r' := by simpa [happ, Except.map] using hr'
          exact hok
    · cases happ : (EventStore.appendAll post b.events).1 with
      | error e' =>
          obtain rfl : e' = e := by simpa [happ, Except.map] using he
          exact EventStore.appendAll_error happ
      | ok _ => simp [happ, Except.map] at he

/-- Calls change a row only in its status. -/
theorem Written.row_kept {db db' : BudgetDb} {c : Call} {reply : Reply} (h : Written db c reply db')
    {rid : Nat} {row : ReservationRow} (hrow : db.reservations[rid]? = some row) :
    ∃ status, db'.reservations[rid]? = some { row with status } := by
  have hset : ∀ {rid' row' status}, db.reservations[rid']? = some row' →
      ∃ status', (db.reservations.set rid' { row' with status })[rid]? =
        some { row with status := status' } := by
    intro rid' row' status hrow'
    by_cases heq : rid' = rid
    · subst heq
      obtain rfl : row' = row := by simpa [hrow'] using hrow
      exact ⟨status, by simp [(List.getElem?_eq_some_iff.mp hrow).1]⟩
    · exact ⟨row.status, by rw [List.getElem?_set_ne heq, hrow]⟩
  cases h with
  | capped => exact ⟨row.status, hrow⟩
  | charge_refused _ _ _ _ _ _ _ _ hdb =>
      obtain ⟨-, rfl⟩ | ⟨-, -, rfl⟩ := hdb
      · exact ⟨row.status, hrow⟩
      · exact ⟨row.status, hrow⟩
  | charged => exact ⟨row.status, hrow⟩
  | reserved =>
      refine ⟨row.status, ?_⟩
      simpa [List.getElem?_append_left (List.getElem?_eq_some_iff.mp hrow).1] using hrow
  | released rid' row' hrow' => exact hset (require_open_iff.mp hrow').1
  | commit_refused rid' _ row' _ hrow' => exact hset (require_open_iff.mp hrow').1
  | committed rid' _ row' _ _ hrow' => exact hset (require_open_iff.mp hrow').1

/-- A reservation that is open before and after a run has kept its amount. -/
theorem exec_row_kept {b : Budget} {calls : List Call} {rid : Nat} {row : ReservationRow}
    (hrow : b.db.require_open rid = .ok row)
    (hopen : (exec step b calls).db.is_open rid = true) :
    (exec step b calls).db.require_open rid = .ok row := by
  have hkept : ∀ b c, (∃ status, b.db.reservations[rid]? = some { row with status }) →
      ∃ status, (step b c).db.reservations[rid]? = some { row with status } := by
    rintro b c ⟨status, hget⟩
    obtain ⟨e, -, herr⟩ | ⟨reply, hw, -⟩ := step_cases b c
    · exact ⟨status, by simpa [step, herr] using hget⟩
    · obtain ⟨status', hget'⟩ := hw.row_kept hget
      exact ⟨status', hget'⟩
  obtain ⟨status, hget⟩ := exec_invariant hkept
    ⟨row.status, (require_open_iff.mp hrow).1⟩ calls
  obtain ⟨row', hrow'⟩ := is_open_iff.mp hopen
  obtain ⟨hget', hstatus⟩ := require_open_iff.mp hrow'
  obtain rfl : { row with status } = row' := by simpa [hget] using hget'
  have hself : { row with status } = row := by
    have hopen' := (require_open_iff.mp hrow).2
    cases row
    simp_all
  rw [hrow', hself]

/-- Nothing stands between a granted reservation and its commit: the budget is not blocked, no call of
    the run trips the block, and the usage is within the total when `commit` is called. -/
def CommitReady (b : Budget) (calls : List Call) : Prop :=
  b.db.blocked = false ∧ Along step (fun b c => ¬ trips b.db c) b calls ∧
    (exec step b calls).db.used ≤ (exec step b calls).db.total_units

/-- With no call that trips, the flag stays off, also when totals are set on the way. -/
theorem exec_unblocked {b : Budget} {calls : List Call} (hs : Synced b.db)
    (hb : b.db.blocked = false) (hcalls : Along step (fun b c => ¬ trips b.db c) b calls) :
    (exec step b calls).db.blocked = false := by
  have hstep : ∀ b c, (Synced b.db ∧ b.db.blocked = false) → ¬ trips b.db c →
      Synced (step b c).db ∧ (step b c).db.blocked = false := by
    rintro b c ⟨hs, hb⟩ hc
    refine ⟨synced_step b c hs, Bool.eq_false_iff.mpr fun hblocked => ?_⟩
    exact hc ((step_blocked_iff hs hb).1 hblocked)
  exact (exec_invariant_along hstep ⟨hs, hb⟩ hcalls).2

/-- Every amount up to the reserved one can be committed exactly if the budget is not blocked and the
    usage is within the total. -/
theorem all_commit_iff {b : Budget} {rid : Nat} {row : ReservationRow}
    (hrow : b.db.require_open rid = .ok row) :
    (∀ actual : Money, actual.units ≤ row.amount_units → Commits b rid actual) ↔
      b.db.blocked = false ∧ b.db.used ≤ b.db.total_units := by
  have hheld : b.db.sum_open_reservations = (b.db.set_status rid row
      .RELEASED).sum_open_reservations + row.amount_units := sum_open_close hrow (by simp)
  simp only [commits_iff hrow, used]
  constructor
  · intro h
    obtain ⟨hb, hfits⟩ := h ⟨row.amount_units⟩ le_rfl
    exact ⟨hb, by simp only at hfits; omega⟩
  · rintro ⟨hb, hfits⟩ actual hle
    exact ⟨hb, by omega⟩

/-- **When a granted reservation can be committed.** In every reachable state, for every open reservation
    that stays open during a further run: if the run is one of charges, reservations, releases and
    commits, then every amount up to the reserved one can be committed after it exactly if the run is
    `CommitReady`; and `CommitReady` is enough when totals are set on the way as well. -/
theorem reservation_committable_iff (events : EventStore) (past calls : List Call) (rid : Nat)
    (row : ReservationRow)
    (hrow : (exec step (fresh events) past).db.require_open rid = .ok row)
    (hopen : (exec step (exec step (fresh events) past) calls).db.is_open rid = true) :
    ((∀ c ∈ calls, c.recaps = false) →
      ((∀ actual : Money, actual.units ≤ row.amount_units →
          Commits (exec step (exec step (fresh events) past) calls) rid actual) ↔
        CommitReady (exec step (fresh events) past) calls)) ∧
    (CommitReady (exec step (fresh events) past) calls →
      ∀ actual : Money, actual.units ≤ row.amount_units →
        Commits (exec step (exec step (fresh events) past) calls) rid actual) := by
  have hs := synced_exec events past
  have hkept := exec_row_kept hrow hopen
  constructor
  · intro hcalls
    rw [all_commit_iff hkept, exec_blocked_iff hcalls hs, CommitReady, and_assoc]
  · rintro ⟨hb, htrips, hfits⟩
    exact (all_commit_iff hkept).mpr ⟨exec_unblocked hs hb htrips, hfits⟩

/-- A total of 1 USD, a reservation of 0.60 USD and a charge of 0.20 USD: up to 0.60 USD can be
    committed. -/
theorem reservation_committable_below_total :
    CommitReady (exec step (fresh .quiet) [.set_total ⟨10000⟩, .reserve ⟨6000⟩ "llm"])
      [.charge none ⟨2000⟩ .LLM "turn" none] ∧
    ∀ actual : Money, actual.units ≤ 6000 →
      Commits (exec step (exec step (fresh .quiet) [.set_total ⟨10000⟩, .reserve ⟨6000⟩ "llm"])
        [.charge none ⟨2000⟩ .LLM "turn" none]) 0 actual := by
  have hready : CommitReady (exec step (fresh .quiet) [.set_total ⟨10000⟩, .reserve ⟨6000⟩ "llm"])
      [.charge none ⟨2000⟩ .LLM "turn" none] := by
    refine ⟨by rfl, ⟨?_, trivial⟩, by decide⟩
    rintro ⟨hfull, -⟩
    revert hfull
    decide
  exact ⟨hready, (reservation_committable_iff .quiet _ _ 0 ⟨6000, "llm", .OPEN⟩ (by rfl)
    (by rfl)).2 hready⟩

/-- A reservation of the whole total is granted and blocks the budget at once, so no amount of it can be
    committed. -/
theorem full_reservation_not_committable :
    (exec step (fresh .quiet) [.set_total ⟨10000⟩, .reserve ⟨10000⟩ "llm"]).db.require_open 0 =
      .ok ⟨10000, "llm", .OPEN⟩ ∧
    ∀ actual : Money,
      ¬ Commits (exec step (fresh .quiet) [.set_total ⟨10000⟩, .reserve ⟨10000⟩ "llm"]) 0 actual := by
  have hrow : (exec step (fresh .quiet)
      [.set_total ⟨10000⟩, .reserve ⟨10000⟩ "llm"]).db.require_open 0 =
      .ok ⟨10000, "llm", .OPEN⟩ := by rfl
  refine ⟨hrow, fun actual h => ?_⟩
  have hb := ((commits_iff hrow).mp h).1
  revert hb
  decide

end Budget

end CompanyFactory
