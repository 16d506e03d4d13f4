import CompanyFactory.Cost.Threshold

/-!
# `Cost.Posts` — what a call appends to the log

A call records an expense or not, and looks at the thresholds or not; what it appends follows from the two.
`Posted` lists the four ways, next to the database they leave, and `asked` says from the state before the call
which usage a threshold check will see.
-/

namespace CompanyFactory

namespace Budget

open BudgetDb Machine

/-- The events of a call, in the order in which it appends them. -/
def Call.posts (db : BudgetDb) (c : Call) : List Post :=
  match c.tx db with
  | .error _ => []
  | .ok (_, post, _) => post

/-- The `EXPENSE_CHARGED` event of an expense. -/
def charged_post (e : Expense) : Post :=
  { kind := .EXPENSE_CHARGED
    payload := [("amount_cents", .int (units_to_cents e.amount_units)), ("category", .str e.category.value),
      ("note", .str e.memo), ("request_id", .str (toString e.id))]
    actor := e.agent_id }

/-- The total and the usage that the call asks for, if it will look at the thresholds: it is not refused, and it
    is no `release`. -/
def asked (db : BudgetDb) : Call → Option (Nat × Nat)
  | .set_total amount => if amount.units < MAX_UNITS then some (amount.units, db.used) else none
  | .charge _ amount _ _ _ | .reserve amount _ =>
    if db.grants amount then some (db.total_units, db.used + amount.units) else none
  | .release _ => none
  | .commit rid actual =>
    match db.require_open rid with
    | .error _ => none
    | .ok row =>
      let usage := db.sum_expenses + (db.sum_open_reservations - row.amount_units) + actual.units
      if db.blocked = false ∧ usage ≤ db.total_units then some (db.total_units, usage) else none

/-- The outcomes of a transaction that commits: what it posts, and the database. -/
inductive Posted (db : BudgetDb) (c : Call) : List Post → BudgetDb → Prop
  /-- only the thresholds are looked at -/
  | checked (base : BudgetDb) (actor : Option String) : base.expenses = db.expenses → base.last_warn_pct = db.last_warn_pct →
      asked db c = some (base.total_units, base.used) →
      Posted db c (base.evaluate_thresholds_locked actor).1 (base.evaluate_thresholds_locked actor).2
  /-- an expense is recorded, then the thresholds are looked at -/
  | charged (base : BudgetDb) (actor : Option String) (expense : Expense) : base.expenses = db.expenses ++ [expense] →
      base.last_warn_pct = db.last_warn_pct → asked db c = some (base.total_units, base.used) →
      Posted db c (charged_post expense :: (base.evaluate_thresholds_locked actor).1)
        (base.evaluate_thresholds_locked actor).2
  /-- a refusal -/
  | refused (posts : List Post) (db' : BudgetDb) : (∀ p ∈ posts, p.kind = .BUDGET_BLOCKED) → asked db c = none →
      db'.expenses = db.expenses → db'.total_units = db.total_units → db'.used ≤ db.used →
      db'.last_warn_pct = db.last_warn_pct ∨ db'.last_warn_pct = BLOCKED_PCT → Posted db c posts db'

theorem used_close {db : BudgetDb} {rid : Nat} {row : ReservationRow} (hrow : db.require_open rid = .ok row) :
    (db.set_status rid row .RELEASED).used ≤ db.used := by
  have hclose := @sum_open_close db rid row .RELEASED hrow (by simp)
  have hspent : (db.set_status rid row .RELEASED).sum_expenses = db.sum_expenses := rfl
  unfold used
  omega

theorem grants_iff {db : BudgetDb} {amount : Money} :
    db.grants amount = true ↔ db.blocked = false ∧ db.used + amount.units ≤ db.total_units := by
  simp [grants]

theorem posted_charge {db db' : BudgetDb} {agent_id : Option String} {amount : Money} {category : Category}
    {memo : String} {approval_id : Option String} {r : ChargeResult} {posts : List Post}
    (h : db.charge_tx agent_id amount category memo approval_id = .ok (r, posts, db')) :
    Posted db (.charge agent_id amount category memo approval_id) posts db' := by
  -- a refused charge posts that the budget is blocked
  have hrefused : db.grants amount = false → ∀ db'' : BudgetDb, db'' = db ∨ db'' = db.set_blocked →
      Posted db (.charge agent_id amount category memo approval_id)
        [db.blocked_post amount.units db.sum_expenses agent_id] db'' := by
    intro hno db'' hdb
    have hasked : asked db (.charge agent_id amount category memo approval_id) = none := by
      simp [asked, hno]
    obtain rfl | rfl := hdb
    · exact .refused _ _ (by simp [blocked_post]) hasked rfl rfl le_rfl (.inl rfl)
    · exact .refused _ _ (by simp [blocked_post]) hasked rfl rfl le_rfl (.inr rfl)
  unfold charge_tx at h
  split at h
  · rename_i hb
    cases h
    exact hrefused (by simp [grants, hb]) db (.inl rfl)
  · rename_i hb
    split at h
    · rename_i hover
      cases h
      apply hrefused _ _ (.inr rfl)
      rw [Bool.eq_false_iff, Ne, grants_iff]
      omega
    · rename_i hfits
      cases h
      refine .charged _ agent_id ⟨db.expenses.length, agent_id, amount.units, category, memo, approval_id⟩ rfl rfl ?_
      rw [used_charge]
      exact if_pos (grants_iff.mpr ⟨by simpa using hb, by omega⟩)

theorem posted_commit {db db' : BudgetDb} {rid : Nat} {actual : Money} {r : ChargeResult} {posts : List Post}
    (h : db.commit_tx rid actual = .ok (r, posts, db')) : Posted db (.commit rid actual) posts db' := by
  unfold commit_tx at h
  split at h
  · cases h
  · rename_i row hrow
    dsimp only at h
    split at h
    · -- the reservation is released, and no expense recorded
      rename_i hover
      cases h
      refine .refused _ _ (by simp [blocked_post]) ?_ rfl rfl (used_close hrow) (.inr rfl)
      simp only [asked, hrow]
      refine if_neg fun hfits => ?_
      simp only [Bool.or_eq_true, decide_eq_true_eq] at hover
      obtain hblocked | hover := hover
      · rw [hfits.1] at hblocked
        cases hblocked
      · omega
    · rename_i hfits
      cases h
      have hused := used_commit ⟨db.expenses.length, none, actual.units, .OTHER, "commit:" ++ row.ref, none⟩ hrow
      refine .charged _ none ⟨db.expenses.length, none, actual.units, .OTHER, "commit:" ++ row.ref, none⟩ rfl rfl ?_
      simp only [asked, hrow]
      rw [if_pos (by simpa using hfits)]
      exact congrArg (fun usage => some (db.total_units, usage)) hused.symm

/-- **Inversion.** -/
theorem posted_of_tx {db db' : BudgetDb} {c : Call} {reply : Reply} {posts : List Post}
    (h : c.tx db = .ok (reply, posts, db')) : Posted db c posts db' := by
  cases c with
  | set_total amount =>
      obtain ⟨r, htx, -⟩ := tx_of_map h
      unfold set_total_tx at htx
      split at htx
      · cases htx
      · rename_i hlt
        cases htx
        refine .checked { db with total_units := amount.units } none rfl rfl ?_
        exact if_pos (Nat.lt_of_not_le hlt)
  | charge agent_id amount category memo approval_id =>
      obtain ⟨r, htx, -⟩ := tx_of_map h
      exact posted_charge htx
  | reserve amount ref =>
      obtain ⟨r, htx, -⟩ := tx_of_map h
      unfold reserve_tx at htx
      split at htx
      · cases htx
      · rename_i hfits
        cases htx
        refine .checked _ none rfl rfl ?_
        rw [used_reserve]
        exact if_pos (grants_iff.mpr (by simpa using hfits))
  | release rid =>
      obtain ⟨r, htx, -⟩ := tx_of_map h
      unfold release_tx at htx
      split at htx
      · cases htx
      · rename_i row hrow
        cases htx
        exact .refused _ _ (by simp) rfl rfl rfl (used_close hrow) (.inl rfl)
  | commit rid actual =>
      obtain ⟨r, htx, -⟩ := tx_of_map h
      exact posted_commit htx

/-- A call that raises inside its transaction does not come to the thresholds. -/
theorem asked_of_error {db : BudgetDb} {c : Call} {e : Exn} (h : c.tx db = .error e) : asked db c = none := by
  cases c with
  | set_total amount =>
      refine if_neg fun hlt => ?_
      have hno : ¬ MAX_UNITS ≤ amount.units := Nat.not_le.mpr hlt
      simp [Call.tx, set_total_tx, hno, Except.map] at h
  | charge agent_id amount category memo approval_id =>
      simp only [Call.tx, charge_tx] at h
      split_ifs at h <;> cases h
  | reserve amount ref =>
      refine if_neg fun hg => ?_
      rw [Call.tx, reserve_granted ref hg] at h
      cases h
  | release rid => rfl
  | commit rid actual =>
      cases hrow : db.require_open rid with
      | error e => simp only [asked, hrow]
      | ok row =>
          simp only [Call.tx, commit_tx, hrow] at h
          split_ifs at h <;> cases h

/-- A call either raises inside its transaction and changes nothing, or leaves one of the outcomes and hands its
    events to the store. -/
theorem step_posted (b : Budget) (c : Call) :
    (step b c = b ∧ asked b.db c = none) ∨
      (Posted b.db c (c.posts b.db) (step b c).db ∧
        (step b c).events = (EventStore.appendAll (c.posts b.db) b.events).2) := by
  rw [step, handle_eq_transact]
  rcases htx : c.tx b.db with e | ⟨reply, post, db⟩
  · exact .inl ⟨by rw [transact_error htx], asked_of_error htx⟩
  · have hposts : c.posts b.db = post := by
      unfold Call.posts
      rw [htx]
    rw [transact_ok htx, hposts]
    exact .inr ⟨posted_of_tx htx, rfl⟩

end Budget

end CompanyFactory
