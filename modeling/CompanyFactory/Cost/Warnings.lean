import CompanyFactory.Cost.Posts

/-!
# `Cost.Warnings` — the warnings in the log, and the crossings of the warning threshold

The threshold check warns when it finds the usage in the warning zone, from 80 percent of the total up to the
total, while `last_warn_pct` is below 80. `last_warn_pct` remembers the crossing, and only the check itself takes
it back. `release` and the refusals do not check: they lower the usage, or raise the remembered percentage, and
leave the two apart.

* `Remembers` — what always holds: usage at 80 percent is remembered, so no warning comes without a crossing.
* `warnings_step` — a call adds a warning exactly if it crosses, the percentage is below 80, and the store takes
  the events of the call.
* `warnings_match_iff` — the same over whole runs.
-/

namespace CompanyFactory

namespace EventStore

/-- The rows of a kind in the log. -/
def rows_of (kind : EventKind) (st : EventStore) : Nat := st.log.countP (fun e => e.kind == kind)

/-- Posts of other kinds. -/
theorem rows_of_others {kind : EventKind} {posts : List Post} (h : ∀ p ∈ posts, p.kind ≠ kind)
    (st : EventStore) : (appendAll posts st).2.rows_of kind = st.rows_of kind := by
  obtain ⟨done, rest, rows, rfl, hlog, hall, -, -⟩ := appendAll_rows posts st
  have hnone : rows.countP (fun e => e.kind == kind) = 0 := by
    rw [List.countP_eq_zero]
    intro e he
    obtain ⟨i, hi, rfl⟩ := List.getElem_of_mem he
    have hlt : i < done.length := by
      rw [hall.length_eq]
      exact hi
    have hkind := (List.forall₂_iff_get.mp hall).2 i hlt hi |>.kind
    simp only [List.get_eq_getElem] at hkind
    rw [hkind, beq_iff_eq]
    exact h _ (List.mem_append_left _ (List.getElem_mem hlt))
  unfold rows_of
  rw [hlog, List.countP_append, hnone, Nat.add_zero]

/-- A last post of the kind is there afterwards exactly if the store takes the whole list. -/
theorem rows_of_last {kind : EventKind} {posts : List Post} {post : Post}
    (h : ∀ p ∈ posts, p.kind ≠ kind) (hpost : post.kind = kind) (st : EventStore) :
    (appendAll (posts ++ [post]) st).2.rows_of kind =
      st.rows_of kind + (st.accepts (posts ++ [post])).toNat := by
  have hlead := rows_of_others h st
  unfold accepts Act.returns
  rw [appendAll_append]
  rcases happ : appendAll posts st with ⟨e | ⟨⟩, st'⟩
  · -- a post before it is refused
    rw [happ] at hlead
    exact hlead
  · rw [happ] at hlead
    dsimp only at hlead ⊢
    rw [appendAll_singleton, ← hlead]
    obtain ⟨e, herr, -, hlog⟩ | ⟨event, hok, hlog, hkind⟩ := append_cases post st'
    · rw [herr]
      unfold rows_of
      rw [hlog]
      rfl
    · rw [hok]
      unfold rows_of
      rw [hlog, List.countP_append, List.countP_singleton, hkind, hpost, beq_self_eq_true]
      rfl

end EventStore

namespace Budget

open BudgetDb Machine

/-- From 80 percent of the total up to the total. -/
def in_zone (total usage : Nat) : Bool := decide (WARNING_PCT * total ≤ 100 * usage) && decide (usage < total)

/-- The `BUDGET_WARNING` events in the log. -/
def warnings (b : Budget) : Nat := b.events.rows_of .BUDGET_WARNING

/-- The call moves the usage from below 80 percent of the total to at least 80 and below 100 percent. -/
def crosses (b : Budget) (c : Call) : Bool :=
  !b.db.reached WARNING_PCT && in_zone (step b c).db.total_units (step b c).db.used

/-- The call asks for a usage in the warning zone while the usage is below 80 percent. -/
def enters (db : BudgetDb) (c : Call) : Bool :=
  !db.reached WARNING_PCT && (asked db c).any (fun (total, usage) => in_zone total usage)

/-- Nothing stands between a crossing and its warning: the remembered percentage is below 80, and the store takes
    the events of the call. -/
def Warns (b : Budget) (c : Call) : Prop :=
  b.db.last_warn_pct < WARNING_PCT ∧ b.events.accepts (c.posts b.db) = true

instance (b : Budget) (c : Call) : Decidable (Warns b c) := inferInstanceAs (Decidable (_ ∧ _))

theorem in_zone_iff {db : BudgetDb} :
    in_zone db.total_units db.used = (db.reached WARNING_PCT && !db.reached BLOCKED_PCT) := by
  rw [Bool.eq_iff_iff, in_zone, Bool.and_eq_true, Bool.and_eq_true, decide_eq_true_eq, decide_eq_true_eq,
    reached_iff, Bool.not_eq_true', Bool.eq_false_iff, Ne, reached_blocked_iff]
  omega

/-! ## The threshold check -/

/-- What the check posts: at most one event, and a warning exactly in the zone with a percentage below 80. -/
theorem evaluate_posts (db : BudgetDb) (actor : Option String) :
    (in_zone db.total_units db.used = true ∧ db.last_warn_pct < WARNING_PCT ∧
        (db.evaluate_thresholds_locked actor).1 = [db.warning_post actor]) ∨
      (¬ (in_zone db.total_units db.used = true ∧ db.last_warn_pct < WARNING_PCT) ∧
        ∀ p ∈ (db.evaluate_thresholds_locked actor).1, p.kind ≠ .BUDGET_WARNING) := by
  rw [in_zone_iff]
  have hpct : WARNING_PCT < BLOCKED_PCT := by decide
  unfold evaluate_thresholds_locked
  cases hb : db.reached BLOCKED_PCT with
  | true =>
      refine .inr ⟨by simp, ?_⟩
      by_cases hlast : db.last_warn_pct < BLOCKED_PCT
      · simp [hlast, blocked_post]
      · have hwarn : ¬ db.last_warn_pct < WARNING_PCT := by omega
        simp [hlast, hwarn]
  | false =>
      cases hw : db.reached WARNING_PCT with
      | false => exact .inr ⟨by simp, by simp⟩
      | true =>
          by_cases hlast : db.last_warn_pct < WARNING_PCT
          · exact .inl ⟨rfl, hlast, by simp [hlast]⟩
          · exact .inr ⟨by simp [hlast], by simp [hlast]⟩

/-- Usage at 80 percent of the total is remembered. -/
def Remembers (db : BudgetDb) : Prop := db.reached WARNING_PCT = true → WARNING_PCT ≤ db.last_warn_pct

/-- Whatever was remembered before, the check puts it right. -/
theorem evaluate_remembers (db : BudgetDb) (actor : Option String) :
    Remembers (db.evaluate_thresholds_locked actor).2 := by
  intro hw
  have hreached : db.reached WARNING_PCT = true := hw
  rw [evaluate_last, hreached]
  simp only [Bool.true_eq_false, false_and, if_false, true_and]
  split_ifs with _ _ hlow
  · exact le_rfl
  · decide
  · exact le_rfl
  · exact Nat.not_lt.mp hlow

theorem Posted.remembers {db db' : BudgetDb} {c : Call} {posts : List Post} (h : Posted db c posts db')
    (hr : Remembers db) : Remembers db' := by
  cases h with
  | checked base actor => exact evaluate_remembers base actor
  | charged base actor => exact evaluate_remembers base actor
  | refused _ _ _ _ _ htotal hused hlast =>
      intro hw
      obtain hlast | hlast := hlast
      · -- the usage has not grown
        rw [hlast]
        apply hr
        rw [reached_iff] at hw ⊢
        rw [htotal] at hw
        omega
      · rw [hlast]
        decide

theorem remembers_step (b : Budget) (c : Call) (hr : Remembers b.db) : Remembers (step b c).db := by
  obtain ⟨hsame, -⟩ | ⟨hposted, -⟩ := step_posted b c
  · rw [hsame]
    exact hr
  · exact hposted.remembers hr

/-! ## One call -/

/-- After a check the usage is the one asked for; without one it has not grown. -/
theorem Posted.zone {db db' : BudgetDb} {c : Call} {posts : List Post} (h : Posted db c posts db')
    (hbelow : db.reached WARNING_PCT = false) :
    in_zone db'.total_units db'.used = (asked db c).any (fun (total, usage) => in_zone total usage) := by
  cases h with
  | checked base actor _ _ hasked =>
      rw [hasked]
      rfl
  | charged base actor _ _ _ hasked =>
      rw [hasked]
      rfl
  | refused _ _ _ hasked _ htotal hused =>
      rw [hasked, Option.any_none, in_zone_iff, Bool.and_eq_false_iff]
      left
      rw [Bool.eq_false_iff, Ne, reached_iff] at hbelow ⊢
      rw [htotal]
      omega

/-- A crossing is told from the state before the call. -/
theorem crosses_eq_enters (b : Budget) (c : Call) : crosses b c = enters b.db c := by
  unfold crosses enters
  cases hbelow : b.db.reached WARNING_PCT with
  | true => rfl
  | false =>
      obtain ⟨hsame, hasked⟩ | ⟨hposted, -⟩ := step_posted b c
      · rw [hsame, hasked, in_zone_iff, hbelow]
        rfl
      · rw [hposted.zone hbelow]

/-- What a call adds that looks at the thresholds after it has posted `lead`. -/
theorem check_warns {b : Budget} {c : Call} (hr : Remembers b.db) {base : BudgetDb} {actor : Option String}
    {lead : List Post} (hlead : ∀ p ∈ lead, p.kind ≠ .BUDGET_WARNING)
    (hlast : base.last_warn_pct = b.db.last_warn_pct) (hasked : asked b.db c = some (base.total_units, base.used))
    (hposts : c.posts b.db = lead ++ (base.evaluate_thresholds_locked actor).1) :
    (EventStore.appendAll (c.posts b.db) b.events).2.rows_of .BUDGET_WARNING =
      b.events.rows_of .BUDGET_WARNING + (enters b.db c && decide (Warns b c)).toNat := by
  have henters : enters b.db c = (!b.db.reached WARNING_PCT && in_zone base.total_units base.used) := by
    rw [enters, hasked]
    rfl
  obtain ⟨hzone, hlow, hpost⟩ | ⟨hno, hpost⟩ := evaluate_posts base actor
  · -- below 80 percent as remembered, so below 80 percent
    have hbelow : b.db.reached WARNING_PCT = false := by
      rw [Bool.eq_false_iff]
      intro hw
      have hle := hr hw
      omega
    have hwarns : decide (Warns b c) = b.events.accepts (c.posts b.db) := by
      rw [Bool.eq_iff_iff, decide_eq_true_eq]
      exact and_iff_right (hlast ▸ hlow)
    rw [henters, hbelow, hzone, hwarns, hposts, hpost, EventStore.rows_of_last hlead rfl]
    rfl
  · have hnone : (enters b.db c && decide (Warns b c)) = false := by
      rw [Bool.eq_false_iff, Ne, Bool.and_eq_true, decide_eq_true_eq, henters, Bool.and_eq_true]
      rintro ⟨⟨-, hzone⟩, hlow, -⟩
      exact hno ⟨hzone, hlast ▸ hlow⟩
    rw [hnone, hposts, EventStore.rows_of_others]
    · rfl
    · intro p hp
      obtain hp | hp := List.mem_append.mp hp
      · exact hlead p hp
      · exact hpost p hp

/-- **A warning for a crossing.** A call adds one warning to the log if it crosses and nothing stands between, and
    none otherwise. -/
theorem warnings_step (b : Budget) (c : Call) (hr : Remembers b.db) :
    warnings (step b c) = warnings b + (crosses b c && decide (Warns b c)).toNat := by
  rw [crosses_eq_enters]
  obtain ⟨hsame, hasked⟩ | ⟨hposted, hevents⟩ := step_posted b c
  · rw [hsame, enters, hasked, Option.any_none, Bool.and_false, Bool.false_and]
    rfl
  · unfold warnings
    rw [hevents]
    generalize hposts : c.posts b.db = posts at hposted
    generalize (step b c).db = db' at hposted
    cases hposted with
    | checked base actor _ hlast hasked =>
        rw [← hposts]
        exact check_warns hr (List.forall_mem_nil _) hlast hasked hposts
    | charged base actor expense _ hlast hasked =>
        have hlead : ∀ p ∈ [charged_post expense], p.kind ≠ .BUDGET_WARNING := by simp [charged_post]
        rw [← hposts]
        exact check_warns hr hlead hlast hasked hposts
    | refused _ _ hkinds hasked =>
        have hothers : ∀ p ∈ posts, p.kind ≠ .BUDGET_WARNING := by
          intro p hp
          rw [hkinds p hp]
          decide
        rw [EventStore.rows_of_others hothers, enters, hasked, Option.any_none, Bool.and_false, Bool.false_and]
        rfl

/-! ## Whole runs -/

/-- **Warnings and crossings.** In every run on a new budget, the log gains exactly as many `BUDGET_WARNING` events
    as there are calls that move the usage from below 80 percent to at least 80 and below 100 percent, exactly if
    every call that asks for such a move finds a remembered percentage below 80 and a store that takes its events. -/
theorem warnings_match_iff (events : EventStore) (calls : List Call) :
    warnings (exec step (fresh events) calls) =
        events.rows_of .BUDGET_WARNING + tally step crosses (fresh events) calls ↔
      Along step (fun b c => enters b.db c = true → Warns b c) (fresh events) calls := by
  have hfresh : Remembers (fresh events).db := by
    intro hw
    cases hw
  have hiff := tally_eq_iff remembers_step warnings_step hfresh calls
  simp only [crosses_eq_enters, decide_eq_true_eq] at hiff
  exact hiff

/-- A reservation of 85 percent is released, and the same amount charged: two crossings, one warning. -/
theorem released_warning_lost :
    warnings (exec step (fresh .quiet) [.set_total ⟨10000⟩, .reserve ⟨8500⟩ "llm", .release 0,
        .charge none ⟨8500⟩ .LLM "turn" none]) = 1 ∧
      tally step crosses (fresh .quiet) [.set_total ⟨10000⟩, .reserve ⟨8500⟩ "llm", .release 0,
        .charge none ⟨8500⟩ .LLM "turn" none] = 2 := by decide +kernel

end Budget

end CompanyFactory
