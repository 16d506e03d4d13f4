import CompanyFactory.Approvals.Final

/-!
# `Approvals.Expiry` — approvals that come too late

`decide` reads the clock, and never looks at `expires_at`: only `process_timeouts` does. Between the moment at which
an approval expires and the next sweep it can still be approved.

* `approved_step` — how a row comes to be `APPROVED` by one call.
* `swept_in_time` — right after a sweep no decision is late.
* `approved_in_time_iff` — over whole runs.
-/

namespace CompanyFactory

namespace Approvals

open Machine

/-- The clock reading of a call. -/
def Call.now : Call → Time
  | .request _ _ now | .decide _ _ _ _ now | .cancel _ _ _ now | .process_timeouts now
  | .review_approval _ _ _ _ now => now

/-- An approving decision that reaches the main leg of an approval that is still pending, and has expired. -/
def Late (a : Approvals) (c : Call) : Prop :=
  ∃ rid decider_id, c.asks = some (rid, decider_id, .APPROVE) ∧
    ∃ row, find a.rows rid = some row ∧ row.status = .PENDING ∧ in_security_step row = false ∧
      row.expires_at ≤ c.now

/-- Every approval that is `APPROVED` was so before its `expires_at`. -/
def InTime (a : Approvals) : Prop :=
  ∀ rid row, find a.rows rid = some row → row.status = .APPROVED →
    ∃ t, row.decided_at = some t ∧ t < row.expires_at

/-! ## One call -/

/-- A decision on a pending row: the row is `APPROVED` afterwards exactly if the main leg is open and the decision
    approves. -/
theorem decided_row_approved {row : Approval} (hpending : row.status = .PENDING) (decider_id : String)
    (decision : Decision) (note : Option String) (now : Time) :
    (decided_row row decider_id decision note now).status = .APPROVED ↔
      in_security_step row = false ∧ decision = .APPROVE := by
  cases hstep : in_security_step row with
  | true =>
      cases decision with
      | APPROVE => simp [decided_row_cleared hstep, hpending]
      | DENY => simp [decided_row_vetoed hstep]
  | false =>
      rw [decided_row_main hstep]
      cases decision <;> simp [Decision.status]

/-- What the call did to the row: it is the old one, or a decision of the call on the main leg. -/
def ApprovedBy (a : Approvals) (c : Call) (rid : String) (row' : Approval) : Prop :=
  ∃ row decider_id note, c.asks = some (rid, decider_id, .APPROVE) ∧ find a.rows rid = some row ∧
    row.status = .PENDING ∧ in_security_step row = false ∧ row' = decided_row row decider_id .APPROVE note c.now

/-- The table after a `decide`. -/
theorem find_decide {request_id decider_id : String} {decision : Decision} {note : Option String} {now : Time}
    {a : Approvals} {rid : String} {row' : Approval}
    (h : find (Approvals.decide request_id decider_id decision note now a).2.rows rid = some row') :
    find a.rows rid = some row' ∨ request_id = rid ∧ ∃ row, find a.rows rid = some row ∧ row.status = .PENDING ∧
      row' = decided_row row decider_id decision note now := by
  obtain hrows | ⟨row, hrow, hpending, hrows⟩ := decide_rows request_id decider_id decision note now a
  · rw [hrows] at h
    exact .inl h
  · rw [hrows, find_update_row (fun row => decided_row_id row _ _ _ _)] at h
    by_cases heq : request_id = rid
    · subst heq
      rw [if_pos rfl, hrow] at h
      exact .inr ⟨rfl, row, hrow, hpending, (Option.some.inj h).symm⟩
    · rw [if_neg heq] at h
      exact .inl h

/-- **How an approval comes to be `APPROVED`.** -/
theorem approved_step {a : Approvals} {c : Call} {rid : String} {row' : Approval}
    (h : find (step a c).rows rid = some row') (happ : row'.status = .APPROVED) :
    find a.rows rid = some row' ∨ ApprovedBy a c rid row' := by
  have hdecide : ∀ {request_id decider_id : String} {decision : Decision} {note : Option String},
      c.asks = some (request_id, decider_id, decision) →
      find (Approvals.decide request_id decider_id decision note c.now a).2.rows rid = some row' →
      find a.rows rid = some row' ∨ ApprovedBy a c rid row' := by
    intro request_id decider_id decision note hasks hfind
    obtain hsame | ⟨rfl, row, hrow, hpending, rfl⟩ := find_decide hfind
    · exact .inl hsame
    · obtain ⟨hstep, rfl⟩ := (decided_row_approved hpending decider_id decision note c.now).mp happ
      exact .inr ⟨row, decider_id, note, hasks, hrow, hpending, hstep, rfl⟩
  -- the other calls approve nothing
  have hother : c.asks = none → find a.rows rid = some row' ∨ ApprovedBy a c rid row' := by
    intro hasks
    have hstep := row_step c a rid
    rw [h] at hstep
    generalize find a.rows rid = before at hstep
    generalize hafter : some row' = after at hstep
    cases hstep with
    | same => exact .inl rfl
    | created _ _ _ row _ _ _ _ hpending =>
        obtain rfl := Option.some.inj hafter
        simp [hpending] at happ
    | decided row decider_id decision note now hdecides => simp [hasks] at hdecides
    | closed _ row'' _ _ _ hno =>
        obtain rfl := Option.some.inj hafter
        exact absurd happ hno
  cases c with
  | request => exact hother rfl
  | cancel => exact hother rfl
  | process_timeouts => exact hother rfl
  | decide request_id decider_id decision note now =>
      rw [step, handle, Act.bind_pure_state] at h
      exact hdecide rfl h
  | review_approval agent_id approval findings llm_reviewer now =>
      rw [step, handle, Act.bind_pure_state, SecurityPolicy.review_rows] at h
      cases hv : SecurityPolicy.verdict findings llm_reviewer with
      | none =>
          rw [hv] at h
          exact .inl h
      | some v =>
          rw [hv] at h
          dsimp only at h
          split at h
          · rename_i hreq
            exact hdecide (by simp [Call.asks, hreq, hv]) h
          · exact .inl h

/-- A call that is not late keeps every approval in time. -/
theorem in_time_step (a : Approvals) (c : Call) (hin : InTime a) (hc : ¬ Late a c) : InTime (step a c) := by
  intro rid row' hrow' happ
  obtain hsame | ⟨row, decider_id, note, hasks, hrow, hpending, hstep, rfl⟩ := approved_step hrow' happ
  · exact hin rid row' hsame happ
  · rw [decided_row_main hstep]
    refine ⟨c.now, rfl, ?_⟩
    by_contra hle
    exact hc ⟨rid, decider_id, hasks, row, hrow, hpending, hstep, Int.not_lt.mp hle⟩

/-- An asked decision on a pending row takes effect. -/
theorem asks_decides {a : Approvals} {c : Call} {rid decider_id : String} {decision : Decision} {row : Approval}
    (hasks : c.asks = some (rid, decider_id, decision)) (hrow : find a.rows rid = some row)
    (hpending : row.status = .PENDING) :
    ∃ note, find (step a c).rows rid = some (decided_row row decider_id decision note c.now) := by
  cases c with
  | request | cancel | process_timeouts => cases hasks
  | decide request_id decider_id' decision' note now =>
      cases hasks
      rw [step, handle, Act.bind_pure_state]
      exact ⟨note, find_decided hrow hpending _ _ note now⟩
  | review_approval agent_id approval findings llm_reviewer now =>
      by_cases hreq : approval.require_security = true
      · simp only [Call.asks, if_pos hreq] at hasks
        obtain ⟨v, hv, heq⟩ := Option.map_eq_some_iff.mp hasks
        cases heq
        rw [step, handle, Act.bind_pure_state, SecurityPolicy.review_rows, hv]
        dsimp only
        rw [if_pos hreq]
        exact ⟨some v.2, find_decided hrow hpending _ _ _ _⟩
      · simp [Call.asks, hreq] at hasks

/-- A late decision approves what has expired, and no later call takes that back. -/
theorem late_not_in_time {a : Approvals} {c : Call} (hc : Late a c) (later : List Call) :
    ¬ InTime (exec step (step a c) later) := by
  obtain ⟨rid, decider_id, hasks, row, hrow, hpending, hstep, hle⟩ := hc
  obtain ⟨note, hrow'⟩ := asks_decides hasks hrow hpending
  rw [decided_row_main hstep] at hrow'
  intro hin
  have hfrozen := run_frozen later hrow' (by simp [Decision.status])
  obtain ⟨t, hdecided, hlt⟩ := hin rid _ hfrozen rfl
  obtain rfl : c.now = t := Option.some.inj hdecided
  exact absurd hle (Int.not_le.mpr hlt)

/-- Right after a sweep, no decision at its reading or an earlier one is late. -/
theorem swept_in_time (a : Approvals) {now : Time} {c : Call} (hnow : c.now ≤ now) :
    ¬ Late (process_timeouts now a).2 c := by
  rintro ⟨rid, decider_id, -, row, hrow, hpending, -, hle⟩
  have htx : process_timeouts_tx a.config now a.rows = .ok (_, _, _) := rfl
  rw [process_timeouts, (transact_rows htx).1] at hrow
  obtain ⟨old, -, hold⟩ := List.mem_map.mp (Table.mem_of_find hrow)
  have hexpires : old.expires_at = row.expires_at := by
    rw [← hold]
    split <;> rfl
  split at hold
  · -- a row that the sweep has closed
    rw [← hold] at hpending
    unfold timed_out_row at hpending
    dsimp only at hpending
    split at hpending <;> cases hpending
  · rename_i hno
    rw [hold] at hno
    simp only [expired, hpending, decide_true, Bool.true_and, decide_eq_true_eq, Int.not_le] at hno
    exact absurd (Int.le_trans hle hnow) (Int.not_le.mpr hno)

/-! ## Whole runs -/

/-- **No approval after its expiry.** In every run on a new service, with any clock readings, every approval that is
    `APPROVED` at the end was approved before its `expires_at`, exactly if no approving decision reached the main leg
    of an approval that had expired and was still pending. -/
theorem approved_in_time_iff (config : ApprovalsConfig) (events : EventStore) (calls : List Call) :
    InTime (exec step (fresh config events) calls) ↔
      Along step (fun a c => ¬ Late a c) (fresh config events) calls := by
  constructor
  · intro hin
    rw [along_iff_cut]
    rintro pre c post rfl hlate
    rw [exec_append, exec_cons] at hin
    exact late_not_in_time hlate post hin
  · intro halong
    have hfresh : InTime (fresh config events) := by
      intro rid row hrow
      cases hrow
    exact exec_invariant_along in_time_step hfresh halong

/-- An external action of the first day, and both of its approvals after a month without a sweep. -/
def approved_a_month_later : List Call :=
  [.request external_action "" 0, .decide "x1" "security" .APPROVE none (30 * DAY),
    .decide "x1" "user" .APPROVE none (31 * DAY)]

/-- Its clock readings do not decrease, and it is `APPROVED` 30 days after it expired. -/
theorem approved_after_expiry :
    (approved_a_month_later.map Call.now).Pairwise (· ≤ ·) ∧
      ∃ row, find (exec step (fresh {} .quiet) approved_a_month_later).rows "x1" = some row ∧
        row.status = .APPROVED ∧ row.decided_at = some (31 * DAY) ∧ row.expires_at = 1 * DAY := by
  refine ⟨by decide +kernel, _, rfl, rfl, rfl, ?_⟩
  decide +kernel

end Approvals

end CompanyFactory
