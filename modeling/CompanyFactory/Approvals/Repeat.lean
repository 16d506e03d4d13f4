import CompanyFactory.Approvals.Queues

/-!
# `Approvals.Repeat` — the same decision twice

A decision on an approval that has left `PENDING` is answered with the row if the outcome is the same, and nothing
is written. But `decide` does not ask whose leg is open: an approval by Security closes the security leg and leaves
the row pending, so the same call again is taken for the decision on the main leg.
-/

namespace CompanyFactory

namespace Approvals

open Machine

/-- The decisions in the log. -/
def decisions (a : Approvals) : List Event := a.events.log.filter (fun e => e.kind == .APPROVAL_DECIDED)

/-- Nobody can tell the two states apart by the row, by the decisions in the log or by a queue. -/
structure SameDecisions (rid : String) (a b : Approvals) : Prop where
  row : find b.rows rid = find a.rows rid
  log : decisions b = decisions a
  queues : ∀ decider, pending_for b.rows decider = pending_for a.rows decider

/-- The call approves while the security leg of the approval is open. -/
def clears_security (a : Approvals) (request_id : String) (decision : Decision) : Prop :=
  decision = .APPROVE ∧
    ∃ row, find a.rows request_id = some row ∧ row.status = .PENDING ∧ in_security_step row = true

/-- **A decision on a decided approval**, with the outcome it has: the row is returned and nothing happens. -/
theorem decide_decided {a : Approvals} {request_id : String} {decision : Decision} {row : Approval}
    (hrow : find a.rows request_id = some row) (hstatus : row.status = decision.status) (decider_id : String)
    (note : Option String) (now : Time) :
    Approvals.decide request_id decider_id decision note now a = (.ok row, a) := by
  have hclosed : row.status ≠ .PENDING := by
    rw [hstatus]
    cases decision <;> simp [Decision.status]
  have htx : decide_tx request_id decider_id decision note now a.rows = .ok (row, [], a.rows) := by
    unfold decide_tx
    simp only [hrow]
    rw [if_pos hclosed, if_pos hstatus]
  exact transact_silent htx

/-- After a decision that has not cleared the security leg only, the approval has the outcome asked for. -/
theorem decided_status {a : Approvals} {request_id decider_id : String} {decision : Decision}
    {note : Option String} {now : Time} {r : Approval}
    (h : (Approvals.decide request_id decider_id decision note now a).1 = .ok r)
    (hno : ¬ clears_security a request_id decision) :
    ∃ row, find (Approvals.decide request_id decider_id decision note now a).2.rows request_id = some row ∧
      row.status = decision.status := by
  obtain ⟨notices, rows, htx, hrows⟩ := transact_returns h
  obtain ⟨row, hrow, ⟨-, hstatus, -, rfl⟩ | ⟨hpending, -, -⟩⟩ := decide_tx_ok htx
  · rw [Approvals.decide, hrows]
    exact ⟨row, hrow, hstatus⟩
  · refine ⟨_, find_decided hrow hpending decider_id decision note now, ?_⟩
    cases hstep : in_security_step row with
    | false => rw [decided_row_main hstep]
    | true =>
        cases decision with
        | DENY => exact decided_row_vetoed hstep decider_id note now
        | APPROVE => exact absurd ⟨rfl, row, hrow, hpending, hstep⟩ hno

/-- After Security's approval the row is pending, with its security leg closed. -/
theorem cleared_row {a : Approvals} {request_id : String} {decision : Decision}
    (hclears : clears_security a request_id decision) (decider_id : String) (note : Option String) (now : Time) :
    ∃ row, find (Approvals.decide request_id decider_id decision note now a).2.rows request_id = some row ∧
      row.status = .PENDING ∧ in_security_step row = false := by
  obtain ⟨rfl, row, hrow, hpending, hstep⟩ := hclears
  refine ⟨_, find_decided hrow hpending decider_id .APPROVE note now, ?_⟩
  rw [decided_row_cleared hstep]
  exact ⟨hpending, by simp [in_security_step]⟩

/-- A decision on the main leg changes the row. -/
theorem main_leg_changes {a : Approvals} {request_id : String} {row : Approval}
    (hrow : find a.rows request_id = some row) (hpending : row.status = .PENDING)
    (hstep : in_security_step row = false) (decider_id : String) (decision : Decision) (note : Option String)
    (now : Time) :
    find (Approvals.decide request_id decider_id decision note now a).2.rows request_id ≠ some row := by
  rw [find_decided hrow hpending, decided_row_main hstep]
  intro hsame
  have hstatus : decision.status = row.status := congrArg Approval.status (Option.some.inj hsame)
  rw [hpending] at hstatus
  cases decision <;> cases hstatus

/-- **Deciding twice.** In every reachable state, a decision that has succeeded leaves, when it is sent again, the row,
    the decisions in the log and the queues as they are, exactly if it was no approval on an open security leg. And
    then the second call does nothing at all. -/
theorem decide_twice_iff (config : ApprovalsConfig) (events : EventStore) (calls : List Call)
    (request_id decider_id : String) (decision : Decision) (note : Option String) (now later : Time) (r : Approval)
    (h : (Approvals.decide request_id decider_id decision note now
      (exec step (fresh config events) calls)).1 = .ok r) :
    (SameDecisions request_id
        (Approvals.decide request_id decider_id decision note now (exec step (fresh config events) calls)).2
        (Approvals.decide request_id decider_id decision note later
          (Approvals.decide request_id decider_id decision note now (exec step (fresh config events) calls)).2).2 ↔
      ¬ clears_security (exec step (fresh config events) calls) request_id decision) ∧
    (¬ clears_security (exec step (fresh config events) calls) request_id decision →
      (Approvals.decide request_id decider_id decision note later
        (Approvals.decide request_id decider_id decision note now (exec step (fresh config events) calls)).2).2 =
      (Approvals.decide request_id decider_id decision note now (exec step (fresh config events) calls)).2) := by
  generalize exec step (fresh config events) calls = a at h ⊢
  have hagain : ¬ clears_security a request_id decision →
      (Approvals.decide request_id decider_id decision note later
        (Approvals.decide request_id decider_id decision note now a).2).2 =
      (Approvals.decide request_id decider_id decision note now a).2 := by
    intro hno
    obtain ⟨row, hrow, hstatus⟩ := decided_status h hno
    rw [decide_decided hrow hstatus]
  refine ⟨⟨fun hsame hclears => ?_, fun hno => ?_⟩, hagain⟩
  · -- the second call finds the main leg open
    obtain ⟨row, hrow, hpending, hstep⟩ := cleared_row hclears decider_id note now
    apply main_leg_changes hrow hpending hstep decider_id decision note later
    rw [hsame.row, hrow]
  · rw [hagain hno]
    exact ⟨rfl, rfl, fun _ => rfl⟩

/-- An external action that Security denies, and denies again. -/
theorem denied_twice :
    SameDecisions "x1"
      (Approvals.decide "x1" "security" .DENY none 1 (exec step (fresh {} .quiet)
        [.request external_action "" 0])).2
      (Approvals.decide "x1" "security" .DENY none 2 (Approvals.decide "x1" "security" .DENY none 1
        (exec step (fresh {} .quiet) [.request external_action "" 0])).2).2 := by
  refine (decide_twice_iff {} .quiet [.request external_action "" 0] "x1" "security" .DENY none 1 2
    (decided_row (new_row {} external_action "x1" 0) "security" .DENY none 1) rfl).1.mpr ?_
  rintro ⟨hno, -⟩
  cases hno

/-- The calls with which Security approves the external action, once and once more. -/
def security_approves (now : Time) (a : Approvals) : Except Exn Approval × Approvals :=
  Approvals.decide "x1" "security" .APPROVE none now a

/-- Security's approval is sent a second time: the approval was pending, and now it is `APPROVED`. -/
theorem approved_by_repeating :
    ((security_approves 1 (exec step (fresh {} .quiet) [.request external_action "" 0])).1.map
        Approval.status = .ok .PENDING ∧
      (security_approves 2 (security_approves 1 (exec step (fresh {} .quiet)
        [.request external_action "" 0])).2).1.map Approval.status = .ok .APPROVED) ∧
    ¬ SameDecisions "x1" (security_approves 1 (exec step (fresh {} .quiet) [.request external_action "" 0])).2
      (security_approves 2 (security_approves 1 (exec step (fresh {} .quiet)
        [.request external_action "" 0])).2).2 := by
  refine ⟨⟨rfl, rfl⟩, fun hsame => ?_⟩
  have hstatus := congrArg (Option.map Approval.status) hsame.row
  revert hstatus
  decide +kernel

end Approvals

end CompanyFactory
