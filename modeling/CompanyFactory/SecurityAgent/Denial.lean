import CompanyFactory.Approvals.Expiry

/-!
# `SecurityAgent.Denial` — what a denying review leaves behind

`review_approval` returns `DENIED` and logs a `SECURITY_VETO` for every approval with a critical finding, or that the
reviewer model denies. It records the denial, through `Approvals.decide`, only if the approval's route asks for the
pre-veto; the rules ask for no such flag, and one of them (`persona_path_traversal`) is about hires, which need no
pre-veto unless their route says so.
-/

namespace CompanyFactory

namespace SecurityPolicy

open Machine Approvals

variable {agent_id : String} {approval : Approval} {findings : List SecurityFinding}
  {llm_reviewer : Option LLMReview} {now : Time} {a : Approvals} {result : ReviewResult}

/-- A review that returns `DENIED` had the verdict to deny. -/
theorem denied_verdict {b : Approvals}
    (h : review_approval agent_id approval findings llm_reviewer now a = (.ok result, b))
    (hdenied : result.outcome = .DENIED) : ∃ note, verdict findings llm_reviewer = some (.DENY, note) := by
  -- the branches that record an approval do not return `DENIED`
  have hclear : ∀ (note reason : String), (do
        record_decision agent_id approval .APPROVE note now
        pure (ReviewResult.mk .APPROVED findings reason) : Act Approvals Exn ReviewResult) a = (.ok result, b) →
      False := by
    intro note reason hrun
    obtain ⟨⟨⟩, c, -, hpure⟩ := Act.bind_eq_ok.mp hrun
    cases hpure
    cases hdenied
  unfold verdict
  unfold review_approval at h
  cases hsev : max_severity findings with
  | none =>
      rw [hsev] at h
      exact (hclear _ _ h).elim
  | some severity =>
      rw [hsev] at h
      cases severity with
      | INFO | WARN => exact (hclear _ _ h).elim
      | CRITICAL => exact ⟨_, rfl⟩
      | HIGH =>
          rcases llm_reviewer with _ | e | ⟨decision, note⟩
          · cases h
            cases hdenied
          · cases h
          · cases decision with
            | APPROVE => exact (hclear _ _ h).elim
            | DENY => exact ⟨note, rfl⟩

/-- The review as a call of the machine. -/
theorem review_step_rows :
    (step a (.review_approval agent_id approval findings llm_reviewer now)).rows =
      (review_approval agent_id approval findings llm_reviewer now a).2.rows := by
  rw [step, handle, Act.bind_pure_state]

/-- **A recorded denial**: the row of an approval that needs the pre-veto is `DENIED`. -/
theorem denial_recorded (agent_id : String) (now : Time) (hrow : find a.rows approval.request_id = some approval)
    (hpending : approval.status = .PENDING) (hreq : approval.require_security = true) {note : String}
    (hverdict : verdict findings llm_reviewer = some (.DENY, note)) :
    ∃ row, find (review_approval agent_id approval findings llm_reviewer now a).2.rows approval.request_id =
      some row ∧ row.status = .DENIED := by
  have hasks : Call.asks (.review_approval agent_id approval findings llm_reviewer now) =
      some (approval.request_id, agent_id, .DENY) := by
    simp [Call.asks, hreq, hverdict]
  obtain ⟨written, hwritten⟩ := asks_decides hasks hrow hpending
  rw [review_step_rows] at hwritten
  refine ⟨_, hwritten, ?_⟩
  cases hstep : in_security_step approval with
  | true => exact decided_row_vetoed hstep agent_id written _
  | false => rw [decided_row_main hstep]; rfl

/-- Without the flag the table stays as it is. -/
theorem denial_not_recorded (hreq : approval.require_security = false) :
    (review_approval agent_id approval findings llm_reviewer now a).2.rows = a.rows := by
  rw [review_rows, hreq]
  cases verdict findings llm_reviewer <;> simp

/-- **A denial is a denial** exactly if it is recorded. For every pending approval in the table that a review returns
    `DENIED` for: the approval is `DENIED` afterwards, and no further calls make it `APPROVED`, exactly if its route
    asks for the pre-veto of Security. -/
theorem denial_denies_iff (a : Approvals) (agent_id : String) (approval : Approval)
    (findings : List SecurityFinding) (llm_reviewer : Option LLMReview) (now : Time) (result : ReviewResult)
    (hrow : find a.rows approval.request_id = some approval) (hpending : approval.status = .PENDING)
    (hreturns : (review_approval agent_id approval findings llm_reviewer now a).1 = .ok result)
    (hdenied : result.outcome = .DENIED) :
    ((∃ row, find (review_approval agent_id approval findings llm_reviewer now a).2.rows approval.request_id =
        some row ∧ row.status = .DENIED) ∧
      ∀ (later : List Call) (row : Approval),
        find (exec step (review_approval agent_id approval findings llm_reviewer now a).2 later).rows
          approval.request_id = some row → row.status ≠ .APPROVED) ↔
      approval.require_security = true := by
  obtain ⟨note, hverdict⟩ := denied_verdict (Prod.ext hreturns rfl) hdenied
  constructor
  · rintro ⟨⟨row, hafter, hstatus⟩, -⟩
    cases hreq : approval.require_security with
    | true => rfl
    | false =>
        -- nothing was written, so the approval is still pending
        rw [denial_not_recorded hreq, hrow] at hafter
        obtain rfl := Option.some.inj hafter
        rw [hpending] at hstatus
        cases hstatus
  · intro hreq
    obtain ⟨row, hafter, hstatus⟩ := denial_recorded agent_id now hrow hpending hreq hverdict
    refine ⟨⟨row, hafter, hstatus⟩, fun later row' hrow' => ?_⟩
    have hfrozen := run_frozen later hafter (by simp [hstatus])
    obtain rfl : row = row' := Option.some.inj (hfrozen.symm.trans hrow')
    simp [hstatus]

/-- A critical finding about an approval. -/
def traversal : SecurityFinding :=
  { severity := .CRITICAL, rule := "persona_path_traversal",
    description := "Persona ref '/etc/passwd' escapes the workspace.", suggested_action := "deny" }

/-- The external action with a critical finding: denied for good. -/
theorem external_action_denied :
    (∃ row, find (review_approval "security" (new_row {} external_action "x1" 0) [traversal] none 1
        (exec step (fresh {} .quiet) [.request external_action "" 0])).2.rows "x1" = some row ∧
      row.status = .DENIED) ∧
    ∀ (later : List Call) (row : Approval),
      find (exec step (review_approval "security" (new_row {} external_action "x1" 0) [traversal] none 1
        (exec step (fresh {} .quiet) [.request external_action "" 0])).2 later).rows "x1" = some row →
      row.status ≠ .APPROVED :=
  (denial_denies_iff (exec step (fresh {} .quiet) [.request external_action "" 0]) "security"
    (new_row {} external_action "x1" 0) [traversal] none 1 ⟨.DENIED, [traversal], "critical_finding"⟩
    rfl rfl rfl rfl).mpr rfl

/-- A hire with a persona from outside of the workspace, to be decided by the board. -/
def outside_hire : ApprovalRequest :=
  { kind := .HIRE, requester_id := "hr-1", payload := [("persona_ref", .str "/etc/passwd")],
    route := { target := .BOARD, valid := ApprovalRoute.board_valid }, request_id := some "h1" }

/-- The review returns `DENIED`, and the board approves the hire afterwards. -/
theorem denied_hire_approved :
    ((review_approval "security" (new_row {} outside_hire "h1" 0) [traversal] none 1
      (exec step (fresh {} .quiet) [.request outside_hire "" 0])).1.map ReviewResult.outcome = .ok .DENIED) ∧
    (find (review_approval "security" (new_row {} outside_hire "h1" 0) [traversal] none 1
      (exec step (fresh {} .quiet) [.request outside_hire "" 0])).2.rows "h1").map Approval.status =
        some .PENDING ∧
    (find (exec step (review_approval "security" (new_row {} outside_hire "h1" 0) [traversal] none 1
      (exec step (fresh {} .quiet) [.request outside_hire "" 0])).2
        [.decide "h1" "user" .APPROVE none 2]).rows "h1").map Approval.status = some .APPROVED := by
  exact ⟨rfl, rfl, rfl⟩

end SecurityPolicy

end CompanyFactory
