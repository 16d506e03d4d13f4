import CompanyFactory.Approvals.Service

/-!
# `SecurityAgent.Policy` — the review of an approval

`review_approval` looks at the findings of the static rules for one approval and, on a high finding, asks
the reviewer model if there is one; then it records its decision through `Approvals.decide`. The findings
and the answer of the reviewer are inputs here. The approval it is given is a snapshot: the table may
have moved on, which is why `decide` looks the row up again.
-/

namespace CompanyFactory

inductive Severity where
  | INFO | WARN | HIGH | CRITICAL
  deriving DecidableEq, Repr

def Severity.value : Severity → String
  | .INFO => "info"
  | .WARN => "warn"
  | .HIGH => "high"
  | .CRITICAL => "critical"

/-- `_SEVERITY_ORDER` -/
def Severity.order : Severity → Nat
  | .INFO => 0
  | .WARN => 1
  | .HIGH => 2
  | .CRITICAL => 3

/-- One signal raised by a static rule or a scan. -/
structure SecurityFinding where
  severity : Severity
  rule : String
  description : String
  evidence : Fields := []
  suggested_action : String := ""
  subject_agent : Option String := none
  deriving DecidableEq

inductive ReviewOutcome where
  | APPROVED | DENIED | DEFERRED
  deriving DecidableEq, Repr

structure ReviewResult where
  outcome : ReviewOutcome
  findings : List SecurityFinding
  reason : String
  deriving DecidableEq

/-- `_max_severity` -/
def max_severity (findings : List SecurityFinding) : Option Severity :=
  findings.foldl (fun best f =>
    match best with
    | none => some f.severity
    | some s => if s.order < f.severity.order then some f.severity else some s) none

/-- `_findings_note` -/
def findings_note (findings : List SecurityFinding) : String :=
  if findings = [] then "no_findings"
  else String.intercalate "; " ((findings.take 3).map (fun f => f.severity.value ++ ":" ++ f.rule))

/-- The answer of the LLM reviewer; it may raise. -/
abbrev LLMReview := Except Exn (Decision × String)

namespace SecurityPolicy

open Approvals

/-- `_record_decision` -/
def record_decision (agent_id : String) (approval : Approval) (decision : Decision) (note : String)
    (now : Time) : Act Approvals Exn Unit :=
  if approval.require_security then do
    let _ ← Approvals.decide approval.request_id agent_id decision (some note) now
    pure ()
  else pure ()

/-- `_emit_veto` -/
def emit_veto (agent_id : String) (approval : Approval) (findings : List SecurityFinding)
    (note : String) : Act Approvals Exn Unit :=
  append_events [{
    kind := .SECURITY_VETO
    payload := [("target", .str approval.requester_id),
      ("rule", .str ((findings.head?.map SecurityFinding.rule).getD "unspecified")),
      ("note", .str (if note = "" then findings_note findings else note))]
    actor := some agent_id }]

/-- `review_approval`; `llm_reviewer` is the reviewer's answer, if a reviewer is configured. -/
def review_approval (agent_id : String) (approval : Approval) (findings : List SecurityFinding)
    (llm_reviewer : Option LLMReview) (now : Time) : Act Approvals Exn ReviewResult :=
  match max_severity findings with
  | some .CRITICAL => do
      record_decision agent_id approval .DENY (findings_note findings) now
      emit_veto agent_id approval findings ""
      pure { outcome := .DENIED, findings, reason := "critical_finding" }
  | some .HIGH =>
    match llm_reviewer with
    | none => pure { outcome := .DEFERRED, findings, reason := "needs_human_review" }
    | some (.error e) => Act.raise e
    | some (.ok (.DENY, note)) => do
        record_decision agent_id approval .DENY note now
        emit_veto agent_id approval findings note
        pure { outcome := .DENIED, findings, reason := "llm_denied:" ++ note }
    | some (.ok (.APPROVE, note)) => do
        record_decision agent_id approval .APPROVE note now
        pure { outcome := .APPROVED, findings, reason := "llm_approved:" ++ note }
  | _ => do
      record_decision agent_id approval .APPROVE "auto_clear" now
      pure { outcome := .APPROVED, findings, reason := "auto_clear" }

/-- The decision the review records, with its note. -/
def verdict (findings : List SecurityFinding) (llm_reviewer : Option LLMReview) :
    Option (Decision × String) :=
  match max_severity findings with
  | some .CRITICAL => some (.DENY, findings_note findings)
  | some .HIGH =>
    match llm_reviewer with
    | some (.ok (decision, note)) => some (decision, note)
    | _ => none
  | _ => some (.APPROVE, "auto_clear")

/-- A computation followed by one that leaves the table alone. -/
theorem bind_rows {α β : Type} {m : Act Approvals Exn α} {f : α → Act Approvals Exn β}
    (hf : ∀ r b, (f r b).2.rows = b.rows) (a : Approvals) : ((m >>= f) a).2.rows = (m a).2.rows := by
  rw [Act.bind_run]
  rcases m a with ⟨_ | r, b⟩
  · rfl
  · exact hf r b

theorem record_decision_rows (agent_id : String) (approval : Approval) (decision : Decision)
    (note : String) (now : Time) (a : Approvals) :
    (record_decision agent_id approval decision note now a).2.rows =
      if approval.require_security then
        (Approvals.decide approval.request_id agent_id decision (some note) now a).2.rows
      else a.rows := by
  unfold record_decision
  split
  · exact bind_rows (fun _ _ => rfl) a
  · rfl

/-- **What a review writes.** At most the decision of its verdict, and that through `decide`. -/
theorem review_rows (agent_id : String) (approval : Approval) (findings : List SecurityFinding)
    (llm_reviewer : Option LLMReview) (now : Time) (a : Approvals) :
    (review_approval agent_id approval findings llm_reviewer now a).2.rows =
      match verdict findings llm_reviewer with
      | some (decision, note) =>
        if approval.require_security then
          (Approvals.decide approval.request_id agent_id decision (some note) now a).2.rows
        else a.rows
      | none => a.rows := by
  have hveto : ∀ (note : String) (r : ReviewResult) (b : Approvals),
      ((do emit_veto agent_id approval findings note; pure r) b).2.rows = b.rows :=
    fun note r b => bind_rows (fun _ _ => rfl) b
  have hclear : ∀ (decision : Decision) (note : String) (r : ReviewResult),
      ((do record_decision agent_id approval decision note now; pure r) a).2.rows =
        (record_decision agent_id approval decision note now a).2.rows :=
    fun decision note r => bind_rows (fun _ _ => rfl) a
  have hdeny : ∀ (note veto : String) (r : ReviewResult),
      ((do record_decision agent_id approval .DENY note now
           emit_veto agent_id approval findings veto
           pure r) a).2.rows = (record_decision agent_id approval .DENY note now a).2.rows :=
    fun note veto r => bind_rows (fun _ => hveto veto r) a
  cases hsev : max_severity findings with
  | none => simp only [review_approval, verdict, hsev, hclear, record_decision_rows]
  | some severity =>
      cases severity with
      | INFO | WARN => simp only [review_approval, verdict, hsev, hclear, record_decision_rows]
      | CRITICAL => simp only [review_approval, verdict, hsev, hdeny, record_decision_rows]
      | HIGH =>
          rcases llm_reviewer with _ | e | ⟨decision, note⟩
          · simp only [review_approval, verdict, hsev, Act.pure_run]
          · simp only [review_approval, verdict, hsev, Act.raise_run]
          · cases decision with
            | DENY => simp only [review_approval, verdict, hsev, hdeny, record_decision_rows]
            | APPROVE => simp only [review_approval, verdict, hsev, hclear, record_decision_rows]

end SecurityPolicy

end CompanyFactory
