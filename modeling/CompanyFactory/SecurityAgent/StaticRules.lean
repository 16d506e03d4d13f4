import CompanyFactory.Cost.Amount
import CompanyFactory.SecurityAgent.Policy
import Mathlib.Data.List.Infix

/-!
# `SecurityAgent.StaticRules` — the static rules for an approval

A rule looks at one approval and reports findings. It reads named fields of the payload, and treats a field
that is not there like an empty one.

* `repr` is how Python writes a value that is no string; the rules only put it into texts. A pattern for
  personal data is its source with the search it stands for.
* `ratio >= 0.5` compares the correctly rounded quotient: it is at least one half as soon as the exact one is
  at least `1/2 - 2^-55`.
* `evaluate_default` — the findings of the default rules are the findings of each, one after the other.
-/

namespace CompanyFactory

/-- A compiled pattern: its source, and the first match in a text. -/
structure PiiPattern where
  pattern : String
  search : String → Option String

/-- What the rules for approvals consult. -/
structure RuleContext where
  allowlist_check : String → String → Bool := fun _ _ => true
  budget_total_cents : Int := 0
  pii_patterns : List PiiPattern := []
  workspace_root : String := "/data/companies"

abbrev ApprovalRule := Approval → RuleContext → Except Exn (List SecurityFinding)

namespace StaticRules

variable (repr : Json → String)

/-! ## Python values -/

/-- `str(value)` -/
def py_str : Json → String
  | .str s => s
  | value => repr value

/-- `bool(value)` -/
def truthy : Json → Bool
  | .null => false
  | .bool b => b
  | .num q => decide (q ≠ 0)
  | .str s => decide (s ≠ "")
  | .arr xs => !xs.isEmpty
  | .obj fields => !fields.isEmpty

/-- `int(text)`: digits with single underscores between them, a sign and blanks around them. -/
def parse_int (text : String) : Option Int :=
  let (sign, rest) := Amount.sign (Amount.strip text.toList)
  let groups := rest.splitOn '_'
  if groups.all (fun group => !group.isEmpty && group.all Char.isDigit) then
    some (sign * (Amount.digits 0 0 groups.flatten).1)
  else none

def not_a_number (type_name : String) : Exn :=
  .other "TypeError" ("int() argument must be a string, a bytes-like object or a real number, not '" ++
    type_name ++ "'")

/-- `int(value)` -/
def py_int : Json → Except Exn Int
  | .num q => .ok (if 0 ≤ q then ⌊q⌋ else -⌊-q⌋)
  | .bool b => .ok b.toNat
  | .str s =>
    match parse_int s with
    | some n => .ok n
    | none => .error (.valueError ("invalid literal for int() with base 10: " ++ repr (.str s)))
  | .null => .error (not_a_number "NoneType")
  | .arr _ => .error (not_a_number "list")
  | .obj _ => .error (not_a_number "dict")

/-- A number without decimals, as in `f"{q:.0f}"`. -/
def fixed0 (q : Rat) : String :=
  let down := ⌊q⌋
  let rest := q - down
  toString (if rest < 1 / 2 ∨ (rest = 1 / 2 ∧ down % 2 = 0) then down else down + 1)

mutual

/-- `_flatten` -/
def flatten : Json → String
  | .str s => s
  | .obj fields => " ".intercalate (flatten_fields fields)
  | .arr xs => " ".intercalate (flatten_list xs)
  | value => repr value

def flatten_list : List Json → List String
  | [] => []
  | x :: xs => flatten x :: flatten_list xs

def flatten_fields : Fields → List String
  | [] => []
  | (_, x) :: rest => flatten x :: flatten_fields rest

end

/-- `marker in text` -/
def contains (text marker : String) : Bool := decide (marker.toList <:+: text.toList)

/-- `text.startswith(start)` -/
def startswith (text start : String) : Bool := start.toList.isPrefixOf text.toList

/-! ## The rules -/

def rule_external_call_allowlist (approval : Approval) (ctx : RuleContext) : List SecurityFinding :=
  if approval.kind ≠ .EXTERNAL_ACTION then []
  else
    let service := py_str repr ((approval.payload.lookup "service").getD (.str ""))
    let action := py_str repr ((approval.payload.lookup "action").getD (.str ""))
    if service = "" then []
    else if !ctx.allowlist_check service action then
      [{ severity := .CRITICAL, rule := "external_call_allowlist"
         description := "External call to " ++ service ++ "/" ++ action ++ " is not on the allowlist."
         evidence := [("service", .str service), ("action", .str action)]
         suggested_action := "deny", subject_agent := some approval.requester_id }]
    else []

def rule_expense_threshold (approval : Approval) (ctx : RuleContext) :
    Except Exn (List SecurityFinding) :=
  if approval.kind ≠ .EXPENSE then .ok []
  else if ctx.budget_total_cents ≤ 0 then .ok []
  else
    match py_int repr ((approval.payload.lookup "amount_cents").getD (.int 0)) with
    | .error e => .error e
    | .ok amount =>
      let ratio : Rat := amount / ctx.budget_total_cents
      if (2 ^ 1024 - 2 ^ 970) * ctx.budget_total_cents ≤ amount.natAbs then
        .error (.other "OverflowError" "integer division result too large for a float")
      else if (2 ^ 54 - 1) * ctx.budget_total_cents ≤ 2 ^ 55 * amount then
        .ok [{ severity := .HIGH, rule := "expense_over_50pct_budget"
               description := "Expense (" ++ toString amount ++ " cents) is " ++ fixed0 (ratio * 100) ++
                 "% of the total budget."
               evidence := [("amount_cents", .int amount),
                 ("budget_cents", .int ctx.budget_total_cents), ("ratio", .num ratio)]
               suggested_action := "escalate", subject_agent := some approval.requester_id }]
      else .ok []

/-- `payload.get("to", []) or []`, if it is a list. -/
def recipients (payload : Fields) : List Json :=
  match payload.lookup "to" with
  | some (.arr recipients) => recipients
  | _ => []

def rule_email_recipient_count (approval : Approval) (_ : RuleContext) : List SecurityFinding :=
  if approval.kind ≠ .EXTERNAL_ACTION then []
  else if approval.payload.lookup "service" ≠ some (.str "email") then []
  else
    let recipients := recipients approval.payload
    if 100 ≤ recipients.length then
      [{ severity := .HIGH, rule := "email_mass_send"
         description := "Email to " ++ toString recipients.length ++ " recipients."
         evidence := [("count", .int recipients.length)]
         suggested_action := "escalate", subject_agent := some approval.requester_id }]
    else []

/-- The first pattern with a match, and the match. -/
def first_match (blob : String) : List PiiPattern → Option (PiiPattern × String)
  | [] => none
  | pat :: rest =>
    match pat.search blob with
    | some hit => some (pat, hit)
    | none => first_match blob rest

def rule_pii_in_payload (approval : Approval) (ctx : RuleContext) : List SecurityFinding :=
  match first_match (flatten repr (.obj approval.payload)) ctx.pii_patterns with
  | none => []
  | some (pat, hit) =>
    [{ severity := .HIGH, rule := "pii_in_payload"
       description := "Payload appears to contain PII matching " ++ repr (.str pat.pattern) ++ "."
       evidence := [("pattern", .str pat.pattern), ("match", .str (String.ofList (hit.toList.take 6)))]
       suggested_action := "deny", subject_agent := some approval.requester_id }]

def rule_persona_path_outside_workspace (approval : Approval) (ctx : RuleContext) :
    List SecurityFinding :=
  if approval.kind ≠ .HIRE then []
  else
    let persona_ref := py_str repr ((approval.payload.lookup "persona_ref").getD (.str ""))
    if persona_ref = "" then []
    -- a plain reference, and one under the workspace root, are allowed
    else if !contains persona_ref "/" then []
    else if (startswith persona_ref ".." || startswith persona_ref "/") &&
        !startswith persona_ref ctx.workspace_root then
      [{ severity := .CRITICAL, rule := "persona_path_traversal"
         description := "Persona ref " ++ repr (.str persona_ref) ++ " escapes the workspace."
         evidence := [("persona_ref", .str persona_ref)]
         suggested_action := "deny", subject_agent := some approval.requester_id }]
    else []

def markers : List String := ["<script", "system:", "ignore previous instructions"]

def rule_prompt_injection_marker (approval : Approval) (_ : RuleContext) : List SecurityFinding :=
  if approval.kind ≠ .EXTERNAL_ACTION then []
  else
    let blob := (flatten repr (.obj approval.payload)).toLower
    match markers.find? (contains blob) with
    | none => []
    | some hit =>
      [{ severity := .HIGH, rule := "prompt_injection_marker"
         description := "Payload contains injection marker " ++ repr (.str hit) ++ "."
         evidence := [("marker", .str hit)]
         suggested_action := "deny", subject_agent := some approval.requester_id }]

/-- `_DEFAULT_APPROVAL_RULES` -/
def default_approval_rules : List ApprovalRule :=
  [fun approval ctx => .ok (rule_external_call_allowlist repr approval ctx),
    rule_expense_threshold repr,
    fun approval ctx => .ok (rule_email_recipient_count approval ctx),
    fun approval ctx => .ok (rule_pii_in_payload repr approval ctx),
    fun approval ctx => .ok (rule_persona_path_outside_workspace repr approval ctx),
    fun approval ctx => .ok (rule_prompt_injection_marker repr approval ctx)]

/-- `StaticRuleSet.evaluate` -/
def evaluate : List ApprovalRule → Approval → RuleContext → Except Exn (List SecurityFinding)
  | [], _, _ => .ok []
  | rule :: rules, approval, ctx =>
    match rule approval ctx with
    | .error e => .error e
    | .ok found =>
      match evaluate rules approval ctx with
      | .error e => .error e
      | .ok out => .ok (found ++ out)

/-- The default rules report a finding of this name. -/
def Reports (name : String) (approval : Approval) (ctx : RuleContext) : Prop :=
  ∃ findings, evaluate (default_approval_rules repr) approval ctx = .ok findings ∧
    ∃ finding ∈ findings, finding.rule = name

/-! ## What the default rules report -/

variable {repr} {approval : Approval} {ctx : RuleContext} {expense : List SecurityFinding}

/-- Only the expense rule can raise. -/
theorem evaluate_default (h : rule_expense_threshold repr approval ctx = .ok expense) :
    evaluate (default_approval_rules repr) approval ctx =
      .ok (rule_external_call_allowlist repr approval ctx ++ (expense ++
        (rule_email_recipient_count approval ctx ++ (rule_pii_in_payload repr approval ctx ++
          (rule_persona_path_outside_workspace repr approval ctx ++
            (rule_prompt_injection_marker repr approval ctx ++ [])))))) := by
  unfold default_approval_rules
  simp only [evaluate, h]

theorem allowlist_rule {finding : SecurityFinding}
    (h : finding ∈ rule_external_call_allowlist repr approval ctx) :
    finding.rule = "external_call_allowlist" := by
  unfold rule_external_call_allowlist at h
  dsimp only at h
  split at h
  · cases h
  · split at h
    · cases h
    · split at h
      · rw [List.mem_singleton.mp h]
      · cases h

theorem expense_rule (h : rule_expense_threshold repr approval ctx = .ok expense)
    {finding : SecurityFinding} (hf : finding ∈ expense) :
    finding.rule = "expense_over_50pct_budget" := by
  unfold rule_expense_threshold at h
  dsimp only at h
  split at h
  · cases h
    cases hf
  · split at h
    · cases h
      cases hf
    · split at h
      · cases h
      · split at h
        · cases h
        · split at h
          · cases h
            rw [List.mem_singleton.mp hf]
          · cases h
            cases hf

theorem email_rule {finding : SecurityFinding} (h : finding ∈ rule_email_recipient_count approval ctx) :
    finding.rule = "email_mass_send" := by
  unfold rule_email_recipient_count at h
  dsimp only at h
  split at h
  · cases h
  · split at h
    · cases h
    · split at h
      · rw [List.mem_singleton.mp h]
      · cases h

theorem pii_rule {finding : SecurityFinding} (h : finding ∈ rule_pii_in_payload repr approval ctx) :
    finding.rule = "pii_in_payload" := by
  unfold rule_pii_in_payload at h
  split at h
  · cases h
  · rw [List.mem_singleton.mp h]

theorem persona_rule {finding : SecurityFinding}
    (h : finding ∈ rule_persona_path_outside_workspace repr approval ctx) :
    finding.rule = "persona_path_traversal" := by
  unfold rule_persona_path_outside_workspace at h
  dsimp only at h
  split at h
  · cases h
  · split at h
    · cases h
    · split at h
      · cases h
      · split at h
        · rw [List.mem_singleton.mp h]
        · cases h

theorem marker_rule {finding : SecurityFinding}
    (h : finding ∈ rule_prompt_injection_marker repr approval ctx) :
    finding.rule = "prompt_injection_marker" := by
  unfold rule_prompt_injection_marker at h
  dsimp only at h
  split at h
  · cases h
  · split at h
    · cases h
    · rw [List.mem_singleton.mp h]

/-- The default rules by the name of their findings, with what each reports. -/
def default_parts (repr : Json → String) (approval : Approval) (ctx : RuleContext)
    (expense : List SecurityFinding) : List (String × List SecurityFinding) :=
  [("external_call_allowlist", rule_external_call_allowlist repr approval ctx),
    ("expense_over_50pct_budget", expense),
    ("email_mass_send", rule_email_recipient_count approval ctx),
    ("pii_in_payload", rule_pii_in_payload repr approval ctx),
    ("persona_path_traversal", rule_persona_path_outside_workspace repr approval ctx),
    ("prompt_injection_marker", rule_prompt_injection_marker repr approval ctx)]

/-- In a list of parts whose findings bear the name of their part, a name is found where its part is. -/
theorem named_iff {parts : List (String × List SecurityFinding)}
    (hnamed : ∀ p ∈ parts, ∀ f ∈ p.2, f.rule = p.1) (name : String) :
    (∃ f ∈ parts.flatMap Prod.snd, f.rule = name) ↔ ∃ p ∈ parts, p.1 = name ∧ p.2 ≠ [] := by
  constructor
  · rintro ⟨f, hf, hname⟩
    obtain ⟨p, hp, hf⟩ := List.mem_flatMap.mp hf
    refine ⟨p, hp, ?_, List.ne_nil_of_mem hf⟩
    rw [← hnamed p hp f hf]
    exact hname
  · rintro ⟨p, hp, hname, hne⟩
    obtain ⟨f, hf⟩ := List.exists_mem_of_ne_nil _ hne
    exact ⟨f, List.mem_flatMap.mpr ⟨p, hp, hf⟩, (hnamed p hp f hf).trans hname⟩

/-- **What an approval is reported for**, if the expense rule does not raise. -/
theorem reports_iff (h : rule_expense_threshold repr approval ctx = .ok expense) (name : String) :
    Reports repr name approval ctx ↔
      ∃ p ∈ default_parts repr approval ctx expense, p.1 = name ∧ p.2 ≠ [] := by
  have hnamed : ∀ p ∈ default_parts repr approval ctx expense, ∀ f ∈ p.2, f.rule = p.1 := by
    simp only [default_parts, List.forall_mem_cons, List.not_mem_nil, false_implies, implies_true,
      and_true]
    exact ⟨fun _ => allowlist_rule, fun _ => expense_rule h, fun _ => email_rule, fun _ => pii_rule,
      fun _ => persona_rule, fun _ => marker_rule⟩
  rw [← named_iff hnamed]
  unfold Reports
  rw [evaluate_default h]
  simp only [Except.ok.injEq, exists_eq_left']
  rfl

end StaticRules

end CompanyFactory
