import CompanyFactory.Lib.FileTree
import CompanyFactory.SecurityAgent.StaticRules
import CompanyFactory.Storage.Models

/-!
# `SecurityAgent.PersonaPath` — the rule for persona paths

The rule is about paths that leave the workspace. It compares the text of a path, as it is written, with the text of the
root, and asks of a path without it for its first two characters. A path leaves the root by its components, at any place.

* `reported_iff` — what the rule looks at.
* `containment_iff` — **exactly when** it reports the paths outside the root, by four kinds of paths that it misreads.
-/

namespace CompanyFactory

namespace StaticRules

open FileTree

variable (repr : Json → String)

/-- `str(approval.payload.get("persona_ref", ""))` -/
def persona_ref (approval : Approval) : String := py_str repr ((approval.payload.lookup "persona_ref").getD (.str ""))

/-! ## Containment -/

/-- A path as text, read from a directory and normalised. -/
def resolve_from (base : List String) (path : String) : List String :=
  normal (if is_absolute path then [] else base) (parts path)

/-- The path lies outside the root; a relative root is read from the working directory, and a relative path from the
root. -/
def Outside (cwd : List String) (workspace_root path : String) : Prop :=
  ¬ resolve_from cwd workspace_root <+: resolve_from (resolve_from cwd workspace_root) path

instance (cwd : List String) (workspace_root path : String) : Decidable (Outside cwd workspace_root path) :=
  inferInstanceAs (Decidable (¬ _ <+: _))

/-! ## What the rule reports -/

variable {repr} {approval : Approval} {ctx : RuleContext}

theorem startswith_slash (path : String) : startswith path "/" = is_absolute path := by
  unfold startswith is_absolute
  rcases path.toList with _ | ⟨c, rest⟩
  · rfl
  · show ['/'].isPrefixOf (c :: rest) = decide (some c = some '/')
    rw [Bool.eq_iff_iff, List.isPrefixOf_iff_prefix, List.cons_prefix_cons, decide_eq_true_iff, Option.some_inj]
    simp [eq_comm]

theorem reported_iff (hkind : approval.kind = .HIRE) :
    rule_persona_path_outside_workspace repr approval ctx ≠ [] ↔
      contains (persona_ref repr approval) "/" = true ∧
        (startswith (persona_ref repr approval) ".." = true ∨ is_absolute (persona_ref repr approval) = true) ∧
        startswith (persona_ref repr approval) ctx.workspace_root = false := by
  have hempty : contains "" "/" = false := by simp [contains]
  have hdef : py_str repr ((approval.payload.lookup "persona_ref").getD (.str "")) = persona_ref repr approval := rfl
  unfold rule_persona_path_outside_workspace
  simp only [hdef, startswith_slash]
  rw [if_neg (fun hne => hne hkind)]
  generalize persona_ref repr approval = path
  split
  · next hnone => simp [hnone, hempty]
  · split
    · next hplain =>
      rw [Bool.not_eq_true'] at hplain
      simp [hplain]
    · next hslash =>
      rw [Bool.not_eq_true', Bool.not_eq_false] at hslash
      split
      · next hshape =>
        rw [Bool.and_eq_true, Bool.or_eq_true, Bool.not_eq_true'] at hshape
        exact iff_of_true (List.cons_ne_nil _ _) ⟨hslash, hshape⟩
      · next hshape =>
        rw [Bool.and_eq_true, Bool.or_eq_true, Bool.not_eq_true'] at hshape
        exact iff_of_false (fun hne => hne rfl) fun h => hshape h.2

/-! ## The paths that are misread -/

/-- The names that the path climbs out of the root come again where it stands. -/
def Returns (root : List String) (path : String) : Prop :=
  root.drop (root.length - (trail (parts path)).climbed) <+: (trail (parts path)).standing

/-- The names that the path stands at begin with those of the root. -/
def StandsIn (root : List String) (path : String) : Prop := root <+: (trail (parts path)).standing

/-- **The four kinds of paths that are misread.** -/
inductive Misread (workspace_root : String) (root : List String) (path : String) : Prop where
  /-- an absolute path whose text begins like the root, and goes on to a name that only looks like it, or up again -/
  | strays : is_absolute path = true → startswith path workspace_root = true → ¬ StandsIn root path → Misread _ _ _
  /-- an absolute path into the root in another spelling: with a dot, a second slash, or a way back -/
  | respelled : is_absolute path = true → startswith path workspace_root = false → StandsIn root path → Misread _ _ _
  /-- a relative path that begins with two dots, and does not leave the root or returns to it -/
  | comes_back : is_absolute path = false → startswith path ".." = true → startswith path workspace_root = false →
      Returns root path → Misread _ _ _
  /-- a relative path that climbs out of the root where the rule does not look -/
  | slips_out : is_absolute path = false → (startswith path ".." = false ∨ startswith path workspace_root = true) →
      ¬ Returns root path → Misread _ _ _

theorem outside_absolute {cwd : List String} {workspace_root path : String} (h : is_absolute path = true) :
    Outside cwd workspace_root path ↔ ¬ StandsIn (resolve_from cwd workspace_root) path := by
  unfold Outside StandsIn
  generalize resolve_from cwd workspace_root = root
  rw [resolve_from, if_pos h, normal_root]

theorem outside_relative {cwd : List String} {workspace_root path : String} (h : is_absolute path = false) :
    Outside cwd workspace_root path ↔ ¬ Returns (resolve_from cwd workspace_root) path := by
  unfold Outside Returns
  generalize resolve_from cwd workspace_root = root
  rw [resolve_from, if_neg (by simp [h]), prefix_normal_iff]

theorem misread_absolute {workspace_root path : String} {root : List String} (h : is_absolute path = true) :
    Misread workspace_root root path ↔ (startswith path workspace_root = true ↔ ¬ StandsIn root path) := by
  constructor
  · intro hmisread
    cases hmisread with
    | strays _ htext hnames => exact iff_of_true htext hnames
    | respelled _ htext hnames => exact iff_of_false (by simp [htext]) (fun hnot => hnot hnames)
    | comes_back hrel _ _ _ => simp [h] at hrel
    | slips_out hrel _ _ => simp [h] at hrel
  · intro hiff
    by_cases htext : startswith path workspace_root = true
    · exact .strays h htext (hiff.mp htext)
    · exact .respelled h (by simpa using htext) (not_not.mp fun hnot => htext (hiff.mpr hnot))

theorem misread_relative {workspace_root path : String} {root : List String} (h : is_absolute path = false) :
    Misread workspace_root root path ↔
      (startswith path ".." = true ∧ startswith path workspace_root = false ↔ Returns root path) := by
  constructor
  · intro hmisread
    cases hmisread with
    | strays habs _ _ => simp [h] at habs
    | respelled habs _ _ => simp [h] at habs
    | comes_back _ hdots htext hreturns => exact iff_of_true ⟨hdots, htext⟩ hreturns
    | slips_out _ hshape hreturns =>
      refine iff_of_false ?_ hreturns
      rintro ⟨hdots, htext⟩
      rcases hshape with hno | hroot
      · simp [hdots] at hno
      · simp [htext] at hroot
  · intro hiff
    by_cases hreturns : Returns root path
    · obtain ⟨hdots, htext⟩ := hiff.mpr hreturns
      exact .comes_back h hdots htext hreturns
    · refine .slips_out h ?_ hreturns
      by_contra hno
      rw [not_or, Bool.not_eq_false, Bool.not_eq_true] at hno
      exact hreturns (hiff.mp hno)

/-- **The rule reports the paths outside the root exactly where it misreads none.** -/
theorem containment_iff (cwd : List String) (hkind : approval.kind = .HIRE) :
    (rule_persona_path_outside_workspace repr approval ctx ≠ [] ↔
        contains (persona_ref repr approval) "/" = true ∧ Outside cwd ctx.workspace_root (persona_ref repr approval)) ↔
      ¬ (contains (persona_ref repr approval) "/" = true ∧
        Misread ctx.workspace_root (resolve_from cwd ctx.workspace_root) (persona_ref repr approval)) := by
  rw [reported_iff hkind]
  generalize persona_ref repr approval = path
  cases contains path "/" with
  | false => simp
  | true =>
    simp only [true_and]
    cases habs : is_absolute path with
    | true =>
      rw [outside_absolute habs, misread_absolute habs]
      cases startswith path ctx.workspace_root with
      | true => simp
      | false => simp
    | false =>
      rw [outside_relative habs, misread_relative habs]
      simp only [Bool.false_eq_true, or_false]
      tauto

/-- An approval of a hire with a persona. -/
def hire_with (persona_ref : String) : Approval :=
  { request_id := "r1", kind := .HIRE, requester_id := "hr", payload := [("persona_ref", .str persona_ref)]
    route := { target := .SECURITY, valid := rfl }, status := .PENDING, expires_at := 0, created_at := 0 }

theorem containment_iff_default :
    (rule_persona_path_outside_workspace (fun _ => "") (hire_with "default") {} ≠ [] ↔
        contains (persona_ref (fun _ => "") (hire_with "default")) "/" = true ∧
          Outside [] "/data/companies" (persona_ref (fun _ => "") (hire_with "default"))) ↔
      ¬ (contains (persona_ref (fun _ => "") (hire_with "default")) "/" = true ∧
        Misread "/data/companies" (resolve_from [] "/data/companies")
          (persona_ref (fun _ => "") (hire_with "default"))) :=
  containment_iff [] rfl

/-- A path that begins like the root and goes up again is not reported, and neither is one that goes up after a name. -/
theorem traversals_not_reported :
    ¬ (rule_persona_path_outside_workspace (fun _ => "") (hire_with "/data/companies/../../etc/passwd") {} ≠ [] ↔
        contains "/data/companies/../../etc/passwd" "/" = true ∧
          Outside [] "/data/companies" "/data/companies/../../etc/passwd") ∧
      ¬ (rule_persona_path_outside_workspace (fun _ => "") (hire_with "acme/../../secrets") {} ≠ [] ↔
        contains "acme/../../secrets" "/" = true ∧ Outside [] "/data/companies" "acme/../../secrets") := by
  constructor
  · intro h
    exact h.mpr ⟨by decide, by decide⟩ (by decide)
  · intro h
    exact h.mpr ⟨by decide, by decide⟩ (by decide)

end StaticRules

end CompanyFactory
