import Mathlib.Data.Rat.Defs
import Mathlib.Tactic.Basic

/-!
# `EventStore.Json` — the JSON values of payloads, arguments and results

Event payloads, approval payloads and tool arguments are `dict[str, Any]` values that are written with
`json.dumps` and read back with `json.loads`. A number stands for its exact value; a field list keeps the
order in which it was written (the code reads fields by name only).
-/

namespace CompanyFactory

inductive Json where
  | null
  | bool (b : Bool)
  | num (q : Rat)
  | str (s : String)
  | arr (xs : List Json)
  | obj (fields : List (String × Json))
  deriving Repr

/-- A `dict[str, Any]`. -/
abbrev Fields := List (String × Json)

namespace Json

/-- A Python `int`. -/
def int (n : Int) : Json := .num n

/-- `str | None` -/
def ofOption : Option String → Json
  | none => .null
  | some s => .str s

mutual

/-- Structural equality. -/
def beq : Json → Json → Bool
  | .null, .null => true
  | .bool a, .bool b => a == b
  | .num a, .num b => a == b
  | .str a, .str b => a == b
  | .arr xs, .arr ys => beqList xs ys
  | .obj xs, .obj ys => beqFields xs ys
  | _, _ => false

def beqList : List Json → List Json → Bool
  | [], [] => true
  | x :: xs, y :: ys => beq x y && beqList xs ys
  | _, _ => false

def beqFields : Fields → Fields → Bool
  | [], [] => true
  | (k, x) :: xs, (l, y) :: ys => k == l && beq x y && beqFields xs ys
  | _, _ => false

end

mutual

theorem beq_iff : ∀ a b : Json, beq a b = true ↔ a = b
  | .null, b => by cases b <;> simp [beq]
  | .bool a, b => by cases b <;> simp [beq]
  | .num a, b => by cases b <;> simp [beq]
  | .str a, b => by cases b <;> simp [beq]
  | .arr xs, b => by
      cases b with
      | arr ys => simpa [beq] using beqList_iff xs ys
      | null | bool | num | str | obj => simp [beq]
  | .obj xs, b => by
      cases b with
      | obj ys => simpa [beq] using beqFields_iff xs ys
      | null | bool | num | str | arr => simp [beq]

theorem beqList_iff : ∀ xs ys : List Json, beqList xs ys = true ↔ xs = ys
  | [], ys => by cases ys <;> simp [beqList]
  | x :: xs, ys => by
      cases ys with
      | nil => simp [beqList]
      | cons y ys => simp [beqList, beq_iff x y, beqList_iff xs ys]

theorem beqFields_iff : ∀ xs ys : Fields, beqFields xs ys = true ↔ xs = ys
  | [], ys => by cases ys <;> simp [beqFields]
  | (k, x) :: xs, ys => by
      cases ys with
      | nil => simp [beqFields]
      | cons y ys =>
          obtain ⟨l, y⟩ := y
          simp [beqFields, beq_iff x y, beqFields_iff xs ys]

end

instance : DecidableEq Json := fun a b => decidable_of_iff _ (beq_iff a b)

end Json

end CompanyFactory
