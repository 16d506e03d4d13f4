import Mathlib.Data.List.Basic
import Mathlib.Tactic.Basic
import Mathlib.Algebra.GroupWithZero.Nat

/-!
# `Lib.FixedText` — numbers in fixed columns

A number is padded with zeros to the width of its column, and the columns are written one after the other with
separators. If every number fits into its column, the texts are in the order of the lists of numbers, whatever follows.

* `padded_lt` — one column.
* `render_lt` — the columns, and what follows them if the numbers are the same.
-/

namespace FixedText

/-- `%0{width}d` -/
def padded (width n : Nat) : List Char := (Nat.toDigits 10 n).leftpad width '0'

/-- Each number in its column, with the separator after it. -/
def render : List (Nat × List Char) → List Nat → List Char
  | (width, separator) :: columns, n :: ns => padded width n ++ separator ++ render columns ns
  | _, _ => []

/-- The numbers fit into the columns. -/
def Fits : List (Nat × List Char) → List Nat → Prop := List.Forall₂ fun column n => 0 < column.1 ∧ n < 10 ^ column.1

/-! ## Texts in two parts -/

theorem append_lt_append {α : Type} [LT α] {xs ys : List α} (hlength : xs.length = ys.length) (h : xs < ys)
    (as bs : List α) : xs ++ as < ys ++ bs := by
  induction h with
  | nil => cases hlength
  | rel hlt => exact .rel hlt
  | cons _ ih => exact .cons (ih (Nat.succ.inj hlength))

theorem lt_or_eq_of_append_lt {α : Type} [LT α] {xs ys as bs : List α} (hlength : xs.length = ys.length)
    (h : xs ++ as < ys ++ bs) : xs < ys ∨ xs = ys ∧ as < bs := by
  induction xs generalizing ys with
  | nil =>
    obtain rfl := List.eq_nil_of_length_eq_zero hlength.symm
    exact .inr ⟨rfl, h⟩
  | cons x xs ih =>
    cases ys with
    | nil => cases hlength
    | cons y ys =>
      rcases List.cons_lt_cons_iff.mp h with hlt | ⟨rfl, hrest⟩
      · exact .inl (.rel hlt)
      · rcases ih (Nat.succ.inj hlength) hrest with hlt | ⟨rfl, hafter⟩
        · exact .inl (.cons hlt)
        · exact .inr ⟨rfl, hafter⟩

/-! ## One column -/

variable {width n m : Nat}

theorem length_padded (hwidth : 0 < width) (hn : n < 10 ^ width) : (padded width n).length = width := by
  have hdigits := (Nat.length_toDigits_le_iff (by decide) hwidth).mpr hn
  rw [padded, List.leftpad, List.length_append, List.length_replicate]
  omega

/-- The last digit, and what is before it. -/
theorem padded_succ (hwidth : 0 < width) (n : Nat) :
    padded (width + 1) n = padded width (n / 10) ++ [Nat.digitChar (n % 10)] := by
  unfold padded List.leftpad
  by_cases hn : n < 10
  · have hzeros : List.replicate (width - 1) '0' ++ ['0'] = List.replicate width '0' := by
      rw [← List.replicate_succ', Nat.sub_add_cancel hwidth]
    rw [Nat.toDigits_of_lt_base hn, Nat.div_eq_of_lt hn, Nat.toDigits_zero, Nat.mod_eq_of_lt hn]
    simp only [List.length_singleton, Nat.add_sub_cancel, hzeros]
  · rw [Nat.toDigits_of_base_le (by decide) (Nat.not_lt.mp hn), List.length_append, List.length_singleton,
      Nat.add_sub_add_right, List.append_assoc]

theorem digitChar_lt (h : n < m) (hm : m < 10) : Nat.digitChar n < Nat.digitChar m := by
  have hn := Nat.lt_trans h hm
  rw [Char.lt_def, UInt32.lt_iff_toNat_lt]
  show (Nat.digitChar n).toNat < (Nat.digitChar m).toNat
  rw [Nat.toNat_digitChar_of_lt_ten hn, Nat.toNat_digitChar_of_lt_ten hm]
  omega

/-- **Padded numbers are in the order of the numbers**, by induction on the width. -/
theorem padded_lt (hwidth : 0 < width) (h : n < m) (hm : m < 10 ^ width) : padded width n < padded width m := by
  obtain ⟨digits, rfl⟩ := Nat.exists_eq_succ_of_ne_zero (Nat.ne_of_gt hwidth)
  clear hwidth
  induction digits generalizing n m with
  | zero =>
    rw [Nat.pow_one] at hm
    have hn := Nat.lt_trans h hm
    simp only [padded, List.leftpad, Nat.toDigits_of_lt_base hn, Nat.toDigits_of_lt_base hm]
    exact .rel (digitChar_lt h hm)
  | succ digits ih =>
    have hwidth := Nat.succ_pos digits
    rw [padded_succ hwidth, padded_succ hwidth]
    have hfits : m / 10 < 10 ^ (digits + 1) := by
      rw [Nat.pow_succ] at hm
      omega
    rcases Nat.lt_or_eq_of_le (Nat.div_le_div_right (Nat.le_of_lt h) : n / 10 ≤ m / 10) with hlt | heq
    · have hlength : (padded (digits + 1) (n / 10)).length = (padded (digits + 1) (m / 10)).length := by
        rw [length_padded hwidth hfits, length_padded hwidth (Nat.lt_trans hlt hfits)]
      exact append_lt_append hlength (ih hlt hfits) _ _
    · -- the numbers differ in the last digit
      rw [heq]
      exact List.append_left_lt (.rel (digitChar_lt (by omega) (Nat.mod_lt m (by decide))))

theorem isDigit_padded {c : Char} (h : c ∈ padded width n) : c.isDigit = true := by
  rcases List.mem_append.mp h with hzero | hdigit
  · rw [List.eq_of_mem_replicate hzero]
    rfl
  · exact Nat.isDigit_of_mem_toDigits (by decide) (by decide) hdigit

/-! ## All columns -/

theorem mem_render {c : Char} {columns : List (Nat × List Char)} {ns : List Nat} (h : c ∈ render columns ns) :
    c.isDigit = true ∨ ∃ column ∈ columns, c ∈ column.2 := by
  induction columns generalizing ns with
  | nil => cases h
  | cons column columns ih =>
    cases ns with
    | nil => cases h
    | cons n ns =>
      obtain ⟨width, separator⟩ := column
      rcases List.mem_append.mp h with hfront | hrest
      · rcases List.mem_append.mp hfront with hdigit | hseparator
        · exact .inl (isDigit_padded hdigit)
        · exact .inr ⟨(width, separator), List.mem_cons_self, hseparator⟩
      · rcases ih hrest with hdigit | ⟨column, hcolumn, hc⟩
        · exact .inl hdigit
        · exact .inr ⟨column, List.mem_cons_of_mem _ hcolumn, hc⟩

theorem render_lt {columns : List (Nat × List Char)} {ns ms : List Nat} (hns : Fits columns ns) (hms : Fits columns ms)
    {as bs : List Char} (h : ns < ms ∨ ns = ms ∧ as < bs) : render columns ns ++ as < render columns ms ++ bs := by
  induction hns generalizing ms with
  | nil =>
    cases hms
    rcases h with h | ⟨-, h⟩
    · cases h
    · exact h
  | @cons column n columns ns hn hns ih =>
    obtain ⟨width, separator⟩ := column
    cases hms with
    | @cons _ m _ ms hm hms =>
      simp only [render, List.append_assoc]
      by_cases hnm : n = m
      · subst hnm
        refine List.append_left_lt (List.append_left_lt (ih hms ?_))
        rcases h with h | ⟨h, hafter⟩
        · exact .inl ((List.cons_lt_cons_iff.mp h).resolve_left (Nat.lt_irrefl n)).2
        · exact .inr ⟨(List.cons.inj h).2, hafter⟩
      · have hlt : n < m := by
          rcases h with h | ⟨h, -⟩
          · exact (List.cons_lt_cons_iff.mp h).resolve_right fun hsame => hnm hsame.1
          · exact absurd (List.cons.inj h).1 hnm
        have hlength : (padded width n).length = (padded width m).length := by
          rw [length_padded hn.1 hn.2, length_padded hm.1 hm.2]
        exact append_lt_append hlength (padded_lt hn.1 hlt hm.2) _ _

end FixedText
