import Mathlib.Data.List.Perm.Basic
import Mathlib.Data.List.Nodup

/-!
# `Lib.Lines` — the elements of one key, in their order

A list is seen as many lines, one for each key. Two lists that differ only in how the lines are interleaved have
the same lines, so that an element may be moved past those of other keys.

* `line_take_first` — taking the first element of its key shortens one line, at its head.
* `line_commute` — an element among elements of other keys can go first or last.
* `line_perm` — where every key is there once at most, the order does not matter.
-/

namespace Lines

variable {α κ β : Type*} {key : α → κ} {f : α → β} {xs ys : List α} {a a' : α}

/-- No element of the list has the key of this one. -/
def Apart (key : α → κ) (a : α) (xs : List α) : Prop := ∀ b ∈ xs, key b ≠ key a

theorem Apart.of_nil (h : xs = []) : Apart key a xs := by
  rw [h]
  exact fun b hb => absurd hb List.not_mem_nil

theorem Apart.append (hxs : Apart key a xs) (hys : Apart key a ys) : Apart key a (xs ++ ys) := by
  intro b hb
  rcases List.mem_append.mp hb with hleft | hright
  · exact hxs b hleft
  · exact hys b hright

theorem apart_of_nodup (h : ((a :: xs).map key).Nodup) : Apart key a xs := by
  intro b hb hkey
  have hnot := (List.nodup_cons.mp h).1
  exact hnot (hkey ▸ List.mem_map_of_mem hb)

theorem Apart.nodup (h : Apart key a xs) (hxs : (xs.map key).Nodup) : ((a :: xs).map key).Nodup := by
  rw [List.map_cons, List.nodup_cons]
  refine ⟨fun hmem => ?_, hxs⟩
  obtain ⟨b, hb, hkey⟩ := List.mem_map.mp hmem
  exact h b hb hkey

/-! ## Lines -/

variable [DecidableEq κ]

/-- What the elements of a key are seen as. -/
def line (key : α → κ) (f : α → β) (k : κ) (xs : List α) : List β := (xs.filter fun a => key a = k).map f

theorem line_append (k : κ) (xs ys : List α) : line key f k (xs ++ ys) = line key f k xs ++ line key f k ys := by
  unfold line
  rw [List.filter_append, List.map_append]

theorem line_cons (k : κ) (a : α) (xs : List α) : line key f k (a :: xs) = line key f k [a] ++ line key f k xs :=
  line_append k [a] xs

theorem line_sublist (h : xs.Sublist ys) (k : κ) : (line key f k xs).Sublist (line key f k ys) :=
  (h.filter _).map _

/-- The line of a key holds elements of the list. -/
theorem line_sublist_map (k : κ) (xs : List α) : (line key f k xs).Sublist (xs.map f) := List.filter_sublist.map f

theorem line_self (a : α) : line key f (key a) [a] = [f a] := by
  unfold line
  rw [List.filter_singleton, decide_eq_true rfl]
  rfl

theorem line_other {k : κ} (h : key a ≠ k) : line key f k [a] = [] := by
  unfold line
  rw [List.filter_singleton, decide_eq_false h]
  rfl

/-- What an element is besides its key and what it is seen as does not matter. -/
theorem line_same (hkey : key a' = key a) (hf : f a' = f a) (k : κ) : line key f k [a'] = line key f k [a] := by
  by_cases h : key a = k
  · subst h
    rw [line_self, ← hkey, line_self, hf]
  · rw [line_other h, line_other (hkey ▸ h)]

theorem Apart.line (h : Apart key a xs) : line key f (key a) xs = [] := by
  unfold Lines.line
  rw [List.map_eq_nil_iff, List.filter_eq_nil_iff]
  intro b hb
  rw [decide_eq_true_eq]
  exact h b hb

/-- **Past the others.** -/
theorem line_commute (h : Apart key a xs) (k : κ) :
    line key f k xs ++ line key f k [a] = line key f k [a] ++ line key f k xs := by
  by_cases hk : key a = k
  · subst hk
    rw [h.line, List.nil_append, List.append_nil]
  · rw [line_other hk, List.nil_append, List.append_nil]

/-- **The first of its key** is at the head of its line. -/
theorem line_take_first {p : α → Bool} (h : xs.find? p = some a) (hp : ∀ b, key b = key a → p b = true) (k : κ) :
    line key f k xs = line key f k [a] ++ line key f k (xs.eraseP p) := by
  induction xs with
  | nil => cases h
  | cons b rest ih =>
      cases hb : p b with
      | true =>
          rw [List.find?_cons_of_pos hb] at h
          obtain rfl := Option.some.inj h
          rw [List.eraseP_cons_of_pos hb, line_cons]
      | false =>
          have hno : ¬ p b = true := by simp [hb]
          rw [List.find?_cons_of_neg hno] at h
          have hapart : Apart key a [b] := by
            intro c hc hkey
            rw [List.mem_singleton.mp hc] at hkey
            exact hno (hp b hkey)
          rw [List.eraseP_cons_of_neg hno, line_cons k b rest, ih h, line_cons k b (rest.eraseP p),
            ← List.append_assoc, line_commute hapart, List.append_assoc]

/-! ## Every key once -/

theorem line_length (h : (xs.map key).Nodup) (k : κ) : (line key f k xs).length ≤ 1 := by
  induction xs with
  | nil => exact Nat.zero_le 1
  | cons a rest ih =>
      rw [line_cons, List.length_append]
      by_cases hk : key a = k
      · subst hk
        rw [(apart_of_nodup h).line, line_self]
        exact Nat.le_refl 1
      · rw [line_other hk, List.length_nil, Nat.zero_add]
        exact ih (List.nodup_cons.mp h).2

/-- **Each line has one element at most**, so that it is in order. -/
theorem line_perm (h : xs.Perm ys) (hnodup : (ys.map key).Nodup) (k : κ) : line key f k xs = line key f k ys := by
  have hperm : (line key f k xs).Perm (line key f k ys) := (h.filter _).map f
  have hlength := line_length (f := f) hnodup k
  cases hline : line key f k ys with
  | nil =>
      rw [hline] at hperm
      exact hperm.eq_nil
  | cons b rest =>
      rw [hline, List.length_cons] at hlength
      obtain rfl : rest = [] := List.length_eq_zero_iff.mp (by omega)
      rw [hline] at hperm
      exact List.perm_singleton.mp hperm

end Lines
