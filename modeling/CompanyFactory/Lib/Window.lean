import Mathlib.Data.List.Basic
import Mathlib.Data.List.DropRight
import Mathlib.Order.Defs.LinearOrder
import Mathlib.Order.Lattice

/-!
# `Lib.Window` — bounded reads of a log

A reader wants the entries of a log that satisfy `wanted`. It takes the first `limit` entries and keeps of these the
ones that satisfy `kept`, where everything wanted is kept.

* `take_filter_eq_iff` — it has what it wants exactly if it keeps nothing else of what it took, and nothing that it
  wants lies beyond the limit.
* `beyond_iff` — in a log that is ordered by a key, nothing at or above a cutoff lies beyond the limit exactly if the
  log is not longer than the limit, or its last entry is below the cutoff.

Another reader looks at the other end: a history grows there, and a window keeps its last `n` entries (`List.rtake`).

* `Recent.rtake_push` — a full window forgets its oldest entry, and is still the end of the history.
* `Recent.rtake_sift` — leaving entries out of a history does not change its end, if none of them stood there.
-/

namespace Window

variable {α : Type} {wanted kept : α → Bool}

/-- Nothing that is wanted lies beyond the limit. -/
def Reaches (wanted : α → Bool) (limit : Nat) (log : List α) : Prop := ∀ a ∈ log.drop limit, wanted a = false

theorem filter_split (wanted : α → Bool) (limit : Nat) (log : List α) :
    log.filter wanted = (log.take limit).filter wanted ++ (log.drop limit).filter wanted := by
  rw [← List.filter_append, List.take_append_drop]

theorem Reaches.filter_drop {limit : Nat} {log : List α} (h : Reaches wanted limit log) :
    (log.drop limit).filter wanted = [] := by
  apply List.filter_eq_nil_iff.mpr
  intro a ha
  rw [h a ha]
  exact Bool.false_ne_true

/-- **A bounded read is exact** if and only if it keeps only what is wanted, and the limit reaches all of that. -/
theorem take_filter_eq_iff (hkept : ∀ a, wanted a = true → kept a = true) (limit : Nat) (log : List α) :
    (log.take limit).filter kept = log.filter wanted ↔
      (∀ a ∈ log.take limit, kept a = true → wanted a = true) ∧ Reaches wanted limit log := by
  -- on entries that are kept only if they are wanted, both filters agree
  have hagree : (∀ a ∈ log.take limit, kept a = true → wanted a = true) →
      (log.take limit).filter kept = (log.take limit).filter wanted := fun hle =>
    List.filter_congr fun a ha => Bool.eq_iff_iff.mpr ⟨hle a ha, hkept a⟩
  constructor
  · intro h
    -- whatever is kept stands in the list on the right, and that is wanted
    have hle : ∀ a ∈ log.take limit, kept a = true → wanted a = true := by
      intro a ha hk
      have hmem : a ∈ (log.take limit).filter kept := List.mem_filter.mpr ⟨ha, hk⟩
      rw [h] at hmem
      exact (List.mem_filter.mp hmem).2
    refine ⟨hle, ?_⟩
    rw [hagree hle, filter_split wanted limit log] at h
    have hnil : (log.drop limit).filter wanted = [] := List.self_eq_append_right.mp h
    intro a ha
    exact Bool.eq_false_iff.mpr (List.filter_eq_nil_iff.mp hnil a ha)
  · rintro ⟨hle, hreach⟩
    rw [hagree hle, filter_split wanted limit log, hreach.filter_drop, List.append_nil]

/-- The same if exactly what is wanted is kept. -/
theorem take_filter_eq_filter_iff (limit : Nat) (log : List α) :
    (log.take limit).filter wanted = log.filter wanted ↔ Reaches wanted limit log := by
  rw [take_filter_eq_iff (fun _ h => h)]
  exact and_iff_right fun _ _ h => h

theorem reaches_of_length_le {limit : Nat} {log : List α} (h : log.length ≤ limit) : Reaches wanted limit log := by
  intro a ha
  rw [List.drop_eq_nil_of_le h] at ha
  cases ha

section Ordered

variable {K : Type} [LinearOrder K] {key : α → K} {log : List α}

/-- No entry is above the last one. -/
theorem le_last (hsorted : log.Pairwise (fun a b => key a ≤ key b)) {a b : α} (ha : a ∈ log)
    (hb : b ∈ log.getLast?) : key a ≤ key b := by
  obtain ⟨pre, rfl⟩ := List.getLast?_eq_some_iff.mp hb
  rcases List.mem_append.mp ha with hpre | hlast
  · exact (List.pairwise_append.mp hsorted).2.2 a hpre b (List.mem_singleton_self b)
  · rw [List.mem_singleton.mp hlast]

/-- **The newest entry decides**, if the log is ordered by the key that the cutoff is about. -/
theorem beyond_iff (hsorted : log.Pairwise (fun a b => key a ≤ key b)) (cutoff : K) (limit : Nat) :
    Reaches (fun a => decide (cutoff ≤ key a)) limit log ↔
      log.length ≤ limit ∨ ∀ a ∈ log.getLast?, key a < cutoff := by
  constructor
  · intro h
    rcases Nat.lt_or_ge limit log.length with hlt | hge
    · right
      intro a ha
      -- the last entry is beyond the limit
      have hget : (log.drop limit).getLast? = log.getLast? := by
        rw [List.getLast?_drop, if_neg (Nat.not_le.mpr hlt)]
      exact not_le.mp (of_decide_eq_false (h a (List.mem_of_getLast? (hget.trans ha))))
    · exact .inl hge
  · rintro (hlen | hlast)
    · exact reaches_of_length_le hlen
    · intro a ha
      have hmem : a ∈ log := List.mem_of_mem_drop ha
      have hget := List.getLast?_eq_some_getLast (List.ne_nil_of_mem hmem)
      exact decide_eq_false (not_le.mpr (lt_of_le_of_lt (le_last hsorted hmem hget) (hlast _ hget)))

end Ordered

end Window

/-! ## The newest end -/

namespace Recent

variable {α : Type}

/-- The end of an end. -/
theorem rtake_rtake {m n : Nat} (h : n ≤ m) (xs : List α) : (xs.rtake m).rtake n = xs.rtake n := by
  simp only [List.rtake_eq_reverse_take_reverse, List.reverse_reverse, List.take_take, Nat.min_eq_left h]

theorem length_rtake (n : Nat) (xs : List α) : (xs.rtake n).length = min n xs.length := by
  rw [List.rtake, List.length_drop]
  omega

/-- As many entries are in the window as the reader asks for, if there are that many. -/
theorem le_length_rtake {m n : Nat} (h : n ≤ m) (xs : List α) : n ≤ (xs.rtake m).length ↔ n ≤ xs.length := by
  rw [length_rtake]
  omega

theorem rtake_suffix (n : Nat) (xs : List α) : xs.rtake n <:+ xs := List.drop_suffix _ _

/-- **A window with a new entry.** -/
theorem rtake_push (n : Nat) (xs : List α) (a : α) : (xs.rtake n ++ [a]).rtake n = (xs ++ [a]).rtake n := by
  cases n with
  | zero => rw [List.rtake_zero, List.rtake_zero]
  | succ n => rw [List.rtake_concat_succ, List.rtake_concat_succ, rtake_rtake (Nat.le_succ n)]

/-! ## Leaving entries out -/

/-- The entries that a test keeps; it sees what came before. -/
def sift (keep : List α → α → Bool) : List α → List α → List α
  | _, [] => []
  | seen, a :: rest => if keep seen a then a :: sift keep (seen ++ [a]) rest else sift keep (seen ++ [a]) rest

variable {keep : List α → α → Bool}

theorem sift_snoc (keep : List α → α → Bool) (seen xs : List α) (a : α) :
    sift keep seen (xs ++ [a]) = sift keep seen xs ++ if keep (seen ++ xs) a then [a] else [] := by
  induction xs generalizing seen with
  | nil =>
      rw [List.nil_append, sift, sift, sift, List.append_nil]
      rfl
  | cons x xs ih =>
      rw [List.cons_append, sift, sift, ih, List.append_assoc, List.singleton_append]
      split <;> rfl

/-- **The end of a history that was sifted.** Of the entries of a kind, the last `n` are the same as without the test,
    if the test keeps them. -/
theorem rtake_sift (kind : α → Bool) (n : Nat) (xs : List α)
    (hkeep : ∀ before a after, xs = before ++ a :: after → kind a = true → (after.filter kind).length < n →
      keep before a = true) :
    ((sift keep [] xs).filter kind).rtake n = (xs.filter kind).rtake n := by
  induction xs using List.reverseRecOn generalizing n with
  | nil => rfl
  | append_singleton xs x ih =>
      rw [sift_snoc, List.nil_append, List.filter_append, List.filter_append]
      cases hkind : kind x with
      | false =>
          have hnone : ∀ b : Bool, (if b then [x] else []).filter kind = [] := by
            intro b
            cases b <;> simp [hkind]
          have hlast : [x].filter kind = [] := hnone true
          rw [hnone, hlast, List.append_nil, List.append_nil]
          refine ih n fun before a after hxs ha hlength => ?_
          apply hkeep before a (after ++ [x]) (by rw [hxs]; simp) ha
          rwa [List.filter_append, hlast, List.append_nil]
      | true =>
          have hlast : [x].filter kind = [x] := by simp [hkind]
          cases n with
          | zero => rw [List.rtake_zero, List.rtake_zero]
          | succ n =>
              -- `x` is the last entry of its kind, so the test keeps it
              have hx : keep xs x = true := hkeep xs x [] rfl hkind (Nat.succ_pos n)
              rw [hx, if_pos rfl, hlast, List.rtake_concat_succ, List.rtake_concat_succ]
              congr 1
              refine ih n fun before a after hxs ha hlength => ?_
              apply hkeep before a (after ++ [x]) (by rw [hxs]; simp) ha
              rw [List.filter_append, hlast, List.length_append, List.length_singleton]
              omega

end Recent
