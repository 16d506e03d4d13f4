import Mathlib.Algebra.GroupWithZero.Nat
import Mathlib.Data.List.Induction
import Mathlib.Data.List.Nodup
import Mathlib.Data.List.Perm.Basic
import Mathlib.Order.Lattice

/-!
# `Lib.Counter` — counts

A counter is a list of keys with their counts, in the order in which the keys first occurred. `count_one` adds one to the
count of a key, and `of` counts a list of keys.

* `mem_of_iff` — a key is in the counter with the count `n` exactly if it occurs `n` times in the list, and at least
  once.
* `Leaders` keeps for every key the element that ranks highest (`Leaders.mem_of`), the first one of these.

A census counts tokens that change place: a token is held in one of several lists, a queue, the hands of a task, a log, and
the census is the list of all tokens, wherever they are, up to order.

* `Census.take_first` — the first one that meets a condition is taken out of a queue;
* `Census.swap_at` — the holder at one position of a list of holders is replaced by another;
* `Census.count_eq_one` — in a census without repetitions a token is counted once.
-/

namespace Counter

variable {κ : Type} [DecidableEq κ]

/-- Add one to the count of the key. -/
def count_one (key : κ) : List (κ × Nat) → List (κ × Nat)
  | [] => [(key, 1)]
  | (k, n) :: rest => if k = key then (k, n + 1) :: rest else (k, n) :: count_one key rest

/-- Count the keys of a list. -/
def of (keys : List κ) : List (κ × Nat) := keys.foldl (fun counts key => count_one key counts) []

theorem of_concat (keys : List κ) (key : κ) : of (keys ++ [key]) = count_one key (of keys) := by
  unfold of
  rw [List.foldl_append]
  rfl

theorem count_one_keys (key : κ) (counts : List (κ × Nat)) :
    (count_one key counts).map Prod.fst =
      if key ∈ counts.map Prod.fst then counts.map Prod.fst else counts.map Prod.fst ++ [key] := by
  induction counts with
  | nil => rfl
  | cons entry rest ih =>
      obtain ⟨k, n⟩ := entry
      by_cases hk : k = key
      · simp [count_one, hk]
      · have hk' : key ≠ k := fun h => hk h.symm
        simp only [count_one, if_neg hk, List.map_cons, ih, List.mem_cons, hk', false_or]
        split <;> rfl

/-- No key has two counts. -/
theorem of_nodup (keys : List κ) : ((of keys).map Prod.fst).Nodup := by
  induction keys using List.reverseRecOn with
  | nil => exact List.nodup_nil
  | append_singleton keys key ih =>
      rw [of_concat, count_one_keys]
      split
      · exact ih
      · next hnew => exact List.Nodup.append ih (List.nodup_singleton key) (by simpa using hnew)

/-- What `count_one` does to the entries: another key keeps its count, and the key has one more than before. -/
theorem mem_count_one {key k : κ} {n : Nat} {counts : List (κ × Nat)} (hnodup : (counts.map Prod.fst).Nodup) :
    (k, n) ∈ count_one key counts ↔
      if k = key then (∃ m, (key, m) ∈ counts ∧ n = m + 1) ∨ (key ∉ counts.map Prod.fst ∧ n = 1)
      else (k, n) ∈ counts := by
  induction counts with
  | nil =>
      simp only [count_one, List.mem_singleton, Prod.mk.injEq]
      split
      · next hk => simp [hk]
      · next hk => simp [hk]
  | cons entry rest ih =>
      obtain ⟨l, m⟩ := entry
      have hrest : (rest.map Prod.fst).Nodup := (List.nodup_cons.mp hnodup).2
      have hl : ∀ m', (l, m') ∉ rest := fun m' hm' =>
        (List.nodup_cons.mp hnodup).1 (List.mem_map.mpr ⟨(l, m'), hm', rfl⟩)
      by_cases hlk : l = key
      · subst hlk
        rw [count_one, if_pos rfl]
        by_cases hk : k = l
        · subst hk
          simp [hl]
        · simp [hk]
      · rw [count_one, if_neg hlk, List.mem_cons, ih hrest]
        by_cases hk : k = key
        · subst hk
          have hkl : k ≠ l := fun h => hlk h.symm
          simp [hkl]
        · simp [hk]

/-- **A counter counts.** -/
theorem mem_of_iff {keys : List κ} {k : κ} {n : Nat} : (k, n) ∈ of keys ↔ n = keys.count k ∧ 0 < n := by
  induction keys using List.reverseRecOn generalizing k n with
  | nil => simp [of]
  | append_singleton keys key ih =>
      have hkey : key ∈ (of keys).map Prod.fst ↔ 0 < keys.count key := by
        constructor
        · intro h
          obtain ⟨⟨l, m⟩, hm, rfl⟩ := List.mem_map.mp h
          obtain ⟨hcount, hpos⟩ := ih.mp hm
          exact hcount ▸ hpos
        · intro h
          exact List.mem_map.mpr ⟨(key, keys.count key), ih.mpr ⟨rfl, h⟩, rfl⟩
      rw [of_concat, mem_count_one (of_nodup keys), List.count_append, List.count_singleton]
      by_cases hk : k = key
      · -- the key has been counted before, or this is its first occurrence
        subst hk
        simp only [if_true, ih, hkey, beq_self_eq_true]
        constructor
        · rintro (⟨m, ⟨rfl, -⟩, rfl⟩ | ⟨hnew, rfl⟩)
          · exact ⟨rfl, Nat.succ_pos _⟩
          · exact ⟨by omega, Nat.one_pos⟩
        · rintro ⟨rfl, -⟩
          rcases Nat.eq_zero_or_pos (keys.count k) with hzero | hpos
          · exact .inr ⟨by omega, by omega⟩
          · exact .inl ⟨_, ⟨rfl, hpos⟩, rfl⟩
      · have hne : (key == k) = false := beq_eq_false_iff_ne.mpr fun h => hk h.symm
        simp only [if_neg hk, ih, hne, Bool.false_eq_true, if_false, Nat.add_zero]

/-- The count of a key that is read off the elements of a list. -/
theorem count_filterMap {α : Type} (f : α → Option κ) (l : List α) (key : κ) :
    (l.filterMap f).count key = l.countP fun a => decide (f a = some key) := by
  rw [List.count_filterMap]
  refine List.countP_congr fun a _ => ?_
  rw [decide_eq_true_iff]
  cases f a with
  | none => simp
  | some k => simp

/-- The counts add up to the number of keys. -/
theorem sum_count_one (key : κ) (counts : List (κ × Nat)) :
    ((count_one key counts).map Prod.snd).sum = (counts.map Prod.snd).sum + 1 := by
  induction counts with
  | nil => rfl
  | cons entry rest ih =>
      obtain ⟨k, n⟩ := entry
      by_cases hk : k = key
      · simp only [count_one, if_pos hk, List.map_cons, List.sum_cons]
        omega
      · simp only [count_one, if_neg hk, List.map_cons, List.sum_cons, ih]
        omega

theorem sum_of (keys : List κ) : ((of keys).map Prod.snd).sum = keys.length := by
  induction keys using List.reverseRecOn with
  | nil => rfl
  | append_singleton keys key ih => rw [of_concat, sum_count_one, ih, List.length_append, List.length_singleton]

end Counter

/-! ## Leaders -/

namespace Leaders

variable {α κ K : Type} [DecidableEq κ] [LinearOrder K]

/-- Put the element in for the key, unless one that ranks as high is there. -/
def enter (rank : α → K) (key : κ) (a : α) : List (κ × α) → List (κ × α)
  | [] => [(key, a)]
  | (k, b) :: rest => if k = key then (k, if rank b < rank a then a else b) :: rest else (k, b) :: enter rank key a rest

/-- The elements of a list, those with a key, entered one after the other. -/
def of (key : α → Option κ) (rank : α → K) (xs : List α) : List (κ × α) :=
  xs.foldl (fun leaders a => (key a).elim leaders fun k => enter rank k a leaders) []

variable {rank : α → K} {key : α → Option κ}

theorem of_concat (xs : List α) (a : α) :
    of key rank (xs ++ [a]) = (key a).elim (of key rank xs) fun k => enter rank k a (of key rank xs) := by
  unfold of
  rw [List.foldl_append]
  rfl

theorem enter_keys (k : κ) (a : α) (leaders : List (κ × α)) :
    (enter rank k a leaders).map Prod.fst =
      if k ∈ leaders.map Prod.fst then leaders.map Prod.fst else leaders.map Prod.fst ++ [k] := by
  induction leaders with
  | nil => rfl
  | cons entry rest ih =>
      obtain ⟨l, b⟩ := entry
      by_cases hl : l = k
      · simp [enter, hl]
      · have hl' : k ≠ l := fun h => hl h.symm
        simp only [enter, if_neg hl, List.map_cons, ih, List.mem_cons, hl', false_or]
        split <;> rfl

/-- No key has two leaders. -/
theorem of_nodup (xs : List α) : ((of key rank xs).map Prod.fst).Nodup := by
  induction xs using List.reverseRecOn with
  | nil => exact List.nodup_nil
  | append_singleton xs a ih =>
      rw [of_concat]
      cases key a with
      | none => exact ih
      | some k =>
          show ((enter rank k a (of key rank xs)).map Prod.fst).Nodup
          rw [enter_keys]
          split
          · exact ih
          · rename_i hnew
            exact List.Nodup.append ih (List.nodup_singleton k) (by simpa using hnew)

/-- What `enter` does to the entries: another key keeps its leader, and the element leads its key if it ranks higher. -/
theorem mem_enter {k l : κ} {a b : α} {leaders : List (κ × α)} (hnodup : (leaders.map Prod.fst).Nodup) :
    (l, b) ∈ enter rank k a leaders ↔
      if l = k then (∃ c, (k, c) ∈ leaders ∧ b = if rank c < rank a then a else c) ∨
        (k ∉ leaders.map Prod.fst ∧ b = a)
      else (l, b) ∈ leaders := by
  induction leaders with
  | nil =>
      simp only [enter, List.mem_singleton, Prod.mk.injEq]
      split
      · rename_i hl
        simp [hl]
      · rename_i hl
        simp [hl]
  | cons entry rest ih =>
      obtain ⟨j, d⟩ := entry
      have hrest : (rest.map Prod.fst).Nodup := (List.nodup_cons.mp hnodup).2
      have hj : ∀ c, (j, c) ∉ rest := fun c hc =>
        (List.nodup_cons.mp hnodup).1 (List.mem_map.mpr ⟨(j, c), hc, rfl⟩)
      by_cases hjk : j = k
      · subst hjk
        rw [enter, if_pos rfl]
        by_cases hl : l = j
        · subst hl
          simp [hj]
        · simp [hl]
      · rw [enter, if_neg hjk, List.mem_cons, ih hrest]
        by_cases hl : l = k
        · subst hl
          have hlj : l ≠ j := fun h => hjk h.symm
          simp [hlj]
        · simp [hl]

/-- The keys of the elements have leaders, and no others. -/
theorem mem_keys_of {xs : List α} {k : κ} : k ∈ (of key rank xs).map Prod.fst ↔ ∃ a ∈ xs, key a = some k := by
  induction xs using List.reverseRecOn generalizing k with
  | nil => simp [of]
  | append_singleton xs a ih =>
      rw [of_concat]
      cases hkey : key a with
      | none => simp [ih, hkey]
      | some j =>
          show k ∈ (enter rank j a (of key rank xs)).map Prod.fst ↔ _
          rw [enter_keys]
          split
          · rename_i hold
            rw [ih] at hold ⊢
            simp only [List.mem_append, List.mem_singleton, or_and_right, exists_or, exists_eq_left, hkey]
            constructor
            · exact .inl
            · rintro (h | h)
              · exact h
              · cases h
                exact hold
          · rw [List.mem_append, List.mem_singleton, ih]
            simp only [List.mem_append, List.mem_singleton, or_and_right, exists_or, exists_eq_left, hkey,
              Option.some.injEq, eq_comm (a := k)]

/-- **A leader leads**: it is an element of its key, and none of that key ranks higher. -/
theorem mem_of {xs : List α} {k : κ} {a : α} (h : (k, a) ∈ of key rank xs) :
    a ∈ xs ∧ key a = some k ∧ ∀ b ∈ xs, key b = some k → rank b ≤ rank a := by
  induction xs using List.reverseRecOn generalizing k a with
  | nil => cases h
  | append_singleton xs last ih =>
      rw [of_concat] at h
      cases hkey : key last with
      | none =>
          rw [hkey] at h
          obtain ⟨hmem, hk, hbest⟩ := ih h
          refine ⟨List.mem_append_left _ hmem, hk, fun b hb hbk => ?_⟩
          rcases List.mem_append.mp hb with hb | hb
          · exact hbest b hb hbk
          · rw [List.mem_singleton.mp hb, hkey] at hbk
            cases hbk
      | some j =>
          rw [hkey] at h
          rcases (mem_enter (of_nodup xs)).mp h with hcases
          by_cases hkj : k = j
          · subst hkj
            rw [if_pos rfl] at hcases
            obtain ⟨c, hc, rfl⟩ | ⟨hnew, rfl⟩ := hcases
            · obtain ⟨hmem, hk, hbest⟩ := ih hc
              split
              · rename_i hlt
                refine ⟨List.mem_append_right _ List.mem_cons_self, hkey, fun b hb hbk => ?_⟩
                rcases List.mem_append.mp hb with hb | hb
                · exact (hbest b hb hbk).trans hlt.le
                · rw [List.mem_singleton.mp hb]
              · rename_i hle
                refine ⟨List.mem_append_left _ hmem, hk, fun b hb hbk => ?_⟩
                rcases List.mem_append.mp hb with hb | hb
                · exact hbest b hb hbk
                · rw [List.mem_singleton.mp hb]
                  exact not_lt.mp hle
            · refine ⟨List.mem_append_right _ List.mem_cons_self, hkey, fun b hb hbk => ?_⟩
              rcases List.mem_append.mp hb with hb | hb
              · exact absurd (mem_keys_of.mpr ⟨b, hb, hbk⟩) hnew
              · rw [List.mem_singleton.mp hb]
          · rw [if_neg hkj] at hcases
            obtain ⟨hmem, hk, hbest⟩ := ih hcases
            refine ⟨List.mem_append_left _ hmem, hk, fun b hb hbk => ?_⟩
            rcases List.mem_append.mp hb with hb | hb
            · exact hbest b hb hbk
            · rw [List.mem_singleton.mp hb, hkey] at hbk
              exact absurd (Option.some.inj hbk).symm hkj

end Leaders

/-! ## Tokens that change place -/

namespace Census

open List

variable {α β : Type*}

/-- Taking the first element that meets `p` out of a list. -/
theorem take_first {p : α → Bool} {l : List α} {a : α} (h : l.find? p = some a) :
    l ~ a :: l.eraseP p := by
  induction l with
  | nil => simp at h
  | cons b rest ih =>
      cases hb : p b with
      | true =>
          rw [find?_cons_of_pos hb] at h
          cases h
          rw [eraseP_cons_of_pos hb]
      | false =>
          have hneg : ¬ p b = true := by simp [hb]
          rw [find?_cons_of_neg hneg] at h
          rw [eraseP_cons_of_neg hneg]
          exact ((ih h).cons b).trans (Perm.swap a b _)

/-- Replacing the holder at one position trades what it held for what the new one holds. -/
theorem swap_at {f : α → Option β} {l : List α} {a b : α} {i : Nat} (h : l[i]? = some a) :
    (f a).toList ++ (l.set i b).filterMap f ~ (f b).toList ++ l.filterMap f := by
  induction l generalizing i with
  | nil => simp at h
  | cons c rest ih =>
      cases i with
      | zero =>
          have hc : c = a := by simpa using h
          subst hc
          simp only [set_cons_zero, filterMap_cons]
          cases f c with
          | none => cases f b <;> rfl
          | some t =>
              cases f b with
              | none => rfl
              | some u => exact Perm.swap u t _
      | succ i =>
          have hrest := ih (by simpa using h)
          simp only [set_cons_succ, filterMap_cons]
          cases f c with
          | none => exact hrest
          | some t =>
              refine perm_middle.trans ?_
              exact (hrest.cons t).trans perm_middle.symm

/-- A holder that lets its token go. -/
theorem release_at {f : α → Option β} {l : List α} {a b : α} {t : β} {i : Nat} (h : l[i]? = some a)
    (ha : f a = some t) (hb : f b = none) : l.filterMap f ~ t :: (l.set i b).filterMap f := by
  have hswap := swap_at (f := f) (b := b) h
  rw [ha, hb] at hswap
  exact hswap.symm

/-- A holder that takes up a token. -/
theorem hold_at {f : α → Option β} {l : List α} {a b : α} {t : β} {i : Nat} (h : l[i]? = some a)
    (ha : f a = none) (hb : f b = some t) : (l.set i b).filterMap f ~ t :: l.filterMap f := by
  have hswap := swap_at (f := f) (b := b) h
  rw [ha, hb] at hswap
  exact hswap

/-- In a census that is a rearrangement of a list without repetitions, every token is there once. -/
theorem count_eq_one [DecidableEq α] {census tokens : List α} (h : census ~ tokens)
    (hnodup : tokens.Nodup) {a : α} (ha : a ∈ tokens) : census.count a = 1 := by
  rw [h.count_eq]
  exact count_eq_one_of_mem hnodup ha

end Census
