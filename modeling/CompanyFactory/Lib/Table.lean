import Mathlib.Algebra.BigOperators.Group.List.Basic
import Mathlib.Data.List.Nodup

/-!
# `Lib.Table` — rows looked up by a key

A table is a list of rows with a key column. `find` is the lookup by key, an insert adds a row at the
end, and every update — `UPDATE … WHERE`, by key or by any other condition on the row — maps a function
over the rows that leaves the key column alone. Two lemmas say what a lookup sees afterwards, and two say
what becomes of the sum of a column.
-/

namespace Table

variable {α κ : Type*} [DecidableEq κ] {key : α → κ}

/-- The row with the key. -/
def find (key : α → κ) (rows : List α) (k : κ) : Option α := rows.find? (fun a => key a = k)

@[simp] theorem find_nil (k : κ) : find key [] k = none := rfl

theorem key_of_find {rows : List α} {k : κ} {a : α} (h : find key rows k = some a) : key a = k := by
  simpa using List.find?_some h

theorem find_insert (rows : List α) (a : α) (k : κ) :
    find key (rows ++ [a]) k = (find key rows k).or (if key a = k then some a else none) := by
  unfold find
  rw [List.find?_append]
  by_cases h : key a = k
  · simp [h]
  · simp [h]

/-- A row that is in the table is still found after an insert. -/
theorem find_insert_of_some {rows : List α} {a b : α} {k : κ} (h : find key rows k = some b) :
    find key (rows ++ [a]) k = some b := by rw [find_insert, h]; rfl

/-- An insert under another key. -/
theorem find_insert_ne {rows : List α} {a : α} {k : κ} (h : key a ≠ k) :
    find key (rows ++ [a]) k = find key rows k := by
  rw [find_insert, if_neg h, Option.or_none]

/-- An update is seen through the lookup. -/
theorem find_update {g : α → α} (hg : ∀ a, key (g a) = key a) (rows : List α) (k : κ) :
    find key (rows.map g) k = (find key rows k).map g := by
  unfold find
  rw [List.find?_map]
  congr 2
  funext a
  simp [hg]

/-- Update the row with this key. -/
def update (key : α → κ) (k : κ) (f : α → α) (rows : List α) : List α :=
  rows.map (fun a => if key a = k then f a else a)

theorem find_update_key {f : α → α} (hf : ∀ a, key (f a) = key a) (rows : List α) (k k' : κ) :
    find key (update key k f rows) k' =
      if k = k' then (find key rows k').map f else find key rows k' := by
  have hkey : ∀ a, key (if key a = k then f a else a) = key a := by
    intro a
    split
    · exact hf a
    · rfl
  rw [update, find_update hkey]
  cases hrow : find key rows k' with
  | none => simp
  | some a =>
      have ha := key_of_find hrow
      by_cases h : k = k'
      · simp [ha, h]
      · have hne : key a ≠ k := fun heq => h (heq.symm.trans ha)
        simp [hne, h]

/-- Keep the rows whose key meets `q`. -/
theorem find_filter (q : κ → Prop) [DecidablePred q] (rows : List α) (k : κ) :
    find key (rows.filter (fun a => q (key a))) k = if q k then find key rows k else none := by
  induction rows with
  | nil => simp [find]
  | cons a rest ih =>
      unfold find at ih ⊢
      by_cases hq : q (key a)
      · rw [List.filter_cons_of_pos (by simpa using hq)]
        by_cases hk : key a = k
        · rw [List.find?_cons_of_pos (by simpa using hk), List.find?_cons_of_pos (by simpa using hk),
            if_pos (hk ▸ hq)]
        · rw [List.find?_cons_of_neg (by simpa using hk), List.find?_cons_of_neg (by simpa using hk), ih]
      · rw [List.filter_cons_of_neg (by simpa using hq), ih]
        by_cases hk : key a = k
        · rw [if_neg (hk ▸ hq), if_neg (hk ▸ hq)]
        · rw [List.find?_cons_of_neg (by simpa using hk)]

theorem find_cons (a : α) (rows : List α) (k : κ) :
    find key (a :: rows) k = if key a = k then some a else find key rows k := by
  unfold find
  by_cases hk : key a = k
  · rw [List.find?_cons_of_pos (by simpa using hk), if_pos hk]
  · rw [List.find?_cons_of_neg (by simpa using hk), if_neg hk]

theorem mem_of_find {rows : List α} {k : κ} {a : α} (h : find key rows k = some a) : a ∈ rows :=
  List.mem_of_find?_eq_some h

theorem find_eq_none {rows : List α} {k : κ} : find key rows k = none ↔ ∀ a ∈ rows, key a ≠ k := by
  unfold find
  rw [List.find?_eq_none]
  simp

/-! ## Unique keys -/

/-- With unique keys, the lookup finds every row. -/
theorem find_of_mem {rows : List α} (hkeys : (rows.map key).Nodup) {a : α} (h : a ∈ rows) :
    find key rows (key a) = some a := by
  induction rows with
  | nil => cases h
  | cons b rest ih =>
      rw [List.map_cons, List.nodup_cons] at hkeys
      rw [find_cons]
      rcases List.mem_cons.mp h with rfl | hmem
      · rw [if_pos rfl]
      · have hne : key b ≠ key a := fun heq => hkeys.1 (heq ▸ List.mem_map_of_mem hmem)
        rw [if_neg hne]
        exact ih hkeys.2 hmem

/-- With unique keys, the rows with a key that meet `p` are the one that the lookup finds, if it does. -/
theorem countP_key {rows : List α} (hkeys : (rows.map key).Nodup) (p : α → Bool) (k : κ) :
    rows.countP (fun a => p a && decide (key a = k)) = ((find key rows k).any p).toNat := by
  induction rows with
  | nil => rfl
  | cons a rest ih =>
      rw [List.map_cons, List.nodup_cons] at hkeys
      have hrest := ih hkeys.2
      unfold find at hrest ⊢
      rw [List.countP_cons]
      by_cases hk : key a = k
      · have hnone : rest.find? (fun b => decide (key b = k)) = none := by
          rw [List.find?_eq_none]
          intro b hb hbk
          apply hkeys.1
          rw [hk, ← of_decide_eq_true hbk]
          exact List.mem_map_of_mem hb
        rw [hnone] at hrest
        rw [hrest, List.find?_cons_of_pos (by simpa using hk)]
        cases hp : p a <;> simp [hp, hk]
      · rw [List.find?_cons_of_neg (by simpa using hk), hrest]
        simp [hk]

/-- With unique keys, keep the rows that meet `p`. -/
theorem find_where {rows : List α} (hkeys : (rows.map key).Nodup) (p : α → Bool) (k : κ) :
    find key (rows.filter p) k = (find key rows k).filter p := by
  induction rows with
  | nil => rfl
  | cons a rest ih =>
      rw [List.map_cons, List.nodup_cons] at hkeys
      have hrest := ih hkeys.2
      by_cases hk : key a = k
      · -- no other row has the key
        have hnone : find key rest k = none := by
          apply find_eq_none.mpr
          intro b hb hbk
          apply hkeys.1
          rw [hk, ← hbk]
          exact List.mem_map_of_mem hb
        rw [find_cons, if_pos hk]
        rw [hnone] at hrest
        by_cases hp : p a = true
        · rw [List.filter_cons_of_pos hp, find_cons, if_pos hk]
          simp [Option.filter, hp]
        · rw [List.filter_cons_of_neg hp, hrest]
          simp [Option.filter, hp]
      · rw [find_cons, if_neg hk]
        by_cases hp : p a = true
        · rw [List.filter_cons_of_pos hp, find_cons, if_neg hk, hrest]
        · rw [List.filter_cons_of_neg hp, hrest]

/-- With unique keys, at most one row has the key. -/
theorem length_key_le_one {rows : List α} (hkeys : (rows.map key).Nodup) (k : κ) :
    (rows.filter (fun a => decide (key a = k))).length ≤ 1 := by
  have hcount := countP_key hkeys (fun _ => true) k
  simp only [Bool.true_and] at hcount
  rw [← List.countP_eq_length_filter, hcount]
  exact Bool.toNat_le _

omit [DecidableEq κ] in
/-- An update leaves the keys alone. -/
theorem keys_update {g : α → α} (hg : ∀ a, key (g a) = key a) (rows : List α) :
    (rows.map g).map key = rows.map key := by
  rw [List.map_map]
  exact List.map_congr_left fun a _ => hg a

theorem keys_update_key {f : α → α} (hf : ∀ a, key (f a) = key a) (rows : List α) {k : κ} :
    (update key k f rows).map key = rows.map key := by
  refine keys_update (fun a => ?_) rows
  split
  · exact hf a
  · rfl

/-- A row of an updated table is a row as it was, or the updated one. -/
theorem mem_update {rows : List α} {k : κ} {f : α → α} {a : α} (h : a ∈ update key k f rows) :
    ∃ b ∈ rows, (key b ≠ k ∧ a = b) ∨ (key b = k ∧ a = f b) := by
  obtain ⟨b, hb, heq⟩ := List.mem_map.mp h
  refine ⟨b, hb, ?_⟩
  by_cases hk : key b = k
  · rw [if_pos hk] at heq
    exact .inr ⟨hk, heq.symm⟩
  · rw [if_neg hk] at heq
    exact .inl ⟨hk, heq.symm⟩

/-- Rows with other keys stay. -/
theorem mem_update_of_ne {rows : List α} {k : κ} {f : α → α} {a : α} (h : a ∈ rows) (hk : key a ≠ k) :
    a ∈ update key k f rows := List.mem_map.mpr ⟨a, h, if_neg hk⟩

omit [DecidableEq κ] in
/-- Tables with the same keys. -/
theorem exists_of_keys {rows rows' : List α} (h : rows'.map key = rows.map key) {a : α} (ha : a ∈ rows) :
    ∃ b ∈ rows', key b = key a := by
  have hmem : key a ∈ rows'.map key := h ▸ List.mem_map_of_mem ha
  exact List.mem_map.mp hmem

theorem find_none_of_keys {rows rows' : List α} (h : rows'.map key = rows.map key) {k : κ}
    (hnone : find key rows' k = none) : find key rows k = none := by
  refine find_eq_none.mpr fun a ha heq => ?_
  obtain ⟨b, hb, hkey⟩ := exists_of_keys h ha
  exact find_eq_none.mp hnone b hb (hkey.trans heq)

theorem keys_insert {rows : List α} {a : α} (hkeys : (rows.map key).Nodup)
    (hnew : find key rows (key a) = none) : ((rows ++ [a]).map key).Nodup := by
  rw [List.map_append, List.map_singleton]
  rw [List.nodup_append]
  refine ⟨hkeys, by simp, fun k hmem k' hlast heq => ?_⟩
  rw [List.mem_singleton] at hlast
  obtain ⟨b, hb, hkey⟩ := List.mem_map.mp hmem
  unfold find at hnew
  rw [List.find?_eq_none] at hnew
  exact hnew b hb (by simpa using hkey.trans (heq.trans hlast))

/-! ## Unique columns -/

omit [DecidableEq κ] in
/-- A column of rewritten rows is unique if no two rows become the same in it. -/
theorem nodup_column_iff {γ : Type*} {rows : List α} (hkeys : (rows.map key).Nodup) (col : α → γ)
    (g : α → α) :
    ((rows.map g).map col).Nodup ↔ ∀ a ∈ rows, ∀ b ∈ rows, col (g a) = col (g b) → a = b := by
  rw [List.map_map]
  exact List.nodup_map_iff_inj_on (List.Nodup.of_map key hkeys)

/-- **A column stays unique under an update of one row** if no other row has the new value. -/
theorem nodup_update_iff {γ : Type*} {rows : List α} (hkeys : (rows.map key).Nodup) {col : α → γ}
    (hcol : (rows.map col).Nodup) (f : α → α) {k : κ} {a : α} (ha : find key rows k = some a) :
    ((update key k f rows).map col).Nodup ↔ ∀ b ∈ rows, key b ≠ k → col b ≠ col (f a) := by
  have hmem := mem_of_find ha
  have hkey := key_of_find ha
  have hrow : ∀ b ∈ rows, key b = k → b = a := fun b hb hbk => by
    have hfind := find_of_mem hkeys hb
    rw [hbk, ha] at hfind
    exact (Option.some.inj hfind).symm
  rw [update, nodup_column_iff hkeys]
  constructor
  · intro hinj b hb hne heq
    refine hne ((congrArg key (hinj b hb a hmem ?_)).trans hkey)
    rw [if_neg hne, if_pos hkey]
    exact heq
  · intro hother b hb c hc heq
    by_cases hbk : key b = k <;> by_cases hck : key c = k
    · exact (hrow b hb hbk).trans (hrow c hc hck).symm
    · rw [if_pos hbk, if_neg hck, hrow b hb hbk] at heq
      exact absurd heq.symm (hother c hc hck)
    · rw [if_neg hbk, if_pos hck, hrow c hc hck] at heq
      exact absurd heq (hother b hb hbk)
    · rw [if_neg hbk, if_neg hck] at heq
      exact List.inj_on_of_nodup_map hcol hb hc heq

/-! ## The sum of a column -/

section Sum

variable {M : Type*} [AddCommMonoid M]

/-- A sum, taken apart at one key. -/
theorem sum_apart {rows : List α} (hkeys : (rows.map key).Nodup) (w : α → M) (k : κ) :
    (rows.map w).sum =
      (find key rows k).elim 0 w + ((rows.filter (fun a => key a ≠ k)).map w).sum := by
  induction rows with
  | nil => simp [find]
  | cons a rest ih =>
      rw [List.map_cons, List.nodup_cons] at hkeys
      rw [find_cons]
      by_cases hk : key a = k
      · have hrest : rest.filter (fun b => decide (key b ≠ k)) = rest := by
          rw [List.filter_eq_self]
          intro b hb
          have hne : key b ≠ k := fun heq =>
            hkeys.1 (hk.trans heq.symm ▸ List.mem_map_of_mem hb)
          simpa using hne
        rw [if_pos hk, List.filter_cons_of_neg (by simpa using hk), hrest]
        simp
      · rw [if_neg hk, List.filter_cons_of_pos (by simpa using hk), List.map_cons, List.sum_cons,
          List.map_cons, List.sum_cons, ih hkeys.2]
        exact add_left_comm _ _ _

/-- An update of one row trades what the row counted before for what it counts now. -/
theorem sum_update {f : α → α} (hf : ∀ a, key (f a) = key a) {rows : List α}
    (hkeys : (rows.map key).Nodup) (w : α → M) {k : κ} {a : α} (ha : find key rows k = some a) :
    w a + ((update key k f rows).map w).sum = w (f a) + (rows.map w).sum := by
  have hkeys' : ((update key k f rows).map key).Nodup := by
    rw [update, keys_update]
    · exact hkeys
    · intro b
      split
      · exact hf b
      · rfl
  have hothers : (update key k f rows).filter (fun b => decide (key b ≠ k)) =
      rows.filter (fun b => decide (key b ≠ k)) := by
    unfold update
    rw [List.filter_map, List.filter_congr (q := fun b => decide (key b ≠ k))]
    · refine (List.map_congr_left fun b hb => ?_).trans (List.map_id _)
      have hne : key b ≠ k := by simpa using (List.mem_filter.mp hb).2
      rw [if_neg hne]
      rfl
    · intro b _
      by_cases hk : key b = k <;> simp [hk, hf]
  rw [sum_apart hkeys' w k, sum_apart hkeys w k, hothers, find_update_key hf, if_pos rfl, ha]
  exact add_left_comm _ _ _

end Sum

end Table
