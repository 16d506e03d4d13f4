import CompanyFactory.Lib.Table

/-!
# `Lib.Live` — at most one live row for a key

A table keeps the rows that are over beside those that are live. `current` is the live row of a key. In a table with
`Unique` rows the live ones are a partial map of the keys (`current_eq_some`), and two rules say what becomes of the map:
`current_insert` when a row is added for a key that has none, and `current_update` when a row is rewritten, which may be
the end of it. `Kept` relates a table to a later one: no row is lost, and a row that is over stays as it is.
-/

namespace Live

variable {α ι κ : Type*} {id : α → ι} {key : α → κ} {live : α → Bool}

/-- The live row of a key. -/
def current [DecidableEq κ] (key : α → κ) (live : α → Bool) (rows : List α) (k : κ) : Option α :=
  rows.find? fun a => decide (key a = k) && live a

/-- No two rows have one id, and no two live rows have one key. -/
structure Unique (id : α → ι) (key : α → κ) (live : α → Bool) (rows : List α) : Prop where
  ids : (rows.map id).Nodup
  one : ∀ a ∈ rows, ∀ b ∈ rows, live a = true → live b = true → key a = key b → a = b

theorem unique_nil : Unique id key live [] := ⟨List.nodup_nil, fun _ h => (List.not_mem_nil h).elim⟩

section Current

variable [DecidableEq κ]

theorem current_some {rows : List α} {k : κ} {a : α} (h : current key live rows k = some a) :
    a ∈ rows ∧ key a = k ∧ live a = true := by
  have hp := List.find?_some h
  rw [Bool.and_eq_true, decide_eq_true_iff] at hp
  exact ⟨List.mem_of_find?_eq_some h, hp⟩

theorem current_none {rows : List α} {k : κ} (h : current key live rows k = none) {a : α} (ha : a ∈ rows)
    (hlive : live a = true) : key a ≠ k := by
  intro hk
  have hp := List.find?_eq_none.mp h a ha
  exact hp (by rw [Bool.and_eq_true, decide_eq_true_iff]; exact ⟨hk, hlive⟩)

/-- **The live rows are a partial map.** -/
theorem current_eq_some {rows : List α} (h : Unique id key live rows) {k : κ} {a : α} :
    current key live rows k = some a ↔ a ∈ rows ∧ key a = k ∧ live a = true := by
  refine ⟨current_some, ?_⟩
  rintro ⟨ha, hk, hlive⟩
  cases hcur : current key live rows k with
  | none => exact absurd hk (current_none hcur ha hlive)
  | some b =>
      obtain ⟨hb, hkb, hliveb⟩ := current_some hcur
      rw [h.one b hb a ha hliveb hlive (hkb.trans hk.symm)]

/-- The live row of a key, by its id. -/
theorem row_of_current [DecidableEq ι] {rows : List α} (h : Unique id key live rows) {k : κ} {a : α}
    (hcur : current key live rows k = some a) : Table.find id rows (id a) = some a ∧ live a = true :=
  ⟨Table.find_of_mem h.ids (current_some hcur).1, (current_some hcur).2.2⟩

/-- At most one live row has the key. -/
theorem Unique.length_le_one {rows : List α} (h : Unique id key live rows) (k : κ) :
    (rows.filter fun a => decide (key a = k) && live a).length ≤ 1 := by
  have hnodup : (rows.filter fun a => decide (key a = k) && live a).Nodup :=
    (List.Nodup.of_map id h.ids).filter _
  have hmem : ∀ a ∈ rows.filter (fun a => decide (key a = k) && live a),
      a ∈ rows ∧ key a = k ∧ live a = true := by
    intro a ha
    rwa [List.mem_filter, Bool.and_eq_true, decide_eq_true_iff] at ha
  cases hrows : rows.filter (fun a => decide (key a = k) && live a) with
  | nil => exact Nat.zero_le _
  | cons a rest =>
      cases rest with
      | nil => exact Nat.le_refl _
      | cons b rest =>
          rw [hrows] at hnodup hmem
          obtain ⟨ha, hka, hlivea⟩ := hmem a (by simp)
          obtain ⟨hb, hkb, hliveb⟩ := hmem b (by simp)
          have heq := h.one a ha b hb hlivea hliveb (hka.trans hkb.symm)
          exact absurd heq (List.ne_of_not_mem_cons (List.nodup_cons.mp hnodup).1)

end Current

/-! ## A row is added -/

section Insert

variable [DecidableEq ι] [DecidableEq κ] {rows : List α} {a : α}

theorem Unique.insert (h : Unique id key live rows) (hnew : Table.find id rows (id a) = none)
    (hnone : current key live rows (key a) = none) : Unique id key live (rows ++ [a]) where
  ids := Table.keys_insert h.ids hnew
  one := by
    intro b hb c hc hliveb hlivec hk
    rw [List.mem_append, List.mem_singleton] at hb hc
    rcases hb with hb | rfl <;> rcases hc with hc | rfl
    · exact h.one b hb c hc hliveb hlivec hk
    · exact absurd hk (current_none hnone hb hliveb)
    · exact absurd hk.symm (current_none hnone hc hlivec)
    · rfl

theorem current_insert (hlive : live a = true) (hnone : current key live rows (key a) = none) (k : κ) :
    current key live (rows ++ [a]) k = if key a = k then some a else current key live rows k := by
  unfold current at hnone ⊢
  rw [List.find?_append]
  by_cases hk : key a = k
  · rw [if_pos hk, ← hk, hnone, Option.none_or]
    simp [hlive]
  · rw [if_neg hk]
    simp [hk]

end Insert

/-! ## A row is rewritten -/

section Update

variable [DecidableEq ι] {rows : List α} {i : ι} {f : α → α} {a : α}

/-- The rows after the rewriting of the row that the lookup finds. -/
theorem mem_update_iff (hids : (rows.map id).Nodup) (ha : Table.find id rows i = some a) {b : α} :
    b ∈ Table.update id i f rows ↔ (b ∈ rows ∧ id b ≠ i) ∨ b = f a := by
  have hmem := Table.mem_of_find ha
  have hid := Table.key_of_find ha
  constructor
  · intro hb
    obtain ⟨c, hc, ⟨hne, rfl⟩ | ⟨heq, rfl⟩⟩ := Table.mem_update hb
    · exact .inl ⟨hc, hne⟩
    · have hfind := Table.find_of_mem hids hc
      rw [heq, ha] at hfind
      cases hfind
      exact .inr rfl
  · rintro (⟨hb, hne⟩ | rfl)
    · exact Table.mem_update_of_ne hb hne
    · exact List.mem_map.mpr ⟨a, hmem, if_pos hid⟩

theorem Unique.update (h : Unique id key live rows) (ha : Table.find id rows i = some a)
    (hid : ∀ b, id (f b) = id b) (hkey : key (f a) = key a) (hlive : live (f a) = true → live a = true) :
    Unique id key live (Table.update id i f rows) where
  ids := by
    rw [Table.keys_update_key hid]
    exact h.ids
  one := by
    have hmem := Table.mem_of_find ha
    have hi := Table.key_of_find ha
    intro b hb c hc hliveb hlivec hk
    rw [mem_update_iff h.ids ha] at hb hc
    rcases hb with ⟨hb, hneb⟩ | rfl <;> rcases hc with ⟨hc, hnec⟩ | rfl
    · exact h.one b hb c hc hliveb hlivec hk
    · have heq := h.one b hb a hmem hliveb (hlive hlivec) (hk.trans hkey)
      exact absurd (heq ▸ hi) hneb
    · have heq := h.one a hmem c hc (hlive hliveb) hlivec (hkey.symm.trans hk)
      exact absurd (heq ▸ hi) hnec
    · rfl

/-- **What a rewriting does to the map**: at the key of a live row, there is the new row, if it is live. -/
theorem current_update [DecidableEq κ] (h : Unique id key live rows) (ha : Table.find id rows i = some a)
    (hid : ∀ b, id (f b) = id b) (hkey : key (f a) = key a) (hlive : live a = true) (k : κ) :
    current key live (Table.update id i f rows) k =
      if key a = k then (if live (f a) then some (f a) else none) else current key live rows k := by
  have hmem := Table.mem_of_find ha
  have hi := Table.key_of_find ha
  have hunique := h.update ha hid hkey fun _ => hlive
  apply Option.ext
  intro b
  rw [current_eq_some hunique, mem_update_iff h.ids ha]
  by_cases hk : key a = k
  · rw [if_pos hk]
    constructor
    · rintro ⟨⟨hb, hne⟩ | rfl, hkb, hliveb⟩
      · have heq := h.one b hb a hmem hliveb hlive (hkb.trans hk.symm)
        exact absurd (heq ▸ hi) hne
      · rw [if_pos hliveb]
    · intro hb
      split at hb
      · next hlivef =>
        cases hb
        exact ⟨.inr rfl, hkey.trans hk, hlivef⟩
      · cases hb
  · rw [if_neg hk, current_eq_some h]
    constructor
    · rintro ⟨⟨hb, -⟩ | rfl, hkb, hliveb⟩
      · exact ⟨hb, hkb, hliveb⟩
      · exact absurd (hkey.symm.trans hkb) hk
    · rintro ⟨hb, hkb, hliveb⟩
      refine ⟨.inl ⟨hb, fun heq => ?_⟩, hkb, hliveb⟩
      -- a row with the id is the one that was found
      have hfind := Table.find_of_mem h.ids hb
      rw [heq, ha] at hfind
      cases hfind
      exact hk hkb

end Update

/-! ## Rows stay -/

section Kept

variable [DecidableEq ι] {rows rows' rows'' : List α}

/-- Every row is still there under its key, and as it was if it is over. -/
def Kept (id : α → ι) (key : α → κ) (live : α → Bool) (rows rows' : List α) : Prop :=
  ∀ i a, Table.find id rows i = some a →
    ∃ b, Table.find id rows' i = some b ∧ key b = key a ∧ (live a = false → b = a)

theorem Kept.refl (rows : List α) : Kept id key live rows rows := fun _ a ha => ⟨a, ha, rfl, fun _ => rfl⟩

theorem Kept.trans (h : Kept id key live rows rows') (h' : Kept id key live rows' rows'') :
    Kept id key live rows rows'' := by
  intro i a ha
  obtain ⟨b, hb, hkb, hover⟩ := h i a ha
  obtain ⟨c, hc, hkc, hover'⟩ := h' i b hb
  refine ⟨c, hc, hkc.trans hkb, fun hlive => ?_⟩
  have heq := hover hlive
  rw [hover' (heq ▸ hlive), heq]

theorem Kept.insert (a : α) : Kept id key live rows (rows ++ [a]) :=
  fun _ b hb => ⟨b, Table.find_insert_of_some hb, rfl, fun _ => rfl⟩

theorem Kept.update {i : ι} {f : α → α} {a : α} (ha : Table.find id rows i = some a)
    (hid : ∀ b, id (f b) = id b) (hkey : key (f a) = key a) (hlive : live a = true) :
    Kept id key live rows (Table.update id i f rows) := by
  intro j b hb
  rw [Table.find_update_key hid, hb]
  by_cases hij : i = j
  · subst hij
    rw [ha] at hb
    cases hb
    rw [if_pos rfl]
    refine ⟨f a, rfl, hkey, fun hover => ?_⟩
    rw [hlive] at hover
    cases hover
  · rw [if_neg hij]
    exact ⟨b, rfl, rfl, fun _ => rfl⟩

end Kept

end Live
