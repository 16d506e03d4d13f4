import Mathlib.Data.List.Basic
import Mathlib.Tactic.Common

/-!
# `Lib.Pattern` — regular expressions without captures

A pattern matches a part of a text in its surroundings: a word boundary looks at the character before the part
and at the one after it. What a character of a word is, is a parameter.

* `Pattern.Matches` — the meaning, as a relation.
* `Pattern.ways` — the matches at the start of a text as a backtracking matcher finds them, the preferred first.
* `Pattern.mem_ways` — it finds exactly the parts that match.
* `Pattern.sub` — replacing every match, from left to right, without overlaps.
* `Pattern.sub_of_way`, `Pattern.sub_of_none` — one step of the replacement.
-/

/-- A regular expression. -/
inductive Pattern where
  | one (p : Char → Bool)
  | empty
  | seq (p q : Pattern)
  | alt (p q : Pattern)
  /-- any number of characters of a class, as many as possible -/
  | many (p : Char → Bool)
  /-- `\b` -/
  | boundary

namespace Pattern

/-- One pattern after the other. -/
def concat (ps : List Pattern) : Pattern := ps.foldr .seq .empty

/-- The first of the patterns that leads to a match. -/
def choice (ps : List Pattern) : Pattern := ps.foldr .alt (.one fun _ => false)

/-- The text letter by letter, each compared by `same`. -/
def literal (same : Char → Char → Bool) (s : List Char) : Pattern := concat (s.map fun a => .one (same a))

/-- The character before a place, when `m` stands between `before` and the place. -/
def last_of (before : Option Char) (m : List Char) : Option Char := m.getLast?.or before

/-- The character after a place, when `m` stands between the place and `after`. -/
def next_of (m : List Char) (after : Option Char) : Option Char := m.head?.or after

variable (word : Char → Bool)

/-- The pattern matches `m` where it stands between `before` and `after`. -/
def Matches : Pattern → Option Char → List Char → Option Char → Prop
  | one p, _, m, _ => ∃ c, m = [c] ∧ p c = true
  | empty, _, m, _ => m = []
  | seq p q, before, m, after =>
      ∃ m₁ m₂, m = m₁ ++ m₂ ∧ p.Matches before m₁ (next_of m₂ after) ∧ q.Matches (last_of before m₁) m₂ after
  | alt p q, before, m, after => p.Matches before m after ∨ q.Matches before m after
  | many p, _, m, _ => ∀ c ∈ m, p c = true
  | boundary, before, m, after => m = [] ∧ before.any word ≠ after.any word

/-- Some part of the text matches. -/
def Found (p : Pattern) (text : List Char) : Prop :=
  ∃ pre m post, text = pre ++ (m ++ post) ∧ p.Matches word pre.getLast? m post.head?

/-- The lengths of the matches at the start of the text, in the order in which they are tried. -/
def ways : Pattern → Option Char → List Char → List Nat
  | one _, _, [] => []
  | one p, _, c :: _ => if p c then [1] else []
  | empty, _, _ => [0]
  | seq p q, before, cs =>
      (p.ways before cs).flatMap fun n => (q.ways (last_of before (cs.take n)) (cs.drop n)).map fun k => n + k
  | alt p q, before, cs => p.ways before cs ++ q.ways before cs
  | many p, _, cs => (List.range ((cs.takeWhile p).length + 1)).reverse
  | boundary, before, cs => if before.any word = cs.head?.any word then [] else [0]

/-- Every match replaced, where no match is empty; `skip` characters belong to the match found last. -/
def sub_from (p : Pattern) (f : List Char → List Char) : Nat → Option Char → List Char → List Char
  | _, _, [] => []
  | skip + 1, _, c :: cs => sub_from p f skip (some c) cs
  | 0, before, c :: cs =>
      match (p.ways word before (c :: cs)).head? with
      | some (n + 1) => f ((c :: cs).take (n + 1)) ++ sub_from p f n (some c) cs
      | _ => c :: sub_from p f 0 (some c) cs

/-- `pattern.sub(f, text)` -/
def sub (p : Pattern) (f : List Char → List Char) (text : List Char) : List Char := sub_from word p f 0 none text

/-- `pattern.search(text)` finds something. -/
def search_from (p : Pattern) : Option Char → List Char → Bool
  | before, [] => !(p.ways word before []).isEmpty
  | before, c :: cs => !(p.ways word before (c :: cs)).isEmpty || search_from p (some c) cs

def search (p : Pattern) (text : List Char) : Bool := search_from word p none text

variable {word}

/-! ## Surroundings -/

@[simp] theorem last_of_nil (before : Option Char) : last_of before [] = before := rfl

@[simp] theorem next_of_nil (after : Option Char) : next_of [] after = after := rfl

@[simp] theorem next_of_cons (c : Char) (cs : List Char) (after : Option Char) :
    next_of (c :: cs) after = some c := rfl

theorem next_of_head (m post : List Char) : next_of m post.head? = (m ++ post).head? := by
  cases m <;> simp [next_of]

theorem last_of_concat (before : Option Char) (m : List Char) (c : Char) : last_of before (m ++ [c]) = some c := by
  simp [last_of]

theorem last_of_append (before : Option Char) (m₁ m₂ : List Char) :
    last_of before (m₁ ++ m₂) = last_of (last_of before m₁) m₂ := by
  unfold last_of
  rw [List.getLast?_append, Option.or_assoc]

/-! ## Words and choices -/

theorem literal_iff {same : Char → Char → Bool} {s : List Char} {before : Option Char} {m : List Char}
    {after : Option Char} :
    (literal same s).Matches word before m after ↔ List.Forall₂ (fun a c => same a c = true) s m := by
  induction s generalizing before m with
  | nil => exact ⟨fun h => by rw [show m = [] from h]; exact .nil, fun h => by cases h; rfl⟩
  | cons a s ih =>
      constructor
      · rintro ⟨m₁, m₂, rfl, ⟨c, rfl, hc⟩, h₂⟩
        exact .cons hc (ih.mp h₂)
      · rintro (_ | ⟨hc, hs⟩)
        exact ⟨[_], _, rfl, ⟨_, rfl, hc⟩, ih.mpr hs⟩

theorem choice_iff {ps : List Pattern} {before : Option Char} {m : List Char} {after : Option Char} :
    (choice ps).Matches word before m after ↔ ∃ p ∈ ps, p.Matches word before m after := by
  induction ps with
  | nil => simp [choice, Matches]
  | cons p ps ih =>
      rw [List.exists_mem_cons_iff, ← ih]
      rfl

/-! ## The matcher finds the matches -/

theorem length_takeWhile_le (p : Char → Bool) (cs : List Char) : (cs.takeWhile p).length ≤ cs.length :=
  (List.takeWhile_sublist p).length_le

/-- A found match lies within the text. -/
theorem ways_le (p : Pattern) {before : Option Char} {cs : List Char} {n : Nat} (h : n ∈ p.ways word before cs) :
    n ≤ cs.length := by
  induction p generalizing before cs n with
  | one p =>
      cases cs with
      | nil => cases h
      | cons c cs =>
          rw [ways] at h
          split at h
          · rw [List.mem_singleton] at h
            simp [h]
          · cases h
  | empty =>
      rw [ways, List.mem_singleton] at h
      omega
  | seq p q ihp ihq =>
      rw [ways, List.mem_flatMap] at h
      obtain ⟨n₁, hn₁, h⟩ := h
      obtain ⟨n₂, hn₂, rfl⟩ := List.mem_map.mp h
      have h₁ := ihp hn₁
      have h₂ := ihq hn₂
      rw [List.length_drop] at h₂
      omega
  | alt p q ihp ihq =>
      rw [ways, List.mem_append] at h
      exact h.elim (fun h => ihp h) (fun h => ihq h)
  | many p =>
      rw [ways, List.mem_reverse, List.mem_range] at h
      have hle := length_takeWhile_le p cs
      omega
  | boundary =>
      rw [ways] at h
      split at h
      · cases h
      · rw [List.mem_singleton] at h
        omega

/-- The first characters are of a class exactly when they are among the longest such start. -/
theorem all_iff_le_takeWhile (p : Char → Bool) (m post : List Char) :
    m.length ≤ ((m ++ post).takeWhile p).length ↔ ∀ c ∈ m, p c = true := by
  induction m with
  | nil => simp
  | cons c m ih =>
      rw [List.cons_append, List.takeWhile_cons]
      split
      · rename_i hc
        rw [List.length_cons, List.length_cons, Nat.add_le_add_iff_right, ih, List.forall_mem_cons]
        exact ⟨fun h => ⟨hc, h⟩, fun h => h.2⟩
      · rename_i hc
        simp [hc]

/-- **The matcher finds exactly what matches.** -/
theorem mem_ways (p : Pattern) (before : Option Char) (m post : List Char) :
    m.length ∈ p.ways word before (m ++ post) ↔ p.Matches word before m post.head? := by
  induction p generalizing before m post with
  | one p =>
      cases hcs : m ++ post with
      | nil =>
          obtain ⟨rfl, rfl⟩ := List.append_eq_nil_iff.mp hcs
          simp [ways, Matches]
      | cons c cs =>
          rw [ways, Matches]
          constructor
          · intro h
            split at h
            · rename_i hc
              obtain ⟨d, rfl⟩ := List.length_eq_one_iff.mp (List.mem_singleton.mp h)
              obtain ⟨rfl, -⟩ := List.cons.inj hcs
              exact ⟨d, rfl, hc⟩
            · cases h
          · rintro ⟨d, rfl, hd⟩
            obtain ⟨rfl, -⟩ := List.cons.inj hcs
            rw [if_pos hd]
            exact List.mem_singleton.mpr rfl
  | empty => rw [ways, Matches, List.mem_singleton, List.length_eq_zero_iff]
  | seq p q ihp ihq =>
      rw [ways, Matches, List.mem_flatMap]
      constructor
      · rintro ⟨n₁, hn₁, h⟩
        obtain ⟨n₂, hn₂, hlen⟩ := List.mem_map.mp h
        -- the two matches share the text at `n₁`
        have hsplit : m = m.take n₁ ++ m.drop n₁ := (List.take_append_drop n₁ m).symm
        have hle : n₁ ≤ m.length := by omega
        have hn : (m.take n₁).length = n₁ := by rw [List.length_take]; omega
        have hk : (m.drop n₁).length = n₂ := by rw [List.length_drop]; omega
        rw [List.take_append_of_le_length hle, List.drop_append_of_le_length hle, ← hk, ihq] at hn₂
        refine ⟨m.take n₁, m.drop n₁, hsplit, ?_, hn₂⟩
        rw [next_of_head, ← ihp, hn, ← List.append_assoc, ← hsplit]
        exact hn₁
      · rintro ⟨m₁, m₂, rfl, h₁, h₂⟩
        rw [next_of_head] at h₁
        refine ⟨m₁.length, ?_, List.mem_map.mpr ⟨m₂.length, ?_, List.length_append.symm⟩⟩
        · rw [List.append_assoc]
          exact (ihp _ _ _).mpr h₁
        · rw [List.append_assoc, List.take_left, List.drop_left]
          exact (ihq _ _ _).mpr h₂
  | alt p q ihp ihq => rw [ways, Matches, List.mem_append, ihp, ihq]
  | many p =>
      rw [ways, Matches, List.mem_reverse, List.mem_range, Nat.lt_succ_iff]
      exact all_iff_le_takeWhile p m post
  | boundary =>
      rw [ways, Matches]
      constructor
      · intro h
        split at h
        · cases h
        · rename_i hne
          obtain rfl := List.length_eq_zero_iff.mp (List.mem_singleton.mp h)
          exact ⟨rfl, hne⟩
      · rintro ⟨rfl, hne⟩
        rw [List.nil_append, if_neg hne]
        exact List.mem_singleton.mpr rfl

/-- No way means no match. -/
theorem ways_eq_nil {p : Pattern} {before : Option Char} {cs : List Char} :
    p.ways word before cs = [] ↔ ∀ m post, cs = m ++ post → ¬ p.Matches word before m post.head? := by
  rw [List.eq_nil_iff_forall_not_mem]
  constructor
  · rintro h m post rfl hm
    exact h m.length ((mem_ways p before m post).mpr hm)
  · intro h n hn
    have hle := ways_le p hn
    refine h (cs.take n) (cs.drop n) (List.take_append_drop n cs).symm ?_
    rw [← mem_ways, List.take_append_drop, List.length_take, Nat.min_eq_left hle]
    exact hn

/-- Where all matches have one length, this is the one that is found. -/
theorem head_ways {p : Pattern} {before : Option Char} {m post : List Char}
    (h : p.Matches word before m post.head?)
    (huniq : ∀ m' post', m ++ post = m' ++ post' → p.Matches word before m' post'.head? → m'.length = m.length) :
    (p.ways word before (m ++ post)).head? = some m.length := by
  have hmem := (mem_ways p before m post).mpr h
  cases hw : p.ways word before (m ++ post) with
  | nil => rw [hw] at hmem; cases hmem
  | cons n ns =>
      have hn : n ∈ p.ways word before (m ++ post) := by rw [hw]; exact List.mem_cons_self
      have hle := ways_le p hn
      have hcut : m ++ post = (m ++ post).take n ++ (m ++ post).drop n := (List.take_append_drop n _).symm
      have hlen : ((m ++ post).take n).length = n := by rw [List.length_take]; omega
      rw [List.head?_cons, ← huniq _ _ hcut, hlen]
      rw [← mem_ways, ← hcut, hlen]
      exact hn

/-! ## Searching -/

theorem search_from_iff (p : Pattern) (before : Option Char) (text : List Char) :
    search_from word p before text = true ↔
      ∃ pre m post, text = pre ++ (m ++ post) ∧ p.Matches word (last_of before pre) m post.head? := by
  have hhere : ∀ before text, p.ways word before text ≠ [] ↔
      ∃ m post, text = m ++ post ∧ p.Matches word before m post.head? := by
    intro before text
    rw [Ne, ways_eq_nil]
    push Not
    rfl
  induction text generalizing before with
  | nil =>
      rw [search_from, Bool.not_eq_true', List.isEmpty_eq_false_iff, hhere]
      constructor
      · rintro ⟨m, post, htext, hm⟩
        exact ⟨[], m, post, htext, hm⟩
      · rintro ⟨pre, m, post, htext, hm⟩
        obtain ⟨rfl, hrest⟩ := List.append_eq_nil_iff.mp htext.symm
        exact ⟨m, post, hrest.symm, hm⟩
  | cons c cs ih =>
      have hrest := ih (some c)
      rw [search_from, Bool.or_eq_true, Bool.not_eq_true', List.isEmpty_eq_false_iff, hhere]
      simp only [hrest]
      constructor
      · rintro (⟨m, post, htext, hm⟩ | ⟨pre, m, post, rfl, hm⟩)
        · exact ⟨[], m, post, htext, hm⟩
        · refine ⟨c :: pre, m, post, rfl, ?_⟩
          rw [← List.singleton_append, last_of_append]
          exact hm
      · rintro ⟨pre, m, post, htext, hm⟩
        cases pre with
        | nil => exact .inl ⟨m, post, htext, hm⟩
        | cons d pre =>
            obtain ⟨rfl, rfl⟩ := List.cons.inj htext
            rw [← List.singleton_append, last_of_append] at hm
            exact .inr ⟨pre, m, post, rfl, hm⟩

/-- **A search finds something exactly when some part matches.** -/
theorem search_iff (p : Pattern) (text : List Char) : search word p text = true ↔ Found word p text := by
  rw [search, search_from_iff]
  unfold Found last_of
  simp only [Option.or_none]

/-! ## Replacing -/

theorem sub_from_skip (p : Pattern) (f : List Char → List Char) (before : Option Char) (m post : List Char) :
    sub_from word p f m.length before (m ++ post) = sub_from word p f 0 (last_of before m) post := by
  induction m generalizing before with
  | nil => rfl
  | cons c m ih =>
      rw [List.length_cons, List.cons_append, sub_from, ih, ← List.singleton_append, last_of_append]
      rfl

/-- A match at the start is replaced, and the rest follows. -/
theorem sub_of_way {p : Pattern} {f : List Char → List Char} {before : Option Char} {c : Char} {m post : List Char}
    (h : (p.ways word before (c :: (m ++ post))).head? = some (m.length + 1)) :
    sub_from word p f 0 before (c :: (m ++ post)) =
      f (c :: m) ++ sub_from word p f 0 (last_of (some c) m) post := by
  rw [sub_from, h]
  dsimp only
  rw [sub_from_skip, List.take_succ_cons, List.take_left]

/-- A character where no match starts is kept. -/
theorem sub_of_none {p : Pattern} {f : List Char → List Char} {before : Option Char} {c : Char} {cs : List Char}
    (h : p.ways word before (c :: cs) = []) :
    sub_from word p f 0 before (c :: cs) = c :: sub_from word p f 0 (some c) cs := by
  rw [sub_from, h]
  rfl

/-- What holds of all characters of the text and is kept by the replacement holds of all characters of the result. -/
theorem sub_from_forall {p : Pattern} {f : List Char → List Char} {P : Char → Prop}
    (hf : ∀ m, (∀ c ∈ m, P c) → ∀ c ∈ f m, P c) {cs : List Char} (hcs : ∀ c ∈ cs, P c) (skip : Nat)
    (before : Option Char) : ∀ c ∈ sub_from word p f skip before cs, P c := by
  induction cs generalizing skip before with
  | nil => cases skip <;> exact List.forall_mem_nil _
  | cons c cs ih =>
      have hrest := ih (List.forall_mem_cons.mp hcs).2
      cases skip with
      | succ skip => exact hrest skip (some c)
      | zero =>
          rw [sub_from]
          split
          · rename_i n _
            rw [List.forall_mem_append]
            exact ⟨hf _ fun d hd => hcs d (List.take_subset _ _ hd), hrest n (some c)⟩
          · exact List.forall_mem_cons.mpr ⟨(List.forall_mem_cons.mp hcs).1, hrest 0 (some c)⟩

end Pattern
