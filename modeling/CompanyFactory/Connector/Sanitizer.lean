import CompanyFactory.AgentRuntime.Models
import CompanyFactory.Lib.Pattern
import Mathlib.Data.List.Forall2
import Mathlib.Data.String.Basic

/-!
# `Connector.Sanitizer` — text from outside

`safe_text` blanks the control characters, takes the brackets off every role tag and cuts the rest at a length.
A match of the tag pattern runs from the first opening of a piece to the `>` that ends it, so the text is read
piece by piece, a piece ending at each `>`. Of the openings of a piece only the first is taken apart.

* `sub_piece` — what the replacement makes of one piece.
* `hasTag_take` — when a tag is left in the first `n` characters of the result.
* `safe_text_complete_iff` — when `safe_text` does what it is for.
-/

namespace CompanyFactory

namespace Sanitizer

/-- The characters of words (`\\w`): letters, digits and the underscore; which they are beyond ASCII is Unicode's
table, of which nothing else is used. -/
structure WordTable where
  word : Char → Bool
  ascii : ∀ c : Char, c.toNat < 128 → word c = (c.isAlphanum || c == '_')

/-- The table that has no characters of words beyond ASCII. -/
def WordTable.only_ascii : WordTable := ⟨fun c => c.isAlphanum || c == '_', fun _ _ => rfl⟩

/-- A letter of the pattern under `IGNORECASE`; the long s, the dotted and the dotless i count as s and i. -/
def same_letter (a c : Char) : Bool :=
  c == a || c == a.toUpper || (a == 's' && c == 'ſ') || (a == 'i' && (c == 'İ' || c == 'ı'))

def TAG_NAMES : List String := ["system", "assistant", "user", "tool", "ignore"]

/-- `<\\s*/?\\s*(system|assistant|user|tool|ignore)\\b` -/
def _OPEN : Pattern :=
  .concat [.one (· == '<'), .many is_space, .choice [.one (· == '/'), .empty], .many is_space,
    .choice (TAG_NAMES.map fun s => .literal same_letter s.toList), .boundary]

/-- `_TAG_RE`: an opening, then `[^>]*>`. -/
def _TAG_RE : Pattern := .seq _OPEN (.seq (.many (· != '>')) (.one (· == '>')))

/-- `_CONTROL_RE` -/
def is_control (c : Char) : Bool :=
  c.toNat ≤ 8 || c.toNat == 11 || c.toNat == 12 || (14 ≤ c.toNat && c.toNat ≤ 31)

/-- `_CONTROL_RE.sub(" ", text)` -/
def blank (text : String) : List Char := text.toList.map fun c => if is_control c then ' ' else c

/-- `f"&lt;{m.group(0)[1:-1]}&gt;"` -/
def defang (m : List Char) : List Char := "&lt;".toList ++ ((m.drop 1).dropLast ++ "&gt;".toList)

def TRUNCATED : List Char := "...[truncated]".toList

/-- How many characters `cleaned[:max_length]` keeps of `length`. -/
def kept (length : Nat) (max_length : Int) : Nat :=
  if max_length < 0 then (length + max_length).toNat else max_length.toNat

def safe_text (u : WordTable) (text : String) (max_length : Int) : String :=
  let cleaned := Pattern.sub u.word _TAG_RE defang (blank text)
  if max_length < cleaned.length then String.ofList (cleaned.take (kept cleaned.length max_length) ++ TRUNCATED)
  else String.ofList cleaned

/-! ## Openings and pieces -/

/-- A tag opens at the start of the text. -/
def opens (u : WordTable) (cs : List Char) : Bool := !(_OPEN.ways u.word none cs).isEmpty

/-- The number of places of the text at which a tag opens. -/
def openings (u : WordTable) : List Char → Nat
  | [] => 0
  | c :: cs => (if opens u (c :: cs) then 1 else 0) + openings u cs

/-- The pieces that a `>` ends, of a text and the `>` behind it; the last one stands before this `>`. -/
def pieces (pre : List Char) : List (List Char) := pre.splitOn '>'

/-- No tag opens between the last `>` of the text and its end. -/
def Loose (u : WordTable) (pre : List Char) : Prop := ∀ p ∈ (pieces pre).getLast?, openings u p = 0

/-- In a piece that a `>` of the text ends, two tags open. -/
def Nested (u : WordTable) (pre : List Char) : Prop := ∃ p ∈ (pieces pre).dropLast, 2 ≤ openings u p

/-- The number of tags that are taken apart. -/
def tags (u : WordTable) (pre : List Char) : Nat := (pieces pre).dropLast.countP fun p => 0 < openings u p

variable {u : WordTable}

/-! ## An opening -/

/-- The names in any case. -/
def TagName (name : List Char) : Prop :=
  ∃ s ∈ TAG_NAMES, List.Forall₂ (fun a c => same_letter a c = true) s.toList name

theorem forall₂_last {R : Char → Char → Prop} {t : List Char} {a : Char} {m : List Char}
    (h : List.Forall₂ R (t ++ [a]) m) : ∃ w c, m = w ++ [c] ∧ R a c := by
  induction t generalizing m with
  | nil =>
      cases h with
      | cons hc hnil =>
          cases hnil
          exact ⟨[], _, rfl, hc⟩
  | cons b t ih =>
      cases h with
      | cons _ hm =>
          obtain ⟨w, c, rfl, hc⟩ := ih hm
          exact ⟨_ :: w, c, rfl, hc⟩

/-- A name ends with an ASCII letter. -/
theorem TagName.last {name : List Char} (h : TagName name) : ∃ w c, name = w ++ [c] ∧ u.word c = true := by
  have hletter : ∀ a ∈ "mtrle".toList, ∀ c, same_letter a c = true → u.word c = true := by
    intro a ha c hc
    have hcase : c = a ∨ c = a.toUpper := by
      simp only [same_letter, Bool.or_eq_true, Bool.and_eq_true, beq_iff_eq] at hc
      rcases hc with ((hc | hc) | ⟨rfl, -⟩) | ⟨rfl, -⟩
      · exact .inl hc
      · exact .inr hc
      · exact absurd ha (by decide)
      · exact absurd ha (by decide)
    have hboth : ∀ b ∈ "mtrle".toList, ∀ d ∈ [b, b.toUpper], d.toNat < 128 ∧ (d.isAlphanum || d == '_') = true := by
      simp
    obtain ⟨hsmall, halnum⟩ := hboth a ha c (by rcases hcase with rfl | rfl <;> simp)
    rw [u.ascii c hsmall]
    exact halnum
  obtain ⟨s, hs, h⟩ := h
  have hlast : ∀ s ∈ TAG_NAMES, ∃ t a, s.toList = t ++ [a] ∧ a ∈ "mtrle".toList := by
    intro s hs
    refine ⟨s.toList.dropLast, s.toList.getLast?.getD ' ', ?_⟩
    revert s
    decide
  obtain ⟨t, a, hta, ha⟩ := hlast s hs
  rw [hta] at h
  obtain ⟨w, c, hname, hc⟩ := forall₂_last h
  exact ⟨w, c, hname, hletter a ha c hc⟩

/-- What an opening is: the word boundary leaves the place behind the name to a character that is of no word. -/
theorem open_iff {before : Option Char} {m : List Char} {after : Option Char} :
    _OPEN.Matches u.word before m after ↔
      ∃ sp₁ slash sp₂ name, m = '<' :: (sp₁ ++ (slash ++ (sp₂ ++ name))) ∧ (∀ c ∈ sp₁, is_space c = true) ∧
        (slash = [] ∨ slash = ['/']) ∧ (∀ c ∈ sp₂, is_space c = true) ∧ TagName name ∧
        after.any u.word = false := by
  have hname : ∀ {b name a}, (Pattern.choice (TAG_NAMES.map fun s => .literal same_letter s.toList)).Matches
      u.word b name a ↔ TagName name := by
    intro b name a
    rw [Pattern.choice_iff]
    constructor
    · rintro ⟨p, hp, hm⟩
      obtain ⟨s, hs, rfl⟩ := List.mem_map.mp hp
      exact ⟨s, hs, Pattern.literal_iff.mp hm⟩
    · rintro ⟨s, hs, hm⟩
      exact ⟨_, List.mem_map_of_mem hs, Pattern.literal_iff.mpr hm⟩
  have hslash : ∀ {b slash a}, (Pattern.choice [.one (· == '/'), .empty]).Matches u.word b slash a ↔
      slash = [] ∨ slash = ['/'] := by
    intro b slash a
    rw [Pattern.choice_iff]
    simp [Pattern.Matches, or_comm]
  constructor
  · rintro ⟨_, _, rfl, ⟨c, rfl, hc⟩, sp₁, _, rfl, hsp₁, slash, _, rfl, hsl, sp₂, _, rfl, hsp₂, name, _, rfl, hn, _, _,
      rfl, ⟨rfl, hb⟩, rfl⟩
    -- a name ends in a letter, so that the boundary is about what follows
    obtain ⟨w, d, rfl, hd⟩ := (hname.mp hn).last (u := u)
    rw [Pattern.last_of_concat] at hb
    refine ⟨sp₁, slash, sp₂, w ++ [d], by simp [beq_iff_eq.mp hc], hsp₁, hslash.mp hsl, hsp₂, hname.mp hn, ?_⟩
    simpa [Option.any_some, hd] using hb
  · rintro ⟨sp₁, slash, sp₂, name, rfl, hsp₁, hsl, hsp₂, hn, hafter⟩
    obtain ⟨w, d, rfl, hd⟩ := hn.last (u := u)
    refine ⟨['<'], _, rfl, ⟨'<', rfl, rfl⟩, sp₁, _, rfl, hsp₁, slash, _, rfl, hslash.mpr hsl, sp₂, _, rfl, hsp₂,
      w ++ [d], [], (List.append_nil _).symm, hname.mpr hn, [], [], rfl, ⟨rfl, ?_⟩, rfl⟩
    rw [Pattern.last_of_concat]
    simp [hd, hafter]

/-- The characters that may stand in an opening, behind its bracket. -/
def inner (c : Char) : Bool := is_space c || c == '/' || TAG_NAMES.any fun s => s.toList.any fun a => same_letter a c

/-- A character that ends whatever opening stands before it. -/
structure Stop (u : WordTable) (d : Char) : Prop where
  not_inner : inner d = false
  not_word : u.word d = false

theorem stop_of_ascii {d : Char} (hsmall : d.toNat < 128) (hword : (d.isAlphanum || d == '_') = false)
    (hinner : inner d = false) : Stop u d := ⟨hinner, by rw [u.ascii d hsmall, hword]⟩

theorem stop_lt : Stop u '<' := stop_of_ascii (by decide) (by decide) (by decide)
theorem stop_gt : Stop u '>' := stop_of_ascii (by decide) (by decide) (by decide)
theorem stop_amp : Stop u '&' := stop_of_ascii (by decide) (by decide) (by decide)
theorem stop_semicolon : Stop u ';' := stop_of_ascii (by decide) (by decide) (by decide)

/-- Behind its bracket, an opening has characters of openings only. -/
theorem open_inner {before : Option Char} {m : List Char} {after : Option Char}
    (h : _OPEN.Matches u.word before m after) : ∃ t, m = '<' :: t ∧ ∀ c ∈ t, inner c = true := by
  obtain ⟨sp₁, slash, sp₂, name, rfl, hsp₁, hslash, hsp₂, ⟨s, hs, hname⟩, -⟩ := open_iff.mp h
  refine ⟨_, rfl, ?_⟩
  intro c hc
  unfold inner
  rw [Bool.or_eq_true, Bool.or_eq_true, beq_iff_eq]
  rw [List.mem_append, List.mem_append, List.mem_append] at hc
  rcases hc with hc | hc | hc | hc
  · exact .inl (.inl (hsp₁ c hc))
  · rcases hslash with rfl | rfl
    · cases hc
    · exact .inl (.inr (List.mem_singleton.mp hc))
  · exact .inl (.inl (hsp₂ c hc))
  · -- a character of the name is a letter of the pattern
    right
    obtain ⟨a, ha, hac⟩ : ∃ a ∈ s.toList, same_letter a c = true := by
      obtain ⟨i, hi, rfl⟩ := List.mem_iff_getElem.mp hc
      have hlen := hname.length_eq
      exact ⟨s.toList[i], List.getElem_mem _, (List.forall₂_iff_get.mp hname).2 i (by omega) hi⟩
    exact List.any_eq_true.mpr ⟨s, hs, List.any_eq_true.mpr ⟨a, ha, hac⟩⟩

theorem opens_iff {cs : List Char} :
    opens u cs = true ↔ ∃ m rest, cs = m ++ rest ∧ _OPEN.Matches u.word none m rest.head? := by
  unfold opens
  rw [Bool.not_eq_true', List.isEmpty_eq_false_iff, Ne, Pattern.ways_eq_nil]
  push Not
  rfl

/-- What stands before an opening does not matter, and what stands behind it only if it is of a word. -/
theorem open_around {before before' : Option Char} {m : List Char} {after after' : Option Char}
    (h : _OPEN.Matches u.word before m after) (hafter : after'.any u.word = false) :
    _OPEN.Matches u.word before' m after' := by
  obtain ⟨sp₁, slash, sp₂, name, hm, hsp₁, hslash, hsp₂, hname, -⟩ := open_iff.mp h
  exact open_iff.mpr ⟨sp₁, slash, sp₂, name, hm, hsp₁, hslash, hsp₂, hname, hafter⟩

theorem open_after {before : Option Char} {m : List Char} {after : Option Char}
    (h : _OPEN.Matches u.word before m after) : after.any u.word = false := by
  obtain ⟨_, _, _, _, _, _, _, _, _, hafter⟩ := open_iff.mp h
  exact hafter

theorem opens_bracket {c : Char} {cs : List Char} (hc : c ≠ '<') : opens u (c :: cs) = false := by
  rw [Bool.eq_false_iff]
  intro h
  obtain ⟨m, rest, hcs, hm⟩ := opens_iff.mp h
  obtain ⟨t, rfl, -⟩ := open_inner hm
  exact hc (List.cons.inj hcs).1

theorem opens_nil : opens u [] = false := by
  rw [Bool.eq_false_iff]
  intro h
  obtain ⟨m, rest, hcs, hm⟩ := opens_iff.mp h
  obtain ⟨t, rfl, -⟩ := open_inner hm
  cases hcs

/-- What stands behind the stop does not matter. -/
theorem opens_stop {d : Char} (hd : Stop u d) (c : Char) (w z : List Char) :
    opens u (c :: (w ++ d :: z)) = opens u (c :: w) := by
  rw [Bool.eq_iff_iff, opens_iff, opens_iff]
  constructor
  · rintro ⟨m, rest, hcs, hm⟩
    obtain ⟨t, rfl, ht⟩ := open_inner hm
    obtain ⟨rfl, hw⟩ := List.cons.inj hcs
    rcases List.append_eq_append_iff.mp hw with ⟨a, rfl, ha⟩ | ⟨a, rfl, ha⟩
    · cases a with
      | nil =>
          refine ⟨'<' :: w, [], (List.append_nil _).symm, ?_⟩
          rw [List.append_nil] at hm
          exact open_around hm rfl
      | cons e a =>
          -- the opening would reach the stop
          obtain ⟨rfl, -⟩ := List.cons.inj ha
          have hin := ht d (List.mem_append_right _ List.mem_cons_self)
          rw [hd.not_inner] at hin
          cases hin
    · refine ⟨'<' :: t, a, rfl, ?_⟩
      cases a with
      | nil => exact open_around hm rfl
      | cons e a =>
          rw [ha] at hm
          exact hm
  · rintro ⟨m, rest, hcs, hm⟩
    refine ⟨m, rest ++ d :: z, ?_, ?_⟩
    · rw [← List.append_assoc, ← hcs]
      rfl
    · cases rest with
      | cons e rest => exact hm
      | nil => exact open_around hm hd.not_word

/-! ## A tag -/

theorem first_close {w w' z z' : List Char} (hw : '>' ∉ w) (hw' : '>' ∉ w') (h : w ++ '>' :: z = w' ++ '>' :: z') :
    w = w' ∧ z = z' := by
  induction w generalizing w' with
  | nil =>
      cases w' with
      | nil => exact ⟨rfl, (List.cons.inj h).2⟩
      | cons c w' => exact absurd (List.cons.inj h).1.symm (fun hc => hw' (hc ▸ List.mem_cons_self))
  | cons c w ih =>
      cases w' with
      | nil => exact absurd (List.cons.inj h).1 (fun hc => hw (hc ▸ List.mem_cons_self))
      | cons d w' =>
          obtain ⟨rfl, hrest⟩ := List.cons.inj h
          obtain ⟨rfl, rfl⟩ := ih (List.not_mem_of_not_mem_cons hw) (List.not_mem_of_not_mem_cons hw') hrest
          exact ⟨rfl, rfl⟩

/-- A tag is what an opening starts and the next `>` ends. -/
theorem tag_iff {before : Option Char} {m : List Char} {after : Option Char} :
    _TAG_RE.Matches u.word before m after ↔ ∃ w, m = w ++ ['>'] ∧ '>' ∉ w ∧ opens u w = true := by
  constructor
  · rintro ⟨m₁, _, rfl, hopen, body, _, rfl, hbody, c, rfl, hc⟩
    obtain rfl := beq_iff_eq.mp hc
    obtain ⟨t, ht, hin⟩ := open_inner hopen
    refine ⟨m₁ ++ body, (List.append_assoc _ _ _).symm, ?_, opens_iff.mpr ⟨m₁, body, rfl, ?_⟩⟩
    · rw [List.mem_append, ht, List.mem_cons]
      rintro ((hgt | hgt) | hgt)
      · cases hgt
      · exact absurd (hin _ hgt) (by rw [stop_gt (u := u).not_inner]; exact Bool.false_ne_true)
      · exact absurd (hbody _ hgt) (by decide)
    · refine open_around hopen ?_
      cases body with
      | nil => rfl
      | cons d body => exact open_after hopen
  · rintro ⟨w, rfl, hw, hopens⟩
    obtain ⟨m₁, body, rfl, hopen⟩ := opens_iff.mp hopens
    refine ⟨m₁, body ++ ['>'], List.append_assoc _ _ _, ?_, body, ['>'], rfl, ?_, '>', rfl, rfl⟩
    · refine open_around hopen ?_
      cases body with
      | nil => exact stop_gt.not_word
      | cons d body => exact open_after hopen
    · intro c hc
      rw [bne_iff_ne]
      rintro rfl
      exact hw (List.mem_append_right _ hc)

/-- Some part of the text is a tag. -/
def HasTag (u : WordTable) (text : List Char) : Prop :=
  ∃ a w z, text = a ++ (w ++ '>' :: z) ∧ '>' ∉ w ∧ opens u w = true

theorem found_iff {text : List Char} : _TAG_RE.Found u.word text ↔ HasTag u text := by
  constructor
  · rintro ⟨pre, m, post, rfl, hm⟩
    obtain ⟨w, rfl, hw, hopens⟩ := tag_iff.mp hm
    exact ⟨pre, w, post, by simp, hw, hopens⟩
  · rintro ⟨a, w, z, rfl, hw, hopens⟩
    exact ⟨a, w ++ ['>'], z, by simp, tag_iff.mpr ⟨w, rfl, hw, hopens⟩⟩

/-! ## Counting openings -/

theorem openings_pos {s : List Char} : 0 < openings u s ↔ ∃ a w, s = a ++ w ∧ opens u w = true := by
  -- the first opening is at the head, or in the rest
  induction s with
  | nil =>
      refine ⟨fun h => absurd h (Nat.lt_irrefl 0), ?_⟩
      rintro ⟨a, w, h, hw⟩
      obtain ⟨rfl, rfl⟩ := List.append_eq_nil_iff.mp h.symm
      rw [opens_nil] at hw
      cases hw
  | cons c s ih =>
      rw [openings, Nat.add_pos_iff_pos_or_pos, ih]
      constructor
      · rintro (h | ⟨a, w, rfl, hw⟩)
        · refine ⟨[], c :: s, rfl, ?_⟩
          by_contra hno
          rw [if_neg hno] at h
          exact Nat.lt_irrefl 0 h
        · exact ⟨c :: a, w, rfl, hw⟩
      · rintro ⟨a, w, h, hw⟩
        cases a with
        | nil =>
            obtain rfl : c :: s = w := h
            rw [if_pos hw]
            exact .inl Nat.one_pos
        | cons d a =>
            obtain ⟨rfl, rfl⟩ := List.cons.inj h
            exact .inr ⟨a, w, rfl, hw⟩

theorem openings_bracket {c : Char} (hc : c ≠ '<') (s : List Char) : openings u (c :: s) = openings u s := by
  rw [openings, opens_bracket hc, if_neg Bool.false_ne_true, Nat.zero_add]

/-- At a stop that is no bracket, the openings on both sides are counted apart. -/
theorem openings_stop {d : Char} (hd : Stop u d) (hlt : d ≠ '<') (s z : List Char) :
    openings u (s ++ d :: z) = openings u s + openings u z := by
  induction s with
  | nil => rw [List.nil_append, openings_bracket hlt, openings, Nat.zero_add]
  | cons c s ih => rw [List.cons_append, openings, openings, ih, opens_stop hd, Nat.add_assoc]

/-! ## One piece -/

/-- A piece and the `>` behind it, with the first tag of the piece taken apart. -/
def closed (u : WordTable) : List Char → List Char
  | [] => ['>']
  | c :: s => if opens u (c :: s) then "&lt;".toList ++ (s ++ "&gt;".toList) else c :: closed u s

/-- **The replacement takes one piece after the other.** -/
theorem sub_piece {s : List Char} (hs : '>' ∉ s) (rest : List Char) (before : Option Char) :
    ∃ before', Pattern.sub_from u.word _TAG_RE defang 0 before (s ++ '>' :: rest) =
      closed u s ++ Pattern.sub_from u.word _TAG_RE defang 0 before' rest := by
  induction s generalizing before with
  | nil =>
      refine ⟨some '>', Pattern.sub_of_none ?_⟩
      rw [Pattern.ways_eq_nil]
      intro m post hcut hm
      obtain ⟨w, rfl, hw, hopens⟩ := tag_iff.mp hm
      rw [List.append_assoc] at hcut
      obtain ⟨rfl, -⟩ := first_close List.not_mem_nil hw (List.nil_append _ ▸ hcut)
      rw [opens_nil] at hopens
      cases hopens
  | cons c s ih =>
      have hrest : '>' ∉ s := List.not_mem_of_not_mem_cons hs
      -- a match that starts here ends at the next `>`
      have hmatch : ∀ {m post}, c :: (s ++ '>' :: rest) = m ++ post →
          _TAG_RE.Matches u.word before m post.head? → m = c :: (s ++ ['>']) ∧ opens u (c :: s) = true := by
        intro m post hcut hm
        obtain ⟨w, rfl, hw, hopens⟩ := tag_iff.mp hm
        rw [List.append_assoc] at hcut
        obtain ⟨rfl, -⟩ := first_close hs hw hcut
        exact ⟨rfl, hopens⟩
      rw [closed, List.cons_append]
      split
      · rename_i hopens
        have hway : (_TAG_RE.ways u.word before (c :: (s ++ ['>'] ++ rest))).head? = some ((s ++ ['>']).length + 1) := by
          refine Pattern.head_ways (m := c :: (s ++ ['>'])) (tag_iff.mpr ⟨c :: s, rfl, hs, hopens⟩) ?_
          intro m post hcut hm
          rw [(hmatch (by simpa using hcut) hm).1]
        refine ⟨Pattern.last_of (some c) (s ++ ['>']), ?_⟩
        rw [show s ++ '>' :: rest = s ++ ['>'] ++ rest by simp, Pattern.sub_of_way hway]
        simp [defang]
      · rename_i hopens
        obtain ⟨before', hsub⟩ := ih hrest (some c)
        refine ⟨before', ?_⟩
        rw [Pattern.sub_of_none, hsub]
        · rfl
        · rw [Pattern.ways_eq_nil]
          intro m post hcut hm
          exact hopens (hmatch hcut hm).2

/-- A text without `>` is left as it is. -/
theorem sub_plain {s : List Char} (hs : '>' ∉ s) (before : Option Char) :
    Pattern.sub_from u.word _TAG_RE defang 0 before s = s := by
  induction s generalizing before with
  | nil => rfl
  | cons c s ih =>
      rw [Pattern.sub_of_none, ih (List.not_mem_of_not_mem_cons hs)]
      rw [Pattern.ways_eq_nil]
      intro m post hcut hm
      obtain ⟨w, rfl, -, -⟩ := tag_iff.mp hm
      exact hs (hcut ▸ List.mem_append_left _ (List.mem_append_right _ List.mem_cons_self))

theorem length_closed (s : List Char) :
    (closed u s).length = s.length + 1 + 6 * (if 0 < openings u s then 1 else 0) := by
  induction s with
  | nil => rfl
  | cons c s ih =>
      rw [closed, openings]
      split
      · rename_i hopens
        rw [if_pos (by omega)]
        simp
      · rw [List.length_cons, ih, List.length_cons, Nat.zero_add]
        omega

theorem closed_plain {s : List Char} (h : openings u s = 0) : closed u s = s ++ ['>'] := by
  induction s with
  | nil => rfl
  | cons c s ih =>
      rw [openings, Nat.add_eq_zero_iff] at h
      rw [closed, if_neg (fun hopens => by rw [if_pos hopens] at h; exact Nat.one_ne_zero h.1), ih h.2,
        List.cons_append]

/-- Up to its first opening a piece is kept. -/
theorem closed_split {s : List Char} (h : 0 < openings u s) :
    ∃ a x y, s = a ++ '<' :: y ∧ closed u s = a ++ '&' :: x := by
  induction s with
  | nil => exact absurd h (Nat.lt_irrefl 0)
  | cons c s ih =>
      rw [closed]
      by_cases hopens : opens u (c :: s) = true
      · rw [if_pos hopens]
        have hc : c = '<' := by
          by_contra hc
          rw [opens_bracket hc] at hopens
          cases hopens
        exact ⟨[], _, s, by rw [hc]; rfl, rfl⟩
      · rw [openings, if_neg hopens, Nat.zero_add] at h
        obtain ⟨a, x, y, rfl, hclosed⟩ := ih h
        exact ⟨c :: a, x, y, rfl, by rw [if_neg hopens, hclosed]; rfl⟩

/-- Of the openings of a piece, all but the first are left; and the piece is sealed behind them. -/
theorem closed_tag {s : List Char} (hs : '>' ∉ s) (h : 0 < openings u s) :
    ∃ k, closed u s = k ++ [';'] ∧ '>' ∉ k ∧ openings u (closed u s) + 1 = openings u s := by
  induction s with
  | nil => exact absurd h (Nat.lt_irrefl 0)
  | cons c s ih =>
      have hrest : '>' ∉ s := List.not_mem_of_not_mem_cons hs
      by_cases hopens : opens u (c :: s) = true
      · -- the tag that starts here is escaped, and its bracket is gone
        rw [closed, if_pos hopens]
        refine ⟨"&lt;".toList ++ (s ++ "&gt".toList), by simp, ?_, ?_⟩
        · simp [hrest]
        · have hcount : openings u ("&lt;".toList ++ (s ++ "&gt;".toList)) = openings u s := by
            show openings u ('&' :: 'l' :: 't' :: ';' :: (s ++ '&' :: ['g', 't', ';'])) = _
            rw [openings_bracket (by decide), openings_bracket (by decide), openings_bracket (by decide),
              openings_bracket (by decide), openings_stop stop_amp (by decide), openings_bracket (by decide),
              openings_bracket (by decide), openings_bracket (by decide)]
            rfl
          rw [hcount, openings, if_pos hopens, Nat.add_comm]
      · rw [openings, if_neg hopens, Nat.zero_add] at h
        obtain ⟨k, hk, hgt, hcount⟩ := ih hrest h
        rw [closed, if_neg hopens, openings, openings, if_neg hopens, Nat.zero_add]
        refine ⟨c :: k, by rw [hk]; rfl, ?_, ?_⟩
        · rw [List.mem_cons]
          rintro (rfl | hin)
          · exact hs List.mem_cons_self
          · exact hgt hin
        · -- the bracket of the first opening became a stop as well
          obtain ⟨a, x, y, hsplit, hclosed⟩ := closed_split h
          have hno : opens u (c :: closed u s) = false := by
            rw [hclosed, opens_stop stop_amp, ← opens_stop stop_lt c a y, ← hsplit]
            exact Bool.eq_false_iff.mpr hopens
          rw [hno, if_neg Bool.false_ne_true, Nat.zero_add, hcount]

/-! ## Piece by piece -/

/-- A text is a piece without `>`, or such a piece, its `>`, and a text. -/
@[elab_as_elim] theorem pieces_induction {P : List Char → Prop} (last : ∀ s, '>' ∉ s → P s)
    (piece : ∀ s rest, '>' ∉ s → P rest → P (s ++ '>' :: rest)) (cs : List Char) : P cs := by
  induction hn : cs.length using Nat.strong_induction_on generalizing cs with
  | _ n ih =>
      by_cases hgt : '>' ∈ cs
      · obtain ⟨s, rest, rfl, hs⟩ := List.eq_append_cons_of_mem hgt
        refine piece s rest hs (ih rest.length ?_ rest rfl)
        rw [← hn, List.length_append, List.length_cons]
        omega
      · exact last cs hgt

theorem pieces_last {s : List Char} (hs : '>' ∉ s) : pieces s = [s] := List.splitOn_eq_singleton hs

theorem pieces_append (pre post : List Char) : pieces (pre ++ '>' :: post) = pieces pre ++ pieces post :=
  List.splitOn_append_cons_self _ _

theorem pieces_ne_nil (cs : List Char) : pieces cs ≠ [] := List.splitOn_ne_nil _ _

theorem loose_last {s : List Char} (hs : '>' ∉ s) : Loose u s ↔ openings u s = 0 := by
  unfold Loose
  rw [pieces_last hs]
  simp

theorem loose_piece (pre post : List Char) : Loose u (pre ++ '>' :: post) ↔ Loose u post := by
  unfold Loose
  rw [pieces_append, List.getLast?_append_of_ne_nil _ (pieces_ne_nil post)]

theorem not_nested_last {s : List Char} (hs : '>' ∉ s) : ¬ Nested u s := by
  unfold Nested
  rw [pieces_last hs]
  simp

theorem nested_piece {s : List Char} (hs : '>' ∉ s) (post : List Char) :
    Nested u (s ++ '>' :: post) ↔ 2 ≤ openings u s ∨ Nested u post := by
  unfold Nested
  rw [pieces_append, pieces_last hs, List.dropLast_append_of_ne_nil (pieces_ne_nil post), List.singleton_append,
    List.exists_mem_cons_iff]

theorem tags_last {s : List Char} (hs : '>' ∉ s) : tags u s = 0 := by
  unfold tags
  rw [pieces_last hs]
  rfl

theorem tags_piece {s : List Char} (hs : '>' ∉ s) (post : List Char) :
    tags u (s ++ '>' :: post) = (if 0 < openings u s then 1 else 0) + tags u post := by
  unfold tags
  rw [pieces_append, pieces_last hs, List.dropLast_append_of_ne_nil (pieces_ne_nil post), List.singleton_append,
    List.countP_cons, Nat.add_comm]
  simp

/-- A tag taken apart is six characters longer. -/
theorem length_sub (cs : List Char) (before : Option Char) :
    (Pattern.sub_from u.word _TAG_RE defang 0 before cs).length = cs.length + 6 * tags u cs := by
  induction cs using pieces_induction generalizing before with
  | last s hs => rw [sub_plain hs, tags_last hs]; rfl
  | piece s rest hs ih =>
      obtain ⟨before', hsub⟩ := sub_piece (u := u) hs rest before
      rw [hsub, List.length_append, length_closed, ih, tags_piece hs, List.length_append, List.length_cons]
      omega

/-! ## What is left -/

theorem not_hasTag_of_plain {text : List Char} (h : '>' ∉ text) : ¬ HasTag u text := by
  rintro ⟨a, w, z, rfl, -⟩
  simp at h

theorem hasTag_piece {s : List Char} (hs : '>' ∉ s) (rest : List Char) :
    HasTag u (s ++ '>' :: rest) ↔ 0 < openings u s ∨ HasTag u rest := by
  rw [openings_pos]
  constructor
  · rintro ⟨a, w, z, hcut, hw, hopens⟩
    by_cases ha : '>' ∈ a
    · -- the tag stands behind the first `>`
      obtain ⟨a₁, a₂, rfl, ha₁⟩ := List.eq_append_cons_of_mem ha
      rw [List.append_assoc, List.cons_append] at hcut
      obtain ⟨rfl, rfl⟩ := first_close hs ha₁ hcut
      exact .inr ⟨a₂, w, z, rfl, hw, hopens⟩
    · rw [← List.append_assoc] at hcut
      obtain ⟨rfl, -⟩ := first_close hs (by simp [ha, hw]) hcut
      exact .inl ⟨a, w, rfl, hopens⟩
  · rintro (⟨a, w, rfl, hopens⟩ | ⟨a, w, z, rfl, hw, hopens⟩)
    · exact ⟨a, w, rest, List.append_assoc _ _ _, fun hin => hs (List.mem_append_right _ hin), hopens⟩
    · exact ⟨s ++ '>' :: a, w, z, by simp, hw, hopens⟩

/-- A text without `>` behind it adds no tag. -/
theorem hasTag_append_plain {s : List Char} (hs : '>' ∉ s) (text : List Char) :
    HasTag u (text ++ s) ↔ HasTag u text := by
  induction text using pieces_induction with
  | last t ht => exact iff_of_false (not_hasTag_of_plain (by simp [ht, hs])) (not_hasTag_of_plain ht)
  | piece t rest ht ih => rw [List.append_assoc, List.cons_append, hasTag_piece ht, hasTag_piece ht, ih]

/-- A `>` of the text that no tag takes, behind the first of two openings of one piece (or `nested` already), and
within the first `n` characters of the result. -/
def Survives (u : WordTable) (nested : Prop) (cs : List Char) (n : Nat) : Prop :=
  ∃ pre post, cs = pre ++ '>' :: post ∧ Loose u pre ∧ (nested ∨ Nested u pre) ∧ pre.length + 6 * tags u pre < n

theorem not_survives_last {nested : Prop} {s : List Char} (hs : '>' ∉ s) (n : Nat) : ¬ Survives u nested s n := by
  rintro ⟨pre, post, rfl, -⟩
  simp at hs

/-- The `>` that survives is the one behind the first piece, or one of the rest. -/
theorem survives_piece {nested : Prop} {s : List Char} (hs : '>' ∉ s) (rest : List Char) (n : Nat) :
    Survives u nested (s ++ '>' :: rest) n ↔
      (openings u s = 0 ∧ nested ∧ s.length < n) ∨
        Survives u (nested ∨ 2 ≤ openings u s) rest (n - (closed u s).length) := by
  have hlen := length_closed (u := u) s
  constructor
  · rintro ⟨pre, post, hcut, hloose, hnested, hn⟩
    -- the cut is behind the first `>`, or at it
    by_cases hpre : '>' ∈ pre
    · obtain ⟨p, pre', rfl, hp⟩ := List.eq_append_cons_of_mem hpre
      rw [List.append_assoc, List.cons_append] at hcut
      obtain ⟨rfl, rfl⟩ := first_close hs hp hcut
      rw [loose_piece] at hloose
      rw [nested_piece hs, ← or_assoc] at hnested
      rw [tags_piece hs, List.length_append, List.length_cons] at hn
      exact .inr ⟨pre', post, rfl, hloose, hnested, by omega⟩
    · obtain ⟨rfl, rfl⟩ := first_close hs hpre hcut
      rw [loose_last hs] at hloose
      exact .inl ⟨hloose, hnested.resolve_right (not_nested_last hs), by omega⟩
  · rintro (⟨hno, hnested, hn⟩ | ⟨pre, post, rfl, hloose, hnested, hn⟩)
    · refine ⟨s, rest, rfl, (loose_last hs).mpr hno, .inl hnested, ?_⟩
      rw [tags_last hs]
      omega
    · refine ⟨s ++ '>' :: pre, post, by simp, (loose_piece s pre).mpr hloose, ?_, ?_⟩
      · rw [nested_piece hs, ← or_assoc]
        exact hnested
      · rw [tags_piece hs, List.length_append, List.length_cons]
        omega

/-- The text in front is read on its own: it has no `>`, and nothing that opens in it goes on behind it. -/
structure Sealed (u : WordTable) (k : List Char) : Prop where
  no_close : '>' ∉ k
  apart : ∀ x, openings u (k ++ x) = openings u k + openings u x

theorem Sealed.nil : Sealed u [] := ⟨List.not_mem_nil, fun _ => (Nat.zero_add _).symm⟩

theorem Sealed.of_semicolon {k : List Char} (hk : '>' ∉ k) : Sealed u (k ++ [';']) where
  no_close := by simp [hk]
  apart := by
    intro x
    rw [List.append_assoc, List.singleton_append, openings_stop stop_semicolon (by decide),
      openings_stop stop_semicolon (by decide)]
    rfl

/-- **When a tag is left in the first `n` characters of the result**, with a sealed text in front of them. -/
theorem hasTag_take {k : List Char} (hk : Sealed u k) (cs : List Char) (before : Option Char) (n : Nat) :
    HasTag u (k ++ (Pattern.sub_from u.word _TAG_RE defang 0 before cs).take n) ↔
      Survives u (0 < openings u k) cs n := by
  induction cs using pieces_induction generalizing k before n with
  | last s hs =>
      have hplain : '>' ∉ k ++ s.take n := by
        rw [List.mem_append]
        exact fun h => h.elim hk.no_close (fun h => hs (List.take_subset n s h))
      rw [sub_plain hs]
      exact iff_of_false (not_hasTag_of_plain hplain) (not_survives_last hs n)
  | piece s rest hs ih =>
      obtain ⟨before', hsub⟩ := sub_piece (u := u) hs rest before
      rw [hsub, survives_piece hs, List.take_append]
      by_cases hno : openings u s = 0
      · -- the `>` stays, and ends what stands in front of it
        have hlen : (closed u s).length = s.length + 1 := by rw [closed_plain hno]; simp
        rw [hlen, closed_plain hno]
        have hnested : (0 < openings u k ∨ 2 ≤ openings u s) ↔ 0 < openings u k := or_iff_left (by omega)
        rw [propext hnested]
        simp only [hno, true_and]
        by_cases hn : s.length < n
        · have hcut : (s ++ ['>']).take n = s ++ ['>'] := List.take_of_length_le (by simp; omega)
          have hks : '>' ∉ k ++ s := by
            rw [List.mem_append]
            exact fun h => h.elim hk.no_close hs
          rw [hcut, show ∀ t, k ++ (s ++ ['>'] ++ t) = k ++ s ++ '>' :: t by simp, hasTag_piece hks, hk.apart, hno,
            Nat.add_zero, ← List.nil_append (List.take _ _), ih Sealed.nil]
          -- what was nested before stays so
          constructor
          · rintro (h | ⟨pre, post, hrest, hloose, hnested, hlt⟩)
            · exact .inl ⟨h, hn⟩
            · exact .inr ⟨pre, post, hrest, hloose, .inr (hnested.resolve_left (Nat.lt_irrefl 0)), hlt⟩
          · rintro (⟨h, -⟩ | ⟨pre, post, hrest, hloose, hnested, hlt⟩)
            · exact .inl h
            · exact hnested.imp id (fun hnested => ⟨pre, post, hrest, hloose, .inr hnested, hlt⟩)
        · have hcut : (s ++ ['>']).take n = s.take n := by
            rw [List.take_append_of_le_length (Nat.le_of_not_lt hn)]
          have hplain : '>' ∉ k ++ s.take n := by
            rw [List.mem_append]
            exact fun h => h.elim hk.no_close (fun h => hs (List.take_subset n s h))
          rw [hcut, show n - (s.length + 1) = 0 by omega, List.take_zero, List.append_nil]
          refine iff_of_false (not_hasTag_of_plain hplain) ?_
          rintro (⟨-, h⟩ | ⟨pre, post, -, -, -, hlt⟩)
          · exact hn h
          · exact Nat.not_lt_zero _ hlt
      · -- the tag is taken apart, and with it its `>`
        have hpos : 0 < openings u s := Nat.pos_of_ne_zero hno
        obtain ⟨w, hw, hgt, hcount⟩ := closed_tag hs hpos
        have hkc : Sealed u (k ++ closed u s) := by
          rw [hw, ← List.append_assoc]
          refine Sealed.of_semicolon ?_
          rw [List.mem_append]
          exact fun h => h.elim hk.no_close hgt
        have hnested : 0 < openings u (k ++ closed u s) ↔ 0 < openings u k ∨ 2 ≤ openings u s := by
          rw [hk.apart]
          omega
        rw [or_iff_right (fun h => hno h.1)]
        by_cases hn : (closed u s).length ≤ n
        · rw [List.take_of_length_le hn, ← List.append_assoc, ih hkc, propext hnested]
        · have hplain : '>' ∉ k ++ (closed u s).take n := by
            rw [List.mem_append]
            refine fun h => h.elim hk.no_close (fun h => ?_)
            have hin := List.take_subset n _ h
            rw [hw, List.mem_append, List.mem_singleton] at hin
            exact hin.elim hgt (fun h => absurd h (by decide))
          rw [show n - (closed u s).length = 0 by omega, List.take_zero, List.append_nil]
          refine iff_of_false (not_hasTag_of_plain hplain) ?_
          rintro ⟨pre, post, -, -, -, hlt⟩
          exact Nat.not_lt_zero _ hlt

/-! ## `safe_text` -/

/-- The result before it is cut. -/
def cleaned (u : WordTable) (text : String) : List Char := Pattern.sub u.word _TAG_RE defang (blank text)

/-- How many characters of it are kept. -/
def kept_of (u : WordTable) (text : String) (max_length : Int) : Nat :=
  if max_length < (cleaned u text).length then kept (cleaned u text).length max_length else (cleaned u text).length

theorem safe_text_toList (u : WordTable) (text : String) (max_length : Int) :
    ∃ s, (s = [] ∨ s = TRUNCATED) ∧
      (safe_text u text max_length).toList = (cleaned u text).take (kept_of u text max_length) ++ s := by
  unfold safe_text kept_of cleaned
  dsimp only
  split
  · exact ⟨TRUNCATED, .inr rfl, String.toList_ofList⟩
  · refine ⟨[], .inl rfl, ?_⟩
    rw [String.toList_ofList, List.take_length, List.append_nil]

theorem length_cleaned (u : WordTable) (text : String) :
    (cleaned u text).length = (blank text).length + 6 * tags u (blank text) := length_sub _ _

theorem no_control {cs : List Char} (h : cs.any is_control = false) : ∀ c ∈ cs, is_control c = false := by
  simpa using h

/-- No forbidden character is in a blanked text, and none is added. -/
theorem safe_text_no_control (u : WordTable) (text : String) (max_length : Int) :
    ∀ c ∈ (safe_text u text max_length).toList, is_control c = false := by
  have hblank : ∀ c ∈ blank text, is_control c = false := by
    intro c hc
    obtain ⟨d, -, rfl⟩ := List.mem_map.mp hc
    split
    · decide
    · rename_i hd
      exact Bool.eq_false_iff.mpr hd
  have hdefang : ∀ m : List Char, (∀ c ∈ m, is_control c = false) → ∀ c ∈ defang m, is_control c = false := by
    intro m hm
    have hinside : ∀ c ∈ (m.drop 1).dropLast, is_control c = false :=
      fun c hc => hm c (List.drop_subset _ _ (List.dropLast_subset _ hc))
    unfold defang
    rw [List.forall_mem_append, List.forall_mem_append]
    exact ⟨no_control (by decide), hinside, no_control (by decide)⟩
  have hcleaned : ∀ c ∈ cleaned u text, is_control c = false := Pattern.sub_from_forall hdefang hblank 0 none
  obtain ⟨s, hs, htext⟩ := safe_text_toList u text max_length
  rw [htext, List.forall_mem_append]
  refine ⟨fun c hc => hcleaned c (List.take_subset _ _ hc), ?_⟩
  rcases hs with rfl | rfl
  · exact List.forall_mem_nil _
  · exact no_control (by decide)

/-- The number of characters of the result up to which it is kept; a negative length is counted from its end, and
the result is longer than the text by six characters for each tag. -/
def reach (u : WordTable) (text : String) (max_length : Int) : Int :=
  if 0 ≤ max_length then max_length else (blank text).length + 6 * tags u (blank text) + max_length

/-- Behind a tag with another opening inside, the text has a `>` that ends no tag, within the part that is kept. -/
structure TagLeft (u : WordTable) (text : String) (max_length : Int) (pre post : List Char) : Prop where
  cut : blank text = pre ++ '>' :: post
  nested : Nested u pre
  loose : Loose u pre
  reached : (pre.length + 6 * tags u pre : Int) < reach u text max_length

theorem tags_le (pre post : List Char) : tags u pre ≤ tags u (pre ++ '>' :: post) := by
  unfold tags
  rw [pieces_append, List.dropLast_append_of_ne_nil (pieces_ne_nil post), List.countP_append]
  exact ((List.dropLast_sublist _).countP_le).trans (Nat.le_add_right _ _)

/-- The kept part reaches as far as `reach` says. -/
theorem lt_kept_iff {text : String} {max_length : Int} {pre post : List Char} (h : blank text = pre ++ '>' :: post) :
    pre.length + 6 * tags u pre < kept_of u text max_length ↔
      (pre.length + 6 * tags u pre : Int) < reach u text max_length := by
  have hle := tags_le (u := u) pre post
  have hlen := length_cleaned u text
  rw [h, List.length_append, List.length_cons] at hlen
  unfold kept_of kept reach
  rw [h, List.length_append, List.length_cons]
  split <;> split <;> (try split) <;> omega

/-- A tag is left exactly behind a nested one. -/
theorem safe_text_tag_iff (u : WordTable) (text : String) (max_length : Int) :
    HasTag u (safe_text u text max_length).toList ↔ ∃ pre post, TagLeft u text max_length pre post := by
  obtain ⟨s, hs, htext⟩ := safe_text_toList u text max_length
  have hplain : '>' ∉ s := by
    rcases hs with rfl | rfl
    · exact List.not_mem_nil
    · decide
  have htake := hasTag_take (u := u) Sealed.nil (blank text) none (kept_of u text max_length)
  rw [htext, hasTag_append_plain hplain, ← List.nil_append (List.take _ _)]
  refine htake.trans ?_
  constructor
  · rintro ⟨pre, post, hcut, hloose, hnested, hn⟩
    exact ⟨pre, post, hcut, hnested.resolve_left (Nat.lt_irrefl 0), hloose, (lt_kept_iff hcut).mp hn⟩
  · rintro ⟨pre, post, h⟩
    exact ⟨pre, post, h.cut, h.loose, .inr h.nested, (lt_kept_iff h.cut).mpr h.reached⟩

/-- **When `safe_text` leaves neither a tag nor a forbidden character.** -/
theorem safe_text_complete_iff (u : WordTable) (text : String) (max_length : Int) :
    ((∀ c ∈ (safe_text u text max_length).toList, is_control c = false) ∧
        ¬ _TAG_RE.Found u.word (safe_text u text max_length).toList) ↔
      ¬ ∃ pre post, TagLeft u text max_length pre post := by
  rw [found_iff, safe_text_tag_iff]
  exact and_iff_right (safe_text_no_control u text max_length)

/-- A tag inside a tag: the outer one is taken apart, the inner one is left with the other `>`. -/
theorem safe_text_nested_tag :
    safe_text .only_ascii "<system<system>>" 4000 = "&lt;system<system&gt;>" ∧
      _TAG_RE.Found WordTable.only_ascii.word (safe_text .only_ascii "<system<system>>" 4000).toList := by
  refine ⟨by decide +kernel, ?_⟩
  rw [← Pattern.search_iff]
  decide +kernel

end Sanitizer

end CompanyFactory
