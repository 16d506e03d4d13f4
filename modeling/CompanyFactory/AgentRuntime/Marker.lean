import CompanyFactory.AgentRuntime.Models
import Mathlib.Data.List.Infix

/-!
# `AgentRuntime.Marker` — the task-done marker in a text

The scan looks for the first opening of a marker, then for the first `/>` after it, and **only then for the quotes of the
summary**: a summary with a `/>` in it ends the marker too early, and its quote is never closed.

* `split_once_first` — a search for a word whose first letter comes once in it.
* `detects_iff` — a task is done exactly if the text has an opening and a `/>` after it.
* `round_trip_iff` — **exactly when** the summary of a marker is read back.
-/

namespace CompanyFactory

/-! ## Searching -/

/-- The first letter does not come again, so that two occurrences do not overlap. -/
def Unbordered (sep : List Char) : Prop := ∃ c s, sep = c :: s ∧ c ∉ s

theorem split_once_eq {sep text a b : List Char} (h : split_once sep text = some (a, b)) : text = a ++ sep ++ b := by
  induction text generalizing a with
  | nil =>
    simp only [split_once] at h
    split at h
    · next hsep =>
      cases h
      rw [hsep]
      rfl
    · cases h
  | cons c cs ih =>
    simp only [split_once] at h
    split at h
    · next hstarts =>
      cases h
      exact (List.prefix_iff_eq_append.mp (List.isPrefixOf_iff_prefix.mp hstarts)).symm
    · obtain ⟨⟨a', b'⟩, hrest, heq⟩ := Option.map_eq_some_iff.mp h
      cases heq
      rw [ih hrest]
      rfl

theorem split_once_none {sep text : List Char} (hsep : sep ≠ []) : split_once sep text = none ↔ ¬ sep <:+: text := by
  induction text with
  | nil => simp [split_once, hsep]
  | cons c cs ih =>
    rw [List.infix_cons_iff, split_once]
    by_cases hstarts : sep <+: c :: cs
    · simp [List.isPrefixOf_iff_prefix.mpr hstarts, hstarts]
    · have hbool : ¬ sep.isPrefixOf (c :: cs) = true := fun h => hstarts (List.isPrefixOf_iff_prefix.mp h)
      rw [if_neg hbool, Option.map_eq_none_iff, ih]
      simp [hstarts]

/-- What is found in a text is found at the same place in a longer one. -/
theorem split_once_append {sep text a b : List Char} (hsep : sep ≠ []) (h : split_once sep text = some (a, b))
    (more : List Char) : split_once sep (text ++ more) = some (a, b ++ more) := by
  induction text generalizing a with
  | nil => simp [split_once, hsep] at h
  | cons c cs ih =>
    simp only [split_once] at h
    rw [List.cons_append, split_once]
    split at h
    · next hstarts =>
      have hin := List.isPrefixOf_iff_prefix.mp hstarts
      have hmore : sep <+: c :: (cs ++ more) := hin.trans (List.prefix_append (c :: cs) more)
      rw [if_pos (List.isPrefixOf_iff_prefix.mpr hmore)]
      cases h
      rw [← List.cons_append, List.drop_append_of_le_length hin.length_le]
    · next hstarts =>
      obtain ⟨⟨a', b'⟩, hrest, heq⟩ := Option.map_eq_some_iff.mp h
      cases heq
      -- the rest is as long as what is looked for, so that the added text does not matter here
      have hlen : sep.length ≤ (c :: cs).length := by
        rw [split_once_eq hrest]
        simp
        omega
      have hmore : ¬ sep.isPrefixOf (c :: (cs ++ more)) = true := by
        intro hp
        apply hstarts
        rw [List.isPrefixOf_iff_prefix] at hp ⊢
        exact List.prefix_of_prefix_length_le hp (List.prefix_append (c :: cs) more) hlen
      rw [if_neg hmore, ih hrest]
      rfl

/-- What begins before the word, and is the word, has ended before it. -/
theorem Unbordered.ends_before {sep : List Char} (hsep : Unbordered sep) {text more : List Char} (hne : text ≠ [])
    (h : sep <+: text ++ (sep ++ more)) : sep <+: text := by
  obtain ⟨c, s, rfl, hc⟩ := hsep
  rcases List.prefix_or_prefix_of_prefix h (List.prefix_append text (c :: s ++ more)) with hin | ⟨rest, hrest⟩
  · exact hin
  · obtain ⟨d, text, rfl⟩ := List.exists_cons_of_ne_nil hne
    cases rest with
    | nil => exact ⟨[], by rw [← hrest]; simp⟩
    | cons e rest =>
      -- the word would begin again within itself
      rw [← hrest, List.prefix_append_right_inj, hrest] at h
      obtain ⟨rfl, -⟩ := List.cons_prefix_cons.mp h
      have hs : text ++ e :: rest = s := (List.cons.inj hrest).2
      exact absurd (by rw [← hs]; simp) hc

/-- The first occurrence, for a word that does not overlap itself. -/
theorem split_once_first {sep : List Char} (hsep : Unbordered sep) {text : List Char} (h : ¬ sep <:+: text)
    (more : List Char) : split_once sep (text ++ sep ++ more) = some (text, more) := by
  induction text with
  | nil =>
    obtain ⟨c, s, rfl, -⟩ := hsep
    have hstarts : (c :: s).isPrefixOf (c :: (s ++ more)) = true :=
      List.isPrefixOf_iff_prefix.mpr (List.prefix_append (c :: s) more)
    show split_once (c :: s) (c :: (s ++ more)) = _
    rw [split_once, if_pos hstarts, ← List.cons_append, List.drop_left]
  | cons d text ih =>
    have hrest := ih fun hin => h (List.infix_cons hin)
    have hstarts : ¬ sep.isPrefixOf (d :: (text ++ sep ++ more)) = true := by
      intro hp
      have hin : sep <+: (d :: text) ++ (sep ++ more) := by simpa using List.isPrefixOf_iff_prefix.mp hp
      exact h (hsep.ends_before (List.cons_ne_nil d text) hin).isInfix
    rw [List.cons_append, List.cons_append, split_once, if_neg hstarts, hrest]
    rfl

/-- Nothing is found before the place of the search. -/
theorem split_once_before {sep text a b : List Char} (hsep : sep ≠ []) (h : split_once sep text = some (a, b)) :
    ¬ sep <:+: a := by
  rw [← split_once_none hsep]
  rcases hfirst : split_once sep a with _ | ⟨a', b'⟩
  · rfl
  · have hlonger := split_once_append hsep hfirst (sep ++ b)
    rw [← List.append_assoc, ← split_once_eq h, h] at hlonger
    have hsame : a = a' := (Prod.mk.inj (Option.some.inj hlonger)).1
    have hlen := congrArg List.length (split_once_eq hfirst)
    rw [hsame] at hlen
    have hpos := List.length_pos_iff.mpr hsep
    simp only [List.length_append] at hlen
    omega

/-- The search for one letter. -/
theorem split_once_letter {r : Char} {text a b : List Char} :
    split_once [r] text = some (a, b) ↔ r ∉ a ∧ text = a ++ r :: b := by
  have hmem : r ∉ a ↔ ¬ [r] <:+: a := by rw [List.singleton_infix_iff]
  constructor
  · intro h
    rw [hmem]
    refine ⟨split_once_before (List.cons_ne_nil r []) h, ?_⟩
    simpa using split_once_eq h
  · rintro ⟨ha, rfl⟩
    have hfirst := split_once_first ⟨r, [], rfl, List.not_mem_nil⟩ (hmem.mp ha) b
    simpa using hfirst

/-! ## Texts with a marker -/

/-- An opening, and a `/>` after it. -/
def HasMarker (text : List Char) : Prop := ∃ a b c, text = a ++ TASK_DONE_OPEN ++ (b ++ TASK_DONE_CLOSE ++ c)

theorem close_letters : TASK_DONE_CLOSE = ['/', '>'] := rfl

theorem open_unbordered : Unbordered TASK_DONE_OPEN := ⟨'<', "task_done".toList, rfl, by simp⟩

theorem close_unbordered : Unbordered TASK_DONE_CLOSE := ⟨'/', ['>'], rfl, by simp⟩

theorem summary_unbordered : Unbordered "summary=".toList := ⟨'s', "ummary=".toList, rfl, by simp⟩

theorem Unbordered.ne_nil {sep : List Char} (h : Unbordered sep) : sep ≠ [] := by
  obtain ⟨c, s, rfl, -⟩ := h
  exact List.cons_ne_nil c s

/-- What stands between the first opening of a text and the next one, with that one; nothing in a text without an opening. -/
def unclosed (pre : List Char) : List Char :=
  match split_once TASK_DONE_OPEN pre with
  | none => []
  | some (_, tail) => tail ++ TASK_DONE_OPEN

/-- Where the scan goes on in a text with an opening. -/
theorem split_open (pre rest : List Char) :
    ∃ a, split_once TASK_DONE_OPEN (pre ++ TASK_DONE_OPEN ++ rest) = some (a, unclosed pre ++ rest) := by
  unfold unclosed
  rcases hpre : split_once TASK_DONE_OPEN pre with _ | ⟨a, tail⟩
  · exact ⟨pre, split_once_first open_unbordered ((split_once_none open_unbordered.ne_nil).mp hpre) rest⟩
  · refine ⟨a, ?_⟩
    rw [List.append_assoc, split_once_append open_unbordered.ne_nil hpre]
    simp

/-- **A task is done exactly if the text has a marker.** -/
theorem detects_iff (text : String) : (detect_task_done text).1 = true ↔ HasMarker text.toList := by
  unfold detect_task_done
  constructor
  · intro h
    split at h
    · cases h
    · next a rest hopen =>
      split at h
      · cases h
      · next b c hclose => exact ⟨a, b, c, by rw [← split_once_eq hclose, ← split_once_eq hopen]⟩
  · rintro ⟨a, b, c, htext⟩
    obtain ⟨a', hopen⟩ := split_open a (b ++ TASK_DONE_CLOSE ++ c)
    have hclose : TASK_DONE_CLOSE <:+: unclosed a ++ (b ++ TASK_DONE_CLOSE ++ c) :=
      ⟨unclosed a ++ b, c, by simp⟩
    rw [htext, hopen]
    simp only
    rcases hsplit : split_once TASK_DONE_CLOSE (unclosed a ++ (b ++ TASK_DONE_CLOSE ++ c)) with _ | ⟨body, post⟩
    · exact absurd hclose ((split_once_none close_unbordered.ne_nil).mp hsplit)
    · rfl

/-! ## The summary -/

/-- After blanks, the text begins with the summary in quotes. -/
def Quoted (summary text : List Char) : Prop :=
  ∃ quote, (quote = '\'' ∨ quote = '"') ∧ quote ∉ summary ∧ (quote :: summary ++ [quote]) <+: strip text

theorem marker_summary_iff (body : List Char) (summary : String) :
    marker_summary body = some summary ↔
      ∃ before after, split_once "summary=".toList body = some (before, after) ∧ Quoted summary.toList after := by
  unfold marker_summary
  rcases split_once "summary=".toList body with _ | ⟨before, after⟩
  · simp
  · simp only [Option.some.injEq, Prod.mk.injEq]
    constructor
    · intro h
      refine ⟨before, after, ⟨rfl, rfl⟩, ?_⟩
      rcases hstrip : strip after with _ | ⟨quote, rest⟩
      · rw [hstrip] at h
        cases h
      · rw [hstrip] at h
        simp only at h
        split at h
        · next hquote =>
          obtain ⟨⟨a, b⟩, hletter, heq⟩ := Option.map_eq_some_iff.mp h
          obtain ⟨hnot, hrest⟩ := split_once_letter.mp hletter
          have hsummary : summary.toList = a := by rw [← heq, String.toList_ofList]
          refine ⟨quote, by simpa using hquote, hsummary ▸ hnot, ?_⟩
          rw [hstrip, hrest, hsummary]
          exact ⟨b, by simp⟩
        · cases h
    · rintro ⟨_, _, ⟨rfl, rfl⟩, quote, hquote, hnot, rest, hrest⟩
      have hletter : split_once [quote] (summary.toList ++ quote :: rest) = some (summary.toList, rest) :=
        split_once_letter.mpr ⟨hnot, rfl⟩
      have hstrip : strip after = quote :: (summary.toList ++ quote :: rest) := by rw [← hrest]; simp
      rw [hstrip]
      simp only
      rw [if_pos (by simpa using hquote), hletter, Option.map_some, String.ofList_toList]

/-! ## A marker in a text -/

/-- `<task_done summary="…" />`, with either quote. -/
def marker (quote : Char) (summary : List Char) : List Char :=
  TASK_DONE_OPEN ++ (' ' :: "summary=".toList ++ (quote :: summary ++ [quote]) ++ [' '] ++ TASK_DONE_CLOSE)

/-- A `/>` in two parts lies in one of them, or the first ends with its slash. -/
theorem close_append {x y : List Char} (h : TASK_DONE_CLOSE <:+: x ++ y) :
    TASK_DONE_CLOSE <:+: x ∨ TASK_DONE_CLOSE <:+: y ∨ (['/'] <:+ x ∧ ['>'] <+: y) := by
  rcases List.infix_append_iff.mp h with hx | hy | ⟨a, b, hab, ha, hb⟩
  · exact .inl hx
  · exact .inr (.inl hy)
  · match a with
    | [] =>
      rw [List.nil_append] at hab
      exact .inr (.inl (hab ▸ hb.isInfix))
    | [_] =>
      obtain ⟨rfl, rfl⟩ := List.cons.inj (close_letters.symm.trans hab)
      exact .inr (.inr ⟨ha, hb⟩)
    | c :: d :: a =>
      obtain ⟨rfl, rfl, rfl, -⟩ : c = '/' ∧ d = '>' ∧ a = [] ∧ b = [] := by simpa [close_letters, eq_comm] using hab
      exact .inl ha.isInfix

variable {pre summary : List Char} {quote : Char}

/-- Without a marker, what is not closed before the end is not closed at all. -/
theorem unclosed_open (hpre : ¬ HasMarker pre) : ¬ TASK_DONE_CLOSE <:+: unclosed pre := by
  unfold unclosed
  rcases hsplit : split_once TASK_DONE_OPEN pre with _ | ⟨a, tail⟩
  · decide
  · intro h
    rcases close_append h with hin | hin | ⟨-, hin⟩
    · obtain ⟨b, c, hbc⟩ := hin
      exact hpre ⟨a, b, c, by rw [hbc, ← split_once_eq hsplit]⟩
    · revert hin
      decide
    · revert hin
      decide

/-- The text of a marker between its opening and its `/>`. -/
def marker_body (quote : Char) (summary : List Char) : List Char :=
  ' ' :: "summary=".toList ++ (quote :: summary ++ [quote]) ++ [' ']

theorem marker_body_close (hquote : quote = '\'' ∨ quote = '"') (hpre : ¬ HasMarker pre)
    (hsummary : ¬ TASK_DONE_CLOSE <:+: summary) :
    ¬ TASK_DONE_CLOSE <:+: unclosed pre ++ marker_body quote summary := by
  have hleft : ¬ TASK_DONE_CLOSE <:+: ' ' :: "summary=".toList ++ [quote] ∧
      ¬ ['/'] <:+ ' ' :: "summary=".toList ++ [quote] := by
    obtain rfl | rfl := hquote <;> decide
  have hright : ¬ TASK_DONE_CLOSE <:+: [quote, ' '] ∧ ¬ ['>'] <+: [quote, ' '] := by
    obtain rfl | rfl := hquote <;> decide
  intro h
  rcases close_append h with hin | hin | ⟨-, hin⟩
  · exact unclosed_open hpre hin
  · have hparts : marker_body quote summary = (' ' :: "summary=".toList ++ [quote]) ++ (summary ++ [quote, ' ']) := by
      simp [marker_body]
    rw [hparts] at hin
    rcases close_append hin with hin | hin | ⟨hin, -⟩
    · exact hleft.1 hin
    · rcases close_append hin with hin | hin | ⟨-, hin⟩
      · exact hsummary hin
      · exact hright.1 hin
      · exact hright.2 hin
    · exact hleft.2 hin
  · revert hin
    simp [marker_body]

theorem strip_part (text : List Char) : strip text <:+: text := by
  have hback : strip text <+: text.dropWhile is_space := by
    rw [← List.reverse_suffix, strip, List.reverse_reverse]
    exact List.dropWhile_suffix is_space
  exact hback.isInfix.trans (List.dropWhile_suffix is_space).isInfix

theorem strip_quoted (hquote : quote = '\'' ∨ quote = '"') :
    strip (quote :: summary ++ [quote] ++ [' ']) = quote :: summary ++ [quote] := by
  have hspace : is_space quote = false := by obtain rfl | rfl := hquote <;> decide
  have hblank : is_space ' ' = true := by decide
  simp [strip, hspace, hblank]

/-- **The condition of a round trip**: the summary has no `/>`, and if an opening before the marker is not closed and has a
`summary=` of its own, the summary stands there in quotes too. -/
def ReadsBack (pre : List Char) (quote : Char) (summary : List Char) : Prop :=
  ¬ TASK_DONE_CLOSE <:+: summary ∧ ∀ before after, split_once "summary=".toList (unclosed pre) = some (before, after) →
    Quoted summary (after ++ marker_body quote summary)

/-- Where the summary is read. -/
theorem marker_body_read (hquote : quote = '\'' ∨ quote = '"') (hnot : quote ∉ summary) :
    (∃ before after, split_once "summary=".toList (unclosed pre ++ marker_body quote summary) = some (before, after) ∧
        Quoted summary after) ↔
      ∀ before after, split_once "summary=".toList (unclosed pre) = some (before, after) →
        Quoted summary (after ++ marker_body quote summary) := by
  rcases hown : split_once "summary=".toList (unclosed pre) with _ | ⟨before, after⟩
  · refine iff_of_true ?_ nofun
    have hblank : ¬ "summary=".toList <:+: unclosed pre ++ [' '] := by
      rw [List.infix_concat_iff]
      rintro (⟨front, hfront⟩ | hin)
      · have hlast := congrArg List.getLast? hfront
        simp at hlast
      · exact (split_once_none summary_unbordered.ne_nil).mp hown hin
    have hparts : unclosed pre ++ marker_body quote summary =
        unclosed pre ++ [' '] ++ "summary=".toList ++ (quote :: summary ++ [quote] ++ [' ']) := by simp [marker_body]
    rw [hparts]
    refine ⟨_, _, split_once_first summary_unbordered hblank _, quote, hquote, hnot, ?_⟩
    rw [strip_quoted hquote]
  · rw [split_once_append summary_unbordered.ne_nil hown]
    constructor
    · rintro ⟨_, _, heq, hquoted⟩ _ _ heq'
      cases heq
      cases heq'
      exact hquoted
    · intro h
      exact ⟨_, _, rfl, h before after rfl⟩

/-- The summary of a marker is read back exactly under the condition, whatever follows it. -/
theorem read_marker_iff (hquote : quote = '\'' ∨ quote = '"') (hnot : quote ∉ summary) (hpre : ¬ HasMarker pre)
    (post : List Char) :
    detect_task_done (String.ofList (pre ++ marker quote summary ++ post)) = (true, some (String.ofList summary)) ↔
      ReadsBack pre quote summary := by
  obtain ⟨a, hopen⟩ := split_open pre (marker_body quote summary ++ TASK_DONE_CLOSE ++ post)
  have htext : pre ++ marker quote summary ++ post =
      pre ++ TASK_DONE_OPEN ++ (marker_body quote summary ++ TASK_DONE_CLOSE ++ post) := by
    simp [marker, marker_body]
  rw [detect_task_done, String.toList_ofList, htext, hopen]
  simp only
  by_cases hsummary : TASK_DONE_CLOSE <:+: summary
  · -- the body ends before the summary does
    refine iff_of_false ?_ fun h => h.1 hsummary
    intro h
    split at h
    · cases h
    · next body rest hclose =>
      obtain ⟨before, after, hsplit, r, -, -, hquoted⟩ := (marker_summary_iff _ _).mp (Prod.mk.inj h).2
      rw [String.toList_ofList] at hquoted
      have hafter : after <:+: body := ⟨before ++ "summary=".toList, [], by rw [split_once_eq hsplit]; simp⟩
      have hin : summary <:+: r :: summary ++ [r] := ⟨[r], [r], rfl⟩
      exact split_once_before close_unbordered.ne_nil hclose
        (hsummary.trans (hin.trans (hquoted.isInfix.trans ((strip_part after).trans hafter))))
  · have hclose := split_once_first close_unbordered (marker_body_close hquote hpre hsummary) post
    have hrest : unclosed pre ++ (marker_body quote summary ++ TASK_DONE_CLOSE ++ post) =
        unclosed pre ++ marker_body quote summary ++ TASK_DONE_CLOSE ++ post := by simp
    rw [hrest, hclose]
    simp only [Prod.mk.injEq, true_and]
    have hchars : (String.ofList summary).toList = summary := String.toList_ofList
    rw [marker_summary_iff, hchars, marker_body_read hquote hnot]
    exact ⟨fun h => ⟨hsummary, h⟩, fun h => h.2⟩

/-- **A marker in a text without another one is read back exactly under the condition, and a text without a marker is not
done.** -/
theorem round_trip_iff (pre post summary : List Char) (quote : Char) (text : String) :
    (quote = '\'' ∨ quote = '"' → quote ∉ summary → ¬ HasMarker pre →
      (detect_task_done (String.ofList (pre ++ marker quote summary ++ post)) = (true, some (String.ofList summary)) ↔
        ReadsBack pre quote summary)) ∧
    (¬ HasMarker text.toList → (detect_task_done text).1 = false) := by
  refine ⟨fun hquote hnot hpre => read_marker_iff hquote hnot hpre post, ?_⟩
  intro htext
  rw [← Bool.not_eq_true, detects_iff]
  exact htext

theorem no_marker_of_no_open {text : List Char} (h : ¬ TASK_DONE_OPEN <:+: text) : ¬ HasMarker text := by
  rintro ⟨a, b, c, htext⟩
  exact h ⟨a, b ++ TASK_DONE_CLOSE ++ c, htext.symm⟩

theorem no_marker_nil : ¬ HasMarker [] :=
  no_marker_of_no_open fun h => open_unbordered.ne_nil (List.infix_nil.mp h)

theorem no_close_shipped : ¬ TASK_DONE_CLOSE <:+: ['s', 'h', 'i', 'p', 'p', 'e', 'd'] := by
  simp [close_letters, List.infix_cons_iff]

theorem round_trip_shipped :
    detect_task_done (String.ofList ([] ++ marker '"' ['s', 'h', 'i', 'p', 'p', 'e', 'd'] ++ [])) =
      (true, some (String.ofList ['s', 'h', 'i', 'p', 'p', 'e', 'd'])) ∧ (detect_task_done "").1 = false := by
  obtain ⟨hread, hnone⟩ := round_trip_iff [] [] ['s', 'h', 'i', 'p', 'p', 'e', 'd'] '"' ""
  refine ⟨(hread (.inr rfl) ?_ no_marker_nil).mpr ⟨no_close_shipped, ?_⟩, hnone no_marker_nil⟩
  · simp
  · intro before after h
    cases h

/-- A summary with a `/>` in it ends the marker, and is lost. -/
theorem summary_with_close_lost :
    '"' ∉ "drop the <br/> tags".toList ∧
    ¬ HasMarker [] ∧
    detect_task_done (String.ofList ([] ++ marker '"' "drop the <br/> tags".toList ++ [])) = (true, none) := by
  refine ⟨by simp, no_marker_nil, ?_⟩
  rfl

end CompanyFactory
