import Mathlib.Data.List.Induction
import Mathlib.Data.List.Sort
import Mathlib.Logic.Function.Basic

/-!
# `Lib.Tail` — a reader that joins a log with a live feed

The reader takes what is in the log when it starts, and from then on what arrives in its inbox. An entry
reaches the inbox in three moves: it is logged, announced to the readers, handed over. The reader holds what
it has taken and passes it on in that order; of the inbox it keeps what is newer than all it holds.

* `Tail.Step` — the moves, each with what makes it harmless: no entry is missed after the start, and what is
  handed over is settled (unwanted, or held already) or newer than all before it.
* `Tail.Joined` — the invariant of these moves: nothing wanted is lost, and the rest comes in order.
* `Joined.at_rest` — when nothing is on its way, the reader has passed on the whole log.

A reader of many logs remembers the number of the newest entry that it has passed on of each (`Watermark`), and drops
what is not newer.

* `Watermark.newest_append` — what it passes on of a list, and then of another.
* `Watermark.mem_newest_iff` — an entry is passed on exactly if no entry of its log that is as new has come before it.
* `Watermark.newest_eq_self_iff` — everything is passed on exactly if the entries of every log come in order.
-/

/-- A log, what is on its way to a reader of it, and the reader. -/
structure Tail (α : Type*) where
  log : List α
  /-- logged, and not announced yet -/
  fresh : List α
  /-- announced to this reader, and not handed over yet -/
  flying : List α
  inbox : List α
  /-- has the reader taken what was in the log? -/
  started : Bool
  held : List α
  yielded : List α

namespace Tail

variable {α K : Type*} [LinearOrder K] (key : α → K) (since : K)

/-- The part of a list that the reader wants. -/
def wanted (l : List α) : List α := l.filter (fun e => decide (since < key e))

/-- The entry is not wanted, or held already. -/
def Settled (t : Tail α) (e : α) : Prop := key e ≤ since ∨ e ∈ t.held

/-- The entry is newer than all of these. -/
def Newer (l : List α) (e : α) : Prop := ∀ x ∈ l, key x < key e

/-- One harmless move. -/
inductive Step [DecidableEq α] : Tail α → Tail α → Prop where
  | stays (t) : Step t t
  | logs (t) (e) : Newer key t.log e → Step t { t with log := t.log ++ [e], fresh := t.fresh ++ [e] }
  | announces (t) (e) : e ∈ t.fresh →
      Step t { t with fresh := t.fresh.erase e, flying := t.flying ++ [e] }
  | misses (t) (e) : (t.started = true → t.Settled key since e) →
      Step t { t with fresh := t.fresh.erase e }
  | hands (t) (e) : e ∈ t.flying →
      (t.started = true → t.Settled key since e ∨ Newer key (t.held ++ t.inbox) e) →
      Step t { t with flying := t.flying.erase e, inbox := t.inbox ++ [e] }
  | starts (t) : t.started = false → Step t { t with started := true, held := wanted key since t.log }
  | pulls (t) (e) (rest) : t.held = t.yielded ++ e :: rest →
      Step t { t with yielded := t.yielded ++ [e] }
  | skips (t) (e) (rest) : t.started = true → t.inbox = e :: rest →
      ¬ (since < key e ∧ Newer key t.held e) → Step t { t with inbox := rest }
  | takes (t) (e) (rest) : t.started = true → t.yielded = t.held → t.inbox = e :: rest →
      since < key e → Newer key t.held e →
      Step t { t with inbox := rest, held := t.held ++ [e], yielded := t.held ++ [e] }

/-- The entry is in the log, and has not reached the reader. -/
def OnWay (t : Tail α) (e : α) : Prop := e ∈ t.fresh ∨ e ∈ t.flying ∨ e ∈ t.inbox

/-- Nothing wanted is lost, and what is not settled comes in order. -/
structure Joined (t : Tail α) : Prop where
  log_sorted : t.log.Pairwise (fun x y => key x < key y)
  held_sorted : t.held.Pairwise (fun x y => key x < key y)
  held_wanted : ∀ e ∈ t.held, e ∈ t.log ∧ since < key e
  yielded_prefix : t.yielded <+: t.held
  unread : t.started = false → t.held = []
  known : ∀ e, t.OnWay e → e ∈ t.log
  complete : t.started = true → ∀ e ∈ t.log, since < key e → e ∈ t.held ∨ t.OnWay e
  inbox_sorted : t.started = true →
    t.inbox.Pairwise (fun x y => t.Settled key since y ∨ key x < key y)
  inbox_newer : t.started = true → ∀ e ∈ t.inbox, t.Settled key since e ∨ Newer key t.held e

section

variable {key since}

theorem Settled.mono {t t' : Tail α} (h : ∀ e ∈ t.held, e ∈ t'.held) {e : α}
    (he : t.Settled key since e) : t'.Settled key since e :=
  he.imp_right (h e)

/-- A settled entry that is wanted is held. -/
theorem Settled.held {t : Tail α} {e : α} (h : t.Settled key since e) (hwanted : since < key e) :
    e ∈ t.held := by
  rcases h with hold | hheld
  · exact absurd hwanted (not_lt.mpr hold)
  · exact hheld

theorem mem_wanted {l : List α} {e : α} : e ∈ wanted key since l ↔ e ∈ l ∧ since < key e := by
  simp [wanted]

theorem mem_snoc {l : List α} {x e : α} : x ∈ l ++ [e] ↔ x ∈ l ∨ x = e := by simp

theorem pairwise_snoc {r : α → α → Prop} {l : List α} {e : α} (h : l.Pairwise r)
    (he : ∀ x ∈ l, r x e) : (l ++ [e]).Pairwise r := by
  refine List.pairwise_append.mpr ⟨h, List.pairwise_singleton _ _, ?_⟩
  intro x hx y hy
  rw [List.mem_singleton.mp hy]
  exact he x hx

/-- An entry that leaves a place is the entry that moves, or still there. -/
theorem mem_erase_or [DecidableEq α] {l : List α} {x : α} (e : α) (hx : x ∈ l) :
    x = e ∨ x ∈ l.erase e := by
  by_cases h : x = e
  · exact .inl h
  · exact .inr ((List.mem_erase_of_ne h).mpr hx)

variable {t : Tail α} {e : α} {rest : List α} (h : t.Joined key since)

include h

theorem Joined.logs (hnewer : Newer key t.log e) :
    Joined key since { t with log := t.log ++ [e], fresh := t.fresh ++ [e] } := by
  refine { h with log_sorted := pairwise_snoc h.log_sorted hnewer, held_wanted := ?_,
                  known := ?_, complete := ?_ }
  · intro x hx
    obtain ⟨hlog, hwanted⟩ := h.held_wanted x hx
    exact ⟨List.mem_append_left _ hlog, hwanted⟩
  · rintro x (hx | hx)
    · rcases mem_snoc.mp hx with hx | rfl
      · exact List.mem_append_left _ (h.known x (.inl hx))
      · exact mem_snoc.mpr (.inr rfl)
    · exact List.mem_append_left _ (h.known x (.inr hx))
  · intro hstarted x hx hwanted
    rcases mem_snoc.mp hx with hx | rfl
    · rcases h.complete hstarted x hx hwanted with hheld | hfresh | hrest
      · exact .inl hheld
      · exact .inr (.inl (List.mem_append_left _ hfresh))
      · exact .inr (.inr hrest)
    · exact .inr (.inl (mem_snoc.mpr (.inr rfl)))

theorem Joined.announces [DecidableEq α] (he : e ∈ t.fresh) :
    Joined key since { t with fresh := t.fresh.erase e, flying := t.flying ++ [e] } := by
  refine { h with known := ?_, complete := ?_ }
  · rintro x (hx | hx | hx)
    · exact h.known x (.inl (List.mem_of_mem_erase hx))
    · rcases mem_snoc.mp hx with hx | rfl
      · exact h.known x (.inr (.inl hx))
      · exact h.known x (.inl he)
    · exact h.known x (.inr (.inr hx))
  · intro hstarted x hx hwanted
    rcases h.complete hstarted x hx hwanted with hheld | hfresh | hflying | hinbox
    · exact .inl hheld
    · rcases mem_erase_or e hfresh with rfl | hfresh
      · exact .inr (.inr (.inl (mem_snoc.mpr (.inr rfl))))
      · exact .inr (.inl hfresh)
    · exact .inr (.inr (.inl (List.mem_append_left _ hflying)))
    · exact .inr (.inr (.inr hinbox))

theorem Joined.misses [DecidableEq α] (hsettled : t.started = true → t.Settled key since e) :
    Joined key since { t with fresh := t.fresh.erase e } := by
  refine { h with known := ?_, complete := ?_ }
  · rintro x (hx | hx)
    · exact h.known x (.inl (List.mem_of_mem_erase hx))
    · exact h.known x (.inr hx)
  · intro hstarted x hx hwanted
    rcases h.complete hstarted x hx hwanted with hheld | hfresh | hrest
    · exact .inl hheld
    · rcases mem_erase_or e hfresh with rfl | hfresh
      · exact .inl ((hsettled hstarted).held hwanted)
      · exact .inr (.inl hfresh)
    · exact .inr (.inr hrest)

theorem Joined.hands [DecidableEq α] (he : e ∈ t.flying)
    (horder : t.started = true → t.Settled key since e ∨ Newer key (t.held ++ t.inbox) e) :
    Joined key since { t with flying := t.flying.erase e, inbox := t.inbox ++ [e] } := by
  refine { h with known := ?_, complete := ?_, inbox_sorted := ?_, inbox_newer := ?_ }
  · rintro x (hx | hx | hx)
    · exact h.known x (.inl hx)
    · exact h.known x (.inr (.inl (List.mem_of_mem_erase hx)))
    · rcases mem_snoc.mp hx with hx | rfl
      · exact h.known x (.inr (.inr hx))
      · exact h.known x (.inr (.inl he))
  · intro hstarted x hx hwanted
    rcases h.complete hstarted x hx hwanted with hheld | hfresh | hflying | hinbox
    · exact .inl hheld
    · exact .inr (.inl hfresh)
    · rcases mem_erase_or e hflying with rfl | hflying
      · exact .inr (.inr (.inr (mem_snoc.mpr (.inr rfl))))
      · exact .inr (.inr (.inl hflying))
    · exact .inr (.inr (.inr (List.mem_append_left _ hinbox)))
  · intro hstarted
    apply pairwise_snoc (h.inbox_sorted hstarted)
    intro x hx
    exact (horder hstarted).imp_right fun hnewer => hnewer x (List.mem_append_right _ hx)
  · intro hstarted x hx
    rcases mem_snoc.mp hx with hx | rfl
    · exact h.inbox_newer hstarted x hx
    · exact (horder hstarted).imp_right fun hnewer y hy => hnewer y (List.mem_append_left _ hy)

theorem Joined.starts (hunread : t.started = false) :
    Joined key since { t with started := true, held := wanted key since t.log } := by
  have hyielded : t.yielded = [] := by
    have hunder := h.yielded_prefix
    rw [h.unread hunread] at hunder
    exact List.prefix_nil.mp hunder
  -- what is on its way now was in the log when the reader took it
  have hsettled : ∀ e ∈ t.inbox,
      Settled key since { t with started := true, held := wanted key since t.log } e := by
    intro e he
    by_cases hwanted : since < key e
    · exact .inr (mem_wanted.mpr ⟨h.known e (.inr (.inr he)), hwanted⟩)
    · exact .inl (not_lt.mp hwanted)
  refine { log_sorted := h.log_sorted, held_sorted := h.log_sorted.filter _,
           held_wanted := fun e he => mem_wanted.mp he, yielded_prefix := ?_, unread := nofun,
           known := h.known,
           complete := fun _ e he hwanted => .inl (mem_wanted.mpr ⟨he, hwanted⟩),
           inbox_sorted := fun _ => ?_, inbox_newer := fun _ e he => .inl (hsettled e he) }
  · rw [hyielded]
    exact List.nil_prefix
  · rw [List.pairwise_iff_forall_sublist]
    intro x y hxy
    exact .inl (hsettled y (hxy.subset (by simp)))

theorem Joined.pulls (hheld : t.held = t.yielded ++ e :: rest) :
    Joined key since { t with yielded := t.yielded ++ [e] } := by
  refine { h with yielded_prefix := ?_ }
  show t.yielded ++ [e] <+: t.held
  rw [hheld]
  exact ⟨rest, by simp⟩

/-- Dropping the head of the inbox, if it is settled. -/
theorem Joined.drops (hinbox : t.inbox = e :: rest) (hsettled : t.Settled key since e) :
    Joined key since { t with inbox := rest } := by
  have hin : ∀ x ∈ rest, x ∈ t.inbox := by
    intro x hx
    rw [hinbox]
    exact List.mem_cons_of_mem _ hx
  refine { h with known := ?_, complete := ?_, inbox_sorted := ?_, inbox_newer := ?_ }
  · rintro x (hx | hx | hx)
    · exact h.known x (.inl hx)
    · exact h.known x (.inr (.inl hx))
    · exact h.known x (.inr (.inr (hin x hx)))
  · intro hstarted x hx hwanted
    rcases h.complete hstarted x hx hwanted with hheld | hfresh | hflying | hx'
    · exact .inl hheld
    · exact .inr (.inl hfresh)
    · exact .inr (.inr (.inl hflying))
    · rw [hinbox] at hx'
      rcases List.mem_cons.mp hx' with rfl | hx'
      · exact .inl (hsettled.held hwanted)
      · exact .inr (.inr (.inr hx'))
  · intro hstarted
    have hsorted := h.inbox_sorted hstarted
    rw [hinbox] at hsorted
    exact (List.pairwise_cons.mp hsorted).2
  · exact fun hstarted x hx => h.inbox_newer hstarted x (hin x hx)

/-- The head of the inbox is dropped only if it is settled. -/
theorem Joined.settled_of_skip (hstarted : t.started = true) (hinbox : t.inbox = e :: rest)
    (hold : ¬ (since < key e ∧ Newer key t.held e)) : t.Settled key since e := by
  have hmem : e ∈ t.inbox := by
    rw [hinbox]
    exact List.mem_cons_self
  rcases h.inbox_newer hstarted e hmem with hsettled | hnewer
  · exact hsettled
  · exact .inl (not_lt.mp fun hwanted => hold ⟨hwanted, hnewer⟩)

/-- Holding the head of the inbox, if it is wanted and newer than all that is held. -/
theorem Joined.takes (hstarted : t.started = true) (hinbox : t.inbox = e :: rest)
    (hwanted : since < key e) (hnewer : Newer key t.held e) :
    Joined key since { t with inbox := rest, held := t.held ++ [e], yielded := t.held ++ [e] } := by
  have hsorted := h.inbox_sorted hstarted
  rw [hinbox] at hsorted
  obtain ⟨hafter, hrest⟩ := List.pairwise_cons.mp hsorted
  have hmono : ∀ x, t.Settled key since x → Settled key since
      { t with inbox := rest, held := t.held ++ [e], yielded := t.held ++ [e] } x :=
    fun x hx => hx.mono fun y hy => List.mem_append_left _ hy
  have hin : ∀ x ∈ rest, x ∈ t.inbox := by
    intro x hx
    rw [hinbox]
    exact List.mem_cons_of_mem _ hx
  have hlog : e ∈ t.log := h.known e (.inr (.inr (by rw [hinbox]; exact List.mem_cons_self)))
  refine { log_sorted := h.log_sorted, held_sorted := pairwise_snoc h.held_sorted hnewer,
           held_wanted := ?_, yielded_prefix := List.prefix_refl _, unread := ?_, known := ?_,
           complete := ?_, inbox_newer := ?_,
           inbox_sorted := fun _ => hrest.imp fun hxy => hxy.imp_left (hmono _) }
  · intro x hx
    rcases mem_snoc.mp hx with hx | rfl
    · exact h.held_wanted x hx
    · exact ⟨hlog, hwanted⟩
  · intro hunread
    rw [hstarted] at hunread
    cases hunread
  · rintro x (hx | hx | hx)
    · exact h.known x (.inl hx)
    · exact h.known x (.inr (.inl hx))
    · exact h.known x (.inr (.inr (hin x hx)))
  · intro _ x hx hwanted'
    rcases h.complete hstarted x hx hwanted' with hheld | hfresh | hflying | hx'
    · exact .inl (List.mem_append_left _ hheld)
    · exact .inr (.inl hfresh)
    · exact .inr (.inr (.inl hflying))
    · rw [hinbox] at hx'
      rcases List.mem_cons.mp hx' with rfl | hx'
      · exact .inl (mem_snoc.mpr (.inr rfl))
      · exact .inr (.inr (.inr hx'))
  · intro _ x hx
    rcases h.inbox_newer hstarted x (hin x hx) with hsettled | hnewer'
    · exact .inl (hmono x hsettled)
    · rcases hafter x hx with hsettled | hlt
      · exact .inl (hmono x hsettled)
      · refine .inr fun y hy => ?_
        rcases mem_snoc.mp hy with hy | rfl
        · exact hnewer' y hy
        · exact hlt

/-- **One harmless move keeps the reader joined.** -/
theorem Joined.step [DecidableEq α] {t' : Tail α} (hstep : Step key since t t') :
    t'.Joined key since := by
  cases hstep with
  | stays => exact h
  | logs e hnewer => exact h.logs hnewer
  | announces e he => exact h.announces he
  | misses e hsettled => exact h.misses hsettled
  | hands e he horder => exact h.hands he horder
  | starts hunread => exact h.starts hunread
  | pulls e rest hheld => exact h.pulls hheld
  | skips e rest hstarted hinbox hold =>
      exact h.drops hinbox (h.settled_of_skip hstarted hinbox hold)
  | takes e rest hstarted _ hinbox hwanted hnewer => exact h.takes hstarted hinbox hwanted hnewer

/-- What the reader passes on comes from the log, is wanted, and is in order. -/
theorem Joined.yields :
    t.yielded.Pairwise (fun x y => key x < key y) ∧ ∀ e ∈ t.yielded, e ∈ t.log ∧ since < key e :=
  ⟨h.held_sorted.sublist h.yielded_prefix.sublist,
    fun e he => h.held_wanted e (h.yielded_prefix.subset he)⟩

/-- **At rest, everything has been passed on.** -/
theorem Joined.at_rest (hstarted : t.started = true) (hcaught : t.yielded = t.held)
    (hrest : ∀ e, ¬ t.OnWay e) : t.yielded = wanted key since t.log := by
  have hmem : ∀ e, e ∈ t.held ↔ e ∈ wanted key since t.log := by
    intro e
    rw [mem_wanted]
    constructor
    · exact h.held_wanted e
    · rintro ⟨hlog, hwanted⟩
      exact (h.complete hstarted e hlog hwanted).resolve_right (hrest e)
  have : Std.Irrefl (fun x y : α => key x < key y) := ⟨fun x => lt_irrefl _⟩
  have : Std.Antisymm (fun x y : α => key x < key y) :=
    ⟨fun x y hxy hyx => absurd hxy (lt_asymm hyx)⟩
  rw [hcaught]
  exact h.held_sorted.eq_of_mem_iff (h.log_sorted.filter _) (fun {e} => hmem e)

end

end Tail

/-! ## A reader of many logs -/

namespace Watermark

variable {α κ : Type*} [DecidableEq κ] {line : α → κ} {number : α → Nat}

/-- The entry is the newest of its line. -/
def raise (line : α → κ) (number : α → Nat) (marks : κ → Nat) (a : α) : κ → Nat :=
  Function.update marks (line a) (number a)

/-- What is passed on, from the marks on. -/
def newest (line : α → κ) (number : α → Nat) : (κ → Nat) → List α → List α
  | _, [] => []
  | marks, a :: rest =>
    if number a ≤ marks (line a) then newest line number marks rest
    else a :: newest line number (raise line number marks a) rest

/-- The marks after the list. -/
def marked (line : α → κ) (number : α → Nat) : (κ → Nat) → List α → κ → Nat
  | marks, [] => marks
  | marks, a :: rest =>
    if number a ≤ marks (line a) then marked line number marks rest
    else marked line number (raise line number marks a) rest

theorem newest_append (xs ys : List α) (marks : κ → Nat) : newest line number marks (xs ++ ys) =
    newest line number marks xs ++ newest line number (marked line number marks xs) ys := by
  induction xs generalizing marks with
  | nil => rfl
  | cons a xs ih =>
      rw [List.cons_append, newest, newest, marked]
      by_cases hold : number a ≤ marks (line a)
      · rw [if_pos hold, if_pos hold, if_pos hold, ih]
      · rw [if_neg hold, if_neg hold, if_neg hold, ih, List.cons_append]

theorem marked_append (xs ys : List α) (marks : κ → Nat) : marked line number marks (xs ++ ys) =
    marked line number (marked line number marks xs) ys := by
  induction xs generalizing marks with
  | nil => rfl
  | cons a xs ih =>
      rw [List.cons_append, marked, marked]
      by_cases hold : number a ≤ marks (line a)
      · rw [if_pos hold, if_pos hold, ih]
      · rw [if_neg hold, if_neg hold, ih]

/-- The mark of a line is below a number exactly if it was, and all entries of the line are. -/
theorem marked_lt_iff {k : κ} {n : Nat} (xs : List α) (marks : κ → Nat) :
    marked line number marks xs k < n ↔ marks k < n ∧ ∀ a ∈ xs, line a = k → number a < n := by
  induction xs generalizing marks with
  | nil => simp [marked]
  | cons a xs ih =>
      rw [marked, List.forall_mem_cons]
      by_cases hold : number a ≤ marks (line a)
      · rw [if_pos hold, ih]
        constructor
        · rintro ⟨hmark, hrest⟩
          exact ⟨hmark, fun hline => lt_of_le_of_lt (hline ▸ hold) hmark, hrest⟩
        · rintro ⟨hmark, -, hrest⟩
          exact ⟨hmark, hrest⟩
      · rw [if_neg hold, ih]
        by_cases hline : line a = k
        · subst hline
          rw [raise, Function.update_self]
          constructor
          · rintro ⟨hnumber, hrest⟩
            exact ⟨lt_trans (not_le.mp hold) hnumber, fun _ => hnumber, hrest⟩
          · rintro ⟨-, hnumber, hrest⟩
            exact ⟨hnumber rfl, hrest⟩
        · rw [raise, Function.update_of_ne (Ne.symm hline)]
          constructor
          · rintro ⟨hmark, hrest⟩
            exact ⟨hmark, fun h => absurd h hline, hrest⟩
          · rintro ⟨hmark, -, hrest⟩
            exact ⟨hmark, hrest⟩

theorem newest_singleton (marks : κ → Nat) (a : α) :
    newest line number marks [a] = if number a ≤ marks (line a) then [] else [a] := rfl

theorem newest_sublist (xs : List α) (marks : κ → Nat) : (newest line number marks xs).Sublist xs := by
  induction xs generalizing marks with
  | nil => exact List.Sublist.refl []
  | cons a xs ih =>
      rw [newest]
      split
      · exact (ih _).cons a
      · exact (ih _).cons_cons a

/-- **Passed on exactly if nothing as new has come before.** -/
theorem mem_newest_iff {a : α} (xs : List α) (marks : κ → Nat) : a ∈ newest line number marks xs ↔
    ∃ before after, xs = before ++ a :: after ∧ marks (line a) < number a ∧
      ∀ b ∈ before, line b = line a → number b < number a := by
  -- where the entry stands, its mark is that of the entries before it
  have hplace : ∀ before after : List α, newest line number marks (before ++ a :: after) =
      newest line number marks before ++ ((if number a ≤ marked line number marks before (line a) then [] else [a]) ++
        newest line number (marked line number marks (before ++ [a])) after) := by
    intro before after
    rw [List.append_cons, newest_append, newest_append, newest_singleton, List.append_assoc]
  constructor
  · intro h
    induction xs using List.reverseRecOn with
    | nil => cases h
    | append_singleton xs x ih =>
        rw [newest_append, List.mem_append] at h
        rcases h with h | h
        · obtain ⟨before, after, rfl, hmark, hbefore⟩ := ih h
          exact ⟨before, after ++ [x], by simp, hmark, hbefore⟩
        · rw [newest_singleton] at h
          split at h
          · cases h
          · rename_i hnew
            obtain rfl := List.mem_singleton.mp h
            obtain ⟨hmark, hbefore⟩ := (marked_lt_iff xs marks).mp (not_le.mp hnew)
            exact ⟨xs, [], rfl, hmark, hbefore⟩
  · rintro ⟨before, after, rfl, hmark, hbefore⟩
    have hnew := (marked_lt_iff before marks).mpr ⟨hmark, hbefore⟩
    rw [hplace, if_neg (not_le.mpr hnew)]
    exact List.mem_append_right _ (List.mem_append_left _ List.mem_cons_self)

/-- What is passed on is above the marks, and in order in every line. -/
theorem newest_sorted (xs : List α) (marks : κ → Nat) :
    (∀ a ∈ newest line number marks xs, marks (line a) < number a) ∧
      (newest line number marks xs).Pairwise fun a b => line a = line b → number a < number b := by
  refine ⟨fun a ha => ?_, ?_⟩
  · obtain ⟨-, -, -, hmark, -⟩ := (mem_newest_iff xs marks).mp ha
    exact hmark
  · induction xs using List.reverseRecOn with
    | nil => exact List.Pairwise.nil
    | append_singleton xs x ih =>
        rw [newest_append, newest_singleton]
        split
        · rw [List.append_nil]
          exact ih
        · rename_i hnew
          obtain ⟨-, hbefore⟩ := (marked_lt_iff xs marks).mp (not_le.mp hnew)
          refine List.pairwise_append.mpr ⟨ih, List.pairwise_singleton _ _, fun a ha b hb hline => ?_⟩
          obtain rfl := List.mem_singleton.mp hb
          exact hbefore a ((newest_sublist xs marks).subset ha) hline

/-- **Everything is passed on exactly if every line comes in order.** -/
theorem newest_eq_self_iff (xs : List α) (marks : κ → Nat) : newest line number marks xs = xs ↔
    (∀ a ∈ xs, marks (line a) < number a) ∧ xs.Pairwise fun a b => line a = line b → number a < number b := by
  constructor
  · intro h
    have hsorted := @newest_sorted α κ _ line number xs marks
    rwa [h] at hsorted
  · rintro ⟨hmarks, hsorted⟩
    induction xs using List.reverseRecOn with
    | nil => rfl
    | append_singleton xs x ih =>
        obtain ⟨hxs, -, hlast⟩ := List.pairwise_append.mp hsorted
        have hnew : marked line number marks xs (line x) < number x :=
          (marked_lt_iff xs marks).mpr ⟨hmarks x (by simp), fun a ha => hlast a ha x (by simp)⟩
        rw [newest_append, newest_singleton, if_neg (not_le.mpr hnew),
          ih (fun a ha => hmarks a (List.mem_append_left _ ha)) hxs]

end Watermark
