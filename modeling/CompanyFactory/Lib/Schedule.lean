import CompanyFactory.Lib.Run
import Mathlib.Algebra.Order.Group.Defs
import Mathlib.Algebra.Order.Group.Unbundled.Basic
import Mathlib.Algebra.Order.Ring.Int
import Mathlib.Data.List.Basic
import Mathlib.Data.List.Induction
import Mathlib.Order.Lattice
import Mathlib.Tactic.Abel
import Mathlib.Tactic.Basic
import Mathlib.Tactic.Linarith
import Mathlib.Tactic.Ring

/-!
# `Lib.Schedule` — what comes due at regular intervals, alarms that are kept apart, and a watch that can be held

A schedule is a first day and a period. `Due` are its days; whoever keeps one day of it as the *next* one has dealt with
those before. Two facts carry the bookkeeping:

* `due_below_advance` — to advance the next day by a period is to deal with exactly that day.
* `due_below_iff` — if the next day is the first one after `d`, the days dealt with are the days up to `d`.

An alarm that remembers when it last went off goes off again only after a gap. `Spaced gap last times last'` says
how it can get from one memory to the next: each time at which it goes off, and each time at which it only remembers
that it would have, is at least the gap after the remembered one.

* `Spaced.trans` — two stretches after one another;
* `Spaced.pairwise` — any two times at which the alarm went off are at least the gap apart, if the gap is not negative.
  The clock may go back;
* `foldl_streak` — since when every sighting of something has been positive.

A watch remembers when it was started, for how long it was held in all and, while it is held, since when. It is never
told about the time in between: what it shows is computed from the reading of the moment. `Shows` is the law of such a
watch: at a reading it shows the time for which it was not held. Waiting adds to that exactly while the watch runs
(`Shows.wait`), and holding it, letting it go and booking the time of a hold that goes on change nothing (`Shows.hold`,
`Shows.release`, `Shows.renew`). The readings have to come in order for this: a hold that ends before it has begun is
booked as none.
-/

namespace Schedule

variable {first period m n d : Int}

/-- The days of the schedule: the first one, and every `period` days after it. -/
def Due (first period n : Int) : Prop := ∃ k : Nat, n = first + k * period

theorem due_first : Due first period first := ⟨0, by simp⟩

theorem Due.advance (h : Due first period n) : Due first period (n + period) := by
  obtain ⟨k, rfl⟩ := h
  refine ⟨k + 1, ?_⟩
  push_cast
  ring

theorem Due.first_le (h : Due first period n) (hp : 0 < period) : first ≤ n := by
  obtain ⟨k, rfl⟩ := h
  have hnonneg : 0 ≤ (k : Int) * period := mul_nonneg (by omega) hp.le
  omega

/-- Two days of a schedule with less than a period between them. -/
theorem Due.le_of_lt_add (hp : 0 < period) (hn : Due first period n) (hm : Due first period m)
    (hlt : n < m + period) : n ≤ m := by
  obtain ⟨k, rfl⟩ := hn
  obtain ⟨j, rfl⟩ := hm
  have hsucc : (k : Int) * period < (j + 1 : Int) * period := by linarith
  have hkj : (k : Int) < j + 1 := lt_of_mul_lt_mul_right hsucc hp.le
  have hle : (k : Int) * period ≤ j * period := mul_le_mul_of_nonneg_right (by omega) hp.le
  omega

/-- **One day further.** -/
theorem due_below_advance (hp : 0 < period) (hm : Due first period m) :
    (n < m + period ∧ Due first period n) ↔ (n < m ∧ Due first period n) ∨ n = m := by
  constructor
  · rintro ⟨hlt, hn⟩
    have hle := hn.le_of_lt_add hp hm hlt
    rcases hle.lt_or_eq with hbelow | heq
    · exact .inl ⟨hbelow, hn⟩
    · exact .inr heq
  · rintro (⟨hlt, hn⟩ | rfl)
    · exact ⟨by omega, hn⟩
    · exact ⟨by omega, hm⟩

/-- **The days before the first one after `d`** are the days up to `d`. -/
theorem due_below_iff (hp : 0 < period) (hm : Due first period m) (hafter : d < m)
    (hnext : m = first ∨ m - period ≤ d) : (n < m ∧ Due first period n) ↔ n ≤ d ∧ Due first period n := by
  constructor
  · rintro ⟨hlt, hn⟩
    refine ⟨?_, hn⟩
    rcases hnext with rfl | hprev
    · exact absurd hlt (not_lt_of_ge (hn.first_le hp))
    · have hlater : ¬ m - period < n := by
        intro hlate
        have hle := hm.le_of_lt_add hp hn (by omega)
        omega
      omega
  · rintro ⟨hle, hn⟩
    exact ⟨by omega, hn⟩

end Schedule

/-! ## Alarms -/

section Alarms

variable {K : Type*}

/-- From the memory `last`, the alarm goes off at `times` and then has the memory `last'`. -/
inductive Spaced [Add K] [LE K] (gap : K) : Option K → List K → Option K → Prop where
  | done (last : Option K) : Spaced gap last [] last
  | fired {last last' : Option K} {t : K} {times : List K} (hgap : ∀ s ∈ last, s + gap ≤ t)
      (hrest : Spaced gap (some t) times last') : Spaced gap last (t :: times) last'
  | missed {last last' : Option K} {t : K} {times : List K} (hgap : ∀ s ∈ last, s + gap ≤ t)
      (hrest : Spaced gap (some t) times last') : Spaced gap last times last'

namespace Spaced

section Steps

variable [Add K] [LE K] {gap t : K} {last last' last'' : Option K} {times times' : List K}

/-- One alarm. -/
theorem once (hgap : ∀ s ∈ last, s + gap ≤ t) : Spaced gap last [t] (some t) := .fired hgap (.done _)

/-- An alarm that is remembered, but was not raised. -/
theorem silent (hgap : ∀ s ∈ last, s + gap ≤ t) : Spaced gap last [] (some t) := .missed hgap (.done _)

theorem trans (h : Spaced gap last times last') (h' : Spaced gap last' times' last'') :
    Spaced gap last (times ++ times') last'' := by
  induction h with
  | done _ => exact h'
  | fired hgap _ ih => exact .fired hgap (ih h')
  | missed hgap _ ih => exact .missed hgap (ih h')

end Steps

section Apart

variable [AddCommMonoid K] [PartialOrder K] [IsOrderedAddMonoid K] {gap : K} {last last' : Option K} {times : List K}

/-- Every later alarm is a gap after the memory. -/
theorem after (h : Spaced gap last times last') (hgap : 0 ≤ gap) : ∀ s ∈ last, ∀ t ∈ times, s + gap ≤ t := by
  induction h with
  | done _ => exact fun _ _ _ hmem => absurd hmem List.not_mem_nil
  | @fired last _ t times hstep _ ih =>
      intro s hs u hu
      rcases List.mem_cons.mp hu with rfl | hu
      · exact hstep s hs
      · calc s + gap ≤ t := hstep s hs
          _ ≤ t + gap := le_add_of_nonneg_right hgap
          _ ≤ u := ih t rfl u hu
  | @missed last _ t times hstep _ ih =>
      intro s hs u hu
      calc s + gap ≤ t := hstep s hs
        _ ≤ t + gap := le_add_of_nonneg_right hgap
        _ ≤ u := ih t rfl u hu

/-- **Any two alarms are a gap apart.** -/
theorem pairwise (h : Spaced gap last times last') (hgap : 0 ≤ gap) :
    times.Pairwise (fun s t => s + gap ≤ t) := by
  induction h with
  | done _ => exact .nil
  | fired _ hrest ih => exact List.pairwise_cons.mpr ⟨fun u hu => hrest.after hgap _ rfl u hu, ih⟩
  | missed _ _ ih => exact ih

end Apart

end Spaced

/-! ## Streaks -/

/-- The begin of the streak that goes on, after another sighting. -/
def streak (since : Option K) (sighting : K × Bool) : Option K :=
  if sighting.2 then some (since.getD sighting.1) else none

theorem streak_goes_on {post : List (K × Bool)} (h : ∀ s ∈ post, s.2 = true) (t : K) :
    post.foldl streak (some t) = some t := by
  induction post with
  | nil => rfl
  | cons s rest ih =>
      have hstep : streak (some t) s = some t := by rw [streak, if_pos (h s List.mem_cons_self), Option.getD_some]
      rw [List.foldl_cons, hstep]
      exact ih fun s hs => h s (List.mem_cons_of_mem _ hs)

/-- There is no streak exactly after a negative sighting, or none at all. -/
theorem streak_none_iff {pre : List (K × Bool)} :
    pre.foldl streak none = none ↔ ∀ s ∈ pre.getLast?, s.2 = false := by
  rcases List.eq_nil_or_concat pre with rfl | ⟨front, s, rfl⟩
  · exact iff_of_true rfl fun s hs => nomatch hs
  · rw [List.concat_eq_append, List.foldl_append, List.getLast?_append]
    obtain ⟨u, seen⟩ := s
    cases seen with
    | false => exact iff_of_true rfl fun s hs => by cases hs; rfl
    | true => exact iff_of_false (Option.some_ne_none _) fun h => Bool.noConfusion (h (u, true) rfl)

/-- **Since when**: the first positive sighting after the last negative one. -/
theorem foldl_streak {sightings : List (K × Bool)} {t : K} : sightings.foldl streak none = some t ↔
    ∃ pre post, sightings = pre ++ (t, true) :: post ∧ (∀ s ∈ post, s.2 = true) ∧ ∀ s ∈ pre.getLast?, s.2 = false := by
  constructor
  · intro h
    induction sightings using List.reverseRecOn generalizing t with
    | nil => cases h
    | append_singleton earlier last ih =>
        obtain ⟨u, seen⟩ := last
        rw [List.foldl_append] at h
        cases seen with
        | false => cases h
        | true =>
            cases hsince : earlier.foldl streak none with
            | none =>
                rw [hsince] at h
                cases h
                exact ⟨earlier, [], rfl, List.forall_mem_nil _, streak_none_iff.mp hsince⟩
            | some since =>
                rw [hsince] at h
                cases h
                obtain ⟨pre, post, rfl, hpost, hpre⟩ := ih hsince
                refine ⟨pre, post ++ [(u, true)], by rw [List.append_assoc]; rfl, ?_, hpre⟩
                exact List.forall_mem_append.mpr ⟨hpost, List.forall_mem_singleton.mpr rfl⟩
  · rintro ⟨pre, post, rfl, hpost, hpre⟩
    rw [List.foldl_append, streak_none_iff.mpr hpre]
    exact streak_goes_on hpost t

namespace Machine

variable {σ ι : Type*} {step : σ → ι → σ}

/-- An alarm that every step keeps apart is kept apart along every run. -/
theorem output_spaced [Add K] [LE K] {gap : K} {C : σ → Prop} {last : σ → Option K} {out : σ → ι → List K}
    (hkeep : ∀ s i, C s → C (step s i)) (hstep : ∀ s i, C s → Spaced gap (last s) (out s i) (last (step s i))) :
    ∀ {s : σ}, C s → ∀ is : List ι, Spaced gap (last s) (output step out s is) (last (is.foldl step s)) := by
  intro s hs is
  induction is generalizing s with
  | nil => exact .done _
  | cons i is ih => exact (hstep s i hs).trans (ih (hkeep s i hs))

end Machine

end Alarms

/-! ## A watch -/

/-- `since` is there while the watch is held. -/
structure Stopwatch (α : Type*) where
  start : α
  held : α
  since : Option α

namespace Stopwatch

variable {α : Type*} [AddCommGroup α] [LinearOrder α]

/-- What the watch shows. -/
def elapsed (w : Stopwatch α) (now : α) : α := w.since.getD now - w.start - w.held

/-- Hold a watch that runs. -/
def hold (now : α) (w : Stopwatch α) : Stopwatch α := { w with since := some now }

/-- Let the watch go. -/
def release (now : α) (w : Stopwatch α) : Stopwatch α :=
  match w.since with
  | none => w
  | some since => { w with held := w.held + max 0 (now - since), since := none }

/-- Book the time of a hold up to now. -/
def renew (now : α) (w : Stopwatch α) : Stopwatch α :=
  match w.since with
  | none => w
  | some since => { w with held := w.held + max 0 (now - since), since := some now }

/-- At the reading the watch shows `ran`, and it is not held from a later reading on. -/
structure Shows (w : Stopwatch α) (now ran : α) : Prop where
  elapsed : w.elapsed now = ran
  since : ∀ a, w.since = some a → a ≤ now

variable {w : Stopwatch α} {now later ran : α}

theorem Shows.start (now : α) : Shows ⟨now, 0, none⟩ now 0 := by
  refine ⟨?_, fun a ha => nomatch ha⟩
  show now - now - 0 = 0
  rw [sub_self, sub_self]

/-- A watch that runs shows the time that has passed. -/
theorem Shows.wait (h : Shows w now ran) (hle : now ≤ later) :
    Shows w later (ran + if w.since = none then later - now else 0) := by
  refine ⟨?_, fun a ha => (h.since a ha).trans hle⟩
  rw [← h.elapsed]
  unfold Stopwatch.elapsed
  cases hsince : w.since with
  | none =>
      rw [if_pos rfl, Option.getD_none, Option.getD_none]
      abel
  | some a => rw [if_neg (by nofun), Option.getD_some, Option.getD_some, add_zero]

theorem Shows.hold (h : Shows w now ran) (hrunning : w.since = none) : Shows (w.hold now) now ran := by
  refine ⟨?_, fun a ha => (Option.some.inj ha).ge⟩
  rw [← h.elapsed]
  unfold Stopwatch.elapsed
  rw [hrunning]
  rfl

section Ordered

variable [IsOrderedAddMonoid α]

/-- A hold that has begun lasts until now. -/
theorem Shows.lasted (h : Shows w now ran) {a : α} (ha : w.since = some a) :
    max 0 (now - a) = now - a := max_eq_right (sub_nonneg_of_le (h.since a ha))

theorem Shows.release (h : Shows w now ran) : Shows (w.release now) now ran := by
  unfold Stopwatch.release
  cases hsince : w.since with
  | none => exact h
  | some a =>
      refine ⟨?_, fun b hb => nomatch hb⟩
      rw [← h.elapsed]
      show now - w.start - (w.held + max 0 (now - a)) = w.since.getD now - w.start - w.held
      rw [h.lasted hsince, hsince, Option.getD_some]
      abel

theorem Shows.renew (h : Shows w now ran) : Shows (w.renew now) now ran := by
  unfold Stopwatch.renew
  cases hsince : w.since with
  | none => exact h
  | some a =>
      refine ⟨?_, fun b hb => (Option.some.inj hb).ge⟩
      rw [← h.elapsed]
      show now - w.start - (w.held + max 0 (now - a)) = w.since.getD now - w.start - w.held
      rw [h.lasted hsince, hsince, Option.getD_some]
      abel

end Ordered

end Stopwatch
