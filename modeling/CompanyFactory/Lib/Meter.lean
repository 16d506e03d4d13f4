import CompanyFactory.Lib.Run
import Mathlib.Algebra.Order.Group.Defs

/-!
# `Lib.Meter` — what is let through by a gate with a memory

A meter answers attempts that are made at times: `attempt b now` tells whether the attempt at `now` is let through, and
what the meter remembers after it. `admitted` are the times of the attempts that were let through.

* `tally_eq_admitted` — a system that asks a meter in some of its steps, and leaves it alone in the others: what is let
  through in a run of the system is what the meter lets through of its attempts.

`SlidingLog` is a meter that remembers the times of what it let through. It forgets those that are older than the span,
and lets an attempt through if fewer than `cap` are left.

* `SlidingLog.admitted_within` — in every closed window of the length of the span, at most `cap` attempts are let through.
-/

namespace Meter

open Machine

variable {β K σ ι : Type*} {attempt : β → K → Bool × β}

/-- The times of the attempts that are let through. -/
def admitted (attempt : β → K → Bool × β) : β → List K → List K
  | _, [] => []
  | b, now :: later =>
    if (attempt b now).1 then now :: admitted attempt (attempt b now).2 later
    else admitted attempt (attempt b now).2 later

theorem admitted_sublist (ts : List K) : ∀ b, (admitted attempt b ts).Sublist ts := by
  induction ts with
  | nil => intro b; exact List.Sublist.refl []
  | cons now later ih =>
      intro b
      unfold admitted
      split
      · exact (ih _).cons_cons now
      · exact (ih _).cons now

/-- What is let through, one attempt taken apart. -/
theorem length_admitted_cons (p : K → Bool) (b : β) (now : K) (later : List K) :
    ((admitted attempt b (now :: later)).filter p).length =
      ((attempt b now).1 && p now).toNat + ((admitted attempt (attempt b now).2 later).filter p).length := by
  rw [admitted]
  cases hok : (attempt b now).1 with
  | false => simp
  | true =>
      cases hp : p now with
      | false => simp [hp]
      | true =>
          simp only [hp, ↓reduceIte, List.filter_cons_of_pos, List.length_cons, Bool.and_self, Bool.toNat_true]
          exact Nat.add_comm _ _

/-- Attempts that come after a bound do not count below it. -/
theorem admitted_filter_eq_nil {p : K → Bool} {b : β} {ts : List K} (h : ∀ t ∈ ts, p t = false) :
    (admitted attempt b ts).filter p = [] := by
  apply List.filter_eq_nil_iff.mpr
  intro t ht
  rw [h t ((admitted_sublist ts b).subset ht)]
  exact Bool.false_ne_true

/-! ## A meter inside a system -/

section

variable {step : σ → ι → σ} {C : σ → ι → Prop} {level : σ → β} {time : σ → ι → Option K} {won : σ → ι → Bool}

/-- The times of the attempts that a run makes. -/
def attempts (step : σ → ι → σ) (time : σ → ι → Option K) : σ → List ι → List K
  | _, [] => []
  | s, i :: is => (time s i).toList ++ attempts step time (step s i) is

/-- The attempts are made at the times of the steps. -/
theorem attempts_sublist (step : σ → ι → σ) {clock : ι → Option K}
    (h : ∀ s i t, time s i = some t → clock i = some t) (is : List ι) :
    ∀ s, (attempts step time s is).Sublist (is.filterMap clock) := by
  induction is with
  | nil => intro s; exact List.Sublist.refl []
  | cons i is ih =>
      intro s
      have hrest := ih (step s i)
      cases ht : time s i with
      | none =>
          rw [attempts, ht]
          refine hrest.trans ?_
          cases hc : clock i with
          | none =>
              have hsame : (i :: is).filterMap clock = is.filterMap clock := List.filterMap_cons_none hc
              exact hsame ▸ List.Sublist.refl _
          | some now =>
              rw [List.filterMap_cons_some hc]
              exact List.sublist_cons_self now _
      | some now =>
          rw [attempts, ht, List.filterMap_cons_some (h s i now ht)]
          exact hrest.cons_cons now

/-- **What a system lets through.** If its steps are attempts on a meter, at the times that `time` tells, or leave the
    meter alone, then what is let through is what the meter lets through. -/
theorem tally_eq_admitted (attempt : β → K → Bool × β)
    (hother : ∀ s i, C s i → time s i = none → level (step s i) = level s)
    (hown : ∀ s i now, C s i → time s i = some now →
      won s i = (attempt (level s) now).1 ∧ level (step s i) = (attempt (level s) now).2)
    (p : K → Bool) (is : List ι) :
    ∀ s, Along step C s is →
      tally step (fun s i => won s i && (time s i).any p) s is =
        ((admitted attempt (level s) (attempts step time s is)).filter p).length := by
  induction is with
  | nil => intro s _; rfl
  | cons i is ih =>
      intro s hC
      have hrest := ih (step s i) hC.2
      cases ht : time s i with
      | none =>
          rw [hother s i hC.1 ht] at hrest
          rw [tally, attempts, ht, hrest]
          simp
      | some now =>
          obtain ⟨hwon, hlevel⟩ := hown s i now hC.1 ht
          rw [hlevel] at hrest
          rw [tally, attempts, ht, Option.toList_some, List.singleton_append, length_admitted_cons, ← hrest, hwon]
          simp

end

end Meter

/-! ## At most so many in every window -/

namespace SlidingLog

open Machine Meter

variable {K : Type*} [AddCommGroup K] [LinearOrder K] [IsOrderedAddMonoid K]

/-- The times that still count. -/
def recent (span : K) (log : List K) (now : K) : List K := log.dropWhile (· < now - span)

def attempt (cap : Nat) (span : K) (log : List K) (now : K) : Bool × List K :=
  if cap ≤ (recent span log now).length then (false, recent span log now)
  else (true, recent span log now ++ [now])

variable {cap : Nat} {span lo now : K} {log : List K}

omit [IsOrderedAddMonoid K] in
theorem recent_length_le : (recent span log now).length ≤ log.length := (List.dropWhile_sublist _).length_le

omit [IsOrderedAddMonoid K] in
/-- The log is never longer than the cap. -/
theorem attempt_length_le (h : log.length ≤ cap) : (attempt cap span log now).2.length ≤ cap := by
  have hle : (recent span log now).length ≤ cap := le_trans recent_length_le h
  unfold attempt
  split
  · exact hle
  · next hroom =>
      rw [List.length_append, List.length_singleton]
      omega

/-- What is forgotten lies before the window of an attempt that is made in the window. -/
theorem recent_filter (h : now ≤ lo + span) :
    (recent span log now).filter (lo ≤ ·) = log.filter (lo ≤ ·) := by
  induction log with
  | nil => rfl
  | cons t log ih =>
      unfold recent
      by_cases ht : t < now - span
      · have hbefore : ¬ lo ≤ t := not_le.mpr (lt_of_lt_of_le ht (sub_le_iff_le_add.mpr h))
        rw [List.dropWhile_cons_of_pos (by simpa using ht), List.filter_cons_of_neg (by simpa using hbefore)]
        exact ih
      · rw [List.dropWhile_cons_of_neg (by simpa using ht)]

/-- An attempt in the reach of the window adds itself to what the log holds of the window, if it is let through. -/
theorem attempt_filter (h : now ≤ lo + span) :
    ((attempt cap span log now).2.filter (lo ≤ ·)).length =
      (log.filter (lo ≤ ·)).length + ((attempt cap span log now).1 && decide (lo ≤ now)).toNat := by
  unfold attempt
  split
  · rw [recent_filter h]
    rfl
  · rw [List.filter_append, recent_filter h, List.length_append]
    by_cases hlo : lo ≤ now
    · simp [hlo]
    · simp [hlo]

/-- What the log holds of a window, and what will still be let through in it, is at most the cap. -/
theorem admitted_add_log (lo : K) (ts : List K) :
    ∀ log : List K, log.length ≤ cap → ts.Pairwise (· ≤ ·) →
      ((admitted (attempt cap span) log ts).filter (fun x => lo ≤ x && x ≤ lo + span)).length +
        (log.filter (lo ≤ ·)).length ≤ cap := by
  induction ts with
  | nil =>
      intro log hlog _
      have hle : (log.filter (lo ≤ ·)).length ≤ log.length := List.length_filter_le _ _
      rw [admitted, List.filter_nil, List.length_nil, Nat.zero_add]
      omega
  | cons now later ih =>
      intro log hlog hsorted
      obtain ⟨hnow, hlater⟩ := List.pairwise_cons.mp hsorted
      by_cases ht : now ≤ lo + span
      · have hrest := ih (attempt cap span log now).2 (attempt_length_le hlog) hlater
        rw [attempt_filter ht] at hrest
        rw [length_admitted_cons]
        simp only [ht, decide_true, Bool.and_true]
        omega
      · -- the window is over
        have hnone : (admitted (attempt cap span) log (now :: later)).filter (fun x => lo ≤ x && x ≤ lo + span) =
            [] := by
          apply admitted_filter_eq_nil
          intro x hx
          have hge : now ≤ x := by
            rcases List.mem_cons.mp hx with rfl | hx'
            · exact le_refl x
            · exact hnow x hx'
          have hout : ¬ x ≤ lo + span := fun hxt => ht (le_trans hge hxt)
          simp [hout]
        have hle : (log.filter (lo ≤ ·)).length ≤ log.length := List.length_filter_le _ _
        rw [hnone, List.length_nil, Nat.zero_add]
        omega

/-- **At most `cap` in every window.** -/
theorem admitted_within {ts : List K} (hlog : log.length ≤ cap) (hsorted : ts.Pairwise (· ≤ ·)) (lo : K) :
    ((admitted (attempt cap span) log ts).filter (fun x => lo ≤ x && x ≤ lo + span)).length ≤ cap :=
  le_trans (Nat.le_add_right _ _) (admitted_add_log lo ts log hlog hsorted)

/-- The bound of the window for what a system lets through. -/
theorem tally_within {σ ι : Type*} {step : σ → ι → σ} {C : σ → ι → Prop} (level : σ → List K)
    (time : σ → ι → Option K) {clock : ι → Option K} {won : σ → ι → Bool}
    (hother : ∀ s i, C s i → time s i = none → level (step s i) = level s)
    (hown : ∀ s i now, C s i → time s i = some now →
      won s i = (attempt cap span (level s) now).1 ∧ level (step s i) = (attempt cap span (level s) now).2)
    (hclock : ∀ s i now, time s i = some now → clock i = some now) {s : σ} {is : List ι}
    (hlog : (level s).length ≤ cap) (halong : Along step C s is)
    (hsorted : (is.filterMap clock).Pairwise (· ≤ ·)) (lo : K) :
    tally step (fun s i => won s i && (time s i).any fun x => lo ≤ x && x ≤ lo + span) s is ≤ cap := by
  rw [tally_eq_admitted (attempt cap span) hother hown (fun x => lo ≤ x && x ≤ lo + span) is s halong]
  have hsub := attempts_sublist step hclock is s
  exact admitted_within hlog (hsorted.sublist hsub) lo

end SlidingLog
