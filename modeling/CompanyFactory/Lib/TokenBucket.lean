import Mathlib.Algebra.Order.Field.Basic
import Mathlib.Tactic.Linarith
import CompanyFactory.Lib.Meter

/-!
# `Lib.TokenBucket` — token buckets over an ordered field

A bucket of capacity `c` is refilled at the rate `r` when it is used, never above `c`, and an attempt takes one token if
there is one: a meter (`Lib.Meter`) that remembers its tokens and when they were counted.

* `attempt_sound` — the tokens stay between zero and the capacity.
* `admitted_le_credit` — until a time, no more attempts succeed than the bucket holds and gains until then.
* `admitted_within` — within every interval, no more attempts succeed than the capacity and what the interval adds.
-/

namespace TokenBucket

open Machine Meter

variable {K : Type*} [Field K] [LinearOrder K] [IsStrictOrderedRing K]

/-- What a bucket remembers: its tokens at the time of its last attempt. -/
structure Level (K : Type*) where
  tokens : K
  last : K

/-- The tokens after the refill at a time. -/
def refilled (c r : K) (b : Level K) (now : K) : K := min c (b.tokens + max 0 (now - b.last) * r)

/-- An attempt to take one token. -/
def attempt (c r : K) (b : Level K) (now : K) : Bool × Level K :=
  if 1 ≤ refilled c r b now then (true, ⟨refilled c r b now - 1, now⟩)
  else (false, ⟨refilled c r b now, now⟩)

/-- Neither in debt nor above the capacity. -/
def Sound (c : K) (b : Level K) : Prop := 0 ≤ b.tokens ∧ b.tokens ≤ c

variable {c r : K} {b : Level K} {now : K}

/-! ## One attempt -/

omit [IsStrictOrderedRing K] in
@[simp] theorem attempt_last : (attempt c r b now).2.last = now := by
  unfold attempt
  split <;> rfl

omit [IsStrictOrderedRing K] in
/-- Every token is either still there or was taken. -/
theorem attempt_account :
    (attempt c r b now).2.tokens + ((attempt c r b now).1.toNat : K) = refilled c r b now := by
  unfold attempt
  split
  · simp
  · simp

omit [IsStrictOrderedRing K] in
theorem refilled_le_capacity : refilled c r b now ≤ c := min_le_left _ _

theorem refilled_nonneg (hr : 0 ≤ r) (hb : Sound c b) : 0 ≤ refilled c r b now := by
  have hcap : 0 ≤ c := le_trans hb.1 hb.2
  have hgain : 0 ≤ max 0 (now - b.last) * r := mul_nonneg (le_max_left _ _) hr
  exact le_min hcap (add_nonneg hb.1 hgain)

theorem refilled_le_gain (hnow : b.last ≤ now) : refilled c r b now ≤ b.tokens + (now - b.last) * r := by
  unfold refilled
  rw [max_eq_right (sub_nonneg.mpr hnow)]
  exact min_le_right _ _

/-- A full bucket stays full until it is used. -/
theorem refilled_full (hr : 0 ≤ r) (hfull : b.tokens = c) : refilled c r b now = c := by
  have hgain : 0 ≤ max 0 (now - b.last) * r := mul_nonneg (le_max_left _ _) hr
  unfold refilled
  rw [hfull]
  exact min_eq_left (le_add_of_nonneg_right hgain)

theorem attempt_sound (hr : 0 ≤ r) (hb : Sound c b) : Sound c (attempt c r b now).2 := by
  have hlow : 0 ≤ refilled c r b now := refilled_nonneg hr hb
  have hhigh : refilled c r b now ≤ c := refilled_le_capacity
  unfold attempt
  split
  · next hone =>
      have hle : refilled c r b now - 1 ≤ c := by linarith
      exact ⟨sub_nonneg.mpr hone, hle⟩
  · exact ⟨hlow, hhigh⟩

/-! ## Runs of attempts -/

/-- **Credit.** Until a time, no more attempts succeed than the bucket holds and gains until then. -/
theorem admitted_le_credit (hr : 0 ≤ r) {t : K} (ts : List K) :
    ∀ b : Level K, Sound c b → b.last ≤ t → (∀ x ∈ ts, b.last ≤ x) → ts.Pairwise (· ≤ ·) →
      (((admitted (attempt c r) b ts).filter (· ≤ t)).length : K) ≤ b.tokens + r * (t - b.last) := by
  induction ts with
  | nil =>
      intro b hb hlast _ _
      have hgain : 0 ≤ r * (t - b.last) := mul_nonneg hr (sub_nonneg.mpr hlast)
      simpa [admitted] using add_nonneg hb.1 hgain
  | cons now later ih =>
      intro b hb hlast hafter hsorted
      obtain ⟨hnow, hlater⟩ := List.pairwise_cons.mp hsorted
      have hfrom : b.last ≤ now := hafter now List.mem_cons_self
      by_cases ht : now ≤ t
      · -- what the attempt takes and what it leaves were both there
        have hrest := ih (attempt c r b now).2 (attempt_sound hr hb) (by simpa using ht)
          (by simpa using hnow) hlater
        have haccount : (attempt c r b now).2.tokens + ((attempt c r b now).1.toNat : K) = refilled c r b now :=
          attempt_account
        have hgain := refilled_le_gain (c := c) (r := r) hfrom
        rw [attempt_last] at hrest
        rw [length_admitted_cons, Nat.cast_add]
        simp only [ht, decide_true, Bool.and_true]
        linarith
      · -- this attempt is too late, and so are all that follow it
        have hnone : (admitted (attempt c r) b (now :: later)).filter (· ≤ t) = [] := by
          apply admitted_filter_eq_nil
          intro x hx
          have hge : now ≤ x := by
            rcases List.mem_cons.mp hx with rfl | hx'
            · exact le_refl x
            · exact hnow x hx'
          exact decide_eq_false fun hxt => ht (le_trans hge hxt)
        have hgain : 0 ≤ r * (t - b.last) := mul_nonneg hr (sub_nonneg.mpr hlast)
        rw [hnone]
        simpa using add_nonneg hb.1 hgain

/-- **The bound of a token bucket.** Within an interval, no more attempts succeed than the capacity and what the
    interval adds. -/
theorem admitted_within (hr : 0 ≤ r) {s t : K} (hst : s ≤ t) (ts : List K) :
    ∀ b : Level K, Sound c b → ts.Pairwise (· ≤ ·) →
      (((admitted (attempt c r) b ts).filter (fun x => s ≤ x && x ≤ t)).length : K) ≤ c + r * (t - s) := by
  induction ts with
  | nil =>
      intro b hb _
      have hcap : 0 ≤ c := le_trans hb.1 hb.2
      have hgain : 0 ≤ r * (t - s) := mul_nonneg hr (sub_nonneg.mpr hst)
      simpa [admitted] using add_nonneg hcap hgain
  | cons now later ih =>
      intro b hb hsorted
      obtain ⟨hnow, hlater⟩ := List.pairwise_cons.mp hsorted
      have hsound : Sound c (attempt c r b now).2 := attempt_sound hr hb
      rw [length_admitted_cons, Nat.cast_add]
      by_cases hs : s ≤ now
      · -- from the first attempt of the interval on, the later ones live on what it leaves
        have hwindow : ((admitted (attempt c r) (attempt c r b now).2 later).filter (fun x => s ≤ x && x ≤ t)) =
            (admitted (attempt c r) (attempt c r b now).2 later).filter (· ≤ t) := by
          apply List.filter_congr
          intro x hx
          have hge : s ≤ x := le_trans hs (hnow x ((admitted_sublist later _).subset hx))
          simp [hge]
        rw [hwindow]
        by_cases ht : now ≤ t
        · have hrest := admitted_le_credit hr (t := t) later (attempt c r b now).2 hsound
            (by simpa using ht) (by simpa using hnow) hlater
          have haccount : (attempt c r b now).2.tokens + ((attempt c r b now).1.toNat : K) = refilled c r b now :=
            attempt_account
          have hcap : refilled c r b now ≤ c := refilled_le_capacity
          have hshorter : r * (t - now) ≤ r * (t - s) :=
            mul_le_mul_of_nonneg_left (sub_le_sub_left hs t) hr
          rw [attempt_last] at hrest
          simp only [hs, ht, decide_true, Bool.and_true]
          linarith
        · have hrest := ih (attempt c r b now).2 hsound hlater
          rw [hwindow] at hrest
          simpa [ht] using hrest
      · simpa [hs] using ih (attempt c r b now).2 hsound hlater

/-! ## A bucket inside a system -/

/-- The bound of a bucket for what a system lets through. -/
theorem tally_within {σ ι : Type*} {step : σ → ι → σ} {C : σ → ι → Prop} (level : σ → Level K)
    (time : σ → ι → Option K) {clock : ι → Option K} {won : σ → ι → Bool}
    (hother : ∀ s i, C s i → time s i = none → level (step s i) = level s)
    (hown : ∀ s i now, C s i → time s i = some now →
      won s i = (attempt c r (level s) now).1 ∧ level (step s i) = (attempt c r (level s) now).2)
    (hclock : ∀ s i now, time s i = some now → clock i = some now)
    (hr : 0 ≤ r) {lo hi : K} (hle : lo ≤ hi) {s : σ} {is : List ι} (hsound : Sound c (level s))
    (halong : Along step C s is) (hsorted : (is.filterMap clock).Pairwise (· ≤ ·)) :
    ((tally step (fun s i => won s i && (time s i).any fun x => lo ≤ x && x ≤ hi) s is : Nat) : K) ≤
      c + r * (hi - lo) := by
  rw [tally_eq_admitted (attempt c r) hother hown (fun x => lo ≤ x && x ≤ hi) is s halong]
  have hsub := attempts_sublist step hclock is s
  exact admitted_within hr hle (attempts step time s is) (level s) hsound (hsorted.sublist hsub)

end TokenBucket
