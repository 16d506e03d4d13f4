import CompanyFactory.Connector.Models
import CompanyFactory.Orchestrator.Rates

/-!
# `Connector.Rates` — runs of the connector's rate limiter

The connector keeps a configuration with every bucket, and a key without one is unlimited. A run is a list of calls of
`configure` and `acquire`, for any keys in any order.

* `acquired_within` — between two calls of `configure` for a key, its tokens that are taken in an interval are at most
  what its bucket can give.
* `token_bucket_bound` — the bound for this limiter and for the one of the senders.
-/

namespace CompanyFactory

namespace RateLimiter

open Machine TokenBucket

inductive Label where
  | configure (key : String) (limit : RateLimit) (now : Rat)
  | acquire (key : String) (now : Rat)

/-- A limiter that knows no key. -/
def empty : RateLimiter := { configs := fun _ => none, buckets := fun _ => none }

def step (limiter : RateLimiter) : Label → RateLimiter
  | .configure key limit now => limiter.configure key limit now
  | .acquire key now => (limiter.acquire key now).2

/-- The time of a call that may take a token of the key. -/
def attempt_time (key : String) : Label → Option Rat
  | .configure _ _ _ => none
  | .acquire k now => if k = key then some now else none

/-- The call takes a token of the key. -/
def takes (key : String) (limiter : RateLimiter) : Label → Bool
  | .configure _ _ _ => false
  | .acquire k now => decide (k = key) && (limiter.acquire k now).1.isOk

/-- How many tokens of the key are taken in a run between two times. -/
def taken (key : String) (limiter : RateLimiter) (is : List Label) (lo hi : Rat) : Nat :=
  tally step (fun l i => takes key l i && (attempt_time key i).any fun x => lo ≤ x && x ≤ hi) limiter is

variable {limiter : RateLimiter} {key : String} {limit : RateLimit}

/-! ## One call -/

/-- The key is configured, and its bucket is neither in debt nor above the capacity. -/
def Holds (key : String) (limit : RateLimit) (limiter : RateLimiter) : Prop :=
  limiter.configs key = some limit ∧
    ∃ bucket, limiter.buckets key = some bucket ∧ TokenBucket.Sound (limit.capacity : Rat) ⟨bucket.tokens, bucket.last⟩

/-- The bucket of a configured key. -/
def level (key : String) (limiter : RateLimiter) : Level Rat :=
  match limiter.buckets key with
  | some bucket => ⟨bucket.tokens, bucket.last⟩
  | none => ⟨0, 0⟩

theorem configure_holds (now : Rat) : Holds key limit (limiter.configure key limit now) := by
  refine ⟨by simp [configure], ⟨limit.capacity, now⟩, by simp [configure], ?_⟩
  exact ⟨Nat.cast_nonneg _, le_refl _⟩

/-- A call for another key leaves the key alone. -/
theorem acquire_of_ne (limiter : RateLimiter) {k : String} (h : key ≠ k) (now : Rat) :
    (limiter.acquire k now).2.configs = limiter.configs ∧
      (limiter.acquire k now).2.buckets key = limiter.buckets key := by
  unfold acquire
  split
  · dsimp only
    split <;> exact ⟨rfl, Function.update_of_ne h _ _⟩
  · exact ⟨rfl, rfl⟩

/-- A call for a configured key is an attempt on its bucket. -/
theorem acquire_own {bucket : Bucket} (hlimit : limiter.configs key = some limit)
    (hbucket : limiter.buckets key = some bucket) (now : Rat) :
    (limiter.acquire key now).1.isOk =
        (attempt (limit.capacity : Rat) limit.refill_per_second ⟨bucket.tokens, bucket.last⟩ now).1 ∧
      (limiter.acquire key now).2.configs = limiter.configs ∧
      ∃ after, (limiter.acquire key now).2.buckets key = some after ∧ Level.mk after.tokens after.last =
        (attempt (limit.capacity : Rat) limit.refill_per_second ⟨bucket.tokens, bucket.last⟩ now).2 := by
  simp only [acquire, hlimit, hbucket]
  by_cases hone : 1 ≤ TokenBucket.refilled (limit.capacity : Rat) limit.refill_per_second
      ⟨bucket.tokens, bucket.last⟩ now
  · have hlt : ¬ min (limit.capacity : Rat) (bucket.tokens + max 0 (now - bucket.last) * limit.refill_per_second) < 1 :=
      not_lt.mpr hone
    rw [if_neg hlt, attempt, if_pos hone]
    exact ⟨rfl, rfl, _, Function.update_self _ _ _, rfl⟩
  · have hlt : min (limit.capacity : Rat) (bucket.tokens + max 0 (now - bucket.last) * limit.refill_per_second) < 1 :=
      not_le.mp hone
    rw [if_pos hlt, attempt, if_neg hone]
    exact ⟨rfl, rfl, _, Function.update_self _ _ _, rfl⟩

/-- The call does not configure the key. -/
def Spares (key : String) : Label → Prop
  | .configure k _ _ => k ≠ key
  | .acquire _ _ => True

theorem step_holds {i : Label} (hrate : 0 ≤ limit.refill_per_second) (hspares : Spares key i)
    (h : Holds key limit limiter) : Holds key limit (step limiter i) := by
  obtain ⟨hlimit, bucket, hbucket, hsound⟩ := h
  cases i with
  | configure k limit' now =>
      have hk : key ≠ k := Ne.symm hspares
      refine ⟨?_, bucket, ?_, hsound⟩
      · rw [← hlimit]
        exact Function.update_of_ne hk _ _
      · rw [← hbucket]
        exact Function.update_of_ne hk _ _
  | acquire k now =>
      by_cases hk : key = k
      · subst hk
        obtain ⟨-, hconfigs, after, hafter, heq⟩ := acquire_own hlimit hbucket now
        refine ⟨by rw [step, hconfigs, hlimit], after, hafter, ?_⟩
        rw [heq]
        exact attempt_sound hrate hsound
      · obtain ⟨hconfigs, hbuckets⟩ := acquire_of_ne limiter hk now
        exact ⟨by rw [step, hconfigs, hlimit], bucket, by rw [step, hbuckets, hbucket], hsound⟩

/-- **The bound for a key.** While the key is not configured anew, its tokens that are taken within an interval are at
    most the capacity and what the interval adds. -/
theorem acquired_within (hrate : 0 ≤ limit.refill_per_second) (h : Holds key limit limiter) {is : List Label}
    (hspares : ∀ i ∈ is, Spares key i) (hsorted : (is.filterMap (attempt_time key)).Pairwise (· ≤ ·)) {lo hi : Rat}
    (hle : lo ≤ hi) : (taken key limiter is lo hi : Rat) ≤ limit.capacity + limit.refill_per_second * (hi - lo) := by
  have hsound : TokenBucket.Sound (limit.capacity : Rat) (level key limiter) := by
    obtain ⟨-, bucket, hbucket, hsound⟩ := h
    simpa [level, hbucket] using hsound
  have halong : Along step (fun l i => Holds key limit l ∧ Spares key i) limiter is :=
    Along.with_invariant (fun l i hl hi => step_holds hrate hi hl) h
      (along_iff_cut.mpr fun pre i post heq => hspares i (by simp [heq]))
  -- the two goals: the other calls leave the bucket alone, and a call for the key is an attempt on it
  refine tally_within (level key) (fun _ => attempt_time key) ?_ ?_ (fun _ _ _ h => h) hrate hle hsound
    halong hsorted
  · rintro l i ⟨-, hspare⟩ hnone
    cases i with
    | configure k limit' now =>
        have hsame : (l.configure k limit' now).buckets key = l.buckets key :=
          Function.update_of_ne (Ne.symm hspare) _ _
        simp only [level, step, hsame]
    | acquire k now =>
        have hk : key ≠ k := by
          rintro rfl
          simp [attempt_time] at hnone
        have hsame := (acquire_of_ne l hk now).2
        simp only [level, step, hsame]
  · rintro l i now ⟨⟨hlimit, bucket, hbucket, -⟩, -⟩ hsome
    cases i with
    | configure k limit' now' => simp [attempt_time] at hsome
    | acquire k now' =>
        simp only [attempt_time, Option.ite_none_right_eq_some, Option.some.injEq] at hsome
        obtain ⟨rfl, rfl⟩ := hsome
        obtain ⟨hok, -, after, hafter, heq⟩ := acquire_own hlimit hbucket now'
        simp only [takes, level, step, hbucket, hafter, decide_true, Bool.true_and]
        exact ⟨hok, heq⟩

/-- In every reachable state, each key that is configured with a refill holds. -/
theorem exec_holds (is : List Label) : ∀ key limit, (exec step empty is).configs key = some limit →
    0 ≤ limit.refill_per_second → Holds key limit (exec step empty is) := by
  have hstep : ∀ (l : RateLimiter) (i : Label),
      (∀ key limit, l.configs key = some limit → 0 ≤ limit.refill_per_second → Holds key limit l) →
      ∀ key limit, (step l i).configs key = some limit → 0 ≤ limit.refill_per_second →
        Holds key limit (step l i) := by
    intro l i ih key limit hlimit hrate
    by_cases hspares : Spares key i
    · refine step_holds hrate hspares (ih key limit ?_ hrate)
      rw [← hlimit]
      cases i with
      | configure k limit' now => exact (Function.update_of_ne (Ne.symm hspares) _ _).symm
      | acquire k now =>
          show l.configs key = (l.acquire k now).2.configs key
          unfold acquire
          split
          · dsimp only
            split <;> rfl
          · rfl
    -- the key gets a full bucket, whatever it held
    · cases i with
      | configure k limit' now =>
          obtain rfl : k = key := not_not.mp hspares
          have heq : some limit' = some limit := by simpa [step, configure] using hlimit
          obtain rfl := Option.some.inj heq
          exact configure_holds now
      | acquire k now => exact absurd trivial hspares
  refine exec_invariant hstep (fun key limit hlimit _ => ?_) is
  exact absurd hlimit (by simp [empty])

/-! ## Both limiters -/

/-- A token bucket keeps its bounds: the tokens taken between two times, and the ones that it holds. -/
def Bounded (capacity : Nat) (rate : Rat) (taken : Rat → Rat → Nat) (bucket : Option Bucket) : Prop :=
  (∀ lo hi, lo ≤ hi → (taken lo hi : Rat) ≤ capacity + rate * (hi - lo)) ∧
    ∀ b, bucket = some b → 0 ≤ b.tokens ∧ b.tokens ≤ capacity

end RateLimiter

open Machine

/-- **The bound of a token bucket.** With a refill rate that is not negative: whatever was called before, and whatever
    the other keys do, a key takes no more tokens within an interval than its capacity and what the interval adds, and
    its bucket stays between zero and the capacity. The senders' limiter has one configuration for all agents, the
    connector's one for each key; `is` is any stretch of a run without a new configuration. -/
theorem token_bucket_bound :
    (∀ (cfg : Orchestrator.RateLimitConfig) (pre is : List Orchestrator.RateLimiter.Label) (agent_id : String),
      0 ≤ cfg.refill_per_second → (∀ i ∈ pre ++ is, Orchestrator.RateLimiter.Keeps cfg i) →
      (∀ i ∈ is, Orchestrator.RateLimiter.Spares agent_id i) →
      (is.filterMap (Orchestrator.RateLimiter.attempt_time agent_id)).Pairwise (· ≤ ·) →
      RateLimiter.Bounded cfg.capacity cfg.refill_per_second
        (Orchestrator.RateLimiter.taken agent_id
          (exec Orchestrator.RateLimiter.step (Orchestrator.RateLimiter.fresh cfg) pre) is)
        ((exec Orchestrator.RateLimiter.step (Orchestrator.RateLimiter.fresh cfg) (pre ++ is)).buckets agent_id)) ∧
    ∀ (limit : RateLimit) (pre is : List RateLimiter.Label) (key : String),
      0 ≤ limit.refill_per_second → (exec RateLimiter.step RateLimiter.empty pre).configs key = some limit →
      (∀ i ∈ is, RateLimiter.Spares key i) → (is.filterMap (RateLimiter.attempt_time key)).Pairwise (· ≤ ·) →
      RateLimiter.Bounded limit.capacity limit.refill_per_second
        (RateLimiter.taken key (exec RateLimiter.step RateLimiter.empty pre) is)
        ((exec RateLimiter.step RateLimiter.empty (pre ++ is)).buckets key) := by
  constructor
  · intro cfg pre is agent_id hrate hkeeps hspares hsorted
    have hbefore := Orchestrator.RateLimiter.exec_sound (Orchestrator.RateLimiter.fresh cfg) hrate
      Orchestrator.RateLimiter.fresh_sound fun i hi => hkeeps i (List.mem_append_left is hi)
    have hafter := Orchestrator.RateLimiter.exec_sound (Orchestrator.RateLimiter.fresh cfg) hrate
      Orchestrator.RateLimiter.fresh_sound hkeeps
    constructor
    · intro lo hi hle
      have hwithin := Orchestrator.RateLimiter.taken_within (by rw [hbefore.1]; exact hrate) hbefore.2
        (by rw [hbefore.1]; exact fun i hi => hkeeps i (List.mem_append_right pre hi)) hspares hsorted hle
      rwa [hbefore.1] at hwithin
    · intro bucket hbucket
      have hsound := hafter.2 agent_id
      rw [hafter.1, Orchestrator.RateLimiter.level, hbucket] at hsound
      exact hsound
  · intro limit pre is key hrate hlimit hspares hsorted
    have hholds := RateLimiter.exec_holds pre key limit hlimit hrate
    constructor
    · exact fun lo hi hle => RateLimiter.acquired_within hrate hholds hspares hsorted hle
    · intro b hb
      have hend : RateLimiter.Holds key limit (exec RateLimiter.step RateLimiter.empty (pre ++ is)) := by
        rw [exec_append]
        exact exec_invariant_along (fun l i hl hi => RateLimiter.step_holds hrate hi hl) hholds
          (along_iff_cut.mpr fun pre' i post heq => hspares i (by simp [heq]))
      obtain ⟨-, bucket, hbucket, hsound⟩ := hend
      obtain rfl := Option.some.inj (hbucket.symm.trans hb)
      exact hsound

/-- Two calls a second apart, on a bucket of one token that is refilled by one a second. -/
theorem token_bucket_bound_at_one :
    RateLimiter.Bounded 1 1
        (Orchestrator.RateLimiter.taken "a" (exec Orchestrator.RateLimiter.step (.fresh { capacity := 1 }) [])
          [.try_consume "a" 0, .try_consume "b" 0, .try_consume "a" 1])
        ((exec Orchestrator.RateLimiter.step (.fresh { capacity := 1 })
          ([] ++ [.try_consume "a" 0, .try_consume "b" 0, .try_consume "a" 1])).buckets "a") ∧
      RateLimiter.Bounded 1 1
        (RateLimiter.taken "k" (exec RateLimiter.step .empty [.configure "k" ⟨1, 1⟩ 0]) [.acquire "k" 0, .acquire "k" 1])
        ((exec RateLimiter.step .empty ([.configure "k" ⟨1, 1⟩ 0] ++ [.acquire "k" 0, .acquire "k" 1])).buckets "k") :=
  ⟨token_bucket_bound.1 { capacity := 1 } [] _ "a" (by decide +kernel)
      (by simp [Orchestrator.RateLimiter.Keeps]) (by simp [Orchestrator.RateLimiter.Spares])
      (by simp [Orchestrator.RateLimiter.attempt_time]),
    token_bucket_bound.2 ⟨1, 1⟩ [.configure "k" ⟨1, 1⟩ 0] _ "k" (by decide +kernel) (by decide +kernel)
      (by simp [RateLimiter.Spares]) (by simp [RateLimiter.attempt_time])⟩

/-- Nothing checks the refill rate, and a negative one drains a bucket below zero: of two calls five seconds apart the
    first one takes the token, which is more than `1 - 5`. -/
theorem token_bucket_drained :
    ¬ ∀ (cfg : Orchestrator.RateLimitConfig) (is : List Orchestrator.RateLimiter.Label) (agent_id : String),
      (∀ i ∈ is, Orchestrator.RateLimiter.Keeps cfg i) → (∀ i ∈ is, Orchestrator.RateLimiter.Spares agent_id i) →
      (is.filterMap (Orchestrator.RateLimiter.attempt_time agent_id)).Pairwise (· ≤ ·) →
      RateLimiter.Bounded cfg.capacity cfg.refill_per_second
        (Orchestrator.RateLimiter.taken agent_id (.fresh cfg) is)
        ((exec Orchestrator.RateLimiter.step (.fresh cfg) is).buckets agent_id) := by
  intro h
  have hbound := h ⟨1, -1⟩ [.try_consume "a" 0, .try_consume "a" 5] "a" (by simp [Orchestrator.RateLimiter.Keeps])
    (by simp [Orchestrator.RateLimiter.Spares]) (by simp [Orchestrator.RateLimiter.attempt_time])
  exact absurd (hbound.2 ⟨-5, 5⟩ (by decide +kernel)).1 (by decide +kernel)

end CompanyFactory
