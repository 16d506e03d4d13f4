import CompanyFactory.Orchestrator.RateLimit
import CompanyFactory.Lib.TokenBucket

/-!
# `Orchestrator.Rates` — runs of the senders' rate limiter

A run is a list of calls of `configure` and `try_consume`, for any agents in any order.

* `taken_within` — between two calls of `configure` for an agent, with the configuration unchanged, the agent takes no
  more tokens in an interval than its bucket can give.
* `configure_is_local` — a call of `configure` is felt by its own agent only, if it passes the configuration that the
  limiter already has. `configure` writes the limiter's one configuration: whatever else it passes is read by the next
  call of every agent (`configure_felt_by_others`).
-/

namespace CompanyFactory

namespace Orchestrator

namespace RateLimiter

open Machine TokenBucket

inductive Label where
  | configure (agent_id : String) (cfg : RateLimitConfig) (now : Rat)
  | try_consume (agent_id : String) (now : Rat)

def step (limiter : RateLimiter) : Label → RateLimiter
  | .configure agent_id cfg now => limiter.configure agent_id cfg now
  | .try_consume agent_id now => (limiter.try_consume agent_id now).2

/-- The time of a call for the agent that may take a token. -/
def attempt_time (agent_id : String) : Label → Option Rat
  | .configure _ _ _ => none
  | .try_consume a now => if a = agent_id then some now else none

/-- The call is one of the agent, and it takes a token. -/
def takes (agent_id : String) (limiter : RateLimiter) : Label → Bool
  | .configure _ _ _ => false
  | .try_consume a now => decide (a = agent_id) && (limiter.try_consume a now).1

/-- How many tokens the agent takes in a run between two times. -/
def taken (agent_id : String) (limiter : RateLimiter) (is : List Label) (lo hi : Rat) : Nat :=
  tally step (fun l i => takes agent_id l i && (attempt_time agent_id i).any fun x => lo ≤ x && x ≤ hi) limiter is

/-- The bucket of an agent; one that was never used is as good as full. -/
def level (agent_id : String) (limiter : RateLimiter) : Level Rat :=
  match limiter.buckets agent_id with
  | some bucket => ⟨bucket.tokens, bucket.last⟩
  | none => ⟨limiter.cfg.capacity, 0⟩

variable {limiter : RateLimiter} {cfg : RateLimitConfig} {agent_id : String}

/-! ## One call -/

@[simp] theorem try_consume_cfg (a : String) (now : Rat) : (limiter.try_consume a now).2.cfg = limiter.cfg := by
  unfold try_consume
  dsimp only
  split <;> rfl

theorem try_consume_buckets_of_ne {a b : String} (h : b ≠ a) (now : Rat) :
    (limiter.try_consume a now).2.buckets b = limiter.buckets b := by
  unfold try_consume
  dsimp only
  split <;> exact Function.update_of_ne h _ _

theorem configure_buckets_of_ne {a b : String} (h : b ≠ a) (now : Rat) :
    (limiter.configure a cfg now).buckets b = limiter.buckets b := Function.update_of_ne h _ _

/-- The refill is the one of the agent's bucket. -/
theorem refilled_eq (hrate : 0 ≤ limiter.cfg.refill_per_second) (now : Rat) :
    limiter.refilled agent_id now =
      TokenBucket.refilled (limiter.cfg.capacity : Rat) limiter.cfg.refill_per_second (level agent_id limiter) now := by
  cases hb : limiter.buckets agent_id with
  | some bucket => simp only [refilled, TokenBucket.refilled, level, hb, Option.getD_some]
  | none =>
      -- a bucket made on the spot is full, and so is one that was never used
      rw [refilled_full hrate (by simp [level, hb])]
      simp [refilled, hb]

/-- A call of the agent is an attempt on its bucket. -/
theorem try_consume_own (agent_id : String) (hrate : 0 ≤ limiter.cfg.refill_per_second) (now : Rat) :
    (limiter.try_consume agent_id now).1 =
        (attempt (limiter.cfg.capacity : Rat) limiter.cfg.refill_per_second (level agent_id limiter) now).1 ∧
      level agent_id (limiter.try_consume agent_id now).2 =
        (attempt (limiter.cfg.capacity : Rat) limiter.cfg.refill_per_second (level agent_id limiter) now).2 := by
  unfold attempt
  rw [← refilled_eq hrate now]
  by_cases hone : 1 ≤ limiter.refilled agent_id now
  · rw [if_pos hone]
    simp [try_consume, hone, level]
  · rw [if_neg hone]
    simp [try_consume, hone, level]

theorem level_congr {l l' : RateLimiter} (hcfg : l'.cfg = l.cfg) (h : l'.buckets agent_id = l.buckets agent_id) :
    level agent_id l' = level agent_id l := by
  unfold level
  rw [hcfg, h]

/-! ## The bound of the buckets -/

/-- No bucket is in debt or above the capacity. -/
def Sound (limiter : RateLimiter) : Prop :=
  ∀ agent_id, TokenBucket.Sound (limiter.cfg.capacity : Rat) (level agent_id limiter)

theorem fresh_sound : (fresh cfg).Sound := fun _ => ⟨Nat.cast_nonneg _, le_refl _⟩

/-- The call leaves the configuration as it is. -/
def Keeps (cfg : RateLimitConfig) : Label → Prop
  | .configure _ cfg' _ => cfg' = cfg
  | .try_consume _ _ => True

theorem step_sound {i : Label} (hrate : 0 ≤ limiter.cfg.refill_per_second) (hkeeps : Keeps limiter.cfg i)
    (h : limiter.Sound) : (step limiter i).cfg = limiter.cfg ∧ (step limiter i).Sound := by
  cases i with
  | configure a cfg' now =>
      obtain rfl : cfg' = limiter.cfg := hkeeps
      refine ⟨rfl, fun b => ?_⟩
      by_cases hb : b = a
      · subst hb
        simp [step, configure, level, TokenBucket.Sound]
      · have hsame : level b (limiter.configure a limiter.cfg now) = level b limiter :=
          level_congr rfl (configure_buckets_of_ne hb now)
        rw [step, hsame]
        exact h b
  | try_consume a now =>
      refine ⟨try_consume_cfg a now, fun b => ?_⟩
      rw [step, try_consume_cfg]
      by_cases hb : b = a
      · subst hb
        rw [(try_consume_own _ hrate now).2]
        exact attempt_sound hrate (h b)
      · rw [level_congr (try_consume_cfg a now) (try_consume_buckets_of_ne hb now)]
        exact h b

theorem exec_sound (limiter : RateLimiter) (hrate : 0 ≤ limiter.cfg.refill_per_second) (h : limiter.Sound)
    {is : List Label} (hkeeps : ∀ i ∈ is, Keeps limiter.cfg i) :
    (exec step limiter is).cfg = limiter.cfg ∧ (exec step limiter is).Sound := by
  induction is generalizing limiter with
  | nil => exact ⟨rfl, h⟩
  | cons i is ih =>
      obtain ⟨hcfg, hsound⟩ := step_sound hrate (hkeeps i List.mem_cons_self) h
      have hrest := ih _ (hcfg ▸ hrate) hsound fun j hj => hcfg ▸ hkeeps j (List.mem_cons_of_mem i hj)
      rw [hcfg] at hrest
      exact hrest

/-- The call does not give the agent a new bucket. -/
def Spares (agent_id : String) : Label → Prop
  | .configure a _ _ => a ≠ agent_id
  | .try_consume _ _ => True

/-- **The bound for an agent.** While the configuration stays and the agent is not configured anew, the tokens it
    takes within an interval are at most the capacity and what the interval adds. -/
theorem taken_within (hrate : 0 ≤ limiter.cfg.refill_per_second) (h : limiter.Sound) {is : List Label}
    (hkeeps : ∀ i ∈ is, Keeps limiter.cfg i) (hspares : ∀ i ∈ is, Spares agent_id i)
    (hsorted : (is.filterMap (attempt_time agent_id)).Pairwise (· ≤ ·)) {lo hi : Rat} (hle : lo ≤ hi) :
    (taken agent_id limiter is lo hi : Rat) ≤ limiter.cfg.capacity + limiter.cfg.refill_per_second * (hi - lo) := by
  -- along the run the configuration is the one at its start
  have halong : Along step (fun l i => l.cfg = limiter.cfg ∧ Keeps limiter.cfg i ∧ Spares agent_id i)
      limiter is := by
    rw [along_iff_cut]
    rintro pre i post rfl
    have hpre : ∀ j ∈ pre, Keeps limiter.cfg j := fun j hj => hkeeps j (List.mem_append_left _ hj)
    exact ⟨(exec_sound limiter hrate h hpre).1, hkeeps i (by simp), hspares i (by simp)⟩
  -- the calls that are no attempts of the agent, then its attempts
  refine tally_within (level agent_id) (fun _ => attempt_time agent_id) ?_ ?_ (fun _ _ _ h => h) hrate hle (h agent_id)
    halong hsorted
  · rintro l i ⟨hcfg, hkeep, hspare⟩ hnone
    cases i with
    | configure a cfg' now =>
        exact level_congr (Eq.trans hkeep hcfg.symm) (configure_buckets_of_ne (Ne.symm hspare) now)
    | try_consume a now =>
        have ha : a ≠ agent_id := by
          rintro rfl
          simp [attempt_time] at hnone
        exact level_congr (try_consume_cfg a now) (try_consume_buckets_of_ne ha.symm now)
  · rintro l i now ⟨hcfg, -, -⟩ hsome
    cases i with
    | configure a cfg' now' => simp [attempt_time] at hsome
    | try_consume a now' =>
        simp only [attempt_time, Option.ite_none_right_eq_some, Option.some.injEq] at hsome
        obtain ⟨rfl, rfl⟩ := hsome
        have hrate' : 0 ≤ l.cfg.refill_per_second := hcfg ▸ hrate
        have hown := try_consume_own a hrate' now'
        rw [hcfg] at hown
        exact ⟨by simpa [takes] using hown.1, hown.2⟩

/-! ## What the other agents see of a configuration -/

/-- What the calls of an agent return. -/
def outcomes (agent_id : String) : RateLimiter → List Label → List Bool
  | _, [] => []
  | limiter, .configure a cfg now :: is => outcomes agent_id (limiter.configure a cfg now) is
  | limiter, .try_consume a now :: is =>
    if a = agent_id then (limiter.try_consume a now).1 :: outcomes agent_id (limiter.try_consume a now).2 is
    else outcomes agent_id (limiter.try_consume a now).2 is

theorem outcomes_append (agent_id : String) (is js : List Label) :
    ∀ limiter, outcomes agent_id limiter (is ++ js) =
      outcomes agent_id limiter is ++ outcomes agent_id (exec step limiter is) js := by
  induction is with
  | nil => intro limiter; rfl
  | cons i is ih =>
      intro limiter
      cases i with
      | configure a cfg now => exact ih (limiter.configure a cfg now)
      | try_consume a now =>
          have hrest := ih (limiter.try_consume a now).2
          by_cases ha : a = agent_id
          · simp only [List.cons_append, outcomes, if_pos ha, hrest, exec_cons, step]
          · simp only [List.cons_append, outcomes, if_neg ha, hrest, exec_cons, step]

/-- Two limiters that differ in the bucket of one agent only. -/
def AgreeOff (agent_id : String) (l l' : RateLimiter) : Prop :=
  l.cfg = l'.cfg ∧ ∀ b, b ≠ agent_id → l.buckets b = l'.buckets b

/-- Writing the configuration that is there changes nothing but the agent's bucket. -/
theorem agreeOff_configure (agent_id : String) (now : Rat) :
    AgreeOff agent_id (limiter.configure agent_id limiter.cfg now) limiter :=
  ⟨rfl, fun _ hb => configure_buckets_of_ne hb now⟩

theorem refilled_congr {l l' : RateLimiter} (hcfg : l.cfg = l'.cfg) {b : String} (hb : l.buckets b = l'.buckets b)
    (now : Rat) : l.refilled b now = l'.refilled b now := by
  unfold refilled
  rw [hcfg, hb]

/-- Limiters with the same configuration and the same bucket answer a call alike, and leave the same bucket. -/
theorem try_consume_congr {l l' : RateLimiter} (hcfg : l.cfg = l'.cfg) {b : String}
    (hb : l.buckets b = l'.buckets b) (now : Rat) :
    (l.try_consume b now).1 = (l'.try_consume b now).1 ∧
      (l.try_consume b now).2.buckets b = (l'.try_consume b now).2.buckets b := by
  unfold try_consume
  rw [refilled_congr hcfg hb now]
  dsimp only
  split <;> simp

theorem AgreeOff.step {l l' : RateLimiter} (h : AgreeOff agent_id l l') (i : Label) :
    AgreeOff agent_id (step l i) (step l' i) := by
  obtain ⟨hcfg, hbuckets⟩ := h
  cases i with
  | configure a cfg now =>
      refine ⟨rfl, fun b hb => ?_⟩
      show Function.update l.buckets a _ b = Function.update l'.buckets a _ b
      by_cases hba : b = a
      · rw [hba, Function.update_self, Function.update_self]
      · rw [Function.update_of_ne hba, Function.update_of_ne hba, hbuckets b hb]
  | try_consume a now =>
      refine ⟨by simpa [RateLimiter.step] using hcfg, fun b hb => ?_⟩
      show (l.try_consume a now).2.buckets b = (l'.try_consume a now).2.buckets b
      by_cases hba : b = a
      · subst hba
        exact (try_consume_congr hcfg (hbuckets b hb) now).2
      · rw [try_consume_buckets_of_ne hba, try_consume_buckets_of_ne hba, hbuckets b hb]

/-- In runs from such limiters, the other agents see the same. -/
theorem AgreeOff.outcomes {b : String} (hb : b ≠ agent_id) (is : List Label) :
    ∀ {l l' : RateLimiter}, AgreeOff agent_id l l' → outcomes b l is = outcomes b l' is := by
  induction is with
  | nil => intro l l' _; rfl
  | cons i is ih =>
      intro l l' h
      have hrest := ih (h.step i)
      cases i with
      | configure a cfg now => exact hrest
      | try_consume a now =>
          simp only [RateLimiter.step] at hrest
          by_cases ha : a = b
          · subst ha
            have hsame := (try_consume_congr h.1 (h.2 a hb) now).1
            simp only [RateLimiter.outcomes, if_pos, hsame, hrest]
          · simp only [RateLimiter.outcomes, if_neg ha, hrest]

/-- **A configuration that is there already is felt by its agent only.** In every run, a call of `configure` that
    passes the configuration in force can be left out without changing what any other agent's calls return. -/
theorem configure_is_local {pre post : List Label} {a : String} {now : Rat}
    (hcfg : cfg = (exec step limiter pre).cfg) {b : String} (hb : b ≠ a) :
    outcomes b limiter (pre ++ .configure a cfg now :: post) = outcomes b limiter (pre ++ post) := by
  subst hcfg
  rw [outcomes_append, outcomes_append]
  exact congrArg _ ((agreeOff_configure a now).outcomes hb post)

theorem configure_is_local_again :
    outcomes "b" (fresh {}) ([.try_consume "b" 0] ++ .configure "a" {} 1 :: [.try_consume "b" 1, .try_consume "a" 1]) =
      outcomes "b" (fresh {}) ([.try_consume "b" 0] ++ [.try_consume "b" 1, .try_consume "a" 1]) :=
  configure_is_local (by decide +kernel) (by decide)

/-- A sender set to a burst of one leaves every other sender with a burst of one. -/
theorem configure_caps_the_others :
    ¬ ∀ (limiter : RateLimiter) (a b : String) (cfg : RateLimitConfig) (now : Rat) (post : List Label), b ≠ a →
      outcomes b limiter (.configure a cfg now :: post) = outcomes b limiter post := by
  intro h
  have hsame := h (fresh {}) "a" "b" { capacity := 1 } 0 [.try_consume "b" 0, .try_consume "b" 0] (by decide)
  exact absurd hsame (by decide +kernel)

/-! ### Every other configuration is felt -/

/-- Right after a call, what the call left is still there. -/
theorem try_consume_of_one_le {n : Nat} {now : Rat} (h : limiter.refilled agent_id now = (n + 1 : Nat)) :
    (limiter.try_consume agent_id now).1 = true ∧
      (limiter.try_consume agent_id now).2.buckets agent_id = some ⟨n, now⟩ := by
  have hone : 1 ≤ limiter.refilled agent_id now := by
    rw [h]
    exact_mod_cast Nat.succ_le_succ (Nat.zero_le n)
  have hrest : limiter.refilled agent_id now - 1 = n := by
    rw [h]
    push_cast
    ring
  unfold try_consume
  dsimp only
  rw [if_pos hone]
  exact ⟨rfl, by simp [hrest]⟩

theorem refilled_at_once {n : Nat} {now : Rat} (hb : limiter.buckets agent_id = some ⟨n, now⟩)
    (hn : n ≤ limiter.cfg.capacity) : limiter.refilled agent_id now = n := by
  have hle : (n : Rat) ≤ limiter.cfg.capacity := by exact_mod_cast hn
  simp [refilled, hb, hle]

theorem refilled_unused (hb : limiter.buckets agent_id = none) (now : Rat) :
    limiter.refilled agent_id now = limiter.cfg.capacity := by
  simp [refilled, hb]

/-- As many calls at one time as the bucket holds tokens all succeed, and empty it. -/
theorem drain (n k : Nat) (now : Rat) :
    ∀ limiter : RateLimiter, limiter.refilled agent_id now = (n + k : Nat) → n + k ≤ limiter.cfg.capacity →
      outcomes agent_id limiter (List.replicate n (.try_consume agent_id now)) = List.replicate n true ∧
      (exec step limiter (List.replicate n (.try_consume agent_id now))).cfg = limiter.cfg ∧
      (exec step limiter (List.replicate n (.try_consume agent_id now))).refilled agent_id now = k ∧
      (0 < n →
        (exec step limiter (List.replicate n (.try_consume agent_id now))).buckets agent_id = some ⟨k, now⟩) := by
  induction n with
  | zero =>
      intro limiter h hle
      refine ⟨rfl, rfl, by simpa using h, fun hlt => absurd hlt (Nat.lt_irrefl 0)⟩
  | succ n ih =>
      intro limiter h hle
      obtain ⟨hok, hb⟩ := try_consume_of_one_le (n := n + k) (by rw [h, Nat.add_right_comm])
      have hcfg : (limiter.try_consume agent_id now).2.cfg = limiter.cfg := try_consume_cfg agent_id now
      have hroom : n + k ≤ (limiter.try_consume agent_id now).2.cfg.capacity := by
        rw [hcfg]
        omega
      -- no time passes, so nothing is refilled
      obtain ⟨hall, hcfg', hleft, hbucket⟩ := ih _ (refilled_at_once hb hroom) hroom
      simp only [List.replicate_succ, outcomes, if_pos, exec_cons, step]
      refine ⟨by rw [hok, hall], hcfg'.trans hcfg, hleft, fun _ => ?_⟩
      cases n with
      | zero => simpa using hb
      | succ n => exact hbucket (Nat.succ_pos n)

/-- An emptied bucket has what it gained since. -/
theorem refilled_of_empty {now : Rat} (hb : limiter.buckets agent_id = some ⟨(0 : Nat), 0⟩) (hnow : 0 ≤ now) :
    limiter.refilled agent_id now = min (limiter.cfg.capacity : Rat) (now * limiter.cfg.refill_per_second) := by
  simp [refilled, hb, max_eq_right hnow]

/-- One more call, made when the bucket is down to less than a token, fails. -/
theorem try_consume_of_lt_one {now : Rat} (h : limiter.refilled agent_id now < 1) :
    (limiter.try_consume agent_id now).1 = false := by
  unfold try_consume
  dsimp only
  rw [if_neg (not_le.mpr h)]

/-- A smaller capacity shows in a burst of one call more. -/
theorem felt_by_capacity {l l' : RateLimiter} (hb : l.buckets agent_id = none) (hb' : l'.buckets agent_id = none)
    (hlt : l.cfg.capacity < l'.cfg.capacity) : ∃ is, outcomes agent_id l is ≠ outcomes agent_id l' is := by
  refine ⟨List.replicate l.cfg.capacity (.try_consume agent_id 0) ++ [.try_consume agent_id 0], fun heq => ?_⟩
  obtain ⟨hall, -, hleft, -⟩ := drain l.cfg.capacity 0 0 l (refilled_unused hb 0) (le_refl _)
  obtain ⟨hall', -, hleft', -⟩ := drain l.cfg.capacity (l'.cfg.capacity - l.cfg.capacity) 0 l'
    (by rw [refilled_unused hb' 0, Nat.add_sub_cancel' (le_of_lt hlt)]) (by omega)
  rw [outcomes_append, outcomes_append, hall, hall'] at heq
  have hlast := List.append_cancel_left heq
  simp only [outcomes, if_pos, List.cons.injEq, and_true] at hlast
  -- the last call finds nothing in the smaller bucket, and a token in the other
  rw [try_consume_of_lt_one (by rw [hleft]; norm_num)] at hlast
  have hsome : l'.cfg.capacity - l.cfg.capacity = (l'.cfg.capacity - l.cfg.capacity - 1) + 1 := by omega
  rw [hsome] at hleft'
  rw [(try_consume_of_one_le hleft').1] at hlast
  exact Bool.false_ne_true hlast

/-- A slower refill shows when the other one has made its first token. -/
theorem felt_by_rate {l l' : RateLimiter} (hb : l.buckets agent_id = none) (hb' : l'.buckets agent_id = none)
    (hcap : l.cfg.capacity = l'.cfg.capacity) (hone : 1 ≤ l.cfg.capacity)
    (hrate : 0 ≤ l.cfg.refill_per_second) (hlt : l.cfg.refill_per_second < l'.cfg.refill_per_second) :
    ∃ is, outcomes agent_id l is ≠ outcomes agent_id l' is := by
  have hpos : 0 < l'.cfg.refill_per_second := lt_of_le_of_lt hrate hlt
  refine ⟨List.replicate l.cfg.capacity (.try_consume agent_id 0) ++
    [.try_consume agent_id (1 / l'.cfg.refill_per_second)], fun heq => ?_⟩
  obtain ⟨hall, hcfg, -, hempty⟩ := drain l.cfg.capacity 0 0 l (refilled_unused hb 0) (le_refl _)
  obtain ⟨hall', hcfg', -, hempty'⟩ := drain l.cfg.capacity 0 0 l' (by rw [hcap]; exact refilled_unused hb' 0)
    (le_of_eq hcap)
  rw [outcomes_append, outcomes_append, hall, hall'] at heq
  have hlast := List.append_cancel_left heq
  simp only [outcomes, if_pos, List.cons.injEq, and_true] at hlast
  have hwait : 0 ≤ 1 / l'.cfg.refill_per_second := le_of_lt (one_div_pos.mpr hpos)
  have hone' : (1 : Rat) ≤ l'.cfg.capacity := by
    rw [← hcap]
    exact_mod_cast hone
  rw [try_consume_of_lt_one, (try_consume_of_one_le (n := 0) _).1] at hlast
  · exact Bool.false_ne_true hlast
  · rw [refilled_of_empty (hempty' hone) hwait, hcfg', one_div_mul_cancel hpos.ne', min_eq_right hone']
    norm_num
  · rw [refilled_of_empty (hempty hone) hwait, hcfg, one_div_mul_eq_div]
    exact lt_of_le_of_lt (min_le_right _ _) ((div_lt_one hpos).mpr hlt)

/-- **Every other configuration is felt by everyone else.** If `configure` passes something else than the
    configuration in force, an agent that has not called yet can tell. -/
theorem configure_felt_by_others {a b : String} {now : Rat} (hb : limiter.buckets b = none) (hba : b ≠ a)
    (hcap : 1 ≤ limiter.cfg.capacity) (hcap' : 1 ≤ cfg.capacity) (hrate : 0 ≤ limiter.cfg.refill_per_second)
    (hrate' : 0 ≤ cfg.refill_per_second) (hne : cfg ≠ limiter.cfg) :
    ∃ post, outcomes b limiter (.configure a cfg now :: post) ≠ outcomes b limiter post := by
  have hb' : (limiter.configure a cfg now).buckets b = none := (configure_buckets_of_ne hba now).trans hb
  show ∃ post, outcomes b (limiter.configure a cfg now) post ≠ outcomes b limiter post
  rcases Nat.lt_trichotomy cfg.capacity limiter.cfg.capacity with hlt | heq | hgt
  · exact felt_by_capacity hb' hb hlt
  · have hrates : cfg.refill_per_second ≠ limiter.cfg.refill_per_second := by
      intro h
      apply hne
      cases cfg
      cases hcfg : limiter.cfg
      simp_all
    rcases lt_or_gt_of_ne hrates with hlt | hgt
    · exact felt_by_rate hb' hb heq hcap' hrate' hlt
    · obtain ⟨post, hpost⟩ := felt_by_rate hb hb' heq.symm hcap hrate hgt
      exact ⟨post, hpost.symm⟩
  · obtain ⟨post, hpost⟩ := felt_by_capacity hb hb' hgt
    exact ⟨post, hpost.symm⟩

end RateLimiter

end Orchestrator

end CompanyFactory
