import CompanyFactory.EventStore.Store
import CompanyFactory.Lib.Rounding

/-!
# `Orchestrator.HealthMonitor` — the health score of an agent

`compute_score` takes four penalties off a full score. The score and the penalties are doubles, and so are the two ratios
that are asked for: `3/10` is subtracted as the double next to it, and what is left is rounded again.

* `unhealthy_iff` — an agent is below the cutoff exactly if two of the four checks fail. **Two penalties of `0.3` are
  enough only because of the rounding**: they leave `0.39999999999999997`, and the cutoff is `0.4`.
-/

namespace CompanyFactory

namespace Orchestrator

open Rounding

/-- What an agent tells about itself. -/
structure HealthSignals where
  last_heartbeat : Time
  consecutive_errors : Nat := 0
  parse_failures : Nat := 0
  repeat_response_count : Nat := 0
  avg_turn_seconds : Rat := 0
  total_turns : Nat := 0
  deriving DecidableEq

/-- A span of minutes. -/
def minutes (n : Nat) : Time := n * 60 * 1000000

def UNHEALTHY_CUTOFF : Rat := double (4 / 10)

/-- `a / b` of two counters -/
def true_div (a b : Nat) : Rat := double (a / b)

namespace HealthSignals

def parse_rate (signals : HealthSignals) : Rat := true_div signals.parse_failures signals.total_turns

def repeat_ratio (signals : HealthSignals) : Rat := true_div signals.repeat_response_count signals.total_turns

/-! ## The checks -/

def many_errors (signals : HealthSignals) : Bool := 3 < signals.consecutive_errors

def misparsing (signals : HealthSignals) : Bool :=
  0 < signals.parse_failures && 0 < signals.total_turns && double (5 / 10) < signals.parse_rate

def repeating (signals : HealthSignals) : Bool :=
  0 < signals.total_turns && double (7 / 10) < signals.repeat_ratio

def stale (signals : HealthSignals) (now : Time) : Bool := minutes 5 < now - signals.last_heartbeat

end HealthSignals

/-- A failed check lowers the score and leaves a note. -/
def penalise (fails : Bool) (penalty : Rat) (note : String) (scored : Rat × List String) : Rat × List String :=
  if fails then (double (scored.1 - penalty), scored.2 ++ [note]) else scored

/-- The score before it is cut to `[0, 1]`. -/
def raw_score (signals : HealthSignals) (now : Time) : Rat × List String :=
  let scored := (1, [])
  let scored := penalise signals.many_errors (double (3 / 10))
    ("errors:" ++ toString signals.consecutive_errors) scored
  let scored := penalise signals.misparsing (double (3 / 10)) ("parse_rate:" ++ two_decimals signals.parse_rate) scored
  let scored := penalise signals.repeating (double (4 / 10)) ("repeat_ratio:" ++ two_decimals signals.repeat_ratio) scored
  penalise (signals.stale now) (double (5 / 10)) "stale_heartbeat" scored

def compute_score (signals : HealthSignals) (now : Time) : Rat × List String :=
  let scored := raw_score signals now
  (max 0 (min 1 scored.1), scored.2)

/-! ## The doubles -/

theorem double_three_tenths : double (3 / 10) = 5404319552844595 / 2 ^ 54 := by
  have hnear : nearest (3 / 10 / 2 ^ (-54 : Int)) = 5404319552844595 :=
    nearest_eq (abs_lt.mpr (by norm_num))
  rw [double_of_binade (e := -54) (by norm_num) (by norm_num), hnear]
  norm_num

theorem double_four_tenths : double (4 / 10) = 7205759403792794 / 2 ^ 54 := by
  have hnear : nearest (4 / 10 / 2 ^ (-54 : Int)) = 7205759403792794 :=
    nearest_eq (abs_lt.mpr (by norm_num))
  rw [double_of_binade (e := -54) (by norm_num) (by norm_num), hnear]
  norm_num

/-- A number of small units is a double. -/
theorem double_units {n : Int} (h : |n| < 2 ^ 53) : double (n / 2 ^ 54) = n / 2 ^ 54 := by
  have hunits : (n : Rat) / 2 ^ 54 = n * 2 ^ (-54 : Int) := by norm_num [div_eq_mul_inv]
  rw [hunits, double_exact h]

/-- The same of the units that count twice as much. -/
theorem double_units_two {n : Int} (h : |n| < 2 ^ 53) : double (n / 2 ^ 53) = n / 2 ^ 53 := by
  have hunits : (n : Rat) / 2 ^ 53 = n * 2 ^ (-53 : Int) := by norm_num [div_eq_mul_inv]
  rw [hunits, double_exact h]

theorem double_half : double (5 / 10) = 1 / 2 := by
  have h := double_units_two (n := 2 ^ 52) (by norm_num)
  norm_num at h ⊢
  exact h

/-- One small penalty: what is left is half-way between two doubles. -/
theorem after_three_tenths : double (1 - 5404319552844595 / 2 ^ 54) = 6305039478318694 / 2 ^ 53 := by
  have hnear : nearest ((1 - 5404319552844595 / 2 ^ 54) / 2 ^ (-53 : Int)) = 6305039478318694 :=
    nearest_half (by norm_num) (by norm_num)
  rw [double_of_binade (e := -53) (by norm_num) (by norm_num), hnear]
  norm_num

/-- Two of them: **not quite `0.4`**. -/
theorem after_two_small : double (6305039478318694 / 2 ^ 53 - 5404319552844595 / 2 ^ 54) = 7205759403792793 / 2 ^ 54 := by
  have h := double_units (n := 7205759403792793) (by norm_num)
  norm_num at h ⊢
  exact h

theorem after_four_tenths : double (1 - 7205759403792794 / 2 ^ 54) = 5404319552844595 / 2 ^ 53 := by
  have h := double_units_two (n := 5404319552844595) (by norm_num)
  norm_num at h ⊢
  exact h

theorem after_small_and_four : double (6305039478318694 / 2 ^ 53 - 7205759403792794 / 2 ^ 54) = 5404319552844594 / 2 ^ 54 := by
  have h := double_units (n := 5404319552844594) (by norm_num)
  norm_num at h ⊢
  exact h

theorem small_and_stale : double (6305039478318694 / 2 ^ 53 - 1 / 2) = 3602879701896396 / 2 ^ 54 := by
  have h := double_units (n := 3602879701896396) (by norm_num)
  norm_num at h ⊢
  exact h

theorem four_and_stale : double (5404319552844595 / 2 ^ 53 - 1 / 2) = 1801439850948198 / 2 ^ 54 := by
  have h := double_units (n := 1801439850948198) (by norm_num)
  norm_num at h ⊢
  exact h

theorem only_stale : double (1 - 1 / 2) = 1 / 2 := by
  have h := double_half
  norm_num at h ⊢
  exact h

/-! ## The cutoff -/

theorem cutoff_pos : (0 : Rat) < UNHEALTHY_CUTOFF := by
  rw [UNHEALTHY_CUTOFF, double_four_tenths]
  norm_num

/-- A penalty that the score cannot pay. -/
theorem unpaid {score penalty : Rat} (h : score ≤ penalty) : double (score - penalty) < UNHEALTHY_CUTOFF :=
  lt_of_le_of_lt (double_nonpos (sub_nonpos.mpr h)) cutoff_pos

@[simp] theorem penalise_false (penalty : Rat) (note : String) (scored : Rat × List String) :
    penalise false penalty note scored = scored := rfl

@[simp] theorem penalise_true (penalty : Rat) (note : String) (scored : Rat × List String) :
    penalise true penalty note scored = (double (scored.1 - penalty), scored.2 ++ [note]) := rfl

/-- **The score of four checks**, for each way in which they come out. -/
theorem penalised_iff (errors parse repeats stale : Bool) (n₁ n₂ n₃ n₄ : String) :
    (penalise stale (double (5 / 10)) n₄ (penalise repeats (double (4 / 10)) n₃ (penalise parse (double (3 / 10)) n₂
      (penalise errors (double (3 / 10)) n₁ (1, []))))).1 < UNHEALTHY_CUTOFF ↔
    2 ≤ errors.toNat + parse.toNat + repeats.toNat + stale.toNat := by
  have hcutoff : UNHEALTHY_CUTOFF = 7205759403792794 / 2 ^ 54 := double_four_tenths
  -- what cannot be paid: by two small penalties, by one and the one for repetitions, and by all three
  have hsmall : double (7205759403792793 / 2 ^ 54 - 1 / 2) < UNHEALTHY_CUTOFF := unpaid (by norm_num)
  have hrepeat : double (5404319552844594 / 2 ^ 54 - 1 / 2) < UNHEALTHY_CUTOFF := unpaid (by norm_num)
  have hthree : double (7205759403792793 / 2 ^ 54 - 7205759403792794 / 2 ^ 54) ≤ 0 := double_nonpos (by norm_num)
  have hall : double (double (7205759403792793 / 2 ^ 54 - 7205759403792794 / 2 ^ 54) - 1 / 2) < UNHEALTHY_CUTOFF :=
    unpaid (hthree.trans (by norm_num))
  have hthree := lt_of_le_of_lt hthree cutoff_pos
  rw [hcutoff] at hsmall hrepeat hthree hall
  rw [double_three_tenths, double_four_tenths, double_half]
  cases errors <;> cases parse <;> cases repeats <;> cases stale <;>
    simp only [penalise_false, penalise_true, after_three_tenths, after_two_small, after_four_tenths,
      after_small_and_four, small_and_stale, four_and_stale, only_stale, hcutoff, Bool.toNat_true, Bool.toNat_false,
      Nat.reduceAdd, Nat.reduceLeDiff, iff_true, iff_false, not_lt, hsmall, hrepeat, hthree, hall]
  all_goals norm_num

theorem penalise_length (fails : Bool) (penalty : Rat) (note : String) (scored : Rat × List String) :
    (penalise fails penalty note scored).2.length = scored.2.length + fails.toNat := by
  cases fails with
  | false => rfl
  | true => exact List.length_append

/-- The number of checks that fail. -/
def failing (signals : HealthSignals) (now : Time) : Nat :=
  signals.many_errors.toNat + signals.misparsing.toNat + signals.repeating.toNat + (signals.stale now).toNat

/-- There is a note for every failed check. -/
theorem length_notes (signals : HealthSignals) (now : Time) :
    (compute_score signals now).2.length = failing signals now := by
  show (raw_score signals now).2.length = _
  unfold raw_score failing
  simp only [penalise_length, List.length_nil, Nat.zero_add]

/-- **Who is unhealthy**: an agent of which two checks fail. -/
theorem unhealthy_iff (signals : HealthSignals) (now : Time) :
    (compute_score signals now).1 < UNHEALTHY_CUTOFF ↔ 2 ≤ failing signals now := by
  have hcutoff : UNHEALTHY_CUTOFF < 1 := by
    rw [UNHEALTHY_CUTOFF, double_four_tenths]
    norm_num
  have hcut : (compute_score signals now).1 < UNHEALTHY_CUTOFF ↔ (raw_score signals now).1 < UNHEALTHY_CUTOFF := by
    show max 0 (min 1 _) < _ ↔ _
    rw [max_lt_iff, min_lt_iff]
    constructor
    · rintro ⟨-, hone | hraw⟩
      · exact absurd hone hcutoff.not_gt
      · exact hraw
    · exact fun hraw => ⟨cutoff_pos, .inr hraw⟩
  rw [hcut]
  exact penalised_iff _ _ _ _ _ _ _ _

end Orchestrator

end CompanyFactory
