import CompanyFactory.Efficiency.Lifecycle
import CompanyFactory.Lib.Counter
import CompanyFactory.Lib.Rounding
import CompanyFactory.SecurityAgent.StaticRules
import Mathlib.Algebra.GroupWithZero.Nat
import Mathlib.Data.List.MinMax

/-!
# `Efficiency.Detectors` — the other five detectors, and what a tick makes of all six

`detectors/`: an agent that has gone quiet, approvals that wait too long, money that is spent without a message, a tool
that keeps failing, a manager who has most of the approvals. None of the six raises, so a tick runs all of them, and
after it a finding is open exactly where one of the conditions holds (`open_findings_fire`), whatever happened before.

* The ratios are doubles: `double` rounds them, and the thresholds they are compared with.
* The tick hands the detectors the first rows of the log that lie in the window (`tick_context`): an agent that was quiet
  for longer than the window is not stalled any more.
-/

namespace CompanyFactory

open Rounding

namespace Efficiency

/-- `round(q, digits)` -/
def rounded (q : Rat) (digits : Nat) : Json := .num (nearest (q * 10 ^ digits) / 10 ^ digits)

/-- `int(q)` -/
def whole (q : Rat) : Int := if 0 ≤ q then ⌊q⌋ else -⌊-q⌋

/-- `a / b` -/
def quotient (a b : Int) : Rat := double (a / b)

/-- `f"{int(share * 100)}%"` -/
def percent (q : Rat) : String := toString (whole (double (q * 100))) ++ "%"

/-- `f"{q:.2f}"` -/
def fixed_two (q : Rat) : String := (if q < 0 then "-" else "") ++ two_decimals |q|

/-- `int(age)` of a span in microseconds -/
def whole_seconds (age : Time) : Int := Int.tdiv age 1000000

/-! ## `stall.no_event` -/

namespace StallNoEvent

def CODE : String := "stall.no_event"

/-- The actor of an event, if it names one. -/
def actor_of (e : Event) : Option String := e.actor_agent_id.filter fun actor => actor ≠ ""

def last_event_per_agent (events : List Event) : List (String × Event) := Leaders.of actor_of Event.ts_company events

def gap (ctx : DetectorContext) (e : Event) : Time := ctx.now - e.ts_company

def window (ctx : DetectorContext) : Time := ctx.config.stall_no_event.window_seconds * 1000000

def candidate (ctx : DetectorContext) (agent_id : String) (evt : Event) : FindingCandidate :=
  { detector_code := CODE, severity := .WARN, subject_type := .AGENT, subject_id := some agent_id
    evidence := [("last_event_id", .int evt.id), ("last_event_kind", .str evt.kind.value),
      ("gap_seconds", .int (whole_seconds (gap ctx evt))),
      ("window_seconds", .int ctx.config.stall_no_event.window_seconds)]
    recommendation := some ("Agent " ++ agent_id ++ " has produced no activity for the last " ++
      toString (whole_seconds (gap ctx evt) / 60) ++ " minutes. Is it being assigned tasks, or is it waiting?") }

def candidates (ctx : DetectorContext) : List FindingCandidate :=
  ((last_event_per_agent ctx.events).filter fun item => decide (window ctx ≤ gap ctx item.2)).map fun item =>
    candidate ctx item.1 item.2

def detect : Detector := fun ctx => .ok (candidates ctx)

/-- The agent did something, and nothing lately. -/
def Stalled (ctx : DetectorContext) (agent_id : String) : Prop :=
  (∃ e ∈ ctx.events, actor_of e = some agent_id) ∧
    ∀ e ∈ ctx.events, actor_of e = some agent_id → window ctx ≤ gap ctx e

theorem mem_candidates {ctx : DetectorContext} {key : FindingKey} :
    key ∈ (candidates ctx).map FindingCandidate.key ↔
      ∃ agent_id, key = (CODE, .AGENT, some agent_id) ∧ Stalled ctx agent_id := by
  unfold candidates
  rw [List.map_map, List.mem_map]
  constructor
  · rintro ⟨⟨agent_id, last⟩, hitem, rfl⟩
    obtain ⟨hlast, hgap⟩ := List.mem_filter.mp hitem
    obtain ⟨hmem, hactor, hbest⟩ := Leaders.mem_of hlast
    refine ⟨agent_id, rfl, ⟨last, hmem, hactor⟩, fun e he hown => ?_⟩
    -- the last event is the nearest one
    calc window ctx ≤ gap ctx last := of_decide_eq_true hgap
      _ ≤ gap ctx e := Int.sub_le_sub_left (hbest e he hown) ctx.now
  · rintro ⟨agent_id, rfl, ⟨e, he, hactor⟩, hquiet⟩
    obtain ⟨⟨agent, last⟩, hlast, rfl⟩ := List.mem_map.mp
      (Leaders.mem_keys_of.mpr ⟨e, he, hactor⟩ : agent_id ∈ (last_event_per_agent ctx.events).map Prod.fst)
    obtain ⟨hmem, hown, -⟩ := Leaders.mem_of hlast
    exact ⟨(agent, last), List.mem_filter.mpr ⟨hlast, decide_eq_true (hquiet last hmem hown)⟩, rfl⟩

end StallNoEvent

/-! ## `approvals.backlog` -/

/-- The approvals that wait for a decision. -/
def pending (ctx : DetectorContext) : List Approval :=
  (ctx.db.getD []).filter fun approval => decide (approval.status = .PENDING)

namespace ApprovalsBacklog

def CODE : String := "approvals.backlog"

def age (ctx : DetectorContext) (approval : Approval) : Time := ctx.now - approval.created_at

def aged (ctx : DetectorContext) : List Approval :=
  (pending ctx).filter fun approval =>
    decide (ctx.config.approvals_backlog.min_age_seconds * 1000000 ≤ age ctx approval)

/-- `aged.sort(key=lambda x: -x[2])` -/
def by_age (ctx : DetectorContext) (approvals : List Approval) : List Approval :=
  approvals.insertionSort fun a b => age ctx b ≤ age ctx a

def candidate (ctx : DetectorContext) (oldest : Approval) : FindingCandidate :=
  let min_age_seconds := ctx.config.approvals_backlog.min_age_seconds
  { detector_code := CODE, severity := .WARN, subject_type := .COMPANY, subject_id := none
    evidence := [("pending_count", .int (pending ctx).length), ("aged_count", .int (aged ctx).length),
      ("oldest_request_id", .str oldest.request_id), ("oldest_kind", .str oldest.kind.value),
      ("oldest_age_seconds", .int (whole_seconds (age ctx oldest))), ("threshold_seconds", .int min_age_seconds)]
    recommendation := some (toString (aged ctx).length ++ " approval(s) have been pending for more than " ++
      toString (min_age_seconds / 60) ++ " minutes. Oldest: " ++ oldest.request_id ++ " (" ++ oldest.kind.value ++
      ", ~" ++ toString (whole_seconds (age ctx oldest) / 60) ++ " min).") }

def candidates (ctx : DetectorContext) : List FindingCandidate :=
  if (pending ctx).length < ctx.config.approvals_backlog.min_count then []
  else match by_age ctx (aged ctx) with
    | [] => []
    | oldest :: _ => [candidate ctx oldest]

/-- Without a database there is nothing to look at. -/
def detect : Detector := fun ctx =>
  match ctx.db with
  | none => .ok []
  | some _ => .ok (candidates ctx)

/-- Enough approvals wait, one of them for too long. -/
def Backlog (ctx : DetectorContext) : Prop :=
  ctx.config.approvals_backlog.min_count ≤ (pending ctx).length ∧
    ∃ approval ∈ pending ctx, ctx.config.approvals_backlog.min_age_seconds * 1000000 ≤ age ctx approval

theorem aged_ne_nil {ctx : DetectorContext} : aged ctx ≠ [] ↔
    ∃ approval ∈ pending ctx, ctx.config.approvals_backlog.min_age_seconds * 1000000 ≤ age ctx approval := by
  unfold aged
  simp [List.filter_eq_nil_iff]

theorem candidates_cases {ctx : DetectorContext} {cand : FindingCandidate} (h : cand ∈ candidates ctx) :
    ∃ oldest rest, by_age ctx (aged ctx) = oldest :: rest ∧ cand = candidate ctx oldest := by
  unfold candidates at h
  split at h
  · cases h
  · cases hsorted : by_age ctx (aged ctx) with
    | nil =>
        rw [hsorted] at h
        cases h
    | cons oldest rest =>
        rw [hsorted] at h
        exact ⟨oldest, rest, rfl, List.mem_singleton.mp h⟩

/-- The approval that is named has waited longest. -/
theorem oldest_first {ctx : DetectorContext} {approvals rest : List Approval} {oldest : Approval}
    (h : by_age ctx approvals = oldest :: rest) : oldest ∈ approvals ∧ ∀ other ∈ approvals, age ctx other ≤ age ctx oldest := by
  have hperm : (by_age ctx approvals).Perm approvals := List.perm_insertionSort _ _
  have hsorted : (by_age ctx approvals).Pairwise fun a b => age ctx b ≤ age ctx a := by
    have : Std.Total (fun a b : Approval => age ctx b ≤ age ctx a) := ⟨fun a b => Int.le_total _ _⟩
    have : IsTrans Approval (fun a b => age ctx b ≤ age ctx a) := ⟨fun _ _ _ hab hbc => Int.le_trans hbc hab⟩
    exact List.pairwise_insertionSort _ _
  rw [h] at hperm hsorted
  refine ⟨hperm.mem_iff.mp List.mem_cons_self, fun other hother => ?_⟩
  rcases List.mem_cons.mp (hperm.mem_iff.mpr hother) with rfl | hrest
  · exact Int.le_refl _
  · exact (List.pairwise_cons.mp hsorted).1 other hrest

theorem mem_candidates {ctx : DetectorContext} {key : FindingKey} :
    key ∈ (candidates ctx).map FindingCandidate.key ↔ key = (CODE, .COMPANY, none) ∧ Backlog ctx := by
  unfold candidates Backlog
  rw [← aged_ne_nil]
  split
  · rename_i hfew
    exact iff_of_false List.not_mem_nil fun h => absurd h.2.1 (Int.not_le.mpr hfew)
  · rename_i henough
    have hperm : (by_age ctx (aged ctx)).Perm (aged ctx) := List.perm_insertionSort _ _
    split
    · rename_i hnone
      rw [hnone] at hperm
      exact iff_of_false List.not_mem_nil fun h => h.2.2 hperm.nil_eq.symm
    · rename_i oldest rest hsome
      rw [List.map_singleton, List.mem_singleton]
      refine ⟨fun h => ⟨h, Int.not_lt.mp henough, fun hnil => ?_⟩, fun h => h.1⟩
      rw [hsome, hnil] at hperm
      exact List.cons_ne_nil _ _ hperm.eq_nil

theorem mem_detect {ctx : DetectorContext} {key : FindingKey} : ∃ found, detect ctx = .ok found ∧
    (key ∈ found.map FindingCandidate.key ↔ key = (CODE, .COMPANY, none) ∧ Backlog ctx) := by
  unfold detect
  cases hdb : ctx.db with
  | none =>
      refine ⟨[], rfl, iff_of_false List.not_mem_nil ?_⟩
      rintro ⟨-, -, approval, happroval, -⟩
      rw [pending, hdb] at happroval
      cases happroval
  | some rows => exact ⟨_, rfl, mem_candidates⟩

end ApprovalsBacklog

/-! ## `cost.no_output` -/

namespace CostNoOutput

def CODE : String := "cost.no_output"

def recent (ctx : DetectorContext) : List Event :=
  ctx.events.filter fun e =>
    decide (ctx.now - e.ts_company ≤ ctx.config.cost_no_output.window_seconds * 1000000)

/-- `int(e.payload.get("amount_cents", 0))`, if it is a number; nobody reads the message of the error. -/
def amount_of (e : Event) : Option Int :=
  (StaticRules.py_int (fun _ => "") ((e.payload.lookup "amount_cents").getD (.num 0))).toOption

/-- `spend_cents`, `expense_count` and `message_count` -/
structure Totals where
  spend_cents : Int := 0
  expense_count : Nat := 0
  message_count : Nat := 0

def count (totals : Totals) (e : Event) : Totals :=
  if e.kind = .EXPENSE_CHARGED then
    match amount_of e with
    | some cents => { totals with spend_cents := totals.spend_cents + cents, expense_count := totals.expense_count + 1 }
    | none => totals
  else if e.kind = .MESSAGE_SENT then { totals with message_count := totals.message_count + 1 }
  else totals

def totals (ctx : DetectorContext) : Totals := (recent ctx).foldl count {}

def spend_usd (ctx : DetectorContext) : Rat := quotient (totals ctx).spend_cents 100

def candidate (ctx : DetectorContext) : FindingCandidate :=
  let window_seconds := ctx.config.cost_no_output.window_seconds
  { detector_code := CODE, severity := .WARN, subject_type := .COMPANY, subject_id := none
    evidence := [("spend_usd", rounded (spend_usd ctx) 2), ("expense_count", .int (totals ctx).expense_count),
      ("message_count", .int (totals ctx).message_count), ("window_seconds", .int window_seconds)]
    recommendation := some ("$" ++ fixed_two (spend_usd ctx) ++ " spent (" ++ toString (totals ctx).expense_count ++
      " item(s)) in the last " ++ toString (window_seconds / 60) ++
      " minutes, but no agent messages produced. Is the budget being wasted?") }

def candidates (ctx : DetectorContext) : List FindingCandidate :=
  if spend_usd ctx < double ctx.config.cost_no_output.min_spend_usd ∨ 0 < (totals ctx).message_count then []
  else [candidate ctx]

def detect : Detector := fun ctx => .ok (candidates ctx)

/-- What was charged in the window. -/
def spent (ctx : DetectorContext) : Int :=
  (((recent ctx).filter fun e => decide (e.kind = .EXPENSE_CHARGED)).filterMap amount_of).sum

/-- Money was spent, and no message was sent. -/
def Burns (ctx : DetectorContext) : Prop :=
  double ctx.config.cost_no_output.min_spend_usd ≤ quotient (spent ctx) 100 ∧
    ∀ e ∈ recent ctx, e.kind ≠ .MESSAGE_SENT

theorem foldl_count (events : List Event) (start : Totals) :
    (events.foldl count start).spend_cents =
        start.spend_cents + ((events.filter fun e => decide (e.kind = .EXPENSE_CHARGED)).filterMap amount_of).sum ∧
      (events.foldl count start).message_count =
        start.message_count + events.countP fun e => decide (e.kind = .MESSAGE_SENT) := by
  induction events generalizing start with
  | nil => simp
  | cons e events ih =>
      rw [List.foldl_cons, (ih _).1, (ih _).2]
      unfold count
      by_cases hcharged : e.kind = .EXPENSE_CHARGED
      · cases hamount : amount_of e with
        | none => simp [hcharged, hamount]
        | some cents => simp [hcharged, hamount, Int.add_assoc]
      · by_cases hsent : e.kind = .MESSAGE_SENT
        · simp [hsent, Nat.add_assoc, Nat.add_comm]
        · simp [hcharged, hsent]

theorem mem_candidates {ctx : DetectorContext} {key : FindingKey} :
    key ∈ (candidates ctx).map FindingCandidate.key ↔ key = (CODE, .COMPANY, none) ∧ Burns ctx := by
  obtain ⟨hspend, hmessages⟩ := foldl_count (recent ctx) {}
  have hspent : spend_usd ctx = quotient (spent ctx) 100 := by
    rw [spend_usd, totals, hspend, Int.zero_add, spent]
  have hsilent : ¬ 0 < (totals ctx).message_count ↔ ∀ e ∈ recent ctx, e.kind ≠ .MESSAGE_SENT := by
    rw [totals, hmessages, Nat.zero_add, Nat.not_lt, Nat.le_zero, List.countP_eq_zero]
    exact forall₂_congr fun e _ => by rw [decide_eq_true_iff]
  unfold candidates Burns
  rw [← hspent, ← hsilent]
  split
  · rename_i hquiet
    refine iff_of_false List.not_mem_nil fun h => ?_
    rcases hquiet with hcheap | hmessage
    · exact absurd h.2.1 (not_le.mpr hcheap)
    · exact h.2.2 hmessage
  · rename_i hloud
    rw [not_or, not_lt] at hloud
    rw [List.map_singleton, List.mem_singleton]
    exact ⟨fun h => ⟨h, hloud⟩, fun h => h.1⟩

end CostNoOutput

/-! ## `tool.error_storm` -/

namespace ToolErrorStorm

def CODE : String := "tool.error_storm"

def recent (ctx : DetectorContext) : List Event :=
  ctx.events.filter fun e => decide (e.kind = .TOOL_RESULT) &&
    decide (ctx.now - e.ts_company ≤ ctx.config.tool_error_storm.window_seconds * 1000000)

/-- The tool of a result, if it is named. -/
def key_of (e : Event) : Option String :=
  let tool := LoopToolRepeat.tool_of e
  if tool = "" then none else some tool

/-- `not bool(e.payload.get("ok", True))` -/
def failed (e : Event) : Bool := !StaticRules.truthy ((e.payload.lookup "ok").getD (.bool true))

def samples (events : List Event) (tool : String) : List Nat :=
  (events.filter fun e => decide (key_of e = some tool) && failed e).map Event.id

def candidate (config : ToolErrorStormConfig) (events : List Event) (tool : String) (total : Nat) : FindingCandidate :=
  let ids := samples events tool
  let rate := quotient ids.length total
  { detector_code := CODE, severity := .CRITICAL, subject_type := .TOOL, subject_id := some tool
    evidence := [("total_calls", .int total), ("error_count", .int ids.length), ("error_rate", rounded rate 3),
      ("window_seconds", .int config.window_seconds),
      ("sample_event_ids", .arr ((ids.drop (ids.length - 5)).map fun id => .int id))]
    recommendation := some ("Tool `" ++ tool ++ "` returned " ++ toString ids.length ++ "/" ++ toString total ++
      " errors (" ++ percent rate ++ ") in the last " ++ toString (config.window_seconds / 60) ++
      " minutes. Check the Connector / external service.") }

/-- Often enough called, and often enough failed. -/
def storms (config : ToolErrorStormConfig) (total errors : Nat) : Prop :=
  config.min_calls ≤ total ∧ errors ≠ 0 ∧ double config.error_rate ≤ quotient errors total

instance (config : ToolErrorStormConfig) (total errors : Nat) : Decidable (storms config total errors) :=
  inferInstanceAs (Decidable (_ ∧ _ ∧ _))

/-- The candidates, for the tools of `totals.items()` whose failures reach the threshold. -/
def candidates (ctx : DetectorContext) : List FindingCandidate :=
  ((Counter.of ((recent ctx).filterMap key_of)).filter fun item =>
    decide (storms ctx.config.tool_error_storm item.2 (samples (recent ctx) item.1).length)).map fun item =>
      candidate ctx.config.tool_error_storm (recent ctx) item.1 item.2

def detect : Detector := fun ctx => .ok (candidates ctx)

/-- How often the tool has answered in the window. -/
def calls (ctx : DetectorContext) (tool : String) : Nat := (recent ctx).countP fun e => decide (key_of e = some tool)

/-- How often it has failed. -/
def errors (ctx : DetectorContext) (tool : String) : Nat :=
  (recent ctx).countP fun e => decide (key_of e = some tool) && failed e

def Storms (ctx : DetectorContext) (tool : String) : Prop :=
  storms ctx.config.tool_error_storm (calls ctx tool) (errors ctx tool)

theorem length_samples (events : List Event) (tool : String) :
    (samples events tool).length = events.countP fun e => decide (key_of e = some tool) && failed e := by
  rw [samples, List.length_map, List.countP_eq_length_filter]

/-- A tool that has failed has answered. -/
theorem calls_pos {ctx : DetectorContext} {tool : String} (h : errors ctx tool ≠ 0) : 0 < calls ctx tool := by
  have hle : errors ctx tool ≤ calls ctx tool := by
    apply List.countP_mono_left
    intro e _ hboth
    exact (Bool.and_eq_true_iff.mp hboth).1
  omega

theorem mem_candidates {ctx : DetectorContext} {key : FindingKey} :
    key ∈ (candidates ctx).map FindingCandidate.key ↔ ∃ tool, key = (CODE, .TOOL, some tool) ∧ Storms ctx tool := by
  unfold candidates Storms
  rw [List.map_map, List.mem_map]
  constructor
  · rintro ⟨⟨tool, total⟩, hitem, rfl⟩
    obtain ⟨htotal, hstorms⟩ := List.mem_filter.mp hitem
    obtain ⟨rfl, -⟩ := Counter.mem_of_iff.mp htotal
    have hstorms := of_decide_eq_true hstorms
    rw [Counter.count_filterMap, length_samples] at hstorms
    exact ⟨tool, rfl, hstorms⟩
  · rintro ⟨tool, rfl, hstorms⟩
    refine ⟨(tool, calls ctx tool), List.mem_filter.mpr ⟨?_, ?_⟩, rfl⟩
    · exact Counter.mem_of_iff.mpr ⟨(Counter.count_filterMap _ _ _).symm, calls_pos hstorms.2.1⟩
    · rw [length_samples]
      exact decide_eq_true hstorms

end ToolErrorStorm

/-! ## `org.manager_bottleneck` -/

namespace OrgManagerBottleneck

def CODE : String := "org.manager_bottleneck"

/-- `target.split(":", 1)[1]`, of a target that starts with `agent:` -/
def manager_of (target : String) : Option String :=
  if "agent:".toList.isPrefixOf target.toList then some (String.ofList (target.toList.drop 6)) else none

/-- The managers whom the pending approvals wait for. -/
def managed (ctx : DetectorContext) : List String :=
  (pending ctx).filterMap fun approval => manager_of approval.route.encode_target

def per_manager (ctx : DetectorContext) : List (String × Nat) := Counter.of (managed ctx)

/-- `per_manager.most_common(1)` -/
def most_common (counts : List (String × Nat)) : Option (String × Nat) := counts.argmax Prod.snd

def candidate (manager : String) (count total : Nat) : FindingCandidate :=
  let share := quotient count total
  { detector_code := CODE, severity := .WARN, subject_type := .MANAGER, subject_id := some manager
    evidence := [("manager_id", .str manager), ("manager_pending", .int count),
      ("total_pending_to_managers", .int total), ("share", rounded share 3)]
    recommendation := some ("Manager " ++ manager ++ " is handling " ++ percent share ++ " of all open approvals (" ++
      toString count ++ "/" ++ toString total ++ "). Load should be balanced — consider delegating to another agent " ++
      "or redistributing authority.") }

def candidates (ctx : DetectorContext) : List FindingCandidate :=
  let config := ctx.config.org_manager_bottleneck
  let total := ((per_manager ctx).map Prod.snd).sum
  if (pending ctx).length < config.min_total_pending then []
  else match most_common (per_manager ctx) with
    | none => []
    | some (manager, count) =>
      if (total : Int) < config.min_total_pending then []
      else if quotient count total < double config.top1_share then []
      else [candidate manager count total]

def detect : Detector := fun ctx =>
  match ctx.db with
  | none => .ok []
  | some _ => .ok (candidates ctx)

/-- The approvals of this manager. -/
def load (ctx : DetectorContext) (manager : String) : Nat := (managed ctx).count manager

/-- Enough approvals wait for managers, and the first one of those with the most has too large a share. -/
def Bottleneck (ctx : DetectorContext) (manager : String) : Prop :=
  ctx.config.org_manager_bottleneck.min_total_pending ≤ (managed ctx).length ∧
    most_common (per_manager ctx) = some (manager, load ctx manager) ∧
    double ctx.config.org_manager_bottleneck.top1_share ≤ quotient (load ctx manager) (managed ctx).length

theorem candidates_cases {ctx : DetectorContext} {cand : FindingCandidate} (h : cand ∈ candidates ctx) :
    ∃ manager count, most_common (per_manager ctx) = some (manager, count) ∧
      cand = candidate manager count ((per_manager ctx).map Prod.snd).sum := by
  unfold candidates at h
  dsimp only at h
  split at h
  · cases h
  · cases htop : most_common (per_manager ctx) with
    | none =>
        rw [htop] at h
        cases h
    | some top =>
        rw [htop] at h
        dsimp only at h
        split at h
        · cases h
        · split at h
          · cases h
          · exact ⟨top.1, top.2, rfl, List.mem_singleton.mp h⟩

/-- No manager has more approvals than the one that is named. -/
theorem load_le {ctx : DetectorContext} {manager : String} {n : Nat}
    (h : most_common (per_manager ctx) = some (manager, n)) (other : String) : load ctx other ≤ n := by
  rcases Nat.eq_zero_or_pos (load ctx other) with hzero | hpos
  · rw [hzero]
    exact Nat.zero_le n
  · have hmem : (other, load ctx other) ∈ per_manager ctx := Counter.mem_of_iff.mpr ⟨rfl, hpos⟩
    exact List.le_of_mem_argmax hmem h

theorem mem_candidates {ctx : DetectorContext} {key : FindingKey} :
    key ∈ (candidates ctx).map FindingCandidate.key ↔
      ∃ manager, key = (CODE, .MANAGER, some manager) ∧ Bottleneck ctx manager := by
  have htotal : ((per_manager ctx).map Prod.snd).sum = (managed ctx).length := Counter.sum_of _
  have hle : (managed ctx).length ≤ (pending ctx).length := List.length_filterMap_le _ _
  unfold candidates Bottleneck
  dsimp only
  rw [htotal]
  split
  · rename_i hfew
    refine iff_of_false List.not_mem_nil ?_
    rintro ⟨manager, -, hmin, -⟩
    omega
  · split
    · rename_i hnone
      refine iff_of_false List.not_mem_nil ?_
      rintro ⟨manager, -, -, hsome, -⟩
      rw [hnone] at hsome
      cases hsome
    · rename_i manager count hsome
      have hcount : count = load ctx manager := (Counter.mem_of_iff.mp (List.argmax_mem hsome)).1
      subst hcount
      split
      · rename_i hfew
        refine iff_of_false List.not_mem_nil ?_
        rintro ⟨other, -, hmin, -⟩
        exact absurd hmin (Int.not_le.mpr hfew)
      · rename_i hmin
        split
        · rename_i hsmall
          refine iff_of_false List.not_mem_nil ?_
          rintro ⟨other, -, -, hother, hshare⟩
          rw [hsome] at hother
          cases hother
          exact absurd hshare (not_le.mpr hsmall)
        · rename_i hshare
          rw [List.map_singleton, List.mem_singleton]
          constructor
          · rintro rfl
            exact ⟨manager, rfl, Int.not_lt.mp hmin, hsome, not_lt.mp hshare⟩
          · rintro ⟨other, rfl, -, hother, -⟩
            rw [hsome] at hother
            cases hother
            rfl

theorem mem_detect {ctx : DetectorContext} {key : FindingKey} : ∃ found, detect ctx = .ok found ∧
    (key ∈ found.map FindingCandidate.key ↔
      ∃ manager, key = (CODE, .MANAGER, some manager) ∧ Bottleneck ctx manager) := by
  unfold detect
  cases hdb : ctx.db with
  | none =>
      refine ⟨[], rfl, iff_of_false List.not_mem_nil ?_⟩
      rintro ⟨manager, -, -, hsome, -⟩
      have hempty : per_manager ctx = [] := by
        rw [per_manager, managed, pending, hdb]
        rfl
      rw [hempty] at hsome
      cases hsome
  | some rows => exact ⟨_, rfl, mem_candidates⟩

end OrgManagerBottleneck

/-! ## What the candidates say -/

/-- **The evidence is true.** A stalled agent is reported with its last event, a backlog with the approval that has
    waited longest, a failing tool with the number of its answers and failures, and a bottleneck with a manager who has
    the most approvals, the number of these and of all that wait for managers. -/
theorem evidence_true (ctx : DetectorContext) :
    (∀ cand ∈ StallNoEvent.candidates ctx, ∃ agent_id, ∃ last ∈ ctx.events,
      cand = StallNoEvent.candidate ctx agent_id last ∧ StallNoEvent.actor_of last = some agent_id ∧
        ∀ e ∈ ctx.events, StallNoEvent.actor_of e = some agent_id → e.ts_company ≤ last.ts_company) ∧
    (∀ cand ∈ ApprovalsBacklog.candidates ctx, ∃ oldest ∈ pending ctx, cand = ApprovalsBacklog.candidate ctx oldest ∧
      ∀ other ∈ pending ctx, oldest.created_at ≤ other.created_at) ∧
    (∀ cand ∈ ToolErrorStorm.candidates ctx, ∃ tool,
      cand = ToolErrorStorm.candidate ctx.config.tool_error_storm (ToolErrorStorm.recent ctx) tool
        (ToolErrorStorm.calls ctx tool) ∧
      (ToolErrorStorm.samples (ToolErrorStorm.recent ctx) tool).length = ToolErrorStorm.errors ctx tool) ∧
    ∀ cand ∈ OrgManagerBottleneck.candidates ctx, ∃ manager,
      cand = OrgManagerBottleneck.candidate manager (OrgManagerBottleneck.load ctx manager)
        (OrgManagerBottleneck.managed ctx).length ∧
      ∀ other, OrgManagerBottleneck.load ctx other ≤ OrgManagerBottleneck.load ctx manager := by
  refine ⟨fun cand hcand => ?_, fun cand hcand => ?_, fun cand hcand => ?_, fun cand hcand => ?_⟩
  · obtain ⟨⟨agent_id, last⟩, hitem, rfl⟩ := List.mem_map.mp hcand
    obtain ⟨hmem, hactor, hbest⟩ := Leaders.mem_of (List.mem_filter.mp hitem).1
    exact ⟨agent_id, last, hmem, rfl, hactor, hbest⟩
  · obtain ⟨oldest, rest, hsorted, rfl⟩ := ApprovalsBacklog.candidates_cases hcand
    obtain ⟨hmem, hfirst⟩ := ApprovalsBacklog.oldest_first hsorted
    obtain ⟨hpending, haged⟩ := List.mem_filter.mp hmem
    refine ⟨oldest, hpending, rfl, fun other hother => ?_⟩
    have hage : ApprovalsBacklog.age ctx other ≤ ApprovalsBacklog.age ctx oldest := by
      -- an approval that is not old enough has waited less
      by_cases hold : other ∈ ApprovalsBacklog.aged ctx
      · exact hfirst other hold
      · have hyoung : ¬ ctx.config.approvals_backlog.min_age_seconds * 1000000 ≤ ApprovalsBacklog.age ctx other :=
          fun h => hold (List.mem_filter.mpr ⟨hother, decide_eq_true h⟩)
        exact Int.le_of_lt (Int.lt_of_lt_of_le (Int.not_le.mp hyoung) (of_decide_eq_true haged))
    exact Int.sub_le_sub_left_iff.mp hage
  · obtain ⟨⟨tool, total⟩, hitem, rfl⟩ := List.mem_map.mp hcand
    obtain ⟨rfl, -⟩ := Counter.mem_of_iff.mp (List.mem_filter.mp hitem).1
    refine ⟨tool, ?_, ToolErrorStorm.length_samples _ _⟩
    rw [Counter.count_filterMap, ToolErrorStorm.calls]
  · obtain ⟨manager, count, hsome, rfl⟩ := OrgManagerBottleneck.candidates_cases hcand
    have hcount : count = OrgManagerBottleneck.load ctx manager := (Counter.mem_of_iff.mp (List.argmax_mem hsome)).1
    subst hcount
    refine ⟨manager, ?_, OrgManagerBottleneck.load_le hsome⟩
    rw [OrgManagerBottleneck.per_manager, Counter.sum_of]

/-! ## The registry -/

def R1_DETECTORS : List (String × Detector) :=
  [(LoopToolRepeat.CODE, LoopToolRepeat.detect), (StallNoEvent.CODE, StallNoEvent.detect),
    (ApprovalsBacklog.CODE, ApprovalsBacklog.detect), (CostNoOutput.CODE, CostNoOutput.detect),
    (ToolErrorStorm.CODE, ToolErrorStorm.detect), (OrgManagerBottleneck.CODE, OrgManagerBottleneck.detect)]

/-- What is wrong with the subject of the key. -/
def Fires (ctx : DetectorContext) (key : FindingKey) : Prop :=
  (∃ actor tool, key = (LoopToolRepeat.CODE, .AGENT, some actor) ∧ LoopToolRepeat.Repeats ctx actor tool) ∨
  (∃ agent_id, key = (StallNoEvent.CODE, .AGENT, some agent_id) ∧ StallNoEvent.Stalled ctx agent_id) ∨
  (key = (ApprovalsBacklog.CODE, .COMPANY, none) ∧ ApprovalsBacklog.Backlog ctx) ∨
  (key = (CostNoOutput.CODE, .COMPANY, none) ∧ CostNoOutput.Burns ctx) ∨
  (∃ tool, key = (ToolErrorStorm.CODE, .TOOL, some tool) ∧ ToolErrorStorm.Storms ctx tool) ∨
  ∃ manager, key = (OrgManagerBottleneck.CODE, .MANAGER, some manager) ∧ OrgManagerBottleneck.Bottleneck ctx manager

/-- The detector returns a candidate of the key. -/
def Returns (ctx : DetectorContext) (detector : Detector) (key : FindingKey) : Prop :=
  ∃ found, detector ctx = .ok found ∧ key ∈ found.map FindingCandidate.key

theorem returns_ok {ctx : DetectorContext} {detector : Detector} {found : List FindingCandidate}
    (h : detector ctx = .ok found) {key : FindingKey} :
    Returns ctx detector key ↔ key ∈ found.map FindingCandidate.key := by
  unfold Returns
  rw [h]
  simp

theorem LoopToolRepeat.mem_candidates {ctx : DetectorContext} {key : FindingKey} :
    key ∈ (LoopToolRepeat.candidates ctx).map FindingCandidate.key ↔
      ∃ actor tool, key = (LoopToolRepeat.CODE, .AGENT, some actor) ∧ LoopToolRepeat.Repeats ctx actor tool := by
  unfold LoopToolRepeat.candidates
  rw [List.map_map, List.mem_map]
  constructor
  · rintro ⟨⟨⟨actor, tool⟩, n⟩, hitem, rfl⟩
    exact ⟨actor, tool, rfl, (LoopToolRepeat.mem_items.mp hitem).2⟩
  · rintro ⟨actor, tool, rfl, hrepeats⟩
    exact ⟨((actor, tool), LoopToolRepeat.calls ctx actor tool), LoopToolRepeat.mem_items.mpr ⟨rfl, hrepeats⟩, rfl⟩

/-- No detector of the registry raises. -/
theorem R1_returns (ctx : DetectorContext) : ∀ d ∈ R1_DETECTORS, ∃ found, d.2 ctx = .ok found := by
  obtain ⟨backlog, hbacklog, -⟩ := @ApprovalsBacklog.mem_detect ctx (ApprovalsBacklog.CODE, .COMPANY, none)
  obtain ⟨bottleneck, hbottleneck, -⟩ := @OrgManagerBottleneck.mem_detect ctx (OrgManagerBottleneck.CODE, .MANAGER, none)
  intro d hd
  simp only [R1_DETECTORS, List.mem_cons, List.not_mem_nil, or_false] at hd
  rcases hd with rfl | rfl | rfl | rfl | rfl | rfl
  · exact ⟨_, rfl⟩
  · exact ⟨_, rfl⟩
  · exact ⟨_, hbacklog⟩
  · exact ⟨_, rfl⟩
  · exact ⟨_, rfl⟩
  · exact ⟨_, hbottleneck⟩

/-- A key is returned by one of the detectors exactly if something is wrong with its subject. -/
theorem R1_fires {ctx : DetectorContext} {key : FindingKey} :
    (∃ d ∈ R1_DETECTORS, Returns ctx d.2 key) ↔ Fires ctx key := by
  obtain ⟨backlog, hbacklog, hmem⟩ := @ApprovalsBacklog.mem_detect ctx key
  obtain ⟨bottleneck, hbottleneck, hmem'⟩ := @OrgManagerBottleneck.mem_detect ctx key
  have hloop : LoopToolRepeat.detect ctx = .ok (LoopToolRepeat.candidates ctx) := rfl
  have hstall : StallNoEvent.detect ctx = .ok (StallNoEvent.candidates ctx) := rfl
  have hcost : CostNoOutput.detect ctx = .ok (CostNoOutput.candidates ctx) := rfl
  have hstorm : ToolErrorStorm.detect ctx = .ok (ToolErrorStorm.candidates ctx) := rfl
  unfold Fires
  rw [← LoopToolRepeat.mem_candidates, ← StallNoEvent.mem_candidates, ← hmem, ← CostNoOutput.mem_candidates,
    ← ToolErrorStorm.mem_candidates, ← hmem', ← returns_ok hloop, ← returns_ok hstall, ← returns_ok hbacklog,
    ← returns_ok hcost, ← returns_ok hstorm, ← returns_ok hbottleneck]
  simp only [R1_DETECTORS, List.mem_cons, List.not_mem_nil, or_false, exists_eq_or_imp, exists_eq_left]

theorem R1_codes : (R1_DETECTORS.map Prod.fst).Nodup := by decide

namespace EfficiencyService

/-- Each candidate has the code of its detector. -/
theorem R1_own : Own R1_DETECTORS := by
  intro code detector hd ctx candidates hreturned cand hmem
  have hkey : Returns ctx detector cand.key := ⟨candidates, hreturned, List.mem_map_of_mem hmem⟩
  simp only [R1_DETECTORS, List.mem_cons, List.not_mem_nil, or_false, Prod.mk.injEq] at hd
  have hcode : cand.detector_code = cand.key.1 := rfl
  rw [hcode]
  rcases hd with ⟨rfl, rfl⟩ | ⟨rfl, rfl⟩ | ⟨rfl, rfl⟩ | ⟨rfl, rfl⟩ | ⟨rfl, rfl⟩ | ⟨rfl, rfl⟩
  · exact LoopToolRepeat.detect_own hreturned cand hmem
  · obtain ⟨agent_id, heq, -⟩ := StallNoEvent.mem_candidates.mp ((returns_ok rfl).mp hkey)
    rw [heq]
  · obtain ⟨found, hfound, hiff⟩ := @ApprovalsBacklog.mem_detect ctx cand.key
    rw [(hiff.mp ((returns_ok hfound).mp hkey)).1]
  · rw [(CostNoOutput.mem_candidates.mp ((returns_ok rfl).mp hkey)).1]
  · obtain ⟨tool, heq, -⟩ := ToolErrorStorm.mem_candidates.mp ((returns_ok rfl).mp hkey)
    rw [heq]
  · obtain ⟨found, hfound, hiff⟩ := @OrgManagerBottleneck.mem_detect ctx cand.key
    obtain ⟨manager, heq, -⟩ := hiff.mp ((returns_ok hfound).mp hkey)
    rw [heq]

/-- A key that a detector returns has its code. -/
theorem returns_code {detectors : List (String × Detector)} (hown : Own detectors) {d : String × Detector}
    (hd : d ∈ detectors) {ctx : DetectorContext} {key : FindingKey} (h : Returns ctx d.2 key) : key.1 = d.1 := by
  obtain ⟨found, hfound, hkey⟩ := h
  obtain ⟨cand, hcand, rfl⟩ := List.mem_map.mp hkey
  exact hown d.1 d.2 hd ctx found hfound cand hcand

/-- **The rounds of a tick** whose detectors all return: none is parked, and a key of their codes has an open finding
    exactly if its detector returns it. -/
theorem run_detectors_open (ctx : DetectorContext) (detectors : List (String × Detector))
    (hreturn : ∀ d ∈ detectors, ∃ found, d.2 ctx = .ok found) (hnodup : (detectors.map Prod.fst).Nodup)
    (hown : Own detectors) : ∀ s : EfficiencyService, s.Sound → s.missing_table_detectors = [] →
      ∃ found t, run_detectors ctx detectors s = (.ok found, t) ∧ t.Sound ∧ t.missing_table_detectors = [] ∧
        (∀ key, key.1 ∉ detectors.map Prod.fst → t.open_finding key = s.open_finding key) ∧
        ∀ key, key.1 ∈ detectors.map Prod.fst →
          ((t.open_finding key).isSome = true ↔ ∃ d ∈ detectors, Returns ctx d.2 key) := by
  induction detectors with
  | nil =>
      intro s hs hparked
      exact ⟨[], s, rfl, hs, hparked, fun _ _ => rfl, fun key hkey => absurd hkey List.not_mem_nil⟩
  | cons d rest ih =>
      obtain ⟨code, detector⟩ := d
      intro s hs hparked
      rw [List.map_cons, List.nodup_cons] at hnodup
      obtain ⟨candidates, hreturned⟩ := hreturn (code, detector) List.mem_cons_self
      have hdetector : detector ctx = .ok candidates := hreturned
      have hcodes := hown code detector List.mem_cons_self ctx candidates hdetector
      obtain ⟨u, hreconcile, hu, hspec⟩ := reconcile_spec hs code candidates
      rw [firing_keys_own hcodes] at hspec
      have hunparked : u.missing_table_detectors = [] := by
        have hsame := reconcile_parked code candidates s
        rw [hreconcile] at hsame
        exact (show u.missing_table_detectors = s.missing_table_detectors from hsame).trans hparked
      have hround : run_detector ctx code detector s = (.ok candidates, u) := by
        unfold run_detector
        rw [hparked, if_neg List.not_mem_nil, hdetector]
        simp only [hreconcile]
      obtain ⟨found, t, hrun, ht, hclear, hothers, hopen⟩ :=
        ih (fun d hd => hreturn d (List.mem_cons_of_mem _ hd)) hnodup.2 hown.tail u hu hunparked
      refine ⟨candidates ++ found, t, ?_, ht, hclear, fun key hkey => ?_, fun key hkey => ?_⟩
      · rw [run_detectors, Act.bind_of_ok hround, Act.bind_of_ok hrun]
        rfl
      · rw [List.map_cons, List.mem_cons, not_or] at hkey
        rw [hothers key hkey.2, hspec.others key hkey.1]
      · simp only [List.mem_cons, exists_eq_or_imp]
        rw [returns_ok hdetector]
        rcases List.mem_cons.mp hkey with hhead | htail
        · -- the later rounds leave the key alone
          have hlater : key.1 ∉ rest.map Prod.fst := fun h => hnodup.1 (hhead ▸ h)
          rw [hothers key hlater, hspec.isSome_iff hhead]
          refine ⟨.inl, fun h => h.resolve_right ?_⟩
          rintro ⟨d, hd, hreturns⟩
          have hcode := returns_code hown.tail hd hreturns
          exact hlater (hcode ▸ List.mem_map_of_mem hd)
        · rw [hopen key htail]
          refine ⟨.inr, fun h => h.resolve_left fun hmem => ?_⟩
          obtain ⟨cand, hcand, rfl⟩ := List.mem_map.mp hmem
          have hcode : cand.key.1 = code := hcodes cand hcand
          exact hnodup.1 (hcode ▸ htail)

/-! ## In every run -/

/-- A service as its constructor makes it, over a new database. -/
def launched (s : EfficiencyService) : EfficiencyService := { s.migrated with missing_table_detectors := [] }

/-- What can happen to a service. -/
inductive Move where
  | tick (now : Time)
  | acknowledge (finding_id : String)
  | manual_close (finding_id : String)
  /-- the rest of the company goes on, with its log and its approvals -/
  | company (events : EventStore) (db : Option (List Approval))

def move (s : EfficiencyService) : Move → EfficiencyService
  | .tick now => (tick R1_DETECTORS now s).2
  | .acknowledge finding_id => (acknowledge finding_id s).2
  | .manual_close finding_id => (manual_close finding_id s).2
  | .company events db => { s with events, db }

/-- No detector has been parked. -/
def Running (s : EfficiencyService) : Prop := s.Sound ∧ s.missing_table_detectors = []

theorem launched_running (s : EfficiencyService) : s.launched.Running := ⟨s.migrated_sound, rfl⟩

theorem acknowledge_parked (finding_id : String) : Act.Moves SameParked (acknowledge finding_id) := by
  refine Act.Moves.bind SameParked.trans (fun _ => rfl) fun _ => ?_
  exact Act.Moves.pure SameParked.refl _

theorem manual_close_parked (finding_id : String) : Act.Moves SameParked (manual_close finding_id) := by
  refine Act.Moves.bind SameParked.trans (fun _ => rfl) fun finding => ?_
  exact Act.Moves.ite (fun _ => rfl) (Act.Moves.pure SameParked.refl _)

/-- **A tick opens what fires, and closes the rest.** -/
theorem tick_fires {s : EfficiencyService} (hs : s.Running) (now : Time) : (s.move (.tick now)).Running ∧
    ∀ key : FindingKey, key.1 ∈ R1_DETECTORS.map Prod.fst →
      (((s.move (.tick now)).open_finding key).isSome = true ↔ Fires (s.tick_context now) key) := by
  obtain ⟨found, t, hrun, ht, hclear, -, hopen⟩ := run_detectors_open (s.tick_context now) R1_DETECTORS
    (R1_returns _) R1_codes R1_own s hs.1 hs.2
  have hmove : s.move (.tick now) = t := by
    rw [move, tick_eq]
    exact congrArg Prod.snd hrun
  rw [hmove]
  exact ⟨⟨ht, hclear⟩, fun key hkey => (hopen key hkey).trans R1_fires⟩

theorem move_running {s : EfficiencyService} (hs : s.Running) (m : Move) : (s.move m).Running := by
  cases m with
  | tick now => exact (tick_fires hs now).1
  | acknowledge finding_id =>
      exact ⟨(acknowledge_grows finding_id s hs.1).1, Eq.trans (acknowledge_parked finding_id s) hs.2⟩
  | manual_close finding_id =>
      exact ⟨(manual_close_grows finding_id s hs.1).1, Eq.trans (manual_close_parked finding_id s) hs.2⟩
  | company events db => exact hs

/-- **Findings are open where something is wrong.** Whatever ticks, acknowledgements and manual closes there were, and
    whatever the company did in between: after a tick a finding of one of the six detectors is open or acknowledged
    exactly if the condition of the detector holds of its subject, in the rows that the tick has read. -/
theorem open_findings_fire (s : EfficiencyService) (moves : List Move) (now : Time) (key : FindingKey) :
    (key.1 ∈ R1_DETECTORS.map Prod.fst ∧
      ∃ row ∈ ((Machine.exec move s.launched moves).move (.tick now)).rows, row.key = key ∧ row.is_open = true) ↔
      Fires ((Machine.exec move s.launched moves).tick_context now) key := by
  have hrunning : (Machine.exec move s.launched moves).Running := by
    apply Machine.exec_invariant _ s.launched_running
    intro s m hs
    exact move_running hs m
  obtain ⟨⟨ht, -⟩, hopen⟩ := tick_fires hrunning now
  have hrows : (∃ row ∈ ((Machine.exec move s.launched moves).move (.tick now)).rows,
      row.key = key ∧ row.is_open = true) ↔
      (((Machine.exec move s.launched moves).move (.tick now)).open_finding key).isSome = true := by
    rw [Option.isSome_iff_exists]
    exact exists_congr fun row => (Live.current_eq_some ht.unique).symm
  rw [hrows]
  refine ⟨fun h => (hopen key h.1).mp h.2, fun h => ?_⟩
  obtain ⟨d, hd, hreturns⟩ := R1_fires.mpr h
  have hkey : key.1 ∈ R1_DETECTORS.map Prod.fst := returns_code R1_own hd hreturns ▸ List.mem_map_of_mem hd
  exact ⟨hkey, (hopen key hkey).mpr h⟩

end EfficiencyService

end Efficiency

end CompanyFactory
