import CompanyFactory.Efficiency.Models
import CompanyFactory.Lib.Counter

/-!
# `Efficiency.LoopToolRepeat` — an agent that calls one tool again and again

`detectors/loop_tool_repeat.py`. The calls are counted by agent **and** tool, but the subject of a candidate is the
agent: an agent that repeats two tools is returned twice under one key (`keys_nodup_iff`).
-/

namespace CompanyFactory

namespace Efficiency

namespace LoopToolRepeat

def CODE : String := "loop.tool_repeat"

/-- `str(e.payload.get("tool", ""))`; the tool in the payload of a row is a string. -/
def tool_of (e : Event) : String :=
  match e.payload.lookup "tool" with
  | some (.str tool) => tool
  | _ => ""

def recent (ctx : DetectorContext) : List Event :=
  ctx.events.filter fun e => decide (e.kind = .TOOL_CALLED) &&
    decide (ctx.now - e.ts_company ≤ ctx.config.loop_tool_repeat.window_seconds * 1000000)

/-- The agent and the tool of a call, if it names both. -/
def key_of (e : Event) : Option (String × String) :=
  let actor := e.actor_agent_id.getD ""
  let tool := tool_of e
  if actor = "" ∨ tool = "" then none else some (actor, tool)

/-- `samples[(actor, tool)]` -/
def samples (events : List Event) (key : String × String) : List Nat :=
  (events.filter fun e => decide (key_of e = some key)).map Event.id

def candidate (config : LoopToolRepeatConfig) (events : List Event) (key : String × String) (n : Nat) :
    FindingCandidate :=
  let ids := samples events key
  { detector_code := CODE, severity := .WARN, subject_type := .AGENT, subject_id := some key.1
    evidence := [("tool", .str key.2), ("count", .int n), ("window_seconds", .int config.window_seconds),
      ("sample_event_ids", .arr ((ids.drop (ids.length - 5)).map fun id => .int id))]
    recommendation := some ("Agent " ++ key.1 ++ " called tool `" ++ key.2 ++ "` " ++ toString n ++
      " times in the last " ++ toString (config.window_seconds / 60) ++
      " minutes. Their manager should investigate — may be stuck in a loop.") }

/-- The candidates, for the keys of `counts.items()` that reach the threshold. -/
def candidates (ctx : DetectorContext) : List FindingCandidate :=
  ((Counter.of ((recent ctx).filterMap key_of)).filter fun item =>
    decide (ctx.config.loop_tool_repeat.repeat_threshold ≤ item.2)).map fun item =>
      candidate ctx.config.loop_tool_repeat (recent ctx) item.1 item.2

def detect : Detector := fun ctx => .ok (candidates ctx)

/-- How often the agent has called the tool in the window. -/
def calls (ctx : DetectorContext) (actor tool : String) : Nat :=
  (recent ctx).countP fun e => decide (key_of e = some (actor, tool))

/-- The agent has called the tool, and often enough. -/
def Repeats (ctx : DetectorContext) (actor tool : String) : Prop :=
  0 < calls ctx actor tool ∧ ctx.config.loop_tool_repeat.repeat_threshold ≤ calls ctx actor tool

theorem detect_own {ctx : DetectorContext} {candidates : List FindingCandidate} (h : detect ctx = .ok candidates) :
    ∀ cand ∈ candidates, cand.detector_code = CODE := by
  cases h
  intro cand hmem
  obtain ⟨item, -, rfl⟩ := List.mem_map.mp hmem
  rfl

theorem mem_items {ctx : DetectorContext} {actor tool : String} {n : Nat} :
    ((actor, tool), n) ∈ (Counter.of ((recent ctx).filterMap key_of)).filter (fun item =>
      decide (ctx.config.loop_tool_repeat.repeat_threshold ≤ item.2)) ↔
      n = calls ctx actor tool ∧ Repeats ctx actor tool := by
  rw [List.mem_filter, Counter.mem_of_iff, decide_eq_true_iff, Counter.count_filterMap]
  constructor
  · rintro ⟨⟨rfl, hpos⟩, hle⟩
    exact ⟨rfl, hpos, hle⟩
  · rintro ⟨rfl, hpos, hle⟩
    exact ⟨⟨rfl, hpos⟩, hle⟩

/-- **The keys of its candidates are different** exactly if no agent repeats two tools. -/
theorem keys_nodup_iff (ctx : DetectorContext) :
    ((candidates ctx).map FindingCandidate.key).Nodup ↔
      ∀ actor tool tool', Repeats ctx actor tool → Repeats ctx actor tool' → tool = tool' := by
  unfold candidates
  rw [List.map_map]
  have hitems : ((Counter.of ((recent ctx).filterMap key_of)).filter fun item =>
      decide (ctx.config.loop_tool_repeat.repeat_threshold ≤ item.2)).Nodup :=
    (List.Nodup.of_map Prod.fst (Counter.of_nodup _)).filter _
  rw [List.nodup_map_iff_inj_on hitems]
  constructor
  · intro hinj actor tool tool' h h'
    have heq := hinj _ (mem_items.mpr ⟨rfl, h⟩) _ (mem_items.mpr ⟨rfl, h'⟩) rfl
    exact congrArg (fun item => item.1.2) heq
  · rintro hone ⟨⟨actor, tool⟩, n⟩ hitem ⟨⟨actor', tool'⟩, n'⟩ hitem' heq
    obtain ⟨rfl, h⟩ := mem_items.mp hitem
    obtain ⟨rfl, h'⟩ := mem_items.mp hitem'
    -- the keys name the agents
    have hactor : some actor = some actor' := congrArg (fun key : FindingKey => key.2.2) heq
    cases hactor
    rw [hone actor tool tool' h h']

end LoopToolRepeat

end Efficiency

end CompanyFactory
