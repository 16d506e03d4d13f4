import CompanyFactory.AgentRuntime.Models
import Mathlib.Data.List.Dedup
import Mathlib.Data.Rat.Defs
import Mathlib.Logic.Function.Basic

/-!
# `Orchestrator.LoopDetector` — repeated edges and near-duplicate contents

Per recipient a window of the last `(from, to)` edges and a window of the last contents, per pair of agents
a window of the edges in both directions; a window is a `deque` with a `maxlen`. `str.lower` depends on the
Unicode tables of the interpreter, so it is a field of the detector.
-/

namespace CompanyFactory

namespace Orchestrator

structure LoopDetectorConfig where
  structural_window : Nat := 12
  structural_threshold : Nat := 5
  pingpong_threshold : Nat := 3
  semantic_window : Nat := 5
  semantic_similarity : Rat := 9 / 10
  semantic_threshold : Nat := 3
  deriving DecidableEq

/-- Sender and recipient; a system message has no sender. -/
abbrev Edge := Option String × String

structure LoopDetector where
  cfg : LoopDetectorConfig
  /-- `str.lower` -/
  lower : String → String
  edges : String → List Edge
  pair_edges : String × String → List Edge
  contents : String → List String

/-- `deque.append` with a `maxlen`. -/
def push_window {α : Type} (maxlen : Nat) (win : List α) (a : α) : List α :=
  (win ++ [a]).drop (win.length + 1 - maxlen)

/-- `xs[-n:]`; `xs[-0:]` is all of `xs`. -/
def last_n {α : Type} (n : Nat) (xs : List α) : List α :=
  if n = 0 then xs else xs.drop (xs.length - n)

namespace LoopDetector

def fresh (cfg : LoopDetectorConfig) (lower : String → String) : LoopDetector :=
  { cfg, lower, edges := fun _ => [], pair_edges := fun _ => [], contents := fun _ => [] }

/-! ## Structural loops -/

/-- The key of a pair, the same in both directions. -/
def pair_key (a b : String) : String × String := if b < a then (b, a) else (a, b)

/-- `a b a b …` -/
def alternates (a b : Edge) : List Edge → Bool
  | [] => true
  | e :: rest => decide (e = a) && alternates b a rest

def is_pingpong (cfg : LoopDetectorConfig) (win : List Edge) : Bool :=
  decide (cfg.pingpong_threshold * 2 ≤ win.length) &&
    (match last_n (cfg.pingpong_threshold * 2) win with
      | a :: b :: rest => decide (a ≠ b) && alternates a b (a :: b :: rest)
      | _ => false)

/-- The same edge, again and again. -/
def is_pestering (cfg : LoopDetectorConfig) (win : List Edge) (edge : Edge) : Bool :=
  decide (cfg.structural_threshold ≤ win.length) &&
    (last_n cfg.structural_threshold win).all (fun e => decide (e = edge))

/-- `_record_edge` -/
def record_edge (d : LoopDetector) (recipient : String) (edge : Edge) : Bool × LoopDetector :=
  let win := push_window d.cfg.structural_window (d.edges recipient) edge
  let d := { d with edges := Function.update d.edges recipient win }
  if is_pestering d.cfg win edge then (true, d)
  else
    match edge.1 with
    | none => (false, d)
    | some sender =>
      let key := pair_key sender edge.2
      let pair_win := push_window d.cfg.structural_window (d.pair_edges key) edge
      (is_pingpong d.cfg pair_win,
        { d with pair_edges := Function.update d.pair_edges key pair_win })

/-! ## Semantic loops -/

/-- `set(text.lower().split())` -/
def word_set (lower : String → String) (text : String) : List (List Char) :=
  (((lower text).toList.splitOnP is_space).filter (fun w => decide (w ≠ []))).dedup

/-- `_jaccard` -/
def jaccard (lower : String → String) (a b : String) : Rat :=
  let sa := word_set lower a
  let sb := word_set lower b
  if a = "" ∨ b = "" ∨ sa = [] ∨ sb = [] then 0
  else (sa.filter (fun w => sb.contains w)).length / (sa ++ sb).dedup.length

/-- `_record_content` -/
def record_content (d : LoopDetector) (recipient content : String) : Bool × LoopDetector :=
  let win := d.contents recipient
  let similar := win.countP (fun prev =>
    decide (d.cfg.semantic_similarity ≤ jaccard d.lower prev content))
  (decide (d.cfg.semantic_threshold ≤ similar + 1),
    { d with
      contents := Function.update d.contents recipient
        (push_window d.cfg.semantic_window win content) })

/-- `check`: the kind of the loop, if there is one. -/
def check (d : LoopDetector) (from_agent : Option String) (to_agent content : String) :
    Option String × LoopDetector :=
  match d.record_edge to_agent (from_agent, to_agent) with
  | (true, d) => (some "structural", d)
  | (false, d) =>
    match d.record_content to_agent content with
    | (true, d) => (some "semantic", d)
    | (false, d) => (none, d)

end LoopDetector

end Orchestrator

end CompanyFactory
