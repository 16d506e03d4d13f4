import CompanyFactory.EventStore.Json

/-!
# `AgentRuntime.Models` — messages, stream events and the task-done marker

The pure part of a turn: the messages an agent gets, the events an LLM streams, the correlation id of a
tool-use event, and the marker by which the LLM says that a task is done. Text is searched as a list of
characters; `split_once` is `str.split(sep, 1)` and `str.find` in one.
-/

namespace CompanyFactory

inductive MessageKind where
  | USER_REQUEST | AGENT_MESSAGE | APPROVAL_DECIDED | ORPHAN | NOTIFY
  deriving DecidableEq, Repr

def MessageKind.value : MessageKind → String
  | .USER_REQUEST => "user_request"
  | .AGENT_MESSAGE => "agent_message"
  | .APPROVAL_DECIDED => "approval_decided"
  | .ORPHAN => "orphan"
  | .NOTIFY => "notify"

inductive AgentStatus where
  | IDLE | WORKING | BLOCKED | UNHEALTHY | STOPPED
  deriving DecidableEq, Repr

structure IncomingMessage where
  content : String
  kind : MessageKind
  from_agent : Option String := none
  correlation_id : Option String := none
  deriving DecidableEq, Repr

/-- A `tool_use` event of the stream. -/
structure ToolUse where
  tool_use_id : String
  tool_name : String
  tool_input : Fields
  deriving DecidableEq

inductive TurnEvent where
  | text (text : String)
  | tool_use (use : ToolUse)
  | stop (stop_reason : String)
  deriving DecidableEq

structure TurnOutcome where
  text : String
  tool_invocations : Nat
  task_done : Bool
  summary : Option String
  duration_seconds : Rat
  truncated_reason : Option String := none
  deriving DecidableEq

/-- `x or y` on an optional string: an empty one counts as none. -/
def or_else (x : Option String) (y : String) : String :=
  match x with
  | some s => if s = "" then y else s
  | none => y

/-- `_tool_correlation_id` -/
def tool_correlation_id (message_correlation_id : Option String) (tool_use_id : String)
    (tool_invocation_index : Nat) : String :=
  let base := or_else message_correlation_id "turn"
  let suffix := if tool_use_id = "" then toString tool_invocation_index else tool_use_id
  base ++ ":" ++ suffix

/-! ## Text -/

/-- The text before and after the first occurrence of a separator, if there is one. -/
def split_once (sep : List Char) : List Char → Option (List Char × List Char)
  | [] => if sep = [] then some ([], []) else none
  | c :: cs =>
    if sep.isPrefixOf (c :: cs) then some ([], (c :: cs).drop sep.length)
    else (split_once sep cs).map (fun parts => (c :: parts.1, parts.2))

/-- `str.isspace` of one character. -/
def is_space (c : Char) : Bool :=
  let n := c.toNat
  (9 ≤ n && n ≤ 13) || (28 ≤ n && n ≤ 32) || n == 133 || n == 160 || n == 5760 ||
    (8192 ≤ n && n ≤ 8202) || n == 8232 || n == 8233 || n == 8239 || n == 8287 || n == 12288

/-- `str.strip` -/
def strip (text : List Char) : List Char :=
  ((text.dropWhile is_space).reverse.dropWhile is_space).reverse

/-- `text[:n]` -/
def clip (n : Nat) (text : String) : String := String.ofList (text.toList.take n)

def TASK_DONE_OPEN : List Char := "<task_done".toList
def TASK_DONE_CLOSE : List Char := "/>".toList

/-- The summary in the body of a marker. -/
def marker_summary (body : List Char) : Option String :=
  match split_once "summary=".toList body with
  | none => none
  | some (_, after) =>
    match strip after with
    | [] => none
    | quote :: rest =>
      if quote = '\'' || quote = '"' then
        (split_once [quote] rest).map (fun parts => String.ofList parts.1)
      else none

/-- `_detect_task_done` -/
def detect_task_done (text : String) : Bool × Option String :=
  match split_once TASK_DONE_OPEN text.toList with
  | none => (false, none)
  | some (_, rest) =>
    match split_once TASK_DONE_CLOSE rest with
    | none => (false, none)
    | some (body, _) => (true, marker_summary body)

end CompanyFactory
