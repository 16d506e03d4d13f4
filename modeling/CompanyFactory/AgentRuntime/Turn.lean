import CompanyFactory.AgentRuntime.Models
import CompanyFactory.Memory.Service
import CompanyFactory.Tools.Service

/-!
# `AgentRuntime.Turn` — one turn of an agent

`run_turn` takes a message through working memory, recall, persona, the LLM stream with its tool calls,
and the events at the end; `handle_message` is what the run loop wraps around it. A turn reads and writes
a `Runtime`: the services of the company, the memory, and the agent's own health and status.

What the collaborators outside the repository's control answer — the embedder behind `recall`, the persona
templates, the LLM, the executors — is an input, `TurnEnv`. A turn is one step here; what runs between its
await points is part of `exec` and of the answers.
-/

namespace CompanyFactory

/-- What the LLM's stream does next: an event, or an exception (a missed deadline is `timeout`). -/
inductive StreamItem where
  | event (ev : TurnEvent)
  | raises (e : Exn)
  deriving DecidableEq

/-- What the collaborators of a turn answer. -/
structure TurnEnv where
  defs : ToolDefs
  «recall» : Except Exn (List RecallHit)
  persona : Except Exn String
  /-- the `k`-th attempt of `ctx.llm.run_turn`, on a system prompt and a history -/
  llm : Nat → String → List WorkingItem → Except Exn (List StreamItem)
  /-- `wait_for` gives up before the stream is open -/
  opening_times_out : Bool
  exec : ToolCall → Company → ToolOutcome × Company
  /-- `ctx.llm.submit_tool_result` for the `k`-th tool call of the turn -/
  submit : Nat → Except Exn Unit
  /-- `ctx.llm.completion` -/
  completion : Except Exn String
  now : Time
  duration_seconds : Rat

/-- The counters of `HealthTracker` that a turn changes. -/
structure Health where
  consecutive_errors : Nat
  total_turns : Nat
  sum_turn_seconds : Rat
  deriving DecidableEq

/-- What `submit_tool_result` was given. -/
structure Submission where
  tool_use_id : String
  ok : Bool
  output : Fields
  deriving DecidableEq

structure Runtime where
  co : Company
  memory : Memory
  health : Health
  status : AgentStatus
  submitted : List Submission

namespace AgentRuntime

open Act

def _LLM_RETRY_ATTEMPTS : Nat := 2

/-! ## The parts of the runtime -/

def on_company {α : Type} (m : Act Company Exn α) : Act Runtime Exn α :=
  Act.on Runtime.co (fun co rt => { rt with co }) m

def on_memory (m : Act Memory Exn Unit) : Act Runtime Exn Unit :=
  Act.on Runtime.memory (fun memory rt => { rt with memory }) m

def append (post : Post) : Act Runtime Exn Unit := on_company (Company.append post)

def remember (agent_id : String) (item : WorkingItem) : Act Runtime Exn Unit :=
  on_memory (Memory.append_working agent_id item)

def record_error : Act Runtime Exn Unit :=
  Act.write fun rt => { rt with
    health := { rt.health with consecutive_errors := rt.health.consecutive_errors + 1 } }

/-- `record_turn`, then `reset_error_streak`. -/
def record_turn (duration_seconds : Rat) : Act Runtime Exn Unit :=
  Act.write fun rt => { rt with
    health := { consecutive_errors := 0, total_turns := rt.health.total_turns + 1
                sum_turn_seconds := rt.health.sum_turn_seconds + max 0 duration_seconds } }

def set_status (status : AgentStatus) : Act Runtime Exn Unit :=
  Act.write fun rt => { rt with status }

/-! ## The events of a turn -/

def delivered_post (agent_id : String) (msg : IncomingMessage) (now : Time) : Post :=
  { kind := .MESSAGE_DELIVERED
    payload := [("message_id", .str (or_else msg.correlation_id ("m-" ++ toString (now.tdiv 1000)))),
      ("to_agent", .str agent_id)]
    actor := msg.from_agent, correlation := msg.correlation_id }

def truncated_post (agent_id reason : String) (tool_invocations : Nat) (msg : IncomingMessage) :
    Post :=
  { kind := .AGENT_TURN_TRUNCATED
    payload := [("agent_id", .str agent_id), ("reason", .str reason),
      ("tool_invocations", .int tool_invocations)]
    actor := some agent_id, correlation := msg.correlation_id }

def completed_post (agent_id : String) (done : Bool) (duration_seconds : Rat)
    (tool_invocations : Nat) (msg : IncomingMessage) : Post :=
  { kind := .AGENT_TURN_COMPLETED
    payload := [("agent_id", .str agent_id), ("task_done", .bool done),
      ("duration_seconds", .num duration_seconds), ("tool_invocations", .int tool_invocations)]
    actor := some agent_id, correlation := msg.correlation_id }

def heartbeat_post (agent_id : String) : Post :=
  { kind := .AGENT_HEARTBEAT, payload := [("agent_id", .str agent_id), ("state", .str "idle")]
    actor := some agent_id }

def alert_post (agent_id issue detail : String) : Post :=
  { kind := .AGENT_HEALTH_ALERT
    payload := [("agent_id", .str agent_id), ("issue", .str issue), ("severity", .str "warn"),
      ("detail", .str (clip 500 detail))]
    actor := some agent_id }

/-! ## Opening the stream -/

/-- `_format_recall` -/
def format_recall (hits : List RecallHit) : String :=
  if hits.isEmpty then "No relevant memories."
  else "\n".intercalate ("Relevant memories:" :: hits.map (fun h =>
    "- (" ++ h.kind ++ ", score=" ++ h.score ++ ") " ++ h.content))

/-- `_run_llm_with_retry` from its `k`-th attempt, with `left` further ones. -/
def run_llm_with_retry (llm : Nat → Except Exn (List StreamItem)) :
    Nat → Nat → Except Exn (List StreamItem)
  | left, k =>
    match llm k with
    | .ok stream => .ok stream
    | .error e =>
      if e.isException then
        match left with
        | 0 => .error (.llmFailure e.str)
        | left + 1 => run_llm_with_retry llm left (k + 1)
      else .error e

/-- The stream, or the exception that opening it ends in. -/
def open_stream (env : TurnEnv) (system : String) (history : List WorkingItem) :
    Act Runtime Exn (List StreamItem) :=
  if env.opening_times_out then do
    record_error
    Act.raise (.turnTimeout "llm timeout")
  else Act.ofExcept (run_llm_with_retry (fun k => env.llm k system history) _LLM_RETRY_ATTEMPTS 1)

/-! ## One tool-use event -/

/-- The call that a tool-use event makes. Its id contains a colon, so no `uuid4` replaces it. -/
def tool_invocation (agent_id : String) (msg : IncomingMessage) (use : ToolUse) (index : Nat)
    (now : Time) : Invocation :=
  { agent_id, tool_name := use.tool_name, args := use.tool_input
    correlation_id := some (tool_correlation_id msg.correlation_id use.tool_use_id index)
    uuid := "", now }

/-- Does the call answer the sender of the message? -/
def replies (msg : IncomingMessage) (use : ToolUse) (result : ToolResult) : Bool :=
  result.ok && decide (use.tool_name = "send_message") &&
    msg.from_agent.any (fun sender => decide (sender ≠ "") &&
      decide (use.tool_input.lookup "recipient_id" = some (.str sender)))

/-- The reason of a rejection: of a call that failed, or of a `send_message` that the orchestrator
    rejected although the call succeeded. -/
def rejection_reason (tool_name : String) (result : ToolResult) : Option String :=
  if !result.ok then
    some (or_else result.error_message (or_else result.error_code "tool_failed"))
  else if tool_name = "send_message" then
    match result.output.bind (fun output => output.dump.lookup "message_id") with
    | some (.str message_id) =>
      (split_once ":rejected:".toList message_id.toList).map (fun parts => String.ofList parts.2)
    | _ => none
  else none

/-- What the LLM is told about a result. -/
def result_payload (tool_name : String) (result : ToolResult) : Fields :=
  [("ok", .bool result.ok), ("error_code", .ofOption result.error_code),
    ("error_message", .ofOption result.error_message)] ++
  (match result.output with
    | some output => [("output", .obj output.dump)]
    | none => []) ++
  (match rejection_reason tool_name result with
    | some reason =>
      if reason = "" then [] else [("rejected", .bool true), ("rejection_reason", .str reason)]
    | none => [])

def tool_item (tool_name : String) (ok : Bool) (now : Time) : WorkingItem :=
  { role := "tool", content := tool_name ++ ": ok=" ++ (if ok then "True" else "False")
    ts_company := now, metadata := [("tool", .str tool_name)] }

def rejection_item (tool_name reason : String) (now : Time) : WorkingItem :=
  { role := "system"
    content := "Your last `" ++ tool_name ++ "` call was rejected: " ++ reason ++
      ". Do NOT retry the same call — change something concrete (different recipient, different " ++
      "reports_to, different content) or escalate to your manager."
    ts_company := now, metadata := [("tool", .str tool_name), ("rejection", .str reason)] }

def submit (env : TurnEnv) (index : Nat) (submission : Submission) : Act Runtime Exn Unit := do
  Act.write fun rt => { rt with submitted := rt.submitted ++ [submission] }
  Act.ofExcept (env.submit index)

/-- A tool-use event: invoke the tool, tell the LLM, take notes. Returns whether it answered the sender. -/
def tool_event (env : TurnEnv) (agent_id : String) (msg : IncomingMessage) (use : ToolUse)
    (index : Nat) : Act Runtime Exn Bool := do
  let invoked ← Act.attempt (on_company
    (Tools.invoke env.defs env.exec (tool_invocation agent_id msg use index env.now)))
  match invoked with
  | .error e =>
    if e.isException then do
      record_error
      submit env index { tool_use_id := use.tool_use_id, ok := false, output := [("error", .str e.str)] }
      pure false
    else Act.raise e
  | .ok result => do
      let rejection := rejection_reason use.tool_name result
      let effective_ok := result.ok && rejection.isNone
      submit env index { tool_use_id := use.tool_use_id, ok := effective_ok
                         output := result_payload use.tool_name result }
      remember agent_id (tool_item use.tool_name effective_ok env.now)
      match rejection with
      | some reason =>
        if reason = "" then pure (replies msg use result)
        else do
          remember agent_id (rejection_item use.tool_name reason env.now)
          pure (replies msg use result)
      | none => pure (replies msg use result)

/-! ## The stream -/

/-- The locals of the stream loop. -/
structure Progress where
  text_chunks : List String := []
  tool_invocations : Nat := 0
  replied_to_sender : Bool := false
  stop_reason : Option String := none
  deriving DecidableEq

def stream_loop (env : TurnEnv) (agent_id : String) (msg : IncomingMessage) :
    List StreamItem → Progress → Act Runtime Exn Progress
  | [], p => pure p
  | .raises e :: _, _ => Act.raise e
  | .event (.stop reason) :: rest, p =>
      stream_loop env agent_id msg rest
        { p with stop_reason := if reason = "" then none else some reason }
  | .event (.text text) :: rest, p =>
      stream_loop env agent_id msg rest { p with text_chunks := p.text_chunks ++ [text] }
  | .event (.tool_use use) :: rest, p => do
      let replied ← tool_event env agent_id msg use (p.tool_invocations + 1)
      stream_loop env agent_id msg rest
        { p with
          tool_invocations := p.tool_invocations + 1
          replied_to_sender := p.replied_to_sender || replied }

/-- The exception handlers around the stream loop. -/
def guard_stream {α : Type} (body : Act Runtime Exn α) : Act Runtime Exn α := do
  let ended ← Act.attempt body
  match ended with
  | .ok a => pure a
  | .error (.llmFailure message) => do
      record_error
      Act.raise (.llmFailure message)
  | .error (.turnTimeout message) => do
      record_error
      Act.raise (.turnTimeout message)
  | .error .timeout => do
      record_error
      Act.raise (.turnTimeout "llm stream timeout")
  | .error e =>
    if e.isException then do
      record_error
      Act.raise (.llmFailure (or_else (some e.str) "llm_stream_error"))
    else Act.raise e

/-! ## After the stream -/

def truncation_item (tool_invocations : Nat) (now : Time) : WorkingItem :=
  { role := "system"
    content := "Your previous turn was cut off at the tool-call cap after " ++
      toString tool_invocations ++ " tool calls. Continue from where you left off — do not restart " ++
      "the plan."
    ts_company := now }

/-- The call that acknowledges a message which the turn has not answered. -/
def ack_invocation (agent_id sender full_text : String) (msg : IncomingMessage) (now : Time) :
    Invocation :=
  let body := or_else (some (String.ofList (strip full_text.toList))) "Understood."
  { agent_id, tool_name := "send_message"
    args := [("recipient_id", .str sender), ("body", .str (clip 1500 body))]
    correlation_id := some (or_else msg.correlation_id "turn" ++ ":auto_ack"), uuid := "", now }

def auto_ack (env : TurnEnv) (agent_id full_text : String) (msg : IncomingMessage)
    (replied_to_sender : Bool) : Act Runtime Exn Unit :=
  match msg.from_agent with
  | none => pure ()
  | some sender =>
    if sender = "" ∨ sender = "system" ∨ replied_to_sender = true then pure ()
    else do
      let acked ← Act.attempt (on_company
        (Tools.invoke env.defs env.exec (ack_invocation agent_id sender full_text msg env.now)))
      match acked with
      | .ok _ => pure ()
      | .error e => if e.isException then pure () else Act.raise e

def note_text (env : TurnEnv) (agent_id full_text : String) : Act Runtime Exn Unit :=
  if full_text = "" then pure ()
  else remember agent_id { role := "agent", content := full_text, ts_company := env.now }

def note_truncation (env : TurnEnv) (agent_id : String) (msg : IncomingMessage) (p : Progress) :
    Act Runtime Exn Unit :=
  if p.stop_reason = some "tool_loop_cap" then do
    append (truncated_post agent_id "tool_loop_cap" p.tool_invocations msg)
    remember agent_id (truncation_item p.tool_invocations env.now)
  else pure ()

/-- From the end of the stream to the outcome. -/
def finish_turn (env : TurnEnv) (agent_id : String) (msg : IncomingMessage) (p : Progress) :
    Act Runtime Exn TurnOutcome := do
  let full_text := "".intercalate p.text_chunks
  let marker := detect_task_done full_text
  note_text env agent_id full_text
  note_truncation env agent_id msg p
  auto_ack env agent_id full_text msg p.replied_to_sender
  record_turn env.duration_seconds
  append (completed_post agent_id marker.1 env.duration_seconds p.tool_invocations msg)
  append (heartbeat_post agent_id)
  pure { text := full_text, tool_invocations := p.tool_invocations, task_done := marker.1
         summary := marker.2, duration_seconds := env.duration_seconds
         truncated_reason := if p.stop_reason = some "tool_loop_cap" then p.stop_reason else none }

def user_item (msg : IncomingMessage) (now : Time) : WorkingItem :=
  { role := "user", content := msg.content, ts_company := now
    metadata := [("kind", .str msg.kind.value), ("from_agent", .str (msg.from_agent.getD "")),
      ("correlation_id", .str (msg.correlation_id.getD ""))] }

def run_turn (env : TurnEnv) (agent_id : String) (msg : IncomingMessage) :
    Act Runtime Exn TurnOutcome := do
  remember agent_id (user_item msg env.now)
  append (delivered_post agent_id msg env.now)
  let hits ← Act.ofExcept env.recall
  let persona ← Act.ofExcept env.persona
  let system := persona ++ "\n\n" ++ format_recall hits
  let history ← Act.read fun rt => rt.memory.working_window agent_id 20
  let stream ← open_stream env system history
  let progress ← guard_stream (stream_loop env agent_id msg stream {})
  finish_turn env agent_id msg progress

/-! ## The handler of the run loop -/

/-- The summary of a finished task: the one in the marker, or what the LLM says; where it raises, the text
    of the turn. -/
def summarize (env : TurnEnv) (outcome : TurnOutcome) : Except Exn String :=
  match or_else outcome.summary "" with
  | "" =>
    match env.completion with
    | .ok summary => .ok summary
    | .error e =>
      if e.isException then .ok (or_else (some (clip 500 outcome.text)) "(no summary)")
      else .error e
  | summary => .ok summary

/-- `_summarize_and_remember` -/
def summarize_and_remember (env : TurnEnv) (agent_id : String) (msg : IncomingMessage)
    (outcome : TurnOutcome) : Act Runtime Exn Unit := do
  let summary ← Act.ofExcept (summarize env outcome)
  on_memory (Memory.remember_episode agent_id summary
    [("correlation_id", .str (msg.correlation_id.getD ""))])

/-- The alert that a failed turn raises before the exception goes on. -/
def alert_and_raise (agent_id issue : String) (e : Exn) : Act Runtime Exn TurnOutcome := do
  record_error
  set_status .UNHEALTHY
  append (alert_post agent_id issue e.str)
  Act.raise e

/-- What follows a turn that returned. -/
def conclude (env : TurnEnv) (agent_id : String) (msg : IncomingMessage) (outcome : TurnOutcome) :
    Act Runtime Exn Unit :=
  if outcome.task_done then summarize_and_remember env agent_id msg outcome else pure ()

/-- The body of the `try` statement: `identity.get`, then the turn. -/
def begin_turn (env : TurnEnv) (agent_id : String) (msg : IncomingMessage) :
    Act Runtime Exn TurnOutcome := do
  let record ← Act.read fun rt => rt.co.agents agent_id
  match record with
  | none => Act.raise (.keyError agent_id)
  | some _ => run_turn env agent_id msg

/-- The handlers, and what follows a turn that returned. -/
def end_turn (env : TurnEnv) (agent_id : String) (msg : IncomingMessage) :
    Except Exn TurnOutcome → Act Runtime Exn TurnOutcome
  | .error (.llmFailure message) => alert_and_raise agent_id "llm_failure" (.llmFailure message)
  | .error (.turnTimeout message) => alert_and_raise agent_id "turn_timeout" (.turnTimeout message)
  | .error e => Act.raise e
  | .ok outcome => do
      conclude env agent_id msg outcome
      set_status .IDLE
      pure outcome

/-- `_handle_message` -/
def handle_message (env : TurnEnv) (agent_id : String) (msg : IncomingMessage) :
    Act Runtime Exn TurnOutcome := do
  set_status .WORKING
  let ended ← Act.attempt (begin_turn env agent_id msg)
  end_turn env agent_id msg ended

end AgentRuntime

end CompanyFactory
