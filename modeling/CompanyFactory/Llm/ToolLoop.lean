import CompanyFactory.AgentRuntime.Turn
import CompanyFactory.Lib.SingleFlight
import CompanyFactory.Llm.Backoff
import CompanyFactory.Llm.Messages
import CompanyFactory.SecurityAgent.StaticRules

/-!
# `Llm.ToolLoop` — a turn with a client

`_run` is a generator: it asks the provider, yields a tool-use event for each call of the answer, waits for the results,
and asks again. `run_turn` consumes it and hands each result back with `submit_tool_result`. Between a `yield` and the
next `__anext__` only the body of the consumer's loop runs, so a `yield` is a call of that body here, and what the body
raises ends the turn.

* `Bridge.run` is `_run` up to the format of the provider; `github` and `anthropic` are the two formats.
* `run_turn` is `AgentRuntime.run_turn` with the stream of a client.
-/

namespace CompanyFactory

namespace Llm

open Act AgentRuntime

/-- A turn in progress: the runtime, the client, and what has passed between them and the provider. -/
structure Session (μ : Type) where
  rt : Runtime
  progress : Progress
  /-- `_pending` with its futures -/
  futures : Futures String ToolText
  /-- the messages of every request -/
  sent : List (List μ)
  /-- the ids of the tool-use events that were yielded -/
  yielded : List String

/-- What a turn is run with. -/
structure Host where
  env : TurnEnv
  agent_id : String
  msg : IncomingMessage
  /-- `dict(value)` of a value that is no object -/
  dict : Json → Except Exn Fields
  /-- `json.dumps(output, default=str)`, or `str(output)` where that raises -/
  dumps : Fields → String
  /-- what a request or a future that is cancelled raises: the deadline of the consumer, or its own cancellation -/
  interrupted : Exn

variable {μ ρ κ : Type}

def on_runtime {α : Type} (m : Act Runtime Exn α) : Act (Session μ) Exn α :=
  Act.on Session.rt (fun rt s => { s with rt }) m

/-! ## What is yielded -/

def yield_text (text : String) : Act (Session μ) Exn Unit :=
  Act.write fun s => { s with progress := { s.progress with text_chunks := s.progress.text_chunks ++ [text] } }

def yield_stop (reason : String) : Act (Session μ) Exn Unit :=
  Act.write fun s => { s with
    progress := { s.progress with stop_reason := if reason = "" then none else some reason } }

/-- `fut = create_future(); self._pending[id] = fut` -/
def create_future (id : String) : Act (Session μ) Exn Nat := fun s =>
  (.ok (s.futures.register id).1, { s with futures := (s.futures.register id).2 })

namespace Host

variable (host : Host)

/-- `dict(value)` -/
def dict_of : Json → Except Exn Fields
  | .obj fields => .ok fields
  | value => host.dict value

/-- `submit_tool_result` -/
def submit_tool_result (futures : Futures String ToolText) (submission : Submission) : Futures String ToolText :=
  futures.submit submission.tool_use_id { ok := submission.ok, content := host.dumps submission.output }

/-- The body of the consumer for a tool-use event. Arguments that are no dictionary are the tool's exception. -/
def consume (tool_use_id tool_name : String) (tool_input : Json) (index : Nat) : Act Runtime Exn Bool :=
  match host.dict_of tool_input with
  | .ok tool_input => tool_event host.env host.agent_id host.msg { tool_use_id, tool_name, tool_input } index
  | .error e =>
    if e.isException then do
      record_error
      submit host.env index { tool_use_id, ok := false, output := [("error", .str e.str)] }
      pure false
    else Act.raise e

def yield_tool_use (tool_use_id tool_name : String) (tool_input : Json) : Act (Session μ) Exn Unit := fun s =>
  let handled := host.consume tool_use_id tool_name tool_input (s.progress.tool_invocations + 1) s.rt
  -- what the body submits resolves the futures at once
  let s' : Session μ := { s with
    rt := handled.2
    futures := (handled.2.submitted.drop s.rt.submitted.length).foldl host.submit_tool_result s.futures
    yielded := s.yielded ++ [tool_use_id] }
  match handled.1 with
  | .ok replied =>
    (.ok (), { s' with
      progress := { s.progress with
        tool_invocations := s.progress.tool_invocations + 1
        replied_to_sender := s.progress.replied_to_sender || replied } })
  | .error e => (.error e, s')

/-- `await fut` -/
def await_future (fut : Nat) : Act (Session μ) Exn ToolText := fun s =>
  match s.futures.cells[fut]? with
  | some (.done result) => (.ok result, s)
  | some .cancelled => (.error .cancelled, s)
  | some .waiting => (.error host.interrupted, { s with futures := s.futures.cancel fut })
  | none => (.error host.interrupted, { s with futures := s.futures.cancel fut })

end Host

/-! ## The loop -/

/-- The format of a provider. -/
structure Bridge (μ ρ κ : Type) where
  /-- one request, with its retries -/
  ask : List μ → Act (Session μ) Exn ρ
  /-- the tool calls of an answer -/
  calls : ρ → Except Exn (List κ)
  /-- the events of an answer without calls -/
  finish : ρ → Act (Session μ) Exn Unit
  /-- the message that stands for an answer with calls -/
  assistant : ρ → μ
  /-- make the future of a call and yield its event -/
  open_call : κ → Act (Session μ) Exn (String × Nat)
  /-- the messages with the results, by the ids of the calls -/
  tool_results : List (String × ToolText) → List μ

/-- Await each future, in the order in which they were made. -/
def await_all (host : Host) : List (String × Nat) → Act (Session μ) Exn (List (String × ToolText))
  | [] => pure []
  | (id, fut) :: futures => do
      let result ← host.await_future fut
      let results ← await_all host futures
      pure ((id, result) :: results)

/-- Open each call. -/
def open_all (b : Bridge μ ρ κ) : List κ → Act (Session μ) Exn (List (String × Nat))
  | [] => pure []
  | call :: calls => do
      let opened ← b.open_call call
      let futures ← open_all b calls
      pure (opened :: futures)

/-- `_run`, with a number of loops left. -/
def Bridge.run (b : Bridge μ ρ κ) (host : Host) : Nat → List μ → Act (Session μ) Exn Unit
  | 0, _ => yield_stop "tool_loop_cap"
  | loops + 1, messages => do
      let resp ← b.ask messages
      let calls ← Act.ofExcept (b.calls resp)
      if calls.isEmpty then b.finish resp
      else do
        let futures ← open_all b calls
        let results ← await_all host futures
        b.run host loops (messages ++ b.assistant resp :: b.tool_results results)

/-! ## GitHub Models and OpenAI -/

/-- A client of the chat completions. -/
structure ChatClient (α : Type) where
  sdk : Sdk α
  /-- `_provider_name()` -/
  provider : String
  /-- `_backoff_delays()` -/
  delays : List α
  /-- the answer to the `k`-th request of the session -/
  create : Nat → Answer ChatResponse
  /-- `json.loads`; `none` is a `JSONDecodeError` -/
  loads : String → Except Exn (Option Json)
  max_tool_loops : Nat

namespace ChatClient

variable {α : Type} [LinearOrder α] [Zero α] (client : ChatClient α) (host : Host)

/-- `_chat_with_backoff`; each attempt sends the same messages. -/
def ask (messages : List ChatMessage) : Act (Session ChatMessage) Exn ChatResponse := fun s =>
  let chat := chat_with_backoff client.sdk client.provider (fun attempt => client.create (s.sent.length + attempt))
    client.delays
  let s' := { s with sent := s.sent ++ List.replicate chat.slept.length messages }
  match chat.ending with
  | .returned resp => (.ok resp, s')
  | .failed message => (.error (.other "LLMProviderError" message), s')
  | .cancelled => (.error host.interrupted, s')

def calls (resp : ChatResponse) : Except Exn (List FunctionCall) :=
  match resp.choices with
  | [] => .error (.other "IndexError" "list index out of range")
  | choice :: _ => .ok choice.tool_calls

/-- The text of the answer, if there is one, and a final `stop`. -/
def finish (resp : ChatResponse) : Act (Session ChatMessage) Exn Unit :=
  match resp.choices with
  | [] => pure ()
  | choice :: _ => do
      let text := or_else choice.content ""
      if text = "" then yield_stop (or_else choice.finish_reason "")
      else do
        yield_text text
        yield_stop (or_else choice.finish_reason "")

def assistant (resp : ChatResponse) : ChatMessage :=
  match resp.choices with
  | [] => .assistant "" []
  | choice :: _ => .assistant (or_else choice.content "") choice.tool_calls

/-- The arguments of a call; text that is no JSON is passed on as it is. -/
def arguments (call : FunctionCall) : Except Exn Json := do
  let text := or_else call.arguments "\x7b\x7d"
  match ← client.loads text with
  | some args => pure args
  | none => pure (.obj [("_raw", .ofOption call.arguments)])

def open_call (call : FunctionCall) : Act (Session ChatMessage) Exn (String × Nat) := do
  let args ← Act.ofExcept (client.arguments call)
  let fut ← create_future call.id
  host.yield_tool_use call.id call.name args
  pure (call.id, fut)

/-- One message for each result. -/
def tool_results (results : List (String × ToolText)) : List ChatMessage :=
  results.map fun result => .tool result.1 result.2.content

def bridge : Bridge ChatMessage ChatResponse FunctionCall where
  ask := client.ask host
  calls := calls
  finish := finish
  assistant := assistant
  open_call := client.open_call host
  tool_results := tool_results

/-- `GitHubModelsClient._run` -/
def run (system : String) (history : List WorkingItem) : Act (Session ChatMessage) Exn Unit :=
  (client.bridge host).run host client.max_tool_loops (.plain "system" system :: to_openai_history history)

end ChatClient

/-! ## Anthropic -/

/-- A client of the Messages API. -/
structure BlockClient where
  /-- the answer to the `k`-th request of the session -/
  create : Nat → Answer BlockResponse
  max_tool_loops : Nat

namespace BlockClient

variable (client : BlockClient) (host : Host)

def ask (messages : List BlockMessage) : Act (Session BlockMessage) Exn BlockResponse := fun s =>
  let s' := { s with sent := s.sent ++ [messages] }
  match client.create s.sent.length with
  | .response resp => (.ok resp, s')
  | .raises exc => (.error (.other "LLMProviderError" ("anthropic call failed: " ++ exc.str)), s')
  | .cancelled => (.error host.interrupted, s')

/-- The id, the name and the input of a `tool_use` block. -/
def tool_use : Block → Option (String × String × Json)
  | .tool_use id name input => some (id, name, input)
  | .text _ => none
  | .tool_result _ _ _ => none
  | .other _ => none

def tool_uses (resp : BlockResponse) : List (String × String × Json) := resp.content.filterMap tool_use

/-- The texts of the answer that are not empty. -/
def yield_texts : List Block → Act (Session BlockMessage) Exn Unit
  | [] => pure ()
  | .text text :: content =>
    if text = "" then yield_texts content
    else do
      yield_text text
      yield_texts content
  | .tool_use _ _ _ :: content => yield_texts content
  | .tool_result _ _ _ :: content => yield_texts content
  | .other _ :: content => yield_texts content

def finish (resp : BlockResponse) : Act (Session BlockMessage) Exn Unit := do
  yield_texts resp.content
  yield_stop (or_else resp.stop_reason "")

/-- Is it one of the blocks that are sent back? -/
def is_recorded : Block → Bool
  | .text _ => true
  | .tool_use _ _ _ => true
  | .tool_result _ _ _ => false
  | .other _ => false

def assistant (resp : BlockResponse) : BlockMessage := .blocks "assistant" (resp.content.filter is_recorded)

def open_call (call : String × String × Json) : Act (Session BlockMessage) Exn (String × Nat) := do
  let fut ← create_future call.1
  -- `dict(tu.input or {})`
  let input ← Act.ofExcept (host.dict_of (if StaticRules.truthy call.2.2 then call.2.2 else .obj []))
  host.yield_tool_use call.1 call.2.1 (.obj input)
  pure (call.1, fut)

/-- One message with a block for each result. -/
def tool_results (results : List (String × ToolText)) : List BlockMessage :=
  [.blocks "user" (results.map fun result => .tool_result result.1 result.2.content (!result.2.ok))]

def bridge : Bridge BlockMessage BlockResponse (String × String × Json) where
  ask := client.ask host
  calls resp := .ok (tool_uses resp)
  finish := finish
  assistant := assistant
  open_call := open_call host
  tool_results := tool_results

/-- `AnthropicClient._run`; the system prompt is not one of the messages. -/
def run (_system : String) (history : List WorkingItem) : Act (Session BlockMessage) Exn Unit :=
  (client.bridge host).run host client.max_tool_loops (to_messages history)

end BlockClient

/-! ## The turn -/

/-- `wait_for(_run_llm_with_retry(…))`; a client makes its generator at once. -/
def open_client (host : Host) : Act Runtime Exn Unit :=
  if host.env.opening_times_out then do
    record_error
    Act.raise (.turnTimeout "llm timeout")
  else pure ()

/-- `run_turn` with the stream of a client. -/
def run_turn (host : Host) (stream : String → List WorkingItem → Act (Session μ) Exn Unit) :
    Act (Session μ) Exn TurnOutcome := do
  on_runtime (remember host.agent_id (user_item host.msg host.env.now))
  on_runtime (append (delivered_post host.agent_id host.msg host.env.now))
  let hits ← Act.ofExcept host.env.recall
  let persona ← Act.ofExcept host.env.persona
  let system := persona ++ "\n\n" ++ format_recall hits
  let history ← Act.read fun s => s.rt.memory.working_window host.agent_id 20
  on_runtime (open_client host)
  Act.write fun s => { s with progress := {} }
  let ended ← Act.attempt (stream system history)
  on_runtime (guard_stream (Act.ofExcept ended))
  let progress ← Act.read Session.progress
  on_runtime (finish_turn host.env host.agent_id host.msg progress)

end Llm

end CompanyFactory
