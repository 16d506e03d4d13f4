import CompanyFactory.Orchestrator.LoopDetector
import CompanyFactory.Orchestrator.RateLimit
import CompanyFactory.Orchestrator.Streams

/-!
# `Orchestrator.Send` — the state of the orchestrator and `send`

The state has the routing table, the queue, the safety gates and the consumer tasks. Two fields are no
data of the source: `sent` lists the envelopes that the queue took from a `send`, and `running` says whether the
last lifecycle call was a `start`.

`_send` asks its gates one after the other; each of them is a definition of its own. The two
notifications that it sends are system messages, which send none themselves.
-/

namespace CompanyFactory

open Act

namespace Orchestrator

/-- The object that is registered for an agent; `ref` tells two objects for one agent apart. -/
structure AgentHandle where
  id : String
  ref : Nat
  deriving DecidableEq

/-- Where the task of a consumer is: at an `await` of its own, in a delivery, or at its end. -/
inductive Phase where
  | idle
  | delivering (env : MessageEnvelope)
  | done
  deriving DecidableEq

structure ConsumerTask where
  handle : AgentHandle
  /-- `_consume_loop` goes on after a delivery, `drain` made one dispatch -/
  loops : Bool
  phase : Phase
  /-- `task.cancel()` was called, and the exception is not raised yet -/
  cancelling : Bool
  deriving DecidableEq

/-- What a handler accepted. -/
structure Delivery where
  handle : AgentHandle
  envelope : MessageEnvelope
  deriving DecidableEq

/-- A row of the `agents` table, as far as the orchestrator reads it. -/
structure OrgRow where
  agent_id : String
  active : Bool
  manager : Option String
  deriving DecidableEq

inductive SendResult where
  | QUEUED | REJECTED_PAUSED | REJECTED_RATE_LIMIT | REJECTED_LOOP | REJECTED_INVALID_TARGET
  | REJECTED_DUPLICATE | REJECTED_TOO_LARGE
  deriving DecidableEq, Repr

end Orchestrator

open Orchestrator in
structure Orchestrator where
  org : List OrgRow
  events : EventStore
  /-- `clock.is_accepting_messages()` -/
  accepting : Bool
  queue : InMemoryMessageQueue
  rate : Orchestrator.RateLimiter
  loops : LoopDetector
  /-- `_agents`, in the order of insertion -/
  agents : List AgentHandle
  /-- `_consumers`: the agent id and the number of its task -/
  consumers : List (String × Nat)
  tasks : List ConsumerTask
  stop_event : Bool
  /-- the `stop` calls that still wait for the tasks they cancelled -/
  stops : List (List Nat)
  loop_strikes : String → Nat
  suspended : List String
  delivered : List Delivery
  sent : List MessageEnvelope
  running : Bool

namespace Orchestrator

/-- A new orchestrator. -/
def fresh (org : List OrgRow) (events : EventStore) (rate : RateLimitConfig)
    (loop_config : LoopDetectorConfig) (lower : String → String) : Orchestrator :=
  { org, events, accepting := true, queue := {}, rate := RateLimiter.fresh rate
    loops := LoopDetector.fresh loop_config lower, agents := [], consumers := [], tasks := []
    stop_event := false, stops := [], loop_strikes := fun _ => 0, suspended := [], delivered := []
    sent := [], running := false }

/-- The arguments of `_send`, with the readings of the two clocks. -/
structure SendRequest where
  from_agent : Option String
  to_agent : String
  content : String
  kind : MessageKind
  correlation_id : Option String
  system : Bool
  now : Time
  monotonic : Rat
  deriving DecidableEq

def _MAX_CONTENT_BYTES : Nat := 256 * 1024
def _LOOP_STRIKES_BEFORE_SUSPEND : Nat := 3

def find_row (o : Orchestrator) (agent_id : String) : Option OrgRow :=
  o.org.find? (fun row => row.agent_id = agent_id)

/-- `_is_active` -/
def is_active (o : Orchestrator) (agent_id : String) : Bool :=
  match o.find_row agent_id with
  | none => false
  | some row => row.active

def is_suspended (o : Orchestrator) (agent_id : String) : Bool := o.suspended.contains agent_id

def registered (o : Orchestrator) (agent_id : String) : Option AgentHandle :=
  o.agents.find? (fun agent => agent.id = agent_id)

/-- The manager that is told about an agent, if there is one. -/
def manager_of (o : Orchestrator) (agent_id : String) : Option String :=
  match (o.find_row agent_id).bind OrgRow.manager with
  | none => none
  | some manager => if manager = "" then none else some manager

def append (post : Post) : Act Orchestrator Exn Unit :=
  Act.on Orchestrator.events (fun events o => { o with events }) (do
    let _ ← EventStore.append post
    pure ())

def health_alert (agent_id severity issue : String) (actor : Option String) : Post :=
  { kind := .AGENT_HEALTH_ALERT
    payload := [("agent_id", .str agent_id), ("issue", .str issue), ("severity", .str severity)]
    actor }

/-- `_notify_manager_suspended` -/
def notify_manager_suspended (agent_id : String) : Act Orchestrator Exn Unit := do
  let manager ← Act.read (fun o => manager_of o agent_id)
  match manager with
  | none => pure ()
  | some _ => append (health_alert agent_id "warn" "suspended_loop_strikes" (some agent_id))

/-- `_handle_loop` -/
def handle_loop (agent_id kind : String) : Act Orchestrator Exn Unit := do
  Act.write fun o =>
    { o with
      loop_strikes := Function.update o.loop_strikes agent_id (o.loop_strikes agent_id + 1) }
  append (health_alert agent_id "warn" ("loop_" ++ kind) (some agent_id))
  let strikes ← Act.read (fun o => o.loop_strikes agent_id)
  if _LOOP_STRIKES_BEFORE_SUSPEND ≤ strikes then do
    Act.write fun o => { o with suspended := o.suspended ++ [agent_id] }
    notify_manager_suspended agent_id
  else pure ()

/-! ## The queue -/

/-- `MessageEnvelope.new` -/
def new_envelope (o : Orchestrator) (req : SendRequest) : MessageEnvelope :=
  { msg_id := o.sent.length, from_agent := req.from_agent, to_agent := req.to_agent,
    content := req.content, kind := req.kind, correlation_id := req.correlation_id,
    enqueued_at := req.now }

/-- The push of a new envelope. -/
def enqueue (env : MessageEnvelope) : Act Orchestrator Exn Unit := fun o =>
  match InMemoryMessageQueue.push env o.queue with
  | (.ok (), queue) => (.ok (), { o with queue, sent := o.sent ++ [env] })
  | (.error e, queue) => (.error e, { o with queue })

/-- The alert when the queue is not there; the exception is raised again. -/
def after_push (req : SendRequest) : Except Exn Unit → Act Orchestrator Exn Unit
  | .ok () => pure ()
  | .error e => do
    append (health_alert req.to_agent "warn" "queue_unavailable" req.from_agent)
    Act.raise e

def persist (req : SendRequest) : Act Orchestrator Exn Unit := do
  let env ← Act.read (fun o => new_envelope o req)
  let pushed ← Act.attempt (enqueue env)
  after_push req pushed

def message_sent (req : SendRequest) : Post :=
  { kind := .MESSAGE_SENT
    payload := [("from_agent", .str (or_else req.from_agent "system")),
      ("to_agent", .str req.to_agent), ("content", .str req.content),
      ("thread_id", .ofOption req.correlation_id)]
    actor := req.from_agent, correlation := req.correlation_id }

/-- Has the recipient been sent a message with this correlation id? -/
def is_duplicate (req : SendRequest) (o : Orchestrator) : Bool :=
  match req.correlation_id with
  | none => false
  | some correlation => decide (correlation ≠ "") &&
      o.queue.has_correlation req.to_agent correlation

/-- Steps 7 and 8: idempotency, push and event. -/
def deliver_to_queue (req : SendRequest) : Act Orchestrator Exn SendResult := do
  let duplicate ← Act.read (is_duplicate req)
  if duplicate then pure .REJECTED_DUPLICATE
  else do
    persist req
    append (message_sent req)
    pure .QUEUED

/-! ## The gates -/

/-- The loop detector. -/
def check_loop (req : SendRequest) : Act Orchestrator Exn (Option String) := fun o =>
  match o.loops.check req.from_agent req.to_agent req.content with
  | (looped, loops) => (.ok looped, { o with loops })

/-- Step 6. -/
def past_loops (req : SendRequest) : Act Orchestrator Exn SendResult := do
  let looped ← check_loop req
  match looped with
  | some kind => do
    handle_loop req.to_agent kind
    pure .REJECTED_LOOP
  | none => deliver_to_queue req

/-- The token bucket of the sender. -/
def consume_token (req : SendRequest) : Act Orchestrator Exn Bool := fun o =>
  match o.rate.try_consume (or_else req.from_agent "?") req.monotonic with
  | (taken, rate) => (.ok taken, { o with rate })

/-- The notification to the sender itself when it sends too much. -/
def slow_down (req : SendRequest) : SendRequest :=
  { req with
    from_agent := none, to_agent := or_else req.from_agent "?"
    content := "rate limit reached, slow down", kind := .NOTIFY, correlation_id := none
    system := true }

/-- The notification to a sender whose recipient cannot be reached. -/
def not_deliverable (req : SendRequest) (sender : String) : SendRequest :=
  { req with
    from_agent := none, to_agent := sender
    content := "Recipient " ++ req.to_agent ++ " is not deliverable.", kind := .NOTIFY
    correlation_id := none, system := true }

/-- What follows a notification whose exceptions are suppressed. -/
def after_notice {α : Type} (noticed : Except Exn SendResult) (result : α) : Act Orchestrator Exn α :=
  match noticed with
  | .ok _ => pure result
  | .error e => if e.isException then pure result else Act.raise e

/-- Step 5. -/
def past_rate (notify : SendRequest → Act Orchestrator Exn SendResult) (req : SendRequest) :
    Act Orchestrator Exn SendResult := do
  if req.system then deliver_to_queue req
  else do
    let taken ← consume_token req
    if taken then past_loops req
    else do
      let noticed ← Act.attempt (notify (slow_down req))
      after_notice noticed .REJECTED_RATE_LIMIT

/-- Step 3, when the recipient is not active or is suspended. -/
def reject_recipient (notify : SendRequest → Act Orchestrator Exn SendResult) (req : SendRequest) :
    Act Orchestrator Exn SendResult :=
  match req.from_agent with
  | none => pure .REJECTED_INVALID_TARGET
  | some sender => do
    let _ ← notify (not_deliverable req sender)
    pure .REJECTED_INVALID_TARGET

/-- `_send`, with the sender of notifications as a parameter. -/
def send_with (notify : SendRequest → Act Orchestrator Exn SendResult) (req : SendRequest) :
    Act Orchestrator Exn SendResult := do
  let o ← Act.read id
  if _MAX_CONTENT_BYTES < req.content.utf8ByteSize then pure .REJECTED_TOO_LARGE
  else if !req.from_agent.all (is_active o) then pure .REJECTED_INVALID_TARGET
  else if !is_active o req.to_agent || is_suspended o req.to_agent then reject_recipient notify req
  else if (o.registered req.to_agent).isNone then pure .REJECTED_INVALID_TARGET
  else if !o.accepting then pure .REJECTED_PAUSED
  else past_rate notify req

/-- `system_send`: with no sender, no limit and no loop check it has nothing to notify of. -/
def system_send : SendRequest → Act Orchestrator Exn SendResult :=
  send_with fun _ => pure .REJECTED_INVALID_TARGET

/-- `_send` -/
def send (req : SendRequest) : Act Orchestrator Exn SendResult := send_with system_send req

/-! ## What a send can write -/

/-- A relation that the writes of a send respect: those of its gates and events, and the push. -/
structure Respects (R : Orchestrator → Orchestrator → Prop) : Prop where
  refl : ∀ o, R o o
  trans : ∀ o o' o'', R o o' → R o' o'' → R o o''
  gates : ∀ o events rate loops loop_strikes suspended,
    R o { o with events, rate, loops, loop_strikes, suspended }
  push : ∀ o req, R o (enqueue (new_envelope o req) o).2

section Respects

variable {R : Orchestrator → Orchestrator → Prop} (h : Respects R)

include h

theorem append_respects (post : Post) : Moves R (append post) :=
  fun o => h.gates o _ o.rate o.loops o.loop_strikes o.suspended

theorem notify_manager_suspended_respects (agent_id : String) :
    Moves R (notify_manager_suspended agent_id) := by
  refine .bind h.trans (.read h.refl _) fun manager => ?_
  cases manager with
  | none => exact .pure h.refl _
  | some _ => exact append_respects h _

theorem handle_loop_respects (agent_id kind : String) : Moves R (handle_loop agent_id kind) := by
  refine .bind h.trans (.write fun o => h.gates o o.events o.rate o.loops _ o.suspended) fun _ => ?_
  refine .bind h.trans (append_respects h _) fun _ => ?_
  refine .bind h.trans (.read h.refl _) fun strikes => .ite ?_ (.pure h.refl _)
  refine .bind h.trans (.write fun o => h.gates o o.events o.rate o.loops o.loop_strikes _) fun _ => ?_
  exact notify_manager_suspended_respects h _

theorem after_push_respects (req : SendRequest) (pushed : Except Exn Unit) :
    Moves R (after_push req pushed) := by
  cases pushed with
  | ok u => exact .pure h.refl _
  | error e => exact .bind h.trans (append_respects h _) fun _ => .raise h.refl _

theorem persist_respects (req : SendRequest) : Moves R (persist req) := by
  intro o
  have hpush := h.push o req
  exact h.trans _ _ _ hpush (after_push_respects h req _ _)

theorem deliver_to_queue_respects (req : SendRequest) : Moves R (deliver_to_queue req) := by
  refine .bind h.trans (.read h.refl _) fun duplicate => .ite (.pure h.refl _) ?_
  refine .bind h.trans (persist_respects h req) fun _ => ?_
  exact .bind h.trans (append_respects h _) fun _ => .pure h.refl _

theorem past_loops_respects (req : SendRequest) : Moves R (past_loops req) := by
  have hcheck : Moves R (check_loop req) := fun o =>
    h.gates o o.events o.rate _ o.loop_strikes o.suspended
  refine .bind h.trans hcheck fun looped => ?_
  cases looped with
  | none => exact deliver_to_queue_respects h req
  | some kind => exact .bind h.trans (handle_loop_respects h _ _) fun _ => .pure h.refl _

theorem send_with_respects {notify : SendRequest → Act Orchestrator Exn SendResult}
    (hnotify : ∀ req, Moves R (notify req)) (req : SendRequest) :
    Moves R (send_with notify req) := by
  have htoken : Moves R (consume_token req) := fun o =>
    h.gates o o.events _ o.loops o.loop_strikes o.suspended
  have hnoticed : ∀ noticed, Moves R (after_notice noticed SendResult.REJECTED_RATE_LIMIT) := by
    intro noticed
    cases noticed with
    | ok _ => exact .pure h.refl _
    | error e => exact .ite (.pure h.refl _) (.raise h.refl _)
  have hrate : Moves R (past_rate notify req) := by
    refine .ite (deliver_to_queue_respects h req) (.bind h.trans htoken fun taken => ?_)
    refine .ite (past_loops_respects h req) ?_
    exact .bind h.trans (.attempt (hnotify _)) hnoticed
  have hreject : Moves R (reject_recipient notify req) := by
    unfold reject_recipient
    split
    · exact .pure h.refl _
    · exact .bind h.trans (hnotify _) fun _ => .pure h.refl _
  refine .bind h.trans (.read h.refl _) fun o => ?_
  exact .ite (.pure h.refl _) (.ite (.pure h.refl _) (.ite hreject (.ite (.pure h.refl _)
    (.ite (.pure h.refl _) hrate))))

/-- **Whatever a send does**, it moves the orchestrator along the relation. -/
theorem send_respects (req : SendRequest) : Moves R (send req) :=
  send_with_respects h (send_with_respects h fun _ => .pure h.refl _) req

end Respects

end Orchestrator

end CompanyFactory
