import CompanyFactory.Lib.Schedule
import CompanyFactory.Lib.Run
import CompanyFactory.Lib.Table
import CompanyFactory.Orchestrator.Atomic
import CompanyFactory.Orchestrator.Consumers
import CompanyFactory.Orchestrator.HealthMonitor

/-!
# `Orchestrator.Watchdog` — the two sweeps of the orchestrator

What the orchestrator keeps for its watchdog, and the two sweeps that the background task runs: `health_sweep` scores
every agent, raises alarms and follows who is blocked; `idle_sweep` nudges agents that have gone silent. Both have no
suspension point of their own, so that a sweep is one step. A sweep that raises ends where it raises; the background
task swallows the exception.

* What the agents say about themselves (`status`, `signals`) may be anything, and changes at any time.
* `unregister` leaves the entries of the agent in all tables of the watchdog.
* A message to a manager about an unhealthy agent is a task of its own (`notices`).
-/

namespace CompanyFactory

open Act

namespace Orchestrator

/-- The two spans of the configuration, in seconds. -/
structure IdleSweepConfig where
  enabled : Bool := true
  agent_idle_after_seconds : Rat := 90
  nudge_cooldown_seconds : Rat := 300

/-- `timedelta(seconds=...)` -/
def timedelta (seconds : Rat) : Time := Rounding.nearest (seconds * 1000000)

def IdleSweepConfig.threshold (cfg : IdleSweepConfig) : Time := timedelta cfg.agent_idle_after_seconds

def IdleSweepConfig.cooldown (cfg : IdleSweepConfig) : Time := timedelta cfg.nudge_cooldown_seconds

structure AgentHealth where
  agent_id : String
  score : Rat
  status : AgentStatus
  consecutive_errors : Nat
  parse_failures : Nat
  repeat_response_count : Nat
  avg_turn_seconds : Rat
  last_heartbeat : Time
  notes : List String
  deriving DecidableEq

/-- The orchestrator, with the fields that only its watchdog reads and writes. -/
structure Watchdog where
  core : Orchestrator
  idle_cfg : IdleSweepConfig
  /-- `agent.status()` -/
  status : AgentHandle → AgentStatus
  /-- `agent.health_signals()` -/
  signals : AgentHandle → HealthSignals
  /-- is there an event loop in which tasks can be created? -/
  event_loop : Bool
  last_message_at : Time
  last_activity_at : String → Option Time
  last_nudge_at : String → Option Time
  last_health_alert : String → Option Time
  /-- `_blocked_since`, in the order of insertion -/
  blocked_since : List (String × Time)
  /-- the messages to managers whose tasks have not run yet -/
  notices : List SendRequest

namespace Watchdog

/-- A new orchestrator. -/
def fresh (org : List OrgRow) (events : EventStore) (rate : RateLimitConfig) (loop_config : LoopDetectorConfig)
    (lower : String → String) (idle_cfg : IdleSweepConfig) (status : AgentHandle → AgentStatus)
    (signals : AgentHandle → HealthSignals) (event_loop : Bool) (now : Time) : Watchdog :=
  { core := Orchestrator.fresh org events rate loop_config lower, idle_cfg, status, signals, event_loop, last_message_at := now
    last_activity_at := fun _ => none, last_nudge_at := fun _ => none, last_health_alert := fun _ => none
    blocked_since := [], notices := [] }

def _DEADLOCK_BLOCKED_AFTER : Time := minutes 30
def _COMPANY_STUCK_AFTER : Time := minutes 60

def publish (post : Post) : Act Watchdog Exn Unit :=
  Act.on Watchdog.core (fun core w => { w with core }) (append post)

def alert (agent_id severity issue : String) : Act Watchdog Exn Unit :=
  publish (health_alert agent_id severity issue (some agent_id))

/-- The time of a message that was queued. -/
def note_sent (now : Time) (result : SendResult) (w : Watchdog) : Watchdog :=
  if result = .QUEUED then { w with last_message_at := now } else w

/-- `system_send` -/
def system_send (req : SendRequest) : Act Watchdog Exn SendResult := do
  let result ← Act.on Watchdog.core (fun core w => { w with core }) (Orchestrator.system_send req)
  Act.write (note_sent req.now result)
  pure result

/-- `with contextlib.suppress(Exception)` -/
def suppress (m : Act Watchdog Exn SendResult) : Act Watchdog Exn Unit := do
  let sent ← Act.attempt m
  match sent with
  | .ok _ => pure ()
  | .error e => if e.isException then pure () else Act.raise e

/-- A message from the orchestrator. -/
def notice (to_agent content : String) (now : Time) : SendRequest :=
  { from_agent := none, to_agent, content, kind := .NOTIFY, correlation_id := none, system := true, now, monotonic := 0 }

/-! ## The health sweep -/

def health (w : Watchdog) (agent : AgentHandle) (now : Time) : AgentHealth :=
  let signals := w.signals agent
  let (score, notes) := compute_score signals now
  { agent_id := agent.id, score, status := w.status agent, consecutive_errors := signals.consecutive_errors
    parse_failures := signals.parse_failures, repeat_response_count := signals.repeat_response_count
    avg_turn_seconds := signals.avg_turn_seconds, last_heartbeat := signals.last_heartbeat, notes }

/-- `",".join(notes)` -/
def join_notes : List String → String
  | [] => ""
  | [note] => note
  | note :: rest => note ++ "," ++ join_notes rest

/-- `",".join(h.notes) or "unhealthy"` -/
def unhealthy_issue (h : AgentHealth) : String :=
  if join_notes h.notes = "" then "unhealthy" else join_notes h.notes

/-- `_notify_manager_unhealthy` -/
def notify_manager_unhealthy (agent_id : String) (now : Time) (w : Watchdog) : Watchdog :=
  match manager_of w.core agent_id with
  | none => w
  | some mgr =>
    if w.event_loop then
      { w with notices := w.notices ++
          [notice mgr ("Agent " ++ agent_id ++ " is unhealthy. Consider intervention.") now] }
    else w

/-- Is it more than a minute since the last alarm about the agent? -/
def may_alert (w : Watchdog) (agent_id : String) (now : Time) : Bool :=
  (w.last_health_alert agent_id).all (fun last => decide (minutes 1 < now - last))

def alert_unhealthy (now : Time) (h : AgentHealth) : Act Watchdog Exn Unit := do
  let due ← Act.read (fun w => may_alert w h.agent_id now)
  if due then do
    Act.write fun w => { w with last_health_alert := Function.update w.last_health_alert h.agent_id (some now) }
    alert h.agent_id "warn" (unhealthy_issue h)
    Act.write (notify_manager_unhealthy h.agent_id now)
  else pure ()

/-- `_blocked_since.get(aid)` -/
def blocked_at (w : Watchdog) (agent_id : String) : Option Time :=
  (Table.find Prod.fst w.blocked_since agent_id).map Prod.snd

/-- `_blocked_since.setdefault(aid, now)`, or `.pop(aid, None)` -/
def note_blocked (now : Time) (agent : AgentHandle) (w : Watchdog) : Watchdog :=
  if w.status agent = .BLOCKED then
    if (w.blocked_at agent.id).isSome then w
    else { w with blocked_since := w.blocked_since ++ [(agent.id, now)] }
  else { w with blocked_since := w.blocked_since.filter (fun entry => entry.1 ≠ agent.id) }

def alert_if_unhealthy (now : Time) (h : AgentHealth) : Act Watchdog Exn Unit :=
  if h.score < UNHEALTHY_CUTOFF then alert_unhealthy now h else pure ()

/-- One agent of a health sweep; `clock` is what `health` reads for the agent. -/
def examine (now : Time) (clock : String → Time) (agent : AgentHandle) : Act Watchdog Exn AgentHealth := do
  let h ← Act.read (fun w => health w agent (clock agent.id))
  alert_if_unhealthy now h
  Act.write (note_blocked now agent)
  pure h

/-- Visit one agent after the other. -/
def visit_all {α : Type} (visit : AgentHandle → Act Watchdog Exn α) : List AgentHandle → Act Watchdog Exn (List α)
  | [] => pure []
  | agent :: rest => do
    let a ← visit agent
    let as ← visit_all visit rest
    pure (a :: as)

def warn_blocked (now : Time) (agent_id : String) (since : Time) : Act Watchdog Exn Unit :=
  if _DEADLOCK_BLOCKED_AFTER < now - since then alert agent_id "warn" "deadlock_warning" else pure ()

/-- `_check_deadlock`, over the entries of `_blocked_since` -/
def check_deadlock (now : Time) : List (String × Time) → Act Watchdog Exn Unit
  | [] => pure ()
  | (agent_id, since) :: rest => do
    warn_blocked now agent_id since
    check_deadlock now rest

/-- `_check_company_stuck` -/
def check_company_stuck (now : Time) : Act Watchdog Exn Unit := do
  let w ← Act.read id
  if _COMPANY_STUCK_AFTER < now - w.last_message_at then
    match w.core.agents.find? (fun agent => w.status agent = .IDLE) with
    | none => pure ()
    | some agent => alert agent.id "warn" "company_stuck"
  else pure ()

def health_sweep (now : Time) (clock : String → Time) : Act Watchdog Exn (List AgentHealth) := do
  let agents ← Act.read (fun w => w.core.agents)
  let out ← visit_all (examine now clock) agents
  let blocked ← Act.read (fun w => w.blocked_since)
  check_deadlock now blocked
  check_company_stuck now
  pure out

/-! ## The idle sweep -/

/-- The whole minutes of a span, and at least one. -/
def idle_minutes (span : Time) : Int := max 1 (span.tdiv 1000000 / 60)

/-- What `_nudge` sends: to the manager of the agent if that is registered, and to the agent itself otherwise. -/
def nudge_notice (w : Watchdog) (agent_id : String) (span now : Time) : SendRequest :=
  let minutes := toString (idle_minutes span)
  let prompt := notice agent_id
    ("No significant activity in the company for the past " ++ minutes ++ " minutes. " ++
      "Your team includes HR and Security. What is your next step? " ++
      "Delegate a concrete task to someone or review your plan.") now
  match manager_of w.core agent_id with
  | none => prompt
  | some mgr =>
    if (w.core.registered mgr).isSome then
      notice mgr
        ("Your subordinate " ++ agent_id ++ " has been idle for approximately " ++ minutes ++ " minutes — " ++
          "ask what they need, or assign them a concrete task. " ++ "If there is no progress, find out why.") now
    else prompt

/-- `_nudge` -/
def nudge (agent_id : String) (span now : Time) : Act Watchdog Exn Unit := do
  let message ← Act.read (fun w => nudge_notice w agent_id span now)
  alert agent_id "info" "idle_nudge"
  suppress (system_send message)

/-- The time of the last activity. -/
def last_seen (w : Watchdog) (agent_id : String) : Time := (w.last_activity_at agent_id).getD w.last_message_at

/-- Is the agent to be nudged? -/
def due (w : Watchdog) (now : Time) (agent : AgentHandle) : Bool :=
  !is_suspended w.core agent.id && decide (w.status agent = .IDLE) &&
    !decide (now - last_seen w agent.id < w.idle_cfg.threshold) &&
    (w.last_nudge_at agent.id).all (fun last => !decide (now - last < w.idle_cfg.cooldown))

/-- One agent of an idle sweep: how many nudges are sent. -/
def poke (now : Time) (clock : String → Time) (agent : AgentHandle) : Act Watchdog Exn Nat := do
  let w ← Act.read id
  if due w now agent then do
    nudge agent.id (now - last_seen w agent.id) (clock agent.id)
    Act.write fun w => { w with last_nudge_at := Function.update w.last_nudge_at agent.id (some now) }
    pure 1
  else pure 0

def idle_sweep (now : Time) (clock : String → Time) : Act Watchdog Exn Nat := do
  let w ← Act.read id
  if w.idle_cfg.enabled then do
    let sent ← visit_all (poke now clock) w.core.agents
    pure sent.sum
  else pure 0

/-! ## Steps -/

/-- A step of the orchestrator's other parts, at a time. `_last_message_at` is written right after every `MESSAGE_SENT`
    event, and so is `_last_activity_at` of a sender whose message was queued. -/
def route (label : Label) (now : Time) (w : Watchdog) : Watchdog :=
  let core := step w.core label
  match label with
  | .register agent => { w with core, last_activity_at := Function.update w.last_activity_at agent.id (some now) }
  | .send req =>
    let w' := { w with
      core, last_message_at :=
        if (gained_events w.core core).any (fun event => event.kind = .MESSAGE_SENT) then now else w.last_message_at }
    match (send req w.core).1, req.from_agent with
    | .ok .QUEUED, some sender =>
      if sender = "" then w'
      else { w' with last_activity_at := Function.update w.last_activity_at sender (some now) }
    | _, _ => w'
  | .deliver_ends n (.ok ()) _ =>
    match w.core.tasks[n]? with
    | some { handle, phase := .delivering _, .. } =>
      { w with core, last_activity_at := Function.update w.last_activity_at handle.id (some now) }
    | _ => { w with core }
  | _ => { w with core }

inductive Action where
  | route (label : Label) (now : Time)
  | health_sweep (now : Time) (clock : String → Time)
  | idle_sweep (now : Time) (clock : String → Time)
  /-- the task of a notice runs -/
  | notice (k : Nat) (now : Time)
  /-- an agent changes what it says about itself -/
  | report (agent : AgentHandle) (status : AgentStatus) (signals : HealthSignals)

/-- The task sends the message; what it raises ends the task. -/
def run_notice (k : Nat) (now : Time) (w : Watchdog) : Watchdog :=
  match w.notices[k]? with
  | none => w
  | some message => (system_send { message with now }).after { w with notices := w.notices.eraseIdx k }

def next (w : Watchdog) : Action → Watchdog
  | .route label now => route label now w
  | .health_sweep now clock => (health_sweep now clock).after w
  | .idle_sweep now clock => (idle_sweep now clock).after w
  | .notice k now => run_notice k now w
  | .report agent status signals =>
    { w with status := Function.update w.status agent status, signals := Function.update w.signals agent signals }

/-- The events that a step adds to the log. -/
def logged (w : Watchdog) (action : Action) : List Event := gained_events w.core (next w action).core

end Watchdog

end Orchestrator

end CompanyFactory
