import CompanyFactory.AgentRuntime.Turn
import CompanyFactory.Lib.Run
import CompanyFactory.Tools.Errors

/-!
# `AgentRuntime.Loop` — the run loop of an agent

The task of an agent takes a message from the inbox, puts it back at the end while the clock does not accept
messages, and otherwise runs a turn on it. **An exception that leaves `_handle_message` ends the task**: the
loop has no handler, and whatever is delivered afterwards stays in the inbox.

* `Smooth` — a turn in which the collaborators answer, the stores take what the turn itself writes, and
  nothing is cancelled. Tools may fail in such a turn as they like; `handle_message_returns`: it returns.
* `Survives` — the turns of a run are smooth, and no message is put back behind another one.
* `every_message_handled` — along such a run the loop lives, and has handled what was delivered, in order.
-/

namespace CompanyFactory

open Act Company Machine

namespace AgentRuntime

/-! ## A turn that returns -/

/-- The kinds of events that a turn which returns appends itself. -/
def of_turn : EventKind → Bool
  | .MESSAGE_DELIVERED | .AGENT_TURN_TRUNCATED | .AGENT_TURN_COMPLETED | .AGENT_HEARTBEAT => true
  | _ => false

/-- The stores take what the turn writes. -/
structure Ready (rt : Runtime) : Prop where
  memory : ∀ n, rt.memory.refuses n = none
  events : ∀ n post, of_turn post.kind = true → rt.co.events.refuses n post = none

/-- The history that the LLM gets. -/
def history_of (env : TurnEnv) (agent_id : String) (msg : IncomingMessage) (memory : Memory) :
    List WorkingItem :=
  { memory with working := memory.working ++ [(agent_id, user_item msg env.now)] }.working_window
    agent_id 20

structure Smooth (env : TurnEnv) (agent_id : String) (msg : IncomingMessage) (rt : Runtime) :
    Prop where
  /-- the agent is in the organisation -/
  employed : rt.co.agents agent_id ≠ none
  ready : Ready rt
  /-- recall, persona and LLM answer, and the stream brings nothing but events -/
  answers : ∃ hits persona stream, env.recall = .ok hits ∧ env.persona = .ok persona ∧
    env.opening_times_out = false ∧
    run_llm_with_retry (fun k => env.llm k (persona ++ "\n\n" ++ format_recall hits)
      (history_of env agent_id msg rt.memory)) _LLM_RETRY_ATTEMPTS 1 = .ok stream ∧
    ∀ item ∈ stream, ∃ ev, item = .event ev
  submits : ∀ k, env.submit k = .ok ()
  /-- neither a gate of a tool nor an executor nor the final completion is cancelled -/
  gates : ∀ co i e, Tools.run_gates env.defs co i = .raised e → e.isException = true
  executors : ∀ call co, abandoned (env.exec call co).1 = false
  completes : abandoned env.completion = false
  /-- what runs beside an executor does not change what the event store refuses -/
  executors_keep : ∀ call co, SameRefuses co (env.exec call co).2

section Turn

variable {env : TurnEnv} {agent_id : String} {msg : IncomingMessage} {rt : Runtime}

theorem ready_of_same {f : Runtime → Runtime} (h : ∀ rt, (f rt).co = rt.co ∧ (f rt).memory = rt.memory)
    (hready : Ready rt) : Ready (f rt) where
  memory := by rw [(h rt).2]; exact hready.memory
  events := by rw [(h rt).1]; exact hready.events

theorem write_total {f : Runtime → Runtime} (h : ∀ rt, (f rt).co = rt.co ∧ (f rt).memory = rt.memory) :
    Total (ε := Exn) Ready (fun _ => True) (Act.write f) :=
  Total.write (fun _ hready => ready_of_same h hready) trivial

theorem on_memory_total (f : Memory → Memory) (hf : ∀ m, (f m).refuses = m.refuses) :
    Total Ready (fun _ => True) (on_memory (Memory.attempt_write f)) := by
  intro rt hready
  have hwrite : Memory.attempt_write f rt.memory =
      (.ok (), f { rt.memory with attempts := rt.memory.attempts + 1 }) := by
    rw [Memory.attempt_write, hready.memory]
  refine ⟨(), { rt with memory := f { rt.memory with attempts := rt.memory.attempts + 1 } }, ?_,
    trivial, ⟨fun n => ?_, hready.events⟩⟩
  · rw [on_memory, on_run, hwrite]
  · show (f { rt.memory with attempts := rt.memory.attempts + 1 }).refuses n = none
    rw [hf]
    exact hready.memory n

theorem remember_total (agent_id : String) (item : WorkingItem) :
    Total Ready (fun _ => True) (remember agent_id item) :=
  on_memory_total _ fun _ => rfl

/-- An event of the turn itself is taken. -/
theorem append_total {post : Post} (hkind : of_turn post.kind = true)
    (hval : ∃ validated, EventStore.validate_payload post.kind post.payload = .ok validated) :
    Total Ready (fun _ => True) (append post) := by
  intro rt hready
  obtain ⟨validated, hvalid⟩ := hval
  have happ : EventStore.append post rt.co.events = (.ok (rt.co.events.row post validated),
      { rt.co.events with
        log := rt.co.events.log ++ [rt.co.events.row post validated]
        attempts := rt.co.events.attempts + 1 }) := by
    rw [EventStore.append, hvalid]
    dsimp only
    rw [hready.events _ _ hkind]
  have hrefuses := append_same_refuses post rt.co
  refine ⟨(), { rt with co := (Company.append post rt.co).2 }, ?_, trivial, hready.memory, fun n p hp => ?_⟩
  · have hrun : (Company.append post rt.co).1 = .ok () := by
      rw [Company.append, on_run, bind_of_ok happ]
      rfl
    show ((Company.append post rt.co).1, _) = _
    rw [hrun]
  · show (Company.append post rt.co).2.events.refuses n p = none
    rw [hrefuses]
    exact hready.events n p hp

/-- A tool call in a `try` statement: it may fail, but not end the turn. -/
theorem invoke_total (h : Smooth env agent_id msg rt) (i : Invocation) :
    Total Ready (fun r => ∀ e, r = .error e → e.isException = true)
      (Act.attempt (on_company (Tools.invoke env.defs env.exec i))) := by
  refine Total.attempt (fun rt' hready => ?_) (Raises.on (Tools.invoke_caught (h.gates · i) h.executors))
  have hsame : SameRefuses rt'.co (Tools.invoke env.defs env.exec i rt'.co).2 :=
    Tools.invoke_same_refuses h.executors_keep rt'.co
  refine ⟨hready.memory, fun n post hkind => ?_⟩
  show (Tools.invoke env.defs env.exec i rt'.co).2.events.refuses n post = none
  rw [hsame]
  exact hready.events n post hkind

theorem submit_total (h : Smooth env agent_id msg rt) (index : Nat) (submission : Submission) :
    Total Ready (fun _ => True) (submit env index submission) := by
  refine Total.bind (write_total fun _ => ⟨rfl, rfl⟩) fun _ _ => ?_
  rw [h.submits index]
  exact Total.pure trivial

theorem tool_event_total (h : Smooth env agent_id msg rt) (use : ToolUse) (index : Nat) :
    Total Ready (fun _ => True) (tool_event env agent_id msg use index) := by
  refine Total.bind (invoke_total h _) fun invoked hinvoked => ?_
  cases invoked with
  | error e =>
      have he : e.isException = true := hinvoked e rfl
      dsimp only
      rw [if_pos he]
      refine Total.bind (write_total fun _ => ⟨rfl, rfl⟩) fun _ _ => ?_
      exact Total.bind (submit_total h _ _) fun _ _ => Total.pure trivial
  | ok result =>
      refine Total.bind (submit_total h _ _) fun _ _ => ?_
      refine Total.bind (remember_total _ _) fun _ _ => ?_
      cases rejection_reason use.tool_name result with
      | none => exact Total.pure trivial
      | some reason =>
          refine Total.ite (fun _ => Total.pure trivial) fun _ => ?_
          exact Total.bind (remember_total _ _) fun _ _ => Total.pure trivial

theorem stream_loop_total (h : Smooth env agent_id msg rt) {items : List StreamItem}
    (hitems : ∀ item ∈ items, ∃ ev, item = .event ev) :
    ∀ p, Total Ready (fun _ => True) (stream_loop env agent_id msg items p) := by
  induction items with
  | nil => intro p; exact Total.pure trivial
  | cons item rest ih =>
      intro p
      have hrest := ih fun item' hmem => hitems item' (List.mem_cons_of_mem _ hmem)
      obtain ⟨ev, rfl⟩ := hitems item List.mem_cons_self
      cases ev with
      | text text => exact hrest _
      | stop reason => exact hrest _
      | tool_use use => exact Total.bind (tool_event_total h _ _) fun _ _ => hrest _

/-- A body that returns needs no handler. -/
theorem guard_stream_total {α : Type} {body : Act Runtime Exn α}
    (h : Total Ready (fun _ => True) body) : Total Ready (fun _ => True) (guard_stream body) := by
  intro rt hready
  obtain ⟨a, rt', hrun, -, hready'⟩ := h rt hready
  refine ⟨a, rt', ?_, trivial, hready'⟩
  rw [guard_stream, attempt_bind, hrun]
  rfl

theorem auto_ack_total (h : Smooth env agent_id msg rt) (full_text : String) (replied : Bool) :
    Total Ready (fun _ => True) (auto_ack env agent_id full_text msg replied) := by
  unfold auto_ack
  split
  · exact Total.pure trivial
  · refine Total.ite (fun _ => Total.pure trivial) fun _ => ?_
    refine Total.bind (invoke_total h _) fun acked hacked => ?_
    cases acked with
    | ok result => exact Total.pure trivial
    | error e =>
        have he : e.isException = true := hacked e rfl
        dsimp only
        rw [if_pos he]
        exact Total.pure trivial

theorem finish_turn_total (h : Smooth env agent_id msg rt) (p : Progress) :
    Total Ready (fun _ => True) (finish_turn env agent_id msg p) := by
  have htext : Total Ready (fun _ => True)
      (note_text env agent_id ("".intercalate p.text_chunks)) :=
    Total.ite (fun _ => Total.pure trivial) fun _ => remember_total _ _
  have htruncation : Total Ready (fun _ => True) (note_truncation env agent_id msg p) := by
    refine Total.ite (fun _ => ?_) fun _ => Total.pure trivial
    exact Total.bind (append_total rfl ⟨_, rfl⟩) fun _ _ => remember_total _ _
  refine Total.bind htext fun _ _ => ?_
  refine Total.bind htruncation fun _ _ => ?_
  refine Total.bind (auto_ack_total h _ _) fun _ _ => ?_
  refine Total.bind (write_total fun _ => ⟨rfl, rfl⟩) fun _ _ => ?_
  refine Total.bind (append_total rfl ⟨_, rfl⟩) fun _ _ => ?_
  exact Total.bind (append_total rfl ⟨_, rfl⟩) fun _ _ => Total.pure trivial

theorem run_turn_returns (h : Smooth env agent_id msg rt) :
    ∃ outcome rt', run_turn env agent_id msg rt = (.ok outcome, rt') ∧ Ready rt' := by
  obtain ⟨hits, persona, stream, hrecall, hpersona, hopens, hllm, hstream⟩ := h.answers
  obtain ⟨⟨⟩, rt₁, hremember, -, hready₁⟩ := remember_total agent_id (user_item msg env.now) rt h.ready
  obtain ⟨⟨⟩, rt₂, happend, -, hready₂⟩ :=
    (append_total rfl ⟨_, rfl⟩ : Total Ready _ (append (delivered_post agent_id msg env.now))) rt₁ hready₁
  -- the LLM is asked with the window that `answers` speaks of
  have hmemory : rt₂.memory.working_window agent_id 20 = history_of env agent_id msg rt.memory := by
    have h₂ : rt₂.memory = rt₁.memory := by
      have hrt₂ : rt₂ = (append (delivered_post agent_id msg env.now) rt₁).2 := by rw [happend]
      rw [hrt₂]
      rfl
    have h₁ : rt₁.memory.working = rt.memory.working ++ [(agent_id, user_item msg env.now)] := by
      have hrt₁ : rt₁ = (remember agent_id (user_item msg env.now) rt).2 := by rw [hremember]
      rw [hrt₁]
      show (Memory.attempt_write _ rt.memory).2.working = _
      rw [Memory.attempt_write, h.ready.memory]
    rw [h₂, history_of, Memory.working_window, h₁]
    rfl
  have hopen : open_stream env (persona ++ "\n\n" ++ format_recall hits)
      (history_of env agent_id msg rt.memory) rt₂ = (.ok stream, rt₂) := by
    rw [open_stream, if_neg (by rw [hopens]; exact Bool.false_ne_true), hllm]
    rfl
  obtain ⟨progress, rt₃, hloop, -, hready₃⟩ :=
    guard_stream_total (stream_loop_total h hstream {}) rt₂ hready₂
  obtain ⟨outcome, rt₄, hfinish, -, hready₄⟩ := finish_turn_total h progress rt₃ hready₃
  refine ⟨outcome, rt₄, ?_, hready₄⟩
  rw [run_turn, bind_of_ok hremember]
  show (append _ >>= _) rt₁ = _
  rw [bind_of_ok happend, hrecall, hpersona]
  show (open_stream env (persona ++ "\n\n" ++ format_recall hits)
    (rt₂.memory.working_window agent_id 20) >>= _) rt₂ = _
  rw [hmemory, bind_of_ok hopen]
  show (guard_stream _ >>= _) rt₂ = _
  rw [bind_of_ok hloop]
  exact hfinish

theorem summarize_returns (h : abandoned env.completion = false) (outcome : TurnOutcome) :
    ∃ summary, summarize env outcome = .ok summary := by
  unfold summarize
  split
  · cases hcompletion : env.completion with
    | ok summary => exact ⟨summary, rfl⟩
    | error e =>
        rw [hcompletion] at h
        have he : e.isException = true := by simpa [abandoned] using h
        exact ⟨_, if_pos he⟩
  · exact ⟨_, rfl⟩

/-- **A smooth turn returns.** -/
theorem handle_message_returns (h : Smooth env agent_id msg rt) :
    ∃ outcome rt', handle_message env agent_id msg rt = (.ok outcome, rt') := by
  have hready : Ready { rt with status := .WORKING } := ⟨h.ready.memory, h.ready.events⟩
  have hworking : Smooth env agent_id msg { rt with status := .WORKING } := { h with ready := hready }
  obtain ⟨outcome, rt₁, hturn, hready₁⟩ := run_turn_returns hworking
  have hconclude : Total Ready (fun _ => True) (conclude env agent_id msg outcome) := by
    refine Total.ite (fun _ => ?_) fun _ => Total.pure trivial
    obtain ⟨summary, hsummary⟩ := summarize_returns h.completes outcome
    rw [summarize_and_remember, hsummary]
    exact Total.bind (Total.pure (Q := fun _ => True) trivial) fun _ _ =>
      on_memory_total _ fun _ => rfl
  obtain ⟨⟨⟩, rt₂, hdone, -, -⟩ := hconclude rt₁ hready₁
  refine ⟨outcome, { rt₂ with status := .IDLE }, ?_⟩
  obtain ⟨row, hrow⟩ := Option.ne_none_iff_exists'.mp h.employed
  have hbegin : begin_turn env agent_id msg { rt with status := .WORKING } = (.ok outcome, rt₁) := by
    rw [begin_turn, read_bind, hrow]
    exact hturn
  rw [handle_message, set_status, write_bind, attempt_bind, hbegin]
  show (conclude env agent_id msg outcome >>= _) rt₁ = _
  rw [bind_of_ok hdone]
  rfl

end Turn

end AgentRuntime

/-! ## The loop -/

/-- A started agent that is not stopped: its inbox, the message of the running turn, whether its task is
    alive, and the messages whose turn has ended. -/
structure AgentTask where
  agent_id : String
  inbox : List IncomingMessage
  in_hand : Option IncomingMessage
  alive : Bool
  handled : List IncomingMessage
  runtime : Runtime

namespace AgentTask

open AgentRuntime

inductive Label where
  | deliver (msg : IncomingMessage)
  /-- the loop takes the next message; does the clock accept messages? -/
  | take (accepting : Bool)
  /-- the turn on the message in hand -/
  | turn (env : TurnEnv)
  /-- whatever else goes on in the company -/
  | elsewhere (runtime : Runtime)

/-- `start` -/
def start (agent_id : String) (runtime : Runtime) : AgentTask :=
  { agent_id, inbox := [], in_hand := none, alive := true, handled := [], runtime }

/-- `_run_loop` up to the turn: take a message, or put it back at the end. -/
def take (a : AgentTask) (accepting : Bool) : AgentTask :=
  match a.alive, a.in_hand, a.inbox with
  | true, none, msg :: rest =>
    if accepting then { a with inbox := rest, in_hand := some msg }
    else { a with inbox := rest ++ [msg] }
  | _, _, _ => a

def step (a : AgentTask) : Label → AgentTask
  | .deliver msg => { a with inbox := a.inbox ++ [msg] }
  | .take accepting => a.take accepting
  | .turn env =>
    match a.in_hand with
    | none => a
    | some msg =>
      { a with
        in_hand := none
        handled := a.handled ++ [msg]
        alive := (handle_message env a.agent_id msg).returns a.runtime
        runtime := (handle_message env a.agent_id msg).after a.runtime }
  | .elsewhere runtime => { a with runtime }

/-- The messages that a run delivers. -/
def delivered : List Label → List IncomingMessage
  | [] => []
  | .deliver msg :: run => msg :: delivered run
  | _ :: run => delivered run

/-- The turn is smooth, and a message that is put back is put back behind no other. -/
def Survives (a : AgentTask) : Label → Prop
  | .take accepting => accepting = true ∨ a.inbox.length ≤ 1
  | .turn env => ∀ msg, a.in_hand = some msg → Smooth env a.agent_id msg a.runtime
  | _ => True

/-- What the agent has been given so far, in the order in which it deals with it. -/
def given (a : AgentTask) : List IncomingMessage := a.handled ++ a.in_hand.toList ++ a.inbox

variable {a : AgentTask} {label : Label}

theorem delivered_cons (label : Label) (run : List Label) :
    delivered (label :: run) = delivered [label] ++ delivered run := by
  cases label <;> rfl

/-- A smooth turn leaves the loop alive. -/
theorem turn_of_smooth {env : TurnEnv} {msg : IncomingMessage} (hmsg : a.in_hand = some msg)
    (h : Smooth env a.agent_id msg a.runtime) :
    step a (.turn env) = { a with
      in_hand := none
      handled := a.handled ++ [msg]
      alive := true
      runtime := (handle_message env a.agent_id msg).after a.runtime } := by
  obtain ⟨outcome, rt', hrun⟩ := handle_message_returns h
  have hreturns : (handle_message env a.agent_id msg).returns a.runtime = true := by
    rw [Act.returns, hrun]
    rfl
  rw [step, hmsg]
  dsimp only
  rw [hreturns]

/-- **One step** keeps the loop alive and the order of what it is given. -/
theorem Survives.step (h : Survives a label) (halive : a.alive = true) :
    (AgentTask.step a label).alive = true ∧
      (AgentTask.step a label).given = a.given ++ delivered [label] := by
  cases label with
  | deliver msg =>
      refine ⟨halive, ?_⟩
      show a.handled ++ a.in_hand.toList ++ (a.inbox ++ [msg]) = a.given ++ [msg]
      rw [given, List.append_assoc _ a.inbox]
  | elsewhere runtime =>
      refine ⟨halive, ?_⟩
      show a.given = a.given ++ []
      rw [List.append_nil]
  | turn env =>
      show _ ∧ _ = a.given ++ []
      rw [List.append_nil]
      cases hmsg : a.in_hand with
      | none =>
          have hstep : AgentTask.step a (.turn env) = a := by rw [AgentTask.step, hmsg]
          rw [hstep]
          exact ⟨halive, rfl⟩
      | some msg =>
          rw [turn_of_smooth hmsg (h msg hmsg)]
          refine ⟨rfl, ?_⟩
          show a.handled ++ [msg] ++ [] ++ a.inbox = a.given
          rw [given, hmsg, List.append_nil]
          rfl
  | take accepting =>
      show (a.take accepting).alive = true ∧ (a.take accepting).given = a.given ++ []
      rw [List.append_nil]
      unfold take
      split
      · rename_i msg rest _ hhand hinbox
        by_cases hacc : accepting = true
        · rw [if_pos hacc]
          refine ⟨halive, ?_⟩
          show a.handled ++ [msg] ++ rest = a.given
          rw [given, hhand, hinbox]
          simp
        · rw [if_neg hacc]
          -- the message was the only one
          have hrest : rest = [] := by
            obtain hacc' | hlen := h
            · exact absurd hacc' hacc
            · rw [hinbox] at hlen
              simpa using hlen
          refine ⟨halive, ?_⟩
          show a.handled ++ a.in_hand.toList ++ (rest ++ [msg]) = a.given
          rw [given, hinbox, hrest]
          rfl
      · exact ⟨halive, rfl⟩

theorem given_exec {run : List Label} :
    ∀ {a : AgentTask}, a.alive = true → Along AgentTask.step Survives a run →
      (exec AgentTask.step a run).alive = true ∧
        (exec AgentTask.step a run).given = a.given ++ delivered run := by
  induction run with
  | nil =>
      intro a halive _
      exact ⟨halive, (List.append_nil _).symm⟩
  | cons label run ih =>
      intro a halive hrun
      obtain ⟨halive', hgiven'⟩ := Survives.step hrun.1 halive
      obtain ⟨halive'', hgiven''⟩ := ih halive' hrun.2
      refine ⟨halive'', ?_⟩
      rw [exec_cons, hgiven'', hgiven', delivered_cons label run, List.append_assoc]

/-! ## The inbox is worked off -/

/-- Rounds of the loop: the turn on the message in hand, then the next message. -/
def rounds (envs : List TurnEnv) : List Label := envs.flatMap (fun env => [.turn env, .take true])

/-- A round handles the message in hand and shortens the inbox. -/
theorem round_advances {env : TurnEnv} (halive : a.alive = true) (h : Survives a (.turn env)) :
    ((AgentTask.step a (.turn env)).take true).inbox = a.inbox.tail ∧
      (a.inbox = [] → ((AgentTask.step a (.turn env)).take true).in_hand = none) := by
  obtain ⟨hin, hinbox, hal⟩ : (AgentTask.step a (.turn env)).in_hand = none ∧
      (AgentTask.step a (.turn env)).inbox = a.inbox ∧ (AgentTask.step a (.turn env)).alive = true := by
    cases hmsg : a.in_hand with
    | none =>
        have hstep : AgentTask.step a (.turn env) = a := by rw [AgentTask.step, hmsg]
        rw [hstep]
        exact ⟨hmsg, rfl, halive⟩
    | some msg =>
        rw [turn_of_smooth hmsg (h msg hmsg)]
        exact ⟨rfl, rfl, rfl⟩
  cases hbox : a.inbox with
  | nil =>
      have htake : (AgentTask.step a (.turn env)).take true = AgentTask.step a (.turn env) := by
        rw [take, hin, hinbox, hal, hbox]
      rw [htake]
      exact ⟨hinbox.trans hbox, fun _ => hin⟩
  | cons msg rest =>
      rw [take, hin, hinbox, hal, hbox]
      exact ⟨rfl, nofun⟩

theorem rounds_handle {envs : List TurnEnv} :
    ∀ {a : AgentTask}, a.alive = true → Along AgentTask.step Survives a (rounds envs) →
      a.inbox.length < envs.length ∨ (a.inbox = [] ∧ a.in_hand = none) →
      (exec AgentTask.step a (rounds envs)).handled = a.given := by
  induction envs with
  | nil =>
      intro a _ _ hshort
      obtain hlt | ⟨hinbox, hhand⟩ := hshort
      · exact absurd hlt (Nat.not_lt_zero _)
      · show a.handled = a.given
        rw [given, hinbox, hhand]
        simp
  | cons env envs ih =>
      intro a halive hrun hshort
      obtain ⟨hturn, htake, hrest⟩ := hrun
      obtain ⟨halive', hgiven'⟩ := Survives.step hturn halive
      obtain ⟨halive'', hgiven''⟩ := Survives.step htake halive'
      obtain ⟨hinbox, hhand⟩ := round_advances halive hturn
      have hnext : ((AgentTask.step a (.turn env)).take true).given = a.given := by
        have heq := hgiven''
        rw [hgiven'] at heq
        simpa [delivered, AgentTask.step] using heq
      rw [← hnext]
      refine ih halive'' hrest ?_
      cases hbox : a.inbox with
      | nil =>
          rw [hbox] at hinbox
          exact .inr ⟨hinbox, hhand hbox⟩
      | cons msg rest =>
          left
          show ((AgentTask.step a (.turn env)).take true).inbox.length < envs.length
          rw [hinbox, hbox]
          obtain hlt | ⟨hempty, -⟩ := hshort
          · rw [hbox, List.length_cons, List.length_cons] at hlt
            exact Nat.lt_of_succ_lt_succ hlt
          · rw [hbox] at hempty
            cases hempty

/-- **Every message is handled, once and in order.** Along a run of smooth turns in which no message is
    put back behind another one, the loop of a started agent lives; what it has handled, what it has in hand
    and what is in the inbox are the delivered messages in their order; and as many further rounds as there
    are messages handle all of them. -/
theorem every_message_handled (agent_id : String) (runtime : Runtime) (run : List Label)
    (hrun : Along AgentTask.step Survives (start agent_id runtime) run) :
    (exec AgentTask.step (start agent_id runtime) run).alive = true ∧
    (exec AgentTask.step (start agent_id runtime) run).handled ++
      (exec AgentTask.step (start agent_id runtime) run).in_hand.toList ++
      (exec AgentTask.step (start agent_id runtime) run).inbox = delivered run ∧
    ∀ envs, Along AgentTask.step Survives (exec AgentTask.step (start agent_id runtime) run) (rounds envs) →
      (exec AgentTask.step (start agent_id runtime) run).inbox.length < envs.length →
      (exec AgentTask.step (start agent_id runtime) (run ++ rounds envs)).handled = delivered run := by
  obtain ⟨halive, hgiven⟩ := given_exec rfl hrun
  refine ⟨halive, hgiven, fun envs henvs hlt => ?_⟩
  rw [exec_append, rounds_handle halive henvs (.inl hlt), hgiven]
  rfl

/-- A loop that has ended handles nothing any more. -/
theorem ended_handles_nothing {run : List Label} {a : AgentTask} (hdead : a.alive = false) (hhand : a.in_hand = none) :
    (exec AgentTask.step a run).handled = a.handled := by
  -- it stays ended, with nothing in hand
  have hstep : ∀ a' label, (a'.alive = false ∧ a'.in_hand = none ∧ a'.handled = a.handled) →
      (AgentTask.step a' label).alive = false ∧ (AgentTask.step a' label).in_hand = none ∧
        (AgentTask.step a' label).handled = a.handled := by
    rintro a' label ⟨hdead', hhand', hhandled⟩
    cases label with
    | deliver msg => exact ⟨hdead', hhand', hhandled⟩
    | elsewhere runtime => exact ⟨hdead', hhand', hhandled⟩
    | take accepting =>
        have hsame : AgentTask.step a' (.take accepting) = a' := by
          rw [AgentTask.step, take, hdead']
        rw [hsame]
        exact ⟨hdead', hhand', hhandled⟩
    | turn env =>
        have hsame : AgentTask.step a' (.turn env) = a' := by rw [AgentTask.step, hhand']
        rw [hsame]
        exact ⟨hdead', hhand', hhandled⟩
  exact (exec_invariant hstep ⟨hdead, hhand, rfl⟩ run).2.2

/-! ## Runs of one agent -/

/-- Collaborators that answer a turn with one line. -/
def calm_env : TurnEnv :=
  { defs := [], «recall» := .ok [], persona := .ok "You are an engineer."
    llm := fun _ _ _ => .ok [.event (.text "done"), .event (.stop "end_turn")]
    opening_times_out := false, exec := fun _ co => (.error .timeout, co), submit := fun _ => .ok ()
    completion := .ok "", now := 0, duration_seconds := 1 }

/-- The same with an LLM that cannot be reached. -/
def offline_env : TurnEnv :=
  { calm_env with llm := fun _ _ _ => .error (.other "APIConnectionError" "connection refused") }

def hired : Runtime :=
  { co := opened .quiet ⟨10000⟩ "eng-1", memory := .quiet, health := ⟨0, 0, 0⟩, status := .IDLE
    submitted := [] }

def request (content : String) : IncomingMessage := { content, kind := .USER_REQUEST }

/-- A first message, its turn, and a second message that the loop takes. -/
def two_messages (env : TurnEnv) : List Label :=
  [.deliver (request "first"), .take true, .turn env, .deliver (request "second"), .take true]

theorem calm_smooth (msg : IncomingMessage) : Smooth calm_env "eng-1" msg hired where
  employed := nofun
  ready := ⟨fun _ => rfl, fun _ _ _ => rfl⟩
  answers := by
    refine ⟨[], "You are an engineer.", _, rfl, rfl, rfl, rfl, fun item hmem => ?_⟩
    obtain rfl | rfl : item = _ ∨ item = _ := by simpa using hmem
    · exact ⟨_, rfl⟩
    · exact ⟨_, rfl⟩
  submits _ := rfl
  gates co i e h := by cases h
  executors _ _ := rfl
  completes := rfl
  executors_keep _ _ := rfl

/-- The calm turn leaves the loop with the second message in hand. -/
theorem calm_handled :
    (exec AgentTask.step (start "eng-1" hired) (two_messages calm_env)).alive = true ∧
      (exec AgentTask.step (start "eng-1" hired) (two_messages calm_env)).handled ++
        (exec AgentTask.step (start "eng-1" hired) (two_messages calm_env)).in_hand.toList ++
        (exec AgentTask.step (start "eng-1" hired) (two_messages calm_env)).inbox =
          [request "first", request "second"] := by
  have hrun : Along AgentTask.step Survives (start "eng-1" hired) (two_messages calm_env) := by
    refine ⟨trivial, .inl rfl, fun msg hmsg => ?_, trivial, .inl rfl, trivial⟩
    exact calm_smooth msg
  obtain ⟨halive, hgiven, -⟩ := every_message_handled "eng-1" hired (two_messages calm_env) hrun
  exact ⟨halive, hgiven⟩

/-- An LLM that fails three times ends the loop, and the second message is never handled. -/
theorem offline_stops :
    (exec AgentTask.step (start "eng-1" hired) (two_messages offline_env)).alive = false ∧
      ∀ more, (exec AgentTask.step (start "eng-1" hired) (two_messages offline_env ++ more)).handled =
        [request "first"] := by
  refine ⟨rfl, fun more => ?_⟩
  rw [exec_append]
  exact ended_handles_nothing rfl rfl

end AgentTask

end CompanyFactory
