import CompanyFactory.AgentRuntime.Trace

/-!
# `AgentRuntime.Calls` — the tool calls of a turn

A turn is a run of the company (`AgentRuntime.Trace`). Here: **which** tool calls it makes. They are calls for the
tool uses of the stream, counted from one, and at the end perhaps one for the acknowledgement; a turn that raises makes
the first ones of them.

* `turn_calls` — the calls of `handle_message` are calls of one `Turn`.
-/

namespace CompanyFactory

open Act Company Machine

namespace World

/-- The tool call that a step starts. -/
def invocation : Label → Option Invocation
  | .invoke _ i => some i
  | _ => none

end World

namespace AgentRuntime

/-- The tool-use events of a turn. -/
structure Turn where
  agent_id : String
  msg : IncomingMessage
  /-- the tool uses of each response of the LLM -/
  responses : List (List ToolUse)
  /-- the sender that is acknowledged at the end of the turn, and the text of the turn -/
  ack : Option (String × String)
  now : Time

namespace Turn

/-- The tool uses of all responses; each is counted. -/
def uses (t : Turn) : List (ToolUse × Nat) := t.responses.flatten.zipIdx 1

/-- The calls that the events make. -/
def invocations (t : Turn) : List Invocation :=
  (t.uses.map fun use => tool_invocation t.agent_id t.msg use.1 use.2 t.now) ++
    (t.ack.map fun ack => ack_invocation t.agent_id ack.1 ack.2 t.msg t.now).toList

end Turn

/-! ## What a computation calls -/

/-- From a company with a free slot, a run leads to the other company, and starts these tool calls. -/
def Makes (defs : ToolDefs) (P : List Invocation → Prop) (rt rt' : Runtime) : Prop :=
  ∃ made, P made ∧ ∀ calls slot, calls slot = none →
    ∃ run, exec (World.step defs) ⟨rt.co, calls⟩ run = ⟨rt'.co, calls⟩ ∧ run.filterMap World.invocation = made

/-- No calls are made. -/
abbrev Quiet (defs : ToolDefs) : Runtime → Runtime → Prop := Makes defs (· = [])

section Makes

variable {defs : ToolDefs} {P Q S : List Invocation → Prop} {α β : Type}

theorem Makes.of_same {rt rt' : Runtime} (hP : P []) (h : rt'.co = rt.co) : Makes defs P rt rt' :=
  ⟨[], hP, fun calls _ _ => ⟨[], by rw [h]; rfl, rfl⟩⟩

theorem Makes.mono {rt rt' : Runtime} (h : Makes defs P rt rt') (hle : ∀ is, P is → Q is) : Makes defs Q rt rt' := by
  obtain ⟨made, hP, hrun⟩ := h
  exact ⟨made, hle made hP, hrun⟩

theorem Makes.append {a b c : Runtime} (hab : Makes defs P a b) (hbc : Makes defs Q b c)
    (hboth : ∀ is js, P is → Q js → S (is ++ js)) : Makes defs S a c := by
  obtain ⟨is, hP, hruns⟩ := hab
  obtain ⟨js, hQ, hruns'⟩ := hbc
  refine ⟨is ++ js, hboth is js hP hQ, fun calls slot hslot => ?_⟩
  obtain ⟨run, hrun, rfl⟩ := hruns calls slot hslot
  obtain ⟨run', hrun', rfl⟩ := hruns' calls slot hslot
  exact ⟨run ++ run', by rw [exec_append, hrun, hrun'], List.filterMap_append⟩

theorem Quiet.trans (a b c : Runtime) (hab : Quiet defs a b) (hbc : Quiet defs b c) : Quiet defs a c :=
  hab.append hbc fun _ _ his hjs => by rw [his, hjs, List.append_nil]

/-- One computation after the other, with their calls in this order. -/
theorem bind_makes {m : Act Runtime Exn α} {f : α → Act Runtime Exn β} (hm : Moves (Makes defs P) m)
    (hf : ∀ a, Moves (Makes defs Q) (f a)) (herror : ∀ is, P is → S is)
    (hboth : ∀ is js, P is → Q js → S (is ++ js)) : Moves (Makes defs S) (m >>= f) := by
  intro rt
  have hfirst : Makes defs P rt (m rt).2 := hm rt
  rw [bind_run]
  rcases hrun : m rt with ⟨e | a, rt'⟩
  · rw [hrun] at hfirst
    exact hfirst.mono herror
  · rw [hrun] at hfirst
    exact hfirst.append (hf a rt') hboth

/-- A computation without calls goes before. -/
theorem quiet_bind {m : Act Runtime Exn α} {f : α → Act Runtime Exn β} (hm : Moves (Quiet defs) m)
    (hf : ∀ a, Moves (Makes defs P) (f a)) (hnone : P []) : Moves (Makes defs P) (m >>= f) :=
  bind_makes hm hf (fun is his => his ▸ hnone) fun is js his hjs => by rwa [his]

/-- A computation without calls comes after. -/
theorem bind_quiet {m : Act Runtime Exn α} {f : α → Act Runtime Exn β} (hm : Moves (Makes defs P) m)
    (hf : ∀ a, Moves (Quiet defs) (f a)) : Moves (Makes defs P) (m >>= f) :=
  bind_makes hm hf (fun _ => id) fun is js his hjs => by rwa [hjs, List.append_nil]

theorem quiet_local (rt rt' : Runtime) (h : rt'.co = rt.co) : Quiet defs rt rt' := .of_same rfl h

theorem append_quiet (post : Post) : Moves (Quiet defs) (append post) := fun _ =>
  ⟨[], rfl, fun _ _ _ => ⟨[.service (.append post)], rfl, rfl⟩⟩

end Makes

/-! ## The calls of a turn -/

section Calls

variable {env : TurnEnv}
  (hexec : ∀ (w : World) slot call, w.calls slot = some (.tool call) →
    ∃ run, exec (World.step env.defs) w run = ⟨(env.exec call w.co).2, w.calls⟩ ∧
      run.filterMap World.invocation = [])

include hexec

/-- A tool call makes itself, if its executor makes none. -/
theorem invoke_makes (i : Invocation) :
    Moves (Makes env.defs (· = [i])) (on_company (Tools.invoke env.defs env.exec i)) := by
  intro rt
  refine ⟨[i], rfl, fun calls slot hslot => ?_⟩
  obtain ⟨run, hrun, rfl | ⟨mid, outcome, hnone, rfl⟩⟩ := invoke_is_run hexec i rt.co hslot
  · exact ⟨_, hrun, rfl⟩
  · refine ⟨_, hrun, ?_⟩
    have hfirst : (Label.invoke slot i :: mid).filterMap World.invocation = i :: mid.filterMap World.invocation := rfl
    rw [List.filterMap_append, hfirst, hnone]
    rfl

theorem tool_event_makes (agent_id : String) (msg : IncomingMessage) (use : ToolUse) (index : Nat) :
    Moves (Makes env.defs (· = [tool_invocation agent_id msg use index env.now]))
      (tool_event env agent_id msg use index) := by
  have hremember := remember_moves (R := Quiet env.defs) quiet_local agent_id
  refine bind_quiet (Moves.attempt (invoke_makes hexec _)) fun invoked => ?_
  have hpure : ∀ b : Bool, Moves (ε := Exn) (Quiet env.defs) (pure b) := fun b =>
    Moves.pure (fun rt => quiet_local rt rt rfl) b
  cases invoked with
  | error e =>
      refine Moves.ite ?_ (Moves.raise (fun rt => quiet_local rt rt rfl) _)
      refine Moves.bind Quiet.trans (local_moves quiet_local fun _ => rfl) fun _ => ?_
      exact Moves.bind Quiet.trans (submit_moves quiet_local Quiet.trans _ _ _) fun _ => hpure _
  | ok result =>
      refine Moves.bind Quiet.trans (submit_moves quiet_local Quiet.trans _ _ _) fun _ => ?_
      refine Moves.bind Quiet.trans (hremember _) fun _ => ?_
      cases rejection_reason use.tool_name result with
      | none => exact hpure _
      | some reason =>
          refine Moves.ite (hpure _) ?_
          exact Moves.bind Quiet.trans (hremember _) fun _ => hpure _

/-- The tool uses of a stream. -/
def tool_uses (items : List StreamItem) : List ToolUse :=
  items.filterMap fun
    | .event (.tool_use use) => some use
    | _ => none

/-- The calls for some tool uses, counted from a number on. -/
def calls_from (env : TurnEnv) (agent_id : String) (msg : IncomingMessage) (uses : List ToolUse) (first : Nat) :
    List Invocation :=
  (uses.zipIdx first).map fun use => tool_invocation agent_id msg use.1 use.2 env.now

/-- The loop calls the tools of the stream, in its order, up to where it raises. -/
theorem stream_loop_makes (agent_id : String) (msg : IncomingMessage) (items : List StreamItem) (p : Progress) :
    Moves (Makes env.defs fun is =>
        is.Sublist (calls_from env agent_id msg (tool_uses items) (p.tool_invocations + 1)))
      (stream_loop env agent_id msg items p) := by
  induction items generalizing p with
  | nil => exact Moves.pure (fun _ => .of_same (List.nil_sublist _) rfl) p
  | cons item rest ih =>
      cases item with
      | raises e => exact Moves.raise (fun _ => .of_same (List.nil_sublist _) rfl) e
      | event ev =>
          cases ev with
          | text text => exact ih { p with text_chunks := p.text_chunks ++ [text] }
          | stop reason => exact ih { p with stop_reason := if reason = "" then none else some reason }
          | tool_use use =>
              have hcalls : calls_from env agent_id msg (tool_uses (.event (.tool_use use) :: rest))
                  (p.tool_invocations + 1) = tool_invocation agent_id msg use (p.tool_invocations + 1) env.now ::
                    calls_from env agent_id msg (tool_uses rest) (p.tool_invocations + 1 + 1) := rfl
              -- the rest of the stream goes on with the next number, whatever the call answered
              have hrest : ∀ replied, Moves (Makes env.defs fun is =>
                  is.Sublist (calls_from env agent_id msg (tool_uses rest) (p.tool_invocations + 1 + 1)))
                  (stream_loop env agent_id msg rest { p with
                    tool_invocations := p.tool_invocations + 1
                    replied_to_sender := p.replied_to_sender || replied }) := fun replied =>
                ih { p with
                  tool_invocations := p.tool_invocations + 1
                  replied_to_sender := p.replied_to_sender || replied }
              rw [hcalls]
              refine bind_makes (tool_event_makes hexec agent_id msg use _) hrest ?_ ?_
              · rintro is rfl
                exact List.singleton_sublist.mpr List.mem_cons_self
              · rintro is js rfl hjs
                exact hjs.cons_cons _

theorem auto_ack_makes (agent_id full_text : String) (msg : IncomingMessage) (replied : Bool) :
    Moves (Makes env.defs fun is => ∃ ack : Option (String × String), is.Sublist
      (ack.map fun ack => ack_invocation agent_id ack.1 ack.2 msg env.now).toList)
      (auto_ack env agent_id full_text msg replied) := by
  have hquiet : ∀ {m : Act Runtime Exn Unit}, Moves (Quiet env.defs) m →
      Moves (Makes env.defs fun is => ∃ ack : Option (String × String), is.Sublist
        (ack.map fun ack => ack_invocation agent_id ack.1 ack.2 msg env.now).toList) m := fun hm rt =>
    (hm rt).mono fun is his => ⟨none, his ▸ List.nil_sublist _⟩
  have hpure : Moves (ε := Exn) (Quiet env.defs) (pure ()) := Moves.pure (fun rt => quiet_local rt rt rfl) ()
  unfold auto_ack
  split
  · exact hquiet hpure
  · rename_i sender _
    refine Moves.ite (hquiet hpure) ?_
    refine bind_makes (Moves.attempt (invoke_makes hexec _)) (Q := (· = [])) (fun acked => ?_) ?_ ?_
    · cases acked with
      | ok r => exact hpure
      | error e => exact Moves.ite hpure (Moves.raise (fun rt => quiet_local rt rt rfl) _)
    · rintro is rfl
      exact ⟨some (sender, full_text), List.Sublist.refl _⟩
    · rintro is js rfl rfl
      exact ⟨some (sender, full_text), List.Sublist.refl _⟩

/-- The calls belong to a turn of the agent on the message. -/
def OfTurn (agent_id : String) (msg : IncomingMessage) (now : Time) (is : List Invocation) : Prop :=
  ∃ t : Turn, t.agent_id = agent_id ∧ t.msg = msg ∧ t.now = now ∧ is.Sublist t.invocations

omit hexec in
theorem OfTurn.none (agent_id : String) (msg : IncomingMessage) (now : Time) : OfTurn agent_id msg now [] :=
  ⟨{ agent_id, msg, responses := [], ack := .none, now }, rfl, rfl, rfl, List.nil_sublist _⟩

theorem finish_turn_makes (agent_id : String) (msg : IncomingMessage) (p : Progress) :
    Moves (Makes env.defs fun is => ∃ ack : Option (String × String), is.Sublist
        (ack.map fun ack => ack_invocation agent_id ack.1 ack.2 msg env.now).toList)
      (finish_turn env agent_id msg p) := by
  have hnone : ∃ ack : Option (String × String), List.Sublist []
      (ack.map fun ack => ack_invocation agent_id ack.1 ack.2 msg env.now).toList := ⟨.none, List.nil_sublist _⟩
  have htext : Moves (Quiet env.defs) (note_text env agent_id ("".intercalate p.text_chunks)) :=
    Moves.ite (Moves.pure (fun rt => quiet_local rt rt rfl) _) (remember_moves quiet_local _ _)
  refine quiet_bind htext (fun _ => ?_) hnone
  refine quiet_bind (note_truncation_moves quiet_local Quiet.trans append_quiet _ _ _) (fun _ => ?_) hnone
  refine bind_quiet (auto_ack_makes hexec _ _ _ _) fun _ => ?_
  refine Moves.bind Quiet.trans (local_moves quiet_local fun _ => rfl) fun _ => ?_
  refine Moves.bind Quiet.trans (append_quiet _) fun _ => ?_
  exact Moves.bind Quiet.trans (append_quiet _) fun _ => Moves.pure (fun rt => quiet_local rt rt rfl) _

/-- The stream and the end of a turn, with the exception handlers between them. -/
theorem streamed_makes (agent_id : String) (msg : IncomingMessage) (items : List StreamItem) :
    Moves (Makes env.defs (OfTurn agent_id msg env.now)) (do
      let progress ← guard_stream (stream_loop env agent_id msg items {})
      finish_turn env agent_id msg progress) := by
  have hpure : ∀ rt, Quiet env.defs rt rt := fun rt => quiet_local rt rt rfl
  have hrecord : ∀ e : Exn, Moves (Quiet env.defs) (do record_error; Act.raise e : Act Runtime Exn Progress) := fun e =>
    Moves.bind Quiet.trans (local_moves quiet_local fun _ => rfl) fun _ => Moves.raise hpure e
  have hguarded : Moves (Makes env.defs fun is => is.Sublist (calls_from env agent_id msg (tool_uses items) 1))
      (guard_stream (stream_loop env agent_id msg items {})) := by
    refine bind_quiet (Moves.attempt (stream_loop_makes hexec agent_id msg items {})) fun ended => ?_
    cases ended with
    | ok p => exact Moves.pure hpure p
    | error e =>
        cases e with
        | cancelled => exact Moves.raise hpure _
        | _ => exact hrecord _
  -- the tool uses of the stream count as one response
  have hturn : ∀ ack : Option (String × String),
      ({ agent_id, msg, responses := [tool_uses items], ack, now := env.now } : Turn).invocations =
        calls_from env agent_id msg (tool_uses items) 1 ++
          (ack.map fun ack => ack_invocation agent_id ack.1 ack.2 msg env.now).toList := by
    intro ack
    unfold Turn.invocations Turn.uses calls_from
    rw [List.flatten_singleton]
  refine bind_makes hguarded (finish_turn_makes hexec agent_id msg) (fun is his => ?_) ?_
  · refine ⟨{ agent_id, msg, responses := [tool_uses items], ack := none, now := env.now }, rfl, rfl, rfl, ?_⟩
    rw [hturn none]
    exact his.trans (List.sublist_append_left _ _)
  · rintro is js his ⟨ack, hjs⟩
    refine ⟨{ agent_id, msg, responses := [tool_uses items], ack, now := env.now }, rfl, rfl, rfl, ?_⟩
    rw [hturn ack]
    exact his.append hjs

theorem run_turn_makes (agent_id : String) (msg : IncomingMessage) :
    Moves (Makes env.defs (OfTurn agent_id msg env.now)) (run_turn env agent_id msg) := by
  have hnone := OfTurn.none agent_id msg env.now
  have hpure : ∀ rt, Quiet env.defs rt rt := fun rt => quiet_local rt rt rfl
  refine quiet_bind (remember_moves quiet_local _ _) (fun _ => ?_) hnone
  refine quiet_bind (append_quiet _) (fun _ => ?_) hnone
  refine quiet_bind (Moves.ofExcept hpure _) (fun hits => ?_) hnone
  refine quiet_bind (Moves.ofExcept hpure _) (fun persona => ?_) hnone
  refine quiet_bind (Moves.read hpure _) (fun history => ?_) hnone
  refine quiet_bind (open_stream_moves quiet_local Quiet.trans _ _) (fun items => ?_) hnone
  exact streamed_makes hexec agent_id msg items

/-- **The calls of a turn**, whatever its outcome: they are events of one `Turn`, in their order, each at most once. -/
theorem turn_calls (agent_id : String) (msg : IncomingMessage) :
    Moves (Makes env.defs (OfTurn agent_id msg env.now)) (handle_message env agent_id msg) := by
  have hnone := OfTurn.none agent_id msg env.now
  have hpure : ∀ rt, Quiet env.defs rt rt := fun rt => quiet_local rt rt rfl
  have hstatus : ∀ status, Moves (Quiet env.defs) (set_status status) := fun _ =>
    local_moves quiet_local fun _ => rfl
  have halert : ∀ issue e, Moves (Quiet env.defs) (alert_and_raise agent_id issue e) := by
    intro issue e
    refine Moves.bind Quiet.trans (local_moves quiet_local fun _ => rfl) fun _ => ?_
    refine Moves.bind Quiet.trans (hstatus _) fun _ => ?_
    exact Moves.bind Quiet.trans (append_quiet _) fun _ => Moves.raise hpure _
  -- only what is inside the timeout calls tools; the rest sets the status and raises alarms
  have hbegin : Moves (Makes env.defs (OfTurn agent_id msg env.now)) (begin_turn env agent_id msg) := by
    refine quiet_bind (Moves.read hpure _) (fun record => ?_) hnone
    cases record with
    | none => exact Moves.raise (fun _ => .of_same hnone rfl) _
    | some row => exact run_turn_makes hexec _ _
  refine quiet_bind (hstatus _) (fun _ => ?_) hnone
  refine bind_quiet (Moves.attempt hbegin) fun ended => ?_
  cases ended with
  | ok outcome =>
      refine Moves.bind Quiet.trans (Moves.ite ?_ (Moves.pure hpure _)) fun _ => ?_
      · exact Moves.bind Quiet.trans (Moves.ofExcept hpure _) fun _ => fun _ => quiet_local _ _ rfl
      · exact Moves.bind Quiet.trans (hstatus _) fun _ => Moves.pure hpure _
  | error e =>
      cases e with
      | llmFailure message => exact halert _ _
      | turnTimeout message => exact halert _ _
      | _ => exact Moves.raise hpure _

end Calls

end AgentRuntime

end CompanyFactory
