import CompanyFactory.AgentRuntime.Turn
import CompanyFactory.Company.Run

/-!
# `AgentRuntime.Trace` — a turn is a run of the company

`run_turn` and `handle_message` touch the company by appending events and by calling tools, and by nothing
else (`handle_message_moves`). So a whole turn, whatever its outcome, is a run of `Company.Run`: each append
is a step, each tool call is a step up to its executor, the steps that happen meanwhile, and the step from
the executor to the result (`turn_is_run`). What is proved about every run holds of every sequence of turns.
-/

namespace CompanyFactory

open Act Company Machine

namespace AgentRuntime

/-! ## Footprint -/

section Footprint

variable {R : Runtime → Runtime → Prop} (hlocal : ∀ rt rt', rt'.co = rt.co → R rt rt')
  (htrans : ∀ a b c, R a b → R b c → R a c) (happend : ∀ post, Moves R (append post))

include hlocal

theorem local_moves {f : Runtime → Runtime} (h : ∀ rt, (f rt).co = rt.co) :
    Moves (ε := Exn) R (Act.write f) := fun rt => hlocal _ _ (h rt)

theorem remember_moves (agent_id : String) (item : WorkingItem) :
    Moves R (remember agent_id item) := fun _ => hlocal _ _ rfl

include htrans

theorem submit_moves (env : TurnEnv) (index : Nat) (submission : Submission) :
    Moves R (submit env index submission) :=
  Moves.bind htrans (local_moves hlocal fun _ => rfl) fun _ =>
    Moves.ofExcept (fun _ => hlocal _ _ rfl) _

variable {env : TurnEnv}
  (hinvoke : ∀ i, Moves R (on_company (Tools.invoke env.defs env.exec i)))

include hinvoke

theorem tool_event_moves (agent_id : String) (msg : IncomingMessage) (use : ToolUse) (index : Nat) :
    Moves R (tool_event env agent_id msg use index) := by
  have hrefl : ∀ rt, R rt rt := fun _ => hlocal _ _ rfl
  have hremember := remember_moves (R := R) hlocal agent_id
  refine Moves.bind htrans (Moves.attempt (hinvoke _)) fun invoked => ?_
  cases invoked with
  | error e =>
      refine Moves.ite ?_ (Moves.raise hrefl _)
      refine Moves.bind htrans (local_moves hlocal fun _ => rfl) fun _ => ?_
      exact Moves.bind htrans (submit_moves hlocal htrans _ _ _) fun _ => Moves.pure hrefl _
  | ok result =>
      refine Moves.bind htrans (submit_moves hlocal htrans _ _ _) fun _ => ?_
      refine Moves.bind htrans (hremember _) fun _ => ?_
      cases rejection_reason use.tool_name result with
      | none => exact Moves.pure hrefl _
      | some reason =>
          refine Moves.ite (Moves.pure hrefl _) ?_
          exact Moves.bind htrans (hremember _) fun _ => Moves.pure hrefl _

theorem stream_loop_moves (agent_id : String) (msg : IncomingMessage) (items : List StreamItem) :
    ∀ p, Moves R (stream_loop env agent_id msg items p) := by
  have hrefl : ∀ rt, R rt rt := fun _ => hlocal _ _ rfl
  induction items with
  | nil => intro p; exact Moves.pure hrefl _
  | cons item rest ih =>
      intro p
      cases item with
      | raises e => exact Moves.raise hrefl e
      | event ev =>
          cases ev with
          | text text => exact ih _
          | stop reason => exact ih _
          | tool_use use =>
              exact Moves.bind htrans (tool_event_moves hlocal htrans hinvoke _ _ _ _) fun _ => ih _

omit hinvoke in
theorem guard_stream_moves {α : Type} {body : Act Runtime Exn α} (h : Moves R body) :
    Moves R (guard_stream body) := by
  have hrefl : ∀ rt, R rt rt := fun _ => hlocal _ _ rfl
  have hrecord : ∀ e : Exn, Moves R (do record_error; Act.raise e : Act Runtime Exn α) :=
    fun e => Moves.bind htrans (local_moves hlocal fun _ => rfl) fun _ => Moves.raise hrefl _
  refine Moves.bind htrans (Moves.attempt h) fun ended => ?_
  cases ended with
  | ok a => exact Moves.pure hrefl a
  | error e =>
      cases e with
      | cancelled => exact Moves.raise hrefl _
      | _ => exact hrecord _

theorem auto_ack_moves (agent_id full_text : String) (msg : IncomingMessage) (replied : Bool) :
    Moves R (auto_ack env agent_id full_text msg replied) := by
  have hrefl : ∀ rt, R rt rt := fun _ => hlocal _ _ rfl
  unfold auto_ack
  split
  · exact Moves.pure hrefl _
  · refine Moves.ite (Moves.pure hrefl _) ?_
    refine Moves.bind htrans (Moves.attempt (hinvoke _)) fun acked => ?_
    cases acked with
    | ok r => exact Moves.pure hrefl _
    | error e => exact Moves.ite (Moves.pure hrefl _) (Moves.raise hrefl _)

include happend

omit hinvoke in
theorem note_truncation_moves (agent_id : String) (msg : IncomingMessage) (p : Progress) :
    Moves R (note_truncation env agent_id msg p) := by
  have hrefl : ∀ rt, R rt rt := fun _ => hlocal _ _ rfl
  refine Moves.ite ?_ (Moves.pure hrefl _)
  exact Moves.bind htrans (happend _) fun _ => remember_moves hlocal _ _

theorem finish_turn_moves (agent_id : String) (msg : IncomingMessage) (p : Progress) :
    Moves R (finish_turn env agent_id msg p) := by
  have hrefl : ∀ rt, R rt rt := fun _ => hlocal _ _ rfl
  have htext : Moves R (note_text env agent_id ("".intercalate p.text_chunks)) :=
    Moves.ite (Moves.pure hrefl _) (remember_moves hlocal _ _)
  refine Moves.bind htrans htext fun _ => ?_
  refine Moves.bind htrans (note_truncation_moves hlocal htrans happend _ _ _) fun _ => ?_
  refine Moves.bind htrans (auto_ack_moves hlocal htrans hinvoke _ _ _ _) fun _ => ?_
  refine Moves.bind htrans (local_moves hlocal fun _ => rfl) fun _ => ?_
  refine Moves.bind htrans (happend _) fun _ => ?_
  exact Moves.bind htrans (happend _) fun _ => Moves.pure hrefl _

omit happend hinvoke in
theorem open_stream_moves (system : String) (history : List WorkingItem) :
    Moves R (open_stream env system history) := by
  have hrefl : ∀ rt, R rt rt := fun _ => hlocal _ _ rfl
  refine Moves.ite ?_ (Moves.ofExcept hrefl _)
  exact Moves.bind htrans (local_moves hlocal fun _ => rfl) fun _ => Moves.raise hrefl _

theorem run_turn_moves (agent_id : String) (msg : IncomingMessage) :
    Moves R (run_turn env agent_id msg) := by
  have hrefl : ∀ rt, R rt rt := fun _ => hlocal _ _ rfl
  refine Moves.bind htrans (remember_moves hlocal _ _) fun _ => ?_
  refine Moves.bind htrans (happend _) fun _ => ?_
  refine Moves.bind htrans (Moves.ofExcept hrefl _) fun hits => ?_
  refine Moves.bind htrans (Moves.ofExcept hrefl _) fun persona => ?_
  refine Moves.bind htrans (Moves.read hrefl _) fun history => ?_
  refine Moves.bind htrans (open_stream_moves hlocal htrans _ _) fun stream => ?_
  have hstream := stream_loop_moves hlocal htrans hinvoke agent_id msg stream {}
  refine Moves.bind htrans (guard_stream_moves hlocal htrans hstream) fun p => ?_
  exact finish_turn_moves hlocal htrans happend hinvoke _ _ _

/-- **Footprint of a turn**, whatever its outcome. -/
theorem handle_message_moves (agent_id : String) (msg : IncomingMessage) :
    Moves R (handle_message env agent_id msg) := by
  have hrefl : ∀ rt, R rt rt := fun _ => hlocal _ _ rfl
  have hstatus : ∀ status, Moves R (set_status status) :=
    fun _ => local_moves hlocal fun _ => rfl
  have halert : ∀ issue e, Moves R (alert_and_raise agent_id issue e) := by
    intro issue e
    refine Moves.bind htrans (local_moves hlocal fun _ => rfl) fun _ => ?_
    refine Moves.bind htrans (hstatus _) fun _ => ?_
    exact Moves.bind htrans (happend _) fun _ => Moves.raise hrefl _
  have hbegin : Moves R (begin_turn env agent_id msg) := by
    refine Moves.bind htrans (Moves.read hrefl _) fun record => ?_
    cases record with
    | none => exact Moves.raise hrefl _
    | some row => exact run_turn_moves hlocal htrans happend hinvoke _ _
  refine Moves.bind htrans (hstatus _) fun _ => ?_
  refine Moves.bind htrans (Moves.attempt hbegin) fun ended => ?_
  cases ended with
  | ok outcome =>
      refine Moves.bind htrans (Moves.ite ?_ (Moves.pure hrefl _)) fun _ => ?_
      · exact Moves.bind htrans (Moves.ofExcept hrefl _) fun _ => fun _ => hlocal _ _ rfl
      · exact Moves.bind htrans (hstatus _) fun _ => Moves.pure hrefl _
  | error e =>
      cases e with
      | llmFailure message => exact halert _ _
      | turnTimeout message => exact halert _ _
      | _ => exact Moves.raise hrefl _

end Footprint

/-! ## The run of a turn -/

/-- From a company with a free slot, a run of the company leads to the other, and leaves the same calls
    waiting. -/
def Reaches (defs : ToolDefs) (rt rt' : Runtime) : Prop :=
  ∀ calls slot, calls slot = none →
    ∃ run, exec (World.step defs) ⟨rt.co, calls⟩ run = ⟨rt'.co, calls⟩

variable {defs : ToolDefs}

theorem Reaches.of_same {rt rt' : Runtime} (h : rt'.co = rt.co) : Reaches defs rt rt' := by
  intro calls slot _
  exact ⟨[], by rw [h]; rfl⟩

theorem Reaches.trans (a b c : Runtime) (hab : Reaches defs a b) (hbc : Reaches defs b c) :
    Reaches defs a c := by
  intro calls slot hslot
  obtain ⟨run, hrun⟩ := hab calls slot hslot
  obtain ⟨run', hrun'⟩ := hbc calls slot hslot
  exact ⟨run ++ run', by rw [exec_append, hrun, hrun']⟩

theorem append_reaches (post : Post) : Moves (Reaches defs) (append post) := by
  intro rt calls slot _
  exact ⟨[.service (.append post)], rfl⟩

/-- **A tool call is a run**: a step up to its executor, what happens meanwhile, and a step to its result. -/
theorem invoke_is_run {exec' : ToolCall → Company → ToolOutcome × Company} {Q : List Label → Prop}
    (hexec : ∀ (w : World) slot call, w.calls slot = some (.tool call) →
      ∃ run, exec (World.step defs) w run = ⟨(exec' call w.co).2, w.calls⟩ ∧ Q run)
    (i : Invocation) (co : Company) {calls : Nat → Option InFlight} {slot : Nat} (hslot : calls slot = none) :
    ∃ run, exec (World.step defs) ⟨co, calls⟩ run = ⟨(Tools.invoke defs exec' i co).2, calls⟩ ∧
      (run = [.invoke slot i] ∨
        ∃ mid outcome, Q mid ∧ run = .invoke slot i :: mid ++ [.executor_ends slot outcome]) := by
  rcases hstart : Tools.invoke_start defs i co with ⟨e | result | call, s⟩
  · have hstep : World.step defs ⟨co, calls⟩ (.invoke slot i) = ⟨s, calls⟩ := by
      simp [World.step, hslot, hstart]
    have hinvoke : Tools.invoke defs exec' i co = (.error e, s) := bind_of_error hstart
    rw [hinvoke]
    exact ⟨[.invoke slot i], hstep, .inl rfl⟩
  · have hstep : World.step defs ⟨co, calls⟩ (.invoke slot i) = ⟨s, calls⟩ := by
      simp [World.step, hslot, hstart]
    have hinvoke : Tools.invoke defs exec' i co = (.ok result, s) := bind_of_ok hstart
    rw [hinvoke]
    exact ⟨[.invoke slot i], hstep, .inl rfl⟩
  · have hstep : World.step defs ⟨co, calls⟩ (.invoke slot i) =
        World.take_off ⟨co, calls⟩ slot (.tool call) s := by
      simp [World.step, hslot, hstart]
    have hwaits : (World.take_off ⟨co, calls⟩ slot (.tool call) s).calls slot = some (.tool call) :=
      World.take_off_self ..
    obtain ⟨run, hrun, hQ⟩ := hexec _ slot call hwaits
    have hend := World.step_executor_ends defs
      (w := ⟨(exec' call s).2, (World.take_off ⟨co, calls⟩ slot (.tool call) s).calls⟩) hwaits
      (exec' call s).1
    have hinvoke : Tools.invoke defs exec' i co = Tools.invoke_finish call (exec' call s).1 (exec' call s).2 :=
      bind_of_ok hstart
    refine ⟨.invoke slot i :: run ++ [.executor_ends slot (exec' call s).1], ?_, .inr ⟨run, _, hQ, rfl⟩⟩
    rw [exec_snoc, exec_cons, hstep, hrun, hinvoke]
    refine hend.trans ?_
    -- the slot is free again
    have hfree : Function.update (Function.update calls slot (some (.tool call))) slot none = calls := by
      rw [Function.update_idem, ← hslot, Function.update_eq_self]
    rw [World.land, World.take_off, hfree]

theorem invoke_reaches {exec' : ToolCall → Company → ToolOutcome × Company}
    (hexec : ∀ (w : World) slot call, w.calls slot = some (.tool call) →
      ∃ run, exec (World.step defs) w run = ⟨(exec' call w.co).2, w.calls⟩) (i : Invocation) :
    Moves (Reaches defs) (on_company (Tools.invoke defs exec' i)) := by
  intro rt calls slot hslot
  have hany : ∀ (w : World) slot call, w.calls slot = some (.tool call) →
      ∃ run, exec (World.step defs) w run = ⟨(exec' call w.co).2, w.calls⟩ ∧ True := by
    intro w slot call hcall
    obtain ⟨run, hrun⟩ := hexec w slot call hcall
    exact ⟨run, hrun, trivial⟩
  obtain ⟨run, hrun, -⟩ := invoke_is_run hany i rt.co hslot
  exact ⟨run, hrun⟩

/-- **A turn is a run of the company**, if what happens while an executor runs is one. -/
theorem turn_is_run (env : TurnEnv)
    (hexec : ∀ (w : World) slot call, w.calls slot = some (.tool call) →
      ∃ run, exec (World.step env.defs) w run = ⟨(env.exec call w.co).2, w.calls⟩)
    (agent_id : String) (msg : IncomingMessage) (rt : Runtime) :
    ∃ run, exec (World.step env.defs) (World.idle rt.co) run =
      World.idle (handle_message env agent_id msg rt).2.co :=
  handle_message_moves (R := Reaches env.defs) (fun _ _ => Reaches.of_same) Reaches.trans
    append_reaches (invoke_reaches hexec) agent_id msg rt _ 0 rfl

end AgentRuntime

end CompanyFactory
