import CompanyFactory.Company.Run
import CompanyFactory.Lib.SingleFlight

/-!
# `Company.Once` — one execution per correlation id

`Tools` and `Connector` look into their replay cache when a call starts and write it when the call has
ended. In between, and when the last event of a call is refused, the id is not cached, and a further call
executes again. With these two cases left out (`Orderly`), the calls of one id are a single flight in the
sense of `Lib.SingleFlight`: at most one executor of it runs to completion, and at most one expense is
committed for it (`one_execution_per_cid`).
-/

namespace CompanyFactory

open Act Company Machine

namespace World

/-- No waiting call has the key. -/
def Alone (w : World) (key : Caller × String) : Prop :=
  ∀ slot c, w.calls slot = some c → c.key ≠ key

/-- A call that is about to reach its executor is alone with its id, and the event store accepts the
    events that report what an executor has returned. For the connector, the sanitizer ends by no
    `BaseException` either. -/
def Orderly (defs : ToolDefs) (w : World) : Label → Prop
  | .invoke _ i =>
      (∃ tool estimate, Tools.Reserves defs w.co i tool estimate ∧
        Tools.gate_status w.co tool i = .APPROVED) → w.Alone (.TOOLS, i.cid)
  | .call _ r =>
      (∃ service_def action_def estimate,
        Connector.Reserves w.co r service_def action_def estimate) → w.Alone (.CONNECTOR, r.cid)
  | .executor_ends slot outcome =>
      ∀ call output, w.calls slot = some (.tool call) → outcome = .ok output →
        w.co.events.accepts (Tools.finish_posts w.co call output) = true
  | .attempts_end slot attempt =>
      ∀ call output, w.calls slot = some (.external call) →
        Connector.execute_with_retry call.action_def attempt = .ok output →
        Connector.abandons call (.ok output) = false ∧
          w.co.events.accepts (Connector.finish_posts w.co call output) = true
  | .service _ => True

/-- The call that a step ends: its key, and whether its executor returned. -/
def ended (w : World) : Label → Option ((Caller × String) × Bool)
  | .executor_ends slot outcome =>
    match w.calls slot with
    | some (.tool call) => some ((.TOOLS, call.cid), outcome.isOk)
    | _ => none
  | .attempts_end slot attempt =>
    match w.calls slot with
    | some (.external call) => some ((.CONNECTOR, call.cid),
        (Connector.execute_with_retry call.action_def attempt).isOk)
    | _ => none
  | _ => none

/-- An executor for the key runs to completion. -/
def completes (key : Caller × String) (w : World) (label : Label) : Bool :=
  decide (w.ended label = some (key, true))

/-- A call for the key ends with a new expense. -/
def commits (defs : ToolDefs) (key : Caller × String) (w : World) (label : Label) : Bool :=
  (w.ended label).any (fun e => decide (e.1 = key)) &&
    decide ((step defs w label).co.budget.expenses ≠ w.co.budget.expenses)

/-! ## The calls are single flights -/

/-- The key in each slot. -/
def flight (w : World) (slot : Nat) : Option (Caller × String) := (w.calls slot).map InFlight.key

theorem flight_take_off (w : World) (slot : Nat) (call : InFlight) (co : Company) :
    (w.take_off slot call co).flight = Function.update w.flight slot (some call.key) := by
  funext slot'
  by_cases h : slot' = slot
  · rw [h, Function.update_self, flight, take_off_self]
    rfl
  · rw [Function.update_of_ne h, flight, take_off_of_ne _ _ _ h]
    rfl

theorem flight_land (w : World) (slot : Nat) (co : Company) :
    (w.land slot co).flight = Function.update w.flight slot none := by
  funext slot'
  by_cases h : slot' = slot
  · rw [h, Function.update_self, flight, land_self]
    rfl
  · rw [Function.update_of_ne h, flight, land_of_ne _ _ h]
    rfl

theorem Alone.flight {w : World} {key : Caller × String} (h : w.Alone key) (slot : Nat) :
    w.flight slot ≠ some key := by
  intro hslot
  obtain ⟨c, hc, hkey⟩ := Option.map_eq_some_iff.mp hslot
  exact h slot c hc hkey

variable {defs : ToolDefs} {w : World} {label : Label}

/-- Every orderly step is a move of the flights. -/
theorem Orderly.move (h : Orderly defs w label) :
    SingleFlight.Move w.flight (step defs w label).flight w.co.Cached
      (step defs w label).co.Cached := by
  have hs := stepped defs w label
  generalize World.step defs w label = w' at hs ⊢
  cases hs with
  | idle => exact .stays rfl fun _ hk => hk
  | ran op => exact .stays rfl (op.run_cache w.co)
  | turned_away slot i => exact .stays rfl (Tools.invoke_start_cache defs i w.co)
  | refused slot r => exact .stays rfl (Connector.call_start_cache r w.co)
  | invoked slot i tool estimate hslot hres hgate hco =>
      refine .takes_off slot (.TOOLS, i.cid) (fun hcached => hcached hres.1)
        (h ⟨tool, estimate, hres, hgate⟩).flight (flight_take_off _ _ _ _) ?_
      exact hco ▸ Tools.invoke_start_cache defs i w.co
  | called slot r service_def action_def estimate hslot hres hco =>
      refine .takes_off slot (.CONNECTOR, r.cid) (fun hcached => hcached hres.1.1)
        (h ⟨service_def, action_def, estimate, hres⟩).flight (flight_take_off _ _ _ _) ?_
      exact hco ▸ Connector.call_start_cache r w.co
  | executed slot outcome call hslot =>
      exact .lands slot (flight_land _ _ _) (Tools.invoke_finish_cache call outcome w.co)
  | answered slot attempt call hslot =>
      exact .lands slot (flight_land _ _ _) (Connector.call_finish_cache call _ w.co)

theorem ended_inv {key : Caller × String} {returned : Bool}
    (h : w.ended label = some (key, returned)) :
    (∃ slot outcome call, label = .executor_ends slot outcome ∧ w.calls slot = some (.tool call) ∧
      key = (.TOOLS, call.cid) ∧ returned = outcome.isOk) ∨
    (∃ slot attempt call, label = .attempts_end slot attempt ∧
      w.calls slot = some (.external call) ∧ key = (.CONNECTOR, call.cid) ∧
      returned = (Connector.execute_with_retry call.action_def attempt).isOk) := by
  cases label with
  | invoke | call | service => cases h
  | executor_ends slot outcome =>
      rw [ended] at h
      split at h
      · rename_i call hslot
        cases h
        exact .inl ⟨slot, outcome, call, rfl, hslot, rfl, rfl⟩
      · cases h
  | attempts_end slot attempt =>
      rw [ended] at h
      split at h
      · rename_i call hslot
        cases h
        exact .inr ⟨slot, attempt, call, rfl, hslot, rfl, rfl⟩
      · cases h

theorem eq_ok_of_isOk {α : Type} {r : Except Exn α} (h : true = r.isOk) : ∃ a, r = .ok a := by
  cases r with
  | error e => cases h
  | ok a => exact ⟨a, rfl⟩

/-- A completing step lands its key and leaves it cached. -/
theorem Orderly.completed {key : Caller × String} (h : Orderly defs w label) (hheld : Held w)
    (hc : completes key w label = true) :
    ∃ slot, w.flight slot = some key ∧
      (step defs w label).flight = Function.update w.flight slot none ∧
      (step defs w label).co.Cached key := by
  have hended : w.ended label = some (key, true) := by simpa [completes] using hc
  obtain ⟨slot, outcome, call, rfl, hslot, rfl, hok⟩ | ⟨slot, attempt, call, rfl, hslot, rfl, hok⟩ :=
    ended_inv hended
  · obtain ⟨output, rfl⟩ := eq_ok_of_isOk hok
    have hopen := Budget.is_open_iff.mpr (hheld.is_open slot _ hslot)
    have hacc := h call output hslot rfl
    rw [step_executor_ends defs hslot]
    refine ⟨slot, ?_, flight_land _ _ _, Tools.invoke_finish_cached hopen hacc⟩
    rw [flight, hslot]
    rfl
  · obtain ⟨output, hout⟩ := eq_ok_of_isOk hok
    have hopen := Budget.is_open_iff.mpr (hheld.is_open slot _ hslot)
    obtain ⟨hsan, hacc⟩ := h call output hslot hout
    rw [step_attempts_end defs hslot, hout]
    refine ⟨slot, ?_, flight_land _ _ _, Connector.call_finish_cached hopen hsan hacc⟩
    rw [flight, hslot]
    rfl

/-- Only a call whose executor has returned commits an expense. -/
theorem completes_of_commits {key : Caller × String} (h : commits defs key w label = true) :
    completes key w label = true := by
  simp only [commits, Bool.and_eq_true, decide_eq_true_eq] at h
  obtain ⟨hany, hexp⟩ := h
  cases hended : w.ended label with
  | none => rw [hended] at hany; cases hany
  | some e =>
      obtain ⟨key', returned⟩ := e
      obtain rfl : key' = key := by simpa [hended] using hany
      cases returned with
      | true => simp [completes, hended]
      | false =>
          exfalso
          obtain ⟨slot, outcome, call, rfl, hslot, -, hok⟩ | ⟨slot, attempt, call, rfl, hslot, -, hok⟩ :=
            ended_inv hended
          · rw [step_executor_ends defs hslot] at hexp
            cases outcome with
            | ok output => cases hok
            | error e => exact hexp (Tools.invoke_finish_error_expenses call e w.co)
          · rw [step_attempts_end defs hslot] at hexp
            cases hout : Connector.execute_with_retry call.action_def attempt with
            | ok output => rw [hout] at hok; cases hok
            | error e =>
                rw [hout] at hexp
                exact hexp (Connector.call_finish_error_expenses call e w.co)

/-- **At most one execution per correlation id.** In every interleaving whose steps are orderly, for
    `Tools` and for `Connector` alike, at most one executor of an id runs to completion, and at most one
    expense is committed for it. -/
theorem one_execution_per_cid (defs : ToolDefs) (co : Company) (run : List Label)
    (horderly : Along (step defs) (Orderly defs) (idle co) run) (key : Caller × String) :
    tally (step defs) (completes key) (idle co) run ≤ 1 ∧
      tally (step defs) (commits defs key) (idle co) run ≤ 1 := by
  have hheld : Along (step defs) (fun w label => Held w ∧ Orderly defs w label) (idle co) run :=
    horderly.with_invariant (fun w label hw _ => hw.step defs label) (held_idle co)
  have hsingle : SingleFlight.Single (idle co).flight := fun t t' k h => by cases h
  have hone : tally (step defs) (completes key) (idle co) run ≤ 1 :=
    SingleFlight.tally_landings_le_one key (fun w label h => h.2.move)
      (fun w label h hc => h.2.completed h.1 hc) hsingle hheld
  have hle : tally (step defs) (commits defs key) (idle co) run ≤
      tally (step defs) (completes key) (idle co) run :=
    tally_mono (fun w label _ h => completes_of_commits h) horderly
  exact ⟨hone, hle.trans hone⟩

/-- A call, its executor, and a replay of the call. -/
theorem echo_executes_once :
    tally (step [Tools.echo_tool .NONE]) (completes (.TOOLS, "t1"))
        (idle (opened .quiet ⟨10000⟩ "eng-1"))
        [.invoke 0 Tools.echo_call, .executor_ends 0 (.ok ⟨"EchoOutput", []⟩),
          .invoke 1 Tools.echo_call] ≤ 1 ∧
      tally (step [Tools.echo_tool .NONE]) (commits [Tools.echo_tool .NONE] (.TOOLS, "t1"))
        (idle (opened .quiet ⟨10000⟩ "eng-1"))
        [.invoke 0 Tools.echo_call, .executor_ends 0 (.ok ⟨"EchoOutput", []⟩),
          .invoke 1 Tools.echo_call] ≤ 1 := by
  refine one_execution_per_cid _ _ _ ?_ _
  refine ⟨?_, ?_, ?_, trivial⟩
  · intro _ slot c hslot
    cases hslot
  · intro call output hslot hout
    cases hslot
    cases hout
    rfl
  · intro _ slot c hslot
    have hnone : Function.update (Function.update (fun _ : Nat => (none : Option InFlight)) 0
        (some (.tool (Tools.waiting (Tools.echo_tool .NONE) Tools.echo_call ⟨10⟩ 0)))) 0 none slot =
        some c := hslot
    by_cases h : slot = 0
    · rw [h, Function.update_self] at hnone
      cases hnone
    · rw [Function.update_of_ne h, Function.update_of_ne h] at hnone
      cases hnone

/-- The `TOOL_RESULT` event of the first call is refused: the id is not cached, and the second call
    executes and commits again. Two calls that overlap do the same. -/
theorem echo_executes_twice :
    (tally (step [Tools.echo_tool .NONE]) (completes (.TOOLS, "t1"))
        (idle (opened (.refusing 2) ⟨10000⟩ "eng-1"))
        [.invoke 0 Tools.echo_call, .executor_ends 0 (.ok ⟨"EchoOutput", []⟩),
          .invoke 0 Tools.echo_call, .executor_ends 0 (.ok ⟨"EchoOutput", []⟩)] = 2 ∧
      tally (step [Tools.echo_tool .NONE]) (commits [Tools.echo_tool .NONE] (.TOOLS, "t1"))
        (idle (opened (.refusing 2) ⟨10000⟩ "eng-1"))
        [.invoke 0 Tools.echo_call, .executor_ends 0 (.ok ⟨"EchoOutput", []⟩),
          .invoke 0 Tools.echo_call, .executor_ends 0 (.ok ⟨"EchoOutput", []⟩)] = 2) ∧
    tally (step [Tools.echo_tool .NONE]) (completes (.TOOLS, "t1"))
        (idle (opened .quiet ⟨10000⟩ "eng-1"))
        [.invoke 0 Tools.echo_call, .invoke 1 Tools.echo_call,
          .executor_ends 0 (.ok ⟨"EchoOutput", []⟩), .executor_ends 1 (.ok ⟨"EchoOutput", []⟩)] = 2 := by
  refine ⟨⟨?_, ?_⟩, ?_⟩
  · rfl
  · rfl
  · rfl

end World

end CompanyFactory
