import CompanyFactory.Approvals.Veto
import CompanyFactory.Connector.Spec
import CompanyFactory.Tools.Spec

/-!
# `Company.Run` — interleavings of calls

The event loop switches between calls at their await points only. A `World` is a company with the calls
that wait for their executors; a step starts a call (and runs it up to its await point), resumes one with
the outcome of its executor, or runs an operation of another service. A list of labels is one
interleaving; what an executor itself does to the services is other steps of the run.

`Held` is the invariant every run keeps: a waiting call holds an open reservation of its own.
-/

namespace CompanyFactory

open Act Company Machine

/-- The operations of the other services, and the settings a board user can change. -/
inductive ServiceOp where
  | set_total (amount : Money)
  | charge (agent_id : Option String) (amount : Money) (category : Category) (memo : String)
      (approval_id : Option String)
  | approvals (call : Approvals.Call)
  | append (post : Post)
  | set_agent (agent_id : String) (row : Option AgentRow)
  | register_service (service : ServiceDef) (action_names : List String) (now : Rat)
  | set_action_threshold (service action : String) (threshold : Option Money)
  | allow (service : String) (action : Option String)
  | revoke (service : String) (action : Option String)

def ServiceOp.run : ServiceOp → Company → Company
  | .set_total amount, co => (on_budget (Budget.set_total amount) co).2
  | .charge agent_id amount category memo approval_id, co =>
      (on_budget (Budget.charge agent_id amount category memo approval_id) co).2
  | .approvals call, co => (on_approvals (Approvals.handle call) co).2
  | .append post, co => (Company.append post co).2
  | .set_agent agent_id row, co => { co with agents := Function.update co.agents agent_id row }
  | .register_service service action_names now, co =>
      (Connector.register_service service action_names now co).2
  | .set_action_threshold service action threshold, co =>
      (Connector.set_action_threshold service action threshold co).2
  | .allow service action, co => { co with allowlist := co.allowlist.allow service action }
  | .revoke service action, co => { co with allowlist := co.allowlist.revoke service action }

namespace ServiceOp

theorem register_service_frame {R : Company → Company → Prop} (hrefl : ∀ co, R co co)
    (htrans : ∀ a b c, R a b → R b c → R a c)
    (hset : ∀ co services rate, R co { co with services, rate }) (service : ServiceDef)
    (action_names : List String) (now : Rat) :
    Moves R (Connector.register_service service action_names now) := by
  refine Moves.bind htrans (Moves.read hrefl _) fun co => ?_
  split
  · exact Moves.raise hrefl _
  · exact Moves.write fun s => hset s _ _

theorem set_action_threshold_frame {R : Company → Company → Prop} (hrefl : ∀ co, R co co)
    (htrans : ∀ a b c, R a b → R b c → R a c)
    (hset : ∀ co services, R co { co with services }) (service action : String)
    (threshold : Option Money) :
    Moves R (Connector.set_action_threshold service action threshold) := by
  refine Moves.bind htrans (Moves.read hrefl _) fun co => ?_
  split
  · exact Moves.raise hrefl _
  · split
    · exact Moves.raise hrefl _
    · exact Moves.write fun s => hset s _

/-- No operation of another service touches the replay caches. -/
theorem run_cache (op : ServiceOp) (co : Company) : CacheGrows co (op.run co) := by
  cases op with
  | set_total | charge => exact on_budget_cache _ co
  | approvals => exact on_approvals_cache _ co
  | append => exact append_cache _ co
  | register_service =>
      exact register_service_frame CacheGrows.refl CacheGrows.trans (fun _ _ _ => .of_eq rfl rfl) _ _ _ co
  | set_action_threshold =>
      exact set_action_threshold_frame CacheGrows.refl CacheGrows.trans (fun _ _ => .of_eq rfl rfl) _ _ _ co
  | set_agent | allow | revoke => exact .of_eq rfl rfl

/-- No operation of another service closes a reservation. -/
theorem run_keeps (op : ServiceOp) : ∀ co, Keeps (fun _ => False) co (op.run co) := by
  intro co
  cases op with
  | set_total amount =>
      intro rid row _ h
      have hbudget : (run (.set_total amount) co).budget =
          (Budget.step co.budget_view (.set_total amount)).db := by
        rw [Budget.step, Budget.handle, bind_pure_state]
        rfl
      rw [hbudget]
      exact Budget.open_stays_step _ _ rfl h
  | charge agent_id amount category memo approval_id =>
      intro rid row _ h
      have hbudget : (run (.charge agent_id amount category memo approval_id) co).budget =
          (Budget.step co.budget_view (.charge agent_id amount category memo approval_id)).db := by
        rw [Budget.step, Budget.handle, bind_pure_state]
        rfl
      rw [hbudget]
      exact Budget.open_stays_step _ _ rfl h
  | register_service =>
      exact register_service_frame (Keeps.refl _) Keeps.trans (fun _ _ _ _ _ _ h => h) _ _ _ co
  | set_action_threshold =>
      exact set_action_threshold_frame (Keeps.refl _) Keeps.trans (fun _ _ _ _ _ h => h) _ _ _ co
  | approvals | append | set_agent | allow | revoke => exact fun _ _ _ h => h

end ServiceOp

/-- A call that waits for its executor. -/
inductive InFlight where
  | tool (call : ToolCall)
  | external (call : ConnectorCall)

namespace InFlight

def key : InFlight → Caller × String
  | .tool call => (.TOOLS, call.cid)
  | .external call => (.CONNECTOR, call.cid)

def reservation_id : InFlight → Nat
  | .tool call => call.reservation_id
  | .external call => call.reservation_id

end InFlight

structure World where
  co : Company
  calls : Nat → Option InFlight

/-- A new call gets a free slot; `defs` is the tool registry. -/
inductive Label where
  | invoke (slot : Nat) (i : Invocation)
  | call (slot : Nat) (r : ConnectorRequest)
  /-- the executor of the tool call in the slot ends -/
  | executor_ends (slot : Nat) (outcome : ToolOutcome)
  /-- the attempts of the connector call in the slot end, the `k`-th one as `attempt k` -/
  | attempts_end (slot : Nat) (attempt : Nat → Except Exn Json)
  | service (op : ServiceOp)

namespace World

/-- No call waits. -/
def idle (co : Company) : World := { co, calls := fun _ => none }

/-- A call in a slot reached its executor. -/
def take_off (w : World) (slot : Nat) (call : InFlight) (co : Company) : World :=
  { co, calls := Function.update w.calls slot (some call) }

/-- The call in a slot has ended. -/
def land (w : World) (slot : Nat) (co : Company) : World :=
  { co, calls := Function.update w.calls slot none }

section Slots

variable (w : World) {slot slot' : Nat} (call : InFlight) (co : Company)

theorem take_off_self : (w.take_off slot call co).calls slot = some call := Function.update_self ..

theorem take_off_of_ne (h : slot' ≠ slot) : (w.take_off slot call co).calls slot' = w.calls slot' :=
  Function.update_of_ne h ..

theorem land_self : (w.land slot co).calls slot = none := Function.update_self ..

theorem land_of_ne (h : slot' ≠ slot) : (w.land slot co).calls slot' = w.calls slot' :=
  Function.update_of_ne h ..

end Slots

def step (defs : ToolDefs) (w : World) : Label → World
  | .invoke slot i =>
    match w.calls slot, Tools.invoke_start defs i w.co with
    | none, (.ok (.awaiting call), co) => w.take_off slot (.tool call) co
    | none, (_, co) => { w with co }
    | some _, _ => w
  | .call slot r =>
    match w.calls slot, Connector.call_start r w.co with
    | none, (.ok (.awaiting call), co) => w.take_off slot (.external call) co
    | none, (_, co) => { w with co }
    | some _, _ => w
  | .executor_ends slot outcome =>
    match w.calls slot with
    | some (.tool call) => w.land slot (Tools.invoke_finish call outcome w.co).2
    | _ => w
  | .attempts_end slot attempt =>
    match w.calls slot with
    | some (.external call) => w.land slot (Connector.call_finish call
        (Connector.execute_with_retry call.action_def attempt) w.co).2
    | _ => w
  | .service op => { w with co := op.run w.co }

theorem step_executor_ends (defs : ToolDefs) {w : World} {slot : Nat} {call : ToolCall}
    (h : w.calls slot = some (.tool call)) (outcome : ToolOutcome) :
    step defs w (.executor_ends slot outcome) =
      w.land slot (Tools.invoke_finish call outcome w.co).2 := by simp [step, h]

theorem step_attempts_end (defs : ToolDefs) {w : World} {slot : Nat} {call : ConnectorCall}
    (h : w.calls slot = some (.external call)) (attempt : Nat → Except Exn Json) :
    step defs w (.attempts_end slot attempt) = w.land slot (Connector.call_finish call
      (Connector.execute_with_retry call.action_def attempt) w.co).2 := by simp [step, h]

/-! ## What one step does -/

/-- The outcomes of a step: nothing, an operation, a call that ends before its executor, one that reaches
    it, and one that ends after it. -/
inductive Stepped (defs : ToolDefs) (w : World) : Label → World → Prop
  | idle (label) : Stepped defs w label w
  | ran (op) : Stepped defs w (.service op) { w with co := op.run w.co }
  | turned_away (slot i) : Stepped defs w (.invoke slot i)
      { w with co := (Tools.invoke_start defs i w.co).2 }
  | invoked (slot i tool estimate) : w.calls slot = none → Tools.Reserves defs w.co i tool estimate →
      Tools.gate_status w.co tool i = .APPROVED →
      (Tools.invoke_start defs i w.co).2 = Tools.at_executor w.co tool i estimate →
      Stepped defs w (.invoke slot i)
        (w.take_off slot (.tool (Tools.waiting tool i estimate w.co.budget.reservations.length))
          (Tools.at_executor w.co tool i estimate))
  | refused (slot r) : Stepped defs w (.call slot r)
      { w with co := (Connector.call_start r w.co).2 }
  | called (slot r service_def action_def estimate) : w.calls slot = none →
      Connector.Reserves w.co r service_def action_def estimate →
      (Connector.call_start r w.co).2 = Connector.at_executor w.co r estimate →
      Stepped defs w (.call slot r)
        (w.take_off slot (.external (Connector.waiting service_def action_def r estimate
          w.co.budget.reservations.length)) (Connector.at_executor w.co r estimate))
  | executed (slot outcome call) : w.calls slot = some (.tool call) →
      Stepped defs w (.executor_ends slot outcome)
        (w.land slot (Tools.invoke_finish call outcome w.co).2)
  | answered (slot attempt call) : w.calls slot = some (.external call) →
      Stepped defs w (.attempts_end slot attempt)
        (w.land slot (Connector.call_finish call
          (Connector.execute_with_retry call.action_def attempt) w.co).2)

/-- **Inversion.** -/
theorem stepped (defs : ToolDefs) (w : World) (label : Label) :
    Stepped defs w label (step defs w label) := by
  cases label with
  | service op => exact .ran op
  | executor_ends slot outcome =>
      cases hslot : w.calls slot with
      | none =>
          have hstep : step defs w (.executor_ends slot outcome) = w := by simp [step, hslot]
          rw [hstep]
          exact .idle _
      | some flight =>
          cases flight with
          | tool call =>
              rw [step_executor_ends defs hslot]
              exact .executed slot outcome call hslot
          | external call =>
              have hstep : step defs w (.executor_ends slot outcome) = w := by simp [step, hslot]
              rw [hstep]
              exact .idle _
  | attempts_end slot attempt =>
      cases hslot : w.calls slot with
      | none =>
          have hstep : step defs w (.attempts_end slot attempt) = w := by simp [step, hslot]
          rw [hstep]
          exact .idle _
      | some flight =>
          cases flight with
          | tool call =>
              have hstep : step defs w (.attempts_end slot attempt) = w := by simp [step, hslot]
              rw [hstep]
              exact .idle _
          | external call =>
              rw [step_attempts_end defs hslot]
              exact .answered slot attempt call hslot
  | invoke slot i =>
      cases hslot : w.calls slot with
      | some flight =>
          have hstep : step defs w (.invoke slot i) = w := by simp [step, hslot]
          rw [hstep]
          exact .idle _
      | none =>
          rcases hstart : Tools.invoke_start defs i w.co with ⟨e | result | call, co⟩
          · have hstep : step defs w (.invoke slot i) =
                { w with co := (Tools.invoke_start defs i w.co).2 } := by simp [step, hslot, hstart]
            rw [hstep]
            exact .turned_away slot i
          · have hstep : step defs w (.invoke slot i) =
                { w with co := (Tools.invoke_start defs i w.co).2 } := by simp [step, hslot, hstart]
            rw [hstep]
            exact .turned_away slot i
          · obtain ⟨tool, estimate, hres, hgate, rfl, rfl⟩ := Tools.awaiting_inv hstart
            have hstep : step defs w (.invoke slot i) = w.take_off slot
                (.tool (Tools.waiting tool i estimate w.co.budget.reservations.length))
                (Tools.at_executor w.co tool i estimate) := by simp [step, hslot, hstart]
            rw [hstep]
            exact .invoked slot i tool estimate hslot hres hgate (by rw [hstart])
  | call slot r =>
      cases hslot : w.calls slot with
      | some flight =>
          have hstep : step defs w (.call slot r) = w := by simp [step, hslot]
          rw [hstep]
          exact .idle _
      | none =>
          rcases hstart : Connector.call_start r w.co with ⟨e | result | call, co⟩
          · have hstep : step defs w (.call slot r) =
                { w with co := (Connector.call_start r w.co).2 } := by simp [step, hslot, hstart]
            rw [hstep]
            exact .refused slot r
          · have hstep : step defs w (.call slot r) =
                { w with co := (Connector.call_start r w.co).2 } := by simp [step, hslot, hstart]
            rw [hstep]
            exact .refused slot r
          · obtain ⟨service_def, action_def, estimate, hres, rfl, rfl⟩ :=
              Connector.awaiting_inv hstart
            have hstep : step defs w (.call slot r) = w.take_off slot
                (.external (Connector.waiting service_def action_def r estimate
                  w.co.budget.reservations.length))
                (Connector.at_executor w.co r estimate) := by simp [step, hslot, hstart]
            rw [hstep]
            exact .called slot r service_def action_def estimate hslot hres (by rw [hstart])

/-! ## Every waiting call holds a reservation of its own -/

structure Held (w : World) : Prop where
  /-- the reservation is open -/
  is_open : ∀ slot c, w.calls slot = some c →
    ∃ row, w.co.budget.require_open c.reservation_id = .ok row
  /-- and no other call holds it -/
  own : ∀ slot slot' c c', w.calls slot = some c → w.calls slot' = some c' →
    c.reservation_id = c'.reservation_id → slot = slot'

theorem held_idle (co : Company) : Held (idle co) where
  is_open _ _ h := by cases h
  own _ _ _ _ h := by cases h

variable {w : World}

theorem Held.with_co (h : Held w) {co : Company}
    (hkeeps : ∀ rid row, w.co.budget.require_open rid = .ok row →
      co.budget.require_open rid = .ok row) : Held { w with co } where
  is_open slot c hslot := by
    obtain ⟨row, hrow⟩ := h.is_open slot c hslot
    exact ⟨row, hkeeps _ _ hrow⟩
  own := h.own

/-- A call that takes off holds the new reservation. -/
theorem Held.take_off (h : Held w) {slot : Nat} {call : InFlight} {co : Company}
    (hrid : call.reservation_id = w.co.budget.reservations.length)
    (hopen : ∃ row, co.budget.require_open call.reservation_id = .ok row)
    (hkeeps : ∀ rid row, w.co.budget.require_open rid = .ok row →
      co.budget.require_open rid = .ok row) : Held (w.take_off slot call co) := by
  have hnew : ∀ slot' c, w.calls slot' = some c → c.reservation_id ≠ call.reservation_id := by
    intro slot' c hslot' heq
    obtain ⟨row, hrow⟩ := h.is_open slot' c hslot'
    have hlt := (List.getElem?_eq_some_iff.mp (Budget.require_open_iff.mp hrow).1).1
    omega
  constructor
  · intro slot' c hslot'
    by_cases heq : slot' = slot
    · rw [heq, take_off_self] at hslot'
      cases hslot'
      exact hopen
    · rw [take_off_of_ne _ _ _ heq] at hslot'
      obtain ⟨row, hrow⟩ := h.is_open slot' c hslot'
      exact ⟨row, hkeeps _ _ hrow⟩
  · intro s₁ s₂ c₁ c₂ h₁ h₂ hsame
    by_cases e₁ : s₁ = slot
    · by_cases e₂ : s₂ = slot
      · exact e₁.trans e₂.symm
      · rw [e₁, take_off_self] at h₁
        rw [take_off_of_ne _ _ _ e₂] at h₂
        cases h₁
        exact absurd hsame.symm (hnew s₂ c₂ h₂)
    · rw [take_off_of_ne _ _ _ e₁] at h₁
      by_cases e₂ : s₂ = slot
      · rw [e₂, take_off_self] at h₂
        cases h₂
        exact absurd hsame (hnew s₁ c₁ h₁)
      · rw [take_off_of_ne _ _ _ e₂] at h₂
        exact h.own s₁ s₂ c₁ c₂ h₁ h₂ hsame

/-- A call that lands leaves the reservations of the others alone. -/
theorem Held.land (h : Held w) {slot : Nat} {call : InFlight} {co : Company}
    (hslot : w.calls slot = some call) (hkeeps : Keeps (· = call.reservation_id) w.co co) :
    Held (w.land slot co) := by
  have hothers : ∀ slot' c, (w.land slot co).calls slot' = some c →
      slot' ≠ slot ∧ w.calls slot' = some c := by
    intro slot' c hslot'
    by_cases heq : slot' = slot
    · rw [heq, land_self] at hslot'
      cases hslot'
    · rw [land_of_ne _ _ heq] at hslot'
      exact ⟨heq, hslot'⟩
  constructor
  · intro slot' c hslot'
    obtain ⟨hne, hc⟩ := hothers slot' c hslot'
    obtain ⟨row, hrow⟩ := h.is_open slot' c hc
    have hrid : c.reservation_id ≠ call.reservation_id :=
      fun hsame => hne (h.own slot' slot c call hc hslot hsame)
    exact ⟨row, hkeeps _ _ hrid hrow⟩
  · intro s₁ s₂ c₁ c₂ h₁ h₂
    exact h.own s₁ s₂ c₁ c₂ (hothers s₁ c₁ h₁).2 (hothers s₂ c₂ h₂).2

/-- **Every step keeps `Held`.** -/
theorem Held.step (defs : ToolDefs) (label : Label) (h : Held w) : Held (step defs w label) := by
  have hopen : ∀ amount ref,
      ∃ row, (w.co.budget.reserved amount ref).2.require_open w.co.budget.reservations.length =
        .ok row := fun amount ref => Budget.is_open_iff.mp (reserved_open _ amount ref)
  have hs := stepped defs w label
  generalize World.step defs w label = w' at hs ⊢
  cases hs with
  | idle => exact h
  | ran op => exact h.with_co fun rid row => op.run_keeps w.co rid row not_false
  | turned_away slot i => exact h.with_co fun rid row => Tools.invoke_start_keeps defs i w.co
  | refused slot r => exact h.with_co fun rid row => Connector.call_start_keeps r w.co
  | invoked slot i tool estimate hslot hres hgate hco =>
      refine h.take_off rfl (hopen estimate i.cid) fun rid row hrow => ?_
      rw [← hco]
      exact Tools.invoke_start_keeps defs i w.co hrow
  | called slot r service_def action_def estimate hslot hres hco =>
      refine h.take_off rfl (hopen estimate r.cid) fun rid row hrow => ?_
      rw [← hco]
      exact Connector.call_start_keeps r w.co hrow
  | executed slot outcome call hslot =>
      exact h.land hslot (Tools.invoke_finish_keeps call outcome w.co)
  | answered slot attempt call hslot =>
      exact h.land hslot (Connector.call_finish_keeps call _ w.co)

end World

end CompanyFactory
