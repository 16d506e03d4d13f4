import CompanyFactory.Connector.Spec
import CompanyFactory.Tools.Spec

/-!
# `Company.Leak` — when a call leaves its reservation open

A call makes one reservation, and its row is the next one of the table: the id of it is the number of
rows before the call. `Tools.Leaks` and `Connector.Leaks` say in terms of the state before the call when
that row is still open after it:

* an event that is appended while the reservation is held is refused, and the exception passes through
  the call (`held_posts` lists these events), or
* the executor — for the connector also the sanitizer — ends by a `BaseException`, which no
  `except Exception` catches.

In every other case the row is closed, whatever else fails (`reservation_closed_iff`).
-/

namespace CompanyFactory

open Act Company

/-- The executor of a tool call leaves the call by a `BaseException`, with the reservation open. -/
def Tools.Abandons (exec : ToolCall → Company → ToolOutcome × Company) (call : ToolCall)
    (co : Company) : Prop :=
  abandoned (exec call co).1 = true ∧ (exec call co).2.budget.is_open call.reservation_id = true

/-- The tool call leaves its reservation open. -/
def Tools.Leaks (defs : ToolDefs) (exec : ToolCall → Company → ToolOutcome × Company)
    (i : Invocation) (co : Company) : Prop :=
  ∃ tool estimate, Tools.Reserves defs co i tool estimate ∧
    (co.events.accepts (Tools.held_posts co tool i estimate) = false ∨
      Tools.gate_status co tool i = .APPROVED ∧
        Tools.Abandons exec (Tools.waiting tool i estimate co.budget.reservations.length)
          (Tools.at_executor co tool i estimate))

/-- As for a tool call; the sanitizer runs on what the executor returns. -/
def Connector.Abandons (exec : ConnectorCall → Company → Except Exn Json × Company)
    (call : ConnectorCall) (co : Company) : Prop :=
  Connector.abandons call (exec call co).1 = true ∧
    (exec call co).2.budget.is_open call.reservation_id = true

/-- The connector call leaves its reservation open. -/
def Connector.Leaks (exec : ConnectorCall → Company → Except Exn Json × Company)
    (r : ConnectorRequest) (co : Company) : Prop :=
  ∃ service_def action_def estimate, Connector.Reserves co r service_def action_def estimate ∧
    (co.events.accepts (Connector.held_posts co r estimate) = false ∨
      Connector.Abandons exec
        (Connector.waiting service_def action_def r estimate co.budget.reservations.length)
        (Connector.at_executor co r estimate))

namespace Tools

variable {defs : ToolDefs} {exec : ToolCall → Company → ToolOutcome × Company} {i : Invocation}
  {co : Company} {tool : ToolDef} {estimate : Money}

/-- A call decides a reservation the way it was made: a call that passes the gates finds one tool and
    one estimate. -/
theorem Reserves.unique {tool' : ToolDef} {estimate' : Money} (h : Reserves defs co i tool estimate)
    (h' : Reserves defs co i tool' estimate') : tool' = tool ∧ estimate' = estimate := by
  obtain ⟨-, ⟨parsed, hadm⟩, -⟩ := h
  obtain ⟨-, ⟨parsed', hadm'⟩, -⟩ := h'
  rw [hadm] at hadm'
  cases hadm'
  exact ⟨rfl, rfl⟩

/-- What happens after the executor decides the reservation of a call that reached it. -/
theorem invoke_awaiting (h : Reserves defs co i tool estimate)
    (hgate : gate_status co tool i = .APPROVED)
    (hacc : co.events.accepts (held_posts co tool i estimate) = true) :
    (invoke defs exec i co).2.budget.is_open co.budget.reservations.length = true ↔
      Abandons exec (waiting tool i estimate co.budget.reservations.length)
        (at_executor co tool i estimate) := by
  have hrun : invoke defs exec i co = invoke_finish
      (waiting tool i estimate co.budget.reservations.length)
      (exec (waiting tool i estimate co.budget.reservations.length)
        (at_executor co tool i estimate)).1
      (exec (waiting tool i estimate co.budget.reservations.length)
        (at_executor co tool i estimate)).2 := by
    rw [invoke, bind_of_ok (invoke_start_awaiting h hgate hacc)]
    rfl
  rw [hrun]
  unfold Abandons
  generalize exec _ _ = outcome
  cases habandoned : abandoned outcome.1 with
  | true => rw [invoke_finish_abandoned habandoned]; simp [waiting]
  | false =>
      have hclosed := invoke_finish_ends
        (waiting tool i estimate co.budget.reservations.length) habandoned outcome.2
      simp only [waiting] at hclosed
      simp [waiting, hclosed]

/-- A call that ends before the executor leaves what its first part leaves. -/
theorem invoke_not_awaiting
    (h : ∀ call, (invoke_start defs i co).1 ≠ .ok (.awaiting call)) :
    (invoke defs exec i co).2 = (invoke_start defs i co).2 := by
  rw [invoke, bind_run]
  rcases hs : invoke_start defs i co with ⟨e | result | call, s⟩
  · rfl
  · rfl
  · exact absurd (congrArg Prod.fst hs) (h call)

theorem open_after_invoke_iff :
    (invoke defs exec i co).2.budget.is_open co.budget.reservations.length = true ↔
      Leaks defs exec i co := by
  by_cases hres : ∃ tool estimate, Reserves defs co i tool estimate
  · obtain ⟨tool, estimate, h⟩ := hres
    have hleaks : Leaks defs exec i co ↔
        (co.events.accepts (held_posts co tool i estimate) = false ∨
          gate_status co tool i = .APPROVED ∧
            Abandons exec (waiting tool i estimate co.budget.reservations.length)
              (at_executor co tool i estimate)) := by
      constructor
      · rintro ⟨tool', estimate', h', hleak⟩
        obtain ⟨rfl, rfl⟩ := h.unique h'
        exact hleak
      · intro hleak
        exact ⟨tool, estimate, h, hleak⟩
    rw [hleaks]
    cases hacc : co.events.accepts (held_posts co tool i estimate) with
    | false =>
        obtain ⟨e, co', hrun, hbudget⟩ := invoke_start_refused h hacc
        have hopen : (invoke defs exec i co).2.budget.is_open co.budget.reservations.length = true := by
          rw [invoke, bind_of_error hrun]
          show co'.budget.is_open _ = true
          rw [hbudget]
          exact reserved_open _ _ _
        simp [hopen]
    | true =>
        by_cases hgate : gate_status co tool i = .APPROVED
        · rw [invoke_awaiting h hgate hacc]
          simp [hgate]
        · obtain ⟨hclosed, hnot⟩ := invoke_start_turned_away h hgate hacc
          rw [invoke_not_awaiting hnot, hclosed]
          simp [hgate]
  · have hno : ∀ tool estimate, ¬ Reserves defs co i tool estimate :=
      fun tool estimate h => hres ⟨tool, estimate, h⟩
    obtain ⟨hbudget, hnot⟩ := invoke_start_without hno
    rw [invoke_not_awaiting hnot, hbudget, not_open_of_length]
    constructor
    · intro h
      cases h
    · rintro ⟨tool, estimate, h, -⟩
      exact absurd h (hno tool estimate)

end Tools

namespace Connector

variable {exec : ConnectorCall → Company → Except Exn Json × Company} {r : ConnectorRequest}
  {co : Company} {service_def : ServiceDef} {action_def : ActionDef} {estimate : Money}

theorem Reserves.unique {service_def' : ServiceDef} {action_def' : ActionDef} {estimate' : Money}
    (h : Reserves co r service_def action_def estimate)
    (h' : Reserves co r service_def' action_def' estimate') :
    service_def' = service_def ∧ action_def' = action_def ∧ estimate' = estimate := by
  have hadm := h'.1.2.1
  rw [h.1.2.1] at hadm
  cases hadm
  exact ⟨rfl, rfl, rfl⟩

theorem call_awaiting (h : Reserves co r service_def action_def estimate)
    (hacc : co.events.accepts (held_posts co r estimate) = true) :
    (call exec r co).2.budget.is_open co.budget.reservations.length = true ↔
      Abandons exec (waiting service_def action_def r estimate co.budget.reservations.length)
        (at_executor co r estimate) := by
  have hstart := call_start_reserves h
  rw [EventStore.appendAll_of_accepts hacc] at hstart
  have hrun : call exec r co = call_finish
      (waiting service_def action_def r estimate co.budget.reservations.length)
      (exec (waiting service_def action_def r estimate co.budget.reservations.length)
        (at_executor co r estimate)).1
      (exec (waiting service_def action_def r estimate co.budget.reservations.length)
        (at_executor co r estimate)).2 := by
    rw [call, bind_of_ok hstart]
    rfl
  rw [hrun]
  unfold Abandons
  generalize exec _ _ = outcome
  cases habandoned : abandons (waiting service_def action_def r estimate
      co.budget.reservations.length) outcome.1 with
  | true => rw [call_finish_abandoned habandoned]; simp [waiting]
  | false =>
      have hclosed := call_finish_ends habandoned outcome.2
      simp only [waiting] at hclosed
      simp [waiting, hclosed]

theorem call_not_awaiting (h : ∀ c, (call_start r co).1 ≠ .ok (.awaiting c)) :
    (call exec r co).2 = (call_start r co).2 := by
  rw [call, bind_run]
  rcases hs : call_start r co with ⟨e | result | c, s⟩
  · rfl
  · rfl
  · exact absurd (congrArg Prod.fst hs) (h c)

theorem open_after_call_iff :
    (call exec r co).2.budget.is_open co.budget.reservations.length = true ↔ Leaks exec r co := by
  by_cases hres : ∃ service_def action_def estimate, Reserves co r service_def action_def estimate
  · obtain ⟨service_def, action_def, estimate, h⟩ := hres
    have hleaks : Leaks exec r co ↔ (co.events.accepts (held_posts co r estimate) = false ∨
        Abandons exec (waiting service_def action_def r estimate co.budget.reservations.length)
          (at_executor co r estimate)) := by
      constructor
      · rintro ⟨service_def', action_def', estimate', h', hleak⟩
        obtain ⟨rfl, rfl, rfl⟩ := h.unique h'
        exact hleak
      · intro hleak
        exact ⟨service_def, action_def, estimate, h, hleak⟩
    rw [hleaks]
    cases hacc : co.events.accepts (held_posts co r estimate) with
    | true =>
        rw [call_awaiting h hacc]
        simp
    | false =>
        obtain ⟨e, he⟩ := EventStore.appendAll_of_refused hacc
        have hstart := call_start_reserves h
        rw [he] at hstart
        have hopen : (call exec r co).2.budget.is_open co.budget.reservations.length = true := by
          rw [call, bind_of_error hstart]
          exact reserved_open _ _ _
        simp [hopen]
  · have hno : ∀ service_def action_def estimate, ¬ Reserves co r service_def action_def estimate :=
      fun service_def action_def estimate h => hres ⟨service_def, action_def, estimate, h⟩
    obtain ⟨hbudget, hnot⟩ := call_start_without hno
    rw [call_not_awaiting hnot, hbudget, not_open_of_length]
    constructor
    · intro h
      cases h
    · rintro ⟨service_def, action_def, estimate, h, -⟩
      exact absurd h (hno service_def action_def estimate)

end Connector

/-- **When a call gives its reservation back.** Whatever the state, the input and the executor, the
    reservation a tool call or a connector call makes is closed when the call has ended, except exactly
    in the `Leaks` cases. -/
theorem Company.reservation_closed_iff (co : Company) (defs : ToolDefs)
    (tool_exec : ToolCall → Company → ToolOutcome × Company) (i : Invocation)
    (connector_exec : ConnectorCall → Company → Except Exn Json × Company) (r : ConnectorRequest) :
    ((Tools.invoke defs tool_exec i co).2.budget.is_open co.budget.reservations.length = false ↔
      ¬ Tools.Leaks defs tool_exec i co) ∧
    ((Connector.call connector_exec r co).2.budget.is_open co.budget.reservations.length = false ↔
      ¬ Connector.Leaks connector_exec r co) := by
  rw [← Tools.open_after_invoke_iff, ← Connector.open_after_call_iff]
  simp

/-- The `TOOL_CALLED` event is too large: the call raises before the executor. With an executor that is
    cancelled, it raises after it. Both leave the reservation open. -/
theorem Company.reservation_leaked :
    (Tools.invoke [Tools.echo_tool .NONE] (fun _ co => (.ok ⟨"EchoOutput", []⟩, co)) Tools.echo_call
      (opened (.refusing 0) ⟨10000⟩ "eng-1")).2.budget.is_open 0 = true ∧
    (Tools.invoke [Tools.echo_tool .NONE] (fun _ co => (.error .cancelled, co)) Tools.echo_call
      (opened .quiet ⟨10000⟩ "eng-1")).2.budget.is_open 0 = true := by
  constructor
  · rfl
  · rfl

end CompanyFactory
