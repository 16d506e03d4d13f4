import CompanyFactory.AgentRuntime.Turn
import CompanyFactory.Company.Run

/-!
# `AgentRuntime.Approved` — an approved tool call is carried out

A tool-use event of a gated tool gets the answer "pending", and the approval is opened under the id of
that event: the message's correlation id and the provider's tool-use id. Once it is approved, a later event
for the same tool and arguments runs the executor **only if it comes with an id under which an approval is
granted**. A later turn answers another message, or comes with a fresh tool-use id, and then asks anew.

* `pending_inv` — a pending answer is not cached, and its tool is gated;
* `Spares` — the steps that record no result under an id; along them the id stays free (`spared`);
* `carried_iff` — when the later event is carried out.
-/

namespace CompanyFactory

open Act Company Machine

/-! ## What a call leaves in the cache of `Tools` -/

namespace Tools

/-- The result under the id is the same. -/
def SameResult (cid : String) (co co' : Company) : Prop :=
  co'.tools_completed cid = co.tools_completed cid

theorem SameResult.refl (cid : String) (co : Company) : SameResult cid co co := rfl

theorem SameResult.trans {cid : String} (a b c : Company) (hab : SameResult cid a b)
    (hbc : SameResult cid b c) : SameResult cid a c := Eq.trans hbc hab

theorem cache_same_result {cid cid' : String} (h : cid' ≠ cid) (result : ToolResult) :
    Moves (SameResult cid) (cache cid' result) := by
  intro co
  show Function.update co.tools_completed cid' (some result) cid = co.tools_completed cid
  rw [Function.update_of_ne h.symm]

variable {defs : ToolDefs} {co : Company} {i : Invocation} {tool : ToolDef} {estimate : Money}

theorem gate_same_result (cid : String) (req : Option ApprovalRequest) (uuid : String) (now : Time) :
    Moves (SameResult cid) (gate req uuid now) := by
  unfold gate
  split
  · exact Moves.pure (SameResult.refl cid) _
  · exact Moves.bind SameResult.trans (fun _ => rfl) fun _ => Moves.pure (SameResult.refl cid) _

theorem handle_approval_same_result (cid : String) (tool : ToolDef) (i : Invocation) :
    Moves (SameResult cid) (handle_approval tool i) := by
  rw [handle_approval_eq_gate]
  exact gate_same_result cid _ _ _

/-- A call under another id. -/
theorem invoke_start_other {cid : String} (h : i.cid ≠ cid) (co : Company) :
    SameResult cid co (invoke_start defs i co).2 := by
  have happend : ∀ post, Moves (SameResult cid) (append post) := fun _ _ => rfl
  refine invoke_start_moves (SameResult.refl cid) SameResult.trans happend (cache_same_result h)
    (fun _ _ => rfl) fun tool estimate rid _ => ?_
  exact announce_moves (SameResult.refl cid) SameResult.trans happend (cache_same_result h)
    (fun _ => rfl) (handle_approval_same_result cid tool i)

theorem invoke_finish_other {call : ToolCall} {cid : String} (h : call.cid ≠ cid)
    (outcome : ToolOutcome) : Moves (SameResult cid) (invoke_finish call outcome) :=
  invoke_finish_moves (SameResult.refl cid) SameResult.trans (fun _ _ => rfl) (cache_same_result h)
    (fun _ => rfl) (fun _ => rfl) outcome

theorem connector_call_start (cid : String) (r : ConnectorRequest) :
    Moves (SameResult cid) (Connector.call_start r) := by
  intro co
  refine Connector.call_start_moves (SameResult.refl cid) SameResult.trans (fun _ _ => rfl)
    (fun _ _ => rfl) (fun _ _ => rfl) (fun _ _ => rfl) fun service_def action_def estimate _ => ?_
  exact gate_same_result cid _ _ _

theorem connector_call_finish (cid : String) (call : ConnectorCall) (outcome : Except Exn Json) :
    Moves (SameResult cid) (Connector.call_finish call outcome) :=
  Connector.call_finish_moves (SameResult.refl cid) SameResult.trans (fun _ _ => rfl)
    (fun _ _ => rfl) (fun _ => rfl) (fun _ => rfl) outcome

/-- **A gate that is open or pending records no result**: with the reservation made, the call is on its
    way to the executor, or is told to come back. -/
theorem announce_spares {rid : Nat} {status : ApprovalStatus} (cid : String)
    (hgate : gate_status co tool i = status) (h : status = .PENDING ∨ status = .APPROVED) :
    SameResult cid co (announce tool i estimate rid co).2 := by
  obtain ⟨co', hrun, -, -⟩ := handle_approval_run tool i co
  have hsame : SameResult cid co (handle_approval tool i co).2 :=
    handle_approval_same_result cid tool i co
  rw [hrun] at hsame
  rw [announce, bind_run, hrun, hgate]
  cases (EventStore.appendAll (request_posts co (gate_request tool i) i.cid i.now) co.events).1 with
  | error e => exact hsame
  | ok u =>
      refine SameResult.trans _ co' _ hsame ?_
      have hpending : Moves (SameResult cid) (do
          on_budget (Budget.release rid)
          let result ← emit_pending i.cid tool.name i.agent_id
          pure (Started.done result)) := by
        refine Moves.bind SameResult.trans (fun _ => rfl) fun _ => ?_
        refine Moves.bind SameResult.trans ?_ fun _ => Moves.pure (SameResult.refl cid) _
        exact emit_pending_moves (SameResult.refl cid) SameResult.trans (fun _ _ => rfl) _ _ _
      have happroved : Moves (SameResult cid) (do
          append (called_post i.cid tool.name i.args i.agent_id)
          pure (Started.awaiting (waiting tool i estimate rid))) :=
        Moves.bind SameResult.trans (fun _ => rfl) fun _ => Moves.pure (SameResult.refl cid) _
      rcases h with rfl | rfl
      · exact hpending co'
      · exact happroved co'

theorem invoke_start_spares (cid : String) (hres : Reserves defs co i tool estimate)
    (h : gate_status co tool i = .PENDING ∨ gate_status co tool i = .APPROVED) :
    SameResult cid co (invoke_start defs i co).2 := by
  rw [invoke_start_reserves hres]
  rcases EventStore.appendAll (co.budget.reserved estimate i.cid).1 co.events with ⟨e | u, ev⟩
  · rfl
  · have hgate : gate_status { co with budget := (co.budget.reserved estimate i.cid).2, events := ev }
        tool i = gate_status co tool i := rfl
    exact announce_spares cid hgate h

/-! ## A pending answer -/

/-- A failure is not the answer to a call whose approval is pending. -/
theorem failure_ne_pending (cls : ToolErrorClass) (message cid : String) :
    failure cls message ≠ pending_result cid := by
  intro h
  have hextra : (failure cls message).extra = (pending_result cid).extra := by rw [h]
  cases hextra

theorem fail_ne_pending (post : Post) (cid cid' : String) (cls : ToolErrorClass) (message : String)
    (co : Company) :
    ((do let result ← fail post cid cls message; pure (Started.done result) :
      Act Company Exn Started) co).1 ≠ .ok (.done (pending_result cid')) := by
  intro h
  obtain ⟨result, s, hfail, hdone⟩ := bind_eq_ok.mp (Prod.ext h rfl)
  obtain ⟨-, s', -, hrest⟩ := bind_eq_ok.mp hfail
  obtain ⟨-, s'', -, hret⟩ := bind_eq_ok.mp hrest
  cases hret
  exact failure_ne_pending cls message cid' (by injection (congrArg Prod.fst hdone) with h; injection h)

/-- The call was told that its approval is pending; the answer is no replay. -/
def Pending (defs : ToolDefs) (co : Company) (i : Invocation) : Prop :=
  co.tools_completed i.cid = none ∧
    (invoke_start defs i co).1 = .ok (.done (pending_result i.cid))

/-- A gate that is closed for good answers otherwise. -/
theorem announce_pending {rid : Nat} {cid : String}
    (h : (announce tool i estimate rid co).1 = .ok (.done (pending_result cid))) :
    gate_status co tool i = .PENDING := by
  obtain ⟨co', hrun, -, -⟩ := handle_approval_run tool i co
  rw [announce, bind_run, hrun] at h
  cases happ : (EventStore.appendAll (request_posts co (gate_request tool i) i.cid i.now)
      co.events).1 with
  | error e => rw [happ] at h; cases h
  | ok u =>
      rw [happ] at h
      have hdenied : ((do
          on_budget (Budget.release rid)
          let result ← deny i.cid tool.name .ApprovalDenied ("denied:" ++ i.cid) i.agent_id
          pure (Started.done result) : Act Company Exn Started) co').1 ≠
            .ok (.done (pending_result cid)) :=
        bind_ne_ok fun _ _ => fail_ne_pending _ _ _ _ _ _
      cases hstatus : gate_status co tool i with
      | PENDING => rfl
      | APPROVED =>
          rw [hstatus] at h
          obtain ⟨-, s, -, hret⟩ := bind_eq_ok.mp (Prod.ext h rfl)
          cases hret
      | DENIED | TIMEOUT | CANCELLED =>
          rw [hstatus] at h
          exact absurd h hdenied

/-- **A pending answer** comes from the gate of a tool that needs an approval. -/
theorem pending_inv (h : Pending defs co i) :
    ∃ tool estimate, Reserves defs co i tool estimate ∧ gate_status co tool i = .PENDING := by
  obtain ⟨hnew, hrun⟩ := h
  by_cases hres : ∃ tool estimate, Reserves defs co i tool estimate
  · obtain ⟨tool, estimate, hr⟩ := hres
    refine ⟨tool, estimate, hr, ?_⟩
    rw [invoke_start_reserves hr] at hrun
    rcases happ : EventStore.appendAll (co.budget.reserved estimate i.cid).1 co.events with ⟨e | u, ev⟩
    · rw [happ] at hrun
      cases hrun
    · rw [happ] at hrun
      have hgate : gate_status { co with budget := (co.budget.reserved estimate i.cid).2, events := ev }
          tool i = .PENDING := announce_pending hrun
      exact hgate
  · exfalso
    have hno : ∀ tool estimate, ¬ Reserves defs co i tool estimate :=
      fun tool estimate hr => hres ⟨tool, estimate, hr⟩
    obtain ⟨cached, hcached, -⟩ | ⟨e, -, heq⟩ | ⟨tool_name, cls, message, heq⟩ :=
      invoke_start_without_eq hno
    · rw [hnew] at hcached
      cases hcached
    · rw [heq] at hrun
      cases hrun
    · rw [heq] at hrun
      exact fail_ne_pending _ _ _ _ _ _ hrun

/-- The gates find the tool under the name that was called. -/
theorem get_of_admitted {parsed : Fields} (h : run_gates defs co i = .admitted tool parsed estimate) :
    get defs i.tool_name = some tool := by
  unfold run_gates at h
  cases hget : get defs i.tool_name with
  | none => rw [hget] at h; cases h
  | some t =>
      rw [hget] at h
      dsimp only at h
      split at h
      · cases h
      · split at h
        · cases h
        · split at h
          · cases h
          · split at h
            · cases h
            · split at h
              · cases h
              · cases h
              · split at h
                · cases h
                · cases h
                  rfl

/-- A tool whose approval is pending needs one. -/
theorem gated_of_pending (h : gate_status co tool i = .PENDING) (i' : Invocation) :
    ∃ req, gate_request tool i' = some req := by
  cases hkind : tool.requires_approval.kind with
  | none =>
      have hnone : gate_request tool i = none := by rw [gate_request, hkind]; rfl
      rw [gate_status, hnone] at h
      cases h
  | some kind => exact ⟨approval_request tool kind i', by rw [gate_request, hkind]; rfl⟩

end Tools

namespace World

variable {defs : ToolDefs} {w : World} {cid : String}

/-! ## The id stays free -/

/-- The step records no result under the id: a call under it passes the gates and the budget and finds its
    approval pending or granted, and no executor under it ends. -/
def Spares (defs : ToolDefs) (cid : String) (w : World) : Label → Prop
  | .invoke _ i => i.cid = cid → ∃ tool estimate, Tools.Reserves defs w.co i tool estimate ∧
      (Tools.gate_status w.co tool i = .PENDING ∨ Tools.gate_status w.co tool i = .APPROVED)
  | .executor_ends slot _ => ∀ call, w.calls slot = some (.tool call) → call.cid ≠ cid
  | _ => True

theorem service_same_result (cid : String) (op : ServiceOp) (co : Company) :
    Tools.SameResult cid co (op.run co) := by
  cases op with
  | register_service =>
      exact ServiceOp.register_service_frame (Tools.SameResult.refl cid) Tools.SameResult.trans
        (fun _ _ _ => rfl) _ _ _ co
  | set_action_threshold =>
      exact ServiceOp.set_action_threshold_frame (Tools.SameResult.refl cid) Tools.SameResult.trans
        (fun _ _ => rfl) _ _ _ co
  | set_total | charge | approvals | append | set_agent | allow | revoke => rfl

theorem Spares.same_result {label : Label} (h : Spares defs cid w label) :
    Tools.SameResult cid w.co (step defs w label).co := by
  have hs := stepped defs w label
  generalize World.step defs w label = w' at hs ⊢
  have hinvoke : ∀ slot i, Spares defs cid w (.invoke slot i) →
      Tools.SameResult cid w.co (Tools.invoke_start defs i w.co).2 := by
    intro slot i hspares
    by_cases hcid : i.cid = cid
    · obtain ⟨tool, estimate, hres, hgate⟩ := hspares hcid
      exact Tools.invoke_start_spares cid hres hgate
    · exact Tools.invoke_start_other hcid w.co
  cases hs with
  | idle => rfl
  | ran op => exact service_same_result cid op w.co
  | turned_away slot i => exact hinvoke slot i h
  | refused slot r => exact Tools.connector_call_start cid r w.co
  | invoked slot i tool estimate hslot hres hgate hco =>
      show Tools.SameResult cid w.co (Tools.at_executor w.co tool i estimate)
      exact hco ▸ hinvoke slot i h
  | called slot r service_def action_def estimate hslot hres hco =>
      show Tools.SameResult cid w.co (Connector.at_executor w.co r estimate)
      exact hco ▸ Tools.connector_call_start cid r w.co
  | executed slot outcome call hslot => exact Tools.invoke_finish_other (h call hslot) outcome w.co
  | answered slot attempt call hslot => exact Tools.connector_call_finish cid call _ w.co

/-- Along such steps an id without a result stays without one. -/
theorem spared {run : List Label} (hnone : w.co.tools_completed cid = none)
    (hrun : Along (step defs) (Spares defs cid) w run) :
    (exec (step defs) w run).co.tools_completed cid = none := by
  have hstep : ∀ w label, w.co.tools_completed cid = none → Spares defs cid w label →
      (step defs w label).co.tools_completed cid = none := by
    intro w label hw hspares
    exact Eq.trans hspares.same_result hw
  exact exec_invariant_along hstep hnone hrun

/-! ## The later event -/

/-- The event reaches the executor of the tool it names, with its arguments, and no approval is opened or
    changed. -/
def Carried (defs : ToolDefs) (w : World) (slot : Nat) (i : Invocation) : Prop :=
  (∃ call, (step defs w (.invoke slot i)).calls slot = some (.tool call) ∧
    call.agent_id = i.agent_id ∧ Tools.get defs i.tool_name = some call.tool ∧ call.args = i.args) ∧
  (step defs w (.invoke slot i)).co.approvals = w.co.approvals

/-- An approval is granted under the id, and no result is recorded under it. -/
def Granted (w : World) (cid : String) : Prop :=
  w.co.tools_completed cid = none ∧
    ∃ row, Approvals.find w.co.approvals cid = some row ∧ row.status = .APPROVED

/-- The event passes the gates, and the event store takes what is posted on the way to the executor. -/
def Passes (defs : ToolDefs) (w : World) (i : Invocation) : Prop :=
  ∃ tool parsed estimate, Tools.run_gates defs w.co i = .admitted tool parsed estimate ∧
    w.co.events.accepts (Tools.held_posts w.co tool i estimate) = true

/-- **The executor is reached** by a gated event exactly when its id is granted and it passes. -/
theorem carried_iff_granted {slot : Nat} {i : Invocation} (hslot : w.calls slot = none)
    (hgated : ∀ tool, Tools.get defs i.tool_name = some tool → ∃ req, Tools.gate_request tool i = some req)
    (hbudget : ∀ tool parsed estimate, Tools.run_gates defs w.co i = .admitted tool parsed estimate →
      w.co.budget.grants estimate = true) :
    Carried defs w slot i ↔ Granted w i.cid ∧ Passes defs w i := by
  constructor
  · rintro ⟨⟨call, hcall, -⟩, -⟩
    rcases hstart : Tools.invoke_start defs i w.co with ⟨e | result | waiting, co⟩
    · simp [step, hslot, hstart] at hcall
    · simp [step, hslot, hstart] at hcall
    · obtain ⟨tool, estimate, hres, hgate, rfl, rfl⟩ := Tools.awaiting_inv hstart
      obtain ⟨hnone, ⟨parsed, hadm⟩, -⟩ := id hres
      obtain ⟨req, hreq⟩ := hgated tool (Tools.get_of_admitted hadm)
      refine ⟨⟨hnone, ?_⟩, tool, parsed, estimate, hadm, ?_⟩
      · rw [Tools.gate_status, hreq] at hgate
        exact row_of_approved hgate
      · by_contra hacc
        obtain ⟨e, co', hrun, -⟩ := Tools.invoke_start_refused hres (by simpa using hacc)
        rw [hstart] at hrun
        cases hrun
  · rintro ⟨⟨hnone, row, hrow, happ⟩, tool, parsed, estimate, hadm, hacc⟩
    have hres : Tools.Reserves defs w.co i tool estimate :=
      ⟨hnone, ⟨parsed, hadm⟩, hbudget tool parsed estimate hadm⟩
    have hget := Tools.get_of_admitted hadm
    have hgate : Tools.gate_status w.co tool i = .APPROVED := by
      obtain ⟨req, hreq⟩ := hgated tool hget
      rw [Tools.gate_status, hreq, Company.gate_status, hrow]
      exact happ
    have hstart := Tools.invoke_start_awaiting hres hgate hacc
    have hstep : step defs w (.invoke slot i) = w.take_off slot
        (.tool (Tools.waiting tool i estimate w.co.budget.reservations.length))
        (Tools.at_executor w.co tool i estimate) := by
      simp [step, hslot, hstart]
    rw [Carried, hstep]
    exact ⟨⟨_, take_off_self _ _ _, rfl, hget, rfl⟩, rfl⟩

/-! ## Two events of an agent for one call -/

/-- The id of a tool-use event. -/
theorem tool_invocation_cid (agent_id : String) (msg : IncomingMessage) (use : ToolUse) (index : Nat)
    (now : Time) : (AgentRuntime.tool_invocation agent_id msg use index now).cid =
      tool_correlation_id msg.correlation_id use.tool_use_id index := by
  have hne : tool_correlation_id msg.correlation_id use.tool_use_id index ≠ "" := by
    unfold tool_correlation_id
    simp
  show or_new_id (some (tool_correlation_id msg.correlation_id use.tool_use_id index)) "" = _
  simp [or_new_id, hne]

/-- **When an approved call is carried out.** An agent's tool-use event got the pending answer; in the run
    from there the steps record no result under its id, and its approval is granted. A later event of the
    agent for the same tool and arguments, in whatever turn, reaches the executor without a further
    approval request exactly when it comes with the same id, or with one under which another approval is
    granted (and it passes the gates and the event store). -/
theorem approved_call_carried (defs : ToolDefs) (w : World) (slot slot' : Nat) (agent_id : String)
    (msg msg' : IncomingMessage) (use : ToolUse) (tool_use_id' : String) (index index' : Nat)
    (now now' : Time) (between : List Label) (w' : World) (row : Approval)
    (hpending : Tools.Pending defs w.co (AgentRuntime.tool_invocation agent_id msg use index now))
    (hw' : w' = exec (step defs) w
      (.invoke slot (AgentRuntime.tool_invocation agent_id msg use index now) :: between))
    (hbetween : Along (step defs)
      (Spares defs (tool_correlation_id msg.correlation_id use.tool_use_id index))
      (step defs w (.invoke slot (AgentRuntime.tool_invocation agent_id msg use index now))) between)
    (hrow : Approvals.find w'.co.approvals
      (tool_correlation_id msg.correlation_id use.tool_use_id index) = some row)
    (happ : row.status = .APPROVED) (hslot : w'.calls slot' = none)
    (hbudget : ∀ tool parsed estimate, Tools.run_gates defs w'.co (AgentRuntime.tool_invocation
        agent_id msg' { use with tool_use_id := tool_use_id' } index' now') =
      .admitted tool parsed estimate → w'.co.budget.grants estimate = true) :
    Carried defs w' slot' (AgentRuntime.tool_invocation agent_id msg'
        { use with tool_use_id := tool_use_id' } index' now') ↔
      (tool_correlation_id msg'.correlation_id tool_use_id' index' =
          tool_correlation_id msg.correlation_id use.tool_use_id index ∨
        Granted w' (tool_correlation_id msg'.correlation_id tool_use_id' index')) ∧
      Passes defs w' (AgentRuntime.tool_invocation agent_id msg'
        { use with tool_use_id := tool_use_id' } index' now') := by
  obtain ⟨tool, estimate, hres, hgate⟩ := Tools.pending_inv hpending
  have hcid := tool_invocation_cid agent_id msg use index now
  have hcid' := tool_invocation_cid agent_id msg' { use with tool_use_id := tool_use_id' } index' now'
  -- no result is recorded under the first id
  have hnone : w'.co.tools_completed
      (tool_correlation_id msg.correlation_id use.tool_use_id index) = none := by
    have hspares : Spares defs (tool_correlation_id msg.correlation_id use.tool_use_id index) w
        (.invoke slot (AgentRuntime.tool_invocation agent_id msg use index now)) :=
      fun _ => ⟨tool, estimate, hres, .inl hgate⟩
    rw [hw']
    exact spared (hcid ▸ hpending.1) ⟨hspares, hbetween⟩
  have hgated : ∀ tool', Tools.get defs use.tool_name = some tool' →
      ∃ req, Tools.gate_request tool' (AgentRuntime.tool_invocation agent_id msg'
        { use with tool_use_id := tool_use_id' } index' now') = some req := by
    intro tool' hget
    obtain ⟨-, ⟨parsed, hadm⟩, -⟩ := hres
    obtain rfl : tool = tool' := Option.some.inj ((Tools.get_of_admitted hadm).symm.trans hget)
    exact Tools.gated_of_pending hgate _
  rw [carried_iff_granted hslot hgated hbudget, hcid']
  constructor
  · rintro ⟨hgranted, hpasses⟩
    exact ⟨.inr hgranted, hpasses⟩
  · rintro ⟨hsame | hgranted, hpasses⟩
    · refine ⟨?_, hpasses⟩
      show Granted w' (tool_correlation_id msg'.correlation_id tool_use_id' index')
      rw [hsame]
      exact ⟨hnone, row, hrow, happ⟩
    · exact ⟨hgranted, hpasses⟩

/-! ## A run -/

def request_message (correlation_id : String) : IncomingMessage :=
  { content := "pay the invoice", kind := .USER_REQUEST, correlation_id := some correlation_id }

/-- An echo event of a turn that answers the message. -/
def echo_event (correlation_id tool_use_id : String) (now : Time) : Invocation :=
  AgentRuntime.tool_invocation "eng-1" (request_message correlation_id)
    { tool_use_id, tool_name := "echo", tool_input := [] } 1 now

/-- The board's decisions on an approval. -/
def decisions (request_id : String) : List Label :=
  [.service (.approvals (.decide request_id "security" .APPROVE none 1)),
    .service (.approvals (.decide request_id "user" .APPROVE none 2))]

/-- The company when the echo event of a turn has been answered, and its approval granted. -/
def echo_approval : World :=
  exec (step [Tools.echo_tool .EXPENSE]) (idle (opened .quiet ⟨10000⟩ "eng-1"))
    (.invoke 0 (echo_event "m1" "tu1" 0) :: decisions "m1:tu1")

/-- The event with the same id is carried out. -/
theorem echo_carried :
    Carried [Tools.echo_tool .EXPENSE] echo_approval 0 (echo_event "m1" "tu1" 3) := by
  have hiff := approved_call_carried [Tools.echo_tool .EXPENSE]
    (idle (opened .quiet ⟨10000⟩ "eng-1")) 0 0 "eng-1" (request_message "m1") (request_message "m1")
    { tool_use_id := "tu1", tool_name := "echo", tool_input := [] } "tu1" 1 1 0 3 (decisions "m1:tu1")
    echo_approval _ ⟨rfl, rfl⟩ rfl ⟨trivial, trivial, trivial⟩ rfl rfl rfl (fun _ _ _ h => by cases h; rfl)
  exact hiff.mpr ⟨.inl rfl, _, _, _, rfl, rfl⟩

/-- The event of the next turn asks for a second approval. -/
theorem echo_not_carried :
    Tools.Pending [Tools.echo_tool .EXPENSE] (opened .quiet ⟨10000⟩ "eng-1") (echo_event "m1" "tu1" 0) ∧
    (∃ row, Approvals.find echo_approval.co.approvals "m1:tu1" = some row ∧ row.status = .APPROVED) ∧
    echo_approval.co.budget.grants ⟨10⟩ = true ∧
    ¬ Carried [Tools.echo_tool .EXPENSE] echo_approval 0 (echo_event "m2" "tu2" 3) ∧
    ((step [Tools.echo_tool .EXPENSE] echo_approval
      (.invoke 0 (echo_event "m2" "tu2" 3))).co.approvals.map Approval.request_id) = ["m1:tu1", "m2:tu2"] := by
  refine ⟨⟨rfl, rfl⟩, ⟨_, rfl, rfl⟩, rfl, ?_, rfl⟩
  rintro ⟨⟨call, hcall, -⟩, -⟩
  have hnone : (step [Tools.echo_tool .EXPENSE] echo_approval
      (.invoke 0 (echo_event "m2" "tu2" 3))).calls 0 = none := rfl
  rw [hnone] at hcall
  cases hcall

end World

end CompanyFactory
