import CompanyFactory.Company.Frame
import CompanyFactory.Tools.Service

/-!
# `Tools.Spec` — what the two parts of a tool call do

* **Footprint.** `invoke_finish_moves`, `announce_moves`: a relation that every primitive of a part moves
  along — an append, a cache write, a release, … — is one the part moves along.
* **Evaluation.** What the first part does is decided by the state it starts from: the gates (`run_gates`),
  the headroom (`grants`), the status under the call's id (`gate_status`), and the appends that the event
  store has to accept while the reservation is held (`held_posts`). `invoke_start_awaiting` is the exact
  condition under which the executor is reached.
-/

namespace CompanyFactory

namespace Tools

open Company Act

/-! ## Footprint -/

section Footprint

variable {R : Company → Company → Prop} (hrefl : ∀ co, R co co)
  (htrans : ∀ a b c, R a b → R b c → R a c) (happend : ∀ post, Moves R (append post))

include hrefl htrans happend

theorem fail_moves {cid : String} (hcache : ∀ r, Moves R (cache cid r)) (post : Post)
    (cls : ToolErrorClass) (message : String) : Moves R (fail post cid cls message) := by
  refine Moves.bind htrans (happend post) fun _ => ?_
  exact Moves.bind htrans (hcache _) fun _ => Moves.pure hrefl _

theorem emit_pending_moves (cid tool_name actor : String) :
    Moves R (emit_pending cid tool_name actor) :=
  Moves.bind htrans (happend _) fun _ => Moves.pure hrefl _

/-- The part after the await point. -/
theorem invoke_finish_moves {call : ToolCall} (hcache : ∀ r, Moves R (cache call.cid r))
    (hrelease : Moves R (on_budget (Budget.release call.reservation_id)))
    (hcommit : Moves R (on_budget (Budget.commit call.reservation_id call.estimate)))
    (outcome : ToolOutcome) : Moves R (invoke_finish call outcome) := by
  have hfail := fail_moves hrefl htrans happend hcache
  have hclose : ∀ post cls message, Moves R (do
      on_budget (Budget.release call.reservation_id)
      fail post call.cid cls message) :=
    fun post cls message => Moves.bind htrans hrelease fun _ => hfail post cls message
  unfold invoke_finish
  split
  · exact hclose _ _ _
  · exact Moves.ite (hclose _ _ _) (Moves.raise hrefl _)
  · refine Moves.ite (hclose _ _ _) (Moves.bind htrans hcommit fun charge => ?_)
    refine Moves.ite (hfail _ _ _) (Moves.bind htrans (happend _) fun _ => ?_)
    exact Moves.bind htrans (hcache _) fun _ => Moves.pure hrefl _

/-- The part between the reservation and the await point. -/
theorem announce_moves {tool : ToolDef} {i : Invocation} {estimate : Money} {rid : Nat}
    (hcache : ∀ r, Moves R (cache i.cid r))
    (hrelease : Moves R (on_budget (Budget.release rid)))
    (hrequest : Moves R (handle_approval tool i)) :
    Moves R (announce tool i estimate rid) := by
  refine Moves.bind htrans hrequest fun status => ?_
  have hpending : Moves R (do
      on_budget (Budget.release rid)
      let result ← emit_pending i.cid tool.name i.agent_id
      pure (Started.done result)) := by
    refine Moves.bind htrans hrelease fun _ => ?_
    exact Moves.bind htrans (emit_pending_moves hrefl htrans happend _ _ _)
      fun _ => Moves.pure hrefl _
  have hdenied : Moves R (do
      on_budget (Budget.release rid)
      let result ← deny i.cid tool.name .ApprovalDenied ("denied:" ++ i.cid) i.agent_id
      pure (Started.done result)) := by
    refine Moves.bind htrans hrelease fun _ => ?_
    exact Moves.bind htrans (fail_moves hrefl htrans happend hcache _ _ _)
      fun _ => Moves.pure hrefl _
  cases status with
  | APPROVED => exact Moves.bind htrans (happend _) fun _ => Moves.pure hrefl _
  | PENDING => exact hpending
  | DENIED | TIMEOUT | CANCELLED => exact hdenied

end Footprint

theorem cache_same_budget (cid : String) (result : ToolResult) :
    Moves SameBudget (cache cid result) := fun _ => rfl

theorem deny_same_budget (cid tool_name : String) (cls : ToolErrorClass) (message actor : String) :
    Moves SameBudget (deny cid tool_name cls message actor) :=
  fail_moves SameBudget.refl SameBudget.trans append_same_budget (cache_same_budget cid) _ _ _

theorem emit_pending_same_budget (cid tool_name actor : String) :
    Moves SameBudget (emit_pending cid tool_name actor) :=
  emit_pending_moves SameBudget.refl SameBudget.trans append_same_budget _ _ _

/-! ## The approval gate -/

/-- The approval that the call needs, if it needs one. -/
def gate_request (tool : ToolDef) (i : Invocation) : Option ApprovalRequest :=
  tool.requires_approval.kind.map (fun kind => approval_request tool kind i)

theorem handle_approval_eq_gate (tool : ToolDef) (i : Invocation) :
    handle_approval tool i = gate (gate_request tool i) i.uuid i.now := by
  unfold handle_approval gate_request
  cases tool.requires_approval.kind <;> rfl

theorem gate_request_id {tool : ToolDef} {i : Invocation} (req : ApprovalRequest)
    (h : gate_request tool i = some req) : or_new_id req.request_id i.uuid = i.cid := by
  obtain ⟨kind, -, rfl⟩ := Option.map_eq_some_iff.mp h
  exact or_new_id_or_new_id _ _

/-- The status under the call's id. -/
def gate_status (co : Company) (tool : ToolDef) (i : Invocation) : ApprovalStatus :=
  Company.gate_status co (gate_request tool i) i.cid

/-- The events from the approval gate to the executor. -/
def gate_posts (co : Company) (tool : ToolDef) (i : Invocation) : List Post :=
  request_posts co (gate_request tool i) i.cid i.now ++
    if gate_status co tool i = .APPROVED then [called_post i.cid tool.name i.args i.agent_id] else []

/-- The events appended while the reservation is held: those of the reservation, then the gate's. -/
def held_posts (co : Company) (tool : ToolDef) (i : Invocation) (estimate : Money) : List Post :=
  (co.budget.reserved estimate i.cid).1 ++ gate_posts co tool i

theorem gate_posts_of_approved {co : Company} {tool : ToolDef} {i : Invocation}
    (h : gate_status co tool i = .APPROVED) :
    gate_posts co tool i = [called_post i.cid tool.name i.args i.agent_id] := by
  rw [gate_posts, request_posts_of_approved _ _ h, if_pos h, List.nil_append]

theorem gate_posts_of_not_approved {co : Company} {tool : ToolDef} {i : Invocation}
    (h : gate_status co tool i ≠ .APPROVED) :
    gate_posts co tool i = request_posts co (gate_request tool i) i.cid i.now := by
  rw [gate_posts, if_neg h, List.append_nil]

/-- `_handle_approval` answers the gate's status unless its event is refused. -/
theorem handle_approval_run (tool : ToolDef) (i : Invocation) (co : Company) :
    ∃ co', handle_approval tool i co =
        ((EventStore.appendAll (request_posts co (gate_request tool i) i.cid i.now) co.events).1.map
          (fun _ => gate_status co tool i), co') ∧
      co'.budget = co.budget ∧ (gate_status co tool i = .APPROVED → co' = co) := by
  rw [handle_approval_eq_gate]
  exact gate_run i.now co gate_request_id

/-! ## From the reservation to the executor -/

/-- The call that waits for its executor. -/
def waiting (tool : ToolDef) (i : Invocation) (estimate : Money) (rid : Nat) : ToolCall :=
  { cid := i.cid, agent_id := i.agent_id, tool, args := i.args, estimate, reservation_id := rid }

variable {tool : ToolDef} {i : Invocation} {estimate : Money} {rid : Nat} {co : Company}

theorem announce_awaiting (co : Company) (h : gate_status co tool i = .APPROVED)
    (hacc : co.events.accepts (gate_posts co tool i) = true) :
    announce tool i estimate rid co = (.ok (.awaiting (waiting tool i estimate rid)),
      { co with events := (EventStore.appendAll (gate_posts co tool i) co.events).2 }) := by
  obtain ⟨co', hrun, -, hsame⟩ := handle_approval_run tool i co
  obtain rfl := hsame h
  rw [request_posts_of_approved _ _ h, h] at hrun
  rw [gate_posts_of_approved h] at hacc ⊢
  have happ : append (called_post i.cid tool.name i.args i.agent_id) co' = (.ok (),
      { co' with events := (EventStore.appendAll
        [called_post i.cid tool.name i.args i.agent_id] co'.events).2 }) := by
    rw [append_run, EventStore.appendAll_of_accepts hacc]
  rw [announce, bind_of_ok hrun]
  show (append _ >>= _) co' = _
  rw [bind_of_ok happ]
  rfl

/-- A refused event ends the call with the reservation as it is. -/
theorem announce_refused (co : Company) (hacc : co.events.accepts (gate_posts co tool i) = false) :
    ∃ e co', announce tool i estimate rid co = (.error e, co') ∧ co'.budget = co.budget := by
  obtain ⟨co', hrun, hbudget, hsame⟩ := handle_approval_run tool i co
  by_cases h : gate_status co tool i = .APPROVED
  · obtain rfl := hsame h
    rw [request_posts_of_approved _ _ h, h] at hrun
    rw [gate_posts_of_approved h] at hacc
    obtain ⟨e, he⟩ := EventStore.appendAll_of_refused hacc
    have happ : append (called_post i.cid tool.name i.args i.agent_id) co' = (.error e,
        { co' with events := (EventStore.appendAll
          [called_post i.cid tool.name i.args i.agent_id] co'.events).2 }) := by
      rw [append_run, he]
    refine ⟨e, { co' with events := (EventStore.appendAll
      [called_post i.cid tool.name i.args i.agent_id] co'.events).2 }, ?_, rfl⟩
    rw [announce, bind_of_ok hrun]
    show (append _ >>= _) co' = _
    rw [bind_of_error happ]
  · rw [gate_posts_of_not_approved h] at hacc
    obtain ⟨e, he⟩ := EventStore.appendAll_of_refused hacc
    rw [he] at hrun
    exact ⟨e, co', by rw [announce, bind_of_error hrun], hbudget⟩

/-- A gate that is not approved gives the reservation back and ends the call. -/
theorem announce_turned_away (co : Company) (h : gate_status co tool i ≠ .APPROVED)
    (hacc : co.events.accepts (gate_posts co tool i) = true) :
    (announce tool i estimate rid co).2.budget.is_open rid = false ∧
      ∀ call, (announce tool i estimate rid co).1 ≠ .ok (.awaiting call) := by
  obtain ⟨co', hrun, -, -⟩ := handle_approval_run tool i co
  rw [gate_posts_of_not_approved h] at hacc
  rw [EventStore.appendAll_of_accepts hacc] at hrun
  rw [announce, bind_of_ok hrun]
  have hpending : Ends (fun co => co.budget.is_open rid = false) (do
      on_budget (Budget.release rid)
      let result ← emit_pending i.cid tool.name i.agent_id
      pure (Started.done result)) :=
    release_ends fun _ => Moves.bind SameBudget.trans (emit_pending_same_budget _ _ _)
      fun _ => Moves.pure SameBudget.refl _
  have hdenied : Ends (fun co => co.budget.is_open rid = false) (do
      on_budget (Budget.release rid)
      let result ← deny i.cid tool.name .ApprovalDenied ("denied:" ++ i.cid) i.agent_id
      pure (Started.done result)) :=
    release_ends fun _ => Moves.bind SameBudget.trans (deny_same_budget _ _ _ _ _)
      fun _ => Moves.pure SameBudget.refl _
  cases hstatus : gate_status co tool i with
  | APPROVED => exact absurd hstatus h
  | PENDING =>
      exact ⟨hpending co', fun call => bind_ne_ok fun _ _ => bind_ne_ok fun _ _ => nofun⟩
  | DENIED | TIMEOUT | CANCELLED =>
      exact ⟨hdenied co', fun call => bind_ne_ok fun _ _ => bind_ne_ok fun _ _ => nofun⟩

/-! ## The whole first part -/

/-- The call makes a reservation: it is no replay, it passes the gates, and the budget has room. -/
def Reserves (defs : ToolDefs) (co : Company) (i : Invocation) (tool : ToolDef) (estimate : Money) :
    Prop :=
  co.tools_completed i.cid = none ∧ (∃ parsed, run_gates defs co i = .admitted tool parsed estimate) ∧
    co.budget.grants estimate = true

/-- The company that the executor of a call finds. -/
def at_executor (co : Company) (tool : ToolDef) (i : Invocation) (estimate : Money) : Company :=
  { co with
    budget := (co.budget.reserved estimate i.cid).2
    events := (EventStore.appendAll (held_posts co tool i estimate) co.events).2 }

variable {defs : ToolDefs}

/-- With the reservation made, the threshold events come first. -/
theorem invoke_start_reserves (h : Reserves defs co i tool estimate) :
    invoke_start defs i co =
      match EventStore.appendAll (co.budget.reserved estimate i.cid).1 co.events with
      | (.ok _, events) => announce tool i estimate co.budget.reservations.length
          { co with budget := (co.budget.reserved estimate i.cid).2, events }
      | (.error e, events) =>
          (.error e, { co with budget := (co.budget.reserved estimate i.cid).2, events }) := by
  obtain ⟨hnew, ⟨parsed, hadm⟩, hgrants⟩ := h
  have hres := reserve_of_grants co i.cid hgrants
  show (Act.read id >>= _) co = _
  rw [read_bind]
  simp only [id, hnew, hadm]
  rw [attempt_bind, hres]
  rcases happ : EventStore.appendAll (co.budget.reserved estimate i.cid).1 co.events with ⟨e | u, ev⟩
  · have hstore := EventStore.appendAll_error (congrArg Prod.fst happ)
    cases e <;> first | rfl | cases hstore
  · rfl

/-- **The executor is reached** exactly when the call reserves, the gate is approved and the event store
    accepts every event up to there. -/
theorem invoke_start_awaiting (h : Reserves defs co i tool estimate)
    (hgate : gate_status co tool i = .APPROVED)
    (hacc : co.events.accepts (held_posts co tool i estimate) = true) :
    invoke_start defs i co =
      (.ok (.awaiting (waiting tool i estimate co.budget.reservations.length)),
        at_executor co tool i estimate) := by
  rw [held_posts, EventStore.accepts_append, Bool.and_eq_true] at hacc
  rw [invoke_start_reserves h, at_executor, held_posts, EventStore.appendAll_append]
  rcases happ : EventStore.appendAll (co.budget.reserved estimate i.cid).1 co.events with ⟨e | u, ev⟩
  · simp [EventStore.accepts, Act.returns, happ, Except.isOk, Except.toBool] at hacc
  · rw [Act.after, happ] at hacc
    exact announce_awaiting { co with budget := _, events := ev } hgate hacc.2

/-- A refused event between the reservation and the executor: the call raises, and the reservation
    stays as it was made. -/
theorem invoke_start_refused (h : Reserves defs co i tool estimate)
    (hacc : co.events.accepts (held_posts co tool i estimate) = false) :
    ∃ e co', invoke_start defs i co = (.error e, co') ∧
      co'.budget = (co.budget.reserved estimate i.cid).2 := by
  rw [held_posts, EventStore.accepts_append] at hacc
  rw [invoke_start_reserves h]
  rcases happ : EventStore.appendAll (co.budget.reserved estimate i.cid).1 co.events with ⟨e | u, ev⟩
  · exact ⟨e, _, rfl, rfl⟩
  · rw [Act.after, happ] at hacc
    have hgate : ev.accepts (gate_posts co tool i) = false := by
      simpa [EventStore.accepts, Act.returns, happ, Except.isOk, Except.toBool] using hacc
    exact announce_refused { co with budget := _, events := ev } hgate

theorem invoke_start_turned_away (h : Reserves defs co i tool estimate)
    (hgate : gate_status co tool i ≠ .APPROVED)
    (hacc : co.events.accepts (held_posts co tool i estimate) = true) :
    (invoke_start defs i co).2.budget.is_open co.budget.reservations.length = false ∧
      ∀ call, (invoke_start defs i co).1 ≠ .ok (.awaiting call) := by
  rw [held_posts, EventStore.accepts_append, Bool.and_eq_true] at hacc
  rw [invoke_start_reserves h]
  rcases happ : EventStore.appendAll (co.budget.reserved estimate i.cid).1 co.events with ⟨e | u, ev⟩
  · simp [EventStore.accepts, Act.returns, happ, Except.isOk, Except.toBool] at hacc
  · rw [Act.after, happ] at hacc
    exact announce_turned_away { co with budget := _, events := ev } hgate hacc.2

/-- A call that makes no reservation is a replay, raises at once, or is denied. -/
theorem invoke_start_without_eq (h : ∀ tool estimate, ¬ Reserves defs co i tool estimate) :
    (∃ cached, co.tools_completed i.cid = some cached ∧
      invoke_start defs i co = (.ok (.done cached), co)) ∨
    (∃ e, run_gates defs co i = .raised e ∧ invoke_start defs i co = (.error e, co)) ∨
    ∃ tool_name cls message, invoke_start defs i co = (do
      let result ← deny i.cid tool_name cls message i.agent_id
      pure (Started.done result) : Act Company Exn Started) co := by
  rw [invoke_start, read_bind, id]
  cases hcached : co.tools_completed i.cid with
  | some cached => exact .inl ⟨cached, rfl, rfl⟩
  | none =>
      right
      cases hadm : run_gates defs co i with
      | refused tool_name cls message => exact .inr ⟨tool_name, cls, message, rfl⟩
      | raised e => exact .inl ⟨e, rfl, rfl⟩
      | admitted tool parsed estimate =>
          have hgrants : co.budget.grants estimate = false := by
            by_contra hg
            exact h tool estimate ⟨hcached, ⟨parsed, hadm⟩, by simpa using hg⟩
          obtain ⟨message, hres⟩ := reserve_of_refused i.cid hgrants
          right
          refine ⟨tool.name, .OverBudget, message, ?_⟩
          dsimp only
          rw [attempt_bind, hres]

/-- A call that makes no reservation appends and caches at most, and ends before the executor. -/
theorem invoke_start_without_moves {R : Company → Company → Prop} (hrefl : ∀ co, R co co)
    (htrans : ∀ a b c, R a b → R b c → R a c) (happend : ∀ post, Moves R (append post))
    (hcache : ∀ r, Moves R (cache i.cid r)) (h : ∀ tool estimate, ¬ Reserves defs co i tool estimate) :
    R co (invoke_start defs i co).2 ∧ ∀ call, (invoke_start defs i co).1 ≠ .ok (.awaiting call) := by
  obtain ⟨cached, -, hrun⟩ | ⟨e, -, hrun⟩ | ⟨tool_name, cls, message, hrun⟩ :=
    invoke_start_without_eq h
  · rw [hrun]
    exact ⟨hrefl _, nofun⟩
  · rw [hrun]
    exact ⟨hrefl _, nofun⟩
  · rw [hrun]
    refine ⟨?_, fun call => bind_ne_ok fun _ _ => nofun⟩
    exact Moves.bind htrans (fail_moves hrefl htrans happend hcache _ _ _)
      (fun _ => Moves.pure hrefl _) co

theorem invoke_start_without (h : ∀ tool estimate, ¬ Reserves defs co i tool estimate) :
    (invoke_start defs i co).2.budget = co.budget ∧
      ∀ call, (invoke_start defs i co).1 ≠ .ok (.awaiting call) :=
  invoke_start_without_moves SameBudget.refl SameBudget.trans append_same_budget
    (cache_same_budget _) h

/-- **Footprint of the first part.** The part after the reservation has to move along `R` only for the
    tool that is about to be called. -/
theorem invoke_start_moves {R : Company → Company → Prop} (hrefl : ∀ co, R co co)
    (htrans : ∀ a b c, R a b → R b c → R a c) (happend : ∀ post, Moves R (append post))
    (hcache : ∀ r, Moves R (cache i.cid r))
    (hreserve : ∀ estimate, Moves R (on_budget (Budget.reserve estimate i.cid)))
    (hannounce : ∀ tool estimate rid, Reserves defs co i tool estimate →
      Moves R (announce tool i estimate rid)) :
    R co (invoke_start defs i co).2 := by
  by_cases hres : ∃ tool estimate, Reserves defs co i tool estimate
  · obtain ⟨tool, estimate, hr⟩ := hres
    have hfirst := hreserve estimate co
    rw [reserve_of_grants co i.cid hr.2.2] at hfirst
    rw [invoke_start_reserves hr]
    rcases happ : EventStore.appendAll (co.budget.reserved estimate i.cid).1 co.events with ⟨e | u, ev⟩
    · rw [happ] at hfirst
      exact hfirst
    · rw [happ] at hfirst
      exact htrans _ _ _ hfirst (hannounce tool estimate _ hr _)
  · have hno : ∀ tool estimate, ¬ Reserves defs co i tool estimate :=
      fun tool estimate hr => hres ⟨tool, estimate, hr⟩
    exact (invoke_start_without_moves hrefl htrans happend hcache hno).1

/-! ## After the executor -/

theorem release_fail_ends (call : ToolCall) (cls : ToolErrorClass) (message : String) :
    Ends (fun co => co.budget.is_open call.reservation_id = false) (do
      on_budget (Budget.release call.reservation_id)
      fail_result call.cid call.tool.name cls message call.agent_id) :=
  release_ends fun _ =>
    fail_moves SameBudget.refl SameBudget.trans append_same_budget (cache_same_budget _) _ _ _

/-- Every outcome that is handled closes the reservation, whatever is raised on the way. -/
theorem invoke_finish_ends (call : ToolCall) {outcome : ToolOutcome}
    (h : abandoned outcome = false) :
    Ends (fun co => co.budget.is_open call.reservation_id = false) (invoke_finish call outcome) := by
  unfold invoke_finish
  split
  · exact release_fail_ends _ _ _
  · rename_i e _
    have he : e.isException = true := by simpa [abandoned] using h
    rw [if_pos he]
    exact release_fail_ends _ _ _
  · split
    · exact release_fail_ends _ _ _
    · refine commit_ends fun charge => ?_
      have hfail := fail_moves SameBudget.refl SameBudget.trans append_same_budget
        (cache_same_budget call.cid)
      refine Moves.ite (hfail _ _ _) (Moves.bind SameBudget.trans (append_same_budget _) fun _ => ?_)
      exact Moves.bind SameBudget.trans (cache_same_budget _ _) fun _ => Moves.pure SameBudget.refl _

/-- An outcome that is not handled ends the call where it is. -/
theorem invoke_finish_abandoned {call : ToolCall} {outcome : ToolOutcome}
    (h : abandoned outcome = true) (co : Company) : (invoke_finish call outcome co).2 = co := by
  rcases outcome with e | output
  · have he : e = .cancelled := by cases e <;> simp [abandoned, Exn.isException] at h ⊢
    rw [he]
    rfl
  · simp [abandoned] at h

/-- A call that reached its executor, and the state it did so from. -/
theorem awaiting_inv {call : ToolCall} {s : Company}
    (h : invoke_start defs i co = (.ok (.awaiting call), s)) :
    ∃ tool estimate, Reserves defs co i tool estimate ∧ gate_status co tool i = .APPROVED ∧
      call = waiting tool i estimate co.budget.reservations.length ∧
      s = at_executor co tool i estimate := by
  by_cases hres : ∃ tool estimate, Reserves defs co i tool estimate
  · obtain ⟨tool, estimate, hr⟩ := hres
    cases hacc : co.events.accepts (held_posts co tool i estimate) with
    | false =>
        obtain ⟨e, co', hrun, -⟩ := invoke_start_refused hr hacc
        rw [h] at hrun
        cases hrun
    | true =>
        by_cases hgate : gate_status co tool i = .APPROVED
        · rw [invoke_start_awaiting hr hgate hacc] at h
          cases h
          exact ⟨tool, estimate, hr, hgate, rfl, rfl⟩
        · obtain ⟨-, hnot⟩ := invoke_start_turned_away hr hgate hacc
          exact absurd (congrArg Prod.fst h) (hnot call)
  · have hno : ∀ tool estimate, ¬ Reserves defs co i tool estimate :=
      fun tool estimate hr => hres ⟨tool, estimate, hr⟩
    exact absurd (congrArg Prod.fst h) ((invoke_start_without hno).2 call)

/-! ## What a call leaves behind -/

theorem cache_grows (cid : String) (result : ToolResult) : Moves CacheGrows (cache cid result) := by
  rintro co ⟨caller, cid'⟩ h
  cases caller with
  | CONNECTOR => exact h
  | TOOLS =>
      show Function.update co.tools_completed cid (some result) cid' ≠ none
      by_cases heq : cid' = cid
      · subst heq
        simp
      · rw [Function.update_of_ne heq]
        exact h

theorem invoke_start_cache (defs : ToolDefs) (i : Invocation) :
    Moves CacheGrows (invoke_start defs i) := by
  intro co
  refine invoke_start_moves CacheGrows.refl CacheGrows.trans append_cache (cache_grows _)
    (fun _ => on_budget_cache _) fun tool estimate rid _ => ?_
  refine announce_moves CacheGrows.refl CacheGrows.trans append_cache (cache_grows _)
    (on_budget_cache _) ?_
  rw [handle_approval_eq_gate]
  exact gate_cache _ _ _

theorem invoke_finish_cache (call : ToolCall) (outcome : ToolOutcome) :
    Moves CacheGrows (invoke_finish call outcome) :=
  invoke_finish_moves CacheGrows.refl CacheGrows.trans append_cache (cache_grows _)
    (on_budget_cache _) (on_budget_cache _) outcome

/-- The first part leaves every open reservation open. -/
theorem invoke_start_keeps (defs : ToolDefs) (i : Invocation) (co : Company) {rid : Nat}
    {row : ReservationRow} (h : co.budget.require_open rid = .ok row) :
    (invoke_start defs i co).2.budget.require_open rid = .ok row := by
  by_cases hres : ∃ tool estimate, Reserves defs co i tool estimate
  · obtain ⟨tool, estimate, hr⟩ := hres
    have hlt : rid ≠ co.budget.reservations.length := by
      have hsome := (Budget.require_open_iff.mp h).1
      exact ((List.getElem?_eq_some_iff.mp hsome).1).ne
    have hreserved : (co.budget.reserved estimate i.cid).2.require_open rid = .ok row :=
      reserved_keeps estimate i.cid h
    rw [invoke_start_reserves hr]
    rcases EventStore.appendAll (co.budget.reserved estimate i.cid).1 co.events with ⟨e | u, ev⟩
    · exact hreserved
    · have hmoves : Moves (Keeps (· = co.budget.reservations.length))
          (announce tool i estimate co.budget.reservations.length) := by
        refine announce_moves (Keeps.refl _) Keeps.trans (append_keeps _)
          (fun _ _ _ _ _ h => h) (release_keeps rfl) ?_
        rw [handle_approval_eq_gate]
        exact gate_keeps _ _ _ _
      exact hmoves { co with budget := _, events := ev } rid row hlt hreserved
  · have hno : ∀ tool estimate, ¬ Reserves defs co i tool estimate :=
      fun tool estimate hr => hres ⟨tool, estimate, hr⟩
    rw [(invoke_start_without hno).1]
    exact h

theorem invoke_finish_keeps (call : ToolCall) (outcome : ToolOutcome) :
    Moves (Keeps (· = call.reservation_id)) (invoke_finish call outcome) :=
  invoke_finish_moves (R := Keeps (· = call.reservation_id)) (Keeps.refl _) Keeps.trans
    (append_keeps _) (fun _ _ _ _ _ h => h) (release_keeps rfl)
    (commit_keeps (S := (· = call.reservation_id)) rfl _) outcome

/-- An executor that raises costs nothing. -/
theorem invoke_finish_error_expenses (call : ToolCall) (e : Exn) :
    Moves SameExpenses (invoke_finish call (.error e)) := by
  have hclose : ∀ cls message, Moves SameExpenses (do
      on_budget (Budget.release call.reservation_id)
      fail_result call.cid call.tool.name cls message call.agent_id) := by
    intro cls message
    refine Moves.bind SameExpenses.trans (release_expenses _) fun _ => ?_
    exact fail_moves SameExpenses.refl SameExpenses.trans (fun _ _ => rfl) (fun _ _ => rfl) _ _ _
  cases e with
  | tool cls message => exact hclose _ _
  | cancelled => exact Moves.raise SameExpenses.refl _
  | _ => exact hclose _ _

/-- The events that the second part appends after an executor that returned. -/
def finish_posts (co : Company) (call : ToolCall) (output : Instance) : List Post :=
  if !call.tool.conforms output then
    [failed_post call.cid call.tool.name .ExecutorFailure
      ("executor returned " ++ output.cls ++ ", expected " ++ call.tool.output_schema) call.agent_id]
  else
    match co.budget.commit_tx call.reservation_id call.estimate with
    | .error _ => []
    | .ok (charge, posts, _) => posts ++
      [if charge.ok then result_post call.cid call.tool.name output call.agent_id
       else failed_post call.cid call.tool.name .OverBudget ("commit_failed:" ++ call.cid)
        call.agent_id]

theorem cached_after (cid : String) (result : ToolResult) (co : Company) :
    (cache cid result co).2.tools_completed cid ≠ none := by
  simp [cache, Act.write]

/-- An accepted event, then the cache entry. -/
theorem append_cache_ends {post : Post} {co : Company} (cid : String) (result : ToolResult)
    (h : co.events.accepts [post] = true) :
    ((do append post; cache cid result; pure result : Act Company Exn ToolResult) co).2.tools_completed
      cid ≠ none := by
  have happ : append post co =
      (.ok (), { co with events := (EventStore.appendAll [post] co.events).2 }) := by
    rw [append_run, EventStore.appendAll_of_accepts h]
  rw [bind_of_ok happ]
  exact cached_after cid result _

/-- **An executor that returned leaves a cache entry**, if the event store accepts the events that
    report it. -/
theorem invoke_finish_cached {call : ToolCall} {output : Instance} {co : Company}
    (hopen : co.budget.is_open call.reservation_id = true)
    (hacc : co.events.accepts (finish_posts co call output) = true) :
    (invoke_finish call (.ok output) co).2.tools_completed call.cid ≠ none := by
  unfold finish_posts at hacc
  unfold invoke_finish
  by_cases hconf : (!call.tool.conforms output) = true
  · obtain ⟨row, hrow⟩ := Budget.is_open_iff.mp hopen
    rw [if_pos hconf] at hacc
    dsimp only
    rw [if_pos hconf, bind_of_ok (release_of_open hrow)]
    exact append_cache_ends _ _ hacc
  · obtain ⟨charge, posts, db, htx⟩ := commit_tx_of_open call.estimate hopen
    rw [if_neg hconf, htx] at hacc
    dsimp only at hacc ⊢
    rw [EventStore.accepts_append, Bool.and_eq_true] at hacc
    have hrun := commit_of_tx htx
    rw [EventStore.appendAll_of_accepts hacc.1] at hrun
    rw [if_neg hconf, bind_of_ok hrun]
    cases hok : charge.ok with
    | true =>
        have hres : ((EventStore.appendAll posts).after co.events).accepts
            [result_post call.cid call.tool.name output call.agent_id] = true := by
          simpa [hok] using hacc.2
        exact append_cache_ends _ _ hres
    | false =>
        have hres : ((EventStore.appendAll posts).after co.events).accepts
            [failed_post call.cid call.tool.name .OverBudget ("commit_failed:" ++ call.cid)
              call.agent_id] = true := by
          simpa [hok] using hacc.2
        exact append_cache_ends _ _ hres

end Tools

end CompanyFactory
