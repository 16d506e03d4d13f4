import CompanyFactory.Tools.Spec

/-!
# `Tools.Outcome` — the outcome event of a tool call

A call that is not answered from the cache is meant to return a result and to leave one `TOOL_DENIED` or
`TOOL_RESULT` event. Nothing guards the identity lookup, the estimator and the appends, so it may raise.

* `Writes posts m co` — from `co`, `m` appends these posts and returns exactly when all of them are accepted.
  The parts of a call compose (`Writes.bind`), and every end of a call has one outcome post last.
* `Completes` — the gates decide, the executor ends with a result or an exception and leaves the reservation
  open, and the event store accepts what the call appends.
* `settles_iff` — a call settles exactly when it completes.
-/

namespace CompanyFactory

open Act Company

namespace Tools

/-! ## What a computation appends -/

/-- From `co`, the computation appends the posts, and returns exactly when all of them are accepted. -/
structure Writes {α : Type} (posts : List Post) (m : Act Company Exn α) (co : Company) : Prop where
  events : (m co).2.events = (EventStore.appendAll posts co.events).2
  returns : co.events.accepts posts = true ↔ ∃ a, (m co).1 = .ok a

section Rules

variable {α β : Type} {co : Company}

theorem Writes.of_eq {posts : List Post} {m : Act Company Exn α} {a : α} {db : Company → Company}
    (hdb : ∀ s, (db s).events = s.events)
    (h : m co = ((EventStore.appendAll posts co.events).1.map (fun _ => a),
      db { co with events := (EventStore.appendAll posts co.events).2 })) : Writes posts m co where
  events := by
    rw [h]
    exact hdb _
  returns := by
    rw [h, EventStore.accepts, Act.returns]
    cases (EventStore.appendAll posts co.events).1 with
    | ok u => exact ⟨fun _ => ⟨a, rfl⟩, fun _ => rfl⟩
    | error e =>
        constructor
        · intro hok
          cases hok
        · rintro ⟨_, hok⟩
          cases hok

/-- A computation that returns and appends nothing. -/
theorem Writes.silent {m : Act Company Exn α} {a : α} {s : Company} (h : m co = (.ok a, s))
    (hevents : s.events = co.events) : Writes [] m co where
  events := by
    rw [h]
    exact hevents
  returns := ⟨fun _ => ⟨a, by rw [h]⟩, fun _ => rfl⟩

/-- A computation that raises although it has nothing to append. -/
theorem Writes.not_returns {posts : List Post} {m : Act Company Exn α} {a : α} {s : Company}
    (h : Writes posts m co) (hrun : m co = (.ok a, s)) : co.events.accepts posts = true :=
  h.returns.mpr ⟨a, by rw [hrun]⟩

theorem Writes.bind {ps qs : List Post} {m : Act Company Exn α} {f : α → Act Company Exn β}
    (hm : Writes ps m co) (hf : ∀ a s, m co = (.ok a, s) → Writes qs (f a) s) :
    Writes (ps ++ qs) (m >>= f) co := by
  rcases hrun : m co with ⟨e | a, s⟩
  · have hno : co.events.accepts ps = false := by
      by_contra hacc
      obtain ⟨a, ha⟩ := hm.returns.mp (by simpa using hacc)
      rw [hrun] at ha
      cases ha
    obtain ⟨e', he⟩ := EventStore.appendAll_of_refused hno
    constructor
    · have hevents := hm.events
      rw [hrun] at hevents
      rw [bind_of_error hrun, EventStore.appendAll_append]
      rcases happ : EventStore.appendAll ps co.events with ⟨r, st⟩
      rw [happ] at he hevents
      cases he
      exact hevents
    · rw [EventStore.accepts_append, hno, bind_of_error hrun]
      constructor
      · intro hacc
        cases hacc
      · rintro ⟨_, hok⟩
        cases hok
  · have hacc := hm.not_returns hrun
    have hevents := hm.events
    rw [hrun] at hevents
    have hrest := hf a s hrun
    have hfirst := EventStore.appendAll_of_accepts hacc
    constructor
    · rw [bind_of_ok hrun, hrest.events, hevents, EventStore.appendAll_append]
      rcases happ : EventStore.appendAll ps co.events with ⟨r, st⟩
      rw [happ] at hfirst
      cases hfirst
      rfl
    · rw [bind_of_ok hrun, ← hrest.returns, EventStore.accepts_append, hacc, Bool.true_and,
        hevents]
      rfl

/-- A transaction that changes the budget. -/
theorem Writes.of_budget {posts : List Post} {m : Act Company Exn α} {a : α} {budget : BudgetDb}
    (h : m co = ((EventStore.appendAll posts co.events).1.map (fun _ => a),
      { co with events := (EventStore.appendAll posts co.events).2, budget })) : Writes posts m co := by
  have hdb : ∀ s : Company, ({ s with budget } : Company).events = s.events := fun _ => rfl
  exact .of_eq hdb h

theorem append_writes (post : Post) (co : Company) : Writes [post] (append post) co := by
  have hrun : append post co = ((EventStore.appendAll [post] co.events).1.map (fun _ => ()),
      id { co with events := (EventStore.appendAll [post] co.events).2 }) := by
    rw [append_run]
    rcases EventStore.appendAll [post] co.events with ⟨_ | u, st⟩ <;> rfl
  exact .of_eq (fun _ => rfl) hrun

/-- One event, then a result that is cached. -/
theorem fail_writes (post : Post) (cid : String) (cls : ToolErrorClass) (message : String)
    (co : Company) : Writes [post] (fail post cid cls message) co := by
  have hcache : ∀ s, Writes [] (do
      cache cid (failure cls message)
      pure (failure cls message)) s := fun _ => .silent rfl rfl
  exact (append_writes post co).bind fun _ s _ => hcache s

theorem emit_pending_writes (cid tool_name actor : String) (co : Company) :
    Writes [denied_post cid tool_name .PendingApproval actor] (emit_pending cid tool_name actor)
      co := by
  have hpure : ∀ s, Writes [] (pure (pending_result cid)) s := fun _ => .silent rfl rfl
  exact (append_writes _ co).bind fun _ s _ => hpure s

/-- Renaming the result appends nothing. -/
theorem Writes.map {posts : List Post} {m : Act Company Exn α} (h : Writes posts m co) (g : α → β) :
    Writes posts (do let a ← m; pure (g a)) co := by
  have hpure : ∀ a s, Writes [] (pure (g a)) s := fun _ _ => .silent rfl rfl
  have hmap := h.bind fun a s _ => hpure a s
  rw [List.append_nil] at hmap
  exact hmap

/-- Releasing an open reservation appends nothing. -/
theorem release_writes {rid : Nat} {posts : List Post} {m : Act Company Exn α}
    (hopen : co.budget.is_open rid = true) (hm : ∀ s : Company, s.events = co.events → Writes posts m s) :
    Writes posts (do on_budget (Budget.release rid); m) co := by
  obtain ⟨row, hrow⟩ := Budget.is_open_iff.mp hopen
  have hrun := release_of_open hrow
  have hsilent : Writes [] (on_budget (Budget.release rid)) co := .silent hrun rfl
  have h : Writes ([] ++ posts) (on_budget (Budget.release rid) >>= fun _ => m) co :=
    hsilent.bind fun _ s hs => by
      rw [hrun] at hs
      cases hs
      exact hm _ rfl
  exact h

end Rules

/-! ## Up to the executor -/

variable {defs : ToolDefs} {co : Company} {tool : ToolDef} {i : Invocation} {estimate : Money}

/-- A gate appends the event of the request that it opens. -/
theorem gate_events {req : Option ApprovalRequest} {uuid cid : String} (now : Time) (co : Company)
    (hcid : ∀ r, req = some r → or_new_id r.request_id uuid = cid) :
    (gate req uuid now co).2.events =
      (EventStore.appendAll (request_posts co req cid now) co.events).2 := by
  cases req with
  | none => rfl
  | some req =>
      have hid := hcid req rfl
      unfold request_posts
      rw [gate, bind_pure_state]
      cases hrow : Approvals.find co.approvals cid with
      | some row =>
          rw [request_existing now (hid.symm ▸ hrow)]
          rfl
      | none =>
          rw [request_new now (hid.symm ▸ hrow), hid]

theorem handle_approval_writes (tool : ToolDef) (i : Invocation) (co : Company) :
    Writes (request_posts co (gate_request tool i) i.cid i.now) (handle_approval tool i) co where
  events := by
    rw [handle_approval_eq_gate]
    exact gate_events i.now co gate_request_id
  returns := by
    obtain ⟨co', hrun, -, -⟩ := handle_approval_run tool i co
    rw [hrun, EventStore.accepts, Act.returns]
    cases (EventStore.appendAll (request_posts co (gate_request tool i) i.cid i.now)
        co.events).1 with
    | ok u => exact ⟨fun _ => ⟨_, rfl⟩, fun _ => rfl⟩
    | error e =>
        constructor
        · intro hok
          cases hok
        · rintro ⟨_, hok⟩
          cases hok

/-- The event after the approval gate: the call, or why there is none. -/
def gate_tail (co : Company) (tool : ToolDef) (i : Invocation) : Post :=
  match gate_status co tool i with
  | .APPROVED => called_post i.cid tool.name i.args i.agent_id
  | .PENDING => denied_post i.cid tool.name .PendingApproval i.agent_id
  | _ => denied_post i.cid tool.name .ApprovalDenied i.agent_id

/-- What a call with a reservation appends up to the executor. -/
def start_posts (co : Company) (tool : ToolDef) (i : Invocation) (estimate : Money) : List Post :=
  (co.budget.reserved estimate i.cid).1 ++
    (request_posts co (gate_request tool i) i.cid i.now ++ [gate_tail co tool i])

theorem announce_writes {rid : Nat} (hopen : co.budget.is_open rid = true) :
    Writes (request_posts co (gate_request tool i) i.cid i.now ++ [gate_tail co tool i])
      (announce tool i estimate rid) co := by
  refine (handle_approval_writes tool i co).bind fun status s hrun => ?_
  obtain ⟨co', hrun', hbudget, -⟩ := handle_approval_run tool i co
  rw [hrun] at hrun'
  obtain rfl : s = co' := congrArg Prod.snd hrun'
  have hopen' : s.budget.is_open rid = true := by
    rw [hbudget]
    exact hopen
  have hstatus : status = gate_status co tool i := by
    have hfst := congrArg Prod.fst hrun'
    cases happ : (EventStore.appendAll (request_posts co (gate_request tool i) i.cid i.now)
        co.events).1 with
    | ok u =>
        rw [happ] at hfst
        cases hfst
        rfl
    | error e =>
        rw [happ] at hfst
        cases hfst
  subst hstatus
  have hdenied : Writes [denied_post i.cid tool.name .ApprovalDenied i.agent_id] (do
      on_budget (Budget.release rid)
      let result ← deny i.cid tool.name .ApprovalDenied ("denied:" ++ i.cid) i.agent_id
      pure (Started.done result)) s :=
    release_writes hopen' fun s' _ => (fail_writes _ _ _ _ s').map _
  have hpending : Writes [denied_post i.cid tool.name .PendingApproval i.agent_id] (do
      on_budget (Budget.release rid)
      let result ← emit_pending i.cid tool.name i.agent_id
      pure (Started.done result)) s :=
    release_writes hopen' fun s' _ => (emit_pending_writes _ _ _ s').map _
  unfold gate_tail
  cases gate_status co tool i with
  | APPROVED => exact (append_writes _ s).map _
  | PENDING => exact hpending
  | DENIED | TIMEOUT | CANCELLED => exact hdenied

/-- The first part of a call that makes a reservation. -/
theorem invoke_start_writes (h : Reserves defs co i tool estimate) :
    Writes (start_posts co tool i estimate) (invoke_start defs i) co := by
  have hres := reserve_of_grants co i.cid h.2.2
  have hfirst : Writes (co.budget.reserved estimate i.cid).1
      (on_budget (Budget.reserve estimate i.cid)) co :=
    .of_budget hres
  have hboth : Writes ((co.budget.reserved estimate i.cid).1 ++
      (request_posts co (gate_request tool i) i.cid i.now ++ [gate_tail co tool i]))
      (on_budget (Budget.reserve estimate i.cid) >>=
        fun reservation => announce tool i estimate reservation.id) co :=
    hfirst.bind fun reservation s hrun => by
      rw [hres] at hrun
      have hs : { co with
          budget := (co.budget.reserved estimate i.cid).2
          events := (EventStore.appendAll (co.budget.reserved estimate i.cid).1 co.events).2 } = s :=
        congrArg Prod.snd hrun
      have hopen : s.budget.is_open co.budget.reservations.length = true := by
        rw [← hs]
        exact reserved_open co.budget estimate i.cid
      have hposts : request_posts s (gate_request tool i) i.cid i.now ++ [gate_tail s tool i] =
          request_posts co (gate_request tool i) i.cid i.now ++ [gate_tail co tool i] := by
        rw [← hs]
        rfl
      have hid : reservation.id = co.budget.reservations.length := by
        have hfst := congrArg Prod.fst hrun
        cases happ : (EventStore.appendAll (co.budget.reserved estimate i.cid).1 co.events).1 with
        | ok u =>
            rw [happ] at hfst
            cases hfst
            rfl
        | error e =>
            rw [happ] at hfst
            cases hfst
      rw [hid, ← hposts]
      exact announce_writes hopen
  have heq : invoke_start defs i co =
      (on_budget (Budget.reserve estimate i.cid) >>= fun reservation =>
        announce tool i estimate reservation.id) co := by
    rw [invoke_start_reserves h, bind_run, hres]
    rcases EventStore.appendAll (co.budget.reserved estimate i.cid).1 co.events with ⟨_ | u, st⟩ <;>
      rfl
  constructor
  · rw [heq]
    exact hboth.events
  · rw [heq]
    exact hboth.returns

/-- A refusal before the reservation. -/
theorem invoke_start_denied {tool_name : String} {cls : ToolErrorClass}
    (hnew : co.tools_completed i.cid = none)
    (hgate : (∃ message, run_gates defs co i = .refused tool_name cls message) ∨
      ∃ tool parsed estimate, run_gates defs co i = .admitted tool parsed estimate ∧
        co.budget.grants estimate = false ∧ tool.name = tool_name ∧ cls = .OverBudget) :
    Writes [denied_post i.cid tool_name cls i.agent_id] (invoke_start defs i) co := by
  have hdeny : ∀ message, Writes [denied_post i.cid tool_name cls i.agent_id] (do
      let result ← deny i.cid tool_name cls message i.agent_id
      pure (Started.done result) : Act Company Exn Started) co :=
    fun message => (fail_writes _ _ _ _ co).map _
  have hrun : ∃ message, invoke_start defs i co = (do
      let result ← deny i.cid tool_name cls message i.agent_id
      pure (Started.done result) : Act Company Exn Started) co := by
    obtain ⟨message, hgate⟩ | ⟨tool, parsed, estimate, hgate, hgrants, rfl, rfl⟩ := hgate
    · refine ⟨message, ?_⟩
      show (Act.read id >>= _) co = _
      rw [read_bind]
      simp only [id, hnew, hgate]
    · obtain ⟨message, hres⟩ := reserve_of_refused i.cid hgrants
      refine ⟨message, ?_⟩
      show (Act.read id >>= _) co = _
      rw [read_bind]
      simp only [id, hnew, hgate]
      rw [attempt_bind, hres]
  obtain ⟨message, heq⟩ := hrun
  exact ⟨by rw [heq]; exact (hdeny message).events, by rw [heq]; exact (hdeny message).returns⟩

theorem invoke_start_raised {e : Exn} (hnew : co.tools_completed i.cid = none)
    (hgate : run_gates defs co i = .raised e) : invoke_start defs i co = (.error e, co) := by
  show (Act.read id >>= _) co = _
  rw [read_bind]
  simp only [id, hnew, hgate]
  rfl

/-! ## After the executor -/

/-- How an exception of the executor is reported. -/
def failure_of : Exn → ToolErrorClass × String
  | .tool cls message => (cls, message)
  | e => (.ExecutorFailure, e.str)

/-- What the second part appends. -/
def closing_posts (co : Company) (call : ToolCall) : ToolOutcome → List Post
  | .ok output => finish_posts co call output
  | .error e => [failed_post call.cid call.tool.name (failure_of e).1 (failure_of e).2 call.agent_id]

variable {call : ToolCall} {outcome : ToolOutcome}

theorem invoke_finish_error {e : Exn} (he : e.isException = true) :
    invoke_finish call (.error e) = (do
      on_budget (Budget.release call.reservation_id)
      fail_result call.cid call.tool.name (failure_of e).1 (failure_of e).2 call.agent_id) := by
  cases e with
  | tool cls message => rfl
  | cancelled => cases he
  | _ => rfl

theorem invoke_finish_writes (hopen : co.budget.is_open call.reservation_id = true)
    (hcaught : abandoned outcome = false) :
    Writes (closing_posts co call outcome) (invoke_finish call outcome) co := by
  cases outcome with
  | error e =>
      rw [invoke_finish_error (by simpa [abandoned] using hcaught)]
      exact release_writes hopen fun s _ => fail_writes _ _ _ _ s
  | ok output =>
      unfold closing_posts finish_posts invoke_finish
      by_cases hconf : (!call.tool.conforms output) = true
      · dsimp only
        rw [if_pos hconf, if_pos hconf]
        exact release_writes hopen fun s _ => fail_writes _ _ _ _ s
      · obtain ⟨charge, posts, db, htx⟩ := commit_tx_of_open call.estimate hopen
        rw [htx]
        dsimp only
        rw [if_neg hconf, if_neg hconf]
        have hcommit := commit_of_tx htx
        have hfirst : Writes posts (on_budget (Budget.commit call.reservation_id call.estimate)) co :=
          .of_budget hcommit
        refine hfirst.bind fun charge' s hrun => ?_
        have hcharge : charge' = charge := by
          rw [hcommit] at hrun
          have hfst := congrArg Prod.fst hrun
          cases happ : (EventStore.appendAll posts co.events).1 with
          | ok u =>
              rw [happ] at hfst
              cases hfst
              rfl
          | error e =>
              rw [happ] at hfst
              cases hfst
        subst hcharge
        cases charge'.ok with
        | false => exact fail_writes _ _ _ _ s
        | true =>
            have hcache : ∀ s, Writes [] (do
                let result : ToolResult :=
                  { ok := true, output := some output, cost_usd := call.estimate }
                cache call.cid result
                pure result) s := fun _ => .silent rfl rfl
            exact (append_writes _ s).bind fun _ s' _ => hcache s'

/-- Closing a reservation that is not open raises. -/
theorem close_raises {rid : Nat} (hclosed : co.budget.is_open rid = false) :
    ∃ e, (on_budget (Budget.release rid) co).1 = .error e ∧
      ∀ amount, (on_budget (Budget.commit rid amount) co).1 = .error e := by
  cases hrow : co.budget.require_open rid with
  | ok row =>
      rw [Budget.is_open_iff.mpr ⟨row, hrow⟩] at hclosed
      cases hclosed
  | error e =>
      have hview : co.budget_view.db.require_open rid = .error e := hrow
      have hrelease : co.budget_view.db.release_tx rid = .error e := by
        rw [BudgetDb.release_tx, hview]
      have hcommit : ∀ amount, co.budget_view.db.commit_tx rid amount = .error e := by
        intro amount
        rw [BudgetDb.commit_tx, hview]
      refine ⟨e, ?_, fun amount => ?_⟩
      · exact congrArg Prod.fst (Budget.transact_error hrelease)
      · exact congrArg Prod.fst (Budget.transact_error (hcommit amount))

theorem bind_raises {α β : Type} {m : Act Company Exn α} {f : α → Act Company Exn β} {e : Exn}
    (h : (m co).1 = .error e) : ((m >>= f) co).1 = .error e := by
  rw [bind_run]
  rcases hm : m co with ⟨r, s⟩
  rw [hm] at h
  cases h
  rfl

/-- A closed reservation, or a cancelled executor: the second part raises. -/
theorem invoke_finish_raises
    (h : co.budget.is_open call.reservation_id = false ∨ abandoned outcome = true) :
    ∃ e, (invoke_finish call outcome co).1 = .error e := by
  by_cases hcaught : abandoned outcome = true
  · cases outcome with
    | ok output => cases hcaught
    | error e =>
        cases e with
        | cancelled => exact ⟨.cancelled, rfl⟩
        | _ => cases hcaught
  · obtain ⟨e, hrelease, hcommit⟩ := close_raises (h.resolve_right hcaught)
    refine ⟨e, ?_⟩
    cases outcome with
    | error e' =>
        rw [invoke_finish_error (by simpa [abandoned] using hcaught)]
        exact bind_raises hrelease
    | ok output =>
        unfold invoke_finish
        dsimp only
        split
        · exact bind_raises hrelease
        · exact bind_raises (hcommit _)

/-! ## One outcome event -/

/-- An outcome event of the call with this correlation id. -/
def is_outcome (cid : String) (kind : EventKind) (correlation_id : Option String) : Bool :=
  (decide (kind = .TOOL_DENIED) || decide (kind = .TOOL_RESULT)) && decide (correlation_id = some cid)

/-- What was appended from one state to a later one. -/
def appended (before after : Company) : List Event :=
  after.events.log.drop before.events.log.length

/-- What a call appends itself: not what happens while its executor runs. -/
def own_events (defs : ToolDefs) (exec : ToolCall → Company → ToolOutcome × Company) (i : Invocation)
    (co : Company) : List Event :=
  match invoke_start defs i co with
  | (.ok (.awaiting call), s) =>
    appended co s ++
      appended (exec call s).2 (invoke_finish call (exec call s).1 (exec call s).2).2
  | (_, s) => appended co s

/-- The call returns a result, and leaves one outcome event. -/
def Settles (defs : ToolDefs) (exec : ToolCall → Company → ToolOutcome × Company) (i : Invocation)
    (co : Company) : Prop :=
  (∃ result, (invoke defs exec i co).1 = .ok result) ∧
    (own_events defs exec i co).countP (fun e => is_outcome i.cid e.kind e.correlation_id) = 1

/-- The second part can report the outcome. -/
def Closes (call : ToolCall) (ended : ToolOutcome × Company) : Prop :=
  abandoned ended.1 = false ∧ ended.2.budget.is_open call.reservation_id = true ∧
    ended.2.events.accepts (closing_posts ended.2 call ended.1) = true

/-- Every stage of the call can report how it ends. -/
def Completes (defs : ToolDefs) (exec : ToolCall → Company → ToolOutcome × Company) (i : Invocation)
    (co : Company) : Prop :=
  match run_gates defs co i with
  | .raised _ => False
  | .refused tool_name cls _ =>
    co.events.accepts [denied_post i.cid tool_name cls i.agent_id] = true
  | .admitted tool _ estimate =>
    if co.budget.grants estimate then
      co.events.accepts (start_posts co tool i estimate) = true ∧
        (gate_status co tool i = .APPROVED →
          let call := waiting tool i estimate co.budget.reservations.length
          Closes call (exec call (at_executor co tool i estimate)))
    else co.events.accepts [denied_post i.cid tool.name .OverBudget i.agent_id] = true

/-- Posts that are all accepted are appended one for one. -/
theorem Writes.appended {α : Type} {posts : List Post} {m : Act Company Exn α} (h : Writes posts m co)
    (hacc : co.events.accepts posts = true) (cid : String) :
    (appended co (m co).2).countP (fun e => is_outcome cid e.kind e.correlation_id) =
      posts.countP (fun p => is_outcome cid p.kind p.correlation) := by
  have hrun : EventStore.appendAll posts co.events = (.ok (), (m co).2.events) :=
    Prod.ext (EventStore.appendAll_of_accepts hacc) h.events.symm
  obtain ⟨events, hlog, hall⟩ := EventStore.appendAll_logged hrun
  unfold Tools.appended
  rw [hlog, List.drop_left]
  clear hlog hrun hacc h
  induction hall with
  | nil => rfl
  | cons hlogged _ ih =>
      rw [List.countP_cons, List.countP_cons, ih, hlogged.kind, hlogged.correlation]

/-- How many of the posts are outcomes of the call. -/
def outcomes (cid : String) (posts : List Post) : Nat :=
  posts.countP (fun p => is_outcome cid p.kind p.correlation)

theorem outcomes_append (cid : String) (ps qs : List Post) :
    outcomes cid (ps ++ qs) = outcomes cid ps + outcomes cid qs := List.countP_append

/-- The events of the budget are no outcomes. -/
theorem evaluate_outcomes (cid : String) (db : BudgetDb) (actor : Option String) :
    outcomes cid (db.evaluate_thresholds_locked actor).1 = 0 := by
  unfold BudgetDb.evaluate_thresholds_locked
  dsimp only
  split
  · rfl
  · split <;> rfl

theorem commit_outcomes {cid : String} {db db' : BudgetDb} {rid : Nat} {actual : Money}
    {charge : ChargeResult} {posts : List Post}
    (h : db.commit_tx rid actual = .ok (charge, posts, db')) : outcomes cid posts = 0 := by
  unfold BudgetDb.commit_tx at h
  cases hrow : db.require_open rid with
  | error e =>
      rw [hrow] at h
      cases h
  | ok row =>
      rw [hrow] at h
      dsimp only at h
      split at h
      · cases h
        rfl
      · cases h
        unfold outcomes
        rw [List.countP_cons_of_neg (by simp [is_outcome])]
        exact evaluate_outcomes cid _ none

theorem request_outcomes (cid : String) (co : Company) (req : Option ApprovalRequest) (id : String)
    (now : Time) : outcomes cid (request_posts co req id now) = 0 := by
  unfold request_posts
  split <;> rfl

theorem denied_outcomes (cid tool_name : String) (cls : ToolErrorClass) (actor : String) :
    outcomes cid [denied_post cid tool_name cls actor] = 1 := by
  simp [outcomes, is_outcome, denied_post]

theorem failed_outcomes (cid tool_name : String) (cls : ToolErrorClass) (message actor : String) :
    outcomes cid [failed_post cid tool_name cls message actor] = 1 := by
  simp [outcomes, is_outcome, failed_post]

theorem start_outcomes (co : Company) (tool : ToolDef) (i : Invocation) (estimate : Money) :
    outcomes i.cid (start_posts co tool i estimate) =
      if gate_status co tool i = .APPROVED then 0 else 1 := by
  have hreserved : outcomes i.cid (co.budget.reserved estimate i.cid).1 = 0 :=
    evaluate_outcomes i.cid _ none
  unfold start_posts gate_tail
  rw [outcomes_append, outcomes_append, hreserved, request_outcomes]
  cases gate_status co tool i <;> simp [outcomes, is_outcome, called_post, denied_post]

theorem closing_outcomes (co : Company) (call : ToolCall) (outcome : ToolOutcome)
    (hopen : co.budget.is_open call.reservation_id = true) :
    outcomes call.cid (closing_posts co call outcome) = 1 := by
  cases outcome with
  | error e => exact failed_outcomes _ _ _ _ _
  | ok output =>
      show outcomes call.cid (finish_posts co call output) = 1
      unfold finish_posts
      split
      · exact failed_outcomes _ _ _ _ _
      · obtain ⟨charge, posts, db, htx⟩ := commit_tx_of_open call.estimate hopen
        rw [htx]
        dsimp only
        rw [outcomes_append, commit_outcomes htx]
        cases charge.ok <;> simp [outcomes, is_outcome, failed_post, result_post]

/-! ## Exactly when a call settles -/

variable {exec : ToolCall → Company → ToolOutcome × Company}

theorem Writes.refused {α : Type} {posts : List Post} {m : Act Company Exn α}
    (h : Writes posts m co) (hacc : co.events.accepts posts = false) : ∃ e, (m co).1 = .error e := by
  cases hres : (m co).1 with
  | error e => exact ⟨e, rfl⟩
  | ok a =>
      rw [h.returns.mpr ⟨a, hres⟩] at hacc
      cases hacc

/-- A call whose first part raises does not settle. -/
theorem not_settles_of_raised {e : Exn} (h : (invoke_start defs i co).1 = .error e) :
    ¬ Settles defs exec i co := by
  rintro ⟨⟨result, hok⟩, -⟩
  have hraise : (invoke defs exec i co).1 = .error e := bind_raises h
  rw [hraise] at hok
  cases hok

/-- A call that ends before its executor. -/
theorem settles_of_done {posts : List Post} (h : Writes posts (invoke_start defs i) co)
    (hone : outcomes i.cid posts = 1)
    (hnot : ∀ call, (invoke_start defs i co).1 ≠ .ok (.awaiting call)) :
    Settles defs exec i co ↔ co.events.accepts posts = true := by
  cases hacc : co.events.accepts posts with
  | false =>
      obtain ⟨e, he⟩ := h.refused hacc
      exact iff_of_false (not_settles_of_raised he) Bool.false_ne_true
  | true =>
      refine iff_of_true ?_ rfl
      obtain ⟨started, hstarted⟩ := h.returns.mp hacc
      have hcount := h.appended hacc i.cid
      cases started with
      | awaiting call => exact absurd hstarted (hnot call)
      | done result =>
          have hrun : invoke_start defs i co = (.ok (.done result), (invoke_start defs i co).2) :=
            Prod.ext hstarted rfl
          refine ⟨⟨result, ?_⟩, ?_⟩
          · show ((invoke_start defs i >>= _) co).1 = _
            rw [bind_of_ok hrun]
            rfl
          · have hown : own_events defs exec i co = appended co (invoke_start defs i co).2 := by
              unfold own_events
              rw [hrun]
            rw [hown, hcount]
            exact hone

/-- A call that reaches its executor settles when its second part can report the outcome. -/
theorem settles_of_awaiting {posts : List Post} {call : ToolCall} {s : Company}
    (h : Writes posts (invoke_start defs i) co) (hrun : invoke_start defs i co = (.ok (.awaiting call), s))
    (hnone : outcomes i.cid posts = 0) (hcid : call.cid = i.cid) :
    Settles defs exec i co ↔ Closes call (exec call s) := by
  have hinvoke : invoke defs exec i co = invoke_finish call (exec call s).1 (exec call s).2 :=
    bind_of_ok hrun
  have hstart := h.appended (h.not_returns hrun) i.cid
  rw [hrun] at hstart
  have hown : own_events defs exec i co = appended co s ++
      appended (exec call s).2 (invoke_finish call (exec call s).1 (exec call s).2).2 := by
    unfold own_events
    rw [hrun]
  unfold Settles
  rw [hinvoke, hown, List.countP_append, hstart, show List.countP _ posts = 0 from hnone, Nat.zero_add]
  by_cases hcaught : abandoned (exec call s).1 = false
  · by_cases hopen : (exec call s).2.budget.is_open call.reservation_id = true
    · have hfinish := invoke_finish_writes hopen hcaught
      have hone := closing_outcomes (exec call s).2 call (exec call s).1 hopen
      rw [← hfinish.returns]
      constructor
      · rintro ⟨hacc, -⟩
        exact ⟨hcaught, hopen, hacc⟩
      · rintro ⟨-, -, hacc⟩
        refine ⟨hacc, ?_⟩
        rw [hfinish.appended hacc i.cid, ← hcid]
        exact hone
    · have hraise : ∃ e, (invoke_finish call (exec call s).1 (exec call s).2).1 = .error e :=
        invoke_finish_raises (.inl (by simpa using hopen))
      obtain ⟨e, he⟩ := hraise
      constructor
      · rintro ⟨⟨result, hok⟩, -⟩
        rw [he] at hok
        cases hok
      · rintro ⟨-, hopen', -⟩
        exact absurd hopen' hopen
  · have hraise : ∃ e, (invoke_finish call (exec call s).1 (exec call s).2).1 = .error e :=
      invoke_finish_raises (.inr (by simpa using hcaught))
    obtain ⟨e, he⟩ := hraise
    constructor
    · rintro ⟨⟨result, hok⟩, -⟩
      rw [he] at hok
      cases hok
    · rintro ⟨hcaught', -⟩
      exact absurd hcaught' hcaught

/-- **Exactly when a call settles.** A call that is not answered from the cache returns a result and
    leaves one outcome event exactly when each of its stages can report how it ends. -/
theorem settles_iff (defs : ToolDefs) (exec : ToolCall → Company → ToolOutcome × Company)
    (i : Invocation) (co : Company) (hnew : co.tools_completed i.cid = none) :
    Settles defs exec i co ↔ Completes defs exec i co := by
  unfold Completes
  cases hgate : run_gates defs co i with
  | raised e =>
      have hraise : (invoke_start defs i co).1 = .error e :=
        congrArg Prod.fst (invoke_start_raised hnew hgate)
      exact iff_of_false (not_settles_of_raised hraise) id
  | refused tool_name cls message =>
      refine settles_of_done (invoke_start_denied hnew (.inl ⟨message, hgate⟩)) (denied_outcomes _ _ _ _) ?_
      intro call hawait
      obtain ⟨tool, estimate, ⟨-, ⟨parsed, hadm⟩, -⟩, -⟩ := awaiting_inv (Prod.ext hawait rfl)
      rw [hgate] at hadm
      cases hadm
  | admitted tool parsed estimate =>
      dsimp only
      cases hgrants : co.budget.grants estimate with
      | false =>
          have hdenied := invoke_start_denied hnew
            (.inr ⟨tool, parsed, estimate, hgate, hgrants, rfl, rfl⟩)
          refine settles_of_done hdenied (denied_outcomes _ _ _ _) ?_
          intro call hawait
          obtain ⟨tool', estimate', ⟨-, ⟨parsed', hadm⟩, hgrants'⟩, -⟩ :=
            awaiting_inv (Prod.ext hawait rfl)
          rw [hgate] at hadm
          cases hadm
          rw [hgrants] at hgrants'
          cases hgrants'
      | true =>
          rw [if_pos rfl]
          have hres : Reserves defs co i tool estimate := ⟨hnew, ⟨parsed, hgate⟩, hgrants⟩
          have hwrites := invoke_start_writes hres
          have hone := start_outcomes co tool i estimate
          by_cases hstatus : gate_status co tool i = .APPROVED
          · rw [if_pos hstatus] at hone
            -- an approved gate opens no request
            have hposts : start_posts co tool i estimate = held_posts co tool i estimate := by
              unfold start_posts gate_tail held_posts
              rw [gate_posts_of_approved hstatus, request_posts_of_approved _ _ hstatus, hstatus]
              rfl
            cases hacc : co.events.accepts (start_posts co tool i estimate) with
            | false =>
                obtain ⟨e, he⟩ := hwrites.refused hacc
                exact iff_of_false (not_settles_of_raised he) fun h => Bool.false_ne_true h.1
            | true =>
                rw [hposts] at hacc
                have hrun := invoke_start_awaiting hres hstatus hacc
                rw [settles_of_awaiting hwrites hrun hone rfl]
                exact ⟨fun h => ⟨rfl, fun _ => h⟩, fun h => h.2 hstatus⟩
          · rw [if_neg hstatus] at hone
            have hnot : ∀ call, (invoke_start defs i co).1 ≠ .ok (.awaiting call) := by
              intro call hawait
              obtain ⟨tool', estimate', ⟨-, ⟨parsed', hadm⟩, -⟩, hstatus', -⟩ :=
                awaiting_inv (Prod.ext hawait rfl)
              rw [hgate] at hadm
              cases hadm
              exact hstatus hstatus'
            rw [settles_of_done hwrites hone hnot]
            exact ⟨fun h => ⟨h, fun h' => absurd h' hstatus⟩, fun h => h.1⟩

/-- A company that holds the approval of nothing, with one member. -/
def small_company : Company := opened .quiet ⟨100⟩ "eng-1"

/-- An executor that answers at once. -/
def answers (_ : ToolCall) (co : Company) : ToolOutcome × Company :=
  (.ok { cls := "EchoOutput", dump := [] }, co)

theorem settles_echo :
    Settles [echo_tool .NONE] answers echo_call small_company ↔
      Completes [echo_tool .NONE] answers echo_call small_company :=
  settles_iff _ _ _ _ rfl

/-- **An unknown agent.** The identity lookup raises, and no event says so. -/
theorem unknown_agent_raises :
    ¬ Settles [echo_tool .NONE] answers { echo_call with agent_id := "ghost" } small_company :=
  not_settles_of_raised (e := .keyError "ghost") rfl

end Tools

end CompanyFactory
