import CompanyFactory.Company.Run
import CompanyFactory.Cost.Posts
import CompanyFactory.Performance.Report
import CompanyFactory.Tools.Outcome

/-!
# `Performance.SuccessRate` — the success rate of an agent's tool calls

A report divides the results that are ok by the calls. It counts both in the log, and `invoke` appends the two events of
a call at different times: in between the executor runs, other calls of the agent start and end, approvals are decided
and money is charged, and the log may refuse any event. `World` has these interleavings.

* `Logs` — what a computation adds to the log, as a price: the results of the agent among the new rows.
* `Accounted` — the invariant: the agent has a call in the log for each result, and for each call that waits.
* `success_rate_within` — so the rate of a report is between 0 and 1, whenever it is asked for.
-/

namespace CompanyFactory

namespace Performance

open Act Company EventStore Identity Machine Rounding

/-- A result of one of the agent's calls, ok or not. -/
def is_result (agent_id : String) (e : Event) : Bool :=
  decide (e.kind = .TOOL_RESULT) && e.actor_agent_id == some agent_id

/-! ## What is added to the log -/

/-- Rows are added to the log, and so many of them at most are results of the agent. -/
structure Adds (agent_id : String) (n : Nat) (st st' : EventStore) : Prop where
  numbered : st.Numbered → st'.Numbered
  log : ∃ rows, st'.log = st.log ++ rows ∧ rows.countP (is_result agent_id) ≤ n

section Adds

variable {agent_id : String} {n : Nat}

theorem priced_adds (agent_id : String) : Priced (Adds agent_id) where
  refl st := ⟨id, [], (List.append_nil _).symm, le_rfl⟩
  trans := by
    rintro m n a b c ⟨hab, rows, hrows, hm⟩ ⟨hbc, more, hmore, hn⟩
    refine ⟨fun h => hbc (hab h), rows ++ more, ?_, ?_⟩
    · rw [hmore, hrows, List.append_assoc]
    · rw [List.countP_append]
      exact Nat.add_le_add hm hn
  mono := by
    rintro m n a b hle ⟨hnum, rows, hrows, hm⟩
    exact ⟨hnum, rows, hrows, hm.trans hle⟩

/-- Only a result of the agent has to be paid for. -/
theorem append_adds {post : Post} (h : post.kind = .TOOL_RESULT → post.actor = some agent_id → 1 ≤ n) :
    Spends (Adds agent_id) n (EventStore.append post) := by
  intro st
  refine ⟨fun hnum => hnum.append post, ?_⟩
  rcases happ : EventStore.append post st with ⟨e | event, st'⟩
  · have hlog := append_error_log (congrArg Prod.fst happ)
    rw [happ] at hlog
    exact ⟨[], hlog.trans (List.append_nil _).symm, Nat.zero_le n⟩
  · obtain ⟨hlog, hlogged⟩ := append_logged happ
    refine ⟨[event], hlog, ?_⟩
    rw [List.countP_singleton]
    split
    · rename_i hresult
      rw [is_result, Bool.and_eq_true, decide_eq_true_iff, beq_iff_eq] at hresult
      exact h (hlogged.kind ▸ hresult.1) (append_actor happ ▸ hresult.2)
    · exact Nat.zero_le n

/-- The posts are no results. -/
def NoResults (posts : List Post) : Prop := ∀ p ∈ posts, p.kind ≠ .TOOL_RESULT

theorem noResults_nil : NoResults [] := fun _ hp => absurd hp List.not_mem_nil

theorem noResults_singleton {p : Post} (h : p.kind ≠ .TOOL_RESULT) : NoResults [p] := by
  intro q hq
  rw [List.mem_singleton.mp hq]
  exact h

theorem NoResults.append {posts posts' : List Post} (h : NoResults posts) (h' : NoResults posts') :
    NoResults (posts ++ posts') := fun p hp => (List.mem_append.mp hp).elim (h p) (h' p)

theorem appendAll_adds {posts : List Post} (h : NoResults posts) : Spends (Adds agent_id) 0 (appendAll posts) := by
  induction posts with
  | nil => exact Spends.pure (priced_adds agent_id) ()
  | cons post posts ih =>
      refine Spends.after_free (priced_adds agent_id) (append_adds fun hkind => ?_) fun _ => ?_
      · exact absurd hkind (h post List.mem_cons_self)
      · exact ih fun p hp => h p (List.mem_cons_of_mem _ hp)

/-- Rows of other kinds are free. -/
theorem Adds.of_appends {K : EventKind → Bool} {st st' : EventStore} (hK : ∀ k, K k = true → k ≠ .TOOL_RESULT)
    (h : Appends K st st') : Adds agent_id 0 st st' := by
  obtain ⟨hnum, rows, hrows, hkinds⟩ := h
  refine ⟨hnum, rows, hrows, Nat.le_zero.mpr (List.countP_eq_zero.mpr fun e he hresult => ?_)⟩
  rw [is_result, Bool.and_eq_true, decide_eq_true_iff] at hresult
  exact hK _ (hkinds e he) hresult.1

end Adds

/-! ## The other services post no results -/

theorem noResults_thresholds (db : BudgetDb) (actor : Option String) :
    NoResults (db.evaluate_thresholds_locked actor).1 := by
  unfold BudgetDb.evaluate_thresholds_locked
  dsimp only
  split
  · exact noResults_singleton EventKind.noConfusion
  · split
    · exact noResults_singleton EventKind.noConfusion
    · exact noResults_nil

/-- Whatever a call on the budget does. -/
theorem budget_adds (agent_id : String) (c : Budget.Call) (b : Budget) :
    Adds agent_id 0 b.events (Budget.step b c).events := by
  obtain ⟨hsame, -⟩ | ⟨hposted, hevents⟩ := Budget.step_posted b c
  · rw [hsame]
    exact (priced_adds agent_id).refl _
  · rw [hevents]
    refine appendAll_adds ?_ b.events
    generalize c.posts b.db = posts at hposted
    generalize (Budget.step b c).db = db at hposted
    cases hposted with
    | checked base actor => exact noResults_thresholds base actor
    | charged base actor expense =>
        exact (noResults_singleton (p := Budget.charged_post expense) EventKind.noConfusion).append
          (noResults_thresholds base actor)
    | refused posts db' hblocked =>
        intro p hp
        rw [hblocked p hp]
        exact EventKind.noConfusion

/-- What a computation adds to the log of a company. -/
def Logs (agent_id : String) (n : Nat) (co co' : Company) : Prop := Adds agent_id n co.events co'.events

theorem priced (agent_id : String) : Priced (Logs agent_id) := (priced_adds agent_id).comap Company.events

section Services

variable {agent_id : String}

theorem on_budget_logs {α : Type} {m : Act Budget Exn α} (c : Budget.Call) (h : ∀ b, (m b).2 = Budget.step b c) :
    Spends (Logs agent_id) 0 (on_budget m) := by
  intro co
  show Adds agent_id 0 co.budget_view.events (m co.budget_view).2.events
  rw [h]
  exact budget_adds agent_id c _

theorem reserve_logs (amount : Money) (ref : String) :
    Spends (Logs agent_id) 0 (on_budget (Budget.reserve amount ref)) :=
  on_budget_logs (.reserve amount ref) fun b => (bind_pure_state _ _ b).symm

theorem release_logs (rid : Nat) : Spends (Logs agent_id) 0 (on_budget (Budget.release rid)) :=
  on_budget_logs (.release rid) fun b => (bind_pure_state _ (fun _ => Budget.Reply.none) b).symm

theorem commit_logs (rid : Nat) (actual : Money) :
    Spends (Logs agent_id) 0 (on_budget (Budget.commit rid actual)) :=
  on_budget_logs (.commit rid actual) fun b => (bind_pure_state _ _ b).symm

theorem on_approvals_logs {α : Type} {m : Act Approvals Exn α} (h : Moves Approvals.Notes m) :
    Spends (Logs agent_id) 0 (on_approvals m) := by
  intro co
  refine Adds.of_appends (fun k hk => ?_) (h co.approvals_view)
  rintro rfl
  cases hk

theorem append_logs {post : Post} {n : Nat}
    (h : post.kind = .TOOL_RESULT → post.actor = some agent_id → 1 ≤ n) :
    Spends (Logs agent_id) n (Company.append post) := by
  intro co
  show Adds agent_id n co.events ((do let _ ← EventStore.append post; pure ()) co.events).2
  rw [bind_pure_state]
  exact append_adds h co.events

/-- What leaves the log alone. -/
theorem write_logs {f : Company → Company} {n : Nat} (h : ∀ co, (f co).events = co.events) :
    Spends (ε := Exn) (Logs agent_id) n (Act.write f) := by
  intro co
  show Adds agent_id n co.events (f co).events
  rw [h]
  exact (priced_adds agent_id).mono (Nat.zero_le n) ((priced_adds agent_id).refl _)

end Services

/-! ## A tool call -/

section ToolCalls

variable {agent_id : String}

/-- What a call that waits will add at most. -/
def owed (agent_id : String) (call : ToolCall) : Nat := if call.agent_id = agent_id then 1 else 0

theorem tool_fail_logs {post : Post} {n : Nat} (h : post.kind = .TOOL_RESULT → post.actor = some agent_id → 1 ≤ n)
    (cid : String) (cls : ToolErrorClass) (message : String) :
    Spends (Logs agent_id) n (Tools.fail post cid cls message) := by
  refine Spends.before_free (priced agent_id) (append_logs h) fun _ => ?_
  exact Spends.after_free (priced agent_id) (write_logs fun _ => rfl) fun _ => Spends.pure (priced agent_id) _

/-- **After the executor**, one result at most. -/
theorem invoke_finish_logs (call : ToolCall) (outcome : ToolOutcome) :
    Spends (Logs agent_id) (owed agent_id call) (Tools.invoke_finish call outcome) := by
  have hpriced := priced agent_id
  have howed : ∀ kind, kind = EventKind.TOOL_RESULT → some call.agent_id = some agent_id → 1 ≤ owed agent_id call := by
    intro kind _ hagent
    rw [owed, if_pos (Option.some.inj hagent)]
  have hfail : ∀ cls message, Spends (Logs agent_id) (owed agent_id call)
      (Tools.fail_result call.cid call.tool.name cls message call.agent_id) :=
    fun cls message => tool_fail_logs (howed _) _ _ _
  have hclose : ∀ cls message, Spends (Logs agent_id) (owed agent_id call) (do
      on_budget (Budget.release call.reservation_id)
      Tools.fail_result call.cid call.tool.name cls message call.agent_id) :=
    fun cls message => Spends.after_free hpriced (release_logs _) fun _ => hfail cls message
  unfold Tools.invoke_finish
  split
  · exact hclose _ _
  · exact Spends.ite (hclose _ _) (Spends.raise hpriced _)
  · refine Spends.ite (hclose _ _) (Spends.after_free hpriced (commit_logs _ _) fun charge => ?_)
    refine Spends.ite (hfail _ _) (Spends.before_free hpriced (append_logs (howed _)) fun _ => ?_)
    exact Spends.after_free hpriced (write_logs fun _ => rfl) fun _ => Spends.pure hpriced _

theorem noResults_start (co : Company) (tool : ToolDef) (i : Invocation) (estimate : Money) :
    NoResults (Tools.start_posts co tool i estimate) := by
  refine (noResults_thresholds _ _).append (NoResults.append ?_ (noResults_singleton ?_))
  · unfold request_posts
    split
    · exact noResults_singleton EventKind.noConfusion
    · exact noResults_nil
  · unfold Tools.gate_tail
    split
    · exact EventKind.noConfusion
    · exact EventKind.noConfusion
    · exact EventKind.noConfusion

/-- **Up to the executor**, no result. -/
theorem invoke_start_logs (defs : ToolDefs) (i : Invocation) :
    Spends (Logs agent_id) 0 (Tools.invoke_start defs i) := by
  intro co
  by_cases hres : ∃ tool estimate, Tools.Reserves defs co i tool estimate
  · obtain ⟨tool, estimate, hr⟩ := hres
    show Adds agent_id 0 co.events (Tools.invoke_start defs i co).2.events
    rw [(Tools.invoke_start_writes hr).events]
    exact appendAll_adds (noResults_start co tool i estimate) co.events
  · obtain ⟨cached, -, hrun⟩ | ⟨e, -, hrun⟩ | ⟨tool_name, cls, message, hrun⟩ :=
      Tools.invoke_start_without_eq fun tool estimate hr => hres ⟨tool, estimate, hr⟩
    · rw [hrun]
      exact (priced agent_id).refl co
    · rw [hrun]
      exact (priced agent_id).refl co
    · rw [hrun]
      refine Spends.after_free (priced agent_id) (tool_fail_logs (fun hkind => ?_) _ _ _)
        (fun _ => Spends.pure (priced agent_id) _) co
      cases hkind

/-- The last one of the posts that a log takes. -/
theorem last_row {posts : List Post} {post : Post} {st : EventStore} (h : st.accepts (posts ++ [post]) = true) :
    ∃ rows row, (appendAll (posts ++ [post]) st).2.log = st.log ++ rows ++ [row] ∧ row.kind = post.kind ∧
      row.actor_agent_id = post.actor := by
  rw [accepts_append, Bool.and_eq_true] at h
  have hfirst := appendAll_of_accepts h.1
  rw [appendAll_append]
  rcases happ : appendAll posts st with ⟨e | u, st'⟩
  · rw [happ] at hfirst
    cases hfirst
  · obtain ⟨rows, hrows, -⟩ := appendAll_logged happ
    have hlast := h.2
    rw [show (appendAll posts).after st = st' from congrArg Prod.snd happ, accepts_singleton] at hlast
    dsimp only
    rw [appendAll_singleton]
    rcases hrow : EventStore.append post st' with ⟨e | row, st''⟩
    · rw [hrow] at hlast
      cases hlast
    · obtain ⟨hlog, hlogged⟩ := append_logged hrow
      exact ⟨rows, row, by rw [hlog, hrows], hlogged.kind, append_actor hrow⟩

/-- **A call that reaches its executor is in the log.** -/
theorem awaiting_called {defs : ToolDefs} {i : Invocation} {call : ToolCall} {co s : Company}
    (h : Tools.invoke_start defs i co = (.ok (.awaiting call), s)) :
    co.events.log.countP (calls_tool call.agent_id) + 1 ≤ s.events.log.countP (calls_tool call.agent_id) := by
  obtain ⟨tool, estimate, hr, hgate, rfl, -⟩ := Tools.awaiting_inv h
  have hwrites := Tools.invoke_start_writes hr
  have hacc := hwrites.returns.mpr ⟨_, congrArg Prod.fst h⟩
  have hposts : Tools.start_posts co tool i estimate =
      (co.budget.reserved estimate i.cid).1 ++ [Tools.called_post i.cid tool.name i.args i.agent_id] := by
    rw [Tools.start_posts, request_posts_of_approved _ _ hgate, Tools.gate_tail, hgate]
    rfl
  have hevents := hwrites.events
  rw [h] at hevents
  rw [hposts] at hacc hevents
  obtain ⟨rows, row, hlog, hkind, hactor⟩ := last_row hacc
  have hcalled : calls_tool i.agent_id row = true := by
    rw [calls_tool, hkind, hactor]
    exact Bool.and_eq_true_iff.mpr ⟨decide_eq_true rfl, beq_iff_eq.mpr rfl⟩
  show co.events.log.countP (calls_tool i.agent_id) + 1 ≤ s.events.log.countP (calls_tool i.agent_id)
  rw [show s.events.log = _ from (congrArg EventStore.log hevents).trans hlog, List.countP_append, List.countP_append,
    List.countP_singleton, if_pos hcalled]
  omega

end ToolCalls

/-! ## A connector call adds no results -/

section ConnectorCalls

variable {agent_id : String}

theorem external_logs (service action status actor cid : String) :
    Spends (Logs agent_id) 0 (Company.append (Connector.external_post service action status actor cid)) :=
  append_logs fun hkind => absurd hkind EventKind.noConfusion

theorem connector_fail_logs (cid service action : String) (cls : ConnectorErrorClass) (message actor : String) :
    Spends (Logs agent_id) 0 (Connector.fail cid service action cls message actor) := by
  have hpriced := priced agent_id
  refine Spends.after_free hpriced (external_logs _ _ _ _ _) fun _ => Spends.ite ?_ (Spends.pure hpriced _)
  exact Spends.after_free hpriced (write_logs fun _ => rfl) fun _ => Spends.pure hpriced _

theorem call_start_logs (r : ConnectorRequest) : Spends (Logs agent_id) 0 (Connector.call_start r) := by
  have hpriced := priced agent_id
  have hfail : ∀ cls message, Spends (Logs agent_id) 0 (do
      let result ← Connector.fail r.cid r.service r.action cls message r.agent_id
      pure (Connector.Started.done result)) :=
    fun cls message => Spends.after_free hpriced (connector_fail_logs _ _ _ _ _ _) fun _ => Spends.pure hpriced _
  have hreserve : ∀ service_def action_def estimate,
      Spends (Logs agent_id) 0 (Connector.reserve_call service_def action_def estimate r) := by
    intro service_def action_def estimate
    refine Spends.after_free hpriced (reserve_logs _ _).attempt fun reserved => ?_
    split
    · exact hfail _ _
    · exact Spends.raise hpriced _
    · exact Spends.pure hpriced _
  have hevaluate : ∀ service_def action_def estimate,
      Spends (Logs agent_id) 0 (Connector.evaluate_approval service_def action_def estimate r) := by
    intro service_def action_def estimate
    refine Spends.ite (Spends.pure hpriced _) ?_
    exact Spends.after_free hpriced (on_approvals_logs (Approvals.request_notes _ _ _)) fun _ => Spends.pure hpriced _
  have hroute : ∀ service_def action_def estimate,
      Spends (Logs agent_id) 0 (Connector.route_call service_def action_def estimate r) := by
    intro service_def action_def estimate co
    rw [Connector.route_call_eq]
    show Logs agent_id 0 { co with rate := (Connector.acquired co r).2 } _
    cases (Connector.acquired co r).1 with
    | error message => exact hfail _ _ _
    | ok u =>
        refine Spends.after_free hpriced (hevaluate _ _ _) (fun status => ?_) _
        cases status with
        | APPROVED => exact hreserve _ _ _
        | PENDING => exact Spends.after_free hpriced (external_logs _ _ _ _ _) fun _ => Spends.pure hpriced _
        | DENIED | TIMEOUT | CANCELLED => exact hfail _ _
  intro co
  rw [Connector.call_start_eq]
  cases co.connector_completed r.cid with
  | some cached => exact hpriced.refl co
  | none =>
      cases Connector.run_gates co r with
      | refused cls message => exact hfail _ _ co
      | raised e => exact hpriced.refl co
      | admitted service_def action_def estimate => exact hroute _ _ _ co

theorem call_finish_logs (call : ConnectorCall) (outcome : Except Exn Json) :
    Spends (Logs agent_id) 0 (Connector.call_finish call outcome) := by
  have hpriced := priced agent_id
  have hclose : ∀ cls message, Spends (Logs agent_id) 0 (Connector.release_fail call cls message) :=
    fun cls message => Spends.after_free hpriced (release_logs _) fun _ => connector_fail_logs _ _ _ _ _ _
  unfold Connector.call_finish
  split
  · exact hclose _ _
  · exact Spends.ite (hclose _ _) (Spends.raise hpriced _)
  · unfold Connector.complete_call
    split
    · exact Spends.ite (hclose _ _) (Spends.raise hpriced _)
    · refine Spends.ite (hclose _ _) (Spends.after_free hpriced (commit_logs _ _) fun charge => ?_)
      refine Spends.ite (connector_fail_logs _ _ _ _ _ _)
        (Spends.after_free hpriced (external_logs _ _ _ _ _) fun _ => ?_)
      exact Spends.after_free hpriced (write_logs fun _ => rfl) fun _ => Spends.pure hpriced _

end ConnectorCalls

/-! ## The invariant -/

/-- Results are appended by the tool layer only. -/
def Genuine : CompanyFactory.Label → Prop
  | .service (.append post) => post.kind ≠ .TOOL_RESULT
  | _ => True

/-- The operations of the other services. -/
theorem service_logs {agent_id : String} (op : ServiceOp) (h : Genuine (.service op)) (co : Company) :
    Logs agent_id 0 co (op.run co) := by
  have hsame : ∀ co', co'.events = co.events → Logs agent_id 0 co co' := by
    intro co' heq
    show Adds agent_id 0 co.events co'.events
    rw [heq]
    exact (priced_adds agent_id).refl _
  cases op with
  | set_total amount =>
      exact on_budget_logs (.set_total amount) (fun b => (bind_pure_state _ (fun _ => Budget.Reply.none) b).symm) co
  | charge charged_id amount category memo approval_id =>
      exact on_budget_logs (.charge charged_id amount category memo approval_id)
        (fun b => (bind_pure_state _ _ b).symm) co
  | approvals call => exact on_approvals_logs (Approvals.handle_notes call) co
  | append post => exact append_logs (fun hkind => absurd hkind h) co
  | register_service service action_names now =>
      refine hsame _ (ServiceOp.register_service_frame (R := fun co co' => co'.events = co.events) (fun _ => rfl)
        (fun _ _ _ hab hbc => hbc.trans hab) (fun _ _ _ => rfl) service action_names now co)
  | set_action_threshold service action threshold =>
      refine hsame _ (ServiceOp.set_action_threshold_frame (R := fun co co' => co'.events = co.events) (fun _ => rfl)
        (fun _ _ _ hab hbc => hbc.trans hab) (fun _ _ => rfl) service action threshold co)
  | set_agent | allow | revoke => exact hsame _ rfl

/-- A call of the agent waits in the slot. -/
def Waits (agent_id : String) (w : World) (slot : Nat) : Prop :=
  ∃ call, w.calls slot = some (.tool call) ∧ call.agent_id = agent_id

/-- The agent has a call in the log for each result, and for each call that waits. -/
structure Accounted (agent_id : String) (w : World) : Prop where
  numbered : w.co.events.Numbered
  paid : ∀ slots : Finset Nat, (∀ slot ∈ slots, Waits agent_id w slot) →
    w.co.events.log.countP (is_result agent_id) + slots.card ≤ w.co.events.log.countP (calls_tool agent_id)

section Invariant

variable {agent_id : String} {w : World} {co : Company} {slot n : Nat}

/-- What is added to the log counts once. -/
theorem Adds.counts {st st' : EventStore} (h : Adds agent_id n st st') :
    st'.log.countP (is_result agent_id) ≤ st.log.countP (is_result agent_id) + n ∧
      st.log.countP (calls_tool agent_id) ≤ st'.log.countP (calls_tool agent_id) := by
  obtain ⟨-, rows, hrows, hn⟩ := h
  rw [hrows, List.countP_append, List.countP_append]
  omega

theorem Accounted.stay (h : Accounted agent_id w) (hlogs : Logs agent_id 0 w.co co) :
    Accounted agent_id { w with co } := by
  refine ⟨hlogs.numbered h.numbered, fun slots hslots => ?_⟩
  have hpaid := h.paid slots hslots
  have hcounts := hlogs.counts
  show co.events.log.countP _ + _ ≤ co.events.log.countP _
  omega

/-- A call that takes off, announced in the log if it is the agent's. -/
theorem Accounted.take_off (h : Accounted agent_id w) {flight : InFlight}
    (hlogs : Logs agent_id 0 w.co co)
    (hcalled : ∀ call, flight = .tool call → call.agent_id = agent_id →
      w.co.events.log.countP (calls_tool agent_id) + 1 ≤ co.events.log.countP (calls_tool agent_id)) :
    Accounted agent_id (w.take_off slot flight co) := by
  refine ⟨hlogs.numbered h.numbered, fun slots hslots => ?_⟩
  have hcounts := hlogs.counts
  have hothers := h.paid (slots.erase slot) fun other hother => by
    obtain ⟨hne, hmem⟩ := Finset.mem_erase.mp hother
    obtain ⟨call, hcall, hagent⟩ := hslots other hmem
    rw [World.take_off_of_ne _ _ _ hne] at hcall
    exact ⟨call, hcall, hagent⟩
  show co.events.log.countP _ + _ ≤ co.events.log.countP _
  by_cases hin : slot ∈ slots
  · obtain ⟨call, hcall, hagent⟩ := hslots slot hin
    rw [World.take_off_self] at hcall
    have hmore := hcalled call (Option.some.inj hcall) hagent
    rw [Finset.card_erase_of_mem hin] at hothers
    omega
  · rw [Finset.erase_eq_of_notMem hin] at hothers
    omega

/-- A call that lands, and pays with its place among those that wait. -/
theorem Accounted.land (h : Accounted agent_id w) (hlogs : Logs agent_id n w.co co)
    (hn : n = 0 ∨ n = 1 ∧ Waits agent_id w slot) : Accounted agent_id (w.land slot co) := by
  refine ⟨hlogs.numbered h.numbered, fun slots hslots => ?_⟩
  have hcounts := hlogs.counts
  have hlanded : slot ∉ slots := by
    intro hin
    obtain ⟨call, hcall, -⟩ := hslots slot hin
    rw [World.land_self] at hcall
    cases hcall
  have hothers : ∀ other ∈ slots, Waits agent_id w other := by
    intro other hother
    obtain ⟨call, hcall, hagent⟩ := hslots other hother
    have hne : other ≠ slot := ne_of_mem_of_not_mem hother hlanded
    rw [World.land_of_ne _ _ hne] at hcall
    exact ⟨call, hcall, hagent⟩
  show co.events.log.countP _ + _ ≤ co.events.log.countP _
  rcases hn with rfl | ⟨rfl, hwaits⟩
  · have hpaid := h.paid slots hothers
    omega
  · have hpaid := h.paid (insert slot slots) fun other hother => by
      rcases Finset.mem_insert.mp hother with rfl | hother
      · exact hwaits
      · exact hothers other hother
    rw [Finset.card_insert_of_notMem hlanded] at hpaid
    omega

/-- A call that is made. -/
theorem Accounted.invoke (h : Accounted agent_id w) (defs : ToolDefs) (slot : Nat) (i : Invocation) :
    Accounted agent_id (World.step defs w (.invoke slot i)) := by
  have hlogs : Logs agent_id 0 w.co (Tools.invoke_start defs i w.co).2 := invoke_start_logs defs i w.co
  cases hslot : w.calls slot with
  | some flight =>
      have hstep : World.step defs w (.invoke slot i) = w := by simp [World.step, hslot]
      rw [hstep]
      exact h
  | none =>
      rcases hstart : Tools.invoke_start defs i w.co with ⟨e | result | call, co⟩
      · rw [hstart] at hlogs
        have hstep : World.step defs w (.invoke slot i) = { w with co } := by simp [World.step, hslot, hstart]
        rw [hstep]
        exact h.stay hlogs
      · rw [hstart] at hlogs
        have hstep : World.step defs w (.invoke slot i) = { w with co } := by simp [World.step, hslot, hstart]
        rw [hstep]
        exact h.stay hlogs
      · rw [hstart] at hlogs
        have hstep : World.step defs w (.invoke slot i) = w.take_off slot (.tool call) co := by
          simp [World.step, hslot, hstart]
        rw [hstep]
        refine h.take_off hlogs fun call' hcall hagent => ?_
        obtain rfl := InFlight.tool.inj hcall
        rw [← hagent]
        exact awaiting_called hstart

/-- **Every step keeps the account.** -/
theorem Accounted.step (h : Accounted agent_id w) (defs : ToolDefs) {label : CompanyFactory.Label} (hgenuine : Genuine label) :
    Accounted agent_id (World.step defs w label) := by
  have hs := World.stepped defs w label
  generalize hnext : World.step defs w label = w' at hs ⊢
  cases hs with
  | idle => exact h
  | ran op => exact h.stay (service_logs op hgenuine w.co)
  | turned_away slot i => exact hnext ▸ h.invoke defs slot i
  | invoked slot i => exact hnext ▸ h.invoke defs slot i
  | refused slot r => exact h.stay (call_start_logs r w.co)
  | called slot r service_def action_def estimate hslot hres hco =>
      refine h.take_off (hco ▸ call_start_logs r w.co) fun call hcall => ?_
      cases hcall
  | executed slot outcome call hslot =>
      refine h.land (invoke_finish_logs call outcome w.co) ?_
      unfold owed
      split
      · exact .inr ⟨rfl, call, hslot, ‹_›⟩
      · exact .inl rfl
  | answered slot attempt call hslot => exact h.land (call_finish_logs call _ w.co) (.inl rfl)

end Invariant

/-! ## The rate -/

theorem double_one : double 1 = 1 := by
  have hexact := double_exact (n := 1) (e := 0) (by norm_num)
  rwa [Int.cast_one, zpow_zero, one_mul] at hexact

/-- A part of a whole, as a rate. -/
theorem rate_within {ok all : Nat} (h : ok ≤ all) : 0 ≤ double ((ok : Rat) / all) ∧ double ((ok : Rat) / all) ≤ 1 := by
  have hpos : (0 : Rat) ≤ (ok : Rat) / all := div_nonneg (Nat.cast_nonneg ok) (Nat.cast_nonneg all)
  have hle : (ok : Rat) / all ≤ 1 := div_le_one_of_le₀ (by exact_mod_cast h) (Nat.cast_nonneg all)
  constructor
  · rw [← double_zero]
    exact double_mono le_rfl hpos
  · rw [← double_one]
    exact double_mono hpos hle

theorem succeeds_le (agent_id : String) (log : List Event) :
    log.countP (succeeds agent_id) ≤ log.countP (is_result agent_id) := by
  refine List.countP_mono_left fun e _ h => ?_
  rw [succeeds, Bool.and_eq_true, Bool.and_eq_true] at h
  exact Bool.and_eq_true_iff.mpr ⟨h.1, h.2.1⟩

/-- **The success rate**, in every interleaving of the calls of all agents: it is between 0 and 1, and there is none exactly
if the agent has made no call. The agent has at least as many calls in the log as there are results and calls that
wait. -/
theorem success_rate_within (defs : ToolDefs) {co : Company} {agents : List Agent} {agent_id : String} {target : Agent}
    (hget : Org.get agents agent_id = .ok target) (hnum : co.events.Numbered)
    (hstart : co.events.log.countP (is_result target.id) ≤ co.events.log.countP (calls_tool target.id))
    {run : List CompanyFactory.Label} (hgenuine : ∀ label ∈ run, Genuine label) (feedback : List Feedback) (feedback_limit : Nat)
    (now : Time) :
    let w := exec (World.step defs) (World.idle co) run
    (∀ slots : Finset Nat, (∀ slot ∈ slots, Waits target.id w slot) →
      w.co.events.log.countP (is_result target.id) + slots.card ≤ w.co.events.log.countP (calls_tool target.id)) ∧
    ∀ rounds, w.co.events.log.length / _READ_BATCH_SIZE < rounds →
      ∃ r, report agents (fun _ => w.co.events) rounds feedback agent_id feedback_limit now = some (.ok r) ∧
        (r.metrics.tool_success_rate = none ↔ w.co.events.log.countP (calls_tool target.id) = 0) ∧
        ∀ q, r.metrics.tool_success_rate = some q → 0 ≤ q ∧ q ≤ 1 := by
  intro w
  have hidle : Accounted target.id (World.idle co) := by
    refine ⟨hnum, fun slots hslots => ?_⟩
    have hnone : slots = ∅ := Finset.eq_empty_of_forall_notMem fun slot hin => by
      obtain ⟨call, hcall, -⟩ := hslots slot hin
      cases hcall
    rw [hnone, Finset.card_empty]
    exact hstart
  have hacc : Accounted target.id w := exec_invariant_along (fun w label h hgen => h.step defs hgen) hidle
    (along_of_mem hgenuine)
  refine ⟨hacc.paid, fun rounds hrounds => ?_⟩
  obtain ⟨events, hperm, -, hreport⟩ := report_eq hacc.numbered.keyed hget hrounds feedback feedback_limit now
  refine ⟨_, hreport, ?_⟩
  have hrate : (report_of target events feedback feedback_limit now).metrics.tool_success_rate =
      if 0 < w.co.events.log.countP (calls_tool target.id) then
        some (double ((w.co.events.log.countP (succeeds target.id) : Rat) / w.co.events.log.countP (calls_tool target.id)))
      else none := by
    rw [← hperm.countP_eq, ← hperm.countP_eq]
    unfold report_of
    rw [foldl_count_event]
    simp only [success_rate, Nat.zero_add]
  have hle : w.co.events.log.countP (succeeds target.id) ≤ w.co.events.log.countP (calls_tool target.id) := by
    have hpaid := hacc.paid ∅ fun slot hin => absurd hin (Finset.notMem_empty slot)
    rw [Finset.card_empty, Nat.add_zero] at hpaid
    exact (succeeds_le _ _).trans hpaid
  rw [hrate]
  by_cases hcalled : 0 < w.co.events.log.countP (calls_tool target.id)
  · rw [if_pos hcalled]
    refine ⟨iff_of_false (Option.some_ne_none _) hcalled.ne', ?_⟩
    rintro q ⟨⟩
    exact rate_within hle
  · rw [if_neg hcalled]
    exact ⟨iff_of_true rfl (Nat.eq_zero_of_not_pos hcalled), nofun⟩

/-- The agent that makes the call. -/
def caller : Agent :=
  { id := "eng-1", role := .MEMBER, persona_ref := "default", reports_to := none, status := .ACTIVE, hired_at := 0 }

/-- A call that has ended, and one that waits. -/
def two_calls : List CompanyFactory.Label :=
  [.invoke 0 Tools.echo_call, .executor_ends 0 (.ok ⟨"EchoOutput", []⟩),
    .invoke 1 { Tools.echo_call with correlation_id := some "t2" }]

theorem success_rate_within_two :
    ∃ r, report [caller] (fun _ => (exec (World.step [Tools.echo_tool .NONE])
        (World.idle (opened .quiet ⟨10000⟩ "eng-1")) two_calls).co.events) 1 [] "eng-1" 10 0 = some (.ok r) ∧
      ∀ q, r.metrics.tool_success_rate = some q → 0 ≤ q ∧ q ≤ 1 := by
  have hgenuine : ∀ label ∈ two_calls, Genuine label := by
    intro label hmem
    simp only [two_calls, List.mem_cons, List.not_mem_nil, or_false] at hmem
    rcases hmem with rfl | rfl | rfl <;> trivial
  have hget : Org.get [caller] "eng-1" = .ok caller := rfl
  have hnum : (opened .quiet ⟨10000⟩ "eng-1").events.Numbered := by decide
  obtain ⟨-, hreport⟩ := success_rate_within [Tools.echo_tool .NONE] hget hnum (by decide) hgenuine [] 10 0
  obtain ⟨r, hr, -, hrate⟩ := hreport 1 (by decide)
  exact ⟨r, hr, hrate⟩

end Performance

end CompanyFactory
