import CompanyFactory.Tools.Spec

/-!
# `Tools.Errors` — what a tool call raises, and what it leaves of the event store

A tool call that raises, raises an `Exception`: an error of the event store, of the budget or of a gate
(`invoke_raises`). Only a cancelled executor, or a gate that is cancelled, ends it by something that
`except Exception` does not catch. No call changes which appends the event store refuses
(`invoke_same_refuses`).
-/

namespace CompanyFactory

open Act Company

/-- Only `Exception`s are raised. -/
abbrev Caught {σ α : Type} (m : Act σ Exn α) : Prop := Raises (fun e => e.isException = true) m

theorem Exn.isException_of_store {e : Exn} (h : e.isStoreError = true) : e.isException = true := by
  cases e <;> simp [Exn.isStoreError, Exn.isException] at h ⊢

namespace EventStore

theorem append_refuses (post : Post) (st : EventStore) :
    (append post st).2.refuses = st.refuses := by
  unfold append
  cases validate_payload post.kind post.payload with
  | error e => rfl
  | ok validated =>
      cases hrefuses : st.refuses st.attempts post with
      | some refusal => simp
      | none => simp

theorem appendAll_refuses (posts : List Post) :
    ∀ st, (appendAll posts st).2.refuses = st.refuses := by
  induction posts with
  | nil => intro st; rfl
  | cons p ps ih =>
      intro st
      have hp := append_refuses p st
      rw [appendAll_cons]
      rcases happ : append p st with ⟨e | event, st'⟩
      · rw [happ] at hp
        exact hp
      · rw [happ] at hp
        exact (ih st').trans hp

theorem appendAll_caught (posts : List Post) : Caught (appendAll posts) :=
  fun _ _ h => Exn.isException_of_store (appendAll_error h)

end EventStore

/-! ## The service calls of a tool call -/

namespace Company

/-- The event store refuses the same appends. -/
def SameRefuses (co co' : Company) : Prop := co'.events.refuses = co.events.refuses

theorem SameRefuses.refl (co : Company) : SameRefuses co co := rfl

theorem SameRefuses.trans (a b c : Company) (hab : SameRefuses a b) (hbc : SameRefuses b c) :
    SameRefuses a c := Eq.trans hbc hab

theorem append_same_refuses (post : Post) : Moves SameRefuses (append post) :=
  fun co => EventStore.appendAll_refuses [post] co.events

theorem append_caught (post : Post) : Caught (append post) := by
  intro co e h
  rw [append_run] at h
  exact EventStore.appendAll_caught _ _ _ h

section Budget

variable {α : Type} {tx : BudgetDb → BudgetDb.Tx α}

theorem transact_same_refuses : Moves SameRefuses (on_budget (Budget.transact tx)) := by
  intro co
  rcases htx : tx co.budget_view.db with e | ⟨a, posts, db⟩
  · have hrun := Budget.transact_error htx
    show SameRefuses co (set_budget (Budget.transact tx co.budget_view).2 co)
    rw [hrun]
    rfl
  · have hrun := Budget.transact_ok htx
    show SameRefuses co (set_budget (Budget.transact tx co.budget_view).2 co)
    rw [hrun]
    exact EventStore.appendAll_refuses posts co.events

theorem transact_caught (htx : ∀ db e, tx db = .error e → e.isException = true) :
    Caught (on_budget (Budget.transact tx)) := by
  refine Raises.on fun b e h => ?_
  rcases hrun : tx b.db with e' | ⟨a, posts, db⟩
  · rw [Budget.transact_error hrun] at h
    cases h
    exact htx _ _ hrun
  · rw [Budget.transact_ok hrun] at h
    cases happ : (EventStore.appendAll posts b.events).1 with
    | ok u => rw [happ] at h; cases h
    | error e' =>
        rw [happ] at h
        cases h
        exact EventStore.appendAll_caught _ _ _ happ

theorem require_open_caught {db : BudgetDb} {rid : Nat} {e : Exn}
    (h : db.require_open rid = .error e) : e.isException = true := by
  unfold BudgetDb.require_open at h
  split at h
  · cases h; rfl
  · split at h
    · cases h
    · cases h; rfl

theorem release_caught (rid : Nat) : Caught (on_budget (Budget.release rid)) := by
  refine transact_caught fun db e h => ?_
  unfold BudgetDb.release_tx at h
  cases hopen : db.require_open rid with
  | error e' =>
      rw [hopen] at h
      cases h
      exact require_open_caught hopen
  | ok row => rw [hopen] at h; cases h

theorem commit_caught (rid : Nat) (actual : Money) : Caught (on_budget (Budget.commit rid actual)) := by
  refine transact_caught fun db e h => ?_
  unfold BudgetDb.commit_tx at h
  cases hopen : db.require_open rid with
  | error e' =>
      rw [hopen] at h
      cases h
      exact require_open_caught hopen
  | ok row =>
      rw [hopen] at h
      dsimp only at h
      split at h <;> cases h

end Budget

theorem gate_same_refuses {req : Option ApprovalRequest} (uuid : String) (now : Time) :
    Moves SameRefuses (gate req uuid now) := by
  cases req with
  | none => exact Moves.pure SameRefuses.refl _
  | some req =>
      refine Moves.bind SameRefuses.trans (fun co => ?_) fun _ => Moves.pure SameRefuses.refl _
      cases hrow : Approvals.find co.approvals (or_new_id req.request_id uuid) with
      | some row =>
          rw [request_existing now hrow]
          rfl
      | none =>
          rw [request_new now hrow]
          exact EventStore.appendAll_refuses _ co.events

end Company

namespace Tools

variable {defs : ToolDefs} {i : Invocation}

theorem handle_approval_caught (tool : ToolDef) (i : Invocation) :
    Caught (handle_approval tool i) := by
  intro co e h
  obtain ⟨co', hrun, -, -⟩ := handle_approval_run tool i co
  rw [hrun] at h
  cases happ : (EventStore.appendAll (request_posts co (gate_request tool i) i.cid i.now)
      co.events).1 with
  | ok u => rw [happ] at h; cases h
  | error e' =>
      rw [happ] at h
      cases h
      exact EventStore.appendAll_caught _ _ _ happ

theorem fail_caught (post : Post) (cid : String) (cls : ToolErrorClass) (message : String) :
    Caught (fail post cid cls message) :=
  Raises.bind (append_caught _) fun _ => Raises.bind (Raises.write _) fun _ => Raises.pure _

theorem announce_caught (tool : ToolDef) (i : Invocation) (estimate : Money) (rid : Nat) :
    Caught (announce tool i estimate rid) := by
  refine Raises.bind (handle_approval_caught tool i) fun status => ?_
  have hdenied : Caught (do
      on_budget (Budget.release rid)
      let result ← deny i.cid tool.name .ApprovalDenied ("denied:" ++ i.cid) i.agent_id
      pure (Started.done result)) :=
    Raises.bind (release_caught rid) fun _ => Raises.bind (fail_caught _ _ _ _) fun _ => Raises.pure _
  cases status with
  | APPROVED => exact Raises.bind (append_caught _) fun _ => Raises.pure _
  | PENDING =>
      refine Raises.bind (release_caught rid) fun _ => Raises.bind ?_ fun _ => Raises.pure _
      exact Raises.bind (append_caught _) fun _ => Raises.pure _
  | DENIED | TIMEOUT | CANCELLED => exact hdenied

/-- Up to the executor, only a gate can raise what is no `Exception`. -/
theorem invoke_start_caught (hgates : ∀ co e, run_gates defs co i = .raised e → e.isException = true) :
    Caught (invoke_start defs i) := by
  intro co e h
  by_cases hres : ∃ tool estimate, Reserves defs co i tool estimate
  · obtain ⟨tool, estimate, hr⟩ := hres
    rw [invoke_start_reserves hr] at h
    rcases happ : EventStore.appendAll (co.budget.reserved estimate i.cid).1 co.events with ⟨e' | u, ev⟩
    · rw [happ] at h
      cases h
      exact EventStore.appendAll_caught _ _ _ (congrArg Prod.fst happ)
    · rw [happ] at h
      exact announce_caught _ _ _ _ _ _ h
  · have hno : ∀ tool estimate, ¬ Reserves defs co i tool estimate :=
      fun tool estimate hr => hres ⟨tool, estimate, hr⟩
    obtain ⟨cached, -, hrun⟩ | ⟨e', hgate, hrun⟩ | ⟨tool_name, cls, message, hrun⟩ :=
      invoke_start_without_eq hno
    · rw [hrun] at h
      cases h
    · rw [hrun] at h
      cases h
      exact hgates co e hgate
    · rw [hrun] at h
      exact Raises.bind (fail_caught _ _ _ _) (fun _ => Raises.pure _) co e h

theorem invoke_finish_caught (call : ToolCall) {outcome : ToolOutcome}
    (h : abandoned outcome = false) : Caught (invoke_finish call outcome) := by
  have hclose : ∀ post cls message, Caught (do
      on_budget (Budget.release call.reservation_id)
      fail post call.cid cls message) :=
    fun post cls message => Raises.bind (release_caught _) fun _ => fail_caught _ _ _ _
  unfold invoke_finish
  split
  · exact hclose _ _ _
  · rename_i e _
    have he : e.isException = true := by simpa [abandoned] using h
    rw [if_pos he]
    exact hclose _ _ _
  · refine Raises.ite (hclose _ _ _) (Raises.bind (commit_caught _ _) fun charge => ?_)
    refine Raises.ite (fail_caught _ _ _ _) (Raises.bind (append_caught _) fun _ => ?_)
    exact Raises.bind (Raises.write _) fun _ => Raises.pure _

/-- **A tool call raises `Exception`s only**, if no gate and no executor is cancelled. -/
theorem invoke_caught {exec : ToolCall → Company → ToolOutcome × Company}
    (hgates : ∀ co e, run_gates defs co i = .raised e → e.isException = true)
    (hexec : ∀ call co, abandoned (exec call co).1 = false) : Caught (invoke defs exec i) := by
  intro co e h
  rcases hstart : invoke_start defs i co with ⟨e' | result | call, co'⟩
  · rw [show invoke defs exec i co = (.error e', co') from bind_of_error hstart] at h
    cases h
    exact invoke_start_caught hgates co _ (congrArg Prod.fst hstart)
  · rw [show invoke defs exec i co = (.ok result, co') from bind_of_ok hstart] at h
    cases h
  · rw [show invoke defs exec i co = invoke_finish call (exec call co').1 (exec call co').2 from
      bind_of_ok hstart] at h
    exact invoke_finish_caught call (hexec call co') _ _ h

/-- **A tool call leaves the event store as willing as it was**, if executors do. -/
theorem invoke_same_refuses {exec : ToolCall → Company → ToolOutcome × Company}
    (hexec : ∀ call co, SameRefuses co (exec call co).2) :
    Moves SameRefuses (invoke defs exec i) := by
  have hcache : ∀ cid r, Moves SameRefuses (cache cid r) := fun _ _ _ => rfl
  have hstart : Moves SameRefuses (invoke_start defs i) := by
    intro co
    refine invoke_start_moves SameRefuses.refl SameRefuses.trans append_same_refuses (hcache _)
      (fun _ => transact_same_refuses) fun tool estimate rid _ => ?_
    refine announce_moves SameRefuses.refl SameRefuses.trans append_same_refuses (hcache _)
      transact_same_refuses ?_
    rw [handle_approval_eq_gate]
    exact gate_same_refuses _ _
  refine Moves.bind SameRefuses.trans hstart fun started => ?_
  cases started with
  | done result => exact Moves.pure SameRefuses.refl _
  | awaiting call =>
      refine Moves.bind SameRefuses.trans (fun co => hexec call co) fun outcome => ?_
      exact invoke_finish_moves SameRefuses.refl SameRefuses.trans append_same_refuses (hcache _)
        transact_same_refuses transact_same_refuses outcome

end Tools

end CompanyFactory
