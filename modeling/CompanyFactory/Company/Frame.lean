import CompanyFactory.Company.State
import CompanyFactory.Cost.Ledger

/-!
# `Company.Frame` — the service calls of a tool call, seen from the company

The tool layer and the connector use five operations of the other services: `append`, `reserve`,
`release`, `commit` and `request`. For each of them: what it evaluates to, and which reservations and
approvals it leaves alone. `Keeps` is the frame relation on reservations: all open ones but those in a
given set stay open.
-/

namespace CompanyFactory

namespace Company

open Act

/-- Every open reservation outside `S` is still open, with the same row. -/
def Keeps (S : Nat → Prop) (co co' : Company) : Prop :=
  ∀ rid row, ¬ S rid → co.budget.require_open rid = .ok row → co'.budget.require_open rid = .ok row

theorem Keeps.refl (S : Nat → Prop) (co : Company) : Keeps S co co := fun _ _ _ h => h

theorem Keeps.trans {S : Nat → Prop} (a b c : Company) (hab : Keeps S a b) (hbc : Keeps S b c) :
    Keeps S a c := fun rid row hS h => hbc rid row hS (hab rid row hS h)

/-- The tables of the budget are the same. -/
def SameBudget (co co' : Company) : Prop := co'.budget = co.budget

theorem SameBudget.refl (co : Company) : SameBudget co co := rfl

theorem SameBudget.trans (a b c : Company) (hab : SameBudget a b) (hbc : SameBudget b c) :
    SameBudget a c := Eq.trans hbc hab

theorem append_run (post : Post) (co : Company) :
    append post co = ((EventStore.appendAll [post] co.events).1,
      { co with events := (EventStore.appendAll [post] co.events).2 }) := rfl

theorem append_keeps (S : Nat → Prop) (post : Post) : Moves (Keeps S) (append post) :=
  fun _ _ _ _ h => h

theorem append_same_budget (post : Post) : Moves SameBudget (append post) := fun _ => rfl

/-! ## The budget -/

theorem reserve_budget (amount : Money) (ref : String) (co : Company) :
    (on_budget (Budget.reserve amount ref) co).2.budget =
      (Budget.step co.budget_view (.reserve amount ref)).db := by
  rw [Budget.step, Budget.handle, bind_pure_state]
  rfl

theorem release_budget (rid : Nat) (co : Company) :
    (on_budget (Budget.release rid) co).2.budget = (Budget.step co.budget_view (.release rid)).db := by
  rw [Budget.step, Budget.handle, bind_pure_state]
  rfl

theorem commit_budget (rid : Nat) (actual : Money) (co : Company) :
    (on_budget (Budget.commit rid actual) co).2.budget =
      (Budget.step co.budget_view (.commit rid actual)).db := by
  rw [Budget.step, Budget.handle, bind_pure_state]
  rfl

theorem reserve_keeps (S : Nat → Prop) (amount : Money) (ref : String) :
    Moves (Keeps S) (on_budget (Budget.reserve amount ref)) := by
  intro co rid row _ h
  rw [reserve_budget]
  exact Budget.open_stays_step _ _ rfl h

theorem release_keeps {S : Nat → Prop} {rid : Nat} (hS : S rid) :
    Moves (Keeps S) (on_budget (Budget.release rid)) := by
  intro co rid' row hrid' h
  rw [release_budget]
  have hne : rid ≠ rid' := fun heq => hrid' (heq ▸ hS)
  exact Budget.open_stays_step _ _ (by simpa [Budget.Call.closes] using hne) h

theorem commit_keeps {S : Nat → Prop} {rid : Nat} (hS : S rid) (actual : Money) :
    Moves (Keeps S) (on_budget (Budget.commit rid actual)) := by
  intro co rid' row hrid' h
  rw [commit_budget]
  have hne : rid ≠ rid' := fun heq => hrid' (heq ▸ hS)
  exact Budget.open_stays_step _ _ (by simpa [Budget.Call.closes] using hne) h

theorem release_closes (rid : Nat) (co : Company) :
    (on_budget (Budget.release rid) co).2.budget.is_open rid = false := by
  rw [release_budget]
  exact Budget.not_open_after (by simp [Budget.Call.closes])

theorem commit_closes (rid : Nat) (actual : Money) (co : Company) :
    (on_budget (Budget.commit rid actual) co).2.budget.is_open rid = false := by
  rw [commit_budget]
  exact Budget.not_open_after (by simp [Budget.Call.closes])

/-- After a `release`, a continuation that leaves the budget alone ends with the row closed. -/
theorem release_ends {α : Type} {rid : Nat} {k : Unit → Act Company Exn α}
    (hk : ∀ u, Moves SameBudget (k u)) :
    Ends (fun co => co.budget.is_open rid = false) (on_budget (Budget.release rid) >>= k) := by
  refine Ends.bind (release_closes rid) fun u co hclosed => ?_
  have hsame : (k u co).2.budget = co.budget := hk u co
  rw [hsame]
  exact hclosed

theorem commit_ends {α : Type} {rid : Nat} {actual : Money} {k : ChargeResult → Act Company Exn α}
    (hk : ∀ r, Moves SameBudget (k r)) :
    Ends (fun co => co.budget.is_open rid = false)
      (on_budget (Budget.commit rid actual) >>= k) := by
  refine Ends.bind (commit_closes rid actual) fun r co hclosed => ?_
  have hsame : (k r co).2.budget = co.budget := hk r co
  rw [hsame]
  exact hclosed

/-- The new row is open. -/
theorem reserved_open (db : BudgetDb) (amount : Money) (ref : String) :
    (db.reserved amount ref).2.is_open db.reservations.length = true := by
  rw [Budget.is_open_iff]
  refine ⟨{ amount_units := amount.units, ref, status := .OPEN }, ?_⟩
  rw [Budget.require_open_iff]
  exact ⟨by simp [BudgetDb.reserved], rfl⟩

theorem reserved_keeps {db : BudgetDb} {rid : Nat} {row : ReservationRow} (amount : Money)
    (ref : String) (h : db.require_open rid = .ok row) :
    (db.reserved amount ref).2.require_open rid = .ok row := by
  rw [Budget.require_open_iff] at h ⊢
  have hlt := (List.getElem?_eq_some_iff.mp h.1).1
  refine ⟨?_, h.2⟩
  simpa [BudgetDb.reserved, List.getElem?_append_left hlt] using h.1

/-- There is no row beyond the last one. -/
theorem not_open_of_length (db : BudgetDb) : db.is_open db.reservations.length = false := by
  simp [BudgetDb.is_open, BudgetDb.open_row]

/-- A granted reservation is written; then its threshold events are appended. -/
theorem reserve_of_grants (co : Company) {amount : Money} (ref : String)
    (h : co.budget.grants amount = true) :
    on_budget (Budget.reserve amount ref) co =
      ((EventStore.appendAll (co.budget.reserved amount ref).1 co.events).1.map
        (fun _ => { id := co.budget.reservations.length, amount, ref, status := .OPEN }),
      { co with
        budget := (co.budget.reserved amount ref).2
        events := (EventStore.appendAll (co.budget.reserved amount ref).1 co.events).2 }) := by
  have htx : co.budget_view.db.reserve_tx amount ref = .ok
      ({ id := co.budget.reservations.length, amount, ref, status := .OPEN },
        (co.budget.reserved amount ref).1, (co.budget.reserved amount ref).2) :=
    BudgetDb.reserve_granted ref h
  have hrun : Budget.reserve amount ref co.budget_view = _ := Budget.transact_ok htx
  rw [on_budget, on_run, hrun]
  rfl

theorem reserve_of_refused {co : Company} {amount : Money} (ref : String)
    (h : co.budget.grants amount = false) :
    ∃ message, on_budget (Budget.reserve amount ref) co = (.error (.overBudget message), co) := by
  obtain ⟨message, htx⟩ := BudgetDb.reserve_refused ref h
  have hrun : Budget.reserve amount ref co.budget_view = _ := Budget.transact_error htx
  refine ⟨message, ?_⟩
  rw [on_budget, on_run, hrun]
  rfl

/-- An open reservation is released without an event. -/
theorem release_of_open {co : Company} {rid : Nat} {row : ReservationRow}
    (h : co.budget.require_open rid = .ok row) :
    on_budget (Budget.release rid) co =
      (.ok (), { co with budget := co.budget.set_status rid row .RELEASED }) := by
  have htx : co.budget_view.db.release_tx rid =
      .ok ((), [], co.budget.set_status rid row .RELEASED) := by
    rw [BudgetDb.release_tx, show co.budget_view.db.require_open rid = .ok row from h]
    rfl
  have hrun : Budget.release rid co.budget_view = _ := Budget.transact_ok htx
  rw [on_budget, on_run, hrun]
  rfl

/-- What a `commit` of an open reservation evaluates to. -/
theorem commit_of_tx {co : Company} {rid : Nat} {actual : Money} {charge : ChargeResult}
    {posts : List Post} {db : BudgetDb}
    (h : co.budget.commit_tx rid actual = .ok (charge, posts, db)) :
    on_budget (Budget.commit rid actual) co =
      ((EventStore.appendAll posts co.events).1.map (fun _ => charge),
        { co with budget := db, events := (EventStore.appendAll posts co.events).2 }) := by
  have hrun : Budget.commit rid actual co.budget_view = _ := Budget.transact_ok h
  rw [on_budget, on_run, hrun]
  rfl

/-- An open reservation is not refused by `commit_tx`. -/
theorem commit_tx_of_open {db : BudgetDb} {rid : Nat} (actual : Money) (h : db.is_open rid = true) :
    ∃ charge posts db', db.commit_tx rid actual = .ok (charge, posts, db') := by
  obtain ⟨row, hrow⟩ := Budget.is_open_iff.mp h
  rw [BudgetDb.commit_tx, hrow]
  dsimp only
  split
  · exact ⟨_, _, _, rfl⟩
  · exact ⟨_, _, _, rfl⟩

/-- No expense is recorded. -/
def SameExpenses (co co' : Company) : Prop := co'.budget.expenses = co.budget.expenses

theorem SameExpenses.refl (co : Company) : SameExpenses co co := rfl

theorem SameExpenses.trans (a b c : Company) (hab : SameExpenses a b) (hbc : SameExpenses b c) :
    SameExpenses a c := Eq.trans hbc hab

theorem release_expenses (rid : Nat) : Moves SameExpenses (on_budget (Budget.release rid)) := by
  intro co
  cases hopen : co.budget.require_open rid with
  | ok row => rw [release_of_open hopen]; rfl
  | error e =>
      have htx : co.budget_view.db.release_tx rid = .error e := by
        rw [BudgetDb.release_tx, show co.budget_view.db.require_open rid = .error e from hopen]
      have hrun : Budget.release rid co.budget_view = _ := Budget.transact_error htx
      rw [on_budget, on_run, hrun]
      rfl

/-! ## The replay caches -/

/-- The two callers of the budget that keep a replay cache. -/
inductive Caller where
  | TOOLS | CONNECTOR
  deriving DecidableEq, Repr

/-- Is there a result under the correlation id? -/
def Cached (co : Company) : Caller × String → Prop
  | (.TOOLS, cid) => co.tools_completed cid ≠ none
  | (.CONNECTOR, cid) => co.connector_completed cid ≠ none

/-- No result is forgotten. -/
def CacheGrows (co co' : Company) : Prop := ∀ key, co.Cached key → co'.Cached key

theorem CacheGrows.refl (co : Company) : CacheGrows co co := fun _ h => h

theorem CacheGrows.trans (a b c : Company) (hab : CacheGrows a b) (hbc : CacheGrows b c) :
    CacheGrows a c := fun key h => hbc key (hab key h)

/-- The caches are the same. -/
theorem CacheGrows.of_eq {co co' : Company} (htools : co'.tools_completed = co.tools_completed)
    (hconnector : co'.connector_completed = co.connector_completed) : CacheGrows co co' := by
  rintro ⟨caller, cid⟩ h
  cases caller with
  | TOOLS => rw [Cached, htools]; exact h
  | CONNECTOR => rw [Cached, hconnector]; exact h

theorem append_cache (post : Post) : Moves CacheGrows (append post) := fun _ => .of_eq rfl rfl

theorem on_budget_cache {α : Type} (m : Act Budget Exn α) : Moves CacheGrows (on_budget m) :=
  fun _ => .of_eq rfl rfl

theorem on_approvals_cache {α : Type} (m : Act Approvals Exn α) : Moves CacheGrows (on_approvals m) :=
  fun _ => .of_eq rfl rfl

/-! ## The approvals -/

/-- An approval that exists is returned, and nothing is written. -/
theorem request_existing {co : Company} {req : ApprovalRequest} {uuid : String} {row : Approval}
    (now : Time) (h : Approvals.find co.approvals (or_new_id req.request_id uuid) = some row) :
    on_approvals (Approvals.request req uuid now) co = (.ok row, co) := by
  have htx : Approvals.request_tx co.approvals_config req uuid now co.approvals =
      .ok (row, [], co.approvals) := by
    rw [Approvals.request_tx]
    simp only [h]
  have hrun : Approvals.request req uuid now co.approvals_view = (.ok row, co.approvals_view) := by
    rw [Approvals.request, Approvals.transact,
      show Approvals.request_tx co.approvals_view.config req uuid now co.approvals_view.rows = _
        from htx]
    rfl
  rw [on_approvals, on_run, hrun]
  rfl

/-- A new approval is inserted as pending; then its event is appended. -/
theorem request_new {co : Company} {req : ApprovalRequest} {uuid : String}
    (now : Time) (h : Approvals.find co.approvals (or_new_id req.request_id uuid) = none) :
    let row := Approvals.new_row co.approvals_config req (or_new_id req.request_id uuid) now
    let appended := EventStore.appendAll [Approvals.requested_post row] co.events
    on_approvals (Approvals.request req uuid now) co =
      (appended.1.map (fun _ => row), { co with
        approvals := co.approvals ++ [row]
        events := appended.2
        broadcasts := co.broadcasts ++ (if appended.1.isOk then [row] else []) }) := by
  intro row appended
  have htx : Approvals.request_tx co.approvals_config req uuid now co.approvals =
      .ok (row, [{ posts := [Approvals.requested_post row], approval := row }],
        co.approvals ++ [row]) := by
    rw [Approvals.request_tx]
    simp only [h]
    rfl
  rw [on_approvals, on_run, Approvals.request, Approvals.transact,
    show Approvals.request_tx co.approvals_view.config req uuid now co.approvals_view.rows = _
      from htx]
  have hann : Approvals.announce [{ posts := [Approvals.requested_post row], approval := row }]
      { co.approvals_view with rows := co.approvals ++ [row] } =
      (appended.1.map (fun _ => ()), { co.approvals_view with
        rows := co.approvals ++ [row], events := appended.2
        broadcasts := co.broadcasts ++ (if appended.1.isOk then [row] else []) }) := by
    have hevents : Approvals.append_events [Approvals.requested_post row]
        { co.approvals_view with rows := co.approvals ++ [row] } =
        (appended.1, { co.approvals_view with
          rows := co.approvals ++ [row], events := appended.2 }) := rfl
    rw [Approvals.announce, bind_run]
    simp only [hevents]
    cases appended.1 with
    | error e => simp [Except.map, Except.isOk, Except.toBool, approvals_view]
    | ok _ => rfl
  simp only [hann]
  rcases appended.1 with e | u <;> rfl

/-! ## The approval gate -/

/-- Ask for the approval that a call needs, if it needs one. -/
def gate (req : Option ApprovalRequest) (uuid : String) (now : Time) :
    Act Company Exn ApprovalStatus :=
  match req with
  | none => pure .APPROVED
  | some req => do
      let approval ← on_approvals (Approvals.request req uuid now)
      pure approval.status

/-- The status a gate finds under the call's id; a missing row is about to be inserted as pending. -/
def gate_status (co : Company) (req : Option ApprovalRequest) (cid : String) : ApprovalStatus :=
  match req with
  | none => .APPROVED
  | some _ => ((Approvals.find co.approvals cid).map Approval.status).getD .PENDING

/-- The event of a request that a gate opens. -/
def request_posts (co : Company) (req : Option ApprovalRequest) (cid : String) (now : Time) :
    List Post :=
  match req, Approvals.find co.approvals cid with
  | some req, none =>
    [Approvals.requested_post (Approvals.new_row co.approvals_config req cid now)]
  | _, _ => []

/-- An approved gate has nothing to request. -/
theorem request_posts_of_approved (co : Company) {req : Option ApprovalRequest} {cid : String}
    (now : Time) (h : gate_status co req cid = .APPROVED) : request_posts co req cid now = [] := by
  cases req with
  | none => rfl
  | some req =>
      unfold request_posts
      cases hrow : Approvals.find co.approvals cid with
      | none => simp [gate_status, hrow] at h
      | some row => rfl

/-- What an approved gate that needs an approval has found. -/
theorem row_of_approved {co : Company} {req : ApprovalRequest} {cid : String}
    (h : gate_status co (some req) cid = .APPROVED) :
    ∃ row, Approvals.find co.approvals cid = some row ∧ row.status = .APPROVED := by
  rw [gate_status] at h
  cases hrow : Approvals.find co.approvals cid with
  | none => simp [hrow] at h
  | some row => exact ⟨row, rfl, by simpa [hrow] using h⟩

/-- A gate answers its status unless the event of a new request is refused. An approved gate changes
    nothing. -/
theorem gate_run {req : Option ApprovalRequest} {uuid cid : String} (now : Time) (co : Company)
    (hcid : ∀ r, req = some r → or_new_id r.request_id uuid = cid) :
    ∃ co', gate req uuid now co =
        ((EventStore.appendAll (request_posts co req cid now) co.events).1.map
          (fun _ => gate_status co req cid), co') ∧
      co'.budget = co.budget ∧ (gate_status co req cid = .APPROVED → co' = co) := by
  cases req with
  | none => exact ⟨co, rfl, rfl, fun _ => rfl⟩
  | some req =>
      have hid := hcid req rfl
      unfold gate_status request_posts
      cases hrow : Approvals.find co.approvals cid with
      | some row =>
          have hreq := request_existing now (hid.symm ▸ hrow)
          refine ⟨co, ?_, rfl, fun _ => rfl⟩
          rw [gate, bind_of_ok hreq]
          rfl
      | none =>
          have hreq := request_new now (hid.symm ▸ hrow)
          rw [hid] at hreq
          refine ⟨(on_approvals (Approvals.request req uuid now) co).2, ?_, ?_, ?_⟩
          · rw [gate, bind_run, hreq]
            cases (EventStore.appendAll [Approvals.requested_post
              (Approvals.new_row co.approvals_config req cid now)] co.events).1 <;> rfl
          · rw [hreq]
          · intro h
            simp at h

theorem gate_cache (req : Option ApprovalRequest) (uuid : String) (now : Time) :
    Moves CacheGrows (gate req uuid now) := by
  cases req with
  | none => exact Moves.pure CacheGrows.refl _
  | some req =>
      exact Moves.bind CacheGrows.trans (on_approvals_cache _) fun _ => Moves.pure CacheGrows.refl _

theorem gate_keeps (S : Nat → Prop) (req : Option ApprovalRequest) (uuid : String) (now : Time) :
    Moves (Keeps S) (gate req uuid now) := by
  cases req with
  | none => exact Moves.pure (Keeps.refl S) _
  | some req =>
      refine Moves.bind Keeps.trans (fun co rid row _ h => h) fun _ => Moves.pure (Keeps.refl S) _

end Company

end CompanyFactory
