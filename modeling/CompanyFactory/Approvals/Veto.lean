import CompanyFactory.EventStore.Feed
import CompanyFactory.Lib.Run
import CompanyFactory.SecurityAgent.Policy

/-!
# `Approvals.Veto` — the two legs of an approval that needs Security

An approval whose `require_security` flag is set is decided in two legs: Security first, then the party
its route names. `Approvals.decide` keeps the order of the legs but never asks who the decider is, so the
same party can take both. What the code does give is the two-decider rule for the runs in which every
approval comes from the party whose leg is open:

* `row_step` — what one call does to one row;
* `VetoInvariant` — where a row stands determines what has been recorded for it;
* `veto_needs_two_deciders` — the rule over whole runs;
* `handle_notes` — whatever a call does to the log of the company.
-/

namespace CompanyFactory

namespace Approvals

open Machine

/-- The calls that change the `approvals` table. -/
inductive Call where
  | request (req : ApprovalRequest) (uuid : String) (now : Time)
  | decide (request_id decider_id : String) (decision : Decision) (note : Option String) (now : Time)
  | cancel (request_id by_id reason : String) (now : Time)
  | process_timeouts (now : Time)
  | review_approval (agent_id : String) (approval : Approval) (findings : List SecurityFinding)
      (llm_reviewer : Option LLMReview) (now : Time)

def handle : Call → Act Approvals Exn Unit
  | .request req uuid now => do
      let _ ← request req uuid now
      pure ()
  | .decide request_id decider_id decision note now => do
      let _ ← Approvals.decide request_id decider_id decision note now
      pure ()
  | .cancel request_id by_id reason now => do
      let _ ← cancel request_id by_id reason now
      pure ()
  | .process_timeouts now => do
      let _ ← process_timeouts now
      pure ()
  | .review_approval agent_id approval findings llm_reviewer now => do
      let _ ← SecurityPolicy.review_approval agent_id approval findings llm_reviewer now
      pure ()

def step (a : Approvals) (c : Call) : Approvals := (handle c a).2

/-- The decision a call asks for: the approval, the decider and the decision. -/
def Call.asks : Call → Option (String × String × Decision)
  | .decide request_id decider_id decision _ _ => some (request_id, decider_id, decision)
  | .review_approval agent_id approval findings llm_reviewer _ =>
    if approval.require_security then
      (SecurityPolicy.verdict findings llm_reviewer).map
        (fun v => (approval.request_id, agent_id, v.1))
    else none
  | _ => none

/-! ## What one call does to one row -/

/-- The row still names the requester and the payload it was opened with. -/
def SameRequest (row row' : Approval) : Prop :=
  row'.requester_id = row.requester_id ∧ row'.payload = row.payload

/-- The outcomes for the row of one id: nothing, a new row, a decision, or a cancellation or timeout. -/
inductive RowStep (c : Call) (rid : String) : Option Approval → Option Approval → Prop
  | same (r) : RowStep c rid r r
  | created (req uuid now row) : c = .request req uuid now → or_new_id req.request_id uuid = rid →
      row.requester_id = req.requester_id → row.payload = req.payload → row.status = .PENDING →
      row.security_decision = none → RowStep c rid none (some row)
  | decided (row decider_id decision note now) : c.asks = some (rid, decider_id, decision) →
      row.status = .PENDING →
      RowStep c rid (some row) (some (decided_row row decider_id decision note now))
  | closed (row row') : SameRequest row row' → row.status = .PENDING → row'.status ≠ .PENDING →
      row'.status ≠ .APPROVED →
      RowStep c rid (some row) (some row')

theorem row_step_decide {c : Call} {request_id decider_id : String} {decision : Decision}
    (hasks : c.asks = some (request_id, decider_id, decision)) (note : Option String) (now : Time)
    (a : Approvals) (rid : String) :
    RowStep c rid (find a.rows rid)
      (find (Approvals.decide request_id decider_id decision note now a).2.rows rid) := by
  obtain hrows | ⟨row, hrow, hpending, hrows⟩ := decide_rows request_id decider_id decision note now a
  · rw [hrows]
    exact .same _
  · rw [hrows, find_update_row (fun row => decided_row_id row _ _ _ _)]
    by_cases heq : request_id = rid
    · subst heq
      rw [if_pos rfl, hrow]
      exact .decided row decider_id decision note now hasks hpending
    · rw [if_neg heq]
      exact .same _

theorem row_step_request (req : ApprovalRequest) (uuid : String) (now : Time) (a : Approvals)
    (rid : String) :
    RowStep (.request req uuid now) rid (find a.rows rid)
      (find (request req uuid now a).2.rows rid) := by
  rcases htx : request_tx a.config req uuid now a.rows with e | ⟨r, ns, rows⟩
  · rw [request, transact_error htx]
    exact .same _
  · rw [request, (transact_rows htx).1]
    obtain ⟨-, rfl⟩ | ⟨hnone, rfl, rfl⟩ := request_tx_ok htx
    · exact .same _
    · rw [find_append]
      by_cases heq : or_new_id req.request_id uuid = rid
      · subst heq
        rw [hnone, if_pos (by rfl)]
        exact .created req uuid now _ rfl rfl rfl rfl rfl rfl
      · rw [if_neg (by exact heq), Option.or_none]
        exact .same _

theorem row_step_cancel (c : Call) (request_id by_id reason : String) (now : Time) (a : Approvals)
    (rid : String) :
    RowStep c rid (find a.rows rid) (find (cancel request_id by_id reason now a).2.rows rid) := by
  rcases htx : cancel_tx request_id by_id reason now a.rows with e | ⟨r, ns, rows⟩
  · rw [cancel, transact_error htx]
    exact .same _
  · rw [cancel, (transact_rows htx).1]
    obtain ⟨row, hrow, hpending, -, rfl⟩ := cancel_tx_ok htx
    rw [find_update_row (f := fun row => cancelled_row row by_id reason now) (fun _ => rfl)]
    by_cases heq : request_id = rid
    · subst heq
      rw [if_pos rfl, hrow]
      exact .closed row _ ⟨rfl, rfl⟩ hpending (by simp [cancelled_row]) (by simp [cancelled_row])
    · rw [if_neg heq]
      exact .same _

theorem row_step_timeouts (c : Call) (now : Time) (a : Approvals) (rid : String) :
    RowStep c rid (find a.rows rid) (find (process_timeouts now a).2.rows rid) := by
  have htx : process_timeouts_tx a.config now a.rows = .ok (_, _, _) := rfl
  have hid : ∀ row : Approval, (if expired now row then timed_out_row a.config now row
      else row).request_id = row.request_id := by
    intro row
    split <;> rfl
  rw [process_timeouts, (transact_rows htx).1, find, find, Table.find_update hid]
  cases Table.find Approval.request_id a.rows rid with
  | none => exact .same _
  | some row =>
      rw [Option.map_some]
      split
      · rename_i hexp
        have hpending : row.status = .PENDING := by
          simp only [expired, Bool.and_eq_true, decide_eq_true_eq] at hexp
          exact hexp.1
        refine .closed row _ ⟨rfl, rfl⟩ hpending ?_ ?_ <;> simp only [timed_out_row] <;> split <;> simp
      · exact .same _

/-- **One call, one row.** -/
theorem row_step (c : Call) (a : Approvals) (rid : String) :
    RowStep c rid (find a.rows rid) (find (step a c).rows rid) := by
  cases c with
  | request req uuid now =>
      rw [step, handle, Act.bind_pure_state]
      exact row_step_request req uuid now a rid
  | decide request_id decider_id decision note now =>
      rw [step, handle, Act.bind_pure_state]
      exact row_step_decide rfl note now a rid
  | cancel request_id by_id reason now =>
      rw [step, handle, Act.bind_pure_state]
      exact row_step_cancel _ request_id by_id reason now a rid
  | process_timeouts now =>
      rw [step, handle, Act.bind_pure_state]
      exact row_step_timeouts _ now a rid
  | review_approval agent_id approval findings llm_reviewer now =>
      rw [step, handle, Act.bind_pure_state, SecurityPolicy.review_rows]
      cases hv : SecurityPolicy.verdict findings llm_reviewer with
      | none => exact .same _
      | some v =>
          by_cases hreq : approval.require_security = true
          · simp only [if_pos hreq]
            exact row_step_decide (by simp [Call.asks, hreq, hv]) (some v.2) now a rid
          · simp only [if_neg hreq]
            exact .same _

/-! ## The two-decider rule -/

/-- A service without approvals. -/
def fresh (config : ApprovalsConfig) (events : EventStore) : Approvals :=
  { config, rows := [], events, broadcasts := [] }

section Parties

variable (is_security is_board : String → Prop)

/-- May the decider decide the main leg of the route? -/
def acts_for (decider_id : String) (route : ApprovalRoute) : Prop :=
  match route.target with
  | .BOARD => is_board decider_id
  | .AGENT => route.agent_id = some decider_id
  | .SECURITY => is_security decider_id

/-- Security approves while its leg of the approval is open. -/
def approves_security_leg (rid decider_id : String) (a : Approvals) (c : Call) : Prop :=
  is_security decider_id ∧ c.asks = some (rid, decider_id, .APPROVE) ∧
    ∃ row, find a.rows rid = some row ∧ row.status = .PENDING ∧ in_security_step row = true

/-- A party of the route approves while the main leg of the approval is open. -/
def approves_main_leg (rid decider_id : String) (a : Approvals) (c : Call) : Prop :=
  c.asks = some (rid, decider_id, .APPROVE) ∧
    ∃ row, find a.rows rid = some row ∧ row.status = .PENDING ∧ in_security_step row = false ∧
      acts_for is_security is_board decider_id row.route

/-- The call does not approve on another party's leg: an approving decision on an approval that needs
    Security comes from Security while the security leg is open, and afterwards from a party of the route
    that is not Security. -/
def OnOwnLeg (a : Approvals) (c : Call) : Prop :=
  ∀ rid decider_id, c.asks = some (rid, decider_id, .APPROVE) →
    ∀ row, find a.rows rid = some row → row.status = .PENDING → row.require_security = true →
      (in_security_step row = true → is_security decider_id) ∧
      (in_security_step row = false →
        acts_for is_security is_board decider_id row.route ∧ ¬ is_security decider_id)

/-- The decisions of two different deciders have been recorded, Security's first. -/
def TwoDeciders (rid : String) (a : Approvals) (calls : List Call) : Prop :=
  ∃ sec decider, decider ≠ sec ∧
    HappensThen step (approves_security_leg is_security rid sec)
      (approves_main_leg is_security is_board rid decider) a calls

/-- Where the row of an approval that needs Security stands, and what has been recorded for it. -/
structure VetoInvariant (rid : String) (start : Approvals) (calls : List Call) (a : Approvals) :
    Prop where
  pending : ∀ row, find a.rows rid = some row → row.require_security = true →
    row.status = .PENDING → row.security_decision = none ∨
      row.security_decision = some .APPROVE ∧
        ∃ sec, Happens step (approves_security_leg is_security rid sec) start calls
  approved : ∀ row, find a.rows rid = some row → row.require_security = true →
    row.status = .APPROVED → TwoDeciders is_security is_board rid start calls

variable {is_security is_board}

theorem VetoInvariant.extend {rid : String} {start a b : Approvals} {calls : List Call} {c : Call}
    (h : VetoInvariant is_security is_board rid start calls a)
    (hsame : find b.rows rid = find a.rows rid) :
    VetoInvariant is_security is_board rid start (calls ++ [c]) b where
  pending row hrow hsec hpending := by
    rw [hsame] at hrow
    obtain hnone | ⟨happ, sec, hhap⟩ := h.pending row hrow hsec hpending
    · exact .inl hnone
    · exact .inr ⟨happ, sec, hhap.append [c]⟩
  approved row hrow hsec happ := by
    rw [hsame] at hrow
    obtain ⟨sec, d, hne, hthen⟩ := h.approved row hrow hsec happ
    exact ⟨sec, d, hne, hthen.append [c]⟩

/-- A decision on a pending row keeps the invariant if it is taken on the decider's own leg. -/
theorem VetoInvariant.decided {rid decider_id : String} {start a b : Approvals} {calls : List Call}
    {c : Call} {row : Approval} {decision : Decision} {note : Option String} {now : Time}
    (h : VetoInvariant is_security is_board rid start calls a)
    (ha : a = exec step start calls) (hC : OnOwnLeg is_security is_board a c)
    (hasks : c.asks = some (rid, decider_id, decision))
    (hrow : find a.rows rid = some row) (hpending : row.status = .PENDING)
    (hb : find b.rows rid = some (decided_row row decider_id decision note now)) :
    VetoInvariant is_security is_board rid start (calls ++ [c]) b := by
  cases hstep : in_security_step row with
  | true =>
      cases decision with
      | APPROVE =>
          rw [decided_row_cleared hstep] at hb
          refine ⟨fun row' hrow' hsec _ => .inr ?_, fun row' hrow' hsec happ => ?_⟩
          · obtain rfl := Option.some.inj (hb.symm.trans hrow')
            have hleg := (hC rid decider_id hasks row hrow hpending hsec).1 hstep
            have hnow : approves_security_leg is_security rid decider_id (exec step start calls) c :=
              ⟨hleg, hasks, row, by rw [← ha]; exact hrow, hpending, hstep⟩
            exact ⟨rfl, decider_id, Happens.last hnow⟩
          · obtain rfl := Option.some.inj (hb.symm.trans hrow')
            simp [hpending] at happ
      | DENY =>
          have hdec := decided_row_vetoed hstep decider_id note now
          refine ⟨fun row' hrow' _ hp => ?_, fun row' hrow' _ happ => ?_⟩
          · obtain rfl := Option.some.inj (hb.symm.trans hrow')
            simp [hdec] at hp
          · obtain rfl := Option.some.inj (hb.symm.trans hrow')
            simp [hdec] at happ
  | false =>
      rw [decided_row_main hstep] at hb
      refine ⟨fun row' hrow' _ hp => ?_, fun row' hrow' hsec happ => ?_⟩
      · obtain rfl := Option.some.inj (hb.symm.trans hrow')
        cases decision <;> cases hp
      · obtain rfl := Option.some.inj (hb.symm.trans hrow')
        cases decision with
        | DENY => cases happ
        | APPROVE =>
            have hsec' : row.require_security = true := hsec
            obtain ⟨hacts, hnot⟩ := (hC rid decider_id hasks row hrow hpending hsec').2 hstep
            -- the security leg is closed, so Security has approved before
            obtain hnone | ⟨-, sec, hhap⟩ := h.pending row hrow hsec' hpending
            · simp [in_security_step, hsec', hnone] at hstep
            · have hnow : approves_main_leg is_security is_board rid decider_id
                  (exec step start calls) c :=
                ⟨hasks, row, by rw [← ha]; exact hrow, hpending, hstep, hacts⟩
              obtain ⟨t, i, -, hsecurity, -⟩ := hhap.exists
              exact ⟨sec, decider_id, fun heq => hnot (heq ▸ hsecurity), HappensThen.last hhap hnow⟩

/-- **One call.** -/
theorem VetoInvariant.step {rid : String} {start : Approvals} {calls : List Call} {c : Call}
    (h : VetoInvariant is_security is_board rid start calls (exec step start calls))
    (hC : OnOwnLeg is_security is_board (exec step start calls) c) :
    VetoInvariant is_security is_board rid start (calls ++ [c])
      (Approvals.step (exec Approvals.step start calls) c) := by
  have hrow := row_step c (exec Approvals.step start calls) rid
  generalize hbefore : find (exec Approvals.step start calls).rows rid = before at hrow
  generalize hafter : find (Approvals.step (exec Approvals.step start calls) c).rows rid = after
    at hrow
  cases hrow with
  | same => exact h.extend (hafter.trans hbefore.symm)
  | created req uuid now row _ _ _ _ hpending hnone =>
      refine ⟨fun row' hrow' _ _ => ?_, fun row' hrow' _ happ => ?_⟩
      · obtain rfl := Option.some.inj (hafter.symm.trans hrow')
        exact .inl hnone
      · obtain rfl := Option.some.inj (hafter.symm.trans hrow')
        simp [hpending] at happ
  | decided row decider_id decision note now hasks hpending =>
      exact h.decided rfl hC hasks hbefore hpending hafter
  | closed row row' _ _ hclosed hnot =>
      refine ⟨fun r hr _ hp => ?_, fun r hr _ happ => ?_⟩
      · obtain rfl := Option.some.inj (hafter.symm.trans hr)
        exact absurd hp hclosed
      · obtain rfl := Option.some.inj (hafter.symm.trans hr)
        exact absurd happ hnot

end Parties

/-- **The two-decider rule.** In every run in which approving decisions come from the party whose leg is
    open, an approval that needs Security is `APPROVED` only if Security approved it and, after that, a
    different decider acting for the route target did. -/
theorem veto_needs_two_deciders (is_security is_board : String → Prop) (config : ApprovalsConfig)
    (events : EventStore) (calls : List Call)
    (hcalls : Along step (OnOwnLeg is_security is_board) (fresh config events) calls)
    (rid : String) (row : Approval) (hrow : find (exec step (fresh config events) calls).rows rid = some row)
    (hsec : row.require_security = true) (happ : row.status = .APPROVED) :
    TwoDeciders is_security is_board rid (fresh config events) calls := by
  have hfresh : VetoInvariant is_security is_board rid (fresh config events) []
      (fresh config events) := by
    constructor
    · intro row hrow
      cases hrow
    · intro row hrow
      cases hrow
  have hstep : ∀ is i, VetoInvariant is_security is_board rid (fresh config events) is
        (exec step (fresh config events) is) →
      OnOwnLeg is_security is_board (exec step (fresh config events) is) i →
      VetoInvariant is_security is_board rid (fresh config events) (is ++ [i])
        (step (exec step (fresh config events) is) i) := fun is i h hC => h.step hC
  exact (exec_history hfresh hstep calls hcalls).approved row hrow hsec happ

/-- An external action of an engineer, to be decided by the board after Security. -/
def external_action : ApprovalRequest :=
  { kind := .EXTERNAL_ACTION, requester_id := "eng-1", payload := [],
    route := { target := .BOARD, valid := ApprovalRoute.board_valid }, request_id := some "x1" }

/-- Security approves, then a board user does. -/
theorem veto_two_deciders_run :
    TwoDeciders (fun d => d = "security") (fun d => d = "user") "x1" (fresh {} .quiet)
      [.request external_action "" 0, .decide "x1" "security" .APPROVE none 1,
        .decide "x1" "user" .APPROVE none 2] := by
  refine veto_needs_two_deciders _ _ {} .quiet _ ?_ "x1"
    (decided_row (decided_row (new_row {} external_action "x1" 0) "security" .APPROVE none 1)
      "user" .APPROVE none 2) (by rfl) (by rfl) (by rfl)
  refine ⟨?_, ?_, ?_, trivial⟩
  · intro rid d h
    cases h
  · intro rid d h row hrow _ _
    cases h
    obtain rfl : new_row {} external_action "x1" 0 = row := Option.some.inj hrow
    exact ⟨fun _ => rfl, fun hmain => by cases hmain⟩
  · intro rid d h row hrow _ _
    cases h
    obtain rfl : decided_row (new_row {} external_action "x1" 0) "security" .APPROVE none 1 = row :=
      Option.some.inj hrow
    exact ⟨fun hsec => (by cases hsec), fun _ => ⟨rfl, by decide⟩⟩

/-- One board user approves twice: the first decision is taken for Security's, and the approval is
    `APPROVED` with one decider only, whoever counts as Security and as board. -/
theorem one_decider_approves :
    ∃ row, find (exec step (fresh {} .quiet)
        [.request external_action "" 0, .decide "x1" "user" .APPROVE none 1,
          .decide "x1" "user" .APPROVE none 2]).rows "x1" = some row ∧
      row.require_security = true ∧ row.status = .APPROVED ∧
      ∀ is_security is_board, ¬ TwoDeciders is_security is_board "x1" (fresh {} .quiet)
        [.request external_action "" 0, .decide "x1" "user" .APPROVE none 1,
          .decide "x1" "user" .APPROVE none 2] := by
  refine ⟨decided_row (decided_row (new_row {} external_action "x1" 0) "user" .APPROVE none 1)
    "user" .APPROVE none 2, by rfl, by rfl, by rfl, ?_⟩
  rintro is_security is_board ⟨sec, d, hne, hthen⟩
  have hasks : ∀ c ∈ [Call.request external_action "" 0, .decide "x1" "user" .APPROVE none 1,
      .decide "x1" "user" .APPROVE none 2], ∀ e, c.asks = some ("x1", e, .APPROVE) → e = "user" := by
    simp [Call.asks]
  obtain ⟨⟨_, c, hc, -, hsec, -⟩, _, c', hc', hmain, -⟩ := hthen.exists
  exact hne ((hasks c' hc' d hmain).trans (hasks c hc sec hsec).symm)

/-! ## What a call adds to the log -/

/-- The kinds of the events of the service. -/
def writes_kind : EventKind → Bool
  | .APPROVAL_REQUESTED | .APPROVAL_DECIDED | .APPROVAL_TIMEOUT | .SECURITY_VETO => true
  | _ => false

/-- The log, seen from the service. -/
def Notes (a a' : Approvals) : Prop := EventStore.Appends writes_kind a.events a'.events

theorem Notes.refl (a : Approvals) : Notes a a := EventStore.Appends.refl _

theorem Notes.trans (a b c : Approvals) (hab : Notes a b) (hbc : Notes b c) : Notes a c :=
  EventStore.Appends.trans _ _ _ hab hbc

theorem append_events_notes {posts : List Post} (h : ∀ p ∈ posts, writes_kind p.kind = true) :
    Act.Moves Notes (append_events posts) := fun a => EventStore.appendAll_appends h a.events

theorem announce_notes {notices : List Notice} (h : ∀ n ∈ notices, ∀ p ∈ n.posts, writes_kind p.kind = true) :
    Act.Moves Notes (announce notices) := by
  induction notices with
  | nil => exact .pure Notes.refl _
  | cons notice notices ih =>
      refine .bind Notes.trans (append_events_notes (h notice List.mem_cons_self)) fun _ => ?_
      refine .bind Notes.trans (fun a => Notes.refl a) fun _ => ?_
      exact ih fun n hn => h n (List.mem_cons_of_mem _ hn)

theorem transact_notes {α : Type} {tx : ApprovalsConfig → Rows → Tx α}
    (h : ∀ config rows r notices rows', tx config rows = .ok (r, notices, rows') →
      ∀ n ∈ notices, ∀ p ∈ n.posts, writes_kind p.kind = true) : Act.Moves Notes (transact tx) := by
  intro a
  rcases htx : tx a.config a.rows with e | ⟨r, notices, rows⟩
  · rw [transact_error htx]
    exact .refl a
  · unfold transact
    rw [htx]
    exact announce_notes (h _ _ _ _ _ htx) { a with rows }

theorem request_notes (req : ApprovalRequest) (uuid : String) (now : Time) :
    Act.Moves Notes (request req uuid now) := by
  refine transact_notes fun config rows r notices rows' htx => ?_
  unfold request_tx at htx
  dsimp only at htx
  split at htx
  · cases htx
    exact List.forall_mem_nil _
  · cases htx
    exact List.forall_mem_singleton.mpr (List.forall_mem_singleton.mpr rfl)

theorem decide_notes (request_id decider_id : String) (decision : Decision) (note : Option String) (now : Time) :
    Act.Moves Notes (Approvals.decide request_id decider_id decision note now) := by
  refine transact_notes fun config rows r notices rows' htx => ?_
  unfold decide_tx at htx
  split at htx
  · cases htx
  · split at htx
    · split at htx
      · cases htx
        exact List.forall_mem_nil _
      · cases htx
    · cases htx
      refine List.forall_mem_singleton.mpr ?_
      dsimp only
      split
      · exact List.forall_mem_nil _
      · exact List.forall_mem_singleton.mpr rfl

theorem cancel_notes (request_id by_id reason : String) (now : Time) :
    Act.Moves Notes (cancel request_id by_id reason now) := by
  refine transact_notes fun config rows r notices rows' htx => ?_
  unfold cancel_tx at htx
  split at htx
  · cases htx
  · split at htx
    · cases htx
    · cases htx
      exact List.forall_mem_singleton.mpr (List.forall_mem_singleton.mpr rfl)

theorem process_timeouts_notes (now : Time) : Act.Moves Notes (process_timeouts now) := by
  refine transact_notes fun config rows r notices rows' htx => ?_
  cases htx
  intro n hn
  obtain ⟨approval, -, rfl⟩ := List.mem_map.mp hn
  exact List.forall_mem_singleton.mpr rfl

/-- **A review does no more than to decide and to veto**: what a decision and an append do, it does. -/
theorem review_moves {R : Approvals → Approvals → Prop} (hrefl : ∀ a, R a a)
    (htrans : ∀ a b c, R a b → R b c → R a c)
    (hdecide : ∀ request_id decider_id decision note now,
      Act.Moves R (Approvals.decide request_id decider_id decision note now))
    (hveto : ∀ post, post.kind = .SECURITY_VETO → Act.Moves R (append_events [post]))
    (agent_id : String) (approval : Approval) (findings : List SecurityFinding) (llm_reviewer : Option LLMReview)
    (now : Time) : Act.Moves R (SecurityPolicy.review_approval agent_id approval findings llm_reviewer now) := by
  have hpure : ∀ {α : Type} (a : α), Act.Moves R (pure a : Act Approvals Exn α) := fun a => .pure hrefl a
  have hrecord : ∀ decision note,
      Act.Moves R (SecurityPolicy.record_decision agent_id approval decision note now) :=
    fun decision note => .ite (.bind htrans (hdecide _ _ _ _ _) fun _ => hpure ()) (hpure ())
  have hemit : ∀ note, Act.Moves R (SecurityPolicy.emit_veto agent_id approval findings note) :=
    fun note => hveto _ rfl
  unfold SecurityPolicy.review_approval
  split
  · exact .bind htrans (hrecord _ _) fun _ => .bind htrans (hemit _) fun _ => hpure _
  · split
    · exact hpure _
    · exact .raise hrefl _
    · exact .bind htrans (hrecord _ _) fun _ => .bind htrans (hemit _) fun _ => hpure _
    · exact .bind htrans (hrecord _ _) fun _ => hpure _
  · exact .bind htrans (hrecord _ _) fun _ => hpure _

theorem handle_notes (c : Call) : Act.Moves Notes (handle c) := by
  have hdone : ∀ {α : Type} {m : Act Approvals Exn α}, Act.Moves Notes m →
      Act.Moves Notes (do let _ ← m; pure ()) := fun hm => .bind Notes.trans hm fun _ => .pure Notes.refl ()
  cases c with
  | request req uuid now => exact hdone (request_notes req uuid now)
  | decide request_id decider_id decision note now => exact hdone (decide_notes request_id decider_id decision note now)
  | cancel request_id by_id reason now => exact hdone (cancel_notes request_id by_id reason now)
  | process_timeouts now => exact hdone (process_timeouts_notes now)
  | review_approval agent_id approval findings llm_reviewer now =>
      refine hdone (review_moves Notes.refl Notes.trans decide_notes (fun post hpost => ?_) _ _ _ _ _)
      refine append_events_notes (List.forall_mem_singleton.mpr ?_)
      rw [hpost]
      rfl

end Approvals

end CompanyFactory
