import CompanyFactory.Approvals.Final
import CompanyFactory.Factory.Hire
import CompanyFactory.Lib.Points

/-!
# `Factory.Overtaken` — approvals that a direct action has overtaken

Hires, firings and role changes once needed an approval of the board; now they are made directly. Three functions look
for approvals that this leaves without a purpose, and cancel them one by one: those of the old kinds when a company
starts, the duplicates of a hire, and the proposals for a role that has been changed. What a cancellation raises is
suppressed. A `Sweep` is the query of such a function with the test in its loop.

* `sweep_run` — what a sweep writes: exactly the rows that it overtakes, whatever the log refuses.
* `overtaken_never_approved` — an overtaken approval stays cancelled, and no subscriber is ever told that it is approved.
-/

namespace CompanyFactory

namespace Approvals

open Act Machine Hiring StaticRules

/-! ## Sweeps -/

/-- A query for pending approvals, the test in the loop over its rows, and what the cancellations say. -/
structure Sweep where
  selects : Approval → Bool
  overtakes : Approval → Bool
  by_ : String
  reason : String
  pending : ∀ row, selects row = true → row.status = .PENDING

namespace Sweep

/-- One passage of the loop; `clock` is what the clock shows when an approval is cancelled. -/
def passage (s : Sweep) (clock : String → Time) (row : Approval) : Act Approvals Exn Unit :=
  if s.overtakes row then do
    let _ ← Act.attempt (cancel row.request_id s.by_ s.reason (clock row.request_id))
    pure ()
  else pure ()

def run (s : Sweep) (clock : String → Time) : Act Approvals Exn Unit := do
  let rows ← Act.read fun a => a.rows.filter s.selects
  each (s.passage clock) rows

/-- Is this row cancelled? -/
def hits (s : Sweep) (row : Approval) : Bool := s.selects row && s.overtakes row

/-- The row after the sweep. -/
def swept (s : Sweep) (clock : String → Time) (row : Approval) : Approval :=
  if s.hits row then cancelled_row row s.by_ s.reason (clock row.request_id) else row

/-- The call that cancels a row. -/
def call (s : Sweep) (clock : String → Time) (row : Approval) : Call :=
  .cancel row.request_id s.by_ s.reason (clock row.request_id)

end Sweep

/-- `kind = … AND status = 'pending'` -/
def pending_of (kinds : List ApprovalKind) (row : Approval) : Bool :=
  kinds.contains row.kind && row.status == .PENDING

theorem pending_of_status {kinds : List ApprovalKind} {row : Approval} (h : pending_of kinds row = true) :
    row.status = .PENDING := eq_of_beq (Bool.and_eq_true_iff.mp h).2

def direct_governance (by_ : String) : Sweep where
  selects := pending_of [.HIRE, .ROLE_CHANGE, .FIRE_DEPTH_1]
  overtakes _ := true
  by_
  reason := "board_approval_no_longer_required"
  pending _ h := pending_of_status h

def _cancel_pending_direct_governance_approvals (by_ : String) (clock : String → Time) : Act Approvals Exn Unit :=
  (direct_governance by_).run clock

def role_changes (target_id by_ : String) (except_request_id : Option String) : Sweep where
  selects := pending_of [.ROLE_CHANGE]
  overtakes row :=
    -- `except_request_id and request_id == except_request_id`
    !(except_request_id.any fun rid => rid != "" && row.request_id == rid) &&
      row.payload.lookup "target_agent_id" == some (.str target_id)
  by_
  reason := "role_change_applied_directly"
  pending _ h := pending_of_status h

def _cancel_pending_role_change_approvals (target_id by_ : String) (except_request_id : Option String)
    (clock : String → Time) : Act Approvals Exn Unit := (role_changes target_id by_ except_request_id).run clock

/-- What the texts are compared with: `str.lower`, and `str` of a value that is no string. -/
structure Texts where
  lower : String → String
  repr : Json → String

def duplicate_hires (texts : Texts) (current_request_id : Option String) (role_title reports_to by_ : String) :
    Sweep where
  selects row := pending_of [.HIRE] row && current_request_id.all fun rid => row.request_id != rid
  overtakes row :=
    let title := py_str texts.repr ((row.payload.lookup "role_title").getD (.str ""))
    texts.lower (stripped title) == texts.lower (stripped role_title) &&
      row.payload.lookup "reports_to" == some (.str reports_to)
  by_
  reason :=
    match current_request_id with
    | none => "duplicate_hire:direct_hire"
    | some rid => if rid = "" then "duplicate_hire:direct_hire" else "duplicate_hire:" ++ rid
  pending _ h := pending_of_status (Bool.and_eq_true_iff.mp h).1

def _cancel_duplicate_hire_approvals (texts : Texts) (current_request_id role_title reports_to : Option String)
    (by_ : String) (clock : String → Time) : Act Approvals Exn Unit :=
  match role_title, reports_to with
  | some role_title, some reports_to =>
    if role_title = "" ∨ reports_to = "" then pure ()
    else (duplicate_hires texts current_request_id role_title reports_to by_).run clock
  | _, _ => pure ()

/-! ## What a sweep writes -/

section Swept

variable {s : Sweep} {clock : String → Time} {a : Approvals}

theorem step_cancel (request_id by_ reason : String) (now : Time) (a : Approvals) :
    step a (.cancel request_id by_ reason now) = (cancel request_id by_ reason now a).2 := by
  rw [step, handle, bind_pure_state]

theorem passage_eq (s : Sweep) (clock : String → Time) (row : Approval) (a : Approvals) :
    s.passage clock row a = (.ok (), if s.overtakes row then step a (s.call clock row) else a) := by
  unfold Sweep.passage
  split
  · rw [attempt_bind, Sweep.call, step_cancel]
    rfl
  · rfl

theorem each_passage (s : Sweep) (clock : String → Time) (rows : List Approval) : ∀ a,
    each (s.passage clock) rows a = (.ok (), exec step a ((rows.filter s.overtakes).map (s.call clock))) := by
  induction rows with
  | nil => exact fun _ => rfl
  | cons row rows ih =>
      intro a
      rw [each, bind_of_ok (passage_eq s clock row a), ih]
      cases hrow : s.overtakes row with
      | false => rw [List.filter_cons_of_neg (by simp [hrow]), if_neg Bool.false_ne_true]
      | true => rw [List.filter_cons_of_pos hrow, List.map_cons, exec_cons, if_pos rfl]

/-- A sweep is a run of cancellations, and it does not raise. -/
theorem run_eq (s : Sweep) (clock : String → Time) (a : Approvals) :
    s.run clock a = (.ok (), exec step a ((a.rows.filter s.hits).map (s.call clock))) := by
  show each (s.passage clock) (a.rows.filter s.selects) a = _
  have hfilter : (a.rows.filter s.selects).filter s.overtakes = a.rows.filter s.hits := by
    rw [List.filter_filter]
    exact List.filter_congr fun row _ => Bool.and_comm _ _
  rw [each_passage, hfilter]

/-- The cancellation of a pending row. -/
theorem cancel_rows {row : Approval} (hfind : find a.rows row.request_id = some row) (hpending : row.status = .PENDING) :
    (step a (s.call clock row)).rows =
      update a.rows row.request_id fun row' => cancelled_row row' s.by_ s.reason (clock row.request_id) := by
  rcases htx : cancel_tx row.request_id s.by_ s.reason (clock row.request_id) a.rows with e | ⟨r, notices, rows⟩
  · unfold cancel_tx at htx
    rw [hfind] at htx
    dsimp only at htx
    rw [if_neg (not_not_intro hpending)] at htx
    cases htx
  · obtain ⟨-, -, -, -, hrows⟩ := cancel_tx_ok htx
    rw [Sweep.call, step_cancel, cancel, (transact_rows htx).1, hrows]

/-- **The cancellations of pending rows** write exactly these. -/
theorem exec_cancels (s : Sweep) (clock : String → Time) (rows : List Approval) :
    ∀ a : Approvals, Keyed a.rows → (rows.map Approval.request_id).Nodup →
      (∀ row ∈ rows, find a.rows row.request_id = some row ∧ row.status = .PENDING) →
      (exec step a (rows.map (s.call clock))).rows = a.rows.map fun row =>
        if row ∈ rows then cancelled_row row s.by_ s.reason (clock row.request_id) else row := by
  induction rows with
  | nil =>
      intro a _ _ _
      simp
  | cons row rows ih =>
      intro a hkeys hnodup hrows
      rw [List.map_cons, List.nodup_cons] at hnodup
      obtain ⟨hfresh, hnodup⟩ := hnodup
      obtain ⟨hfind, hpending⟩ := hrows row List.mem_cons_self
      have hother : ∀ other ∈ rows, row.request_id ≠ other.request_id := fun other hmem heq =>
        hfresh (heq ▸ List.mem_map_of_mem hmem)
      have hafter : (step _ (s.call clock row)).rows = _ := cancel_rows hfind hpending
      rw [List.map_cons, exec_cons, ih _ (step_keyed _ hkeys) hnodup, hafter]
      · unfold update Table.update
        rw [List.map_map]
        refine List.map_congr_left fun other hmem => ?_
        by_cases heq : other.request_id = row.request_id
        · obtain rfl : other = row := by
            have hself := Table.find_of_mem hkeys hmem
            rw [heq] at hself
            exact Option.some.inj (hself.symm.trans hfind)
          -- the cancelled row has the id of no other row in the list
          have hnot : cancelled_row other s.by_ s.reason (clock other.request_id) ∉ rows :=
            fun hmem => hother _ hmem rfl
          simp [hnot]
        · have hne : other ≠ row := fun h => heq (congrArg Approval.request_id h)
          simp [heq, hne]
      · intro other hmem
        rw [hafter, find_update_row (f := fun row' => cancelled_row row' s.by_ s.reason (clock row.request_id))
          (fun _ => rfl), if_neg (hother other hmem)]
        exact hrows other (List.mem_cons_of_mem _ hmem)

/-- **What a sweep writes.** -/
theorem sweep_run (s : Sweep) (clock : String → Time) (hkeys : Keyed a.rows) :
    (s.run clock a).1 = .ok () ∧ (s.run clock a).2.rows = a.rows.map (s.swept clock) := by
  rw [run_eq]
  refine ⟨rfl, ?_⟩
  have hkeyed : ((a.rows.filter s.hits).map Approval.request_id).Nodup :=
    (List.filter_sublist.map Approval.request_id).nodup hkeys
  rw [exec_cancels s clock _ a hkeys hkeyed]
  · refine List.map_congr_left fun row hmem => ?_
    unfold Sweep.swept
    refine if_congr ?_ rfl rfl
    rw [List.mem_filter]
    exact and_iff_right hmem
  · intro row hmem
    obtain ⟨hmem, hhits⟩ := List.mem_filter.mp hmem
    exact ⟨Table.find_of_mem hkeys hmem, s.pending row (Bool.and_eq_true_iff.mp hhits).1⟩

end Swept

/-! ## What the subscribers are told -/

/-- What the subscribers have been told of the end of an approval is what the table says. -/
def Told (a : Approvals) : Prop := ∀ x ∈ a.broadcasts, x.status ≠ .PENDING → find a.rows x.request_id = some x

/-- Rows that have left `PENDING` are as they were, and what is broadcast is in the table. -/
def Tells (a b : Approvals) : Prop :=
  (∀ rid row, find a.rows rid = some row → row.status ≠ .PENDING → find b.rows rid = some row) ∧
    ∀ x ∈ b.broadcasts, x ∈ a.broadcasts ∨ find b.rows x.request_id = some x

theorem Told.tells {a b : Approvals} (h : Told a) (htells : Tells a b) : Told b := by
  intro x hx hended
  obtain ⟨hkept, hnew⟩ := htells
  rcases hnew x hx with hold | hfind
  · exact hkept _ x (h x hold hended) hended
  · exact hfind

theorem announce_broadcasts (notices : List Notice) : ∀ a : Approvals,
    ∀ x ∈ (announce notices a).2.broadcasts, x ∈ a.broadcasts ∨ ∃ n ∈ notices, n.approval = x := by
  induction notices with
  | nil => exact fun _ x hx => .inl hx
  | cons notice notices ih =>
      intro a x
      unfold announce
      rw [bind_run, append_events, on_run]
      rcases EventStore.appendAll notice.posts a.events with ⟨_ | _, events⟩
      · exact .inl
      · intro hx
        rcases ih _ x hx with hmem | ⟨n, hn, rfl⟩
        · rcases List.mem_append.mp hmem with hmem | hmem
          · exact .inl hmem
          · exact .inr ⟨notice, List.mem_cons_self, (List.mem_singleton.mp hmem).symm⟩
        · exact .inr ⟨n, List.mem_cons_of_mem _ hn, rfl⟩

/-- A transaction tells what it has written. -/
theorem transact_broadcasts {α : Type} {tx : ApprovalsConfig → Rows → Tx α} {a : Approvals}
    (h : ∀ r notices rows, tx a.config a.rows = .ok (r, notices, rows) →
      ∀ n ∈ notices, find rows n.approval.request_id = some n.approval) :
    ∀ x ∈ (transact tx a).2.broadcasts, x ∈ a.broadcasts ∨ find (transact tx a).2.rows x.request_id = some x := by
  rcases htx : tx a.config a.rows with e | ⟨r, notices, rows⟩
  · rw [transact_error htx]
    exact fun x hx => .inl hx
  · rw [(transact_rows htx).1]
    unfold transact
    rw [htx]
    intro x hx
    rcases announce_broadcasts notices _ x hx with hold | ⟨n, hn, rfl⟩
    · exact .inl hold
    · exact .inr (h r notices rows htx n hn)

/-- Unique ids, and subscribers that know what the table says. -/
def Sound (a : Approvals) : Prop := Keyed a.rows ∧ Told a

section Steps

variable {a : Approvals}

theorem request_tells (req : ApprovalRequest) (uuid : String) (now : Time) : Tells a (step a (.request req uuid now)) := by
  refine ⟨fun rid row hrow hended => step_frozen _ hrow hended, ?_⟩
  rw [step, handle, bind_pure_state]
  refine transact_broadcasts fun r notices rows htx => ?_
  unfold request_tx at htx
  cases hfind : find a.rows (or_new_id req.request_id uuid) with
  | some existing =>
      simp only [hfind] at htx
      cases htx
      exact List.forall_mem_nil _
  | none =>
      simp only [hfind] at htx
      cases htx
      refine List.forall_mem_singleton.mpr ?_
      show find (a.rows ++ [_]) (or_new_id req.request_id uuid) = _
      rw [find_append, hfind, if_pos (by rfl)]
      rfl

theorem decide_tells (request_id decider_id : String) (decision : Decision) (note : Option String) (now : Time) :
    Tells a (Approvals.decide request_id decider_id decision note now a).2 := by
  refine ⟨fun rid row hrow hended => ?_, ?_⟩
  · have hkept := step_frozen (.decide request_id decider_id decision note now) hrow hended
    rwa [step, handle, bind_pure_state] at hkept
  refine transact_broadcasts fun r notices rows htx => ?_
  unfold decide_tx at htx
  cases hfind : find a.rows request_id with
  | none =>
      rw [hfind] at htx
      cases htx
  | some row =>
      rw [hfind] at htx
      dsimp only at htx
      split at htx
      · split at htx
        · cases htx
          exact List.forall_mem_nil _
        · cases htx
      · cases htx
        refine List.forall_mem_singleton.mpr ?_
        dsimp only
        have hid := decided_row_id row decider_id decision note now
        rw [hid, Table.key_of_find hfind,
          find_update_row (fun row => decided_row_id row decider_id decision note now), if_pos rfl, hfind]
        rfl

theorem cancel_tells (request_id by_id reason : String) (now : Time) :
    Tells a (step a (.cancel request_id by_id reason now)) := by
  refine ⟨fun rid row hrow hended => step_frozen _ hrow hended, ?_⟩
  rw [step_cancel]
  refine transact_broadcasts fun r notices rows htx => ?_
  unfold cancel_tx at htx
  cases hfind : find a.rows request_id with
  | none =>
      rw [hfind] at htx
      cases htx
  | some row =>
      rw [hfind] at htx
      dsimp only at htx
      split at htx
      · cases htx
      · cases htx
        refine List.forall_mem_singleton.mpr ?_
        show find (update a.rows request_id fun row => cancelled_row row by_id reason now) row.request_id = _
        rw [find_update_row (f := fun row => cancelled_row row by_id reason now) (fun _ => rfl),
          Table.key_of_find hfind, if_pos rfl, hfind]
        rfl

theorem timeouts_tell (hkeys : Keyed a.rows) (now : Time) : Tells a (step a (.process_timeouts now)) := by
  refine ⟨fun rid row hrow hended => step_frozen _ hrow hended, ?_⟩
  rw [step, handle, bind_pure_state]
  refine transact_broadcasts fun r notices rows htx => ?_
  cases htx
  intro n hn
  obtain ⟨timed_out, hmem, rfl⟩ := List.mem_map.mp hn
  obtain ⟨row, hrow, rfl⟩ := List.mem_map.mp hmem
  obtain ⟨hrow, hexpired⟩ := List.mem_filter.mp hrow
  have hid : ∀ row : Approval, (if expired now row then timed_out_row a.config now row else row).request_id =
      row.request_id := by
    intro row
    split <;> rfl
  show find _ row.request_id = _
  unfold find
  rw [Table.find_update hid, Table.find_of_mem hkeys hrow, Option.map_some, if_pos hexpired]

theorem decide_sound (request_id decider_id : String) (decision : Decision) (note : Option String) (now : Time) :
    Moves (fun a b => Sound a → Sound b) (Approvals.decide request_id decider_id decision note now) :=
  fun _ h => ⟨decide_keyed h.1, h.2.tells (decide_tells request_id decider_id decision note now)⟩

theorem step_sound (c : Call) (h : Sound a) : Sound (step a c) := by
  obtain ⟨hkeys, htold⟩ := h
  cases c with
  | request req uuid now => exact ⟨step_keyed _ hkeys, htold.tells (request_tells req uuid now)⟩
  | decide request_id decider_id decision note now =>
      rw [step, handle, bind_pure_state]
      exact decide_sound request_id decider_id decision note now a ⟨hkeys, htold⟩
  | cancel request_id by_id reason now =>
      exact ⟨step_keyed _ hkeys, htold.tells (cancel_tells request_id by_id reason now)⟩
  | process_timeouts now => exact ⟨step_keyed _ hkeys, htold.tells (timeouts_tell hkeys now)⟩
  | review_approval agent_id approval findings llm_reviewer now =>
      rw [step, handle, bind_pure_state]
      refine review_moves (R := fun a b => Sound a → Sound b) (fun _ h => h) (fun _ _ _ h h' => h' ∘ h)
        decide_sound (fun _ _ _ h => h) agent_id approval findings llm_reviewer now a ⟨hkeys, htold⟩

theorem run_sound (h : Sound a) (calls : List Call) : Sound (exec step a calls) :=
  exec_invariant (fun _ c h => step_sound c h) h calls

end Steps

theorem swept_id (s : Sweep) (clock : String → Time) (row : Approval) : (s.swept clock row).request_id = row.request_id := by
  unfold Sweep.swept
  split <;> rfl

/-- A cancelled row is none that a sweep looks for. -/
theorem hits_swept (s : Sweep) (clock : String → Time) (row : Approval) : s.hits (s.swept clock row) = false := by
  unfold Sweep.swept
  split
  · refine Bool.eq_false_iff.mpr fun hhits => ?_
    have hpending := s.pending _ (Bool.and_eq_true_iff.mp hhits).1
    cases hpending
  · exact Bool.eq_false_iff.mpr ‹_›

/-- **Overtaken approvals are never approved.** In every state that the service can reach, a sweep returns; it cancels
    the rows that it overtakes and leaves none of them, and it writes no other row. In every run from there on an
    overtaken row stays as the sweep has left it, and nothing that the subscribers have been handed approves it. -/
theorem overtaken_never_approved (config : ApprovalsConfig) (events : EventStore) (before : List Call) (s : Sweep)
    (clock : String → Time) (after : List Call) :
    let a := exec step (fresh config events) before
    let b := (s.run clock a).2
    (s.run clock a).1 = .ok () ∧ b.rows = a.rows.map (s.swept clock) ∧ (∀ row ∈ b.rows, s.hits row = false) ∧
      ∀ row ∈ a.rows, s.hits row = true →
        find (exec step b after).rows row.request_id = some (s.swept clock row) ∧
          ∀ x ∈ (exec step b after).broadcasts, x.request_id = row.request_id → x.status ≠ .APPROVED := by
  intro a b
  have hfresh : Sound (fresh config events) := ⟨List.nodup_nil, fun x hx => absurd hx List.not_mem_nil⟩
  have hsound : Sound a := run_sound hfresh before
  obtain ⟨hok, hrows⟩ := sweep_run s clock hsound.1
  refine ⟨hok, hrows, ?_, ?_⟩
  · intro row hrow
    rw [show b.rows = _ from hrows] at hrow
    obtain ⟨row, -, rfl⟩ := List.mem_map.mp hrow
    exact hits_swept s clock row
  · intro row hrow hhits
    have hswept : s.swept clock row = cancelled_row row s.by_ s.reason (clock row.request_id) := if_pos hhits
    have hfind : find b.rows row.request_id = some (s.swept clock row) := by
      rw [show b.rows = _ from hrows]
      unfold find
      rw [Table.find_update (swept_id s clock), Table.find_of_mem hsound.1 hrow]
      rfl
    have hended : (s.swept clock row).status ≠ .PENDING := by
      rw [hswept]
      exact ApprovalStatus.noConfusion
    have hlater := run_frozen after hfind hended
    refine ⟨hlater, fun x hx hid happroved => ?_⟩
    have hsound' : Sound (exec step b after) := by
      refine run_sound ?_ after
      rw [show b = _ from congrArg Prod.snd (run_eq s clock a)]
      exact run_sound hsound _
    have hsame := hsound'.2 x hx (by rw [happroved]; exact ApprovalStatus.noConfusion)
    rw [hid, hlater, hswept] at hsame
    cases hsame
    cases happroved

end Approvals

end CompanyFactory
