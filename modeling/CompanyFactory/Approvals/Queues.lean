import CompanyFactory.Approvals.Veto
import Mathlib.Data.List.Sort

/-!
# `Approvals.Queues` — who sees a pending approval

`pending_for` has two queries. The one of Security asks for the approvals whose security leg is open; the one of
every other decider asks for its route, with the security leg closed or not needed. A decider whose target is
`SECURITY` always gets the first query, so an approval that is *routed* to Security, and needs no pre-veto, is in no
list at all.

* `shows_iff` — whose list an approval is in, for every pending row.
* `visible_iff` — exactly one list, unless the route leads to Security.
-/

namespace CompanyFactory

/-- The kind and the id of a decider. -/
abbrev ApprovalRoute.decider (route : ApprovalRoute) : RouteTarget × Option String :=
  (route.target, route.agent_id)

namespace Approvals

open Machine

/-- `ORDER BY created_at` -/
def by_created (rows : List Approval) : List Approval :=
  rows.insertionSort (fun x y => x.created_at ≤ y.created_at)

/-- The approvals that wait for the decider. -/
def pending_for (rows : Rows) (decider : ApprovalRoute) : List Approval :=
  if decider.target = .SECURITY then
    by_created (rows.filter (fun row =>
      row.status == .PENDING && row.require_security && row.security_decision.isNone))
  else
    by_created (rows.filter (fun row =>
      row.status == .PENDING && row.route.encode_target == decider.encode_target &&
        (!row.require_security || row.security_decision.isSome)))

theorem mem_by_created {rows : List Approval} {row : Approval} : row ∈ by_created rows ↔ row ∈ rows :=
  List.mem_insertionSort _

/-- The route that differs at most in the pre-veto. -/
def bare (route : ApprovalRoute) : ApprovalRoute := route.requiring false (by simp)

/-- The stored text names the decider: two routes with one text have the same kind and id. -/
theorem encode_target_inj {r s : ApprovalRoute} : r.encode_target = s.encode_target ↔ r.decider = s.decider := by
  constructor
  · intro h
    -- both texts read back as the routes without the pre-veto
    have hr : ApprovalRoute.decode r.encode_target false = .ok (bare r) :=
      ApprovalRoute.decode_encode_target (bare r)
    have hs : ApprovalRoute.decode s.encode_target false = .ok (bare s) :=
      ApprovalRoute.decode_encode_target (bare s)
    rw [h, hs] at hr
    have hbare : bare s = bare r := Except.ok.inj hr
    have htarget : (bare s).target = (bare r).target := congrArg ApprovalRoute.target hbare
    have hid : (bare s).agent_id = (bare r).agent_id := congrArg ApprovalRoute.agent_id hbare
    exact Prod.ext htarget.symm hid.symm
  · intro h
    obtain ⟨htarget, hid⟩ := Prod.mk.inj h
    unfold ApprovalRoute.encode_target
    rw [htarget, hid]

/-- The approval is in the list of the decider. -/
def Shows (rows : Rows) (row : Approval) (who : RouteTarget × Option String) : Prop :=
  ∃ decider : ApprovalRoute, decider.decider = who ∧ row ∈ pending_for rows decider

/-- Whose turn it is: Security's while its leg is open, then the route target's. -/
def turn (row : Approval) : RouteTarget × Option String :=
  if in_security_step row then (.SECURITY, none) else row.route.decider

/-- The decider that is Security. -/
def security_route : ApprovalRoute := { target := .SECURITY, valid := by decide }

section Row

variable {rows : Rows} {row : Approval}

theorem mem_pending_security {decider : ApprovalRoute} (hd : decider.target = .SECURITY) (hrow : row ∈ rows)
    (hp : row.status = .PENDING) : row ∈ pending_for rows decider ↔ in_security_step row = true := by
  rw [pending_for, if_pos hd, mem_by_created, List.mem_filter]
  unfold in_security_step
  cases row.security_decision <;> simp [hrow, hp]

theorem mem_pending_other {decider : ApprovalRoute} (hd : decider.target ≠ .SECURITY) (hrow : row ∈ rows)
    (hp : row.status = .PENDING) :
    row ∈ pending_for rows decider ↔ row.route.decider = decider.decider ∧ in_security_step row = false := by
  rw [pending_for, if_neg hd, mem_by_created, List.mem_filter, Bool.and_eq_true, Bool.and_eq_true,
    beq_iff_eq, beq_iff_eq, encode_target_inj]
  unfold in_security_step
  cases row.require_security <;> cases row.security_decision <;> simp [hrow, hp]

/-- **Whose list.** A pending approval is in the list of the decider whose turn it is, and in no other one; but an
    approval that is routed to Security is in none. -/
theorem shows_iff (hrow : row ∈ rows) (hp : row.status = .PENDING) (who : RouteTarget × Option String) :
    Shows rows row who ↔ row.route.target ≠ .SECURITY ∧ who = turn row := by
  unfold turn
  cases hstep : in_security_step row with
  | true =>
      -- a pre-veto is never asked for on the way to Security
      have htarget : row.route.target ≠ .SECURITY := by
        intro htarget
        have hreq : row.require_security = true := (Bool.and_eq_true_iff.mp hstep).1
        obtain ⟨ht, -⟩ | ⟨ht, -⟩ | ⟨-, -, hno⟩ := ApprovalRoute.valid_iff.mp row.route.valid
        · simp [htarget] at ht
        · simp [htarget] at ht
        · simp [hno] at hreq
      simp only [if_true, ne_eq, htarget, not_false_eq_true, true_and]
      constructor
      · rintro ⟨decider, rfl, hmem⟩
        by_cases hd : decider.target = .SECURITY
        · obtain ⟨ht, -⟩ | ⟨ht, -⟩ | ⟨-, hid, -⟩ := ApprovalRoute.valid_iff.mp decider.valid
          · simp [hd] at ht
          · simp [hd] at ht
          · exact Prod.ext hd hid
        · rw [mem_pending_other hd hrow hp, hstep] at hmem
          cases hmem.2
      · rintro rfl
        exact ⟨security_route, rfl, (mem_pending_security rfl hrow hp).mpr hstep⟩
  | false =>
      simp only [Bool.false_eq_true, if_false]
      constructor
      · rintro ⟨decider, rfl, hmem⟩
        by_cases hd : decider.target = .SECURITY
        · rw [mem_pending_security hd hrow hp, hstep] at hmem
          cases hmem
        · obtain ⟨hsame, -⟩ := (mem_pending_other hd hrow hp).mp hmem
          have htarget : row.route.target = decider.target := congrArg Prod.fst hsame
          exact ⟨htarget ▸ hd, hsame.symm⟩
      · rintro ⟨htarget, rfl⟩
        exact ⟨row.route, rfl, (mem_pending_other htarget hrow hp).mpr ⟨rfl, hstep⟩⟩

end Row

/-- **One decider at a time.** In every reachable table, a pending approval is in the list of exactly one decider,
    Security's while its leg is open and the route target's after that, exactly if its route does not lead to
    Security; an approval that is routed to Security is in no list. -/
theorem visible_iff (config : ApprovalsConfig) (events : EventStore) (calls : List Call) (row : Approval)
    (hrow : row ∈ (exec step (fresh config events) calls).rows) (hp : row.status = .PENDING) :
    ((∃! who, Shows (exec step (fresh config events) calls).rows row who) ↔ row.route.target ≠ .SECURITY) ∧
    (∀ who, Shows (exec step (fresh config events) calls).rows row who → who = turn row) := by
  have hshows := shows_iff hrow hp
  refine ⟨⟨?_, ?_⟩, fun who h => ((hshows who).mp h).2⟩
  · rintro ⟨who, hwho, -⟩
    exact ((hshows who).mp hwho).1
  · intro htarget
    refine ⟨turn row, (hshows _).mpr ⟨htarget, rfl⟩, ?_⟩
    intro who hwho
    exact ((hshows who).mp hwho).2

/-- The external action that waits for Security is in Security's list only. -/
theorem external_action_visible :
    ∃! who, Shows (exec step (fresh {} .quiet) [.request external_action "" 0]).rows
      (new_row {} external_action "x1" 0) who :=
  ((visible_iff {} .quiet [.request external_action "" 0] (new_row {} external_action "x1" 0)
    (List.mem_singleton_self _) rfl).1).mpr (by decide)

/-- A role change to be decided by Security. -/
def for_security : ApprovalRequest :=
  { kind := .ROLE_CHANGE, requester_id := "eng-1", payload := [], route := security_route,
    request_id := some "s1" }

/-- It is pending, and nobody sees it. -/
theorem routed_to_security_unseen :
    find (exec step (fresh {} .quiet) [.request for_security "" 0]).rows "s1" =
        some (new_row {} for_security "s1" 0) ∧
      (new_row {} for_security "s1" 0).status = .PENDING ∧
      ∀ who, ¬ Shows (exec step (fresh {} .quiet) [.request for_security "" 0]).rows
        (new_row {} for_security "s1" 0) who := by
  refine ⟨rfl, rfl, fun who h => ?_⟩
  exact ((shows_iff (List.mem_singleton_self _) rfl who).mp h).1 rfl

end Approvals

end CompanyFactory
