import CompanyFactory.BoardApi.Links
import CompanyFactory.Lib.Clients

/-!
# `BoardApi.LinkClients` — decisions about a link by several clients

`decide`, `suspend`, `resume` and `revoke` read the status of the link in one transaction and write it in another,
and the `UPDATE` asks for the id alone. Between the two, calls of other clients can fall. `check` and `update` are
the two sections; one after the other they are the call (`run_eq`).

`REVOKED` and `DENIED` are where no call leads away from. The bulk revocation has the status in the `WHERE` of its
`UPDATE` and keeps them; an `update` that comes late does not.
-/

namespace CompanyFactory

open Act Machine

namespace Board

open BoardApi

/-! ## The two sections of a call -/

/-- What the message of the refusal starts with. -/
def Call.refusal : Call → String
  | .decide _ _ => "link_not_pending"
  | .suspend _ _ _ => "link_not_active"
  | .resume _ _ => "link_not_suspended"
  | .revoke _ _ _ => "link_not_revocable"

/-- Only two decisions are known. -/
def Call.validate : Call → Except Exn Unit
  | .decide decision _ =>
    if decision ≠ "approve" ∧ decision ≠ "deny" then
      .error (.other "ValidationFailed" ("unknown_decision:" ++ decision))
    else .ok ()
  | _ => .ok ()

/-- The first section: the decision must be known, and the status that is read must allow the call. -/
def check (link_id : String) (call : Call) : Act Board Exn Unit := do
  Act.ofExcept call.validate
  let link ← get_link link_id
  if !call.allowed link.status then
    Act.raise (.other "Conflict" (call.refusal ++ ":" ++ link.status.value))
  else pure ()

/-- What a call does once its row is written. -/
def Call.announce (updated : Link) : Call → Act Board Exn Link
  | .decide decision stamp =>
    if new_status decision = .APPROVED then do
      emit_to_both (link_approved updated stamp.by_) updated
      pure updated
    else pure updated
  | _ => pure updated

/-- The second section: the `UPDATE`, with the id alone in its `WHERE`. -/
def update (link_id : String) (call : Call) : Act Board Exn Link := do
  write_links (set_status link_id call.target call.stamp)
  let updated ← get_link link_id
  call.announce updated

section Sections

variable (b : Board) (link_id : String) (call : Call)

/-- **What the check lets through.** -/
theorem check_cases :
    (∃ link, call.known = true ∧ find_link b.links link_id = some link ∧ call.allowed link.status = true ∧
      check link_id call b = (.ok (), b)) ∨
    ∃ e, check link_id call b = (.error e, b) := by
  have hvalid : call.validate = .ok () ∧ call.known = true ∨ ∃ e, call.validate = .error e := by
    cases call with
    | decide decision stamp =>
        by_cases hno : decision ≠ "approve" ∧ decision ≠ "deny"
        · exact .inr ⟨_, if_pos hno⟩
        · refine .inl ⟨if_neg hno, ?_⟩
          simpa [Call.known, or_iff_not_imp_left] using hno
    | suspend | resume | revoke => exact .inl ⟨rfl, rfl⟩
  obtain ⟨hvalid, hknown⟩ | ⟨e, hvalid⟩ := hvalid
  case inr => exact .inr ⟨e, by rw [check, hvalid]; rfl⟩
  rw [check, hvalid, ofExcept_ok_bind]
  cases hrow : find_link b.links link_id with
  | none =>
      have hget : get_link link_id b = (.error (.other "LinkNotFound" link_id), b) := by
        rw [get_link, hrow]
      exact .inr ⟨_, bind_of_error hget⟩
  | some link =>
      have hget : get_link link_id b = (.ok link, b) := by rw [get_link, hrow]
      rw [bind_of_ok hget]
      cases hallowed : call.allowed link.status with
      | true => exact .inl ⟨link, hknown, rfl, hallowed, rfl⟩
      | false => exact .inr ⟨_, rfl⟩

/-- What the second section makes of the links. -/
theorem update_links : (update link_id call b).2.links =
    if Consistent (set_status link_id call.target call.stamp b.links) then
      set_status link_id call.target call.stamp b.links
    else b.links := by
  by_cases hroom : Consistent (set_status link_id call.target call.stamp b.links)
  · -- what follows the `UPDATE` reads the link and announces it
    have hwrite : write_links (set_status link_id call.target call.stamp) b =
        (.ok (), { b with links := set_status link_id call.target call.stamp b.links }) := if_pos hroom
    rw [update, bind_of_ok hwrite, if_pos hroom]
    refine bind_after (P := fun b' : Board => b'.links = set_status link_id call.target call.stamp b.links) ?_ ?_
    · unfold get_link
      split <;> rfl
    · intro updated b' hget
      have hsame : b'.links = set_status link_id call.target call.stamp b.links := by
        unfold get_link at hget
        split at hget <;> cases hget
        rfl
      have hannounce : SameLinks b' (call.announce updated b').2 := by
        cases call with
        | decide decision stamp =>
            show SameLinks b' ((if new_status decision = .APPROVED then _ else _ : Act Board Exn Link) b').2
            split
            · rw [bind_pure_state]
              exact emit_to_both_same _ _ b'
            · exact .refl b'
        | suspend | resume | revoke => exact .refl b'
      exact hannounce.1.trans hsame
  · have hwrite : write_links (set_status link_id call.target call.stamp) b = (.error integrity_error, b) :=
      if_neg hroom
    rw [update, bind_of_error hwrite, if_neg hroom]

/-- A call is its transition, with its announcement behind it. -/
theorem run_transition : call.run link_id b = (do
    Act.ofExcept call.validate
    let updated ← transition call.allowed call.refusal call.target link_id call.stamp
    call.announce updated) b := by
  have hquiet (m : Act Board Exn Link) : m b = (m >>= fun updated => pure updated) b := by
    rw [bind_run]
    rcases m b with ⟨_ | _, _⟩ <;> rfl
  cases call with
  | decide decision stamp =>
      show Board.decide link_id decision stamp b = _
      by_cases hno : decision ≠ "approve" ∧ decision ≠ "deny"
      · rw [Board.decide, if_pos hno, Call.validate, if_pos hno]
        rfl
      · rw [Board.decide, if_neg hno, Call.validate, if_neg hno]
        rfl
  | suspend by_ reason now => exact hquiet (Board.suspend link_id by_ reason now)
  | resume by_ now => exact hquiet (Board.resume link_id by_ now)
  | revoke by_ reason now => exact hquiet (Board.revoke link_id by_ reason now)

/-- **Check, then update**: one after the other they are the call. -/
theorem run_eq : call.run link_id b = (do
    check link_id call
    update link_id call) b := by
  rw [run_transition]
  cases hvalid : call.validate with
  | error e =>
      rw [check, hvalid]
      rfl
  | ok _ =>
      rw [check, hvalid, ofExcept_ok_bind, ofExcept_ok_bind]
      cases hrow : find_link b.links link_id with
      | none =>
          have hget : get_link link_id b = (.error (.other "LinkNotFound" link_id), b) := by
            rw [get_link, hrow]
          have hcheck := bind_of_error hget (f := fun link => if !call.allowed link.status then
            Act.raise (.other "Conflict" (call.refusal ++ ":" ++ link.status.value)) else pure ())
          rw [bind_of_error hcheck, transition, bind_of_error (bind_of_error hget)]
      | some link =>
          have hget : get_link link_id b = (.ok link, b) := by rw [get_link, hrow]
          rw [bind_run, transition, bind_of_ok hget, bind_run, bind_of_ok hget]
          cases call.allowed link.status with
          | false => rfl
          | true =>
              rw [if_neg (by simp), if_neg (by simp), pure_run]
              show _ = update link_id call b
              rw [update, bind_run, bind_run]
              rcases write_links (set_status link_id call.target call.stamp) b with ⟨_ | _, b'⟩
              · rfl
              · rfl

end Sections

/-! ## Interleavings -/

/-- What is left of a call. -/
inductive Section where
  | check (link_id : String) (call : Call)
  | update (link_id : String) (call : Call)
  deriving DecidableEq

def advance (b : Board) : Section → Board × Option Section
  | .check link_id call =>
    match check link_id call b with
    | (.ok (), b') => (b', some (.update link_id call))
    | (.error _, b') => (b', none)
  | .update link_id call => ((update link_id call).after b, none)

/-- No call leads away from these. -/
def terminal (status : LinkStatus) : Bool := status = .REVOKED || status = .DENIED

/-- A link that has become `REVOKED` or `DENIED` in the first table has that status in the second. -/
def Absorbed (b b' : Board) : Prop :=
  ∀ link_id link, find_link b.links link_id = some link → terminal link.status = true →
    ∃ link', find_link b'.links link_id = some link' ∧ link'.status = link.status

/-- **In time.** The section is no `UPDATE` of a link that is `REVOKED` or `DENIED` by now; or it writes the status
    that the link has, or finds no room in the table. -/
def InTime (b : Board) : Section → Prop
  | .check _ _ => True
  | .update link_id call => ∀ link, find_link b.links link_id = some link → terminal link.status = true →
      call.target = link.status ∨ ¬ Consistent (set_status link_id call.target call.stamp b.links)

theorem Absorbed.refl (b : Board) : Absorbed b b := fun _ link hrow _ => ⟨link, hrow, rfl⟩

theorem Absorbed.trans (b b' b'' : Board) (h : Absorbed b b') (h' : Absorbed b' b'') : Absorbed b b'' := by
  intro link_id link hrow hterminal
  obtain ⟨link', hrow', hstatus⟩ := h link_id link hrow hterminal
  obtain ⟨link'', hrow'', hstatus'⟩ := h' link_id link' hrow' (hstatus ▸ hterminal)
  exact ⟨link'', hrow'', hstatus'.trans hstatus⟩

/-- No call is allowed at the end of the state machine. -/
theorem not_terminal_of_allowed {call : Call} {status : LinkStatus} (h : call.allowed status = true) :
    terminal status = false := by
  cases call <;> cases status <;> first | rfl | cases h

/-- An update keeps the ended links exactly if it is in time. -/
theorem absorbed_section (b : Board) (s : Section) : InTime b s ↔ Absorbed b (advance b s).1 := by
  cases s with
  | check link_id call =>
      have hsame : (advance b (.check link_id call)).1 = b := by
        obtain ⟨link, -, -, -, hcheck⟩ | ⟨e, hcheck⟩ := check_cases b link_id call <;>
          simp only [advance, hcheck]
      rw [hsame]
      exact iff_of_true trivial (.refl b)
  | update link_id call =>
      have hlinks : (advance b (.update link_id call)).1.links = _ := update_links b link_id call
      unfold Absorbed
      rw [hlinks]
      by_cases hroom : Consistent (set_status link_id call.target call.stamp b.links)
      · rw [if_pos hroom]
        constructor
        · -- only the row of the call can change its status
          intro hintime x link hrow hterminal
          rw [find_set_status]
          by_cases hx : link_id = x
          · subst hx
            obtain hsame | hfull := hintime link hrow hterminal
            · rw [if_pos rfl, hrow]
              exact ⟨_, rfl, hsame⟩
            · exact absurd hroom hfull
          · rw [if_neg hx]
            exact ⟨link, hrow, rfl⟩
        · intro habsorbed link hrow hterminal
          obtain ⟨link', hrow', hstatus⟩ := habsorbed link_id link hrow hterminal
          rw [find_set_status, if_pos rfl, hrow] at hrow'
          obtain rfl := Option.some.inj hrow'
          exact .inl hstatus
      · rw [if_neg hroom]
        exact iff_of_true (fun _ _ _ => .inr hroom) (Absorbed.refl b)

/-- Calls that run as a whole keep the ended links, and so does everything else. -/
theorem absorbed_step (b : Board) (label : Label) : Absorbed b (step b label) := by
  intro x link hrow hterminal
  have hwritten := step_written b label
  generalize (Board.step b label).links = links at hwritten ⊢
  cases hwritten with
  | kept => exact ⟨link, hrow, rfl⟩
  | requested => exact ⟨link, Table.find_insert_of_some hrow, rfl⟩
  | moved link_id call row hgrants =>
      rw [find_set_status]
      by_cases hx : link_id = x
      · subst hx
        obtain rfl := Option.some.inj (hrow.symm.trans hgrants.row)
        simp [not_terminal_of_allowed hgrants.allowed] at hterminal
      · rw [if_neg hx]
        exact ⟨link, hrow, rfl⟩
  | revoked company_id by_ now =>
      refine ⟨cut_off company_id by_ now link, by rw [find_cut_off, hrow]; rfl, ?_⟩
      -- the bulk `UPDATE` asks for a live status
      have hdead : live_at company_id link = false := by
        unfold live_at
        cases hstatus : link.status <;> simp [terminal, hstatus] at hterminal ⊢
      rw [cut_off, if_neg (by simp [hdead])]

/-- **The end of the state machine, under concurrency.** In every interleaving of the sections of decisions by any
    number of clients, with anything else that happens on the board: a link that has become `REVOKED` or `DENIED`
    never has another status later, exactly if every `UPDATE` is in time. -/
theorem terminal_absorbing_iff (b : Board) (run : List (Clients.Label Section Label)) :
    Along (Clients.step advance step) (Clients.Runs InTime) (Clients.idle b) run ↔
      ∀ pre mid post, run = pre ++ mid ++ post →
        Absorbed (exec (Clients.step advance step) (Clients.idle b) pre).shared
          (exec (Clients.step advance step) (Clients.idle b) (pre ++ mid)).shared :=
  Clients.always_iff Absorbed.refl Absorbed.trans absorbed_section absorbed_step run (Clients.idle b)

/-- A call whose sections follow each other is the call. -/
theorem solo_call (b : Board) (client : Nat) (link_id : String) (call : Call) :
    ∃ n, exec (Clients.step advance step) (Clients.idle b)
        (.start client (.check link_id call) :: List.replicate n (.go client)) =
      Clients.idle (call.run link_id b).2 := by
  rw [run_eq]
  obtain ⟨link, -, -, -, hcheck⟩ | ⟨e, hcheck⟩ := check_cases b link_id call
  · have hfirst : advance b (.check link_id call) = (b, some (.update link_id call)) := by
      simp only [advance, hcheck]
    have hsecond : advance b (.update link_id call) = ((update link_id call b).2, none) := rfl
    rw [bind_of_ok hcheck]
    exact ⟨2, Clients.solo (.more hfirst (.last hsecond)) rfl rfl⟩
  · have hfirst : advance b (.check link_id call) = (b, none) := by simp only [advance, hcheck]
    rw [bind_of_error hcheck]
    exact ⟨1, Clients.solo (.last hfirst) rfl rfl⟩

/-- A link from `A` to `B` that has been approved. -/
def approved_board : Board :=
  { links := [decided .APPROVED { by_ := "board", now := 1, note := none } (requested "L1" 0
      { from_company := "A", to_company := "B", relationship := .PEER, scope := {}, requested_by := "board" })]
    companies := fun _ => some .ACTIVE
    handles := fun _ => none }

/-- One client suspends the link while another one revokes it: the suspension comes last. -/
def late_suspension : List (Clients.Label Section Label) :=
  [.start 1 (.check "L1" (.suspend "alice" "too many messages" 2)), .go 1,
    .start 2 (.check "L1" (.revoke "bob" "misuse" 3)), .go 2, .go 2, .go 1]

/-- The revoked link is suspended, and a `resume` makes it live again. -/
theorem revoked_link_returns :
    ¬ Absorbed (exec (Clients.step advance step) (Clients.idle approved_board) (late_suspension.take 5)).shared
      (exec (Clients.step advance step) (Clients.idle approved_board) late_suspension).shared ∧
    (find_link (exec (Clients.step advance step) (Clients.idle approved_board)
      (late_suspension ++ [.other (.call "L1" (.resume "alice" 4))])).shared.links "L1").map Link.status =
        some .APPROVED := by
  have hrevoked : ∃ link, find_link (exec (Clients.step advance step) (Clients.idle approved_board)
      (late_suspension.take 5)).shared.links "L1" = some link ∧ link.status = .REVOKED := by
    simpa only [Option.map_eq_some_iff] using (by decide +kernel : (find_link (exec (Clients.step advance step)
      (Clients.idle approved_board) (late_suspension.take 5)).shared.links "L1").map Link.status = some .REVOKED)
  have hsuspended : (find_link (exec (Clients.step advance step) (Clients.idle approved_board)
      late_suspension).shared.links "L1").map Link.status = some .SUSPENDED := by decide +kernel
  refine ⟨fun habsorbed => ?_, by decide +kernel⟩
  obtain ⟨link, hrow, hstatus⟩ := hrevoked
  obtain ⟨link', hrow', hstatus'⟩ := habsorbed "L1" link hrow (by rw [hstatus]; rfl)
  rw [hrow', Option.map_some, hstatus', hstatus] at hsuspended
  cases hsuspended

end Board

end CompanyFactory
