import CompanyFactory.BoardApi.LinkMachine

/-!
# `BoardApi.Disconnect` — the links of a closed company

`revoke_for_company` takes the approved and the suspended links of a company away. **A link that still waits
stays**, and `decide` does not ask whether the two companies are open: an approval after the closing connects the
closed company again.

`Watched` is the board with the closed companies for which the bulk revocation has run. A company that is opened
again, or created under an old id, is not watched any more.

* `closed_disconnected` — in a run, no watched company ever has an approved link, if and only if no waiting (or
  suspended) link of a watched company is approved, and no bulk revocation with an approved link to take is refused
  by the constraint of the table.
-/

namespace CompanyFactory

open Act Machine

namespace Board

open BoardApi

structure Watched where
  board : Board
  /-- closed companies for which `revoke_for_company` has run -/
  disconnected : List String

/-- The company whose links a step takes away, if it is closed. -/
def cuts_off (b : Board) : Label → List String
  | .revoke_for_company company_id _ _ => if b.closed company_id then [company_id] else []
  | _ => []

def watch (w : Watched) (label : Label) : Watched :=
  { board := step w.board label
    disconnected := (cuts_off w.board label ++ w.disconnected).filter (step w.board label).closed }

/-- **No approved link of a watched company.** -/
def Apart (w : Watched) : Prop :=
  ∀ company_id ∈ w.disconnected, ∀ link ∈ w.board.links, link.touches company_id = true →
    link.status ≠ .APPROVED

/-- The step approves no link of a watched company, and refuses no bulk revocation that has to take one. -/
def keeps_apart (w : Watched) : Label → Prop
  | .call link_id call => call.target = .APPROVED → ∀ link, find_link w.board.links link_id = some link →
      call.allowed link.status = true → ∀ company_id ∈ w.disconnected, link.touches company_id = false
  | .revoke_for_company company_id _ _ => w.board.closed company_id = true →
      Separate w.board.links company_id ∨
        ∀ link ∈ w.board.links, link.touches company_id = true → link.status ≠ .APPROVED
  | _ => True

/-- What a run keeps: consistent links, watched companies that are closed, and none of their links approved. -/
structure Guarded (w : Watched) : Prop where
  consistent : Consistent w.board.links
  ended : ∀ company_id ∈ w.disconnected, w.board.closed company_id = true
  apart : Apart w

variable {w : Watched} {link : Link}

theorem mem_disconnected {label : Label} {company_id : String}
    (h : company_id ∈ (watch w label).disconnected) :
    company_id ∈ cuts_off w.board label ∨ company_id ∈ w.disconnected :=
  List.mem_append.mp (List.mem_of_mem_filter h)

theorem mem_cuts_off {b : Board} {company_id by_ x : String} {now : Time} :
    x ∈ cuts_off b (.revoke_for_company company_id by_ now) ↔
      x = company_id ∧ b.closed company_id = true := by
  show x ∈ (if b.closed company_id then [company_id] else []) ↔ _
  cases b.closed company_id <;> simp

/-! ## One step -/

/-- A call that gives the status approves a link of its own row. -/
theorem Apart.moved (h : Guarded w) {link_id : String} {call : Call}
    (hgrants : Grants w.board link_id call link) (hkeeps : keeps_apart w (.call link_id call))
    {company_id : String} (hwatched : company_id ∈ w.disconnected) :
    ∀ other ∈ set_status link_id call.target call.stamp w.board.links,
      other.touches company_id = true → other.status ≠ .APPROVED := by
  intro other' hmem' htouches
  obtain ⟨other, hmem, rfl⟩ := List.mem_map.mp hmem'
  by_cases hid : other.id = link_id
  · rw [if_pos hid] at htouches ⊢
    have hrow := find_of_mem h.consistent hmem
    rw [hid, hgrants.row] at hrow
    cases hrow
    intro htarget
    have hno := hkeeps htarget link hgrants.row hgrants.allowed company_id hwatched
    have hyes : link.touches company_id = true := htouches
    rw [hno] at hyes
    cases hyes
  · rw [if_neg hid] at htouches ⊢
    exact h.apart company_id hwatched other hmem htouches

/-- The bulk revocation leaves no approved link of its company, and approves none. -/
theorem Apart.revoked (h : Apart w) (company_id by_ : String) (now : Time) {x : String}
    (hx : x = company_id ∨ x ∈ w.disconnected) :
    ∀ other ∈ w.board.links.map (cut_off company_id by_ now), other.touches x = true →
      other.status ≠ .APPROVED := by
  intro other' hmem' htouches
  obtain ⟨other, hmem, rfl⟩ := List.mem_map.mp hmem'
  unfold Link.touches at htouches
  rw [cut_off_from, cut_off_to] at htouches
  change other.touches x = true at htouches
  unfold cut_off
  split
  · exact nofun
  · rename_i hdead
    rcases hx with rfl | hwatched
    · intro hstatus
      exact hdead (by simp [live_at, htouches, hstatus])
    · exact h x hwatched other hmem htouches

theorem Guarded.step (h : Guarded w) {label : Label} (hkeeps : keeps_apart w label) :
    Guarded (watch w label) := by
  refine ⟨h.consistent.step label, fun x hx => (List.mem_filter.mp hx).2, fun x hx => ?_⟩
  have hwatched := mem_disconnected hx
  show ∀ link ∈ (Board.step w.board label).links, _
  have hwritten := step_written w.board label
  cases label with
  | request link_id now req =>
      have hold := hwatched.resolve_left List.not_mem_nil
      generalize (Board.step w.board (.request link_id now req)).links = links at hwritten ⊢
      cases hwritten with
      | kept => exact h.apart x hold
      | requested _ _ _ _ =>
          intro link hmem htouches
          rcases List.mem_append.mp hmem with hmem | hlast
          · exact h.apart x hold link hmem htouches
          · rw [List.mem_singleton.mp hlast]
            exact nofun
  | call link_id call =>
      have hold := hwatched.resolve_left List.not_mem_nil
      generalize (Board.step w.board (.call link_id call)).links = links at hwritten ⊢
      cases hwritten with
      | kept => exact h.apart x hold
      | moved _ _ link hgrants => exact Apart.moved h hgrants hkeeps hold
  | revoke_for_company company_id by_ now =>
      have hx := hwatched.imp_left mem_cuts_off.mp
      show ∀ link ∈ (revoke_for_company company_id by_ now w.board).2.links, _
      obtain ⟨-, hrun⟩ | ⟨hfull, hrun⟩ := revoke_for_company_cases w.board company_id by_ now
      · rw [hrun]
        exact h.apart.revoked company_id by_ now (hx.imp_left And.left)
      · rw [hrun]
        rcases hx with ⟨rfl, hclosed⟩ | hold
        · rcases hkeeps hclosed with hapart | hnone
          · exact absurd ((separate_iff w.board.links h.consistent).mpr hapart) hfull
          · exact hnone
        · exact h.apart x hold
  | set_company company_id status => exact h.apart x (hwatched.resolve_left List.not_mem_nil)
  | set_handle company_id handle => exact h.apart x (hwatched.resolve_left List.not_mem_nil)

/-! ## A step that connects -/

theorem known_of_approves {call : Call} (h : call.target = .APPROVED) : call.known = true := by
  cases call with
  | decide decision stamp =>
      have hnew : new_status decision = .APPROVED := h
      unfold new_status at hnew
      split at hnew
      · rename_i happrove
        simp [Call.known, happrove]
      · cases hnew
  | suspend _ _ _ => rfl
  | resume _ _ => rfl
  | revoke _ _ _ => rfl

/-- What a call that is granted makes of the board. -/
theorem granted_step {b : Board} {link_id : String} {call : Call} (hgrants : Grants b link_id call link) :
    (step b (.call link_id call)).links = set_status link_id call.target call.stamp b.links ∧
      (step b (.call link_id call)).companies = b.companies := by
  show (call.run link_id b).2.links = _ ∧ (call.run link_id b).2.companies = _
  obtain ⟨_, b', -, hrun, hlinks, hcompanies⟩ | ⟨hno, -⟩ := call_cases b link_id call
  · rw [hrun]
    exact ⟨hlinks, hcompanies⟩
  · exact absurd hgrants (hno link)

theorem closed_congr {b b' : Board} (h : b'.companies = b.companies) : b'.closed = b.closed := by
  funext company_id
  unfold closed
  rw [h]

/-- At a watched company, the status is free. -/
theorem Apart.free (h : Apart w) {company_id : String} (hwatched : company_id ∈ w.disconnected)
    (htouches : link.touches company_id = true) : Free w.board.links .APPROVED link := by
  intro other hother _ hslot
  obtain ⟨hfrom, hto, hstatus⟩ := slot_eq.mp hslot
  refine h company_id hwatched other hother ?_ hstatus
  unfold Link.touches at htouches ⊢
  rwa [hfrom, hto]

/-- **An approval at a watched company** goes through, and connects it. -/
theorem Guarded.connected (h : Guarded w) {link_id : String} {call : Call} (htarget : call.target = .APPROVED)
    (hrow : find_link w.board.links link_id = some link) (hallowed : call.allowed link.status = true)
    {company_id : String} (hwatched : company_id ∈ w.disconnected)
    (htouches : link.touches company_id = true) : ¬ Apart (watch w (.call link_id call)) := by
  have hfree : Free w.board.links call.target link := htarget ▸ h.apart.free hwatched htouches
  have hgrants : Grants w.board link_id call link :=
    ⟨known_of_approves htarget, hrow, hallowed, (room_iff h.consistent hrow _ _).mpr hfree⟩
  obtain ⟨hlinks, hcompanies⟩ := granted_step hgrants
  have hstill : company_id ∈ (watch w (.call link_id call)).disconnected := by
    refine List.mem_filter.mpr ⟨List.mem_append_right _ hwatched, ?_⟩
    rw [closed_congr hcompanies]
    exact h.ended company_id hwatched
  have hmem : decided call.target call.stamp link ∈
      set_status link_id call.target call.stamp w.board.links := by
    refine List.mem_map.mpr ⟨link, Table.mem_of_find hrow, ?_⟩
    rw [if_pos (Table.key_of_find hrow)]
  rw [← hlinks] at hmem
  intro hapart
  exact hapart company_id hstill (decided call.target call.stamp link) hmem htouches htarget

/-- **A bulk revocation that is refused** leaves the links as they were. -/
theorem Guarded.left (h : Guarded w) {company_id by_ : String} {now : Time}
    (hends : w.board.closed company_id = true) (hmixed : ¬ Separate w.board.links company_id)
    (hmem : link ∈ w.board.links) (htouches : link.touches company_id = true)
    (hstatus : link.status = .APPROVED) : ¬ Apart (watch w (.revoke_for_company company_id by_ now)) := by
  have hrun : revoke_for_company company_id by_ now w.board = (.error integrity_error, w.board) := by
    obtain ⟨hroom, -⟩ | ⟨-, hrun⟩ := revoke_for_company_cases w.board company_id by_ now
    · exact absurd ((separate_iff w.board.links h.consistent).mp hroom) hmixed
    · exact hrun
  have hstep : Board.step w.board (.revoke_for_company company_id by_ now) = w.board :=
    congrArg Prod.snd hrun
  have hstill : company_id ∈ (watch w (.revoke_for_company company_id by_ now)).disconnected := by
    refine List.mem_filter.mpr ⟨List.mem_append_left _ (mem_cuts_off.mpr ⟨rfl, hends⟩), ?_⟩
    rw [hstep]
    exact hends
  intro hapart
  refine hapart company_id hstill link ?_ htouches hstatus
  show link ∈ (Board.step w.board (.revoke_for_company company_id by_ now)).links
  rw [hstep]
  exact hmem

theorem Guarded.connects (h : Guarded w) {label : Label} (hbreaks : ¬ keeps_apart w label) :
    ¬ Apart (watch w label) := by
  cases label with
  | request link_id now req => exact absurd trivial hbreaks
  | set_company company_id status => exact absurd trivial hbreaks
  | set_handle company_id handle => exact absurd trivial hbreaks
  | call link_id call =>
      unfold keeps_apart at hbreaks
      push Not at hbreaks
      obtain ⟨htarget, link, hrow, hallowed, x, hwatched, htouches⟩ := hbreaks
      exact h.connected htarget hrow hallowed hwatched (by simpa using htouches)
  | revoke_for_company company_id by_ now =>
      unfold keeps_apart at hbreaks
      push Not at hbreaks
      obtain ⟨hends, hmixed, link, hmem, htouches, hstatus⟩ := hbreaks
      exact h.left hends hmixed hmem htouches hstatus

/-! ## Runs -/

/-- A board without links, and nothing to watch. -/
def unwatched (companies : String → Option CompanyStatus) (handles : String → Option CompanyHandle) : Watched :=
  { board := empty companies handles, disconnected := [] }

/-- **Closed companies stay disconnected, exactly without late approvals.** In a run, no watched company ever has an
    approved link, if and only if no step approves a waiting or suspended link of a watched company, and every
    bulk revocation of a closed company with an approved link finds its live links separate. -/
theorem closed_disconnected (companies : String → Option CompanyStatus)
    (handles : String → Option CompanyHandle) (run : List Label) :
    (∀ pre, pre <+: run → Apart (exec watch (unwatched companies handles) pre)) ↔
    Along watch keeps_apart (unwatched companies handles) run := by
  have hstart : Guarded (unwatched companies handles) :=
    ⟨⟨List.nodup_nil, List.nodup_nil⟩, fun _ h => absurd h List.not_mem_nil,
      fun _ h => absurd h List.not_mem_nil⟩
  have hapart : ∀ w, Guarded w → Apart w := fun _ h => h.apart
  refine (along_iff_everywhere (D := fun _ => True) hapart ?_ ?_ hstart fun _ _ => trivial).symm
  · exact fun w label _ h hkeeps => h.step hkeeps
  · exact fun w label _ h hbreaks => h.connects hbreaks

/-- `A` asks for a link, is closed and cut off, and then the link is approved. -/
def late_approval : List Label :=
  [a_to_b "L1" 1, .set_company "A" (some .CLOSED), .revoke_for_company "A" "board" 2,
    .call "L1" (.decide "approve" { by_ := "board", now := 3, note := none })]

/-- The closed company is connected again. -/
theorem late_approval_connects :
    ¬ ∀ run, Apart (exec watch (unwatched (fun _ => some .ACTIVE) fun _ => none) run) := by
  intro hall
  have hapart := hall late_approval
  have hconnected : ∃ link ∈ (exec watch (unwatched (fun _ => some .ACTIVE) fun _ => none)
      late_approval).board.links, link.touches "A" = true ∧ link.status = .APPROVED ∧
      "A" ∈ (exec watch (unwatched (fun _ => some .ACTIVE) fun _ => none) late_approval).disconnected := by
    decide +kernel
  obtain ⟨link, hmem, htouches, hstatus, hwatched⟩ := hconnected
  exact hapart "A" hwatched link hmem htouches hstatus

end Board

end CompanyFactory
