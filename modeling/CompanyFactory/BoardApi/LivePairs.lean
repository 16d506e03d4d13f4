import CompanyFactory.BoardApi.LinkMachine

/-!
# `BoardApi.LivePairs` — at most one live link from one company to another

A request is refused by the constraint of the table, and this compares the status too: it meets a link that still
waits for its decision, and **not one that was approved**. A second request beside an approved or a suspended link
goes through, and the two companies have two live links.

* `one_live_link` — in a run, every pair has one live link at most, and every request is refused exactly if there
  is one, if and only if no request is made beside an approved or a suspended link.
-/

namespace CompanyFactory

open Act Machine

namespace Board

open BoardApi

/-- Is the link waiting, approved or suspended? -/
def Link.live (link : Link) : Bool :=
  link.status = .REQUESTED || link.status = .APPROVED || link.status = .SUSPENDED

/-- Is the link in force, or can it be again? -/
def Link.granted (link : Link) : Bool := link.status = .APPROVED || link.status = .SUSPENDED

/-- Does the link lead from the one company to the other? -/
def Link.joins (from_company to_company : String) (link : Link) : Bool :=
  link.from_company = from_company && link.to_company = to_company

/-- **At most one live link for each ordered pair.** -/
def OneLive (links : List Link) : Prop :=
  ∀ link ∈ links, ∀ other ∈ links, Link.live link = true → Link.live other = true →
    link.from_company = other.from_company → link.to_company = other.to_company → link = other

/-- The request joins two different companies that are open. -/
def valid_request (b : Board) (req : LinkRequest) : Bool :=
  req.from_company ≠ req.to_company && !b.closed req.from_company && !b.closed req.to_company

/-- A request of open companies is refused exactly if there is a live link. -/
def refused_if_live (b : Board) : Label → Prop
  | .request link_id now req => valid_request b req = true →
      ((request link_id now req b).1.isOk = false ↔
        ∃ link ∈ b.links, Link.joins req.from_company req.to_company link = true ∧ Link.live link = true)
  | _ => True

/-- No request is made beside a link that is approved or suspended. -/
def not_beside_granted (b : Board) : Label → Bool
  | .request _ _ req => !(valid_request b req && b.links.any (fun link =>
      Link.joins req.from_company req.to_company link && Link.granted link))
  | _ => true

/-- `uuid4` gives an id that no link has. -/
def new_id (b : Board) : Label → Bool
  | .request link_id _ _ => (find_link b.links link_id).isNone
  | _ => true

variable {b : Board} {link : Link}

/-! ## One step -/

theorem live_iff : Link.live link = true ↔ link.status = .REQUESTED ∨ Link.granted link = true := by
  simp [Link.live, Link.granted, or_assoc]

/-- Rewriting rows keeps the pairs if it makes no link live. -/
theorem OneLive.map {links : List Link} (h : OneLive links) {g : Link → Link}
    (hends : ∀ link, (g link).from_company = link.from_company ∧ (g link).to_company = link.to_company)
    (hlive : ∀ link ∈ links, Link.live (g link) = true → Link.live link = true) :
    OneLive (links.map g) := by
  intro link' hmem' other' hother' hl hl' hfrom hto
  obtain ⟨link, hmem, rfl⟩ := List.mem_map.mp hmem'
  obtain ⟨other, hother, rfl⟩ := List.mem_map.mp hother'
  rw [(hends link).1, (hends other).1] at hfrom
  rw [(hends link).2, (hends other).2] at hto
  exact congrArg g (h link hmem other hother (hlive link hmem hl) (hlive other hother hl') hfrom hto)

/-- A call moves only live links. -/
theorem allowed_live {call : Call} (h : call.allowed link.status = true) : Link.live link = true := by
  cases call with
  | decide decision stamp => exact live_iff.mpr (.inl (of_decide_eq_true h))
  | suspend by_ reason now =>
      have hstatus : link.status = .APPROVED := of_decide_eq_true h
      exact live_iff.mpr (.inr (by simp [Link.granted, hstatus]))
  | resume by_ now =>
      have hstatus : link.status = .SUSPENDED := of_decide_eq_true h
      exact live_iff.mpr (.inr (by simp [Link.granted, hstatus]))
  | revoke by_ reason now => exact live_iff.mpr (.inr h)

theorem OneLive.moved (h : OneLive b.links) (hcons : Consistent b.links) {link_id : String} {call : Call}
    (hgrants : Grants b link_id call link) :
    OneLive (set_status link_id call.target call.stamp b.links) := by
  refine h.map (fun other => ?_) fun other hother hlive => ?_
  · split <;> exact ⟨rfl, rfl⟩
  · by_cases hid : other.id = link_id
    · have hrow := find_of_mem hcons hother
      rw [hid, hgrants.row] at hrow
      cases hrow
      exact allowed_live hgrants.allowed
    · rwa [if_neg hid] at hlive

theorem OneLive.revoked (h : OneLive b.links) (company_id by_ : String) (now : Time) :
    OneLive (b.links.map (cut_off company_id by_ now)) := by
  refine h.map (fun other => ?_) fun other _ hlive => ?_
  · exact ⟨cut_off_from other, cut_off_to other⟩
  · unfold cut_off at hlive
    split at hlive
    · cases hlive
    · exact hlive

theorem OneLive.requested (h : OneLive b.links) (hnew : Link.live link = true)
    (hnone : ∀ other ∈ b.links, Link.live other = true →
      ¬ (other.from_company = link.from_company ∧ other.to_company = link.to_company)) :
    OneLive (b.links ++ [link]) := by
  intro x hx y hy hxlive hylive hfrom hto
  rcases List.mem_append.mp hx with hold | hlast <;> rcases List.mem_append.mp hy with hold' | hlast'
  · exact h x hold y hold' hxlive hylive hfrom hto
  · obtain rfl := List.mem_singleton.mp hlast'
    exact absurd ⟨hfrom, hto⟩ (hnone x hold hxlive)
  · obtain rfl := List.mem_singleton.mp hlast
    exact absurd ⟨hfrom.symm, hto.symm⟩ (hnone y hold' hylive)
  · exact (List.mem_singleton.mp hlast).trans (List.mem_singleton.mp hlast').symm

/-! ## A request -/

section Request

variable {link_id : String} {now : Time} {req : LinkRequest}

theorem joins_iff {from_company to_company : String} :
    Link.joins from_company to_company link = true ↔
      link.from_company = from_company ∧ link.to_company = to_company := by
  simp [Link.joins]

theorem valid_iff : valid_request b req = true ↔ req.from_company ≠ req.to_company ∧
    b.closed req.from_company = false ∧ b.closed req.to_company = false := by
  simp [valid_request, and_assoc]

/-- A valid request with a new id succeeds exactly if no other one waits. -/
theorem request_succeeds_iff (now : Time) (h : Consistent b.links) (hid : find_link b.links link_id = none)
    (hvalid : valid_request b req = true) :
    (request link_id now req b).1.isOk = true ↔ ∀ other ∈ b.links,
      Link.joins req.from_company req.to_company other = true → other.status ≠ .REQUESTED := by
  obtain ⟨hne, hfrom, hto⟩ := valid_iff.mp hvalid
  have hroom : Consistent (b.links ++ [requested link_id now req]) ↔ _ := room_for_request h hid
  have hfree : (∀ other ∈ b.links, other.slot ≠ (requested link_id now req).slot) ↔ ∀ other ∈ b.links,
      Link.joins req.from_company req.to_company other = true → other.status ≠ .REQUESTED := by
    refine forall₂_congr fun other _ => ?_
    have hslot : other.slot = (requested link_id now req).slot ↔
        Link.joins req.from_company req.to_company other = true ∧ other.status = .REQUESTED := by
      rw [joins_iff, and_assoc]
      exact slot_eq
    rw [ne_eq, hslot, not_and]
  rw [hfree] at hroom
  rw [← hroom]
  obtain ⟨b', hopens, hrun, -, -⟩ | ⟨hno, e, hrun⟩ := request_cases b link_id now req
  · rw [hrun]
    exact ⟨fun _ => hopens.room, fun _ => rfl⟩
  · rw [hrun]
    constructor
    · intro hok
      cases hok
    · intro hroom
      exact absurd ⟨hne, hfrom, hto, hroom⟩ hno

/-- **A request is refused exactly if there is a live link**, if and only if it is not made beside a link that is
    approved or suspended. -/
theorem refused_iff (h : Consistent b.links) (hone : OneLive b.links)
    (hid : find_link b.links link_id = none) :
    not_beside_granted b (.request link_id now req) = true ↔ refused_if_live b (.request link_id now req) := by
  have hbeside : not_beside_granted b (.request link_id now req) = true ↔ (valid_request b req = true →
      ∀ link ∈ b.links, Link.joins req.from_company req.to_company link = true →
        Link.granted link = false) := by
    cases hvalid : valid_request b req <;> simp [not_beside_granted, hvalid]
  rw [hbeside]
  refine forall_congr' fun hvalid => ?_
  have hsucceeds := request_succeeds_iff now h hid hvalid
  constructor
  · intro hnone
    rw [← Bool.not_eq_true, hsucceeds]
    constructor
    · intro hwaits
      push Not at hwaits
      obtain ⟨link, hmem, hjoins, hstatus⟩ := hwaits
      exact ⟨link, hmem, hjoins, live_iff.mpr (.inl hstatus)⟩
    · rintro ⟨link, hmem, hjoins, hlive⟩ hfree
      rcases live_iff.mp hlive with hstatus | hgranted
      · exact hfree link hmem hjoins hstatus
      · rw [hnone link hmem hjoins] at hgranted
        cases hgranted
  · intro hrefused link hmem hjoins
    by_contra hgranted
    rw [Bool.not_eq_false] at hgranted
    have hlive := live_iff.mpr (.inr hgranted)
    have hfails := hrefused.mpr ⟨link, hmem, hjoins, hlive⟩
    rw [← Bool.not_eq_true, hsucceeds] at hfails
    push Not at hfails
    -- the link that waits would be a second live link of the pair
    obtain ⟨other, hother, hjoins', hstatus⟩ := hfails
    have hends := joins_iff.mp hjoins
    have hends' := joins_iff.mp hjoins'
    have heq := hone link hmem other hother hlive (live_iff.mpr (.inl hstatus))
      (hends.1.trans hends'.1.symm) (hends.2.trans hends'.2.symm)
    rw [heq] at hgranted
    simp [Link.granted, hstatus] at hgranted

end Request

/-! ## Runs -/

/-- The links are consistent, and every pair has one live link at most. -/
def Paired (b : Board) : Prop := Consistent b.links ∧ OneLive b.links

theorem Paired.step (h : Paired b) {label : Label} (hbeside : not_beside_granted b label = true) :
    Paired (Board.step b label) := by
  refine ⟨h.1.step label, ?_⟩
  have hwritten := step_written b label
  generalize (Board.step b label).links = links at hwritten ⊢
  cases hwritten with
  | kept => exact h.2
  | requested link_id now req hopens =>
      have hvalid := valid_iff.mpr ⟨hopens.other, hopens.from_open, hopens.to_open⟩
      have hwaits := (room_for_request h.1 (new_of_room hopens.room)).mp hopens.room
      refine h.2.requested rfl fun other hmem hlive hends => ?_
      rcases live_iff.mp hlive with hstatus | hgranted
      · exact hwaits other hmem (slot_eq.mpr ⟨hends.1, hends.2, hstatus⟩)
      · have hjoins := joins_iff.mpr hends
        have hany : (b.links.any fun link => Link.joins req.from_company req.to_company link &&
            Link.granted link) = true :=
          List.any_eq_true.mpr ⟨other, hmem, Bool.and_eq_true_iff.mpr ⟨hjoins, hgranted⟩⟩
        rw [not_beside_granted, hvalid, hany] at hbeside
        cases hbeside
  | moved link_id call link hgrants => exact h.2.moved h.1 hgrants
  | revoked company_id by_ now _ => exact h.2.revoked company_id by_ now

/-- **At most one live link, exactly without requests beside a granted one.** In a run whose requests get new ids:
    every pair has one live link at most after every step, and every request of open companies is refused exactly
    if there is a live link, if and only if no request is made beside an approved or a suspended link. -/
theorem one_live_link (companies : String → Option CompanyStatus) (handles : String → Option CompanyHandle)
    (run : List Label) (hnew : Along step (fun b label => new_id b label = true) (empty companies handles) run) :
    Along step (fun b label => OneLive (step b label).links ∧ refused_if_live b label)
      (empty companies handles) run ↔
    Along step (fun b label => not_beside_granted b label = true) (empty companies handles) run := by
  have hempty : Paired (empty companies handles) :=
    ⟨⟨List.nodup_nil, List.nodup_nil⟩, fun _ h => absurd h List.not_mem_nil⟩
  refine (along_iff_along (fun b label h _ hbeside => h.step hbeside) (fun b label h hid => ?_)
    hempty hnew).symm
  have hrefused : not_beside_granted b label = true ↔ refused_if_live b label := by
    cases label with
    | request link_id now req => exact refused_iff h.1 h.2 (by simpa [new_id] using hid)
    | call link_id call => exact iff_of_true rfl trivial
    | revoke_for_company company_id by_ now => exact iff_of_true rfl trivial
    | set_company company_id status => exact iff_of_true rfl trivial
    | set_handle company_id handle => exact iff_of_true rfl trivial
  exact ⟨fun hbeside => ⟨(h.step hbeside).2, hrefused.mp hbeside⟩, fun hboth => hrefused.mpr hboth.2⟩

/-- The denial of `L1` lets a second request through, and the two links are not live together. -/
theorem one_live_link_after_denial :
    Along step (fun b label => OneLive (step b label).links ∧ refused_if_live b label) open_board second_request ↔
    Along step (fun b label => not_beside_granted b label = true) open_board second_request :=
  one_live_link (fun _ => some .ACTIVE) (fun _ => none) second_request
    ⟨by decide +kernel, by decide +kernel, by decide +kernel, trivial⟩

/-- A second request while `L1` is approved. -/
def beside_approved : List Label :=
  [a_to_b "L1" 1, .call "L1" (.decide "approve" { by_ := "board", now := 2, note := none }), a_to_b "L2" 3]

/-- Two links from `A` to `B` are live. -/
theorem second_request_accepted : ¬ ∀ run,
    Along step (fun b label => new_id b label = true) open_board run →
      OneLive (exec step open_board run).links := by
  intro hall
  have hone := hall beside_approved ⟨by decide +kernel, by decide +kernel, by decide +kernel, trivial⟩
  have htwo : ∃ link ∈ (exec step open_board beside_approved).links,
      ∃ other ∈ (exec step open_board beside_approved).links, Link.live link = true ∧
        Link.live other = true ∧ link.from_company = other.from_company ∧
        link.to_company = other.to_company ∧ link.id ≠ other.id := by decide +kernel
  obtain ⟨link, hmem, other, hother, hlive, hlive', hfrom, hto, hne⟩ := htwo
  exact hne (congrArg Link.id (hone link hmem other hother hlive hlive' hfrom hto))

end Board

end CompanyFactory
