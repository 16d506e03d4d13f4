import CompanyFactory.BoardApi.Links
import CompanyFactory.Lib.Run

/-!
# `BoardApi.LinkMachine` — the state machine of a link

`Call.allowed` and `Call.target` are the table of the state machine. The code looks at one row, and the table of
links has a constraint over the pair of companies and the status: **a call that the state machine allows is
refused if another link of the same companies already has the target status**.

* `obeys_iff` — at a link, a call obeys the state machine exactly if it finds its target status free.
* `disconnects_iff` — the bulk revocation of a company goes through exactly if its live links stay apart.
* `link_machine` — both, for every table that can be reached.
-/

namespace CompanyFactory

open Act Machine

namespace Board

open BoardApi

/-- **A call obeys the state machine** at a link: it succeeds exactly if the table allows it, and then gives the
    row its target status and leaves every other row alone. -/
structure Obeys (b : Board) (link : Link) (call : Call) : Prop where
  succeeds : (call.run link.id b).1.isOk = true ↔ call.allowed link.status = true
  moves : ∀ updated b', call.run link.id b = (.ok updated, b') →
    b'.links.map Link.id = b.links.map Link.id ∧
      ∀ x, find_link b'.links x =
        if link.id = x then some (decided call.target call.stamp link) else find_link b.links x

/-- **The bulk revocation of a company** goes through, and leaves none of its live links live. -/
def Disconnects (b : Board) (company_id by_ : String) (now : Time) : Prop :=
  ∃ n b', revoke_for_company company_id by_ now b = (.ok n, b') ∧
    ∀ link ∈ b.links, live_at company_id link = true →
      ∃ link', find_link b'.links link.id = some link' ∧ link'.status = .REVOKED

/-- The live links of the company stay apart when they are revoked. -/
def Separate (links : List Link) (company_id : String) : Prop :=
  ∀ link ∈ links, live_at company_id link = true → ∀ other ∈ links, other.id ≠ link.id →
    other.from_company = link.from_company → other.to_company = link.to_company →
      live_at company_id other = false ∧ other.status ≠ .REVOKED

variable {b : Board} {link : Link}

/-! ## One link -/

theorem find_of_mem (h : Consistent b.links) (hmem : link ∈ b.links) :
    find_link b.links link.id = some link := Table.find_of_mem h.1 hmem

/-- What a call writes is its own row. -/
theorem moves_of_written {call : Call} {b' : Board} (hrow : find_link b.links link.id = some link)
    (hlinks : b'.links = set_status link.id call.target call.stamp b.links) :
    b'.links.map Link.id = b.links.map Link.id ∧
      ∀ x, find_link b'.links x =
        if link.id = x then some (decided call.target call.stamp link) else find_link b.links x := by
  rw [hlinks]
  constructor
  · rw [set_status, Table.update, Table.keys_update]
    intro other
    split <;> rfl
  · intro x
    rw [find_set_status]
    by_cases hx : link.id = x
    · rw [if_pos hx, if_pos hx, ← hx, hrow]
      rfl
    · rw [if_neg hx, if_neg hx]

/-- **At one link.** A call obeys the state machine exactly if, whenever the table allows it, the decision is known
    and no other link of the two companies has the target status. -/
theorem obeys_iff (h : Consistent b.links) (hmem : link ∈ b.links) (call : Call) :
    Obeys b link call ↔
      (call.allowed link.status = true → call.known = true ∧ Free b.links call.target link) := by
  have hrow := find_of_mem h hmem
  obtain ⟨row, b', hgrants, hrun, hlinks, -⟩ | ⟨hno, e, hrun⟩ := call_cases b link.id call
  · obtain rfl : link = row := Option.some.inj (hrow.symm.trans hgrants.row)
    constructor
    · intro _ _
      exact ⟨hgrants.known, (room_iff h hrow _ _).mp hgrants.room⟩
    · intro _
      refine ⟨?_, fun updated b'' hreturns => ?_⟩
      · rw [hrun]
        exact ⟨fun _ => hgrants.allowed, fun _ => rfl⟩
      · rw [hrun] at hreturns
        obtain rfl := (Prod.mk.inj hreturns).2
        exact moves_of_written hrow hlinks
  · constructor
    · intro hobeys hallowed
      have hok := hobeys.succeeds.mpr hallowed
      rw [hrun] at hok
      cases hok
    · intro hfree
      refine ⟨?_, fun updated b'' hreturns => ?_⟩
      · rw [hrun]
        constructor
        · intro hok
          cases hok
        · intro hallowed
          obtain ⟨hknown, hroom⟩ := hfree hallowed
          exact absurd ⟨hknown, hrow, hallowed, (room_iff h hrow _ _).mpr hroom⟩ (hno link)
      · rw [hrun] at hreturns
        cases hreturns

/-! ## All links of a company -/

section CutOff

variable {company_id by_ : String} {now : Time}

/-- The slot of a row after the bulk revocation. -/
theorem cut_off_slot (link : Link) : (cut_off company_id by_ now link).slot =
    (link.from_company, link.to_company,
      if live_at company_id link = true then .REVOKED else link.status) := by
  unfold cut_off
  split <;> rfl

/-- Links of the same companies are live at the same ends. -/
theorem separate_iff (links : List Link) (h : Consistent links) :
    Consistent (links.map (cut_off company_id by_ now)) ↔ Separate links company_id := by
  have hkeys : ((links.map (cut_off company_id by_ now)).map Link.id).Nodup := by
    rw [Table.keys_update cut_off_id]
    exact h.1
  have hcolumn := Table.nodup_column_iff h.1 Link.slot (cut_off company_id by_ now)
  constructor
  · rintro ⟨-, hslots⟩ link hmem hlive other hother hne hfrom hto
    have hinj := hcolumn.mp hslots other hother link hmem
    rw [cut_off_slot, cut_off_slot, if_pos hlive, hfrom, hto] at hinj
    constructor
    · by_contra hlive'
      rw [if_pos (by simpa using hlive')] at hinj
      exact hne (congrArg Link.id (hinj rfl))
    · intro hrevoked
      rw [hrevoked, ite_self] at hinj
      exact hne (congrArg Link.id (hinj rfl))
  · intro hapart
    refine ⟨hkeys, hcolumn.mpr fun link hmem other hother heq => ?_⟩
    rw [cut_off_slot, cut_off_slot] at heq
    obtain ⟨hfrom, hrest⟩ := Prod.mk.inj heq
    obtain ⟨hto, hstatus⟩ := Prod.mk.inj hrest
    by_contra hdiffers
    have hne : link.id ≠ other.id := fun hid =>
      hdiffers (List.inj_on_of_nodup_map h.1 hmem hother hid)
    by_cases hlive : live_at company_id link = true
    · obtain ⟨hdead, hrevoked⟩ := hapart link hmem hlive other hother hne.symm hfrom.symm hto.symm
      rw [if_pos hlive, if_neg (by simp [hdead])] at hstatus
      exact hrevoked hstatus.symm
    · by_cases hlive' : live_at company_id other = true
      · obtain ⟨-, hrevoked⟩ := hapart other hother hlive' link hmem hne hfrom hto
        rw [if_neg hlive, if_pos hlive'] at hstatus
        exact hrevoked hstatus
      · rw [if_neg hlive, if_neg hlive'] at hstatus
        refine hdiffers (List.inj_on_of_nodup_map h.2 hmem hother ?_)
        exact slot_eq.mpr ⟨hfrom, hto, hstatus⟩

/-- **All links of a company.** The bulk revocation goes through exactly if no two live links of the company join
    the same companies, and none joins the same ones as a link that is revoked already. -/
theorem disconnects_iff (h : Consistent b.links) (company_id by_ : String) (now : Time) :
    Disconnects b company_id by_ now ↔ Separate b.links company_id := by
  obtain ⟨hroom, hrun⟩ | ⟨hfull, hrun⟩ := revoke_for_company_cases b company_id by_ now
  · refine ⟨fun _ => (separate_iff b.links h).mp hroom, fun _ => ⟨_, _, hrun, fun link hmem hlive => ?_⟩⟩
    refine ⟨cut_off company_id by_ now link, ?_, ?_⟩
    · rw [find_cut_off, find_of_mem h hmem]
      rfl
    · unfold cut_off
      rw [if_pos hlive]
      rfl
  · constructor
    · rintro ⟨n, b', hreturns, -⟩
      rw [hrun] at hreturns
      cases hreturns
    · intro hapart
      exact absurd ((separate_iff b.links h).mpr hapart) hfull

end CutOff

/-! ## Every table -/

/-- A board without links. -/
def empty (companies : String → Option CompanyStatus) (handles : String → Option CompanyHandle) : Board :=
  { links := [], companies, handles }

/-- Every table that can be reached is consistent. -/
theorem consistent_run (companies : String → Option CompanyStatus)
    (handles : String → Option CompanyHandle) (run : List Label) :
    Consistent (exec step (empty companies handles) run).links := by
  have hstep : ∀ b label, Consistent (b : Board).links → Consistent (step b label).links :=
    fun _ label h => h.step label
  have hempty : Consistent (empty companies handles).links := ⟨List.nodup_nil, List.nodup_nil⟩
  exact exec_invariant hstep hempty run

/-- **When the state machine is kept.** In every table that can be reached: a call obeys the state machine at a
    link exactly if it finds its target status free, and the bulk revocation of a company goes through exactly
    if the live links of the company stay apart. -/
theorem link_machine (companies : String → Option CompanyStatus) (handles : String → Option CompanyHandle)
    (run : List Label) :
    (∀ link ∈ (exec step (empty companies handles) run).links, ∀ call,
      Obeys (exec step (empty companies handles) run) link call ↔
        (call.allowed link.status = true →
          call.known = true ∧ Free (exec step (empty companies handles) run).links call.target link)) ∧
    ∀ company_id by_ now, Disconnects (exec step (empty companies handles) run) company_id by_ now ↔
      Separate (exec step (empty companies handles) run).links company_id := by
  have h := consistent_run companies handles run
  exact ⟨fun link hmem call => obeys_iff h hmem call, fun company_id by_ now => disconnects_iff h _ _ _⟩

/-- Every company is active, and none is loaded. -/
def open_board : Board := empty (fun _ => some .ACTIVE) (fun _ => none)

/-- The request of a link from `A` to `B`. -/
def a_to_b (link_id : String) (now : Time) : Label :=
  .request link_id now
    { from_company := "A", to_company := "B", relationship := .PEER, scope := {}, requested_by := "board" }

def denial : Call := .decide "deny" { by_ := "board", now := 0, note := none }

/-- One request is denied, and a second one waits. -/
def second_request : List Label := [a_to_b "L1" 1, .call "L1" denial, a_to_b "L2" 2]

/-- The second request cannot be denied. -/
theorem second_denial_refused : ¬ ∀ run, ∀ link ∈ (exec step open_board run).links, ∀ call : Call,
    ((call.run link.id (exec step open_board run)).1.isOk = true ↔ call.allowed link.status = true) := by
  intro hall
  have hrefused : ∃ link ∈ (exec step open_board second_request).links,
      ¬ ((denial.run link.id (exec step open_board second_request)).1.isOk = true ↔
        denial.allowed link.status = true) := by decide +kernel
  obtain ⟨link, hmem, hno⟩ := hrefused
  exact hno (hall second_request link hmem denial)

end Board

end CompanyFactory
