import CompanyFactory.BoardApi.Board
import CompanyFactory.Lib.Table

/-!
# `BoardApi.Links` — requests and decisions about links

`LinkService`. `decide`, `suspend`, `resume` and `revoke` are all one `transition`: the row must have a status
that allows the call, and one `UPDATE` writes the new status and who decided. The ids and the readings of the
clock are arguments.

`step_links` lists what one step can make of the table; the invariants are proved from this list.
-/

namespace CompanyFactory

open Act

namespace Board

open BoardApi

/-! ## The service -/

def find_link (links : List Link) (link_id : String) : Option Link := Table.find Link.id links link_id

def get_link (link_id : String) : Act Board Exn Link := fun b =>
  match find_link b.links link_id with
  | none => (.error (.other "LinkNotFound" link_id), b)
  | some link => (.ok link, b)

/-- The arguments of `request`. -/
structure LinkRequest where
  from_company : String
  to_company : String
  relationship : LinkRelationship
  scope : LinkScope
  requested_by : String
  deriving DecidableEq

def requested (link_id : String) (now : Time) (req : LinkRequest) : Link :=
  { id := link_id, from_company := req.from_company, to_company := req.to_company
    relationship := req.relationship, scope := req.scope, status := .REQUESTED
    requested_by := req.requested_by, requested_at := now }

/-- The company must exist and not be closed. -/
def check_open (b : Board) (company_id : String) : Except Exn Unit :=
  match b.get_summary company_id with
  | .error _ => .error (.other "NotFound" ("company_not_found:" ++ company_id))
  | .ok status =>
    if status.ended then .error (.other "Conflict" ("company_closed:" ++ company_id)) else .ok ()

def link_requested (link_id : String) (req : LinkRequest) : Post :=
  { kind := .LINK_REQUESTED
    payload := [("link_id", .str link_id), ("from_company", .str req.from_company),
      ("to_company", .str req.to_company), ("relationship", .str req.relationship.value),
      ("requested_by", .str req.requested_by)]
    actor := some req.requested_by }

/-- `except sqlite3.IntegrityError` around the `INSERT`. -/
def insert_link (link : Link) : Act Board Exn Unit := do
  let inserted ← Act.attempt (write_links fun links => links ++ [link])
  match inserted with
  | .ok () => pure ()
  | .error _ => Act.raise (.other "LinkAlreadyExists" (link.from_company ++ "->" ++ link.to_company))

def request (link_id : String) (now : Time) (req : LinkRequest) : Act Board Exn Link := do
  if req.from_company = req.to_company then
    Act.raise (.other "ValidationFailed" "from_company_equals_to_company")
  else do
    let b ← Act.read id
    Act.ofExcept (check_open b req.from_company)
    Act.ofExcept (check_open b req.to_company)
    insert_link (requested link_id now req)
    let link ← get_link link_id
    emit_to_both (link_requested link_id req) link
    pure link

/-- Who decides, when, and the note that is left. -/
structure Stamp where
  by_ : String
  now : Time
  note : Option String
  deriving DecidableEq

/-- The row after a decision. -/
def decided (target : LinkStatus) (stamp : Stamp) (link : Link) : Link :=
  { link with
    status := target, decided_by := some stamp.by_, decided_at := some stamp.now, note := stamp.note }

/-- `UPDATE board_links SET status = ? … WHERE id = ?` -/
def set_status (link_id : String) (target : LinkStatus) (stamp : Stamp) (links : List Link) : List Link :=
  Table.update Link.id link_id (decided target stamp) links

/-- A call that takes a link from one of the allowed statuses to the target. -/
def transition (allowed : LinkStatus → Bool) (refusal : String) (target : LinkStatus) (link_id : String)
    (stamp : Stamp) : Act Board Exn Link := do
  let link ← get_link link_id
  if !allowed link.status then Act.raise (.other "Conflict" (refusal ++ ":" ++ link.status.value))
  else do
    write_links (set_status link_id target stamp)
    get_link link_id

def link_approved (link : Link) (decided_by : String) : Post :=
  { kind := .LINK_APPROVED
    payload := [("link_id", .str link.id), ("from_company", .str link.from_company),
      ("to_company", .str link.to_company), ("decided_by", .str decided_by)]
    actor := some decided_by }

/-- The status that a decision asks for. -/
def new_status (decision : String) : LinkStatus :=
  if decision = "approve" then .APPROVED else .DENIED

def decide (link_id decision : String) (stamp : Stamp) : Act Board Exn Link := do
  if decision ≠ "approve" ∧ decision ≠ "deny" then
    Act.raise (.other "ValidationFailed" ("unknown_decision:" ++ decision))
  else do
    let updated ← transition (· = .REQUESTED) "link_not_pending" (new_status decision) link_id stamp
    if new_status decision = .APPROVED then do
      emit_to_both (link_approved updated stamp.by_) updated
      pure updated
    else pure updated

def revoke (link_id by_ reason : String) (now : Time) : Act Board Exn Link :=
  transition (fun status => status = .APPROVED || status = .SUSPENDED) "link_not_revocable" .REVOKED link_id
    { by_, now, note := some reason }

def suspend (link_id by_ reason : String) (now : Time) : Act Board Exn Link :=
  transition (· = .APPROVED) "link_not_active" .SUSPENDED link_id { by_, now, note := some reason }

def resume (link_id by_ : String) (now : Time) : Act Board Exn Link :=
  transition (· = .SUSPENDED) "link_not_suspended" .APPROVED link_id { by_, now, note := none }

/-- Is the link live, at one of the company's ends? -/
def live_at (company_id : String) (link : Link) : Bool :=
  link.touches company_id && (link.status = .APPROVED || link.status = .SUSPENDED)

/-- What the bulk `UPDATE` makes of one row. -/
def cut_off (company_id by_ : String) (now : Time) (link : Link) : Link :=
  if live_at company_id link then
    decided .REVOKED { by_, now, note := some "company_closed" } link
  else link

section CutOff

variable {company_id by_ : String} {now : Time}

@[simp] theorem cut_off_id (link : Link) : (cut_off company_id by_ now link).id = link.id := by
  unfold cut_off
  split <;> rfl

@[simp] theorem cut_off_from (link : Link) :
    (cut_off company_id by_ now link).from_company = link.from_company := by
  unfold cut_off
  split <;> rfl

@[simp] theorem cut_off_to (link : Link) :
    (cut_off company_id by_ now link).to_company = link.to_company := by
  unfold cut_off
  split <;> rfl

@[simp] theorem cut_off_scope (link : Link) : (cut_off company_id by_ now link).scope = link.scope := by
  unfold cut_off
  split <;> rfl

theorem find_cut_off (links : List Link) (x : String) :
    find_link (links.map (cut_off company_id by_ now)) x =
      (find_link links x).map (cut_off company_id by_ now) := Table.find_update cut_off_id links x

end CutOff

/-- `revoke_for_company`, with the number of rows. -/
def revoke_for_company (company_id by_ : String) (now : Time) : Act Board Exn Nat := do
  let links ← Act.read Board.links
  write_links (fun links => links.map (cut_off company_id by_ now))
  pure (links.countP (live_at company_id))

/-- `InterCompanyService.on_company_closed` -/
def on_company_closed (company_id by_ : String) (now : Time) : Act Board Exn Nat :=
  revoke_for_company company_id by_ now

/-! ## Requests -/

/-- What lets a request through. -/
structure Opens (b : Board) (link_id : String) (now : Time) (req : LinkRequest) : Prop where
  other : req.from_company ≠ req.to_company
  from_open : b.closed req.from_company = false
  to_open : b.closed req.to_company = false
  room : Consistent (b.links ++ [requested link_id now req])

/-- A row that was inserted is found. -/
theorem find_inserted {links : List Link} {link : Link} (hroom : Consistent (links ++ [link])) :
    find_link (links ++ [link]) link.id = some link :=
  Table.find_of_mem hroom.1 (by simp)

theorem insert_link_ok {b : Board} {link : Link} (hroom : Consistent (b.links ++ [link])) :
    insert_link link b = (.ok (), { b with links := b.links ++ [link] }) := by
  have hwrite : write_links (fun links => links ++ [link]) b =
      (.ok (), { b with links := b.links ++ [link] }) := if_pos hroom
  have hattempt : Act.attempt (write_links fun links => links ++ [link]) b =
      (.ok (.ok ()), { b with links := b.links ++ [link] }) := by
    show (Except.ok (write_links _ b).1, (write_links _ b).2) = _
    rw [hwrite]
  exact bind_of_ok hattempt

theorem insert_link_error {b : Board} {link : Link} (hfull : ¬ Consistent (b.links ++ [link])) :
    insert_link link b =
      (.error (.other "LinkAlreadyExists" (link.from_company ++ "->" ++ link.to_company)), b) := by
  have hwrite : write_links (fun links => links ++ [link]) b = (.error integrity_error, b) := if_neg hfull
  have hattempt : Act.attempt (write_links fun links => links ++ [link]) b =
      (.ok (.error integrity_error), b) := by
    show (Except.ok (write_links _ b).1, (write_links _ b).2) = _
    rw [hwrite]
  exact bind_of_ok hattempt

theorem check_open_eq (b : Board) (company_id : String) :
    (b.closed company_id = false ∧ check_open b company_id = .ok ()) ∨
      (b.closed company_id = true ∧ ∃ e, check_open b company_id = .error e) := by
  unfold check_open get_summary closed
  cases b.companies company_id with
  | none => exact .inr ⟨rfl, _, rfl⟩
  | some status =>
      dsimp only
      cases hended : status.ended with
      | true => exact .inr ⟨rfl, _, rfl⟩
      | false => exact .inl ⟨rfl, rfl⟩

/-- **What a request does**: it adds its link, or raises and leaves everything as it was. -/
theorem request_cases (b : Board) (link_id : String) (now : Time) (req : LinkRequest) :
    (∃ b', Opens b link_id now req ∧ request link_id now req b = (.ok (requested link_id now req), b') ∧
      b'.links = b.links ++ [requested link_id now req] ∧ b'.companies = b.companies) ∨
    (¬ Opens b link_id now req ∧ ∃ e, request link_id now req b = (.error e, b)) := by
  rw [request]
  by_cases hother : req.from_company = req.to_company
  · rw [if_pos hother]
    exact .inr ⟨fun h => h.other hother, _, rfl⟩
  rw [if_neg hother, read_bind, id]
  obtain ⟨hfrom, hok⟩ | ⟨hfrom, e, herror⟩ := check_open_eq b req.from_company
  case inr =>
    rw [herror]
    exact .inr ⟨fun h => by simp [h.from_open] at hfrom, e, rfl⟩
  rw [hok, ofExcept_ok_bind]
  obtain ⟨hto, hok⟩ | ⟨hto, e, herror⟩ := check_open_eq b req.to_company
  case inr =>
    rw [herror]
    exact .inr ⟨fun h => by simp [h.to_open] at hto, e, rfl⟩
  rw [hok, ofExcept_ok_bind]
  by_cases hroom : Consistent (b.links ++ [requested link_id now req])
  · have hinsert := insert_link_ok hroom
    have hget : get_link link_id { b with links := b.links ++ [requested link_id now req] } =
        (.ok (requested link_id now req), { b with links := b.links ++ [requested link_id now req] }) := by
      have hfound : find_link (b.links ++ [requested link_id now req]) link_id = _ := find_inserted hroom
      rw [get_link]
      dsimp only
      rw [hfound]
    rw [bind_of_ok hinsert, bind_of_ok hget]
    have hsame := emit_to_both_same (link_requested link_id req) (requested link_id now req)
      { b with links := b.links ++ [requested link_id now req] }
    have hemitted := emit_to_both_ok (link_requested link_id req) (requested link_id now req)
      { b with links := b.links ++ [requested link_id now req] }
    rcases hemit : emit_to_both (link_requested link_id req) (requested link_id now req)
      { b with links := b.links ++ [requested link_id now req] } with ⟨r, b'⟩
    rw [hemit] at hsame hemitted
    cases hemitted
    rw [bind_of_ok hemit]
    exact .inl ⟨b', ⟨hother, hfrom, hto, hroom⟩, rfl, hsame.1, hsame.2⟩
  · rw [bind_of_error (insert_link_error hroom)]
    exact .inr ⟨fun h => hroom h.room, _, rfl⟩


/-! ## Calls on a link -/

/-- A call that moves one link. -/
inductive Call where
  | decide (decision : String) (stamp : Stamp)
  | suspend (by_ reason : String) (now : Time)
  | resume (by_ : String) (now : Time)
  | revoke (by_ reason : String) (now : Time)
  deriving DecidableEq

namespace Call

def run (link_id : String) : Call → Act Board Exn Link
  | .decide decision stamp => Board.decide link_id decision stamp
  | .suspend by_ reason now => Board.suspend link_id by_ reason now
  | .resume by_ now => Board.resume link_id by_ now
  | .revoke by_ reason now => Board.revoke link_id by_ reason now

/-- Only two decisions are known. -/
def known : Call → Bool
  | .decide decision _ => decision = "approve" || decision = "deny"
  | _ => true

/-- **The table of the state machine**: from which statuses a call leads away. -/
def allowed : Call → LinkStatus → Bool
  | .decide _ _, status => status = .REQUESTED
  | .suspend _ _ _, status => status = .APPROVED
  | .resume _ _, status => status = .SUSPENDED
  | .revoke _ _ _, status => status = .APPROVED || status = .SUSPENDED

/-- The table of the state machine: where it leads. -/
def target : Call → LinkStatus
  | .decide decision _ => new_status decision
  | .suspend _ _ _ => .SUSPENDED
  | .resume _ _ => .APPROVED
  | .revoke _ _ _ => .REVOKED

def stamp : Call → Stamp
  | .decide _ stamp => stamp
  | .suspend by_ reason now | .revoke by_ reason now => { by_, now, note := some reason }
  | .resume by_ now => { by_, now, note := none }

end Call

/-- What lets a call through. -/
structure Grants (b : Board) (link_id : String) (call : Call) (link : Link) : Prop where
  known : call.known = true
  row : find_link b.links link_id = some link
  allowed : call.allowed link.status = true
  room : Consistent (set_status link_id call.target call.stamp b.links)

variable {b : Board} {link_id : String} {link : Link} {call : Call}

theorem find_set_status {target : LinkStatus} {stamp : Stamp} {links : List Link} (x : String) :
    find_link (set_status link_id target stamp links) x =
      if link_id = x then (find_link links x).map (decided target stamp) else find_link links x := by
  unfold find_link set_status
  exact Table.find_update_key (f := decided target stamp) (fun _ => rfl) links link_id x

/-- A transition that is granted. -/
theorem transition_ok {allowed : LinkStatus → Bool} {refusal : String} {target : LinkStatus} {stamp : Stamp}
    (hrow : find_link b.links link_id = some link) (hallowed : allowed link.status = true)
    (hroom : Consistent (set_status link_id target stamp b.links)) :
    transition allowed refusal target link_id stamp b =
      (.ok (decided target stamp link), { b with links := set_status link_id target stamp b.links }) := by
  have hfind : find_link (set_status link_id target stamp b.links) link_id =
      some (decided target stamp link) := by
    rw [find_set_status, if_pos rfl, hrow]
    rfl
  have hget : get_link link_id b = (.ok link, b) := by rw [get_link, hrow]
  rw [transition, bind_of_ok hget, hallowed]
  have hwrite : write_links (set_status link_id target stamp) b =
      (.ok (), { b with links := set_status link_id target stamp b.links }) := if_pos hroom
  show (write_links _ >>= fun _ => get_link link_id) b = _
  rw [bind_of_ok hwrite, get_link]
  dsimp only
  rw [hfind]

/-- A transition that is refused leaves everything as it was. -/
theorem transition_error {allowed : LinkStatus → Bool} {refusal : String} {target : LinkStatus}
    {stamp : Stamp} (hno : ∀ link, find_link b.links link_id = some link → allowed link.status = true →
      ¬ Consistent (set_status link_id target stamp b.links)) :
    ∃ e, transition allowed refusal target link_id stamp b = (.error e, b) := by
  cases hrow : find_link b.links link_id with
  | none =>
      have hget : get_link link_id b = (.error (.other "LinkNotFound" link_id), b) := by
        rw [get_link, hrow]
      exact ⟨_, bind_of_error hget⟩
  | some link =>
      have hget : get_link link_id b = (.ok link, b) := by rw [get_link, hrow]
      rw [transition, bind_of_ok hget]
      cases hallowed : allowed link.status with
      | false => exact ⟨_, rfl⟩
      | true =>
          have hwrite : write_links (set_status link_id target stamp) b = (.error integrity_error, b) :=
            if_neg (hno link hrow hallowed)
          exact ⟨_, bind_of_error hwrite⟩

/-- What a call does before it tells the companies. -/
def Call.move (link_id : String) (call : Call) : Act Board Exn Link :=
  match call with
  | .decide decision stamp =>
    transition (· = .REQUESTED) "link_not_pending" (new_status decision) link_id stamp
  | call => call.run link_id

theorem Call.move_eq (link_id : String) (call : Call) :
    ∃ refusal, call.move link_id = transition call.allowed refusal call.target link_id call.stamp := by
  cases call with
  | decide decision stamp => exact ⟨"link_not_pending", rfl⟩
  | suspend by_ reason now => exact ⟨"link_not_active", rfl⟩
  | resume by_ now => exact ⟨"link_not_suspended", rfl⟩
  | revoke by_ reason now => exact ⟨"link_not_revocable", rfl⟩

/-- A known call is its move; an approval then tells the companies. -/
theorem Call.run_of_known (b : Board) (link_id : String) (hknown : call.known = true) :
    (∀ {updated b'}, call.move link_id b = (.ok updated, b') →
      ∃ b'', call.run link_id b = (.ok updated, b'') ∧ SameLinks b' b'') ∧
    (∀ {e b'}, call.move link_id b = (.error e, b') → call.run link_id b = (.error e, b')) := by
  cases call with
  | decide decision stamp =>
      have hnot : ¬ (decision ≠ "approve" ∧ decision ≠ "deny") := by
        rintro ⟨happrove, hdeny⟩
        simp [Call.known, happrove, hdeny] at hknown
      have hrun : ∀ b, (Call.decide decision stamp).run link_id b =
          ((Call.decide decision stamp).move link_id >>= fun updated =>
            if new_status decision = .APPROVED then do
              emit_to_both (link_approved updated stamp.by_) updated
              pure updated
            else pure updated) b := by
        intro b
        show Board.decide link_id decision stamp b = _
        rw [Board.decide, if_neg hnot]
        rfl
      constructor
      · intro updated b' hmove
        rw [hrun, bind_of_ok hmove]
        split
        · have hok := emit_to_both_ok (link_approved updated stamp.by_) updated b'
          have hsame := emit_to_both_same (link_approved updated stamp.by_) updated b'
          rcases hemit : emit_to_both (link_approved updated stamp.by_) updated b' with ⟨r, b''⟩
          rw [hemit] at hok hsame
          cases hok
          exact ⟨b'', bind_of_ok hemit, hsame⟩
        · exact ⟨b', rfl, .refl b'⟩
      · intro e b' hmove
        rw [hrun, bind_of_error hmove]
  | suspend by_ reason now => exact ⟨fun h => ⟨_, h, .refl _⟩, fun h => h⟩
  | resume by_ now => exact ⟨fun h => ⟨_, h, .refl _⟩, fun h => h⟩
  | revoke by_ reason now => exact ⟨fun h => ⟨_, h, .refl _⟩, fun h => h⟩

theorem Call.run_of_unknown (hknown : call.known = false) : ∃ e, call.run link_id b = (.error e, b) := by
  cases call with
  | decide decision stamp =>
      have hunknown : decision ≠ "approve" ∧ decision ≠ "deny" := by
        simpa [Call.known] using hknown
      refine ⟨.other "ValidationFailed" ("unknown_decision:" ++ decision), ?_⟩
      show Board.decide link_id decision stamp b = _
      rw [Board.decide, if_pos hunknown]
      rfl
  | suspend by_ reason now => cases hknown
  | resume by_ now => cases hknown
  | revoke by_ reason now => cases hknown

/-- **What one call does**: it moves its link, or raises and leaves everything as it was. -/
theorem call_cases (b : Board) (link_id : String) (call : Call) :
    (∃ link b', Grants b link_id call link ∧
      call.run link_id b = (.ok (decided call.target call.stamp link), b') ∧
      b'.links = set_status link_id call.target call.stamp b.links ∧ b'.companies = b.companies) ∨
    ((∀ link, ¬ Grants b link_id call link) ∧ ∃ e, call.run link_id b = (.error e, b)) := by
  cases hknown : call.known with
  | false => exact .inr ⟨fun link h => by simp [h.known] at hknown, Call.run_of_unknown hknown⟩
  | true =>
      obtain ⟨hok, herror⟩ := Call.run_of_known b link_id hknown
      obtain ⟨refusal, hmove⟩ := call.move_eq link_id
      by_cases hgrants : ∃ link, Grants b link_id call link
      · obtain ⟨link, h⟩ := hgrants
        have hrun : call.move link_id b = (.ok (decided call.target call.stamp link),
            { b with links := set_status link_id call.target call.stamp b.links }) := by
          rw [hmove]
          exact transition_ok h.row h.allowed h.room
        obtain ⟨b', hcall, hsame⟩ := hok hrun
        exact .inl ⟨link, b', h, hcall, hsame.1, hsame.2⟩
      · have hno : ∀ link, ¬ Grants b link_id call link := fun link h => hgrants ⟨link, h⟩
        obtain ⟨e, hrun⟩ : ∃ e, call.move link_id b = (.error e, b) := by
          rw [hmove]
          exact transition_error fun link hrow hallowed hroom => hno link ⟨hknown, hrow, hallowed, hroom⟩
        exact .inr ⟨hno, e, herror hrun⟩

/-! ## Steps -/

inductive Label where
  | request (link_id : String) (now : Time) (req : LinkRequest)
  | call (link_id : String) (call : Call)
  | revoke_for_company (company_id by_ : String) (now : Time)
  /-- the company is created, closed or purged -/
  | set_company (company_id : String) (status : Option CompanyStatus)
  /-- the company is loaded or unloaded, or does something -/
  | set_handle (company_id : String) (handle : Option CompanyHandle)

def step (b : Board) : Label → Board
  | .request link_id now req => (request link_id now req).after b
  | .call link_id call => (call.run link_id).after b
  | .revoke_for_company company_id by_ now => (revoke_for_company company_id by_ now).after b
  | .set_company company_id status => b.set_company company_id status
  | .set_handle company_id handle => b.set_handle company_id handle

/-- What a label can make of the links. -/
inductive Written (b : Board) : Label → List Link → Prop where
  | kept (label : Label) : Written b label b.links
  | requested (link_id : String) (now : Time) (req : LinkRequest) (hopens : Opens b link_id now req) :
      Written b (.request link_id now req) (b.links ++ [requested link_id now req])
  | moved (link_id : String) (call : Call) (link : Link) (hgrants : Grants b link_id call link) :
      Written b (.call link_id call) (set_status link_id call.target call.stamp b.links)
  | revoked (company_id by_ : String) (now : Time)
      (hroom : Consistent (b.links.map (cut_off company_id by_ now))) :
      Written b (.revoke_for_company company_id by_ now) (b.links.map (cut_off company_id by_ now))

/-- **What the bulk revocation does**: it cuts the company off, or raises and leaves everything as it was. -/
theorem revoke_for_company_cases (b : Board) (company_id by_ : String) (now : Time) :
    (Consistent (b.links.map (cut_off company_id by_ now)) ∧
      revoke_for_company company_id by_ now b =
        (.ok (b.links.countP (live_at company_id)),
          { b with links := b.links.map (cut_off company_id by_ now) })) ∨
    (¬ Consistent (b.links.map (cut_off company_id by_ now)) ∧
      revoke_for_company company_id by_ now b = (.error integrity_error, b)) := by
  rw [revoke_for_company, read_bind]
  by_cases hroom : Consistent (b.links.map (cut_off company_id by_ now))
  · have hwrite : write_links (fun links => links.map (cut_off company_id by_ now)) b =
        (.ok (), { b with links := b.links.map (cut_off company_id by_ now) }) := if_pos hroom
    exact .inl ⟨hroom, bind_of_ok hwrite⟩
  · have hwrite : write_links (fun links => links.map (cut_off company_id by_ now)) b =
        (.error integrity_error, b) := if_neg hroom
    exact .inr ⟨hroom, bind_of_error hwrite⟩

/-- **What one step can do to the links.** -/
theorem step_written (b : Board) (label : Label) : Written b label (step b label).links := by
  cases label with
  | request link_id now req =>
      show Written b _ (request link_id now req b).2.links
      obtain ⟨b', hopens, hrun, hlinks, -⟩ | ⟨-, e, hrun⟩ := request_cases b link_id now req
      · rw [hrun, hlinks]
        exact .requested link_id now req hopens
      · rw [hrun]
        exact .kept _
  | call link_id call =>
      show Written b _ (call.run link_id b).2.links
      obtain ⟨link, b', hgrants, hrun, hlinks, -⟩ | ⟨-, e, hrun⟩ := call_cases b link_id call
      · rw [hrun, hlinks]
        exact .moved link_id call link hgrants
      · rw [hrun]
        exact .kept _
  | revoke_for_company company_id by_ now =>
      show Written b _ (revoke_for_company company_id by_ now b).2.links
      obtain ⟨hroom, hrun⟩ | ⟨-, hrun⟩ := revoke_for_company_cases b company_id by_ now
      · rw [hrun]
        exact .revoked company_id by_ now hroom
      · rw [hrun]
        exact .kept _
  | set_company company_id status => exact .kept _
  | set_handle company_id handle => exact .kept _

/-- The links stay consistent. -/
theorem Consistent.step {b : Board} (h : Consistent b.links) (label : Label) :
    Consistent (step b label).links := by
  have hwritten := step_written b label
  generalize (Board.step b label).links = links at hwritten ⊢
  cases hwritten with
  | kept => exact h
  | requested _ _ _ hopens => exact hopens.room
  | moved _ _ _ hgrants => exact hgrants.room
  | revoked _ _ _ hroom => exact hroom

/-! ## Room in the table -/

theorem slot_eq {link other : Link} {target : LinkStatus} :
    other.slot = (link.from_company, link.to_company, target) ↔ other.from_company = link.from_company ∧
      other.to_company = link.to_company ∧ other.status = target := by
  simp [Link.slot]

/-- No other link between the same companies has the status. -/
def Free (links : List Link) (target : LinkStatus) (link : Link) : Prop :=
  ∀ other ∈ links, other.id ≠ link.id → other.slot ≠ (link.from_company, link.to_company, target)

/-- A row finds room under a new status if the status is free. -/
theorem room_iff {links : List Link} (h : Consistent links) {link_id : String} {link : Link}
    (hrow : find_link links link_id = some link) (target : LinkStatus) (stamp : Stamp) :
    Consistent (set_status link_id target stamp links) ↔ Free links target link := by
  have hid : link.id = link_id := Table.key_of_find hrow
  have hkeys : ((set_status link_id target stamp links).map Link.id).Nodup := by
    rw [set_status, Table.update, Table.keys_update]
    · exact h.1
    · intro other
      split <;> rfl
  have hslots := Table.nodup_update_iff h.1 h.2 (decided target stamp) hrow
  unfold Free
  rw [hid]
  exact ⟨fun hroom => hslots.mp hroom.2, fun hfree => ⟨hkeys, hslots.mpr hfree⟩⟩

/-- A link that finds room has a new id. -/
theorem new_of_room {links : List Link} {link : Link} (hroom : Consistent (links ++ [link])) :
    find_link links link.id = none := by
  rw [find_link, Table.find_eq_none]
  intro other hmem heq
  have hnodup := hroom.1
  rw [List.map_append, List.nodup_append] at hnodup
  exact hnodup.2.2 other.id (List.mem_map_of_mem hmem) link.id (by simp) heq

/-- A request finds room if its id is new and no other request waits for the same companies. -/
theorem room_for_request {links : List Link} (h : Consistent links) {link : Link}
    (hnew : find_link links link.id = none) :
    Consistent (links ++ [link]) ↔ ∀ other ∈ links, other.slot ≠ link.slot := by
  have hkeys := Table.keys_insert h.1 hnew
  constructor
  · intro hroom other hmem heq
    have hnodup := hroom.2
    rw [List.map_append, List.nodup_append] at hnodup
    exact hnodup.2.2 other.slot (List.mem_map_of_mem hmem) link.slot (by simp) heq
  · intro hfree
    refine ⟨hkeys, ?_⟩
    rw [List.map_append, List.nodup_append]
    refine ⟨h.2, by simp, fun slot hmem slot' hlast heq => ?_⟩
    obtain ⟨other, hother, rfl⟩ := List.mem_map.mp hmem
    exact hfree other hother (heq.trans (by simpa using hlast))

end Board

end CompanyFactory
