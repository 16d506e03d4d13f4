import CompanyFactory.InterCompany.Service

/-!
# `InterCompany.Gate` — what travels over a link

Every message that is handed to a target company travels over an approved link, in its direction, within its scope,
to a company that is open. `send_cross` asks for all of it. `deliver_pending` asks again for the status of the link
and of the company; **the rest it can take from the row**, because the companies and the scope of a link never
change, and no link is ever deleted (`step_terms`).

* `link_gating` — every hand-over of every run.
-/

namespace CompanyFactory

open Act Machine

namespace InterCompany

open BoardApi

/-- The scope of a link allows the kind and the size. -/
structure Permits (scope : LinkScope) (kind : CrossMessageKind) (body : String) : Prop where
  kinds : scope.allowed_messages = [] ∨ kind.value ∈ scope.allowed_messages
  size : (body.utf8ByteSize : Int) ≤ scope.max_payload_bytes

/-- **The gate**, at the moment of the hand-over. -/
def Gated (h : Handover) : Prop :=
  ∃ link status, h.link = some link ∧ h.company = some status ∧ link.status = .APPROVED ∧
    link.from_company = h.from_company ∧ link.to_company = h.to_company ∧
    Permits link.scope h.kind h.body ∧ status.ended = false

/-- A row agrees with the terms of its link. -/
def Backed (links : List Link) (row : CrossEntry) : Prop :=
  ∃ link, Board.find_link links row.link_id = some link ∧ link.from_company = row.from_company ∧
    link.to_company = row.to_company ∧ Permits link.scope row.kind row.body

/-- What a run keeps: the links and companies `L` and `C` for the time of a call, rows that agree with their links, and
    gated hand-overs. -/
structure Kept (L : List Link) (C : String → Option CompanyStatus) (ic : InterCompany) : Prop where
  links : ic.board.links = L
  companies : ic.board.companies = C
  rows : ∀ row ∈ ic.outbox, Backed L row
  gated : ∀ h ∈ ic.handed, Gated h

/-! ## The terms of a link -/

/-- The terms of a link that a step of the board leaves alone. -/
def SameTerms (link link' : Link) : Prop :=
  link'.from_company = link.from_company ∧ link'.to_company = link.to_company ∧ link'.scope = link.scope

/-- **A link keeps its terms.** -/
theorem step_terms (b : Board) (label : Board.Label) {link_id : String} {link : Link}
    (hrow : Board.find_link b.links link_id = some link) :
    ∃ link', Board.find_link (Board.step b label).links link_id = some link' ∧ SameTerms link link' := by
  have hwritten := Board.step_written b label
  generalize (Board.step b label).links = links at hwritten ⊢
  cases hwritten with
  | kept => exact ⟨link, hrow, rfl, rfl, rfl⟩
  | requested _ _ _ _ => exact ⟨link, Table.find_insert_of_some hrow, rfl, rfl, rfl⟩
  | moved moved_id call _ _ =>
      rw [Board.find_set_status, hrow]
      split
      · exact ⟨_, rfl, rfl, rfl, rfl⟩
      · exact ⟨link, rfl, rfl, rfl, rfl⟩
  | revoked company_id by_ now _ =>
      refine ⟨Board.cut_off company_id by_ now link, ?_, Board.cut_off_from link, Board.cut_off_to link,
        Board.cut_off_scope link⟩
      rw [Board.find_cut_off, hrow]
      rfl

theorem Backed.step {b : Board} {row : CrossEntry} (h : Backed b.links row) (label : Board.Label) :
    Backed (Board.step b label).links row := by
  obtain ⟨link, hrow, hfrom, hto, hpermits⟩ := h
  obtain ⟨link', hrow', hfrom', hto', hscope⟩ := step_terms b label hrow
  exact ⟨link', hrow', hfrom'.trans hfrom, hto'.trans hto, hscope.symm ▸ hpermits⟩

/-! ## The parts of a call -/

section Parts

variable {L : List Link} {C : String → Option CompanyStatus}

/-- The computation keeps the links, the companies, and the gate. -/
abbrev Keeps {α : Type} (L : List Link) (C : String → Option CompanyStatus) (m : Act InterCompany Exn α) : Prop :=
  Moves (fun ic ic' => Kept L C ic → Kept L C ic') m

theorem kept_trans (a b c : InterCompany) (h : Kept L C a → Kept L C b) (h' : Kept L C b → Kept L C c) :
    Kept L C a → Kept L C c := fun ha => h' (h ha)

theorem keeps_pure {α : Type} (a : α) : Keeps L C (pure a : Act InterCompany Exn α) := fun _ h => h

theorem keeps_raise {α : Type} (e : Exn) : Keeps L C (Act.raise e : Act InterCompany Exn α) := fun _ h => h

theorem emit_event_keeps (post : Post) (company_id : String) : Keeps L C (emit_event post company_id) := by
  intro ic h
  obtain ⟨hlinks, hcompanies⟩ := Board.emit_to_company_same post company_id ic.board
  exact ⟨hlinks.trans h.links, hcompanies.trans h.companies, h.rows, h.gated⟩

theorem insert_entry_keeps {entry : CrossEntry} (hbacked : Backed L entry) : Keeps L C (insert_entry entry) := by
  intro ic h
  unfold insert_entry
  split
  · exact h
  · refine ⟨h.links, h.companies, fun row hmem => ?_, h.gated⟩
    rcases List.mem_append.mp hmem with hold | hlast
    · exact h.rows row hold
    · obtain rfl := List.mem_singleton.mp hlast
      exact hbacked

theorem record_and_emit_keeps {entry : CrossEntry} (hbacked : Backed L entry) :
    Keeps L C (record_and_emit entry) := by
  refine .bind kept_trans (insert_entry_keeps hbacked) fun _ => ?_
  refine .bind kept_trans (emit_event_keeps _ _) fun _ => ?_
  exact .bind kept_trans (emit_event_keeps _ _) fun _ => keeps_pure _

/-- A new status, reason or target leaves the terms of a row alone. -/
theorem update_status_keeps (outbox_id : String) (status : CrossStatus) (reason target_agent : Option String)
    (now : Time) : Keeps L C (update_status outbox_id status reason target_agent now) := by
  intro ic h
  refine ⟨h.links, h.companies, fun row' hmem => ?_, h.gated⟩
  obtain ⟨row, hrow, rfl⟩ := List.mem_map.mp hmem
  split
  · exact h.rows row hrow
  · exact h.rows row hrow

theorem hand_over_keeps {p : Parcel} {link : Link} {status : CompanyStatus} (handle : CompanyHandle) (now : Time)
    (hlink : Board.find_link L p.link_id = some link) (hstatus : C p.to_company = some status)
    (happroved : link.status = .APPROVED) (hfrom : link.from_company = p.from_company)
    (hto : link.to_company = p.to_company) (hpermits : Permits link.scope p.kind p.body)
    (hopen : status.ended = false) : Keeps L C (hand_over p handle now) := by
  intro ic h
  refine ⟨h.links, h.companies, h.rows, fun handover hmem => ?_⟩
  rcases List.mem_append.mp hmem with hold | hlast
  · exact h.gated handover hold
  · obtain rfl := List.mem_singleton.mp hlast
    refine ⟨link, status, ?_, ?_, happroved, hfrom, hto, hpermits, hopen⟩
    · show Board.find_link ic.board.links p.link_id = _
      rw [h.links, hlink]
    · show ic.board.companies p.to_company = _
      rw [h.companies, hstatus]

/-! ## Sending -/

/-- What the checks of `send_cross` on the link establish. -/
structure Admitted (b : Board) (args : CrossSend) (link : Link) : Prop where
  row : Board.find_link b.links args.link_id = some link
  direction : link.from_company = args.from_company
  approved : link.status = .APPROVED
  kinds : link.scope.allowed_messages = [] ∨ args.message.kind.value ∈ link.scope.allowed_messages
  size : (args.message.body.utf8ByteSize : Int) ≤ link.scope.max_payload_bytes

theorem admitted_ok {b : Board} {args : CrossSend} {link : Link} (h : admitted b args = .ok link) :
    Admitted b args link := by
  obtain ⟨found, hfound, h⟩ := except_bind_eq_ok.mp h
  obtain ⟨_, hdirection, h⟩ := except_bind_eq_ok.mp h
  obtain ⟨_, hstatus, h⟩ := except_bind_eq_ok.mp h
  obtain ⟨_, hscope, h⟩ := except_bind_eq_ok.mp h
  obtain rfl := Except.ok.inj h
  refine ⟨?_, ?_, ?_, ?_, ?_⟩
  · unfold lookup_link at hfound
    split at hfound
    · cases hfound
    · rename_i hrow
      cases hfound
      exact hrow
  · unfold enforce_direction at hdirection
    split at hdirection
    · cases hdirection
    · rename_i hne
      exact Decidable.not_not.mp hne
  · unfold enforce_status at hstatus
    split at hstatus
    · cases hstatus
    · rename_i hne
      exact Decidable.not_not.mp hne
  · unfold enforce_scope at hscope
    split at hscope
    · cases hscope
    · rename_i hkind
      by_contra hno
      rw [not_or] at hno
      exact hkind hno
  · unfold enforce_scope at hscope
    split at hscope
    · cases hscope
    · split at hscope
      · cases hscope
      · rename_i hsize
        exact Int.not_lt.mp hsize

/-- The body that is sent is within the scope, because the one that was checked is, and is not shorter. -/
theorem Admitted.permits {b : Board} {args : CrossSend} {link : Link} (h : Admitted b args link) :
    Permits link.scope args.message.kind (sanitize args.message.body link.scope.max_payload_bytes) where
  kinds := h.kinds
  size := by
    have hshorter := sanitize_size args.message.body link.scope.max_payload_bytes
    have hsize := h.size
    omega

/-- The target company is there, and has not ended. -/
theorem target_open {b : Board} {company_id : String} {handle : CompanyHandle}
    (h : get_target_handle b company_id = .ok handle) :
    ∃ status, b.companies company_id = some status ∧ status.ended = false := by
  unfold get_target_handle Board.get_summary at h
  cases hstatus : b.companies company_id with
  | none => rw [hstatus] at h; cases h
  | some status =>
      rw [hstatus] at h
      dsimp only at h
      split at h
      · cases h
      · rename_i hopen
        exact ⟨status, rfl, by simpa using hopen⟩

theorem enforce_rate_keeps (link : Link) (monotonic : Rat) : Keeps L C (enforce_rate link monotonic) := by
  intro ic h
  unfold enforce_rate
  dsimp only
  split
  · exact h
  · split
    · exact ⟨h.links, h.companies, h.rows, h.gated⟩
    · exact ⟨h.links, h.companies, h.rows, h.gated⟩

theorem deliver_keeps {b : Board} {args : CrossSend} {link : Link} (hadmitted : Admitted b args link)
    (handle : CompanyHandle) {status : CompanyStatus} (hstatus : b.companies link.to_company = some status)
    (hopen : status.ended = false) (target_agent : Option String) :
    Keeps b.links b.companies (deliver args link handle target_agent) := by
  have hbacked : ∀ agent status reason, Backed b.links (args.entry link agent status reason) :=
    fun _ _ _ => ⟨link, hadmitted.row, rfl, rfl, hadmitted.permits⟩
  cases target_agent with
  | none => exact record_and_emit_keeps (hbacked _ _ _)
  | some agent =>
      have hhand : Keeps b.links b.companies (hand_over (args.parcel link agent) handle args.now) :=
        hand_over_keeps handle args.now hadmitted.row hstatus hadmitted.approved hadmitted.direction rfl
          hadmitted.permits hopen
      refine .bind kept_trans (.attempt hhand) fun result => ?_
      cases result with
      | error e => exact .ite (record_and_emit_keeps (hbacked _ _ _)) (keeps_raise e)
      | ok result => exact record_and_emit_keeps (hbacked _ _ _)

theorem send_cross_keeps (args : CrossSend) {ic : InterCompany}
    (h : Kept ic.board.links ic.board.companies ic) :
    Kept ic.board.links ic.board.companies (send_cross args ic).2 := by
  rw [send_cross, read_bind]
  cases hadmitted : admitted ic.board args with
  | error e => exact h
  | ok link =>
      rw [ofExcept_ok_bind]
      refine Moves.bind kept_trans (enforce_rate_keeps link args.monotonic) (fun _ => ?_) ic h
      cases htarget : get_target_handle ic.board link.to_company with
      | error e => exact keeps_raise e
      | ok handle =>
          obtain ⟨status, hstatus, hopen⟩ := target_open htarget
          exact deliver_keeps (admitted_ok hadmitted) handle hstatus hopen _

/-! ## Delivering what was queued -/

theorem settle_keeps (row : CrossEntry) (target_agent : String) (now : Time)
    (result : Except Exn Orchestrator.SendResult) : Keeps L C (settle row target_agent now result) := by
  cases result with
  | error e => exact .ite (keeps_pure _) (keeps_raise e)
  | ok result =>
      exact .ite (keeps_pure _) (.bind kept_trans (update_status_keeps _ _ _ _ _) fun _ => keeps_pure _)

/-- A row is handed over again through the gate: its link is looked up, and its terms are those of the row. -/
theorem redeliver_keeps {company_id : String} (now : Time) {handle : CompanyHandle} {row : CrossEntry}
    (hbacked : Backed L row) (hto : row.to_company = company_id) {status : CompanyStatus}
    (hstatus : C company_id = some status) (hopen : status.ended = false) :
    Keeps L C (redeliver company_id now handle row) := by
  intro ic h
  obtain ⟨link, hrow, hfrom, hlink_to, hpermits⟩ := hbacked
  have hlookup : lookup_link ic.board row.link_id = .ok link := by rw [lookup_link, h.links, hrow]
  rw [redeliver, read_bind, hlookup, ofExcept_ok_bind]
  by_cases happroved : link.status = .APPROVED
  · rw [if_neg (not_not.mpr happroved)]
    cases inbox_of ic.board row company_id with
    | none => exact Moves.bind kept_trans (update_status_keeps _ _ _ _ _) (fun _ => keeps_pure _) ic h
    | some agent =>
        have hhand : Keeps L C (hand_over (row.parcel company_id agent) handle now) :=
          hand_over_keeps handle now hrow hstatus happroved hfrom (hlink_to.trans hto) hpermits hopen
        have hsettled : Keeps L C (Act.attempt (hand_over (row.parcel company_id agent) handle now) >>=
            settle row agent now) := .bind kept_trans (.attempt hhand) (settle_keeps row agent now)
        exact hsettled ic h
  · rw [if_pos happroved]
    exact Moves.bind kept_trans (update_status_keeps _ _ _ _ _) (fun _ => keeps_pure _) ic h

theorem flush_keeps (company_id : String) (now : Time) (rows : List CrossEntry)
    (hrows : ∀ row ∈ rows, Backed L row ∧ row.to_company = company_id) :
    Keeps L C (flush company_id now rows) := by
  induction rows with
  | nil => exact keeps_pure 0
  | cons row rows ih =>
      intro ic h
      have hrest := ih fun other hmem => hrows other (List.mem_cons_of_mem _ hmem)
      obtain ⟨hbacked, hto⟩ := hrows row List.mem_cons_self
      rw [flush, read_bind]
      cases htarget : get_target_handle ic.board company_id with
      | error e => exact h
      | ok handle =>
          obtain ⟨status, hstatus, hopen⟩ := target_open htarget
          rw [h.companies] at hstatus
          refine Moves.bind kept_trans (redeliver_keeps now hbacked hto hstatus hopen) (fun settled => ?_) ic h
          exact .bind kept_trans hrest fun _ => keeps_pure _

end Parts

theorem mem_pending {outbox : List CrossEntry} {company_id : String} {row : CrossEntry} :
    row ∈ pending outbox company_id ↔
      row ∈ outbox ∧ row.to_company = company_id ∧ row.status = .QUEUED := by
  rw [pending, (List.perm_insertionSort _ _).mem_iff, List.mem_filter]
  simp

theorem deliver_pending_keeps (company_id : String) (now : Time) {ic : InterCompany}
    (h : Kept ic.board.links ic.board.companies ic) :
    Kept ic.board.links ic.board.companies (deliver_pending company_id now ic).2 := by
  rw [deliver_pending, read_bind]
  refine flush_keeps company_id now _ (fun row hmem => ?_) ic h
  obtain ⟨hrow, hto, -⟩ := mem_pending.mp hmem
  exact ⟨h.rows row hrow, hto⟩

/-! ## Runs -/

/-- What a run keeps, whatever the links and the companies are. -/
def Sealed (ic : InterCompany) : Prop := Kept ic.board.links ic.board.companies ic

theorem Sealed.step {ic : InterCompany} (h : Sealed ic) (label : Label) : Sealed (step ic label) := by
  have hcall : ∀ {ic'}, Kept ic.board.links ic.board.companies ic' → Sealed ic' := by
    intro ic' h'
    unfold Sealed
    rw [h'.links, h'.companies]
    exact h'
  cases label with
  | send_cross args => exact hcall (send_cross_keeps args h)
  | deliver_pending company_id now => exact hcall (deliver_pending_keeps company_id now h)
  | board label => exact ⟨rfl, rfl, fun row hmem => (h.rows row hmem).step label, h.gated⟩

/-- **Every hand-over passes the gate.** In a run of link operations, sends, deliveries of queued messages and
    whatever happens to the companies, each message that is handed to a company travels over a link that is approved
    at this moment, in its direction and within its scope, to a company that has not ended. -/
theorem link_gating (companies : String → Option CompanyStatus) (handles : String → Option CompanyHandle)
    (run : List Label) : ∀ h ∈ (exec step (fresh companies handles) run).handed, Gated h := by
  have hfresh : Sealed (fresh companies handles) :=
    ⟨rfl, rfl, fun _ h => absurd h List.not_mem_nil, fun _ h => absurd h List.not_mem_nil⟩
  have hstep : ∀ ic label, Sealed ic → Sealed (step ic label) := fun _ label h => h.step label
  exact (exec_invariant hstep hfresh run).gated

/-- A company with one agent, HR. -/
def hr_company : CompanyHandle where
  identity :=
    [{ id := "hr", role := .HR, persona_ref := "default", reports_to := none, status := .ACTIVE, hired_at := 0 }]
  orchestrator := { Orchestrator.fresh [] .quiet {} {} id with agents := [⟨"hr", 0⟩] }

/-- `A` and `B` are active; `B` is loaded. -/
def a_and_b : InterCompany :=
  fresh (fun _ => some .ACTIVE) (fun company_id => if company_id = "B" then some hr_company else none)

/-- The link `L1` from `A` to `B`, approved. -/
def link_a_b : List Label :=
  [.board (.request "L1" 1
      { from_company := "A", to_company := "B", relationship := .PEER, scope := {}, requested_by := "board" }),
    .board (.call "L1" (.decide "approve" { by_ := "board", now := 2, note := none }))]

def inquiry : CrossSend :=
  { link_id := "L1", from_agent := "a1", from_company := "A"
    message := { kind := .INQUIRY, subject := "price", body := "What does it cost?" }
    request_id := some "r1", uuid := "u1", now := 3, monotonic := 3 }

/-- An inquiry over `L1` is handed over. -/
theorem link_gating_inquiry :
    ∃ h ∈ (exec step a_and_b (link_a_b ++ [.send_cross inquiry])).handed, Gated h := by
  have hne : (exec step a_and_b (link_a_b ++ [.send_cross inquiry])).handed ≠ [] := by decide +kernel
  exact ⟨_, List.head_mem hne, link_gating _ _ _ _ (List.head_mem hne)⟩

end InterCompany

end CompanyFactory
