import CompanyFactory.InterCompany.Gate

/-!
# `InterCompany.Mirror` — the events about links and cross-company messages

`request`, `decide` and `send_cross` tell the event logs of the two companies what has happened, and pass over every
refusal of a log. The payloads are built by hand, and **none of the three has the fields that its kind of event
asks for**: the store refuses each of them, whatever the companies, scopes and texts are.

* `events_mirrored` — a request and an approval are mirrored exactly if neither company is loaded, that is, if there
  is no log to write to; an outbox row never is, because its target is loaded.
-/

namespace CompanyFactory

open Act Machine

namespace Board

open BoardApi

/-- How many events of a kind there are. -/
def count_kind (kind : EventKind) (events : EventStore) : Nat :=
  events.log.countP (fun event => event.kind = kind)

/-- **The log of the company, if it is loaded, gains exactly one event of the kind.** -/
def Mirrors (kind : EventKind) (company_id : String) (b b' : Board) : Prop :=
  ∀ handle, b.handles company_id = some handle → ∃ handle', b'.handles company_id = some handle' ∧
    count_kind kind handle'.events = count_kind kind handle.events + 1

variable {b b' : Board} {kind : EventKind} {company_id : String}

/-! ## Refused payloads -/

/-- The store refuses the payload of the post. -/
def Refused (post : Post) : Prop := ∃ e, EventStore.validate_payload post.kind post.payload = .error e

theorem link_requested_refused (link_id : String) (req : LinkRequest) :
    Refused (link_requested link_id req) := ⟨_, rfl⟩

theorem link_approved_refused (link : Link) (decided_by : String) : Refused (link_approved link decided_by) :=
  ⟨_, rfl⟩

theorem append_refused {post : Post} (h : Refused post) (events : EventStore) :
    (EventStore.append post).after events = events := by
  obtain ⟨e, he⟩ := h
  show (EventStore.append post events).2 = events
  rw [EventStore.append, he]

/-- The handles are the same. -/
def SameHandles (b b' : Board) : Prop := b'.handles = b.handles

theorem SameHandles.refl (b : Board) : SameHandles b b := rfl

theorem SameHandles.trans (b b' b'' : Board) (h : SameHandles b b') (h' : SameHandles b' b'') :
    SameHandles b b'' := Eq.trans h' h

/-- An event that is refused leaves the companies as they were. -/
theorem emit_refused {post : Post} (h : Refused post) (company_id : String) :
    Moves SameHandles (emit_to_company post company_id) := by
  intro b
  unfold emit_to_company
  split
  · exact .refl b
  · rename_i handle hhandle
    have hsame : handle.set_events handle.events = handle := rfl
    dsimp only
    rw [append_refused h, hsame]
    show Function.update b.handles company_id (some handle) = b.handles
    rw [← hhandle, Function.update_eq_self]

theorem emit_both_refused {post : Post} (h : Refused post) (link : Link) :
    Moves SameHandles (emit_to_both post link) :=
  .bind SameHandles.trans (emit_refused h _) fun _ => emit_refused h _

theorem write_links_handles (f : List Link → List Link) : Moves SameHandles (write_links f) := by
  intro b
  unfold write_links
  split <;> rfl

theorem get_link_handles (link_id : String) : Moves SameHandles (get_link link_id) := by
  intro b
  unfold get_link
  split <;> rfl

/-! ## Requests and decisions -/

theorem request_handles (link_id : String) (now : Time) (req : LinkRequest) :
    Moves SameHandles (request link_id now req) := by
  have hinsert : Moves SameHandles (insert_link (requested link_id now req)) := by
    refine .bind SameHandles.trans (.attempt (write_links_handles _)) fun inserted => ?_
    cases inserted with
    | ok _ => exact .pure SameHandles.refl _
    | error _ => exact .raise SameHandles.refl _
  refine .ite (.raise SameHandles.refl _) (.bind SameHandles.trans (.read SameHandles.refl _) fun b => ?_)
  refine .bind SameHandles.trans (.ofExcept SameHandles.refl _) fun _ => ?_
  refine .bind SameHandles.trans (.ofExcept SameHandles.refl _) fun _ => ?_
  refine .bind SameHandles.trans hinsert fun _ => ?_
  refine .bind SameHandles.trans (get_link_handles _) fun link => ?_
  refine .bind SameHandles.trans (emit_both_refused (link_requested_refused link_id req) link) fun _ => ?_
  exact .pure SameHandles.refl _

theorem transition_handles (allowed : LinkStatus → Bool) (refusal : String) (target : LinkStatus)
    (link_id : String) (stamp : Stamp) : Moves SameHandles (transition allowed refusal target link_id stamp) := by
  refine .bind SameHandles.trans (get_link_handles _) fun link => .ite (.raise SameHandles.refl _) ?_
  exact .bind SameHandles.trans (write_links_handles _) fun _ => get_link_handles _

theorem decide_handles (link_id decision : String) (stamp : Stamp) :
    Moves SameHandles (decide link_id decision stamp) := by
  refine .ite (.raise SameHandles.refl _) ?_
  refine .bind SameHandles.trans (transition_handles _ _ _ _ _) fun link => .ite ?_ (.pure SameHandles.refl _)
  refine .bind SameHandles.trans (emit_both_refused (link_approved_refused link stamp.by_) link) fun _ => ?_
  exact .pure SameHandles.refl _

/-- If the companies are as they were, only a company that is not loaded has all its events. -/
theorem mirrors_iff (h : SameHandles b b') : Mirrors kind company_id b b' ↔ b.handles company_id = none := by
  constructor
  · intro hmirrors
    cases hhandle : b.handles company_id with
    | none => rfl
    | some handle =>
        obtain ⟨handle', hhandle', hcount⟩ := hmirrors handle hhandle
        rw [h, hhandle] at hhandle'
        cases hhandle'
        omega
  · intro hnone handle hhandle
    rw [hnone] at hhandle
    cases hhandle

/-- A request that succeeds is in the logs of both companies. -/
def request_mirrored (b : Board) (link_id : String) (now : Time) (req : LinkRequest) : Prop :=
  ∀ link b', request link_id now req b = (.ok link, b') →
    Mirrors .LINK_REQUESTED req.from_company b b' ∧ Mirrors .LINK_REQUESTED req.to_company b b'

/-- An approval that succeeds is in the logs of both companies. -/
def approval_mirrored (b : Board) (link_id : String) (stamp : Stamp) : Prop :=
  ∀ link b', decide link_id "approve" stamp b = (.ok link, b') →
    Mirrors .LINK_APPROVED link.from_company b b' ∧ Mirrors .LINK_APPROVED link.to_company b b'

theorem request_mirrored_iff (b : Board) (link_id : String) (now : Time) (req : LinkRequest) :
    request_mirrored b link_id now req ↔ (Opens b link_id now req →
      b.handles req.from_company = none ∧ b.handles req.to_company = none) := by
  have hsame := request_handles link_id now req b
  unfold request_mirrored
  obtain ⟨b', hopens, hrun, -, -⟩ | ⟨hno, e, hrun⟩ := request_cases b link_id now req
  · rw [hrun] at hsame
    constructor
    · intro hmirrored _
      obtain ⟨hfrom, hto⟩ := hmirrored _ _ hrun
      exact ⟨(mirrors_iff hsame).mp hfrom, (mirrors_iff hsame).mp hto⟩
    · intro hnone link b'' hreturns
      obtain ⟨-, rfl⟩ := Prod.mk.inj (hrun.symm.trans hreturns)
      obtain ⟨hfrom, hto⟩ := hnone hopens
      exact ⟨(mirrors_iff hsame).mpr hfrom, (mirrors_iff hsame).mpr hto⟩
  · refine iff_of_true (fun link b' hreturns => ?_) fun hopens => absurd hopens hno
    rw [hrun] at hreturns
    cases hreturns

theorem approval_mirrored_iff (b : Board) (link_id : String) (stamp : Stamp) :
    approval_mirrored b link_id stamp ↔ ∀ link, Grants b link_id (.decide "approve" stamp) link →
      b.handles link.from_company = none ∧ b.handles link.to_company = none := by
  have hsame := decide_handles link_id "approve" stamp b
  have hcases := call_cases b link_id (.decide "approve" stamp)
  unfold approval_mirrored
  obtain ⟨link, b', hgrants, hrun, -, -⟩ | ⟨hno, e, hrun⟩ := hcases
  · change decide link_id "approve" stamp b = _ at hrun
    rw [hrun] at hsame
    constructor
    · intro hmirrored link' hgrants'
      obtain rfl : link' = link := Option.some.inj (hgrants'.row.symm.trans hgrants.row)
      obtain ⟨hfrom, hto⟩ := hmirrored _ _ hrun
      exact ⟨(mirrors_iff hsame).mp hfrom, (mirrors_iff hsame).mp hto⟩
    · intro hnone link' b'' hreturns
      obtain ⟨hlink, rfl⟩ := Prod.mk.inj (hrun.symm.trans hreturns)
      obtain rfl := Except.ok.inj hlink
      obtain ⟨hfrom, hto⟩ := hnone link hgrants
      exact ⟨(mirrors_iff hsame).mpr hfrom, (mirrors_iff hsame).mpr hto⟩
  · change decide link_id "approve" stamp b = _ at hrun
    refine iff_of_true (fun link b' hreturns => ?_) fun link hgrants => absurd hgrants (hno link)
    rw [hrun] at hreturns
    cases hreturns

end Board

/-! ## What a system message writes -/

namespace Orchestrator

/-- As many events of the kind as before. -/
def SameCount (kind : EventKind) (o o' : Orchestrator) : Prop :=
  Board.count_kind kind o'.events = Board.count_kind kind o.events

variable {kind : EventKind}

theorem SameCount.refl (o : Orchestrator) : SameCount kind o o := rfl

theorem SameCount.trans (o o' o'' : Orchestrator) (h : SameCount kind o o') (h' : SameCount kind o' o'') :
    SameCount kind o o'' := Eq.trans h' h

/-- An event of another kind does not count. -/
theorem append_other {post : Post} (hne : post.kind ≠ kind) : Moves (SameCount kind) (append post) := by
  intro o
  have hsame : Board.count_kind kind (EventStore.append post o.events).2 = Board.count_kind kind o.events := by
    unfold Board.count_kind
    obtain ⟨_, -, -, hlog⟩ | ⟨event, -, hlog, hkind⟩ := EventStore.append_cases post o.events
    · rw [hlog]
    · have hother : event.kind ≠ kind := hkind ▸ hne
      rw [hlog, List.countP_append, List.countP_singleton]
      simp [hother]
  show Board.count_kind kind ((do let _ ← EventStore.append post; pure ()) o.events).2 = _
  rw [bind_pure_state]
  exact hsame

theorem persist_other (hne : EventKind.AGENT_HEALTH_ALERT ≠ kind) (req : SendRequest) :
    Moves (SameCount kind) (persist req) := by
  have hpush : ∀ env, Moves (SameCount kind) (enqueue env) := by
    intro env o
    unfold enqueue
    split <;> rfl
  refine .bind SameCount.trans (.read SameCount.refl _) fun env => ?_
  refine .bind SameCount.trans (.attempt (hpush env)) fun pushed => ?_
  cases pushed with
  | ok _ => exact .pure SameCount.refl _
  | error e => exact .bind SameCount.trans (append_other hne) fun _ => .raise SameCount.refl _

/-- A system message writes no event but its own, or an alert. -/
theorem system_send_other (hsent : EventKind.MESSAGE_SENT ≠ kind) (hne : EventKind.AGENT_HEALTH_ALERT ≠ kind)
    {req : SendRequest} (hsystem : req.system = true) : Moves (SameCount kind) (system_send req) := by
  have hdeliver : Moves (SameCount kind) (deliver_to_queue req) := by
    refine .bind SameCount.trans (.read SameCount.refl _) fun _ => .ite (.pure SameCount.refl _) ?_
    refine .bind SameCount.trans (persist_other hne req) fun _ => ?_
    exact .bind SameCount.trans (append_other hsent) fun _ => .pure SameCount.refl _
  have hreject : Moves (SameCount kind) (reject_recipient (fun _ => pure .REJECTED_INVALID_TARGET) req) := by
    unfold reject_recipient
    split
    · exact .pure SameCount.refl _
    · exact .bind SameCount.trans (.pure SameCount.refl _) fun _ => .pure SameCount.refl _
  refine .bind SameCount.trans (.read SameCount.refl _) fun o => ?_
  refine .ite (.pure SameCount.refl _) (.ite (.pure SameCount.refl _) (.ite hreject (.ite (.pure SameCount.refl _)
    (.ite (.pure SameCount.refl _) ?_))))
  rw [past_rate, hsystem]
  exact hdeliver

end Orchestrator

/-! ## Outbox rows -/

namespace InterCompany

open BoardApi Board

/-- Every loaded company stays loaded, with as many events of the kind `EXTERNAL_CALL`. -/
def SameCalls (ic ic' : InterCompany) : Prop :=
  ∀ company_id handle, ic.board.handles company_id = some handle →
    ∃ handle', ic'.board.handles company_id = some handle' ∧
      count_kind .EXTERNAL_CALL handle'.events = count_kind .EXTERNAL_CALL handle.events

theorem SameCalls.refl (ic : InterCompany) : SameCalls ic ic := fun _ handle h => ⟨handle, h, rfl⟩

theorem SameCalls.trans (ic ic' ic'' : InterCompany) (h : SameCalls ic ic') (h' : SameCalls ic' ic'') :
    SameCalls ic ic'' := by
  intro company_id handle hhandle
  obtain ⟨handle', hhandle', hcount⟩ := h company_id handle hhandle
  obtain ⟨handle'', hhandle'', hcount'⟩ := h' company_id handle' hhandle'
  exact ⟨handle'', hhandle'', hcount'.trans hcount⟩

theorem SameCalls.of_handles {ic ic' : InterCompany} (h : ic'.board.handles = ic.board.handles) :
    SameCalls ic ic' := fun _ handle hhandle => ⟨handle, h ▸ hhandle, rfl⟩

theorem external_call_refused (entry : CrossEntry) (direction : String) :
    Refused (external_call entry direction) := ⟨_, rfl⟩

theorem record_and_emit_calls (entry : CrossEntry) : Moves SameCalls (record_and_emit entry) := by
  have hinsert : Moves SameCalls (insert_entry entry) := by
    intro ic
    unfold insert_entry
    split <;> exact .of_handles rfl
  have hemit : ∀ direction company_id, Moves SameCalls (emit_event (external_call entry direction) company_id) :=
    fun direction company_id ic => .of_handles (emit_refused (external_call_refused entry direction) company_id _)
  refine .bind SameCalls.trans hinsert fun _ => .bind SameCalls.trans (hemit _ _) fun _ => ?_
  exact .bind SameCalls.trans (hemit _ _) fun _ => .pure SameCalls.refl _

theorem hand_over_calls {p : Parcel} {handle : CompanyHandle} (now : Time) {ic : InterCompany}
    (hhandle : ic.board.handles p.to_company = some handle) : SameCalls ic (hand_over p handle now ic).2 := by
  have hsame : Orchestrator.SameCount .EXTERNAL_CALL handle.orchestra
      (Orchestrator.system_send (p.request now) handle.orchestra).2 :=
    Orchestrator.system_send_other (by decide) (by decide) rfl _
  intro company_id handle' hhandle'
  by_cases hto : company_id = p.to_company
  · subst hto
    obtain rfl := Option.some.inj (hhandle.symm.trans hhandle')
    -- the handle keeps its other fields, so its log is the one of the orchestrator
    have hcount : ∀ o, Orchestrator.SameCount .EXTERNAL_CALL handle.orchestra o →
        count_kind .EXTERNAL_CALL (with_orchestra handle o).events = count_kind .EXTERNAL_CALL handle.events :=
      fun _ hsame => hsame
    exact ⟨_, Function.update_self _ _ _, hcount _ hsame⟩
  · exact ⟨handle', (Function.update_of_ne hto _ _).trans hhandle', rfl⟩

theorem target_loaded {b : Board} {company_id : String} {handle : CompanyHandle}
    (h : get_target_handle b company_id = .ok handle) : b.handles company_id = some handle := by
  unfold get_target_handle at h
  split at h
  · cases h
  · split at h
    · cases h
    · unfold Board.get_handle at h
      cases hhandle : b.handles company_id with
      | none => rw [hhandle] at h; cases h
      | some handle' => rw [hhandle] at h; cases h; rfl

theorem enforce_rate_board (link : Link) (monotonic : Rat) (ic : InterCompany) :
    (enforce_rate link monotonic ic).2.board = ic.board := by
  unfold enforce_rate
  dsimp only
  split
  · rfl
  · split <;> rfl

theorem deliver_calls {args : CrossSend} {link : Link} {handle : CompanyHandle} (target_agent : Option String)
    {ic : InterCompany} (hhandle : ic.board.handles link.to_company = some handle) :
    SameCalls ic (deliver args link handle target_agent ic).2 := by
  cases target_agent with
  | none => exact record_and_emit_calls _ ic
  | some agent =>
      have hhanded : SameCalls ic (hand_over (args.parcel link agent) handle args.now ic).2 :=
        hand_over_calls args.now hhandle
      have hrecord : ∀ result, Moves SameCalls (record_outcome args link agent result) := by
        intro result
        cases result with
        | error e => exact .ite (record_and_emit_calls _) (.raise SameCalls.refl _)
        | ok result => exact record_and_emit_calls _
      exact hhanded.trans _ _ _ (hrecord _ _)

/-- **A send that returns** found its target loaded, and has written no event about its row. -/
theorem send_cross_calls {args : CrossSend} {ic ic' : InterCompany} {result : CrossResult}
    (h : send_cross args ic = (.ok result, ic')) :
    ∃ link handle, Board.find_link ic.board.links args.link_id = some link ∧
      ic.board.handles link.to_company = some handle ∧ SameCalls ic ic' := by
  rw [send_cross, read_bind] at h
  obtain ⟨link, _, hchecks, h⟩ := bind_eq_ok.mp h
  obtain ⟨hadmitted, rfl⟩ := Prod.mk.inj hchecks
  obtain ⟨_, ic₁, hrate, h⟩ := bind_eq_ok.mp h
  obtain ⟨handle, _, hread, h⟩ := bind_eq_ok.mp h
  obtain ⟨htarget, rfl⟩ := Prod.mk.inj hread
  have hboard : ic₁.board = ic.board := by
    have hboard := enforce_rate_board link args.monotonic ic
    rwa [hrate] at hboard
  have hloaded := target_loaded htarget
  refine ⟨link, handle, (admitted_ok hadmitted).row, hloaded, ?_⟩
  have hcalls : SameCalls ic₁ (deliver args link handle (resolve_inbox_agent ic.board link.to_company) ic₁).2 :=
    deliver_calls _ (hboard ▸ hloaded)
  rw [h] at hcalls
  exact (SameCalls.of_handles (congrArg Board.handles hboard)).trans _ _ _ hcalls

/-- **What reaches the logs.** A request and an approval are in the logs of the companies that are loaded exactly if
    none is, and a send that writes a row never is. -/
theorem events_mirrored (b : Board) (link_id : String) (now : Time) (req : LinkRequest) (stamp : Stamp)
    (args : CrossSend) (ic : InterCompany) :
    (request_mirrored b link_id now req ↔ (Opens b link_id now req →
      b.handles req.from_company = none ∧ b.handles req.to_company = none)) ∧
    (approval_mirrored b link_id stamp ↔
      ∀ link, Grants b link_id (.decide "approve" stamp) link →
        b.handles link.from_company = none ∧ b.handles link.to_company = none) ∧
    ∀ result ic', send_cross args ic = (.ok result, ic') →
      ∃ link, Board.find_link ic.board.links args.link_id = some link ∧
        ¬ Mirrors .EXTERNAL_CALL link.to_company ic.board ic'.board := by
  refine ⟨request_mirrored_iff b link_id now req, approval_mirrored_iff b link_id stamp, fun result ic' h => ?_⟩
  obtain ⟨link, handle, hrow, hloaded, hcalls⟩ := send_cross_calls h
  refine ⟨link, hrow, fun hmirrors => ?_⟩
  obtain ⟨handle₁, hhandle₁, hmore⟩ := hmirrors handle hloaded
  obtain ⟨handle₂, hhandle₂, hsame⟩ := hcalls _ handle hloaded
  obtain rfl := Option.some.inj (hhandle₁.symm.trans hhandle₂)
  omega

/-- The request of a link to the loaded company `B` is in no log. -/
theorem request_unmirrored : ¬ ∀ b link_id now req, request_mirrored b link_id now req := by
  intro hall
  have hopen := (request_mirrored_iff a_and_b.board "L1" 1
    { from_company := "A", to_company := "B", relationship := .PEER, scope := {}, requested_by := "board" }).mp
    (hall _ _ _ _)
  have hnone := (hopen ⟨by decide, by decide, by decide, by decide⟩).2
  cases hnone

end InterCompany

end CompanyFactory
