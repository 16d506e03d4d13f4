import CompanyFactory.InterCompany.Gate

/-!
# `InterCompany.Pause` — the routes that pause and resume a company

A row of the outbox is `QUEUED` while its target is paused, and `deliver_pending` is there to deliver it afterwards.
**Nothing calls it**: the route that resumes a company resumes its clock, writes the audit record and returns.

Of the clock this module has what the orchestrator asks for, whether it accepts messages; `pause` and `resume` leave
the rest of it to the module about the clock.

* `resumed_outbox` — the outbox is what it was.
* `none_stranded` — a resume leaves no queued row behind exactly if there was none to deliver.
-/

namespace CompanyFactory

open Act Machine

namespace BoardApi.CompanyHandle

def append (post : Post) : Act CompanyHandle Exn Unit := fun handle =>
  let appended := EventStore.append post handle.events
  (appended.1.map fun _ => (), handle.set_events appended.2)

def set_accepting (accepting : Bool) (handle : CompanyHandle) : CompanyHandle :=
  { handle with orchestrator := { handle.orchestrator with accepting } }

def clock_paused (requested_by : String) : Post := { kind := .CLOCK_PAUSED, payload := [("by", .str requested_by)] }

def clock_resumed (requested_by : String) : Post := { kind := .CLOCK_RESUMED, payload := [("by", .str requested_by)] }

/-- `Clock.pause`: the new state is kept, also if the event is refused. -/
def pause (requested_by : String) : Act CompanyHandle Exn Unit := fun handle =>
  if !handle.orchestrator.accepting then (.ok (), handle)
  else append (clock_paused requested_by) (handle.set_accepting false)

/-- `Clock.resume` -/
def resume (requested_by : String) : Act CompanyHandle Exn Unit := fun handle =>
  if handle.orchestrator.accepting then (.ok (), handle)
  else append (clock_resumed requested_by) (handle.set_accepting true)

end BoardApi.CompanyHandle

namespace InterCompany

open BoardApi

/-- A request to one of the two routes, with what the check of the user and the audit record come to. -/
structure RouteCall where
  company_id : String
  user_id : String
  access : Except Exn Unit
  audit : Except Exn Unit

/-- `runtime.factory.get_handle(company_id)`, and a call on the handle. -/
def on_handle (company_id : String) (f : Act CompanyHandle Exn Unit) : Act InterCompany Exn Unit := fun ic =>
  match ic.board.handles company_id with
  | none => (.error (.other "HTTPException" "company_not_found"), ic)
  | some handle => ((f handle).1, { ic with board := ic.board.set_handle company_id (some (f handle).2) })

def pause_company (call : RouteCall) : Act InterCompany Exn Unit := do
  Act.ofExcept call.access
  on_handle call.company_id (CompanyHandle.pause call.user_id)
  Act.ofExcept call.audit

def resume_company (call : RouteCall) : Act InterCompany Exn Unit := do
  Act.ofExcept call.access
  on_handle call.company_id (CompanyHandle.resume call.user_id)
  Act.ofExcept call.audit

/-- What happens between companies, with the two routes. -/
inductive Move where
  | service (label : Label)
  | pause_company (call : RouteCall)
  | resume_company (call : RouteCall)

def Move.step (ic : InterCompany) : Move → InterCompany
  | .service label => InterCompany.step ic label
  | .pause_company call => (InterCompany.pause_company call).after ic
  | .resume_company call => (InterCompany.resume_company call).after ic

/-! ## What a resume does -/

/-- Nothing but the handles changes. -/
def SameOutbox (ic ic' : InterCompany) : Prop := ic'.outbox = ic.outbox ∧ ic'.board.links = ic.board.links

theorem SameOutbox.refl (ic : InterCompany) : SameOutbox ic ic := ⟨rfl, rfl⟩

theorem SameOutbox.trans (ic ic' ic'' : InterCompany) (h : SameOutbox ic ic') (h' : SameOutbox ic' ic'') :
    SameOutbox ic ic'' := ⟨h'.1.trans h.1, h'.2.trans h.2⟩

theorem on_handle_same (company_id : String) (f : Act CompanyHandle Exn Unit) :
    Moves SameOutbox (on_handle company_id f) := by
  intro ic
  unfold on_handle
  split
  · exact .refl ic
  · exact ⟨rfl, rfl⟩

/-- **The resume leaves the outbox and the links as they were.** -/
theorem resumed_outbox (call : RouteCall) : Moves SameOutbox (resume_company call) := by
  refine .bind SameOutbox.trans (.ofExcept SameOutbox.refl _) fun _ => ?_
  exact .bind SameOutbox.trans (on_handle_same _ _) fun _ => .ofExcept SameOutbox.refl _

/-- The company is loaded, and paused. -/
def Paused (ic : InterCompany) (company_id : String) : Prop :=
  ∃ handle, ic.board.handles company_id = some handle ∧ handle.orchestrator.accepting = false

/-- A row that waits for the company, over an approved link. -/
def Waiting (ic : InterCompany) (company_id : String) (row : CrossEntry) : Prop :=
  row ∈ ic.outbox ∧ row.to_company = company_id ∧ row.status = .QUEUED ∧
    ∃ link, Board.find_link ic.board.links row.link_id = some link ∧ link.status = .APPROVED

/-- The log of the company takes the event of the resume, and nothing else refuses the call. -/
def GoesThrough (ic : InterCompany) (call : RouteCall) : Prop :=
  call.access = .ok () ∧ call.audit = .ok () ∧ ∀ handle, ic.board.handles call.company_id = some handle →
    handle.events.accepts [CompanyHandle.clock_resumed call.user_id] = true

/-- A resume from a pause returns, and leaves none of the rows queued that had waited for it. -/
def Flushes (ic : InterCompany) (call : RouteCall) : Prop :=
  Paused ic call.company_id → (resume_company call ic).1 = .ok () → ∀ row, Waiting ic call.company_id row →
    ∀ row' ∈ (resume_company call ic).2.outbox, row'.id = row.id → row'.status ≠ .QUEUED

variable {ic : InterCompany} {call : RouteCall}

theorem append_returns (post : Post) (handle : CompanyHandle) :
    (CompanyHandle.append post handle).1 = .ok () ↔ handle.events.accepts [post] = true := by
  unfold CompanyHandle.append EventStore.accepts Act.returns
  rw [EventStore.appendAll_singleton]
  rcases EventStore.append post handle.events with ⟨_ | event, events⟩
  · exact ⟨nofun, nofun⟩
  · exact ⟨fun _ => rfl, fun _ => rfl⟩

/-- When the resume of a paused company returns. -/
theorem resume_returns (hpaused : Paused ic call.company_id) :
    (resume_company call ic).1 = .ok () ↔ GoesThrough ic call := by
  obtain ⟨handle, hloaded, hstopped⟩ := hpaused
  have hresume : CompanyHandle.resume call.user_id handle =
      CompanyHandle.append (CompanyHandle.clock_resumed call.user_id) (handle.set_accepting true) := by
    rw [CompanyHandle.resume, hstopped, if_neg Bool.false_ne_true]
  have happend := append_returns (CompanyHandle.clock_resumed call.user_id) (handle.set_accepting true)
  obtain ⟨ic', hhandle⟩ : ∃ ic', on_handle call.company_id (CompanyHandle.resume call.user_id) ic =
      ((CompanyHandle.append (CompanyHandle.clock_resumed call.user_id) (handle.set_accepting true)).1, ic') := by
    rw [on_handle, hloaded]
    dsimp only
    rw [hresume]
    exact ⟨_, rfl⟩
  rw [resume_company]
  unfold GoesThrough
  cases hacc : call.access with
  | error e => exact ⟨nofun, fun h => nomatch h.1⟩
  | ok u =>
      rw [ofExcept_ok_bind]
      cases hlog : (CompanyHandle.append (CompanyHandle.clock_resumed call.user_id) (handle.set_accepting true)).1 with
      | error e =>
          rw [hlog] at hhandle happend
          rw [bind_of_error hhandle]
          refine ⟨nofun, fun h => ?_⟩
          cases happend.mpr (h.2.2 handle hloaded)
      | ok u =>
          rw [hlog] at hhandle happend
          rw [bind_of_ok hhandle]
          have htakes : handle.events.accepts [CompanyHandle.clock_resumed call.user_id] = true := happend.mp rfl
          refine ⟨fun h => ⟨rfl, h, fun handle' h' => ?_⟩, fun h => h.2.1⟩
          obtain rfl := Option.some.inj (hloaded.symm.trans h')
          exact htakes

/-- **A resume flushes nothing.** -/
theorem flushes_iff : Flushes ic call ↔
    (Paused ic call.company_id → GoesThrough ic call → ∀ row, ¬ Waiting ic call.company_id row) := by
  refine forall_congr' fun hpaused => ?_
  rw [resume_returns hpaused]
  refine forall_congr' fun _ => forall_congr' fun row => ?_
  have hsame : (resume_company call ic).2.outbox = ic.outbox := (resumed_outbox call ic).1
  rw [hsame]
  refine ⟨fun h hwaiting => ?_, fun h hwaiting => absurd hwaiting h⟩
  exact h hwaiting row hwaiting.1 rfl hwaiting.2.2.1

/-- No resume in the run finds a row that waits for its company. -/
def finds_none_waiting (ic : InterCompany) : Move → Prop
  | .resume_company call => Paused ic call.company_id → GoesThrough ic call → ∀ row, ¬ Waiting ic call.company_id row
  | _ => True

/-- **No stranded message, exactly if there was none.** In every run of sends, deliveries, link operations, pauses and
    resumes: each resume that returns leaves no row queued that had waited for it, if and only if none does. -/
theorem none_stranded (companies : String → Option CompanyStatus) (handles : String → Option CompanyHandle)
    (run : List Move) :
    (∀ pre call post, run = pre ++ .resume_company call :: post →
      Flushes (exec Move.step (fresh companies handles) pre) call) ↔
    Along Move.step finds_none_waiting (fresh companies handles) run := by
  rw [along_iff_cut]
  constructor
  · intro hall pre move post hrun
    cases move with
    | resume_company call => exact flushes_iff.mp (hall pre call post hrun)
    | _ => trivial
  · intro hall pre call post hrun
    exact flushes_iff.mpr (hall pre _ post hrun)

/-- The board pauses `B`, and an inquiry comes in over the link. -/
def inquiry_in_pause : List Move :=
  link_a_b.map .service ++
    [.pause_company { company_id := "B", user_id := "op", access := .ok (), audit := .ok () },
      .service (.send_cross inquiry)]

/-- The company is resumed, and the inquiry stays where it is. -/
theorem resume_strands :
    ¬ ∀ companies handles pre call, Flushes (exec Move.step (fresh companies handles) pre) call := by
  intro hall
  have hflushes := hall a_and_b.board.companies a_and_b.board.handles inquiry_in_pause
    { company_id := "B", user_id := "op", access := .ok (), audit := .ok () }
  have hpaused : ((exec Move.step a_and_b inquiry_in_pause).board.handles "B").any
      (fun handle => !handle.orchestrator.accepting) = true := by decide +kernel
  have hresumed : (resume_company { company_id := "B", user_id := "op", access := .ok (), audit := .ok () }
      (exec Move.step a_and_b inquiry_in_pause)).1 = .ok () := by decide +kernel
  have hwaiting : ∃ row ∈ (exec Move.step a_and_b inquiry_in_pause).outbox, row.to_company = "B" ∧
      row.status = .QUEUED ∧ ((Board.find_link (exec Move.step a_and_b inquiry_in_pause).board.links row.link_id).any
        fun link => decide (link.status = .APPROVED)) = true := by decide +kernel
  obtain ⟨handle, hloaded, hstopped⟩ := (Option.any_eq_true _ _).mp hpaused
  obtain ⟨row, hrow, hto, hqueued, happroved⟩ := hwaiting
  obtain ⟨link, hlink, hstatus⟩ := (Option.any_eq_true _ _).mp happroved
  refine hflushes ⟨handle, hloaded, by simpa using hstopped⟩ hresumed row
    ⟨hrow, hto, hqueued, link, hlink, of_decide_eq_true hstatus⟩ row ?_ rfl hqueued
  rw [(resumed_outbox _ _).1]
  exact hrow

end InterCompany

end CompanyFactory
