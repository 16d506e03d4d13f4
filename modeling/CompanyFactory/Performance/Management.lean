import CompanyFactory.Factory.Overtaken
import CompanyFactory.Identity.Tree
import CompanyFactory.Performance.Report

/-!
# `Performance.Management` — what managers do to their reports

A manager gives feedback and changes the role of a report. Each call checks who calls, writes a table, and appends its
event **afterwards**, so that a refused event leaves a change that the log does not know of. A role change goes on: it
cancels the pending approvals for changes of this role, and writes to HR.

`Management.step` is the service among the others that use the organisation, the approvals and the log. `effect` lists
what one step can do.

* `role_history` — the events of role changes lead from the role at the start to the role in the table, **exactly if**
  the log takes the event of every change that changes something.
* `role_change_settles` — what a role change leaves behind, whatever is refused on its way.
* `feedback_given` — whatever is in the feedback table was written by somebody who was the manager then, or the CEO; the
  log has its events in the order of the rows.
-/

namespace CompanyFactory

namespace Performance

open Act EventStore Identity Machine

/-- The tables that the service works on. It appends to the log that the approvals service appends to. -/
structure Management where
  agents : List Agent
  feedback : List Feedback
  approvals : Approvals
  texts : Approvals.Texts

namespace Management

def events (m : Management) : EventStore := m.approvals.events

def set_events (events : EventStore) (m : Management) : Management :=
  { m with approvals := { m.approvals with events } }

def on_events {α : Type} (x : Act EventStore Exn α) : Act Management Exn α := Act.on events set_events x

def on_approvals {α : Type} (x : Act Approvals Exn α) : Act Management Exn α :=
  Act.on approvals (fun approvals m => { m with approvals }) x

/-- The organisation. -/
def org (m : Management) : Org := { agents := m.agents, events := m.events, lower := m.texts.lower }

def set_org (o : Org) (m : Management) : Management := { m.set_events o.events with agents := o.agents }

end Management

open Management

/-! ## Feedback -/

/-- The arguments of `give_feedback`; `feedback_id` and `now` are what `uuid4` and the clock answer. -/
structure FeedbackCall where
  caller_id : String
  target_id : String
  rating : Int
  note : String
  feedback_id : String
  now : Time

def permission_error (message : String) : Exn := .other "PermissionError" message

def _require_feedback_authority (agents : List Agent) (caller_id target_id : String) : Except Exn Unit := do
  let caller ← Org.get agents caller_id
  let target ← Org.get agents target_id
  if caller.status ≠ .ACTIVE ∨ target.status ≠ .ACTIVE then .error (permission_error "agent_not_active")
  else if target.reports_to = some caller_id then .ok ()
  else if caller.role = .CEO then .ok ()
  else .error (permission_error "not_manager")

def FeedbackCall.row (g : FeedbackCall) : Feedback :=
  { id := g.feedback_id, target_agent_id := g.target_id, from_agent_id := g.caller_id, rating := g.rating
    note := g.note, ts := g.now }

def FeedbackCall.post (g : FeedbackCall) : Post :=
  { kind := .AGENT_FEEDBACK_GIVEN
    payload := [("feedback_id", .str g.feedback_id), ("target_agent_id", .str g.target_id),
      ("from_agent_id", .str g.caller_id), ("rating", .int g.rating)]
    actor := some g.caller_id }

def give_feedback (g : FeedbackCall) : Act Management Exn Feedback := do
  if g.rating < 1 ∨ 5 < g.rating then Act.raise (.valueError "rating_out_of_range")
  else do
    let agents ← Act.read Management.agents
    Act.ofExcept (_require_feedback_authority agents g.caller_id g.target_id)
    Act.write fun m => { m with feedback := m.feedback ++ [g.row] }
    let _ ← on_events (EventStore.append g.post)
    pure g.row

/-! ## Role changes -/

/-- The arguments of `_apply_role_change`; the approval with an id is cancelled at `clock id`. -/
structure RoleChange where
  caller_id : String
  target_id : String
  new_role_title : String
  new_role_description : String
  rationale : String
  clock : String → Time

def RoleChange.title (c : RoleChange) : String := Hiring.stripped c.new_role_title

def RoleChange.description (c : RoleChange) : String := Hiring.stripped c.new_role_description

def _require_direct_manager (agents : List Agent) (caller_id target_id : String) : Except Exn Unit := do
  let caller ← Org.get agents caller_id
  let target ← Org.get agents target_id
  if caller.status ≠ .ACTIVE ∨ target.status ≠ .ACTIVE then .error (permission_error "agent_not_active")
  else if target.reports_to ≠ some caller_id then .error (permission_error "not_direct_manager")
  else .ok ()

/-- `agent.role_title or agent.role.value` -/
def _display_role_title (a : Agent) : String :=
  match a.role_title with
  | none => a.role.value
  | some title => if title = "" then a.role.value else title

/-- The row with its new role. -/
def renamed (c : RoleChange) (a : Agent) : Agent :=
  { a with role_title := some c.title, role_description := some c.description }

/-- `UPDATE agents SET role_title = ?, role_description = ? WHERE id = ?` -/
def set_role (c : RoleChange) (agents : List Agent) : List Agent :=
  Table.update Agent.id c.target_id (renamed c) agents

/-- `Org.update_role_details` -/
def update_role_details (c : RoleChange) : Act Management Exn Agent := do
  let agents ← Act.read Management.agents
  match Org.get_active agents c.target_id with
  | none => Act.raise (.keyError c.target_id)
  | some row => do
    Act.write fun m => { m with agents := set_role c m.agents }
    pure (renamed c row)

def promoted_post (c : RoleChange) (before updated : Agent) (approval_id : Option String) : Post :=
  { kind := .AGENT_PROMOTED
    payload := [("agent_id", .str c.target_id), ("by_agent_id", .str c.caller_id),
      ("old_role_title", .str (_display_role_title before)), ("new_role_title", .str (_display_role_title updated)),
      ("old_role_description", .ofOption before.role_description),
      ("new_role_description", .str (updated.role_description.getD ""))] ++
      (match approval_id with
        | none => []
        | some approval_id => [("approval_id", .str approval_id)])
    actor := some c.caller_id }

def role_change_post (c : RoleChange) (hr_id : String) : Post :=
  { kind := .MESSAGE_SENT
    payload := [("from_agent", .str "system"), ("to_agent", .str hr_id),
      ("content", .str ("Role change applied. Target: " ++ c.target_id ++ ". Requested by: " ++ c.caller_id ++
        ". New title: " ++ c.title ++ ". Rationale: " ++ c.rationale))]
    actor := some c.caller_id }

def _notify_hr_role_change (c : RoleChange) : Act Management Exn Unit := do
  let agents ← Act.read Management.agents
  on_events (appendAll (((Org.all_active agents).filter fun a => a.role = .HR).map fun a => role_change_post c a.id))

/-- What follows the event of a role change. -/
def settle (c : RoleChange) (approval_id : Option String) : Act Management Exn Unit := do
  on_approvals (Approvals._cancel_pending_role_change_approvals c.target_id c.caller_id approval_id c.clock)
  _notify_hr_role_change c

def _apply_role_change (c : RoleChange) (approval_id : Option String) : Act Management Exn Unit := do
  if c.title = "" then Act.raise (.valueError "invalid_role_change_payload")
  else do
    let agents ← Act.read Management.agents
    let before ← Act.ofExcept (Org.get agents c.target_id)
    let updated ← update_role_details c
    let _ ← on_events (EventStore.append (promoted_post c before updated approval_id))
    settle c approval_id

def propose_role_change (c : RoleChange) : Act Management Exn Unit := do
  let agents ← Act.read Management.agents
  Act.ofExcept (_require_direct_manager agents c.caller_id c.target_id)
  _apply_role_change c none

/-- The change that an approval asks for. -/
def asked_change (texts : Approvals.Texts) (approval : Approval) (clock : String → Time) : RoleChange :=
  let text key := Hiring.text_of texts.repr (approval.payload.lookup key)
  -- `payload.get("from_agent_id") or approval.requester_id`
  let actor_id :=
    match approval.payload.lookup "from_agent_id" with
    | none => approval.requester_id
    | some value => if StaticRules.truthy value then StaticRules.py_str texts.repr value else approval.requester_id
  { caller_id := actor_id, target_id := text "target_agent_id"
    new_role_title := Hiring.stripped (text "new_role_title")
    new_role_description := Hiring.stripped (text "new_role_description"), rationale := text "rationale", clock }

/-- The subscriber of the approvals. -/
def complete_role_change (approval : Approval) (clock : String → Time) : Act Management Exn Unit := do
  if approval.kind ≠ .ROLE_CHANGE then pure ()
  else if approval.status ≠ .APPROVED then pure ()
  else do
    let texts ← Act.read Management.texts
    let c := asked_change texts approval clock
    if c.target_id = "" ∨ c.new_role_title = "" then Act.raise (.valueError "invalid_role_change_payload")
    else _apply_role_change c (some approval.request_id)

/-! ## The service among the others -/

inductive Label where
  | give_feedback (g : FeedbackCall)
  | propose_role_change (c : RoleChange)
  | complete_role_change (approval : Approval) (clock : String → Time)
  | org (label : Org.Label)
  | approvals (call : Approvals.Call)
  /-- another service appends an event -/
  | append (post : Post)

namespace Management

def step (m : Management) : Label → Management
  | .give_feedback g => (Performance.give_feedback g m).2
  | .propose_role_change c => (Performance.propose_role_change c m).2
  | .complete_role_change approval clock => (Performance.complete_role_change approval clock m).2
  | .org label => m.set_org (Org.step m.org label)
  | .approvals call => { m with approvals := Approvals.step m.approvals call }
  | .append post => (on_events (EventStore.append post) m).2

end Management

/-- The kinds of the events that the service appends about its tables. -/
def own : EventKind → Bool
  | .AGENT_PROMOTED | .AGENT_FEEDBACK_GIVEN => true
  | _ => false

def foreign (k : EventKind) : Bool := !own k

/-- Nobody else appends these events. -/
def Label.Honest : Label → Prop
  | .append post => foreign post.kind = true
  | _ => True

/-! ## What one step can do -/

/-- The role of an agent, as the events of role changes have it. -/
def role_of (a : Agent) : Json × Json := (.str (_display_role_title a), .ofOption a.role_description)

/-- The role change that a step comes to, with the approval that it is made for. -/
def Label.change (m : Management) : Label → Option (RoleChange × Option String)
  | .propose_role_change c =>
    match _require_direct_manager m.agents c.caller_id c.target_id with
    | .ok _ => some (c, none)
    | .error _ => none
  | .complete_role_change approval clock =>
    let c := asked_change m.texts approval clock
    if approval.kind = .ROLE_CHANGE ∧ approval.status = .APPROVED ∧ c.target_id ≠ "" ∧ c.new_role_title ≠ "" then
      some (c, some approval.request_id)
    else none
  | _ => none

/-- The step changes the role of an agent, whose row is `before`. -/
structure Makes (m : Management) (label : Label) (c : RoleChange) (approval_id : Option String) (before : Agent) :
    Prop where
  change : label.change m = some (c, approval_id)
  titled : c.title ≠ ""
  active : Org.get_active m.agents c.target_id = some before

/-- An active agent that may give feedback to another one. -/
def MayJudge (agents : List Agent) (caller_id target_id : String) : Prop :=
  ∃ caller target, Org.find agents caller_id = some caller ∧ Org.find agents target_id = some target ∧
    caller.status = .ACTIVE ∧ target.status = .ACTIVE ∧ (target.reports_to = some caller_id ∨ caller.role = .CEO)

/-- The event was refused; or it is in the log, and only events of others follow. -/
inductive Wrote (post : Post) (st st' : EventStore) : Prop where
  | refused (hrefused : st.accepts [post] = false) (hlog : st'.log = st.log)
  | logged (haccepted : st.accepts [post] = true) (event : Event) (hlogged : Logged post event) (rows : List Event)
      (hlog : st'.log = st.log ++ event :: rows) (hrows : ∀ e ∈ rows, foreign e.kind = true)

/-- The agents keep their roles, and the tables and events of the service are left alone. -/
structure Aside (m m' : Management) : Prop where
  roles : ∀ id a, Org.find m.agents id = some a → ∃ b, Org.find m'.agents id = some b ∧ role_of b = role_of a
  feedback : m'.feedback = m.feedback
  log : Appends foreign m.events m'.events

inductive Effect (m : Management) : Label → Management → Prop where
  | aside {label : Label} {m' : Management} (hno : ∀ c approval_id before, ¬ Makes m label c approval_id before)
      (h : Aside m m') : Effect m label m'
  | given {g : FeedbackCall} {m' : Management} (hrating : 1 ≤ g.rating ∧ g.rating ≤ 5)
      (hmay : MayJudge m.agents g.caller_id g.target_id) (hagents : m'.agents = m.agents)
      (hfeedback : m'.feedback = m.feedback ++ [g.row]) (hlog : Wrote g.post m.events m'.events) :
      Effect m (.give_feedback g) m'
  | changed {label : Label} {c : RoleChange} {approval_id : Option String} {before : Agent} {m' : Management}
      (hmakes : Makes m label c approval_id before) (hagents : m'.agents = set_role c m.agents)
      (hfeedback : m'.feedback = m.feedback)
      (hlog : Wrote (promoted_post c before (renamed c before) approval_id) m.events m'.events) : Effect m label m'

theorem Aside.refl (m : Management) : Aside m m := ⟨fun _ a h => ⟨a, h, rfl⟩, rfl, Appends.refl _⟩

/-! ### What follows an event -/

/-- Only the log and the approvals are written, and only events of others. -/
def Beside (m m' : Management) : Prop :=
  m'.agents = m.agents ∧ m'.feedback = m.feedback ∧ Appends foreign m.events m'.events

theorem Beside.refl (m : Management) : Beside m m := ⟨rfl, rfl, Appends.refl _⟩

theorem Beside.trans (m m' m'' : Management) (h : Beside m m') (h' : Beside m' m'') : Beside m m'' :=
  ⟨h'.1.trans h.1, h'.2.1.trans h.2.1, Appends.trans _ _ _ h.2.2 h'.2.2⟩

theorem Beside.aside {m m' : Management} (h : Beside m m') : Aside m m' :=
  ⟨fun _ a hfind => ⟨a, h.1.symm ▸ hfind, rfl⟩, h.2.1, h.2.2⟩

theorem on_events_beside {α : Type} {x : Act EventStore Exn α} (h : Moves (Appends foreign) x) :
    Moves Beside (on_events x) := fun m => ⟨rfl, rfl, h m.events⟩

theorem on_approvals_beside {α : Type} {x : Act Approvals Exn α} (h : Moves Approvals.Notes x) :
    Moves Beside (on_approvals x) := by
  refine fun m => ⟨rfl, rfl, (h m.approvals).mono fun k hk => ?_⟩
  cases k <;> first | rfl | cases hk

theorem exec_notes (a : Approvals) (calls : List Approvals.Call) : Approvals.Notes a (exec Approvals.step a calls) := by
  refine exec_invariant (fun s c (h : Approvals.Notes a s) => ?_) (Approvals.Notes.refl a) calls
  exact Approvals.Notes.trans _ _ _ h (Approvals.handle_notes c s)

theorem settle_beside (c : RoleChange) (approval_id : Option String) : Moves Beside (settle c approval_id) := by
  refine .bind Beside.trans (on_approvals_beside fun a => ?_) fun _ => ?_
  · show Approvals.Notes a (Approvals.Sweep.run _ _ a).2
    rw [Approvals.run_eq]
    exact exec_notes a _
  · refine .bind Beside.trans (.read Beside.refl _) fun agents => on_events_beside (appendAll_appends ?_)
    intro post hpost
    obtain ⟨a, -, rfl⟩ := List.mem_map.mp hpost
    rfl

theorem on_events_eq {α : Type} {x : Act EventStore Exn α} {m : Management} {r : Except Exn α} {st : EventStore}
    (h : x m.events = (r, st)) : on_events x m = (r, m.set_events st) := by
  rw [on_events, on_run, h]

/-- An event, and what others write after it. -/
theorem append_wrote {α : Type} (post : Post) (rest : Event → Act Management Exn α)
    (hrest : ∀ event, Moves Beside (rest event)) (m : Management) :
    ((on_events (EventStore.append post) >>= rest) m).2.agents = m.agents ∧
      ((on_events (EventStore.append post) >>= rest) m).2.feedback = m.feedback ∧
      Wrote post m.events ((on_events (EventStore.append post) >>= rest) m).2.events := by
  have haccepts := accepts_singleton post m.events
  rcases happ : EventStore.append post m.events with ⟨e | event, st⟩
  · rw [bind_of_error (on_events_eq happ)]
    rw [happ] at haccepts
    have hlog := append_error_log (congrArg Prod.fst happ)
    rw [happ] at hlog
    exact ⟨rfl, rfl, .refused haccepts hlog⟩
  · rw [bind_of_ok (on_events_eq happ)]
    rw [happ] at haccepts
    obtain ⟨hlog, hlogged⟩ := append_logged happ
    obtain ⟨hagents, hfeedback, -, rows, hrows, hforeign⟩ := hrest event (m.set_events st)
    refine ⟨hagents, hfeedback, .logged haccepts event hlogged rows ?_ hforeign⟩
    rw [hrows]
    show st.log ++ rows = _
    rw [hlog, List.append_assoc, List.singleton_append]

/-! ### The calls -/

theorem find_of_get {agents : List Agent} {agent_id : String} {a : Agent} (h : Org.get agents agent_id = .ok a) :
    Org.find agents agent_id = some a := by
  unfold Org.get at h
  split at h
  · cases h
  · cases h
    assumption

theorem get_of_active {agents : List Agent} {agent_id : String} {a : Agent}
    (h : Org.get_active agents agent_id = some a) : Org.get agents agent_id = .ok a := by
  obtain ⟨hfind, -⟩ := Option.filter_eq_some_iff.mp h
  rw [Org.get, hfind]

theorem may_judge {agents : List Agent} {caller_id target_id : String}
    (h : _require_feedback_authority agents caller_id target_id = .ok ()) : MayJudge agents caller_id target_id := by
  obtain ⟨caller, hcaller, h⟩ := except_bind_eq_ok.mp h
  obtain ⟨target, htarget, h⟩ := except_bind_eq_ok.mp h
  split at h
  · cases h
  · rename_i hactive
    obtain ⟨hcactive, htactive⟩ := not_or.mp hactive
    refine ⟨caller, target, find_of_get hcaller, find_of_get htarget, not_not.mp hcactive, not_not.mp htactive, ?_⟩
    split at h
    · exact .inl ‹_›
    · split at h
      · exact .inr ‹_›
      · cases h

theorem give_feedback_effect (g : FeedbackCall) (m : Management) :
    Effect m (.give_feedback g) (Performance.give_feedback g m).2 := by
  have hno : ∀ c approval_id before, ¬ Makes m (.give_feedback g) c approval_id before := by
    rintro c approval_id before ⟨hchange, -, -⟩
    cases hchange
  unfold Performance.give_feedback
  split
  · exact .aside hno (Aside.refl m)
  · rename_i hrating
    obtain ⟨hlow, hhigh⟩ := not_or.mp hrating
    rw [read_bind]
    rcases hauth : _require_feedback_authority m.agents g.caller_id g.target_id with e | ⟨⟨⟩⟩
    · exact .aside hno (Aside.refl m)
    · rw [ofExcept_ok_bind, write_bind]
      obtain ⟨hagents, hfeedback, hlog⟩ := append_wrote g.post
        (fun _ => (pure g.row : Act Management Exn Feedback)) (fun _ => .pure Beside.refl _)
        { m with feedback := m.feedback ++ [g.row] }
      exact .given ⟨not_lt.mp hlow, not_lt.mp hhigh⟩ (may_judge hauth) hagents hfeedback hlog

/-- A role change that comes to its event. -/
theorem apply_changes {m : Management} {c : RoleChange} {before : Agent} (approval_id : Option String)
    (htitle : c.title ≠ "") (hactive : Org.get_active m.agents c.target_id = some before) :
    _apply_role_change c approval_id m =
      (on_events (EventStore.append (promoted_post c before (renamed c before) approval_id)) >>= fun _ =>
        settle c approval_id) { m with agents := set_role c m.agents } := by
  have hupdate : update_role_details c m = (.ok (renamed c before), { m with agents := set_role c m.agents }) := by
    rw [update_role_details, read_bind, hactive]
    rfl
  rw [_apply_role_change, if_neg htitle, read_bind, get_of_active hactive, ofExcept_ok_bind, bind_of_ok hupdate]

/-- Any other one raises, and writes nothing. -/
theorem apply_refused {m : Management} {c : RoleChange} (approval_id : Option String)
    (h : c.title = "" ∨ Org.get_active m.agents c.target_id = none) :
    ∃ e, _apply_role_change c approval_id m = (.error e, m) := by
  unfold _apply_role_change
  split
  · exact ⟨_, rfl⟩
  · have hactive := h.resolve_left ‹_›
    rw [read_bind]
    rcases hget : Org.get m.agents c.target_id with e | before
    · exact ⟨e, rfl⟩
    · rw [ofExcept_ok_bind]
      refine ⟨.keyError c.target_id, ?_⟩
      rw [update_role_details]
      refine bind_of_error ?_
      rw [read_bind, hactive]
      rfl

theorem apply_effect {m : Management} {label : Label} {c : RoleChange} {approval_id : Option String}
    (hchange : label.change m = some (c, approval_id)) : Effect m label (_apply_role_change c approval_id m).2 := by
  by_cases h : c.title = "" ∨ Org.get_active m.agents c.target_id = none
  · obtain ⟨e, hrun⟩ := apply_refused approval_id h
    rw [hrun]
    refine .aside ?_ (Aside.refl m)
    rintro c' approval_id' before ⟨hchange', htitle, hactive⟩
    rw [hchange] at hchange'
    cases hchange'
    rcases h with h | h
    · exact htitle h
    · rw [h] at hactive
      cases hactive
  · obtain ⟨htitle, hactive⟩ := not_or.mp h
    obtain ⟨before, hactive⟩ := Option.ne_none_iff_exists'.mp hactive
    rw [apply_changes approval_id htitle hactive]
    obtain ⟨hagents, hfeedback, hlog⟩ := append_wrote
      (promoted_post c before (renamed c before) approval_id) (fun _ => settle c approval_id)
      (fun _ => settle_beside c approval_id) { m with agents := set_role c m.agents }
    exact .changed ⟨hchange, htitle, hactive⟩ hagents hfeedback hlog

/-- A step that comes to no role change. -/
theorem not_makes {m : Management} {label : Label} (h : label.change m = none) (c : RoleChange)
    (approval_id : Option String) (before : Agent) : ¬ Makes m label c approval_id before := by
  rintro ⟨hchange, -, -⟩
  rw [h] at hchange
  cases hchange

theorem propose_effect (c : RoleChange) (m : Management) :
    Effect m (.propose_role_change c) (Performance.propose_role_change c m).2 := by
  unfold Performance.propose_role_change
  rw [read_bind]
  rcases hauth : _require_direct_manager m.agents c.caller_id c.target_id with e | ⟨⟨⟩⟩
  · refine .aside (not_makes ?_) (Aside.refl m)
    simp [Label.change, hauth]
  · rw [ofExcept_ok_bind]
    refine apply_effect ?_
    simp [Label.change, hauth]

theorem complete_effect (approval : Approval) (clock : String → Time) (m : Management) :
    Effect m (.complete_role_change approval clock) (Performance.complete_role_change approval clock m).2 := by
  have hchange : (Label.complete_role_change approval clock).change m =
      if approval.kind = .ROLE_CHANGE ∧ approval.status = .APPROVED ∧ (asked_change m.texts approval clock).target_id ≠ "" ∧
        (asked_change m.texts approval clock).new_role_title ≠ "" then
        some (asked_change m.texts approval clock, some approval.request_id)
      else none := rfl
  unfold Performance.complete_role_change
  split
  · rename_i hkind
    exact .aside (not_makes (hchange.trans (if_neg fun h => hkind h.1))) (Aside.refl m)
  · rename_i hkind
    split
    · rename_i hstatus
      exact .aside (not_makes (hchange.trans (if_neg fun h => hstatus h.2.1))) (Aside.refl m)
    · rename_i hstatus
      rw [read_bind]
      split
      · rename_i hempty
        refine .aside (not_makes (hchange.trans (if_neg fun h => ?_))) (Aside.refl m)
        exact hempty.elim h.2.2.1 h.2.2.2
      · rename_i hfull
        obtain ⟨htarget, htitle⟩ := not_or.mp hfull
        exact apply_effect (hchange.trans (if_pos ⟨not_not.mp hkind, not_not.mp hstatus, htarget, htitle⟩))

/-! ### The organisation -/

/-- What the organisation adds to the log. -/
def OrgNotes (o o' : Org) : Prop := Appends foreign o.events o'.events

theorem OrgNotes.refl (o : Org) : OrgNotes o o := Appends.refl _

theorem OrgNotes.trans (o o' o'' : Org) (h : OrgNotes o o') (h' : OrgNotes o' o'') : OrgNotes o o'' :=
  Appends.trans _ _ _ h h'

theorem org_append_notes {post : Post} (h : foreign post.kind = true) : Moves OrgNotes (Org.append post) := by
  intro o
  have happends := append_appends (K := foreign) h o.events
  unfold Org.append OrgNotes
  rcases happ : EventStore.append post o.events with ⟨_ | _, _⟩ <;> rw [happ] at happends <;> exact happends

theorem org_appendAll_notes {posts : List Post} (h : ∀ p ∈ posts, foreign p.kind = true) :
    Moves OrgNotes (Org.appendAll posts) := by
  induction posts with
  | nil => exact .pure OrgNotes.refl _
  | cons post posts ih =>
      refine .bind OrgNotes.trans (org_append_notes (h post List.mem_cons_self)) fun _ => ?_
      exact ih fun p hp => h p (List.mem_cons_of_mem _ hp)

theorem set_agents_notes (f : List Agent → List Agent) : Moves OrgNotes (Org.set_agents f) := fun _ => Appends.refl _

theorem fired_posts_foreign (f : Firing) (former_manager : Option String) (orphans : List String) :
    ∀ p ∈ Org.fired_posts f former_manager orphans, foreign p.kind = true := by
  unfold Org.fired_posts
  refine List.forall_mem_cons.mpr ⟨rfl, List.forall_mem_append.mpr ⟨?_, ?_⟩⟩
  · split
    · exact List.forall_mem_nil _
    · split
      · exact List.forall_mem_nil _
      · exact List.forall_mem_singleton.mpr rfl
  · intro p hp
    obtain ⟨orphan, -, rfl⟩ := List.mem_map.mp hp
    rfl

theorem org_step_notes (o : Org) (label : Org.Label) : OrgNotes o (Org.step o label) := by
  have hread : ∀ {α : Type} (f : Org → α), Moves OrgNotes (Act.read f : Act Org Org.Halt α) :=
    fun f => .read OrgNotes.refl f
  have hcheck : ∀ {α : Type} (r : Except Org.Halt α), Moves OrgNotes (Act.ofExcept r : Act Org Org.Halt α) :=
    fun r => .ofExcept OrgNotes.refl r
  have hpure : ∀ {α : Type} (a : α), Moves OrgNotes (pure a : Act Org Org.Halt α) := fun a => .pure OrgNotes.refl a
  cases label with
  | add_agent agent_id now hire =>
      refine Moves.bind (m := Act.read Org.agents) OrgNotes.trans (hread _) (fun agents => ?_) o
      refine .bind OrgNotes.trans (hcheck _) fun _ => .bind OrgNotes.trans (hcheck _) fun rows => ?_
      refine .bind OrgNotes.trans (set_agents_notes _) fun _ => ?_
      refine .bind OrgNotes.trans (org_append_notes ?_) fun _ => hpure _
      unfold Org.hired_post
      dsimp only
      split <;> rfl
  | reassign r =>
      refine Moves.bind (m := Act.read Org.agents) OrgNotes.trans (hread _) (fun agents => ?_) o
      refine .bind OrgNotes.trans (hcheck _) fun checked => ?_
      refine .ite (hpure _) (.bind OrgNotes.trans (set_agents_notes _) fun _ => ?_)
      exact .bind OrgNotes.trans (org_append_notes rfl) fun _ => hpure _
  | fire now f =>
      refine Moves.bind (m := Act.read id) OrgNotes.trans (hread _) (fun o' => ?_) o
      refine .bind OrgNotes.trans (hcheck _) fun refusal => ?_
      split
      · exact hpure _
      · refine .bind OrgNotes.trans ?_ fun _ => hpure _
        refine .bind OrgNotes.trans (hread _) fun agents => .bind OrgNotes.trans (hcheck _) fun target => ?_
        refine .ite (.raise OrgNotes.refl _) (.bind OrgNotes.trans (set_agents_notes _) fun _ => ?_)
        exact org_appendAll_notes (fired_posts_foreign _ _ _)
  | restart by_ =>
      refine Moves.bind (m := Act.read Org.agents) OrgNotes.trans (hread _) (fun agents => ?_) o
      refine .bind OrgNotes.trans (hcheck _) fun ids => .bind OrgNotes.trans (hread _) fun rows => ?_
      refine .ite (hpure _) (.bind OrgNotes.trans (set_agents_notes _) fun _ => org_appendAll_notes ?_)
      intro p hp
      obtain ⟨a, -, rfl⟩ := List.mem_map.mp hp
      rfl

/-- Rows that keep their ids and roles. -/
theorem roles_map {g : Agent → Agent} (hid : ∀ a, (g a).id = a.id) (hrole : ∀ a, role_of (g a) = role_of a)
    {agents : List Agent} {id : String} {a : Agent} (h : Org.find agents id = some a) :
    ∃ b, Org.find (agents.map g) id = some b ∧ role_of b = role_of a :=
  ⟨g a, by rw [Org.find_map hid, h]; rfl, hrole a⟩

theorem org_step_roles (o : Org) (label : Org.Label) {id : String} {a : Agent} (h : Org.find o.agents id = some a) :
    ∃ b, Org.find (Org.step o label).agents id = some b ∧ role_of b = role_of a := by
  have hwritten := Org.step_written o label
  generalize (Org.step o label).agents = rows at hwritten ⊢
  cases hwritten with
  | kept => exact ⟨a, h, rfl⟩
  | added agent_id now hire _ _ => exact ⟨a, Table.find_insert_of_some h, rfl⟩
  | moved r target _ =>
      refine roles_map (g := Org.reassigned r) (Org.reassigned_id r) (fun a => ?_) h
      unfold Org.reassigned
      split <;> rfl
  | fired now f _ =>
      rw [Org.dismiss_eq]
      refine roles_map (Org.dismissed_id f now) (fun a => ?_) h
      unfold Org.dismissed
      split
      · rfl
      · split <;> rfl
  | repaired by_ ids _ _ =>
      refine roles_map (g := Org.hung ids.ceo) (Org.hung_id ids.ceo) (fun a => ?_) h
      unfold Org.hung
      split <;> rfl

/-- **What one step can do.** -/
theorem effect (m : Management) {label : Label} (honest : label.Honest) : Effect m label (m.step label) := by
  cases label with
  | give_feedback g => exact give_feedback_effect g m
  | propose_role_change c => exact propose_effect c m
  | complete_role_change approval clock => exact complete_effect approval clock m
  | org label =>
      refine .aside (not_makes rfl) ⟨fun id a h => ?_, rfl, ?_⟩
      · exact org_step_roles m.org label h
      · exact org_step_notes m.org label
  | approvals call => exact .aside (not_makes rfl) (on_approvals_beside (Approvals.handle_notes call) m).aside
  | append post => exact .aside (not_makes rfl) (on_events_beside (append_appends honest) m).aside

/-! ## The history of a role -/

/-- The event of a role change of the agent. -/
def about (target_id : String) (e : Event) : Bool :=
  decide (e.kind = .AGENT_PROMOTED) && decide (field e "agent_id" = .str target_id)

def old_role (e : Event) : Json × Json := (field e "old_role_title", field e "old_role_description")

def new_role (e : Event) : Json × Json := (field e "new_role_title", field e "new_role_description")

/-- The events about the agent lead from its role in the first state to its role in the second one. -/
def Retraced (target_id : String) (m m' : Management) : Prop :=
  ∃ a b rows, Org.find m.agents target_id = some a ∧ Org.find m'.agents target_id = some b ∧
    m'.events.log.filter (about target_id) = m.events.log.filter (about target_id) ++ rows ∧
    Trail old_role new_role (role_of a) rows (role_of b)

/-- The log takes the event of a change of the agent's role, unless the role stays the same. -/
def Recorded (target_id : String) (m : Management) (label : Label) : Prop :=
  ∀ c approval_id before, Makes m label c approval_id before → c.target_id = target_id →
    role_of (renamed c before) = role_of before ∨
      m.events.accepts [promoted_post c before (renamed c before) approval_id] = true

section History

variable {target_id : String} {m m' : Management} {c : RoleChange} {before : Agent} {approval_id : Option String}

theorem promoted_valid (agent_id by_agent_id old_title new_title : String) (old_description : Option String)
    (new_description : String) (approval_id : Option String) :
    validate_payload .AGENT_PROMOTED ([("agent_id", .str agent_id), ("by_agent_id", .str by_agent_id),
      ("old_role_title", .str old_title), ("new_role_title", .str new_title),
      ("old_role_description", .ofOption old_description), ("new_role_description", .str new_description)] ++
      (match approval_id with
        | none => []
        | some approval_id => [("approval_id", .str approval_id)])) =
    .ok [("agent_id", .str agent_id), ("by_agent_id", .str by_agent_id), ("old_role_title", .str old_title),
      ("new_role_title", .str new_title), ("old_role_description", .ofOption old_description),
      ("new_role_description", .str new_description), ("approval_id", .ofOption approval_id)] := by
  cases old_description <;> cases approval_id <;> rfl

/-- What the event of a role change says. -/
theorem promoted_logged {event : Event}
    (h : Logged (promoted_post c before (renamed c before) approval_id) event) :
    event.kind = .AGENT_PROMOTED ∧ field event "agent_id" = .str c.target_id ∧ old_role event = role_of before ∧
      new_role event = role_of (renamed c before) := by
  obtain ⟨hkind, -, hpayload⟩ := h
  have hvalid := promoted_valid c.target_id c.caller_id (_display_role_title before)
    (_display_role_title (renamed c before)) before.role_description c.description approval_id
  have hlogged : event.payload = _ := (Except.ok.inj (hvalid.symm.trans hpayload)).symm
  refine ⟨hkind, ?_, ?_, ?_⟩
  · rw [field, hlogged]
    rfl
  · rw [old_role, field, field, hlogged]
    rfl
  · rw [new_role, field, field, hlogged]
    rfl

theorem about_iff {e : Event} :
    about target_id e = true ↔ e.kind = .AGENT_PROMOTED ∧ field e "agent_id" = .str target_id := by
  simp [about]

theorem filter_foreign {p : Event → Bool} {rows : List Event} (hp : ∀ e, p e = true → own e.kind = true)
    (h : ∀ e ∈ rows, foreign e.kind = true) : rows.filter p = [] := by
  refine List.filter_eq_nil_iff.mpr fun e he hpe => ?_
  have hforeign := h e he
  rw [foreign, hp e hpe] at hforeign
  cases hforeign

theorem about_own (e : Event) (h : about target_id e = true) : own e.kind = true := by
  rw [(about_iff.mp h).1]
  rfl

/-- An agent keeps its role, and the log says nothing of it. -/
theorem Retraced.stays {m₀ : Management} (h : Retraced target_id m₀ m)
    (hrole : ∀ a, Org.find m.agents target_id = some a →
      ∃ b, Org.find m'.agents target_id = some b ∧ role_of b = role_of a)
    (hlog : m'.events.log.filter (about target_id) = m.events.log.filter (about target_id)) :
    Retraced target_id m₀ m' := by
  obtain ⟨a, b, rows, ha, hb, hrows, htrail⟩ := h
  obtain ⟨b', hb', hsame⟩ := hrole b hb
  exact ⟨a, b', rows, ha, hb', hlog.trans hrows, hsame ▸ htrail⟩

/-- What a post adds to the events about an agent. -/
theorem wrote_about {post : Post} {st st' : EventStore} (h : Wrote post st st')
    (hpost : ∀ event, Logged post event → about target_id event = false) :
    st'.log.filter (about target_id) = st.log.filter (about target_id) := by
  cases h with
  | refused _ hlog => rw [hlog]
  | logged _ event hlogged rows hlog hrows =>
      rw [hlog, List.filter_append, List.filter_cons_of_neg (by simp [hpost event hlogged]),
        filter_foreign about_own hrows, List.append_nil]

theorem find_set_role (target_id : String) (hactive : Org.get_active m.agents c.target_id = some before) :
    Org.find (set_role c m.agents) target_id =
      if c.target_id = target_id then some (renamed c before) else Org.find m.agents target_id := by
  obtain ⟨hfind, -⟩ := Option.filter_eq_some_iff.mp hactive
  unfold set_role Org.find
  rw [Table.find_update_key (f := renamed c) (fun _ => rfl)]
  split
  · rename_i heq
    rw [← heq, show Table.find Agent.id m.agents c.target_id = _ from hfind]
    rfl
  · rfl

/-- **A recorded step** is in the history. -/
theorem Retraced.step {m₀ : Management} (h : Retraced target_id m₀ m) {label : Label} (honest : label.Honest)
    (hrecorded : Recorded target_id m label) : Retraced target_id m₀ (m.step label) := by
  have heffect := effect m honest
  generalize m.step label = m' at heffect ⊢
  cases heffect with
  | aside _ haside =>
      refine h.stays (haside.roles target_id) ?_
      obtain ⟨-, rows, hrows, hforeign⟩ := haside.log
      rw [hrows, List.filter_append, filter_foreign about_own hforeign, List.append_nil]
  | given hrating hmay hagents _ hlog =>
      refine h.stays (fun a ha => ⟨a, hagents ▸ ha, rfl⟩) (wrote_about hlog fun event hlogged => ?_)
      refine Bool.eq_false_iff.mpr fun habout => ?_
      have hkind := (about_iff.mp habout).1
      rw [hlogged.kind] at hkind
      cases hkind
  | @changed _ c approval_id before _ hmakes hagents _ hlog =>
      have hfind := find_set_role target_id hmakes.active
      rw [← hagents] at hfind
      by_cases htarget : c.target_id = target_id
      · rw [if_pos htarget] at hfind
        obtain ⟨a, b, rows, ha, hb, hrows, htrail⟩ := h
        obtain ⟨hbefore, -⟩ := Option.filter_eq_some_iff.mp hmakes.active
        obtain rfl : before = b := by
          rw [htarget] at hbefore
          exact Option.some.inj (hbefore.symm.trans hb)
        cases hlog with
        | refused hrefused hlog =>
            have hsame : role_of (renamed c before) = role_of before := by
              refine (hrecorded c approval_id before hmakes htarget).resolve_right fun haccepted => ?_
              rw [hrefused] at haccepted
              cases haccepted
            exact ⟨a, renamed c before, rows, ha, hfind, by rw [hlog, hrows], hsame ▸ htrail⟩
        | logged _ event hlogged more hlog hmore =>
            obtain ⟨hkind, hagent, hold, hnew⟩ := promoted_logged hlogged
            refine ⟨a, renamed c before, rows ++ [event], ha, hfind, ?_, ?_⟩
            · rw [hlog, List.filter_append, List.filter_cons_of_pos (about_iff.mpr ⟨hkind, htarget ▸ hagent⟩),
                filter_foreign about_own hmore, hrows, List.append_assoc]
            · rw [← hnew]
              exact Trail.snoc (hold ▸ htrail)
      · rw [if_neg htarget] at hfind
        refine h.stays (fun a ha => ⟨a, hfind.trans ha, rfl⟩) (wrote_about hlog fun event hlogged => ?_)
        refine Bool.eq_false_iff.mpr fun habout => htarget ?_
        have hagent := (promoted_logged hlogged).2.1.symm.trans (about_iff.mp habout).2
        exact Json.str.inj hagent

/-- **A change that is not recorded** breaks the history at once. -/
theorem Retraced.breaks {m₀ : Management} (h : Retraced target_id m₀ m) {label : Label} (honest : label.Honest)
    (hno : ¬ Recorded target_id m label) : ¬ Retraced target_id m₀ (m.step label) := by
  unfold Recorded at hno
  push Not at hno
  obtain ⟨c, approval_id, before, hmakes, htarget, hchanged, hrefused⟩ := hno
  have heffect := effect m honest
  generalize m.step label = m' at heffect ⊢
  cases heffect with
  | aside hnone _ => exact absurd hmakes (hnone c approval_id before)
  | given => exact absurd hmakes (not_makes rfl c approval_id before)
  | @changed _ c' approval_id' before' _ hmakes' hagents _ hlog =>
      obtain ⟨hchange, -, hactive⟩ := hmakes
      rw [hmakes'.change] at hchange
      cases hchange
      rw [hmakes'.active] at hactive
      cases hactive
      have hfind := find_set_role target_id hmakes'.active
      rw [← hagents, if_pos htarget] at hfind
      obtain ⟨hbefore, -⟩ := Option.filter_eq_some_iff.mp hmakes'.active
      cases hlog with
      | logged haccepted => exact absurd haccepted hrefused
      | refused _ hlog =>
          obtain ⟨a, b, rows, ha, hb, hrows, htrail⟩ := h
          rintro ⟨a', b', rows', ha', hb', hrows', htrail'⟩
          rw [htarget] at hbefore
          rw [hbefore] at hb
          cases hb
          rw [hfind] at hb'
          cases hb'
          rw [ha] at ha'
          cases ha'
          rw [hlog, hrows] at hrows'
          obtain rfl := List.append_cancel_left hrows'
          exact hchanged (htrail'.unique htrail)

end History

/-- **The history of a role.** In a run of the services, from any state with the agent in it: the events about the agent
    lead from the role that it had to the role that it has, in every state of the run, if and only if the log takes the
    event of every step that changes the role. -/
theorem role_history {m : Management} {target_id : String} {a : Agent} (hfind : Org.find m.agents target_id = some a)
    {run : List Label} (honest : ∀ label ∈ run, label.Honest) :
    (∀ pre, pre <+: run → Retraced target_id m (exec step m pre)) ↔ Along step (Recorded target_id) m run := by
  refine (along_iff_everywhere (D := Label.Honest) (I := Retraced target_id m) (fun _ h => h) ?_ ?_ ?_ honest).symm
  · exact fun m label honest h hrecorded => h.step honest hrecorded
  · exact fun m label honest h hno => h.breaks honest hno
  · exact ⟨a, a, [], hfind, hfind, (List.append_nil _).symm, rfl⟩

/-- A manager, and a report of hers. -/
def lead : Agent :=
  { id := "lead-1", role := .MEMBER, persona_ref := "default", reports_to := none, status := .ACTIVE, hired_at := 0 }

def report_of_lead : Agent :=
  { id := "eng-1", role := .MEMBER, persona_ref := "default", reports_to := some "lead-1", status := .ACTIVE
    hired_at := 1 }

/-- Two agents, and the approvals that are given. -/
def office (approvals : Approvals) : Management :=
  { agents := [lead, report_of_lead], feedback := [], approvals, texts := { lower := id, repr := fun _ => "None" } }

def promotion : RoleChange :=
  { caller_id := "lead-1", target_id := "eng-1", new_role_title := " Staff engineer ", new_role_description := "Leads"
    rationale := "did well", clock := fun _ => 5 }

theorem role_history_promotion :
    Retraced "eng-1" (office (Approvals.fresh {} .quiet))
      (exec step (office (Approvals.fresh {} .quiet)) [.propose_role_change promotion]) := by
  have hfind : Org.find (office (Approvals.fresh {} .quiet)).agents "eng-1" = some report_of_lead := rfl
  have honest : ∀ label ∈ [Label.propose_role_change promotion], label.Honest := List.forall_mem_singleton.mpr trivial
  refine (role_history hfind honest).mpr ⟨?_, trivial⟩ _ (List.prefix_refl _)
  rintro c approval_id before ⟨hchange, -, hactive⟩ -
  cases hchange
  cases hactive
  exact .inr rfl

/-! ## What a role change leaves behind -/

/-- An approval for a change of the agent's role that is pending. -/
def waits_for_role (target_id : String) (row : Approval) : Prop :=
  row.kind = .ROLE_CHANGE ∧ row.status = .PENDING ∧ row.payload.lookup "target_agent_id" = some (.str target_id)

/-- The sweep of a role change overtakes what waits for this role, unless it is the approval of the change. -/
theorem waits_of_not_hit {target_id by_ : String} {approval_id : Option String} {row : Approval}
    (h : (Approvals.role_changes target_id by_ approval_id).hits row = false) (hwaits : waits_for_role target_id row) :
    approval_id = some row.request_id := by
  obtain ⟨hkind, hstatus, htarget⟩ := hwaits
  cases approval_id with
  | none => simp [Approvals.Sweep.hits, Approvals.role_changes, Approvals.pending_of, hkind, hstatus, htarget] at h
  | some rid =>
      simp [Approvals.Sweep.hits, Approvals.role_changes, Approvals.pending_of, hkind, hstatus, htarget] at h
      rw [h.2]

theorem settle_rows {m : Management} (hkeys : Approvals.Keyed m.approvals.rows) (c : RoleChange)
    (approval_id : Option String) : (settle c approval_id m).2.approvals.rows =
      m.approvals.rows.map ((Approvals.role_changes c.target_id c.caller_id approval_id).swept c.clock) := by
  obtain ⟨hok, hrows⟩ := Approvals.sweep_run (Approvals.role_changes c.target_id c.caller_id approval_id) c.clock hkeys
  have hsweep : on_approvals
      (Approvals._cancel_pending_role_change_approvals c.target_id c.caller_id approval_id c.clock) m =
      (.ok (), { m with
        approvals := ((Approvals.role_changes c.target_id c.caller_id approval_id).run c.clock m.approvals).2 }) :=
    Prod.ext hok rfl
  rw [settle, bind_of_ok hsweep, ← hrows]
  rfl

/-- **What a role change leaves behind.** It is refused, and has written nothing. Or the agent has the new role: then if
    the log refuses the event, no approval is touched; and if the log takes it, exactly the pending approvals for the
    role of this agent are cancelled, except the one that the change is made for, whatever the log refuses after that. -/
theorem role_change_settles {m : Management} (hkeys : Approvals.Keyed m.approvals.rows) (c : RoleChange)
    (approval_id : Option String) :
    let m' := (_apply_role_change c approval_id m).2
    ((c.title = "" ∨ Org.get_active m.agents c.target_id = none) ∧ m' = m) ∨
    ∃ before, c.title ≠ "" ∧ Org.get_active m.agents c.target_id = some before ∧ m'.agents = set_role c m.agents ∧
      if m.events.accepts [promoted_post c before (renamed c before) approval_id] then
        m'.approvals.rows =
          m.approvals.rows.map ((Approvals.role_changes c.target_id c.caller_id approval_id).swept c.clock) ∧
        ∀ row ∈ m'.approvals.rows, waits_for_role c.target_id row → approval_id = some row.request_id
      else m'.approvals.rows = m.approvals.rows := by
  intro m'
  by_cases h : c.title = "" ∨ Org.get_active m.agents c.target_id = none
  · obtain ⟨e, hrun⟩ := apply_refused approval_id h
    exact .inl ⟨h, congrArg Prod.snd hrun⟩
  · obtain ⟨htitle, hactive⟩ := not_or.mp h
    obtain ⟨before, hactive⟩ := Option.ne_none_iff_exists'.mp hactive
    refine .inr ⟨before, htitle, hactive, ?_⟩
    have hrun : m' = _ := congrArg Prod.snd (apply_changes approval_id htitle hactive)
    obtain ⟨hagents, -, -⟩ := append_wrote
      (promoted_post c before (renamed c before) approval_id) (fun _ => settle c approval_id)
      (fun _ => settle_beside c approval_id) { m with agents := set_role c m.agents }
    rw [← hrun] at hagents
    refine ⟨hagents, ?_⟩
    have haccepts := accepts_singleton (promoted_post c before (renamed c before) approval_id) m.events
    rcases happ : EventStore.append (promoted_post c before (renamed c before) approval_id) m.events with ⟨e | event, st⟩
    · rw [happ] at haccepts
      rw [show m.events.accepts _ = false from haccepts, if_neg Bool.false_ne_true, hrun,
        bind_of_error (on_events_eq (m := { m with agents := set_role c m.agents }) happ)]
      rfl
    · rw [happ] at haccepts
      have hrows : m'.approvals.rows =
          m.approvals.rows.map ((Approvals.role_changes c.target_id c.caller_id approval_id).swept c.clock) := by
        rw [hrun, bind_of_ok (on_events_eq (m := { m with agents := set_role c m.agents }) happ)]
        exact settle_rows (m := ({ m with agents := set_role c m.agents } : Management).set_events st) hkeys c approval_id
      rw [show m.events.accepts _ = true from haccepts, if_pos rfl]
      refine ⟨hrows, fun row hrow hwaits => ?_⟩
      rw [hrows] at hrow
      obtain ⟨row, -, rfl⟩ := List.mem_map.mp hrow
      exact waits_of_not_hit (Approvals.hits_swept (Approvals.role_changes _ c.caller_id _) c.clock row) hwaits

/-- A proposal for the role that waits. -/
def waiting_proposal : Approvals :=
  exec Approvals.step (Approvals.fresh {} .quiet) [.request
    { kind := .ROLE_CHANGE, requester_id := "lead-1", payload := [("target_agent_id", .str "eng-1")]
      route := { target := .BOARD, valid := ApprovalRoute.board_valid }, request_id := some "r1" } "" 0]

theorem role_change_settles_promotion :
    (_apply_role_change promotion none (office waiting_proposal)).2.approvals.rows.map Approval.status = [.CANCELLED] := by
  have hkeys : Approvals.Keyed (office waiting_proposal).approvals.rows := List.nodup_singleton "r1"
  rcases role_change_settles hkeys promotion none with ⟨h, -⟩ | ⟨before, -, hactive, -, hif⟩
  · rcases h with h | h
    · exact absurd h (by decide)
    · cases h
  · cases hactive
    exact (congrArg (List.map Approval.status) hif.1).trans rfl

/-! ## The history of the feedback -/

def is_feedback (e : Event) : Bool := decide (e.kind = .AGENT_FEEDBACK_GIVEN)

/-- What the event of a feedback says. -/
def told (e : Event) : List Json :=
  [field e "feedback_id", field e "target_agent_id", field e "from_agent_id", field e "rating"]

/-- What the event of a row should say. -/
def noted (f : Feedback) : List Json := [.str f.id, .str f.target_agent_id, .str f.from_agent_id, .int f.rating]

/-- The step gives the feedback: its rating is from 1 to 5, and its author may give it then. -/
def Gives (f : Feedback) (m : Management) (label : Label) : Prop :=
  ∃ g, label = .give_feedback g ∧ g.row = f ∧ (1 ≤ f.rating ∧ f.rating ≤ 5) ∧
    MayJudge m.agents f.from_agent_id f.target_agent_id

/-- The log takes the event of a feedback. -/
def Announced (m : Management) : Label → Prop
  | .give_feedback g => m.events.accepts [g.post] = true
  | _ => True

section FeedbackHistory

variable {m m₀ : Management}

theorem feedback_logged {g : FeedbackCall} {event : Event} (h : Logged g.post event) :
    is_feedback event = true ∧ told event = noted g.row := by
  obtain ⟨hkind, -, hpayload⟩ := h
  have hvalid : validate_payload .AGENT_FEEDBACK_GIVEN g.post.payload = .ok g.post.payload := rfl
  have hlogged : event.payload = g.post.payload := (Except.ok.inj (hvalid.symm.trans hpayload)).symm
  refine ⟨decide_eq_true hkind, ?_⟩
  unfold told field
  rw [hlogged]
  rfl

theorem feedback_own (e : Event) (h : is_feedback e = true) : own e.kind = true := by
  rw [of_decide_eq_true h]
  rfl

/-- **One step**: no feedback, or one that is given. -/
theorem feedback_step {label : Label} (honest : label.Honest) :
    ∃ given rows, (m.step label).feedback = m.feedback ++ given ∧
      (m.step label).events.log.filter is_feedback = m.events.log.filter is_feedback ++ rows ∧
      List.Sublist (rows.map told) (given.map noted) ∧ (Announced m label → rows.map told = given.map noted) ∧
      ∀ f ∈ given, Gives f m label := by
  have heffect := effect m honest
  generalize m.step label = m' at heffect ⊢
  cases heffect with
  | aside _ haside =>
      obtain ⟨-, rows, hrows, hforeign⟩ := haside.log
      refine ⟨[], [], haside.feedback.trans (List.append_nil _).symm, ?_, .refl _, fun _ => rfl, List.forall_mem_nil _⟩
      rw [hrows, List.filter_append, filter_foreign feedback_own hforeign]
  | @given g _ hrating hmay _ hfeedback hlog =>
      have hgives : ∀ f ∈ [g.row], Gives f m (.give_feedback g) :=
        List.forall_mem_singleton.mpr ⟨g, rfl, rfl, hrating, hmay⟩
      cases hlog with
      | refused hrefused hlog =>
          refine ⟨[g.row], [], hfeedback, by rw [hlog, List.append_nil], List.nil_sublist _, ?_, hgives⟩
          intro hannounced
          rw [Announced, hrefused] at hannounced
          cases hannounced
      | logged _ event hlogged rows hlog hrows =>
          obtain ⟨his, htold⟩ := feedback_logged hlogged
          have hsame : [event].map told = [g.row].map noted := by rw [List.map_singleton, htold, List.map_singleton]
          refine ⟨[g.row], [event], hfeedback, ?_, hsame ▸ .refl _, fun _ => hsame, hgives⟩
          rw [hlog, List.filter_append, List.filter_cons_of_pos his, filter_foreign feedback_own hrows]
  | changed _ _ hfeedback hlog =>
      refine ⟨[], [], hfeedback.trans (List.append_nil _).symm, ?_, .refl _, fun _ => rfl, List.forall_mem_nil _⟩
      rw [List.append_nil]
      cases hlog with
      | refused _ hlog => rw [hlog]
      | logged _ event hlogged rows hlog hrows =>
          have hno : ¬ is_feedback event = true := by
            intro his
            have hkind := of_decide_eq_true his
            rw [hlogged.kind] at hkind
            cases hkind
          rw [hlog, List.filter_append, List.filter_cons_of_neg hno, filter_foreign feedback_own hrows, List.append_nil]

end FeedbackHistory

/-- **Where feedback comes from.** In every run of the services, whatever the log refuses: each row that the run adds was
    given in one of its steps, with a rating from 1 to 5, by an active agent that was the manager of the target then, or
    the CEO. The log has events of these rows, in their order, and of nothing else; it has all of them if it has refused
    none. -/
theorem feedback_given (m : Management) {run : List Label} (honest : ∀ label ∈ run, label.Honest) :
    ∃ given rows, (exec step m run).feedback = m.feedback ++ given ∧
      (exec step m run).events.log.filter is_feedback = m.events.log.filter is_feedback ++ rows ∧
      List.Sublist (rows.map told) (given.map noted) ∧
      (Along step Announced m run → rows.map told = given.map noted) ∧
      ∀ f ∈ given, Happens step (Gives f) m run := by
  refine exec_history (C := fun _ label => label.Honest)
    (I := fun pre (m' : Management) => ∃ given rows, m'.feedback = m.feedback ++ given ∧
      m'.events.log.filter is_feedback = m.events.log.filter is_feedback ++ rows ∧
      List.Sublist (rows.map told) (given.map noted) ∧
      (Along step Announced m pre → rows.map told = given.map noted) ∧ ∀ f ∈ given, Happens step (Gives f) m pre)
    ?_ ?_ run (along_of_mem honest)
  · exact ⟨[], [], (List.append_nil _).symm, (List.append_nil _).symm, .refl _, fun _ => rfl, List.forall_mem_nil _⟩
  · rintro pre label ⟨given, rows, hfeedback, hrows, hsub, hall, hhappens⟩ honest
    obtain ⟨given', rows', hfeedback', hrows', hsub', hall', hgives⟩ := feedback_step (m := exec step m pre) honest
    refine ⟨given ++ given', rows ++ rows', ?_, ?_, ?_, ?_, List.forall_mem_append.mpr ⟨?_, ?_⟩⟩
    · rw [hfeedback', hfeedback, List.append_assoc]
    · rw [hrows', hrows, List.append_assoc]
    · rw [List.map_append, List.map_append]
      exact hsub.append hsub'
    · intro halong
      obtain ⟨hbefore, hlast⟩ := along_snoc.mp halong
      rw [List.map_append, List.map_append, hall hbefore, hall' hlast]
    · exact fun f hf => (hhappens f hf).append [label]
    · exact fun f hf => .last (hgives f hf)

def praise : FeedbackCall :=
  { caller_id := "lead-1", target_id := "eng-1", rating := 5, note := "well done", feedback_id := "f1", now := 7 }

theorem feedback_given_praise : ∃ rows,
    (exec step (office (Approvals.fresh {} .quiet)) [.give_feedback praise]).events.log.filter is_feedback = rows ∧
      rows.map told = [noted praise.row] := by
  have honest : ∀ label ∈ [Label.give_feedback praise], label.Honest := List.forall_mem_singleton.mpr trivial
  obtain ⟨given, rows, hfeedback, hrows, -, hall, -⟩ := feedback_given (office (Approvals.fresh {} .quiet)) honest
  have hgiven : [praise.row] = given := hfeedback
  refine ⟨rows, hrows, ?_⟩
  rw [hall ⟨rfl, trivial⟩, ← hgiven, List.map_singleton]

end Performance

end CompanyFactory
