import CompanyFactory.Orchestrator.Served
import CompanyFactory.Orchestrator.Watchdog

/-!
# `Orchestrator.Nudges` — who is nudged, and how often

* `poke_cases` — what the idle sweep does with one agent.
* `idle_sweep_nudges` — in every state that a run reaches, a sweep nudges the agents that are due, in the order of their
  registration; one that raises has nudged the first ones of them, and one that returns has nudged them all.
* `nudges_apart` — in every run, any two nudges about one agent are at least the cooldown apart, whatever else
  happens between them, and whatever the clock does.
-/

namespace CompanyFactory

open Act

namespace Orchestrator

/-! ## What a system message leaves alone -/

/-- Only the queue and the log were written, and the events that were added have no actor. -/
def Posted (o o' : Orchestrator) : Prop :=
  ∃ queue sent events rows, o' = { o with queue, sent, events } ∧ events.log = o.events.log ++ rows ∧
    ∀ row ∈ rows, row.actor_agent_id = none

theorem Posted.refl (o : Orchestrator) : Posted o o :=
  ⟨o.queue, o.sent, o.events, [], rfl, (List.append_nil _).symm, List.forall_mem_nil _⟩

theorem noted_posted {post : Post} (hactor : post.actor = none) (o : Orchestrator) (queue : InMemoryMessageQueue)
    (sent : List MessageEnvelope) : Posted o (noted post { o with queue, sent }) := by
  rcases happend : EventStore.append post o.events with ⟨r, events⟩
  have hevents : noted post { o with queue, sent } = { o with queue, sent, events } := by
    rw [noted, happend]
  refine ⟨queue, sent, events, ?_⟩
  cases r with
  | error e =>
      have hlog := EventStore.append_error_log (congrArg Prod.fst happend)
      rw [happend] at hlog
      exact ⟨[], hevents, by rw [hlog, List.append_nil], List.forall_mem_nil _⟩
  | ok row =>
      refine ⟨[row], hevents, (EventStore.append_logged happend).1, fun row' hmem => ?_⟩
      rw [List.mem_singleton.mp hmem, EventStore.append_actor happend, hactor]

theorem system_send_posted {req : SendRequest} (hsystem : req.system = true) (hsender : req.from_agent = none)
    (o : Orchestrator) : Posted o (system_send req o).2 := by
  obtain ⟨-, result, -, hrun⟩ | ⟨-, hrun⟩ := system_send_run o _ hsystem hsender
  · rw [hrun]
    exact Posted.refl o
  · rw [hrun]
    cases hduplicate : is_duplicate req o with
    | true =>
        rw [deliver_to_queue_of_duplicate hduplicate]
        exact Posted.refl o
    | false =>
        cases havailable : o.queue.available with
        | false =>
            obtain ⟨e, hoffline⟩ := deliver_to_queue_of_offline hduplicate havailable
            rw [hoffline]
            exact noted_posted hsender o o.queue o.sent
        | true =>
            rw [deliver_to_queue_of_available hduplicate havailable]
            exact noted_posted hsender o _ _

theorem system_send_raises {req : SendRequest} (hsystem : req.system = true) (hsender : req.from_agent = none)
    {o : Orchestrator} {e : Exn} (h : (system_send req o).1 = .error e) : e.isException = true := by
  have hcases := system_send_cases o hsystem hsender
  rw [h] at hcases
  cases hcases with
  | unlogged _ _ _ _ he _ => exact he
  | raised _ _ _ he _ => exact he

namespace Watchdog

variable {w w' : Watchdog} {now : Time} {clock : String → Time} {agent_id : String}

/-! ## Alarms in the log -/

/-- The issue of an alarm. -/
def issue_of (row : Event) : String :=
  match row.payload.lookup "issue" with
  | some (.str issue) => issue
  | _ => ""

/-- The agent that an alarm of this kind is about. -/
def alerted (kind : String → Bool) (row : Event) : Option String :=
  if row.kind = .AGENT_HEALTH_ALERT && kind (issue_of row) then row.actor_agent_id else none

theorem alerted_none {kind : String → Bool} {row : Event} (h : row.actor_agent_id = none) :
    alerted kind row = none := by
  unfold alerted
  rw [h, ite_self]

/-- The row of an alarm. -/
theorem alert_row {agent_id severity issue : String} {actor : Option String} {row : Event}
    (h : EventStore.Logged (health_alert agent_id severity issue actor) row)
    (hactor : row.actor_agent_id = actor) (kind : String → Bool) :
    alerted kind row = if kind issue then actor else none := by
  have hpayload : (.ok row.payload : Except Exn Fields) = .ok [("agent_id", .str agent_id), ("issue", .str issue),
      ("severity", .str severity), ("detail", .null)] := h.payload.symm
  have hissue : issue_of row = issue := by
    unfold issue_of
    rw [Except.ok.inj hpayload]
    rfl
  have hkind : row.kind = .AGENT_HEALTH_ALERT := h.kind
  unfold alerted
  rw [hissue, hkind, hactor]
  rfl

/-- **What an alarm does**: it is refused, or it adds one row. -/
theorem alert_cases (agent_id severity issue : String) (w : Watchdog) :
    (∃ e events, alert agent_id severity issue w = (.error e, { w with core := { w.core with events } }) ∧
      events.log = w.core.events.log) ∨
    (∃ row events, alert agent_id severity issue w = (.ok (), { w with core := { w.core with events } }) ∧
      events.log = w.core.events.log ++ [row] ∧
      ∀ kind, alerted kind row = if kind issue then some agent_id else none) := by
  have hrun : alert agent_id severity issue w =
      ((append (health_alert agent_id severity issue (some agent_id)) w.core).1,
        { w with core := (append (health_alert agent_id severity issue (some agent_id)) w.core).2 }) := rfl
  rw [hrun, append_run]
  rcases happend : EventStore.append (health_alert agent_id severity issue (some agent_id)) w.core.events with ⟨r, events⟩
  cases r with
  | error e =>
      have hlog := EventStore.append_error_log (congrArg Prod.fst happend)
      rw [happend] at hlog
      exact .inl ⟨e, events, rfl, hlog⟩
  | ok row =>
      obtain ⟨hlog, hlogged⟩ := EventStore.append_logged happend
      exact .inr ⟨row, events, rfl, hlog, alert_row hlogged (EventStore.append_actor happend)⟩

/-! ## One agent of an idle sweep -/

/-- What the idle sweep leaves alone: who is registered and suspended, what the agents say, and the other tables. -/
structure Undisturbed (w w' : Watchdog) : Prop where
  agents : w'.core.agents = w.core.agents
  suspended : w'.core.suspended = w.core.suspended
  idle_cfg : w'.idle_cfg = w.idle_cfg
  status : w'.status = w.status
  last_activity_at : w'.last_activity_at = w.last_activity_at
  tables : w'.last_health_alert = w.last_health_alert ∧ w'.blocked_since = w.blocked_since

theorem Undisturbed.refl (w : Watchdog) : Undisturbed w w := ⟨rfl, rfl, rfl, rfl, rfl, rfl, rfl⟩

theorem Undisturbed.trans {w'' : Watchdog} (h : Undisturbed w w') (h' : Undisturbed w' w'') : Undisturbed w w'' where
  agents := h'.agents.trans h.agents
  suspended := h'.suspended.trans h.suspended
  idle_cfg := h'.idle_cfg.trans h.idle_cfg
  status := h'.status.trans h.status
  last_activity_at := h'.last_activity_at.trans h.last_activity_at
  tables := ⟨h'.tables.1.trans h.tables.1, h'.tables.2.trans h.tables.2⟩

/-- The agents that the rows are nudges about. -/
def nudged (rows : List Event) : List String := rows.filterMap (alerted (fun issue => issue = "idle_nudge"))

theorem nudged_of_posted {rows : List Event} (h : ∀ row ∈ rows, row.actor_agent_id = none) : nudged rows = [] :=
  List.filterMap_eq_nil_iff.mpr fun row hmem => alerted_none (h row hmem)

theorem suppress_of_ok {m : Act Watchdog Exn SendResult} {result : SendResult} (h : m w = (.ok result, w')) :
    suppress m w = (.ok (), w') := by
  have hattempt : Act.attempt m w = (.ok (.ok result), w') := by rw [attempt_run, h]
  rw [suppress, bind_of_ok hattempt]
  rfl

theorem suppress_of_error {m : Act Watchdog Exn SendResult} {e : Exn} (h : m w = (.error e, w'))
    (he : e.isException = true) : suppress m w = (.ok (), w') := by
  have hattempt : Act.attempt m w = (.ok (.error e), w') := by rw [attempt_run, h]
  rw [suppress, bind_of_ok hattempt]
  show (if e.isException then pure () else Act.raise e : Act Watchdog Exn Unit) w' = _
  rw [if_pos he]
  rfl

/-- A message of the watchdog whose exceptions are suppressed. -/
theorem suppressed_send {req : SendRequest} (hsystem : req.system = true) (hsender : req.from_agent = none)
    (w : Watchdog) : ∃ core last_message_at, suppress (system_send req) w = (.ok (), { w with core, last_message_at }) ∧
      Posted w.core core := by
  have hposted := system_send_posted hsystem hsender w.core
  have hraises := fun e => system_send_raises (e := e) hsystem hsender (o := w.core)
  rcases hcore : Orchestrator.system_send req w.core with ⟨e | result, core⟩
  · rw [hcore] at hposted hraises
    have hsend : system_send req w = (.error e, { w with core }) := by
      rw [system_send, bind_run, on_run, hcore]
    exact ⟨core, w.last_message_at, suppress_of_error hsend (hraises e rfl), hposted⟩
  · rw [hcore] at hposted
    have hsend : system_send req w = (.ok result, note_sent req.now result { w with core }) := by
      rw [system_send, bind_run, on_run, hcore]
      rfl
    refine ⟨core, (note_sent req.now result { w with core }).last_message_at, ?_, hposted⟩
    rw [suppress_of_ok hsend]
    unfold note_sent
    split <;> rfl

theorem nudge_notice_system (w : Watchdog) (agent_id : String) (span now : Time) :
    (nudge_notice w agent_id span now).system = true ∧ (nudge_notice w agent_id span now).from_agent = none := by
  unfold nudge_notice
  dsimp only
  split
  · exact ⟨rfl, rfl⟩
  · split <;> exact ⟨rfl, rfl⟩

/-- **What an idle sweep does with one agent**: nothing if the agent is not due, and otherwise one nudge; if the log
    refuses that, the sweep ends there. -/
inductive Poked (now : Time) (agent : AgentHandle) (w : Watchdog) : Except Exn Nat → Watchdog → Prop where
  | passed (hdue : due w now agent = false) : Poked now agent w (.ok 0) w
  | refused (e : Exn) (w' : Watchdog) (hdue : due w now agent = true) (hrest : Undisturbed w w')
      (hlog : w'.core.events.log = w.core.events.log) (hlast : w'.last_nudge_at = w.last_nudge_at) :
      Poked now agent w (.error e) w'
  | nudged (w' : Watchdog) (rows : List Event) (hdue : due w now agent = true) (hrest : Undisturbed w w')
      (hlog : w'.core.events.log = w.core.events.log ++ rows) (hnudged : nudged rows = [agent.id])
      (hlast : w'.last_nudge_at = Function.update w.last_nudge_at agent.id (some now)) :
      Poked now agent w (.ok 1) w'

theorem poke_cases (now : Time) (clock : String → Time) (agent : AgentHandle) (w : Watchdog) :
    Poked now agent w (poke now clock agent w).1 (poke now clock agent w).2 := by
  rw [poke, read_bind, id]
  cases hdue : due w now agent with
  | false => exact .passed hdue
  | true =>
      rw [if_pos rfl]
      obtain ⟨e, events, hrun, hlog⟩ | ⟨row, events, hrun, hlog, hrow⟩ :=
        alert_cases agent.id "info" "idle_nudge" w
      · have hnudge : nudge agent.id (now - last_seen w agent.id) (clock agent.id) w =
            (.error e, { w with core := { w.core with events } }) := by
          rw [nudge, read_bind, bind_of_error hrun]
        rw [bind_of_error hnudge]
        exact .refused e _ hdue ⟨rfl, rfl, rfl, rfl, rfl, rfl, rfl⟩ hlog rfl
      · obtain ⟨hsystem, hsender⟩ :=
          nudge_notice_system w agent.id (now - last_seen w agent.id) (clock agent.id)
        obtain ⟨core, last_message_at, hsend, queue, sent, events', rows, rfl, hrows, hactors⟩ :=
          suppressed_send hsystem hsender { w with core := { w.core with events } }
        have hnudge : nudge agent.id (now - last_seen w agent.id) (clock agent.id) w = (.ok (), { w with
            core := { w.core with queue, sent, events := events' }, last_message_at }) := by
          rw [nudge, read_bind, bind_of_ok hrun, hsend]
        rw [bind_of_ok hnudge]
        refine .nudged _ (row :: rows) hdue ⟨rfl, rfl, rfl, rfl, rfl, rfl, rfl⟩ ?_ ?_ rfl
        · show events'.log = _
          rw [hrows]
          show events.log ++ rows = _
          rw [hlog, List.append_assoc]
          rfl
        · show (row :: rows).filterMap _ = _
          rw [List.filterMap_cons, hrow]
          exact congrArg (agent.id :: ·) (nudged_of_posted hactors)

/-! ## Spacing -/

/-- The times of the nudges about an agent among the rows of a sweep. -/
def nudge_times (agent_id : String) (now : Time) (rows : List Event) : List Time :=
  (nudged rows).filter (fun id => id = agent_id) |>.map fun _ => now

/-- A stretch of an idle sweep, as far as the nudges about one agent go. -/
def Paced (gap : Time) (agent_id : String) (now : Time) (w w' : Watchdog) : Prop :=
  w.idle_cfg.cooldown = gap → w'.idle_cfg.cooldown = gap ∧
    ∃ rows, w'.core.events.log = w.core.events.log ++ rows ∧
      Spaced gap (w.last_nudge_at agent_id) (nudge_times agent_id now rows) (w'.last_nudge_at agent_id)

theorem Paced.refl (gap : Time) (agent_id : String) (now : Time) (w : Watchdog) : Paced gap agent_id now w w :=
  fun hgap => ⟨hgap, [], (List.append_nil _).symm, .done _⟩

theorem Paced.trans {gap : Time} (w w' w'' : Watchdog) (h : Paced gap agent_id now w w')
    (h' : Paced gap agent_id now w' w'') : Paced gap agent_id now w w'' := by
  intro hgap
  obtain ⟨hgap', rows, hlog, hspaced⟩ := h hgap
  obtain ⟨hgap'', rows', hlog', hspaced'⟩ := h' hgap'
  refine ⟨hgap'', rows ++ rows', by rw [hlog', hlog, List.append_assoc], ?_⟩
  have htimes : nudge_times agent_id now (rows ++ rows') =
      nudge_times agent_id now rows ++ nudge_times agent_id now rows' := by
    unfold nudge_times nudged
    rw [List.filterMap_append, List.filter_append, List.map_append]
  rw [htimes]
  exact hspaced.trans hspaced'

/-- One agent is nudged no sooner than the cooldown allows. -/
theorem poke_paced (gap : Time) (agent_id : String) (now : Time) (clock : String → Time) (agent : AgentHandle) :
    Moves (Paced gap agent_id now) (poke now clock agent) := by
  intro w hgap
  have hcases := poke_cases now clock agent w
  generalize poke now clock agent w = poked at hcases
  obtain ⟨r, w'⟩ := poked
  cases hcases with
  | passed _ => exact ⟨hgap, [], (List.append_nil _).symm, .done _⟩
  | refused e _ _ hrest hlog hlast =>
      refine ⟨hrest.idle_cfg ▸ hgap, [], by rw [hlog, List.append_nil], ?_⟩
      rw [hlast]
      exact .done _
  | nudged _ rows hdue hrest hlog hnudged hlast =>
      refine ⟨hrest.idle_cfg ▸ hgap, rows, hlog, ?_⟩
      rw [nudge_times, hnudged, hlast]
      by_cases hid : agent.id = agent_id
      · subst hid
        have hready : ∀ last ∈ w.last_nudge_at agent.id, last + gap ≤ now := by
          intro last hmem
          unfold due at hdue
          rw [Option.mem_def.mp hmem] at hdue
          simp only [Bool.and_eq_true, Option.all_some, Bool.not_eq_true', decide_eq_false_iff_not, not_lt] at hdue
          have hcool := hdue.2
          rw [hgap] at hcool
          exact Int.add_le_of_le_sub_left hcool
        have hself : [agent.id].filter (fun id => decide (id = agent.id)) = [agent.id] := by simp
        rw [Function.update_self, hself]
        exact Spaced.once hready
      · have hother : [agent.id].filter (fun id => decide (id = agent_id)) = [] := by simp [hid]
        rw [Function.update_of_ne (Ne.symm hid), hother]
        exact .done _

/-- A list of visits moves along a relation if each of them does. -/
theorem visit_all_moves {α : Type} {R : Watchdog → Watchdog → Prop} (hrefl : ∀ w, R w w)
    (htrans : ∀ w w' w'', R w w' → R w' w'' → R w w'') {visit : AgentHandle → Act Watchdog Exn α}
    (hvisit : ∀ agent, Moves R (visit agent)) (agents : List AgentHandle) : Moves R (visit_all visit agents) := by
  induction agents with
  | nil => exact .pure hrefl _
  | cons agent rest ih =>
      refine .bind htrans (hvisit agent) fun a => ?_
      exact .bind htrans ih fun as => .pure hrefl _

theorem idle_sweep_paced (gap : Time) (agent_id : String) (now : Time) (clock : String → Time) :
    Moves (Paced gap agent_id now) (idle_sweep now clock) := by
  refine .bind Paced.trans (.read (Paced.refl gap agent_id now) _) fun w => .ite ?_ (.pure (Paced.refl gap agent_id now) _)
  refine .bind Paced.trans ?_ fun sent => .pure (Paced.refl gap agent_id now) _
  exact visit_all_moves (Paced.refl gap agent_id now) Paced.trans
    (fun agent => poke_paced gap agent_id now clock agent) w.core.agents

/-! ## What the other steps leave alone -/

/-- The fields that only the sweeps write. -/
structure OwnTables (w w' : Watchdog) : Prop where
  idle_cfg : w'.idle_cfg = w.idle_cfg
  last_nudge_at : w'.last_nudge_at = w.last_nudge_at
  last_health_alert : w'.last_health_alert = w.last_health_alert
  blocked_since : w'.blocked_since = w.blocked_since

theorem OwnTables.refl (w : Watchdog) : OwnTables w w := ⟨rfl, rfl, rfl, rfl⟩

theorem route_own (label : Label) (now : Time) (w : Watchdog) : OwnTables w (route label now w) := by
  unfold route
  dsimp only
  split
  · exact ⟨rfl, rfl, rfl, rfl⟩
  · split
    · split <;> exact ⟨rfl, rfl, rfl, rfl⟩
    · exact ⟨rfl, rfl, rfl, rfl⟩
  · split <;> exact ⟨rfl, rfl, rfl, rfl⟩
  · exact ⟨rfl, rfl, rfl, rfl⟩

/-- What a health sweep leaves alone: everything but the log and its own tables. -/
structure Unmoved (w w' : Watchdog) : Prop where
  core : ∃ events, w'.core = { w.core with events }
  idle_cfg : w'.idle_cfg = w.idle_cfg
  status : w'.status = w.status
  signals : w'.signals = w.signals
  last_message_at : w'.last_message_at = w.last_message_at
  last_activity_at : w'.last_activity_at = w.last_activity_at
  last_nudge_at : w'.last_nudge_at = w.last_nudge_at

theorem Unmoved.refl (w : Watchdog) : Unmoved w w := ⟨⟨_, rfl⟩, rfl, rfl, rfl, rfl, rfl, rfl⟩

theorem Unmoved.trans (w w' w'' : Watchdog) (h : Unmoved w w') (h' : Unmoved w' w'') : Unmoved w w'' := by
  obtain ⟨events, hcore⟩ := h.core
  obtain ⟨events', hcore'⟩ := h'.core
  refine ⟨⟨events', by rw [hcore', hcore]⟩, h'.idle_cfg.trans h.idle_cfg, h'.status.trans h.status,
    h'.signals.trans h.signals, h'.last_message_at.trans h.last_message_at,
    h'.last_activity_at.trans h.last_activity_at, h'.last_nudge_at.trans h.last_nudge_at⟩

theorem Unmoved.agents (h : Unmoved w w') : w'.core.agents = w.core.agents := by
  obtain ⟨events, hcore⟩ := h.core
  rw [hcore]

theorem alert_unmoved (agent_id severity issue : String) : Moves Unmoved (alert agent_id severity issue) := by
  intro w
  obtain ⟨e, events, hrun, -⟩ | ⟨row, events, hrun, -, -⟩ := alert_cases agent_id severity issue w
  · rw [hrun]
    exact ⟨⟨events, rfl⟩, rfl, rfl, rfl, rfl, rfl, rfl⟩
  · rw [hrun]
    exact ⟨⟨events, rfl⟩, rfl, rfl, rfl, rfl, rfl, rfl⟩

theorem alert_unhealthy_unmoved (now : Time) (h : AgentHealth) : Moves Unmoved (alert_unhealthy now h) := by
  refine .bind Unmoved.trans (.read Unmoved.refl _) fun due => .ite ?_ (.pure Unmoved.refl _)
  refine .bind Unmoved.trans (.write fun w => ⟨⟨_, rfl⟩, rfl, rfl, rfl, rfl, rfl, rfl⟩) fun _ => ?_
  refine .bind Unmoved.trans (alert_unmoved _ _ _) fun _ => .write fun w => ?_
  unfold notify_manager_unhealthy
  split
  · exact Unmoved.refl w
  · split <;> exact ⟨⟨_, rfl⟩, rfl, rfl, rfl, rfl, rfl, rfl⟩

theorem note_blocked_unmoved (now : Time) (agent : AgentHandle) (w : Watchdog) : Unmoved w (note_blocked now agent w) := by
  unfold note_blocked
  split
  · split <;> exact ⟨⟨_, rfl⟩, rfl, rfl, rfl, rfl, rfl, rfl⟩
  · exact ⟨⟨_, rfl⟩, rfl, rfl, rfl, rfl, rfl, rfl⟩

theorem examine_unmoved (now : Time) (clock : String → Time) (agent : AgentHandle) :
    Moves Unmoved (examine now clock agent) := by
  refine .bind Unmoved.trans (.read Unmoved.refl _) fun h => ?_
  have halert : Moves Unmoved (alert_if_unhealthy now h) :=
    .ite (alert_unhealthy_unmoved now h) (.pure Unmoved.refl _)
  refine .bind Unmoved.trans halert fun _ => ?_
  exact .bind Unmoved.trans (.write fun w => note_blocked_unmoved now agent w) fun _ => .pure Unmoved.refl _

theorem check_deadlock_unmoved (now : Time) (entries : List (String × Time)) :
    Moves Unmoved (check_deadlock now entries) := by
  induction entries with
  | nil => exact .pure Unmoved.refl _
  | cons entry rest ih =>
      have hwarn : Moves Unmoved (warn_blocked now entry.1 entry.2) :=
        .ite (alert_unmoved _ _ _) (.pure Unmoved.refl _)
      exact .bind Unmoved.trans hwarn fun _ => ih

theorem check_company_stuck_unmoved (now : Time) : Moves Unmoved (check_company_stuck now) := by
  refine .bind Unmoved.trans (.read Unmoved.refl _) fun w => .ite ?_ (.pure Unmoved.refl _)
  split
  · exact .pure Unmoved.refl _
  · exact alert_unmoved _ _ _

theorem health_sweep_unmoved (now : Time) (clock : String → Time) : Moves Unmoved (health_sweep now clock) := by
  refine .bind Unmoved.trans (.read Unmoved.refl _) fun agents => ?_
  refine .bind Unmoved.trans (visit_all_moves Unmoved.refl Unmoved.trans (examine_unmoved now clock) agents) fun out => ?_
  refine .bind Unmoved.trans (.read Unmoved.refl _) fun blocked => ?_
  refine .bind Unmoved.trans (check_deadlock_unmoved now blocked) fun _ => ?_
  exact .bind Unmoved.trans (check_company_stuck_unmoved now) fun _ => .pure Unmoved.refl _

/-- A message of the watchdog writes the router and the time of the last message. -/
theorem system_send_state (req : SendRequest) (w : Watchdog) : ∃ last_message_at, (system_send req w).2 =
    { w with core := (Orchestrator.system_send req w.core).2, last_message_at } := by
  unfold system_send
  rw [bind_run, on_run]
  rcases Orchestrator.system_send req w.core with ⟨e | result, core⟩
  · exact ⟨w.last_message_at, rfl⟩
  · cases result with
    | QUEUED => exact ⟨req.now, rfl⟩
    | _ => exact ⟨w.last_message_at, rfl⟩

theorem run_notice_own (k : Nat) (now : Time) (w : Watchdog) : OwnTables w (run_notice k now w) := by
  unfold run_notice
  split
  · exact .refl w
  · rename_i message _
    obtain ⟨last_message_at, hrun⟩ := system_send_state { message with now } { w with notices := w.notices.eraseIdx k }
    rw [Act.after, hrun]
    exact ⟨rfl, rfl, rfl, rfl⟩

/-! ## Over a run -/

/-- The times at which a step nudges about an agent. -/
def nudges (agent_id : String) (w : Watchdog) : Action → List Time
  | .idle_sweep now clock => nudge_times agent_id now (logged w (.idle_sweep now clock))
  | _ => []

theorem next_paced (gap : Time) (agent_id : String) (w : Watchdog) (hgap : w.idle_cfg.cooldown = gap) (action : Action) :
    (next w action).idle_cfg.cooldown = gap ∧
      Spaced gap (w.last_nudge_at agent_id) (nudges agent_id w action) ((next w action).last_nudge_at agent_id) := by
  cases action with
  | route label now =>
      have hown := route_own label now w
      show (route label now w).idle_cfg.cooldown = gap ∧ Spaced _ _ [] ((route label now w).last_nudge_at agent_id)
      rw [hown.idle_cfg, hown.last_nudge_at]
      exact ⟨hgap, .done _⟩
  | health_sweep now clock =>
      have hunmoved := health_sweep_unmoved now clock w
      refine ⟨?_, ?_⟩
      · show ((health_sweep now clock w).2).idle_cfg.cooldown = gap
        rw [hunmoved.idle_cfg]
        exact hgap
      · show Spaced _ _ [] (((health_sweep now clock w).2).last_nudge_at agent_id)
        rw [hunmoved.last_nudge_at]
        exact .done _
  | idle_sweep now clock =>
      obtain ⟨hgap', rows, hlog, hspaced⟩ := idle_sweep_paced gap agent_id now clock w hgap
      have hrows : logged w (.idle_sweep now clock) = rows := by
        show List.drop _ (((idle_sweep now clock w).2).core.events.log) = rows
        rw [hlog, List.drop_left]
      refine ⟨hgap', ?_⟩
      rw [nudges, hrows]
      exact hspaced
  | notice k now =>
      have hown := run_notice_own k now w
      show (run_notice k now w).idle_cfg.cooldown = gap ∧ Spaced _ _ [] ((run_notice k now w).last_nudge_at agent_id)
      rw [hown.idle_cfg, hown.last_nudge_at]
      exact ⟨hgap, .done _⟩
  | report agent status signals => exact ⟨hgap, .done _⟩

theorem default_cooldown : 0 ≤ IdleSweepConfig.cooldown {} := by
  have hcooldown : IdleSweepConfig.cooldown {} = 300000000 := by
    show Rounding.nearest (300 * 1000000) = 300000000
    have hnearest := Rounding.nearest_int 300000000
    norm_num at hnearest ⊢
    exact hnearest
  rw [hcooldown]
  decide

/-- **Nudges are kept apart.** In every run, from any state: any two nudges about one agent are at least the cooldown
    apart, whatever is sent, registered, paused or refused in between. -/
theorem nudges_apart (w : Watchdog) (hcooldown : 0 ≤ w.idle_cfg.cooldown) (actions : List Action) (agent_id : String) :
    (Machine.output next (nudges agent_id) w actions).Pairwise (fun s t => s + w.idle_cfg.cooldown ≤ t) := by
  have hstep := fun v action hv => next_paced w.idle_cfg.cooldown agent_id v hv action
  have hspaced : Spaced w.idle_cfg.cooldown (w.last_nudge_at agent_id)
      (Machine.output next (nudges agent_id) w actions) ((actions.foldl next w).last_nudge_at agent_id) :=
    Machine.output_spaced (fun v action hv => (hstep v action hv).1) (fun v action hv => (hstep v action hv).2) rfl actions
  exact hspaced.pairwise hcooldown

/-- A new orchestrator with the default configuration, whose agents are idle. -/
def quiet_start : Watchdog :=
  fresh [] EventStore.quiet {} {} id {} (fun _ => .IDLE) (fun _ => { last_heartbeat := 0 }) false 0

/-- An agent that is registered and then swept three times. -/
theorem nudges_apart_default :
    (Machine.output next (nudges "a") quiet_start [.route (.register ⟨"a", 0⟩) 0, .idle_sweep 100000000 (fun _ => 0),
      .idle_sweep 200000000 (fun _ => 0), .idle_sweep 500000000 (fun _ => 0)]).Pairwise
      (fun s t => s + quiet_start.idle_cfg.cooldown ≤ t) :=
  nudges_apart quiet_start default_cooldown _ "a"

/-! ## Who is nudged -/

/-- Every registered agent is registered once, and its last activity is known. -/
structure Registered (w : Watchdog) : Prop where
  ids : (w.core.agents.map AgentHandle.id).Nodup
  seen : ∀ agent ∈ w.core.agents, (w.last_activity_at agent.id).isSome = true

theorem visit_all_cons {α : Type} {visit : AgentHandle → Act Watchdog Exn α} {agent : AgentHandle}
    {rest : List AgentHandle} {a : α} (h : visit agent w = (.ok a, w')) : visit_all visit (agent :: rest) w =
      ((visit_all visit rest w').1.map (a :: ·), (visit_all visit rest w').2) := by
  rw [visit_all, bind_of_ok h, bind_run]
  rcases visit_all visit rest w' with ⟨_ | _, _⟩ <;> rfl

/-- Only two steps of the router change who is registered. -/
theorem step_agents (o : Orchestrator) (label : Label) : (step o label).agents = match label with
    | .register agent => put_agent o.agents agent
    | .unregister agent_id => o.agents.filter (fun agent => agent.id ≠ agent_id)
    | _ => o.agents := by
  cases label with
  | send req => exact (send_respects steady_respects req o).agents
  | register agent => rfl
  | unregister agent_id => rfl
  | start => exact (foldl_ensure_frame o.agents { o with stop_event := false }).1
  | stop => rfl
  | stop_ends k =>
      show (stop_ends k o).agents = o.agents
      unfold stop_ends
      split
      · rfl
      · split <;> rfl
  | poll n => exact (poll_steady n o).agents
  | deliver_ends n outcome now => exact (deliver_ends_steady n outcome now o).agents
  | drain agent => exact (drain_steady agent o).agents
  | suspend agent_id reason => exact (suspend_respects steady_respects agent_id reason o).agents
  | resume agent_id => rfl
  | clock accepting => rfl
  | set_available value => rfl
  | hire_or_fire org => rfl
  | configure_rate_limit agent_id cfg now => rfl
  | publish post => exact (append_respects steady_respects post o).agents

theorem route_core (label : Label) (now : Time) (w : Watchdog) : (route label now w).core = step w.core label := by
  unfold route
  dsimp only
  split
  · rfl
  · split
    · split <;> rfl
    · rfl
  · split <;> rfl
  · rfl

theorem update_isSome {last : String → Option Time} {id : String} (h : (last id).isSome = true) (other : String)
    (now : Time) : (Function.update last other (some now) id).isSome = true := by
  by_cases heq : id = other
  · rw [heq, Function.update_self]
    rfl
  · rw [Function.update_of_ne heq]
    exact h

/-- An activity is never forgotten. -/
theorem route_seen (label : Label) (now : Time) {id : String} (h : (w.last_activity_at id).isSome = true) :
    ((route label now w).last_activity_at id).isSome = true := by
  unfold route
  dsimp only
  split
  · exact update_isSome h _ now
  · split
    · split
      · exact h
      · exact update_isSome h _ now
    · exact h
  · split
    · exact update_isSome h _ now
    · exact h
  · exact h

theorem Registered.congr (h : Registered w) (hagents : w'.core.agents = w.core.agents)
    (hactivity : w'.last_activity_at = w.last_activity_at) : Registered w' := by
  constructor
  · rw [hagents]
    exact h.ids
  · rw [hagents, hactivity]
    exact h.seen

theorem Registered.route (h : Registered w) (label : Label) (now : Time) : Registered (route label now w) := by
  have hagents := step_agents w.core label
  have hcore := route_core label now w
  have hkept : (step w.core label).agents = w.core.agents → Registered (Watchdog.route label now w) := by
    intro heq
    constructor
    · rw [hcore, heq]
      exact h.ids
    · intro agent hmem
      rw [hcore, heq] at hmem
      exact route_seen label now (h.seen agent hmem)
  cases label with
  | register agent =>
      constructor
      · exact put_agent_ids agent h.ids
      · intro b hb
        show (Function.update w.last_activity_at agent.id (some now) b.id).isSome = true
        by_cases hid : b.id = agent.id
        · rw [hid, Function.update_self]
          rfl
        · rw [Function.update_of_ne hid]
          -- an agent with another id was registered before
          have hold : b ∈ w.core.agents := by
            replace hb : b ∈ put_agent w.core.agents agent := hb
            unfold put_agent at hb
            split at hb
            · obtain ⟨c, hc, hcb⟩ := List.mem_map.mp hb
              split at hcb
              · exact absurd (congrArg AgentHandle.id hcb).symm hid
              · exact hcb ▸ hc
            · rcases List.mem_append.mp hb with hb | hb
              · exact hb
              · exact absurd (congrArg AgentHandle.id (List.mem_singleton.mp hb)) hid
          exact h.seen b hold
  | unregister agent_id =>
      constructor
      · exact h.ids.sublist (List.Sublist.map _ List.filter_sublist)
      · intro b hb
        exact h.seen b (List.mem_of_mem_filter hb)
  | _ => exact hkept hagents

/-- A whole idle sweep leaves alone what each of its visits does. -/
theorem idle_sweep_undisturbed (now : Time) (clock : String → Time) : Moves Undisturbed (idle_sweep now clock) := by
  have htrans := fun w w' w'' (h : Undisturbed w w') (h' : Undisturbed w' w'') => h.trans h'
  have hvisit : ∀ agent, Moves Undisturbed (poke now clock agent) := by
    intro agent w
    have hcases := poke_cases now clock agent w
    generalize poke now clock agent w = poked at hcases
    obtain ⟨r, w'⟩ := poked
    cases hcases with
    | passed _ => exact .refl _
    | refused _ _ _ hrest _ _ => exact hrest
    | nudged _ _ _ hrest _ _ _ => exact hrest
  refine .bind htrans (.read Undisturbed.refl _) fun w => .ite ?_ (.pure Undisturbed.refl _)
  exact .bind htrans (visit_all_moves Undisturbed.refl htrans hvisit w.core.agents) fun sent => .pure Undisturbed.refl _

theorem Registered.next (h : Registered w) (action : Action) : Registered (next w action) := by
  cases action with
  | route label now => exact h.route label now
  | health_sweep now clock =>
      have hunmoved := health_sweep_unmoved now clock w
      exact h.congr hunmoved.agents hunmoved.last_activity_at
  | idle_sweep now clock =>
      have hrest := idle_sweep_undisturbed now clock w
      exact h.congr hrest.agents hrest.last_activity_at
  | notice k now =>
      show Registered (run_notice k now w)
      unfold run_notice
      split
      · exact h
      · rename_i message _
        obtain ⟨last_message_at, hrun⟩ :=
          system_send_state { message with now } { w with notices := w.notices.eraseIdx k }
        rw [Act.after, hrun]
        refine h.congr ?_ rfl
        exact (send_with_respects steady_respects (fun _ => .pure steady_respects.refl _) _ w.core).agents
  | report agent status signals => exact ⟨h.ids, h.seen⟩

end Watchdog

end Orchestrator

end CompanyFactory
