import CompanyFactory.Orchestrator.Nudges

/-!
# `Orchestrator.Alerts` — what a health sweep reports

* `health_alerts` — in every run, alarms about one unhealthy agent are more than a minute apart; and in every state that
  a run reaches, a sweep raises the alarm about the agents that fail two checks and that it has not reported in the last
  minute, in the order of their registration.
* `deadlock_warnings` — a sweep warns of a deadlock about exactly those agents that it, and every sweep before it that
  looked at them, found blocked for more than half an hour. **An agent that was blocked when it was unregistered is not
  looked at again**: every later sweep warns about it.
-/

namespace CompanyFactory

open Act

namespace Orchestrator

namespace Watchdog

variable {w w' : Watchdog} {now : Time} {clock : String → Time} {agent : AgentHandle} {agent_id : String}

/-! ## The kinds of alarms -/

def is_deadlock (issue : String) : Bool := issue = "deadlock_warning"

def is_stuck (issue : String) : Bool := issue = "company_stuck"

/-- The issue of an alarm about an unhealthy agent: neither of the other two. -/
def is_unhealthy (issue : String) : Bool := !is_deadlock issue && !is_stuck issue

theorem deadlock_not_unhealthy (issue : String) (h : is_deadlock issue = true) : is_unhealthy issue = false := by
  rw [is_unhealthy, h]
  rfl

theorem stuck_not_unhealthy (issue : String) (h : is_stuck issue = true) : is_unhealthy issue = false := by
  rw [is_unhealthy, h, Bool.not_true, Bool.and_false]

theorem deadlock_not_stuck (issue : String) (h : is_deadlock issue = true) : is_stuck issue = false := by
  rw [of_decide_eq_true h]
  decide

theorem stuck_not_deadlock (issue : String) (h : is_stuck issue = true) : is_deadlock issue = false := by
  rw [of_decide_eq_true h]
  decide

/-- The agents that the rows raise alarms of a kind about. -/
def reported (kind : String → Bool) (rows : List Event) : List String := rows.filterMap (alerted kind)

theorem reported_append (kind : String → Bool) (rows rows' : List Event) :
    reported kind (rows ++ rows') = reported kind rows ++ reported kind rows' := List.filterMap_append

/-- Two notes are joined by a comma. -/
theorem comma_joined {notes : List String} (h : 2 ≤ notes.length) : ',' ∈ (join_notes notes).toList := by
  match notes, h with
  | first :: second :: rest, _ =>
      rw [join_notes, String.toList_append, String.toList_append]
      · exact List.mem_append_left _ (List.mem_append_right _ List.mem_cons_self)
      · exact fun heq => List.cons_ne_nil _ _ heq

/-- The issue of an unhealthy agent is told apart from the other two. -/
theorem unhealthy_issue_kind {h : AgentHealth} (hnotes : 2 ≤ h.notes.length) :
    is_unhealthy (unhealthy_issue h) = true ∧ is_deadlock (unhealthy_issue h) = false ∧
      is_stuck (unhealthy_issue h) = false := by
  have hcomma := comma_joined hnotes
  have hne : ∀ text : String, ',' ∉ text.toList → join_notes h.notes ≠ text := by
    intro text hno heq
    exact hno (heq ▸ hcomma)
  have hdeadlock : is_deadlock (unhealthy_issue h) = false := by
    rw [is_deadlock, unhealthy_issue, if_neg (hne "" (by decide))]
    exact decide_eq_false (hne _ (by decide))
  have hstuck : is_stuck (unhealthy_issue h) = false := by
    rw [is_stuck, unhealthy_issue, if_neg (hne "" (by decide))]
    exact decide_eq_false (hne _ (by decide))
  refine ⟨?_, hdeadlock, hstuck⟩
  rw [is_unhealthy, hdeadlock, hstuck]
  rfl

/-! ## One agent of a health sweep -/

/-- Is an alarm to be raised about the agent? -/
def alarming (w : Watchdog) (now : Time) (clock : String → Time) (agent : AgentHandle) : Bool :=
  decide (2 ≤ failing (w.signals agent) (clock agent.id)) && may_alert w agent.id now

/-- **What a health sweep does with one agent**: it raises an alarm if it has to, and it notes whether the agent is
    blocked. If the log refuses the alarm, the sweep ends there. -/
inductive Examined (now : Time) (clock : String → Time) (agent : AgentHandle) (w : Watchdog) :
    Except Exn AgentHealth → Watchdog → Prop where
  | passed (w' : Watchdog) (halarming : alarming w now clock agent = false)
      (hlog : w'.core.events.log = w.core.events.log) (hlast : w'.last_health_alert = w.last_health_alert)
      (hblocked : w'.blocked_since = (note_blocked now agent w).blocked_since) :
      Examined now clock agent w (.ok (health w agent (clock agent.id))) w'
  | refused (e : Exn) (w' : Watchdog) (halarming : alarming w now clock agent = true)
      (hlog : w'.core.events.log = w.core.events.log)
      (hlast : w'.last_health_alert = Function.update w.last_health_alert agent.id (some now))
      (hblocked : w'.blocked_since = w.blocked_since) : Examined now clock agent w (.error e) w'
  | reported (w' : Watchdog) (row : Event) (halarming : alarming w now clock agent = true)
      (hlog : w'.core.events.log = w.core.events.log ++ [row])
      (hrow : ∀ kind, alerted kind row =
        if kind (unhealthy_issue (health w agent (clock agent.id))) then some agent.id else none)
      (hnotes : 2 ≤ (health w agent (clock agent.id)).notes.length)
      (hlast : w'.last_health_alert = Function.update w.last_health_alert agent.id (some now))
      (hblocked : w'.blocked_since = (note_blocked now agent w).blocked_since) :
      Examined now clock agent w (.ok (health w agent (clock agent.id))) w'

theorem note_blocked_congr (hstatus : w'.status = w.status) (hblocked : w'.blocked_since = w.blocked_since) :
    (note_blocked now agent w').blocked_since = (note_blocked now agent w).blocked_since := by
  unfold note_blocked blocked_at
  rw [hstatus, hblocked]
  split
  · split
    · exact hblocked
    · rfl
  · rfl

theorem note_blocked_frame (now : Time) (agent : AgentHandle) (w : Watchdog) :
    (note_blocked now agent w).core = w.core ∧ (note_blocked now agent w).last_health_alert = w.last_health_alert := by
  unfold note_blocked
  split
  · split <;> exact ⟨rfl, rfl⟩
  · exact ⟨rfl, rfl⟩

theorem notify_frame (agent_id : String) (now : Time) (w : Watchdog) :
    (notify_manager_unhealthy agent_id now w).core = w.core ∧
      (notify_manager_unhealthy agent_id now w).last_health_alert = w.last_health_alert ∧
      (notify_manager_unhealthy agent_id now w).blocked_since = w.blocked_since ∧
      (notify_manager_unhealthy agent_id now w).status = w.status := by
  unfold notify_manager_unhealthy
  split
  · exact ⟨rfl, rfl, rfl, rfl⟩
  · split <;> exact ⟨rfl, rfl, rfl, rfl⟩

theorem alert_if_unhealthy_skip {h : AgentHealth}
    (hskip : ¬ (h.score < UNHEALTHY_CUTOFF ∧ may_alert w h.agent_id now = true)) :
    alert_if_unhealthy now h w = (.ok (), w) := by
  unfold alert_if_unhealthy
  split
  · rename_i hscore
    have hmay : may_alert w h.agent_id now = false := Bool.eq_false_iff.mpr fun hmay => hskip ⟨hscore, hmay⟩
    rw [alert_unhealthy, read_bind, hmay]
    rfl
  · rfl

/-- The alarm, with the time that is noted before it. -/
theorem alert_if_unhealthy_run {h : AgentHealth} (hscore : h.score < UNHEALTHY_CUTOFF)
    (hmay : may_alert w h.agent_id now = true) : alert_if_unhealthy now h w = (do
      alert h.agent_id "warn" (unhealthy_issue h)
      Act.write (notify_manager_unhealthy h.agent_id now) : Act Watchdog Exn Unit)
      { w with last_health_alert := Function.update w.last_health_alert h.agent_id (some now) } := by
  rw [alert_if_unhealthy, if_pos hscore, alert_unhealthy, read_bind, hmay]
  rfl

theorem examine_cases (now : Time) (clock : String → Time) (agent : AgentHandle) (w : Watchdog) :
    Examined now clock agent w (examine now clock agent w).1 (examine now clock agent w).2 := by
  have hscore : (health w agent (clock agent.id)).score < UNHEALTHY_CUTOFF ↔
      2 ≤ failing (w.signals agent) (clock agent.id) := unhealthy_iff _ _
  have hlength : (health w agent (clock agent.id)).notes.length = failing (w.signals agent) (clock agent.id) :=
    length_notes _ _
  rw [examine, read_bind]
  cases halarming : alarming w now clock agent with
  | false =>
      have hskip : ¬ ((health w agent (clock agent.id)).score < UNHEALTHY_CUTOFF ∧ may_alert w agent.id now = true) := by
        rintro ⟨hlow, hmay⟩
        rw [alarming, hmay, decide_eq_true (hscore.mp hlow)] at halarming
        cases halarming
      obtain ⟨hcore, hlast⟩ := note_blocked_frame now agent w
      rw [bind_of_ok (alert_if_unhealthy_skip hskip)]
      exact .passed _ halarming (congrArg (fun core => core.events.log) hcore) hlast rfl
  | true =>
      obtain ⟨hfailing, hmay⟩ := Bool.and_eq_true_iff.mp halarming
      have hlow := hscore.mpr (of_decide_eq_true hfailing)
      have hrun := alert_if_unhealthy_run hlow hmay
      obtain ⟨e, events, halert, hlog⟩ | ⟨row, events, halert, hlog, hrow⟩ := alert_cases agent.id "warn"
        (unhealthy_issue (health w agent (clock agent.id)))
        { w with last_health_alert := Function.update w.last_health_alert agent.id (some now) }
      · rw [bind_of_error (hrun.trans (bind_of_error halert))]
        exact .refused e _ halarming hlog rfl rfl
      · rw [bind_of_ok (hrun.trans (bind_of_ok halert))]
        -- the notice to the manager, and then the table of blocked agents
        refine .reported _ row halarming ?_ hrow (hlength ▸ of_decide_eq_true hfailing) ?_ ?_
        · show (note_blocked now agent (notify_manager_unhealthy agent.id now _)).core.events.log = _
          rw [(note_blocked_frame _ _ _).1, (notify_frame _ _ _).1]
          exact hlog
        · show (note_blocked now agent (notify_manager_unhealthy agent.id now _)).last_health_alert = _
          rw [(note_blocked_frame _ _ _).2, (notify_frame _ _ _).2.1]
        · show (note_blocked now agent (notify_manager_unhealthy agent.id now _)).blocked_since = _
          obtain ⟨-, -, hblocked, hstatus⟩ := notify_frame agent.id now { w with
            core := { w.core with events }
            last_health_alert := Function.update w.last_health_alert agent.id (some now) }
          exact note_blocked_congr hstatus hblocked

/-! ## Who is blocked -/

/-- What a visit saw of the agent. -/
def sighting (now : Time) (w : Watchdog) (agent : AgentHandle) : Time × Bool := (now, decide (w.status agent = .BLOCKED))

/-- A visit goes on with the streak of the agent, or ends it. -/
theorem blocked_at_noted (now : Time) (agent : AgentHandle) (w : Watchdog) (agent_id : String) :
    (note_blocked now agent w).blocked_at agent_id =
      if agent.id = agent_id then streak (w.blocked_at agent_id) (sighting now w agent) else w.blocked_at agent_id := by
  unfold note_blocked sighting streak
  by_cases hblocked : w.status agent = .BLOCKED
  · rw [if_pos hblocked, decide_eq_true hblocked, if_pos rfl]
    by_cases hid : agent.id = agent_id
    · subst hid
      rw [if_pos rfl]
      cases hsince : w.blocked_at agent.id with
      | some since =>
          rw [Option.isSome_some, if_pos rfl, hsince]
          rfl
      | none =>
          have hfind : Table.find Prod.fst w.blocked_since agent.id = none := Option.map_eq_none_iff.mp hsince
          rw [if_neg (by simp)]
          show (Table.find Prod.fst (w.blocked_since ++ [(agent.id, now)]) agent.id).map Prod.snd = _
          rw [Table.find_insert, hfind, if_pos rfl]
          rfl
    · rw [if_neg hid]
      split
      · rfl
      · show (Table.find Prod.fst (w.blocked_since ++ [(agent.id, now)]) agent_id).map Prod.snd = _
        rw [Table.find_insert, if_neg hid, Option.or_none]
        rfl
  · rw [if_neg hblocked, decide_eq_false hblocked, if_neg Bool.false_ne_true]
    show (Table.find Prod.fst (w.blocked_since.filter (fun entry => entry.1 ≠ agent.id)) agent_id).map Prod.snd = _
    rw [Table.find_filter (fun id => id ≠ agent.id)]
    by_cases hid : agent.id = agent_id
    · rw [if_neg (fun hne => hne hid.symm), if_pos hid]
      rfl
    · rw [if_pos (Ne.symm hid), if_neg hid]
      rfl

theorem blocked_ids_noted (h : (w.blocked_since.map Prod.fst).Nodup) (now : Time) (agent : AgentHandle) :
    ((note_blocked now agent w).blocked_since.map Prod.fst).Nodup := by
  unfold note_blocked
  split
  · cases hsince : w.blocked_at agent.id with
    | some since => exact h
    | none => exact Table.keys_insert h (Option.map_eq_none_iff.mp hsince)
  · exact h.sublist (List.Sublist.map _ List.filter_sublist)

/-! ## The visits of a sweep -/

/-- The agents whose visits came to an end. -/
def reached (now : Time) (clock : String → Time) : List AgentHandle → Watchdog → List AgentHandle
  | [], _ => []
  | agent :: rest, w =>
    if (examine now clock agent w).1.isOk then agent :: reached now clock rest (examine now clock agent w).2 else []

theorem reached_cons (now : Time) (clock : String → Time) (agent : AgentHandle) (rest : List AgentHandle) (w : Watchdog) :
    reached now clock (agent :: rest) w =
      if (examine now clock agent w).1.isOk then agent :: reached now clock rest (examine now clock agent w).2
      else [] := rfl

theorem reached_ok {rest : List AgentHandle} {h : AgentHealth} (hrun : examine now clock agent w = (.ok h, w')) :
    reached now clock (agent :: rest) w = agent :: reached now clock rest w' := by
  rw [reached_cons, hrun]
  rfl

theorem reached_error {rest : List AgentHandle} {e : Exn} (hrun : examine now clock agent w = (.error e, w')) :
    reached now clock (agent :: rest) w = [] := by
  rw [reached_cons, hrun]
  rfl

/-- The sightings of one agent among visits. -/
def seen_of (now : Time) (w : Watchdog) (agent_id : String) (agents : List AgentHandle) : List (Time × Bool) :=
  (agents.filter (fun agent => agent.id = agent_id)).map (sighting now w)

/-- What the visits of a health sweep come to. -/
structure Surveyed (now : Time) (clock : String → Time) (agents : List AgentHandle) (w : Watchdog)
    (r : Except Exn (List AgentHealth)) (w' : Watchdog) (rows : List Event) : Prop where
  log : w'.core.events.log = w.core.events.log ++ rows
  others : reported is_deadlock rows = [] ∧ reported is_stuck rows = []
  alerts : ∃ left, (agents.filter (alarming w now clock)).map AgentHandle.id = reported is_unhealthy rows ++ left ∧
    (r.isOk = true → left = [])
  all : r.isOk = true → reached now clock agents w = agents
  blocked : ∀ agent_id, w'.blocked_at agent_id =
    (seen_of now w agent_id (reached now clock agents w)).foldl streak (w.blocked_at agent_id)
  ids : (w.blocked_since.map Prod.fst).Nodup → (w'.blocked_since.map Prod.fst).Nodup

/-- An alarm about one agent does not change whether another one is to be reported. -/
theorem alarming_congr (hsignals : w'.signals = w.signals)
    (hlast : w'.last_health_alert agent.id = w.last_health_alert agent.id) :
    alarming w' now clock agent = alarming w now clock agent := by
  unfold alarming may_alert
  rw [hsignals, hlast]

theorem blocked_at_congr (h : w'.blocked_since = w.blocked_since) (agent_id : String) :
    w'.blocked_at agent_id = w.blocked_at agent_id := by
  unfold blocked_at
  rw [h]

theorem seen_of_cons (now : Time) (w : Watchdog) (agent_id : String) (agent : AgentHandle) (rest : List AgentHandle) :
    seen_of now w agent_id (agent :: rest) =
      if agent.id = agent_id then sighting now w agent :: seen_of now w agent_id rest else seen_of now w agent_id rest := by
  unfold seen_of
  by_cases hid : agent.id = agent_id
  · rw [List.filter_cons_of_pos (by simpa using hid), if_pos hid, List.map_cons]
  · rw [List.filter_cons_of_neg (by simpa using hid), if_neg hid]

theorem visit_examine (now : Time) (clock : String → Time) (agents : List AgentHandle) : ∀ w : Watchdog,
    (agents.map AgentHandle.id).Nodup → ∃ rows, Surveyed now clock agents w (visit_all (examine now clock) agents w).1
      (visit_all (examine now clock) agents w).2 rows := by
  induction agents with
  | nil =>
      intro w _
      exact ⟨[], (List.append_nil _).symm, ⟨rfl, rfl⟩, ⟨[], rfl, fun _ => rfl⟩, fun _ => rfl, fun _ => rfl, id⟩
  | cons agent rest ih =>
      intro w hids
      rw [List.map_cons, List.nodup_cons] at hids
      have hne : ∀ b ∈ rest, b.id ≠ agent.id := fun b hb heq => hids.1 (heq ▸ List.mem_map_of_mem hb)
      have hcases := examine_cases now clock agent w
      have hunmoved := examine_unmoved now clock agent w
      rcases hexamine : examine now clock agent w with ⟨r, v⟩
      rw [hexamine] at hcases hunmoved
      -- what follows a visit that came to an end
      have hgoes : ∀ (h : AgentHealth) (row : List Event), r = .ok h →
          v.core.events.log = w.core.events.log ++ row →
          reported is_deadlock row = [] ∧ reported is_stuck row = [] →
          reported is_unhealthy row = ([agent].filter (alarming w now clock)).map AgentHandle.id →
          (∀ b ∈ rest, v.last_health_alert b.id = w.last_health_alert b.id) →
          v.blocked_since = (note_blocked now agent w).blocked_since →
          ∃ rows, Surveyed now clock (agent :: rest) w (visit_all (examine now clock) (agent :: rest) w).1
            (visit_all (examine now clock) (agent :: rest) w).2 rows := by
        intro h row hr hlog hothers hrow hlast hblocked
        rw [hr] at hexamine
        obtain ⟨rows, hlog', hothers', ⟨left, hsplit, hall⟩, hreached, hblocked', hnodup⟩ := ih v hids.2
        have hok : ∀ {x : Except Exn (List AgentHealth)}, (x.map (h :: ·)).isOk = true → x.isOk = true := by
          intro x hx
          cases x with
          | error e => cases hx
          | ok _ => rfl
        have hreach : reached now clock (agent :: rest) w = agent :: reached now clock rest v := reached_ok hexamine
        rw [visit_all_cons hexamine]
        refine ⟨row ++ rows, ?_, ⟨?_, ?_⟩, ⟨left, ?_, ?_⟩, ?_, fun agent_id => ?_, ?_⟩
        · dsimp only
          rw [hlog', hlog, List.append_assoc]
        · rw [reported_append, hothers.1, hothers'.1]
          rfl
        · rw [reported_append, hothers.2, hothers'.2]
          rfl
        · have hrest : rest.filter (alarming v now clock) = rest.filter (alarming w now clock) :=
            List.filter_congr fun b hb => alarming_congr hunmoved.signals (hlast b hb)
          rw [reported_append, hrow, List.append_assoc, ← hsplit, hrest, ← List.map_append, ← List.filter_append]
          rfl
        · exact fun hx => hall (hok hx)
        · intro hx
          rw [hreach, hreached (hok hx)]
        · have hsightings : seen_of now v agent_id = seen_of now w agent_id := by
            funext agents
            unfold seen_of sighting
            rw [hunmoved.status]
          rw [hblocked', hreach, seen_of_cons, hsightings, blocked_at_congr hblocked, blocked_at_noted]
          split <;> rfl
        · intro hids
          apply hnodup
          rw [hblocked]
          exact blocked_ids_noted hids now agent
      cases hcases with
      | refused e _ halarming hlog hlast hblocked =>
          have hreach : reached now clock (agent :: rest) w = [] := reached_error hexamine
          rw [visit_all, bind_of_error hexamine]
          refine ⟨[], ?_, ⟨rfl, rfl⟩, ⟨_, rfl, ?_⟩, ?_, fun agent_id => ?_, ?_⟩
          · rw [hlog, List.append_nil]
          · intro hok
            cases hok
          · intro hok
            cases hok
          · rw [hreach]
            exact blocked_at_congr hblocked agent_id
          · rw [hblocked]
            exact id
      | passed _ halarming hlog hlast hblocked =>
          refine hgoes _ [] rfl (by rw [hlog, List.append_nil]) ⟨rfl, rfl⟩ ?_ (fun b _ => by rw [hlast]) hblocked
          rw [List.filter_cons_of_neg (by rw [halarming]; exact Bool.false_ne_true)]
          rfl
      | reported _ row halarming hlog hrow hnotes hlast hblocked =>
          obtain ⟨hunhealthy, hdeadlock, hstuck⟩ := unhealthy_issue_kind hnotes
          have hone : ∀ kind, reported kind [row] =
              if kind (unhealthy_issue (health w agent (clock agent.id))) then [agent.id] else [] := by
            intro kind
            show [row].filterMap _ = _
            rw [List.filterMap_cons, hrow]
            cases kind (unhealthy_issue (health w agent (clock agent.id))) <;> rfl
          refine hgoes _ [row] rfl hlog ⟨by rw [hone, hdeadlock]; rfl, by rw [hone, hstuck]; rfl⟩ ?_ ?_ hblocked
          · rw [hone, hunhealthy, List.filter_cons_of_pos halarming]
            rfl
          · intro b hb
            rw [hlast, Function.update_of_ne (hne b hb)]

/-! ## The two checks after the visits -/

/-- What a check does: it raises alarms of one kind, about the first ones of these agents. -/
structure Warned (kind : String → Bool) (agents : List String) (w : Watchdog) (r : Except Exn Unit) (w' : Watchdog)
    (rows : List Event) : Prop where
  log : w'.core.events.log = w.core.events.log ++ rows
  others : ∀ kind', (∀ issue, kind issue = true → kind' issue = false) → reported kind' rows = []
  warned : ∃ left, agents = reported kind rows ++ left ∧ (r.isOk = true → left = [])
  tables : w'.last_health_alert = w.last_health_alert ∧ w'.blocked_since = w.blocked_since

/-- A check that has nothing to report. -/
theorem Warned.nothing (kind : String → Bool) (w : Watchdog) : Warned kind [] w (.ok ()) w [] :=
  ⟨(List.append_nil _).symm, fun _ _ => rfl, ⟨[], rfl, fun _ => rfl⟩, rfl, rfl⟩

/-- A check that raises one alarm. -/
theorem alert_warned {kind : String → Bool} {issue : String} (hkind : kind issue = true) (agent_id : String)
    (w : Watchdog) : ∃ rows, Warned kind [agent_id] w (alert agent_id "warn" issue w).1
      (alert agent_id "warn" issue w).2 rows := by
  obtain ⟨e, events, hrun, hlog⟩ | ⟨row, events, hrun, hlog, hrow⟩ := alert_cases agent_id "warn" issue w
  · rw [hrun]
    refine ⟨[], ?_, fun _ _ => rfl, ⟨[agent_id], rfl, ?_⟩, rfl, rfl⟩
    · dsimp only
      rw [hlog, List.append_nil]
    · intro hok
      cases hok
  · rw [hrun]
    refine ⟨[row], hlog, fun kind' hkind' => ?_, ⟨[], ?_, fun _ => rfl⟩, rfl, rfl⟩
    · show [row].filterMap _ = _
      rw [List.filterMap_cons, hrow, hkind' issue hkind]
      rfl
    · show _ = [row].filterMap _ ++ []
      rw [List.filterMap_cons, hrow, hkind]
      rfl

/-- Two checks of one kind, the second one if the first one returns. -/
theorem Warned.bind {kind : String → Bool} {agents agents' : List String} {rows : List Event} {m : Act Watchdog Exn Unit}
    {next : Act Watchdog Exn Unit} (h : Warned kind agents w (m w).1 (m w).2 rows)
    (h' : ∃ rows', Warned kind agents' (m w).2 (next (m w).2).1 (next (m w).2).2 rows') :
    ∃ rows', Warned kind (agents ++ agents') w ((m >>= fun _ => next) w).1 ((m >>= fun _ => next) w).2 rows' := by
  obtain ⟨rows', h'⟩ := h'
  rcases hrun : m w with ⟨e | u, v⟩
  · rw [hrun] at h
    rw [bind_of_error hrun]
    obtain ⟨left, hsplit, -⟩ := h.warned
    refine ⟨rows, h.log, h.others, ⟨left ++ agents', ?_, ?_⟩, h.tables⟩
    · rw [hsplit, List.append_assoc]
    · intro hok
      cases hok
  · rw [hrun] at h h'
    rw [bind_of_ok hrun]
    obtain ⟨left, hsplit, hnone⟩ := h.warned
    obtain ⟨left', hsplit', hnone'⟩ := h'.warned
    refine ⟨rows ++ rows', ?_, fun kind' hkind' => ?_, ⟨left', ?_, hnone'⟩, ?_, ?_⟩
    · rw [h'.log, h.log, List.append_assoc]
    · rw [reported_append, h.others kind' hkind', h'.others kind' hkind']
      rfl
    · rw [reported_append, hsplit, hnone rfl, hsplit', List.append_nil, List.append_assoc]
    · exact h'.tables.1.trans h.tables.1
    · exact h'.tables.2.trans h.tables.2

/-- The entries that a sweep warns about. -/
def overdue (now : Time) (entries : List (String × Time)) : List String :=
  (entries.filter (fun entry => _DEADLOCK_BLOCKED_AFTER < now - entry.2)).map Prod.fst

theorem overdue_one (now : Time) (agent_id : String) (since : Time) :
    overdue now [(agent_id, since)] = if _DEADLOCK_BLOCKED_AFTER < now - since then [agent_id] else [] := by
  unfold overdue
  split
  · rename_i hover
    simp [hover]
  · rename_i hover
    simp [hover]

theorem check_deadlock_warned (now : Time) (entries : List (String × Time)) : ∀ w : Watchdog,
    ∃ rows, Warned is_deadlock (overdue now entries) w (check_deadlock now entries w).1
      (check_deadlock now entries w).2 rows := by
  induction entries with
  | nil => exact fun w => ⟨[], .nothing _ w⟩
  | cons entry rest ih =>
      intro w
      obtain ⟨agent_id, since⟩ := entry
      have hone : ∃ rows, Warned is_deadlock (overdue now [(agent_id, since)]) w (warn_blocked now agent_id since w).1
          (warn_blocked now agent_id since w).2 rows := by
        rw [overdue_one, warn_blocked]
        split
        · exact alert_warned rfl agent_id w
        · exact ⟨[], .nothing _ w⟩
      obtain ⟨rows, hone⟩ := hone
      have hsplit : overdue now ((agent_id, since) :: rest) = overdue now [(agent_id, since)] ++ overdue now rest := by
        unfold overdue
        rw [← List.map_append, ← List.filter_append]
        rfl
      rw [hsplit, check_deadlock]
      exact hone.bind (ih _)

/-- The agent that is named when nothing has been sent for an hour: the first one that is idle. -/
def stuck_agent (w : Watchdog) (now : Time) : List String :=
  if _COMPANY_STUCK_AFTER < now - w.last_message_at then
    ((w.core.agents.find? (fun agent => w.status agent = .IDLE)).map AgentHandle.id).toList
  else []

theorem check_company_stuck_warned (now : Time) (w : Watchdog) :
    ∃ rows, Warned is_stuck (stuck_agent w now) w (check_company_stuck now w).1 (check_company_stuck now w).2 rows := by
  rw [check_company_stuck, read_bind, id, stuck_agent]
  split
  · cases w.core.agents.find? (fun agent => w.status agent = .IDLE) with
    | none => exact ⟨[], .nothing _ w⟩
    | some agent => exact alert_warned rfl agent.id w
  · exact ⟨[], .nothing _ w⟩

/-! ## A whole sweep -/

/-- **What a health sweep comes to**, from a state in which every agent is registered once. -/
structure SweepSpec (now : Time) (clock : String → Time) (w : Watchdog) (returned : Bool) (w' : Watchdog)
    (rows : List Event) : Prop where
  log : w'.core.events.log = w.core.events.log ++ rows
  alerts : ∃ left, (w.core.agents.filter (alarming w now clock)).map AgentHandle.id = reported is_unhealthy rows ++ left ∧
    (returned = true → left = [])
  warnings : ∃ left, overdue now w'.blocked_since = reported is_deadlock rows ++ left ∧ (returned = true → left = [])
  stuck : ∃ left, stuck_agent w now = reported is_stuck rows ++ left ∧ (returned = true → left = [])
  blocked : ∀ agent_id, w'.blocked_at agent_id =
    (seen_of now w agent_id (reached now clock w.core.agents w)).foldl streak (w.blocked_at agent_id)
  ids : (w.blocked_since.map Prod.fst).Nodup → (w'.blocked_since.map Prod.fst).Nodup

theorem health_sweep_error {e : Exn} (h : visit_all (examine now clock) w.core.agents w = (.error e, w')) :
    health_sweep now clock w = (.error e, w') := by rw [health_sweep, read_bind, bind_of_error h]

/-- The checks after the visits. -/
theorem health_sweep_ok {out : List AgentHealth} (h : visit_all (examine now clock) w.core.agents w = (.ok out, w')) :
    health_sweep now clock w =
      (((check_deadlock now w'.blocked_since >>= fun _ => check_company_stuck now) w').1.map fun _ => out,
        ((check_deadlock now w'.blocked_since >>= fun _ => check_company_stuck now) w').2) := by
  rw [health_sweep, read_bind, bind_of_ok h, read_bind, bind_run, bind_run]
  rcases check_deadlock now w'.blocked_since w' with ⟨e | u, w''⟩
  · rfl
  · dsimp only
    rw [bind_run]
    rcases check_company_stuck now w'' with ⟨_ | _, _⟩ <;> rfl

theorem health_sweep_spec (now : Time) (clock : String → Time) (w : Watchdog)
    (hids : (w.core.agents.map AgentHandle.id).Nodup) : ∃ rows,
      SweepSpec now clock w (health_sweep now clock w).1.isOk (health_sweep now clock w).2 rows := by
  obtain ⟨rows, hvisits⟩ := visit_examine now clock w.core.agents w hids
  have hunmoved := visit_all_moves Unmoved.refl Unmoved.trans (examine_unmoved now clock) w.core.agents w
  rcases hrun : visit_all (examine now clock) w.core.agents w with ⟨e | out, v⟩
  · -- the log refused an alarm
    rw [hrun] at hvisits
    rw [health_sweep_error hrun]
    obtain ⟨left, hsplit, -⟩ := hvisits.alerts
    have hfailed : (Except.error e : Except Exn (List AgentHealth)).isOk = true → False := fun hok => Bool.noConfusion hok
    refine ⟨rows, hvisits.log, ⟨left, hsplit, fun hok => (hfailed hok).elim⟩,
      ⟨overdue now v.blocked_since, ?_, fun hok => (hfailed hok).elim⟩,
      ⟨stuck_agent w now, ?_, fun hok => (hfailed hok).elim⟩, hvisits.blocked, hvisits.ids⟩
    · rw [hvisits.others.1]
      rfl
    · rw [hvisits.others.2]
      rfl
  · rw [hrun] at hvisits hunmoved
    rw [health_sweep_ok hrun]
    obtain ⟨left, hsplit, hall⟩ := hvisits.alerts
    have halerts : (w.core.agents.filter (alarming w now clock)).map AgentHandle.id = reported is_unhealthy rows := by
      rw [hsplit, hall rfl, List.append_nil]
    obtain ⟨warned, hwarned⟩ := check_deadlock_warned now v.blocked_since v
    have hunmoved' := check_deadlock_unmoved now v.blocked_since v
    rcases hcheck : check_deadlock now v.blocked_since v with ⟨e | u, w₂⟩
    · -- the log refused a warning
      rw [hcheck] at hwarned
      rw [bind_of_error hcheck]
      obtain ⟨left', hsplit', -⟩ := hwarned.warned
      have hfailed : ((Except.error e : Except Exn Unit).map fun _ => out).isOk = true → False :=
        fun hok => Bool.noConfusion hok
      refine ⟨rows ++ warned, ?_, ⟨[], ?_, fun _ => rfl⟩, ⟨left', ?_, fun hok => (hfailed hok).elim⟩,
        ⟨stuck_agent w now, ?_, fun hok => (hfailed hok).elim⟩, fun agent_id => ?_, fun hnodup => ?_⟩
      · rw [hwarned.log, hvisits.log, List.append_assoc]
      · rw [reported_append, hwarned.others _ deadlock_not_unhealthy, halerts, List.append_nil, List.append_nil]
      · rw [reported_append, hvisits.others.1, hwarned.tables.2, hsplit']
        rfl
      · rw [reported_append, hvisits.others.2, hwarned.others _ deadlock_not_stuck]
        rfl
      · rw [blocked_at_congr hwarned.tables.2]
        exact hvisits.blocked agent_id
      · rw [hwarned.tables.2]
        exact hvisits.ids hnodup
    · rw [hcheck] at hwarned hunmoved'
      rw [bind_of_ok hcheck]
      obtain ⟨left', hsplit', hall'⟩ := hwarned.warned
      obtain ⟨last, hstuck⟩ := check_company_stuck_warned now w₂
      obtain ⟨left'', hsplit'', hall''⟩ := hstuck.warned
      have hsame : stuck_agent w₂ now = stuck_agent w now := by
        have hboth := hunmoved.trans _ _ _ hunmoved'
        unfold stuck_agent
        rw [hboth.last_message_at, hboth.agents, hboth.status]
      have htables := hstuck.tables.2.trans hwarned.tables.2
      refine ⟨rows ++ (warned ++ last), ?_, ⟨[], ?_, fun _ => rfl⟩, ⟨[], ?_, fun _ => rfl⟩,
        ⟨left'', ?_, fun hok => hall'' ?_⟩, fun agent_id => ?_, fun hnodup => ?_⟩
      · dsimp only
        rw [hstuck.log, hwarned.log, hvisits.log, List.append_assoc, List.append_assoc]
      · rw [reported_append, reported_append, hwarned.others _ deadlock_not_unhealthy,
          hstuck.others _ stuck_not_unhealthy, halerts, List.append_nil, List.append_nil, List.append_nil]
      · dsimp only
        rw [reported_append, reported_append, hvisits.others.1, hstuck.others _ stuck_not_deadlock, htables, hsplit',
          hall' rfl]
        simp
      · rw [reported_append, reported_append, hvisits.others.2, hwarned.others _ deadlock_not_stuck, ← hsame, hsplit'']
        rfl
      · cases hlast : (check_company_stuck now w₂).1 with
        | error e =>
            dsimp only at hok
            rw [hlast] at hok
            cases hok
        | ok _ => rfl
      · rw [blocked_at_congr htables]
        exact hvisits.blocked agent_id
      · dsimp only
        rw [htables]
        exact hvisits.ids hnodup

/-! ## The alarms about one agent -/

/-- The times of the alarms about an unhealthy agent among the rows of a sweep. -/
def alert_times (agent_id : String) (now : Time) (rows : List Event) : List Time :=
  (reported is_unhealthy rows).filter (fun id => id = agent_id) |>.map fun _ => now

/-- A stretch of a health sweep, as far as the alarms about one agent go. -/
def Timed (agent_id : String) (now : Time) (w w' : Watchdog) : Prop :=
  ∃ rows, w'.core.events.log = w.core.events.log ++ rows ∧
    Spaced (minutes 1 + 1) (w.last_health_alert agent_id) (alert_times agent_id now rows) (w'.last_health_alert agent_id)

theorem Timed.refl (agent_id : String) (now : Time) (w : Watchdog) : Timed agent_id now w w :=
  ⟨[], (List.append_nil _).symm, .done _⟩

theorem Timed.trans (w w' w'' : Watchdog) (h : Timed agent_id now w w') (h' : Timed agent_id now w' w'') :
    Timed agent_id now w w'' := by
  obtain ⟨rows, hlog, hspaced⟩ := h
  obtain ⟨rows', hlog', hspaced'⟩ := h'
  refine ⟨rows ++ rows', by rw [hlog', hlog, List.append_assoc], ?_⟩
  have htimes : alert_times agent_id now (rows ++ rows') =
      alert_times agent_id now rows ++ alert_times agent_id now rows' := by
    unfold alert_times
    rw [reported_append, List.filter_append, List.map_append]
  rw [htimes]
  exact hspaced.trans hspaced'

/-- An agent that is reported has not been reported in the last minute. -/
theorem ready_of_alarming (h : alarming w now clock agent = true) :
    ∀ last ∈ w.last_health_alert agent.id, last + (minutes 1 + 1) ≤ now := by
  intro last hmem
  have hmay := (Bool.and_eq_true_iff.mp h).2
  unfold may_alert at hmay
  rw [Option.mem_def.mp hmem, Option.all_some] at hmay
  exact Int.add_le_of_le_sub_left (Int.add_one_le_of_lt (of_decide_eq_true hmay))

theorem examine_timed (agent_id : String) (now : Time) (clock : String → Time) (agent : AgentHandle) :
    Moves (Timed agent_id now) (examine now clock agent) := by
  intro w
  have hcases := examine_cases now clock agent w
  generalize examine now clock agent w = examined at hcases
  obtain ⟨r, w'⟩ := examined
  cases hcases with
  | passed _ _ hlog hlast _ =>
      refine ⟨[], by rw [hlog, List.append_nil], ?_⟩
      dsimp only
      rw [hlast]
      exact .done _
  | refused _ _ halarming hlog hlast _ =>
      refine ⟨[], by rw [hlog, List.append_nil], ?_⟩
      dsimp only
      rw [hlast]
      by_cases hid : agent.id = agent_id
      · subst hid
        rw [Function.update_self]
        exact .silent (ready_of_alarming halarming)
      · rw [Function.update_of_ne (Ne.symm hid)]
        exact .done _
  | reported _ row halarming hlog hrow hnotes hlast _ =>
      have hreported : reported is_unhealthy [row] = [agent.id] := by
        show [row].filterMap _ = _
        rw [List.filterMap_cons, hrow, (unhealthy_issue_kind hnotes).1]
        rfl
      refine ⟨[row], hlog, ?_⟩
      dsimp only
      rw [hlast, alert_times, hreported]
      by_cases hid : agent.id = agent_id
      · subst hid
        have hself : [agent.id].filter (fun id => decide (id = agent.id)) = [agent.id] := by simp
        rw [Function.update_self, hself]
        exact .once (ready_of_alarming halarming)
      · have hother : [agent.id].filter (fun id => decide (id = agent_id)) = [] := by simp [hid]
        rw [Function.update_of_ne (Ne.symm hid), hother]
        exact .done _

/-- A check of another kind. -/
theorem Warned.timed {kind : String → Bool} {agents : List String} {r : Except Exn Unit} {rows : List Event}
    (h : Warned kind agents w r w' rows) (hkind : ∀ issue, kind issue = true → is_unhealthy issue = false)
    (agent_id : String) (now : Time) : Timed agent_id now w w' := by
  refine ⟨rows, h.log, ?_⟩
  rw [alert_times, h.others is_unhealthy hkind, h.tables.1]
  exact .done _

theorem health_sweep_timed (agent_id : String) (now : Time) (clock : String → Time) :
    Moves (Timed agent_id now) (health_sweep now clock) := by
  have hrefl := Timed.refl agent_id now
  have htrans := fun w w' w'' (h : Timed agent_id now w w') h' => Timed.trans w w' w'' h h'
  refine .bind htrans (.read hrefl _) fun agents => ?_
  refine .bind htrans (visit_all_moves hrefl htrans (examine_timed agent_id now clock) agents) fun out => ?_
  refine .bind htrans (.read hrefl _) fun blocked => ?_
  refine .bind htrans (fun w => ?_) fun _ => .bind htrans (fun w => ?_) fun _ => .pure hrefl _
  · obtain ⟨rows, hwarned⟩ := check_deadlock_warned now blocked w
    exact hwarned.timed deadlock_not_unhealthy agent_id now
  · obtain ⟨rows, hwarned⟩ := check_company_stuck_warned now w
    exact hwarned.timed stuck_not_unhealthy agent_id now

/-! ## Over a run -/

/-- The times at which a step raises an alarm about the health of an agent. -/
def alerts (agent_id : String) (w : Watchdog) : Action → List Time
  | .health_sweep now clock => alert_times agent_id now (logged w (.health_sweep now clock))
  | _ => []

/-- What a step sees of an agent. -/
def sightings (agent_id : String) (w : Watchdog) : Action → List (Time × Bool)
  | .health_sweep now clock => seen_of now w agent_id (reached now clock w.core.agents w)
  | _ => []

/-- The steps that are no health sweep leave its tables alone. -/
theorem next_tables (w : Watchdog) (action : Action) (h : ∀ now clock, action ≠ .health_sweep now clock) :
    (next w action).last_health_alert = w.last_health_alert ∧ (next w action).blocked_since = w.blocked_since := by
  cases action with
  | route label now => exact ⟨(route_own label now w).last_health_alert, (route_own label now w).blocked_since⟩
  | health_sweep now clock => exact absurd rfl (h now clock)
  | idle_sweep now clock => exact (idle_sweep_undisturbed now clock w).tables
  | notice k now => exact ⟨(run_notice_own k now w).last_health_alert, (run_notice_own k now w).blocked_since⟩
  | report agent status signals => exact ⟨rfl, rfl⟩

theorem next_alerts (agent_id : String) (w : Watchdog) (action : Action) :
    Spaced (minutes 1 + 1) (w.last_health_alert agent_id) (alerts agent_id w action)
      ((next w action).last_health_alert agent_id) := by
  by_cases hsweep : ∃ now clock, action = .health_sweep now clock
  · obtain ⟨now, clock, rfl⟩ := hsweep
    obtain ⟨rows, hlog, hspaced⟩ := health_sweep_timed agent_id now clock w
    have hrows : logged w (.health_sweep now clock) = rows := by
      show List.drop _ (((health_sweep now clock w).2).core.events.log) = rows
      rw [hlog, List.drop_left]
    rw [alerts, hrows]
    exact hspaced
  · have hsilent : alerts agent_id w action = [] := by
      cases action with
      | health_sweep now clock => exact absurd ⟨now, clock, rfl⟩ hsweep
      | _ => rfl
    rw [hsilent, (next_tables w action fun now clock heq => hsweep ⟨now, clock, heq⟩).1]
    exact .done _

theorem next_sightings (agent_id : String) (h : Registered w) (action : Action) :
    (next w action).blocked_at agent_id = (sightings agent_id w action).foldl streak (w.blocked_at agent_id) := by
  by_cases hsweep : ∃ now clock, action = .health_sweep now clock
  · obtain ⟨now, clock, rfl⟩ := hsweep
    obtain ⟨rows, hspec⟩ := health_sweep_spec now clock w h.ids
    exact hspec.blocked agent_id
  · have hunseen : sightings agent_id w action = [] := by
      cases action with
      | health_sweep now clock => exact absurd ⟨now, clock, rfl⟩ hsweep
      | _ => rfl
    rw [hunseen]
    exact blocked_at_congr (next_tables w action fun now clock heq => hsweep ⟨now, clock, heq⟩).2 agent_id

/-- The invariant of a run: agents are registered once, and entered once as blocked. -/
structure Kept (w : Watchdog) : Prop where
  registered : Registered w
  blocked : (w.blocked_since.map Prod.fst).Nodup

theorem Kept.next (h : Kept w) (action : Action) : Kept (next w action) := by
  refine ⟨h.registered.next action, ?_⟩
  by_cases hsweep : ∃ now clock, action = .health_sweep now clock
  · obtain ⟨now, clock, rfl⟩ := hsweep
    obtain ⟨rows, hspec⟩ := health_sweep_spec now clock w h.registered.ids
    exact hspec.ids h.blocked
  · rw [(next_tables w action fun now clock heq => hsweep ⟨now, clock, heq⟩).2]
    exact h.blocked

section Runs

variable (org : List OrgRow) (events : EventStore) (rate : RateLimitConfig) (loop_config : LoopDetectorConfig)
  (lower : String → String) (cfg : IdleSweepConfig) (status : AgentHandle → AgentStatus)
  (signals : AgentHandle → HealthSignals) (event_loop : Bool) (start : Time)

theorem fresh_kept : Kept (fresh org events rate loop_config lower cfg status signals event_loop start) :=
  ⟨⟨List.nodup_nil, List.forall_mem_nil _⟩, List.nodup_nil⟩

/-- The sweep reports the agents that fail two checks and were not reported in the last minute, up to an alarm that the
    log refuses; one that returns names the first idle agent if nothing was sent for an hour. -/
def Reports (w : Watchdog) (now : Time) (clock : String → Time) : Prop :=
  ∃ left, (w.core.agents.filter (alarming w now clock)).map AgentHandle.id =
      reported is_unhealthy (logged w (.health_sweep now clock)) ++ left ∧
    ((health_sweep now clock w).1.isOk = true →
      left = [] ∧ reported is_stuck (logged w (.health_sweep now clock)) = stuck_agent w now)

theorem Kept.reports (h : Kept w) (now : Time) (clock : String → Time) : Reports w now clock := by
  obtain ⟨rows, hspec⟩ := health_sweep_spec now clock w h.registered.ids
  have hrows : logged w (.health_sweep now clock) = rows := by
    show List.drop _ (((health_sweep now clock w).2).core.events.log) = rows
    rw [hspec.log, List.drop_left]
  obtain ⟨left, hsplit, hall⟩ := hspec.alerts
  obtain ⟨left', hsplit', hall'⟩ := hspec.stuck
  refine ⟨left, by rw [hrows]; exact hsplit, fun hok => ⟨hall hok, ?_⟩⟩
  rw [hrows, hsplit', hall' hok, List.append_nil]

/-- **Alarms about unhealthy agents.** In every run, two alarms about one agent are more than a minute apart; and in every
    state that a run reaches, a sweep reports who fails two checks and was not reported in the last minute, in the order
    of registration, and nobody else. -/
theorem health_alerts (actions : List Action) (agent_id : String) (now : Time) (clock : String → Time) :
    (Machine.output next (alerts agent_id)
      (fresh org events rate loop_config lower cfg status signals event_loop start) actions).Pairwise
        (fun s t => s + minutes 1 < t) ∧
    Reports (Machine.exec next (fresh org events rate loop_config lower cfg status signals event_loop start) actions)
      now clock := by
  constructor
  · have hspaced : Spaced (minutes 1 + 1) _ (Machine.output next (alerts agent_id)
        (fresh org events rate loop_config lower cfg status signals event_loop start) actions) _ :=
      Machine.output_spaced (C := fun _ => True) (fun _ _ _ => trivial) (fun w action _ => next_alerts agent_id w action)
        trivial actions
    refine (hspaced.pairwise (by decide)).imp fun hle => ?_
    rw [← Int.add_assoc] at hle
    exact hle
  · have hkept := Machine.exec_invariant (fun v action (hv : Kept v) => hv.next action)
      (fresh_kept org events rate loop_config lower cfg status signals event_loop start) actions
    exact hkept.reports now clock

/-- Since `since`, every sweep that looked at the agent found it blocked, and the one before that did not. -/
def BlockedSince (seen : List (Time × Bool)) (since : Time) : Prop :=
  ∃ pre post, seen = pre ++ (since, true) :: post ∧ (∀ s ∈ post, s.2 = true) ∧ ∀ s ∈ pre.getLast?, s.2 = false

/-- **Deadlock warnings.** A sweep at the end of a run warns about an agent only if this sweep and those before it found
    it blocked, whenever they looked at it, since more than half an hour; and a sweep that returns warns about every such
    agent, whether it is registered or not. -/
theorem deadlock_warnings (actions : List Action) (agent_id : String) (now : Time) (clock : String → Time) :
    let begin := fresh org events rate loop_config lower cfg status signals event_loop start
    let w := Machine.exec next begin actions
    let seen := Machine.output next (sightings agent_id) begin (actions ++ [.health_sweep now clock])
    (agent_id ∈ reported is_deadlock (logged w (.health_sweep now clock)) →
      ∃ since, BlockedSince seen since ∧ minutes 30 < now - since) ∧
    ((health_sweep now clock w).1.isOk = true → (∃ since, BlockedSince seen since ∧ minutes 30 < now - since) →
      agent_id ∈ reported is_deadlock (logged w (.health_sweep now clock))) := by
  intro begin w seen
  have hfresh : Kept begin := fresh_kept org events rate loop_config lower cfg status signals event_loop start
  have hkept : Kept w := Machine.exec_invariant (fun v action (hv : Kept v) => hv.next action) hfresh actions
  obtain ⟨rows, hspec⟩ := health_sweep_spec now clock w hkept.registered.ids
  have hrows : logged w (.health_sweep now clock) = rows := by
    show List.drop _ (((health_sweep now clock w).2).core.events.log) = rows
    rw [hspec.log, List.drop_left]
  have hafter : Kept (health_sweep now clock w).2 := hkept.next (.health_sweep now clock)
  -- what the table of blocked agents holds after the sweep
  have hentry : ∀ since, (health_sweep now clock w).2.blocked_at agent_id = some since ↔ BlockedSince seen since := by
    intro since
    have hfold : ((actions ++ [Action.health_sweep now clock]).foldl next begin).blocked_at agent_id =
        seen.foldl streak (begin.blocked_at agent_id) :=
      Machine.output_foldl (g := fun v => v.blocked_at agent_id) (fun v action (hv : Kept v) => hv.next action)
        (fun v action hv => next_sightings agent_id hv.registered action) _ hfresh
    rw [List.foldl_append] at hfold
    have hstate : (health_sweep now clock w).2.blocked_at agent_id = seen.foldl streak none := hfold
    rw [hstate]
    exact foldl_streak
  have hmem : agent_id ∈ overdue now (health_sweep now clock w).2.blocked_since ↔
      ∃ since, BlockedSince seen since ∧ minutes 30 < now - since := by
    unfold overdue
    rw [List.mem_map]
    constructor
    · rintro ⟨⟨id, since⟩, hentry', rfl⟩
      rw [List.mem_filter] at hentry'
      refine ⟨since, (hentry since).mp ?_, of_decide_eq_true hentry'.2⟩
      unfold blocked_at
      rw [Table.find_of_mem hafter.blocked hentry'.1]
      rfl
    · rintro ⟨since, hsince, hover⟩
      obtain ⟨entry, hfind, hsnd⟩ := Option.map_eq_some_iff.mp ((hentry since).mpr hsince)
      refine ⟨entry, List.mem_filter.mpr ⟨Table.mem_of_find hfind, ?_⟩, Table.key_of_find hfind⟩
      rw [hsnd]
      exact decide_eq_true hover
  obtain ⟨left, hsplit, hall⟩ := hspec.warnings
  rw [hrows, ← hmem, hsplit]
  constructor
  · exact fun h => List.mem_append_left _ h
  · intro hok h
    rw [hall hok, List.append_nil] at h
    exact h

end Runs

end Watchdog

end Orchestrator

end CompanyFactory
