import CompanyFactory.EventStore.Feed
import CompanyFactory.Lib.Counter
import CompanyFactory.Lib.Window
import CompanyFactory.SecurityAgent.StaticRules

/-!
# `SecurityAgent.Scan` — the scan of the recent events

`scan_recent_events` reads the events of three kinds, keeps those after a cutoff, and hands them to the event rules.
Both default rules count the external calls of the last minute **before the newest event they are given**.

A `datetime` is its time and whether it has a `tzinfo`; all that have one are in UTC, as the rows of the log are. A
`datetime` has years from 1 to 9999, and arithmetic that leaves them raises.

* `mem_over_threshold` — what a default rule reports: a finding for every key that reaches the threshold.
* `recent_events_eq_ok_iff` — when the scan gets as far as the rules, and with which events.
* `evaluate_returns_iff` — the default rules return if one event is at least a minute after `datetime.min`; on
  **no** event they raise.
* `scan_exact_iff` — exactly when a scan returns and has looked at the events of its window.
* `exact_length` — in a log that is in order and not ahead of the clock, no scan is exact once there are more than
  `SCAN_LIMIT` rows.
-/

namespace CompanyFactory

/-! ## Times with a range -/

def datetime_min : Time := -62135596800000000

def datetime_max : Time := 253402300799999999

/-- What `datetime.now` returns, with or without a `tzinfo`. -/
structure Stamp where
  time : Time
  aware : Bool
  in_range : datetime_min ≤ time ∧ time ≤ datetime_max

/-- `t - delta` -/
def date_minus (t delta : Time) : Except Exn Time :=
  if datetime_min ≤ t - delta ∧ t - delta ≤ datetime_max then .ok (t - delta)
  else .error (.other "OverflowError" "date value out of range")

/-- `timedelta(minutes=1)` -/
def one_minute : Time := 60000000

/-- `timedelta(minutes=...)` -/
def timedelta_minutes (minutes : Int) : Except Exn Time :=
  let days := minutes / 1440
  if days < -2 ^ 31 ∨ 2 ^ 31 ≤ days then
    .error (.other "OverflowError" "Python int too large to convert to C int")
  else if 999999999 < days.natAbs then
    .error (.other "OverflowError" ("days=" ++ toString days ++ "; must have magnitude <= 999999999"))
  else .ok (minutes * one_minute)

/-! ## The event rules -/

/-- What the rules for events consult. -/
structure EventRuleContext extends RuleContext where
  high_volume_threshold_per_minute : Int := 10
  retry_threshold_per_minute : Int := 5

abbrev EventRule := List Event → EventRuleContext → Except Exn (List SecurityFinding)

namespace StaticRules

variable (repr : Json → String)

/-- One minute before the newest event; `datetime.min` stands for it if there is none. -/
def one_min_ago (events : List Event) : Except Exn Time :=
  date_minus ((events.map Event.ts_company).max?.getD datetime_min) one_minute

/-- The external calls that a rule counts. -/
def last_calls (events : List Event) (one_min_ago : Time) : List Event :=
  events.filter fun ev => ev.kind == .EXTERNAL_CALL && decide (one_min_ago ≤ ev.ts_company)

/-- A finding for every key that occurs at least `threshold` times. -/
def over_threshold (threshold : Int) (finding : String → Nat → SecurityFinding) (keys : List String) :
    List SecurityFinding :=
  ((Counter.of keys).filter fun entry => decide (threshold ≤ entry.2)).map fun entry => finding entry.1 entry.2

def high_volume_finding (actor : String) (count : Nat) : SecurityFinding :=
  { severity := .HIGH, rule := "high_volume_external_calls"
    description := "Agent " ++ actor ++ " issued " ++ toString count ++ " external calls in 1 min."
    evidence := [("agent_id", .str actor), ("count", .int count)]
    suggested_action := "suspend", subject_agent := some actor }

def rule_high_volume_external_calls (events : List Event) (ctx : EventRuleContext) :
    Except Exn (List SecurityFinding) :=
  match one_min_ago events with
  | .error e => .error e
  | .ok since =>
    .ok (over_threshold ctx.high_volume_threshold_per_minute high_volume_finding
      ((last_calls events since).map fun ev => ev.actor_agent_id.getD ""))

def retry_finding (rid : String) (count : Nat) : SecurityFinding :=
  { severity := .WARN, rule := "excessive_retries"
    description := "Request id " ++ rid ++ " retried " ++ toString count ++ " times in 1 min."
    evidence := [("request_id", .str rid), ("count", .int count)]
    suggested_action := "investigate" }

/-- `str(ev.payload.get("request_id", ""))` -/
def request_id_of (ev : Event) : String := py_str repr ((ev.payload.lookup "request_id").getD (.str ""))

def rule_repeated_request_id (events : List Event) (ctx : EventRuleContext) : Except Exn (List SecurityFinding) :=
  match one_min_ago events with
  | .error e => .error e
  | .ok since =>
    .ok (over_threshold ctx.retry_threshold_per_minute retry_finding
      (((last_calls events since).map (request_id_of repr)).filter fun rid => decide (rid ≠ "")))

/-- `_DEFAULT_EVENT_RULES` -/
def default_event_rules : List EventRule := [rule_high_volume_external_calls, rule_repeated_request_id repr]

/-- `StaticRuleSet.evaluate_events` -/
def evaluate_events : List EventRule → EventRule
  | [], _, _ => .ok []
  | rule :: rules, events, ctx =>
    match rule events ctx with
    | .error e => .error e
    | .ok found =>
      match evaluate_events rules events ctx with
      | .error e => .error e
      | .ok out => .ok (found ++ out)

variable {repr}

theorem mem_over_threshold {threshold : Int} {finding : String → Nat → SecurityFinding} {keys : List String}
    {f : SecurityFinding} :
    f ∈ over_threshold threshold finding keys ↔
      ∃ key ∈ keys, threshold ≤ keys.count key ∧ f = finding key (keys.count key) := by
  unfold over_threshold
  constructor
  · intro h
    obtain ⟨⟨key, n⟩, hentry, rfl⟩ := List.mem_map.mp h
    obtain ⟨hmem, hle⟩ := List.mem_filter.mp hentry
    obtain ⟨rfl, hpos⟩ := Counter.mem_of_iff.mp hmem
    exact ⟨key, List.count_pos_iff.mp hpos, of_decide_eq_true hle, rfl⟩
  · rintro ⟨key, hkey, hle, rfl⟩
    have hmem : (key, keys.count key) ∈ Counter.of keys :=
      Counter.mem_of_iff.mpr ⟨rfl, List.count_pos_iff.mpr hkey⟩
    exact List.mem_map.mpr ⟨_, List.mem_filter.mpr ⟨hmem, decide_eq_true hle⟩, rfl⟩

/-- **When a rule can count.** Some event is at least a minute after the first moment that a `datetime` can be. -/
theorem one_min_ago_returns_iff {events : List Event} (hmax : ∀ e ∈ events, e.ts_company ≤ datetime_max) :
    (∃ since, one_min_ago events = .ok since) ↔ ∃ e ∈ events, datetime_min + one_minute ≤ e.ts_company := by
  unfold one_min_ago date_minus
  cases hnewest : (events.map Event.ts_company).max? with
  | none =>
      -- without events, a minute is taken from `datetime.min`
      rw [List.max?_eq_none_iff, List.map_eq_nil_iff] at hnewest
      subst hnewest
      simp [datetime_min, one_minute]
  | some newest =>
      -- the newest event decides
      obtain ⟨hmem, hle⟩ := List.max?_eq_some_iff.mp hnewest
      obtain ⟨e, he, rfl⟩ := List.mem_map.mp hmem
      have hle_max := hmax e he
      rw [Option.getD_some]
      constructor
      · rintro ⟨since, h⟩
        split at h
        · next hrange => exact ⟨e, he, by unfold Time at *; omega⟩
        · cases h
      · rintro ⟨f, hf, hlow⟩
        have hfe : f.ts_company ≤ e.ts_company := hle _ (List.mem_map_of_mem hf)
        refine ⟨e.ts_company - one_minute, if_pos ⟨?_, ?_⟩⟩
        · unfold Time one_minute at *
          omega
        · unfold Time one_minute at *
          omega

/-- The default rules return together. -/
theorem evaluate_returns_iff {events : List Event} {ctx : EventRuleContext} :
    (∃ findings, evaluate_events (default_event_rules repr) events ctx = .ok findings) ↔
      ∃ since, one_min_ago events = .ok since := by
  unfold default_event_rules
  simp only [evaluate_events, rule_high_volume_external_calls, rule_repeated_request_id]
  cases one_min_ago events <;> simp

end StaticRules

/-! ## The scan -/

namespace SecurityPolicy

open StaticRules

/-- The kinds that a scan reads. -/
def scanned_kinds : List EventKind := [.EXTERNAL_CALL, .EXPENSE_CHARGED, .AGENT_HEALTH_ALERT]

/-- The limit that it reads with. -/
def SCAN_LIMIT : Nat := 1000

/-- `[e for e in rows if e.ts_company >= cutoff]`; the first comparison with a naive cutoff raises. -/
def rows_since (aware : Bool) (cutoff : Time) (rows : List Event) : Except Exn (List Event) :=
  if aware || rows.isEmpty then .ok (rows.filter fun e => decide (cutoff ≤ e.ts_company))
  else .error (.other "TypeError" "can't compare offset-naive and offset-aware datetimes")

/-- The events that a scan hands to the rules. -/
def recent_events (window_minutes : Int) (now : Stamp) (st : EventStore) : Except Exn (List Event) :=
  match timedelta_minutes window_minutes with
  | .error e => .error e
  | .ok window =>
    match date_minus now.time window with
    | .error e => .error e
    | .ok cutoff =>
      match st.read { kinds := scanned_kinds } SCAN_LIMIT with
      | .error e => .error e
      | .ok rows => rows_since now.aware cutoff rows

def scan_recent_events (rules : List EventRule) (ctx : EventRuleContext) (window_minutes : Int) (now : Stamp)
    (st : EventStore) : Except Exn (List SecurityFinding) :=
  match recent_events window_minutes now st with
  | .error e => .error e
  | .ok events => evaluate_events rules events ctx

/-- The rows of the kinds that a scan reads. -/
def scanned (st : EventStore) : List Event := st.log.filter fun e => scanned_kinds.contains e.kind

/-- The start of the window. -/
def window_start (window_minutes : Int) (now : Stamp) : Time := now.time - window_minutes * one_minute

/-- The event is within the window before now. -/
def in_window (window_minutes : Int) (now : Stamp) (e : Event) : Bool :=
  decide (window_start window_minutes now ≤ e.ts_company) && decide (e.ts_company ≤ now.time)

/-- A scan that returns the findings on exactly the events of its window. -/
structure Exact (repr : Json → String) (ctx : EventRuleContext) (window_minutes : Int) (now : Stamp)
    (st : EventStore) : Prop where
  handed : recent_events window_minutes now st = .ok ((scanned st).filter (in_window window_minutes now))
  returns : ∃ findings,
    scan_recent_events (default_event_rules repr) ctx window_minutes now st = .ok findings ∧
    evaluate_events (default_event_rules repr) ((scanned st).filter (in_window window_minutes now)) ctx =
      .ok findings

/-- **The condition on a scan.** -/
structure Scannable (window_minutes : Int) (now : Stamp) (st : EventStore) : Prop where
  aware : now.aware = true
  start_in_range : datetime_min ≤ window_start window_minutes now ∧ window_start window_minutes now ≤ datetime_max
  /-- the window is not empty, and not only in the first minute of the calendar -/
  not_empty : ∃ e ∈ scanned st, in_window window_minutes now e = true ∧ datetime_min + one_minute ≤ e.ts_company
  /-- no row that is read is ahead of the clock -/
  not_ahead : ∀ e ∈ (scanned st).take SCAN_LIMIT,
    window_start window_minutes now ≤ e.ts_company → e.ts_company ≤ now.time
  /-- the limit does not cut the window off -/
  reaches : Window.Reaches (in_window window_minutes now) SCAN_LIMIT (scanned st)

variable {window_minutes : Int} {now : Stamp} {st : EventStore}

theorem read_scanned (st : EventStore) :
    st.read { kinds := scanned_kinds } SCAN_LIMIT = .ok ((scanned st).take SCAN_LIMIT) := by
  have hmatches : EventStore.ReadFilter.matches { kinds := scanned_kinds } =
      fun e => scanned_kinds.contains e.kind := by
    funext e
    simp [EventStore.ReadFilter.matches, scanned_kinds]
  rw [EventStore.read, hmatches]
  rfl

/-- A `timedelta` that a `datetime` can be moved by can be built. -/
theorem timedelta_of_range (h : datetime_min ≤ window_start window_minutes now ∧
      window_start window_minutes now ≤ datetime_max) :
    timedelta_minutes window_minutes = .ok (window_minutes * one_minute) := by
  have hrange := now.in_range
  unfold window_start datetime_min datetime_max one_minute at *
  unfold Time at *
  unfold timedelta_minutes
  simp only
  -- the whole calendar has fewer days than either bound allows
  rw [if_neg (by omega), if_neg (by omega)]
  rfl

theorem timedelta_minutes_eq {window : Time} (h : timedelta_minutes window_minutes = .ok window) :
    window = window_minutes * one_minute := by
  unfold timedelta_minutes at h
  dsimp only at h
  split at h
  · cases h
  · split at h
    · cases h
    · cases h
      rfl

theorem rows_since_eq_ok_iff {aware : Bool} {cutoff : Time} {rows events : List Event} :
    rows_since aware cutoff rows = .ok events ↔
      (aware = true ∨ rows = []) ∧ rows.filter (fun e => decide (cutoff ≤ e.ts_company)) = events := by
  unfold rows_since
  cases aware with
  | true => simp
  | false => cases rows <;> simp

/-- **How far a scan gets**, and the events that it hands to the rules. -/
theorem recent_events_eq_ok_iff {events : List Event} :
    recent_events window_minutes now st = .ok events ↔
      (datetime_min ≤ window_start window_minutes now ∧ window_start window_minutes now ≤ datetime_max) ∧
      (now.aware = true ∨ (scanned st).take SCAN_LIMIT = []) ∧
      ((scanned st).take SCAN_LIMIT).filter
        (fun e => decide (window_start window_minutes now ≤ e.ts_company)) = events := by
  unfold recent_events date_minus
  rw [read_scanned]
  by_cases hrange : datetime_min ≤ window_start window_minutes now ∧ window_start window_minutes now ≤ datetime_max
  · rw [timedelta_of_range hrange]
    dsimp only
    rw [show now.time - window_minutes * one_minute = window_start window_minutes now from rfl, if_pos hrange]
    dsimp only
    rw [rows_since_eq_ok_iff]
    exact (and_iff_right hrange).symm
  · -- the `timedelta` or the subtraction raises
    refine iff_of_false ?_ fun h => hrange h.1
    cases hdelta : timedelta_minutes window_minutes with
    | error e => exact nofun
    | ok window =>
        dsimp only
        rw [timedelta_minutes_eq hdelta,
          show now.time - window_minutes * one_minute = window_start window_minutes now from rfl, if_neg hrange]
        exact nofun

theorem in_window_iff {e : Event} : in_window window_minutes now e = true ↔
    window_start window_minutes now ≤ e.ts_company ∧ e.ts_company ≤ now.time := by
  unfold in_window
  rw [Bool.and_eq_true, decide_eq_true_iff, decide_eq_true_iff]

/-- **A scan is exact** if and only if the clock is aware, the window starts in the range of a `datetime` and is not
    empty, no row that is read is ahead of the clock, and the limit does not cut the window off. -/
theorem scan_exact_iff (repr : Json → String) (ctx : EventRuleContext) (window_minutes : Int) (now : Stamp)
    (st : EventStore) : Exact repr ctx window_minutes now st ↔ Scannable window_minutes now st := by
  have hkept : ∀ e : Event, in_window window_minutes now e = true →
      decide (window_start window_minutes now ≤ e.ts_company) = true :=
    fun e h => decide_eq_true (in_window_iff.mp h).1
  have hmax : ∀ e ∈ (scanned st).filter (in_window window_minutes now), e.ts_company ≤ datetime_max :=
    fun e he => Int.le_trans (in_window_iff.mp (List.mem_filter.mp he).2).2 now.in_range.2
  constructor
  · rintro ⟨hhanded, findings, -, hfindings⟩
    obtain ⟨hrange, haware, hevents⟩ := recent_events_eq_ok_iff.mp hhanded
    obtain ⟨hle, hreaches⟩ := (Window.take_filter_eq_iff hkept SCAN_LIMIT (scanned st)).mp hevents
    -- the rules have returned, so that there is an event in the window
    obtain ⟨e, he, hlow⟩ := (one_min_ago_returns_iff hmax).mp (evaluate_returns_iff.mp ⟨findings, hfindings⟩)
    obtain ⟨hmem, hin⟩ := List.mem_filter.mp he
    refine ⟨?_, hrange, ⟨e, hmem, hin, hlow⟩, ?_, hreaches⟩
    · -- a naive cutoff is compared with no row, but then there is no event
      rcases haware with haware | hnone
      · exact haware
      · rw [← hevents, hnone] at he
        cases he
    · intro f hf hstart
      exact (in_window_iff.mp (hle f hf (decide_eq_true hstart))).2
  · intro h
    obtain ⟨e, hmem, hin, hlow⟩ := h.not_empty
    have hevents : ((scanned st).take SCAN_LIMIT).filter
        (fun e => decide (window_start window_minutes now ≤ e.ts_company)) =
        (scanned st).filter (in_window window_minutes now) := by
      refine (Window.take_filter_eq_iff hkept SCAN_LIMIT (scanned st)).mpr ⟨?_, h.reaches⟩
      intro f hf hstart
      exact in_window_iff.mpr ⟨of_decide_eq_true hstart, h.not_ahead f hf (of_decide_eq_true hstart)⟩
    have hhanded : recent_events window_minutes now st =
        .ok ((scanned st).filter (in_window window_minutes now)) :=
      recent_events_eq_ok_iff.mpr ⟨h.start_in_range, .inl h.aware, hevents⟩
    obtain ⟨findings, hfindings⟩ := evaluate_returns_iff.mpr
      ((one_min_ago_returns_iff hmax).mpr ⟨e, List.mem_filter.mpr ⟨hmem, hin⟩, hlow⟩)
    refine ⟨hhanded, findings, ?_, hfindings⟩
    unfold scan_recent_events
    rw [hhanded]
    exact hfindings

/-- A clock at noon, with or without a `tzinfo`. -/
def noon (aware : Bool) : Stamp := { time := 1788350400000000, aware, in_range := by decide }

/-- An agent's external call, half a minute before noon. -/
def a_call : EventStore :=
  { EventStore.quiet with
    log := [{ id := 1, kind := .EXTERNAL_CALL
              payload := [("service", .str "stripe"), ("endpoint", .str "/charge"), ("request_id", .str "r0"),
                ("status", .str "ok")]
              actor_agent_id := some "agent_eng", correlation_id := none
              ts_company := 1788350370000000, ts_real := 1788350370000000 }] }

/-- A scan of a quiet company raises, and a scan with the clock that is the default raises. -/
theorem quiet_scan_raises :
    ¬ Exact (fun _ => "") {} 5 (noon true) EventStore.quiet ∧ ¬ Exact (fun _ => "") {} 5 (noon false) a_call := by
  constructor
  · rintro ⟨-, findings, hscan, -⟩
    have hraises : scan_recent_events (default_event_rules fun _ => "") {} 5 (noon true) EventStore.quiet =
        .error (.other "OverflowError" "date value out of range") := by decide +kernel
    rw [hraises] at hscan
    cases hscan
  · rintro ⟨-, findings, hscan, -⟩
    have hraises : scan_recent_events (default_event_rules fun _ => "") {} 5 (noon false) a_call =
        .error (.other "TypeError" "can't compare offset-naive and offset-aware datetimes") := by decide +kernel
    rw [hraises] at hscan
    cases hscan

/-- **The limit keeps the oldest rows.** In a log that is in order and not ahead of the clock, no scan is exact once
    there are more rows than the limit. -/
theorem exact_length (hsorted : st.log.Pairwise (fun e f => e.ts_company ≤ f.ts_company))
    (hahead : ∀ e ∈ st.log, e.ts_company ≤ now.time) (h : Scannable window_minutes now st) :
    (scanned st).length ≤ SCAN_LIMIT := by
  have hreaches : Window.Reaches (fun e => decide (window_start window_minutes now ≤ e.ts_company)) SCAN_LIMIT
      (scanned st) := by
    intro e he
    have hle := hahead e (List.mem_of_mem_filter (List.mem_of_mem_drop he))
    have hout := h.reaches e he
    rw [in_window, decide_eq_true hle, Bool.and_true] at hout
    exact hout
  rcases (Window.beyond_iff (hsorted.filter _) _ _).mp hreaches with hlen | hlast
  · exact hlen
  · -- the window is not empty, so that the newest row is in it
    obtain ⟨e, hmem, hin, -⟩ := h.not_empty
    have hget := List.getLast?_eq_some_getLast (List.ne_nil_of_mem hmem)
    have hle := Window.le_last (hsorted.filter _) hmem hget
    exact absurd (Int.le_trans (in_window_iff.mp hin).1 hle) (Int.not_le.mpr (hlast _ hget))

end SecurityPolicy

end CompanyFactory
