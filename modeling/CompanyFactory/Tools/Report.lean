import CompanyFactory.EventStore.Feed
import CompanyFactory.Lib.Run
import CompanyFactory.Tools.External
import CompanyFactory.Tools.Outcome

/-!
# `Tools.Report` — the limits of `report_to_board`

The executor counts the reports of an agent by the `TOOL_CALLED` events of its calls. `invoke` has announced **the
call itself** by then, so the last report that the executor finds is the one that it runs, just now; and the read has a
limit of 500 rows, from the oldest on, so that it finds nothing else once the agent has made as many calls. Refused
calls are announced like any other.

`Desk` is a company with the clock; `reported` is no data of the source, it lists when the calls were made that
succeeded.

* `succeeds_iff` — what a call comes to: the executor's limits hold of the first 500 calls, and there must be as many.
* `step_counted` — what a run keeps: no call succeeds before.
* `keeps_limits_iff` — when this is what the successful reports allow, in every state of every run.
-/

namespace CompanyFactory

open Act Machine

namespace Tools

/-! ## The tool -/

def _REPORT_BOARD_LIFETIME_MAX : Nat := 8

/-- 300 seconds -/
def _REPORT_BOARD_COOLDOWN_SECONDS : Time := 300000000

def ReportArgs (describe : Fields → String) : Fields → Except String Fields :=
  validate_args describe [{ name := "body", type := .str }]
    (fun parsed => min_length 1 "body" parsed && max_length 16000 "body" parsed)

/-- `_check_only_ceo` -/
def check_only_ceo (_ : Company) (ctx : ToolContext) (_ : Fields) : Except Exn Unit :=
  if ctx.role ≠ .CEO then .error (.tool .ToolPermissionDenied "only_ceo") else .ok ()

def report_to_board (describe : Fields → String) : ToolDef :=
  { name := "report_to_board", schema := ReportArgs describe
    output_schema := "ReportOut", conforms := fun output => decide (output.cls = "ReportOut")
    roles_allowed := some [.CEO], permission_check := some check_only_ceo }

def lifetime_error : Exn :=
  .tool .ExecutorFailure ("report_to_board_lifetime_cap:" ++ toString _REPORT_BOARD_LIFETIME_MAX ++
    "; the Board has already been notified — solve the issue yourself")

def cooldown_error (gap : Time) : Exn :=
  .tool .ExecutorFailure ("report_to_board_cooldown:" ++
    toString ((_REPORT_BOARD_COOLDOWN_SECONDS - gap).tdiv 1000000) ++ "s; you just notified the Board — wait, then " ++
    "solve the issue yourself instead of repeating the report")

def board_post (agent_id correlation_id body : String) : Post :=
  { kind := .MESSAGE_SENT
    payload := [("from_agent", .str agent_id), ("to_agent", .str "BOARD"), ("content", .str body)]
    actor := some agent_id, correlation := some correlation_id }

/-- The filter of the executor's read. -/
def calls_of (agent_id : String) : EventStore.ReadFilter := { kinds := [.TOOL_CALLED], actor := some agent_id }

def is_report (e : Event) : Bool := decide (e.payload.lookup "tool" = some (.str "report_to_board"))

def deliver_report (agent_id correlation_id body : String) : Act EventStore Exn Instance := do
  let _ ← EventStore.append (board_post agent_id correlation_id body)
  pure { cls := "ReportOut", dump := [("delivered_to", .str "BOARD")] }

/-- `_exec_report_to_board` -/
def exec_report_to_board (agent_id correlation_id body : String) (now : Time) : Act EventStore Exn Instance := do
  let recent ← (fun st => (st.read (calls_of agent_id) 500, st) : Act EventStore Exn (List Event))
  let board_calls := recent.filter is_report
  if _REPORT_BOARD_LIFETIME_MAX ≤ board_calls.length then Act.raise lifetime_error
  else
    match board_calls.getLast? with
    | none => deliver_report agent_id correlation_id body
    | some last =>
      if now - last.ts_real < _REPORT_BOARD_COOLDOWN_SECONDS then Act.raise (cooldown_error (now - last.ts_real))
      else deliver_report agent_id correlation_id body

/-! ## A call -/

/-- The arguments of a call of the tool, and the time that it takes. -/
structure ReportCall where
  args : Fields
  correlation_id : Option String
  uuid : String
  /-- since what happened before -/
  elapsed : Nat
  /-- from the announcement of the call to the executor's look at the clock -/
  pause : Nat
  /-- nothing waits in between -/
  prompt : (pause : Time) < _REPORT_BOARD_COOLDOWN_SECONDS

/-- The agent that calls, the other tools that are registered, and the texts of the `ValidationError`s. -/
structure Setting where
  agent_id : String
  others : ToolDefs
  describe : Fields → String

def Setting.defs (setting : Setting) : ToolDefs := report_to_board setting.describe :: setting.others

structure Desk where
  company : Company
  now : Time
  /-- when the calls were made that succeeded -/
  reported : List Time

/-- The clock shows the time. -/
def set_clock (now : Time) (st : EventStore) : EventStore := { st with utcnow := fun _ => now }

def clocked (now : Time) (co : Company) : Company := { co with events := set_clock now co.events }

/-- The executor runs, and the clock shows the time. -/
def at_clock (now : Time) (executor : ToolCall → Act EventStore Exn Instance) (call : ToolCall) (co : Company) :
    ToolOutcome × Company :=
  let ended := executor call (set_clock now co.events)
  (ended.1, { co with events := ended.2 })

def run_report (now : Time) (call : ToolCall) : Act EventStore Exn Instance :=
  exec_report_to_board call.agent_id call.cid (text (parsed_args call) "body") now

/-- The executor without its limits. -/
def run_deliver (call : ToolCall) : Act EventStore Exn Instance :=
  deliver_report call.agent_id call.cid (text (parsed_args call) "body")

/-- The answer says that the call was ok. -/
def is_success : Except Exn ToolResult → Bool
  | .ok result => result.ok
  | .error _ => false

namespace ReportCall

variable (setting : Setting) (call : ReportCall) (d : Desk)

/-- When the call is made, and when its executor looks at the clock. -/
def announced_at : Time := d.now + call.elapsed

def now : Time := call.announced_at d + call.pause

def invocation : Invocation :=
  { agent_id := setting.agent_id, tool_name := "report_to_board", args := call.args
    correlation_id := call.correlation_id, uuid := call.uuid, now := call.announced_at d }

/-- The call is no replay of one that is answered. -/
def fresh : Bool := (d.company.tools_completed (call.invocation setting d).cid).isNone

def run (executor : ToolCall → Act EventStore Exn Instance) : Except Exn ToolResult × Company :=
  invoke setting.defs (at_clock (call.now d) executor) (call.invocation setting d)
    (clocked (call.announced_at d) d.company)

def succeeds : Bool := is_success (call.run setting d (run_report (call.now d))).1

/-- Would the call succeed if there were no limits? The gates admit it, the budget pays for it, and the log takes its
    events. -/
def unhindered : Bool := is_success (call.run setting d run_deliver).1

end ReportCall

namespace Desk

/-- A report is called for, or anything else happens to the company, which adds to the log. -/
inductive Label where
  | report (call : ReportCall)
  | other (elapsed : Nat) (change : Company → Company) (posts : List Post)

def step (setting : Setting) (d : Desk) : Label → Desk
  | .report call =>
    { company := (call.run setting d (run_report (call.now d))).2
      now := call.now d
      reported := if call.fresh setting d && call.succeeds setting d then d.reported ++ [call.now d] else d.reported }
  | .other elapsed change posts =>
    { d with
      company :=
        { change d.company with
          events := (EventStore.appendAll posts (set_clock (d.now + elapsed) d.company.events)).2 }
      now := d.now + elapsed }

/-- A company whose log is empty. -/
def opened (co : Company) (now : Time) : Desk :=
  { company := { co with events := { co.events with log := [] } }, now, reported := [] }

end Desk

/-! ## The limits -/

/-- There are fewer than the maximum, and the last one is at least the cooldown ago. -/
def within_limits (times : List Time) (now : Time) : Bool :=
  decide (times.length < _REPORT_BOARD_LIFETIME_MAX) &&
    times.getLast?.all fun last => decide (_REPORT_BOARD_COOLDOWN_SECONDS ≤ now - last)

/-- The calls of an agent, of any tool. -/
def called (agent_id : String) (log : List Event) : List Event := log.filter (calls_of agent_id).matches

/-- The calls of `report_to_board` that the executor finds. -/
def board_calls (agent_id : String) (log : List Event) : List Event := ((called agent_id log).take 500).filter is_report

/-- What the executor's limits come to: the agent has made 500 calls, and the reports among the first ones of these are
    within the limits. -/
def Allowed (agent_id : String) (log : List Event) (now : Time) : Prop :=
  500 ≤ (called agent_id log).length ∧ within_limits ((board_calls agent_id log).map Event.ts_real) now = true

section Limits

variable {agent_id : String} {log : List Event} {now : Time}

theorem within_limits_mono {times : List Time} {later : Time} (hle : now ≤ later)
    (h : within_limits times now = true) : within_limits times later = true := by
  unfold within_limits at h ⊢
  rw [Bool.and_eq_true] at h ⊢
  refine ⟨h.1, ?_⟩
  cases hlast : times.getLast? with
  | none => rfl
  | some last =>
      rw [hlast] at h
      have hold : _REPORT_BOARD_COOLDOWN_SECONDS ≤ now - last := of_decide_eq_true h.2
      exact decide_eq_true (hold.trans (Int.sub_le_sub_right hle last))

/-- The executor refuses, or sends. -/
theorem exec_report_eq (agent_id correlation_id body : String) (now : Time) (st : EventStore) :
    (within_limits ((board_calls agent_id st.log).map Event.ts_real) now = true ∧
      exec_report_to_board agent_id correlation_id body now st = deliver_report agent_id correlation_id body st) ∨
    (within_limits ((board_calls agent_id st.log).map Event.ts_real) now = false ∧
      ∃ e, exec_report_to_board agent_id correlation_id body now st = (.error e, st)) := by
  have hread : st.read (calls_of agent_id) 500 = .ok ((called agent_id st.log).take 500) := rfl
  have hrun : exec_report_to_board agent_id correlation_id body now st =
      (if _REPORT_BOARD_LIFETIME_MAX ≤ (board_calls agent_id st.log).length then Act.raise lifetime_error
        else match (board_calls agent_id st.log).getLast? with
          | none => deliver_report agent_id correlation_id body
          | some last =>
            if now - last.ts_real < _REPORT_BOARD_COOLDOWN_SECONDS then
              Act.raise (cooldown_error (now - last.ts_real))
            else deliver_report agent_id correlation_id body) st := by
    rw [exec_report_to_board]
    exact bind_of_ok (by rw [hread])
  rw [hrun]
  unfold within_limits
  rw [List.length_map, List.getLast?_map]
  by_cases hmax : _REPORT_BOARD_LIFETIME_MAX ≤ (board_calls agent_id st.log).length
  · rw [if_pos hmax]
    exact .inr ⟨by rw [decide_eq_false (Nat.not_lt.mpr hmax)]; rfl, _, rfl⟩
  · rw [if_neg hmax, decide_eq_true (Nat.lt_of_not_le hmax)]
    -- the last row that is found, which is not the last one of the log beyond the limit of the read
    cases (board_calls agent_id st.log).getLast? with
    | none => exact .inl ⟨rfl, rfl⟩
    | some last =>
        dsimp only
        by_cases hgap : now - last.ts_real < _REPORT_BOARD_COOLDOWN_SECONDS
        · rw [if_pos hgap]
          exact .inr ⟨decide_eq_false (Int.not_le.mpr hgap), _, rfl⟩
        · rw [if_neg hgap]
          exact .inl ⟨decide_eq_true (Int.not_lt.mp hgap), rfl⟩

theorem called_append (log rows : List Event) :
    called agent_id (log ++ rows) = called agent_id log ++ called agent_id rows :=
  List.filter_append ..

/-- **Five hundred calls fill the read**: whatever comes later is not found. -/
theorem board_calls_full (h : 500 ≤ (called agent_id log).length) (rows : List Event) :
    board_calls agent_id (log ++ rows) = board_calls agent_id log := by
  unfold board_calls
  rw [called_append, List.take_append_of_le_length h]

/-- Before that, the last report that is found is the last one that was announced. -/
theorem board_calls_snoc (h : (called agent_id log).length < 500) {row : Event}
    (hcalled : (calls_of agent_id).matches row = true) (hreport : is_report row = true) :
    board_calls agent_id (log ++ [row]) = board_calls agent_id log ++ [row] := by
  have hrow : called agent_id [row] = [row] := List.filter_cons_of_pos hcalled
  unfold board_calls
  rw [called_append, hrow, List.take_of_length_le (by rw [List.length_append, List.length_singleton]; omega),
    List.take_of_length_le (by omega), List.filter_append, List.filter_cons_of_pos hreport]
  rfl

/-- Once allowed, always allowed. -/
theorem Allowed.mono {log' : List Event} {later : Time} (h : Allowed agent_id log now) (hlog : log <+: log')
    (hle : now ≤ later) : Allowed agent_id log' later := by
  obtain ⟨rows, rfl⟩ := hlog
  refine ⟨?_, ?_⟩
  · rw [called_append, List.length_append]
    exact h.1.trans (Nat.le_add_right ..)
  · rw [board_calls_full h.1]
    exact within_limits_mono hle h.2

end Limits

/-! ## What a call adds to the log -/

/-- The log of the later store starts with that of the earlier one, and the clock shows the same. -/
structure Extends (st st' : EventStore) : Prop where
  utcnow : st'.utcnow = st.utcnow
  log : st.log <+: st'.log

theorem Extends.refl (st : EventStore) : Extends st st := ⟨rfl, List.prefix_rfl⟩

theorem Extends.trans {a b c : EventStore} (hab : Extends a b) (hbc : Extends b c) : Extends a c :=
  ⟨hbc.utcnow.trans hab.utcnow, hab.log.trans hbc.log⟩

theorem append_extends (post : Post) (st : EventStore) : Extends st (EventStore.append post st).2 := by
  unfold EventStore.append
  cases EventStore.validate_payload post.kind post.payload with
  | error e => exact .refl st
  | ok validated =>
      dsimp only
      cases st.refuses st.attempts post with
      | some refusal => exact ⟨rfl, List.prefix_rfl⟩
      | none => exact ⟨rfl, List.prefix_append ..⟩

theorem appendAll_extends (posts : List Post) : ∀ st : EventStore, Extends st (EventStore.appendAll posts st).2 := by
  induction posts with
  | nil => exact Extends.refl
  | cons post posts ih =>
      intro st
      have hfirst := append_extends post st
      rw [EventStore.appendAll_cons]
      rcases happ : EventStore.append post st with ⟨e | event, st'⟩
      · rw [happ] at hfirst
        exact hfirst
      · rw [happ] at hfirst
        exact hfirst.trans (ih st')

/-- Nothing is taken out of the log. -/
def Grows (co co' : Company) : Prop := Extends co.events co'.events

theorem Grows.refl (co : Company) : Grows co co := Extends.refl _

theorem Grows.trans (a b c : Company) (hab : Grows a b) (hbc : Grows b c) : Grows a c := Extends.trans hab hbc

theorem append_grows (post : Post) : Moves Grows (Company.append post) := by
  intro co
  have hrun := (append_writes post co).events
  unfold Grows
  rw [hrun]
  exact appendAll_extends _ _

theorem cache_grows_log (cid : String) (result : ToolResult) : Moves Grows (cache cid result) := Grows.refl

theorem transact_grows {α : Type} (tx : BudgetDb → BudgetDb.Tx α) :
    Moves Grows (Company.on_budget (Budget.transact tx)) := by
  intro co
  show Extends co.events (Budget.transact tx co.budget_view).2.events
  rcases htx : tx co.budget with e | ⟨a, posts, db⟩
  · rw [Budget.transact_error htx]
    exact .refl _
  · rw [Budget.transact_ok htx]
    exact appendAll_extends _ _

/-- **A call only adds to the log**, if its executor does. -/
theorem invoke_grows {defs : ToolDefs} {exec : ToolCall → Company → ToolOutcome × Company} {i : Invocation}
    {co : Company} (hexec : ∀ call co', co'.events.log <+: (exec call co').2.events.log) :
    co.events.log <+: (invoke defs exec i co).2.events.log := by
  have hstart : Grows co (invoke_start defs i co).2 := by
    refine invoke_start_moves Grows.refl Grows.trans append_grows (cache_grows_log _) (fun _ => transact_grows _)
      fun tool estimate rid _ => ?_
    refine announce_moves Grows.refl Grows.trans append_grows (cache_grows_log _) (transact_grows _) ?_
    intro co'
    have hrun := (handle_approval_writes tool i co').events
    unfold Grows
    rw [hrun]
    exact appendAll_extends _ _
  rcases hrun : invoke_start defs i co with ⟨e | result | call, s⟩
  · rw [hrun] at hstart
    have hinvoke : invoke defs exec i co = (.error e, s) := bind_of_error hrun
    rw [hinvoke]
    exact hstart.log
  · rw [hrun] at hstart
    have hinvoke : invoke defs exec i co = (.ok result, s) := bind_of_ok hrun
    rw [hinvoke]
    exact hstart.log
  · rw [hrun] at hstart
    have hinvoke : invoke defs exec i co = invoke_finish call (exec call s).1 (exec call s).2 := bind_of_ok hrun
    have hfinish : Grows (exec call s).2 (invoke_finish call (exec call s).1 (exec call s).2).2 :=
      invoke_finish_moves Grows.refl Grows.trans append_grows (cache_grows_log _) (transact_grows _)
        (transact_grows _) (exec call s).1 (exec call s).2
    rw [hinvoke]
    exact (hstart.log.trans (hexec call s)).trans hfinish.log

/-! ## What the executor finds -/

section Found

variable {setting : Setting} {call : ReportCall} {d : Desk}

/-- The events of a reservation are no calls. -/
theorem reserved_uncalled (agent_id : String) (db : BudgetDb) (amount : Money) (ref : String) {st st' : EventStore}
    (h : EventStore.appendAll (db.reserved amount ref).1 st = (.ok (), st')) :
    ∃ rows, st'.log = st.log ++ rows ∧ called agent_id rows = [] := by
  obtain ⟨rows, hlog, hlogged⟩ := EventStore.appendAll_logged h
  refine ⟨rows, hlog, List.filter_eq_nil_iff.mpr fun row hrow => ?_⟩
  obtain ⟨post, hpost, hkind⟩ : ∃ post ∈ (db.reserved amount ref).1, row.kind = post.kind := by
    obtain ⟨n, hn, hget⟩ := List.getElem_of_mem hrow
    have hn' : n < (db.reserved amount ref).1.length := by rw [hlogged.length_eq]; exact hn
    exact ⟨_, List.getElem_mem hn', hget ▸ (hlogged.get hn' hn).kind⟩
  have hbudget : post.kind ≠ .TOOL_CALLED := by
    unfold BudgetDb.reserved BudgetDb.evaluate_thresholds_locked at hpost
    dsimp only at hpost
    split at hpost
    · rw [List.mem_singleton.mp hpost]
      exact nofun
    · split at hpost
      · rw [List.mem_singleton.mp hpost]
        exact nofun
      · cases hpost
  rw [← hkind] at hbudget
  simp [EventStore.ReadFilter.matches, calls_of, hbudget]

/-- The row of the announcement. -/
structure Announcement (agent_id : String) (time : Time) (row : Event) : Prop where
  called : (calls_of agent_id).matches row = true
  report : is_report row = true
  ts_real : row.ts_real = time

theorem called_row {agent_id cid : String} {args : Fields} {time : Time} {st st' : EventStore} {row : Event}
    (hclock : st.utcnow = fun _ => time)
    (h : EventStore.append (called_post cid "report_to_board" args agent_id) st = (.ok row, st')) :
    st'.log = st.log ++ [row] ∧ Announcement agent_id time row := by
  obtain ⟨hlog, hlogged⟩ := EventStore.append_logged h
  have hkind : row.kind = .TOOL_CALLED := hlogged.kind
  have hactor : row.actor_agent_id = some agent_id := EventStore.append_actor h
  have hpayload : row.payload =
      [("tool", .str "report_to_board"), ("arguments", .obj args), ("request_id", .str cid)] :=
    (Except.ok.inj hlogged.payload).symm
  refine ⟨hlog, ?_, ?_, ?_⟩
  · simp [EventStore.ReadFilter.matches, calls_of, hkind, hactor]
  · unfold is_report
    rw [hpayload]
    exact decide_eq_true rfl
  · unfold EventStore.append at h
    split at h
    · cases h
    · dsimp only at h
      split at h
      · cases h
      · cases h
        exact congrFun hclock _

/-- The tool that is called under the name. -/
theorem tool_of_reserves {co : Company} {tool : ToolDef} {estimate : Money}
    (h : Reserves setting.defs co (call.invocation setting d) tool estimate) :
    tool = report_to_board setting.describe := by
  obtain ⟨-, ⟨parsed, hadmitted⟩, -⟩ := h
  have hget : get setting.defs "report_to_board" = some (report_to_board setting.describe) :=
    List.find?_cons_of_pos (decide_eq_true rfl)
  exact Option.some.inj ((tool_of_admitted hadmitted).1.symm.trans hget)

/-- A call that is denied fails. -/
theorem denied_fails {cid tool_name message actor : String} {cls : ToolErrorClass} {co : Company} {started : Started}
    (h : ((do
      let result ← deny cid tool_name cls message actor
      pure (Started.done result) : Act Company Exn Started) co).1 = .ok started) :
    ∃ result, started = .done result ∧ result.ok = false := by
  obtain ⟨denied, s, hdeny, hdone⟩ := bind_eq_ok.mp (Prod.ext h rfl)
  obtain ⟨-, s', -, hcache⟩ := bind_eq_ok.mp hdeny
  obtain ⟨-, s'', -, hpure⟩ := bind_eq_ok.mp hcache
  cases hpure
  cases hdone
  exact ⟨_, rfl, rfl⟩

/-- The log that an executor finds. -/
structure Found (setting : Setting) (call : ReportCall) (d : Desk) (log : List Event) : Prop where
  log : ∃ rows row, log = d.company.events.log ++ rows ++ [row] ∧ called setting.agent_id rows = [] ∧
    Announcement setting.agent_id (call.announced_at d) row

/-- The log ends with the announcement of the call. -/
theorem found_of_accepts {tool : ToolDef} {estimate : Money}
    (hgate : gate_status (clocked (call.announced_at d) d.company) tool (call.invocation setting d) = .APPROVED)
    (htool : tool = report_to_board setting.describe)
    (hacc : (clocked (call.announced_at d) d.company).events.accepts
      (held_posts (clocked (call.announced_at d) d.company) tool (call.invocation setting d) estimate) = true) :
    Found setting call d (at_executor (clocked (call.announced_at d) d.company) tool (call.invocation setting d)
      estimate).events.log := by
  set co := clocked (call.announced_at d) d.company
  set i := call.invocation setting d
  have hall := EventStore.appendAll_of_accepts hacc
  have hposts : held_posts co tool i estimate =
      (co.budget.reserved estimate i.cid).1 ++ [called_post i.cid "report_to_board" i.args i.agent_id] := by
    rw [held_posts, gate_posts_of_approved hgate, htool]
    rfl
  have hevents : (at_executor co tool i estimate).events =
      (EventStore.appendAll (held_posts co tool i estimate) co.events).2 := rfl
  have hclock := (appendAll_extends (co.budget.reserved estimate i.cid).1 co.events).utcnow
  rw [hevents]
  rw [hposts, EventStore.appendAll_append] at hall ⊢
  rcases hfirst : EventStore.appendAll (co.budget.reserved estimate i.cid).1 co.events with ⟨e | u, st⟩
  · rw [hfirst] at hall
    cases hall
  · rw [hfirst] at hall hclock
    dsimp only at hall ⊢
    rw [EventStore.appendAll_singleton] at hall ⊢
    -- the threshold events of the reservation come before the announcement
    obtain ⟨rows, hrows, hnone⟩ := reserved_uncalled setting.agent_id _ _ _ hfirst
    rcases hlast : EventStore.append (called_post i.cid "report_to_board" i.args i.agent_id) st with ⟨e | row, st'⟩
    · rw [hlast] at hall
      cases hall
    · obtain ⟨hlog, hrow⟩ := called_row hclock hlast
      refine ⟨rows, row, ?_, hnone, hrow⟩
      rw [hlog, hrows]
      rfl

/-- A call reaches its executor, with its announcement as the last row of the log, or its first part raises or denies
    it. -/
theorem start_cases (hfresh : call.fresh setting d = true) :
    (∃ held s, invoke_start setting.defs (call.invocation setting d) (clocked (call.announced_at d) d.company) =
        (.ok (.awaiting held), s) ∧ held.agent_id = setting.agent_id ∧ Found setting call d s.events.log) ∨
    ∀ started, (invoke_start setting.defs (call.invocation setting d) (clocked (call.announced_at d) d.company)).1 =
      .ok started → ∃ result, started = .done result ∧ result.ok = false := by
  by_cases hres : ∃ tool estimate,
      Reserves setting.defs (clocked (call.announced_at d) d.company) (call.invocation setting d) tool estimate
  · obtain ⟨tool, estimate, hr⟩ := hres
    have htool := tool_of_reserves hr
    have hgate : gate_status (clocked (call.announced_at d) d.company) tool (call.invocation setting d) =
        .APPROVED := by rw [htool]; rfl
    cases hacc : (clocked (call.announced_at d) d.company).events.accepts
        (held_posts (clocked (call.announced_at d) d.company) tool (call.invocation setting d) estimate) with
    | false =>
        obtain ⟨e, co, hrun, -⟩ := invoke_start_refused hr hacc
        rw [hrun]
        exact .inr nofun
    | true => exact .inl ⟨_, _, invoke_start_awaiting hr hgate hacc, rfl, found_of_accepts hgate htool hacc⟩
  · right
    intro started hstarted
    obtain ⟨cached, hcached, -⟩ | ⟨e, -, hrun⟩ | ⟨tool_name, cls, message, hrun⟩ :=
      invoke_start_without_eq fun tool estimate hr => hres ⟨tool, estimate, hr⟩
    · have hnew := Option.isNone_iff_eq_none.mp hfresh
      rw [show d.company.tools_completed (call.invocation setting d).cid = some cached from hcached] at hnew
      cases hnew
    · rw [hrun] at hstarted
      cases hstarted
    · rw [hrun] at hstarted
      exact denied_fails hstarted

/-- **What the executor finds** is within the limits only beyond 500 calls. -/
theorem Found.within_limits_iff {log : List Event} (h : Found setting call d log) :
    within_limits ((board_calls setting.agent_id log).map Event.ts_real) (call.now d) = true ↔
      Allowed setting.agent_id d.company.events.log (call.now d) := by
  obtain ⟨rows, row, rfl, hrows, hrow⟩ := h.log
  by_cases hfull : 500 ≤ (called setting.agent_id d.company.events.log).length
  · rw [List.append_assoc, board_calls_full hfull]
    exact (and_iff_right hfull).symm
  · refine iff_of_false ?_ fun hboth => hfull hboth.1
    have hless : (called setting.agent_id (d.company.events.log ++ rows)).length < 500 := by
      rw [called_append, hrows, List.append_nil]
      exact Nat.lt_of_not_le hfull
    -- the last report is the call itself
    rw [board_calls_snoc hless hrow.called hrow.report, List.map_append, List.map_singleton, hrow.ts_real]
    intro hwithin
    unfold within_limits at hwithin
    rw [List.getLast?_concat, Bool.and_eq_true] at hwithin
    have hgap : _REPORT_BOARD_COOLDOWN_SECONDS ≤ call.now d - call.announced_at d := of_decide_eq_true hwithin.2
    have hpause : call.now d - call.announced_at d = call.pause := add_sub_cancel_left ..
    rw [hpause] at hgap
    exact Int.not_le.mpr call.prompt hgap

/-! ## What a call comes to -/

/-- A call whose executor raises fails. -/
theorem invoke_finish_raised (held : ToolCall) (e : Exn) (co : Company) :
    is_success (invoke_finish held (.error e) co).1 = false := by
  have hfail : ∀ cls message, is_success ((do
      Company.on_budget (Budget.release held.reservation_id)
      fail_result held.cid held.tool.name cls message held.agent_id : Act Company Exn ToolResult) co).1 = false := by
    intro cls message
    rcases hrun : (do
      Company.on_budget (Budget.release held.reservation_id)
      fail_result held.cid held.tool.name cls message held.agent_id : Act Company Exn ToolResult) co with ⟨e | r, s⟩
    · rfl
    · obtain ⟨-, s₁, -, hfailed⟩ := bind_eq_ok.mp hrun
      obtain ⟨-, s₂, -, hcache⟩ := bind_eq_ok.mp hfailed
      obtain ⟨-, s₃, -, hpure⟩ := bind_eq_ok.mp hcache
      cases hpure
      rfl
  cases e with
  | tool cls message => exact hfail cls message
  | cancelled => rfl
  | _ => exact hfail _ _

/-- The limits are all that the executors differ in. -/
theorem at_clock_cases (now : Time) (held : ToolCall) (co : Company) :
    (within_limits ((board_calls held.agent_id co.events.log).map Event.ts_real) now = true ∧
      at_clock now (run_report now) held co = at_clock now run_deliver held co) ∨
    (within_limits ((board_calls held.agent_id co.events.log).map Event.ts_real) now = false ∧
      ∃ e, at_clock now (run_report now) held co = (.error e, clocked now co)) := by
  unfold at_clock run_report run_deliver
  obtain ⟨hwithin, hexec⟩ | ⟨hbeyond, e, hexec⟩ := exec_report_eq held.agent_id held.cid
    (text (parsed_args held) "body") now (set_clock now co.events)
  · rw [hexec]
    exact .inl ⟨hwithin, rfl⟩
  · rw [hexec]
    exact .inr ⟨hbeyond, e, rfl⟩

/-- **A call succeeds** exactly if nothing else stops it and the first 500 calls allow it. -/
theorem succeeds_iff (hfresh : call.fresh setting d = true) :
    call.succeeds setting d = true ↔
      call.unhindered setting d = true ∧ Allowed setting.agent_id d.company.events.log (call.now d) := by
  unfold ReportCall.succeeds ReportCall.unhindered ReportCall.run
  obtain ⟨held, s, hstart, hagent, hfound⟩ | hended := start_cases hfresh
  -- both executors are asked at the same place, and what follows is the same
  · have hrun : ∀ executor, invoke setting.defs (at_clock (call.now d) executor) (call.invocation setting d)
        (clocked (call.announced_at d) d.company) =
          invoke_finish held (at_clock (call.now d) executor held s).1 (at_clock (call.now d) executor held s).2 :=
      fun executor => bind_of_ok hstart
    rw [hrun, hrun, ← hfound.within_limits_iff, ← hagent]
    obtain ⟨hwithin, hsame⟩ | ⟨hbeyond, e, hraise⟩ := at_clock_cases (call.now d) held s
    · rw [hsame]
      exact (and_iff_left hwithin).symm
    · rw [hraise, invoke_finish_raised, hbeyond]
      exact iff_of_false Bool.false_ne_true fun h => Bool.false_ne_true h.2
  -- no executor is asked
  · have hrun : ∀ executor, is_success (invoke setting.defs (at_clock (call.now d) executor)
        (call.invocation setting d) (clocked (call.announced_at d) d.company)).1 = false := by
      intro executor
      rcases hstart : invoke_start setting.defs (call.invocation setting d)
        (clocked (call.announced_at d) d.company) with ⟨e | started, s⟩
      · rw [invoke, bind_of_error hstart]
        rfl
      · rw [hstart] at hended
        obtain ⟨result, rfl, hfailed⟩ := hended started rfl
        rw [invoke, bind_of_ok hstart]
        exact hfailed
    rw [hrun, hrun]
    exact iff_of_false Bool.false_ne_true fun h => Bool.false_ne_true h.1

/-! ## Runs -/

theorem deliver_extends (agent_id correlation_id body : String) (st : EventStore) :
    Extends st (deliver_report agent_id correlation_id body st).2 := by
  have happ := append_extends (board_post agent_id correlation_id body) st
  unfold deliver_report
  rwa [bind_pure_state]

/-- The executor only adds to the log. -/
theorem at_clock_log (now : Time) (held : ToolCall) (co : Company) :
    co.events.log <+: (at_clock now (run_report now) held co).2.events.log := by
  obtain ⟨-, hsame⟩ | ⟨-, e, hraise⟩ := at_clock_cases now held co
  · rw [hsame]
    exact (deliver_extends _ _ _ (set_clock now co.events)).log
  · rw [hraise]
    exact List.prefix_rfl

theorem ReportCall.le_now (call : ReportCall) (d : Desk) : d.now ≤ call.now d := by
  have hannounced : d.now ≤ call.announced_at d := Int.le_add_of_nonneg_right (Int.natCast_nonneg _)
  exact hannounced.trans (Int.le_add_of_nonneg_right (Int.natCast_nonneg _))

/-- Reports have gone out only since the first 500 calls allow it. -/
def Counted (setting : Setting) (d : Desk) : Prop :=
  d.reported ≠ [] → Allowed setting.agent_id d.company.events.log d.now

/-- **One step** keeps the invariant. -/
theorem step_counted (label : Desk.Label) (h : Counted setting d) : Counted setting (d.step setting label) := by
  intro hreported
  cases label with
  | report call =>
      have hlog : (clocked (call.announced_at d) d.company).events.log <+:
          (d.step setting (.report call)).company.events.log := invoke_grows (at_clock_log (call.now d))
      by_cases hsucceeds : (call.fresh setting d && call.succeeds setting d) = true
      · rw [Bool.and_eq_true] at hsucceeds
        exact ((succeeds_iff hsucceeds.1).mp hsucceeds.2).2.mono hlog le_rfl
      · refine (h ?_).mono hlog (call.le_now d)
        rwa [Desk.step, if_neg hsucceeds] at hreported
  | other elapsed change posts =>
      have hlog : d.company.events.log <+: (d.step setting (.other elapsed change posts)).company.events.log :=
        (appendAll_extends posts (set_clock (d.now + elapsed) d.company.events)).log
      exact (h hreported).mono hlog (Int.le_add_of_nonneg_right (Int.natCast_nonneg _))

/-- **A run** keeps it. -/
theorem run_counted (setting : Setting) (co : Company) (now : Time) (run : List Desk.Label) :
    Counted setting (exec (Desk.step setting) (.opened co now) run) := by
  refine exec_invariant (fun d label => step_counted label) ?_ run
  exact fun h => absurd rfl h

/-- A new call succeeds exactly if the calls that succeeded before are within the limits. -/
def KeepsLimits (setting : Setting) (call : ReportCall) (d : Desk) : Prop :=
  call.fresh setting d = true →
    (call.succeeds setting d = true ↔ within_limits d.reported (call.now d) = true)

/-- The first 500 calls allow the report, and what else may stop it does so exactly beyond the limits. -/
def Settled (setting : Setting) (call : ReportCall) (d : Desk) : Prop :=
  call.fresh setting d = true →
    Allowed setting.agent_id d.company.events.log (call.now d) ∧
      (call.unhindered setting d = true ↔ within_limits d.reported (call.now d) = true)

/-- **When the limits are those of the successful reports.** -/
theorem keeps_limits_iff (setting : Setting) (co : Company) (now : Time) (run : List Desk.Label) (call : ReportCall) :
    KeepsLimits setting call (exec (Desk.step setting) (.opened co now) run) ↔
      Settled setting call (exec (Desk.step setting) (.opened co now) run) := by
  set d := exec (Desk.step setting) (Desk.opened co now) run with hd
  refine forall_congr' fun hfresh => ?_
  rw [succeeds_iff hfresh]
  by_cases hallowed : Allowed setting.agent_id d.company.events.log (call.now d)
  · rw [and_iff_left hallowed, and_iff_right hallowed]
  · -- no report has gone out, and this one is refused
    have hnone : d.reported = [] := by
      by_contra hsome
      exact hallowed ((run_counted setting co now run hsome).mono List.prefix_rfl (call.le_now d))
    refine iff_of_false (fun hagrees => ?_) fun h => hallowed h.1
    rw [hnone] at hagrees
    exact hallowed (hagrees.mpr rfl).2

end Found

/-! ### The first report of a company -/

def ceo_setting : Setting := { agent_id := "ceo-1", others := [], describe := fun _ => "" }

def ceo_company : Company :=
  { Company.opened .quiet ⟨100⟩ "ceo-1" with
    agents := fun agent_id => if agent_id = "ceo-1" then some ⟨.CEO, true⟩ else none }

def first_report : ReportCall :=
  { args := [("body", .str "The budget is spent.")], correlation_id := some "r1", uuid := "u1", elapsed := 0
    pause := 0, prompt := by decide }

/-- **The first report is refused**, although nothing else stops it: there is none before it. -/
theorem first_report_refused : first_report.unhindered ceo_setting (.opened ceo_company 0) = true ∧
    ¬ KeepsLimits ceo_setting first_report (exec (Desk.step ceo_setting) (.opened ceo_company 0) []) := by
  refine ⟨by decide +kernel, fun hkeeps => ?_⟩
  have hrefused : first_report.succeeds ceo_setting (.opened ceo_company 0) = false := by decide +kernel
  have hgoes : first_report.succeeds ceo_setting (.opened ceo_company 0) = true := (hkeeps rfl).mpr rfl
  rw [hrefused] at hgoes
  cases hgoes

/-- The CEO has called another tool before. -/
def busy_company (calls : Nat) : Company :=
  let post := called_post "t" "echo" [] "ceo-1"
  { ceo_company with
    events := { EventStore.quiet with log := List.replicate calls (EventStore.quiet.row post post.payload) } }

/-- After 500 calls it goes out. -/
example : (first_report.succeeds ceo_setting ⟨busy_company 499, 0, []⟩,
    first_report.succeeds ceo_setting ⟨busy_company 500, 0, []⟩) = (false, true) := by decide +kernel

end Tools

end CompanyFactory
