import CompanyFactory.EventStore.Store
import CompanyFactory.Lib.Run
import CompanyFactory.Lib.Schedule
import Mathlib.Algebra.Order.Ring.Rat
import Mathlib.Data.Rat.Floor

/-!
# `Clock.Clock` — the clock of a company

`clock.py` and `state.py`. The clock keeps one row, in memory and in the table `clock_state`, and computes the company
time from it and from the reading of the wall clock. Durations are exact rationals.

Every call reads the wall clock once; the reading is an argument. No call of the clock waits for anything, so that
each is one step. What the idle probe says is an argument too (`none` when it raises).

* `now_company` — frozen while the company is paused, and never below what **this process** has returned before.
* `_emit_day_ticks` — appends the event of every new day, and **then** writes down the last one.
* `_load_or_init` — a restart: the row comes from the table, and what was returned before is forgotten.
-/

namespace CompanyFactory

open Act

inductive ClockState where
  | RUNNING | PAUSING | PAUSED
  deriving DecidableEq, Repr

def _REAL_SECONDS_PER_DAY : Rat := 86400

/-- How many seconds of the wall clock make up one company day. -/
structure ClockRate where
  real_seconds_per_company_day : Rat
  positive : 0 < real_seconds_per_company_day

namespace ClockRate

def factor (rate : ClockRate) : Rat := _REAL_SECONDS_PER_DAY / rate.real_seconds_per_company_day

theorem factor_pos (rate : ClockRate) : 0 < rate.factor := div_pos (by decide) rate.positive

/-- One wall hour is one company day. -/
def realtime : ClockRate := ⟨3600, by decide⟩

end ClockRate

/-- The row of `clock_state`. -/
structure ClockRow where
  state : ClockState
  epoch_real : Time
  epoch_company : Time
  paused_total_sec : Rat
  pause_started_at : Option Time
  last_day_ticked : Nat
  deriving DecidableEq

structure Clock where
  /-- the table `clock_state` -/
  db : Option ClockRow
  /-- the attributes of the object -/
  row : ClockRow
  last_company_time : Option Rat
  rate : ClockRate
  events : EventStore

namespace Clock

/-- `timedelta.total_seconds`, of microseconds -/
def total_seconds (t : Time) : Rat := t / 1000000

/-- `timedelta(seconds=...)`, in microseconds -/
def timedelta (seconds : Rat) : Rat := seconds * 1000000

/-! ## Persistence -/

/-- `UPDATE clock_state SET ... WHERE id = 1` -/
def _persist (c : Clock) : Clock := { c with db := c.db.map fun _ => c.row }

/-- The row of a company that is opened now. -/
def initial_row (now : Time) : ClockRow :=
  { state := .RUNNING, epoch_real := now, epoch_company := now, paused_total_sec := 0, pause_started_at := none
    last_day_ticked := 0 }

/-- The gap since the anchor of a pause counts as paused time. -/
def extend_pause (now : Time) (row : ClockRow) : ClockRow :=
  match row.pause_started_at with
  | none => row
  | some since =>
    { row with
      paused_total_sec := row.paused_total_sec + max 0 (total_seconds (now - since))
      pause_started_at := some now }

theorem extend_pause_none {row : ClockRow} (h : row.pause_started_at = none) (now : Time) :
    extend_pause now row = row := by
  unfold extend_pause
  rw [h]

theorem extend_pause_some {row : ClockRow} {since : Time} (h : row.pause_started_at = some since) (now : Time) :
    extend_pause now row = { row with
      paused_total_sec := row.paused_total_sec + max 0 (total_seconds (now - since))
      pause_started_at := some now } := by
  unfold extend_pause
  rw [h]

def _load_or_init (now : Time) (c : Clock) : Clock :=
  match c.db with
  | none => { c with row := initial_row now, db := some (initial_row now) }
  | some row =>
    if (row.state = .PAUSING ∨ row.state = .PAUSED) ∧ row.pause_started_at ≠ none then
      _persist { c with row := extend_pause now row }
    else { c with row }

/-- A new object over the same table. -/
def restart (now : Time) (c : Clock) : Clock :=
  _load_or_init now { c with row := initial_row now, last_company_time := none }

/-! ## Queries -/

/-- The wall time, in seconds, for which the company has run. -/
def elapsed_real (freeze_at : Option Time) (now : Time) (c : Clock) : Rat :=
  let elapsed := total_seconds (freeze_at.getD now - c.row.epoch_real) - c.row.paused_total_sec
  if elapsed < 0 then 0 else elapsed

def _compute_company_time (freeze_at : Option Time) (now : Time) (c : Clock) : Rat :=
  c.row.epoch_company + timedelta (c.elapsed_real freeze_at now * c.rate.factor)

/-- Before it is compared with what was returned before. -/
def company_time (now : Time) (c : Clock) : Rat :=
  if c.row.state = .PAUSED ∨ c.row.state = .PAUSING then c._compute_company_time c.row.pause_started_at now
  else c._compute_company_time none now

/-- What `now_company` returns. -/
def clamped (now : Time) (c : Clock) : Rat :=
  match c.last_company_time with
  | none => c.company_time now
  | some last => if c.company_time now < last then last else c.company_time now

/-- The clock after a query. -/
def told (now : Time) (c : Clock) : Clock := { c with last_company_time := some (c.clamped now) }

def now_company (now : Time) : Act Clock Exn Rat := fun c => (.ok (c.clamped now), c.told now)

def is_accepting_messages (c : Clock) : Bool := decide (c.row.state = .RUNNING)

/-! ## Transitions -/

def appendAll (posts : List Post) : Act Clock Exn Unit :=
  Act.on Clock.events (fun events c => { c with events }) (EventStore.appendAll posts)

def paused_post (requested_by : Option String) : Post :=
  { kind := .CLOCK_PAUSED, payload := [("by", requested_by.elim .null .str)] }

def resumed_post (requested_by : Option String) : Post :=
  { kind := .CLOCK_RESUMED, payload := [("by", requested_by.elim .null .str)] }

/-- A probe that raises leaves the state alone. -/
def _maybe_finalise_pause (idle : Option Bool) (c : Clock) : Clock :=
  if c.row.state = .PAUSING ∧ idle = some true then _persist { c with row := { c.row with state := .PAUSED } }
  else c

def pausing (now : Time) (c : Clock) : Clock :=
  _persist { c with row := { c.row with state := .PAUSING, pause_started_at := some now } }

def pause (now : Time) (requested_by : Option String) (idle : Option Bool) : Act Clock Exn Unit := do
  let state ← Act.read (fun c => c.row.state)
  if state = .PAUSING ∨ state = .PAUSED then pure ()
  else do
    Act.write (pausing now)
    appendAll [paused_post requested_by]
    Act.write (_maybe_finalise_pause idle)

/-- The time spent paused is accounted for. -/
def settle_pause (now : Time) (row : ClockRow) : ClockRow :=
  match row.pause_started_at with
  | none => row
  | some since =>
    { row with
      paused_total_sec := row.paused_total_sec + max 0 (total_seconds (now - since)), pause_started_at := none }

theorem settle_pause_none {row : ClockRow} (h : row.pause_started_at = none) (now : Time) :
    settle_pause now row = row := by
  unfold settle_pause
  rw [h]

theorem settle_pause_some {row : ClockRow} {since : Time} (h : row.pause_started_at = some since) (now : Time) :
    settle_pause now row = { row with
      paused_total_sec := row.paused_total_sec + max 0 (total_seconds (now - since)), pause_started_at := none } := by
  unfold settle_pause
  rw [h]

/-- Afterwards the pause has no anchor, and the epoch is what it was. -/
theorem settle_pause_frame (now : Time) (row : ClockRow) : (settle_pause now row).pause_started_at = none ∧
    (settle_pause now row).epoch_company = row.epoch_company := by
  cases h : row.pause_started_at with
  | none => rw [settle_pause_none h]; exact ⟨h, rfl⟩
  | some since => rw [settle_pause_some h]; exact ⟨rfl, rfl⟩

def resumed (now : Time) (c : Clock) : Clock :=
  _persist { c with row := { settle_pause now c.row with state := .RUNNING } }

def resume (now : Time) (requested_by : Option String) : Act Clock Exn Unit := do
  let state ← Act.read (fun c => c.row.state)
  if state = .RUNNING then pure ()
  else do
    Act.write (resumed now)
    appendAll [resumed_post requested_by]

/-! ## Pump -/

def day_tick (day : Nat) : Post := { kind := .DAY_TICK, payload := [("day", .int day)] }

/-- `int(elapsed_company_seconds // 86400)` -/
def current_day (company_now : Rat) (c : Clock) : Nat :=
  ((company_now - c.row.epoch_company) / 1000000 / _REAL_SECONDS_PER_DAY).floor.toNat

/-- `range(self._last_day_ticked + 1, current_day + 1)` -/
def pending_days (company_now : Rat) (c : Clock) : List Nat :=
  List.range' (c.row.last_day_ticked + 1) (c.current_day company_now - c.row.last_day_ticked)

def ticked (day : Nat) (c : Clock) : Clock := _persist { c with row := { c.row with last_day_ticked := day } }

def _emit_day_ticks (now : Time) : Act Clock Exn Unit := do
  let company_now ← now_company now
  let c ← Act.read id
  if c.current_day company_now ≤ c.row.last_day_ticked then pure ()
  else do
    appendAll ((c.pending_days company_now).map day_tick)
    Act.write (ticked (c.current_day company_now))

def pump_once (now : Time) (idle : Option Bool) : Act Clock Exn Unit := do
  _emit_day_ticks now
  Act.write (_maybe_finalise_pause idle)

/-- A pump in a process that dies when it has come to the `k`-th day. -/
def pump_dies (now : Time) (k : Nat) : Act Clock Exn Unit := do
  let company_now ← now_company now
  let c ← Act.read id
  appendAll (((c.pending_days company_now).take k).map day_tick)

/-! ## Steps -/

inductive Label where
  | now_company
  | pause (requested_by : Option String) (idle : Option Bool)
  | resume (requested_by : Option String)
  | pump_once (idle : Option Bool)
  /-- the process dies in a pump; the next step is a restart -/
  | pump_dies (k : Nat)
  | restart
  /-- another module appends an event; no other one appends a `DAY_TICK` -/
  | publish (post : Post) (hkind : post.kind ≠ .DAY_TICK)

/-- The wall clock as the event store reads it. -/
def at_wall (now : Time) (c : Clock) : Clock := { c with events := { c.events with utcnow := fun _ => now } }

/-- One step, at a reading of the wall clock. -/
def step (c : Clock) (i : Time × Label) : Clock :=
  match i.2 with
  | .now_company => (now_company i.1).after (c.at_wall i.1)
  | .pause requested_by idle => (pause i.1 requested_by idle).after (c.at_wall i.1)
  | .resume requested_by => (resume i.1 requested_by).after (c.at_wall i.1)
  | .pump_once idle => (pump_once i.1 idle).after (c.at_wall i.1)
  | .pump_dies k => (pump_dies i.1 k).after (c.at_wall i.1)
  | .restart => (c.at_wall i.1).restart i.1
  | .publish post _ => (appendAll [post]).after (c.at_wall i.1)

/-- The clock of a company that is opened. -/
def opened (events : EventStore) (rate : ClockRate) (now : Time) : Clock :=
  restart now { db := none, row := initial_row now, last_company_time := none, rate, events }

/-! ## One rule for all steps -/

/-- What keeps `P` at a reading: everything that a call may do to the clock. -/
structure Kept (P : Clock → Prop) (now : Time) : Prop where
  events : ∀ c events, P c → P { c with events }
  told : ∀ c, P c → P (c.told now)
  paused : ∀ c, c.row.state = .RUNNING → P c → P (pausing now c)
  resumed : ∀ c, c.row.state ≠ .RUNNING → P c → P (resumed now c)
  finalised : ∀ c, c.row.state = .PAUSING → P c → P (_persist { c with row := { c.row with state := .PAUSED } })
  ticked : ∀ c day, P c → P (ticked day c)
  restarted : ∀ c, P c → P (restart now c)

section Kept

variable {P : Clock → Prop} {now : Time} {c : Clock}

/-- The call keeps `P`. -/
abbrev Keeps (P : Clock → Prop) {α : Type} (m : Act Clock Exn α) : Prop := Moves (fun c c' => P c → P c') m

theorem keeps_refl (c : Clock) : P c → P c := id

theorem keeps_trans (a b c : Clock) (h : P a → P b) (h' : P b → P c) : P a → P c := h' ∘ h

variable (h : Kept P now)

include h

theorem appendAll_kept (posts : List Post) : Keeps P (appendAll posts) := fun c => h.events c _

theorem finalise_kept (idle : Option Bool) (hc : P c) : P (_maybe_finalise_pause idle c) := by
  unfold _maybe_finalise_pause
  split
  · rename_i hpausing
    exact h.finalised c hpausing.1 hc
  · exact hc

theorem pause_kept (requested_by : Option String) (idle : Option Bool) : Keeps P (pause now requested_by idle) := by
  intro c hc
  unfold pause
  rw [read_bind]
  split
  · exact hc
  · rename_i hstate
    have hrunning : c.row.state = .RUNNING := by
      cases hrow : c.row.state with
      | RUNNING => rfl
      | PAUSING => exact absurd (.inl hrow) hstate
      | PAUSED => exact absurd (.inr hrow) hstate
    rw [write_bind]
    refine Moves.bind keeps_trans (appendAll_kept h _) (fun _ => ?_) _ (h.paused c hrunning hc)
    exact .write fun c hc => finalise_kept h idle hc

theorem resume_kept (requested_by : Option String) : Keeps P (resume now requested_by) := by
  intro c hc
  unfold resume
  rw [read_bind]
  split
  · exact hc
  · rename_i hstate
    rw [write_bind]
    exact appendAll_kept h _ _ (h.resumed c hstate hc)

theorem emit_kept : Keeps P (_emit_day_ticks now) := by
  refine .bind keeps_trans h.told fun company_now => .bind keeps_trans (.read keeps_refl _) fun c => ?_
  refine .ite (.pure keeps_refl _) (.bind keeps_trans (appendAll_kept h _) fun _ => ?_)
  exact .write fun c hc => h.ticked c _ hc

theorem pump_kept (idle : Option Bool) : Keeps P (pump_once now idle) :=
  .bind keeps_trans (emit_kept h) fun _ => .write fun _ hc => finalise_kept h idle hc

theorem dies_kept (k : Nat) : Keeps P (pump_dies now k) :=
  .bind keeps_trans h.told fun _ => .bind keeps_trans (.read keeps_refl _) fun _ => appendAll_kept h _

/-- **Every step.** -/
theorem step_kept (hc : P c) (label : Label) : P (step c (now, label)) := by
  have hwall : P (c.at_wall now) := h.events c _ hc
  cases label with
  | now_company => exact h.told _ hwall
  | pause requested_by idle => exact pause_kept h requested_by idle _ hwall
  | resume requested_by => exact resume_kept h requested_by _ hwall
  | pump_once idle => exact pump_kept h idle _ hwall
  | pump_dies k => exact dies_kept h k _ hwall
  | restart => exact h.restarted _ hwall
  | publish post _ => exact appendAll_kept h _ _ hwall

end Kept

end Clock

end CompanyFactory
