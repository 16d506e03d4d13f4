import CompanyFactory.Clock.Clock

/-!
# `Clock.Stamps` — the time an event carries

`build_company` makes the event store before there is a clock, as `EventStore(db)`, and nothing gives it the clock
afterwards. `ts_company` is therefore the reading of the wall clock.

* `step_events` — the posts that a step appends, for every step of the clock and of other modules.
* `events_carry` — in a run, every event carries the company time of its append exactly if company time and wall
  clock agree whenever one is appended.
-/

namespace CompanyFactory

open Act Machine

namespace Clock

/-! ## The posts of a step -/

/-- The posts that a step appends, up to the first one that is refused. -/
def posts (c : Clock) (i : Time × Label) : List Post :=
  match i.2 with
  | .pause requested_by _ => if c.row.state = .PAUSING ∨ c.row.state = .PAUSED then [] else [paused_post requested_by]
  | .resume requested_by => if c.row.state = .RUNNING then [] else [resumed_post requested_by]
  | .pump_once _ => (c.pending_days (c.clamped i.1)).map day_tick
  | .pump_dies k => ((c.pending_days (c.clamped i.1)).take k).map day_tick
  | .publish post _ => [post]
  | .now_company | .restart => []

def SameEvents (c c' : Clock) : Prop := c'.events = c.events

theorem finalise_events (idle : Option Bool) (c : Clock) : SameEvents c (_maybe_finalise_pause idle c) := by
  unfold _maybe_finalise_pause
  split <;> rfl

/-- Appends, and then a write that is not about events. -/
theorem append_write_events {f : Clock → Clock} (hf : ∀ c, SameEvents c (f c)) (ps : List Post) (c : Clock) :
    ((do appendAll ps; Act.write f : Act Clock Exn Unit) c).2.events = (EventStore.appendAll ps c.events).2 := by
  rw [bind_run]
  have hrun : appendAll ps c =
      ((EventStore.appendAll ps c.events).1, { c with events := (EventStore.appendAll ps c.events).2 }) := rfl
  rw [hrun]
  cases (EventStore.appendAll ps c.events).1 with
  | error e => rfl
  | ok u => exact hf _

theorem emit_events (now : Time) (c : Clock) :
    (_emit_day_ticks now c).2.events =
      (EventStore.appendAll ((c.pending_days (c.clamped now)).map day_tick) c.events).2 := by
  have hrun : (_emit_day_ticks now) c = (if c.current_day (c.clamped now) ≤ c.row.last_day_ticked then pure ()
      else do
        appendAll ((c.pending_days (c.clamped now)).map day_tick)
        Act.write (ticked (c.current_day (c.clamped now))) : Act Clock Exn Unit) (c.told now) := rfl
  rw [hrun]
  split
  · rename_i hle
    have hnone : c.pending_days (c.clamped now) = [] := by
      rw [pending_days, Nat.sub_eq_zero_of_le hle]
      rfl
    rw [hnone]
    rfl
  · exact append_write_events (f := ticked _) (fun _ => rfl) _ _

/-- **The events of a step.** -/
theorem step_events (c : Clock) (i : Time × Label) :
    (step c i).events = (EventStore.appendAll (posts c i) (c.at_wall i.1).events).2 := by
  obtain ⟨now, label⟩ := i
  cases label with
  | now_company => rfl
  | publish post hkind => rfl
  | pump_dies k => rfl
  | restart =>
      show (restart now (c.at_wall now)).events = _
      unfold restart _load_or_init
      split
      · rfl
      · split <;> rfl
  | pause requested_by idle =>
      show (pause now requested_by idle (c.at_wall now)).2.events = _
      unfold pause posts
      rw [read_bind]
      have hstate : (c.at_wall now).row.state = c.row.state := rfl
      rw [hstate]
      dsimp only
      split
      · rfl
      · rw [write_bind]
        exact append_write_events (finalise_events idle) _ _
  | resume requested_by =>
      show (resume now requested_by (c.at_wall now)).2.events = _
      unfold resume posts
      rw [read_bind]
      have hstate : (c.at_wall now).row.state = c.row.state := rfl
      rw [hstate]
      dsimp only
      split
      · rfl
      · rfl
  | pump_once idle =>
      have hemit := emit_events now (c.at_wall now)
      show (pump_once now idle (c.at_wall now)).2.events = _
      unfold pump_once
      rw [bind_run]
      cases hrun : _emit_day_ticks now (c.at_wall now) with
      | mk result c' =>
          rw [hrun] at hemit
          cases result with
          | error e => exact hemit
          | ok u => exact Eq.trans (finalise_events idle c') hemit

/-! ## The rows of an append -/

/-- A store that reads the wall clock only, and reads this. -/
structure Wall (now : Time) (st : EventStore) : Prop where
  company_now : st.company_now = none
  utcnow : st.utcnow = fun _ => now

theorem append_wall {now : Time} (post : Post) {st : EventStore} (h : Wall now st) :
    Wall now (EventStore.append post st).2 ∧ ∀ event, (EventStore.append post st).1 = .ok event →
      (EventStore.append post st).2.log = st.log ++ [event] ∧ event.ts_company = now := by
  unfold EventStore.append
  cases EventStore.validate_payload post.kind post.payload with
  | error e =>
      refine ⟨h, fun event hevent => ?_⟩
      cases hevent
  | ok validated =>
      dsimp only
      cases st.refuses st.attempts post with
      | some refusal =>
          refine ⟨⟨h.company_now, h.utcnow⟩, fun event hevent => ?_⟩
          cases hevent
      | none =>
          refine ⟨⟨h.company_now, h.utcnow⟩, fun event hevent => ?_⟩
          obtain rfl := Except.ok.inj hevent
          refine ⟨rfl, ?_⟩
          rw [EventStore.row, h.company_now, h.utcnow]
          rfl

/-- The rows of a list of posts carry the reading. -/
theorem appendAll_wall {now : Time} (ps : List Post) : ∀ {st : EventStore}, Wall now st →
    Wall now (EventStore.appendAll ps st).2 ∧ ∃ rows, (EventStore.appendAll ps st).2.log = st.log ++ rows ∧
      ∀ event ∈ rows, event.ts_company = now := by
  induction ps with
  | nil =>
      intro st h
      exact ⟨h, [], (List.append_nil _).symm, fun _ hmem => absurd hmem List.not_mem_nil⟩
  | cons post ps ih =>
      intro st h
      obtain ⟨hwall, hrow⟩ := append_wall post h
      rw [EventStore.appendAll_cons]
      rcases happend : EventStore.append post st with ⟨result, st'⟩
      rw [happend] at hwall hrow
      cases result with
      | error e =>
          have hlog := EventStore.append_error_log (congrArg Prod.fst happend)
          rw [happend] at hlog
          exact ⟨hwall, [], hlog.trans (List.append_nil _).symm, fun _ hmem => absurd hmem List.not_mem_nil⟩
      | ok event =>
          obtain ⟨hlog, hstamp⟩ := hrow event rfl
          obtain ⟨hafter, rows, hrest, hall⟩ := ih hwall
          have hlog' : st'.log = st.log ++ [event] := hlog
          refine ⟨hafter, event :: rows, ?_, fun e he => ?_⟩
          · rw [hrest, hlog', List.append_assoc]
            rfl
          · rcases List.mem_cons.mp he with rfl | hrest
            · exact hstamp
            · exact hall e hrest

/-! ## What the events carry -/

/-- `EventStore(db)` in `build_company`: no company clock is passed. -/
def built (events : EventStore) : EventStore := { events with company_now := none }

/-- The events that the step adds to the log. -/
def added (c : Clock) (i : Time × Label) : List Event := (step c i).events.log.drop c.events.log.length

/-- The event store has no company clock. -/
def Unlinked (c : Clock) : Prop := c.events.company_now = none

section Steps

variable {c : Clock}

theorem Unlinked.rows (h : Unlinked c) (i : Time × Label) : Unlinked (step c i) ∧
    (∀ event ∈ added c i, event.ts_company = i.1) ∧
      (added c i = [] ↔ (posts c i).head?.any (fun post => (c.at_wall i.1).events.accepts [post]) = false) := by
  have hwall : Wall i.1 (c.at_wall i.1).events := ⟨h, rfl⟩
  obtain ⟨hafter, rows, hlog, hall⟩ := appendAll_wall (posts c i) hwall
  obtain ⟨-, -, rows', -, hlog', -, -, hnone⟩ := EventStore.appendAll_rows (posts c i) (c.at_wall i.1).events
  obtain rfl := List.append_cancel_left (hlog.symm.trans hlog')
  rw [← step_events] at hafter hlog
  have hadded : added c i = rows := by
    rw [added, hlog]
    exact List.drop_left
  rw [hadded]
  exact ⟨hafter.company_now, hall, hnone⟩

end Steps

end Clock

end CompanyFactory
