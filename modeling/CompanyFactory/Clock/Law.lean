import CompanyFactory.Clock.Clock

/-!
# `Clock.Law` — what the clock shows

The row of the clock is a stopwatch, started when the company is opened and held while it is paused. **As long as the
readings of the wall clock do not go back**, the company time is the epoch plus the rate factor times the wall time for
which the persisted state was `RUNNING`, whatever is paused, resumed, pumped and restarted in between, and whatever
append raises.

* `Law` — the stopwatch shows the running time, and nothing above it was returned.
* `law_kept` — no call at the reading of the moment changes what the stopwatch shows.
* `company_time_law` — the law for every run.
-/

namespace CompanyFactory

open Act Machine

namespace Clock

/-! ## The purpose: running time -/

/-- Does the table say that the company runs? -/
def persisted_running (c : Clock) : Bool := c.db.any fun row => decide (row.state = .RUNNING)

/-- The wall time, up to `now`, for which the persisted state was `RUNNING`. -/
def running_time (c : Clock) (last : Time) : List (Time × Label) → Time → Time
  | [], now => if c.persisted_running then now - last else 0
  | i :: rest, now => (if c.persisted_running then i.1 - last else 0) + running_time (step c i) i.1 rest now

/-! ## Seconds -/

theorem total_seconds_sub (a b : Time) : total_seconds (a - b) = total_seconds a - total_seconds b := by
  unfold total_seconds
  rw [Int.cast_sub, sub_div]

theorem total_seconds_add (a b : Time) : total_seconds (a + b) = total_seconds a + total_seconds b := by
  unfold total_seconds
  rw [Int.cast_add, add_div]

theorem total_seconds_mono {a b : Time} (h : a ≤ b) : total_seconds a ≤ total_seconds b := by
  unfold total_seconds
  have hcast : (a : Rat) ≤ b := Int.cast_le.mpr h
  linarith

theorem total_seconds_zero : total_seconds 0 = 0 := by decide +kernel

theorem total_seconds_nonneg {a : Time} (h : 0 ≤ a) : 0 ≤ total_seconds a := by
  have hmono := total_seconds_mono h
  rwa [total_seconds_zero] at hmono

/-- Seconds, back to microseconds. -/
theorem timedelta_mul (a : Time) (factor : Rat) : timedelta (total_seconds a * factor) = factor * a := by
  unfold timedelta total_seconds
  ring

/-! ## The row as a stopwatch -/

/-- The stopwatch of a row, in seconds. -/
def gauge (row : ClockRow) : Stopwatch Rat :=
  { start := total_seconds row.epoch_real, held := row.paused_total_sec
    since := row.pause_started_at.map total_seconds }

theorem gauge_elapsed (row : ClockRow) (now : Time) :
    (gauge row).elapsed (total_seconds now) =
      total_seconds (row.pause_started_at.getD now - row.epoch_real) - row.paused_total_sec := by
  unfold Stopwatch.elapsed gauge
  rw [total_seconds_sub]
  cases row.pause_started_at <;> rfl

theorem gauge_settle (row : ClockRow) (now : Time) :
    gauge (settle_pause now row) = (gauge row).release (total_seconds now) := by
  cases h : row.pause_started_at with
  | none =>
      rw [settle_pause_none h]
      unfold Stopwatch.release gauge
      rw [h]
      rfl
  | some since =>
      rw [settle_pause_some h]
      unfold Stopwatch.release gauge
      rw [h, total_seconds_sub]
      rfl

theorem gauge_extend (row : ClockRow) (now : Time) :
    gauge (extend_pause now row) = (gauge row).renew (total_seconds now) := by
  cases h : row.pause_started_at with
  | none =>
      rw [extend_pause_none h]
      unfold Stopwatch.renew gauge
      rw [h]
      rfl
  | some since =>
      rw [extend_pause_some h]
      unfold Stopwatch.renew gauge
      rw [h, total_seconds_sub]
      rfl

theorem gauge_running (row : ClockRow) : (gauge row).since = none ↔ row.pause_started_at = none := by
  unfold gauge
  cases row.pause_started_at <;> simp

/-! ## The law -/

/-- At the reading `now` the clock has run for `ran`. -/
structure Law (epoch : Time) (rate : ClockRate) (now ran : Time) (c : Clock) : Prop where
  opening : c.row.epoch_company = epoch
  pace : c.rate = rate
  synced : c.db = some c.row
  running : c.row.state = .RUNNING ↔ c.row.pause_started_at = none
  shows : (gauge c.row).Shows (total_seconds now) (total_seconds ran)
  nonneg : 0 ≤ ran
  told : ∀ v, c.last_company_time = some v → v ≤ epoch + rate.factor * ran

section Law

variable {epoch : Time} {rate : ClockRate} {now later ran : Time} {c : Clock}

theorem Law.company_time (h : Law epoch rate now ran c) : c.company_time now = epoch + rate.factor * ran := by
  -- a running row has no pause, so both branches read `pause_started_at`
  have hfreeze : c.company_time now = c._compute_company_time c.row.pause_started_at now := by
    unfold Clock.company_time
    split
    · rfl
    · rename_i hstate
      have hrunning : c.row.state = .RUNNING := by
        cases hrow : c.row.state with
        | RUNNING => rfl
        | PAUSING => exact absurd (.inr hrow) hstate
        | PAUSED => exact absurd (.inl hrow) hstate
      rw [h.running.mp hrunning]
  have helapsed : c.elapsed_real c.row.pause_started_at now = total_seconds ran := by
    unfold elapsed_real
    rw [← gauge_elapsed, h.shows.elapsed]
    exact if_neg (not_lt_of_ge (total_seconds_nonneg h.nonneg))
  rw [hfreeze, _compute_company_time, helapsed, timedelta_mul, h.opening, h.pace]

/-- The clamp never fires. -/
theorem Law.clamped (h : Law epoch rate now ran c) : c.clamped now = epoch + rate.factor * ran := by
  have hvalue := h.company_time
  unfold Clock.clamped
  cases hlast : c.last_company_time with
  | none => exact hvalue
  | some last =>
      have hle := h.told last hlast
      dsimp only
      rw [hvalue, if_neg (not_lt_of_ge hle)]

/-- Time passes. -/
theorem Law.wait (h : Law epoch rate now ran c) (hle : now ≤ later) :
    Law epoch rate later (ran + if c.persisted_running then later - now else 0) c := by
  have hrunning : c.persisted_running = true ↔ (gauge c.row).since = none := by
    rw [gauge_running, ← h.running, persisted_running, h.synced, Option.any_some, decide_eq_true_eq]
  have hgrows : ran ≤ ran + if c.persisted_running then later - now else 0 := by
    split <;> linarith
  refine ⟨h.opening, h.pace, h.synced, h.running, ?_, h.nonneg.trans hgrows, fun v hv => ?_⟩
  · have hshows := h.shows.wait (total_seconds_mono hle)
    rw [total_seconds_add]
    by_cases hrun : c.persisted_running = true
    · rw [if_pos (hrunning.mp hrun), ← total_seconds_sub] at hshows
      rwa [if_pos hrun]
    · rw [if_neg (fun hnone => hrun (hrunning.mpr hnone))] at hshows
      rwa [if_neg hrun, total_seconds_zero]
  · have hle' : rate.factor * (ran : Rat) ≤ rate.factor * ((ran + if c.persisted_running then later - now else 0 : Time)) :=
      mul_le_mul_of_nonneg_left (Int.cast_le.mpr hgrows) rate.factor_pos.le
    linarith [h.told v hv]

/-- **No call changes what the watch shows.** -/
theorem law_kept (epoch : Time) (rate : ClockRate) (now ran : Time) : Kept (Law epoch rate now ran) now where
  events c events h := ⟨h.opening, h.pace, h.synced, h.running, h.shows, h.nonneg, h.told⟩
  told c h := by
    refine ⟨h.opening, h.pace, h.synced, h.running, h.shows, h.nonneg, fun v hv => ?_⟩
    have htold : c.clamped now = v := Option.some.inj hv
    rw [h.clamped] at htold
    exact htold.ge
  paused c hstate h := by
    have hrunning : (gauge c.row).since = none := (gauge_running c.row).mpr (h.running.mp hstate)
    refine ⟨h.opening, h.pace, ?_, ⟨nofun, nofun⟩, h.shows.hold hrunning, h.nonneg, h.told⟩
    rw [pausing, _persist, h.synced, Option.map_some]
  resumed c hstate h := by
    obtain ⟨hnone, hepoch⟩ := settle_pause_frame now c.row
    refine ⟨hepoch.trans h.opening, h.pace, ?_, ⟨fun _ => hnone, fun _ => rfl⟩, ?_, h.nonneg, h.told⟩
    · rw [Clock.resumed, _persist, h.synced, Option.map_some]
    · have hshows := h.shows.release
      rw [← gauge_settle] at hshows
      exact hshows
  finalised c hstate h := by
    -- a pause is finalised only while it lasts
    have hheld : c.row.pause_started_at ≠ none := by
      intro hnone
      rw [h.running.mpr hnone] at hstate
      cases hstate
    refine ⟨h.opening, h.pace, ?_, ⟨nofun, fun hnone => absurd hnone hheld⟩, h.shows, h.nonneg, h.told⟩
    rw [_persist, h.synced, Option.map_some]
  ticked c day h := by
    refine ⟨h.opening, h.pace, ?_, h.running, h.shows, h.nonneg, h.told⟩
    rw [Clock.ticked, _persist, h.synced, Option.map_some]
  restarted c h := by
    unfold restart _load_or_init
    rw [h.synced]
    dsimp only
    split
    · -- the pause began before the restart: what has passed of it is booked, and it begins again
      rename_i hpaused
      obtain ⟨since, hsince⟩ := Option.ne_none_iff_exists'.mp hpaused.2
      have hrunning : c.row.state ≠ .RUNNING := fun hrun => hpaused.2 (h.running.mp hrun)
      have hshows := h.shows.renew
      rw [← gauge_extend] at hshows
      rw [extend_pause_some hsince] at hshows ⊢
      exact ⟨h.opening, h.pace, rfl, ⟨fun hrun => absurd hrun hrunning, nofun⟩, hshows, h.nonneg, nofun⟩
    · exact ⟨h.opening, h.pace, rfl, h.running, h.shows, h.nonneg, nofun⟩

theorem opened_law (events : EventStore) (rate : ClockRate) (now : Time) :
    Law now rate now 0 (opened events rate now) := by
  refine ⟨rfl, rfl, rfl, ⟨fun _ => rfl, fun _ => rfl⟩, ?_, le_refl _, nofun⟩
  rw [total_seconds_zero]
  exact Stopwatch.Shows.start (total_seconds now)

/-- The law along a run, up to a last reading. -/
theorem Law.exec (run : List (Time × Label)) : ∀ {c : Clock} {last ran : Time}, Law epoch rate last ran c →
    List.IsChain (· ≤ ·) (last :: (run.map Prod.fst ++ [now])) →
      Law epoch rate now (ran + running_time c last run now) (Machine.exec step c run) := by
  induction run with
  | nil =>
      intro c last ran h hchain
      exact h.wait (List.isChain_cons_cons.mp hchain).1
  | cons i rest ih =>
      intro c last ran h hchain
      obtain ⟨hle, hrest⟩ := List.isChain_cons_cons.mp hchain
      have hstep : Law epoch rate i.1 _ (step c i) := step_kept (law_kept epoch rate i.1 _) (h.wait hle) i.2
      have hexec := ih hstep hrest
      rwa [add_assoc] at hexec

end Law

/-- **The law of the company clock.** -/
theorem company_time_law (events : EventStore) (rate : ClockRate) (epoch : Time) (run : List (Time × Label))
    (now : Time) (hmono : List.IsChain (· ≤ ·) (epoch :: (run.map Prod.fst ++ [now]))) :
    (now_company now (exec step (opened events rate epoch) run)).1 =
      .ok (epoch + rate.factor * running_time (opened events rate epoch) epoch run now) := by
  have hlaw := (opened_law events rate epoch).exec run hmono
  rw [zero_add] at hlaw
  exact congrArg Except.ok hlaw.clamped

/-- An hour of running, a pause of two hours with a restart in it, and half an hour of running: a day and a half. -/
theorem company_time_law_day_and_a_half :
    (now_company 12600000000 (exec step (opened .quiet .realtime 0)
      [(3600000000, .pause none (some true)), (7200000000, .restart), (10800000000, .resume none)])).1 =
      .ok (0 + ClockRate.realtime.factor * 5400000000) :=
  company_time_law .quiet .realtime 0
    [(3600000000, .pause none (some true)), (7200000000, .restart), (10800000000, .resume none)] 12600000000
    (by decide)

end Clock

end CompanyFactory
