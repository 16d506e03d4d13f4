import CompanyFactory.Clock.Clock

/-!
# `Clock.Monotone` — what the clock has told

The wall clock may jump, forwards and backwards. Within a process `now_company` does not go back: it compares with what
it has returned last. **A new process does not know that value**, and computes the time from the row and the reading
alone.

* `shown` — the running wall time that a call finds; the company time is a growing function of it (`company_time_eq`).
* `unwound` — the first call of a process finds no less than any earlier call.
* `never_goes_back` — in a run, what `now_company` has returned is in order exactly if every step is `unwound`.
-/

namespace CompanyFactory

open Act Machine

namespace Clock

/-! ## The running wall time -/

/-- The running wall time, in seconds, that a call finds. -/
def shown (now : Time) (c : Clock) : Rat :=
  c.elapsed_real (if c.row.state = .PAUSED ∨ c.row.state = .PAUSING then c.row.pause_started_at else none) now

/-- The company time after a running time. -/
def time_after (epoch : Time) (rate : ClockRate) (seconds : Rat) : Rat :=
  epoch + timedelta (seconds * rate.factor)

theorem shown_nonneg (now : Time) (c : Clock) : 0 ≤ c.shown now := by
  unfold shown elapsed_real
  dsimp only
  generalize total_seconds _ - c.row.paused_total_sec = elapsed
  split
  · exact le_refl 0
  · rename_i hnot
    exact not_lt.mp hnot

theorem company_time_eq (now : Time) (c : Clock) :
    c.company_time now = time_after c.row.epoch_company c.rate (c.shown now) := by
  unfold company_time shown _compute_company_time time_after
  split <;> rfl

theorem time_after_lt {epoch : Time} {rate : ClockRate} {x y : Rat} (h : x < y) :
    time_after epoch rate x < time_after epoch rate y := by
  unfold time_after timedelta
  have hfactor := mul_lt_mul_of_pos_right h rate.factor_pos
  linarith

theorem time_after_le {epoch : Time} {rate : ClockRate} {x y : Rat} (h : x ≤ y) :
    time_after epoch rate x ≤ time_after epoch rate y := by
  rcases h.lt_or_eq with hlt | heq
  · exact (time_after_lt hlt).le
  · rw [heq]

/-! ## What the calls do to the value that was returned last -/

/-- Does the call ask for the company time? -/
def asks : Label → Bool
  | .now_company | .pump_once _ | .pump_dies _ => true
  | _ => false

def SameLast (c c' : Clock) : Prop := c'.last_company_time = c.last_company_time

theorem SameLast.refl (c : Clock) : SameLast c c := rfl

theorem SameLast.trans (a b c : Clock) (h : SameLast a b) (h' : SameLast b c) : SameLast a c := Eq.trans h' h

theorem finalise_last (idle : Option Bool) (c : Clock) : SameLast c (_maybe_finalise_pause idle c) := by
  unfold _maybe_finalise_pause
  split <;> rfl

theorem pause_last (now : Time) (requested_by : Option String) (idle : Option Bool) :
    Moves SameLast (pause now requested_by idle) := by
  refine .bind SameLast.trans (.read SameLast.refl _) fun state => .ite (.pure SameLast.refl _) ?_
  refine .bind SameLast.trans (.write fun c => rfl) fun _ => ?_
  exact .bind SameLast.trans (fun c => rfl) fun _ => .write (finalise_last idle)

theorem resume_last (now : Time) (requested_by : Option String) : Moves SameLast (resume now requested_by) := by
  refine .bind SameLast.trans (.read SameLast.refl _) fun state => .ite (.pure SameLast.refl _) ?_
  exact .bind SameLast.trans (.write fun c => rfl) fun _ c => rfl

/-- A call that asks remembers the answer. -/
theorem asked_last {now : Time} {label : Label} (h : asks label = true) (c : Clock) :
    (step c (now, label)).last_company_time = some (c.clamped now) := by
  have hthen : ∀ {α : Type} {k : Rat → Act Clock Exn α}, (∀ v, Moves SameLast (k v)) →
      ((now_company now >>= k).after (c.at_wall now)).last_company_time = some (c.clamped now) :=
    fun hk => hk _ _
  cases label with
  | now_company => rfl
  | pump_once idle =>
      have hemit : ((_emit_day_ticks now).after (c.at_wall now)).last_company_time = some (c.clamped now) := by
        refine hthen fun v => .bind SameLast.trans (.read SameLast.refl _) fun c => ?_
        exact .ite (.pure SameLast.refl _) (.bind SameLast.trans (fun c => rfl) fun _ => .write fun c => rfl)
      show ((pump_once now idle).after (c.at_wall now)).last_company_time = _
      unfold pump_once Act.after at *
      rw [bind_run]
      cases hrun : _emit_day_ticks now (c.at_wall now) with
      | mk result c' =>
          rw [hrun] at hemit
          cases result with
          | error e => exact hemit
          | ok u => exact Eq.trans (finalise_last idle c') hemit
  | pump_dies k => exact hthen fun v => .bind SameLast.trans (.read SameLast.refl _) fun c c' => rfl
  | pause | resume | restart | publish => cases h

/-- Any other call leaves it, or forgets it. -/
theorem unasked_last {now : Time} {label : Label} (h : asks label = false) (c : Clock) :
    (step c (now, label)).last_company_time = c.last_company_time ∨
      (step c (now, label)).last_company_time = none := by
  cases label with
  | pause requested_by idle => exact .inl (pause_last now requested_by idle _)
  | resume requested_by => exact .inl (resume_last now requested_by _)
  | publish post hkind => exact .inl rfl
  | restart =>
      right
      show (restart now (c.at_wall now)).last_company_time = none
      unfold restart _load_or_init
      split
      · rfl
      · split <;> rfl
  | now_company | pump_once | pump_dies => cases h

/-! ## Runs with what was told -/

structure Watched where
  clock : Clock
  /-- what `now_company` has returned -/
  told : List Rat
  /-- the longest running time that a call has found -/
  furthest : Rat

/-- A step, and what it was told. -/
def watch (w : Watched) (i : Time × Label) : Watched :=
  { clock := step w.clock i
    told := if asks i.2 then w.told ++ [w.clock.clamped i.1] else w.told
    furthest := if asks i.2 then max w.furthest (w.clock.shown i.1) else w.furthest }

/-- The clock of a company that is opened has told nothing. -/
def watched (events : EventStore) (rate : ClockRate) (epoch : Time) : Watched :=
  { clock := opened events rate epoch, told := [], furthest := 0 }

/-- The values are in order. -/
def NeverBack (w : Watched) : Prop := w.told.Pairwise (· ≤ ·)

/-- **An unwound step.** The first call of a process finds a running time that no earlier call has exceeded. -/
def unwound (w : Watched) (i : Time × Label) : Prop :=
  asks i.2 = true → w.clock.last_company_time = none → w.furthest ≤ w.clock.shown i.1

/-- The epoch is the one of the company, in the object and in the table. -/
structure Dated (epoch : Time) (rate : ClockRate) (c : Clock) : Prop where
  opening : c.row.epoch_company = epoch
  pace : c.rate = rate
  saved : c.db.map ClockRow.epoch_company = some epoch

theorem Dated.persist {epoch : Time} {rate : ClockRate} {c : Clock} (h : Dated epoch rate c) {row : ClockRow}
    (hrow : row.epoch_company = epoch) : Dated epoch rate (_persist { c with row }) := by
  obtain ⟨old, hdb, -⟩ := Option.map_eq_some_iff.mp h.saved
  refine ⟨hrow, h.pace, ?_⟩
  rw [_persist, hdb]
  exact congrArg some hrow

theorem dated_kept (epoch : Time) (rate : ClockRate) (now : Time) : Kept (Dated epoch rate) now where
  events c events h := ⟨h.opening, h.pace, h.saved⟩
  told c h := ⟨h.opening, h.pace, h.saved⟩
  paused c _ h := h.persist h.opening
  resumed c _ h := h.persist ((settle_pause_frame now c.row).2.trans h.opening)
  finalised c _ h := h.persist h.opening
  ticked c day h := h.persist h.opening
  restarted c h := by
    obtain ⟨row, hdb, hrow⟩ := Option.map_eq_some_iff.mp h.saved
    unfold restart _load_or_init
    rw [hdb]
    dsimp only
    split
    · have hextended : (extend_pause now row).epoch_company = epoch := by
        cases hsince : row.pause_started_at with
        | none => rwa [extend_pause_none hsince]
        | some since => rwa [extend_pause_some hsince]
      exact ⟨hextended, h.pace, congrArg some hextended⟩
    · exact ⟨hrow, h.pace, congrArg some hrow⟩

/-- Nothing above the time of the furthest call was told, and that time was. -/
structure Clamped (epoch : Time) (rate : ClockRate) (w : Watched) : Prop where
  dated : Dated epoch rate w.clock
  sorted : NeverBack w
  top : ∀ v ∈ w.told, v ≤ time_after epoch rate w.furthest
  reached : 0 < w.furthest → time_after epoch rate w.furthest ∈ w.told
  last : ∀ v, w.clock.last_company_time = some v → v = time_after epoch rate w.furthest

section Steps

variable {epoch : Time} {rate : ClockRate} {w : Watched}

/-- What an unwound call returns. -/
theorem Clamped.value (h : Clamped epoch rate w) {i : Time × Label} (hasks : asks i.2 = true)
    (hC : unwound w i) :
    w.clock.clamped i.1 = time_after epoch rate (max w.furthest (w.clock.shown i.1)) := by
  have htime : w.clock.company_time i.1 = time_after epoch rate (w.clock.shown i.1) := by
    rw [company_time_eq, h.dated.opening, h.dated.pace]
  unfold clamped
  cases hlast : w.clock.last_company_time with
  | none =>
      have hle := hC hasks hlast
      dsimp only
      rw [htime, max_eq_right hle]
  | some v =>
      dsimp only
      rw [h.last v hlast, htime]
      rcases le_or_gt w.furthest (w.clock.shown i.1) with hle | hlt
      · rw [max_eq_right hle, if_neg (not_lt_of_ge (time_after_le hle))]
      · rw [max_eq_left hlt.le, if_pos (time_after_lt hlt)]

theorem Clamped.step (h : Clamped epoch rate w) {i : Time × Label} (hC : unwound w i) :
    Clamped epoch rate (watch w i) := by
  have hdated : Dated epoch rate (Clock.step w.clock i) := step_kept (dated_kept epoch rate i.1) h.dated i.2
  cases hasks : asks i.2 with
  | false =>
      have hwatch : watch w i = { w with clock := Clock.step w.clock i } := by
        simp [watch, hasks]
      rw [hwatch]
      refine ⟨hdated, h.sorted, h.top, h.reached, fun v hv => ?_⟩
      have hcases : (Clock.step w.clock i).last_company_time = w.clock.last_company_time ∨
          (Clock.step w.clock i).last_company_time = none := unasked_last hasks w.clock
      rcases hcases with hsame | hnone
      · exact h.last v (hsame.symm.trans hv)
      · -- a new object has told nothing, and the clamp does not know what the old one told
        exact absurd (hnone.symm.trans hv) nofun
  | true =>
      have hvalue := h.value hasks hC
      have hwatch : watch w i = { clock := Clock.step w.clock i, told := w.told ++ [w.clock.clamped i.1]
                                  furthest := max w.furthest (w.clock.shown i.1) } := by
        simp [watch, hasks]
      have htop : ∀ v ∈ w.told, v ≤ time_after epoch rate (max w.furthest (w.clock.shown i.1)) :=
        fun v hv => (h.top v hv).trans (time_after_le (le_max_left _ _))
      rw [hwatch, hvalue]
      refine ⟨hdated, ?_, ?_, fun _ => List.mem_append_right _ List.mem_cons_self, fun v hv => ?_⟩
      · unfold NeverBack
        rw [List.pairwise_append]
        refine ⟨h.sorted, List.pairwise_singleton _ _, fun a ha b hb => ?_⟩
        rw [List.mem_singleton.mp hb]
        exact htop a ha
      · intro v hv
        rcases List.mem_append.mp hv with hold | hnew
        · exact htop v hold
        · rw [List.mem_singleton.mp hnew]
      · rw [← hvalue]
        exact Option.some.inj (hv.symm.trans (asked_last hasks w.clock))

/-- **A step back.** The first call of a process finds less than an earlier one, and returns less. -/
theorem Clamped.back (h : Clamped epoch rate w) {i : Time × Label} (hno : ¬ unwound w i) :
    ¬ NeverBack (watch w i) := by
  unfold unwound at hno
  push Not at hno
  obtain ⟨hasks, hlast, hlt⟩ := hno
  -- a running time above another one is positive, so it is one that a call has found
  have hmem := h.reached ((shown_nonneg i.1 w.clock).trans_lt hlt)
  have hvalue : w.clock.clamped i.1 = time_after epoch rate (w.clock.shown i.1) := by
    unfold clamped
    rw [hlast]
    dsimp only
    rw [company_time_eq, h.dated.opening, h.dated.pace]
  intro hsorted
  unfold NeverBack watch at hsorted
  rw [hasks, if_pos rfl, List.pairwise_append] at hsorted
  have hle := hsorted.2.2 _ hmem _ List.mem_cons_self
  rw [hvalue] at hle
  exact absurd (time_after_lt hlt) (not_lt_of_ge hle)

end Steps

end Clock

end CompanyFactory
