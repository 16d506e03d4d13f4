import CompanyFactory.Clock.Clock

/-!
# `Clock.Ticks` — the day ticks in the event log

A pump appends the tick of every day that is due, and writes `last_day_ticked` down **after the last one of them**.
When an append in between raises, or the process dies, the days that were appended are in the log and not in the row,
and the next pump appends them again.

* `step_ticks` — what a step adds to the ticks: the days after `last_day_ticked`, up to some day.
* `in_step` — when a step adds ticks, the row knows all that are in the log.
* `ticks_once` — in a run, the ticks are the days 1, 2, 3, … in every state exactly if every step is `in_step`.
-/

namespace CompanyFactory

open Act Machine

namespace Clock

/-! ## The ticks of a log -/

/-- The days of the `DAY_TICK` events, in the order of the log. -/
def days (log : List Event) : List (Option Json) :=
  (log.filter fun event => event.kind = .DAY_TICK).map fun event => event.payload.lookup "day"

/-- What a list of days looks like in the log. -/
def written (ds : List Nat) : List (Option Json) := ds.map fun (day : Nat) => some (Json.int day)

/-- The ticks are the days 1, 2, 3, … -/
def TicksOnce (c : Clock) : Prop := ∃ n, days c.events.log = written (List.range' 1 n)

theorem days_append (log events : List Event) : days (log ++ events) = days log ++ days events := by
  unfold days
  rw [List.filter_append, List.map_append]

/-- An event of another kind is no tick. -/
theorem append_no_tick {post : Post} (hkind : post.kind ≠ .DAY_TICK) (st : EventStore) :
    days (EventStore.append post st).2.log = days st.log := by
  obtain ⟨e, -, -, hlog⟩ | ⟨event, -, hlog, hevent⟩ := EventStore.append_cases post st
  · rw [hlog]
  · have hother : event.kind ≠ .DAY_TICK := hevent ▸ hkind
    rw [hlog, days_append]
    simp [days, hother]

theorem day_tick_valid (day : Nat) :
    EventStore.validate_payload .DAY_TICK [("day", .int day)] = .ok [("day", .int day)] := by
  have hadmits : FieldType.int.admits (Json.int day) = true := by simp [FieldType.admits, Json.int]
  have hspec : model_for .DAY_TICK = some [{ name := "day", type := .int }] := rfl
  unfold EventStore.validate_payload
  rw [hspec]
  simp [validateFields, FieldSpec.dump, hadmits]

/-- The rows of ticks. -/
theorem days_logged {ds : List Nat} {rows : List Event}
    (h : List.Forall₂ EventStore.Logged (ds.map day_tick) rows) : days rows = written ds := by
  rw [List.forall₂_map_left_iff] at h
  induction h with
  | nil => rfl
  | @cons day event ds rows hlogged _ ih =>
      have hkind : event.kind = .DAY_TICK := hlogged.kind
      have hpayload : event.payload = [("day", .int day)] :=
        (Except.ok.inj ((day_tick_valid day).symm.trans hlogged.payload)).symm
      have hone : days [event] = written [day] := by
        simp [days, written, hkind, hpayload]
      rw [← List.singleton_append, days_append, hone, ih]
      rfl

/-! ## What a step adds -/

variable {c c' : Clock} {now : Time}

/-- Days that are appended one after the other, up to the first refusal. -/
theorem appendAll_ticks (ds : List Nat) (st : EventStore) : ∃ done rest, ds = done ++ rest ∧
    days (EventStore.appendAll (ds.map day_tick) st).2.log = days st.log ++ written done ∧
    ((EventStore.appendAll (ds.map day_tick) st).1 = .ok () → rest = []) ∧
    (done = [] ↔ ds.head?.any (fun day => st.accepts [day_tick day]) = false) := by
  obtain ⟨posts, others, rows, hposts, hlog, hall, hothers, hnone⟩ := EventStore.appendAll_rows (ds.map day_tick) st
  obtain ⟨done, rest, rfl, rfl, rfl⟩ := List.map_eq_append_iff.mp hposts
  refine ⟨done, rest, rfl, ?_, fun hok => List.map_eq_nil_iff.mp (hothers hok), ?_⟩
  · rw [hlog, days_append, days_logged hall]
  · have hempty : done = [] ↔ rows = [] := by
      rw [← List.length_eq_zero_iff, ← List.length_eq_zero_iff, ← hall.length_eq, List.length_map]
    rw [hempty, hnone, List.head?_map, Option.any_map]

/-- The table knows as much as the object. -/
def Saved (c : Clock) : Prop := c.db.map ClockRow.last_day_ticked = some c.row.last_day_ticked

theorem Saved.persist (h : Saved c) (row : ClockRow) : Saved (_persist { c with row }) := by
  unfold Saved at h
  obtain ⟨old, hdb, -⟩ := Option.map_eq_some_iff.mp h
  unfold Saved _persist
  rw [hdb]
  rfl

/-- A step that adds these days to the ticks, and writes the last one down or not. -/
structure Ticked (done : List Nat) (c c' : Clock) : Prop where
  log : days c'.events.log = days c.events.log ++ written done
  next : done = List.range' (c.row.last_day_ticked + 1) done.length
  last : c'.row.last_day_ticked = c.row.last_day_ticked ∨
    c'.row.last_day_ticked = c.row.last_day_ticked + done.length
  saved : Saved c → Saved c'

/-- No tick. -/
theorem Ticked.quiet (hlog : days c'.events.log = days c.events.log)
    (hlast : c'.row.last_day_ticked = c.row.last_day_ticked) (hsaved : Saved c → Saved c') : Ticked [] c c' :=
  ⟨hlog.trans (List.append_nil _).symm, rfl, .inl hlast, hsaved⟩

theorem Ticked.refl (c : Clock) : Ticked [] c c := .quiet rfl rfl id

theorem Ticked.trans (a b c : Clock) (h : Ticked [] a b) (h' : Ticked [] b c) : Ticked [] a c := by
  have hkeeps : ∀ {x y : Clock}, Ticked [] x y → days y.events.log = days x.events.log ∧
      y.row.last_day_ticked = x.row.last_day_ticked :=
    fun h => ⟨h.log.trans (List.append_nil _), h.last.elim id id⟩
  exact .quiet ((hkeeps h').1.trans (hkeeps h).1) ((hkeeps h').2.trans (hkeeps h).2) (h'.saved ∘ h.saved)

/-- What follows a step without a tick. -/
theorem Ticked.after {done : List Nat} {c'' : Clock} (h : Ticked [] c c') (h' : Ticked done c' c'') :
    Ticked done c c'' := by
  have hlog : days c'.events.log = days c.events.log := h.log.trans (List.append_nil _)
  have hlast : c'.row.last_day_ticked = c.row.last_day_ticked := h.last.elim id id
  exact ⟨hlog ▸ h'.log, hlast ▸ h'.next, hlast ▸ h'.last, h'.saved ∘ h.saved⟩

/-- A step with ticks before one without. -/
theorem Ticked.before {done : List Nat} {c'' : Clock} (h : Ticked done c c') (h' : Ticked [] c' c'') :
    Ticked done c c'' := by
  have hlog : days c''.events.log = days c'.events.log := h'.log.trans (List.append_nil _)
  have hlast : c''.row.last_day_ticked = c'.row.last_day_ticked := h'.last.elim id id
  exact ⟨hlog ▸ h.log, h.next, hlast ▸ h.last, h'.saved ∘ h.saved⟩

/-! ### The quiet calls -/

theorem post_quiet {post : Post} (hkind : post.kind ≠ .DAY_TICK) : Moves (Ticked []) (appendAll [post]) := by
  intro c
  refine .quiet ?_ rfl id
  show days (EventStore.appendAll [post] c.events).2.log = _
  rw [EventStore.appendAll_singleton]
  exact append_no_tick hkind c.events

theorem finalise_quiet (idle : Option Bool) (c : Clock) : Ticked [] c (_maybe_finalise_pause idle c) := by
  unfold _maybe_finalise_pause
  split
  · exact .quiet rfl rfl fun h => h.persist _
  · exact .refl c

theorem pause_quiet (now : Time) (requested_by : Option String) (idle : Option Bool) :
    Moves (Ticked []) (pause now requested_by idle) := by
  refine .bind Ticked.trans (.read Ticked.refl _) fun state => .ite (.pure Ticked.refl _) ?_
  refine .bind Ticked.trans (.write fun c => .quiet rfl rfl fun h => h.persist _) fun _ => ?_
  exact .bind Ticked.trans (post_quiet (by nofun)) fun _ => .write (finalise_quiet idle)

theorem resume_quiet (now : Time) (requested_by : Option String) :
    Moves (Ticked []) (resume now requested_by) := by
  refine .bind Ticked.trans (.read Ticked.refl _) fun state => .ite (.pure Ticked.refl _) ?_
  refine .bind Ticked.trans (.write fun c => .quiet rfl ?_ fun h => h.persist _) fun _ => post_quiet (by nofun)
  show (settle_pause now c.row).last_day_ticked = _
  cases h : c.row.pause_started_at with
  | none => rw [settle_pause_none h]
  | some since => rw [settle_pause_some h]

/-- A restart reads what was saved. -/
theorem restart_quiet (now : Time) (hsaved : Saved c) : Ticked [] c (restart now c) := by
  unfold Saved at hsaved
  obtain ⟨row, hdb, hlast⟩ := Option.map_eq_some_iff.mp hsaved
  unfold restart _load_or_init
  rw [hdb]
  dsimp only
  split
  · have hextended : (extend_pause now row).last_day_ticked = row.last_day_ticked := by
      cases h : row.pause_started_at with
      | none => rw [extend_pause_none h]
      | some since => rw [extend_pause_some h]
    exact .quiet rfl (hextended.trans hlast) fun _ => rfl
  · exact .quiet rfl hlast fun _ => rfl

/-! ### The pump -/

/-- Is a day due, and would the event log take its tick? -/
def due (company_now : Rat) (c : Clock) : Bool :=
  decide (c.row.last_day_ticked < c.current_day company_now) &&
    c.events.accepts [day_tick (c.row.last_day_ticked + 1)]

theorem take_pending (k : Nat) (company_now : Rat) (c : Clock) : (c.pending_days company_now).take k =
    List.range' (c.row.last_day_ticked + 1) (min k (c.current_day company_now - c.row.last_day_ticked)) := by
  unfold pending_days
  rcases Nat.le_total k (c.current_day company_now - c.row.last_day_ticked) with hle | hle
  · rw [min_eq_left hle, List.take_range'_of_length_ge hle]
  · rw [min_eq_right hle, List.take_range'_of_length_le hle]

/-- The next days that are pending, appended up to a refusal. -/
theorem append_pending (k : Nat) (company_now : Rat) (c : Clock) : ∃ done rest,
    (c.pending_days company_now).take k = done ++ rest ∧
    Ticked done c ((appendAll (((c.pending_days company_now).take k).map day_tick)).after c) ∧
    ((appendAll (((c.pending_days company_now).take k).map day_tick) c).1 = .ok () → rest = []) ∧
    (done = [] ↔ (decide (0 < k) && due company_now c) = false) := by
  obtain ⟨done, rest, hsplit, hlog, hall, hnone⟩ :=
    appendAll_ticks ((c.pending_days company_now).take k) c.events
  refine ⟨done, rest, hsplit, ⟨hlog, ?_, .inl rfl, id⟩, hall, hnone.trans ?_⟩
  · rw [take_pending] at hsplit
    obtain ⟨m, -, hdone, -⟩ := List.range'_eq_append_iff.mp hsplit
    rw [hdone, List.length_range']
  · rw [take_pending, due]
    cases hcount : min k (c.current_day company_now - c.row.last_day_ticked) with
    | zero =>
        refine iff_of_true rfl ?_
        by_cases hk : 0 < k
        · have hlt : ¬ c.row.last_day_ticked < c.current_day company_now := by omega
          rw [decide_eq_false hlt, Bool.false_and, Bool.and_false]
        · rw [decide_eq_false hk, Bool.false_and]
    | succ m =>
        have hk : 0 < k := by omega
        have hlt : c.row.last_day_ticked < c.current_day company_now := by omega
        rw [decide_eq_true hk, decide_eq_true hlt, Bool.true_and, Bool.true_and, List.range'_succ, List.head?_cons,
          Option.any_some]

theorem told_quiet (now : Time) (c : Clock) : Ticked [] c (c.told now) := .quiet rfl rfl id

theorem emit_ticks (now : Time) (c : Clock) :
    ∃ done, Ticked done c ((_emit_day_ticks now).after c) ∧ (done = [] ↔ due (c.clamped now) c = false) := by
  have hrun : (_emit_day_ticks now) c = (if c.current_day (c.clamped now) ≤ c.row.last_day_ticked then pure ()
      else do
        appendAll ((c.pending_days (c.clamped now)).map day_tick)
        Act.write (ticked (c.current_day (c.clamped now))) : Act Clock Exn Unit) (c.told now) := rfl
  unfold Act.after
  rw [hrun]
  split
  · rename_i hle
    refine ⟨[], told_quiet now c, iff_of_true rfl ?_⟩
    rw [due, decide_eq_false (Nat.not_lt.mpr hle), Bool.false_and]
  · rename_i hlt
    have hcount : 0 < c.current_day (c.clamped now) - c.row.last_day_ticked := by omega
    obtain ⟨done, rest, hsplit, hticked, hall, hnone⟩ :=
      append_pending (c.current_day (c.clamped now) - c.row.last_day_ticked) (c.clamped now) (c.told now)
    have hwhole : ((c.told now).pending_days (c.clamped now)).take
        (c.current_day (c.clamped now) - c.row.last_day_ticked) = c.pending_days (c.clamped now) :=
      List.take_of_length_le (List.length_range'.le)
    rw [hwhole] at hsplit hticked hall
    rw [decide_eq_true hcount, Bool.true_and] at hnone
    refine ⟨done, (told_quiet now c).after ?_, hnone⟩
    rw [bind_run]
    cases happend : appendAll ((c.pending_days (c.clamped now)).map day_tick) (c.told now) with
    | mk result c' =>
        have hafter : (appendAll ((c.pending_days (c.clamped now)).map day_tick)).after (c.told now) = c' :=
          congrArg Prod.snd happend
        rw [hafter] at hticked
        cases result with
        -- the days that were appended stay in the log, and the row does not know them
        | error e => exact hticked
        | ok u =>
            have hrest : rest = [] := hall (congrArg Prod.fst happend)
            have hlength : done.length = c.current_day (c.clamped now) - c.row.last_day_ticked := by
              rw [hrest, List.append_nil] at hsplit
              rw [← hsplit]
              exact List.length_range'
            refine ⟨hticked.log, hticked.next, .inr ?_, fun h => (hticked.saved h).persist _⟩
            show c.current_day (c.clamped now) = c.row.last_day_ticked + done.length
            omega

/-! ### Every step -/

/-- Does the step append a tick? -/
def emits (c : Clock) (i : Time × Label) : Bool :=
  match i.2 with
  | .pump_once _ => due ((c.at_wall i.1).clamped i.1) (c.at_wall i.1)
  | .pump_dies k => decide (0 < k) && due ((c.at_wall i.1).clamped i.1) (c.at_wall i.1)
  | _ => false

theorem step_ticks (hsaved : Saved c) (i : Time × Label) :
    ∃ done, Ticked done c (step c i) ∧ (done = [] ↔ emits c i = false) := by
  obtain ⟨now, label⟩ := i
  have hwall : Ticked [] c (c.at_wall now) := .quiet rfl rfl id
  cases label with
  | now_company => exact ⟨[], hwall.after (told_quiet now _), iff_of_true rfl rfl⟩
  | pause requested_by idle =>
      exact ⟨[], hwall.after (pause_quiet now requested_by idle _), iff_of_true rfl rfl⟩
  | resume requested_by => exact ⟨[], hwall.after (resume_quiet now requested_by _), iff_of_true rfl rfl⟩
  | restart => exact ⟨[], hwall.after (restart_quiet now hsaved), iff_of_true rfl rfl⟩
  | publish post hkind => exact ⟨[], hwall.after (post_quiet hkind _), iff_of_true rfl rfl⟩
  | pump_once idle =>
      obtain ⟨done, hticked, hnone⟩ := emit_ticks now (c.at_wall now)
      refine ⟨done, hwall.after ?_, hnone⟩
      show Ticked done _ ((pump_once now idle).after (c.at_wall now))
      unfold pump_once Act.after
      rw [bind_run]
      unfold Act.after at hticked
      cases hemit : _emit_day_ticks now (c.at_wall now) with
      | mk result c' =>
          rw [hemit] at hticked
          cases result with
          | error e => exact hticked
          | ok u => exact hticked.before (finalise_quiet idle c')
  | pump_dies k =>
      obtain ⟨done, rest, -, hticked, -, hnone⟩ :=
        append_pending k ((c.at_wall now).clamped now) ((c.at_wall now).told now)
      exact ⟨done, hwall.after ((told_quiet now _).after hticked), hnone⟩

/-! ## Every day once -/

/-- **A step in step.** Where it appends a tick, `last_day_ticked` counts all that are in the log. -/
def in_step (c : Clock) (i : Time × Label) : Prop :=
  emits c i = true → (days c.events.log).length = c.row.last_day_ticked

/-- The ticks are in order, and `last_day_ticked` may be behind. -/
structure Counted (c : Clock) : Prop where
  ticks : ∃ n, days c.events.log = written (List.range' 1 n) ∧ c.row.last_day_ticked ≤ n
  saved : Saved c

theorem written_append (ds es : List Nat) : written (ds ++ es) = written ds ++ written es := by
  unfold written
  exact List.map_append

theorem written_length (ds : List Nat) : (written ds).length = ds.length := by
  unfold written
  exact List.length_map _

theorem written_inj {ds es : List Nat} (h : written ds = written es) : ds = es := by
  unfold written at h
  refine List.map_injective_iff.mpr (fun a b hab => ?_) h
  have hnum : ((a : Int) : Rat) = ((b : Int) : Rat) := Json.num.inj (Option.some.inj hab)
  exact_mod_cast hnum

theorem Counted.step {i : Time × Label} (h : Counted c) (hC : in_step c i) : Counted (step c i) := by
  obtain ⟨n, hlog, hle⟩ := h.ticks
  obtain ⟨done, hticked, hnone⟩ := step_ticks h.saved i
  refine ⟨?_, hticked.saved h.saved⟩
  cases hemits : emits c i with
  | false =>
      rw [hnone.mpr hemits] at hticked
      refine ⟨n, hticked.log.trans ((List.append_nil _).trans hlog), ?_⟩
      have hlast : (Clock.step c i).row.last_day_ticked = c.row.last_day_ticked := hticked.last.elim id id
      omega
  | true =>
      -- in step, the next day for the row is the next day for the log
      have hn : n = c.row.last_day_ticked := by
        have hcount := hC hemits
        rwa [hlog, written_length, List.length_range'] at hcount
      refine ⟨n + done.length, ?_, ?_⟩
      · have hrange : List.range' 1 (n + done.length) = List.range' 1 n ++ List.range' (n + 1) done.length := by
          rw [Nat.add_comm n 1, List.range'_append_1]
        rw [hticked.log, hlog, hrange, written_append, hn, ← hticked.next]
      · have hlast := hticked.last
        omega

/-- **A day twice.** A step that is not in step appends a day that is in the log. -/
theorem Counted.repeats {i : Time × Label} (h : Counted c) (hno : ¬ in_step c i) :
    ¬ TicksOnce (Clock.step c i) := by
  obtain ⟨n, hlog, hle⟩ := h.ticks
  obtain ⟨done, hticked, hnone⟩ := step_ticks h.saved i
  unfold in_step at hno
  push Not at hno
  obtain ⟨hemits, hcount⟩ := hno
  rw [hlog, written_length, List.length_range'] at hcount
  rintro ⟨m, hm⟩
  have hne : done ≠ [] := fun hnil => by
    rw [hnone.mp hnil] at hemits
    cases hemits
  obtain ⟨day, rest, hdone⟩ := List.exists_cons_of_ne_nil hne
  have hday : day = c.row.last_day_ticked + 1 := by
    have hnext := hticked.next
    rw [hdone, List.length_cons, List.range'_succ] at hnext
    exact (List.cons.inj hnext).1
  have hsame : List.range' 1 n ++ day :: rest = List.range' 1 m := by
    apply written_inj
    rw [← hm, hticked.log, hlog, hdone, written_append]
  -- the place after the first `n` ticks is the one of day `n + 1`
  have hat : (List.range' 1 n ++ day :: rest)[n]? = some day := by
    rw [List.getElem?_append_right (List.length_range'.le), List.length_range', Nat.sub_self]
    rfl
  rw [hsame] at hat
  obtain ⟨hlt, hget⟩ := List.getElem?_eq_some_iff.mp hat
  rw [List.getElem_range'] at hget
  omega

theorem opened_counted {events : EventStore} (hnew : days events.log = []) (rate : ClockRate) (now : Time) :
    Counted (opened events rate now) := ⟨⟨0, hnew, Nat.le_refl 0⟩, rfl⟩

/-- **Day ticks exactly once.** In the log of a company, the day ticks are the days 1, 2, 3, … at every moment of a
    run if and only if the row counts all of them whenever another one is appended. -/
theorem ticks_once (events : EventStore) (hnew : days events.log = []) (rate : ClockRate) (epoch : Time)
    (run : List (Time × Label)) : Along step in_step (opened events rate epoch) run ↔
      ∀ pre, pre <+: run → TicksOnce (exec step (opened events rate epoch) pre) := by
  refine along_iff_everywhere (D := fun _ => True) (I := Counted) ?_ ?_ ?_ (opened_counted hnew rate epoch)
    fun _ _ => trivial
  · intro c h
    obtain ⟨n, hlog, -⟩ := h.ticks
    exact ⟨n, hlog⟩
  · exact fun c i _ h hC => h.step hC
  · exact fun c i _ h hno => h.repeats hno

/-- Two days at once. -/
theorem ticks_once_two_days : TicksOnce (exec step (opened .quiet .realtime 0) [(7200000000, .pump_once none)]) :=
  (ticks_once .quiet rfl .realtime 0 [(7200000000, .pump_once none)]).mp ⟨fun _ => rfl, trivial⟩ _ List.prefix_rfl

/-- **A tick that is refused.** Two days are due, the append of the second one raises, and the next pump appends both:
    the first day is in the log twice. -/
theorem day_ticked_twice :
    ¬ TicksOnce (exec step (opened (.refusing 1) .realtime 0)
      [(7200000000, .pump_once none), (7201000000, .pump_once none)]) := by
  rintro ⟨n, hn⟩
  have hlog : days (exec step (opened (.refusing 1) .realtime 0)
      [(7200000000, .pump_once none), (7201000000, .pump_once none)]).events.log = written [1, 1, 2] := by
    decide +kernel
  have hdays := written_inj (hlog.symm.trans hn)
  have hlength := congrArg List.length hdays
  rw [List.length_range'] at hlength
  subst hlength
  exact absurd hdays (by decide)

end Clock

end CompanyFactory
