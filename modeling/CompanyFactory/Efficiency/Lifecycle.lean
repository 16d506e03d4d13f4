import CompanyFactory.Efficiency.LoopToolRepeat
import CompanyFactory.Efficiency.Reconcile

/-!
# `Efficiency.Lifecycle` — what the log says of a finding

The service reports a finding that it opened and one that it closed. The two counts of a finding are a function of its
row (`Told`), as long as every report belongs to a change of the row: an upsert reports only a new row and a
reconciliation only a finding that was open. `manual_close` reports whatever it finds closed, so that a second close is
a second event.

A key is counted as often as it is among the candidates (`tick_passed`), and a detector may return it twice:
`LoopToolRepeat.keys_nodup_iff` says when the one for repeated calls does.

* `lifecycle_iff` — **exactly these runs** keep the counts: in no tick is a key twice among the candidates, and no
  finding is closed by hand that is closed already.
-/

namespace CompanyFactory

namespace Efficiency

namespace EfficiencyService

/-- The event is of this kind and about this finding. -/
def tells (kind : EventKind) (finding_id : String) (e : Event) : Bool :=
  decide (e.kind = kind) && decide (e.payload.lookup "finding_id" = some (.str finding_id))

def opened_events (s : EfficiencyService) (finding_id : String) : Nat :=
  s.events.log.countP (tells .EFFICIENCY_FINDING_OPENED finding_id)

def closed_events (s : EfficiencyService) (finding_id : String) : Nat :=
  s.events.log.countP (tells .EFFICIENCY_FINDING_CLOSED finding_id)

/-- Exactly one opened event and at most one closed event for each finding. -/
def Lifecycle (s : EfficiencyService) : Prop :=
  ∀ row ∈ s.rows, s.opened_events row.id = 1 ∧ s.closed_events row.id ≤ 1

/-- The candidates of a tick: what its detectors return, up to one that ends the tick. -/
def fired (ctx : DetectorContext) (parked : List String) : List (String × Detector) → List FindingCandidate
  | [] => []
  | (code, detector) :: rest =>
    if code ∈ parked then fired ctx parked rest
    else
      match detector ctx with
      | .ok candidates => candidates ++ fired ctx parked rest
      | .error e => if e.isException then fired ctx parked rest else []

def candidate_keys (s : EfficiencyService) : EfficiencyLabel → List FindingKey
  | .tick registry now =>
    (fired (s.tick_context now) s.missing_table_detectors registry.detectors).map FindingCandidate.key
  | _ => []

/-- How often the finding has been seen, if there is one. -/
def occurrences (s : EfficiencyService) (finding_id : String) : Nat :=
  (Table.find Finding.id s.rows finding_id).elim 0 Finding.occurrences

/-- The count of an open finding grows by one if its key is a candidate, and stays otherwise. -/
def Counted (s : EfficiencyService) (label : EfficiencyLabel) : Prop :=
  ∀ row ∈ (s.step label).rows, row.is_open = true →
    row.occurrences = s.occurrences row.id + if row.key ∈ s.candidate_keys label then 1 else 0

/-- No key is twice among the candidates of the tick, and what is closed by hand is not closed yet. -/
def Careful (s : EfficiencyService) : EfficiencyLabel → Prop
  | .tick registry now => (s.candidate_keys (.tick registry now)).Nodup
  | .acknowledge _ => True
  | .manual_close finding_id => ∀ row, Table.find Finding.id s.rows finding_id = some row → row.status ≠ .CLOSED

instance (s : EfficiencyService) (label : EfficiencyLabel) : Decidable (s.Careful label) :=
  match label with
  | .tick registry now => inferInstanceAs (Decidable (s.candidate_keys (.tick registry now)).Nodup)
  | .acknowledge _ => .isTrue trivial
  | .manual_close finding_id =>
    inferInstanceAs (Decidable (∀ row, Table.find Finding.id s.rows finding_id = some row → row.status ≠ .CLOSED))

/-- A log that takes every valid event, and has none about findings yet. -/
structure Fresh (s : EfficiencyService) : Prop where
  accepts : ∀ n post, s.events.refuses n post = none
  log : ∀ e ∈ s.events.log, e.kind ≠ .EFFICIENCY_FINDING_OPENED ∧ e.kind ≠ .EFFICIENCY_FINDING_CLOSED

/-! ## The reports -/

theorem opened_valid (finding_id : String) (cand : FindingCandidate) :
    EventStore.validate_payload .EFFICIENCY_FINDING_OPENED (opened_post finding_id cand).payload =
      .ok (opened_post finding_id cand).payload := by
  unfold opened_post
  cases cand.subject_id <;> cases cand.recommendation <;> rfl

theorem closed_valid (finding_id detector_code reason : String) :
    EventStore.validate_payload .EFFICIENCY_FINDING_CLOSED (closed_post finding_id detector_code reason).payload =
      .ok (closed_post finding_id detector_code reason).payload := rfl

/-- An append to a log that takes every valid event. -/
theorem append_valid {st : EventStore} (haccepts : ∀ n post, st.refuses n post = none) {post : Post} {payload : Fields}
    (hvalid : EventStore.validate_payload post.kind post.payload = .ok payload) :
    (EventStore.append post st).2.log = st.log ++ [st.row post payload] ∧
      (EventStore.append post st).2.refuses = st.refuses := by
  unfold EventStore.append
  rw [hvalid]
  dsimp only
  rw [haccepts]
  exact ⟨rfl, rfl⟩

/-- What a report adds to the counts of a finding. -/
theorem countP_report {st : EventStore} (haccepts : ∀ n post, st.refuses n post = none) {post : Post}
    {finding_id : String} (hvalid : EventStore.validate_payload post.kind post.payload = .ok post.payload)
    (hid : post.payload.lookup "finding_id" = some (.str finding_id)) (kind : EventKind) (id : String) :
    (EventStore.append post st).2.log.countP (tells kind id) =
      st.log.countP (tells kind id) + if post.kind = kind ∧ finding_id = id then 1 else 0 := by
  rw [(append_valid haccepts hvalid).1, List.countP_append, List.countP_singleton]
  have htells : tells kind id (st.row post post.payload) = true ↔ post.kind = kind ∧ finding_id = id := by
    unfold tells
    rw [Bool.and_eq_true, decide_eq_true_iff, decide_eq_true_iff]
    show post.kind = kind ∧ post.payload.lookup "finding_id" = some (.str id) ↔ _
    rw [hid, Option.some.injEq, Json.str.injEq]
  simp only [htells]

/-! ## The counts follow the rows -/

/-- Is there a finding, and is it open? -/
def standing (s : EfficiencyService) (finding_id : String) : Option Bool :=
  (Table.find Finding.id s.rows finding_id).map Finding.is_open

/-- What the log says of every finding. -/
structure Told (s : EfficiencyService) : Prop where
  accepts : ∀ n post, s.events.refuses n post = none
  opened : ∀ finding_id, s.opened_events finding_id = (s.standing finding_id).elim 0 fun _ => 1
  closed : ∀ finding_id, s.closed_events finding_id = (s.standing finding_id).elim 0 fun is_open => (!is_open).toNat

theorem Told.lifecycle {s : EfficiencyService} (hs : s.Sound) (h : s.Told) : s.Lifecycle := by
  intro row hrow
  have hstanding : s.standing row.id = some row.is_open := by
    rw [standing, Table.find_of_mem hs.unique.ids hrow, Option.map_some]
  rw [h.opened, h.closed, hstanding]
  exact ⟨rfl, Bool.toNat_le _⟩

theorem migrated_told {s : EfficiencyService} (h : s.Fresh) : s.migrated.Told where
  accepts := h.accepts
  opened := by
    intro finding_id
    refine List.countP_eq_zero.mpr fun e he => ?_
    unfold tells
    rw [decide_eq_false (h.log e he).1, Bool.false_and]
    exact Bool.false_ne_true
  closed := by
    intro finding_id
    refine List.countP_eq_zero.mpr fun e he => ?_
    unfold tells
    rw [decide_eq_false (h.log e he).2, Bool.false_and]
    exact Bool.false_ne_true

section Changes

variable {s t : EfficiencyService}

theorem standing_update {finding_id : String} {row : Finding} {f : Finding → Finding}
    (hsound : t.store.Sound (Table.update Finding.id finding_id f s.rows))
    (hfind : Table.find Finding.id s.rows finding_id = some row) (hid : ∀ row, (f row).id = row.id) (id : String) :
    t.standing id = if finding_id = id then some (f row).is_open else s.standing id := by
  rw [standing, rows_eq hsound, Table.find_update_key hid]
  by_cases h : finding_id = id
  · subst h
    rw [if_pos rfl, if_pos rfl, hfind]
    rfl
  · rw [if_neg h, if_neg h]
    rfl

theorem standing_insert {row : Finding} (hsound : t.store.Sound (s.rows ++ [row]))
    (hnone : Table.find Finding.id s.rows row.id = none) (id : String) :
    t.standing id = if row.id = id then some row.is_open else s.standing id := by
  rw [standing, rows_eq hsound, Table.find_insert]
  by_cases h : row.id = id
  · subst h
    rw [if_pos rfl, if_pos rfl, hnone]
    rfl
  · rw [if_neg h, if_neg h, Option.or_none]
    rfl

/-- A change that is not reported, of no finding's standing. -/
theorem Told.silent (h : s.Told) (hevents : t.events = s.events) (hstanding : ∀ id, t.standing id = s.standing id) :
    t.Told where
  accepts := by
    rw [hevents]
    exact h.accepts
  opened := by
    intro id
    rw [hstanding, opened_events, hevents]
    exact h.opened id
  closed := by
    intro id
    rw [hstanding, closed_events, hevents]
    exact h.closed id

/-- A new finding, and the report of it. -/
theorem Told.opens (h : s.Told) {finding_id : String} {cand : FindingCandidate}
    (hevents : t.events = (EventStore.append (opened_post finding_id cand) s.events).2)
    (hnone : s.standing finding_id = none)
    (hstanding : ∀ id, t.standing id = if finding_id = id then some true else s.standing id) : t.Told where
  accepts := by
    rw [hevents, (append_valid h.accepts (opened_valid finding_id cand)).2]
    exact h.accepts
  opened := by
    intro id
    rw [opened_events, hevents, countP_report h.accepts (opened_valid finding_id cand) rfl, hstanding]
    have hbefore := h.opened id
    rw [opened_events] at hbefore
    by_cases hid : finding_id = id
    · subst hid
      rw [hbefore, hnone, if_pos rfl, if_pos ⟨rfl, rfl⟩]
      rfl
    · rw [hbefore, if_neg hid, if_neg fun h => hid h.2, Nat.add_zero]
  closed := by
    intro id
    rw [closed_events, hevents, countP_report h.accepts (opened_valid finding_id cand) rfl, hstanding,
      if_neg (fun h => EventKind.noConfusion h.1), Nat.add_zero]
    have hbefore := h.closed id
    rw [closed_events] at hbefore
    by_cases hid : finding_id = id
    · subst hid
      rw [hbefore, hnone, if_pos rfl]
      rfl
    · rw [hbefore, if_neg hid]

/-- What a report of a close adds. -/
theorem closed_events_report (haccepts : ∀ n post, s.events.refuses n post = none)
    {finding_id detector_code reason : String}
    (hevents : t.events = (EventStore.append (closed_post finding_id detector_code reason) s.events).2) (id : String) :
    t.closed_events id = s.closed_events id + if finding_id = id then 1 else 0 := by
  rw [closed_events, hevents, countP_report haccepts (closed_valid finding_id detector_code reason) rfl]
  congr 1
  exact if_congr (and_iff_right rfl) rfl rfl

/-- The close of an open finding, and the report of it. -/
theorem Told.closes (h : s.Told) {finding_id detector_code reason : String}
    (hevents : t.events = (EventStore.append (closed_post finding_id detector_code reason) s.events).2)
    (hopen : s.standing finding_id = some true)
    (hstanding : ∀ id, t.standing id = if finding_id = id then some false else s.standing id) : t.Told where
  accepts := by
    rw [hevents, (append_valid h.accepts (closed_valid finding_id detector_code reason)).2]
    exact h.accepts
  opened := by
    intro id
    rw [opened_events, hevents, countP_report h.accepts (closed_valid finding_id detector_code reason) rfl,
      hstanding, if_neg (fun h => EventKind.noConfusion h.1), Nat.add_zero]
    have hbefore := h.opened id
    rw [opened_events] at hbefore
    by_cases hid : finding_id = id
    · subst hid
      rw [hbefore, hopen, if_pos rfl]
      rfl
    · rw [hbefore, if_neg hid]
  closed := by
    intro id
    rw [closed_events_report h.accepts hevents, h.closed, hstanding]
    by_cases hid : finding_id = id
    · subst hid
      rw [hopen, if_pos rfl, if_pos rfl]
      rfl
    · rw [if_neg hid, if_neg hid, Nat.add_zero]

end Changes

/-! ## A tick reports what it changes -/

/-- Sound rows stay sound, and the log goes on telling their story. -/
def Tells (s t : EfficiencyService) : Prop := s.Sound → s.Told → t.Sound ∧ t.Told

theorem Tells.refl (s : EfficiencyService) : Tells s s := fun hs h => ⟨hs, h⟩

theorem Tells.trans (s t u : EfficiencyService) (h : Tells s t) (h' : Tells t u) : Tells s u :=
  fun hs htold => h' (h hs htold).1 (h hs htold).2

theorem upsert_one_tells (cand : FindingCandidate) : Act.Moves Tells (upsert_one cand) := by
  intro s hs htold
  obtain ⟨row, now, t, hrow, hrun, hsound, hevents⟩ | ⟨id, now, t, -, hfresh, hrun, hsound, hevents⟩ :=
    upsert_one_cases hs cand
  · -- the row is seen again, and nothing is reported
    rw [hrun]
    refine ⟨sound_of hsound, htold.silent hevents fun id => ?_⟩
    obtain ⟨hfind, hopen⟩ := Live.row_of_current hs.unique hrow
    rw [standing_update hsound hfind (fun _ => rfl)]
    by_cases hid : row.id = id
    · subst hid
      rw [if_pos rfl, standing, hfind]
      rfl
    · rw [if_neg hid]
  · rw [hrun]
    refine ⟨sound_of hsound, htold.opens hevents ?_ fun j => ?_⟩
    · rw [standing, hfresh]
      rfl
    · rw [standing_insert hsound hfresh]
      rfl

/-- The second loop, on findings that are open and of different keys. -/
theorem close_resolved_told (detector_code : String) (firing : List FindingKey) (existing : List Finding) :
    ∀ s : EfficiencyService, s.Sound → s.Told → (∀ row ∈ existing, s.open_finding row.key = some row) →
      (existing.map Finding.key).Nodup → (close_resolved detector_code firing existing s).2.Told := by
  induction existing with
  | nil =>
      intro s _ htold _ _
      exact htold
  | cons row rest ih =>
      intro s hs htold hopen hkeys
      rw [List.map_cons, List.nodup_cons] at hkeys
      have hrow := hopen row List.mem_cons_self
      have hothers : ∀ other ∈ rest, s.open_finding other.key = some other :=
        fun other hmem => hopen other (List.mem_cons_of_mem _ hmem)
      rw [close_resolved_cons]
      by_cases hfiring : row.key ∈ firing
      · rw [if_pos hfiring]
        exact ih s hs htold hothers hkeys.2
      · rw [if_neg hfiring]
        obtain ⟨hfind, hlive⟩ := Live.row_of_current hs.unique hrow
        obtain ⟨now, t, hclose, hsound, hevents, hafter⟩ := close_one_of_open hs hrow detector_code
        have ht : t.Told := htold.closes hevents (by rw [standing, hfind, Option.map_some, hlive])
          fun id => standing_update hsound hfind (fun _ => rfl) id
        rw [Act.bind_of_ok hclose]
        refine ih t (sound_of hsound) ht (fun other hother => ?_) hkeys.2
        have hne : row.key ≠ other.key := fun heq => hkeys.1 (heq ▸ List.mem_map_of_mem hother)
        rw [hafter, if_neg hne]
        exact hothers other hother

theorem resolve_tells (detector_code : String) (firing : List FindingKey) :
    Act.Moves Tells (resolve detector_code firing) := by
  intro s hs htold
  refine ⟨(resolve_grows detector_code firing s hs).1, ?_⟩
  obtain ⟨existing, hrun, hmem, hkeys⟩ := FindingStore.list_open_spec hs detector_code
  rw [resolve, Act.bind_of_ok (on_store_ok hrun)]
  refine close_resolved_told detector_code firing existing s hs htold (fun row hrow => ?_) hkeys
  obtain ⟨hrows, -, hopen⟩ := (hmem row).mp hrow
  exact (Live.current_eq_some hs.unique).mpr ⟨hrows, rfl, hopen⟩

theorem tick_tells (detectors : List (String × Detector)) (now : Time) : Act.Moves Tells (tick detectors now) :=
  tick_moves Tells.refl Tells.trans upsert_one_tells resolve_tells (fun _ _ hs htold => ⟨hs, ⟨htold.1, htold.2, htold.3⟩⟩)
    detectors now

/-! ## What the board does -/

theorem acknowledge_tells (finding_id : String) : Act.Moves Tells (acknowledge finding_id) := by
  intro s hs htold
  refine ⟨(acknowledge_grows finding_id s hs).1, ?_⟩
  obtain ⟨e, hrun⟩ | ⟨row, store, hfind, hopen, hrun, hsound⟩ := FindingStore.acknowledge_spec hs finding_id
  · rw [acknowledge, Act.bind_of_error (on_store_error hrun)]
    exact htold
  · rw [acknowledge, Act.bind_of_ok (on_store_ok hrun)]
    refine htold.silent rfl fun id => ?_
    rw [standing_update (f := acknowledged_row) hsound hfind fun _ => rfl]
    by_cases hid : finding_id = id
    · subst hid
      rw [if_pos rfl, standing, hfind, Option.map_some, hopen]
      rfl
    · rw [if_neg hid]

/-- **What a manual close does**: nothing to a finding that it does not know, another report of a finding that is
    closed, and the close and its report of a finding that is open. -/
theorem manual_close_cases {s : EfficiencyService} (hs : s.Sound) (finding_id : String) :
    (Table.find Finding.id s.rows finding_id = none ∧ (manual_close finding_id s).2 = s) ∨
    (∃ row, Table.find Finding.id s.rows finding_id = some row ∧ row.status = .CLOSED ∧
      (manual_close finding_id s).2.rows = s.rows ∧ (manual_close finding_id s).2.events =
        (EventStore.append (closed_post row.id row.detector_code "manual") s.events).2) ∨
    (∃ row now, Table.find Finding.id s.rows finding_id = some row ∧ row.is_open = true ∧
      (manual_close finding_id s).2.store.Sound (Table.update Finding.id finding_id (closed_row now) s.rows) ∧
      (manual_close finding_id s).2.events =
        (EventStore.append (closed_post row.id row.detector_code "manual") s.events).2) := by
  unfold manual_close FindingStore.close
  obtain ⟨hnone, e, hrun⟩ | ⟨row, hfind, hclosed, hrun⟩ | ⟨row, now, store, hfind, hopen, hrun, hsound⟩ :=
    FindingStore.close_finding_spec hs finding_id
  · rw [Act.bind_of_error (on_store_error hrun)]
    exact .inl ⟨hnone, rfl⟩
  · rw [Act.bind_of_ok (on_store_ok hrun), if_pos hclosed]
    exact .inr (.inl ⟨row, hfind, hclosed, rfl, rfl⟩)
  · rw [Act.bind_of_ok (on_store_ok hrun)]
    exact .inr (.inr ⟨row, now, hfind, hopen, hsound, rfl⟩)

theorem manual_close_told {s : EfficiencyService} (hs : s.Sound) (htold : s.Told) {finding_id : String}
    (hcareful : s.Careful (.manual_close finding_id)) : (manual_close finding_id s).2.Told := by
  obtain ⟨-, heq⟩ | ⟨row, hfind, hclosed, -, -⟩ | ⟨row, now, hfind, hopen, hsound, hevents⟩ :=
    manual_close_cases hs finding_id
  · rw [heq]
    exact htold
  · exact absurd hclosed (hcareful row hfind)
  · have hid := Table.key_of_find hfind
    subst hid
    exact htold.closes hevents (by rw [standing, hfind, Option.map_some, hopen]) fun id =>
      standing_update hsound hfind (fun _ => rfl) id

/-- **The second close is a second event.** -/
theorem lifecycle_of_careless {s : EfficiencyService} (hs : s.Sound) (htold : s.Told) {finding_id : String}
    (hcareless : ¬ s.Careful (.manual_close finding_id)) : ¬ (s.step (.manual_close finding_id)).Lifecycle := by
  intro hlife
  obtain ⟨hnone, -⟩ | ⟨row, hfind, hclosed, hrows, hevents⟩ | ⟨row, now, hfind, hopen, -, -⟩ :=
    manual_close_cases hs finding_id
  · refine hcareless fun row hrow => ?_
    rw [hnone] at hrow
    cases hrow
  · have hmem := Table.mem_of_find hfind
    have hstanding : s.standing row.id = some false := by
      rw [standing, Table.find_of_mem hs.unique.ids hmem, Option.map_some, not_open_iff.mpr hclosed]
    have hone : s.closed_events row.id = 1 := by
      rw [htold.closed, hstanding]
      rfl
    have htwo := closed_events_report (t := s.step (.manual_close finding_id)) htold.accepts hevents row.id
    rw [if_pos rfl, hone] at htwo
    have hle := (hlife row (hrows ▸ hmem)).2
    rw [htwo] at hle
    exact absurd hle (by decide)
  · refine hcareless fun row' hrow' => ?_
    rw [hfind] at hrow'
    cases hrow'
    exact is_open_iff.mp hopen

theorem step_told {s : EfficiencyService} (hs : s.Sound) (htold : s.Told) {label : EfficiencyLabel}
    (hcareful : s.Careful label) : (s.step label).Told := by
  cases label with
  | tick registry now => exact (tick_tells registry.detectors now s hs htold).2
  | acknowledge finding_id => exact (acknowledge_tells finding_id s hs htold).2
  | manual_close finding_id => exact manual_close_told hs htold hcareful

/-! ## A tick counts what fires -/

/-- The open finding of a key, before a tick in which the key fires `n` times and after it. -/
def Passed (n : Nat) (before after : Option Finding) : Prop := Seen n before after ∨ (n = 0 ∧ after = none)

/-- The same detectors are parked. -/
def SameParked (s t : EfficiencyService) : Prop := t.missing_table_detectors = s.missing_table_detectors

theorem SameParked.refl (s : EfficiencyService) : SameParked s s := rfl

theorem SameParked.trans (s t u : EfficiencyService) (h : SameParked s t) (h' : SameParked t u) : SameParked s u :=
  Eq.trans h' h

/-- No reconciliation parks a detector. -/
theorem reconcile_parked (detector_code : String) (candidates : List FindingCandidate) :
    Act.Moves SameParked (_reconcile detector_code candidates) := by
  refine reconcile_moves SameParked.refl SameParked.trans (fun cand => ?_) (fun code firing => ?_) detector_code
    candidates
  · refine Act.Moves.bind SameParked.trans (fun _ => rfl) fun result => ?_
    exact Act.Moves.ite (fun _ => rfl) (Act.Moves.pure SameParked.refl _)
  · refine Act.Moves.bind SameParked.trans (fun _ => rfl) fun existing => ?_
    refine close_resolved_moves SameParked.refl SameParked.trans (fun code row => ?_) code firing existing
    refine Act.Moves.bind SameParked.trans (fun _ => rfl) fun closed => ?_
    exact Act.Moves.ite (fun _ => rfl) (Act.Moves.pure SameParked.refl _)

/-- What a detector that raises does to the service. -/
theorem excepted_cases (code : String) (e : Exn) (s : EfficiencyService) :
    (e.isException = false ∧ excepted code e s = (.error e, s)) ∨
    (e.isException = true ∧ ∃ parked, excepted code e s = (.ok [], { s with missing_table_detectors := parked }) ∧
      ∀ c, c ≠ code → (c ∈ parked ↔ c ∈ s.missing_table_detectors)) := by
  unfold excepted
  cases he : e.isException with
  | false => exact .inl ⟨rfl, by rw [if_pos (by decide)]⟩
  | true =>
      refine .inr ⟨rfl, ?_⟩
      rw [if_neg (by decide)]
      split
      · refine ⟨_, rfl, fun c hc => ?_⟩
        rw [List.mem_append, List.mem_singleton]
        exact or_iff_left hc
      · exact ⟨_, rfl, fun _ _ => Iff.rfl⟩

theorem fired_congr {ctx : DetectorContext} {parked parked' : List String} {detectors : List (String × Detector)}
    (h : ∀ c ∈ detectors.map Prod.fst, c ∈ parked' ↔ c ∈ parked) :
    fired ctx parked' detectors = fired ctx parked detectors := by
  induction detectors with
  | nil => rfl
  | cons d rest ih =>
      obtain ⟨code, detector⟩ := d
      have hcode := h code List.mem_cons_self
      rw [fired, fired, ih fun c hc => h c (List.mem_cons_of_mem _ hc)]
      exact if_congr hcode rfl rfl

/-- The detectors return candidates of their own codes. -/
def Own (detectors : List (String × Detector)) : Prop :=
  ∀ code detector, (code, detector) ∈ detectors → ∀ ctx candidates, detector ctx = .ok candidates →
    ∀ cand ∈ candidates, cand.detector_code = code

theorem Own.tail {d : String × Detector} {rest : List (String × Detector)} (h : Own (d :: rest)) : Own rest :=
  fun code detector hmem => h code detector (List.mem_cons_of_mem _ hmem)

theorem fired_code {ctx : DetectorContext} {parked : List String} {detectors : List (String × Detector)}
    (hown : Own detectors) : ∀ cand ∈ fired ctx parked detectors, cand.detector_code ∈ detectors.map Prod.fst := by
  induction detectors with
  | nil => exact fun _ h => (List.not_mem_nil h).elim
  | cons d rest ih =>
      obtain ⟨code, detector⟩ := d
      have hrest := ih hown.tail
      intro cand hmem
      rw [fired] at hmem
      rw [List.map_cons, List.mem_cons]
      split at hmem
      · exact .inr (hrest cand hmem)
      · cases hdetector : detector ctx with
        | ok candidates =>
            rw [hdetector] at hmem
            rcases List.mem_append.mp hmem with h | h
            · exact .inl (hown code detector List.mem_cons_self ctx candidates hdetector cand h)
            · exact .inr (hrest cand h)
        | error e =>
            rw [hdetector] at hmem
            dsimp only at hmem
            split at hmem
            · exact .inr (hrest cand hmem)
            · exact (List.not_mem_nil hmem).elim

theorem count_fired_eq_zero {ctx : DetectorContext} {parked : List String} {detectors : List (String × Detector)}
    (hown : Own detectors) {key : FindingKey} (hkey : key.1 ∉ detectors.map Prod.fst) :
    ((fired ctx parked detectors).map FindingCandidate.key).count key = 0 := by
  rw [List.count_eq_zero]
  intro hmem
  obtain ⟨cand, hcand, rfl⟩ := List.mem_map.mp hmem
  exact hkey (fired_code hown cand hcand)

theorem run_detectors_after (ctx : DetectorContext) (code : String) (detector : Detector)
    (rest : List (String × Detector)) (s : EfficiencyService) :
    (run_detectors ctx ((code, detector) :: rest) s).2 = match run_detector ctx code detector s with
      | (.ok _, t) => (run_detectors ctx rest t).2
      | (.error _, t) => t := by
  rw [run_detectors, Act.bind_run]
  rcases run_detector ctx code detector s with ⟨_ | candidates, t⟩
  · rfl
  · exact Act.bind_pure_state (run_detectors ctx rest) (fun others => candidates ++ others) t

/-- **One round of a tick**: it ends the tick, or leaves the findings alone, or reconciles the candidates. -/
theorem run_detector_cases {s : EfficiencyService} (hs : s.Sound) (ctx : DetectorContext) {code : String}
    {detector : Detector} {rest : List (String × Detector)} (hcode : code ∉ rest.map Prod.fst)
    (hown : Own ((code, detector) :: rest)) :
    (∃ e, run_detector ctx code detector s = (.error e, s) ∧
      fired ctx s.missing_table_detectors ((code, detector) :: rest) = []) ∨
    (∃ t, run_detector ctx code detector s = (.ok [], t) ∧ t.store = s.store ∧
      fired ctx s.missing_table_detectors ((code, detector) :: rest) = fired ctx t.missing_table_detectors rest) ∨
    (∃ candidates t, run_detector ctx code detector s = (.ok candidates, t) ∧ t.Sound ∧
      (∀ cand ∈ candidates, cand.detector_code = code) ∧
      Reconciled code (candidates.map FindingCandidate.key) s.open_finding t.open_finding ∧
      fired ctx s.missing_table_detectors ((code, detector) :: rest) =
        candidates ++ fired ctx t.missing_table_detectors rest) := by
  rw [fired]
  unfold run_detector
  by_cases hparked : code ∈ s.missing_table_detectors
  · rw [if_pos hparked, if_pos hparked]
    exact .inr (.inl ⟨s, rfl, rfl, rfl⟩)
  · rw [if_neg hparked, if_neg hparked]
    cases hdetector : detector ctx with
    | error e =>
        dsimp only
        obtain ⟨he, hrun⟩ | ⟨he, parked, hrun, hmem⟩ := excepted_cases code e s
        · rw [hrun, if_neg (by rw [he]; exact Bool.false_ne_true)]
          exact .inl ⟨e, rfl, rfl⟩
        · rw [hrun, if_pos he]
          refine .inr (.inl ⟨_, rfl, rfl, ?_⟩)
          exact (fired_congr fun c hc => hmem c fun heq => hcode (heq ▸ hc)).symm
    | ok candidates =>
        obtain ⟨t, hreconcile, ht, hspec⟩ := reconcile_spec hs code candidates
        have hcodes := hown code detector List.mem_cons_self ctx candidates hdetector
        rw [firing_keys_own hcodes] at hspec
        have hmissing := reconcile_parked code candidates s
        rw [hreconcile] at hmissing
        simp only [hreconcile]
        refine .inr (.inr ⟨candidates, t, rfl, ht, hcodes, hspec, ?_⟩)
        rw [show t.missing_table_detectors = s.missing_table_detectors from hmissing]

/-- **The rounds of a tick** leave the keys of other codes alone, and see every key as often as it fires. -/
theorem run_detectors_passed (ctx : DetectorContext) (detectors : List (String × Detector)) :
    ∀ s : EfficiencyService, s.Sound → (detectors.map Prod.fst).Nodup → Own detectors → ∀ key : FindingKey,
      (key.1 ∉ detectors.map Prod.fst →
        (run_detectors ctx detectors s).2.open_finding key = s.open_finding key) ∧
      Passed (((fired ctx s.missing_table_detectors detectors).map FindingCandidate.key).count key)
        (s.open_finding key) ((run_detectors ctx detectors s).2.open_finding key) := by
  induction detectors with
  | nil =>
      intro s _ _ _ key
      exact ⟨fun _ => rfl, .inl (Seen.none _)⟩
  | cons d rest ih =>
      obtain ⟨code, detector⟩ := d
      intro s hs hnodup hown key
      rw [List.map_cons, List.nodup_cons] at hnodup
      rw [run_detectors_after, List.map_cons, List.mem_cons, not_or]
      obtain ⟨e, hrun, hfired⟩ | ⟨t, hrun, hstore, hfired⟩ | ⟨candidates, t, hrun, ht, hcodes, hspec, hfired⟩ :=
        run_detector_cases hs ctx hnodup.1 hown
      · -- the tick ends
        rw [hrun, hfired]
        exact ⟨fun _ => rfl, .inl (Seen.none _)⟩
      · -- the detector returned nothing
        rw [hrun, hfired]
        have hrows : t.rows = s.rows := by rw [EfficiencyService.rows, hstore, EfficiencyService.rows]
        have ht : t.Sound := by
          rw [Sound, hstore, hrows]
          exact hs
        have hrest := ih t ht hnodup.2 hown.tail key
        rw [show t.open_finding key = s.open_finding key by rw [open_finding, hrows, open_finding]] at hrest
        exact ⟨fun h => hrest.1 h.2, hrest.2⟩
      · rw [hrun, hfired, List.map_append, List.count_append]
        have hrest := ih t ht hnodup.2 hown.tail key
        by_cases hkey : key.1 = code
        · -- a key of this round: no later one sees it
          have hother : key.1 ∉ rest.map Prod.fst := fun h => hnodup.1 (hkey ▸ h)
          refine ⟨fun h => absurd hkey h.1, ?_⟩
          rw [hrest.1 hother, count_fired_eq_zero hown.tail hother, Nat.add_zero]
          by_cases hfires : key ∈ candidates.map FindingCandidate.key
          · exact .inl (hspec.fires key hfires)
          · exact .inr ⟨List.count_eq_zero.mpr hfires, hspec.resolved key hkey hfires⟩
        · have hcount : (candidates.map FindingCandidate.key).count key = 0 := by
            rw [List.count_eq_zero]
            intro hmem
            obtain ⟨cand, hcand, rfl⟩ := List.mem_map.mp hmem
            exact hkey (hcodes cand hcand)
          rw [← hspec.others key hkey, hcount, Nat.zero_add]
          exact ⟨fun h => hrest.1 h.2, hrest.2⟩

theorem tick_passed {s : EfficiencyService} (hs : s.Sound) (registry : Registry) (now : Time) (key : FindingKey) :
    Passed ((s.candidate_keys (.tick registry now)).count key) (s.open_finding key)
      ((s.step (.tick registry now)).open_finding key) := by
  show Passed _ _ ((tick registry.detectors now s).2.open_finding key)
  rw [tick_eq]
  exact (run_detectors_passed _ registry.detectors s hs registry.codes_nodup registry.own key).2

/-- **How far a tick moves a count**: by as often as the key is among the candidates. -/
theorem tick_occurrences {s : EfficiencyService} (hs : s.Sound) {registry : Registry} {now : Time} {row : Finding}
    (hrow : row ∈ (s.step (.tick registry now)).rows) (hopen : row.is_open = true) :
    row.occurrences = s.occurrences row.id + (s.candidate_keys (.tick registry now)).count row.key := by
  obtain ⟨ht, hkept⟩ := step_grows s (.tick registry now) hs
  have hafter : (s.step (.tick registry now)).open_finding row.key = some row :=
    (Live.current_eq_some ht.unique).mpr ⟨hrow, rfl, hopen⟩
  have hpassed := tick_passed hs registry now row.key
  rw [hafter] at hpassed
  -- the row of the id before the tick is the open finding of the key
  have hbefore : s.open_finding row.key = none → Table.find Finding.id s.rows row.id = none := by
    intro hnone
    cases hfind : Table.find Finding.id s.rows row.id with
    | none => rfl
    | some old =>
        exfalso
        obtain ⟨row', hrow', hkey, hover⟩ := hkept row.id old hfind
        rw [Table.find_of_mem ht.unique.ids hrow] at hrow'
        cases hrow'
        cases hold : old.is_open with
        | true => exact Live.current_none hnone (Table.mem_of_find hfind) hold hkey.symm
        | false =>
            rw [hover hold, hold] at hopen
            cases hopen
  have hsame : ∀ old, s.open_finding row.key = some old → old.id = row.id →
      Table.find Finding.id s.rows row.id = some old := fun old hold hid =>
    hid ▸ (Live.row_of_current hs.unique hold).1
  rcases hpassed with hseen | ⟨-, hnone⟩
  · rcases Nat.eq_zero_or_pos ((s.candidate_keys (.tick registry now)).count row.key) with hzero | hpos
    · rw [hzero, occurrences, hsame row (hseen.unseen hzero).symm rfl]
      rfl
    · obtain ⟨row', heq, hocc, hids⟩ := hseen.seen hpos
      cases heq
      rw [hocc, occurrences]
      cases hold : s.open_finding row.key with
      | none => rw [hbefore hold]
      | some old => rw [hsame old hold (hids old hold)]
  · cases hnone

/-- A key that fires is open after the tick. -/
theorem open_of_candidate {s : EfficiencyService} (hs : s.Sound) {registry : Registry} {now : Time}
    {key : FindingKey} (hmem : key ∈ s.candidate_keys (.tick registry now)) :
    ∃ row ∈ (s.step (.tick registry now)).rows, row.is_open = true ∧ row.key = key := by
  have hpos := List.count_pos_iff.mpr hmem
  rcases tick_passed hs registry now key with hseen | ⟨hzero, -⟩
  · obtain ⟨row, hrow, -, -⟩ := hseen.seen hpos
    obtain ⟨hrows, hkey, hopen⟩ := Live.current_some hrow
    exact ⟨row, hrows, hopen, hkey⟩
  · rw [hzero] at hpos
    exact absurd hpos (Nat.lt_irrefl 0)

theorem tick_counted_iff {s : EfficiencyService} (hs : s.Sound) (registry : Registry) (now : Time) :
    s.Counted (.tick registry now) ↔ (s.candidate_keys (.tick registry now)).Nodup := by
  constructor
  · intro hcounted
    rw [List.nodup_iff_count_le_one]
    intro key
    by_cases hmem : key ∈ s.candidate_keys (.tick registry now)
    · obtain ⟨row, hrow, hopen, rfl⟩ := open_of_candidate hs hmem
      have hone := hcounted row hrow hopen
      rw [tick_occurrences hs hrow hopen, if_pos hmem] at hone
      exact Nat.le_of_eq (Nat.add_left_cancel hone)
    · rw [List.count_eq_zero.mpr hmem]
      exact Nat.zero_le 1
  · intro hnodup row hrow hopen
    rw [tick_occurrences hs hrow hopen]
    split
    · next hmem => rw [List.count_eq_one_of_mem hnodup hmem]
    · next hmem => rw [List.count_eq_zero.mpr hmem]

/-- A step that is no tick counts nothing. -/
theorem counted_of_rows {s : EfficiencyService} (hs : s.Sound) {label : EfficiencyLabel}
    (hkeys : s.candidate_keys label = [])
    (hrows : ∀ row ∈ (s.step label).rows, ∃ old ∈ s.rows, old.id = row.id ∧ old.occurrences = row.occurrences) :
    s.Counted label := by
  intro row hrow _
  obtain ⟨old, hold, hid, hocc⟩ := hrows row hrow
  rw [hkeys, if_neg List.not_mem_nil, Nat.add_zero, occurrences, ← hid, Table.find_of_mem hs.unique.ids hold]
  exact hocc.symm

/-- The rows of a store that has rewritten a row, but no count. -/
theorem rows_of_update {s t : EfficiencyService} {finding_id : String} {f : Finding → Finding}
    (hsound : t.store.Sound (Table.update Finding.id finding_id f s.rows)) (hid : ∀ row, (f row).id = row.id)
    (hocc : ∀ row, (f row).occurrences = row.occurrences) :
    ∀ row ∈ t.rows, ∃ old ∈ s.rows, old.id = row.id ∧ old.occurrences = row.occurrences := by
  intro row hrow
  rw [rows_eq hsound] at hrow
  obtain ⟨old, hold, ⟨-, rfl⟩ | ⟨-, rfl⟩⟩ := Table.mem_update hrow
  · exact ⟨_, hold, rfl, rfl⟩
  · exact ⟨old, hold, (hid old).symm, (hocc old).symm⟩

theorem acknowledge_counted {s : EfficiencyService} (hs : s.Sound) (finding_id : String) :
    s.Counted (.acknowledge finding_id) := by
  refine counted_of_rows hs rfl ?_
  show ∀ row ∈ (acknowledge finding_id s).2.rows, _
  obtain ⟨e, hrun⟩ | ⟨row, store, hfind, hopen, hrun, hsound⟩ := FindingStore.acknowledge_spec hs finding_id
  · rw [acknowledge, Act.bind_of_error (on_store_error hrun)]
    exact fun row hrow => ⟨row, hrow, rfl, rfl⟩
  · rw [acknowledge, Act.bind_of_ok (on_store_ok hrun)]
    exact rows_of_update (f := acknowledged_row) hsound (fun _ => rfl) fun _ => rfl

theorem manual_close_counted {s : EfficiencyService} (hs : s.Sound) (finding_id : String) :
    s.Counted (.manual_close finding_id) := by
  refine counted_of_rows hs rfl ?_
  show ∀ row ∈ (manual_close finding_id s).2.rows, _
  obtain ⟨-, heq⟩ | ⟨row, hfind, hclosed, hrows, -⟩ | ⟨row, now, hfind, hopen, hsound, -⟩ :=
    manual_close_cases hs finding_id
  · rw [heq]
    exact fun row hrow => ⟨row, hrow, rfl, rfl⟩
  · rw [hrows]
    exact fun row hrow => ⟨row, hrow, rfl, rfl⟩
  · exact rows_of_update (f := closed_row now) hsound (fun _ => rfl) fun _ => rfl

/-! ## In every run -/

/-- **A step keeps the counts** exactly if it is careful. -/
theorem careful_iff {s : EfficiencyService} (hs : s.Sound) (htold : s.Told) (label : EfficiencyLabel) :
    s.Careful label ↔ (s.step label).Lifecycle ∧ s.Counted label := by
  have hsound := (step_grows s label hs).1
  cases label with
  | tick registry now =>
      rw [tick_counted_iff hs]
      have htick := (tick_tells registry.detectors now s hs htold).2
      exact iff_and_self.mpr fun _ => htick.lifecycle hsound
  | acknowledge finding_id =>
      have hack := (acknowledge_tells finding_id s hs htold).2
      exact iff_of_true trivial ⟨hack.lifecycle hsound, acknowledge_counted hs finding_id⟩
  | manual_close finding_id =>
      constructor
      · intro hcareful
        exact ⟨(step_told hs htold hcareful).lifecycle hsound, manual_close_counted hs finding_id⟩
      · rintro ⟨hlife, -⟩
        by_contra hcareless
        exact lifecycle_of_careless hs htold hcareless hlife

/-- **Exactly these runs keep the counts.** From a log with nothing about findings, and when all appends succeed, every
    finding has one opened event and at most one closed event after every step, and every step counts the candidates,
    if and only if no tick has a key twice among its candidates and nothing is closed by hand that is closed already. -/
theorem lifecycle_iff {s : EfficiencyService} (hfresh : s.Fresh) (labels : List EfficiencyLabel) :
    Machine.Along step Careful s.migrated labels ↔
      ∀ done label todo, labels = done ++ label :: todo →
        (Machine.exec step s.migrated (done ++ [label])).Lifecycle ∧
          (Machine.exec step s.migrated done).Counted label := by
  have hiff := Machine.along_iff_along (F := fun _ _ => True) (I := fun s : EfficiencyService => s.Sound ∧ s.Told)
    (C := Careful) (D := fun s label => (s.step label).Lifecycle ∧ s.Counted label)
    (fun s label hs _ hcareful => ⟨(step_grows s label hs.1).1, step_told hs.1 hs.2 hcareful⟩)
    (fun s label hs _ => careful_iff hs.1 hs.2 label)
    ⟨s.migrated_sound, migrated_told hfresh⟩ (Machine.along_of_forall (fun _ _ => trivial) labels)
  rw [hiff, Machine.along_iff_cut]
  simp only [Machine.exec_snoc]

theorem busy_fresh : (busy 0).Fresh where
  accepts := fun _ _ => rfl
  log := by decide

/-- A finding that is opened, acknowledged, seen again and closed. -/
theorem lifecycle_iff_once :
    (Machine.exec step (busy 0).migrated
      [.tick repeating 0, .acknowledge "0", .tick repeating 0, .manual_close "0"]).Lifecycle :=
  ((lifecycle_iff busy_fresh [.tick repeating 0, .acknowledge "0", .tick repeating 0, .manual_close "0"]).mp
    (by decide +kernel) [.tick repeating 0, .acknowledge "0", .tick repeating 0] (.manual_close "0") [] rfl).1

/-- `loop.tool_repeat` alone. -/
def tool_repeats : Registry :=
  .one LoopToolRepeat.CODE LoopToolRepeat.detect fun _ _ => LoopToolRepeat.detect_own

/-- An agent has called two tools, each of them four times. -/
def two_tools : EfficiencyService :=
  { busy 0 with
    events :=
      { EventStore.quiet with
        log := (List.range 8).map fun n =>
          { noon_row n with
            payload := [("tool", .str (if n < 4 then "search_web" else "shell")), ("arguments", .obj []),
              ("request_id", .str "r")] } } }

/-- A finding that is closed by hand twice has two closed events, and an agent that repeats two tools is counted twice
    in one tick. -/
theorem miscounted :
    ¬ (Machine.exec step (busy 0).migrated [.tick repeating 0, .manual_close "0", .manual_close "0"]).Lifecycle ∧
      ¬ two_tools.migrated.Counted (.tick tool_repeats 1788350400000000) := by
  unfold Lifecycle Counted
  decide +kernel

end EfficiencyService

end Efficiency

end CompanyFactory
