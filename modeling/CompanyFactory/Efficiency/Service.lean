import CompanyFactory.Efficiency.Store
import CompanyFactory.EventStore.Feed
import CompanyFactory.Lib.Window
import Mathlib.Data.Fintype.EquivFin
import Mathlib.Data.List.Infix

/-!
# `Efficiency.Service` — one tick of the detectors

`tick` reads a bounded number of rows, keeps those in the largest window of a detector, and runs one detector after the
other on them. What a detector or the reconciliation of its findings raises is logged; a detector whose tables are missing
is left out from then on.

A tick is modelled for any list of detectors. `timestamp()` is exact here: floats tell two microseconds of our time apart,
and whole seconds are taken from them without rounding.

* `hands_iff` — what a tick does tells the events of its context apart, as some detector raises on one list of events
  only.
* `tick_window_iff` — **exactly when** a tick hands its detectors the window: if the limit reaches all of it.
* `tick_window_ordered_iff` — in a log that is in order: if it is not longer than the limit, or its newest row is too old.
-/

namespace CompanyFactory

namespace Efficiency

structure EfficiencyService where
  events : EventStore
  store : FindingStore
  config : EfficiencyConfig
  /-- the table `approvals` of the company's database -/
  db : Option (List Approval)
  missing_table_detectors : List String

namespace EfficiencyService

/-- The limit that a tick reads with. -/
def _READ_LIMIT : Nat := 5000

/-! ## Events and the store of the findings -/

def on_store {α : Type} (m : Act FindingStore Exn α) : Act EfficiencyService Exn α :=
  Act.on store (fun store s => { s with store }) m

/-- `self._events.append`; what it raises is logged. -/
def safe_emit (post : Post) : Act EfficiencyService Exn Unit := do
  let _ ← Act.attempt (Act.on events (fun events s => { s with events }) (EventStore.append post))
  pure ()

def opened_post (finding_id : String) (cand : FindingCandidate) : Post :=
  { kind := .EFFICIENCY_FINDING_OPENED
    payload := [("finding_id", .str finding_id), ("detector_code", .str cand.detector_code),
      ("severity", .str cand.severity.value), ("subject_type", .str cand.subject_type.value),
      ("subject_id", .ofOption cand.subject_id), ("evidence", .obj cand.evidence),
      ("recommendation", .ofOption cand.recommendation)] }

def closed_post (finding_id detector_code reason : String) : Post :=
  { kind := .EFFICIENCY_FINDING_CLOSED
    payload := [("finding_id", .str finding_id), ("detector_code", .str detector_code), ("reason", .str reason)] }

/-! ## Reconciliation -/

/-- The first loop of `_reconcile`: a candidate under another code is passed over. -/
def upsert_candidates (detector_code : String) : List FindingCandidate → Act EfficiencyService Exn Unit
  | [] => pure ()
  | cand :: rest =>
    if cand.detector_code ≠ detector_code then upsert_candidates detector_code rest
    else do
      let (finding, opened) ← on_store (FindingStore.upsert_from_candidate cand)
      if opened then safe_emit (opened_post finding.id cand)
      upsert_candidates detector_code rest

/-- The keys that fire after this loop. -/
def firing_keys (detector_code : String) (candidates : List FindingCandidate) : List FindingKey :=
  (candidates.filter fun cand => decide (cand.detector_code = detector_code)).map FindingCandidate.key

/-- The second loop: what does not fire any more is closed. -/
def close_resolved (detector_code : String) (firing : List FindingKey) :
    List Finding → Act EfficiencyService Exn Unit
  | [] => pure ()
  | existing :: rest =>
    if existing.key ∈ firing then close_resolved detector_code firing rest
    else do
      let closed ← on_store (FindingStore.auto_close existing.id)
      if closed.status = .CLOSED then safe_emit (closed_post existing.id detector_code "resolved")
      close_resolved detector_code firing rest

def _reconcile (detector_code : String) (candidates : List FindingCandidate) : Act EfficiencyService Exn Unit := do
  upsert_candidates detector_code candidates
  let existing ← on_store (FindingStore.list_open detector_code)
  close_resolved detector_code (firing_keys detector_code candidates) existing

/-! ## A tick -/

/-- `"no such table" in str(exc).lower()`, for an `OperationalError` -/
def is_missing_table : Exn → Bool
  | .database message => decide ("no such table".toList <:+: message.toLower.toList)
  | _ => false

/-- The `except` clauses of the loop. -/
def excepted (code : String) (e : Exn) : Act EfficiencyService Exn (List FindingCandidate) := fun s =>
  if !e.isException then (.error e, s)
  else if is_missing_table e then
    (.ok [], { s with missing_table_detectors := s.missing_table_detectors ++ [code] })
  else (.ok [], s)

/-- One round of the loop: the candidates that it adds. -/
def run_detector (ctx : DetectorContext) (code : String) (detector : Detector) :
    Act EfficiencyService Exn (List FindingCandidate) := fun s =>
  if code ∈ s.missing_table_detectors then (.ok [], s)
  else
    match detector ctx with
    | .error e => excepted code e s
    | .ok candidates =>
      match _reconcile code candidates s with
      | (.ok (), s) => (.ok candidates, s)
      | (.error e, s) => excepted code e s

def run_detectors (ctx : DetectorContext) :
    List (String × Detector) → Act EfficiencyService Exn (List FindingCandidate)
  | [] => pure []
  | (code, detector) :: rest => do
    let candidates ← run_detector ctx code detector
    let others ← run_detectors ctx rest
    pure (candidates ++ others)

/-- `now.timestamp() - self._config.max_window_seconds`, in microseconds -/
def cutoff (now : Time) (s : EfficiencyService) : Time := now - s.config.max_window_seconds * 1000000

/-- The context of a tick that has kept these events. -/
def context (now : Time) (events : List Event) (s : EfficiencyService) : DetectorContext :=
  { now, events, config := s.config, db := s.db }

def tick (detectors : List (String × Detector)) (now : Time) : Act EfficiencyService Exn (List FindingCandidate) :=
  fun s =>
    match s.events.read {} _READ_LIMIT with
    | .error e => (.error e, s)
    | .ok recent =>
      let windowed := recent.filter fun e => decide (s.cutoff now ≤ e.ts_company)
      run_detectors (s.context now windowed) detectors s

/-! ## What the board may do -/

def acknowledge (finding_id : String) : Act EfficiencyService Exn Unit := do
  let _ ← on_store (FindingStore.acknowledge finding_id)
  pure ()

def manual_close (finding_id : String) : Act EfficiencyService Exn Unit := do
  let finding ← on_store (FindingStore.close finding_id)
  if finding.status = .CLOSED then safe_emit (closed_post finding.id finding.detector_code "manual")

/-! ## What the detectors are handed -/

/-- The row is in the largest window of a detector. -/
def in_window (now : Time) (s : EfficiencyService) (e : Event) : Bool := decide (s.cutoff now ≤ e.ts_company)

/-- **A tick hands its detectors the window**: whatever the detectors are, it does what they do on exactly the events
    at or after the cutoff. -/
def Hands (now : Time) (s : EfficiencyService) : Prop :=
  ∀ detectors, tick detectors now s =
    run_detectors (s.context now (s.events.log.filter (s.in_window now))) detectors s

theorem read_all (limit : Nat) (hlimit : 0 < limit) (st : EventStore) :
    st.read {} limit = .ok (st.log.take limit) := by
  have hmatches : EventStore.ReadFilter.matches {} = fun _ => true := by
    funext e
    simp [EventStore.ReadFilter.matches]
  have hpos : ¬ (limit : Int) ≤ 0 := by omega
  rw [EventStore.read, if_neg hpos, hmatches, List.filter_true, Int.toNat_natCast]

theorem tick_eq (detectors : List (String × Detector)) (now : Time) (s : EfficiencyService) :
    tick detectors now s =
      run_detectors (s.context now ((s.events.log.take _READ_LIMIT).filter (s.in_window now))) detectors s := by
  unfold tick
  rw [read_all _READ_LIMIT (by decide)]
  rfl

/-- A detector that finds its tables only if it is handed these events. -/
def probe (expected : List Event) : Detector := fun ctx =>
  .error (if ctx.events = expected then .other "ValueError" "" else .database "no such table")

/-- A detector that raises leaves its mark on the service exactly if a table is missing. -/
theorem run_probe {ctx : DetectorContext} {code : String} {s : EfficiencyService} {expected : List Event}
    (hcode : code ∉ s.missing_table_detectors) :
    (run_detectors ctx [(code, probe expected)] s).2.missing_table_detectors = s.missing_table_detectors ↔
      ctx.events = expected := by
  have hmissing : is_missing_table (.database "no such table") = true := by decide +kernel
  by_cases hctx : ctx.events = expected
  · -- what it raises is only logged
    refine iff_of_true ?_ hctx
    have hprobe : probe expected ctx = .error (.other "ValueError" "") := by rw [probe, if_pos hctx]
    have hrun : run_detector ctx code (probe expected) s = (.ok [], s) := by
      unfold run_detector
      rw [if_neg hcode, hprobe]
      rfl
    rw [run_detectors, Act.bind_of_ok hrun]
    rfl
  · -- the missing table parks it
    refine iff_of_false ?_ hctx
    have hprobe : probe expected ctx = .error (.database "no such table") := by rw [probe, if_neg hctx]
    have hrun : run_detector ctx code (probe expected) s =
        (.ok [], { s with missing_table_detectors := s.missing_table_detectors ++ [code] }) := by
      unfold run_detector
      rw [if_neg hcode, hprobe]
      dsimp only
      unfold excepted
      rw [if_neg (by decide), if_pos hmissing]
    rw [run_detectors, Act.bind_of_ok hrun]
    show s.missing_table_detectors ++ [code] ≠ s.missing_table_detectors
    exact fun h => List.cons_ne_nil _ _ (List.append_right_eq_self.mp h)

theorem hands_iff {now : Time} {s : EfficiencyService} :
    s.Hands now ↔
      (s.events.log.take _READ_LIMIT).filter (s.in_window now) = s.events.log.filter (s.in_window now) := by
  constructor
  · intro h
    -- a code under which nothing has been parked
    obtain ⟨code, hcode⟩ := Infinite.exists_notMem_finset s.missing_table_detectors.toFinset
    rw [List.mem_toFinset] at hcode
    have hprobe := h [(code, probe (s.events.log.filter (s.in_window now)))]
    rw [tick_eq] at hprobe
    have hkept : (run_detectors (s.context now (s.events.log.filter (s.in_window now)))
        [(code, probe (s.events.log.filter (s.in_window now)))] s).2.missing_table_detectors =
        s.missing_table_detectors := (run_probe hcode).mpr rfl
    rw [← hprobe] at hkept
    exact (run_probe hcode).mp hkept
  · intro h detectors
    rw [tick_eq, h]

/-- **A tick hands its detectors the window** if and only if no row of the window lies beyond the limit. -/
theorem tick_window_iff (now : Time) (s : EfficiencyService) :
    s.Hands now ↔ ∀ e ∈ s.events.log.drop _READ_LIMIT, e.ts_company < s.cutoff now := by
  rw [hands_iff, Window.take_filter_eq_filter_iff]
  constructor
  · intro h e he
    exact Int.not_le.mp (of_decide_eq_false (h e he))
  · intro h e he
    exact decide_eq_false (Int.not_le.mpr (h e he))

/-- A call of a tool at noon. -/
def noon_row (n : Nat) : Event :=
  { id := n + 1, kind := .TOOL_CALLED
    payload := [("tool", .str "shell"), ("arguments", .obj []), ("request_id", .str "r")]
    actor_agent_id := some "agent", correlation_id := none
    ts_company := 1788350400000000, ts_real := 1788350400000000 }

/-- A service whose log has one row more than `limit`, all of them written at noon. -/
def busy (limit : Nat) : EfficiencyService :=
  { events := { EventStore.quiet with log := (List.range (limit + 1)).map noon_row }
    store :=
      { table := some [], drawn := 0, now := fun n => n, new_id := fun n => String.ofList (List.replicate n '0')
        new_id_injective := fun m n h => by
          have hlists := congrArg String.length h
          simpa using hlists }
    config := {}, db := some [], missing_table_detectors := [] }

theorem busy_drop (limit : Nat) : (busy limit).events.log.drop limit = [noon_row limit] := by
  show ((List.range (limit + 1)).map noon_row).drop limit = _
  rw [List.range_succ, List.map_append, List.drop_left' (by simp), List.map_singleton]

/-- At noon, the newest row is in the window, and no detector is handed it. -/
theorem newest_row_unseen : ¬ (busy _READ_LIMIT).Hands 1788350400000000 := by
  rw [hands_iff, Window.take_filter_eq_filter_iff]
  intro h
  have hbeyond : noon_row _READ_LIMIT ∈ (busy _READ_LIMIT).events.log.drop _READ_LIMIT := by
    rw [busy_drop]
    exact List.mem_singleton_self _
  exact absurd (h _ hbeyond) (by decide)

/-- In a log that is in order, the newest row decides. -/
theorem tick_window_ordered_iff {now : Time} {s : EfficiencyService}
    (hsorted : s.events.log.Pairwise (fun e f => e.ts_company ≤ f.ts_company)) :
    s.Hands now ↔
      s.events.log.length ≤ _READ_LIMIT ∨ ∀ e ∈ s.events.log.getLast?, e.ts_company < s.cutoff now := by
  rw [hands_iff, Window.take_filter_eq_filter_iff]
  exact Window.beyond_iff hsorted _ _

end EfficiencyService

end Efficiency

end CompanyFactory
