import CompanyFactory.Efficiency.Findings
import CompanyFactory.Efficiency.Service
import CompanyFactory.Lib.Run

/-!
# `Efficiency.Reconcile` — the open findings of a detector are its candidates

A run of the service is a list of ticks, acknowledgements and manual closes, in any order. The detectors of a tick are a
`Registry`: what they return is arbitrary, but under their own code.

What a reconciliation is for is said of the partial map of the open findings (`Reconciled`): the firing keys are seen,
the other keys of the code have no open finding, and the keys of other codes are left alone. `reconcile_spec` connects
it to the code.

* `findings_reconcile` — at most one finding of a key is open at any time, also in the middle of a tick, and after each
  reconciliation the open findings of the code are those of its candidates.
-/

namespace CompanyFactory

namespace Efficiency

/-- `R1_DETECTORS`: detectors under different codes, each of which returns candidates of its own code. -/
structure Registry where
  detectors : List (String × Detector)
  codes_nodup : (detectors.map Prod.fst).Nodup
  own : ∀ code detector, (code, detector) ∈ detectors → ∀ ctx candidates, detector ctx = .ok candidates →
    ∀ cand ∈ candidates, cand.detector_code = code

/-- A single detector. -/
def Registry.one (detector_code : String) (detector : Detector)
    (hown : ∀ ctx candidates, detector ctx = .ok candidates → ∀ cand ∈ candidates, cand.detector_code = detector_code) :
    Registry where
  detectors := [(detector_code, detector)]
  codes_nodup := List.nodup_singleton _
  own := by
    intro code d hmem ctx candidates hreturned
    cases List.mem_singleton.mp hmem
    exact hown ctx candidates hreturned

inductive EfficiencyLabel where
  | tick (registry : Registry) (now : Time)
  | acknowledge (finding_id : String)
  | manual_close (finding_id : String)

/-! ## What a reconciliation is for -/

/-- The open finding of a key, before the key was seen `n` times and after it. -/
structure Seen (n : Nat) (before after : Option Finding) : Prop where
  unseen : n = 0 → after = before
  seen : 0 < n → ∃ row, after = some row ∧ row.occurrences = before.elim 0 Finding.occurrences + n ∧
    ∀ old, before = some old → old.id = row.id

theorem Seen.none (before : Option Finding) : Seen 0 before before :=
  ⟨fun _ => rfl, fun h => absurd h (Nat.lt_irrefl 0)⟩

theorem Seen.once {before : Option Finding} {row : Finding}
    (hocc : row.occurrences = before.elim 0 Finding.occurrences + 1)
    (hid : ∀ old, before = some old → old.id = row.id) : Seen 1 before (some row) :=
  ⟨fun h => absurd h Nat.one_ne_zero, fun _ => ⟨row, rfl, hocc, hid⟩⟩

theorem Seen.trans {m n : Nat} {before mid after : Option Finding} (h : Seen m before mid) (h' : Seen n mid after) :
    Seen (m + n) before after := by
  rcases Nat.eq_zero_or_pos m with rfl | hm
  · rw [h.unseen rfl] at h'
    rwa [Nat.zero_add]
  · obtain ⟨row, rfl, hocc, hid⟩ := h.seen hm
    refine ⟨fun h0 => by omega, fun _ => ?_⟩
    rcases Nat.eq_zero_or_pos n with rfl | hn
    · exact ⟨row, h'.unseen rfl, hocc, hid⟩
    · obtain ⟨row', rfl, hocc', hid'⟩ := h'.seen hn
      refine ⟨row', rfl, ?_, fun old hold => (hid old hold).trans (hid' row rfl)⟩
      rw [hocc', Option.elim_some, hocc, Nat.add_assoc]

/-- The open findings before a reconciliation and after it: every firing key has one, the other keys of the code have
    none, and the keys of other codes are left alone. -/
structure Reconciled (detector_code : String) (firing : List FindingKey)
    (before after : FindingKey → Option Finding) : Prop where
  others : ∀ key : FindingKey, key.1 ≠ detector_code → after key = before key
  fires : ∀ key ∈ firing, Seen (firing.count key) (before key) (after key)
  resolved : ∀ key : FindingKey, key.1 = detector_code → key ∉ firing → after key = none

/-- **After a reconciliation** a key of the code has an open finding exactly if it fires. -/
theorem Reconciled.isSome_iff {detector_code : String} {firing : List FindingKey}
    {before after : FindingKey → Option Finding} (h : Reconciled detector_code firing before after)
    {key : FindingKey} (hkey : key.1 = detector_code) : (after key).isSome = true ↔ key ∈ firing := by
  constructor
  · intro hsome
    by_contra hno
    rw [h.resolved key hkey hno] at hsome
    cases hsome
  · intro hmem
    obtain ⟨row, hrow, -, -⟩ := (h.fires key hmem).seen (List.count_pos_iff.mpr hmem)
    rw [hrow]
    rfl

namespace EfficiencyService

def step (s : EfficiencyService) : EfficiencyLabel → EfficiencyService
  | .tick registry now => (tick registry.detectors now s).2
  | .acknowledge finding_id => (acknowledge finding_id s).2
  | .manual_close finding_id => (manual_close finding_id s).2

/-- The service over a new database. -/
def migrated (s : EfficiencyService) : EfficiencyService := { s with store := s.store.migrated }

/-! ## The parts of a tick -/

/-- One candidate of the first loop. -/
def upsert_one (cand : FindingCandidate) : Act EfficiencyService Exn Unit := do
  let (finding, opened) ← on_store (FindingStore.upsert_from_candidate cand)
  if opened then safe_emit (opened_post finding.id cand)

/-- One finding of the second loop. -/
def close_one (detector_code : String) (existing : Finding) : Act EfficiencyService Exn Unit := do
  let closed ← on_store (FindingStore.auto_close existing.id)
  if closed.status = .CLOSED then safe_emit (closed_post existing.id detector_code "resolved")

/-- The second loop, with the read before it. -/
def resolve (detector_code : String) (firing : List FindingKey) : Act EfficiencyService Exn Unit := do
  let existing ← on_store (FindingStore.list_open detector_code)
  close_resolved detector_code firing existing

theorem upsert_candidates_cons (detector_code : String) (cand : FindingCandidate) (rest : List FindingCandidate) :
    upsert_candidates detector_code (cand :: rest) =
      if cand.detector_code ≠ detector_code then upsert_candidates detector_code rest
      else upsert_one cand >>= fun _ => upsert_candidates detector_code rest := by
  rw [upsert_candidates]
  split
  · rfl
  · funext s
    rw [upsert_one, Act.bind_run, Act.bind_run, Act.bind_run]
    rcases on_store (FindingStore.upsert_from_candidate cand) s with ⟨_ | ⟨finding, _ | _⟩, t⟩ <;> rfl

theorem close_resolved_cons (detector_code : String) (firing : List FindingKey) (existing : Finding)
    (rest : List Finding) :
    close_resolved detector_code firing (existing :: rest) =
      if existing.key ∈ firing then close_resolved detector_code firing rest
      else close_one detector_code existing >>= fun _ => close_resolved detector_code firing rest := by
  rw [close_resolved]
  split
  · rfl
  · funext s
    rw [close_one, Act.bind_run, Act.bind_run, Act.bind_run]
    rcases on_store (FindingStore.auto_close existing.id) s with ⟨_ | closed, t⟩
    · rfl
    · dsimp only
      split <;> rfl

theorem reconcile_eq (detector_code : String) (candidates : List FindingCandidate) :
    _reconcile detector_code candidates =
      upsert_candidates detector_code candidates >>= fun _ =>
        resolve detector_code (firing_keys detector_code candidates) := rfl

/-! ## The rule for a tick -/

section Rule

variable {R : EfficiencyService → EfficiencyService → Prop} (hrefl : ∀ s, R s s)
  (htrans : ∀ s t u, R s t → R t u → R s u)

include hrefl htrans

theorem upsert_candidates_moves (hupsert : ∀ cand, Act.Moves R (upsert_one cand)) (detector_code : String)
    (candidates : List FindingCandidate) : Act.Moves R (upsert_candidates detector_code candidates) := by
  induction candidates with
  | nil => exact Act.Moves.pure hrefl ()
  | cons cand rest ih =>
      rw [upsert_candidates_cons]
      exact Act.Moves.ite ih (Act.Moves.bind htrans (hupsert cand) fun _ => ih)

theorem close_resolved_moves (hclose : ∀ detector_code existing, Act.Moves R (close_one detector_code existing))
    (detector_code : String) (firing : List FindingKey) (existing : List Finding) :
    Act.Moves R (close_resolved detector_code firing existing) := by
  induction existing with
  | nil => exact Act.Moves.pure hrefl ()
  | cons row rest ih =>
      rw [close_resolved_cons]
      exact Act.Moves.ite ih (Act.Moves.bind htrans (hclose detector_code row) fun _ => ih)

variable (hupsert : ∀ cand, Act.Moves R (upsert_one cand))
  (hresolve : ∀ detector_code firing, Act.Moves R (resolve detector_code firing))

include hupsert hresolve

theorem reconcile_moves (detector_code : String) (candidates : List FindingCandidate) :
    Act.Moves R (_reconcile detector_code candidates) :=
  Act.Moves.bind htrans (upsert_candidates_moves hrefl htrans hupsert detector_code candidates) fun _ =>
    hresolve detector_code _

variable (hpark : ∀ code s, R s { s with missing_table_detectors := s.missing_table_detectors ++ [code] })

include hpark

omit htrans hupsert hresolve in
theorem excepted_moves (code : String) (e : Exn) : Act.Moves R (excepted code e) := by
  intro s
  unfold excepted
  split
  · exact hrefl s
  · split
    · exact hpark code s
    · exact hrefl s

theorem run_detector_moves (ctx : DetectorContext) (code : String) (detector : Detector) :
    Act.Moves R (run_detector ctx code detector) := by
  intro s
  unfold run_detector
  split
  · exact hrefl s
  · cases detector ctx with
    | error e => exact excepted_moves hrefl hpark code e s
    | ok candidates =>
        have hmoves := reconcile_moves hrefl htrans hupsert hresolve code candidates s
        rcases hrun : _reconcile code candidates s with ⟨e | _, t⟩
        · rw [hrun] at hmoves
          simp only [hrun]
          exact htrans s t _ hmoves (excepted_moves hrefl hpark code e t)
        · rw [hrun] at hmoves
          simp only [hrun]
          exact hmoves

theorem run_detectors_moves (ctx : DetectorContext) (detectors : List (String × Detector)) :
    Act.Moves R (run_detectors ctx detectors) := by
  induction detectors with
  | nil => exact Act.Moves.pure hrefl []
  | cons d rest ih =>
      exact Act.Moves.bind htrans (run_detector_moves hrefl htrans hupsert hresolve hpark ctx d.1 d.2) fun _ =>
        Act.Moves.bind htrans ih fun _ => Act.Moves.pure hrefl _

/-- **The rule for a tick**: what its upserts, its closes and the parking of a detector keep, it keeps. -/
theorem tick_moves (detectors : List (String × Detector)) (now : Time) : Act.Moves R (tick detectors now) := by
  intro s
  rw [tick_eq]
  exact run_detectors_moves hrefl htrans hupsert hresolve hpark _ detectors s

end Rule

/-! ## Sound rows -/

def rows (s : EfficiencyService) : List Finding := s.store.table.getD []

/-- The open finding of a key. -/
def open_finding (s : EfficiencyService) (key : FindingKey) : Option Finding := open_row s.rows key

def Sound (s : EfficiencyService) : Prop := s.store.Sound s.rows

theorem rows_eq {s : EfficiencyService} {rows : List Finding} (h : s.store.Sound rows) : s.rows = rows := by
  rw [EfficiencyService.rows, h.table, Option.getD_some]

theorem sound_of {s : EfficiencyService} {rows : List Finding} (h : s.store.Sound rows) : s.Sound := by
  rw [Sound, rows_eq h]
  exact h

theorem migrated_sound (s : EfficiencyService) : s.migrated.Sound := sound_of s.store.migrated_sound

theorem on_store_ok {α : Type} {m : Act FindingStore Exn α} {s : EfficiencyService} {a : α} {store : FindingStore}
    (h : m s.store = (.ok a, store)) : on_store m s = (.ok a, { s with store }) := by
  rw [on_store, Act.on_run, h]

theorem on_store_error {α : Type} {m : Act FindingStore Exn α} {s : EfficiencyService} {e : Exn}
    (h : m s.store = (.error e, s.store)) : on_store m s = (.error e, s) := by
  rw [on_store, Act.on_run, h]

/-- **What one candidate does**: its open finding is seen again, or there is none and one is opened. -/
theorem upsert_one_cases {s : EfficiencyService} (hs : s.Sound) (cand : FindingCandidate) :
    (∃ row now t, s.open_finding cand.key = some row ∧ upsert_one cand s = (.ok (), t) ∧
      t.store.Sound (Table.update Finding.id row.id (FindingStore.seen_again cand now) s.rows) ∧
      t.events = s.events) ∨
    (∃ id now t, s.open_finding cand.key = none ∧ Table.find Finding.id s.rows id = none ∧
      upsert_one cand s = (.ok (), t) ∧ t.store.Sound (s.rows ++ [FindingStore.opened_row cand id now]) ∧
      t.events = (EventStore.append (opened_post id cand) s.events).2) := by
  obtain ⟨row, now, store, hrow, hrun, hsound⟩ | ⟨id, now, store, hnone, hfresh, hrun, hsound⟩ :=
    FindingStore.upsert_from_candidate_spec hs cand
  · exact .inl ⟨row, now, _, hrow, Act.bind_of_ok (on_store_ok hrun), hsound, rfl⟩
  · exact .inr ⟨id, now, _, hnone, hfresh, Act.bind_of_ok (on_store_ok hrun), hsound, rfl⟩

/-- **What a close does to an open finding**, and that it is reported. -/
theorem close_one_of_open {s : EfficiencyService} (hs : s.Sound) {row : Finding}
    (hrow : s.open_finding row.key = some row) (detector_code : String) :
    ∃ now t, close_one detector_code row s = (.ok (), t) ∧
      t.store.Sound (Table.update Finding.id row.id (closed_row now) s.rows) ∧
      t.events = (EventStore.append (closed_post row.id detector_code "resolved") s.events).2 ∧
      ∀ key, t.open_finding key = if row.key = key then none else s.open_finding key := by
  obtain ⟨hfind, hopen⟩ := Live.row_of_current hs.unique hrow
  obtain ⟨hnone, -⟩ | ⟨row', hfind', hclosed, -⟩ | ⟨row', now, store, -, -, hrun, hsound⟩ :=
    FindingStore.close_finding_spec hs row.id
  · rw [hfind] at hnone
    cases hnone
  · rw [hfind] at hfind'
    cases hfind'
    exact absurd hclosed (is_open_iff.mp hopen)
  · refine ⟨now, _, Act.bind_of_ok (on_store_ok hrun), hsound, rfl, fun key => ?_⟩
    have hupdate := Live.current_update (f := closed_row now) hs.unique hfind (fun _ => rfl) rfl hopen key
    rw [closed_row_open, if_neg Bool.false_ne_true] at hupdate
    rw [open_finding, rows_eq hsound]
    exact hupdate

/-! ## Rows stay -/

/-- Sound rows stay sound, and every finding stays, under its key. -/
def Grows (s t : EfficiencyService) : Prop :=
  s.Sound → t.Sound ∧ Live.Kept Finding.id Finding.key Finding.is_open s.rows t.rows

theorem Grows.refl (s : EfficiencyService) : Grows s s := fun hs => ⟨hs, Live.Kept.refl _⟩

theorem Grows.trans (s t u : EfficiencyService) (h : Grows s t) (h' : Grows t u) : Grows s u := by
  intro hs
  obtain ⟨ht, hkept⟩ := h hs
  obtain ⟨hu, hkept'⟩ := h' ht
  exact ⟨hu, hkept.trans hkept'⟩

/-- A store that has rewritten one open row. -/
theorem grows_update {s t : EfficiencyService} {finding_id : String} {row : Finding} {f : Finding → Finding}
    (hsound : t.store.Sound (Table.update Finding.id finding_id f s.rows))
    (hfind : Table.find Finding.id s.rows finding_id = some row) (hid : ∀ row, (f row).id = row.id)
    (hkey : (f row).key = row.key) (hopen : row.is_open = true) :
    t.Sound ∧ Live.Kept Finding.id Finding.key Finding.is_open s.rows t.rows := by
  rw [rows_eq hsound]
  exact ⟨sound_of hsound, Live.Kept.update hfind hid hkey hopen⟩

/-- A store that has one row more. -/
theorem grows_insert {s t : EfficiencyService} {row : Finding} (hsound : t.store.Sound (s.rows ++ [row])) :
    t.Sound ∧ Live.Kept Finding.id Finding.key Finding.is_open s.rows t.rows := by
  rw [rows_eq hsound]
  exact ⟨sound_of hsound, Live.Kept.insert row⟩

theorem upsert_one_grows (cand : FindingCandidate) : Act.Moves Grows (upsert_one cand) := by
  intro s hs
  obtain ⟨row, now, t, hrow, hrun, hsound, -⟩ | ⟨id, now, t, -, -, hrun, hsound, -⟩ := upsert_one_cases hs cand
  · obtain ⟨hfind, hopen⟩ := Live.row_of_current hs.unique hrow
    rw [hrun]
    exact grows_update hsound hfind (fun _ => rfl) rfl hopen
  · rw [hrun]
    exact grows_insert hsound

/-- A close of either kind, with what is reported after it. -/
theorem close_grows (finding_id : String) {report : Finding → Act EfficiencyService Exn Unit}
    (hreport : ∀ finding s, (report finding s).2.store = s.store) :
    Act.Moves Grows (on_store (FindingStore.close_finding finding_id) >>= report) := by
  intro s hs
  obtain ⟨-, e, hrun⟩ | ⟨row, -, -, hrun⟩ | ⟨row, now, store, hfind, hopen, hrun, hsound⟩ :=
    FindingStore.close_finding_spec hs finding_id
  · rw [Act.bind_of_error (on_store_error hrun)]
    exact Grows.refl s hs
  · rw [Act.bind_of_ok (on_store_ok hrun)]
    have hstore := hreport row { s with store := s.store }
    refine Grows.refl s hs |>.imp (fun _ => ?_) fun _ => ?_
    · rw [Sound, EfficiencyService.rows, hstore]
      exact hs
    · rw [EfficiencyService.rows, EfficiencyService.rows, hstore]
      exact Live.Kept.refl _
  · rw [Act.bind_of_ok (on_store_ok hrun)]
    have hstore := hreport (closed_row now row) { s with store }
    refine grows_update (f := closed_row now) ?_ hfind (fun _ => rfl) rfl hopen
    rw [hstore]
    exact hsound

theorem report_store (c : Prop) [Decidable c] (post : Post) (s : EfficiencyService) :
    ((if c then safe_emit post else pure ()) s).2.store = s.store := by
  split <;> rfl

theorem close_one_grows (detector_code : String) (existing : Finding) :
    Act.Moves Grows (close_one detector_code existing) :=
  close_grows existing.id fun _ _ => report_store _ _ _

theorem manual_close_grows (finding_id : String) : Act.Moves Grows (manual_close finding_id) :=
  close_grows finding_id fun _ _ => report_store _ _ _

theorem acknowledge_grows (finding_id : String) : Act.Moves Grows (acknowledge finding_id) := by
  intro s hs
  obtain ⟨e, hrun⟩ | ⟨row, store, hfind, hopen, hrun, hsound⟩ := FindingStore.acknowledge_spec hs finding_id
  · rw [acknowledge, Act.bind_of_error (on_store_error hrun)]
    exact Grows.refl s hs
  · rw [acknowledge, Act.bind_of_ok (on_store_ok hrun)]
    exact grows_update hsound hfind (fun _ => rfl) rfl hopen

theorem resolve_grows (detector_code : String) (firing : List FindingKey) :
    Act.Moves Grows (resolve detector_code firing) := by
  intro s hs
  obtain ⟨existing, hrun, -, -⟩ := FindingStore.list_open_spec hs detector_code
  rw [resolve, Act.bind_of_ok (on_store_ok hrun)]
  exact close_resolved_moves Grows.refl Grows.trans close_one_grows detector_code firing existing s hs

theorem tick_grows (detectors : List (String × Detector)) (now : Time) : Act.Moves Grows (tick detectors now) :=
  tick_moves Grows.refl Grows.trans upsert_one_grows resolve_grows (fun _ => Grows.refl) detectors now

theorem step_grows (s : EfficiencyService) (label : EfficiencyLabel) : Grows s (s.step label) := by
  cases label with
  | tick registry now => exact tick_grows registry.detectors now s
  | acknowledge finding_id => exact acknowledge_grows finding_id s
  | manual_close finding_id => exact manual_close_grows finding_id s

/-- **In every run** the rows are sound. -/
theorem run_sound (s : EfficiencyService) (labels : List EfficiencyLabel) :
    (Machine.exec step s.migrated labels).Sound :=
  Machine.exec_invariant (fun s label hs => (step_grows s label hs).1) s.migrated_sound labels

/-! ## The first loop -/

theorem mem_firing_keys {detector_code : String} {candidates : List FindingCandidate} {key : FindingKey} :
    key ∈ firing_keys detector_code candidates ↔
      ∃ cand ∈ candidates, cand.detector_code = detector_code ∧ cand.key = key := by
  unfold firing_keys
  rw [List.mem_map]
  constructor
  · rintro ⟨cand, hmem, hkey⟩
    rw [List.mem_filter, decide_eq_true_iff] at hmem
    exact ⟨cand, hmem.1, hmem.2, hkey⟩
  · rintro ⟨cand, hmem, hcode, hkey⟩
    exact ⟨cand, List.mem_filter.mpr ⟨hmem, decide_eq_true hcode⟩, hkey⟩

theorem fst_of_firing {detector_code : String} {candidates : List FindingCandidate} {key : FindingKey}
    (h : key ∈ firing_keys detector_code candidates) : key.1 = detector_code := by
  obtain ⟨cand, -, hcode, rfl⟩ := mem_firing_keys.mp h
  exact hcode

/-- Candidates of the code alone: all their keys fire. -/
theorem firing_keys_own {detector_code : String} {candidates : List FindingCandidate}
    (hown : ∀ cand ∈ candidates, cand.detector_code = detector_code) :
    firing_keys detector_code candidates = candidates.map FindingCandidate.key := by
  unfold firing_keys
  rw [List.filter_eq_self.mpr fun cand hmem => decide_eq_true (hown cand hmem)]

/-- A candidate is seen once, at its key. -/
theorem upsert_one_seen {s : EfficiencyService} (hs : s.Sound) (cand : FindingCandidate) :
    ∃ t, upsert_one cand s = (.ok (), t) ∧ t.Sound ∧
      ∀ key, Seen (if cand.key = key then 1 else 0) (s.open_finding key) (t.open_finding key) := by
  obtain ⟨row, now, t, hrow, hrun, hsound, -⟩ | ⟨id, now, t, hnone, -, hrun, hsound, -⟩ := upsert_one_cases hs cand
  · obtain ⟨hfind, hopen⟩ := Live.row_of_current hs.unique hrow
    have hrowkey := (Live.current_some hrow).2.1
    refine ⟨t, hrun, sound_of hsound, fun key => ?_⟩
    have hafter := Live.current_update (f := FindingStore.seen_again cand now) hs.unique hfind (fun _ => rfl) rfl
      hopen key
    rw [hrowkey, seen_again_open, if_pos hopen] at hafter
    rw [open_finding, open_finding, rows_eq hsound, open_row, open_row, hafter]
    by_cases hkey : cand.key = key
    · subst hkey
      have hbefore : Live.current Finding.key Finding.is_open s.rows cand.key = some row := hrow
      rw [if_pos rfl, if_pos rfl, hbefore]
      refine Seen.once rfl fun old hold => ?_
      cases hold
      rfl
    · rw [if_neg hkey, if_neg hkey]
      exact Seen.none _
  · refine ⟨t, hrun, sound_of hsound, fun key => ?_⟩
    have hnew : Live.current Finding.key Finding.is_open s.rows (FindingStore.opened_row cand id now).key = none := hnone
    have hafter := Live.current_insert (opened_row_open cand id now) hnew key
    rw [opened_row_key] at hafter hnew
    rw [open_finding, open_finding, rows_eq hsound, open_row, open_row, hafter]
    by_cases hkey : cand.key = key
    · subst hkey
      rw [if_pos rfl, if_pos rfl, hnew]
      refine Seen.once rfl fun old hold => ?_
      cases hold
    · rw [if_neg hkey, if_neg hkey]
      exact Seen.none _

/-- **The first loop** sees every key as often as it fires. -/
theorem upsert_candidates_seen (detector_code : String) (candidates : List FindingCandidate) :
    ∀ s : EfficiencyService, s.Sound → ∃ t, upsert_candidates detector_code candidates s = (.ok (), t) ∧ t.Sound ∧
      ∀ key, Seen ((firing_keys detector_code candidates).count key) (s.open_finding key) (t.open_finding key) := by
  induction candidates with
  | nil =>
      intro s hs
      exact ⟨s, rfl, hs, fun _ => Seen.none _⟩
  | cons cand rest ih =>
      intro s hs
      rw [upsert_candidates_cons]
      unfold firing_keys at ih ⊢
      by_cases hcode : cand.detector_code = detector_code
      · rw [if_neg (not_not.mpr hcode), List.filter_cons_of_pos (by simpa using hcode), List.map_cons]
        obtain ⟨t, hrun, ht, hseen⟩ := upsert_one_seen hs cand
        obtain ⟨u, hrest, hu, hseen'⟩ := ih t ht
        refine ⟨u, by rw [Act.bind_of_ok hrun, hrest], hu, fun key => ?_⟩
        have hboth := (hseen key).trans (hseen' key)
        rw [List.count_cons, Nat.add_comm]
        simpa only [beq_iff_eq] using hboth
      · rw [if_pos hcode, List.filter_cons_of_neg (by simpa using hcode)]
        exact ih s hs

/-! ## The second loop -/

/-- **The second loop** closes the findings of its list that do not fire, if they are open and of different keys. -/
theorem close_resolved_spec (detector_code : String) (firing : List FindingKey) (existing : List Finding) :
    ∀ s : EfficiencyService, s.Sound → (∀ row ∈ existing, s.open_finding row.key = some row) →
      (existing.map Finding.key).Nodup → ∃ t, close_resolved detector_code firing existing s = (.ok (), t) ∧
        t.Sound ∧ ∀ key, t.open_finding key =
          if key ∈ existing.map Finding.key ∧ key ∉ firing then none else s.open_finding key := by
  induction existing with
  | nil =>
      intro s hs _ _
      exact ⟨s, rfl, hs, fun key => by rw [if_neg]; exact fun h => List.not_mem_nil h.1⟩
  | cons row rest ih =>
      intro s hs hopen hkeys
      rw [List.map_cons, List.nodup_cons] at hkeys
      have hrow := hopen row List.mem_cons_self
      have hothers : ∀ other ∈ rest, s.open_finding other.key = some other :=
        fun other hmem => hopen other (List.mem_cons_of_mem _ hmem)
      rw [close_resolved_cons, List.map_cons]
      by_cases hfiring : row.key ∈ firing
      · -- it fires, and stays open
        rw [if_pos hfiring]
        obtain ⟨t, hrun, ht, hafter⟩ := ih s hs hothers hkeys.2
        refine ⟨t, hrun, ht, fun key => ?_⟩
        rw [hafter key]
        by_cases hkey : key = row.key
        · subst hkey
          rw [if_neg (fun h => h.2 hfiring), if_neg (fun h => h.2 hfiring)]
        · simp only [List.mem_cons, hkey, false_or]
      · rw [if_neg hfiring]
        obtain ⟨now, u, hclose, hsound, -, hafter⟩ := close_one_of_open hs hrow detector_code
        rw [Act.bind_of_ok hclose]
        obtain ⟨t, hrun, ht, hrest⟩ := ih u (sound_of hsound) (fun other hother => by
          have hne : row.key ≠ other.key := fun heq => hkeys.1 (heq ▸ List.mem_map_of_mem hother)
          rw [hafter, if_neg hne]
          exact hothers other hother) hkeys.2
        refine ⟨t, hrun, ht, fun key => ?_⟩
        rw [hrest key, hafter key]
        by_cases hkey : key = row.key
        · subst hkey
          rw [if_pos rfl, ite_self, if_pos ⟨List.mem_cons_self, hfiring⟩]
        · rw [if_neg (Ne.symm hkey)]
          simp only [List.mem_cons, hkey, false_or]

/-- **A reconciliation does what it is for.** -/
theorem reconcile_spec {s : EfficiencyService} (hs : s.Sound) (detector_code : String)
    (candidates : List FindingCandidate) :
    ∃ t, _reconcile detector_code candidates s = (.ok (), t) ∧ t.Sound ∧
      Reconciled detector_code (firing_keys detector_code candidates) s.open_finding t.open_finding := by
  obtain ⟨u, hupsert, hu, hseen⟩ := upsert_candidates_seen detector_code candidates s hs
  obtain ⟨existing, hlist, hmem, hkeys⟩ := FindingStore.list_open_spec hu detector_code
  have hopen : ∀ row ∈ existing, u.open_finding row.key = some row := fun row hrow =>
    (Live.current_eq_some hu.unique).mpr ⟨((hmem row).mp hrow).1, rfl, ((hmem row).mp hrow).2.2⟩
  obtain ⟨t, hclose, ht, hafter⟩ :=
    close_resolved_spec detector_code (firing_keys detector_code candidates) existing u hu hopen hkeys
  refine ⟨t, ?_, ht, fun key hkey => ?_, fun key hkey => ?_, fun key hkey hno => ?_⟩
  · rw [reconcile_eq, Act.bind_of_ok hupsert, resolve, Act.bind_of_ok (on_store_ok hlist)]
    exact hclose
  · have hcount : (firing_keys detector_code candidates).count key = 0 :=
      List.count_eq_zero.mpr fun h => hkey (fst_of_firing h)
    have hnot : key ∉ existing.map Finding.key := by
      intro h
      obtain ⟨row, hrow, rfl⟩ := List.mem_map.mp h
      exact hkey ((hmem row).mp hrow).2.1
    rw [hafter key, if_neg fun h => hnot h.1]
    exact (hseen key).unseen hcount
  · rw [hafter key, if_neg fun h => h.2 hkey]
    exact hseen key
  · rw [hafter key]
    cases hrow : u.open_finding key with
    | none => rw [ite_self]
    | some row =>
        obtain ⟨hrowmem, rfl, hlive⟩ := Live.current_some hrow
        exact if_pos ⟨List.mem_map_of_mem ((hmem row).mpr ⟨hrowmem, hkey, hlive⟩), hno⟩

/-! ## In every run -/

/-- At most one finding of a key is open or acknowledged. -/
def OneOpen (s : EfficiencyService) : Prop :=
  ∀ key : FindingKey, (s.rows.filter fun row => decide (row.key = key) && row.is_open).length ≤ 1

/-- The keys of the open or acknowledged findings of a detector. -/
def open_keys (s : EfficiencyService) (detector_code : String) : List FindingKey :=
  (s.rows.filter fun row => decide (row.detector_code = detector_code) && row.is_open).map Finding.key

/-- What a tick hands its detectors. -/
def tick_context (now : Time) (s : EfficiencyService) : DetectorContext :=
  s.context now ((s.events.log.take _READ_LIMIT).filter (s.in_window now))

/-- In a tick from `s`, the detector of the code is run in the state `u`, and it returns the candidates. -/
def Round (registry : Registry) (now : Time) (detector_code : String) (candidates : List FindingCandidate)
    (s u : EfficiencyService) : Prop :=
  ∃ done detector todo others, registry.detectors = done ++ (detector_code, detector) :: todo ∧
    run_detectors (s.tick_context now) done s = (.ok others, u) ∧ detector_code ∉ u.missing_table_detectors ∧
    detector (s.tick_context now) = .ok candidates

/-- The states that a reconciliation from `s` passes through. -/
inductive Midway (detector_code : String) (candidates : List FindingCandidate) (s : EfficiencyService) :
    EfficiencyService → Prop where
  | upserting (done todo : List FindingCandidate) (h : candidates = done ++ todo) :
      Midway detector_code candidates s (upsert_candidates detector_code done s).2
  | closing (done todo : List Finding) (t u : EfficiencyService)
      (hupsert : upsert_candidates detector_code candidates s = (.ok (), t))
      (hlist : on_store (FindingStore.list_open detector_code) t = (.ok (done ++ todo), u)) :
      Midway detector_code candidates s (close_resolved detector_code (firing_keys detector_code candidates) done u).2

theorem Sound.one_open {s : EfficiencyService} (hs : s.Sound) : s.OneOpen := fun key => hs.unique.length_le_one key

theorem mem_open_keys {s : EfficiencyService} (hs : s.Sound) {detector_code : String} {key : FindingKey} :
    key ∈ s.open_keys detector_code ↔ key.1 = detector_code ∧ (s.open_finding key).isSome = true := by
  unfold open_keys
  rw [List.mem_map, Option.isSome_iff_exists]
  constructor
  · rintro ⟨row, hrow, rfl⟩
    rw [List.mem_filter, Bool.and_eq_true, decide_eq_true_iff] at hrow
    exact ⟨hrow.2.1, row, (Live.current_eq_some hs.unique).mpr ⟨hrow.1, rfl, hrow.2.2⟩⟩
  · rintro ⟨hcode, row, hrow⟩
    obtain ⟨hmem, rfl, hopen⟩ := Live.current_some hrow
    refine ⟨row, List.mem_filter.mpr ⟨hmem, ?_⟩, rfl⟩
    rw [Bool.and_eq_true, decide_eq_true_iff]
    exact ⟨hcode, hopen⟩

theorem midway_sound {s t : EfficiencyService} (hs : s.Sound) {detector_code : String}
    {candidates : List FindingCandidate} (h : Midway detector_code candidates s t) : t.Sound := by
  have hupserts := fun done => upsert_candidates_moves Grows.refl Grows.trans upsert_one_grows detector_code done s hs
  cases h with
  | upserting done todo => exact (hupserts done).1
  | closing done todo t u hupsert hlist =>
      have ht := (hupserts candidates).1
      rw [hupsert] at ht
      obtain ⟨existing, hopen, -, -⟩ := FindingStore.list_open_spec ht detector_code
      rw [on_store_ok hopen] at hlist
      cases hlist
      exact (close_resolved_moves Grows.refl Grows.trans close_one_grows detector_code _ done t ht).1

/-- **Findings reconcile.** After any ticks, acknowledgements and manual closes, at most one finding of a key is open or
    acknowledged. In the tick that follows, this is so in every state that a reconciliation passes through; it returns,
    and leaves open or acknowledged findings of its code for exactly the keys of its candidates. -/
theorem findings_reconcile (s : EfficiencyService) (labels : List EfficiencyLabel) :
    (Machine.exec step s.migrated labels).OneOpen ∧
      ∀ registry now detector_code candidates u,
        Round registry now detector_code candidates (Machine.exec step s.migrated labels) u →
        (∀ t, Midway detector_code candidates u t → t.OneOpen) ∧
        ∃ t, _reconcile detector_code candidates u = (.ok (), t) ∧ t.OneOpen ∧
          ∀ key, key ∈ t.open_keys detector_code ↔ key ∈ candidates.map FindingCandidate.key := by
  have hs := run_sound s labels
  refine ⟨hs.one_open, ?_⟩
  rintro registry now detector_code candidates u ⟨done, detector, todo, others, hsplit, hrun, -, hdetector⟩
  have hu : u.Sound := by
    have hgrows := run_detectors_moves Grows.refl Grows.trans upsert_one_grows resolve_grows (fun _ => Grows.refl)
      ((Machine.exec step s.migrated labels).tick_context now) done _ hs
    rw [hrun] at hgrows
    exact hgrows.1
  refine ⟨fun t ht => (midway_sound hu ht).one_open, ?_⟩
  obtain ⟨t, hreconcile, ht, hspec⟩ := reconcile_spec hu detector_code candidates
  have hown := registry.own detector_code detector (by rw [hsplit]; simp) _ candidates hdetector
  rw [firing_keys_own hown] at hspec
  refine ⟨t, hreconcile, ht.one_open, fun key => ?_⟩
  rw [mem_open_keys ht]
  constructor
  · rintro ⟨hcode, hsome⟩
    exact (hspec.isSome_iff hcode).mp hsome
  · intro hmem
    obtain ⟨cand, hcand, hkey⟩ := List.mem_map.mp hmem
    have hcode : key.1 = detector_code := by
      rw [← hkey]
      exact hown cand hcand
    exact ⟨hcode, (hspec.isSome_iff hcode).mpr hmem⟩

def tool_repeat : FindingCandidate :=
  { detector_code := "loop.tool_repeat", severity := .WARN, subject_type := .AGENT, subject_id := some "agent" }

/-- A detector that returns one candidate, whatever it is given. -/
def repeating : Registry :=
  .one "loop.tool_repeat" (fun _ => .ok [tool_repeat]) fun _ _ hreturned => by
    cases hreturned
    decide

/-- The first candidate of a new service. -/
theorem findings_reconcile_first :
    ∃ t, _reconcile "loop.tool_repeat" [tool_repeat] (busy 0).migrated = (.ok (), t) ∧ t.OneOpen ∧
      ∀ key, key ∈ t.open_keys "loop.tool_repeat" ↔ key ∈ [tool_repeat].map FindingCandidate.key :=
  ((findings_reconcile (busy 0) []).2 repeating 0 "loop.tool_repeat" [tool_repeat] (busy 0).migrated
    ⟨[], fun _ => .ok [tool_repeat], [], [], rfl, rfl, List.not_mem_nil, rfl⟩).2

end EfficiencyService

end Efficiency

end CompanyFactory
