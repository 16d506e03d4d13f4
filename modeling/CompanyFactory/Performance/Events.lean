import CompanyFactory.EventStore.Feed
import CompanyFactory.Lib.Paging

/-!
# `Performance.Events` — reading the whole log

A performance report reads all events, in batches of 1000. Each batch starts past the last id of the one before, and
a batch that is not full ends the loop.

`read` sorts the rows by their ids. A log that only `append` has written is sorted already, and has the ids 1, 2, 3 and
so on (`Numbered`); of a table the schema only says that its ids are positive and different (`Keyed`). There may be gaps
between them, and the rows may lie in any order (`select`).

* `select_eq_read` — on a sorted log, `select` is `read`.
* `read_all_events_complete` — **every event once, in the order of the ids**, whatever the length of the log and the gaps
  between its ids.
* `read_all_events_snapshot` — with events appended between the batches, it is the log as one of the batches found it.
-/

namespace CompanyFactory

namespace EventStore

/-- `ORDER BY id ASC` -/
def by_id (events : List Event) : List Event := events.mergeSort fun x y => decide (x.id ≤ y.id)

/-- `read` of a table. -/
def select (filter : ReadFilter) (limit : Int) (st : EventStore) : Except Exn (List Event) :=
  if limit ≤ 0 then .error (.valueError "limit must be positive")
  else .ok ((by_id (st.log.filter filter.matches)).take limit.toNat)

/-- `id INTEGER PRIMARY KEY AUTOINCREMENT` -/
structure Keyed (st : EventStore) : Prop where
  distinct : (st.log.map Event.id).Nodup
  positive : ∀ e ∈ st.log, 0 < e.id

theorem by_id_perm (events : List Event) : (by_id events).Perm events := List.mergeSort_perm events _

theorem by_id_sorted {events : List Event} (h : (events.map Event.id).Nodup) :
    (by_id events).Pairwise fun x y => x.id < y.id := by
  have hle : (by_id events).Pairwise fun x y => decide (x.id ≤ y.id) = true :=
    List.pairwise_mergeSort (fun _ _ _ => by simpa using Nat.le_trans) (fun x y => by simpa using Nat.le_total x.id y.id)
      events
  have hne : (by_id events).Pairwise fun x y => x.id ≠ y.id :=
    List.pairwise_map.mp (((by_id_perm events).map Event.id).nodup_iff.mpr h)
  exact hle.imp₂ (fun _ _ hxy => Nat.lt_of_le_of_ne (of_decide_eq_true hxy)) hne

/-- There is one way to sort rows with different ids. -/
theorem eq_of_sorted {events events' : List Event} (hperm : events.Perm events')
    (h : events.Pairwise fun x y => x.id < y.id) (h' : events'.Pairwise fun x y => x.id < y.id) : events = events' :=
  List.Perm.eq_of_pairwise (fun _ _ _ _ hab hba => absurd hab (Nat.lt_asymm hba)) h h' hperm

theorem by_id_filter {events : List Event} (h : (events.map Event.id).Nodup) (p : Event → Bool) :
    by_id (events.filter p) = (by_id events).filter p := by
  have hpart : ((events.filter p).map Event.id).Nodup := h.sublist (List.filter_sublist.map Event.id)
  refine eq_of_sorted ?_ (by_id_sorted hpart) ((by_id_sorted h).filter p)
  exact (by_id_perm _).trans ((by_id_perm events).filter p).symm

/-- A log in the order of the ids needs no sorting. -/
theorem select_eq_read {st : EventStore} (h : st.log.Pairwise fun x y => x.id < y.id) (filter : ReadFilter)
    (limit : Int) : st.select filter limit = st.read filter limit := by
  have hpart := h.filter filter.matches
  have hids : ((st.log.filter filter.matches).map Event.id).Nodup :=
    List.pairwise_map.mpr (hpart.imp Nat.ne_of_lt)
  rw [select, read, eq_of_sorted (by_id_perm _) (by_id_sorted hids) hpart]

theorem Numbered.keyed {st : EventStore} (h : st.Numbered) : st.Keyed where
  distinct := by
    rw [show st.log.map Event.id = _ from h]
    exact List.nodup_range'
  positive := by
    intro e he
    have hid : e.id ∈ st.log.map Event.id := List.mem_map_of_mem he
    rw [show st.log.map Event.id = _ from h, List.mem_range'_1] at hid
    exact hid.1

end EventStore

namespace Performance

open EventStore

def _READ_BATCH_SIZE : Nat := 1000

/-- At most so many rounds of the loop; the `k`-th batch is read from the store as it is then. `none` while the loop has
    not ended. -/
def read_batches (stores : Nat → EventStore) : Nat → Nat → Int → List Event → Option (Except Exn (List Event))
  | 0, _, _, _ => none
  | rounds + 1, k, since, out =>
    match (stores k).select { since := some since } _READ_BATCH_SIZE with
    | .error e => some (.error e)
    | .ok batch =>
      match batch.getLast? with
      | none => some (.ok out)
      | some last =>
        if batch.length < _READ_BATCH_SIZE then some (.ok (out ++ batch))
        else read_batches stores rounds (k + 1) last.id (out ++ batch)

def read_all_events (stores : Nat → EventStore) (rounds : Nat) : Option (Except Exn (List Event)) :=
  read_batches stores rounds 0 0 []

/-! ## The batches are pages -/

/-- The key that the cursor is compared with. -/
def key (e : Event) : Int := e.id

theorem select_page {st : EventStore} (h : st.Keyed) (since : Int) :
    st.select { since := some since } _READ_BATCH_SIZE = .ok (Paging.page key _READ_BATCH_SIZE (by_id st.log) since) := by
  have hmatches : ReadFilter.matches { since := some since } = fun e => decide (since < key e) := by
    funext e
    simp only [ReadFilter.matches, Option.all_some, Option.all_none, List.isEmpty_nil, Bool.true_or, Bool.and_true]
    exact decide_eq_decide.mpr Iff.rfl
  rw [select, hmatches, by_id_filter h.distinct]
  rfl

theorem read_batches_eq {stores : Nat → EventStore} (h : ∀ k, (stores k).Keyed) (rounds k : Nat) (since : Int)
    (out : List Event) : read_batches stores rounds k since out =
      (Paging.collect key _READ_BATCH_SIZE (fun k => by_id (stores k).log) rounds k since out).map .ok := by
  induction rounds generalizing k since out with
  | zero => rfl
  | succ rounds ih =>
    rw [read_batches, Paging.collect, select_page (h k)]
    dsimp only
    cases (Paging.page key _READ_BATCH_SIZE (by_id (stores k).log) since).getLast? with
    | none => rfl
    | some last =>
      dsimp only
      split
      · rfl
      · exact ih _ _ _

theorem sorted_by_id {st : EventStore} (h : st.Keyed) : Paging.Sorted key (by_id st.log) :=
  (by_id_sorted h.distinct).imp Int.ofNat_lt.mpr

/-- Every id is past the first cursor. -/
theorem between_start {st : EventStore} (h : st.Keyed) : Paging.Between key 0 [] (by_id st.log) where
  read := by
    intro e he
    cases he
  unread := fun e he => Int.natCast_pos.mpr (h.positive e ((by_id_perm st.log).mem_iff.mp he))

/-- **Paging the log**: the loop ends after one round more than there are full batches. It returns every event once, in
    the order of the ids, and so does one read without a bound. -/
theorem read_all_events_complete (st : EventStore) (h : st.Keyed) :
    ∃ events, events.Perm st.log ∧ events.Pairwise (fun x y => x.id < y.id) ∧
      (∀ rounds, read_all_events (fun _ => st) rounds =
        if st.log.length / _READ_BATCH_SIZE < rounds then some (.ok events) else none) ∧
      ∀ limit : Int, 0 < limit → st.log.length ≤ limit → st.select {} limit = .ok events := by
  have hlength : (by_id st.log).length = st.log.length := (by_id_perm st.log).length_eq
  refine ⟨by_id st.log, by_id_perm st.log, by_id_sorted h.distinct, ?_, ?_⟩
  · intro rounds
    have hpaged := Paging.collect_eq (by decide : 0 < _READ_BATCH_SIZE) rounds (k := 0) (sorted_by_id h) (between_start h)
    rw [List.nil_append, hlength] at hpaged
    rw [read_all_events, read_batches_eq fun _ => h, hpaged]
    split <;> rfl
  · intro limit hpos hlimit
    have hall : st.log.filter (ReadFilter.matches {}) = st.log := List.filter_eq_self.mpr fun _ _ => rfl
    rw [select, if_neg (Int.not_le.mpr hpos), hall, List.take_of_length_le]
    omega

/-- Three events of a table with gaps, the last one stored first. -/
def gaps : EventStore :=
  { EventStore.quiet with
    log := [12, 3, 7].map fun id => { id, kind := .TOOL_CALLED, payload := [], actor_agent_id := none,
                                      correlation_id := none, ts_company := 0, ts_real := 0 } }

theorem read_all_events_gaps : ∃ events, read_all_events (fun _ => gaps) 1 = some (.ok events) ∧
    events.map Event.id = [3, 7, 12] := by
  have hkeyed : gaps.Keyed := ⟨by decide, by decide⟩
  obtain ⟨events, hperm, hsorted, hread, -⟩ := read_all_events_complete gaps hkeyed
  refine ⟨events, hread 1, ?_⟩
  have hids : (events.map Event.id).Perm [3, 7, 12] := (hperm.map Event.id).trans (by decide)
  have hlt : (events.map Event.id).Pairwise (· < ·) := List.pairwise_map.mpr hsorted
  exact hids.eq_of_pairwise' hlt (by decide)

/-- **With appends in between**: what the loop returns is the whole log, as one of its rounds found it. -/
theorem read_all_events_snapshot {stores : Nat → EventStore} (h : ∀ k, (stores k).Keyed)
    (hgrows : ∀ k, by_id (stores k).log <+: by_id (stores (k + 1)).log) {rounds : Nat} {result : Except Exn (List Event)}
    (hresult : read_all_events stores rounds = some result) :
    ∃ k, k < rounds ∧ result = .ok (by_id (stores k).log) := by
  rw [read_all_events, read_batches_eq h, Option.map_eq_some_iff] at hresult
  obtain ⟨events, hevents, rfl⟩ := hresult
  have hstart : ∀ j, 0 ≤ j →
      ∃ rest, by_id (stores j).log = [] ++ rest ∧ Paging.Between key 0 [] rest :=
    fun j _ => ⟨by_id (stores j).log, rfl, between_start (h j)⟩
  obtain ⟨k, -, hk, rfl⟩ := Paging.collect_snapshot (by decide) (fun k => sorted_by_id (h k)) hgrows rounds hstart hevents
  exact ⟨k, by omega, rfl⟩

end Performance

end CompanyFactory
