import CompanyFactory.Efficiency.Store
import CompanyFactory.Lib.Live

/-!
# `Efficiency.Findings` — what the store does to the open findings

A store whose rows are `Sound` holds at most one open finding of a key, so that its open findings are a partial map of
the keys (`open_row`). One lemma for each operation of the store says what it returns and which row it writes, whatever
the store draws; that the rows stay sound is part of it.

* `upsert_from_candidate_spec` — the open finding of the key is seen again, or there is none and a new one is opened.
* `close_finding_spec`, `acknowledge_spec` — an open finding is rewritten; nothing else changes a row.
-/

namespace CompanyFactory

namespace Efficiency

/-- The open finding of a key. -/
def open_row (rows : List Finding) (key : FindingKey) : Option Finding :=
  Live.current Finding.key Finding.is_open rows key

/-- The row of a finding that is closed now. -/
def closed_row (now : Time) (finding : Finding) : Finding :=
  { finding with status := .CLOSED, closed_at := some now }

def acknowledged_row (finding : Finding) : Finding := { finding with status := .ACKNOWLEDGED }

theorem is_open_iff {finding : Finding} : finding.is_open = true ↔ finding.status ≠ .CLOSED := by
  unfold Finding.is_open
  cases finding.status <;> decide

theorem not_open_iff {finding : Finding} : finding.is_open = false ↔ finding.status = .CLOSED := by
  unfold Finding.is_open
  cases finding.status <;> decide

@[simp] theorem seen_again_open (cand : FindingCandidate) (now : Time) (finding : Finding) :
    (FindingStore.seen_again cand now finding).is_open = finding.is_open := rfl

@[simp] theorem opened_row_key (cand : FindingCandidate) (id : String) (now : Time) :
    (FindingStore.opened_row cand id now).key = cand.key := rfl

@[simp] theorem opened_row_open (cand : FindingCandidate) (id : String) (now : Time) :
    (FindingStore.opened_row cand id now).is_open = true := rfl

@[simp] theorem closed_row_open (now : Time) (finding : Finding) : (closed_row now finding).is_open = false := rfl

namespace FindingStore

/-- The rows of a store: their ids were drawn, no two have one id, and no two open ones have one key. -/
structure Sound (store : FindingStore) (rows : List Finding) : Prop where
  table : store.table = some rows
  drawn : ∀ row ∈ rows, ∃ n < store.drawn, store.new_id n = row.id
  unique : Live.Unique Finding.id Finding.key Finding.is_open rows

variable {store : FindingStore} {rows : List Finding}

/-- The table as `migrate` leaves it in a new database. -/
def migrated (store : FindingStore) : FindingStore := { store with table := some [] }

theorem migrated_sound (store : FindingStore) : store.migrated.Sound [] :=
  ⟨rfl, fun _ h => (List.not_mem_nil h).elim, Live.unique_nil⟩

theorem select_eq {α : Type} (htable : store.table = some rows) (query : List Finding → α) :
    select query store = (.ok (query rows), store) := by rw [select, htable]

theorem execute_eq (htable : store.table = some rows) (statement : List Finding → List Finding) :
    execute statement store = (.ok (), { store with table := some (statement rows) }) := by rw [execute, htable]

theorem find_open_eq (htable : store.table = some rows) (key : FindingKey) :
    find_open key store = (.ok (open_row rows key), store) := select_eq htable _

theorem get_eq (htable : store.table = some rows) (finding_id : String) :
    get finding_id store = match Table.find Finding.id rows finding_id with
      | none => (.error (.other "FindingNotFound" finding_id), store)
      | some finding => (.ok finding, store) := by
  rw [get, Act.bind_of_ok (select_eq htable _)]
  cases Table.find Finding.id rows finding_id <;> rfl

theorem get_some (htable : store.table = some rows) {finding_id : String} {finding : Finding}
    (hfind : Table.find Finding.id rows finding_id = some finding) :
    get finding_id store = (.ok finding, store) := by rw [get_eq htable, hfind]

/-- The row that was rewritten is found. -/
theorem find_updated {finding_id : String} {finding : Finding} {f : Finding → Finding}
    (hfind : Table.find Finding.id rows finding_id = some finding) (hid : ∀ row, (f row).id = row.id) :
    Table.find Finding.id (Table.update Finding.id finding_id f rows) finding_id = some (f finding) := by
  rw [Table.find_update_key hid, if_pos rfl, hfind]
  rfl

/-- The id that is drawn next is on no row. -/
theorem Sound.fresh (h : store.Sound rows) {n : Nat} (hn : store.drawn ≤ n) :
    Table.find Finding.id rows (store.new_id n) = none := by
  apply Table.find_eq_none.mpr
  intro row hrow heq
  obtain ⟨m, hm, hid⟩ := h.drawn row hrow
  have hnm := store.new_id_injective (hid.trans heq)
  omega

/-- An `UPDATE` of one row, with a draw or without. -/
theorem Sound.update (h : store.Sound rows) {finding_id : String} {finding : Finding} {f : Finding → Finding}
    (hfind : Table.find Finding.id rows finding_id = some finding) (hid : ∀ row, (f row).id = row.id)
    (hkey : (f finding).key = finding.key) (hopen : finding.is_open = true) {n : Nat} (hn : store.drawn ≤ n) :
    Sound { store with table := some (Table.update Finding.id finding_id f rows), drawn := n }
      (Table.update Finding.id finding_id f rows) where
  table := rfl
  drawn := by
    intro row hrow
    have hids := Table.keys_update_key hid rows (k := finding_id)
    obtain ⟨old, hold, heq⟩ := Table.exists_of_keys hids.symm hrow
    obtain ⟨m, hm, hdrawn⟩ := h.drawn old hold
    exact ⟨m, Nat.lt_of_lt_of_le hm hn, hdrawn.trans heq⟩
  unique := h.unique.update hfind hid hkey fun _ => hopen

/-- **What an upsert does.** -/
theorem upsert_from_candidate_spec (h : store.Sound rows) (cand : FindingCandidate) :
    (∃ row now store', open_row rows cand.key = some row ∧
      upsert_from_candidate cand store = (.ok (seen_again cand now row, false), store') ∧
      store'.Sound (Table.update Finding.id row.id (seen_again cand now) rows)) ∨
    (∃ id now store', open_row rows cand.key = none ∧ Table.find Finding.id rows id = none ∧
      upsert_from_candidate cand store = (.ok (opened_row cand id now, true), store') ∧
      store'.Sound (rows ++ [opened_row cand id now])) := by
  have hclock : read_clock store = (.ok (store.now store.drawn), { store with drawn := store.drawn + 1 }) := rfl
  cases hrow : open_row rows cand.key with
  | some row =>
      obtain ⟨hfind, hopen⟩ := Live.row_of_current h.unique hrow
      have hsound := h.update (f := seen_again cand (store.now store.drawn)) hfind (fun _ => rfl) rfl hopen
        (Nat.le_succ _)
      refine .inl ⟨row, store.now store.drawn, _, rfl, ?_, hsound⟩
      rw [upsert_from_candidate, Act.bind_of_ok (find_open_eq h.table _), hrow, Act.bind_of_ok hclock]
      dsimp only
      rw [Act.bind_of_ok (@execute_eq { store with drawn := store.drawn + 1 } rows h.table _)]
      have hseen := find_updated (f := seen_again cand (store.now store.drawn)) hfind fun _ => rfl
      rw [Act.bind_of_ok (get_some rfl hseen)]
      rfl
  | none =>
      have hfresh := h.fresh (Nat.le_succ store.drawn)
      refine .inr ⟨store.new_id (store.drawn + 1), store.now store.drawn,
        { store with
          table := some (rows ++ [opened_row cand (store.new_id (store.drawn + 1)) (store.now store.drawn)])
          drawn := store.drawn + 2 }, rfl, hfresh, ?_, rfl, ?_, ?_⟩
      · rw [upsert_from_candidate, Act.bind_of_ok (find_open_eq h.table _), hrow, Act.bind_of_ok hclock]
        dsimp only
        rw [Act.bind_of_ok (m := draw_id) rfl,
          Act.bind_of_ok (@execute_eq { store with drawn := store.drawn + 2 } rows h.table _)]
        have hnew : Table.find Finding.id
            (rows ++ [opened_row cand (store.new_id (store.drawn + 1)) (store.now store.drawn)])
            (store.new_id (store.drawn + 1)) =
            some (opened_row cand (store.new_id (store.drawn + 1)) (store.now store.drawn)) := by
          rw [Table.find_insert, hfresh]
          exact if_pos rfl
        rw [Act.bind_of_ok (get_some rfl hnew)]
        rfl
      · intro row hrow'
        rcases List.mem_append.mp hrow' with hold | hnew
        · obtain ⟨n, hn, hid⟩ := h.drawn row hold
          exact ⟨n, Nat.lt_add_right 2 hn, hid⟩
        · obtain rfl := List.mem_singleton.mp hnew
          exact ⟨store.drawn + 1, Nat.lt_succ_self _, rfl⟩
      · exact h.unique.insert hfresh hrow

/-- **What a close does**, by the detector or by hand. -/
theorem close_finding_spec (h : store.Sound rows) (finding_id : String) :
    (Table.find Finding.id rows finding_id = none ∧ ∃ e, close_finding finding_id store = (.error e, store)) ∨
    (∃ row, Table.find Finding.id rows finding_id = some row ∧ row.status = .CLOSED ∧
      close_finding finding_id store = (.ok row, store)) ∨
    (∃ row now store', Table.find Finding.id rows finding_id = some row ∧ row.is_open = true ∧
      close_finding finding_id store = (.ok (closed_row now row), store') ∧
      store'.Sound (Table.update Finding.id finding_id (closed_row now) rows)) := by
  have hget := get_eq h.table finding_id
  cases hfind : Table.find Finding.id rows finding_id with
  | none =>
      rw [hfind] at hget
      exact .inl ⟨rfl, _, Act.bind_of_error hget⟩
  | some row =>
      rw [hfind] at hget
      by_cases hstatus : row.status = .CLOSED
      · refine .inr (.inl ⟨row, rfl, hstatus, ?_⟩)
        rw [close_finding, Act.bind_of_ok hget, if_pos hstatus]
        rfl
      · have hopen := is_open_iff.mpr hstatus
        have hsound := h.update (f := closed_row (store.now store.drawn)) hfind (fun _ => rfl) rfl hopen
          (Nat.le_succ _)
        refine .inr (.inr ⟨row, store.now store.drawn, _, rfl, hopen, ?_, hsound⟩)
        rw [close_finding, Act.bind_of_ok hget, if_neg hstatus, Act.bind_of_ok (m := read_clock) rfl,
          Act.bind_of_ok (@execute_eq { store with drawn := store.drawn + 1 } rows h.table _)]
        exact get_some rfl (find_updated (f := closed_row (store.now store.drawn)) hfind fun _ => rfl)

theorem acknowledge_spec (h : store.Sound rows) (finding_id : String) :
    (∃ e, acknowledge finding_id store = (.error e, store)) ∨
    (∃ row store', Table.find Finding.id rows finding_id = some row ∧ row.is_open = true ∧
      acknowledge finding_id store = (.ok (acknowledged_row row), store') ∧
      store'.Sound (Table.update Finding.id finding_id acknowledged_row rows)) := by
  have hget := get_eq h.table finding_id
  cases hfind : Table.find Finding.id rows finding_id with
  | none =>
      rw [hfind] at hget
      exact .inl ⟨_, Act.bind_of_error hget⟩
  | some row =>
      rw [hfind] at hget
      by_cases hstatus : row.status = .CLOSED
      · refine .inl ⟨.invalidTransition ("cannot ack a closed finding: " ++ finding_id), ?_⟩
        rw [acknowledge, Act.bind_of_ok hget, if_pos hstatus]
        rfl
      · have hopen := is_open_iff.mpr hstatus
        have hsound := h.update (f := acknowledged_row) hfind (fun _ => rfl) rfl hopen (Nat.le_refl _)
        refine .inr ⟨row, _, rfl, hopen, ?_, hsound⟩
        rw [acknowledge, Act.bind_of_ok hget, if_neg hstatus, Act.bind_of_ok (execute_eq h.table _)]
        exact get_some rfl (find_updated (f := acknowledged_row) hfind fun _ => rfl)

/-- **The open findings of a detector**: each of them once. -/
theorem list_open_spec (h : store.Sound rows) (detector_code : String) :
    ∃ existing, list_open detector_code store = (.ok existing, store) ∧
      (∀ row, row ∈ existing ↔ row ∈ rows ∧ row.detector_code = detector_code ∧ row.is_open = true) ∧
      (existing.map Finding.key).Nodup := by
  refine ⟨_, select_eq h.table _, fun row => ?_, ?_⟩
  · rw [List.mem_mergeSort, List.mem_filter, Bool.and_eq_true, decide_eq_true_iff]
  · have hperm := List.mergeSort_perm
      (rows.filter fun finding => decide (finding.detector_code = detector_code) && finding.is_open)
      fun a b => decide (a.opened_at ≤ b.opened_at)
    rw [(hperm.map Finding.key).nodup_iff]
    refine List.Nodup.map_on ?_ ((List.Nodup.of_map Finding.id h.unique.ids).filter _)
    intro a ha b hb heq
    rw [List.mem_filter, Bool.and_eq_true] at ha hb
    exact h.unique.one a ha.1 b hb.1 ha.2.2 hb.2.2 heq

end FindingStore

end Efficiency

end CompanyFactory
