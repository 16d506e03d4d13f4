import CompanyFactory.Efficiency.Models
import CompanyFactory.Lib.Effect
import CompanyFactory.Lib.Table
import Mathlib.Logic.Function.Defs

/-!
# `Efficiency.Store` — the table of the findings

`store.py`. There is at most one open row for a key because `upsert_from_candidate` looks for one before it inserts. A
statement raises if the table is missing, as it is in a database that was restored in part.

The store draws its ids and the times that it writes; `drawn` counts both. `uuid4().hex` does not repeat itself. The
evidence is written and read as JSON with sorted keys, which the fields are kept without.
-/

namespace CompanyFactory

namespace Efficiency

structure FindingStore where
  /-- the table `efficiency_findings`, if it exists -/
  table : Option (List Finding)
  drawn : Nat
  now : Nat → Time
  new_id : Nat → String
  new_id_injective : Function.Injective new_id

namespace FindingStore

def missing_table : Exn := .database "no such table: efficiency_findings"

/-- A `SELECT`. -/
def select {α : Type} (query : List Finding → α) : Act FindingStore Exn α := fun store =>
  match store.table with
  | none => (.error missing_table, store)
  | some rows => (.ok (query rows), store)

/-- An `UPDATE` or `INSERT` in a transaction of its own. -/
def execute (statement : List Finding → List Finding) : Act FindingStore Exn Unit := fun store =>
  match store.table with
  | none => (.error missing_table, store)
  | some rows => (.ok (), { store with table := some (statement rows) })

/-- `self._now()` -/
def read_clock : Act FindingStore Exn Time := fun store =>
  (.ok (store.now store.drawn), { store with drawn := store.drawn + 1 })

/-- `_new_id()` -/
def draw_id : Act FindingStore Exn String := fun store =>
  (.ok (store.new_id store.drawn), { store with drawn := store.drawn + 1 })

/-! ## Queries -/

def get (finding_id : String) : Act FindingStore Exn Finding := do
  let row ← select fun rows => Table.find Finding.id rows finding_id
  match row with
  | none => Act.raise (.other "FindingNotFound" finding_id)
  | some finding => pure finding

/-- The open finding of the key, if any. -/
def find_open (key : FindingKey) : Act FindingStore Exn (Option Finding) :=
  select fun rows => rows.find? fun finding => decide (finding.key = key) && finding.is_open

/-- The open findings of a detector, the oldest first. -/
def list_open (detector_code : String) : Act FindingStore Exn (List Finding) :=
  select fun rows =>
    (rows.filter fun finding => decide (finding.detector_code = detector_code) && finding.is_open).mergeSort
      fun a b => decide (a.opened_at ≤ b.opened_at)

/-! ## Writes -/

/-- The row of a candidate that fires again. -/
def seen_again (cand : FindingCandidate) (now : Time) (finding : Finding) : Finding :=
  { finding with
    last_seen_at := now, occurrences := finding.occurrences + 1, evidence := cand.evidence,
    severity := cand.severity, recommendation := cand.recommendation.or finding.recommendation }

/-- The row of a candidate that fires for the first time. -/
def opened_row (cand : FindingCandidate) (id : String) (now : Time) : Finding :=
  { id, detector_code := cand.detector_code, severity := cand.severity, subject_type := cand.subject_type
    subject_id := cand.subject_id, opened_at := now, last_seen_at := now, evidence := cand.evidence
    recommendation := cand.recommendation }

/-- Opens a new finding or refreshes the open one; was it opened now? -/
def upsert_from_candidate (cand : FindingCandidate) : Act FindingStore Exn (Finding × Bool) := do
  let existing ← find_open cand.key
  let now ← read_clock
  match existing with
  | some existing =>
    execute (Table.update Finding.id existing.id (seen_again cand now))
    let finding ← get existing.id
    pure (finding, false)
  | none =>
    let finding_id ← draw_id
    execute (· ++ [opened_row cand finding_id now])
    let finding ← get finding_id
    pure (finding, true)

/-- What `auto_close` and `close` both do. -/
def close_finding (finding_id : String) : Act FindingStore Exn Finding := do
  let existing ← get finding_id
  if existing.status = .CLOSED then pure existing
  else
    let now ← read_clock
    execute (Table.update Finding.id finding_id fun row => { row with status := .CLOSED, closed_at := some now })
    get finding_id

def auto_close (finding_id : String) : Act FindingStore Exn Finding := close_finding finding_id

def close (finding_id : String) : Act FindingStore Exn Finding := close_finding finding_id

def acknowledge (finding_id : String) : Act FindingStore Exn Finding := do
  let existing ← get finding_id
  if existing.status = .CLOSED then
    Act.raise (.invalidTransition ("cannot ack a closed finding: " ++ finding_id))
  else
    execute (Table.update Finding.id finding_id fun row => { row with status := .ACKNOWLEDGED })
    get finding_id

end FindingStore

end Efficiency

end CompanyFactory
