import CompanyFactory.Approvals.Service
import CompanyFactory.BoardApi.Users
import CompanyFactory.Clock.Isoformat
import CompanyFactory.Lib.Utf8

/-!
# `Storage.Timestamps` — datetimes in text columns

The tables keep datetimes as the text of `isoformat`, and SQLite compares texts by their bytes. Everywhere else the rows
hold a `Time`; here a row comes with the datetime that is in its column.

* `text_order` — **the order of the texts is the order of the datetimes**, and `expires_at <= now` selects the expired
  rows of both tables.
* `process_timeouts_stored`, `purge_expired_stored` — so a sweep of the stored rows is the sweep of the rows.
-/

namespace CompanyFactory

namespace Timestamps

open BoardApi

/-- The bytes of a text. -/
def bytes (text : String) : List Nat := (Utf8.encode text.toList).map UInt8.toNat

/-- `a <= b` of two texts -/
def text_le (a b : String) : Bool := decide (bytes a ≤ bytes b)

theorem bytes_strictMono : StrictMono fun d : UtcDatetime => bytes d.isoformat := by
  intro d e h
  have hlt : d.isoformat.toList < e.isoformat.toList := String.lt_iff_toList_lt.mp (UtcDatetime.isoformat_strictMono h)
  show bytes d.isoformat < bytes e.isoformat
  rw [bytes, bytes, Utf8.encode_ascii d.isoformat_ascii, Utf8.encode_ascii e.isoformat_ascii]
  exact List.map_lt (fun _ _ h => h) hlt

theorem text_le_iff (d e : UtcDatetime) : text_le d.isoformat e.isoformat = true ↔ d ≤ e := by
  rw [text_le, decide_eq_true_eq]
  exact bytes_strictMono.le_iff_le

/-- A row whose column `expires_at` holds a datetime. -/
structure Stored (ρ : Type) (expires_at : ρ → Time) where
  row : ρ
  datetime : UtcDatetime
  stored : expires_at row = datetime.micros

variable {ρ : Type} {expires_at : ρ → Time}

/-- The text in the column. -/
def Stored.text (r : Stored ρ expires_at) : String := r.datetime.isoformat

/-- **`expires_at <= ?` compares the times.** -/
theorem Stored.text_le_iff (r : Stored ρ expires_at) (now : UtcDatetime) :
    text_le r.text now.isoformat = decide (expires_at r.row ≤ now.micros) := by
  rw [Bool.eq_iff_iff, decide_eq_true_eq, r.stored, Stored.text, Timestamps.text_le_iff]
  exact UtcDatetime.micros_strictMono.le_iff_le.symm

/-- `WHERE status = 'pending' AND expires_at <= ?` -/
def is_due (now : String) (r : Stored Approval Approval.expires_at) : Bool :=
  decide (r.row.status = .PENDING) && text_le r.text now

/-- `WHERE expires_at <= ? OR revoked = 1` -/
def is_purged (before : String) (r : Stored TokenRow TokenRow.expires_at) : Bool :=
  text_le r.text before || r.row.revoked

theorem is_due_eq (now : UtcDatetime) (r : Stored Approval Approval.expires_at) :
    is_due now.isoformat r = Approvals.expired now.micros r.row := by
  rw [is_due, r.text_le_iff]
  rfl

theorem is_purged_eq (before : UtcDatetime) (r : Stored TokenRow TokenRow.expires_at) :
    is_purged before.isoformat r = (decide (r.row.expires_at ≤ before.micros) || r.row.revoked) := by
  rw [is_purged, r.text_le_iff]

/-- **The order of the texts.** Two texts of `isoformat` compare as the datetimes do, and as the times; so the two
    statements select exactly the rows that have expired. -/
theorem text_order (d e now : UtcDatetime) (approvals : List (Stored Approval Approval.expires_at))
    (tokens : List (Stored TokenRow TokenRow.expires_at)) :
    ((d.isoformat < e.isoformat ↔ d < e) ∧ (text_le d.isoformat e.isoformat = true ↔ d ≤ e) ∧
      (d < e ↔ d.micros < e.micros)) ∧
    (approvals.filter (is_due now.isoformat)).map Stored.row =
      (approvals.map Stored.row).filter (Approvals.expired now.micros) ∧
    (tokens.filter (is_purged now.isoformat)).map Stored.row =
      (tokens.map Stored.row).filter (fun t => decide (t.expires_at ≤ now.micros) || t.revoked) := by
  refine ⟨⟨UtcDatetime.isoformat_strictMono.lt_iff_lt, text_le_iff d e, UtcDatetime.micros_strictMono.lt_iff_lt.symm⟩, ?_, ?_⟩
  · rw [List.filter_map]
    exact congrArg _ (List.filter_congr fun r _ => is_due_eq now r)
  · rw [List.filter_map]
    exact congrArg _ (List.filter_congr fun r _ => is_purged_eq now r)

/-! ## The two sweeps -/

/-- `UPDATE approvals SET status = ?, …` of a row that is due; its `expires_at` stays. -/
def timed_out (config : ApprovalsConfig) (now : UtcDatetime) (r : Stored Approval Approval.expires_at) :
    Stored Approval Approval.expires_at :=
  if is_due now.isoformat r then
    { r with row := Approvals.timed_out_row config now.micros r.row, stored := r.stored }
  else r

theorem process_timeouts_stored (config : ApprovalsConfig) (now : UtcDatetime)
    (rows : List (Stored Approval Approval.expires_at)) : ∃ notices,
    Approvals.process_timeouts_tx config now.micros (rows.map Stored.row) =
      .ok ((rows.filter (is_due now.isoformat)).length, notices, (rows.map (timed_out config now)).map Stored.row) := by
  have hdue : Approvals.expired now.micros ∘ Stored.row = is_due now.isoformat := by
    funext r
    exact (is_due_eq now r).symm
  have hrow : ∀ r, (timed_out config now r).row =
      if Approvals.expired now.micros r.row then Approvals.timed_out_row config now.micros r.row else r.row := by
    intro r
    rw [← is_due_eq, timed_out]
    split <;> rfl
  refine ⟨_, congrArg Except.ok (Prod.ext ?_ (Prod.ext rfl ?_))⟩
  · simp only [List.filter_map, hdue, List.length_map]
  · simp only [List.map_map]
    exact List.map_congr_left fun r _ => (hrow r).symm

theorem purge_expired_stored (before : UtcDatetime) (db : AuthDb) {tokens : List (Stored TokenRow TokenRow.expires_at)}
    (h : db.refresh_tokens.rows = tokens.map Stored.row) :
    (Auth.purge_expired before.micros db).1 = .ok (tokens.countP (is_purged before.isoformat)) ∧
    (Auth.purge_expired before.micros db).2.refresh_tokens.rows =
      (tokens.filter fun r => !is_purged before.isoformat r).map Stored.row := by
  have hpurged : (fun t : TokenRow => decide (t.expires_at ≤ before.micros) || t.revoked) ∘ Stored.row =
      is_purged before.isoformat := by
    funext r
    exact (is_purged_eq before r).symm
  refine ⟨congrArg Except.ok ?_, ?_⟩
  · rw [h, List.countP_map, hpurged]
  · show (db.refresh_tokens.rows.filter fun t => !(decide (t.expires_at ≤ before.micros) || t.revoked)) = _
    rw [h, List.filter_map]
    refine congrArg _ (List.filter_congr fun r _ => ?_)
    rw [is_purged_eq]
    rfl

/-- Rows whose times are those of datetimes can be stored. -/
theorem exists_stored {rows : List ρ}
    (h : ∀ r ∈ rows, UtcDatetime.min.micros ≤ expires_at r ∧ expires_at r ≤ UtcDatetime.max.micros) :
    ∃ stored : List (Stored ρ expires_at), stored.map Stored.row = rows := by
  induction rows with
  | nil => exact ⟨[], rfl⟩
  | cons row rows ih =>
    obtain ⟨hmin, hmax⟩ := h row List.mem_cons_self
    obtain ⟨datetime, hdatetime⟩ := UtcDatetime.exists_micros hmin hmax
    obtain ⟨stored, hstored⟩ := ih fun r hr => h r (List.mem_cons_of_mem row hr)
    exact ⟨{ row, datetime, stored := hdatetime.symm } :: stored, by rw [List.map_cons, hstored]⟩

end Timestamps

end CompanyFactory
