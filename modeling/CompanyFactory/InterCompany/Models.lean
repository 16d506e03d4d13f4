import CompanyFactory.BoardApi.Board
import CompanyFactory.Identity.Org
import Mathlib.Data.String.Basic

/-!
# `InterCompany.Models` — cross-company messages, the outbox and its texts

The data that `send_cross` and `deliver_pending` move, and the texts they make of it. A text is sanitized as a
list of characters; the size of a text is the size of its UTF-8 encoding, and a text that is too long is cut at
the last whole character.

* `sanitize_size` — a sanitized text is not longer than the text.
-/

namespace CompanyFactory

namespace InterCompany

open BoardApi Orchestrator

inductive CrossMessageKind where
  | INQUIRY | QUOTE | ORDER | INVOICE | DELIVERY | GENERIC
  deriving DecidableEq, Repr

def CrossMessageKind.value : CrossMessageKind → String
  | .INQUIRY => "inquiry"
  | .QUOTE => "quote"
  | .ORDER => "order"
  | .INVOICE => "invoice"
  | .DELIVERY => "delivery"
  | .GENERIC => "generic"

structure CrossMessage where
  kind : CrossMessageKind
  subject : String
  body : String
  metadata : Fields := []
  deriving DecidableEq

inductive CrossStatus where
  | DELIVERED | QUEUED | REJECTED
  deriving DecidableEq, Repr

def CrossStatus.value : CrossStatus → String
  | .DELIVERED => "delivered"
  | .QUEUED => "queued"
  | .REJECTED => "rejected"

structure CrossResult where
  id : String
  link_id : String
  status : CrossStatus
  target_agent : Option String
  reason : Option String := none
  deriving DecidableEq

/-- A row of `inter_company_outbox`. -/
structure CrossEntry where
  id : String
  link_id : String
  from_company : String
  to_company : String
  from_agent : String
  target_agent : Option String
  kind : CrossMessageKind
  subject : String
  body : String
  metadata : Fields
  status : CrossStatus
  reason : Option String
  created_at : Time
  delivered_at : Option Time
  deriving DecidableEq

/-! ## Texts -/

def _MAX_SUBJECT_BYTES : Int := 512

/-- `_CTRL_RE`: the ASCII control characters except tab, line feed and carriage return. -/
def is_control (c : Char) : Bool :=
  (c.toNat ≤ 31 && c ≠ '\t' && c ≠ '\n' && c ≠ '\r') || c.toNat = 127

/-- The whole characters within the first `n` bytes. -/
def whole_chars : Nat → List Char → List Char
  | _, [] => []
  | n, c :: cs => if c.utf8Size ≤ n then c :: whole_chars (n - c.utf8Size) cs else []

/-- How many bytes `encoded[:max_bytes]` keeps of `size`. -/
def kept_bytes (size : Nat) (max_bytes : Int) : Nat :=
  if max_bytes < 0 then (size + max_bytes).toNat else max_bytes.toNat

/-- `_sanitize` -/
def sanitize (text : String) (max_bytes : Int) : String :=
  let cleaned := text.toList.filter (fun c => !is_control c)
  let size := (String.ofList cleaned).utf8ByteSize
  if max_bytes < size then String.ofList (whole_chars (kept_bytes size max_bytes) cleaned)
  else String.ofList cleaned

/-- `_format_envelope` -/
def format_envelope (link_id from_company : String) (kind : CrossMessageKind) (subject body : String) :
    String :=
  "[INTER-COMPANY " ++ kind.value ++ " | from=" ++ from_company ++ " | link=" ++ link_id ++ "]\n" ++
    "Subject: " ++ subject ++ "\n\n" ++ body

/-- `_map_result` -/
def map_result : SendResult → CrossStatus
  | .QUEUED => .DELIVERED
  | .REJECTED_PAUSED => .QUEUED
  | _ => .REJECTED

/-- The string value of a `SendResult`. -/
def result_value : SendResult → String
  | .QUEUED => "queued"
  | .REJECTED_PAUSED => "rejected_paused"
  | .REJECTED_RATE_LIMIT => "rejected_rate_limit"
  | .REJECTED_LOOP => "rejected_loop"
  | .REJECTED_INVALID_TARGET => "rejected_invalid_target"
  | .REJECTED_DUPLICATE => "rejected_duplicate"
  | .REJECTED_TOO_LARGE => "rejected_too_large"

/-! ## Sizes -/

theorem whole_chars_start (n : Nat) (cs : List Char) : whole_chars n cs <+: cs := by
  induction cs generalizing n with
  | nil => exact List.prefix_rfl
  | cons c cs ih =>
      rw [whole_chars]
      split
      · exact List.cons_prefix_cons.mpr ⟨rfl, ih _⟩
      · exact List.nil_prefix

/-- A text of some of the characters is not longer. -/
theorem size_of_sublist {cs ds : List Char} (h : cs.Sublist ds) :
    (String.ofList cs).utf8ByteSize ≤ (String.ofList ds).utf8ByteSize := by
  rw [String.utf8ByteSize_ofList, String.utf8ByteSize_ofList]
  induction h with
  | slnil => exact Nat.le_refl _
  | cons c _ ih =>
      rw [String.utf8Len_cons]
      omega
  | cons_cons c _ ih =>
      rw [String.utf8Len_cons, String.utf8Len_cons]
      omega

/-- **A sanitized text is not longer than the text.** -/
theorem sanitize_size (text : String) (max_bytes : Int) :
    (sanitize text max_bytes).utf8ByteSize ≤ text.utf8ByteSize := by
  have hclean : (text.toList.filter fun c => !is_control c).Sublist text.toList := List.filter_sublist
  have htext : (String.ofList text.toList).utf8ByteSize = text.utf8ByteSize := by rw [String.ofList_toList]
  rw [← htext]
  unfold sanitize
  dsimp only
  split
  · exact size_of_sublist ((whole_chars_start _ _).sublist.trans hclean)
  · exact size_of_sublist hclean

end InterCompany

end CompanyFactory
