import CompanyFactory.InterCompany.Gate
import CompanyFactory.Lib.Utf8

/-!
# `InterCompany.Sanitize` — what is left of a text

`_sanitize` takes the control characters out, encodes the rest, cuts the bytes at the limit and decodes what is
left, ignoring errors. Here it stands byte by byte; that it is the `sanitize` that the messages use follows from
the law of the cut.

* `sanitize_eq` — the two agree, for every limit.
* `sanitize_longest` — the result is the longest start of the cleaned text that fits.
* `Admitted.limit` — a message is sanitized only under a limit that is not negative.
-/

namespace CompanyFactory

namespace InterCompany

open BoardApi

/-- `_CTRL_RE.sub("", text)` -/
def clean (text : String) : List Char := text.toList.filter fun c => !is_control c

namespace Encoded

/-- `_sanitize`, over the bytes of the encoding. -/
def sanitize (text : String) (max_bytes : Int) : String :=
  let cleaned := clean text
  let encoded := Utf8.encode cleaned
  if max_bytes < encoded.length then
    String.ofList (Utf8.decode (encoded.take (kept_bytes encoded.length max_bytes)))
  else String.ofList cleaned

end Encoded

/-! ## The two definitions -/

/-- The whole characters within the first bytes are the longest start that fits. -/
theorem whole_chars_longest (n : Nat) (cs : List Char) : Utf8.Longest n cs (whole_chars n cs) := by
  induction cs generalizing n with
  | nil => exact Utf8.Longest.whole (Nat.zero_le n)
  | cons c cs ih =>
      rw [whole_chars]
      split
      · rename_i hc
        exact Utf8.Longest.cons hc (ih _)
      · rename_i hc
        exact Utf8.Longest.nil_of_lt (Nat.lt_of_not_le hc)

/-- Cutting the bytes and cutting at the last whole character come to the same. -/
theorem decode_take_eq (n : Nat) (cs : List Char) : Utf8.decode ((Utf8.encode cs).take n) = whole_chars n cs :=
  (Utf8.decode_take n cs).unique (whole_chars_longest n cs)

theorem sanitize_eq (text : String) (max_bytes : Int) :
    Encoded.sanitize text max_bytes = sanitize text max_bytes := by
  unfold Encoded.sanitize sanitize
  dsimp only
  rw [decode_take_eq, Utf8.length_encode]
  rfl

/-! ## The result -/

/-- Under a limit of `limit` bytes, the result is the longest start of the cleaned text that fits. -/
theorem sanitize_fits (text : String) (limit : Nat) :
    Utf8.Longest limit (clean text) (Encoded.sanitize text limit).toList := by
  unfold Encoded.sanitize
  dsimp only
  have hkept : kept_bytes (Utf8.encode (clean text)).length (limit : Int) = limit := by
    unfold kept_bytes
    rw [if_neg (by omega), Int.toNat_natCast]
  split
  · rw [hkept, String.toList_ofList]
    exact Utf8.decode_take limit (clean text)
  · rw [String.toList_ofList]
    exact Utf8.Longest.whole (by omega)

/-- A start of a cleaned text is clean. -/
theorem clean_start {text : String} {ds : List Char} (h : ds <+: clean text) : clean (String.ofList ds) = ds := by
  unfold clean
  rw [String.toList_ofList, List.filter_eq_self]
  intro c hc
  exact (List.mem_filter.mp (h.subset hc)).2

/-- A text that is clean and fits is left as it is. -/
theorem sanitize_of_fits {ds : List Char} {limit : Nat} (hclean : clean (String.ofList ds) = ds)
    (hfits : (Utf8.encode ds).length ≤ limit) : Encoded.sanitize (String.ofList ds) limit = String.ofList ds := by
  unfold Encoded.sanitize
  dsimp only
  rw [hclean, if_neg (by omega)]

/-- **Sanitizing keeps the longest start of the cleaned text that fits, and changes nothing the second time.** -/
theorem sanitize_longest (text : String) (limit : Nat) :
    Utf8.Longest limit (clean text) (Encoded.sanitize text limit).toList ∧
      Encoded.sanitize (Encoded.sanitize text limit) limit = Encoded.sanitize text limit := by
  have hlongest := sanitize_fits text limit
  refine ⟨hlongest, ?_⟩
  have hagain := sanitize_of_fits (clean_start hlongest.start) hlongest.fits
  rwa [String.ofList_toList] at hagain

-- a two-byte character does not fit into one byte, and the control characters before it do not count
example : Encoded.sanitize "a\x00\x1bé" 2 = "a" := by decide +kernel

/-! ## The callers -/

/-- The scope check refuses every body under a negative limit. -/
theorem Admitted.limit {b : Board} {args : CrossSend} {link : Link} (h : Admitted b args link) :
    0 ≤ link.scope.max_payload_bytes := (Int.natCast_nonneg _).trans h.size

end InterCompany

end CompanyFactory
