import Mathlib.Data.String.Basic

/-!
# `Lib.Utf8` — cutting an encoded text

A text is encoded, the bytes are cut somewhere, and what is left is decoded again, leaving out the bytes that
belong to no whole character. The cut may fall inside a character; its first bytes are then left out one by
one, since none of them starts a character that is still whole.

* `Utf8.decode` — decoding that leaves out what it cannot read.
* `Utf8.Longest` — the longest start of a text whose encoding has at most that many bytes.
* `Utf8.decode_take` — decoding the cut gives this start.
-/

namespace Utf8

open String (utf8EncodeChar)

/-- The encodings of the characters, one after the other. -/
def encode (cs : List Char) : List UInt8 := cs.flatMap utf8EncodeChar

/-- The character whose encoding the bytes start with. -/
def first (bytes : List UInt8) : Option Char := bytes.toByteArray.utf8DecodeChar? 0

/-- The characters that can be read; the first `skip` bytes belong to the character read last. -/
def decode_from : Nat → List UInt8 → List Char
  | _, [] => []
  | skip + 1, _ :: bytes => decode_from skip bytes
  | 0, b :: bytes =>
      match first (b :: bytes) with
      | some c => c :: decode_from (c.utf8Size - 1) bytes
      | none => decode_from 0 bytes

def decode (bytes : List UInt8) : List Char := decode_from 0 bytes

/-- The longest start of the text with an encoding of at most `n` bytes. -/
structure Longest (n : Nat) (cs ds : List Char) : Prop where
  start : ds <+: cs
  fits : (encode ds).length ≤ n
  longest : ∀ es, es <+: cs → (encode es).length ≤ n → es <+: ds

/-! ## Encoding -/

@[simp] theorem encode_nil : encode [] = [] := rfl

@[simp] theorem encode_cons (c : Char) (cs : List Char) : encode (c :: cs) = utf8EncodeChar c ++ encode cs :=
  List.flatMap_cons

/-- The encoding of a text has the size of the text. -/
theorem length_encode (cs : List Char) : (encode cs).length = (String.ofList cs).utf8ByteSize := by
  rw [String.utf8ByteSize_ofList]
  induction cs with
  | nil => rfl
  | cons c cs ih => rw [encode_cons, List.length_append, ih, String.length_utf8EncodeChar, String.utf8Len_cons,
      Nat.add_comm]

/-! ## ASCII -/

/-- The byte of an ASCII character is its code. -/
theorem encode_ascii {cs : List Char} (h : ∀ c ∈ cs, c.toNat < 128) : (encode cs).map UInt8.toNat = cs.map Char.toNat := by
  induction cs with
  | nil => rfl
  | cons c cs ih =>
    have hc : c.toNat < 128 := h c List.mem_cons_self
    have hsize : c.utf8Size = 1 := by
      rw [Char.utf8Size, if_pos]
      exact UInt32.le_iff_toNat_le.mpr (Nat.le_of_lt_succ hc)
    have hbyte : c.val.toUInt8.toNat = c.toNat := by
      rw [UInt32.toNat_toUInt8]
      exact Nat.mod_eq_of_lt (Nat.lt_trans hc (by decide))
    rw [encode_cons, String.utf8EncodeChar_eq_singleton hsize, List.singleton_append, List.map_cons, List.map_cons, hbyte,
      ih fun d hd => h d (List.mem_cons_of_mem c hd)]

/-! ## One character -/

theorem first_encode (c : Char) (bytes : List UInt8) : first (utf8EncodeChar c ++ bytes) = some c := by
  rw [first, List.toByteArray_append]
  exact ByteArray.utf8DecodeChar?_utf8EncodeChar_append

/-- What is read is there. -/
theorem of_first {bytes : List UInt8} {c : Char} (h : first bytes = some c) :
    ∃ rest, bytes = utf8EncodeChar c ++ rest := by
  obtain ⟨l, hl⟩ := ByteArray.exists_of_utf8DecodeChar?_eq_some h
  refine ⟨l.data.toList, ?_⟩
  have hdata := congrArg (fun b => b.data.toList) hl
  simpa using hdata

/-- A byte inside the encoding of a character starts no character. -/
theorem first_inside (c : Char) {i : Nat} (hi : 0 < i) {bytes : List UInt8}
    (h : bytes <+: (utf8EncodeChar c).drop i) : first bytes = none := by
  cases hf : first bytes with
  | none => rfl
  | some d =>
      exfalso
      obtain ⟨rest, rfl⟩ := of_first hf
      have hlen : 0 < (utf8EncodeChar d).length := by rw [String.length_utf8EncodeChar]; exact d.utf8Size_pos
      have hstart : utf8EncodeChar d <+: (utf8EncodeChar c).drop i := (List.prefix_append _ _).trans h
      have hin : i < (utf8EncodeChar c).length := by
        have hle := hstart.length_le
        rw [List.length_drop] at hle
        omega
      -- the first byte of the second character is byte `i` of the first one
      have hbyte : (utf8EncodeChar d)[0] = (utf8EncodeChar c)[i] := by
        have hget := hstart.getElem hlen
        simpa using hget
      have hfirst : (utf8EncodeChar d)[0].IsUTF8FirstByte := UInt8.isUTF8FirstByte_getElem_utf8EncodeChar.mpr rfl
      rw [hbyte, UInt8.isUTF8FirstByte_getElem_utf8EncodeChar] at hfirst
      omega

/-- The first bytes of a character that is not whole start no character. -/
theorem first_part (c : Char) {n : Nat} (hn : n < c.utf8Size) : first ((utf8EncodeChar c).take n) = none := by
  cases hf : first ((utf8EncodeChar c).take n) with
  | none => rfl
  | some d =>
      exfalso
      obtain ⟨rest, hrest⟩ := of_first hf
      have hwhole : utf8EncodeChar c = utf8EncodeChar d ++ (rest ++ (utf8EncodeChar c).drop n) := by
        rw [← List.append_assoc, ← hrest, List.take_append_drop]
      have hsame : some c = some d := by
        rw [← first_encode c [], List.append_nil, hwhole, first_encode]
      cases hsame
      have hlen := congrArg List.length hrest
      rw [List.length_append, List.length_take, String.length_utf8EncodeChar] at hlen
      omega

/-! ## Decoding -/

theorem decode_from_eq (skip : Nat) (bytes : List UInt8) : decode_from skip bytes = decode (bytes.drop skip) := by
  induction skip generalizing bytes with
  | zero => rfl
  | succ n ih =>
      cases bytes with
      | nil => rfl
      | cons b bytes => exact ih bytes

/-- A whole character is read. -/
theorem decode_char (c : Char) (bytes : List UInt8) : decode (utf8EncodeChar c ++ bytes) = c :: decode bytes := by
  have hlen := String.length_utf8EncodeChar c
  have hfirst := first_encode c bytes
  cases henc : utf8EncodeChar c with
  | nil => rw [henc] at hlen; exact absurd hlen (Nat.ne_of_lt c.utf8Size_pos)
  | cons b more =>
      rw [henc, List.cons_append] at hfirst
      rw [List.cons_append, decode, decode_from, hfirst]
      rw [henc, List.length_cons] at hlen
      dsimp only
      rw [decode_from_eq, ← hlen, Nat.add_sub_cancel, List.drop_left]

/-- A byte that starts no character is left out. -/
theorem decode_unread {b : UInt8} {bytes : List UInt8} (h : first (b :: bytes) = none) :
    decode (b :: bytes) = decode bytes := by
  rw [decode, decode_from, h]
  rfl

/-- Bytes from inside a character are left out. -/
theorem decode_inside (c : Char) {i : Nat} (hi : 0 < i) {bytes : List UInt8}
    (h : bytes <+: (utf8EncodeChar c).drop i) : decode bytes = [] := by
  induction bytes generalizing i with
  | nil => rfl
  | cons b bytes ih =>
      rw [decode_unread (first_inside c hi h)]
      -- the rest lies one byte further in
      refine ih (i := i + 1) (Nat.succ_pos i) ?_
      obtain ⟨more, hmore⟩ := h
      exact ⟨more, by rw [← List.tail_drop, ← hmore]; rfl⟩

/-- The first bytes of a character that is not whole are left out. -/
theorem decode_part (c : Char) {n : Nat} (hn : n < c.utf8Size) : decode ((utf8EncodeChar c).take n) = [] := by
  have hnone := first_part c hn
  have hstart : (utf8EncodeChar c).take n <+: utf8EncodeChar c := List.take_prefix _ _
  cases hpart : (utf8EncodeChar c).take n with
  | nil => rfl
  | cons b bytes =>
      rw [hpart] at hnone hstart
      rw [decode_unread hnone]
      refine decode_inside c Nat.one_pos ?_
      obtain ⟨more, hmore⟩ := hstart
      exact ⟨more, by rw [← hmore]; rfl⟩

/-! ## The cut -/

theorem Longest.unique {n : Nat} {cs ds es : List Char} (hd : Longest n cs ds) (he : Longest n cs es) : ds = es :=
  (he.longest ds hd.start hd.fits).eq_of_length_le (hd.longest es he.start he.fits).length_le

theorem Longest.whole {n : Nat} {cs : List Char} (h : (encode cs).length ≤ n) : Longest n cs cs where
  start := List.prefix_rfl
  fits := h
  longest := fun _ hes _ => hes

theorem Longest.nil_of_lt {n : Nat} {c : Char} {cs : List Char} (h : n < c.utf8Size) : Longest n (c :: cs) [] where
  start := List.nil_prefix
  fits := Nat.zero_le n
  longest := by
    intro es hes hfits
    cases es with
    | nil => exact List.prefix_rfl
    | cons e es =>
        obtain ⟨rfl, -⟩ := List.cons_prefix_cons.mp hes
        rw [encode_cons, List.length_append, String.length_utf8EncodeChar] at hfits
        omega

theorem Longest.cons {n : Nat} {c : Char} {cs ds : List Char} (hc : c.utf8Size ≤ n)
    (h : Longest (n - c.utf8Size) cs ds) : Longest n (c :: cs) (c :: ds) where
  start := List.cons_prefix_cons.mpr ⟨rfl, h.start⟩
  fits := by
    have hfits := h.fits
    rw [encode_cons, List.length_append, String.length_utf8EncodeChar]
    omega
  longest := by
    intro es hes hfits
    cases es with
    | nil => exact List.nil_prefix
    | cons e es =>
        obtain ⟨rfl, hrest⟩ := List.cons_prefix_cons.mp hes
        rw [encode_cons, List.length_append, String.length_utf8EncodeChar] at hfits
        exact List.cons_prefix_cons.mpr ⟨rfl, h.longest es hrest (by omega)⟩

/-- **Decoding the first `n` bytes gives the longest start that fits.** -/
theorem decode_take (n : Nat) (cs : List Char) : Longest n cs (decode ((encode cs).take n)) := by
  induction cs generalizing n with
  | nil =>
      rw [encode_nil, List.take_nil]
      exact Longest.whole (Nat.zero_le n)
  | cons c cs ih =>
      have hlen := String.length_utf8EncodeChar c
      by_cases hc : c.utf8Size ≤ n
      · -- the character is whole, and the cut falls behind it
        rw [encode_cons, List.take_append, List.take_of_length_le (hlen.trans_le hc), decode_char, hlen]
        exact Longest.cons hc (ih _)
      · -- the cut falls inside the character
        have hn : n < c.utf8Size := Nat.lt_of_not_le hc
        rw [encode_cons, List.take_append_of_le_length (by omega), decode_part c hn]
        exact Longest.nil_of_lt hn

end Utf8
