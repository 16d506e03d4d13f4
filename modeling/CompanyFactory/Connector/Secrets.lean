import CompanyFactory.Exceptions
import CompanyFactory.Lib.Utf8
import Mathlib.Logic.Function.Basic
import Mathlib.Tactic.Ring

/-!
# `Connector.Secrets` — sealed secrets at rest

A secret is sealed under the master key: a key stream is laid over the plaintext, and a tag authenticates what
comes out, with the nonce in front. The keys for both are derived from the master key and the nonce. Nothing is
asked of the two hash functions but that their values have 32 bytes.

* `keystream_ok` — the key stream is as long as asked for, until its counter has no room in eight bytes.
* `open_seal` — what is sealed is opened again, and nothing is that has not the right tag.
* `get_set` — the store gives back what was put into it.
-/

namespace CompanyFactory

namespace Secrets

/-- SHA-256 and HMAC-SHA256 (of a key and a message). -/
structure Hashes where
  sha256 : List UInt8 → Vector UInt8 32
  hmac : List UInt8 → List UInt8 → Vector UInt8 32

/-- A `bytes` object; none is longer than `sys.maxsize`. -/
structure Bytes where
  data : List UInt8
  size_le : data.length < 2 ^ 63

def ENC : List UInt8 := [0x65, 0x6e, 0x63]

def MAC : List UInt8 := [0x6d, 0x61, 0x63]

/-- `counter.to_bytes(8, "big")` -/
def to_bytes (counter : Nat) : Except Exn (List UInt8) :=
  if counter < 2 ^ 64 then .ok ((List.range 8).map fun i => UInt8.ofNat (counter / 256 ^ (7 - i)))
  else .error (.other "OverflowError" "int too big to convert")

/-- `bytes(p ^ k for p, k in zip(text, stream, strict=True))` -/
def xor_strict (text stream : List UInt8) : Except Exn (List UInt8) :=
  if text.length < stream.length then .error (.valueError "zip() argument 2 is longer than argument 1")
  else if stream.length < text.length then .error (.valueError "zip() argument 2 is shorter than argument 1")
  else .ok (List.zipWith (· ^^^ ·) text stream)

section

variable (h : Hashes)

def _kdf (master_key salt info : List UInt8) : List UInt8 :=
  let prk := (h.hmac salt master_key).toList
  (h.hmac prk (info ++ [1])).toList

/-- The loop of `_keystream`. -/
def keystream_from (key nonce : List UInt8) (length counter : Nat) (out : List UInt8) : Except Exn (List UInt8) :=
  if out.length < length then
    match to_bytes counter with
    | .error e => .error e
    | .ok bytes =>
        let block := (h.sha256 (key ++ nonce ++ bytes)).toList
        keystream_from key nonce length (counter + 1) (out ++ block)
  else .ok (out.take length)
termination_by length - out.length
decreasing_by
  rw [List.length_append, Vector.length_toList]
  omega

def _keystream (key nonce : List UInt8) (length : Nat) : Except Exn (List UInt8) :=
  keystream_from h key nonce length 0 []

/-- `_seal`; `nonce` is what `os.urandom(12)` answers. -/
def _seal (master_key : List UInt8) (nonce : Vector UInt8 12) (plaintext : List UInt8) : Except Exn (List UInt8) := do
  let enc_key := _kdf h master_key nonce.toList ENC
  let mac_key := _kdf h master_key nonce.toList MAC
  let ct ← xor_strict plaintext (← _keystream h enc_key nonce.toList plaintext.length)
  let tag := (h.hmac mac_key (nonce.toList ++ ct)).toList
  return nonce.toList ++ tag ++ ct

/-- The tag that belongs to the nonce and the text of a blob. -/
def expected (master_key blob : List UInt8) : List UInt8 :=
  (h.hmac (_kdf h master_key (blob.take 12) MAC) (blob.take 12 ++ blob.drop 44)).toList

/-- The tag that a blob has. -/
def tag (blob : List UInt8) : List UInt8 := (blob.take 44).drop 12

def _open (master_key blob : List UInt8) : Except Exn (List UInt8) :=
  if blob.length < 12 + 32 then .error (.valueError "ciphertext too short")
  else
    let nonce := blob.take 12
    let ct := blob.drop 44
    let enc_key := _kdf h master_key nonce ENC
    if expected h master_key blob ≠ tag blob then .error (.valueError "authentication failed")
    else do xor_strict ct (← _keystream h enc_key nonce ct.length)

end

variable {h : Hashes}

/-! ## The key stream -/

/-- One block is added at a time, so the counter counts them. -/
theorem keystream_from_ok (key nonce : List UInt8) {length : Nat} (hlen : length ≤ 32 * 2 ^ 64) (counter : Nat)
    (out : List UInt8) (hout : out.length = 32 * counter) :
    ∃ stream, keystream_from h key nonce length counter out = .ok stream ∧ stream.length = length := by
  fun_induction keystream_from h key nonce length counter out with
  | case1 counter out hlt e hbytes =>
      unfold to_bytes at hbytes
      rw [if_pos (by omega)] at hbytes
      cases hbytes
  | case2 counter out hlt bytes hbytes block ih =>
      refine ih ?_
      rw [List.length_append, hout, Vector.length_toList]
      ring
  | case3 counter out hge => exact ⟨_, rfl, by rw [List.length_take]; omega⟩

theorem keystream_ok (key nonce : List UInt8) {length : Nat} (hlen : length ≤ 32 * 2 ^ 64) :
    ∃ stream, _keystream h key nonce length = .ok stream ∧ stream.length = length :=
  keystream_from_ok key nonce hlen 0 [] rfl

/-! ## Laying the stream over a text -/

theorem xor_strict_ok {text stream : List UInt8} (hlen : stream.length = text.length) :
    xor_strict text stream = .ok (List.zipWith (· ^^^ ·) text stream) := by
  unfold xor_strict
  rw [if_neg (by omega), if_neg (by omega)]

/-- Laid over the text twice, the stream cancels out. -/
theorem xor_twice {text stream : List UInt8} (hlen : stream.length = text.length) :
    List.zipWith (· ^^^ ·) (List.zipWith (· ^^^ ·) text stream) stream = text := by
  induction text generalizing stream with
  | nil => simp
  | cons b text ih =>
      cases stream with
      | nil => cases hlen
      | cons k stream =>
          rw [List.zipWith_cons_cons, List.zipWith_cons_cons, ih (Nat.succ.inj hlen), UInt8.xor_assoc, UInt8.xor_self,
            UInt8.xor_zero]

/-! ## Sealing and opening -/

/-- The parts of a blob, by their offsets. -/
theorem blob_parts (nonce mac ct : List UInt8) (hn : nonce.length = 12) (hm : mac.length = 32) :
    (nonce ++ mac ++ ct).take 12 = nonce ∧ tag (nonce ++ mac ++ ct) = mac ∧ (nonce ++ mac ++ ct).drop 44 = ct ∧
      ¬ (nonce ++ mac ++ ct).length < 12 + 32 := by
  have hhead : (nonce ++ mac).length = 44 := by rw [List.length_append, hn, hm]
  refine ⟨?_, ?_, ?_, ?_⟩
  · rw [List.append_assoc, ← hn, List.take_left]
  · rw [tag, ← hhead, List.take_left, ← hn, List.drop_left]
  · rw [← hhead, List.drop_left]
  · rw [List.length_append, hhead]
    omega

/-- The blob that `_seal` makes of the text under the stream. -/
def blob (h : Hashes) (master_key : List UInt8) (nonce : Vector UInt8 12) (ct : List UInt8) : List UInt8 :=
  nonce.toList ++ (h.hmac (_kdf h master_key nonce.toList MAC) (nonce.toList ++ ct)).toList ++ ct

/-- Its tag is the one that belongs to it, so that the stream is laid over the text again. -/
theorem open_blob (master_key : List UInt8) (nonce : Vector UInt8 12) (ct : List UInt8) {stream : List UInt8}
    (hstream : _keystream h (_kdf h master_key nonce.toList ENC) nonce.toList ct.length = .ok stream) :
    _open h master_key (blob h master_key nonce ct) = xor_strict ct stream := by
  obtain ⟨hnonce, htag, hct, hlong⟩ := blob_parts nonce.toList
    (h.hmac (_kdf h master_key nonce.toList MAC) (nonce.toList ++ ct)).toList ct Vector.length_toList
    Vector.length_toList
  have hexpected : expected h master_key (blob h master_key nonce ct) = tag (blob h master_key nonce ct) := by
    unfold expected blob
    rw [hnonce, htag, hct]
  unfold _open
  rw [if_neg (show ¬ (blob h master_key nonce ct).length < 12 + 32 from hlong)]
  dsimp only
  rw [if_neg (fun hne => hne hexpected)]
  unfold blob
  rw [hnonce, hct, hstream]
  rfl

/-- A sealed text is opened again, as long as the counter has room. -/
theorem open_of_seal (master_key : List UInt8) (nonce : Vector UInt8 12) {plaintext : List UInt8}
    (hlen : plaintext.length ≤ 32 * 2 ^ 64) :
    ∃ b, _seal h master_key nonce plaintext = .ok b ∧ _open h master_key b = .ok plaintext := by
  obtain ⟨stream, hstream, hsize⟩ := keystream_ok (h := h) (_kdf h master_key nonce.toList ENC) nonce.toList hlen
  have hct : (List.zipWith (· ^^^ ·) plaintext stream).length = plaintext.length := by
    rw [List.length_zipWith, hsize, Nat.min_self]
  refine ⟨blob h master_key nonce (List.zipWith (· ^^^ ·) plaintext stream), ?_, ?_⟩
  · unfold _seal
    dsimp only [bind, Except.bind]
    rw [hstream]
    dsimp only
    rw [xor_strict_ok hsize]
    rfl
  · rw [open_blob master_key nonce _ (hct ▸ hstream), xor_strict_ok (by rw [hct, hsize]), xor_twice hsize]

/-- Whatever has not the tag that belongs to it is refused. -/
theorem open_of_wrong_tag {master_key blob : List UInt8} (hne : tag blob ≠ expected h master_key blob) :
    ∃ message, _open h master_key blob = .error (.valueError message) := by
  unfold _open
  split
  · exact ⟨_, rfl⟩
  · exact ⟨_, if_pos (Ne.symm hne)⟩

/-- **Sealing and opening.** -/
theorem open_seal (h : Hashes) (master_key : List UInt8) :
    (∀ (nonce : Vector UInt8 12) (plaintext : Bytes), ∃ blob,
        _seal h master_key nonce plaintext.data = .ok blob ∧ _open h master_key blob = .ok plaintext.data) ∧
      ∀ blob, tag blob ≠ expected h master_key blob →
        ∃ message, _open h master_key blob = .error (.valueError message) := by
  refine ⟨fun nonce plaintext => ?_, fun blob hne => open_of_wrong_tag hne⟩
  have hsize := plaintext.size_le
  exact open_of_seal master_key nonce (by omega)

/-- Under hashes that are all zero: the empty text, and a blob of sevens. -/
theorem open_seal_zero :
    (∃ b, _seal ⟨fun _ => .replicate 32 0, fun _ _ => .replicate 32 0⟩ [1] (.replicate 12 0) [] = .ok b ∧
        _open ⟨fun _ => .replicate 32 0, fun _ _ => .replicate 32 0⟩ [1] b = .ok []) ∧
      ∃ message, _open ⟨fun _ => .replicate 32 0, fun _ _ => .replicate 32 0⟩ [1] (.replicate 44 7) =
        .error (.valueError message) :=
  ⟨(open_seal _ _).1 (.replicate 12 0) ⟨[], by decide⟩, (open_seal _ _).2 (.replicate 44 7) (by decide)⟩

/-! ## The store -/

/-- `EncryptedSqliteSecrets`: the master key, and the blobs of the table under service and key. -/
structure Store where
  master : List UInt8
  blobs : String × String → Option (List UInt8)

/-- `__init__` -/
def Store.make (blobs : String × String → Option (List UInt8)) (master_key : List UInt8) : Except Exn Store :=
  if master_key.length < 16 then .error (.valueError "master_key must be at least 16 bytes")
  else .ok ⟨master_key, blobs⟩

/-- `bytes.decode("utf-8")` -/
def decode (bytes : List UInt8) : Except Exn String :=
  match String.fromUTF8? bytes.toByteArray with
  | some text => .ok text
  | none => .error (.other "UnicodeDecodeError" "invalid start byte")

def Store.get (h : Hashes) (store : Store) (service key : String) : Except Exn String :=
  match store.blobs (service, key) with
  | none => .error (.other "MissingCredential" (service ++ ":" ++ key))
  | some blob => do decode (← _open h store.master blob)

/-- `set`; nothing is written when the sealing raises. -/
def Store.set (h : Hashes) (nonce : Vector UInt8 12) (store : Store) (service key value : String) :
    Except Exn Store := do
  let blob ← _seal h store.master nonce (Utf8.encode value.toList)
  return { store with blobs := Function.update store.blobs (service, key) (some blob) }

/-- A text is decoded from its encoding. -/
theorem decode_encode (text : String) : decode (Utf8.encode text.toList) = .ok text := by
  have hbytes : (Utf8.encode text.toList).toByteArray = text.toByteArray := String.utf8Encode_toList
  unfold decode String.fromUTF8?
  rw [hbytes, dif_pos text.isValidUTF8]
  rfl

/-- **A secret that was put into the store comes out again**, and no other is touched. -/
theorem get_set (h : Hashes) (nonce : Vector UInt8 12) (store : Store) (service key value : String)
    (hsize : (Utf8.encode value.toList).length < 2 ^ 63) :
    ∃ after, store.set h nonce service key value = .ok after ∧ after.get h service key = .ok value ∧
      ∀ s k, (s, k) ≠ (service, key) → after.get h s k = store.get h s k := by
  have hlen : (Utf8.encode value.toList).length ≤ 32 * 2 ^ 64 := by omega
  obtain ⟨b, hseal, hopen⟩ := open_of_seal (h := h) store.master nonce hlen
  refine ⟨{ store with blobs := Function.update store.blobs (service, key) (some b) }, ?_, ?_, ?_⟩
  · unfold Store.set
    rw [hseal]
    rfl
  · unfold Store.get
    dsimp only [bind, Except.bind]
    rw [Function.update_self]
    dsimp only
    rw [hopen]
    exact decode_encode value
  · intro s k hne
    unfold Store.get
    dsimp only
    rw [Function.update_of_ne hne]

end Secrets

end CompanyFactory
