import Mathlib.Data.List.TakeWhile
import Mathlib.Tactic.Basic

/-!
# `Lib.JsonText` — JSON documents as text

`dumps` writes a document without blanks and in ASCII: what is not printable is escaped, a character beyond the basic
plane as two surrogates. `loads` reads any document, with blanks between its tokens. A number is kept as it is written,
so that the reader of the document says what it stands for.

* `next_char_escape` — one escaped character is read back.
* `loads_dumps` — a document is read back, whatever its strings are.
-/

namespace JsonText

inductive Value where
  | null
  | bool (b : Bool)
  /-- a number, as it is written -/
  | number (token : List Char)
  | str (s : String)
  | arr (xs : List Value)
  | obj (fields : List (String × Value))

/-! ## Characters -/

/-- `"%04x"` -/
def hex4 (n : Nat) : List Char :=
  [Nat.digitChar (n / 4096 % 16), Nat.digitChar (n / 256 % 16), Nat.digitChar (n / 16 % 16), Nat.digitChar (n % 16)]

/-- The letter of a short escape. -/
def short_escape : Char → Option Char
  | '"' => some '"'
  | '\\' => some '\\'
  | '\n' => some 'n'
  | '\r' => some 'r'
  | '\t' => some 't'
  | '\x0c' => some 'f'
  | '\x08' => some 'b'
  | _ => none

def escape (c : Char) : List Char :=
  match short_escape c with
  | some letter => ['\\', letter]
  | none =>
    if 32 ≤ c.toNat ∧ c.toNat < 127 then [c]
    else if c.toNat < 65536 then '\\' :: 'u' :: hex4 c.toNat
    else
      let n := c.toNat - 65536
      '\\' :: 'u' :: (hex4 (55296 + n / 1024) ++ '\\' :: 'u' :: hex4 (56320 + n % 1024))

def quoted (s : String) : List Char := '"' :: (s.toList.flatMap escape ++ ['"'])

def hex_value (c : Char) : Option Nat :=
  if c.isDigit then some (c.toNat - 48)
  else if 'a' ≤ c ∧ c ≤ 'f' then some (c.toNat - 87)
  else if 'A' ≤ c ∧ c ≤ 'F' then some (c.toNat - 55)
  else none

def read_hex4 : List Char → Option (Nat × List Char)
  | a :: b :: c :: d :: rest =>
    match hex_value a, hex_value b, hex_value c, hex_value d with
    | some a, some b, some c, some d => some (((a * 16 + b) * 16 + c) * 16 + d, rest)
    | _, _, _, _ => none
  | _ => none

def unescape : Char → Option Char
  | '"' => some '"'
  | '\\' => some '\\'
  | '/' => some '/'
  | 'n' => some '\n'
  | 'r' => some '\r'
  | 't' => some '\t'
  | 'f' => some '\x0c'
  | 'b' => some '\x08'
  | _ => none

/-- What follows `\u`. A surrogate without its partner is no character here. -/
def read_unicode (cs : List Char) : Option (Char × List Char) :=
  match read_hex4 cs with
  | none => none
  | some (n, rest) =>
    if 55296 ≤ n ∧ n < 56320 then
      match rest with
      | '\\' :: 'u' :: rest =>
        match read_hex4 rest with
        | some (m, rest) =>
          if 56320 ≤ m ∧ m < 57344 then some (Char.ofNat (65536 + (n - 55296) * 1024 + (m - 56320)), rest) else none
        | none => none
      | _ => none
    else if 56320 ≤ n ∧ n < 57344 then none
    else some (Char.ofNat n, rest)

/-- One character of a string. -/
def next_char : List Char → Option (Char × List Char)
  | [] => none
  | c :: rest =>
    if c = '\\' then
      match rest with
      | [] => none
      | d :: rest => if d = 'u' then read_unicode rest else (unescape d).map fun c => (c, rest)
    else if c.toNat < 32 then none
    else some (c, rest)

/-- A string after its opening quote. -/
def read_string : Nat → List Char → Option (List Char × List Char)
  | 0, _ => none
  | fuel + 1, cs =>
    match cs with
    | '"' :: rest => some ([], rest)
    | cs =>
      match next_char cs with
      | none => none
      | some (c, rest) => (read_string fuel rest).map fun r => (c :: r.1, r.2)

/-! ## Numbers -/

def is_number_char (c : Char) : Bool := c.isDigit || c ∈ ['-', '+', '.', 'e', 'E']

def valid_exponent : List Char → Bool
  | [] => true
  | c :: rest =>
    (c = 'e' || c = 'E') &&
      (match rest with
        | '-' :: rest => rest ≠ [] && rest.all Char.isDigit
        | '+' :: rest => rest ≠ [] && rest.all Char.isDigit
        | rest => rest ≠ [] && rest.all Char.isDigit)

def valid_fraction : List Char → Bool
  | '.' :: rest => rest.takeWhile Char.isDigit ≠ [] && valid_exponent (rest.dropWhile Char.isDigit)
  | rest => valid_exponent rest

/-- Digits without a zero in front. -/
def valid_whole (ds : List Char) : Bool := ds = ['0'] || (ds ≠ [] && ds.head? ≠ some '0')

def valid_unsigned (cs : List Char) : Bool :=
  valid_whole (cs.takeWhile Char.isDigit) && valid_fraction (cs.dropWhile Char.isDigit)

/-- `-?(0|[1-9]\d*)(\.\d+)?([eE][-+]?\d+)?` -/
def valid_number (token : List Char) : Bool :=
  token.all is_number_char &&
    (match token with
      | '-' :: rest => valid_unsigned rest
      | token => valid_unsigned token)

/-- No character of a number may follow one. -/
def read_number (cs : List Char) : Option (Value × List Char) :=
  let token := cs.takeWhile is_number_char
  if valid_number token then some (.number token, cs.dropWhile is_number_char) else none

/-! ## Documents -/

mutual

def dumps : Value → List Char
  | .null => "null".toList
  | .bool true => "true".toList
  | .bool false => "false".toList
  | .number token => token
  | .str s => quoted s
  | .arr [] => ['[', ']']
  | .arr (x :: xs) => '[' :: (dumps x ++ more_elements xs)
  | .obj [] => ['\x7b', '\x7d']
  | .obj ((k, v) :: fields) => '\x7b' :: (quoted k ++ ':' :: (dumps v ++ more_members fields))

def more_elements : List Value → List Char
  | [] => [']']
  | x :: xs => ',' :: (dumps x ++ more_elements xs)

def more_members : List (String × Value) → List Char
  | [] => ['\x7d']
  | (k, v) :: fields => ',' :: (quoted k ++ ':' :: (dumps v ++ more_members fields))

end

def is_blank (c : Char) : Bool := c ∈ [' ', '\t', '\n', '\r']

def skip (cs : List Char) : List Char := cs.dropWhile is_blank

/-- A word such as `null`. -/
def literal (word : List Char) (v : Value) (cs : List Char) : Option (Value × List Char) :=
  if word.isPrefixOf cs then some (v, cs.drop word.length) else none

def scalar : List Char → Option (Value × List Char)
  | [] => none
  | c :: rest =>
    if c = '"' then (read_string rest.length rest).map fun r => (.str (String.ofList r.1), r.2)
    else if c = 'n' then literal "ull".toList .null rest
    else if c = 't' then literal "rue".toList (.bool true) rest
    else if c = 'f' then literal "alse".toList (.bool false) rest
    else read_number (c :: rest)

mutual

def value : Nat → List Char → Option (Value × List Char)
  | 0, _ => none
  | fuel + 1, cs =>
    match skip cs with
    | '[' :: rest =>
      match skip rest with
      | ']' :: rest => some (.arr [], rest)
      | rest => (elements fuel rest).map fun r => (.arr r.1, r.2)
    | '\x7b' :: rest =>
      match skip rest with
      | '\x7d' :: rest => some (.obj [], rest)
      | rest => (members fuel rest).map fun r => (.obj r.1, r.2)
    | cs => scalar cs

def elements : Nat → List Char → Option (List Value × List Char)
  | 0, _ => none
  | fuel + 1, cs =>
    match value fuel cs with
    | none => none
    | some (x, rest) =>
      match skip rest with
      | ']' :: rest => some ([x], rest)
      | ',' :: rest => (elements fuel rest).map fun r => (x :: r.1, r.2)
      | _ => none

def members : Nat → List Char → Option (List (String × Value) × List Char)
  | 0, _ => none
  | fuel + 1, cs =>
    match skip cs with
    | '"' :: rest =>
      match read_string rest.length rest with
      | none => none
      | some (k, rest) =>
        match skip rest with
        | ':' :: rest =>
          match value fuel rest with
          | none => none
          | some (v, rest) =>
            match skip rest with
            | '\x7d' :: rest => some ([(String.ofList k, v)], rest)
            | ',' :: rest => (members fuel rest).map fun r => ((String.ofList k, v) :: r.1, r.2)
            | _ => none
        | _ => none
    | _ => none

end

/-- A whole text. -/
def loads (cs : List Char) : Option Value :=
  match value cs.length cs with
  | some (v, rest) => if skip rest = [] then some v else none
  | none => none

/-! ## Strings are read back -/

theorem hex_value_digitChar : ∀ n < 16, hex_value (Nat.digitChar n) = some n := by decide

theorem read_hex4_hex4 {n : Nat} (h : n < 65536) (rest : List Char) : read_hex4 (hex4 n ++ rest) = some (n, rest) := by
  have hdigit := fun k => hex_value_digitChar (k % 16) (Nat.mod_lt k (by decide))
  simp only [hex4, List.cons_append, List.nil_append, read_hex4, hdigit]
  congr 2
  omega

theorem toNat_valid (c : Char) : c.toNat < 55296 ∨ 57343 < c.toNat ∧ c.toNat < 1114112 := c.valid

/-- A character of the basic plane is no surrogate. -/
theorem read_unicode_basic {c : Char} (h : c.toNat < 65536) (rest : List Char) :
    read_unicode (hex4 c.toNat ++ rest) = some (c, rest) := by
  have hvalid := toNat_valid c
  rw [read_unicode, read_hex4_hex4 h]
  dsimp only
  rw [if_neg (by omega), if_neg (by omega), Char.ofNat_toNat]

theorem read_unicode_pair {c : Char} (h : 65536 ≤ c.toNat) (rest : List Char) :
    read_unicode (hex4 (55296 + (c.toNat - 65536) / 1024) ++ '\\' :: 'u' ::
      (hex4 (56320 + (c.toNat - 65536) % 1024) ++ rest)) = some (c, rest) := by
  have hvalid := toNat_valid c
  rw [read_unicode, read_hex4_hex4 (by omega)]
  dsimp only
  rw [if_pos (by omega)]
  simp only [read_hex4_hex4 (show 56320 + (c.toNat - 65536) % 1024 < 65536 by omega)]
  rw [if_pos (by omega)]
  -- the two surrogates make up the character
  have hsum : 65536 + (55296 + (c.toNat - 65536) / 1024 - 55296) * 1024 +
      (56320 + (c.toNat - 65536) % 1024 - 56320) = c.toNat := by omega
  rw [hsum, Char.ofNat_toNat]

theorem next_char_unicode (cs : List Char) : next_char ('\\' :: 'u' :: cs) = read_unicode cs := by
  simp [next_char]

/-- **One character is read back.** -/
theorem next_char_escape (c : Char) (rest : List Char) : next_char (escape c ++ rest) = some (c, rest) := by
  unfold escape
  split
  · rename_i letter hshort
    unfold short_escape at hshort
    split at hshort <;> cases hshort <;> simp [next_char, unescape]
  · rename_i hshort
    have hslash : c ≠ '\\' := by
      rintro rfl
      cases hshort
    split
    · rename_i hprintable
      simp only [List.cons_append, List.nil_append, next_char, if_neg hslash]
      rw [if_neg (by omega)]
    · split
      · rename_i hbasic
        rw [List.cons_append, List.cons_append, next_char_unicode]
        exact read_unicode_basic hbasic rest
      · rename_i hbasic
        dsimp only
        rw [List.cons_append, List.cons_append, List.append_assoc, next_char_unicode]
        exact read_unicode_pair (by omega) rest

/-- No escaped character begins with a quote. -/
theorem escape_head (c : Char) : ∃ d t, escape c = d :: t ∧ d ≠ '"' := by
  unfold escape
  split
  · exact ⟨_, _, rfl, by decide⟩
  · rename_i hshort
    split
    · refine ⟨c, [], rfl, ?_⟩
      rintro rfl
      cases hshort
    · split
      · exact ⟨_, _, rfl, by decide⟩
      · exact ⟨_, _, rfl, by decide⟩

theorem read_string_escape (s : List Char) :
    ∀ fuel rest, s.length < fuel → read_string fuel (s.flatMap escape ++ '"' :: rest) = some (s, rest) := by
  induction s with
  | nil =>
      intro fuel rest hfuel
      cases fuel with
      | zero => exact absurd hfuel (Nat.lt_irrefl 0)
      | succ fuel => rfl
  | cons c s ih =>
      intro fuel rest hfuel
      cases fuel with
      | zero => exact absurd hfuel (Nat.not_lt_zero _)
      | succ fuel =>
          obtain ⟨d, t, hescape, hquote⟩ := escape_head c
          have hnext := next_char_escape c (s.flatMap escape ++ '"' :: rest)
          rw [List.flatMap_cons, List.append_assoc]
          rw [hescape] at hnext ⊢
          rw [List.cons_append] at hnext ⊢
          rw [read_string]
          · rw [hnext]
            dsimp only
            rw [ih fuel rest (by simpa using hfuel)]
            rfl
          · rintro rest' heq
            cases heq
            exact hquote rfl

theorem length_le_escape (s : List Char) : s.length ≤ (s.flatMap escape).length := by
  induction s with
  | nil => exact Nat.le_refl 0
  | cons c s ih =>
      obtain ⟨d, t, hescape, -⟩ := escape_head c
      rw [List.flatMap_cons, List.length_append, hescape, List.length_cons, List.length_cons]
      omega

/-- **A quoted string is read back.** -/
theorem read_string_quoted (s : String) (rest : List Char) :
    read_string (s.toList.flatMap escape ++ '"' :: rest).length (s.toList.flatMap escape ++ '"' :: rest) =
      some (s.toList, rest) := by
  apply read_string_escape
  have hle := length_le_escape s.toList
  simp only [List.length_append, List.length_cons]
  omega

/-! ## Documents are read back -/

/-- Every number of the document is one. -/
inductive WellFormed : Value → Prop where
  | null : WellFormed .null
  | bool (b : Bool) : WellFormed (.bool b)
  | number {token : List Char} : valid_number token = true → WellFormed (.number token)
  | str (s : String) : WellFormed (.str s)
  | arr {xs : List Value} : (∀ x ∈ xs, WellFormed x) → WellFormed (.arr xs)
  | obj {fields : List (String × Value)} : (∀ f ∈ fields, WellFormed f.2) → WellFormed (.obj fields)

/-- A number may end here. -/
def Follows (rest : List Char) : Prop := ∀ c ∈ rest.head?, is_number_char c = false

theorem follows_cons {c : Char} {rest : List Char} (h : is_number_char c = false) : Follows (c :: rest) := by
  intro d hd
  cases hd
  exact h

theorem number_chars {token : List Char} (h : valid_number token = true) : ∀ c ∈ token, is_number_char c = true := by
  unfold valid_number at h
  exact List.all_eq_true.mp (Bool.and_eq_true_iff.mp h).1

theorem number_ne_nil {token : List Char} (h : valid_number token = true) : token ≠ [] := by
  rintro rfl
  exact absurd h (by decide)

theorem read_number_append {token rest : List Char} (h : valid_number token = true) (hrest : Follows rest) :
    read_number (token ++ rest) = some (.number token, rest) := by
  have hchars := number_chars h
  have htake : rest.takeWhile is_number_char = [] := by
    cases rest with
    | nil => rfl
    | cons c rest => rw [List.takeWhile_cons_of_neg (by rw [hrest c rfl]; exact Bool.false_ne_true)]
  have hdrop : rest.dropWhile is_number_char = rest := by
    cases rest with
    | nil => rfl
    | cons c rest => rw [List.dropWhile_cons_of_neg (by rw [hrest c rfl]; exact Bool.false_ne_true)]
  rw [read_number, List.takeWhile_append_of_pos hchars, List.dropWhile_append_of_pos hchars, htake, hdrop,
    List.append_nil]
  exact if_pos h

/-- Where a document may begin. -/
def Starts (c : Char) : Prop := c ∈ ['n', 't', 'f', '"', '[', '\x7b'] ∨ is_number_char c = true

theorem dumps_null : dumps .null = 'n' :: "ull".toList := by
  rw [dumps]
  decide

theorem dumps_true : dumps (.bool true) = 't' :: "rue".toList := by
  rw [dumps]
  decide

theorem dumps_false : dumps (.bool false) = 'f' :: "alse".toList := by
  rw [dumps]
  decide

theorem dumps_head {v : Value} (h : WellFormed v) : ∃ c t, dumps v = c :: t ∧ Starts c := by
  cases h with
  | null => exact ⟨'n', _, dumps_null, .inl (by decide)⟩
  | bool b =>
      cases b with
      | true => exact ⟨'t', _, dumps_true, .inl (by decide)⟩
      | false => exact ⟨'f', _, dumps_false, .inl (by decide)⟩
  | @number token htoken =>
      rw [dumps]
      cases htoken' : token with
      | nil => exact absurd htoken' (number_ne_nil htoken)
      | cons c t => exact ⟨c, t, rfl, .inr (number_chars htoken c (by rw [htoken']; exact List.mem_cons_self))⟩
  | str s =>
      rw [dumps]
      exact ⟨'"', _, rfl, .inl (by decide)⟩
  | @arr xs _ =>
      cases xs with
      | nil => exact ⟨'[', [']'], by rw [dumps], .inl (by decide)⟩
      | cons x xs => exact ⟨'[', _, by rw [dumps], .inl (by decide)⟩
  | @obj fields _ =>
      cases fields with
      | nil => exact ⟨'\x7b', ['\x7d'], by rw [dumps], .inl (by decide)⟩
      | cons f fields =>
          obtain ⟨k, v⟩ := f
          exact ⟨'\x7b', _, by rw [dumps], .inl (by decide)⟩

theorem skip_cons {c : Char} {rest : List Char} (h : is_blank c = false) : skip (c :: rest) = c :: rest :=
  List.dropWhile_cons_of_neg (by rw [h]; exact Bool.false_ne_true)

theorem Starts.no_blank {c : Char} (h : Starts c) : is_blank c = false := by
  rcases h with h | h
  · simp only [List.mem_cons, List.not_mem_nil, or_false] at h
    rcases h with rfl | rfl | rfl | rfl | rfl | rfl <;> decide
  · cases hblank : is_blank c with
    | false => rfl
    | true =>
        rw [is_blank, decide_eq_true_eq] at hblank
        simp only [List.mem_cons, List.not_mem_nil, or_false] at hblank
        rcases hblank with rfl | rfl | rfl | rfl <;> exact absurd h (by decide)

theorem Starts.no_bracket {c : Char} (h : Starts c) : c ≠ ']' ∧ c ≠ '\x7d' := by
  constructor <;> rintro rfl <;> rcases h with h | h <;> exact absurd h (by decide)

/-- A document with text after it begins with no blank. -/
theorem skip_dumps {v : Value} (h : WellFormed v) (rest : List Char) : skip (dumps v ++ rest) = dumps v ++ rest := by
  obtain ⟨c, t, heq, hstarts⟩ := dumps_head h
  rw [heq]
  exact skip_cons hstarts.no_blank

theorem scalar_number {token rest : List Char} (h : valid_number token = true) (hrest : Follows rest) :
    scalar (token ++ rest) = some (.number token, rest) := by
  cases htoken : token with
  | nil => exact absurd htoken (number_ne_nil h)
  | cons c t =>
      have hc := number_chars h c (by rw [htoken]; exact List.mem_cons_self)
      have hne : ∀ d, is_number_char d = false → c ≠ d := by
        rintro d hd rfl
        rw [hc] at hd
        cases hd
      rw [List.cons_append, scalar, if_neg (hne _ (by decide)), if_neg (hne _ (by decide)),
        if_neg (hne _ (by decide)), if_neg (hne _ (by decide)), ← List.cons_append, ← htoken]
      exact read_number_append h hrest

/-- The text of a list after its first element goes on with a comma or ends with a bracket. -/
theorem follows_more_elements (xs : List Value) (rest : List Char) : Follows (more_elements xs ++ rest) := by
  cases xs with
  | nil =>
      rw [more_elements]
      exact follows_cons (by decide)
  | cons x xs =>
      rw [more_elements]
      exact follows_cons (by decide)

theorem follows_more_members (fields : List (String × Value)) (rest : List Char) :
    Follows (more_members fields ++ rest) := by
  cases fields with
  | nil =>
      rw [more_members]
      exact follows_cons (by decide)
  | cons f fields =>
      obtain ⟨k, v⟩ := f
      rw [more_members]
      exact follows_cons (by decide)

theorem value_scalar {v : Value} {fuel : Nat} {rest : List Char} (h : WellFormed v) (hfuel : 0 < fuel)
    (hopen : ∀ c ∈ (dumps v).head?, c ≠ '[' ∧ c ≠ '\x7b')
    (hscalar : scalar (dumps v ++ rest) = some (v, rest)) : value fuel (dumps v ++ rest) = some (v, rest) := by
  obtain ⟨c, t, heq, -⟩ := dumps_head h
  obtain ⟨fuel, rfl⟩ := Nat.exists_eq_add_of_lt hfuel
  obtain ⟨hsquare, hcurly⟩ := hopen c (by rw [heq]; rfl)
  rw [Nat.zero_add, value, skip_dumps h]
  rw [heq, List.cons_append] at hscalar ⊢
  split
  · rename_i hrest
    cases hrest
    exact absurd rfl hsquare
  · rename_i hrest
    cases hrest
    exact absurd rfl hcurly
  · exact hscalar

/-- A member of an object, with text after it. -/
theorem quoted_member (k : String) (cs rest : List Char) : quoted k ++ ':' :: cs ++ rest =
    '"' :: (k.toList.flatMap escape ++ '"' :: (':' :: (cs ++ rest))) := by
  simp [quoted]

theorem literal_append (word : List Char) (v : Value) (rest : List Char) :
    literal word v (word ++ rest) = some (v, rest) := by
  rw [literal, if_pos (List.isPrefixOf_iff_prefix.mpr (List.prefix_append word rest)), List.drop_left]

/-- A constant is read back by its first letter and the word after it. -/
theorem value_word {v : Value} {c : Char} {word : List Char} (h : WellFormed v) (hdumps : dumps v = c :: word)
    (hc : c ≠ '[' ∧ c ≠ '\x7b') (hscalar : ∀ rest, scalar (c :: rest) = literal word v rest) {fuel : Nat}
    (hfuel : (dumps v).length ≤ fuel) (rest : List Char) : value fuel (dumps v ++ rest) = some (v, rest) := by
  have hpos : 0 < (dumps v).length := by
    rw [hdumps]
    exact Nat.succ_pos _
  refine value_scalar h (Nat.lt_of_lt_of_le hpos hfuel) ?_ ?_
  · intro d hd
    rw [hdumps] at hd
    cases hd
    exact hc
  · rw [hdumps, List.cons_append, hscalar, literal_append]

mutual

/-- **A document is read back**, and the text after it is left. -/
theorem value_dumps : ∀ (v : Value) (fuel : Nat) (rest : List Char), WellFormed v → (dumps v).length ≤ fuel →
    Follows rest → value fuel (dumps v ++ rest) = some (v, rest)
  | .null, fuel, rest, h, hfuel, _ =>
      value_word h dumps_null (by decide) (fun _ => by rw [scalar, if_neg (by decide), if_pos rfl]) hfuel rest
  | .bool true, fuel, rest, h, hfuel, _ =>
      value_word h dumps_true (by decide)
        (fun _ => by rw [scalar, if_neg (by decide), if_neg (by decide), if_pos rfl]) hfuel rest
  | .bool false, fuel, rest, h, hfuel, _ =>
      value_word h dumps_false (by decide)
        (fun _ => by rw [scalar, if_neg (by decide), if_neg (by decide), if_neg (by decide), if_pos rfl]) hfuel rest
  | .number token, fuel, rest, h, hfuel, hrest => by
      cases h with
      | number htoken =>
          have hpos : 0 < (dumps (.number token)).length := List.length_pos_iff.mpr (number_ne_nil htoken)
          refine value_scalar (.number htoken) (Nat.lt_of_lt_of_le hpos hfuel) ?_ (scalar_number htoken hrest)
          intro c hc
          have hnumber := number_chars htoken c (List.mem_of_head? hc)
          constructor <;> rintro rfl <;> exact absurd hnumber (by decide)
  | .str s, fuel, rest, h, hfuel, _ => by
      have hpos : 0 < (dumps (.str s)).length := by
        rw [dumps]
        exact Nat.succ_pos _
      refine value_scalar h (Nat.lt_of_lt_of_le hpos hfuel) ?_ ?_
      · intro c hc
        rw [dumps] at hc
        cases hc
        decide
      · rw [dumps, quoted, List.cons_append, List.append_assoc, List.singleton_append, scalar, if_pos rfl,
          read_string_quoted]
        simp
  | .arr [], fuel, rest, _, hfuel, _ => by
      obtain ⟨fuel, rfl⟩ := Nat.exists_eq_add_of_lt (Nat.lt_of_lt_of_le (by decide) hfuel : 0 < fuel)
      rw [Nat.zero_add, dumps]
      rfl
  | .arr (x :: xs), fuel, rest, h, hfuel, _ => by
      cases h with
      | arr hxs =>
          rw [dumps] at hfuel ⊢
          rw [List.length_cons] at hfuel
          obtain ⟨fuel, rfl⟩ := Nat.exists_eq_add_of_lt (Nat.lt_of_lt_of_le (Nat.succ_pos _) hfuel)
          have hx := hxs x List.mem_cons_self
          have helements := elements_dumps x xs fuel rest hxs (by omega)
          obtain ⟨c, t, heq, hstarts⟩ := dumps_head hx
          rw [Nat.zero_add, value, List.cons_append, skip_cons (by decide), List.append_assoc]
          simp only [skip_dumps hx]
          rw [List.append_assoc] at helements
          rw [heq, List.cons_append] at helements ⊢
          split
          · rename_i hrest
            cases hrest
            exact absurd rfl hstarts.no_bracket.1
          · rw [helements]
            rfl
  | .obj [], fuel, rest, _, hfuel, _ => by
      obtain ⟨fuel, rfl⟩ := Nat.exists_eq_add_of_lt (Nat.lt_of_lt_of_le (by decide) hfuel : 0 < fuel)
      rw [Nat.zero_add, dumps]
      rfl
  | .obj ((k, v) :: fields), fuel, rest, h, hfuel, _ => by
      cases h with
      | obj hfields =>
          rw [dumps] at hfuel ⊢
          rw [List.length_cons] at hfuel
          obtain ⟨fuel, rfl⟩ := Nat.exists_eq_add_of_lt (Nat.lt_of_lt_of_le (Nat.succ_pos _) hfuel)
          have hmembers := members_dumps k v fields fuel rest hfields (by omega)
          rw [Nat.zero_add, value, List.cons_append, skip_cons (by decide)]
          rw [quoted, List.cons_append, List.cons_append] at hmembers ⊢
          simp only [skip_cons (show is_blank '"' = false by decide)]
          split
          · rename_i hrest
            cases hrest
          · rw [hmembers]
            rfl
termination_by _ fuel => fuel

theorem elements_dumps : ∀ (x : Value) (xs : List Value) (fuel : Nat) (rest : List Char),
    (∀ y ∈ x :: xs, WellFormed y) → (dumps x ++ more_elements xs).length ≤ fuel →
    elements fuel (dumps x ++ more_elements xs ++ rest) = some (x :: xs, rest)
  | x, [], fuel, rest, h, hfuel => by
      have hx := h x List.mem_cons_self
      rw [List.length_append, more_elements, List.length_singleton] at hfuel
      obtain ⟨fuel, rfl⟩ := Nat.exists_eq_add_of_lt (Nat.lt_of_lt_of_le (Nat.succ_pos _) hfuel)
      have hvalue := value_dumps x fuel (more_elements [] ++ rest) hx (by omega) (follows_more_elements [] rest)
      rw [Nat.zero_add, elements, List.append_assoc, hvalue, more_elements]
      rfl
  | x, y :: ys, fuel, rest, h, hfuel => by
      have hx := h x List.mem_cons_self
      rw [List.length_append, more_elements, List.length_cons] at hfuel
      obtain ⟨fuel, rfl⟩ := Nat.exists_eq_add_of_lt (Nat.lt_of_lt_of_le (Nat.succ_pos _) hfuel)
      have hvalue := value_dumps x fuel (more_elements (y :: ys) ++ rest) hx (by omega) (follows_more_elements _ rest)
      have hrest := elements_dumps y ys fuel rest (fun z hz => h z (List.mem_cons_of_mem _ hz)) (by omega)
      rw [Nat.zero_add, elements, List.append_assoc, hvalue, more_elements, List.cons_append]
      dsimp only
      rw [skip_cons (by decide)]
      simp only [hrest]
      rfl
termination_by _ _ fuel => fuel

theorem members_dumps : ∀ (k : String) (v : Value) (fields : List (String × Value)) (fuel : Nat) (rest : List Char),
    (∀ f ∈ (k, v) :: fields, WellFormed f.2) →
    (quoted k ++ ':' :: (dumps v ++ more_members fields)).length ≤ fuel →
    members fuel (quoted k ++ ':' :: (dumps v ++ more_members fields) ++ rest) = some ((k, v) :: fields, rest)
  | k, v, [], fuel, rest, h, hfuel => by
      have hv := h (k, v) List.mem_cons_self
      rw [List.length_append, List.length_cons, List.length_append, more_members, List.length_singleton] at hfuel
      obtain ⟨fuel, rfl⟩ := Nat.exists_eq_add_of_lt (Nat.lt_of_lt_of_le (Nat.succ_pos _) hfuel)
      have hvalue := value_dumps v fuel (more_members [] ++ rest) hv (by omega) (follows_more_members [] rest)
      rw [Nat.zero_add, members, quoted_member, skip_cons (by decide)]
      simp only [read_string_quoted, skip_cons (show is_blank ':' = false by decide), List.append_assoc, hvalue]
      rw [more_members]
      simp [skip_cons (show is_blank '\x7d' = false by decide)]
  | k, v, (l, w) :: fields, fuel, rest, h, hfuel => by
      have hv := h (k, v) List.mem_cons_self
      rw [List.length_append, List.length_cons, List.length_append, more_members, List.length_cons] at hfuel
      obtain ⟨fuel, rfl⟩ := Nat.exists_eq_add_of_lt (Nat.lt_of_lt_of_le (Nat.succ_pos _) hfuel)
      have hvalue := value_dumps v fuel (more_members ((l, w) :: fields) ++ rest) hv (by omega)
        (follows_more_members _ rest)
      have hrest := members_dumps l w fields fuel rest (fun f hf => h f (List.mem_cons_of_mem _ hf)) (by omega)
      rw [Nat.zero_add, members, quoted_member, skip_cons (by decide)]
      simp only [read_string_quoted, skip_cons (show is_blank ':' = false by decide), List.append_assoc, hvalue]
      rw [more_members, List.cons_append, skip_cons (by decide)]
      simp only [hrest]
      simp
termination_by _ _ _ fuel => fuel

end

/-- **What `dumps` writes, `loads` reads.** -/
theorem loads_dumps {v : Value} (h : WellFormed v) : loads (dumps v) = some v := by
  have hvalue := value_dumps v (dumps v).length [] h (Nat.le_refl _) (fun c hc => nomatch hc)
  rw [List.append_nil] at hvalue
  rw [loads, hvalue]
  rfl

end JsonText
