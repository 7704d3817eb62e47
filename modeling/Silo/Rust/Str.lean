import Mathlib.Algebra.Group.Nat.Defs
import Mathlib.Data.List.Basic
import Silo.Go.Unicode
/-!
# Rust strings

The functions of Rust's `str` and `char` that the modelled crates call, on lists of
characters.
-/

open List

namespace Silo.Rust

abbrev Str := List Char

/-! ## Bytes -/

def as_bytes (s : Str) : List UInt8 := s.flatMap String.utf8EncodeChar

def len (s : Str) : Nat := (as_bytes s).length

def from_utf8 (bytes : List UInt8) : Option Str := bytes.toByteArray.utf8Decode?.map Array.toList

theorem from_utf8_as_bytes (s : Str) : from_utf8 (as_bytes s) = some s := by
  have h : (as_bytes s).toByteArray = s.utf8Encode := rfl
  rw [from_utf8, h, utf8Decode?_utf8Encode]
  rfl

theorem one_lt_len (c : Char) (f : Str) (h : f ≠ []) : 1 < len (c :: f) := by
  obtain ⟨d, g, rfl⟩ := exists_cons_of_ne_nil h
  have hc := c.utf8Size_pos
  have hd := d.utf8Size_pos
  simp [len, as_bytes]
  omega

variable {s : Str} {p : Char → Bool} {c : Char}

theorem as_bytes_of_from_utf8 {bytes : List UInt8} (h : from_utf8 bytes = some s) : as_bytes s = bytes := by
  unfold from_utf8 at h
  obtain ⟨a, ha, rfl⟩ := Option.map_eq_some_iff.1 h
  obtain ⟨l, hl⟩ := ByteArray.isSome_utf8Decode?_iff.1 (Option.isSome_iff_exists.2 ⟨a, ha⟩)
  rw [hl, utf8Decode?_utf8Encode, Option.some.injEq] at ha
  subst ha
  have hdata := congrArg (fun b : ByteArray => b.data.toList) hl
  simpa [as_bytes, utf8Encode] using hdata.symm

/-- The bytes a character takes, told by its first one; 0 when none starts so. -/
def utf8_char_width (b : UInt8) : Nat :=
  if b < 0x80 then 1
  else if 0xC2 ≤ b ∧ b ≤ 0xDF then 2
  else if 0xE0 ≤ b ∧ b ≤ 0xEF then 3
  else if 0xF0 ≤ b ∧ b ≤ 0xF4 then 4
  else 0

/-- The second bytes that may follow a first byte of three or four. -/
def second_byte (b c : UInt8) : Bool :=
  if b = 0xE0 then 0xA0 ≤ c && c ≤ 0xBF
  else if b = 0xED then 0x80 ≤ c && c ≤ 0x9F
  else if b = 0xF0 then 0x90 ≤ c && c ≤ 0xBF
  else if b = 0xF4 then 0x80 ≤ c && c ≤ 0x8F
  else 0x80 ≤ c && c ≤ 0xBF

/-- How much of an ill-formed sequence one replacement character stands for. -/
def ill_formed_len : List UInt8 → Nat
  | b :: c :: d :: _ =>
    if utf8_char_width b < 3 || !second_byte b c then 1
    else if utf8_char_width b = 3 || d &&& 0xC0 != 0x80 then 2
    else 3
  | [b, c] => if utf8_char_width b < 3 || !second_byte b c then 1 else 2
  | _ => 1

/-- Every ill-formed sequence replaced by U+FFFD; `fuel` is the number of bytes. -/
def replace_ill_formed : Nat → List UInt8 → Str
  | 0, _ => []
  | _, [] => []
  | fuel + 1, b :: bytes =>
    match from_utf8 ((b :: bytes).take (utf8_char_width b)) with
    | some (c :: _) => c :: replace_ill_formed fuel ((b :: bytes).drop (utf8_char_width b))
    | _ => Char.ofNat 0xFFFD :: replace_ill_formed fuel ((b :: bytes).drop (ill_formed_len (b :: bytes)))

def from_utf8_lossy (bytes : List UInt8) : Str := (from_utf8 bytes).getD (replace_ill_formed bytes.length bytes)

@[simp] theorem from_utf8_lossy_as_bytes (s : Str) : from_utf8_lossy (as_bytes s) = s := by
  rw [from_utf8_lossy, from_utf8_as_bytes, Option.getD_some]

/-! ## Characters -/

def is_ascii_digit (c : Char) : Bool := '0' ≤ c && c ≤ '9'

def is_ascii_lowercase (c : Char) : Bool := 'a' ≤ c && c ≤ 'z'

def is_ascii_uppercase (c : Char) : Bool := 'A' ≤ c && c ≤ 'Z'

def is_ascii_alphanumeric (c : Char) : Bool := is_ascii_digit c || is_ascii_lowercase c || is_ascii_uppercase c

/-- `char::is_whitespace`: the Unicode White_Space property. -/
def is_whitespace (c : Char) : Bool :=
  let n := c.toNat
  (9 ≤ n && n ≤ 13) || n == 0x20 || n == 0x85 || n == 0xA0 || n == 0x1680 || (0x2000 ≤ n && n ≤ 0x200A) ||
    n == 0x2028 || n == 0x2029 || n == 0x202F || n == 0x205F || n == 0x3000

def ascii_lowercase (c : Char) : Char := if is_ascii_uppercase c then Char.ofNat (c.toNat + 32) else c

/-! ## Strings -/

def to_ascii_lowercase (s : Str) : Str := s.map ascii_lowercase

def trim_start_matches (p : Char → Bool) (s : Str) : Str := s.dropWhile p

def trim_end_matches (p : Char → Bool) (s : Str) : Str := (s.reverse.dropWhile p).reverse

def trim (s : Str) : Str := trim_end_matches is_whitespace (trim_start_matches is_whitespace s)

def starts_with (s p : Str) : Bool := p.isPrefixOf s

/-- `str::strip_prefix`. -/
def strip_prefix_of (s p : Str) : Option Str := if starts_with s p then some (s.drop p.length) else none

/-- `str::split` at a character. -/
def split (sep : Char) : Str → List Str
  | [] => [[]]
  | c :: cs =>
    if c = sep then [] :: split sep cs
    else match split sep cs with
      | [] => [[c]]
      | f :: fs => (c :: f) :: fs

def digits_value (s : Str) : Nat := s.foldl (fun acc c => acc * 10 + (c.toNat - '0'.toNat)) 0

/-- `str::parse::<u16>`: an optional plus sign and at least one digit, the value below 2^16. -/
def parse_u16 (s : Str) : Option UInt16 :=
  let digits := (strip_prefix_of s ['+']).getD s
  if digits ≠ [] ∧ digits.all is_ascii_digit ∧ digits_value digits < 2 ^ 16 then some (.ofNat (digits_value digits)) else none

/-- The decimal digits of a number, as `format!` prints it. -/
def decimal (n : Nat) : Str := Nat.toDigits 10 n

/-! ## Trimming -/

theorem trim_end_matches_isPrefix (p : Char → Bool) (s : Str) : trim_end_matches p s <+: s := by
  unfold trim_end_matches
  have h : s.reverse.dropWhile p <:+ s.reverse := dropWhile_suffix p
  simpa using reverse_prefix.2 h

theorem trim_end_matches_eq_self (h : s.getLast?.any p = false) : trim_end_matches p s = s := by
  unfold trim_end_matches
  cases hr : s.reverse with
  | nil => simpa using hr
  | cons c cs =>
    have hs : s = cs.reverse ++ [c] := by simpa using congrArg reverse hr
    have hc : p c = false := by simpa [hs] using h
    simp [hs, hc]

theorem getLast?_trim_end_matches (p : Char → Bool) (s : Str) : (trim_end_matches p s).getLast?.any p = false := by
  unfold trim_end_matches
  rw [getLast?_reverse]
  cases h : s.reverse.dropWhile p with
  | nil => rfl
  | cons c cs =>
    have := head_dropWhile_not p (l := s.reverse) (by simp [h])
    simpa [h] using this

theorem length_trim_end_matches_lt (h : s.getLast?.any p) : (trim_end_matches p s).length < s.length := by
  refine Nat.lt_of_le_of_ne (trim_end_matches_isPrefix p s).length_le fun he => ?_
  have heq : trim_end_matches p s = s := (trim_end_matches_isPrefix p s).eq_of_length he
  have := getLast?_trim_end_matches p s
  rw [heq, h] at this
  cases this

theorem trim_end_matches_map {f : Char → Char} (h : ∀ c, p (f c) = p c) (s : Str) :
    trim_end_matches p (s.map f) = (trim_end_matches p s).map f := by
  unfold trim_end_matches
  rw [← map_reverse, dropWhile_map, ← map_reverse]
  congr 2
  exact congrArg s.reverse.dropWhile (funext h)

theorem trim_map {f : Char → Char} (h : ∀ c, is_whitespace (f c) = is_whitespace c) (s : Str) :
    trim (s.map f) = (trim s).map f := by
  unfold trim trim_start_matches
  rw [dropWhile_map, show is_whitespace ∘ f = is_whitespace from funext h, trim_end_matches_map h]

theorem head?_trim (s : Str) : (trim s).head?.any is_whitespace = false := by
  unfold trim trim_start_matches
  obtain ⟨t, ht⟩ := trim_end_matches_isPrefix is_whitespace (s.dropWhile is_whitespace)
  cases h : trim_end_matches is_whitespace (s.dropWhile is_whitespace) with
  | nil => rfl
  | cons c cs =>
    rw [h] at ht
    have := head_dropWhile_not is_whitespace (l := s) (by simp [← ht])
    simpa [← ht] using this

theorem trim_eq_self (hhead : s.head?.any is_whitespace = false) (hlast : s.getLast?.any is_whitespace = false) :
    trim s = s := by
  unfold trim trim_start_matches
  have : s.dropWhile is_whitespace = s := by
    cases s with
    | nil => rfl
    | cons c cs =>
      have hc : is_whitespace c = false := by simpa using hhead
      simp [hc]
  rw [this, trim_end_matches_eq_self hlast]

theorem length_trim_lt (h : s.getLast?.any is_whitespace) : (trim s).length < s.length := by
  unfold trim trim_start_matches
  have hle := (dropWhile_suffix is_whitespace (l := s)).length_le
  have hle' := (trim_end_matches_isPrefix is_whitespace (s.dropWhile is_whitespace)).length_le
  by_cases he : (s.dropWhile is_whitespace).length = s.length
  · have heq : s.dropWhile is_whitespace = s := (dropWhile_suffix is_whitespace).eq_of_length he
    rw [heq]
    exact length_trim_end_matches_lt h
  · omega

/-! ## Splitting -/

theorem split_eq_splitOn (sep : Char) (s : Str) : split sep s = s.splitOn sep := by
  induction s with
  | nil => rfl
  | cons c s ih =>
    rw [split, ih, splitOn, splitOn, splitOnP_cons_eq_if_modifyHead]
    by_cases h : c = sep
    · simp [h]
    · cases hs : s.splitOnP (· == sep) with
      | nil => exact absurd hs (splitOnP_ne_nil _ _)
      | cons g gs => simp [h]

theorem split_intercalate {sep : Char} {fields : List Str} (h : ∀ f ∈ fields, sep ∉ f) (hne : fields ≠ []) :
    split sep (intercalate [sep] fields) = fields := by
  rw [split_eq_splitOn]
  exact splitOn_intercalate sep h hne

/-! ## ASCII case -/

/-- A fact about the ASCII characters, from the numbers below 128. -/
theorem ascii_induction {P : Char → Prop} (h : ∀ n < 128, P (Char.ofNat n)) (hc : c.toNat < 128) : P c := by
  have := h c.toNat hc
  rwa [Char.ofNat_toNat] at this

theorem ascii_of_uppercase (h : is_ascii_uppercase c) : c.toNat < 128 := by
  have hle : c ≤ 'Z' := by simpa using (Bool.and_eq_true_iff.1 h).2
  exact Nat.lt_of_le_of_lt (show c.toNat ≤ 'Z'.toNat from hle) (by decide)

/-- Lower-casing keeps any property that every ASCII letter has in both cases or in neither. -/
theorem ascii_lowercase_congr
    (h : ∀ n < 128, is_ascii_uppercase (Char.ofNat n) → p (ascii_lowercase (Char.ofNat n)) = p (Char.ofNat n)) (c : Char) :
    p (ascii_lowercase c) = p c := by
  by_cases hc : is_ascii_uppercase c
  · exact ascii_induction (P := fun c => is_ascii_uppercase c → p (ascii_lowercase c) = p c) h
      (ascii_of_uppercase hc) hc
  · simp [ascii_lowercase, hc]

theorem is_whitespace_ascii_lowercase (c : Char) : is_whitespace (ascii_lowercase c) = is_whitespace c :=
  ascii_lowercase_congr (by decide) c

theorem ascii_lowercase_ascii_lowercase (c : Char) : ascii_lowercase (ascii_lowercase c) = ascii_lowercase c := by
  by_cases hc : is_ascii_uppercase c
  · exact ascii_induction (P := fun c => is_ascii_uppercase c →
      ascii_lowercase (ascii_lowercase c) = ascii_lowercase c) (by decide) (ascii_of_uppercase hc) hc
  · simp [ascii_lowercase, hc]

/-! ## Decimal numbers -/

theorem is_ascii_digit_of_mem_decimal {n : Nat} (h : c ∈ decimal n) : is_ascii_digit c := by
  have := Nat.isDigit_of_mem_toDigits (by decide) (by decide) h
  simpa [Char.isDigit, is_ascii_digit, Char.le_def] using this

theorem decimal_ne_nil (n : Nat) : decimal n ≠ [] := Nat.toDigits_ne_nil

theorem digits_value_decimal (n : Nat) : digits_value (decimal n) = n := by
  have h := Nat.ofDigitChars_toDigits (n := n) (b := 10) (by decide) (by decide)
  rw [Nat.ofDigitChars_eq_foldl] at h
  simpa [digits_value, decimal, Nat.mul_comm] using h

theorem decimal_digit (h : is_ascii_digit c) : c.toNat - '0'.toNat < 10 ∧ decimal (c.toNat - '0'.toNat) = [c] := by
  have hc : c.toNat < 128 := by
    simp [is_ascii_digit, Char.le_def, UInt32.le_iff_toNat_le] at h
    exact Nat.lt_of_le_of_lt h.2 (by decide)
  exact ascii_induction (P := fun c => is_ascii_digit c → c.toNat - '0'.toNat < 10 ∧ decimal (c.toNat - '0'.toNat) = [c])
    (by decide) hc h

theorem decimal_append {n : Nat} (hn : 0 < n) {f : Str} (hd : ∀ c ∈ f, is_ascii_digit c) :
    decimal n ++ f = decimal (f.foldl (fun acc c => acc * 10 + (c.toNat - '0'.toNat)) n) := by
  induction f generalizing n with
  | nil => simp
  | cons c f ih =>
    obtain ⟨hlt, hc⟩ := decimal_digit (hd c (by simp))
    have happ : decimal n ++ [c] = decimal (n * 10 + (c.toNat - '0'.toNat)) := by
      rw [← hc, Nat.mul_comm]
      exact Nat.toDigits_append_toDigits (by decide) hn hlt
    rw [foldl_cons, ← ih (by omega) fun d hm => hd d (by simp [hm]), ← happ, append_assoc, singleton_append]

/-- Digits that do not start with a zero are the decimal spelling of their value. -/
theorem decimal_digits_value {f : Str} (hne : f ≠ []) (hd : ∀ c ∈ f, is_ascii_digit c) (hz : f.head? ≠ some '0') :
    decimal (digits_value f) = f := by
  cases f with
  | nil => exact absurd rfl hne
  | cons c f =>
    obtain ⟨-, hc⟩ := decimal_digit (hd c (by simp))
    have hpos : 0 < c.toNat - '0'.toNat := by
      refine Nat.pos_of_ne_zero fun h0 => hz ?_
      rw [h0] at hc
      cases hc
      rfl
    rw [digits_value, foldl_cons, Nat.zero_mul, Nat.zero_add, ← decimal_append hpos fun d hm => hd d (by simp [hm]), hc,
      singleton_append]

theorem notMem_decimal (h : is_ascii_digit c = false) (n : Nat) : c ∉ decimal n := by
  intro hc
  simp [is_ascii_digit_of_mem_decimal hc] at h

theorem starts_with_singleton (s : Str) (c : Char) : starts_with s [c] ↔ s.head? = some c := by
  cases s with
  | nil => simp [starts_with]
  | cons d s => simpa [starts_with, isPrefixOf] using eq_comm

theorem strip_plus (h : '+' ∉ s) : strip_prefix_of s ['+'] = none := by
  have hhead : ¬ starts_with s ['+'] := fun hs => h (mem_of_head? ((starts_with_singleton s _).1 hs))
  simp [strip_prefix_of, hhead]

/-- On a run of digits, which has no sign, parsing only checks the value. -/
theorem parse_u16_of_digits {digits : Str} (hne : digits ≠ []) (hd : digits.all is_ascii_digit) :
    parse_u16 digits = if digits_value digits < 2 ^ 16 then some (.ofNat (digits_value digits)) else none := by
  have hplus : '+' ∉ digits := fun h => absurd (all_eq_true.1 hd _ h) (by decide)
  simp [parse_u16, strip_plus hplus, hne, hd]

theorem parse_u16_decimal (n : UInt16) : parse_u16 (decimal n.toNat) = some n := by
  have hall : (decimal n.toNat).all is_ascii_digit :=
    all_eq_true.2 fun c hc => is_ascii_digit_of_mem_decimal hc
  rw [parse_u16_of_digits (decimal_ne_nil _) hall, digits_value_decimal, if_pos n.toNat_lt, UInt16.ofNat_toNat]

end Silo.Rust
