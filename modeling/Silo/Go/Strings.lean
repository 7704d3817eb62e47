import Mathlib.Algebra.GroupWithZero.Nat
import Mathlib.Data.Char
import Mathlib.Data.List.Lex
import Mathlib.Data.List.Sort
import Silo.Go.Unicode
/-!
# Strings

The functions of the Go `strings`, `strconv` and `unicode/utf8` packages that the
policy engine calls, on lists of characters. A string that went through
percent-decoding is a byte string: a list with one character below 256 per byte.
-/

open List

namespace Silo.Go

abbrev Str := List Char

/-- `len(s)`: the size of the UTF-8 encoding. -/
def len (s : Str) : Nat := (s.map Char.utf8Size).sum

def trimSpace (s : Str) : Str := ((s.dropWhile isSpace).reverse.dropWhile isSpace).reverse

def toLower (s : Str) : Str := s.map toLowerRune

/-- What an ASCII rune has to equal under simple folding: besides the upper-case letters only the Kelvin
sign and the long s fold into ASCII. -/
def foldRune (c : Char) : Char := if c = 'ſ' then 's' else toLowerRune c

/-- `strings.EqualFold`, when one of the strings is ASCII. -/
def equalFold (s t : Str) : Bool := s.map foldRune == t.map foldRune

def hasPrefix (s p : Str) : Bool := p.isPrefixOf s

def hasSuffix (s p : Str) : Bool := p.isSuffixOf s

def trimPrefix (s p : Str) : Str := if hasPrefix s p then s.drop p.length else s

def trimSuffix (s p : Str) : Str := if hasSuffix s p then s.take (s.length - p.length) else s

def contains (s sub : Str) : Bool :=
  match s with
  | [] => sub.isEmpty
  | c :: cs => hasPrefix (c :: cs) sub || contains cs sub

/-- `strings.Cut` at the first `sep`: what comes before, and what comes after if `sep` occurs. -/
def cut (s : Str) (sep : Char) : Str × Option Str :=
  (s.takeWhile (· != sep), if s.contains sep then some ((s.dropWhile (· != sep)).drop 1) else none)

theorem cut_append {sep : Char} {s : Str} (h : sep ∉ s) (t : Str) : cut (s ++ sep :: t) sep = (s, some t) := by
  have hs : ∀ c ∈ s, (c != sep) := fun c hc => bne_iff_ne.2 (fun e => h (e ▸ hc))
  simp [cut, takeWhile_append_of_pos hs, dropWhile_append_of_pos hs]

theorem cut_of_notMem {s : Str} {sep : Char} (h : sep ∉ s) : cut s sep = (s, none) := by
  have hs : ∀ c ∈ s, (c != sep) := fun c hc => bne_iff_ne.2 (fun e => h (e ▸ hc))
  have htake : (s ++ []).takeWhile (· != sep) = s := by
    rw [takeWhile_append_of_pos hs, takeWhile_nil, append_nil]
  rw [append_nil] at htake
  simp [cut, htake, h]

/-- The split of `s` at the last `sep`, as `strings.LastIndex` is used. -/
def cutLast (s : Str) (sep : Char) : Option (Str × Str) :=
  if s.contains sep then
    let after := (s.reverse.takeWhile (· != sep)).reverse
    some (s.take (s.length - after.length - 1), after)
  else
    none

def split (sep : Char) : Str → List Str
  | [] => [[]]
  | c :: cs =>
    if c == sep then [] :: split sep cs
    else
      match split sep cs with
      | [] => [[c]]
      | f :: fs => (c :: f) :: fs

def join (parts : List Str) (sep : Str) : Str := List.intercalate sep parts

/-- `sort.Strings`: the byte order of UTF-8 is the order of the code points. -/
def sortStrings (l : List Str) : List Str := l.insertionSort (fun a b => a ≤ b)

def isDigit (c : Char) : Bool := '0' ≤ c && c ≤ '9'

def parseDecimal (s : Str) : Option Nat :=
  if s.isEmpty || !s.all isDigit then none
  else some (s.foldl (fun acc c => acc * 10 + (c.toNat - '0'.toNat)) 0)

/-- `strconv.ParseUint(s, 10, 16)`. -/
def parseUint16 (s : Str) : Option UInt16 :=
  match parseDecimal s with
  | some n => if n ≤ 65535 then some (UInt16.ofNat n) else none
  | none => none

def itoa (n : Nat) : Str := Nat.toDigits 10 n

def hexValue (c : Char) : Option Nat :=
  if isDigit c then some (c.toNat - '0'.toNat)
  else if 'a' ≤ c && c ≤ 'f' then some (c.toNat - 'a'.toNat + 10)
  else if 'A' ≤ c && c ≤ 'F' then some (c.toNat - 'A'.toNat + 10)
  else none

/-! ## UTF-8 -/

def byteChar (n : Nat) : Char := Char.ofNat (n % 256)

def utf8Bytes (s : Str) : Str := s.flatMap (fun c => (String.utf8EncodeChar c).map (fun b => byteChar b.toNat))

def isContinuation (c : Char) : Bool := 0x80 ≤ c.toNat && c.toNat < 0xC0

/-- One step of `utf8.DecodeRune` on bytes: the rune and how many bytes it takes; an ill-formed
sequence is U+FFFD of width one. -/
def decodeRune : Str → Char × Nat
  | [] => ('�', 0)
  | b0 :: rest =>
    let bad := ('�', 1)
    let n0 := b0.toNat
    if n0 < 0x80 then (b0, 1)
    else if n0 < 0xC2 then bad
    else if n0 < 0xE0 then
      match rest with
      | b1 :: _ => if isContinuation b1 then (Char.ofNat ((n0 - 0xC0) * 64 + (b1.toNat - 0x80)), 2) else bad
      | _ => bad
    else if n0 < 0xF0 then
      match rest with
      | b1 :: b2 :: _ =>
        let n := (n0 - 0xE0) * 4096 + (b1.toNat - 0x80) * 64 + (b2.toNat - 0x80)
        if isContinuation b1 && isContinuation b2 && 0x800 ≤ n && !(0xD800 ≤ n && n ≤ 0xDFFF) then
          (Char.ofNat n, 3)
        else bad
      | _ => bad
    else if n0 < 0xF5 then
      match rest with
      | b1 :: b2 :: b3 :: _ =>
        let n := (n0 - 0xF0) * 262144 + (b1.toNat - 0x80) * 4096 + (b2.toNat - 0x80) * 64 + (b3.toNat - 0x80)
        if isContinuation b1 && isContinuation b2 && isContinuation b3 && 0x10000 ≤ n && n ≤ 0x10FFFF then
          (Char.ofNat n, 4)
        else bad
      | _ => bad
    else bad

/-- The runes a `for range` over the bytes visits. -/
def decodeRunes : Nat → Str → Str
  | 0, _ => []
  | _, [] => []
  | fuel + 1, bs => let (c, w) := decodeRune bs; c :: decodeRunes fuel (bs.drop w)

/-- The runes of a byte string; every rune takes at least one byte, so the length is enough fuel. -/
def runes (bs : Str) : Str := decodeRunes bs.length bs

end Silo.Go
