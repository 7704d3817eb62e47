import Silo.Go.PrintedAddr
import Silo.Lib.Checks
import Silo.Rust.Str
/-!
# Control lines of the krun multiplexer

`parse_guest_connect` reads the line by which a guest asks for a connection. A number without a sign
has one spelling; the number parser of the standard library also takes a plus sign.
-/

namespace Silo.Vmm

open Rust Lib List

structure ConnectionRequest where
  (id source_port destination_port : UInt32)
deriving DecidableEq, Repr

/-- `str::parse::<u32>`: an optional plus sign and at least one digit, the value below 2^32. -/
def str_parse_u32 (s : Str) : Option UInt32 :=
  let digits := (strip_prefix_of s ['+']).getD s
  if digits ≠ [] ∧ digits.all is_ascii_digit ∧ digits_value digits < 2 ^ 32 then some (.ofNat (digits_value digits)) else none

def parse_u32 (value : Str) : Except String UInt32 := do
  require (¬ (value = [] ∨ (1 < len value ∧ starts_with value ['0']))) "invalid decimal field"
  orFail (str_parse_u32 value) "invalid decimal field"

/-- `str::strip_suffix` of a character. -/
def strip_suffix (s : Str) (c : Char) : Option Str := if s.getLast? = some c then some s.dropLast else none

def parse_guest_connect (line : List UInt8) : Except String ConnectionRequest := do
  let line ← orFail (from_utf8 line) "control line is not ASCII"
  let line ← orFail (strip_suffix line '\n') "control line is not terminated"
  match split ' ' line with
  | [verb, id, destination_port, source_port] =>
    require (verb = "CONNECT".toList) "unexpected control verb"
    let id ← parse_u32 id
    require (id ≠ 0) "connection id must be nonzero"
    let destination_port ← parse_u32 destination_port
    let source_port ← parse_u32 source_port
    return { id, destination_port, source_port }
  | _ => .error "unexpected control verb"

/-- The text that asks for a connection with three fields. -/
def connectText (fields : List Str) : Str := intercalate [' '] ("CONNECT".toList :: fields) ++ ['\n']

/-- The line for a request, with its numbers in decimal. -/
def ConnectionRequest.line (r : ConnectionRequest) : List UInt8 :=
  as_bytes (connectText ([r.id, r.destination_port, r.source_port].map (decimal ·.toNat)))

/-! ## The spellings of a number -/

variable {f : Str} {v : UInt32}

/-- Without a plus sign only the decimal spelling of a number is read as that number. -/
theorem eq_decimal_of_parse_u32 (h : parse_u32 f = .ok v) (hplus : '+' ∉ f) : decimal v.toNat = f := by
  simp [parse_u32, str_parse_u32, strip_plus hplus, starts_with_singleton] at h
  obtain ⟨⟨hne, hzero⟩, ⟨-, hd, hlt⟩, rfl⟩ := h
  rw [UInt32.toNat_ofNat_of_lt' hlt]
  by_cases hz : f.head? = some '0'
  · obtain ⟨g, rfl⟩ := head?_eq_some_iff.1 hz
    have hg : g = [] := by
      by_contra hg
      exact hzero (one_lt_len _ g hg) hz
    rw [hg]
    rfl
  · exact decimal_digits_value hne hd hz

theorem parse_u32_decimal (v : UInt32) : parse_u32 (decimal v.toNat) = .ok v := by
  have hall : (decimal v.toNat).all is_ascii_digit := all_eq_true.2 fun c hc => is_ascii_digit_of_mem_decimal hc
  have hzero : 1 < len (decimal v.toNat) → (decimal v.toNat).head? ≠ some '0' := by
    rcases Nat.eq_zero_or_pos v.toNat with h0 | hpos
    · rw [h0]
      intro h
      exact absurd h (by decide)
    · intro _
      exact Go.head?_itoa hpos
  simpa [parse_u32, str_parse_u32, strip_plus (notMem_decimal rfl _), starts_with_singleton, digits_value_decimal,
    decimal_ne_nil, hall, v.toNat_lt] using hzero

/-! ## The line -/

theorem strip_suffix_eq_some {s t : Str} {c : Char} (h : strip_suffix s c = some t) : s = t ++ [c] := by
  unfold strip_suffix at h
  split at h
  · rename_i hlast
    cases h
    exact (dropLast_append_getLast? c hlast).symm
  · cases h

theorem fields_of_parse {line : List UInt8} {r : ConnectionRequest} (h : parse_guest_connect line = .ok r) :
    ∃ id destination source : Str, line = as_bytes (connectText [id, destination, source]) ∧ parse_u32 id = .ok r.id ∧
      parse_u32 destination = .ok r.destination_port ∧ parse_u32 source = .ok r.source_port := by
  simp only [parse_guest_connect, bind_eq_ok, orFail_eq_ok] at h
  obtain ⟨s, hs, body, hbody, h⟩ := h
  split at h
  · rename_i verb id destination source hsplit
    simp only [bind_eq_ok, require_eq_ok, pure_eq_ok] at h
    obtain ⟨-, rfl, n, hid, -, -, d, hd, p, hp, rfl⟩ := h
    have hjoin : intercalate [' '] (body.splitOn ' ') = body := intercalate_splitOn ' '
    rw [← split_eq_splitOn, hsplit] at hjoin
    rw [← as_bytes_of_from_utf8 hs, strip_suffix_eq_some hbody, ← hjoin]
    exact ⟨id, destination, source, rfl, hid, hd, hp⟩
  · cases h

theorem parse_line (r : ConnectionRequest) (h : r.id ≠ 0) : parse_guest_connect r.line = .ok r := by
  have hstrip : ∀ s : Str, strip_suffix (s ++ ['\n']) '\n' = some s := by simp [strip_suffix]
  rw [parse_guest_connect, ConnectionRequest.line, from_utf8_as_bytes, connectText]
  simp only [bind_eq_ok, orFail_eq_ok, Option.some.injEq, exists_eq_left', hstrip]
  rw [split_intercalate (by simp [notMem_decimal (c := ' ') rfl]) (by simp)]
  simp [parse_u32_decimal, h]

/-- An accepted line is the one spelling of its request exactly when its text has no plus sign, and every
request with an id is accepted in that spelling. -/
theorem one_spelling (line : List UInt8) (r : ConnectionRequest) :
    (parse_guest_connect line = .ok r → (r.line = line ↔ ∃ s, as_bytes s = line ∧ '+' ∉ s)) ∧
      (r.id ≠ 0 → parse_guest_connect r.line = .ok r) := by
  refine ⟨fun h => ?_, parse_line r⟩
  obtain ⟨id, destination, source, rfl, hid, hd, hs⟩ := fields_of_parse h
  constructor
  · intro hr
    refine ⟨_, hr, ?_⟩
    simp [connectText, intercalate, notMem_decimal (c := '+') rfl]
  · rintro ⟨s, hline, hplus⟩
    have htext : s = connectText [id, destination, source] := by
      have := congrArg from_utf8 hline
      simpa [from_utf8_as_bytes] using this
    have hfields : '+' ∉ id ∧ '+' ∉ destination ∧ '+' ∉ source := by
      simpa [htext, connectText, intercalate] using hplus
    rw [ConnectionRequest.line, map_cons, map_cons, map_cons, map_nil, eq_decimal_of_parse_u32 hid hfields.1,
      eq_decimal_of_parse_u32 hd hfields.2.1, eq_decimal_of_parse_u32 hs hfields.2.2]

theorem connect_spelled : parse_guest_connect (ConnectionRequest.line ⟨1, 4000, 7000⟩) = .ok ⟨1, 4000, 7000⟩ ∧
    ∃ s, as_bytes s = ConnectionRequest.line ⟨1, 4000, 7000⟩ ∧ '+' ∉ s := by
  have h := (one_spelling [] ⟨1, 4000, 7000⟩).2 (by decide)
  exact ⟨h, ((one_spelling _ _).1 h).1 rfl⟩

/-- `+1` is read as the id 1 as well. -/
theorem plus_sign_accepted :
    parse_guest_connect (as_bytes "CONNECT +1 7000 4000\n".toList) = .ok ⟨1, 4000, 7000⟩ ∧
      ConnectionRequest.line ⟨1, 4000, 7000⟩ ≠ as_bytes "CONNECT +1 7000 4000\n".toList := by
  refine ⟨?_, by decide⟩
  rw [parse_guest_connect, from_utf8_as_bytes]
  decide

end Silo.Vmm
