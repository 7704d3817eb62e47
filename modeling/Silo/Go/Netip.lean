import Silo.Go.Strings
/-!
# IP addresses

The part of Go's `net/netip` the policy engine uses: parsing, printing and
prefix membership. Error returns are `none`.
-/

namespace Silo.Go

/-- `netip.Addr`. The zero `Addr` never reaches the policy engine. -/
inductive Addr where
  | v4 (bits : BitVec 32)
  | v6 (bits : BitVec 128) (zone : Str)
  deriving DecidableEq, Repr

namespace Addr

def is6 : Addr → Bool
  | v4 _ => false
  | v6 .. => true

def hasZone : Addr → Bool
  | v4 _ => false
  | v6 _ zone => !zone.isEmpty

def bitLen : Addr → Nat
  | v4 _ => 32
  | v6 .. => 128

/-- `Addr.Unmap`: an IPv4-mapped IPv6 address becomes the IPv4 address. -/
def unmap : Addr → Addr
  | v4 b => v4 b
  | v6 b zone => if b >>> 32 = 0xffff#128 then v4 (b.setWidth 32) else v6 b zone

end Addr

/-- `netip.AddrFromSlice` on the bytes of a `net.IP`. -/
def addrFromSlice (ip : List UInt8) : Option Addr :=
  let value := ip.foldl (fun acc b => acc * 256 + b.toNat) 0
  if ip.length = 4 then some (.v4 (BitVec.ofNat 32 value))
  else if ip.length = 16 then some (.v6 (BitVec.ofNat 128 value) [])
  else none

/-! ## Parsing -/

/-- One octet of a dotted quad: no leading zero, at most 255. -/
def parseOctet (s : Str) : Option Nat :=
  match parseDecimal s with
  | some n => if n ≤ 255 && (s.length == 1 || s.head? != some '0') then some n else none
  | none => none

/-- `parseIPv4Fields`: four octets, as one number. -/
def parseIPv4Fields (s : Str) : Option Nat := do
  let octets ← (split '.' s).mapM parseOctet
  if octets.length = 4 then some (octets.foldl (fun acc n => acc * 256 + n) 0) else none

def parseHexField (s : Str) : Option Nat := do
  if s.isEmpty || s.length > 4 then none
  let digits ← s.mapM hexValue
  some (digits.foldl (fun acc d => acc * 16 + d) 0)

/-- Where the loop of `parseIPv6` stands: the 16-bit fields read and the index of the `::`. -/
structure IPv6Fields where
  fields : List Nat := []
  ellipsis : Option Nat := none

/-- The loop of `parseIPv6`: a field, then the end, a colon or a `::`. A dot after the digits makes the
rest an embedded IPv4 address. -/
def parseIPv6Loop : Nat → Str → IPv6Fields → Option (Str × IPv6Fields)
  | 0, s, st => some (s, st)
  | fuel + 1, s, st =>
    let digits := s.takeWhile (fun c => (hexValue c).isSome)
    let rest := s.drop digits.length
    if digits.isEmpty || digits.length > 4 then none
    else if rest.head? == some '.' then
      if st.ellipsis.isNone && st.fields.length != 6 then none
      else if st.fields.length + 2 > 8 then none
      else
        match parseIPv4Fields s with
        | some n => some ([], { st with fields := st.fields ++ [n / 65536, n % 65536] })
        | none => none
    else
      match parseHexField digits with
      | none => none
      | some field =>
        let st := { st with fields := st.fields ++ [field] }
        match rest with
        | [] => some ([], st)
        | ':' :: ':' :: rest' =>
          if st.ellipsis.isSome then none
          else
            let st := { st with ellipsis := some st.fields.length }
            if rest'.isEmpty then some ([], st) else parseIPv6Loop fuel rest' st
        | ':' :: rest' => if rest'.isEmpty then none else parseIPv6Loop fuel rest' st
        | _ => none

/-- The eight fields, with the `::` filled in by at least one zero. -/
def expandEllipsis (st : IPv6Fields) : Option (List Nat) :=
  let n := st.fields.length
  match st.ellipsis with
  | none => if n = 8 then some st.fields else none
  | some i => if n < 8 then some (st.fields.take i ++ List.replicate (8 - n) 0 ++ st.fields.drop i) else none

def parseIPv6 (input : Str) : Option Addr := do
  let (s, zone) := cut input '%'
  if zone == some [] then none
  let addr (fields : List Nat) : Addr :=
    .v6 (BitVec.ofNat 128 (fields.foldl (fun acc f => acc * 65536 + f) 0)) (zone.getD [])
  if hasPrefix s "::".toList then
    let s := s.drop 2
    if s.isEmpty then some (addr [])
    else
      let (rest, st) ← parseIPv6Loop 8 s { ellipsis := some 0 }
      if rest.isEmpty then (expandEllipsis st).map addr else none
  else
    let (rest, st) ← parseIPv6Loop 8 s {}
    if rest.isEmpty then (expandEllipsis st).map addr else none

/-- `netip.ParseAddr`: the first of `.`, `:` and `%` decides the family. -/
def parseAddr (s : Str) : Option Addr :=
  match s.find? (fun c => c == '.' || c == ':' || c == '%') with
  | some '.' => (parseIPv4Fields s).map (fun n => .v4 (BitVec.ofNat 32 n))
  | some ':' => parseIPv6 s
  | _ => none

/-! ## Printing -/

def field16 (b : BitVec 128) (i : Nat) : Nat := (b >>> (112 - 16 * i)).toNat % 65536

def string4 (b : BitVec 32) : Str :=
  let octet (i : Nat) := itoa ((b >>> (24 - 8 * i)).toNat % 256)
  octet 0 ++ '.' :: octet 1 ++ '.' :: octet 2 ++ '.' :: octet 3

def zeroRun (fields : List Nat) : Nat := (fields.takeWhile (· == 0)).length

/-- The first longest run of at least two zero fields: its start and end. -/
def longestZeroRun (fields : List Nat) : Option (Nat × Nat) :=
  (List.range 8).foldl (fun best i =>
    let l := zeroRun (fields.drop i)
    let bestLen := match best with | some (s, e) => e - s | none => 0
    if 2 ≤ l && bestLen < l then some (i, i + l) else best) none

def joinColon (fields : List Nat) : Str := List.intercalate [':'] (fields.map (Nat.toDigits 16))

def string6 (b : BitVec 128) : Str :=
  let fields := (List.range 8).map (field16 b)
  match longestZeroRun fields with
  | none => joinColon fields
  | some (s, e) => joinColon (fields.take s) ++ "::".toList ++ joinColon (fields.drop e)

def Addr.string : Addr → Str
  | v4 b => string4 b
  | v6 b zone =>
    let suffix := if zone.isEmpty then [] else '%' :: zone
    if b >>> 32 = 0xffff#128 then "::ffff:".toList ++ string4 (b.setWidth 32) ++ suffix
    else string6 b ++ suffix

/-! ## Prefixes -/

/-- `netip.Prefix`: a zone-free address and how many leading bits count. -/
structure IPPrefix where
  addr : Addr
  bits : Nat
  zone_free : addr.hasZone = false
  bits_le : bits ≤ addr.bitLen
  deriving DecidableEq

def parsePrefix (s : Str) : Option IPPrefix :=
  match cutLast s '/' with
  | none => none
  | some (host, bitsStr) =>
    match parseAddr host with
    | none => none
    | some ip =>
      if hz : ip.hasZone = false then
        if bitsStr.length > 1 && bitsStr.head? == some '0' then none
        else
          match parseDecimal bitsStr with
          | none => none
          | some bits => if hb : bits ≤ ip.bitLen then some ⟨ip, bits, hz, hb⟩ else none
      else none

/-- `Prefix.Contains`: families agree and the leading bits agree. -/
def IPPrefix.contains (p : IPPrefix) (ip : Addr) : Bool :=
  match p.addr, ip with
  | .v4 a, .v4 b => (a ^^^ b) >>> (32 - p.bits) = 0#32
  | .v6 a _, .v6 b zone => zone.isEmpty && (a ^^^ b) >>> (128 - p.bits) = 0#128
  | _, _ => false

end Silo.Go
