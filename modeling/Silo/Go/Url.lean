import Silo.Go.Netip
/-!
# URLs

`url.Parse` of Go's `net/url` on byte strings, with strict colons and bracketed
hosts restricted to IPv6 literals. Error returns are `none`.
-/

namespace Silo.Go

/-- `url.URL`, as far as it is read: of the user info only whether there is one. -/
structure Url where
  scheme : Str := []
  opaquePart : Str := []
  user : Bool := false
  host : Str := []
  path : Str := []
  rawQuery : Str := []
  fragment : Str := []
  deriving DecidableEq, Repr

inductive Encoding where
  | host
  | zone
  | other
  deriving DecidableEq

def isAlnum (c : Char) : Bool := ('a' ≤ c && c ≤ 'z') || ('A' ≤ c && c ≤ 'Z') || isDigit c

/-- `shouldEscape` for the two host modes. -/
def shouldEscapeHost (c : Char) : Bool := !(isAlnum c || "!$&'()*+,;=:[]<>\"-_.~".toList.contains c)

/-- `unescape`: in a host only non-ASCII bytes and the percent sign may be encoded. -/
def unescape (mode : Encoding) : Str → Option Str
  | [] => some []
  | '%' :: h :: l :: rest =>
    match hexValue h, hexValue l with
    | some hi, some lo =>
      let b := byteChar (hi * 16 + lo)
      let refused :=
        match mode with
        | .host => hi < 8 && !(hi == 2 && lo == 5)
        | .zone => !(hi == 2 && lo == 5) && b != ' ' && shouldEscapeHost b
        | .other => false
      if refused then none else (unescape mode rest).map (b :: ·)
    | _, _ => none
  | '%' :: _ => none
  | c :: rest =>
    if mode != .other && c.toNat < 0x80 && shouldEscapeHost c then none
    else (unescape mode rest).map (c :: ·)

/-- `validOptionalPort`: empty, or a colon and digits (possibly none). -/
def validOptionalPort : Str → Bool
  | [] => true
  | ':' :: digits => digits.all isDigit
  | _ => false

/-- The split of a host name at its zone, `strings.Index(hostname, "%25")`. -/
def cutZone : Str → Str × Str
  | '%' :: '2' :: '5' :: rest => ([], '%' :: '2' :: '5' :: rest)
  | [] => ([], [])
  | c :: rest => let (h, z) := cutZone rest; (c :: h, z)

/-- `parseHost`: brackets enclose an IPv6 literal at the start, other hosts have at most one colon. -/
def parseHost (host : Str) : Option Str :=
  if host.contains '[' then
    match cutLast host '[' with
    | some ([], inner) =>
      match cutLast inner ']' with
      | none => none
      | some (hostname, colonPort) =>
        if !validOptionalPort colonPort then none
        else
          let (h, z) := cutZone hostname
          match unescape .host h, unescape .zone z, unescape .host colonPort with
          | some h, some z, some port =>
            match parseAddr (h ++ z) with
            | some (.v6 ..) => some ('[' :: (h ++ z) ++ ']' :: port)
            | _ => none
          | _, _, _ => none
    | _ => none
  else
    match cut host ':' with
    | (_, some port) => if port.all isDigit then unescape .host host else none
    | (_, none) => unescape .host host

def validUserinfo (s : Str) : Bool := s.all (fun c => isAlnum c || "-._:~!$&'()*+,;=%@".toList.contains c)

/-- `parseAuthority`: the user info, if any, ends at the last `@`. -/
def parseAuthorityPart (authority : Str) : Option (Bool × Str) :=
  match cutLast authority '@' with
  | none => (parseHost authority).map (fun h => (false, h))
  | some (userinfo, host) =>
    match parseHost host with
    | none => none
    | some h =>
      if validUserinfo userinfo && (unescape .other userinfo).isSome then some (true, h) else none

/-- `getScheme`: the scheme and what follows its colon; no scheme at the first foreign character. -/
def getScheme (raw : Str) : Option (Str × Str) :=
  let isAlpha (c : Char) : Bool := ('a' ≤ c && c ≤ 'z') || ('A' ≤ c && c ≤ 'Z')
  let scheme := raw.takeWhile (fun c => isAlnum c || c == '+' || c == '-' || c == '.')
  match raw.drop scheme.length with
  | ':' :: rest =>
    match scheme with
    | [] => none
    | c :: _ => if isAlpha c then some (scheme, rest) else some ([], raw)
  | _ => some ([], raw)

/-- The query is cut off at the first `?`; a single trailing `?` only forces an empty one. -/
def cutQuery (rest : Str) : Str × Str := let (before, q) := cut rest '?'; (before, q.getD [])

/-- `parse`, on what precedes the fragment. -/
def parseUrl (raw : Str) : Option Url :=
  if raw.any (fun c => c.toNat < 0x20 || c.toNat == 0x7f) then none
  else if raw == ['*'] then some { path := ['*'] }
  else
    match getScheme raw with
    | none => none
    | some (scheme, rest) =>
      let (rest, rawQuery) := cutQuery rest
      let url : Url := { scheme := toLower scheme, rawQuery }
      if !hasPrefix rest ['/'] && !scheme.isEmpty then some { url with opaquePart := rest }
      else if !hasPrefix rest ['/'] && (cut rest '/').1.contains ':' then none
      else if (!scheme.isEmpty || !hasPrefix rest "///".toList) && hasPrefix rest "//".toList then
        let afterSlashes := rest.drop 2
        let authority := afterSlashes.takeWhile (· != '/')
        match parseAuthorityPart authority, unescape .other (afterSlashes.drop authority.length) with
        | some (user, host), some path => some { url with user, host, path }
        | _, _ => none
      else
        (unescape .other rest).map (fun path => { url with path })

def urlParse (raw : Str) : Option Url :=
  match cut raw '#' with
  | (u, none) => parseUrl u
  | (u, some frag) =>
    match parseUrl u, unescape .other frag with
    | some url, some fragment => some { url with fragment }
    | _, _ => none

def splitHostPort (hostPort : Str) : Str × Str :=
  let (host, port) :=
    match cutLast hostPort ':' with
    | some (h, p) => if p.all isDigit then (h, p) else (hostPort, [])
    | none => (hostPort, [])
  if hasPrefix host ['['] && hasSuffix host [']'] then ((host.drop 1).dropLast, port) else (host, port)

def Url.hostname (u : Url) : Str := (splitHostPort u.host).1

def Url.port (u : Url) : Str := (splitHostPort u.host).2

/-- The characters of a host in the table of `httpguts`. -/
def isHostChar (c : Char) : Bool := isAlnum c || "!$%&()*+,-.:;=['_~]".toList.contains c

/-- `httpguts.ValidHostHeader`. -/
def validHostHeader (h : Str) : Bool := h.all isHostChar

end Silo.Go
