import Silo.Go.Url
import Silo.Lib.Checks
/-!
# Host bindings

The `hostmatch` package: endpoint host entries are HTTP authorities or
`*.<suffix>` wildcards, normalised to a host and a port before they are compared.
-/

namespace Silo.Netd

open Go Lib

structure Authority where
  host : String
  port : UInt16
  deriving DecidableEq, Repr

/-- One normalised host binding; for a wildcard `host` is the suffix. -/
structure Binding where
  (pattern host : String)
  port : UInt16
  wildcard : Bool
  deriving DecidableEq, Repr

/-- Why an authority or a binding is refused; `raw` is the trimmed input. -/
inductive HostError where
  | emptyHost
  | wildcardInvalid (pattern : String)
  | wildcardIP (pattern : String)
  | emptyAuthority
  | notASCII (raw : String)
  | hasScheme (raw : String)
  | invalid (raw : String)
  | hasCredentials (raw : String)
  | hasPathQueryOrFragment (raw : String)
  | notHostHeader (raw : String)
  | ipv6NotBracketed (raw : String)
  | portOutOfRange (value : String)
  | hostPortSyntax (raw : String)
  | bracketedNotIPv6 (raw : String)
  deriving DecidableEq, Repr

def isASCII (value : Str) : Bool := value.all (fun c => c.toNat ≤ 127)

/-- `ParsePort`: decimal digits with a value in 1..65535. -/
def parsePort (value : Str) : Except HostError UInt16 :=
  match parseDecimal value with
  | some port =>
    if port < 1 || port > 65535 then .error (.portOutOfRange (String.ofList value)) else .ok (UInt16.ofNat port)
  | none => .error (.portOutOfRange (String.ofList value))

def hasExplicitPortSyntax (host : Str) : Bool :=
  if hasPrefix host ['['] then
    match cutLast host ']' with
    | some (_, rest) => !rest.isEmpty
    | none => false
  else host.count ':' == 1

def authorityPort (value : Str) (defaultPort : UInt16) : Except HostError UInt16 :=
  if value.isEmpty then .ok defaultPort else parsePort value

/-- The last part of `ParseAuthority`: IP literals are printed canonically, and brackets are for IPv6 only. -/
def canonicalHost (shown : String) (rawBracketed : Bool) (host : Str) : Except HostError String :=
  match parseAddr host with
  | some addr =>
    if addr.is6 then
      if rawBracketed then .ok (String.ofList addr.string) else .error (.ipv6NotBracketed shown)
    else if rawBracketed then .error (.bracketedNotIPv6 shown)
    else .ok (String.ofList addr.string)
  | none => if rawBracketed then .error (.bracketedNotIPv6 shown) else .ok (String.ofList host)

def parseAuthority (input : String) (defaultPort : UInt16) : Except HostError Authority := do
  let raw := trimSpace input.toList
  let shown := String.ofList raw
  require (raw ≠ []) .emptyAuthority
  let rawBracketed := hasPrefix raw ['[']
  require (isASCII raw) (.notASCII shown)
  require (contains raw "://".toList = false) (.hasScheme shown)
  let parsed ← orFail (urlParse ("http://".toList ++ raw)) (.invalid shown)
  require (parsed.user = false) (.hasCredentials shown)
  require (parsed.path = [] ∧ parsed.rawQuery = [] ∧ parsed.fragment = []) (.hasPathQueryOrFragment shown)
  require (parsed.host ≠ []) .emptyAuthority
  require (validHostHeader parsed.host) (.notHostHeader shown)
  require (rawBracketed ∨ parsed.host.count ':' ≤ 1) (.ipv6NotBracketed shown)
  let port ← authorityPort parsed.port defaultPort
  require (parsed.port ≠ [] ∨ hasExplicitPortSyntax parsed.host = false) (.hostPortSyntax shown)
  let host := trimSuffix (toLower parsed.hostname) ['.']
  require (host ≠ []) .emptyAuthority
  let host ← canonicalHost shown rawBracketed host
  return { host, port }

def wildcardHostLooksLikeIPPattern (host : Str) : Bool :=
  (parseAddr host).isSome || (split '.' host).all (fun label => !label.isEmpty && label.all isDigit)

def formatAuthorityHost (host : Str) : Str :=
  if host.contains ':' && (parseAddr host).isSome then '[' :: host ++ [']'] else host

def joinHostPort (host port : Str) : Str :=
  if host.contains ':' then '[' :: host ++ ']' :: ':' :: port else host ++ ':' :: port

/-- `FormatAuthority`: the default port is left out. -/
def formatAuthority (authority : Authority) (defaultPort : UInt16) : String :=
  if authority.port = defaultPort then String.ofList (formatAuthorityHost authority.host.toList)
  else String.ofList (joinHostPort authority.host.toList (itoa authority.port.toNat))

def parseBinding (pattern : String) (defaultPort : UInt16) : Except HostError Binding := do
  let pattern := trimSpace pattern.toList
  require (pattern ≠ []) .emptyHost
  let wildcard := hasPrefix pattern "*.".toList
  require (wildcard ∨ '*' ∉ pattern) (.wildcardInvalid (String.ofList pattern))
  let suffix := trimPrefix pattern "*.".toList
  require (wildcard = false ∨ suffix ≠ [] ∧ '*' ∉ suffix) (.wildcardInvalid (String.ofList ("*.".toList ++ suffix)))
  let parsedAuthority ← parseAuthority (String.ofList suffix) defaultPort
  require (wildcard = false ∨ wildcardHostLooksLikeIPPattern parsedAuthority.host.toList = false)
    (.wildcardIP ("*." ++ parsedAuthority.host))
  let canonicalPattern := formatAuthority parsedAuthority defaultPort
  return { pattern := if wildcard then "*." ++ canonicalPattern else canonicalPattern,
           host := parsedAuthority.host, port := parsedAuthority.port, wildcard }

/-- `Binding.Matches`: ports agree, and the host is equal or, for a wildcard, a proper descendant. -/
def Binding.matches (b : Binding) (authority : Authority) : Bool :=
  if b.port ≠ authority.port then false
  else if !b.wildcard then b.host = authority.host
  else authority.host ≠ b.host && hasSuffix authority.host.toList ('.' :: b.host.toList)

/-- The length `len(binding.Host)` that ranks wildcard matches. -/
def Binding.suffixLength (b : Binding) : Nat := len b.host.toList

theorem Binding.matches_exact {b : Binding} {a : Authority} (hw : b.wildcard = false) :
    b.matches a ↔ b.host = a.host ∧ b.port = a.port := by
  by_cases hp : b.port = a.port <;> simp [Binding.matches, hp, hw]

theorem Binding.matches_wildcard {b : Binding} {a : Authority} (hw : b.wildcard) :
    b.matches a ↔ b.port = a.port ∧ a.host ≠ b.host ∧ '.' :: b.host.toList <:+ a.host.toList := by
  by_cases hp : b.port = a.port <;> simp [Binding.matches, hp, hw, hasSuffix]

theorem Addr.string_ne_nil (a : Addr) : a.string ≠ [] := by
  cases a with
  | v4 b => simp [Addr.string, string4]
  | v6 b zone =>
    unfold Addr.string
    dsimp only
    split
    · simp
    · have : string6 b ≠ [] := by
        unfold string6
        dsimp only
        split
        · simp [joinColon, List.intercalate, List.range_succ]
        · simp
      simp [this]

theorem parseAuthority_host {input : String} {defaultPort : UInt16} {a : Authority}
    (h : parseAuthority input defaultPort = .ok a) : a.host ≠ "" := by
  simp only [parseAuthority, bind_eq_ok, pure_eq_ok, require_eq_ok] at h
  obtain ⟨-, -, -, -, -, -, parsed, -, -, -, -, -, -, -, -, -, -, -, port, -, -, -, -, hne, host, hhost, rfl⟩ := h
  have key : ∀ l : Str, l ≠ [] → String.ofList l ≠ "" := by
    intro l hl h
    exact hl (by simpa using congrArg String.toList h)
  unfold canonicalHost at hhost
  split at hhost
  · rename_i addr _
    have := key _ (Addr.string_ne_nil addr)
    split at hhost <;> split at hhost <;> cases hhost <;> exact this
  · split at hhost <;> cases hhost
    exact key _ hne

end Silo.Netd
