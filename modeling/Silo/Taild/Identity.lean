import Silo.Go.Strings
/-!
# Principals

A principal is a tag or a user of the tailnet, `tag:name` or `user:ID`. The identity of a
peer is the list of its principals, as the tailnet reports it.
-/

namespace Silo.Taild

open Go

/-- `authz.Error`. -/
structure Failure where
  (code message : String)
  exit : Nat
  deriving DecidableEq, Repr

def failure (code message : String) (exit : Nat) : Failure := ⟨code, message, exit⟩

abbrev Principal := Str

def isLetter (c : Char) : Bool := ('a' ≤ c ∧ c ≤ 'z') ∨ ('A' ≤ c ∧ c ≤ 'Z')

/-- `tagPattern`: `tag:`, a letter, then letters, digits and dashes. -/
def tagPattern (s : Str) : Bool :=
  hasPrefix s "tag:".toList &&
    match s.drop 4 with
    | [] => false
    | c :: cs => isLetter c && cs.all fun c => isLetter c || isDigit c || c == '-'

/-- A positive `uint64` as `strconv.FormatUint` prints it. -/
def canonicalID (s : Str) : Bool :=
  match parseDecimal s with
  | none => false
  | some n => n < 2 ^ 64 && 0 < n && itoa n == s

def parsePrincipal (s : Str) : Option Principal :=
  if (hasPrefix s "user:".toList && canonicalID (s.drop 5)) || tagPattern s then some s else none

def Principal.isTag (p : Principal) : Bool := hasPrefix p "tag:".toList

end Silo.Taild
