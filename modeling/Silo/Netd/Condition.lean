import Silo.Go.Strings
import Silo.Netd.Document
/-!
# Conditions

`compileCondition`: facet paths are rewritten to the variables the CEL environment
declares, then the CEL library type-checks the text. The library is outside the
repository and stays a parameter.
-/

namespace Silo.Netd

open Go

/-- The CEL library: whether a source compiles to a boolean program over the declared variables. -/
structure Cel where
  compiles : List (String × FacetKind) → String → Bool

/-- A compiled condition: its source, and the program, which the prepared text and the variables of the
family determine. -/
structure HttpCondition where
  (source prepared : String)
  family : EndpointFamily
  deriving DecidableEq, Repr

inductive ConditionError where
  | empty
  | unsupportedFamily (family : EndpointFamily)
  | unknownFacet (family : EndpointFamily) (facet : String)
  | unknownPackageFacet
  | cel (prepared : String)
  deriving DecidableEq, Repr

def isCELIdentifierByte (c : Char) : Bool := isAlnumByte c || c == '_'
where isAlnumByte (c : Char) : Bool := ('a' ≤ c && c ≤ 'z') || ('A' ≤ c && c ≤ 'Z') || ('0' ≤ c && c ≤ '9')

def backslash : Char := Char.ofNat 92

def isQuote (c : Char) : Bool := c == Char.ofNat 39 || c == '"'

/-- How many characters after an opening quote belong to the literal, the closing quote included. -/
def quotedCELLiteralLength (quote : Char) : Str → Nat
  | [] => 0
  | [_] => 1
  | c :: d :: cs =>
    if c == backslash then 2 + quotedCELLiteralLength quote cs
    else if c == quote then 1
    else 1 + quotedCELLiteralLength quote (d :: cs)

def celIdentifierStartBoundary (before : Option Char) : Bool :=
  match before with
  | none => true
  | some c => !isCELIdentifierByte c && c != '.'

def celIdentifierBoundary (before : Option Char) (after : Str) : Bool :=
  celIdentifierStartBoundary before && !(after.head?.any isCELIdentifierByte)

/-- The loop of `rewriteCELIdentifier`; `before` is the character in front of the rest. -/
def rewriteCELLoop (original replacement : Str) : Nat → Option Char → Str → Str
  | 0, _, rest => rest
  | _, _, [] => []
  | fuel + 1, before, c :: cs =>
    if isQuote c then
      let n := quotedCELLiteralLength c cs
      c :: cs.take n ++ rewriteCELLoop original replacement fuel ((c :: cs.take n).getLast?) (cs.drop n)
    else if hasPrefix (c :: cs) original && celIdentifierBoundary before ((c :: cs).drop original.length) then
      replacement ++ rewriteCELLoop original replacement fuel original.getLast? ((c :: cs).drop original.length)
    else c :: rewriteCELLoop original replacement fuel (some c) cs

def rewriteCELIdentifier (source original replacement : String) : String :=
  String.ofList (rewriteCELLoop original.toList replacement.toList source.length none source.toList)

/-- The loop of `containsCELPathPrefix`. -/
def containsCELPathPrefixLoop (path : Str) : Nat → Option Char → Str → Bool
  | 0, _, _ => false
  | _, _, [] => false
  | fuel + 1, before, c :: cs =>
    if isQuote c then
      let n := quotedCELLiteralLength c cs
      containsCELPathPrefixLoop path fuel ((c :: cs.take n).getLast?) (cs.drop n)
    else if hasPrefix (c :: cs) path && celIdentifierStartBoundary before then true
    else containsCELPathPrefixLoop path fuel (some c) cs

def containsCELPathPrefix (source path : String) : Bool :=
  containsCELPathPrefixLoop path.toList source.length none source.toList

def celVariableName (facet field : String) : String :=
  if facet = "package" then "__silo_package_" ++ field else facet ++ "." ++ field

/-- Rewrite every field of one facet, in declaration order. -/
def prepareFacet (facet : FacetDefinition) (source : String) : String :=
  facet.fields.foldl (fun prepared field =>
    let path := facet.name ++ "." ++ field.name
    let variable_ := celVariableName facet.name field.name
    if path ≠ variable_ then rewriteCELIdentifier prepared path variable_ else prepared) source

def prepareConditionSource (family : FamilyDefinition) (source : String) : Except ConditionError String :=
  family.facets.foldlM (fun prepared facetName =>
    match Registry.facet facetName with
    | none => .error (.unknownFacet family.family facetName)
    | some facet =>
      let prepared := prepareFacet facet prepared
      if facet.name = "package" && containsCELPathPrefix prepared "package." then .error .unknownPackageFacet
      else .ok prepared) source

def celVariables (family : FamilyDefinition) : List (String × FacetKind) :=
  family.facets.flatMap (fun facetName =>
    match Registry.facet facetName with
    | none => []
    | some facet => facet.fields.map (fun field => (celVariableName facet.name field.name, field.kind)))

def compileCondition (cel : Cel) (family : EndpointFamily) (source : String) :
    Except ConditionError HttpCondition :=
  if trimSpace source.toList = [] then .error .empty
  else
    let definition := Registry.family family
    if definition.condition ≠ .cel then .error (.unsupportedFamily family)
    else
      match prepareConditionSource definition source with
      | .error e => .error e
      | .ok prepared =>
        if cel.compiles (celVariables definition) prepared then .ok ⟨source, prepared, family⟩
        else .error (.cel prepared)

end Silo.Netd
