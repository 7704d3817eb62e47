import Silo.Policy.Lower
import Silo.Policy.Serde
import Silo.Policy.Validate
/-!
# Loading policies

`from_json_source` and `from_hcl_policy`. The JSON text format belongs to `serde_json` and
stays a parameter: what it prints for a value it reads back as that value, up to the floats,
which are only promised to come back close to what they were.
-/

namespace Silo.Policy

open Rust Lib

/-- `serde_json`: the text of a value, the members a text holds in its order, and what a printed float is read as. -/
structure SerdeJson where
  print : Value → String
  parse : String → Option Value
  reread : ℚ → ℚ

/-- `v` survives printing and parsing, apart from its floats. -/
def SerdeJson.Roundtrips (serde : SerdeJson) (v : Value) : Prop := serde.parse (serde.print v) = some (v.mapFloats serde.reread)

/-- The deepest nesting the parser enters. -/
def recursion_limit : Nat := 127

def from_str (serde : SerdeJson) (source : String) : Option NetworkPolicy := do
  let v ← serde.parse source
  if v.depth ≤ recursion_limit then NetworkPolicy.deserialize v else none

/-- `serde_json::to_string`. -/
def to_json (serde : SerdeJson) (policy : NetworkPolicy) : String := serde.print policy.serialize

inductive PolicyLoadError where
  | parse
  | diagnostics (ds : List Diagnostic)

def from_json_source (serde : SerdeJson) (cel : Cel) (source : String) : Except PolicyLoadError NetworkPolicy :=
  match from_str serde source with
  | none => .error .parse
  | some policy => (policy.accept cel).mapError .diagnostics

def from_hcl_policy (cel : Cel) (policy : HclPolicy) : Except PolicyLoadError NetworkPolicy :=
  (policy.lower.accept cel).mapError .diagnostics

/-- What a policy is loaded from: a JSON text, or the declarations of an HCL text. -/
inductive Source where
  | json (text : String)
  | hcl (policy : HclPolicy)

def Source.load (serde : SerdeJson) (cel : Cel) : Source → Except PolicyLoadError NetworkPolicy
  | json text => from_json_source serde cel text
  | hcl policy => from_hcl_policy cel policy

def Source.policy (serde : SerdeJson) : Source → Option NetworkPolicy
  | json text => from_str serde text
  | hcl policy => some policy.lower

theorem Source.load_eq_ok {serde : SerdeJson} {cel : Cel} {source : Source} {loaded : NetworkPolicy} :
    source.load serde cel = .ok loaded ↔ ∃ policy, source.policy serde = some policy ∧ policy.accept cel = .ok loaded := by
  cases source with
  | json text =>
    simp only [Source.load, Source.policy, from_json_source]
    cases h : from_str serde text <;> simp
  | hcl policy => simp [Source.load, Source.policy, from_hcl_policy]

end Silo.Policy
