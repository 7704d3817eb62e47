import Silo.Taild.Admission
import Silo.Taild.Inject
/-!
# Documents a peer may store

A template is one YAML document whose tree is held against the fields of `Template` before
it is decoded; a policy is what the manager makes of its HCL text. What the YAML library
and the manager answer is an input. Neither reads the store.
-/

namespace Silo.Taild

open Go Lib Silo.Policy

def documentLimit : Nat := 65536

def errDocumentName : Failure := failure "usage" "invalid document name" 2
def errDocumentSize : Failure := failure "usage" "document must be 1..65536 bytes" 2
def errUserdata : Failure := failure "usage" "userdata must be an inline shebang script, at most 16KiB" 2

/-! ## The syntax tree -/

inductive Node where
  | scalar (tag value : Str)
  | mapping (tag : Str) (content : List (Node × Node))
  | sequence (tag : Str) (content : List Node)
  | alias

def Node.tag : Node → Str
  | .scalar tag _ | .mapping tag _ | .sequence tag _ => tag
  | .alias => []

def Node.value : Node → Str
  | .scalar _ value => value
  | _ => []

def Node.isAlias : Node → Bool
  | .alias => true
  | _ => false

/-- The types `yamlShape` tells apart; a pointer counts as what it points to. -/
inductive Shape where
  | struct (fields : List (Str × Shape))
  | map (elem : Shape)
  | slice (elem : Shape)
  | string
  | bool
  | int

def templateShape : Shape :=
  .struct [("version".toList, .string), ("description".toList, .string), ("image".toList, .string),
    ("resources".toList, .struct [("cpus".toList, .int), ("memory".toList, .string)]),
    ("disk_size".toList, .string), ("vsock".toList, .bool), ("userdata".toList, .string),
    ("network".toList, .struct [("kind".toList, .string), ("policy_ref".toList, .string), ("publish".toList, .slice .int)]),
    ("labels".toList, .map .string)]

/-- The fields of a struct: each known and given once. -/
def structFields (check : Node → Shape → Except Failure Unit) (fields : List (Str × Shape)) :
    List Str → List (Node × Node) → Except Failure Unit
  | _, [] => .ok ()
  | seen, (k, v) :: rest =>
    match fields.lookup k.value with
    | some shape =>
      if k.tag ≠ "!!str".toList ∨ k.value ∈ seen then
        .error (failure "usage" ("unknown or duplicate template field: " ++ String.ofList k.value) 2)
      else do
        check v shape
        structFields check fields (k.value :: seen) rest
    | none => .error (failure "usage" ("unknown or duplicate template field: " ++ String.ofList k.value) 2)

def mapFields (check : Node → Except Failure Unit) : List Str → List (Node × Node) → Except Failure Unit
  | _, [] => .ok ()
  | seen, (k, v) :: rest =>
    if k.tag ≠ "!!str".toList ∨ k.value ∈ seen then .error usageDocument
    else do
      check v
      mapFields check (k.value :: seen) rest

def scalarShape (n : Node) (tag : Str) : Except Failure Unit :=
  match n with
  | .scalar t _ => require (t = tag) usageDocument
  | _ => .error usageDocument

/-- `yamlShape` with the number of levels that are left. -/
def yamlShape : Nat → Node → Shape → Except Failure Unit
  | 0, _, _ => .error (failure "usage" "null, aliases and excessive nesting are not allowed" 2)
  | left + 1, n, shape =>
    if n.isAlias ∨ n.tag = "!!null".toList then
      .error (failure "usage" "null, aliases and excessive nesting are not allowed" 2)
    else
      match shape, n with
      | .struct fields, .mapping _ content => structFields (yamlShape left) fields [] content
      | .map elem, .mapping _ content => mapFields (yamlShape left · elem) [] content
      | .slice elem, .sequence _ content =>
        if 256 < content.length then .error usageDocument else content.forM (yamlShape left · elem)
      | .string, n => scalarShape n "!!str".toList
      | .bool, n => scalarShape n "!!bool".toList
      | .int, n => scalarShape n "!!int".toList
      | _, _ => .error usageDocument

/-! ## Templates -/

structure TemplateResources where
  cpus : Option UInt64
  memory : Option Str
  deriving DecidableEq

structure TemplateNetwork where
  kind : Str
  policyRef : Option Str
  publish : List UInt16
  deriving DecidableEq

structure Template where
  version : Str
  (description image : Option Str)
  resources : Option TemplateResources
  diskSize : Option Str
  vsock : Option Bool
  userdata : Option Str
  network : Option TemplateNetwork
  labels : List (Str × Str)
  deriving DecidableEq

/-- The YAML library: the content of the first document, whether nothing comes after it, and the two conversions. -/
structure Yaml where
  first : Str → Option (List Node)
  atEnd : Str → Bool
  decode : Node → Option Template
  marshal : Template → Except Failure Str

inductive ResourceAnswer where
  | parsed
  | invalidArgument
  | failed (e : Failure)

/-- `NormalizePolicy`: the canonical JSON, what it says, the HCL text, and the names of the secrets. -/
structure ControlPolicy where
  canonicalJSON : Str
  policy : NetworkPolicy
  hcl : Str
  (secrets requirements : List Str)

structure Checker where
  yaml : Yaml
  parseResource : Str → Str → ResourceAnswer
  normalizePolicy : Str → Except Failure ControlPolicy

/-- `unicode.IsControl`. -/
def isControlRune (c : Char) : Bool := c.toNat < 0x20 || (0x7f ≤ c.toNat && c.toNat < 0xa0)

def text (s : Str) : Bool := !s.any isControlRune

def validUserdata (v : Str) : Bool := len v ≤ 16384 && !v.contains (Char.ofNat 0) && (v.isEmpty || hasPrefix v "#!".toList)

def validateLabels (labels : List (Str × Str)) : Except Failure Unit := do
  require (labels.length ≤ 32) (failure "usage" "too many labels" 2)
  labels.forM fun (k, v) =>
    require (k ≠ [] ∧ len k ≤ 128 ∧ len v ≤ 1024 ∧ text k ∧ text v ∧ hasPrefix k "io.silo.".toList = false)
      (failure "usage" "invalid or reserved label" 2)

namespace Checker

/-- `ParseResource`. -/
def resource (c : Checker) (kind text : Str) : Except Failure Unit :=
  match c.parseResource kind text with
  | .parsed => .ok ()
  | .invalidArgument =>
    .error (failure "usage" ("invalid value for --" ++ String.ofList kind ++
      ": expected a positive binary size (e.g. 4GiB or 8gb)") 2)
  | .failed e => .error e

/-- A field that may be left out. -/
def optional {α : Type} (x : Option α) (check : α → Except Failure Unit) : Except Failure Unit :=
  match x with
  | none => .ok ()
  | some a => check a

def checkResources (c : Checker) (r : TemplateResources) : Except Failure Unit := do
  optional r.cpus fun cpus => require (cpus ≠ 0 ∧ cpus ≤ 255) usageDocument
  optional r.memory (c.resource "memory".toList)

def checkNetwork (n : TemplateNetwork) : Except Failure Unit := do
  require (n.kind = "private".toList) (failure "usage" "only private networking is allowed" 2)
  optional n.policyRef fun ref => require (validName ref) (failure "usage" "invalid policy_ref" 2)
  require (0 ∉ n.publish ∧ n.publish.Nodup) (failure "usage" "publish requires unique fixed guest TCP ports 1..65535" 2)

/-- The checks of `ParseTemplate` on the decoded template. -/
def checkTemplate (c : Checker) (t : Template) : Except Failure Unit := do
  require (t.version = "1".toList) (failure "usage" "template version must be the string '1'" 2)
  optional t.description fun d => require (len d ≤ 4096 ∧ text d) usageDocument
  optional t.resources c.checkResources
  optional t.diskSize (c.resource "disk".toList)
  require (t.vsock ≠ some false) (failure "usage" "remote guest management requires vsock: true" 2)
  optional t.userdata fun u => require (u ≠ [] ∧ validUserdata u) errUserdata
  validateLabels t.labels
  optional t.network checkNetwork

def parseTemplate (c : Checker) (raw : Str) : Except Failure Template := do
  require (raw ≠ [] ∧ len raw ≤ documentLimit) errDocumentSize
  match c.yaml.first raw with
  | some [root] =>
    require (c.yaml.atEnd raw) (failure "usage" "exactly one YAML document is required" 2)
    yamlShape 17 root templateShape
    let t ← orFail (c.yaml.decode root) usageDocument
    c.checkTemplate t
    return t
  | _ => .error usageDocument

def parseRemotePolicy (c : Checker) (raw : Str) : Except Failure ControlPolicy := do
  require (raw ≠ [] ∧ len raw ≤ documentLimit) errDocumentSize
  let p ← c.normalizePolicy raw
  require (len p.canonicalJSON ≤ documentLimit ∧ len p.hcl ≤ documentLimit)
    (failure "usage" "canonical document exceeds 64KiB" 2)
  remotePolicy p.policy
  return p

end Checker

/-! ## What is accepted -/

end Silo.Taild
