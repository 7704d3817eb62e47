import Silo.Policy.Plugin
import Silo.Rust.BTreeMap
import Silo.Rust.Unicode
/-!
# Conditions

`HttpCondition::compile` and `FacetCondition::compile`: the source text is rewritten in
several passes, each of which copies string literals and looks for a facet path outside
them. The CEL crate is outside the repository and stays a parameter.
-/

namespace Silo.Policy

open Rust Rust.BTreeMap

/-! ## The CEL crate -/

/-- The values that go into and come out of a program, as far as they are looked at. -/
inductive CelValue where
  | bool (b : Bool)
  | string (s : String)
  | int (n : Int)
  | string_list_map (m : Entries (List String))
  | other (type_name : String)

/-- The CEL crate: programs compile from text and run on variables. -/
structure Cel where
  Program : Type
  compile : String → Except String Program
  execute : Program → List (String × CelValue) → Except String CelValue

def value_type_name : CelValue → String
  | .bool _ => "bool"
  | .string _ => "string"
  | .int _ => "int"
  | .string_list_map _ => "map"
  | .other name => name

/-! ## Scanning -/

def backslash : Char := Char.ofNat 92

def is_quote (c : Char) : Bool := c == Char.ofNat 39 || c == '"'

def is_cel_identifier_char (c : Char) : Bool := is_ascii_alphanumeric c || c == '_'

def is_identifier_char (c : Char) : Bool := is_ascii_alphanumeric c || c == '_' || c == '-'

/-- `quoted_literal_end`: how many characters after the opening quote belong to the literal. -/
def quoted_literal_len (quote : Char) : Str → Nat
  | [] => 0
  | [_] => 1
  | c :: d :: cs =>
    if c == backslash then 2 + quoted_literal_len quote cs
    else if c == quote then 1
    else 1 + quoted_literal_len quote (d :: cs)

def cel_path_start_boundary (before : Option Char) : Bool :=
  match before with
  | none => true
  | some c => !is_cel_identifier_char c && c != '.'

/-- `cel_path_at`: the path stands here as a whole; `before` is the character in front of `rest`. -/
def cel_path_at (path : Str) (before : Option Char) (rest : Str) : Bool :=
  starts_with rest path && cel_path_start_boundary before && !((rest.drop path.length).head?.any is_cel_identifier_char)

/-- What a pass does where it recognises something: skip `consumed` characters, write `output`, record a key. -/
structure Rewrite where
  consumed : Nat
  output : Str
  key : Option Str

/-- The loop the passes share. String literals are copied; elsewhere `rule` may rewrite. -/
def scan (rule : Option Char → Str → Option Rewrite) : Nat → Option Char → Str → Str × List Str
  | 0, _, rest => (rest, [])
  | _, _, [] => ([], [])
  | fuel + 1, before, c :: cs =>
    if is_quote c then
      let n := quoted_literal_len c cs
      let r := scan rule fuel ((c :: cs.take n).getLast?) (cs.drop n)
      (c :: cs.take n ++ r.1, r.2)
    else
      match rule before (c :: cs) with
      | some w =>
        let r := scan rule fuel (((c :: cs).take w.consumed).getLast?) ((c :: cs).drop w.consumed)
        (w.output ++ r.1, w.key.toList ++ r.2)
      | none =>
        let r := scan rule fuel (some c) cs
        (c :: r.1, r.2)

def rewrite (rule : Option Char → Str → Option Rewrite) (source : Str) : Str × List Str :=
  scan rule source.length none source

/-- Whether `found` holds somewhere outside the string literals. -/
def found_outside_literals (found : Option Char → Str → Bool) : Nat → Option Char → Str → Bool
  | 0, _, _ => false
  | _, _, [] => false
  | fuel + 1, before, c :: cs =>
    if is_quote c then
      let n := quoted_literal_len c cs
      found_outside_literals found fuel ((c :: cs.take n).getLast?) (cs.drop n)
    else found before (c :: cs) || found_outside_literals found fuel (some c) cs

def contains_http_facet (source facet : Str) : Bool :=
  found_outside_literals (cel_path_at facet) source.length none source

def contains_cel_path_prefix (source path : Str) : Bool :=
  found_outside_literals (fun before rest => starts_with rest path && cel_path_start_boundary before)
    source.length none source

/-! ## The passes -/

def index_by (variable_ key : Str) : Str := variable_ ++ '[' :: Char.ofNat 39 :: key ++ [Char.ofNat 39, ']']

def key_case (lowercase_key : Bool) (key : Str) : Str := if lowercase_key then to_lowercase key else key

/-- `rewrite_field_selects`: `http.query.key` becomes an index, and the key is recorded. -/
def field_select (original replacement : Str) (lowercase_key : Bool) (before : Option Char) (rest : Str) :
    Option Rewrite :=
  if cel_path_at original before rest then
    match rest.drop original.length with
    | '.' :: tail =>
      let key := tail.takeWhile is_identifier_char
      if key = [] then none
      else
        some { consumed := original.length + 1 + key.length,
               output := index_by replacement (key_case lowercase_key key), key := some (key_case lowercase_key key) }
    | _ => some { consumed := original.length, output := original, key := none }
  else none

/-- `rewrite_bracket_keys`: the key of `http.query['key']` is recorded, and requoted. -/
def bracket_key (variable_ : Str) (lowercase_key : Bool) (before : Option Char) (rest : Str) : Option Rewrite :=
  if cel_path_at variable_ before rest then
    match rest.drop variable_.length with
    | '[' :: quote :: tail =>
      let key := tail.takeWhile (· ≠ quote)
      if is_quote quote && starts_with (tail.drop key.length) [quote, ']'] then
        some { consumed := variable_.length + 2 + key.length + 2,
               output := index_by variable_ (key_case lowercase_key key), key := some (key_case lowercase_key key) }
      else some { consumed := variable_.length, output := variable_, key := none }
    | _ => some { consumed := variable_.length, output := variable_, key := none }
  else none

/-- `rewrite_cel_identifier`. -/
def identifier (original replacement : Str) (before : Option Char) (rest : Str) : Option Rewrite :=
  if cel_path_at original before rest then some { consumed := original.length, output := replacement, key := none }
  else none

def rewrite_field_selects (source original replacement : Str) (lowercase_key : Bool) : Str × List Str :=
  rewrite (field_select original replacement lowercase_key) source

def rewrite_bracket_keys (source variable_ : Str) (lowercase_key : Bool) : Str × List Str :=
  rewrite (bracket_key variable_ lowercase_key) source

def rewrite_cel_identifier (source original replacement : Str) : Str :=
  (rewrite (identifier original replacement) source).1

/-- `lowercase_string_literals`; `quote` is the open quote, if any. -/
def lowercase_string_literals : Option Char → Str → Str
  | _, [] => []
  | none, c :: cs => c :: lowercase_string_literals (if is_quote c then some c else none) cs
  | some _, [c] => [ascii_lowercase c]
  | some quote, c :: d :: cs =>
    if c = quote then ascii_lowercase c :: lowercase_string_literals none (d :: cs)
    else if c = backslash then ascii_lowercase c :: ascii_lowercase d :: lowercase_string_literals (some quote) cs
    else ascii_lowercase c :: lowercase_string_literals (some quote) (d :: cs)

/-! ## Checks on the prepared text -/

def after_first (sub : Str) : Str → Option Str
  | [] => if sub = [] then some [] else none
  | c :: cs => if starts_with (c :: cs) sub then some ((c :: cs).drop sub.length) else after_first sub cs

def contains (s sub : Str) : Bool := (after_first sub s).isSome

def indexed_list_compared_to_string (variable_ : Str) : Nat → Str → Bool
  | 0, _ => false
  | fuel + 1, source =>
    match after_first variable_ source with
    | none => false
    | some rest =>
      let trimmed := trim_start_matches is_whitespace rest
      let after := trim_start_matches is_whitespace ((trimmed.dropWhile (· ≠ ']')).tail)
      if starts_with trimmed ['['] && trimmed.contains ']' &&
          (starts_with after ['=', '=', ' ', Char.ofNat 39] || starts_with after "== \"".toList) then true
      else indexed_list_compared_to_string variable_ fuel rest

abbrev ConditionCompileError := String

def unavailable_facets : List String :=
  ["http.body", "http.body_json", "http.header", "http.raw_path", "http.escaped_path", "http.unknown"]

def reject_known_unavailable_facets (source : Str) : Except ConditionCompileError Unit :=
  match unavailable_facets.find? (fun facet => contains_http_facet source facet.toList) with
  | some facet => .error ("unsupported http condition facet " ++ facet)
  | none => .ok ()

def reject_static_type_mismatches (source : Str) : Except ConditionCompileError Unit :=
  if contains source "http_query ==".toList || contains source "== http_query".toList then
    .error "http.query comparisons must index a string list"
  else if contains source "http_headers ==".toList || contains source "== http_headers".toList then
    .error "http.headers comparisons must index a string list"
  else if indexed_list_compared_to_string "http_headers".toList (source.length + 1) source ||
      indexed_list_compared_to_string "http_query".toList (source.length + 1) source then
    .error "http query and header entries are string lists"
  else .ok ()

/-! ## Preparing a source -/

structure PreparedSource where
  source : Str
  (query_keys header_keys : List Str)

/-- The four passes of `prepare_http_condition_source` that record keys. -/
def record_keys (source : Str) : PreparedSource :=
  let q := rewrite_field_selects source "http.query".toList "http_query".toList false
  let h := rewrite_field_selects q.1 "http.headers".toList "http_headers".toList true
  let bq := rewrite_bracket_keys h.1 "http.query".toList false
  let bh := rewrite_bracket_keys bq.1 "http.headers".toList true
  { source := bh.1, query_keys := q.2 ++ bq.2, header_keys := h.2 ++ bh.2 }

/-- The passes that turn the remaining facet paths into variables. -/
def rewrite_facets (source : Str) : Str :=
  ["method", "host", "path", "query", "headers"].foldl (fun prepared field =>
    rewrite_cel_identifier prepared ("http." ++ field).toList ("http_" ++ field).toList) source

def prepare_http_condition_source (source : Str) : Except ConditionCompileError PreparedSource := do
  reject_known_unavailable_facets source
  let recorded := record_keys source
  let prepared := rewrite_facets recorded.source
  if contains_cel_path_prefix prepared "http.".toList then throw "unknown http condition facet"
  let prepared := if contains prepared "http_method".toList then lowercase_string_literals none prepared else prepared
  reject_static_type_mismatches prepared
  return { recorded with source := prepared }

/-! ## Compiling -/

structure HttpConditionContext where
  method : String := ""
  host : String := ""
  path : String := ""
  query : Entries (List String) := []
  headers : Entries (List String) := []

def default_with_keys (query_keys header_keys : List Str) : HttpConditionContext :=
  { query := query_keys.foldl (fun m key => BTreeMap.insert (String.ofList key) ["", ""] m) []
    headers := header_keys.foldl (fun m key => BTreeMap.insert (String.ofList key) ["", ""] m) [] }

/-- `add_http_context`. -/
def http_variables (context : HttpConditionContext) : List (String × CelValue) :=
  [("http_method", .string context.method), ("http_host", .string context.host), ("http_path", .string context.path),
   ("http_query", .string_list_map context.query), ("http_headers", .string_list_map context.headers)]

structure HttpCondition (cel : Cel) where
  program : cel.Program
  (query_keys header_keys : List Str)

def parse_condition (cel : Cel) (source : Str) : Except ConditionCompileError cel.Program :=
  (cel.compile (String.ofList source)).mapError (fun err => "parse condition: " ++ err)

def require_bool (value : CelValue) : Except ConditionCompileError Unit :=
  match value with
  | .bool _ => .ok ()
  | value => .error ("must return bool, got " ++ value_type_name value)

def HttpCondition.compile (cel : Cel) (source : String) : Except ConditionCompileError (HttpCondition cel) := do
  let prepared ← prepare_http_condition_source source.toList
  let program ← parse_condition cel prepared.source
  let value ← cel.execute program (http_variables (default_with_keys prepared.query_keys prepared.header_keys))
  require_bool value
  return { program, query_keys := prepared.query_keys, header_keys := prepared.header_keys }

/-- The variable of a facet field, at its type's empty value. -/
def zero_variable (facet : FacetDefinition) (field : FacetFieldDefinition) : String × CelValue :=
  (facet.name ++ "_" ++ field.name,
    match field.kind with
    | .string => .string ""
    | .string_list_map => .string_list_map []
    | .int => .int 0
    | .bool => .bool false)

/-- Rewrite the fields of the facets other than `http`, in order. -/
def rewrite_other_facets (family : EndpointFamily) (prepared : Str) : Except ConditionCompileError Str :=
  ((PluginRegistry.family family).facets.filter (· ≠ "http")).foldlM (fun prepared facet_name =>
    match PluginRegistry.facet facet_name with
    | none => .error ("endpoint family " ++ family.as_str ++ " references unknown facet " ++ facet_name)
    | some facet =>
      let prepared := facet.fields.foldl (fun prepared field =>
        rewrite_cel_identifier prepared (facet.name ++ "." ++ field.name).toList
          (facet.name ++ "_" ++ field.name).toList) prepared
      if contains_cel_path_prefix prepared (facet.name ++ ".").toList then
        .error ("unknown " ++ facet.name ++ " condition facet")
      else .ok prepared) prepared

/-- The variables of `execute_facet_condition`. -/
def facet_variables (family : EndpointFamily) (prepared : PreparedSource) : List (String × CelValue) :=
  let facets := (PluginRegistry.family family).facets
  (if "http" ∈ facets then http_variables (default_with_keys prepared.query_keys prepared.header_keys) else []) ++
    (facets.filter (· ≠ "http")).flatMap (fun name =>
      match PluginRegistry.facet name with
      | none => []
      | some facet => facet.fields.map (zero_variable facet))

def FacetCondition.compile (cel : Cel) (source : String) (family : EndpointFamily) :
    Except ConditionCompileError Unit := do
  let prepared ←
    if "http" ∈ (PluginRegistry.family family).facets then prepare_http_condition_source source.toList
    else .ok { source := source.toList, query_keys := [], header_keys := [] }
  let text ← rewrite_other_facets family prepared.source
  let program ← parse_condition cel text
  let value ← cel.execute program (facet_variables family prepared)
  require_bool value

end Silo.Policy
