import Silo.Rust.Str
/-!
# The plugin registry

`PluginRegistry::builtins`, the package repositories, and the origins a malware feed
may have.
-/

namespace Silo.Policy

open Rust

inductive EndpointFamily where
  | ip
  | http
  | package
  deriving DecidableEq, Repr

def EndpointFamily.as_str : EndpointFamily → String
  | ip => "ip"
  | http => "http"
  | package => "package"

inductive Transport where
  | packet_filter
  | http_proxy
  | https_mitm
  | tls_terminate
  deriving DecidableEq, Repr

def Transport.as_str : Transport → String
  | packet_filter => "packet-filter"
  | http_proxy => "http-proxy"
  | https_mitm => "https-mitm"
  | tls_terminate => "tls-terminate"

inductive EndpointSchema where
  | ip
  | hosts
  | registries
  deriving DecidableEq, Repr

inductive ConditionKind where
  | none
  | http
  | facet
  deriving DecidableEq, Repr

inductive FacetKind where
  | string
  | string_list_map
  | int
  | bool
  deriving DecidableEq, Repr

structure FacetFieldDefinition where
  name : String
  kind : FacetKind
  optional : Bool := false
  deriving DecidableEq, Repr

structure FacetDefinition where
  name : String
  fields : List FacetFieldDefinition
  deriving DecidableEq, Repr

structure EndpointDefinition where
  kind : String
  family : EndpointFamily
  transport : Transport
  default_port : UInt16
  schema : EndpointSchema
  (supports_credentials terminates_tls : Bool)
  deriving DecidableEq, Repr

structure FamilyDefinition where
  family : EndpointFamily
  condition : ConditionKind
  facets : List String
  deriving DecidableEq, Repr

namespace PluginRegistry

def endpoint : String → Option EndpointDefinition
  | "ip" => some ⟨"ip", .ip, .packet_filter, 0, .ip, false, false⟩
  | "http" => some ⟨"http", .http, .http_proxy, 80, .hosts, false, false⟩
  | "https" => some ⟨"https", .http, .https_mitm, 443, .hosts, true, true⟩
  | "registries" => some ⟨"registries", .package, .tls_terminate, 443, .registries, false, true⟩
  | _ => none

def family : EndpointFamily → FamilyDefinition
  | .ip => ⟨.ip, .none, []⟩
  | .http => ⟨.http, .http, ["http"]⟩
  | .package => ⟨.package, .facet, ["http", "package"]⟩

def facet : String → Option FacetDefinition
  | "http" => some ⟨"http",
      [⟨"method", .string, false⟩, ⟨"host", .string, false⟩, ⟨"path", .string, false⟩,
        ⟨"query", .string_list_map, false⟩, ⟨"headers", .string_list_map, false⟩]⟩
  | "package" => some ⟨"package",
      [⟨"ecosystem", .string, false⟩, ⟨"operation", .string, false⟩, ⟨"name", .string, false⟩,
        ⟨"version", .string, false⟩, ⟨"identity_known", .bool, false⟩, ⟨"age_known", .bool, false⟩,
        ⟨"age_hours", .int, false⟩, ⟨"age_source", .string, false⟩,
        ⟨"malware_data_available", .bool, false⟩, ⟨"malware", .bool, false⟩,
        ⟨"malware_reason", .string, true⟩]⟩
  | _ => none

end PluginRegistry

/-! ## Package repositories -/

inductive PackageRepository where
  | npm
  | pypi
  deriving DecidableEq, Repr

def PackageRepository.parse : String → Option PackageRepository
  | "npm" => some npm
  | "pypi" => some pypi
  | _ => none

def PackageRepository.hosts : PackageRepository → List String
  | npm => ["registry.npmjs.org", "registry.yarnpkg.com", "registry.npmjs.com"]
  | pypi => ["pypi.org", "files.pythonhosted.org", "pypi.python.org", "pythonhosted.org"]

/-- `registry_hosts`: the hosts of the known repositories in order, each once. -/
def registry_hosts (repositories : List String) : List String :=
  repositories.foldl (fun hosts repository =>
    match PackageRepository.parse repository with
    | none => hosts
    | some repository =>
      repository.hosts.foldl (fun hosts host => if host ∈ hosts then hosts else hosts ++ [host]) hosts) []

/-! ## Origins -/

/-- `str::rsplit_once` at a character. -/
def rsplit_once (sep : Char) (s : Str) : Option (Str × Str) :=
  if sep ∈ s then
    some ((s.reverse.dropWhile (· ≠ sep)).tail.reverse, (s.reverse.takeWhile (· ≠ sep)).reverse)
  else none

/-- The bracketed branch of `parse_https_origin`, after the opening bracket. -/
def parse_bracketed_origin (bracketed : Str) : Option (Str × UInt16) :=
  if ']' ∉ bracketed then none
  else
    let host := bracketed.takeWhile (· ≠ ']')
    let suffix := (bracketed.dropWhile (· ≠ ']')).tail
    let port := if suffix = [] then some 443 else (strip_prefix_of suffix [':']).bind parse_u16
    match port with
    | none => none
    | some port => if host = [] ∨ host.any is_whitespace ∨ port = 0 then none else some (to_ascii_lowercase host, port)

/-- `parse_https_origin`: the host and port of an HTTPS URL without query and fragment. -/
def parse_https_origin (value : String) : Option (String × UInt16) :=
  if value.toList.any (fun c => c == '?' || c == '#') then none
  else
    match strip_prefix_of value.toList "https://".toList with
    | none => none
    | some remainder =>
      let authority := remainder.takeWhile (· ≠ '/')
      if authority = [] ∨ '@' ∈ authority ∨ authority.any is_whitespace then none
      else
        let origin :=
          match strip_prefix_of authority ['['] with
          | some bracketed => parse_bracketed_origin bracketed
          | none =>
            let hostPort :=
              match rsplit_once ':' authority with
              | some (host, port) => (parse_u16 port).map (fun port => (host, port))
              | none => some (authority, 443)
            match hostPort with
            | none => none
            | some (host, port) => if host = [] ∨ port = 0 then none else some (to_ascii_lowercase host, port)
        origin.map (fun o => (String.ofList o.1, o.2))

end Silo.Policy
