import Silo.Lib.AssocMap
import Mathlib.Data.Rat.Defs
import Mathlib.Algebra.Order.Ring.Unbundled.Rat
/-!
# Policy documents

The decoded policy file and the built-in registry of endpoint kinds, families and
condition facets. Fields a document spells as free text stay strings; the compiler
turns them into the enumerations below.
-/

namespace Silo.Netd

open Lib

/-! ## Enumerations of the compiled policy -/

inductive Action where
  | allow
  | deny
  deriving DecidableEq, Repr

def Action.string : Action → String
  | allow => "allow"
  | deny => "deny"

def Action.ofString : String → Option Action
  | "allow" => some allow
  | "deny" => some deny
  | _ => none

inductive EndpointFamily where
  | ip
  | http
  | package
  deriving DecidableEq, Repr

def EndpointFamily.string : EndpointFamily → String
  | ip => "ip"
  | http => "http"
  | package => "package"

inductive Transport where
  | packetFilter
  | httpProxy
  | httpsMITM
  | tlsTerminate
  deriving DecidableEq, Repr

def Transport.string : Transport → String
  | packetFilter => "packet-filter"
  | httpProxy => "http-proxy"
  | httpsMITM => "https-mitm"
  | tlsTerminate => "tls-terminate"

inductive TLSMode where
  | none
  | terminate
  deriving DecidableEq, Repr

def TLSMode.string : TLSMode → String
  | none => "none"
  | terminate => "terminate"

/-! ## The document -/

/-- A decoded JSON value (`any`). -/
inductive Json where
  | null
  | bool (b : Bool)
  | number (n : ℚ)
  | string (s : String)
  | array (items : List Json)
  | object (members : List (String × Json))

structure PortRange where
  (start stop : UInt16)
  deriving DecidableEq, Repr

structure EgressDecl where
  host : String
  port : UInt16
  tls : Bool
  deriving DecidableEq, Repr

structure EndpointDecl where
  (kind name family transport tls : String)
  config : AssocMap String Json := .empty
  egress : List EgressDecl := []
  capabilities : List String := []
  sourceCIDRs : List String := []
  destinationCIDRs : List String := []
  protocol : String := ""
  ports : List PortRange := []
  hosts : List String := []

structure CredentialDecl where
  (kind name endpoint : String)
  username : String := ""
  header : String := ""
  headerPrefix : String := ""
  idempotencyKey : Bool := false
  condition : String := ""
  deriving DecidableEq

structure RuleDecl where
  name : String := ""
  endpoints : List String
  credential : String := ""
  condition : String := ""
  tunnel : String := ""
  verdict : String
  priority : Int := 0
  disabled : Bool := false
  reason : String := ""
  deriving DecidableEq

structure TailscaleDecl where
  name : String
  ephemeral : Bool := false
  tags : List String := []
  hostname : String := ""
  controlURL : String := ""
  deriving DecidableEq

structure NetworkForwardDecl where
  (name kind target : String)
  targetPort : UInt16
  listen : String := ""
  tunnel : String := ""
  protocol : String := ""
  /-- `tls.provider`, when `tls` is present. -/
  tlsProvider : Option String := none
  deriving DecidableEq

structure AuditSettingsDecl where
  bodyBufferBytes : Int := 0
  bodyStorageBytes : Int := 0

structure SettingsDecl where
  defaultAction : String := ""
  audit : AuditSettingsDecl := {}

structure NetworkPolicyFile where
  version : Int
  metadata : List (String × Json) := []
  settings : SettingsDecl := {}
  endpoints : List EndpointDecl := []
  credentials : List CredentialDecl := []
  rules : List RuleDecl := []
  tailscale : List TailscaleDecl := []
  forwards : List NetworkForwardDecl := []

/-! ## The built-in registry -/

inductive EndpointSchema where
  | ip
  | hosts
  | registries
  deriving DecidableEq, Repr

inductive ConditionKind where
  | none
  | cel
  deriving DecidableEq, Repr

inductive FacetKind where
  | string
  | stringListMap
  | int
  | bool
  deriving DecidableEq, Repr

structure FacetField where
  name : String
  kind : FacetKind
  optional : Bool := false
  deriving DecidableEq, Repr

structure FacetDefinition where
  name : String
  fields : List FacetField
  deriving DecidableEq, Repr

structure EndpointDefinition where
  kind : String
  family : EndpointFamily
  transport : Transport
  tlsMode : TLSMode
  defaultPort : UInt16 := 0
  schema : EndpointSchema
  supportsCredentials : Bool := false
  deriving DecidableEq, Repr

structure FamilyDefinition where
  family : EndpointFamily
  condition : ConditionKind
  facets : List String := []
  deriving DecidableEq, Repr

namespace Registry

def endpoint : String → Option EndpointDefinition
  | "ip" => some { kind := "ip", family := .ip, transport := .packetFilter, tlsMode := .none, schema := .ip }
  | "http" => some { kind := "http", family := .http, transport := .httpProxy, tlsMode := .none,
                     defaultPort := 80, schema := .hosts }
  | "https" => some { kind := "https", family := .http, transport := .httpsMITM, tlsMode := .terminate,
                      defaultPort := 443, schema := .hosts, supportsCredentials := true }
  | "registries" => some { kind := "registries", family := .package, transport := .tlsTerminate,
                           tlsMode := .terminate, defaultPort := 443, schema := .registries }
  | _ => none

def family : EndpointFamily → FamilyDefinition
  | .ip => { family := .ip, condition := .none }
  | .http => { family := .http, condition := .cel, facets := ["http"] }
  | .package => { family := .package, condition := .cel, facets := ["http", "package"] }

def facet : String → Option FacetDefinition
  | "http" => some ⟨"http",
      [⟨"method", .string, false⟩, ⟨"host", .string, false⟩, ⟨"path", .string, false⟩,
        ⟨"query", .stringListMap, false⟩, ⟨"headers", .stringListMap, false⟩]⟩
  | "package" => some ⟨"package",
      [⟨"ecosystem", .string, false⟩, ⟨"operation", .string, false⟩, ⟨"name", .string, false⟩,
        ⟨"version", .string, false⟩, ⟨"identity_known", .bool, false⟩, ⟨"age_known", .bool, false⟩,
        ⟨"age_hours", .int, false⟩, ⟨"age_source", .string, false⟩,
        ⟨"malware_data_available", .bool, false⟩, ⟨"malware", .bool, false⟩,
        ⟨"malware_reason", .string, true⟩]⟩
  | _ => none

/-- What a registered kind is: one of four, each with its own schema and family. -/
theorem endpoint_cases {kind : String} {d : EndpointDefinition} (h : endpoint kind = some d) :
    d.kind = kind ∧
      ((kind = "ip" ∧ d.family = .ip ∧ d.schema = .ip ∧ d.transport = .packetFilter) ∨
       (kind = "http" ∧ d.family = .http ∧ d.schema = .hosts ∧ d.transport = .httpProxy) ∨
       (kind = "https" ∧ d.family = .http ∧ d.schema = .hosts ∧ d.transport = .httpsMITM) ∨
       (kind = "registries" ∧ d.family = .package ∧ d.schema = .registries ∧ d.transport = .tlsTerminate)) := by
  unfold endpoint at h
  split at h <;> cases h <;> simp

end Registry

/-! ## References -/

structure Ref where
  (kind name : String)
  deriving DecidableEq, Repr

/-- `Ref.String`, the key of every endpoint and credential map. -/
def Ref.string (r : Ref) : String := r.kind ++ "." ++ r.name

theorem Ref.string_toList (r : Ref) : r.string.toList = r.kind.toList ++ '.' :: r.name.toList := by
  simp [Ref.string, String.toList_append]

/-- Keys of references whose kinds have no dot determine the reference. -/
theorem Ref.string_inj {r s : Ref} (hr : '.' ∉ r.kind.toList) (hs : '.' ∉ s.kind.toList)
    (h : r.string = s.string) : r = s := by
  have hlist := congrArg String.toList h
  rw [Ref.string_toList, Ref.string_toList] at hlist
  obtain ⟨hkind, hname⟩ := append_sep_inj hr hs hlist
  cases r; cases s
  simp only [Ref.mk.injEq]
  exact ⟨String.toList_inj.1 hkind, String.toList_inj.1 hname⟩

theorem Registry.kind_dotless {kind : String} {d : EndpointDefinition} (h : Registry.endpoint kind = some d) :
    '.' ∉ kind.toList := by
  obtain ⟨-, ⟨rfl, -⟩ | ⟨rfl, -⟩ | ⟨rfl, -⟩ | ⟨rfl, -⟩⟩ := Registry.endpoint_cases h <;> decide

end Silo.Netd
