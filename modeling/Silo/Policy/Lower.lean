import Silo.Policy.Canonical
/-!
# Lowering HCL declarations

The declarations an HCL policy parses to, and `lower_document`, which adds them to a
network policy.
-/

namespace Silo.Policy

open Rust

structure Ref where
  (kind name : String)
  deriving DecidableEq, Repr

structure ConditionDecl where
  id : UInt32
  source : String
  deriving DecidableEq, Repr

structure AuditSettingsDecl where
  (body_buffer body_storage : Int64)
  deriving DecidableEq

structure SettingsDecl where
  default_action : Action := .allow
  audit : Option AuditSettingsDecl := none
  deriving DecidableEq

structure EndpointDecl where
  (kind name : String)
  family : EndpointFamily
  transport : Transport
  default_port : UInt16
  (terminates_tls supports_credentials : Bool)
  source : List String := []
  destination : List String := []
  protocol : String := ""
  ports : List PortRange := []
  hosts : List String := []
  registries : List String := []
  malware_feed : String := ""
  filter_package_age : Option UInt32 := none
  deriving DecidableEq

structure CredentialDecl where
  (kind name : String)
  endpoint : Ref
  username : String := ""
  header : String := ""
  prefix_ : String := ""
  idempotency_key : Bool := false
  condition : Option ConditionDecl := none
  deriving DecidableEq

structure RuleDecl where
  name : String
  endpoints : List Ref
  credential : Option Ref := none
  tunnel : Option Ref := none
  verdict : Action
  priority : Int32
  disabled : Bool
  condition : Option ConditionDecl := none
  reason : String
  deriving DecidableEq

structure TailscaleDecl where
  name : String
  ephemeral : Bool := false
  tags : List String := []
  hostname : String := ""
  control_url : String := ""
  deriving DecidableEq

structure ForwardDecl where
  (kind name : String)
  listen : String := ""
  target : String
  target_port : UInt16
  tunnel : Option Ref := none
  protocol : ForwardProtocol := .tcp
  tls : Option ForwardTls := none
  deriving DecidableEq

/-- `PolicyDocument`, without its positions and diagnostics. -/
structure PolicyDocument where
  settings : SettingsDecl := {}
  endpoints : List EndpointDecl := []
  credentials : List CredentialDecl := []
  rules : List RuleDecl := []
  tailscale : List TailscaleDecl := []
  forwards : List ForwardDecl := []
  deriving DecidableEq

/-- `model::Policy`, which the canonical module calls `HclPolicy`. -/
structure HclPolicy where
  policy_hash : String
  documents : List PolicyDocument

/-! ## Lowering -/

def lower_settings (settings : SettingsDecl) : NetworkPolicySettings where
  default_action := settings.default_action
  audit :=
    match settings.audit with
    | none => {}
    | some audit => ⟨audit.body_buffer.toUInt64, audit.body_storage.toUInt64⟩

def lower_ip_protocol : String → IpProtocol
  | "tcp" => .tcp
  | "udp" => .udp
  | _ => .any

def non_empty_string (value : String) : Option String := if value = "" then none else some value

def lower_config (endpoint : EndpointDecl) : Map :=
  .ofMembers
    ((if endpoint.registries = [] then [] else [("registries", .array (endpoint.registries.map .string))]) ++
      (if endpoint.malware_feed = "" then [] else [("malware_feed", .string endpoint.malware_feed)]) ++
      match endpoint.filter_package_age with
      | none => []
      | some hours => [("filter_package_age", .number (.pos hours.toUInt64))])

def lower_egress (endpoint : EndpointDecl) : List NetworkEgress :=
  if endpoint.malware_feed = "" then []
  else
    match parse_https_origin endpoint.malware_feed with
    | some (host, port) => [{ host, port, tls := true }]
    | none => []

def lower_endpoint (endpoint : EndpointDecl) : NetworkEndpoint where
  name := endpoint.name
  kind := endpoint.kind
  family := endpoint.family.as_str
  transport := endpoint.transport.as_str
  tls_mode := if endpoint.terminates_tls then "terminate" else "none"
  config := lower_config endpoint
  egress := lower_egress endpoint
  capabilities := if endpoint.supports_credentials then ["credential-injection"] else []
  source_cidrs := endpoint.source
  destination_cidrs := endpoint.destination
  protocol := lower_ip_protocol endpoint.protocol
  ports := endpoint.ports
  hosts := endpoint.hosts

def lower_credential (credential : CredentialDecl) : NetworkCredential where
  name := credential.name
  kind := credential.kind
  endpoint := credential.endpoint.name
  username := non_empty_string credential.username
  header := non_empty_string credential.header
  prefix_ := non_empty_string credential.prefix_
  idempotency_key := credential.idempotency_key
  condition := credential.condition.map (·.source)

def lower_rule (rule : RuleDecl) : NetworkRule where
  name := non_empty_string rule.name
  endpoints := rule.endpoints.map (·.name)
  credential := rule.credential.map (·.name)
  condition := rule.condition.map (·.source)
  tunnel := rule.tunnel.map (·.name)
  verdict := rule.verdict
  priority := rule.priority
  disabled := rule.disabled
  reason := rule.reason

def lower_tailscale (tunnel : TailscaleDecl) : TailscaleTunnel where
  name := tunnel.name
  ephemeral := tunnel.ephemeral
  tags := tunnel.tags
  hostname := non_empty_string tunnel.hostname
  control_url := non_empty_string tunnel.control_url

def lower_forward (forward : ForwardDecl) : NetworkForward where
  name := forward.name
  kind := forward.kind
  target := forward.target
  target_port := forward.target_port
  listen := forward.listen
  tunnel := forward.tunnel.map (·.name)
  protocol := forward.protocol
  tls := forward.tls

def lower_document (policy : NetworkPolicy) (document : PolicyDocument) : NetworkPolicy :=
  { policy with
    settings := lower_settings document.settings
    endpoints := policy.endpoints ++ document.endpoints.map lower_endpoint
    credentials := policy.credentials ++ document.credentials.map lower_credential
    rules := policy.rules ++ document.rules.map lower_rule
    tailscale := policy.tailscale ++ document.tailscale.map lower_tailscale
    forwards := policy.forwards ++ document.forwards.map lower_forward }

/-- The policy `from_hcl_policy` builds before it normalises and validates. -/
def HclPolicy.lower (policy : HclPolicy) : NetworkPolicy :=
  policy.documents.foldl lower_document
    { version := 1, metadata := .ofMembers [("hcl", .object [("source_hash", .string policy.policy_hash)])] }

end Silo.Policy
