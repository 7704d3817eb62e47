import Silo.Netd.Document
import Silo.Policy.Canonical
/-!
# The policy document

A policy serialised as JSON and decoded into netd's `networkPolicyFile`. Absent optional
strings decode as empty ones, numbers decode as doubles, and a byte count above the largest
`int64` does not decode.
-/

namespace Silo.Policy

open Rust Lib

/-! ## Free-form values -/

/-- The double nearest to a natural number, ties to even. -/
def float64 (n : Nat) : Nat :=
  if n < 2 ^ 53 then n
  else
    let ulp := 2 ^ (n.log2 - 52)
    let q := n / ulp
    let r := n % ulp
    (if 2 * r < ulp then q else if ulp < 2 * r then q + 1 else q + q % 2) * ulp

def number_document : Number → ℚ
  | .pos n => float64 n.toNat
  | .neg m => -(float64 (m.val + 1))
  | .float q => q

mutual
def value_document : Value → Netd.Json
  | .null => .null
  | .bool b => .bool b
  | .number n => .number (number_document n)
  | .string s => .string s
  | .array items => .array (items_document items)
  | .object members => .object (members_document members)

def items_document : List Value → List Netd.Json
  | [] => []
  | v :: vs => value_document v :: items_document vs

def members_document : Value.Members → List (String × Netd.Json)
  | [] => []
  | (k, v) :: ms => (k, value_document v) :: members_document ms
end

theorem members_document_eq_map (ms : Value.Members) :
    members_document ms = ms.map (fun m => (m.1, value_document m.2)) := by
  induction ms with
  | nil => rfl
  | cons m ms ih => simp [members_document, ih]

theorem items_document_eq_map (vs : List Value) : items_document vs = vs.map value_document := by
  induction vs with
  | nil => rfl
  | cons v vs ih => simp [items_document, ih]

theorem nodup_members_document (m : Map) : ((members_document m.members).map Prod.fst).Nodup := by
  rw [members_document_eq_map, List.map_map]
  exact (List.pairwise_map.2 (Value.read_object_iff.1 m.read_eq).1).imp ne_of_lt

/-- `map[string]any`. -/
def map_document (m : Map) : AssocMap String Netd.Json := ⟨members_document m.members, nodup_members_document m⟩

/-! ## Declarations -/

def action_document : Action → String
  | .allow => "allow"
  | .deny => "deny"

def ip_protocol_document : IpProtocol → String
  | .any => "any"
  | .tcp => "tcp"
  | .udp => "udp"

def egress_document (egress : NetworkEgress) : Netd.EgressDecl := ⟨egress.host, egress.port, egress.tls⟩

def endpoint_document (endpoint : NetworkEndpoint) : Netd.EndpointDecl where
  kind := endpoint.kind
  name := endpoint.name
  family := endpoint.family
  transport := endpoint.transport
  tls := endpoint.tls_mode
  config := map_document endpoint.config
  egress := endpoint.egress.map egress_document
  capabilities := endpoint.capabilities
  sourceCIDRs := endpoint.source_cidrs
  destinationCIDRs := endpoint.destination_cidrs
  protocol := ip_protocol_document endpoint.protocol
  ports := endpoint.ports.map (fun port => ⟨port.start, port.end_⟩)
  hosts := endpoint.hosts

def credential_document (credential : NetworkCredential) : Netd.CredentialDecl where
  kind := credential.kind
  name := credential.name
  endpoint := credential.endpoint
  username := credential.username.getD ""
  header := credential.header.getD ""
  headerPrefix := credential.prefix_.getD ""
  idempotencyKey := credential.idempotency_key
  condition := credential.condition.getD ""

def rule_document (rule : NetworkRule) : Netd.RuleDecl where
  name := rule.name.getD ""
  endpoints := rule.endpoints
  credential := rule.credential.getD ""
  condition := rule.condition.getD ""
  tunnel := rule.tunnel.getD ""
  verdict := action_document rule.verdict
  priority := rule.priority.toInt
  disabled := rule.disabled
  reason := rule.reason

def tailscale_document (tunnel : TailscaleTunnel) : Netd.TailscaleDecl where
  name := tunnel.name
  ephemeral := tunnel.ephemeral
  tags := tunnel.tags
  hostname := tunnel.hostname.getD ""
  controlURL := tunnel.control_url.getD ""

def forward_protocol_document : ForwardProtocol → String
  | .tcp => "tcp"
  | .https => "https"

def provider_document : ForwardCertificateProvider → String
  | .tailscale => "tailscale"

def forward_document (forward : NetworkForward) : Netd.NetworkForwardDecl where
  name := forward.name
  kind := forward.kind
  target := forward.target
  targetPort := forward.target_port
  listen := forward.listen
  tunnel := forward.tunnel.getD ""
  protocol := forward_protocol_document forward.protocol
  tlsProvider := forward.tls.map (fun tls => provider_document tls.provider)

def int64 (n : UInt64) : Option Int := if n.toNat < 2 ^ 63 then some n.toNat else none

def NetworkPolicy.document (policy : NetworkPolicy) : Option Netd.NetworkPolicyFile := do
  let body_buffer_bytes ← int64 policy.settings.audit.body_buffer_bytes
  let body_storage_bytes ← int64 policy.settings.audit.body_storage_bytes
  return {
    version := policy.version.toNat
    metadata := members_document policy.metadata.members
    settings := ⟨action_document policy.settings.default_action, ⟨body_buffer_bytes, body_storage_bytes⟩⟩
    endpoints := policy.endpoints.map endpoint_document
    credentials := policy.credentials.map credential_document
    rules := policy.rules.map rule_document
    tailscale := policy.tailscale.map tailscale_document
    forwards := policy.forwards.map forward_document }

end Silo.Policy
