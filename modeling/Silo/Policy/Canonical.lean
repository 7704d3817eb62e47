import Silo.Policy.Plugin
import Silo.Rust.Json
import Silo.Secrets.Names
/-!
# Network policies

The canonical policy a machine carries, its normalisation, and the secret slots its
credentials and tunnels ask for.
-/

namespace Silo.Policy

open Rust

/-! ## The policy -/

inductive Action where
  | allow
  | deny
  deriving DecidableEq, Repr

structure NetworkAuditSettings where
  body_buffer_bytes : UInt64 := 1048576
  body_storage_bytes : UInt64 := 4096
  deriving DecidableEq, Repr

structure NetworkPolicySettings where
  default_action : Action := .allow
  audit : NetworkAuditSettings := {}
  deriving DecidableEq, Repr

structure NetworkEgress where
  host : String
  port : UInt16
  tls : Bool := false
  deriving DecidableEq, Repr

inductive IpProtocol where
  | any
  | tcp
  | udp
  deriving DecidableEq, Repr

/-- An inclusive range; the source's `end` is a keyword here. -/
structure PortRange where
  (start end_ : UInt16)
  deriving DecidableEq, Repr

structure NetworkEndpoint where
  (name kind family transport tls_mode : String)
  config : Map := .empty
  egress : List NetworkEgress := []
  capabilities : List String := []
  source_cidrs : List String := []
  destination_cidrs : List String := []
  protocol : IpProtocol := .any
  ports : List PortRange := []
  hosts : List String := []

structure NetworkCredential where
  (name kind endpoint : String)
  username : Option String := none
  header : Option String := none
  prefix_ : Option String := none
  idempotency_key : Bool := false
  condition : Option String := none
  deriving DecidableEq, Repr

structure NetworkRule where
  name : Option String := none
  endpoints : List String
  credential : Option String := none
  condition : Option String := none
  tunnel : Option String := none
  verdict : Action := .allow
  priority : Int32 := 0
  disabled : Bool := false
  reason : String := ""
  deriving DecidableEq, Repr

structure TailscaleTunnel where
  name : String
  ephemeral : Bool := false
  tags : List String := []
  hostname : Option String := none
  control_url : Option String := none
  deriving DecidableEq, Repr

inductive ForwardProtocol where
  | tcp
  | https
  deriving DecidableEq, Repr

inductive ForwardCertificateProvider where
  | tailscale
  deriving DecidableEq, Repr

structure ForwardTls where
  provider : ForwardCertificateProvider
  deriving DecidableEq, Repr

structure NetworkForward where
  (name kind target : String)
  target_port : UInt16
  listen : String := ""
  tunnel : Option String := none
  protocol : ForwardProtocol := .tcp
  tls : Option ForwardTls := none
  deriving DecidableEq, Repr

structure NetworkPolicy where
  version : UInt32
  metadata : Map := .empty
  settings : NetworkPolicySettings := {}
  endpoints : List NetworkEndpoint := []
  credentials : List NetworkCredential := []
  rules : List NetworkRule := []
  tailscale : List TailscaleTunnel := []
  forwards : List NetworkForward := []

/-! ## Normalisation -/

def normalize_host (host : String) : String :=
  .ofList (to_ascii_lowercase (trim_end_matches (· == '.') (trim host.toList)))

def has_hosts_schema (kind : String) : Bool := (PluginRegistry.endpoint kind).any (·.schema = .hosts)

def NetworkEndpoint.normalize (endpoint : NetworkEndpoint) : NetworkEndpoint :=
  if has_hosts_schema endpoint.kind then { endpoint with hosts := endpoint.hosts.map normalize_host } else endpoint

def listen_digits (listen : String) : Option Str :=
  (strip_prefix_of listen.toList [':']).filter (fun digits => digits ≠ [] && digits.all is_ascii_digit)

/-- The listener of a Tailscale forward to the machine itself. -/
def validate_listen (listen : String) : Except String (Option UInt16) :=
  match listen_digits listen with
  | none => .error "Tailscale/self listen must be :<decimal port>"
  | some digits =>
    match parse_u16 digits with
    | none => .error "forward listen port must be between 1 and 65535"
    | some port =>
      if port = 0 ∨ port = 22 then
        .error "forward listen port must be between 1 and 65535, excluding reserved SSH port 22"
      else .ok (some port)

def validate_forward_transport (kind target : String) (protocol : ForwardProtocol) (tls : Option ForwardTls)
    (listen : String) : Except String (Option UInt16) :=
  match protocol with
  | .tcp =>
    if tls.isSome then .error "TCP forwards cannot configure TLS"
    else if kind ≠ "tailscale" ∨ target ≠ "self" then .ok none
    else validate_listen listen
  | .https =>
    if kind ≠ "tailscale" ∨ target ≠ "self" then .error "HTTPS forwards require Tailscale target self"
    else if tls.isNone then .error "HTTPS forwards require tls.provider = tailscale"
    else validate_listen listen

/-- `validate_forward_transport` on a forward's own fields. -/
def NetworkForward.transport (forward : NetworkForward) : Except String (Option UInt16) :=
  validate_forward_transport forward.kind forward.target forward.protocol forward.tls forward.listen

def listen_address (port : UInt16) : String := .ofList (':' :: decimal port.toNat)

def NetworkForward.normalize (forward : NetworkForward) : NetworkForward :=
  if forward.kind = "tailscale" ∧ forward.target = "self" then
    match forward.transport with
    | .ok (some port) => { forward with listen := listen_address port }
    | _ => forward
  else forward

/-- `NetworkPolicy::normalize`; settings and rules have nothing to normalise. -/
def NetworkPolicy.normalize (policy : NetworkPolicy) : NetworkPolicy :=
  { policy with
    endpoints := policy.endpoints.map NetworkEndpoint.normalize
    forwards := policy.forwards.map NetworkForward.normalize }

/-! ## Secret slots -/

inductive NetworkSecretKind where
  | plain
  | oauth
  deriving DecidableEq, Repr

structure NetworkSecretSlot where
  name : String
  required : Bool
  kind : NetworkSecretKind
  key : Secrets.SecretName
  field : Secrets.SecretField

/-- The fields a credential of each kind stores: suffix, whether it is required, what it projects. -/
def credential_fields : String → List (String × Bool × Secrets.SecretField)
  | "basic_auth" => [("password", true, .Value)]
  | "bearer_token" | "header_token" => [("token", true, .Value)]
  | "github_oauth" | "openai_codex_oauth" =>
    [("oauth.access_token", true, .OAuthAccessToken), ("oauth.expires_at", true, .OAuthExpiresAt),
     ("oauth.account_id", false, .OAuthAccountId)]
  | "aws_credential" =>
    [("access_key_id", true, .Value), ("secret_access_key", true, .Value), ("session_token", false, .Value),
     ("profile", false, .Value)]
  | _ => []

/-- `SecretName::new(..).ok()`. -/
def secret_key (name : String) : Option Secrets.SecretName := (Secrets.SecretName.new name.toList).toOption

def credential_secret_slots (credential : NetworkCredential) : List NetworkSecretSlot :=
  (credential_fields credential.kind).filterMap (fun (suffix, required, field) =>
    let oauth := field ≠ .Value
    (secret_key (credential.kind ++ "." ++ credential.name ++ "." ++ (if oauth then "oauth" else suffix))).map
      (fun key => { name := credential.name ++ "." ++ suffix, required, kind := if oauth then .oauth else .plain, key, field }))

def tunnel_secret_slots (tunnel : TailscaleTunnel) : List NetworkSecretSlot :=
  ["auth_key", "client_secret", "api_token"].filterMap (fun field =>
    (secret_key ("tailscale." ++ tunnel.name ++ "." ++ field)).map
      (fun key => { name := tunnel.name ++ ".tailscale." ++ field, required := false, kind := .plain, key, field := .Value }))

def NetworkPolicy.secret_slots (policy : NetworkPolicy) : List NetworkSecretSlot :=
  policy.credentials.flatMap credential_secret_slots ++ policy.tailscale.flatMap tunnel_secret_slots

end Silo.Policy
