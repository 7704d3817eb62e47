import Silo.Lib.AssocMap
import Silo.Policy.Canonical
import Silo.Policy.Condition
/-!
# Validation

`PolicyValidator`: every check adds its diagnostics and validation goes on, so a policy is
accepted when no diagnostic is an error.
-/

namespace Silo.Policy

open Rust Lib

/-! ## Diagnostics -/

inductive DiagnosticSeverity where
  | error
  | warning
  deriving DecidableEq, Repr

/-- A piece of a formatted text: shown as it is, or with `{:?}`. -/
inductive Piece where
  | text (s : String)
  | debug (s : String)
  deriving DecidableEq, Repr

/-- A diagnostic of the validator; its position is always `<policy>:0:0`. -/
structure Diagnostic where
  severity : DiagnosticSeverity
  summary : String
  detail : List Piece
  deriving DecidableEq, Repr

def error (summary : String) (detail : List String) : Diagnostic := ⟨.error, summary, detail.map .text⟩

def report (c : Prop) [Decidable c] (d : Diagnostic) : List Diagnostic := if c then [d] else []

def NoErrors (ds : List Diagnostic) : Prop := ∀ d ∈ ds, d.severity ≠ .error

instance (ds : List Diagnostic) : Decidable (NoErrors ds) := by unfold NoErrors; infer_instance

/-! ## Names -/

def valid_identifier (value : String) : Bool := value ≠ "" && value.toList.all is_identifier_char

def validate_name (kind name : String) : List Diagnostic :=
  report (name = "silo" ∧ (kind = "credential" ∨ kind = "tailscale tunnel"))
    (error "reserved policy object name" [kind, " name silo is reserved for generated secrets"]) ++
  report (valid_identifier name = false)
    ⟨.error, "invalid policy object name",
      [.text kind, .text " name ", .debug name, .text " must use the policy identifier grammar"]⟩

/-! ## Endpoints -/

structure NetworkEndpointInfo where
  kind : String
  family : EndpointFamily
  supports_credentials : Bool
  deriving DecidableEq, Repr

def expected_tls (definition : EndpointDefinition) : String := if definition.terminates_tls then "terminate" else "none"

def expected_capabilities (definition : EndpointDefinition) : List String :=
  if definition.supports_credentials then ["credential-injection"] else []

def validate_endpoint_descriptor (endpoint : NetworkEndpoint) (definition : EndpointDefinition) : List Diagnostic :=
  let requires (what value : String) := ["endpoint ", endpoint.name, " type ", endpoint.kind, " requires ", what, " ", value]
  report (endpoint.family ≠ definition.family.as_str)
    (error "endpoint family mismatch" (requires "family" definition.family.as_str)) ++
  report (endpoint.transport ≠ definition.transport.as_str)
    (error "endpoint transport mismatch" (requires "transport" definition.transport.as_str)) ++
  report (endpoint.tls_mode ≠ expected_tls definition)
    (error "endpoint TLS mode mismatch" (requires "TLS mode" (expected_tls definition))) ++
  report (endpoint.capabilities ≠ expected_capabilities definition)
    (error "endpoint capability mismatch"
      ["endpoint ", endpoint.name, " type ", endpoint.kind, " has unexpected capabilities"])

def show_u16 (n : UInt16) : String := .ofList (decimal n.toNat)

def validate_ip_endpoint (endpoint : NetworkEndpoint) : List Diagnostic :=
  report (endpoint.hosts ≠ []) (error "ip endpoint cannot declare hosts" ["endpoint ", endpoint.name, " has hosts"]) ++
  endpoint.ports.flatMap (fun port =>
    report (port.start = 0 ∨ port.end_ = 0 ∨ port.start > port.end_)
      (error "invalid port range"
        ["endpoint ", endpoint.name, " has port range ", show_u16 port.start, "-", show_u16 port.end_]))

/-- The loop over the hosts; `exact_hosts` holds the exact hosts seen so far. -/
def validate_hosts (name : String) : List String → List String → List Diagnostic × List String
  | exact_hosts, [] => ([], exact_hosts)
  | exact_hosts, host :: hosts =>
    let exact := !starts_with host.toList "*.".toList
    let rest := validate_hosts name (if exact then host :: exact_hosts else exact_hosts) hosts
    (report (trim host.toList = [])
        (error "empty host binding" ["endpoint ", name, " has an empty host binding"]) ++
      report (exact ∧ host ∈ exact_hosts)
        (error "duplicate exact host binding" ["host ", host, " is declared more than once"]) ++ rest.1, rest.2)

def validate_http_endpoint (endpoint : NetworkEndpoint) (exact_hosts : List String) : List Diagnostic × List String :=
  let hosts := validate_hosts endpoint.name exact_hosts endpoint.hosts
  (report (endpoint.source_cidrs ≠ [] ∨ endpoint.destination_cidrs ≠ [] ∨ endpoint.protocol ≠ .any ∨ endpoint.ports ≠ [])
      (error "http endpoint has ip-only fields"
        ["endpoint ", endpoint.name, " has fields only valid for ip endpoints"]) ++
    report (endpoint.hosts = [])
      (error "http endpoint requires hosts" ["endpoint ", endpoint.name, " has no hosts"]) ++ hosts.1, hosts.2)

/-- The part of `validate_registry_endpoint` from the malware feed on. -/
def validate_malware_feed (endpoint : NetworkEndpoint) : List Diagnostic :=
  match (endpoint.config.get "malware_feed").bind Value.as_str with
  | none => [error "registry endpoint requires malware feed" ["endpoint ", endpoint.name, " has no malware_feed"]]
  | some base_url =>
    match parse_https_origin base_url with
    | none => [error "invalid registry malware feed" ["endpoint ", endpoint.name, " malware_feed must use HTTPS"]]
    | some (host, port) =>
      report (endpoint.egress ≠ [{ host, port, tls := true }])
        (error "registry endpoint egress mismatch"
          ["endpoint ", endpoint.name, " has unexpected intelligence egress"]) ++
      report ((endpoint.config.get "filter_package_age").any (fun value =>
          !value.as_u64.any (fun hours => hours ≠ 0 && hours.toNat < 2 ^ 32)))
        (error "invalid package age filter"
          ["endpoint ", endpoint.name, " filter_package_age must be a positive integer"]) ++
      report (endpoint.config.len ≠ if endpoint.config.contains_key "filter_package_age" then 3 else 2)
        (error "registry endpoint has unknown config"
          ["endpoint ", endpoint.name, " canonical config is not recognized"])

def validate_registry_endpoint (endpoint : NetworkEndpoint) (exact_hosts : List String) :
    List Diagnostic × List String :=
  let http := validate_http_endpoint endpoint exact_hosts
  match (endpoint.config.get "registries").bind Value.as_array with
  | none =>
    (http.1 ++ [error "registry endpoint requires registries"
      ["endpoint ", endpoint.name, " has no canonical registries"]], http.2)
  | some registries =>
    let registry_names := registries.filterMap Value.as_str
    (http.1 ++
      report (registry_names.length ≠ registries.length ∨ registry_names.dedup.length ≠ registry_names.length ∨
          registry_names.any (fun registry => (PackageRepository.parse registry).isNone))
        (error "invalid canonical registries" ["endpoint ", endpoint.name, " has invalid registry names"]) ++
      report (endpoint.hosts ≠ registry_hosts registry_names)
        (error "registry endpoint bindings mismatch"
          ["endpoint ", endpoint.name, " has unexpected registry host bindings"]) ++
      validate_malware_feed endpoint, http.2)

def validate_schema (endpoint : NetworkEndpoint) (definition : EndpointDefinition) (exact_hosts : List String) :
    List Diagnostic × List String :=
  match definition.schema with
  | .ip => (validate_ip_endpoint endpoint, exact_hosts)
  | .hosts => validate_http_endpoint endpoint exact_hosts
  | .registries => validate_registry_endpoint endpoint exact_hosts

/-- `validate_endpoints`: the diagnostics, and what later checks know about each name. -/
def validate_endpoints : AssocMap String NetworkEndpointInfo → List String → List NetworkEndpoint →
    List Diagnostic × AssocMap String NetworkEndpointInfo
  | by_name, _, [] => ([], by_name)
  | by_name, exact_hosts, endpoint :: endpoints =>
    match PluginRegistry.endpoint endpoint.kind with
    | none =>
      let rest := validate_endpoints by_name exact_hosts endpoints
      (validate_name "endpoint" endpoint.name ++
        [error "unsupported endpoint kind" ["endpoint ", endpoint.name, " uses unsupported kind ", endpoint.kind]] ++
        rest.1, rest.2)
    | some definition =>
      let schema := validate_schema endpoint definition exact_hosts
      let info : NetworkEndpointInfo := ⟨endpoint.kind, definition.family, definition.supports_credentials⟩
      let rest := validate_endpoints (by_name.insert endpoint.name info) schema.2 endpoints
      (validate_name "endpoint" endpoint.name ++ validate_endpoint_descriptor endpoint definition ++
        report ((by_name.get? endpoint.name).isSome)
          (error "duplicate endpoint name" ["endpoint name ", endpoint.name, " is declared more than once"]) ++
        schema.1 ++ rest.1, rest.2)

/-! ## Credentials -/

def is_supported_credential_kind (kind : String) : Bool :=
  kind ∈ ["basic_auth", "bearer_token", "header_token", "github_oauth", "openai_codex_oauth", "aws_credential"]

def error_text (e : ConditionCompileError) : List String := [e]

def validate_http_condition (cel : Cel) (source summary : String) : List Diagnostic :=
  match HttpCondition.compile cel source with
  | .ok _ => []
  | .error err => [error summary (error_text err)]

def validate_credential_endpoint (cel : Cel) (endpoints : AssocMap String NetworkEndpointInfo)
    (credential : NetworkCredential) : List Diagnostic :=
  match endpoints.get? credential.endpoint with
  | none =>
    [error "credential references unknown endpoint"
      ["credential ", credential.name, " references endpoint ", credential.endpoint]]
  | some endpoint =>
    report (endpoint.supports_credentials = false)
      (error "credential endpoint must be https"
        ["credential ", credential.name, " references ", endpoint.kind, " endpoint ", credential.endpoint]) ++
    match credential.condition with
    | some condition => validate_http_condition cel condition "credential condition"
    | none => []

/-- `validate_credentials`: the diagnostics, and the endpoint each credential is bound to. -/
def validate_credentials (cel : Cel) (endpoints : AssocMap String NetworkEndpointInfo) :
    AssocMap String String → List NetworkCredential → List Diagnostic × AssocMap String String
  | by_name, [] => ([], by_name)
  | by_name, credential :: credentials =>
    let rest := validate_credentials cel endpoints (by_name.insert credential.name credential.endpoint) credentials
    (validate_name "credential" credential.name ++
      report ((by_name.get? credential.name).isSome)
        (error "duplicate credential name" ["credential name ", credential.name, " is declared more than once"]) ++
      report (is_supported_credential_kind credential.kind = false)
        (error "unsupported credential kind" ["credential ", credential.name, " uses unsupported kind ", credential.kind]) ++
      validate_credential_endpoint cel endpoints credential ++ rest.1, rest.2)

/-! ## Tunnels -/

/-- The loop of `validate_tunnels`; `names` holds the names seen so far. -/
def validate_tunnel_names : List String → List TailscaleTunnel → List Diagnostic × List String
  | names, [] => ([], names)
  | names, tunnel :: tunnels =>
    let rest := validate_tunnel_names (tunnel.name :: names) tunnels
    (validate_name "tailscale tunnel" tunnel.name ++
      report (tunnel.name ∈ names)
        (error "duplicate tailscale tunnel name"
          ["tailscale tunnel name ", tunnel.name, " is declared more than once"]) ++ rest.1, rest.2)

def validate_tunnels (tunnels : List TailscaleTunnel) : List Diagnostic × List String :=
  let names := validate_tunnel_names [] tunnels
  ((match tunnels with
    | first :: second :: _ =>
      [⟨.error, "multiple tailscale tunnels",
        [.text "at most one tailscale declaration is allowed: ", .debug first.name, .text " and ", .debug second.name]⟩]
    | _ => []) ++ names.1, names.2)

/-! ## Rules -/

/-- The loop over a rule's endpoints: diagnostics, the family of the first known one, and the known names. -/
def validate_rule_endpoints (endpoints : AssocMap String NetworkEndpointInfo) :
    Option EndpointFamily → List String → List Diagnostic × Option EndpointFamily × List String
  | family, [] => ([], family, [])
  | family, name :: names =>
    match endpoints.get? name with
    | none =>
      let rest := validate_rule_endpoints endpoints family names
      (error "rule references unknown endpoint" ["rule references endpoint ", name] :: rest.1, rest.2)
    | some endpoint =>
      let rest := validate_rule_endpoints endpoints (some (family.getD endpoint.family)) names
      (report (family.getD endpoint.family ≠ endpoint.family)
          (error "rule endpoints must share a family" ["all endpoints on one rule must resolve to the same family"]) ++
        rest.1, rest.2.1, name :: rest.2.2)

def validate_rule_condition (cel : Cel) (family : Option EndpointFamily) (condition : Option String) : List Diagnostic :=
  match condition, family with
  | some condition, some family =>
    match (PluginRegistry.family family).condition with
    | .http => validate_http_condition cel condition "rule condition"
    | .facet =>
      match FacetCondition.compile cel condition family with
      | .ok () => []
      | .error err => [error "rule condition" (error_text err)]
    | .none =>
      [error "condition requires condition-capable endpoints" ["conditions are not valid on this endpoint family"]]
  | _, _ => []

def validate_rule_tunnel (tunnels : List String) (rule : NetworkRule) : List Diagnostic :=
  match rule.tunnel with
  | none => []
  | some tunnel_name =>
    report (tunnel_name ∉ tunnels)
      (error "rule references unknown tunnel" ["rule references tunnel ", tunnel_name]) ++
    report (rule.verdict ≠ .allow)
      (error "tunnel requires allow verdict" ["rules with tunnel references must be explicit allow rules"])

/-- The checks of a rule's credential; an unknown one ends the checks of the rule. -/
def validate_rule_credential (credentials : AssocMap String String) (family : Option EndpointFamily)
    (endpoint_names : List String) (rule : NetworkRule) (tunnels : List String) : List Diagnostic :=
  match rule.credential with
  | none => validate_rule_tunnel tunnels rule
  | some credential_name =>
    match credentials.get? credential_name with
    | none => [error "rule references unknown credential" ["rule references credential ", credential_name]]
    | some endpoint =>
      report (family ≠ some .http)
        (error "credential predicate requires http-family endpoints"
          ["rule.credential is only valid on http-family rules"]) ++
      report (endpoint ∉ endpoint_names)
        (error "credential predicate is not compatible with rule endpoints"
          ["credential ", credential_name, " is bound to endpoint ", endpoint]) ++
      validate_rule_tunnel tunnels rule

def validate_rule (cel : Cel) (endpoints : AssocMap String NetworkEndpointInfo) (credentials : AssocMap String String)
    (tunnels : List String) (rule : NetworkRule) : List Diagnostic :=
  (match rule.name with
    | some name => validate_name "rule" name
    | none => []) ++
  if rule.endpoints = [] then [error "rule requires endpoints" ["rule endpoints must not be empty"]]
  else
    let known := validate_rule_endpoints endpoints none rule.endpoints
    known.1 ++ validate_rule_condition cel known.2.1 rule.condition ++
      validate_rule_credential credentials known.2.1 known.2.2 rule tunnels

def validate_rules (cel : Cel) (rules : List NetworkRule) (endpoints : AssocMap String NetworkEndpointInfo)
    (credentials : AssocMap String String) (tunnels : List String) : List Diagnostic :=
  rules.flatMap (validate_rule cel endpoints credentials tunnels)

/-! ## Forwards -/

def valid_target_selector (value : String) : Bool :=
  ["name:", "id:", "label:"].any (fun selector =>
    starts_with value.toList selector.toList && len value.toList > len selector.toList)

def validate_forward_kind (tunnels : List String) (forward : NetworkForward) : List Diagnostic :=
  if forward.kind = "host" then
    report (forward.tunnel.isSome)
      (error "host forward cannot reference a tunnel" ["forward ", forward.name, " is a host forward"])
  else if forward.kind = "tailscale" then
    match forward.tunnel with
    | some tunnel_name =>
      report (tunnel_name ∉ tunnels)
        (error "forward references unknown tunnel" ["forward ", forward.name, " references tunnel ", tunnel_name])
    | none =>
      report (forward.target ≠ "self")
        (error "missing forward tunnel" ["forward ", forward.name, " requires a tunnel unless its target is self"])
  else [error "unsupported forward kind" ["forward ", forward.name, " uses unsupported kind ", forward.kind]]

/-- The transport check: its diagnostics, and the listeners afterwards. -/
def validate_forward_listener (listeners : List UInt16) (forward : NetworkForward) : List Diagnostic × List UInt16 :=
  match forward.transport with
  | .ok (some port) =>
    (report (port ∈ listeners)
      (error "duplicate forward listener" ["forward ", forward.name, " duplicates Tailscale listener :", show_u16 port]),
      port :: listeners)
  | .ok none => ([], listeners)
  | .error detail => ([error "invalid forward transport" ["forward ", forward.name, ": ", detail]], listeners)

/-- `validate_forwards`, with the names and listeners of the earlier forwards. -/
def validate_forwards_after (tunnels : List String) : List String → List UInt16 → List NetworkForward → List Diagnostic
  | _, _, [] => []
  | names, listeners, forward :: forwards =>
    let listener := validate_forward_listener listeners forward
    validate_name "forward" forward.name ++
      report (forward.name ∈ names)
        (error "duplicate forward name" ["forward name ", forward.name, " is declared more than once"]) ++
      validate_forward_kind tunnels forward ++
      report (forward.target_port = 0)
        (error "invalid forward target port" ["forward ", forward.name, " target_port must be greater than 0"]) ++
      report (¬ (valid_target_selector forward.target ∨ (forward.kind = "tailscale" ∧ forward.target = "self")))
        (error "invalid forward target selector"
          ["forward ", forward.name,
            " target must start with name:, id:, or label:, or be self for Tailscale"]) ++
      listener.1 ++ validate_forwards_after tunnels (forward.name :: names) listener.2 forwards

def validate_forwards (forwards : List NetworkForward) (tunnels : List String) : List Diagnostic :=
  validate_forwards_after tunnels [] [] forwards

/-! ## The policy -/

def valid_slot_segment : Str → Bool
  | [] => false
  | first :: chars =>
    (is_ascii_lowercase first || is_ascii_digit first || first == '_') &&
      chars.all (fun c => is_ascii_lowercase c || is_ascii_digit c || c == '_' || c == '-')

def valid_secret_slot (value : String) : Bool := value ≠ "" && (split '.' value.toList).all valid_slot_segment

def validate_secret_slots (policy : NetworkPolicy) : List Diagnostic :=
  policy.secret_slots.flatMap (fun slot =>
    report (valid_secret_slot slot.name = false)
      (error "invalid network secret slot" ["derived slot ", slot.name, " is not a valid lowercase slot path"]))

def POLICY_VERSION : UInt32 := 1

def show_u32 (n : UInt32) : String := .ofList (decimal n.toNat)

def validate_version (version : UInt32) : List Diagnostic :=
  report (version ≠ POLICY_VERSION)
    (error "unsupported policy version" ["expected version ", show_u32 POLICY_VERSION, ", got ", show_u32 version])

def validate_audit_settings (settings : NetworkAuditSettings) : List Diagnostic :=
  report (settings.body_buffer_bytes < settings.body_storage_bytes)
    ⟨.warning, "audit body buffer is smaller than body storage",
      [.text "body_buffer_bytes < body_storage_bytes makes the effective storage limit unreachable"]⟩

def NetworkPolicy.validate (cel : Cel) (policy : NetworkPolicy) : List Diagnostic :=
  let endpoints := validate_endpoints .empty [] policy.endpoints
  let credentials := validate_credentials cel endpoints.2 .empty policy.credentials
  let tunnels := validate_tunnels policy.tailscale
  validate_version policy.version ++ validate_audit_settings policy.settings.audit ++ endpoints.1 ++ credentials.1 ++
    tunnels.1 ++ validate_rules cel policy.rules endpoints.2 credentials.2 tunnels.2 ++
    validate_forwards policy.forwards tunnels.2 ++ validate_secret_slots policy

/-- Normalise and validate: the common end of the loaders. -/
def NetworkPolicy.accept (cel : Cel) (policy : NetworkPolicy) : Except (List Diagnostic) NetworkPolicy :=
  let policy := policy.normalize
  let diagnostics := policy.validate cel
  if NoErrors diagnostics then .ok policy else .error diagnostics

/-! ## What an accepted list of diagnostics says -/

@[simp] theorem severity_error (s : String) (t : List String) : (error s t).severity = .error := rfl

@[simp] theorem noErrors_nil : NoErrors [] := by simp [NoErrors]

@[simp] theorem noErrors_append {a b : List Diagnostic} : NoErrors (a ++ b) ↔ NoErrors a ∧ NoErrors b := by
  simp [NoErrors, or_imp, forall_and]

@[simp] theorem noErrors_cons {d : Diagnostic} {ds : List Diagnostic} :
    NoErrors (d :: ds) ↔ d.severity ≠ .error ∧ NoErrors ds := by
  simp [NoErrors]

@[simp] theorem noErrors_report {c : Prop} [Decidable c] {d : Diagnostic} :
    NoErrors (report c d) ↔ (c → d.severity ≠ .error) := by
  by_cases h : c <;> simp [report, h, NoErrors]

theorem noErrors_report_error {c : Prop} [Decidable c] {s : String} {t : List String} :
    NoErrors (report c (error s t)) ↔ ¬ c := by simp

@[simp] theorem noErrors_flatMap {α : Type} {l : List α} {f : α → List Diagnostic} :
    NoErrors (l.flatMap f) ↔ ∀ a ∈ l, NoErrors (f a) := by
  induction l with
  | nil => simp
  | cons a l ih => simp [ih]

theorem NetworkPolicy.accept_eq_ok {cel : Cel} {policy loaded : NetworkPolicy} :
    policy.accept cel = .ok loaded ↔ loaded = policy.normalize ∧ NoErrors (loaded.validate cel) := by
  unfold NetworkPolicy.accept
  by_cases h : NoErrors (policy.normalize.validate cel)
  · simp only [h, if_true, Except.ok.injEq]
    exact ⟨fun e => e ▸ ⟨rfl, h⟩, fun e => e.1.symm⟩
  · simp only [h, if_false, reduceCtorEq, false_iff]
    rintro ⟨rfl, h'⟩
    exact h h'

end Silo.Policy
