import Silo.Policy.Validate
/-!
# What an accepted policy satisfies

The validator read back: the checks of a policy without errors, one structure for each kind
of declaration. References are resolved against the policy itself, not against the tables the
validator builds on its way.
-/

namespace Silo.Policy

open Rust Lib List

theorem noErrors_validate_name {kind name : String} :
    NoErrors (validate_name kind name) ↔
      (name = "silo" → ¬ (kind = "credential" ∨ kind = "tailscale tunnel")) ∧ valid_identifier name := by
  simp [validate_name]

theorem ne_empty_of_valid_identifier {name : String} (h : valid_identifier name) : name ≠ "" := by
  unfold valid_identifier at h
  simp only [Bool.and_eq_true, decide_eq_true_eq] at h
  exact h.1

theorem not_mem_of_valid_identifier {name : String} (h : valid_identifier name) {c : Char}
    (hc : is_identifier_char c = false) : c ∉ name.toList := by
  unfold valid_identifier at h
  simp only [Bool.and_eq_true, all_eq_true] at h
  intro hmem
  rw [h.2 c hmem] at hc
  cases hc

/-! ## Endpoints -/

/-- What the later checks know about an endpoint; nothing about an unregistered kind. -/
def NetworkEndpoint.info (endpoint : NetworkEndpoint) : Option NetworkEndpointInfo :=
  (PluginRegistry.endpoint endpoint.kind).map
    (fun definition => ⟨endpoint.kind, definition.family, definition.supports_credentials⟩)

structure EndpointAccepted (endpoint : NetworkEndpoint) (definition : EndpointDefinition) : Prop where
  registered : PluginRegistry.endpoint endpoint.kind = some definition
  name : valid_identifier endpoint.name
  family : endpoint.family = definition.family.as_str
  transport : endpoint.transport = definition.transport.as_str
  tls_mode : endpoint.tls_mode = expected_tls definition
  capabilities : endpoint.capabilities = expected_capabilities definition
  schema : ∃ exact_hosts, NoErrors (validate_schema endpoint definition exact_hosts).1

theorem noErrors_validate_endpoint_descriptor {endpoint : NetworkEndpoint} {definition : EndpointDefinition} :
    NoErrors (validate_endpoint_descriptor endpoint definition) ↔
      endpoint.family = definition.family.as_str ∧ endpoint.transport = definition.transport.as_str ∧
      endpoint.tls_mode = expected_tls definition ∧ endpoint.capabilities = expected_capabilities definition := by
  simp [validate_endpoint_descriptor]

/-- The table of names seen so far, as the endpoints `done` fill it. -/
def EndpointTable (by_name : AssocMap String NetworkEndpointInfo) (done : List NetworkEndpoint) : Prop :=
  by_name.Describes NetworkEndpoint.name (fun endpoint info => endpoint.info = some info) done

/-- The endpoint loop without errors: every endpoint passed, names are unique, and the table knows them all. -/
theorem accepted_of_validate_endpoints {endpoints done : List NetworkEndpoint}
    {by_name : AssocMap String NetworkEndpointInfo} {exact_hosts : List String}
    (htable : EndpointTable by_name done) (hdone : ∀ e ∈ done, e.info.isSome)
    (hnodup : (done.map NetworkEndpoint.name).Nodup)
    (hok : NoErrors (validate_endpoints by_name exact_hosts endpoints).1) :
    EndpointTable (validate_endpoints by_name exact_hosts endpoints).2 (done ++ endpoints) ∧
      ((done ++ endpoints).map NetworkEndpoint.name).Nodup ∧
      ∀ e ∈ endpoints, ∃ definition, EndpointAccepted e definition := by
  induction endpoints generalizing done by_name exact_hosts with
  | nil => simpa [validate_endpoints] using ⟨htable, hnodup⟩
  | cons e rest ih =>
    unfold validate_endpoints at hok ⊢
    cases hdef : PluginRegistry.endpoint e.kind with
    | none => simp [hdef] at hok
    | some definition =>
      simp only [hdef, noErrors_append, noErrors_validate_name, noErrors_validate_endpoint_descriptor,
        noErrors_report_error] at hok ⊢
      obtain ⟨⟨⟨⟨⟨-, hname⟩, hfamily, htransport, htls, hcap⟩, hfresh⟩, hschema⟩, hrest⟩ := hok
      have hinfo : e.info = some ⟨e.kind, definition.family, definition.supports_credentials⟩ := by
        simp [NetworkEndpoint.info, hdef]
      -- No earlier endpoint has the name: each of them has its entry in the table.
      have hnew : ∀ b ∈ done, b.name ≠ e.name := by
        intro b hb hbe
        obtain ⟨info, hi⟩ := Option.isSome_iff_exists.1 (hdone b hb)
        have := (htable e.name info).2 ⟨b, hb, hbe, hi⟩
        simp [this] at hfresh
      have htable' : EndpointTable (by_name.insert e.name ⟨e.kind, definition.family, definition.supports_credentials⟩)
          (done ++ [e]) := .insert htable hnew (fun w => by rw [hinfo]; simp [eq_comm])
      have hdone' : ∀ b ∈ done ++ [e], b.info.isSome :=
        forall_mem_append.2 ⟨hdone, forall_mem_singleton.2 (by rw [hinfo]; rfl)⟩
      obtain ⟨ht, hn, hall⟩ := ih htable' hdone' (nodup_map_concat hnodup hnew) hrest
      rw [append_assoc, singleton_append] at ht hn
      exact ⟨ht, hn, forall_mem_cons.2 ⟨⟨definition, hdef, hname, hfamily, htransport, htls, hcap, _, hschema⟩, hall⟩⟩

/-! ## Credentials -/

structure CredentialAccepted (endpoints : List NetworkEndpoint) (credential : NetworkCredential) : Prop where
  name : valid_identifier credential.name
  kind : is_supported_credential_kind credential.kind
  endpoint : ∃ e ∈ endpoints, e.name = credential.endpoint ∧
    ∃ info, e.info = some info ∧ info.supports_credentials

def CredentialTable (by_name : AssocMap String String) (done : List NetworkCredential) : Prop :=
  by_name.Describes NetworkCredential.name (fun credential endpoint => endpoint = credential.endpoint) done

variable {cel : Cel}

theorem noErrors_validate_credential_endpoint {endpoints : AssocMap String NetworkEndpointInfo}
    {credential : NetworkCredential} (h : NoErrors (validate_credential_endpoint cel endpoints credential)) :
    ∃ info, endpoints.get? credential.endpoint = some info ∧ info.supports_credentials := by
  unfold validate_credential_endpoint at h
  cases hget : endpoints.get? credential.endpoint with
  | none => simp [hget] at h
  | some info =>
    simp only [hget, noErrors_append, noErrors_report_error, Bool.not_eq_false] at h
    exact ⟨info, rfl, h.1⟩

variable {table : AssocMap String NetworkEndpointInfo}

theorem accepted_of_validate_credentials
    {endpoints : List NetworkEndpoint} (hendpoints : EndpointTable table endpoints)
    {credentials done : List NetworkCredential} {by_name : AssocMap String String}
    (htable : CredentialTable by_name done) (hnodup : (done.map NetworkCredential.name).Nodup)
    (hok : NoErrors (validate_credentials cel table by_name credentials).1) :
    CredentialTable (validate_credentials cel table by_name credentials).2 (done ++ credentials) ∧
      ((done ++ credentials).map NetworkCredential.name).Nodup ∧
      ∀ c ∈ credentials, CredentialAccepted endpoints c := by
  induction credentials generalizing done by_name with
  | nil => simpa [validate_credentials] using ⟨htable, hnodup⟩
  | cons c rest ih =>
    unfold validate_credentials at hok ⊢
    simp only [noErrors_append, noErrors_validate_name, noErrors_report_error] at hok ⊢
    obtain ⟨⟨⟨⟨⟨-, hname⟩, hfresh⟩, hkind⟩, hendpoint⟩, hrest⟩ := hok
    have hnew : ∀ b ∈ done, b.name ≠ c.name := by
      intro b hb hbc
      have := (htable c.name b.endpoint).2 ⟨b, hb, hbc, rfl⟩
      simp [this] at hfresh
    obtain ⟨ht, hn, hall⟩ := ih (.insert htable hnew (fun w => .rfl))
      (nodup_map_concat hnodup hnew) hrest
    rw [append_assoc, singleton_append] at ht hn
    refine ⟨ht, hn, forall_mem_cons.2 ⟨?_, hall⟩⟩
    obtain ⟨info, hget, hsupports⟩ := noErrors_validate_credential_endpoint hendpoint
    obtain ⟨e, he, hen, hinfo⟩ := (hendpoints _ _).1 hget
    exact ⟨hname, by simpa using hkind, e, he, hen, info, hinfo, hsupports⟩

/-! ## Tunnels -/

theorem accepted_of_validate_tunnels {tunnels : List TailscaleTunnel} (h : NoErrors (validate_tunnels tunnels).1) :
    (validate_tunnels tunnels).2 = tunnels.map TailscaleTunnel.name ∧
      (tunnels = [] ∨ ∃ node, tunnels = [node] ∧ valid_identifier node.name ∧ node.name ≠ "silo") := by
  match tunnels, h with
  | [], _ => exact ⟨rfl, .inl rfl⟩
  | [node], h =>
    simp only [validate_tunnels, validate_tunnel_names, noErrors_append, noErrors_validate_name] at h
    obtain ⟨-, ⟨⟨hsilo, hname⟩, -⟩, -⟩ := h
    exact ⟨rfl, .inr ⟨node, rfl, hname, fun e => hsilo e (.inr trivial)⟩⟩
  | first :: second :: rest, h => simp [validate_tunnels] at h

/-! ## Rules -/

/-- A rule whose endpoints, credential and tunnel the policy declares. -/
structure RuleAccepted (policy : NetworkPolicy) (rule : NetworkRule) (family : EndpointFamily) : Prop where
  nonempty : rule.endpoints ≠ []
  endpoints : ∀ name ∈ rule.endpoints, ∃ e ∈ policy.endpoints, e.name = name ∧
    ∃ info, e.info = some info ∧ info.family = family
  condition : rule.condition.isSome → family ≠ .ip
  credential : ∀ name, rule.credential = some name → family = .http ∧
    ∃ c ∈ policy.credentials, c.name = name ∧ c.endpoint ∈ rule.endpoints
  tunnel : ∀ name, rule.tunnel = some name → rule.verdict = .allow ∧ name ∈ policy.tailscale.map TailscaleTunnel.name

variable {family : EndpointFamily}

/-- The loop over the endpoints of a rule: all are known and of the family the first one has. -/
theorem noErrors_validate_rule_endpoints {seen : Option EndpointFamily} {names : List String}
    (hne : seen = none → names ≠ []) (h : NoErrors (validate_rule_endpoints table seen names).1) :
    ∃ family, seen.getD family = family ∧ (validate_rule_endpoints table seen names).2 = (some family, names) ∧
      ∀ name ∈ names, ∃ info, table.get? name = some info ∧ info.family = family := by
  induction names generalizing seen with
  | nil =>
    obtain ⟨family, rfl⟩ := Option.ne_none_iff_exists'.1 fun hnone => hne hnone rfl
    exact ⟨family, rfl, rfl, by simp⟩
  | cons name names ih =>
    unfold validate_rule_endpoints at h ⊢
    cases hget : table.get? name with
    | none => simp [hget] at h
    | some info =>
      simp only [hget, noErrors_append, noErrors_report_error, ne_eq, not_not] at h ⊢
      obtain ⟨hfam, hrest⟩ := h
      rw [hfam] at hrest ⊢
      obtain ⟨family, hfamily, hres, hall⟩ := @ih (some info.family) nofun hrest
      obtain rfl : info.family = family := hfamily
      exact ⟨info.family, hfam, by simp [hres], forall_mem_cons.2 ⟨⟨info, hget, rfl⟩, hall⟩⟩

variable {rule : NetworkRule}

theorem noErrors_validate_rule_tunnel {tunnels : List String} :
    NoErrors (validate_rule_tunnel tunnels rule) ↔
      ∀ name, rule.tunnel = some name → rule.verdict = .allow ∧ name ∈ tunnels := by
  unfold validate_rule_tunnel
  cases rule.tunnel <;> simp [and_comm]

theorem noErrors_validate_rule_credential {credentials : AssocMap String String} {names tunnels : List String}
    (h : NoErrors (validate_rule_credential credentials (some family) names rule tunnels)) :
    (∀ name, rule.credential = some name → family = .http ∧
      ∃ endpoint ∈ names, credentials.get? name = some endpoint) ∧ NoErrors (validate_rule_tunnel tunnels rule) := by
  unfold validate_rule_credential at h
  cases hc : rule.credential with
  | none => exact ⟨by simp, by simpa [hc] using h⟩
  | some name =>
    rw [hc] at h
    cases hget : credentials.get? name with
    | none => simp [hget] at h
    | some endpoint =>
      simp only [hget, noErrors_append, noErrors_report_error, ne_eq, not_not, Option.some.injEq] at h
      obtain ⟨⟨hfam, hmem⟩, htunnel⟩ := h
      refine ⟨?_, htunnel⟩
      rintro _ ⟨⟩
      exact ⟨hfam, endpoint, hmem, hget⟩

theorem noErrors_validate_rule_condition {condition : Option String}
    (h : NoErrors (validate_rule_condition cel (some family) condition)) (hc : condition.isSome) : family ≠ .ip := by
  rintro rfl
  obtain ⟨source, rfl⟩ := Option.isSome_iff_exists.1 hc
  simp [validate_rule_condition, PluginRegistry.family] at h

theorem accepted_of_validate_rule {policy : NetworkPolicy}
    {endpoints : AssocMap String NetworkEndpointInfo} {credentials : AssocMap String String}
    (hendpoints : EndpointTable endpoints policy.endpoints) (hcredentials : CredentialTable credentials policy.credentials)
    (h : NoErrors (validate_rule cel endpoints credentials (policy.tailscale.map TailscaleTunnel.name) rule)) :
    ∃ family, RuleAccepted policy rule family := by
  unfold validate_rule at h
  by_cases hne : rule.endpoints = []
  · simp [hne] at h
  rw [if_neg hne, noErrors_append] at h
  simp only [noErrors_append] at h
  obtain ⟨-, ⟨hknown, hcondition⟩, hcredential⟩ := h
  obtain ⟨family, -, hres, hall⟩ := noErrors_validate_rule_endpoints (fun _ => hne) hknown
  rw [hres] at hcondition hcredential
  obtain ⟨hcred, htunnel⟩ := noErrors_validate_rule_credential hcredential
  refine ⟨family, hne, fun name hname => ?_, noErrors_validate_rule_condition hcondition, fun name hname => ?_,
    noErrors_validate_rule_tunnel.1 htunnel⟩
  · obtain ⟨info, hget, hfam⟩ := hall name hname
    obtain ⟨e, he, hen, hinfo⟩ := (hendpoints _ _).1 hget
    exact ⟨e, he, hen, info, hinfo, hfam⟩
  · obtain ⟨hfam, endpoint, hmem, hget⟩ := hcred name hname
    obtain ⟨c, hc, hcn, rfl⟩ := (hcredentials _ _).1 hget
    exact ⟨hfam, c, hc, hcn, hmem⟩

/-! ## The policy -/

structure Accepted (policy : NetworkPolicy) : Prop where
  version : policy.version = POLICY_VERSION
  endpoint_names : (policy.endpoints.map NetworkEndpoint.name).Nodup
  endpoints : ∀ e ∈ policy.endpoints, ∃ definition, EndpointAccepted e definition
  credential_names : (policy.credentials.map NetworkCredential.name).Nodup
  credentials : ∀ c ∈ policy.credentials, CredentialAccepted policy.endpoints c
  tailscale : policy.tailscale = [] ∨
    ∃ node, policy.tailscale = [node] ∧ valid_identifier node.name ∧ node.name ≠ "silo"
  rules : ∀ r ∈ policy.rules, ∃ family, RuleAccepted policy r family
  forwards : NoErrors (validate_forwards policy.forwards (policy.tailscale.map TailscaleTunnel.name))

theorem accepted_of_noErrors {policy : NetworkPolicy} (h : NoErrors (policy.validate cel)) : Accepted policy := by
  unfold NetworkPolicy.validate at h
  simp only [noErrors_append] at h
  obtain ⟨⟨⟨⟨⟨⟨⟨hversion, -⟩, hendpoints⟩, hcredentials⟩, htunnels⟩, hrules⟩, hforwards⟩, -⟩ := h
  obtain ⟨hnames, htailscale⟩ := accepted_of_validate_tunnels htunnels
  rw [hnames] at hrules hforwards
  obtain ⟨hetable, henames, heall⟩ := accepted_of_validate_endpoints .nil (by simp) (by simp) hendpoints
  obtain ⟨hctable, hcnames, hcall⟩ := accepted_of_validate_credentials hetable .nil (by simp) hcredentials
  refine ⟨by simpa [validate_version] using hversion, henames, heall, hcnames, hcall, htailscale, fun r hr => ?_, hforwards⟩
  exact accepted_of_validate_rule hetable hctable (noErrors_flatMap.1 hrules r hr)

end Silo.Policy
