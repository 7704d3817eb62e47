import Silo.Policy.Enforced
import Mathlib.Tactic.FinCases
/-!
# Accepted policies that netd refuses

What netd asks for beyond the checks of the validator is no more than it needs: a policy that
compiles there is `Enforceable`, and its conditions compile.
-/

namespace Silo.Policy

open Rust Lib List

/-! ## Endpoints -/

variable {endpoint : NetworkEndpoint}

theorem parsePrefixes_isSome {refuse : String → Netd.EndpointError} {cidrs : List String} {ps : List Go.IPPrefix}
    (h : Netd.parsePrefixes refuse cidrs = .ok ps) : ∀ cidr ∈ cidrs, (Go.parsePrefix cidr.toList).isSome := by
  induction cidrs generalizing ps with
  | nil => simp
  | cons cidr cidrs ih =>
    unfold Netd.parsePrefixes at h
    split at h
    · cases h
    rename_i p hp
    split at h
    · cases h
    rename_i rest hrest
    exact forall_mem_cons.2 ⟨by rw [hp]; rfl, ih hrest⟩

theorem ipEnforceable_of_compiles {e : Netd.IPEndpoint}
    (h : Netd.compileIPEndpoint (endpoint_document endpoint) = .ok e) : IpEnforceable endpoint := by
  unfold Netd.compileIPEndpoint endpoint_document at h
  simp only [normalizeProtocol_document] at h
  split at h
  · cases h
  rename_i hsome
  split at h
  · cases h
  rename_i hany
  split at h
  · cases h
  split at h
  · cases h
  rename_i sources hsources
  split at h
  · cases h
  rename_i destinations hdestinations
  refine ⟨?_, fun hports hp => hany ⟨by rw [hp]; rfl, by simpa using hports⟩, parsePrefixes_isSome hsources,
    parsePrefixes_isSome hdestinations⟩
  by_contra hnone
  obtain ⟨hs, hd⟩ := not_or.1 hnone
  exact hsome ⟨by simpa using hd, by simpa using hs⟩

theorem hostsEnforceable_of_compiles {definition : EndpointDefinition} {g : Netd.EndpointDefinition}
    (hport : g.defaultPort = definition.default_port) {e : Netd.HTTPEndpoint}
    (h : Netd.compileHTTPEndpointDecl g endpoint.name endpoint.hosts = .ok e) :
    HostsEnforceable endpoint definition := by
  obtain ⟨-, -, -, hhosts⟩ := Netd.compileHTTPEndpointDecl_ok h
  intro host hmem
  obtain ⟨b, hb, -⟩ := (Netd.compileHosts_ok hhosts).2 host hmem
  exact ⟨b, hport ▸ hb⟩

/-- Both sides compare the origin with the one declared egress. -/
theorem feedEnforceable_of_compiles {g : Netd.EndpointDefinition} {r : Netd.RegistryEndpoint}
    (hmalware : NoErrors (validate_malware_feed endpoint))
    (h : Netd.compileRegistryEndpointDecl g (endpoint_document endpoint) = .ok r) : FeedEnforceable endpoint := by
  obtain ⟨feed, host, port, hget, horigin, hegress, -⟩ := noErrors_validate_malware_feed hmalware
  simp only [Netd.compileRegistryEndpointDecl, bind_eq_ok, pure_eq_ok, require_eq_ok, orFail_eq_ok] at h
  obtain ⟨-, -, -, -, -, -, -, -, feed', hfeed', origin, horigin', -, hegress', -⟩ := h
  have hsame : feed' = feed := by
    rw [show (endpoint_document endpoint).config = map_document endpoint.config from rfl, map_document_get?, hget] at hfeed'
    exact (Option.some.inj hfeed').symm
  have hdecl : [egress_document { host, port, tls := true }] =
      [({ host := origin.1, port := origin.2, tls := true } : Netd.EgressDecl)] := by
    rw [← hegress']
    show _ = endpoint.egress.map egress_document
    rw [hegress]
    rfl
  intro other hother
  obtain rfl : feed = other := by
    rw [hget] at hother
    exact Option.some.inj hother
  rw [horigin, ← hsame, horigin']
  simp only [egress_document, List.cons.injEq, Netd.EgressDecl.mk.injEq, and_true] at hdecl
  rw [hdecl.1, hdecl.2]

/-! ## Bindings -/

theorem wildcard_of_key {transport : Netd.Transport} {b b' : Netd.Binding} (h : b.key transport = b'.key transport) :
    b.wildcard = b'.wildcard := by
  unfold Netd.Binding.key Netd.hostBindingKey at h
  have hchars := congrArg String.toList h
  simp only [String.toList_append, append_assoc, append_cancel_left_eq] at hchars
  cases hb : b.wildcard <;> cases hb' : b'.wildcard <;> simp [hb, hb'] at hchars ⊢

theorem mem_hosts_of_exact {definition : EndpointDefinition}
    (hdef : PluginRegistry.endpoint endpoint.kind = some definition) {transport : Netd.Transport} {e : Netd.HTTPEndpoint}
    (he : Netd.CompilesTo transport (endpoint_document endpoint) e) {binding : String × UInt16}
    (hb : binding ∈ exact_bindings endpoint) :
    ∃ b ∈ e.hosts, b.wildcard = false ∧ b.key transport = Netd.hostBindingKey transport binding.1 binding.2 false := by
  obtain ⟨g, hg, rfl, hcompile⟩ := he
  obtain ⟨g', hg', -, -, -, -, -, hport, -⟩ := registry_document hdef
  obtain rfl : g = g' := Option.some.inj (hg.symm.trans hg')
  obtain ⟨-, -, -, hhosts⟩ := Netd.compileHTTPEndpointDecl_ok hcompile
  unfold exact_bindings at hb
  rw [hdef] at hb
  obtain ⟨b, hbmem, rfl⟩ := mem_map.1 hb
  obtain ⟨hparsed, hw⟩ := mem_filter.1 hbmem
  obtain ⟨host, hmem, hopt⟩ := mem_filterMap.1 hparsed
  obtain ⟨b', hb', kept, hkept, hkey⟩ := (Netd.compileHosts_ok hhosts).2 host hmem
  rw [← hport, hb'] at hopt
  obtain rfl : b' = b := Option.some.inj hopt
  have hw' : b'.wildcard = false := by simpa using hw
  refine ⟨kept, hkept, (wildcard_of_key hkey).trans hw', ?_⟩
  rw [hkey, Netd.Binding.key, hw']

/-! ## Policies -/

section Compiles
variable {policy : NetworkPolicy} {cel : Netd.Cel} {p : Netd.Policy}

theorem hosts_eq_nil {definition : EndpointDefinition} (h : EndpointAccepted endpoint definition)
    (hip : endpoint.kind = "ip") : endpoint.hosts = [] := by
  obtain ⟨exact_hosts, hschema⟩ := h.schema
  have hdef := h.registered
  rw [hip] at hdef
  cases hdef
  simp only [validate_schema, validate_ip_endpoint, noErrors_append, noErrors_report_error, not_not, ne_eq] at hschema
  exact hschema.1

/-- netd gives an exact binding to one endpoint. -/
theorem bindsApart_of_compiles (hpolicy : Accepted policy)
    (h : Netd.EndpointsOf (policy.endpoints.map endpoint_document) p) : policy.endpoints.Pairwise BindsApart := by
  have hnames : policy.endpoints.Pairwise (fun e e' => e.name ≠ e'.name) := pairwise_map.1 hpolicy.endpoint_names
  refine hnames.imp_of_mem fun {e e'} he he' hne hkind binding hb hb' => hne ?_
  obtain ⟨definition, hacc⟩ := hpolicy.endpoints e he
  obtain ⟨definition', hacc'⟩ := hpolicy.endpoints e' he'
  have hcompiled : ∀ {x : NetworkEndpoint} {d : EndpointDefinition}, x ∈ policy.endpoints → EndpointAccepted x d →
      binding ∈ exact_bindings x → ∃ transport, transport ≠ .packetFilter ∧
        ∃ c, Netd.CompilesTo transport (endpoint_document x) c := by
    intro x d hx hd hmem
    rcases h.compiles _ (mem_map_of_mem hx) with ⟨hip, -⟩ | hc
    · simp [exact_bindings, hosts_eq_nil hd hip, hd.registered] at hmem
    · exact hc
  obtain ⟨transport, ht, c, hc⟩ := hcompiled he hacc hb
  obtain ⟨transport', -, c', hc'⟩ := hcompiled he' hacc' hb'
  obtain rfl : transport = transport' := by
    obtain ⟨g, hg, rfl, -⟩ := hc
    obtain ⟨g', hg', rfl, -⟩ := hc'
    rw [show (endpoint_document e').kind = e.kind from hkind.symm] at hg'
    rw [Option.some.inj (hg.symm.trans hg')]
  obtain ⟨b, hbm, hw, hkey⟩ := mem_hosts_of_exact hacc.registered hc hb
  obtain ⟨b', hbm', hw', hkey'⟩ := mem_hosts_of_exact hacc'.registered hc' hb'
  exact congrArg Netd.EndpointDecl.name (h.eq_of_binding (mem_map_of_mem he) (mem_map_of_mem he') ht hc hc' hbm hbm' hw hw'
    (hkey.trans hkey'.symm))

/-- The family of a compiled rule is that of each endpoint it names. -/
theorem family_of_named (he : Netd.EndpointsOf (policy.endpoints.map endpoint_document) p) {r : NetworkRule} {i : Nat}
    {rule : Netd.Rule} (hrule : Netd.RuleOf p (rule_document r) i rule) (hmem : endpoint ∈ policy.endpoints)
    (hname : endpoint.name ∈ r.endpoints) {g : Netd.EndpointDefinition}
    (hg : Netd.Registry.endpoint endpoint.kind = some g) : g.family = rule.family := by
  have hd : endpoint_document endpoint ∈ policy.endpoints.map endpoint_document := mem_map_of_mem hmem
  obtain ⟨ref, href, hget⟩ := forall₂_exists_right hrule.endpoints endpoint.name hname
  obtain ⟨definition, hdefinition, hfamily⟩ := hrule.family ref href
  obtain rfl : ref = (endpoint_document endpoint).ref :=
    Option.some.inj (hget.symm.trans ((he.refs _ _).2 ⟨_, hd, rfl, rfl⟩))
  obtain rfl : definition = g :=
    Option.some.inj (hdefinition.symm.trans ((he.definitions _ _).2 ⟨_, hd, rfl, hg⟩))
  exact hfamily

theorem exists_compiled_rule {rules : List NetworkRule} {compiled : List Netd.Rule}
    (h : Netd.RulesOf cel p (rules.map rule_document).zipIdx compiled) {r : NetworkRule} (hr : r ∈ rules) :
    ∃ i rule, Netd.compileRule cel p (rule_document r) i = .ok rule := by
  obtain ⟨i, hi⟩ := mem_iff_getElem?.1 (mem_map_of_mem (f := rule_document) hr)
  obtain ⟨rule, -, hrule⟩ := forall₂_exists_right h _ (mk_mem_zipIdx_iff_getElem?.2 hi)
  exact ⟨i, rule, hrule⟩

theorem conditionsCompile_of_compiles {document : Netd.NetworkPolicyFile}
    (hendpoints : document.endpoints = policy.endpoints.map endpoint_document)
    (hrules : document.rules = policy.rules.map rule_document) (h : Netd.Compiled cel document p) :
    policy.ConditionsCompile cel := by
  obtain ⟨rules, hcompiled, -⟩ := h.rules
  rw [hrules] at hcompiled
  intro r hr source hsource e he hname g hg
  obtain ⟨i, rule, hrule⟩ := exists_compiled_rule hcompiled hr
  have hcondition := Netd.compileRule_condition hrule
  rw [← family_of_named (hendpoints ▸ h.endpoints) (Netd.compileRule_ok hrule).1 he hname hg] at hcondition
  rw [show (rule_document r).condition = source by simp [rule_document, hsource]] at hcondition
  exact ⟨_, hcondition⟩

/-- A tunnel the validator accepts is named, and netd then asks for a rule over IP endpoints. -/
theorem tunnels_of_compiles (hpolicy : Accepted policy) {document : Netd.NetworkPolicyFile}
    (hendpoints : document.endpoints = policy.endpoints.map endpoint_document)
    (hrules : document.rules = policy.rules.map rule_document) (h : Netd.Compiled cel document p) :
    ∀ r ∈ policy.rules, r.tunnel ≠ none → ∀ e ∈ policy.endpoints, e.name ∈ r.endpoints → e.kind = "ip" := by
  obtain ⟨rules, hcompiled, -⟩ := h.rules
  rw [hrules] at hcompiled
  intro r hr htunnel e he hname
  obtain ⟨tunnel, ht⟩ := Option.ne_none_iff_exists'.1 htunnel
  obtain ⟨family, hacc⟩ := hpolicy.rules r hr
  obtain ⟨-, hmem⟩ := hacc.tunnel tunnel ht
  have hne : (rule_document r).tunnel ≠ "" := by
    rcases hpolicy.tailscale with hnil | ⟨node, hnode, hid, -⟩
    · simp [hnil] at hmem
    · obtain rfl : tunnel = node.name := by simpa [hnode] using hmem
      simpa [rule_document, ht] using ne_empty_of_valid_identifier hid
  obtain ⟨i, rule, hrule⟩ := exists_compiled_rule hcompiled hr
  have hof := (Netd.compileRule_ok hrule).1
  obtain ⟨g, hg⟩ := h.endpoints.registered (endpoint_document e) (hendpoints ▸ mem_map_of_mem he)
  have hfamily := family_of_named (hendpoints ▸ h.endpoints) hof he hname hg
  rw [Netd.resolveTunnel_family hof.tunnel hne] at hfamily
  have hkinds := (Netd.Registry.endpoint_cases hg).2
  rcases hkinds with ⟨hk, -⟩ | ⟨-, hf, -⟩ | ⟨-, hf, -⟩ | ⟨-, hf, -⟩
  · exact hk
  · cases hf.symm.trans hfamily
  · cases hf.symm.trans hfamily
  · cases hf.symm.trans hfamily

theorem forwards_of_compiles (hpolicy : Accepted policy) {node : Option Netd.TailscaleDecl}
    (hnode : Netd.compileTailscale (policy.tailscale.map tailscale_document) = .ok node) {forwards : List Netd.Forward}
    (hforwards : Netd.compileForwards node (policy.forwards.map forward_document) = .ok forwards) :
    ∀ f ∈ policy.forwards, f.ToSelf ∧ policy.tailscale ≠ [] := by
  intro f hf
  obtain ⟨hkind, htarget, hsome⟩ := Netd.compileForwards_ok hforwards _ (mem_map_of_mem hf)
  refine ⟨⟨hkind, htarget⟩, fun hnil => hsome ?_⟩
  rw [Except.ok.inj (hnode.symm.trans (compileTailscale_document hpolicy)), hnil]
  rfl

theorem feed_of_ready {definition : EndpointDefinition} (hacc : EndpointAccepted endpoint definition)
    {g : Netd.EndpointDefinition} (hg : Netd.EndpointReady (endpoint_document endpoint) g)
    (hkind : endpoint.kind = "registries") : FeedEnforceable endpoint := by
  obtain ⟨g', hg', -, -, -, -, -, -, -, -, hregistries⟩ := registry_document hacc.registered
  obtain rfl : g = g' := Option.some.inj (hg.registered.symm.trans hg')
  have hschema : definition.schema = .registries := by
    have hreg := hacc.registered
    rw [hkind] at hreg
    cases hreg
    rfl
  obtain ⟨exact_hosts, hvalid⟩ := hacc.schema
  unfold validate_schema at hvalid
  rw [hschema] at hvalid
  obtain ⟨c, hc⟩ := hg.registries (hregistries.2 hschema)
  exact feedEnforceable_of_compiles (noErrors_validate_registry_endpoint hvalid).2.1 hc

/-- An accepted policy that netd compiles is one that netd implements. -/
theorem Accepted.enforceable (hpolicy : Accepted policy) {filename : String} (h : policy.CompilesInNetd cel filename) :
    policy.ConditionsCompile cel ∧ Enforceable cel policy := by
  obtain ⟨document, p, hdocument, hok⟩ := h
  obtain ⟨haudit, hfile⟩ := document_eq_some hdocument
  obtain ⟨hready, node, forwards, hnode, hforwards⟩ := Netd.checks_of_ok hok
  have hcompiled := Netd.compiled_of_ok hok
  obtain ⟨audit, rfl⟩ := hfile
  have hendpoint : ∀ e ∈ policy.endpoints, ∃ g, Netd.EndpointReady (endpoint_document e) g :=
    fun e he => hready _ (mem_map_of_mem he)
  refine ⟨conditionsCompile_of_compiles rfl rfl hcompiled, forwards_of_compiles hpolicy hnode hforwards, ?_, ?_,
    bindsApart_of_compiles hpolicy hcompiled.endpoints, ?_, tunnels_of_compiles hpolicy rfl rfl hcompiled, ?_, haudit⟩
  · intro e he hkind
    obtain ⟨g, hg⟩ := hendpoint e he
    have hschema : g.schema = .ip := by
      have hreg := hg.registered
      rw [show (endpoint_document e).kind = "ip" from hkind] at hreg
      cases hreg
      rfl
    obtain ⟨c, hc⟩ := hg.ip hschema
    exact ipEnforceable_of_compiles hc
  · intro e he definition hdef hschema
    obtain ⟨g, hg⟩ := hendpoint e he
    obtain ⟨g', hg', -, -, -, -, -, hport, -, hhosts, -⟩ := registry_document hdef
    obtain rfl : g = g' := Option.some.inj (hg.registered.symm.trans hg')
    obtain ⟨c, hc⟩ := hg.hosts (hhosts.2 hschema)
    exact hostsEnforceable_of_compiles hport hc
  · intro e he hkind
    obtain ⟨definition, hacc⟩ := hpolicy.endpoints e he
    obtain ⟨g, hg⟩ := hendpoint e he
    exact feed_of_ready hacc hg hkind
  · intro c hc source hsource
    obtain ⟨compiled, -, hof⟩ := forall₂_exists_right hcompiled.credentials.compiled _ (mem_map_of_mem hc)
    have := hof.condition
    rw [show (credential_document c).condition = source by simp [credential_document, hsource]] at this
    exact ⟨_, this⟩

end Compiles

/-- A policy the loader accepts compiles in netd exactly when its conditions do and it keeps to what netd implements. -/
theorem compiles_iff_enforceable (serde : SerdeJson) (cel : Cel) (netd_cel : Netd.Cel) (filename : String)
    (source : Source) (policy : NetworkPolicy) (hload : source.load serde cel = .ok policy) :
    policy.CompilesInNetd netd_cel filename ↔ policy.ConditionsCompile netd_cel ∧ Enforceable netd_cel policy := by
  obtain ⟨_, -, haccept⟩ := Source.load_eq_ok.1 hload
  have hpolicy := accepted_of_noErrors (NetworkPolicy.accept_eq_ok.1 haccept).2
  constructor
  · exact hpolicy.enforceable
  · rintro ⟨hconditions, h⟩
    exact hpolicy.compiles filename hconditions h

/-- A policy with an endpoint of either address kind, a credential, a tunnelled rule and a forward. -/
def tailnet_policy : HclPolicy where
  policy_hash := ""
  documents := [{
    endpoints := [
      { kind := "ip", name := "lan", family := .ip, transport := .packet_filter, default_port := 0,
        terminates_tls := false, supports_credentials := false, destination := ["10.0.0.0/8"], protocol := "tcp",
        ports := [⟨443, 443⟩] },
      { kind := "https", name := "api", family := .http, transport := .https_mitm, default_port := 443,
        terminates_tls := true, supports_credentials := true, hosts := ["api.example.com", "*.example.org"] }]
    credentials := [{ kind := "bearer_token", name := "token", endpoint := ⟨"https", "api"⟩ }]
    rules := [
      { name := "call", endpoints := [⟨"https", "api"⟩], credential := some ⟨"bearer_token", "token"⟩, verdict := .allow,
        priority := 0, disabled := false, reason := "" },
      { name := "", endpoints := [⟨"ip", "lan"⟩], tunnel := some ⟨"tailscale", "node"⟩, verdict := .allow, priority := 10,
        disabled := false, reason := "" }]
    tailscale := [{ name := "node" }]
    forwards := [{ kind := "tailscale", name := "web", listen := ":80", target := "self", target_port := 8080 }] }]

/-- Nothing printed, nothing parsed: enough for policies that do not come from a JSON text. -/
def no_json : SerdeJson := ⟨fun _ => "", fun _ => none, id⟩

theorem tailnet_policy_enforceable (cel : Netd.Cel) : Enforceable cel tailnet_policy.lower.normalize where
  forwards := by decide
  ip := by
    intro e he hkind
    fin_cases he
    · exact ⟨by decide, by decide, by decide, by decide⟩
    · exact absurd hkind (by decide)
  hosts := by
    intro e he definition hdef hschema
    fin_cases he
    · cases hdef
      cases hschema
    · cases hdef
      intro host hhost
      fin_cases hhost
      · exact exists_ok_of_isOk (by decide +kernel)
      · exact exists_ok_of_isOk (by decide +kernel)
  apart := by
    refine .cons ?_ (pairwise_singleton _ _)
    intro e he hkind
    obtain rfl := mem_singleton.1 he
    exact absurd hkind (by decide)
  feeds := by
    intro e he hkind
    fin_cases he <;> exact absurd hkind (by decide)
  tunnels := by
    intro r hr htunnel e he hname
    fin_cases hr
    · exact absurd rfl htunnel
    · fin_cases he
      · rfl
      · exact absurd hname (by decide)
  credentials := by
    intro c hc source hsource
    obtain rfl := mem_singleton.1 hc
    cases hsource
  audit := by decide

theorem tailnet_policy_compiles :
    tailnet_policy.lower.normalize.CompilesInNetd ⟨fun _ _ => false⟩ "policy.json" := by
  refine (compiles_iff_enforceable no_json no_cel _ _ (.hcl tailnet_policy) _
    (Source.load_eq_ok.2 ⟨_, rfl, NetworkPolicy.accept_eq_ok.2 ⟨rfl, by decide⟩⟩)).2 ⟨?_, tailnet_policy_enforceable _⟩
  intro rule hrule source hsource
  fin_cases hrule <;> cases hsource

def prefix_policy : HclPolicy where
  policy_hash := ""
  documents := [{ endpoints := [
    { kind := "ip", name := "lan", family := .ip, transport := .packet_filter, default_port := 0,
      terminates_tls := false, supports_credentials := false, destination := ["10.0.0.0/99"], protocol := "any" }] }]

/-- The validator takes a network for any text, which netd does not. -/
theorem prefix_refused :
    ¬ ∀ (serde : SerdeJson) (cel : Cel) (netd_cel : Netd.Cel) (filename : String) (source : Source)
      (policy : NetworkPolicy), source.load serde cel = .ok policy → policy.ConditionsCompile netd_cel →
        policy.CompilesInNetd netd_cel filename := by
  intro h
  obtain ⟨document, compiled, hdocument, hcompiled⟩ := h no_json no_cel ⟨fun _ _ => false⟩ "policy.json"
    (.hcl prefix_policy) prefix_policy.lower.normalize
    (Source.load_eq_ok.2 ⟨_, rfl, NetworkPolicy.accept_eq_ok.2 ⟨rfl, by decide⟩⟩)
    (fun rule hrule => absurd hrule (by simp [prefix_policy, HclPolicy.lower, lower_document, NetworkPolicy.normalize]))
  obtain rfl := Option.some.inj ((document_eq_file (if_pos (by decide)) (if_pos (by decide))).symm.trans hdocument)
  have herror : (Netd.compileNetworkPolicy ⟨fun _ _ => false⟩ "policy.json"
      (prefix_policy.lower.normalize.file ⟨1048576, 4096⟩)).isOk = false := by decide +kernel
  have := congrArg Except.isOk hcompiled
  exact absurd (herror.symm.trans this) (by simp [Except.isOk, Except.toBool])

end Silo.Policy
