import Silo.Netd.Rerouted
import Silo.Policy.Enforced
import Silo.Taild.Identity
/-!
# Attaching a managed node

`InjectTailnet` adds the managed tailscale node to a remote policy: the IP allow rules
get its tunnel, and two rules of the lowest priority route the ranges of the tailnet. The
manager normalises what goes in and what comes out.
-/

namespace Silo.Taild

open Go Lib Silo.Policy List

/-- The manager and the defaults of the tailscale client. `sourceHash` is the hash of the text of a document. -/
structure Manager where
  cel : Cel
  sourceHash : PolicyDocument → String
  defaultControlURL : String

/-- `NormalizePolicy` on the HCL text of a document. -/
def Manager.normalizeHcl (m : Manager) (document : PolicyDocument) : Except PolicyLoadError NetworkPolicy :=
  from_hcl_policy m.cel ⟨m.sourceHash document, [document]⟩

/-- `NormalizePolicy` on the canonical JSON of a policy. -/
def Manager.normalizeCanonical (m : Manager) (policy : NetworkPolicy) : Except PolicyLoadError NetworkPolicy :=
  (policy.accept m.cel).mapError .diagnostics

inductive InjectError where
  | refused (e : Failure)
  | manager (e : PolicyLoadError)

def usageDocument : Failure := failure "usage" "invalid remote document field type" 2

/-! ## Remote policies -/

def remotePolicy (p : NetworkPolicy) : Except Failure Unit :=
  if p.metadata.members.any (fun member => hasPrefix member.1.toList "io.silo.taild.".toList) then
    .error (failure "usage" "remote policies cannot declare reserved taild metadata" 2)
  else if p.tailscale ≠ [] then .error (failure "usage" "remote policies cannot declare tailscale nodes" 2)
  else if p.forwards.any (fun f => f.kind ≠ "tailscale" ∨ f.target ≠ "self" ∨ f.tunnel ≠ none) then
    .error (failure "usage" "remote policy forwards require tailscale, target self, and no explicit tunnel" 2)
  else if p.rules.any (fun r => r.tunnel ≠ none) then
    .error (failure "usage" "remote policies cannot reference tunnels" 2)
  else .ok ()

/-! ## The addition -/

def tailnetEndpointDecl (name cidr : String) : EndpointDecl where
  kind := "ip"
  name := name
  family := .ip
  transport := .packet_filter
  default_port := 0
  terminates_tls := false
  supports_credentials := false
  destination := [cidr]
  protocol := "tcp"

def tailnetRuleDecl (name : String) : RuleDecl where
  name := name
  endpoints := [⟨"ip", name⟩]
  tunnel := some ⟨"tailscale", "vm"⟩
  verdict := .allow
  priority := -2147483648
  disabled := false
  reason := ""

/-- The declarations of the HCL text that is added. -/
def addition (hostname : String) (tags : List String) (controlURL : String) : PolicyDocument where
  tailscale := [{ name := "vm", hostname := hostname, tags := tags, control_url := controlURL }]
  endpoints := [tailnetEndpointDecl "silo-tailnet-v4" "100.64.0.0/10",
    tailnetEndpointDecl "silo-tailnet-v6" "fd7a:115c:a1e0::/48"]
  rules := [tailnetRuleDecl "silo-tailnet-v4", tailnetRuleDecl "silo-tailnet-v6"]

/-- The map `ip`: a later endpoint of the same name replaces an earlier one. -/
def ipEndpoint (endpoints : List NetworkEndpoint) (name : String) : Bool :=
  (endpoints.reverse.find? (·.name = name)).any (·.family = "ip")

/-- An IP allow rule gets the tunnel of the managed node. -/
def routeRule (endpoints : List NetworkEndpoint) (rule : NetworkRule) : NetworkRule :=
  if rule.verdict = .allow ∧ rule.endpoints.head?.any (ipEndpoint endpoints) then { rule with tunnel := some "vm" }
  else rule

/-- The names the policy uses for endpoints and rules; a rule without a name counts as `""`. -/
def usedNames (p : NetworkPolicy) : List String := p.endpoints.map (·.name) ++ p.rules.map fun r => r.name.getD ""

/-- The policy that is handed to the manager at the end. -/
def merged (p injected : NetworkPolicy) : NetworkPolicy :=
  { p with
    forwards := p.forwards.map fun forward => { forward with tunnel := some "vm" }
    endpoints := p.endpoints ++ injected.endpoints
    rules := p.rules.map (routeRule p.endpoints) ++ injected.rules
    tailscale := injected.tailscale }

def requestedTagsOr (owner : Principal) (requestedTags : List String) : List String :=
  if requestedTags ≠ [] then requestedTags else if owner.isTag then [String.ofList owner] else []

def Manager.givenPolicy (m : Manager) (p : Option NetworkPolicy) : Except InjectError NetworkPolicy :=
  match p with
  | some p => .ok p
  | none => (m.normalizeHcl {}).mapError .manager

def Manager.injectTailnet (m : Manager) (p : Option NetworkPolicy) (hostname : String) (owner : Principal)
    (controlURL : String) (requestedTags : List String) : Except InjectError NetworkPolicy := do
  require ((parsePrincipal owner).isSome) (.refused usageDocument)
  let p ← m.givenPolicy p
  (remotePolicy p).mapError .refused
  require ("silo-tailnet-v4" ∉ usedNames p)
    (.refused (failure "usage" "policy uses reserved injection name silo-tailnet-v4" 2))
  require ("silo-tailnet-v6" ∉ usedNames p)
    (.refused (failure "usage" "policy uses reserved injection name silo-tailnet-v6" 2))
  let injected ← (m.normalizeHcl (addition hostname (requestedTagsOr owner requestedTags)
    (if controlURL = "" then m.defaultControlURL else controlURL))).mapError .manager
  (m.normalizeCanonical (merged p injected)).mapError .manager

/-! ## What the injection does -/

variable {p : NetworkPolicy} {m : Manager} {hostname controlURL : String} {document : Netd.NetworkPolicyFile}

theorem remotePolicy_ok {u : Unit} (h : remotePolicy p = .ok u) :
    p.tailscale = [] ∧ ∀ r ∈ p.rules, r.tunnel = none := by
  unfold remotePolicy at h
  split at h
  · cases h
  split at h
  · cases h
  rename_i htailscale
  split at h
  · cases h
  split at h
  · cases h
  rename_i htunnel
  refine ⟨not_not.1 htailscale, fun r hr => ?_⟩
  by_contra hne
  exact htunnel (any_eq_true.2 ⟨r, hr, decide_eq_true hne⟩)

/-- The node, the endpoints and the rules of the addition, as the manager returns them. -/
theorem normalizeHcl_addition {tags : List String} {injected : NetworkPolicy}
    (h : m.normalizeHcl (addition hostname tags controlURL) = .ok injected) :
    injected.endpoints.map endpoint_document = Netd.tailnetEndpoints ∧
      injected.endpoints.map NetworkEndpoint.normalize = injected.endpoints ∧
      injected.rules.map rule_document = Netd.tailnetRules := by
  rw [Manager.normalizeHcl, from_hcl_policy, mapError_eq_ok, NetworkPolicy.accept_eq_ok] at h
  obtain ⟨rfl, -⟩ := h
  exact ⟨rfl, rfl, rfl⟩

theorem injectTailnet_ok {p' : NetworkPolicy} {owner : Principal} {requestedTags : List String}
    (h : m.injectTailnet (some p) hostname owner controlURL requestedTags = .ok p') :
    (∀ r ∈ p.rules, r.tunnel = none) ∧ (∀ name ∈ ["silo-tailnet-v4", "silo-tailnet-v6"], name ∉ usedNames p) ∧
      ∃ injected, injected.endpoints.map endpoint_document = Netd.tailnetEndpoints ∧
        injected.endpoints.map NetworkEndpoint.normalize = injected.endpoints ∧
        injected.rules.map rule_document = Netd.tailnetRules ∧ p' = (merged p injected).normalize ∧ Accepted p' := by
  simp only [Manager.injectTailnet, Manager.givenPolicy, Manager.normalizeCanonical, bind_eq_ok, require_eq_ok,
    mapError_eq_ok, Except.ok.injEq, exists_eq_left', NetworkPolicy.accept_eq_ok] at h
  obtain ⟨-, -, _, hremote, -, hv4, -, hv6, injected, hinjected, rfl, hvalid⟩ := h
  obtain ⟨hendpoints, hnormal, hrules⟩ := normalizeHcl_addition hinjected
  exact ⟨(remotePolicy_ok hremote).2, by simp [hv4, hv6], injected, hendpoints, hnormal, hrules, rfl,
    accepted_of_noErrors hvalid⟩

theorem ipEndpoint_iff {endpoints : List NetworkEndpoint} (h : (endpoints.map NetworkEndpoint.name).Nodup) (name : String) :
    ipEndpoint endpoints name ↔ ∃ e ∈ endpoints, e.name = name ∧ e.family = "ip" := by
  have hreverse : (endpoints.reverse.map NetworkEndpoint.name).Nodup := by
    rwa [map_reverse, nodup_reverse]
  simp only [ipEndpoint, Option.any_eq_true, decide_eq_true_eq, find?_key_eq_some hreverse, mem_reverse, and_assoc]

theorem document_some (h : p.document = some document) :
    document.endpoints = p.endpoints.map endpoint_document ∧ document.rules = p.rules.map rule_document ∧
      document.settings.defaultAction = action_document p.settings.default_action := by
  simp only [NetworkPolicy.document, Option.bind_eq_bind, Option.bind_eq_some_iff, Option.pure_def, Option.some.injEq] at h
  obtain ⟨_, -, _, -, rfl⟩ := h
  exact ⟨rfl, rfl, rfl⟩

theorem routedRule (hnodup : (p.endpoints.map NetworkEndpoint.name).Nodup)
    (hendpoints : document.endpoints = p.endpoints.map endpoint_document) (r : NetworkRule) :
    Netd.RoutedRule document (rule_document r) (rule_document (routeRule p.endpoints r)) := by
  have hiff : Netd.AllowsIP document (rule_document r) ↔
      r.verdict = .allow ∧ r.endpoints.head?.any (ipEndpoint p.endpoints) := by
    have hverdict : (rule_document r).verdict = "allow" ↔ r.verdict = .allow := by
      show action_document r.verdict = "allow" ↔ _
      cases r.verdict <;> decide
    rw [Netd.AllowsIP, hverdict, hendpoints]
    simp only [Option.any_eq_true, ipEndpoint_iff hnodup, mem_map, exists_exists_and_eq_and]
    rfl
  unfold routeRule
  split
  · exact .inl ⟨hiff.2 ‹_›, rfl⟩
  · exact .inr ⟨fun h => ‹¬ _› (hiff.1 h), rfl⟩

/-- The injected policy is the given one with the managed node, when the manager keeps the endpoints as they are. -/
theorem injectTailnet_rerouted {p' : NetworkPolicy} {owner : Principal} {requestedTags : List String}
    {document' : Netd.NetworkPolicyFile}
    (h : m.injectTailnet (some p) hostname owner controlURL requestedTags = .ok p')
    (hkept : p.normalize.endpoints = p.endpoints) (hdocument : p.document = some document)
    (hdocument' : p'.document = some document') : Netd.Rerouted document document' := by
  obtain ⟨huntunnelled, hnames, injected, hinjected, hnormal, hadded, rfl, haccepted⟩ := injectTailnet_ok h
  obtain ⟨hendpoints, hrules, hdefault⟩ := document_some hdocument
  obtain ⟨hendpoints', hrules', hdefault'⟩ := document_some hdocument'
  have hall : (merged p injected).normalize.endpoints = p.endpoints ++ injected.endpoints := by
    show (p.endpoints ++ injected.endpoints).map NetworkEndpoint.normalize = _
    rw [map_append, hnormal]
    exact congrArg (· ++ injected.endpoints) hkept
  have hmem : ∀ e ∈ p.endpoints, e ∈ (merged p injected).normalize.endpoints := by
    intro e he
    rw [hall]
    exact mem_append_left _ he
  have hnodup : (p.endpoints.map NetworkEndpoint.name).Nodup := by
    have := haccepted.endpoint_names
    rw [hall, map_append] at this
    exact this.of_append_left
  refine ⟨?_, ⟨p.rules.map fun r => rule_document (routeRule p.endpoints r), ?_, ?_⟩, ?_, ?_, ?_, ?_, ?_⟩
  · rw [hendpoints', hall, map_append, hinjected, hendpoints]
  · rw [hrules, forall₂_map_left_iff, forall₂_map_right_iff]
    exact forall₂_same.2 fun r _ => routedRule hnodup hendpoints r
  · rw [hrules']
    show (p.rules.map (routeRule p.endpoints) ++ injected.rules).map rule_document = _
    rw [map_append, hadded, map_map]
    rfl
  · rw [hdefault, hdefault']
    rfl
  · intro d hd e he hname
    rw [hendpoints] at hd
    obtain ⟨endpoint, hendpoint, rfl⟩ := mem_map.1 hd
    have hreserved : e.name ∈ ["silo-tailnet-v4", "silo-tailnet-v6"] := mem_map_of_mem (f := Netd.EndpointDecl.name) he
    exact hnames e.name hreserved (mem_append_left _ (mem_map.2 ⟨endpoint, hendpoint, hname⟩))
  · rintro d hd ⟨definition, hdefinition, hfamily⟩
    rw [hendpoints] at hd
    obtain ⟨endpoint, hendpoint, rfl⟩ := mem_map.1 hd
    obtain ⟨accepted, hacc⟩ := haccepted.endpoints endpoint (hmem endpoint hendpoint)
    obtain ⟨g, hg, -, hstring, -⟩ := registry_document hacc.registered
    cases hg.symm.trans hdefinition
    show endpoint.family = "ip"
    rw [hacc.family, ← hstring, hfamily]
    rfl
  · intro r hr
    rw [hrules] at hr
    obtain ⟨rule, hrule, rfl⟩ := mem_map.1 hr
    show rule.tunnel.getD "" = ""
    rw [huntunnelled rule hrule]
    rfl
  · intro r hr
    rw [hrules] at hr
    obtain ⟨rule, -, rfl⟩ := mem_map.1 hr
    exact Int32.le_toInt rule.priority

/-- Attaching a managed node: ordinary flows are decided as before exactly when no allow rule let them through against
the default or a deny rule, and TCP flows to the tailnet are denied by the first authored match or tunnelled exactly
when a rule matches them or they go to the ranges of the tailnet. -/
theorem injected_traffic_iff (m : Manager) (netd_cel : Netd.Cel) (filename : String) (p p' : NetworkPolicy)
    (hostname : String) (owner : Principal) (controlURL : String) (requestedTags : List String)
    (document document' : Netd.NetworkPolicyFile) (policy policy' : Netd.Policy) (flow : Netd.Flow)
    (hinject : m.injectTailnet (some p) hostname owner controlURL requestedTags = .ok p')
    (hkept : p.normalize.endpoints = p.endpoints)
    (hdocument : p.document = some document) (hdocument' : p'.document = some document')
    (hpolicy : Netd.compileNetworkPolicy netd_cel filename document = .ok policy)
    (hpolicy' : Netd.compileNetworkPolicy netd_cel filename document' = .ok policy') :
    ((flow.tailnetDestination = false → Netd.OrdinaryKept policy policy' flow) ∧
      (flow.tailnetDestination = true → toLower flow.protocol.toList = "tcp".toList →
        Netd.TailnetRouted document policy' flow)) ↔
    ((flow.tailnetDestination = false → ¬ Netd.AllowedByRule document flow) ∧
      (flow.tailnetDestination = true → toLower flow.protocol.toList = "tcp".toList →
        Netd.TailnetCovered document flow)) := by
  have hrerouted := injectTailnet_rerouted hinject hkept hdocument hdocument'
  have hc := Netd.compiled_of_ok hpolicy
  have hc' := Netd.compiled_of_ok hpolicy'
  refine and_congr (forall_congr' fun hordinary => ?_) (forall_congr' fun htailnet => forall_congr' fun htcp => ?_)
  · exact hrerouted.ordinaryKept_iff hc hc' hordinary
  · exact hrerouted.tailnetRouted_iff hc hc' htailnet htcp

/-! ## A network that only allows the LAN -/

/-- Everything is denied except the local network. -/
def lanPolicy : NetworkPolicy where
  version := 1
  settings := { default_action := .deny }
  endpoints := [{ name := "lan", kind := "ip", family := "ip", transport := "packet-filter", tls_mode := "none",
                  destination_cidrs := ["10.0.0.0/8"] }]
  rules := [{ name := some "lan", endpoints := ["lan"] }]

def sampleManager : Manager := ⟨no_cel, fun _ => "", "control"⟩

def sampleAddition : NetworkPolicy :=
  (HclPolicy.lower ⟨"", [addition "dev" [] "control"]⟩).normalize

def routedLanPolicy : NetworkPolicy := (merged lanPolicy sampleAddition).normalize

theorem lanPolicy_injected :
    sampleManager.injectTailnet (some lanPolicy) "dev" "user:1".toList "" [] = .ok routedLanPolicy := by
  have hadded : sampleManager.normalizeHcl (addition "dev" (requestedTagsOr "user:1".toList [])
      (if "" = "" then sampleManager.defaultControlURL else "")) = .ok sampleAddition := by
    rw [Manager.normalizeHcl, from_hcl_policy, mapError_eq_ok, NetworkPolicy.accept_eq_ok]
    exact ⟨rfl, by decide⟩
  simp only [Manager.injectTailnet, Manager.givenPolicy, Manager.normalizeCanonical, bind_eq_ok, require_eq_ok,
    mapError_eq_ok, Except.ok.injEq, exists_eq_left', NetworkPolicy.accept_eq_ok]
  exact ⟨(), by decide, (), rfl, (), by decide, (), by decide, sampleAddition, hadded, rfl, by decide⟩

def lanDocument : Netd.NetworkPolicyFile := lanPolicy.file ⟨1048576, 4096⟩

def routedLanDocument : Netd.NetworkPolicyFile := routedLanPolicy.file ⟨1048576, 4096⟩

theorem exists_compiled (document : Netd.NetworkPolicyFile) (flow : Netd.Flow) (action : Netd.Action)
    (h : (Netd.compileNetworkPolicy ⟨fun _ _ => false⟩ "policy.json" document).toOption.map
      (fun policy => (Netd.Policy.evaluateFlow (some policy) flow).action) = some action) :
    ∃ policy, Netd.compileNetworkPolicy ⟨fun _ _ => false⟩ "policy.json" document = .ok policy ∧
      (Netd.Policy.evaluateFlow (some policy) flow).action = action := exists_ok_of_map h

/-- A connection inside the local network. -/
def lanFlow : Netd.Flow := { protocol := "tcp", destIP := [10, 0, 0, 1], destPort := 443 }

def peerFlow : Netd.Flow := { tailnetDestination := true, protocol := "tcp", destIP := [100, 64, 0, 1], destPort := 22 }

def internetFlow : Netd.Flow := { protocol := "tcp", destIP := [9, 9, 9, 9], destPort := 443 }

theorem internetFlow_unmatched : ¬ Netd.AllowedByRule lanDocument internetFlow := by
  rintro ⟨⟨i, r, hfirst, -⟩, -⟩
  have hr := hfirst.mem
  obtain rfl := mem_singleton.1 hr
  obtain ⟨name, -, d, hd, -, hmatch⟩ := hfirst.applies.endpoint
  obtain rfl := mem_singleton.1 hd
  rcases hmatch.destination with hnil | ⟨addr, haddr, cidr, hcidr, q, hq, hin⟩
  · cases hnil
  · obtain rfl : Addr.v4 0x09090909#32 = addr := Option.some.inj haddr
    obtain rfl := mem_singleton.1 hcidr
    have hprefix : (parsePrefix "10.0.0.0/8".toList).map (·.contains (.v4 0x09090909#32)) = some false := by decide
    rw [hq] at hprefix
    exact absurd (hin.symm.trans (Option.some.inj hprefix)) (by decide)

/-- The policy with the node tunnels to a peer and leaves the rest of the internet as it was. -/
theorem lanPolicy_traffic :
    ∃ policy policy', Netd.compileNetworkPolicy ⟨fun _ _ => false⟩ "policy.json" lanDocument = .ok policy ∧
      Netd.compileNetworkPolicy ⟨fun _ _ => false⟩ "policy.json" routedLanDocument = .ok policy' ∧
      Netd.TailnetRouted lanDocument policy' peerFlow ∧ Netd.OrdinaryKept policy policy' internetFlow := by
  obtain ⟨policy, hpolicy, -⟩ := exists_compiled lanDocument lanFlow .allow (by decide +kernel)
  obtain ⟨policy', hpolicy', -⟩ := exists_compiled routedLanDocument lanFlow .deny (by decide +kernel)
  refine ⟨policy, policy', hpolicy, hpolicy', ?_, ?_⟩
  · refine ((injected_traffic_iff sampleManager _ _ lanPolicy routedLanPolicy _ _ _ _ _ _ policy policy' peerFlow
      lanPolicy_injected rfl rfl rfl hpolicy hpolicy').2 ⟨fun h => absurd h (by decide), fun _ _ => .inr ?_⟩).2 rfl (by decide)
    exact ⟨.v4 0x64400001#32, by decide, by decide⟩
  · exact ((injected_traffic_iff sampleManager _ _ lanPolicy routedLanPolicy _ _ _ _ _ _ policy policy' internetFlow
      lanPolicy_injected rfl rfl rfl hpolicy hpolicy').2 ⟨fun _ => internetFlow_unmatched, fun h => absurd h (by decide)⟩).1 rfl

/-- With the node attached, the one rule no longer lets the local network through. -/
theorem lan_flow_lost :
    ∃ policy policy', sampleManager.injectTailnet (some lanPolicy) "dev" "user:1".toList "" [] = .ok routedLanPolicy ∧
      lanPolicy.document = some lanDocument ∧ routedLanPolicy.document = some routedLanDocument ∧
      Netd.compileNetworkPolicy ⟨fun _ _ => false⟩ "policy.json" lanDocument = .ok policy ∧
      Netd.compileNetworkPolicy ⟨fun _ _ => false⟩ "policy.json" routedLanDocument = .ok policy' ∧
      lanFlow.tailnetDestination = false ∧
      (Netd.Policy.evaluateFlow (some policy) lanFlow).action = .allow ∧
      (Netd.Policy.evaluateFlow (some policy') lanFlow).action = .deny := by
  obtain ⟨policy, hpolicy, hallow⟩ := exists_compiled lanDocument lanFlow .allow (by decide +kernel)
  obtain ⟨policy', hpolicy', hdeny⟩ := exists_compiled routedLanDocument lanFlow .deny (by decide +kernel)
  exact ⟨policy, policy', lanPolicy_injected, rfl, rfl, hpolicy, hpolicy', rfl, hallow, hdeny⟩

end Silo.Taild
