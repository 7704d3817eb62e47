import Silo.Netd.Flow
import Silo.Netd.Progress
import Silo.Policy.Accepted
import Silo.Policy.Reload
import Mathlib.Data.List.Dedup
/-!
# Accepted policies in netd

An accepted policy, serialised as the policy document, passes every check that
`compileNetworkPolicy` has in common with the validator. `Enforceable` collects what netd asks
for beyond them.
-/

namespace Silo.Policy

open Rust Lib List

/-! ## The two registries -/

def compiled_family : EndpointFamily → Netd.EndpointFamily
  | .ip => .ip
  | .http => .http
  | .package => .package

theorem registry_document {kind : String} {definition : EndpointDefinition}
    (h : PluginRegistry.endpoint kind = some definition) :
    ∃ g, Netd.Registry.endpoint kind = some g ∧ g.family = compiled_family definition.family ∧
      g.family.string = definition.family.as_str ∧ g.transport.string = definition.transport.as_str ∧
      g.tlsMode.string = expected_tls definition ∧ g.supportsCredentials = definition.supports_credentials ∧
      g.defaultPort = definition.default_port ∧
      (g.schema = .ip ↔ definition.schema = .ip) ∧ (g.schema = .hosts ↔ definition.schema = .hosts) ∧
      (g.schema = .registries ↔ definition.schema = .registries) := by
  unfold PluginRegistry.endpoint at h
  split at h <;> cases h <;> exact ⟨_, rfl, rfl, rfl, rfl, rfl, rfl, rfl, by decide, by decide, by decide⟩

/-! ## Endpoints -/

structure IpEnforceable (endpoint : NetworkEndpoint) : Prop where
  matches_something : endpoint.source_cidrs ≠ [] ∨ endpoint.destination_cidrs ≠ []
  ports : endpoint.ports ≠ [] → endpoint.protocol ≠ .any
  source_cidrs : ∀ cidr ∈ endpoint.source_cidrs, (Go.parsePrefix cidr.toList).isSome
  destination_cidrs : ∀ cidr ∈ endpoint.destination_cidrs, (Go.parsePrefix cidr.toList).isSome

theorem parsePrefixes_succeeds (refuse : String → Netd.EndpointError) {cidrs : List String}
    (h : ∀ cidr ∈ cidrs, (Go.parsePrefix cidr.toList).isSome) : ∃ ps, Netd.parsePrefixes refuse cidrs = .ok ps := by
  induction cidrs with
  | nil => exact ⟨[], rfl⟩
  | cons cidr cidrs ih =>
    obtain ⟨p, hp⟩ := Option.isSome_iff_exists.1 (h cidr (by simp))
    obtain ⟨ps, hps⟩ := ih (fun c hc => h c (by simp [hc]))
    exact ⟨p :: ps, by simp [Netd.parsePrefixes, hp, hps]⟩

theorem normalizeProtocol_document (protocol : IpProtocol) :
    Netd.normalizeProtocol (ip_protocol_document protocol) = ip_protocol_document protocol := by
  cases protocol <;> decide

variable {endpoint : NetworkEndpoint}

theorem IpEnforceable.compiles (h : IpEnforceable endpoint) :
    ∃ e, Netd.compileIPEndpoint (endpoint_document endpoint) = .ok e := by
  obtain ⟨sources, hs⟩ := parsePrefixes_succeeds .invalidSource h.source_cidrs
  obtain ⟨destinations, hd⟩ := parsePrefixes_succeeds .invalidDestination h.destination_cidrs
  have hsome : ¬ (endpoint.destination_cidrs.isEmpty ∧ endpoint.source_cidrs.isEmpty) := by
    rcases h.matches_something with h | h <;> simp [h]
  have hany : ¬ (ip_protocol_document endpoint.protocol = "any" ∧ (endpoint.ports.map (fun p => Netd.PortRange.mk p.start p.end_)).isEmpty = false) := by
    rintro ⟨hp, hports⟩
    refine h.ports (by rintro he; simp [he] at hports) ?_
    revert hp
    cases endpoint.protocol <;> simp [ip_protocol_document]
  have hknown : ¬ (ip_protocol_document endpoint.protocol ≠ "any" ∧ ip_protocol_document endpoint.protocol ≠ "tcp" ∧
      ip_protocol_document endpoint.protocol ≠ "udp") := by
    cases endpoint.protocol <;> simp [ip_protocol_document]
  unfold Netd.compileIPEndpoint endpoint_document
  simp only [normalizeProtocol_document, Bool.not_eq_true']
  rw [if_neg hsome, if_neg hany, if_neg hknown, hs, hd]
  exact ⟨_, rfl⟩

/-- netd reads every host as a binding. -/
def HostsEnforceable (endpoint : NetworkEndpoint) (definition : EndpointDefinition) : Prop :=
  ∀ host ∈ endpoint.hosts, ∃ b, Netd.parseBinding host definition.default_port = .ok b

variable {definition : Netd.EndpointDefinition}

variable {hosts exact_hosts : List String}

theorem compileHosts_succeeds (bindings : List Netd.Binding)
    (h : ∀ host ∈ hosts, ∃ b, Netd.parseBinding host definition.defaultPort = .ok b) :
    ∃ bs, Netd.compileHosts definition hosts bindings = .ok bs := by
  induction hosts generalizing bindings with
  | nil => exact ⟨bindings, rfl⟩
  | cons host hosts ih =>
    obtain ⟨b, hb⟩ := h host (by simp)
    have hrest := fun c hc => h c (mem_cons_of_mem host hc)
    unfold Netd.compileHosts
    rw [hb]
    dsimp only
    split
    · exact ih _ hrest
    · exact ih _ hrest

theorem compileHTTPEndpointDecl_succeeds (name : String) (hne : hosts ≠ [])
    (h : ∀ host ∈ hosts, ∃ b, Netd.parseBinding host definition.defaultPort = .ok b) :
    ∃ e, Netd.compileHTTPEndpointDecl definition name hosts = .ok e := by
  obtain ⟨bs, hbs⟩ := compileHosts_succeeds [] h
  exact ⟨_, by simp [Netd.compileHTTPEndpointDecl, hne, hbs]; rfl⟩

/-! ## Registry endpoints -/

/-- netd finds the same origin in the malware feed. -/
def FeedEnforceable (endpoint : NetworkEndpoint) : Prop :=
  ∀ feed, (endpoint.config.get "malware_feed").bind Value.as_str = some feed →
    Netd.parseHTTPSOrigin feed = parse_https_origin feed

theorem map_document_get? (m : Map) (key : String) :
    (map_document m).get? key = (m.get key).map value_document := by
  unfold AssocMap.get? map_document Map.get
  simp only [members_document_eq_map]
  induction m.members with
  | nil => rfl
  | cons entry ms ih =>
    obtain ⟨k, v⟩ := entry
    by_cases hk : k = key
    · simp [hk]
    · have : (key == k) = false := beq_false_of_ne (Ne.symm hk)
      simpa [lookup_cons, hk, this] using ih

theorem map_document_size (m : Map) : (map_document m).size = m.len := by
  simp [AssocMap.size, map_document, members_document_eq_map, Map.len]

theorem repositoryHosts_eq (name : String) :
    Netd.repositoryHosts name = (PackageRepository.parse name).map PackageRepository.hosts := by
  by_cases hnpm : name = "npm"
  · subst hnpm; rfl
  by_cases hpypi : name = "pypi"
  · subst hpypi; rfl
  · simp [Netd.repositoryHosts, PackageRepository.parse]

theorem registryHosts_eq (names : List String) : Netd.registryHosts names = registry_hosts names := by
  unfold Netd.registryHosts registry_hosts
  congr 1
  funext hosts name
  rw [repositoryHosts_eq]
  cases PackageRepository.parse name <;> rfl

def known_hosts : List String := PackageRepository.npm.hosts ++ PackageRepository.pypi.hosts

theorem known_hosts_bind : ∀ host ∈ known_hosts, (Netd.parseBinding host 443).isOk := by decide +kernel

theorem mem_insert_hosts {new : List String} {host : String}
    (h : host ∈ new.foldl (fun hosts host => if host ∈ hosts then hosts else hosts ++ [host]) hosts) :
    host ∈ hosts ∨ host ∈ new := by
  revert h
  refine foldlRecOn (motive := fun all : List String => host ∈ all → host ∈ hosts ∨ host ∈ new) _ _ .inl ?_
  intro all hall n hn h
  split at h
  · exact hall h
  · exact (mem_append.1 h).elim hall fun h => .inr (mem_singleton.1 h ▸ hn)

theorem mem_registry_hosts {names : List String} {host : String} (h : host ∈ registry_hosts names) : host ∈ known_hosts := by
  revert host
  unfold registry_hosts
  refine foldlRecOn (motive := fun hosts : List String => ∀ {host}, host ∈ hosts → host ∈ known_hosts) _ _ (by simp) ?_
  intro hosts hknown name _ host hmem
  cases hp : PackageRepository.parse name with
  | none => exact hknown (by simpa [hp] using hmem)
  | some repository =>
    rw [hp] at hmem
    rcases mem_insert_hosts hmem with h | h
    · exact hknown h
    · cases repository
      · exact mem_append_left _ h
      · exact mem_append_right _ h

theorem eq_map_string {items : List Value} (h : (items.filterMap Value.as_str).length = items.length) :
    items = (items.filterMap Value.as_str).map Value.string := by
  have hall := filterMap_length_eq_length.1 h
  have hself : ∀ v ∈ items, v.as_str.map .string = some v := by
    intro v hv
    have := hall v hv
    cases v <;> simp_all [Value.as_str]
  rw [map_filterMap, filterMap_congr hself, filterMap_some]

theorem compileRegistries_succeeds {names done : List String} (hnodup : (done ++ names).Nodup)
    (hknown : ∀ name ∈ names, (PackageRepository.parse name).isSome = true) :
    Netd.compileRegistries (names.map Netd.Json.string) done = .ok (done ++ names) := by
  induction names generalizing done with
  | nil => simp [Netd.compileRegistries]
  | cons name names ih =>
    have hrepo : (Netd.repositoryHosts name).isNone = false := by
      rw [repositoryHosts_eq]
      obtain ⟨r, hr⟩ := Option.isSome_iff_exists.1 (hknown name (by simp))
      simp [hr]
    have hnew : name ∉ done := fun hmem => (nodup_append.1 hnodup).2.2 name hmem name (by simp) rfl
    rw [map_cons, Netd.compileRegistries, if_neg (by simp [hrepo]), if_neg hnew,
      ih (by simpa using hnodup) (fun n hn => hknown n (by simp [hn]))]
    simp

theorem float64_of_lt {n : Nat} (h : n < 2 ^ 53) : float64 n = n := if_pos h

/-- A package age the validator accepts is one netd accepts, and it is not zero. -/
theorem compileFilterPackageAge_succeeds {config : Map} (h : ¬ (config.get "filter_package_age").any (fun value =>
      !value.as_u64.any (fun hours => hours ≠ 0 && hours.toNat < 2 ^ 32))) :
    ∃ age, Netd.compileFilterPackageAge (map_document config) = .ok age ∧
      (age > 0 ↔ config.contains_key "filter_package_age") := by
  unfold Netd.compileFilterPackageAge
  rw [map_document_get?]
  cases hget : config.get "filter_package_age" with
  | none => exact ⟨0, rfl, by simp [Map.contains_key, hget]⟩
  | some value =>
    rw [hget] at h
    simp only [Option.any_some, Bool.not_eq_true, Bool.not_eq_false', Option.any_eq_true] at h
    obtain ⟨hours, hu64, hok⟩ := h
    simp only [ne_eq, Bool.and_eq_true, decide_eq_true_eq] at hok
    obtain ⟨hne, hlt⟩ := hok
    obtain rfl : value = .number (.pos hours) := by
      cases value with
      | number n => cases n <;> simp_all [Value.as_u64]
      | _ => cases hu64
    have hpos : 0 < hours.toNat := Nat.pos_of_ne_zero fun h0 => hne (UInt64.toNat_inj.1 h0)
    have hdoc : value_document (.number (.pos hours)) = .number (hours.toNat : ℚ) := by
      rw [value_document, number_document, float64_of_lt (by omega)]
    simp only [Option.map_some, hdoc]
    have hcheck : ¬ ((hours.toNat : ℚ) < 1 ∨ 4294967295 < (hours.toNat : ℚ) ∨
        (hours.toNat : ℚ) ≠ ((⌊(hours.toNat : ℚ)⌋ : Int) : ℚ)) := by
      have h1 : ¬ (hours.toNat : ℚ) < 1 := by exact_mod_cast Nat.not_lt.2 hpos
      have h2 : ¬ (4294967295 : ℚ) < (hours.toNat : ℚ) := by exact_mod_cast (by omega : ¬ 4294967295 < hours.toNat)
      have h3 : (hours.toNat : ℚ) = ((⌊(hours.toNat : ℚ)⌋ : Int) : ℚ) := by rw [Int.floor_natCast]; simp
      rintro (h | h | h)
      · exact h1 h
      · exact h2 h
      · exact h h3
    rw [if_neg hcheck]
    refine ⟨_, rfl, ?_⟩
    rw [Int.floor_natCast, Int.toNat_natCast]
    simp only [Map.contains_key, hget, Option.isSome_some, iff_true]
    show (0 : UInt32) < UInt32.ofNat hours.toNat
    rw [UInt32.lt_iff_toNat_lt, UInt32.toNat_ofNat_of_lt' hlt]
    exact hpos

theorem noErrors_validate_http_endpoint (h : NoErrors (validate_http_endpoint endpoint exact_hosts).1)
    : endpoint.hosts ≠ [] := by
  simp only [validate_http_endpoint, noErrors_append, noErrors_report_error] at h
  exact h.1.2

theorem noErrors_validate_malware_feed (h : NoErrors (validate_malware_feed endpoint)) :
    ∃ feed host port, endpoint.config.get "malware_feed" = some (.string feed) ∧
      parse_https_origin feed = some (host, port) ∧ endpoint.egress = [{ host, port, tls := true }] ∧
      (¬ (endpoint.config.get "filter_package_age").any (fun value =>
        !value.as_u64.any (fun hours => hours ≠ 0 && hours.toNat < 2 ^ 32))) ∧
      endpoint.config.len = if endpoint.config.contains_key "filter_package_age" then 3 else 2 := by
  unfold validate_malware_feed at h
  cases hfeed : (endpoint.config.get "malware_feed").bind Value.as_str with
  | none => simp [hfeed] at h
  | some feed =>
    rw [hfeed] at h
    obtain ⟨value, hvalue, hstr⟩ := Option.bind_eq_some_iff.1 hfeed
    obtain rfl : value = .string feed := by cases value <;> simp_all [Value.as_str]
    cases horigin : parse_https_origin feed with
    | none => simp [horigin] at h
    | some origin =>
      obtain ⟨host, port⟩ := origin
      simp only [horigin, noErrors_append, noErrors_report_error, ne_eq, not_not] at h
      exact ⟨feed, host, port, hvalue, horigin, h.1.1, h.1.2, h.2⟩

theorem noErrors_validate_registry_endpoint (h : NoErrors (validate_registry_endpoint endpoint exact_hosts).1) :
    endpoint.hosts ≠ [] ∧ NoErrors (validate_malware_feed endpoint) ∧
      ∃ names : List String, endpoint.config.get "registries" = some (.array (names.map Value.string)) ∧ names.Nodup ∧
        (∀ name ∈ names, (PackageRepository.parse name).isSome) ∧ endpoint.hosts = registry_hosts names := by
  unfold validate_registry_endpoint at h
  cases hreg : (endpoint.config.get "registries").bind Value.as_array with
  | none => simp [hreg] at h
  | some items =>
    obtain ⟨value, hvalue, harr⟩ := Option.bind_eq_some_iff.1 hreg
    obtain rfl : value = .array items := by cases value <;> simp_all [Value.as_array]
    simp only [hreg, noErrors_append, noErrors_report_error, not_or, ne_eq, not_not, Bool.not_eq_true] at h
    obtain ⟨⟨⟨hhttp, hlen, hdedup, hknown⟩, hhosts⟩, hfeed⟩ := h
    refine ⟨noErrors_validate_http_endpoint hhttp, hfeed, items.filterMap Value.as_str, ?_, ?_, ?_, hhosts⟩
    · rw [← eq_map_string hlen]
      exact hvalue
    · have : (items.filterMap Value.as_str).dedup = items.filterMap Value.as_str :=
        (dedup_sublist _).eq_of_length hdedup
      exact dedup_eq_self.1 this
    · intro name hname
      have := any_eq_false.1 hknown name hname
      simpa [Option.isSome_iff_ne_none] using this

theorem compileRegistryEndpointDecl_succeeds (hport : definition.defaultPort = 443)
    (h : NoErrors (validate_registry_endpoint endpoint exact_hosts).1) (hfeed : FeedEnforceable endpoint) :
    ∃ r, Netd.compileRegistryEndpointDecl definition (endpoint_document endpoint) = .ok r := by
  obtain ⟨hne, hmalware, names, hregistries, hnodup, hknown, hhosts⟩ := noErrors_validate_registry_endpoint h
  obtain ⟨feed, host, port, hget, horigin, hegress, hage, hlen⟩ := noErrors_validate_malware_feed hmalware
  obtain ⟨age, hcompiled, hpos⟩ := compileFilterPackageAge_succeeds hage
  obtain ⟨e, he⟩ := compileHTTPEndpointDecl_succeeds endpoint.name hne (by
    intro host hmem
    rw [hport]
    exact exists_ok_of_isOk (known_hosts_bind host (mem_registry_hosts (hhosts ▸ hmem))))
  have hsize : (map_document endpoint.config).size =
      if endpoint.config.contains_key "filter_package_age" then 3 else 2 := by rw [map_document_size, hlen]
  have hfeed' : Netd.parseHTTPSOrigin feed = some (host, port) := by
    rw [hfeed feed (by rw [hget]; rfl), horigin]
  have harray : Netd.nonEmptyArray ((map_document endpoint.config).get? "registries") =
      some (names.map Netd.Json.string) := by
    rw [map_document_get?, hregistries, Option.map_some, value_document, items_document_eq_map, map_map]
    cases names with
    | nil => exact absurd (hhosts.trans rfl) hne
    | cons name names => rfl
  simp only [Netd.compileRegistryEndpointDecl, bind_eq_ok, pure_eq_ok, require_eq_ok, orFail_eq_ok]
  refine ⟨_, (), ?_, _, harray, names, compileRegistries_succeeds (by simpa using hnodup) hknown, (), ?_, feed, ?_, _, hfeed',
    (), ?_, age, hcompiled, (), ?_, e, he, rfl⟩
  · show 2 ≤ (map_document endpoint.config).size ∧ (map_document endpoint.config).size ≤ 3
    rw [hsize]
    split <;> decide
  · show endpoint.hosts = _
    rw [hhosts, registryHosts_eq]
  · rw [show (endpoint_document endpoint).config = map_document endpoint.config from rfl, map_document_get?, hget]
    rfl
  · show endpoint.egress.map egress_document = _
    rw [hegress]
    rfl
  · show (map_document endpoint.config).size = _
    rw [hsize]
    simp only [hpos]

/-! ## Bindings -/

def exact_bindings (endpoint : NetworkEndpoint) : List (String × UInt16) :=
  match PluginRegistry.endpoint endpoint.kind with
  | none => []
  | some definition =>
    ((endpoint.hosts.filterMap (fun host => (Netd.parseBinding host definition.default_port).toOption)).filter
      (fun b => !b.wildcard)).map (fun b => (b.host, b.port))

theorem mem_exact_bindings {definition : EndpointDefinition}
    (hdef : PluginRegistry.endpoint endpoint.kind = some definition) {transport : Netd.Transport} {e : Netd.HTTPEndpoint}
    (he : Netd.CompilesTo transport (endpoint_document endpoint) e) {b : Netd.Binding} (hb : b ∈ e.hosts)
    (hw : b.wildcard = false) : (b.host, b.port) ∈ exact_bindings endpoint := by
  obtain ⟨g, hg, -, hcompile⟩ := he
  obtain ⟨g', hg', -, -, -, -, -, hport, -⟩ := registry_document hdef
  obtain rfl : g = g' := Option.some.inj (hg.symm.trans hg')
  obtain ⟨-, -, -, hhosts⟩ := Netd.compileHTTPEndpointDecl_ok hcompile
  rcases Netd.mem_compileHosts hhosts hb with h | ⟨host, hmem, hparse⟩
  · cases h
  · unfold exact_bindings
    rw [hdef]
    rw [hport] at hparse
    refine mem_map.2 ⟨b, mem_filter.2 ⟨mem_filterMap.2 ⟨host, hmem, ?_⟩, by simp [hw]⟩, rfl⟩
    rw [hparse]
    rfl

theorem exact_key_inj {transport : Netd.Transport} {b b' : Netd.Binding} (hw : b.wildcard = false)
    (hw' : b'.wildcard = false) (hkey : b.key transport = b'.key transport) : (b.host, b.port) = (b'.host, b'.port) := by
  have hport : b.port = b'.port := Netd.hostBindingKey_port hkey
  simp only [Netd.Binding.key, Netd.hostBindingKey, hw, hw', hport] at hkey
  have := congrArg String.toList hkey
  simp only [String.toList_append, append_cancel_left_eq, append_cancel_right_eq] at this
  have hhost : b.host = b'.host := String.toList_inj.1 (by simpa using this)
  rw [hhost, hport]

def BindsApart (e e' : NetworkEndpoint) : Prop := e.kind = e'.kind → ∀ b ∈ exact_bindings e, b ∉ exact_bindings e'

theorem kind_of_transport {kind kind' : String} {g g' : Netd.EndpointDefinition}
    (h : Netd.Registry.endpoint kind = some g) (h' : Netd.Registry.endpoint kind' = some g')
    (ht : g.transport = g'.transport) : kind = kind' := by
  rcases (Netd.Registry.endpoint_cases h).2 with ⟨rfl, -, -, h1⟩ | ⟨rfl, -, -, h1⟩ | ⟨rfl, -, -, h1⟩ | ⟨rfl, -, -, h1⟩ <;>
  rcases (Netd.Registry.endpoint_cases h').2 with ⟨rfl, -, -, h2⟩ | ⟨rfl, -, -, h2⟩ | ⟨rfl, -, -, h2⟩ | ⟨rfl, -, -, h2⟩ <;>
  simp_all

theorem BindsApart.document {e e' : NetworkEndpoint} {definition definition' : EndpointDefinition}
    (hdef : PluginRegistry.endpoint e.kind = some definition) (hdef' : PluginRegistry.endpoint e'.kind = some definition')
    (h : BindsApart e e') : Netd.BindsApart (endpoint_document e) (endpoint_document e') := by
  intro transport c c' hc hc' b hb b' hb' hw hw' hkey
  obtain ⟨g, hg, ht, -⟩ := id hc
  obtain ⟨g', hg', ht', -⟩ := id hc'
  have hkind : e.kind = e'.kind := kind_of_transport hg hg' (ht.trans ht'.symm)
  refine h hkind _ (mem_exact_bindings hdef hc hb hw) ?_
  rw [exact_key_inj hw hw' hkey]
  exact mem_exact_bindings hdef' hc' hb' hw'

/-! ## Policies -/

/-- The conditions of the rules compile in netd, whatever the family of the endpoints they are used on. -/
def NetworkPolicy.ConditionsCompile (cel : Netd.Cel) (policy : NetworkPolicy) : Prop :=
  ∀ rule ∈ policy.rules, ∀ source, rule.condition = some source → ∀ e ∈ policy.endpoints, e.name ∈ rule.endpoints →
    ∀ definition, Netd.Registry.endpoint e.kind = some definition →
      ∃ c, Netd.compileOptionalCondition cel definition.family source = .ok c

/-- What netd asks of a policy beyond the checks of the validator. -/
structure Enforceable (cel : Netd.Cel) (policy : NetworkPolicy) : Prop where
  /-- The only forwards netd implements, which need a node to listen on. -/
  forwards : ∀ f ∈ policy.forwards, f.ToSelf ∧ policy.tailscale ≠ []
  ip : ∀ e ∈ policy.endpoints, e.kind = "ip" → IpEnforceable e
  hosts : ∀ e ∈ policy.endpoints, ∀ definition, PluginRegistry.endpoint e.kind = some definition →
    definition.schema = .hosts → HostsEnforceable e definition
  apart : policy.endpoints.Pairwise BindsApart
  feeds : ∀ e ∈ policy.endpoints, e.kind = "registries" → FeedEnforceable e
  tunnels : ∀ r ∈ policy.rules, r.tunnel ≠ none → ∀ e ∈ policy.endpoints, e.name ∈ r.endpoints → e.kind = "ip"
  credentials : ∀ c ∈ policy.credentials, ∀ source, c.condition = some source →
    ∃ compiled, Netd.compileOptionalCondition cel .http source = .ok compiled
  audit : policy.settings.audit.body_buffer_bytes.toNat < 2 ^ 63 ∧ policy.settings.audit.body_storage_bytes.toNat < 2 ^ 63

section Ready
variable {policy : NetworkPolicy} {cel : Netd.Cel}

theorem endpoint_ready (h : Enforceable cel policy) {e : NetworkEndpoint} (he : e ∈ policy.endpoints)
    {definition : EndpointDefinition} (hacc : EndpointAccepted e definition) :
    ∃ g, Netd.EndpointReady (endpoint_document e) g := by
  obtain ⟨g, hg, -, hfamily, htransport, htls, hcred, hport, hip, hhosts, hreg⟩ := registry_document hacc.registered
  obtain ⟨exact_hosts, hschema⟩ := hacc.schema
  unfold validate_schema at hschema
  have hkinds := Netd.Registry.endpoint_cases hg
  refine ⟨g, ne_empty_of_valid_identifier hacc.name, hg, ?_, fun hs => ?_, fun hs => ?_, fun hs => ?_⟩
  · unfold Netd.validateEndpointDescriptor endpoint_document
    simp [hacc.family, hacc.transport, hacc.tls_mode, hacc.capabilities, hfamily, htransport, htls, hcred,
      expected_capabilities]
  · refine (h.ip e he ?_).compiles
    rcases hkinds.2 with hk | hk | hk | hk <;> simp_all
  · rw [hhosts.1 hs] at hschema
    refine compileHTTPEndpointDecl_succeeds _ (noErrors_validate_http_endpoint hschema) ?_
    rw [hport]
    exact h.hosts e he definition hacc.registered (hhosts.1 hs)
  · rw [hreg.1 hs] at hschema
    have hkind : e.kind = "registries" := by rcases hkinds.2 with hk | hk | hk | hk <;> simp_all
    refine compileRegistryEndpointDecl_succeeds ?_ hschema (h.feeds e he hkind)
    rw [hkind] at hg
    cases hg
    rfl

theorem info_document {e : NetworkEndpoint} {info : NetworkEndpointInfo} (h : e.info = some info) :
    ∃ g, Netd.Registry.endpoint (endpoint_document e).kind = some g ∧ g.family = compiled_family info.family ∧
      g.supportsCredentials = info.supports_credentials := by
  obtain ⟨definition, hdef, rfl⟩ := Option.map_eq_some_iff.1 h
  obtain ⟨g, hg, hfamily, -, -, -, hcred, -⟩ := registry_document hdef
  exact ⟨g, hg, hfamily, hcred⟩

theorem credential_ready (h : Enforceable cel policy) {c : NetworkCredential} (hc : c ∈ policy.credentials)
    (hacc : CredentialAccepted policy.endpoints c) :
    Netd.CredentialReady cel (policy.endpoints.map endpoint_document) (credential_document c) := by
  obtain ⟨e, he, hen, info, hinfo, hsupports⟩ := hacc.endpoint
  obtain ⟨g, hg, -, hcred⟩ := info_document hinfo
  refine ⟨hacc.kind, ne_empty_of_valid_identifier hacc.name,
    ⟨_, mem_map_of_mem he, hen, g, hg, hcred.trans hsupports⟩, ?_⟩
  show ∃ compiled, Netd.compileOptionalCondition cel .http (c.condition.getD "") = .ok compiled
  cases hcond : c.condition with
  | none => exact ⟨none, rfl⟩
  | some source => exact h.credentials c hc source hcond

section
variable (hpolicy : Accepted policy)
include hpolicy

theorem rule_ready (h : Enforceable cel policy) (hconditions : policy.ConditionsCompile cel)
    {r : NetworkRule} (hr : r ∈ policy.rules) {family : EndpointFamily} (hacc : RuleAccepted policy r family) :
    Netd.RuleReady cel (policy.endpoints.map endpoint_document) (policy.credentials.map credential_document)
      (policy.tailscale.head?.map tailscale_document) (rule_document r) (compiled_family family) := by
  -- Any of its endpoints tells the family of the rule.
  obtain ⟨name, hname⟩ := exists_mem_of_ne_nil _ hacc.nonempty
  obtain ⟨e0, he0, hen0, info0, hinfo0, hfam0⟩ := hacc.endpoints name hname
  obtain ⟨g0, hg0, hgfam0, -⟩ := info_document hinfo0
  refine ⟨hacc.nonempty, fun name hname => ?_, ?_, ?_, ?_, ?_⟩
  · obtain ⟨e, he, hen, info, hinfo, hfam⟩ := hacc.endpoints name hname
    obtain ⟨g, hg, hgfam, -⟩ := info_document hinfo
    exact ⟨_, mem_map_of_mem he, hen, g, hg, hgfam.trans (congrArg compiled_family hfam)⟩
  · show r.credential.getD "" = "" ∨ _
    cases hc : r.credential with
    | none => exact .inl rfl
    | some credential =>
      obtain ⟨rfl, c, hmem, hcn, hce⟩ := hacc.credential credential hc
      refine .inr ⟨rfl, _, mem_map_of_mem hmem, ?_, hce⟩
      show c.name = r.credential.getD ""
      rw [hc, hcn]
      rfl
  · show r.tunnel.getD "" = "" ∨ _
    cases ht : r.tunnel with
    | none => exact .inl rfl
    | some tunnel =>
      obtain ⟨hallow, hmem⟩ := hacc.tunnel tunnel ht
      have hip : family = .ip := by
        have hkind := h.tunnels r hr (by simp [ht]) e0 he0 (hen0 ▸ hname)
        rw [NetworkEndpoint.info, hkind] at hinfo0
        cases hinfo0
        exact hfam0.symm
      rcases hpolicy.tailscale with hnil | ⟨node, hnode, -⟩
      · simp [hnil] at hmem
      · obtain rfl : tunnel = node.name := by simpa [hnode] using hmem
        refine .inr ⟨by rw [hip]; rfl, ?_, tailscale_document node, by simp [hnode], ?_⟩
        · show action_document r.verdict = "allow"
          rw [hallow]
          rfl
        · show r.tunnel.getD "" = node.name
          rw [ht]
          rfl
  · show ∃ action, Netd.Action.ofString (action_document r.verdict) = some action
    cases r.verdict
    · exact ⟨.allow, rfl⟩
    · exact ⟨.deny, rfl⟩
  · show ∃ c, Netd.compileOptionalCondition cel (compiled_family family) (r.condition.getD "") = .ok c
    cases hcond : r.condition with
    | none => exact ⟨none, rfl⟩
    | some source =>
      rw [← hfam0, ← hgfam0]
      exact hconditions r hr source hcond e0 he0 (hen0 ▸ hname) g0 hg0

theorem forwards_ready (h : Enforceable cel policy) :
    ∃ compiled, Netd.compileForwards (policy.tailscale.head?.map tailscale_document)
      (policy.forwards.map forward_document) = .ok compiled := by
  have hself : ∀ f ∈ policy.forwards, f.ToSelf := fun f hf => (h.forwards f hf).1
  have hvalid := hpolicy.forwards
  rcases hpolicy.tailscale with hnil | ⟨node, hnode, hname, -⟩
  · -- Without a node there are no forwards.
    have : policy.forwards = [] := eq_nil_iff_forall_not_mem.2 fun f hf => (h.forwards f hf).2 hnil
    rw [this]
    exact ⟨[], rfl⟩
  · rw [hnode] at hvalid ⊢
    exact ⟨_, (foldlM_compile_iff node policy.forwards [] _ hself).2 ⟨((noErrors_iff _ _ _ hself).1 hvalid).1, rfl⟩⟩

theorem compileTailscale_document :
    Netd.compileTailscale (policy.tailscale.map tailscale_document) =
      .ok (policy.tailscale.head?.map tailscale_document) := by
  rcases hpolicy.tailscale with hnil | ⟨node, hnode, hname, hsilo⟩
  · rw [hnil]
    rfl
  · rw [hnode]
    have hany : node.name.toList.any (fun c => c == '/' || c == ' ') = false := by
      refine any_eq_false.2 fun c hc => ?_
      simp only [Bool.or_eq_true, beq_iff_eq, not_or]
      exact ⟨fun e => not_mem_of_valid_identifier hname (c := '/') (by decide) (e ▸ hc),
        fun e => not_mem_of_valid_identifier hname (c := ' ') (by decide) (e ▸ hc)⟩
    simp [Netd.compileTailscale, tailscale_document, ne_empty_of_valid_identifier hname, hsilo, hany]

end

end Ready

def NetworkPolicy.file (policy : NetworkPolicy) (audit : Netd.AuditSettingsDecl) : Netd.NetworkPolicyFile where
  version := policy.version.toNat
  metadata := members_document policy.metadata.members
  settings := ⟨action_document policy.settings.default_action, audit⟩
  endpoints := policy.endpoints.map endpoint_document
  credentials := policy.credentials.map credential_document
  rules := policy.rules.map rule_document
  tailscale := policy.tailscale.map tailscale_document
  forwards := policy.forwards.map forward_document

theorem document_eq_file {policy : NetworkPolicy} {buffer storage : Int}
    (hbuffer : int64 policy.settings.audit.body_buffer_bytes = some buffer)
    (hstorage : int64 policy.settings.audit.body_storage_bytes = some storage) :
    policy.document = some (policy.file ⟨buffer, storage⟩) := by
  unfold NetworkPolicy.document
  rw [hbuffer, hstorage]
  rfl

theorem document_eq_some {policy : NetworkPolicy} {document : Netd.NetworkPolicyFile} (h : policy.document = some document) :
    (policy.settings.audit.body_buffer_bytes.toNat < 2 ^ 63 ∧ policy.settings.audit.body_storage_bytes.toNat < 2 ^ 63) ∧
      ∃ audit, document = policy.file audit := by
  unfold NetworkPolicy.document at h
  obtain ⟨buffer, hbuffer, h⟩ := Option.bind_eq_some_iff.1 h
  obtain ⟨storage, hstorage, h⟩ := Option.bind_eq_some_iff.1 h
  refine ⟨⟨?_, ?_⟩, ⟨buffer, storage⟩, (Option.some.inj h).symm⟩
  · exact (Option.ite_none_right_eq_some.1 hbuffer).1
  · exact (Option.ite_none_right_eq_some.1 hstorage).1

def NetworkPolicy.CompilesInNetd (cel : Netd.Cel) (filename : String) (policy : NetworkPolicy) : Prop :=
  ∃ document compiled, policy.document = some document ∧ Netd.compileNetworkPolicy cel filename document = .ok compiled

/-- An accepted policy that keeps to what netd implements compiles there. -/
theorem Accepted.compiles {policy : NetworkPolicy} (hpolicy : Accepted policy) {cel : Netd.Cel} (filename : String)
    (hconditions : policy.ConditionsCompile cel) (h : Enforceable cel policy) :
    policy.CompilesInNetd cel filename := by
  have hbuffer : int64 policy.settings.audit.body_buffer_bytes = some _ := if_pos h.audit.1
  have hstorage : int64 policy.settings.audit.body_storage_bytes = some _ := if_pos h.audit.2
  suffices hready : Netd.DocumentReady cel (policy.file ⟨_, _⟩) by
    obtain ⟨compiled, hcompiled⟩ := Netd.compiles_of_ready filename hready
    exact ⟨_, compiled, document_eq_file hbuffer hstorage, hcompiled⟩
  refine ⟨?_, ?_, ?_, ?_, ?_, ?_, ?_, _, compileTailscale_document hpolicy, forwards_ready hpolicy h, ?_⟩
  · show (policy.version.toNat : Int) = 1
    rw [hpolicy.version]
    rfl
  · show ∃ action, Netd.compileDefaultAction ⟨action_document policy.settings.default_action, _⟩ = .ok action
    cases policy.settings.default_action
    · exact ⟨.allow, rfl⟩
    · exact ⟨.deny, rfl⟩
  · intro d hd
    obtain ⟨e, he, rfl⟩ := mem_map.1 hd
    obtain ⟨definition, hacc⟩ := hpolicy.endpoints e he
    exact endpoint_ready h he hacc
  · simpa [NetworkPolicy.file, map_map, Function.comp_def, endpoint_document] using hpolicy.endpoint_names
  · refine pairwise_map.2 (h.apart.imp_of_mem fun {e e'} he he' hapart => ?_)
    obtain ⟨definition, hacc⟩ := hpolicy.endpoints e he
    obtain ⟨definition', hacc'⟩ := hpolicy.endpoints e' he'
    exact hapart.document hacc.registered hacc'.registered
  · intro d hd
    obtain ⟨c, hc, rfl⟩ := mem_map.1 hd
    exact credential_ready h hc (hpolicy.credentials c hc)
  · simpa [NetworkPolicy.file, map_map, Function.comp_def, credential_document] using hpolicy.credential_names
  · intro d hd
    obtain ⟨r, hr, rfl⟩ := mem_map.1 hd
    obtain ⟨family, hacc⟩ := hpolicy.rules r hr
    exact ⟨_, rule_ready hpolicy h hconditions hr hacc⟩

end Silo.Policy
