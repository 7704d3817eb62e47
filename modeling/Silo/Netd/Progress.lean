import Silo.Netd.Compiled
/-!
# Documents that compile

Conditions on a document under which no check of `compileNetworkPolicy` fails. The
declarations are processed one after another, so each loop needs, next to what the maps hold
already, that nothing in them stands in the way of the next declaration.
-/

namespace Silo.Netd

open Go Lib List AssocMap

/-! ## Endpoints -/

structure EndpointReady (d : EndpointDecl) (definition : EndpointDefinition) : Prop where
  named : d.name ≠ ""
  registered : Registry.endpoint d.kind = some definition
  descriptor : validateEndpointDescriptor d definition = .ok ()
  ip : definition.schema = .ip → ∃ e, compileIPEndpoint d = .ok e
  hosts : definition.schema = .hosts → ∃ e, compileHTTPEndpointDecl definition d.name d.hosts = .ok e
  registries : definition.schema = .registries → ∃ r, compileRegistryEndpointDecl definition d = .ok r

/-- Two declarations that share no exact binding of one transport. -/
def BindsApart (d d' : EndpointDecl) : Prop :=
  ∀ transport e e', CompilesTo transport d e → CompilesTo transport d' e' → ∀ b ∈ e.hosts, ∀ b' ∈ e'.hosts,
    b.wildcard = false → b'.wildcard = false → b.key transport ≠ b'.key transport

theorem compileHosts_nodup {definition : EndpointDefinition} {names : List String} {hosts bindings : List Binding}
    (hnodup : (hosts.map (Binding.key definition.transport)).Nodup)
    (h : compileHosts definition names hosts = .ok bindings) :
    (bindings.map (Binding.key definition.transport)).Nodup := by
  induction names generalizing hosts with
  | nil =>
    cases h
    exact hnodup
  | cons name names ih =>
    unfold compileHosts at h
    split at h
    · cases h
    rename_i b _
    split at h
    · exact ih hnodup h
    · rename_i hnew
      refine ih (nodup_map_concat hnodup fun c hc hkey => hnew ?_) h
      exact any_eq_true.2 ⟨c, hc, by simpa using hkey⟩

variable {e : HTTPEndpoint}

theorem compileHTTPEndpointDecl_nodup {definition : EndpointDefinition} {name : String} {hosts : List String}
    (h : compileHTTPEndpointDecl definition name hosts = .ok e) :
    (e.hosts.map (Binding.key e.transport)).Nodup := by
  obtain ⟨-, -, ht, hb⟩ := compileHTTPEndpointDecl_ok h
  rw [ht]
  exact compileHosts_nodup (by simp) hb

theorem addExactBindings_succeeds {bs : List Binding} {m : AssocMap String Ref}
    (hnodup : (bs.map (Binding.key e.transport)).Nodup)
    (hfree : ∀ b ∈ bs, b.wildcard = false → m.get? (b.key e.transport) = none) :
    ∃ m', addExactBindings e bs m = .ok m' ∧ ∀ k r, m'.get? k = some r →
      m.get? k = some r ∨ ∃ b ∈ bs, b.wildcard = false ∧ b.key e.transport = k := by
  induction bs generalizing m with
  | nil => exact ⟨m, rfl, fun _ _ h => .inl h⟩
  | cons b bs ih =>
    rw [map_cons, nodup_cons] at hnodup
    obtain ⟨hb, hbs⟩ := hnodup
    cases hw : b.wildcard with
    | true =>
      obtain ⟨m', hm', hsource⟩ := ih hbs (fun c hc => hfree c (by simp [hc]))
      refine ⟨m', by simpa [addExactBindings, hw] using hm', fun k r hk => ?_⟩
      rcases hsource k r hk with h | ⟨c, hc, hcw⟩
      · exact .inl h
      · exact .inr ⟨c, by simp [hc], hcw⟩
    | false =>
      have hkey : b.key e.transport = hostBindingKey e.transport b.host b.port false := by rw [Binding.key, hw]
      have hget := hfree b (by simp) hw
      obtain ⟨m', hm', hsource⟩ := ih (m := m.insert (b.key e.transport) e.ref) hbs (by
        intro c hc hcw
        rw [get?_insert, if_neg, hfree c (by simp [hc]) hcw]
        intro hcb
        exact hb (hcb ▸ mem_map_of_mem hc))
      refine ⟨m', ?_, fun k r hk => ?_⟩
      · rw [hkey] at hget hm'
        simpa [addExactBindings, hw, hget] using hm'
      · rcases hsource k r hk with h | ⟨c, hc, hcw⟩
        · rcases get?_insert_eq_some.1 h with ⟨rfl, -⟩ | ⟨-, h⟩
          · exact .inr ⟨b, by simp, hw, rfl⟩
          · exact .inl h
        · exact .inr ⟨c, by simp [hc], hcw⟩

/-- What the endpoint maps hold after `ds`, and that nothing else is in them. -/
structure EndpointsFrom (ds : List EndpointDecl) (p : Policy) : Prop where
  of : EndpointsOf ds p
  exact_from : ∀ k r, p.exactHTTPBindings.get? k = some r → ∃ d ∈ ds, ∃ transport e, CompilesTo transport d e ∧
    ∃ b ∈ e.hosts, b.wildcard = false ∧ b.key transport = k
  registry_from : ∀ k r, p.registryEndpoints.get? k = some r → ∃ d ∈ ds, d.key = k

/-- One of the declarations has an exact binding of the key. -/
def Binds (ds : List EndpointDecl) (k : String) : Prop :=
  ∃ d ∈ ds, ∃ transport e, CompilesTo transport d e ∧ ∃ b ∈ e.hosts, b.wildcard = false ∧ b.key transport = k

section Step
variable {ds : List EndpointDecl} {p : Policy} {d : EndpointDecl} {definition : EndpointDefinition}

section
variable (h : EndpointsFrom ds p)
include h

theorem EndpointsFrom.binds {k : String} {r : Ref} (hk : p.exactHTTPBindings.get? k = some r) :
    Binds (ds ++ [d]) k := by
  obtain ⟨d', hd', rest⟩ := h.exact_from k r hk
  exact ⟨d', by simp [hd'], rest⟩

theorem EndpointsFrom.exact_free (hdef : Registry.endpoint d.kind = some definition)
    (he : compileHTTPEndpointDecl definition d.name d.hosts = .ok e)
    (hapart : ∀ b ∈ ds, BindsApart b d) :
    ∀ b ∈ e.hosts, b.wildcard = false → p.exactHTTPBindings.get? (b.key e.transport) = none := by
  intro b hb hw
  cases hget : p.exactHTTPBindings.get? (b.key e.transport) with
  | none => rfl
  | some r =>
    obtain ⟨d', hd', transport, e', he', b', hb', hw', hkey⟩ := h.exact_from _ _ hget
    -- A key names its transport, so the two bindings are of one transport.
    have ht : transport = e.transport := by
      have := congrArg (fun s => s.toList.takeWhile (· ≠ '|')) hkey
      revert this
      unfold Binding.key hostBindingKey
      cases transport <;> cases e.transport <;> simp [Transport.string]
    subst ht
    have hd : CompilesTo e.transport d e := ⟨definition, hdef, (compileHTTPEndpointDecl_ok he).2.2.1.symm, he⟩
    exact absurd hkey (hapart d' hd' _ _ _ he' hd b' hb' b hb hw' hw)

theorem EndpointsFrom.addHTTPEndpoint_succeeds
    (hdef : Registry.endpoint d.kind = some definition)
    (he : compileHTTPEndpointDecl definition d.name d.hosts = .ok e) (hapart : ∀ b ∈ ds, BindsApart b d) :
    ∃ exact, addHTTPEndpoint p e = .ok { p with exactHTTPBindings := exact } ∧ ∀ k r, exact.get? k = some r →
      Binds (ds ++ [d]) k := by
  obtain ⟨exact, hexact, hsource⟩ :=
    addExactBindings_succeeds (compileHTTPEndpointDecl_nodup he) (h.exact_free hdef he hapart)
  refine ⟨exact, by simp [addHTTPEndpoint, hexact], fun k r hk => ?_⟩
  rcases hsource k r hk with hk | ⟨b, hb, hw, hkey⟩
  · exact h.binds hk
  · exact ⟨d, by simp, _, e, ⟨definition, hdef, (compileHTTPEndpointDecl_ok he).2.2.1.symm, he⟩, b, hb, hw, hkey⟩

/-- The next declaration is added when its name is new and its bindings are. -/
theorem EndpointsFrom.addEndpointDecl_succeeds (hd : EndpointReady d definition)
    (hname : ∀ b ∈ ds, b.name ≠ d.name) (hapart : ∀ b ∈ ds, BindsApart b d) :
    ∃ p', addEndpointDecl p d = .ok p' ∧ EndpointsFrom (ds ++ [d]) p' := by
  have hfresh : p.endpointRefsByName.get? d.name = none := h.of.refs.get?_eq_none hname
  have hkey := h.of.key_new hfresh hd.registered
  -- What is left after the common checks is the schema of the kind.
  suffices hschema : ∃ q, addSchema p d definition = .ok q ∧
      (∀ k r, q.exactHTTPBindings.get? k = some r → Binds (ds ++ [d]) k) ∧
      ∀ k r, q.registryEndpoints.get? k = some r → ∃ d' ∈ ds ++ [d], d'.key = k by
    obtain ⟨q, hq, hexact, hregistry⟩ := hschema
    have hadd : addEndpointDecl p d = .ok { q with
        endpointRefsByName := q.endpointRefsByName.insert d.name d.ref
        endpointDefinitions := q.endpointDefinitions.insert d.ref.string definition } := by
      simp [addEndpointDecl, hd.named, hfresh, hd.registered, hd.descriptor, hq]
    obtain ⟨-, definition', hdef', hstep⟩ := addEndpointDecl_ok hadd
    exact ⟨_, hadd, h.of.step hfresh hdef' hstep, hexact, hregistry⟩
  have holdRegistry : ∀ k r, p.registryEndpoints.get? k = some r → ∃ d' ∈ ds ++ [d], d'.key = k := by
    intro k r hk
    obtain ⟨d', hd', hk'⟩ := h.registry_from k r hk
    exact ⟨d', by simp [hd'], hk'⟩
  unfold addSchema
  cases hs : definition.schema with
  | ip =>
    obtain ⟨e, he⟩ := hd.ip hs
    have hnone : p.ipEndpoints.get? d.ref.string = none := h.of.ip.get?_eq_none hkey
    exact ⟨{ p with ipEndpoints := p.ipEndpoints.insert d.ref.string e }, by simp [addIPSchema, hnone, he],
      fun _ _ => h.binds, holdRegistry⟩
  | hosts =>
    obtain ⟨e, he⟩ := hd.hosts hs
    have ht : definition.transport ≠ .packetFilter := by
      rcases (Registry.endpoint_cases hd.registered).2 with hc | hc | hc | hc <;> simp_all
    have hnone : (httpEndpointsForTransport p definition.transport).get? d.ref.string = none :=
      (h.of.http _ ht).get?_eq_none hkey
    obtain ⟨exact, hadd, hsource⟩ := h.addHTTPEndpoint_succeeds hd.registered he hapart
    refine ⟨putHTTPEndpoint { p with exactHTTPBindings := exact } definition.transport d.ref.string e,
      by simp [addHostsSchema, hnone, he, hadd], ?_, ?_⟩
    · cases definition.transport <;> exact hsource
    · cases definition.transport <;> exact holdRegistry
  | registries =>
    obtain ⟨r, hr⟩ := hd.registries hs
    have hnone : p.registryEndpoints.get? d.ref.string = none := by
      cases hget : p.registryEndpoints.get? d.ref.string with
      | none => rfl
      | some e =>
        obtain ⟨b, hb, hbd⟩ := h.registry_from _ _ hget
        exact absurd hbd (hkey b hb)
    obtain ⟨exact, hadd, hsource⟩ :=
      h.addHTTPEndpoint_succeeds hd.registered (compileRegistryEndpointDecl_ok hr) hapart
    refine ⟨{ p with
        exactHTTPBindings := exact
        packageEndpoints := p.packageEndpoints.insert d.ref.string r.endpoint
        registryEndpoints := p.registryEndpoints.insert d.ref.string r },
      by simp [addRegistriesSchema, hnone, hr, hadd], hsource, fun k r' hk => ?_⟩
    rcases get?_insert_eq_some.1 hk with ⟨rfl, -⟩ | ⟨-, hk⟩
    · exact ⟨d, by simp, rfl⟩
    · exact holdRegistry k r' hk

end

end Step

variable {p : Policy}

theorem endpoints_loop_succeeds {ds : List EndpointDecl} (h0 : EndpointsFrom [] p)
    (hready : ∀ d ∈ ds, ∃ definition, EndpointReady d definition) (hnames : (ds.map EndpointDecl.name).Nodup)
    (hapart : ds.Pairwise BindsApart) : ∃ p', ds.foldlM addEndpointDecl p = .ok p' := by
  obtain ⟨p', hp', -⟩ := foldlM_ok_of_progress addEndpointDecl EndpointsFrom ds (by
    rintro done d rest q rfl hq
    obtain ⟨definition, hd⟩ := hready d (by simp)
    refine hq.addEndpointDecl_succeeds hd (fun b hb => ?_) (fun b hb => ?_)
    · rw [map_append, nodup_append] at hnames
      exact hnames.2.2 _ (mem_map_of_mem hb) _ (by simp)
    · exact (pairwise_append.1 hapart).2.2 b hb d (by simp)) ds [] p rfl h0
  exact ⟨p', hp'⟩

/-! ## Credentials -/

/-- A credential declaration of a known kind, on a declared endpoint that takes credentials. -/
structure CredentialReady (cel : Cel) (endpoints : List EndpointDecl) (d : CredentialDecl) : Prop where
  known : knownCredentialKind d.kind
  named : d.name ≠ ""
  endpoint : ∃ e ∈ endpoints, e.name = d.endpoint ∧
    ∃ definition, Registry.endpoint e.kind = some definition ∧ definition.supportsCredentials
  condition : ∃ c, compileOptionalCondition cel .http d.condition = .ok c

theorem knownCredentialKind_dotless {kind : String} (h : knownCredentialKind kind) : '.' ∉ kind.toList := by
  simp only [knownCredentialKind, mem_cons, not_mem_nil, or_false, decide_eq_true_eq] at h
  rcases h with rfl | rfl | rfl | rfl | rfl | rfl <;> decide

variable {cel : Cel} {es : List EndpointDecl}

theorem addCredentialDecl_succeeds {ds : List CredentialDecl} {d : CredentialDecl} (he : EndpointsOf es p)
    (hc : CredentialsOf cel ds p) (hd : CredentialReady cel es d) (hname : ∀ b ∈ ds, b.name ≠ d.name)
    : ∃ p', addCredentialDecl cel p d = .ok p' := by
  obtain ⟨e, hmem, hen, definition, hdef, hsupports⟩ := hd.endpoint
  obtain ⟨condition, hcondition⟩ := hd.condition
  have href : p.endpointRefsByName.get? d.endpoint = some e.ref := (he.refs _ _).2 ⟨e, hmem, hen, rfl⟩
  have hdefs : p.endpointDefinitions.get? e.ref.string = some definition := (he.definitions _ _).2 ⟨e, hmem, rfl, hdef⟩
  have hfresh : p.credentialRefsByName.get? d.name = none := hc.refs.get?_eq_none hname
  have hfree : p.credentials.get? d.ref.string = none := by
    cases hget : p.credentials.get? d.ref.string with
    | none => rfl
    | some c =>
      obtain ⟨b, hb, hbc⟩ := forall₂_exists_left hc.compiled c (mem_values.2 ⟨_, hget⟩)
      have hbref : b.ref.string = d.ref.string := by
        rw [hc.keyed _ _ hget, Credential.ref, hbc.kind, hbc.name]; rfl
      have := Ref.string_inj (r := b.ref) (s := d.ref) (knownCredentialKind_dotless hbc.known)
        (knownCredentialKind_dotless hd.known) hbref
      exact absurd (congrArg Ref.name this) (hname b hb)
  simp only [addCredentialDecl, bind_eq_ok, pure_eq_ok, require_eq_ok, orFail_eq_ok, mapError_eq_ok]
  exact ⟨_, (), hd.known, (), hd.named, (), hfresh, _, href, _, hdefs, (), hsupports, (), by simp [hfree], _, hcondition, rfl⟩

theorem credentials_loop_succeeds {ds : List CredentialDecl} (he : EndpointsOf es p) (h0 : CredentialsOf cel [] p)
    (hready : ∀ d ∈ ds, CredentialReady cel es d) (hnames : (ds.map CredentialDecl.name).Nodup)
    : ∃ p', ds.foldlM (addCredentialDecl cel) p = .ok p' := by
  obtain ⟨p', hp', -⟩ := foldlM_ok_of_progress (addCredentialDecl cel)
    (fun done q => EndpointsOf es q ∧ CredentialsOf cel done q) ds (by
      rintro done d rest q rfl ⟨hq, hc⟩
      have hnew : ∀ b ∈ done, b.name ≠ d.name := by
        intro b hb
        rw [map_append, nodup_append] at hnames
        exact hnames.2.2 _ (mem_map_of_mem hb) _ (by simp)
      obtain ⟨q', hq'⟩ := addCredentialDecl_succeeds hq hc (hready d (by simp)) hnew
      have hc' := hc.step hq'
      obtain ⟨c, -, -, -, rfl⟩ := addCredentialDecl_ok hq'
      exact ⟨_, hq', { hq with }, hc'⟩) ds [] p rfl ⟨he, h0⟩
  exact ⟨p', hp'⟩

/-! ## Rules -/

/-- A rule declaration whose references are declared and go together. -/
structure RuleReady (cel : Cel) (endpoints : List EndpointDecl) (credentials : List CredentialDecl)
    (node : Option TailscaleDecl) (d : RuleDecl) (family : EndpointFamily) : Prop where
  nonempty : d.endpoints ≠ []
  endpoints : ∀ name ∈ d.endpoints, ∃ e ∈ endpoints, e.name = name ∧
    ∃ definition, Registry.endpoint e.kind = some definition ∧ definition.family = family
  credential : d.credential = "" ∨ (family = .http ∧ ∃ c ∈ credentials, c.name = d.credential ∧ c.endpoint ∈ d.endpoints)
  tunnel : d.tunnel = "" ∨ (family = .ip ∧ d.verdict = "allow" ∧ ∃ n, node = some n ∧ d.tunnel = n.name)
  verdict : ∃ action, Action.ofString d.verdict = some action
  condition : ∃ c, compileOptionalCondition cel family d.condition = .ok c

theorem resolveEndpoints_succeeds (he : EndpointsOf es p) (rule : String) {names : List String}
    (h : ∀ name ∈ names, ∃ e ∈ es, e.name = name) : ∃ refs, resolveEndpoints p rule names = .ok refs := by
  induction names with
  | nil => exact ⟨[], rfl⟩
  | cons name names ih =>
    obtain ⟨e, hmem, hen⟩ := h name (by simp)
    obtain ⟨refs, hrefs⟩ := ih (fun n hn => h n (by simp [hn]))
    refine ⟨e.ref :: refs, ?_⟩
    simp only [resolveEndpoints, bind_eq_ok, pure_eq_ok, orFail_eq_ok]
    exact ⟨e.ref, (he.refs _ _).2 ⟨e, hmem, hen, rfl⟩, refs, hrefs, rfl⟩

variable {family : EndpointFamily}

theorem requireFamily_succeeds (rule : String) {refs : List Ref}
    (h : ∀ ref ∈ refs, ∃ definition, p.endpointDefinitions.get? ref.string = some definition ∧
      definition.family = family) : requireFamily p rule family refs = .ok () := by
  induction refs with
  | nil => rfl
  | cons ref refs ih =>
    obtain ⟨definition, hdef, hfam⟩ := h ref (by simp)
    simp only [requireFamily, bind_eq_ok, orFail_eq_ok, require_eq_ok]
    exact ⟨definition, hdef, (), hfam, ih (fun r hr => h r (by simp [hr]))⟩

theorem validateEndpointFamily_succeeds (rule : String) {refs : List Ref} (hne : refs ≠ [])
    (h : ∀ ref ∈ refs, ∃ definition, p.endpointDefinitions.get? ref.string = some definition ∧
      definition.family = family) : validateEndpointFamily p rule refs = .ok family := by
  cases refs with
  | nil => exact absurd rfl hne
  | cons ref refs =>
    obtain ⟨definition, hdef, rfl⟩ := h ref (by simp)
    simp only [validateEndpointFamily, bind_eq_ok, orFail_eq_ok, pure_eq_ok]
    exact ⟨definition, hdef, (), requireFamily_succeeds rule (fun r hr => h r (by simp [hr])), rfl⟩

/-- Only condition-capable families get this far with a condition. -/
theorem compileOptionalCondition_family {source : String} {c : Option HttpCondition}
    (h : compileOptionalCondition cel family source = .ok c) : (Registry.family family).condition ≠ .none ∨ c = none := by
  cases family with
  | http => exact .inl (by simp [Registry.family])
  | package => exact .inl (by simp [Registry.family])
  | ip =>
    right
    unfold compileOptionalCondition at h
    split at h
    · exact (Except.ok.inj h).symm
    · unfold compileCondition at h
      split at h
      · cases h
      · simp [Registry.family, Except.map] at h

theorem compileRule_succeeds {cs : List CredentialDecl} {d : RuleDecl} (he : EndpointsOf es p)
    (hc : CredentialsOf cel cs p) (hcs : ∀ c ∈ cs, CredentialReady cel es c)
    (hd : RuleReady cel es cs p.tailscale d family) (i : Nat) : ∃ r, compileRule cel p d i = .ok r := by
  obtain ⟨refs, hrefs⟩ := resolveEndpoints_succeeds he d.name
    (fun name hname => let ⟨e, hmem, hen, _⟩ := hd.endpoints name hname; ⟨e, hmem, hen⟩)
  have hresolved := resolveEndpoints_ok hrefs
  have hfamilies : ∀ ref ∈ refs, ∃ definition, p.endpointDefinitions.get? ref.string = some definition ∧
      definition.family = family := by
    intro ref href
    obtain ⟨name, hname, hget⟩ := forall₂_exists_left hresolved ref href
    obtain ⟨e, hmem, hen, definition, hdef, hfam⟩ := hd.endpoints name hname
    rw [(he.refs name e.ref).2 ⟨e, hmem, hen, rfl⟩] at hget
    cases hget
    exact ⟨definition, (he.definitions _ _).2 ⟨e, hmem, rfl, hdef⟩, hfam⟩
  have hne : refs ≠ [] := by
    rintro rfl
    exact hd.nonempty (forall₂_nil_right_iff.1 hresolved)
  have hfamily := validateEndpointFamily_succeeds d.name hne hfamilies
  obtain ⟨verdict, hverdict⟩ := hd.verdict
  obtain ⟨condition, hcondition⟩ := hd.condition
  have htunnel : ∃ tunnel, resolveTunnel p d family = .ok tunnel := by
    rcases hd.tunnel with h | ⟨rfl, hallow, node, hnode, hname⟩
    · exact ⟨none, by simp [resolveTunnel, h]⟩
    · by_cases h : d.tunnel = ""
      · exact ⟨none, by simp [resolveTunnel, h]⟩
      · refine ⟨some ⟨"tailscale", node.name⟩, ?_⟩
        rw [resolveTunnel, if_neg h, hnode]
        simp [hname, hallow]
  obtain ⟨tunnel, htunnel⟩ := htunnel
  -- The credential, and what is checked about it once the rule stands.
  have hcredential : ∃ credential, resolveCredential p d.name d.credential = .ok credential ∧
      ∀ rule : Rule, rule.credential = credential → rule.family = family → rule.endpoints = refs →
        validateRuleCredential p rule = .ok () := by
    by_cases hempty : d.credential = ""
    · refine ⟨none, by simp [resolveCredential, hempty], fun rule hrule _ _ => ?_⟩
      simp [validateRuleCredential, hrule]
    obtain ⟨hhttp, c, hmem, hcn, hce⟩ := hd.credential.resolve_left hempty
    have hget : p.credentialRefsByName.get? d.credential = some c.ref := (hc.refs _ _).2 ⟨c, hmem, hcn, rfl⟩
    refine ⟨some c.ref, ?_, fun rule hrule hfam hends => ?_⟩
    · rw [resolveCredential, if_neg hempty, hget]
      rfl
    obtain ⟨compiled, hcompiled, hof⟩ := forall₂_exists_right hc.compiled c hmem
    obtain ⟨k, hk⟩ := mem_values.1 hcompiled
    have hkey : k = c.ref.string := by
      rw [hc.keyed k compiled hk, Credential.ref, hof.kind, hof.name]; rfl
    obtain ⟨e, he', hen, definition, hdef, hsupports⟩ := (hcs c hmem).endpoint
    have hread := (he.refs c.endpoint e.ref).2 ⟨e, he', hen, rfl⟩
    have hendpoint : compiled.endpoint = e.ref := Option.some.inj (hof.endpoint.symm.trans hread)
    obtain ⟨ref, href, hrefget⟩ := forall₂_exists_right hresolved c.endpoint hce
    have hrefe : ref = e.ref := Option.some.inj (hrefget.symm.trans hread)
    simp only [validateRuleCredential, hrule, bind_eq_ok, orFail_eq_ok, require_eq_ok]
    refine ⟨compiled, hkey ▸ hk, (), hfam.trans hhttp, definition, ?_, (), hsupports, ?_⟩
    · rw [hendpoint]
      exact (he.definitions _ _).2 ⟨e, he', rfl, hdef⟩
    · rw [hendpoint, hends, ← hrefe]
      exact href
  obtain ⟨credential, hresolve, hvalidate⟩ := hcredential
  simp only [compileRule, bind_eq_ok, pure_eq_ok, orFail_eq_ok, require_eq_ok, mapError_eq_ok]
  exact ⟨_, refs, hrefs, family, hfamily, credential, hresolve, tunnel, htunnel, verdict, hverdict, condition, hcondition,
    (), hvalidate _ rfl rfl rfl, (), compileOptionalCondition_family hcondition, rfl⟩

/-! ## Documents -/

/-- A declaration that was added had passed the checks of its own fields. -/
theorem ready_of_addEndpointDecl {p p' : Policy} {d : EndpointDecl} (h : addEndpointDecl p d = .ok p') :
    ∃ definition, EndpointReady d definition := by
  unfold addEndpointDecl at h
  split at h
  · cases h
  rename_i hname
  split at h
  · cases h
  split at h
  · cases h
  rename_i definition hdef
  split at h
  · cases h
  rename_i hdescriptor
  split at h
  · cases h
  rename_i q hq
  unfold addSchema at hq
  refine ⟨definition, hname, hdef, hdescriptor, fun hs => ?_, fun hs => ?_, fun hs => ?_⟩
  · rw [hs] at hq
    obtain ⟨e, he, -⟩ := addIPSchema_ok hq
    exact ⟨e, he⟩
  · rw [hs] at hq
    obtain ⟨e, -, he, -⟩ := addHostsSchema_ok hq
    exact ⟨e, he⟩
  · rw [hs] at hq
    simp only [addRegistriesSchema] at hq
    split at hq
    · cases hq
    split at hq
    · cases hq
    rename_i r hr
    exact ⟨r, hr⟩

/-- What a document that compiles had to pass, besides what the compiled policy shows. -/
theorem checks_of_ok {document : NetworkPolicyFile} {filename : String} {p : Policy}
    (h : compileNetworkPolicy cel filename document = .ok p) :
    (∀ d ∈ document.endpoints, ∃ definition, EndpointReady d definition) ∧
      ∃ node forwards, compileTailscale document.tailscale = .ok node ∧
        compileForwards node document.forwards = .ok forwards := by
  simp only [compileNetworkPolicy, bind_eq_ok, pure_eq_ok, mapError_eq_ok] at h
  obtain ⟨-, -, _, -, node, hnode, forwards, hforwards, p1, h1, -⟩ := h
  refine ⟨foldlM_ok_forall (fun q d q' hstep => ?_) h1, node, forwards, hnode, hforwards⟩
  exact ready_of_addEndpointDecl hstep

structure DocumentReady (cel : Cel) (document : NetworkPolicyFile) : Prop where
  version : document.version = 1
  defaultAction : ∃ action, compileDefaultAction document.settings = .ok action
  endpoints : ∀ d ∈ document.endpoints, ∃ definition, EndpointReady d definition
  endpointNames : (document.endpoints.map EndpointDecl.name).Nodup
  apart : document.endpoints.Pairwise BindsApart
  credentials : ∀ d ∈ document.credentials, CredentialReady cel document.endpoints d
  credentialNames : (document.credentials.map CredentialDecl.name).Nodup
  node : ∃ node, compileTailscale document.tailscale = .ok node ∧
    (∃ forwards, compileForwards node document.forwards = .ok forwards) ∧
    ∀ d ∈ document.rules, ∃ family, RuleReady cel document.endpoints document.credentials node d family

theorem compiles_of_ready {document : NetworkPolicyFile} (filename : String)
    (h : DocumentReady cel document) : ∃ p, compileNetworkPolicy cel filename document = .ok p := by
  obtain ⟨action, haction⟩ := h.defaultAction
  obtain ⟨node, hnode, ⟨forwards, hforwards⟩, hrules⟩ := h.node
  let start : Policy := { newPolicy with
    metadata := document.metadata, defaultAction := action, tailscale := node, forwards
    diagnostics := auditDiagnostics filename document.settings.audit }
  have hstart : EndpointsOf [] start := EndpointsOf.nil rfl rfl rfl (by intro t; cases t <;> rfl)
  have hfrom : EndpointsFrom [] start := by
    refine ⟨hstart, ?_, ?_⟩
    · intro k r hk; cases hk
    · intro k r hk; cases hk
  obtain ⟨p1, h1⟩ := endpoints_loop_succeeds hfrom h.endpoints h.endpointNames h.apart
  obtain ⟨he1, ht1, -, hc1, hn1, hb1, hr1⟩ := endpoints_loop hstart h1
  have hc0 : CredentialsOf cel [] p1 := .nil hc1 hn1 hb1
  obtain ⟨p2, h2⟩ := credentials_loop_succeeds he1 hc0 h.credentials h.credentialNames
  obtain ⟨he2, hc2, ht2, -, hr2⟩ := credentials_loop he1 hc0 h2
  -- Rules are filed under `rulesByFamily` only, which compiling a rule does not read.
  obtain ⟨p3, h3, -⟩ := foldlM_ok_of_progress (fun q (d : RuleDecl × Nat) => addRuleDecl cel q d.1 d.2)
    (fun _ q => ∃ rules, q = { p2 with rulesByFamily := rules }) document.rules.zipIdx (by
      rintro done ⟨d, i⟩ rest q hitems ⟨rules, rfl⟩
      obtain ⟨family, hd⟩ := hrules d (by
        have hmem : (d, i) ∈ document.rules.zipIdx := hitems ▸ by simp
        exact (mem_zipIdx hmem).2.2 ▸ getElem_mem _)
      have htail : p2.tailscale = node := ht2.trans ht1
      obtain ⟨rule, hrule⟩ := compileRule_succeeds he2 hc2 h.credentials (htail ▸ hd) i
      refine ⟨fileRule { p2 with rulesByFamily := rules } rule, ?_, ?_⟩
      · simp only [addRuleDecl, bind_eq_ok, pure_eq_ok, compileRule_rulesByFamily]
        exact ⟨rule, hrule, rfl⟩
      · unfold fileRule
        split
        · exact ⟨rules, rfl⟩
        · exact ⟨_, rfl⟩) document.rules.zipIdx [] p2 rfl ⟨p2.rulesByFamily, rfl⟩
  refine ⟨sortRules p3, ?_⟩
  simp only [compileNetworkPolicy, bind_eq_ok, pure_eq_ok, mapError_eq_ok, require_eq_ok]
  exact ⟨(), h.version, action, haction, node, hnode, forwards, hforwards, p1, h1, p2, h2, p3, h3, rfl⟩

end Silo.Netd
