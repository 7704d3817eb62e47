import Silo.Netd.Load
/-!
# What a compiled policy holds

`compileNetworkPolicy` read back: which declarations the maps of an accepted policy
hold, as one invariant of each of its loops.
-/

namespace Silo.Netd

open Go Lib List AssocMap Registry

/-! ## Endpoints -/

def EndpointDecl.key (d : EndpointDecl) : String := d.ref.string

/-- The compiled HTTP endpoint of a declaration whose kind uses the transport. -/
def CompilesTo (transport : Transport) (d : EndpointDecl) (e : HTTPEndpoint) : Prop :=
  ∃ definition, Registry.endpoint d.kind = some definition ∧ definition.transport = transport ∧
    compileHTTPEndpointDecl definition d.name d.hosts = .ok e

theorem compilesTo_iff {definition : EndpointDefinition} {transport : Transport} {d : EndpointDecl} {e : HTTPEndpoint}
    (hdef : endpoint d.kind = some definition) : CompilesTo transport d e ↔
      definition.transport = transport ∧ compileHTTPEndpointDecl definition d.name d.hosts = .ok e := by
  simp [CompilesTo, hdef]

structure EndpointsOf (ds : List EndpointDecl) (p : Policy) : Prop where
  names_nodup : (ds.map EndpointDecl.name).Nodup
  registered : ∀ d ∈ ds, ∃ definition, Registry.endpoint d.kind = some definition
  compiles : ∀ d ∈ ds, (d.kind = "ip" ∧ ∃ e, compileIPEndpoint d = .ok e) ∨
    ∃ transport, transport ≠ .packetFilter ∧ ∃ e, CompilesTo transport d e
  refs : p.endpointRefsByName.Describes EndpointDecl.name (fun d r => r = d.ref) ds
  definitions : p.endpointDefinitions.Describes EndpointDecl.key
    (fun d definition => Registry.endpoint d.kind = some definition) ds
  ip : p.ipEndpoints.Describes EndpointDecl.key (fun d e => d.kind = "ip" ∧ compileIPEndpoint d = .ok e) ds
  http : ∀ transport, transport ≠ .packetFilter →
    (httpEndpointsForTransport p transport).Describes EndpointDecl.key (CompilesTo transport) ds
  exact : ∀ transport k e, (httpEndpointsForTransport p transport).get? k = some e →
    ∀ b ∈ e.hosts, b.wildcard = false →
      p.exactHTTPBindings.get? (hostBindingKey transport b.host b.port false) = some e.ref

inductive EndpointStep (p : Policy) (d : EndpointDecl) (definition : EndpointDefinition) (p' : Policy) : Prop where
  | ip (e : IPEndpoint) (hkind : d.kind = "ip") (hcompile : compileIPEndpoint d = .ok e)
      (hp : p' = { p with
        ipEndpoints := p.ipEndpoints.insert d.key e
        endpointRefsByName := p.endpointRefsByName.insert d.name d.ref
        endpointDefinitions := p.endpointDefinitions.insert d.key definition })
  | http (e : HTTPEndpoint) (exact : AssocMap String Ref) (registry : AssocMap String RegistryEndpoint)
      (hkind : definition.transport ≠ .packetFilter)
      (hcompile : compileHTTPEndpointDecl definition d.name d.hosts = .ok e)
      (hexact : addExactBindings e e.hosts p.exactHTTPBindings = .ok exact)
      (hp : p' = { putHTTPEndpoint p definition.transport d.key e with
        exactHTTPBindings := exact
        registryEndpoints := registry
        endpointRefsByName := p.endpointRefsByName.insert d.name d.ref
        endpointDefinitions := p.endpointDefinitions.insert d.key definition })

variable {definition : EndpointDefinition} {d : EndpointDecl} {p p' : Policy} {e : HTTPEndpoint}
  {ds : List EndpointDecl} {cel : Cel}

theorem compileRegistryEndpointDecl_ok {r : RegistryEndpoint} (h : compileRegistryEndpointDecl definition d = .ok r) :
    compileHTTPEndpointDecl definition d.name d.hosts = .ok r.endpoint := by
  simp only [compileRegistryEndpointDecl, bind_eq_ok, pure_eq_ok] at h
  obtain ⟨-, -, -, -, -, -, -, -, -, -, -, -, -, -, -, -, -, -, e, he, rfl⟩ := h
  exact he

theorem addHTTPEndpoint_ok (h : addHTTPEndpoint p e = .ok p') :
    ∃ exact, addExactBindings e e.hosts p.exactHTTPBindings = .ok exact ∧
      p' = { p with exactHTTPBindings := exact } := by
  unfold addHTTPEndpoint at h
  split at h
  · cases h
  · rename_i exact hexact
    cases h
    exact ⟨exact, hexact, rfl⟩

theorem addIPSchema_ok (h : addIPSchema p d = .ok p') :
    ∃ e, compileIPEndpoint d = .ok e ∧ p' = { p with ipEndpoints := p.ipEndpoints.insert d.key e } := by
  simp only [addIPSchema] at h
  split at h
  · cases h
  split at h
  · cases h
  rename_i e he
  cases h
  exact ⟨e, he, rfl⟩

theorem addHostsSchema_ok (h : addHostsSchema p d definition = .ok p') :
    ∃ e exact, compileHTTPEndpointDecl definition d.name d.hosts = .ok e ∧
      addExactBindings e e.hosts p.exactHTTPBindings = .ok exact ∧
      p' = { putHTTPEndpoint p definition.transport d.key e with exactHTTPBindings := exact } := by
  simp only [addHostsSchema] at h
  split at h
  · cases h
  split at h
  · cases h
  rename_i e he
  split at h
  · cases h
  rename_i q hq
  cases h
  obtain ⟨exact, hexact, rfl⟩ := addHTTPEndpoint_ok hq
  refine ⟨e, exact, he, hexact, ?_⟩
  cases definition.transport <;> rfl

theorem addRegistriesSchema_ok (h : addRegistriesSchema p d definition = .ok p') :
    ∃ e exact registry, compileHTTPEndpointDecl definition d.name d.hosts = .ok e ∧
      addExactBindings e e.hosts p.exactHTTPBindings = .ok exact ∧
      p' = { putHTTPEndpoint p .tlsTerminate d.key e with
        exactHTTPBindings := exact, registryEndpoints := registry } := by
  simp only [addRegistriesSchema] at h
  split at h
  · cases h
  split at h
  · cases h
  rename_i r hr
  split at h
  · cases h
  rename_i q hq
  cases h
  obtain ⟨exact, hexact, rfl⟩ := addHTTPEndpoint_ok hq
  exact ⟨r.endpoint, exact, _, compileRegistryEndpointDecl_ok hr, hexact, rfl⟩

theorem addEndpointDecl_ok (h : addEndpointDecl p d = .ok p') :
    p.endpointRefsByName.get? d.name = none ∧
      ∃ definition, endpoint d.kind = some definition ∧ EndpointStep p d definition p' := by
  unfold addEndpointDecl at h
  split at h
  · cases h
  split at h
  · cases h
  rename_i hname
  split at h
  · cases h
  rename_i definition hdef
  split at h
  · cases h
  split at h
  · cases h
  rename_i q hq
  cases h
  refine ⟨by simpa using hname, definition, hdef, ?_⟩
  obtain ⟨-, hcases⟩ := endpoint_cases hdef
  unfold addSchema at hq
  cases hs : definition.schema with
  | ip =>
    rw [hs] at hq
    have hk : d.kind = "ip" := by rcases hcases with h | h | h | h <;> simp_all
    obtain ⟨e, he, rfl⟩ := addIPSchema_ok hq
    exact .ip e hk he rfl
  | hosts =>
    rw [hs] at hq
    have ht : definition.transport ≠ .packetFilter := by
      rcases hcases with h | h | h | h <;> simp_all
    obtain ⟨e, exact, he, hexact, rfl⟩ := addHostsSchema_ok hq
    exact .http e exact p.registryEndpoints ht he hexact (by cases definition.transport <;> rfl)
  | registries =>
    rw [hs] at hq
    have ht : definition.transport = .tlsTerminate := by
      rcases hcases with h | h | h | h <;> simp_all
    obtain ⟨e, exact, registry, he, hexact, rfl⟩ := addRegistriesSchema_ok hq
    exact .http e exact registry (by simp [ht]) he hexact (by rw [ht]; rfl)

/-- Exact bindings are only ever added, each under a key that was free. -/
theorem addExactBindings_ok {bs : List Binding} {m m' : AssocMap String Ref} (h : addExactBindings e bs m = .ok m') :
    (∀ k r, m.get? k = some r → m'.get? k = some r) ∧
      ∀ b ∈ bs, b.wildcard = false → m'.get? (hostBindingKey e.transport b.host b.port false) = some e.ref := by
  induction bs generalizing m with
  | nil =>
    cases h
    exact ⟨fun _ _ h => h, by simp⟩
  | cons b bs ih =>
    unfold addExactBindings at h
    split at h
    · rename_i hw
      obtain ⟨hkeep, hnew⟩ := ih h
      refine ⟨hkeep, forall_mem_cons.2 ⟨fun hcw => ?_, hnew⟩⟩
      rw [hw] at hcw
      cases hcw
    · simp only at h
      split at h
      · cases h
      rename_i hfree
      obtain ⟨hkeep, hnew⟩ := ih h
      refine ⟨fun k r hk => hkeep k r ?_, forall_mem_cons.2 ⟨fun _ => hkeep _ _ ?_, hnew⟩⟩
      · rw [get?_insert, if_neg, hk]
        rintro rfl
        rw [hfree] at hk
        cases hk
      · rw [get?_insert, if_pos rfl]

theorem compileHTTPEndpointDecl_ok {name : String} {hosts : List String}
    (h : compileHTTPEndpointDecl definition name hosts = .ok e) :
    e.kind = definition.kind ∧ e.name = name ∧ e.transport = definition.transport ∧
      compileHosts definition hosts [] = .ok e.hosts := by
  unfold compileHTTPEndpointDecl at h
  split at h
  · cases h
  split at h
  · cases h
  rename_i bindings hb
  cases h
  exact ⟨rfl, rfl, rfl, hb⟩

theorem mem_compileHosts {hosts : List String} {bindings bs : List Binding}
    (h : compileHosts definition hosts bindings = .ok bs) {b : Binding} (hb : b ∈ bs) :
    b ∈ bindings ∨ ∃ host ∈ hosts, parseBinding host definition.defaultPort = .ok b := by
  induction hosts generalizing bindings with
  | nil =>
    cases h
    exact .inl hb
  | cons host hosts ih =>
    unfold compileHosts at h
    split at h
    · cases h
    rename_i parsed hparsed
    split at h
    · rcases ih h with h | ⟨host', hmem, hp⟩
      · exact .inl h
      · exact .inr ⟨host', by simp [hmem], hp⟩
    · rcases ih h with h | ⟨host', hmem, hp⟩
      · rcases mem_append.1 h with h | h
        · exact .inl h
        · exact .inr ⟨host, by simp, mem_singleton.1 h ▸ hparsed⟩
      · exact .inr ⟨host', by simp [hmem], hp⟩

/-- Every host is a binding, and its key is among those that are kept. -/
theorem compileHosts_ok {hosts : List String} {bindings bs : List Binding}
    (h : compileHosts definition hosts bindings = .ok bs) :
    (∀ b ∈ bindings, b ∈ bs) ∧ ∀ host ∈ hosts, ∃ b, parseBinding host definition.defaultPort = .ok b ∧
      ∃ kept ∈ bs, kept.key definition.transport = b.key definition.transport := by
  induction hosts generalizing bindings with
  | nil =>
    cases h
    exact ⟨fun _ hb => hb, by simp⟩
  | cons host hosts ih =>
    unfold compileHosts at h
    split at h
    · cases h
    rename_i b hb
    split at h
    · rename_i hseen
      obtain ⟨hkeep, hrest⟩ := ih h
      obtain ⟨kept, hkept, hkey⟩ := any_eq_true.1 hseen
      exact ⟨hkeep, forall_mem_cons.2 ⟨⟨b, hb, kept, hkeep kept hkept, of_decide_eq_true hkey⟩, hrest⟩⟩
    · obtain ⟨hkeep, hrest⟩ := ih h
      exact ⟨fun c hc => hkeep c (mem_append_left _ hc),
        forall_mem_cons.2 ⟨⟨b, hb, b, hkeep b (by simp), rfl⟩, hrest⟩⟩

theorem EndpointsOf.nil (hr : p.endpointRefsByName = .empty) (hd : p.endpointDefinitions = .empty)
    (hi : p.ipEndpoints = .empty) (hh : ∀ t, httpEndpointsForTransport p t = .empty) : EndpointsOf [] p where
  names_nodup := by simp
  registered := by simp
  compiles := by simp
  refs := hr ▸ .nil
  definitions := hd ▸ .nil
  ip := hi ▸ .nil
  http t _ := hh t ▸ .nil
  exact t k e h := by rw [hh t] at h; cases h

section Step
variable {ds : List EndpointDecl} {p p' : Policy} {d : EndpointDecl} {definition : EndpointDefinition}

theorem EndpointsOf.name_new (h : EndpointsOf ds p) (hname : p.endpointRefsByName.get? d.name = none) :
    ∀ b ∈ ds, b.name ≠ d.name := by
  intro b hb hbd
  have := (h.refs d.name b.ref).2 ⟨b, hb, hbd, rfl⟩
  rw [hname] at this
  cases this

theorem EndpointsOf.key_new (h : EndpointsOf ds p) (hname : p.endpointRefsByName.get? d.name = none)
    (hdef : endpoint d.kind = some definition) : ∀ b ∈ ds, b.key ≠ d.key := by
  intro b hb hbd
  obtain ⟨bdef, hbdef⟩ := h.registered b hb
  have := Ref.string_inj (r := b.ref) (s := d.ref) (kind_dotless hbdef) (kind_dotless hdef) hbd
  exact h.name_new hname b hb (congrArg Ref.name this)

@[simp] theorem httpEndpointsForTransport_put (p : Policy) (t t' : Transport) (k : String) (e : HTTPEndpoint) :
    httpEndpointsForTransport (putHTTPEndpoint p t k e) t' =
      if t' = t ∧ t ≠ .packetFilter then (httpEndpointsForTransport p t).insert k e
      else httpEndpointsForTransport p t' := by
  cases t <;> cases t' <;> rfl

theorem EndpointsOf.step (h : EndpointsOf ds p) (hname : p.endpointRefsByName.get? d.name = none)
    (hdef : endpoint d.kind = some definition) (hstep : EndpointStep p d definition p') :
    EndpointsOf (ds ++ [d]) p' := by
  have hnodup := nodup_map_concat h.names_nodup (h.name_new hname)
  have hall (P : EndpointDecl → Prop) (hP : ∀ b ∈ ds, P b) (hd : P d) : ∀ b ∈ ds ++ [d], P b :=
    forall_mem_append.2 ⟨hP, forall_mem_singleton.2 hd⟩
  have hrefs := h.refs.insert (h.name_new hname) (v := d.ref) (fun w => .rfl)
  have hdefs := h.definitions.insert (h.key_new hname hdef) (v := definition)
    (fun w => by rw [hdef]; simp [eq_comm])
  cases hstep with
  | ip e hkind hcompile hp =>
    subst hp
    have hdoc : definition.transport = .packetFilter := by
      rcases (endpoint_cases hdef).2 with hc | hc | hc | hc <;> simp_all
    refine ⟨hnodup, hall _ h.registered ⟨definition, hdef⟩, hall _ h.compiles (.inl ⟨hkind, e, hcompile⟩), hrefs,
      hdefs, ?_, fun t ht => ?_, h.exact⟩
    · exact h.ip.insert (h.key_new hname hdef) (fun w => by simp [hkind, hcompile, eq_comm])
    · exact (h.http t ht).skip fun w hw => ht (((compilesTo_iff hdef).1 hw).1.symm.trans hdoc)
  | http e exact registry hkind hcompile hexact hp =>
    subst hp
    obtain ⟨hkeep, hnew⟩ := addExactBindings_ok hexact
    have het : e.transport = definition.transport := (compileHTTPEndpointDecl_ok hcompile).2.2.1
    have hmaps : ∀ t, httpEndpointsForTransport
        { putHTTPEndpoint p definition.transport d.key e with
          exactHTTPBindings := exact
          registryEndpoints := registry
          endpointRefsByName := p.endpointRefsByName.insert d.name d.ref
          endpointDefinitions := p.endpointDefinitions.insert d.key definition } t =
        httpEndpointsForTransport (putHTTPEndpoint p definition.transport d.key e) t := by
      intro t
      cases t <;> rfl
    have hother : (putHTTPEndpoint p definition.transport d.key e).ipEndpoints = p.ipEndpoints := by
      cases definition.transport <;> rfl
    refine ⟨hnodup, hall _ h.registered ⟨definition, hdef⟩,
      hall _ h.compiles (.inr ⟨definition.transport, hkind, e, definition, hdef, rfl, hcompile⟩), hrefs, hdefs, ?_,
      fun t ht => ?_, fun t k e' hk b hb hbw => ?_⟩
    · show (putHTTPEndpoint p definition.transport d.key e).ipEndpoints.Describes _ _ _
      rw [hother]
      refine h.ip.skip ?_
      rintro w ⟨hip, -⟩
      rcases (endpoint_cases hdef).2 with hc | hc | hc | hc <;> simp_all
    · rw [hmaps, httpEndpointsForTransport_put]
      by_cases htd : t = definition.transport
      · subst htd
        rw [if_pos ⟨rfl, ht⟩]
        refine (h.http _ ht).insert (h.key_new hname hdef) (fun w => ?_)
        rw [compilesTo_iff hdef, hcompile]
        simp [eq_comm]
      · rw [if_neg (by simp [htd])]
        exact (h.http t ht).skip fun w hw => htd ((compilesTo_iff hdef).1 hw).1.symm
    · rw [hmaps, httpEndpointsForTransport_put] at hk
      show exact.get? _ = _
      split at hk
      · rename_i htd
        obtain ⟨rfl, -⟩ := htd
        rcases get?_insert_eq_some.1 hk with ⟨-, rfl⟩ | ⟨-, hk⟩
        · exact het ▸ hnew b hb hbw
        · exact hkeep _ _ (h.exact _ k e' hk b hb hbw)
      · exact hkeep _ _ (h.exact t k e' hk b hb hbw)

end Step

theorem EndpointsOf.eq_of_name (h : EndpointsOf ds p) {d' : EndpointDecl} (hd : d ∈ ds) (hd' : d' ∈ ds)
    (hname : d.name = d'.name) : d = d' :=
  inj_on_of_nodup_map h.names_nodup hd hd' hname

theorem EndpointsOf.eq_of_key (h : EndpointsOf ds p) {d' : EndpointDecl} (hd : d ∈ ds) (hd' : d' ∈ ds)
    (hkey : d.key = d'.key) : d = d' := by
  obtain ⟨_, hdef⟩ := h.registered d hd
  obtain ⟨_, hdef'⟩ := h.registered d' hd'
  have := Ref.string_inj (r := d.ref) (s := d'.ref) (kind_dotless hdef) (kind_dotless hdef') hkey
  exact h.eq_of_name hd hd' (congrArg Ref.name this)

/-- An exact binding of a transport belongs to one declaration. -/
theorem EndpointsOf.eq_of_binding (h : EndpointsOf ds p) {d' : EndpointDecl} (hd : d ∈ ds) (hd' : d' ∈ ds)
    {transport : Transport} (ht : transport ≠ .packetFilter) {e e' : HTTPEndpoint} (he : CompilesTo transport d e)
    (he' : CompilesTo transport d' e') {b b' : Binding} (hb : b ∈ e.hosts) (hb' : b' ∈ e'.hosts)
    (hw : b.wildcard = false) (hw' : b'.wildcard = false) (hkey : b.key transport = b'.key transport) : d = d' := by
  have howner := h.exact transport d.key e ((h.http transport ht _ _).2 ⟨d, hd, rfl, he⟩) b hb hw
  have howner' := h.exact transport d'.key e' ((h.http transport ht _ _).2 ⟨d', hd', rfl, he'⟩) b' hb' hw'
  rw [Binding.key, Binding.key, hw, hw'] at hkey
  rw [hkey, howner'] at howner
  obtain ⟨_, -, -, hcompile⟩ := he
  obtain ⟨_, -, -, hcompile'⟩ := he'
  refine h.eq_of_name hd hd' ?_
  rw [← (compileHTTPEndpointDecl_ok hcompile).2.1, ← (compileHTTPEndpointDecl_ok hcompile').2.1]
  exact (congrArg Ref.name (Option.some.inj howner)).symm

def SameOutsideEndpoints (p q : Policy) : Prop :=
  q.tailscale = p.tailscale ∧ q.defaultAction = p.defaultAction ∧ q.credentials = p.credentials ∧
    q.credentialRefsByName = p.credentialRefsByName ∧ q.credentialsByEndpoint = p.credentialsByEndpoint ∧
    q.rulesByFamily = p.rulesByFamily

theorem EndpointStep.same (h : EndpointStep p d definition p') : SameOutsideEndpoints p p' := by
  cases h with
  | ip e _ _ hp => subst hp; exact ⟨rfl, rfl, rfl, rfl, rfl, rfl⟩
  | http e _ _ _ _ _ hp =>
    subst hp
    cases definition.transport <;> exact ⟨rfl, rfl, rfl, rfl, rfl, rfl⟩

theorem endpoints_loop (h0 : EndpointsOf [] p) (h : ds.foldlM addEndpointDecl p = .ok p')
    : EndpointsOf ds p' ∧ SameOutsideEndpoints p p' := by
  refine foldlM_ok_invariant addEndpointDecl (fun done q => EndpointsOf done q ∧ SameOutsideEndpoints p q)
    ?_ ds [] p p' ⟨h0, rfl, rfl, rfl, rfl, rfl, rfl⟩ h
  rintro done q d q' ⟨hq, hsame⟩ hstep
  obtain ⟨hname, definition, hdef, hstep⟩ := addEndpointDecl_ok hstep
  refine ⟨hq.step hname hdef hstep, ?_⟩
  obtain ⟨a1, a2, a3, a4, a5, a6⟩ := hstep.same
  obtain ⟨b1, b2, b3, b4, b5, b6⟩ := hsame
  exact ⟨a1.trans b1, a2.trans b2, a3.trans b3, a4.trans b4, a5.trans b5, a6.trans b6⟩

/-! ## Credentials -/

/-- The compiled form of a credential declaration, its endpoint looked up in `refs`. -/
structure CredentialOf (cel : Cel) (refs : AssocMap String Ref) (d : CredentialDecl) (c : Credential) : Prop where
  kind : c.kind = d.kind
  name : c.name = d.name
  endpoint : refs.get? d.endpoint = some c.endpoint
  condition : compileOptionalCondition cel .http d.condition = .ok c.condition
  known : knownCredentialKind d.kind

structure CredentialsOf (cel : Cel) (ds : List CredentialDecl) (p : Policy) : Prop where
  compiled : List.Forall₂ (CredentialOf cel p.endpointRefsByName) ds p.credentials.values
  keyed : ∀ k c, p.credentials.get? k = some c → k = c.ref.string
  refs : p.credentialRefsByName.Describes CredentialDecl.name (fun d r => r = d.ref) ds
  byEndpoint : ∀ key, (p.credentialsByEndpoint.get? key).getD [] =
    p.credentials.values.filter (fun c => c.endpoint.string = key)

theorem CredentialsOf.nil (hc : p.credentials = .empty) (hn : p.credentialRefsByName = .empty)
    (hb : p.credentialsByEndpoint = .empty) : CredentialsOf cel [] p := by
  refine ⟨?_, ?_, ?_, ?_⟩
  · rw [hc]; exact .nil
  · intro k c hk; rw [hc] at hk; cases hk
  · rw [hn]; exact .nil
  · intro key; rw [hb, hc]; rfl

theorem addCredentialDecl_ok {d : CredentialDecl} (h : addCredentialDecl cel p d = .ok p') :
    ∃ c, CredentialOf cel p.endpointRefsByName d c ∧ p.credentialRefsByName.get? d.name = none ∧
      p.credentials.get? d.ref.string = none ∧
      p' = { p with
        credentials := p.credentials.insert d.ref.string c
        credentialRefsByName := p.credentialRefsByName.insert d.name d.ref
        credentialsByEndpoint := p.credentialsByEndpoint.insert c.endpoint.string
          ((p.credentialsByEndpoint.get? c.endpoint.string).getD [] ++ [c]) } := by
  simp only [addCredentialDecl, bind_eq_ok, pure_eq_ok, require_eq_ok, orFail_eq_ok, mapError_eq_ok] at h
  obtain ⟨-, hknown, -, -, -, hname, endpoint, hendpoint, -, -, -, -, -, hfree, condition, hcond, rfl⟩ := h
  exact ⟨_, ⟨rfl, rfl, hendpoint, hcond, hknown⟩, hname, by simpa using hfree, rfl⟩

theorem CredentialsOf.step {ds : List CredentialDecl} {d : CredentialDecl} (h : CredentialsOf cel ds p)
    (hstep : addCredentialDecl cel p d = .ok p') : CredentialsOf cel (ds ++ [d]) p' := by
  obtain ⟨c, hc, hname, hfree, rfl⟩ := addCredentialDecl_ok hstep
  have hvalues : (p.credentials.insert d.ref.string c).values = p.credentials.values ++ [c] := by
    simp [values, entries_insert_of_none hfree]
  have href : c.ref = d.ref := by simp [Credential.ref, CredentialDecl.ref, hc.kind, hc.name]
  refine ⟨?_, ?_, ?_, ?_⟩
  · show Forall₂ _ _ (p.credentials.insert d.ref.string c).values
    rw [hvalues]
    exact rel_append h.compiled (.cons hc .nil)
  · intro k c' hk
    rcases get?_insert_eq_some.1 hk with ⟨rfl, rfl⟩ | ⟨-, hk⟩
    · rw [href]
    · exact h.keyed k c' hk
  · refine h.refs.insert (fun b hb hbd => ?_) (fun w => .rfl)
    have := (h.refs d.name b.ref).2 ⟨b, hb, hbd, rfl⟩
    rw [hname] at this
    cases this
  · intro key
    show ((p.credentialsByEndpoint.insert _ _).get? key).getD [] =
      (p.credentials.insert d.ref.string c).values.filter _
    rw [hvalues, get?_insert, filter_append, ← h.byEndpoint key]
    by_cases hk : key = c.endpoint.string
    · simp [hk]
    · simp [hk, Ne.symm hk]

theorem credentials_loop {es : List EndpointDecl} {ds : List CredentialDecl} (he : EndpointsOf es p)
    (h0 : CredentialsOf cel [] p) (h : ds.foldlM (addCredentialDecl cel) p = .ok p') :
    EndpointsOf es p' ∧ CredentialsOf cel ds p' ∧ p'.tailscale = p.tailscale ∧
      p'.defaultAction = p.defaultAction ∧ p'.rulesByFamily = p.rulesByFamily := by
  refine foldlM_ok_invariant (addCredentialDecl cel)
    (fun done q => EndpointsOf es q ∧ CredentialsOf cel done q ∧ q.tailscale = p.tailscale ∧
      q.defaultAction = p.defaultAction ∧ q.rulesByFamily = p.rulesByFamily)
    ?_ ds [] p p' ⟨he, h0, rfl, rfl, rfl⟩ h
  rintro done q d q' ⟨hq, hc, ht, ha, hr⟩ hstep
  have hc' := hc.step hstep
  obtain ⟨c, -, -, -, rfl⟩ := addCredentialDecl_ok hstep
  exact ⟨{ hq with }, hc', ht, ha, hr⟩

/-! ## Rules -/

/-- Compiling a rule does not look at the rules already filed. -/
theorem compileRule_rulesByFamily (cel : Cel) (p : Policy) (rules : EndpointFamily → List Rule) (d : RuleDecl)
    (i : Nat) : compileRule cel { p with rulesByFamily := rules } d i = compileRule cel p d i := by
  have hresolve : ∀ names, resolveEndpoints { p with rulesByFamily := rules } d.name names =
      resolveEndpoints p d.name names := by
    intro names
    induction names with
    | nil => rfl
    | cons n rest ih => simp only [resolveEndpoints, ih]
  have hfamily : ∀ family refs, requireFamily { p with rulesByFamily := rules } d.name family refs =
      requireFamily p d.name family refs := by
    intro family refs
    induction refs with
    | nil => rfl
    | cons r rest ih => simp only [requireFamily, ih]
  have hvalidate : ∀ refs, validateEndpointFamily { p with rulesByFamily := rules } d.name refs =
      validateEndpointFamily p d.name refs := by
    intro refs
    cases refs with
    | nil => rfl
    | cons r rest => simp only [validateEndpointFamily, hfamily]
  simp only [compileRule, hresolve, hvalidate]
  rfl

structure RuleOf (p : Policy) (d : RuleDecl) (i : Nat) (r : Rule) : Prop where
  name : r.name = d.name
  priority : r.priority = d.priority
  disabled : r.disabled = d.disabled
  reason : r.reason = d.reason
  order : r.order = i
  verdict : Action.ofString d.verdict = some r.verdict
  endpoints : List.Forall₂ (fun name ref => p.endpointRefsByName.get? name = some ref) d.endpoints r.endpoints
  nonempty : r.endpoints ≠ []
  family : ∀ ref ∈ r.endpoints, ∃ definition, p.endpointDefinitions.get? ref.string = some definition ∧
    definition.family = r.family
  tunnel : resolveTunnel p d r.family = .ok r.tunnel

theorem resolveEndpoints_ok {rule : String} {names : List String} {refs : List Ref}
    (h : resolveEndpoints p rule names = .ok refs) :
    List.Forall₂ (fun name ref => p.endpointRefsByName.get? name = some ref) names refs := by
  induction names generalizing refs with
  | nil => cases h; exact .nil
  | cons n names ih =>
    simp only [resolveEndpoints, bind_eq_ok, pure_eq_ok, orFail_eq_ok] at h
    obtain ⟨ref, href, rest, hrest, rfl⟩ := h
    exact .cons href (ih hrest)

theorem requireFamily_ok {rule : String} {family : EndpointFamily} {refs : List Ref} {u : Unit}
    (h : requireFamily p rule family refs = .ok u) : ∀ ref ∈ refs, ∃ definition,
      p.endpointDefinitions.get? ref.string = some definition ∧ definition.family = family := by
  induction refs with
  | nil => simp
  | cons r refs ih =>
    simp only [requireFamily, bind_eq_ok, orFail_eq_ok, require_eq_ok] at h
    obtain ⟨definition, hdef, -, hfam, hrest⟩ := h
    exact forall_mem_cons.2 ⟨⟨definition, hdef, hfam⟩, ih hrest⟩

theorem compileRule_ok {d : RuleDecl} {i : Nat} {r : Rule} (h : compileRule cel p d i = .ok r)
    : RuleOf p d i r ∧ validateRuleCredential p r = .ok () := by
  simp only [compileRule, bind_eq_ok, pure_eq_ok, orFail_eq_ok, require_eq_ok] at h
  obtain ⟨endpoints, hendpoints, family, hfamily, credential, -, tunnel, htunnel, verdict, hverdict, condition, -,
    _, hcredential, -, -, rfl⟩ := h
  cases endpoints with
  | nil => cases hfamily
  | cons ref rest =>
    simp only [validateEndpointFamily, bind_eq_ok, pure_eq_ok, orFail_eq_ok] at hfamily
    obtain ⟨definition, hdef, _, hrest, rfl⟩ := hfamily
    exact ⟨⟨rfl, rfl, rfl, rfl, rfl, hverdict, resolveEndpoints_ok hendpoints, by simp,
      forall_mem_cons.2 ⟨⟨definition, hdef, rfl⟩, requireFamily_ok hrest⟩, htunnel⟩, hcredential⟩

theorem compileRule_condition {d : RuleDecl} {i : Nat} {r : Rule} (h : compileRule cel p d i = .ok r) :
    compileOptionalCondition cel r.family d.condition = .ok r.condition := by
  simp only [compileRule, bind_eq_ok, pure_eq_ok, orFail_eq_ok, require_eq_ok, mapError_eq_ok] at h
  obtain ⟨-, -, family, -, -, -, -, -, -, -, condition, hcondition, -, -, -, -, rfl⟩ := h
  exact hcondition

theorem resolveTunnel_family {d : RuleDecl} {family : EndpointFamily} {tunnel : Option Ref}
    (h : resolveTunnel p d family = .ok tunnel) (hne : d.tunnel ≠ "") : family = .ip := by
  unfold resolveTunnel at h
  rw [if_neg hne] at h
  split at h
  · cases h
  split at h
  · cases h
  rename_i hok
  exact not_not.1 (not_or.1 (not_or.1 hok).2).1

theorem resolveTunnel_ok {d : RuleDecl} {family : EndpointFamily} {tunnel : Option Ref}
    (h : resolveTunnel p d family = .ok tunnel) :
    (d.tunnel = "" ∧ tunnel = none) ∨
      (d.tunnel ≠ "" ∧ d.verdict = "allow" ∧ tunnel = some ⟨"tailscale", d.tunnel⟩) := by
  unfold resolveTunnel at h
  split at h
  · cases h
    exact .inl ⟨‹_›, rfl⟩
  split at h
  · cases h
  split at h
  · cases h
  rename_i hne _ _ _ hok
  cases h
  simp only [not_or, not_not] at hok
  exact .inr ⟨hne, hok.2.2, by rw [hok.1]⟩

def enabledRules (family : EndpointFamily) (rules : List Rule) : List Rule :=
  rules.filter (fun r => !r.disabled && r.family = family)

/-- The rules of the declarations `ds`, each with its index, compiled against `p`. -/
def RulesOf (cel : Cel) (p : Policy) (ds : List (RuleDecl × Nat)) (rules : List Rule) : Prop :=
  List.Forall₂ (fun d r => compileRule cel p d.1 d.2 = .ok r) ds rules

theorem fileRule_enabledRules (p : Policy) (rules : List Rule) (rule : Rule) :
    fileRule { p with rulesByFamily := fun family => enabledRules family rules } rule =
      { p with rulesByFamily := fun family => enabledRules family (rules ++ [rule]) } := by
  unfold fileRule enabledRules
  by_cases hd : rule.disabled
  · simp [hd]
  · simp only [hd, Bool.false_eq_true, if_false, filter_append]
    congr 1
    funext family
    by_cases hf : family = rule.family
    · simp [hd, hf]
    · simp [hf, Ne.symm hf]

theorem rules_loop {ds : List (RuleDecl × Nat)} (h0 : p.rulesByFamily = fun _ => [])
    (h : ds.foldlM (fun q d => addRuleDecl cel q d.1 d.2) p = .ok p') :
    ∃ rules, RulesOf cel p ds rules ∧ p' = { p with rulesByFamily := fun family => enabledRules family rules } := by
  refine foldlM_ok_invariant (fun q (d : RuleDecl × Nat) => addRuleDecl cel q d.1 d.2)
    (fun done q => ∃ rules, RulesOf cel p done rules ∧
      q = { p with rulesByFamily := fun family => enabledRules family rules })
    ?_ ds [] p p' ⟨[], .nil, ?_⟩ h
  · rintro done q d q' ⟨rules, hrules, rfl⟩ hstep
    simp only [addRuleDecl, bind_eq_ok, pure_eq_ok] at hstep
    obtain ⟨rule, hrule, rfl⟩ := hstep
    rw [compileRule_rulesByFamily] at hrule
    exact ⟨rules ++ [rule], rel_append hrules (.cons hrule .nil), fileRule_enabledRules p rules rule⟩
  · show p = { p with rulesByFamily := fun _ => [] }
    rw [← h0]

/-! ## Documents -/

structure Compiled (cel : Cel) (document : NetworkPolicyFile) (p : Policy) : Prop where
  endpoints : EndpointsOf document.endpoints p
  credentials : CredentialsOf cel document.credentials p
  tailscale : compileTailscale document.tailscale = .ok p.tailscale
  defaultAction : compileDefaultAction document.settings = .ok p.defaultAction
  rules : ∃ rules, RulesOf cel p document.rules.zipIdx rules ∧
    ∀ family, p.rulesByFamily family = (enabledRules family rules).insertionSort (fun a b => b.priority ≤ a.priority)

theorem compiled_of_ok {filename : String} {document : NetworkPolicyFile}
    (h : compileNetworkPolicy cel filename document = .ok p) : Compiled cel document p := by
  simp only [compileNetworkPolicy, bind_eq_ok, pure_eq_ok, mapError_eq_ok] at h
  obtain ⟨-, -, action, haction, tailscale, htailscale, forwards, -, p1, h1, p2, h2, p3, h3, rfl⟩ := h
  obtain ⟨he1, ht1, ha1, hc1, hn1, hb1, hr1⟩ := endpoints_loop (EndpointsOf.nil rfl rfl rfl (by intro t; cases t <;> rfl)) h1
  have hc0 : CredentialsOf cel [] p1 := .nil hc1 hn1 hb1
  obtain ⟨he2, hc2, ht2, ha2, hr2⟩ := credentials_loop he1 hc0 h2
  obtain ⟨rules, hrules, rfl⟩ := rules_loop (hr2.trans hr1) h3
  refine ⟨{ he2 with }, { hc2 with }, ?_, ?_, rules, ?_, fun family => rfl⟩
  · show _ = Except.ok p2.tailscale
    rw [ht2, ht1]
    exact htailscale
  · show _ = Except.ok p2.defaultAction
    rw [ha2, ha1]
    exact haction
  · refine hrules.imp fun d r hr => ?_
    simp only [sortRules]
    rw [compileRule_rulesByFamily]
    exact hr

end Silo.Netd
