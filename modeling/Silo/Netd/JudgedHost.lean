import Silo.Netd.Canonical
import Silo.Netd.Flow
import Silo.Netd.HostMatching
import Silo.Netd.Intercept
/-!
# The judged host and the contacted host

A request is judged by its `Host` header and sent to the host its connection was
selected for. On a connection selected by address the header must name that very
authority. On one selected by server name it only has to resolve to the same endpoint,
and an endpoint may own several hosts.
-/

namespace Silo.Netd

open Go Lib List Option

def canonicalHTTPSHost (host : String) : Option String := (parseAuthority host 443).toOption.map Authority.host

/-- The policy allowed the request under the host that the `Host` header sent upstream names and whose
certificate was verified. -/
structure Faithful (sent : Sent) : Prop where
  allowed : sent.decision.action = .allow
  header : ∃ host, canonicalHTTPSHost sent.judged.host = some host ∧ canonicalHTTPSHost sent.hostHeader = some host
  server : canonicalHTTPSHost sent.judged.host = some sent.serverName

theorem canonicalHTTPSHost_eq_some {input host : String} :
    canonicalHTTPSHost input = some host ↔ ∃ a, parseAuthority input 443 = .ok a ∧ a.host = host := by
  unfold canonicalHTTPSHost
  cases parseAuthority input 443 <;> simp [Except.toOption]

/-! ## Ports -/

variable {b : Binding}

theorem parseBinding_port {pattern : String} {defaultPort : UInt16} (hd : defaultPort ≠ 0)
    (h : parseBinding pattern defaultPort = .ok b) : b.port ≠ 0 := by
  simp only [parseBinding, bind_eq_ok, pure_eq_ok, require_eq_ok] at h
  obtain ⟨-, -, -, -, -, -, a, ha, -, -, rfl⟩ := h
  exact (parseAuthority_port ha).elim id fun hp => hp ▸ hd

variable {p : Policy}

variable {document : NetworkPolicyFile} {cel : Cel} {e : HTTPEndpoint}

theorem Compiled.binding_parsed (hc : Compiled cel document p) (he : e ∈ p.httpsEndpoints.values) (hb : b ∈ e.hosts) :
    ∃ host defaultPort, defaultPort ≠ 0 ∧ parseBinding host defaultPort = .ok b := by
  obtain ⟨k, hget⟩ := AssocMap.mem_values.1 he
  obtain ⟨d, -, -, definition, hdef, htransport, hcompile⟩ := (hc.endpoints.http .httpsMITM (by decide) k e).1 hget
  obtain ⟨-, -, -, hhosts⟩ := compileHTTPEndpointDecl_ok hcompile
  have hdefault : definition.defaultPort ≠ 0 := by
    unfold Registry.endpoint at hdef
    split at hdef <;> cases hdef <;> first | decide | cases htransport
  rcases mem_compileHosts hhosts hb with hb | ⟨host, -, hparse⟩
  · cases hb
  · exact ⟨host, _, hdefault, hparse⟩

theorem Compiled.binding_port (hc : Compiled cel document p)
    (he : e ∈ p.httpsEndpoints.values) (hb : b ∈ e.hosts) : b.port ≠ 0 := by
  obtain ⟨host, defaultPort, hd, hparse⟩ := hc.binding_parsed he hb
  exact parseBinding_port hd hparse

/-! ## What is sent -/

theorem evaluateHTTPRules_unclassified (p : Policy) (request : HTTPRequest) (ref : Ref) (endpoint : HTTPEndpoint)
    (evaluator : Evaluator) (credential : Option Credential) (rules : List Rule) :
    (p.evaluateHTTPRules request ref endpoint evaluator credential rules).classificationOpportunity = false := by
  induction rules with
  | nil => rfl
  | cons rule rest ih =>
    unfold Policy.evaluateHTTPRules
    split
    · exact ih
    · split
      · rfl
      · exact ih
      · rfl

theorem evaluateHTTP_unclassified (order : RangeOrder) (evaluate : HTTPRequest → Evaluator) (p : Policy)
    (request : HTTPRequest) :
    (Policy.evaluateHTTP order evaluate (some p) request).classificationOpportunity = false := by
  unfold Policy.evaluateHTTP
  dsimp only
  split
  · rfl
  · split
    · rfl
    · unfold Policy.evaluateHTTPEndpoint
      split
      · rfl
      · exact evaluateHTTPRules_unclassified ..

variable {selection : HTTPSSelection} {flow : Flow}

theorem serveExchange_sent {evaluate : HTTPRequest → Evaluator}
    {exchange : Exchange} {sent : Sent} (h : (serveExchange evaluate p flow selection exchange).1 = some sent) :
    hostAccepted p selection exchange ∧ sent.judged.host = exchange.request.host ∧
      sent.decision = Policy.evaluateHTTP exchange.evaluateOrder evaluate (some p) sent.judged ∧
      sent.decision.action = .allow ∧ sent.hostHeader = selection.forwardHost ∧
      sent.serverName = selection.upstreamServerName := by
  unfold serveExchange at h
  dsimp only at h
  split at h
  · cases h
  · rename_i haccepted
    split at h
    · cases h
    · rename_i hroute
      dsimp only at h
      split at h
      · cases h
        refine ⟨by simpa using haccepted, rfl, rfl, ?_, rfl, rfl⟩
        rw [routeActionFromPolicy, evaluateHTTP_unclassified, if_neg Bool.false_ne_true] at hroute
        dsimp only
        cases haction : (Policy.evaluateHTTP exchange.evaluateOrder evaluate (some p)
            (httpRequest flow "https" exchange.request)).action with
        | allow => rfl
        | deny => exact absurd (if_pos haction) hroute
      · cases h

theorem proxyHTTP_sent {evaluate : HTTPRequest → Evaluator}
    {exchanges : List Exchange} {sent : Sent} (h : sent ∈ proxyHTTP evaluate p flow selection exchanges) :
    ∃ exchange ∈ exchanges, (serveExchange evaluate p flow selection exchange).1 = some sent := by
  induction exchanges with
  | nil => cases h
  | cons exchange rest ih =>
    rw [proxyHTTP] at h
    generalize hserve : serveExchange evaluate p flow selection exchange = turn at h
    rcases mem_append.1 h with h | h
    · exact ⟨exchange, mem_cons_self, by rw [hserve]; exact mem_toList.1 h⟩
    · split at h
      · obtain ⟨exchange', hmem, hsent⟩ := ih h
        exact ⟨exchange', mem_cons_of_mem _ hmem, hsent⟩
      · cases h

/-! ## What is selected -/

structure SelectedFor (selection : HTTPSSelection) (a : Authority) : Prop where
  canonical : CanonicalHost a.host.toList
  port : a.port ≠ 0
  header : selection.forwardHost = formatAuthority a 443
  server : selection.upstreamServerName = a.host

variable {order : RangeOrder}

theorem resolveHTTPSHost_some {sni authority host : String} {port : UInt16} {ref : Ref}
    (h : p.resolveHTTPSHost order sni port = some (ref, authority, host)) :
    ∃ a, parseAuthority sni (if port = 0 then 443 else port) = .ok a ∧ authority = formatAuthority a 443 ∧
      host = a.host := by
  have hdefault : Policy.defaultPort "https" = 443 := rfl
  simp only [Policy.resolveHTTPSHost, Policy.resolveEndpointHost, hdefault] at h
  obtain ⟨m, hm, heq⟩ := map_eq_some_iff.1 h
  generalize (if port = 0 then 443 else port) = port' at hm ⊢
  cases ha : parseAuthority sni port' with
  | error err =>
    rw [matchHTTPFamilyHost_error ha] at hm
    cases hm
  | ok a =>
    rw [matchHTTPFamilyHost_eq ha] at hm
    obtain ⟨e, -, rfl⟩ := map_eq_some_iff.1 hm
    cases heq
    exact ⟨a, rfl, rfl, rfl⟩

theorem selectedFor_sni {sni : String} {flowDecision : Decision}
    (h : handleClientHello order p (.ok sni) flow flowDecision = .proxied selection) :
    ∃ a, canonicalHTTPSHost sni = some a.host ∧ SelectedFor selection a ∧ selection.rawAuthority = "" := by
  unfold handleClientHello at h
  dsimp only at h
  split at h
  · split at h <;> cases h
  · rename_i ref authority host hresolve
    cases h
    obtain ⟨a, ha, rfl, rfl⟩ := resolveHTTPSHost_some hresolve
    obtain ⟨port, hport⟩ := parseAuthority_defaultPort ha 443
    obtain ⟨parsed, hacc⟩ := parseAuthority_eq_ok.1 ha
    refine ⟨a, canonicalHTTPSHost_eq_some.2 ⟨_, hport, rfl⟩, ⟨hacc.canonical, ?_, rfl, rfl⟩, rfl⟩
    refine (parseAuthority_port ha).elim id fun hp => hp ▸ ?_
    split
    · decide
    · assumption

variable {dest : Addr} {ip : List UInt8}

theorem addrFromIP_shape (h : addrFromIP ip = some dest) :
    (∃ b, dest = .v4 b) ∨ ∃ b : BitVec 128, b >>> 32 ≠ 0xffff#128 ∧ dest = .v6 b [] := by
  obtain ⟨addr, haddr, rfl⟩ := map_eq_some_iff.1 h
  unfold addrFromSlice at haddr
  dsimp only at haddr
  split at haddr
  · cases haddr
    exact .inl ⟨_, rfl⟩
  · split at haddr
    · cases haddr
      generalize BitVec.ofNat 128 _ = b
      rw [Addr.unmap]
      by_cases hmapped : b >>> 32 = 0xffff#128
      · exact .inl ⟨_, if_pos hmapped⟩
      · exact .inr ⟨b, hmapped, if_neg hmapped⟩
    · cases haddr

theorem canonical_addrFromIP (h : addrFromIP ip = some dest) :
    CanonicalHost dest.string ∧ Settled dest.string := by
  rcases addrFromIP_shape h with ⟨b, rfl⟩ | ⟨b, -, rfl⟩
  · exact ⟨.v4 b, settled_string4 b⟩
  · refine ⟨.v6 b [] (by simp), ?_⟩
    rw [string_v6_nil]
    exact settled_literal6 b

def rawAuthority (dest : Addr) (port : UInt16) : Authority := ⟨String.ofList dest.string, port⟩

/-- The endpoint declares the address, in some spelling, with the port. -/
def BindsAddr (e : HTTPEndpoint) (dest : Addr) (port : UInt16) : Prop :=
  ∃ b ∈ e.hosts, Policy.bindsAddr dest port b

theorem resolveHTTPSRawIP_cases (order : RangeOrder) (hdest : addrFromIP ip = some dest) (port : UInt16) :
    (p.resolveHTTPSRawIP order ip port = none ∧ ∀ e ∈ p.httpsEndpoints.values, ¬ BindsAddr e dest port) ∨
      ∃ e ∈ p.httpsEndpoints.values, BindsAddr e dest port ∧ p.resolveHTTPSRawIP order ip port =
        some (e.ref, formatAuthority (rawAuthority dest port) 443, (rawAuthority dest port).host) := by
  have hmem : ∀ e b, (e, b) ∈ bindingPairs (order.range p.httpsEndpoints) ↔
      e ∈ p.httpsEndpoints.values ∧ b ∈ e.hosts := fun e b => by rw [mem_bindingPairs, (order.perm _).mem_iff]
  unfold Policy.resolveHTTPSRawIP
  rw [hdest]
  dsimp only
  cases hfind : (bindingPairs (order.range p.httpsEndpoints)).find? fun pair => Policy.bindsAddr dest port pair.2 with
  | none =>
    refine .inl ⟨rfl, fun e he ⟨b, hb, hbinds⟩ => ?_⟩
    exact find?_eq_none.1 hfind _ ((hmem e b).2 ⟨he, hb⟩) hbinds
  | some pair =>
    obtain ⟨e, b⟩ := pair
    obtain ⟨he, hb⟩ := (hmem e b).1 (mem_of_find?_eq_some hfind)
    have hbinds : Policy.bindsAddr dest port b := by simpa using find?_some hfind
    have hport : b.port = port := by
      simp only [Policy.bindsAddr, Bool.and_eq_true, decide_eq_true_eq] at hbinds
      exact hbinds.1.2
    exact .inr ⟨e, he, ⟨b, hb, hbinds⟩, by rw [← hport]; rfl⟩

theorem Compiled.bindsAddr_port (hc : Compiled cel document p)
    (he : e ∈ p.httpsEndpoints.values) {port : UInt16} (h : BindsAddr e dest port) :
    port ≠ 0 := by
  obtain ⟨b, hb, hbinds⟩ := h
  simp only [Policy.bindsAddr, Bool.and_eq_true, decide_eq_true_eq] at hbinds
  exact hbinds.1.2 ▸ hc.binding_port he hb

/-- A connection selected by address goes to that address, whose spelling is read back as it is. -/
theorem selectedFor_raw (hc : Compiled cel document p)
    {err : HelloError} {flow : Flow} {flowDecision : Decision} {selection : HTTPSSelection}
    (h : handleClientHello order p (.error err) flow flowDecision = .proxied selection) :
    ∃ a, SelectedFor selection a ∧ Settled a.host.toList ∧ selection.rawAuthority = formatAuthority a 443 := by
  unfold handleClientHello at h
  split at h
  · split at h
    · rename_i ref authority host hresolve
      cases h
      cases hdest : addrFromIP flow.destIP with
      | none => simp [Policy.resolveHTTPSRawIP, hdest] at hresolve
      | some dest =>
        rcases resolveHTTPSRawIP_cases (p := p) order hdest flow.destPort with ⟨hnone, -⟩ | ⟨e, he, hbinds, hsome⟩
        · rw [hnone] at hresolve
          cases hresolve
        · rw [hsome] at hresolve
          cases hresolve
          obtain ⟨hcanonical, hsettled⟩ := canonical_addrFromIP hdest
          refine ⟨rawAuthority dest flow.destPort, ⟨?_, hc.bindsAddr_port he hbinds, rfl, rfl⟩, ?_, rfl⟩
          · simpa [rawAuthority] using hcanonical
          · simpa [rawAuthority] using hsettled
    · split at h <;> cases h
  · split at h <;> cases h
  · rename_i heq
    cases heq

/-- With an authority to match, a request is accepted only under that authority. -/
theorem hostAccepted_raw {exchange : Exchange} {a : Authority}
    (h : hostAccepted p selection exchange) (hraw : parseAuthority selection.rawAuthority 443 = .ok a) :
    parseAuthority exchange.request.host 443 = .ok a := by
  have hne : selection.rawAuthority ≠ "" := by
    intro hempty
    rw [hempty] at hraw
    cases hraw
  unfold hostAccepted at h
  by_cases hempty : exchange.request.host = ""
  · rw [if_pos hempty] at h
    contradiction
  · rw [if_neg hempty, if_pos hne, Policy.matchHTTPSAuthority, Policy.matchEndpointAuthority] at h
    split at h
    · rename_i host selected hhost hselected
      have hdefault : Policy.defaultPort "https" = 443 := rfl
      rw [hdefault] at hhost hselected
      rw [hraw] at hselected
      cases hselected
      rw [hhost, of_decide_eq_true h]
    · contradiction

/-! ## The result -/

/-- The request names the canonical host of the server name, and a spelled-out host that is read back:
it has no percent sign and does not end in a dot. -/
def NamesServer (name host : String) : Prop :=
  ∃ server, canonicalHTTPSHost name = some server ∧ canonicalHTTPSHost host = some server ∧ Settled server.toList

/-- What is allowed and sent to the selected host is sent faithfully when it is judged under that host, in a spelling
that is read back. -/
theorem SelectedFor.faithful_iff {a : Authority} (h : SelectedFor selection a) {sent : Sent}
    (hallow : sent.decision.action = .allow) (hheader : sent.hostHeader = selection.forwardHost)
    (hserver : sent.serverName = selection.upstreamServerName) :
    Faithful sent ↔ canonicalHTTPSHost sent.judged.host = some a.host ∧ Settled a.host.toList := by
  have hserver := hserver.trans h.server
  have hread : canonicalHTTPSHost sent.hostHeader = some a.host ↔ Settled a.host.toList := by
    rw [hheader, h.header, canonicalHTTPSHost_eq_some]
    exact reread_host_iff h.canonical (.inl h.port)
  rw [← hread]
  constructor
  · rintro ⟨-, ⟨host, hj, hh⟩, hs⟩
    rw [hserver] at hs
    cases hs.symm.trans hj
    exact ⟨hs, hh⟩
  · rintro ⟨hs, hh⟩
    exact ⟨hallow, ⟨a.host, hs, hh⟩, hserver ▸ hs⟩

/-- Every request sent upstream was allowed under the host that receives it exactly when, on a connection
selected by server name, its `Host` header names the canonical host of that server name. -/
theorem judged_host_contacted_iff {cel : Cel} {filename : String} {document : NetworkPolicyFile} {p : Policy}
    (h : compileNetworkPolicy cel filename document = .ok p) (order : RangeOrder) (sni : Except HelloError String)
    (flow : Flow) (flowDecision : Decision) {selection : HTTPSSelection}
    (hselect : handleClientHello order p sni flow flowDecision = .proxied selection)
    (evaluate : HTTPRequest → Evaluator) (exchanges : List Exchange) {sent : Sent}
    (hsent : sent ∈ proxyHTTP evaluate p flow selection exchanges) :
    (∃ order, sent.decision = Policy.evaluateHTTP order evaluate (some p) sent.judged) ∧
      (Faithful sent ↔ ∀ name, sni = .ok name → NamesServer name sent.judged.host) := by
  obtain ⟨exchange, -, hserve⟩ := proxyHTTP_sent hsent
  obtain ⟨haccepted, hhost, hdecision, hallow, hheader, hserver⟩ := serveExchange_sent hserve
  refine ⟨⟨_, hdecision⟩, ?_⟩
  cases sni with
  | ok name =>
    obtain ⟨a, hname, hfor, -⟩ := selectedFor_sni hselect
    rw [hfor.faithful_iff hallow hheader hserver]
    simp [NamesServer, hname]
  | error err =>
    obtain ⟨a, hfor, hsettled, hraw⟩ := selectedFor_raw (compiled_of_ok h) hselect
    refine ⟨fun _ _ => nofun, fun _ => (hfor.faithful_iff hallow hheader hserver).2 ⟨?_, hsettled⟩⟩
    -- The header has to spell the selected authority, which is read back as it is.
    have hread : parseAuthority selection.rawAuthority 443 = .ok a := by
      rw [hraw]
      exact parseAuthority_formatAuthority hfor.canonical (.inl hfor.port) hsettled
    rw [hhost]
    exact canonicalHTTPSHost_eq_some.2 ⟨a, hostAccepted_raw haccepted hread, rfl⟩

def twoHostsDocument : NetworkPolicyFile where
  version := 1
  endpoints := [httpsDecl "api" ["a.example", "b.example"]]
  rules := [{ name := "pass", endpoints := ["api"], verdict := "allow" }]

def getExchange (host : String) : Exchange where
  request := { host, method := "GET", path := "/", query := "", header := [], close := false }
  resolveOrder := .insertion
  evaluateOrder := .insertion
  applied := true
  dialled := true
  answered := true

def webFlow : Flow := { protocol := "tcp", destIP := [192, 0, 2, 1], destPort := 443 }

def classified : Decision :=
  { action := .deny, layer := .flow, source := .default, defaultAction := .deny, classificationOpportunity := true }

/-- The judged host, the header and the server name of every request sent on a connection for `sni`. -/
def sentHosts (p : Policy) (sni host : String) : Option (List (String × String × String)) :=
  match handleClientHello .insertion p (.ok sni) webFlow classified with
  | .proxied selection =>
    some ((proxyHTTP (fun _ _ => .ok true) p webFlow selection [getExchange host]).map fun sent =>
      (sent.judged.host, sent.hostHeader, sent.serverName))
  | _ => none

theorem sentHosts_eq_some {sni host judged header server : String}
    (h : sentHosts p sni host = some [(judged, header, server)]) :
    ∃ selection sent, handleClientHello .insertion p (.ok sni) webFlow classified = .proxied selection ∧
      sent ∈ proxyHTTP (fun _ _ => .ok true) p webFlow selection [getExchange host] ∧ sent.judged.host = judged ∧
      sent.hostHeader = header ∧ sent.serverName = server := by
  unfold sentHosts at h
  split at h
  · rename_i selection hselect
    obtain ⟨sent, hsent, heq⟩ := map_eq_singleton_iff.1 (some.inj h)
    obtain ⟨h1, h2⟩ := Prod.mk.inj heq
    obtain ⟨h2, h3⟩ := Prod.mk.inj h2
    exact ⟨selection, sent, hselect, by rw [hsent]; exact mem_singleton_self _, h1, h2, h3⟩
  · cases h

/-- A request judged as one host of an endpoint is sent to the other. -/
theorem sibling_host_judged :
    ∃ p selection sent, compileNetworkPolicy ⟨fun _ _ => true⟩ "policy.json" twoHostsDocument = .ok p ∧
      handleClientHello .insertion p (.ok "a.example") webFlow classified = .proxied selection ∧
      sent ∈ proxyHTTP (fun _ _ => .ok true) p webFlow selection [getExchange "b.example"] ∧
      sent.judged.host = "b.example" ∧ sent.hostHeader = "a.example" ∧ sent.serverName = "a.example" ∧
      ¬ Faithful sent := by
  obtain ⟨p, hp, hsent⟩ := exists_ok_of_map
    (x := compileNetworkPolicy ⟨fun _ _ => true⟩ "policy.json" twoHostsDocument)
    (f := fun p => sentHosts p "a.example" "b.example")
    (b := some [("b.example", "a.example", "a.example")]) (by decide)
  obtain ⟨selection, sent, hselect, hmem, hjudged, hheader, hserver⟩ := sentHosts_eq_some hsent
  refine ⟨p, selection, sent, hp, hselect, hmem, hjudged, hheader, hserver, fun hf => ?_⟩
  have hhost := hf.server
  rw [hjudged, hserver] at hhost
  revert hhost
  decide

/-- A request that names the server it reaches. -/
theorem own_host_judged :
    ∃ p selection sent, compileNetworkPolicy ⟨fun _ _ => true⟩ "policy.json" twoHostsDocument = .ok p ∧
      handleClientHello .insertion p (.ok "a.example") webFlow classified = .proxied selection ∧
      sent ∈ proxyHTTP (fun _ _ => .ok true) p webFlow selection [getExchange "A.example"] ∧ Faithful sent := by
  obtain ⟨p, hp, hsent⟩ := exists_ok_of_map
    (x := compileNetworkPolicy ⟨fun _ _ => true⟩ "policy.json" twoHostsDocument)
    (f := fun p => sentHosts p "a.example" "A.example")
    (b := some [("A.example", "a.example", "a.example")]) (by decide)
  obtain ⟨selection, sent, hselect, hmem, hjudged, -, -⟩ := sentHosts_eq_some hsent
  refine ⟨p, selection, sent, hp, hselect, hmem, ?_⟩
  refine (judged_host_contacted_iff hp .insertion (.ok "a.example") webFlow classified hselect (fun _ _ => .ok true)
    [getExchange "A.example"] hmem).2.2 fun name hname => ?_
  cases hname
  rw [hjudged]
  exact ⟨"a.example", by decide, by decide, by decide, by decide⟩

end Silo.Netd
