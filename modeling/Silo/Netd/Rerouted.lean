import Silo.Netd.Flow
import Silo.Netnode.Node
/-!
# Documents with a managed node

A document to which a tailscale node was added: its IP allow rules carry the tunnel, and
two rules of the lowest priority route the ranges of the tailnet. What `EvaluateFlow`
decides on the two documents, for ordinary flows and for those to the tailnet.
-/

namespace Silo.Netd

open Go Lib List

/-! ## The added declarations -/

def leastPriority : Int := -2147483648

def tailnetEndpoint (name cidr : String) : EndpointDecl where
  kind := "ip"
  name := name
  family := "ip"
  transport := "packet-filter"
  tls := "none"
  destinationCIDRs := [cidr]
  protocol := "tcp"

def tailnetRule (name : String) : RuleDecl where
  name := name
  endpoints := [name]
  tunnel := "vm"
  verdict := "allow"
  priority := leastPriority

def tailnetEndpoints : List EndpointDecl :=
  [tailnetEndpoint "silo-tailnet-v4" "100.64.0.0/10", tailnetEndpoint "silo-tailnet-v6" "fd7a:115c:a1e0::/48"]

def tailnetRules : List RuleDecl := [tailnetRule "silo-tailnet-v4", tailnetRule "silo-tailnet-v6"]

theorem tailnetEndpoints_ip : ∀ e ∈ tailnetEndpoints, e.IPFamily := by
  intro e he
  simp only [tailnetEndpoints, mem_cons, not_mem_nil, or_false] at he
  rcases he with rfl | rfl <;> exact ⟨_, rfl, rfl⟩

/-- An allow rule whose first endpoint is declared as an IP endpoint. -/
def AllowsIP (document : NetworkPolicyFile) (r : RuleDecl) : Prop :=
  r.verdict = "allow" ∧ ∃ name, r.endpoints.head? = some name ∧ ∃ d ∈ document.endpoints, d.name = name ∧ d.family = "ip"

/-- The rule `r` of a document in the document with the node. -/
def RoutedRule (document : NetworkPolicyFile) (r s : RuleDecl) : Prop :=
  (AllowsIP document r ∧ s = { r with tunnel := "vm" }) ∨ (¬ AllowsIP document r ∧ s = r)

variable {r s : RuleDecl}

theorem RoutedRule.same {document : NetworkPolicyFile} (h : RoutedRule document r s) :
    s.disabled = r.disabled ∧ s.endpoints = r.endpoints ∧ s.priority = r.priority := by
  rcases h with ⟨-, rfl⟩ | ⟨-, rfl⟩ <;> exact ⟨rfl, rfl, rfl⟩

structure Rerouted (document document' : NetworkPolicyFile) : Prop where
  endpoints : document'.endpoints = document.endpoints ++ tailnetEndpoints
  rules : ∃ routed, List.Forall₂ (RoutedRule document) document.rules routed ∧
    document'.rules = routed ++ tailnetRules
  defaultAction : document'.settings.defaultAction = document.settings.defaultAction
  fresh : ∀ d ∈ document.endpoints, ∀ e ∈ tailnetEndpoints, d.name ≠ e.name
  families : ∀ d ∈ document.endpoints, d.IPFamily → d.family = "ip"
  untunnelled : ∀ r ∈ document.rules, r.tunnel = ""
  priorities : ∀ r ∈ document.rules, leastPriority ≤ r.priority

/-! ## Which rules match -/

variable {r : RuleDecl} {i : Nat}

section Matching

variable {cel : Cel} {document document' : NetworkPolicyFile} {p p' : Policy} {flow : Flow}

theorem Compiled.declared (hc : Compiled cel document p) (hr : r ∈ document.rules) {name : String}
    (hname : name ∈ r.endpoints) : ∃ d ∈ document.endpoints, d.name = name := by
  obtain ⟨i, hi⟩ := getElem?_of_mem hr
  obtain ⟨rule, hof, -⟩ := hc.flowRules.2.1 i r hi
  obtain ⟨ref, -, hget⟩ := forall₂_exists_right hof.endpoints name hname
  obtain ⟨d, hd, hdn, -⟩ := (hc.endpoints.refs name ref).1 hget
  exact ⟨d, hd, hdn⟩

theorem Compiled.verdict_cases (hc : Compiled cel document p) (hr : r ∈ document.rules) :
    r.verdict = "allow" ∨ r.verdict = "deny" := by
  obtain ⟨i, hi⟩ := getElem?_of_mem hr
  obtain ⟨rule, hof, -⟩ := hc.flowRules.2.1 i r hi
  have hverdict := hof.verdict
  unfold Action.ofString at hverdict
  split at hverdict
  · exact .inl ‹_›
  · exact .inr ‹_›
  · cases hverdict

namespace Rerouted

variable (h : Rerouted document document')

include h

theorem mem_of_name {d e : EndpointDecl} (hd : d ∈ document'.endpoints)
    (he : e ∈ document.endpoints) (hname : d.name = e.name) : d ∈ document.endpoints := by
  rw [h.endpoints] at hd
  exact (mem_append.1 hd).resolve_right fun hd => h.fresh e he d hd hname.symm

theorem exists_endpoint_iff (hc : Compiled cel document p)
    (hr : r ∈ document.rules) {name : String} (hname : name ∈ r.endpoints) (P : EndpointDecl → Prop) :
    (∃ d ∈ document'.endpoints, d.name = name ∧ P d) ↔ ∃ d ∈ document.endpoints, d.name = name ∧ P d := by
  constructor
  · rintro ⟨d, hd, hdn, hP⟩
    obtain ⟨e, he, hen⟩ := hc.declared hr hname
    exact ⟨d, h.mem_of_name hd he (hdn.trans hen.symm), hdn, hP⟩
  · rintro ⟨d, hd, hdn, hP⟩
    exact ⟨d, h.endpoints ▸ mem_append_left _ hd, hdn, hP⟩

/-- A matching rule has the tunnel in the new document exactly when it allows. -/
theorem allowsIP_iff (hm : RuleMatches document r flow) :
    AllowsIP document r ↔ r.verdict = "allow" := by
  refine ⟨fun hallows => hallows.1, fun hallow => ⟨hallow, ?_⟩⟩
  obtain ⟨name, hname, -⟩ := hm.endpoint
  cases hrefs : r.endpoints with
  | nil => rw [hrefs] at hname; cases hname
  | cons head rest =>
    obtain ⟨d, hd, hdn, hip⟩ := hm.family head (by rw [hrefs]; exact mem_cons_self)
    exact ⟨head, rfl, d, hd, hdn, h.families d hd hip⟩

/-- An authored rule matches as before, apart from its tunnel. -/
theorem matches_iff (hc : Compiled cel document p) (hr : r ∈ document.rules) (hs : RoutedRule document r s) :
    RuleMatches document' s flow ↔
      RuleMatches document r flow ∧ (r.verdict = "allow" → flow.tailnetDestination) := by
  obtain ⟨hdisabled, hendpoints, -⟩ := hs.same
  have hback : RuleMatches document' s flow → RuleMatches document r flow := by
    intro hm
    refine ⟨hdisabled ▸ hm.enabled, fun name hname => ?_, fun htunnel => absurd (h.untunnelled r hr) htunnel, ?_⟩
    · exact (h.exists_endpoint_iff hc hr hname _).1 (hm.family name (hendpoints ▸ hname))
    · obtain ⟨name, hname, hd⟩ := hm.endpoint
      rw [hendpoints] at hname
      exact ⟨name, hname, (h.exists_endpoint_iff hc hr hname _).1 hd⟩
  constructor
  · intro hm
    refine ⟨hback hm, fun hallow => hm.tailnet ?_⟩
    rcases hs with ⟨-, rfl⟩ | ⟨hno, -⟩
    · exact show "vm" ≠ "" by decide
    · exact absurd ((h.allowsIP_iff (hback hm)).2 hallow) hno
  · rintro ⟨hm, htailnet⟩
    refine ⟨hdisabled.trans hm.enabled, fun name hname => ?_, fun htunnel => ?_, ?_⟩
    · rw [hendpoints] at hname
      exact (h.exists_endpoint_iff hc hr hname _).2 (hm.family name hname)
    · rcases hs with ⟨hallows, -⟩ | ⟨-, rfl⟩
      · exact htailnet hallows.1
      · exact absurd (h.untunnelled _ hr) htunnel
    · obtain ⟨name, hname, hd⟩ := hm.endpoint
      exact ⟨name, hendpoints ▸ hname, (h.exists_endpoint_iff hc hr hname _).2 hd⟩

/-- The rules of the new document: the authored ones at their index, then the added ones. -/
theorem getElem?_cases {j : Nat} (hs : document'.rules[j]? = some s) :
    (∃ r, document.rules[j]? = some r ∧ RoutedRule document r s) ∨ (document.rules.length ≤ j ∧ s ∈ tailnetRules) := by
  obtain ⟨routed, hrouted, hrules⟩ := h.rules
  rw [hrules] at hs
  rcases Nat.lt_or_ge j routed.length with hj | hj
  · rw [getElem?_append_left hj] at hs
    have hj' : j < document.rules.length := hrouted.length_eq ▸ hj
    obtain ⟨_, rfl⟩ := List.getElem?_eq_some_iff.1 hs
    exact .inl ⟨_, getElem?_eq_getElem hj', hrouted.get hj' hj⟩
  · rw [getElem?_append_right hj] at hs
    exact .inr ⟨hrouted.length_eq ▸ hj, mem_of_getElem? hs⟩

theorem getElem?_routed (hr : document.rules[i]? = some r) :
    ∃ s, document'.rules[i]? = some s ∧ RoutedRule document r s := by
  obtain ⟨routed, hrouted, hrules⟩ := h.rules
  obtain ⟨hi, rfl⟩ := List.getElem?_eq_some_iff.1 hr
  have hi' : i < routed.length := hrouted.length_eq ▸ hi
  refine ⟨routed.get ⟨i, hi'⟩, ?_, hrouted.get hi hi'⟩
  rw [hrules, getElem?_append_left hi']
  exact getElem?_eq_getElem hi'

theorem classifiable_iff : Classifiable document' flow ↔ Classifiable document flow := by
  unfold Classifiable
  rw [h.endpoints]
  simp only [mem_append, or_and_right, exists_or]
  refine and_congr_right fun _ => ⟨?_, .inl⟩
  rintro (hd | ⟨d, hd, definition, -, -, host, hhost, -⟩)
  · exact hd
  · simp only [tailnetEndpoints, mem_cons, not_mem_nil, or_false] at hd
    rcases hd with rfl | rfl <;> cases hhost

theorem matches_tailnetRule :
    (∃ s ∈ tailnetRules, RuleMatches document' s flow) ↔
      flow.tailnetDestination ∧ ∃ e ∈ tailnetEndpoints, EndpointMatches e flow := by
  have hrules : tailnetRules = tailnetEndpoints.map fun e => tailnetRule e.name := rfl
  rw [hrules]
  constructor
  · rintro ⟨s, hs, hm⟩
    obtain ⟨e, he, rfl⟩ := mem_map.1 hs
    refine ⟨hm.tailnet (show "vm" ≠ "" by decide), ?_⟩
    obtain ⟨name, hname, d, hd, hdn, hmatch⟩ := hm.endpoint
    obtain rfl := mem_singleton.1 hname
    rw [h.endpoints] at hd
    exact ⟨d, (mem_append.1 hd).resolve_left fun hd => h.fresh d hd e he hdn, hmatch⟩
  · rintro ⟨htailnet, e, he, hmatch⟩
    have hmem : e ∈ document'.endpoints := h.endpoints ▸ mem_append_right _ he
    refine ⟨_, mem_map_of_mem he, rfl, fun name hname => ?_, fun _ => htailnet, e.name, mem_singleton.2 rfl, e,
      hmem, rfl, hmatch⟩
    obtain rfl := mem_singleton.1 hname
    exact ⟨e, hmem, rfl, tailnetEndpoints_ip e he⟩

end Rerouted

theorem matches_tailnetEndpoint (name cidr : String) (flow : Flow) :
    EndpointMatches (tailnetEndpoint name cidr) flow ↔
      toLower flow.protocol.toList = "tcp".toList ∧ InCIDRs [cidr] flow.destIP := by
  have hprotocol : normalizeProtocol "tcp" = "tcp" := by decide
  constructor
  · intro h
    rcases h.protocol with hany | htcp
    · exact absurd (hprotocol.symm.trans hany) (by decide)
    · exact ⟨htcp.symm.trans (congrArg String.toList hprotocol), h.destination⟩
  · rintro ⟨htcp, hdestination⟩
    exact ⟨.inr ((congrArg String.toList hprotocol).trans htcp.symm), .inl rfl, .inl rfl, hdestination⟩

/-- The added endpoints match TCP to the ranges of the tailnet. -/
theorem matches_tailnetEndpoints (flow : Flow) :
    (∃ e ∈ tailnetEndpoints, EndpointMatches e flow) ↔
      toLower flow.protocol.toList = "tcp".toList ∧
        ∃ addr, addrFromIP flow.destIP = some addr ∧ Netnode.inRange addr := by
  have hv4 : parsePrefix "100.64.0.0/10".toList = some Netnode.cgnat := by decide
  have hv6 : parsePrefix "fd7a:115c:a1e0::/48".toList = some Netnode.ula := by decide
  have hunmap : ∀ {addr}, addrFromIP flow.destIP = some addr → addr.unmap = addr := by
    intro addr haddr
    obtain ⟨a, -, rfl⟩ := Option.map_eq_some_iff.1 haddr
    exact Addr.unmap_unmap a
  simp only [tailnetEndpoints, mem_cons, not_mem_nil, or_false, exists_eq_or_imp, exists_eq_left,
    matches_tailnetEndpoint, ← and_or_left, InCIDRs, cons_ne_nil, false_or, hv4, hv6, Option.some.injEq,
    exists_eq_left']
  refine and_congr_right fun _ => ?_
  constructor
  · rintro (⟨addr, haddr, hin⟩ | ⟨addr, haddr, hin⟩)
    · exact ⟨addr, haddr, by simp [Netnode.inRange, hunmap haddr, hin]⟩
    · exact ⟨addr, haddr, by simp [Netnode.inRange, hin]⟩
  · rintro ⟨addr, haddr, hin⟩
    rw [Netnode.inRange, hunmap haddr, Bool.or_eq_true] at hin
    rcases hin with hin | hin
    · exact .inl ⟨addr, haddr, hin⟩
    · exact .inr ⟨addr, haddr, hin⟩

end Matching

/-! ## The decisions -/

/-- An ordinary flow is decided as before: the same action, the same opportunity to classify. -/
structure OrdinaryKept (p p' : Policy) (flow : Flow) : Prop where
  action : (Policy.evaluateFlow (some p') flow).action = (Policy.evaluateFlow (some p) flow).action
  classification : (Policy.evaluateFlow (some p') flow).classificationOpportunity =
    (Policy.evaluateFlow (some p) flow).classificationOpportunity

def DeniedFirst (document : NetworkPolicyFile) (flow : Flow) : Prop :=
  ∃ i r, FirstMatch document flow i r ∧ r.verdict = "deny"

/-- A flow to the tailnet is denied when the first authored match denies it, and tunnelled otherwise. -/
structure TailnetRouted (document : NetworkPolicyFile) (p' : Policy) (flow : Flow) : Prop where
  denied : DeniedFirst document flow → (Policy.evaluateFlow (some p') flow).action = .deny
  tunnelled : ¬ DeniedFirst document flow → (Policy.evaluateFlow (some p') flow).action = .allow ∧
    (Policy.evaluateFlow (some p') flow).tunnel = some ⟨"tailscale", "vm"⟩

/-- An allow rule comes first, and without it the flow would be denied. -/
def AllowedByRule (document : NetworkPolicyFile) (flow : Flow) : Prop :=
  (∃ i r, FirstMatch document flow i r ∧ r.verdict = "allow") ∧
    (document.settings.defaultAction = "deny" ∨ ∃ s ∈ document.rules, RuleMatches document s flow ∧ s.verdict = "deny")

/-- Some authored rule matches the flow, or its destination is in the ranges of the tailnet. -/
def TailnetCovered (document : NetworkPolicyFile) (flow : Flow) : Prop :=
  (∃ r ∈ document.rules, RuleMatches document r flow) ∨
    ∃ addr, addrFromIP flow.destIP = some addr ∧ Netnode.inRange addr

section Decisions

variable {cel : Cel} {document document' : NetworkPolicyFile} {p p' : Policy} {flow : Flow}

variable {decision : Decision}

theorem DecidedBy.allow (h : DecidedBy document flow r decision)
    (hr : r.verdict = "allow") : decision.action = .allow := by
  have haction := h.action
  rw [hr] at haction
  exact (Option.some.inj haction).symm

theorem DecidedBy.deny (h : DecidedBy document flow r decision)
    (hr : r.verdict = "deny") : decision.action = .deny := by
  have haction := h.action
  rw [hr] at haction
  exact (Option.some.inj haction).symm

theorem FirstMatch.eq {i j : Nat} (hi : FirstMatch document flow i r)
    (hj : FirstMatch document flow j s) : r = s := by
  obtain rfl := hi.unique hj
  exact Option.some.inj (hi.declared.symm.trans hj.declared)

theorem Compiled.decidedBy (hc : Compiled cel document p)
    (hfirst : FirstMatch document flow i r) : DecidedBy document flow r (Policy.evaluateFlow (some p) flow) := by
  rcases hc.evaluateFlow_cases flow with ⟨j, s, hfirst', hby, -⟩ | ⟨hno, -⟩
  · rw [hfirst.eq hfirst']
    exact hby
  · exact absurd hfirst.applies (hno r hfirst.mem)

namespace Rerouted

variable (h : Rerouted document document')

include h

theorem default_action (hdefault : DecidedByDefault document' decision) :
    (document.settings.defaultAction = "deny" → decision.action = .deny) ∧
      (document.settings.defaultAction ≠ "deny" → decision.action = .allow) := by
  have haction := hdefault.action
  rw [compileDefaultAction, h.defaultAction] at haction
  constructor
  · intro hdeny
    rw [hdeny] at haction
    exact (Except.ok.inj haction).symm
  · intro hdeny
    split at haction
    · exact (Except.ok.inj haction).symm
    · rw [orFail_eq_ok] at haction
      unfold Action.ofString at haction
      split at haction
      · exact (Option.some.inj haction).symm
      · exact absurd ‹_› hdeny
      · cases haction

variable (hc : Compiled cel document p)

include hc

/-- Only authored deny rules are left to an ordinary flow. -/
theorem matches_ordinary (hordinary : flow.tailnetDestination = false) {j : Nat} (hs : document'.rules[j]? = some s)
    (hm : RuleMatches document' s flow) :
    ∃ r ∈ document.rules, RuleMatches document r flow ∧ r.verdict = "deny" ∧ s = r := by
  rcases h.getElem?_cases hs with ⟨r, hr, hrouted⟩ | ⟨-, hadded⟩
  · have hmem := mem_of_getElem? hr
    obtain ⟨hmatch, htailnet⟩ := (h.matches_iff hc hmem hrouted).1 hm
    rcases hc.verdict_cases hmem with hallow | hdeny
    · exact absurd (htailnet hallow) (by simp [hordinary])
    · refine ⟨r, hmem, hmatch, hdeny, ?_⟩
      rcases hrouted with ⟨⟨hallow, -⟩, -⟩ | ⟨-, rfl⟩
      · exact absurd (hallow.symm.trans hdeny) (by decide)
      · rfl
  · have := (h.matches_tailnetRule.1 ⟨s, hadded, hm⟩).1
    exact absurd this (by simp [hordinary])

theorem matches_deny (hr : r ∈ document.rules) (hm : RuleMatches document r flow) (hdeny : r.verdict = "deny") :
    ∃ s ∈ document'.rules, RuleMatches document' s flow := by
  obtain ⟨i, hi⟩ := getElem?_of_mem hr
  obtain ⟨s, hs, hrouted⟩ := h.getElem?_routed hi
  exact ⟨s, mem_of_getElem? hs, (h.matches_iff hc hr hrouted).2
    ⟨hm, fun hallow => absurd (hallow.symm.trans hdeny) (by decide)⟩⟩

/-- An ordinary flow is decided as before unless an allow rule let it through. -/
theorem ordinaryKept_iff (hc' : Compiled cel document' p') (hordinary : flow.tailnetDestination = false) :
    OrdinaryKept p p' flow ↔ ¬ AllowedByRule document flow := by
  rcases hc.evaluateFlow_cases flow with ⟨i, r, hfirst, hby, hclass⟩ | ⟨hno, hdefault, hclass⟩
  · have hmem := hfirst.mem
    rcases hc'.evaluateFlow_cases flow with ⟨j, s, hfirst', hby', hclass'⟩ | ⟨hno', hdefault', hclass'⟩
    · -- a deny rule decides in the new document, so it has to decide in the old one
      obtain ⟨s, hs, hsm, hdeny, rfl⟩ := h.matches_ordinary hc hordinary hfirst'.declared hfirst'.applies
      rcases hc.verdict_cases hmem with hallow | hdenied
      · refine iff_of_false (fun hkept => ?_) (not_not.2 ⟨⟨i, r, hfirst, hallow⟩, .inr ⟨s, hs, hsm, hdeny⟩⟩)
        exact absurd ((hby'.deny hdeny).symm.trans (hkept.action.trans (hby.allow hallow))) (by decide)
      · refine iff_of_true ⟨(hby'.deny hdeny).trans (hby.deny hdenied).symm, Bool.eq_iff_iff.2 ?_⟩ ?_
        · rw [hclass, hclass', hdeny, hdenied]
          simp
        · rintro ⟨⟨k, q, hq, hallow⟩, -⟩
          rw [hq.eq hfirst] at hallow
          exact absurd (hallow.symm.trans hdenied) (by decide)
    · -- no rule is left: the default decides in the new document
      have hnodeny : ¬ ∃ s ∈ document.rules, RuleMatches document s flow ∧ s.verdict = "deny" := by
        rintro ⟨s, hs, hsm, hdeny⟩
        obtain ⟨s', hs', hsm'⟩ := h.matches_deny hc hs hsm hdeny
        exact hno' s' hs' hsm'
      have hallow : r.verdict = "allow" :=
        (hc.verdict_cases hmem).resolve_right fun hdeny => hnodeny ⟨r, hmem, hfirst.applies, hdeny⟩
      have haction := h.default_action hdefault'
      by_cases hdeny : document.settings.defaultAction = "deny"
      · refine iff_of_false (fun hkept => ?_) (not_not.2 ⟨⟨i, r, hfirst, hallow⟩, .inl hdeny⟩)
        exact absurd ((haction.1 hdeny).symm.trans (hkept.action.trans (hby.allow hallow))) (by decide)
      · refine iff_of_true ⟨(haction.2 hdeny).trans (hby.allow hallow).symm, Bool.eq_iff_iff.2 ?_⟩ ?_
        · rw [hclass, hclass', h.classifiable_iff]
          simp [h.untunnelled r hmem, hallow]
        · rintro ⟨-, hdefault | hs⟩
          · exact hdeny hdefault
          · exact hnodeny hs
  · have hno' : NoMatch document' flow := by
      intro s hs hsm
      obtain ⟨j, hj⟩ := getElem?_of_mem hs
      obtain ⟨r, hr, hrm, -⟩ := h.matches_ordinary hc hordinary hj hsm
      exact hno r hr hrm
    rcases hc'.evaluateFlow_cases flow with ⟨j, s, hfirst', -⟩ | ⟨-, hdefault', hclass'⟩
    · exact absurd hfirst'.applies (hno' s hfirst'.mem)
    · refine iff_of_true ⟨?_, Bool.eq_iff_iff.2 ?_⟩ ?_
      · have haction := hdefault'.action
        rw [compileDefaultAction, h.defaultAction] at haction
        exact Except.ok.inj (haction.symm.trans hdefault.action)
      · rw [hclass, hclass', h.classifiable_iff]
      · rintro ⟨⟨i, r, hfirst, -⟩, -⟩
        exact hno r hfirst.mem hfirst.applies

theorem firstMatch_routed (htailnet : flow.tailnetDestination) (hfirst : FirstMatch document flow i r) :
    ∃ s, FirstMatch document' flow i s ∧ RoutedRule document r s := by
  obtain ⟨s, hs, hrouted⟩ := h.getElem?_routed hfirst.declared
  have hmem := hfirst.mem
  refine ⟨s, ⟨hs, (h.matches_iff hc hmem hrouted).2 ⟨hfirst.applies, fun _ => htailnet⟩, fun j t ht htm hji => ?_⟩, hrouted⟩
  rw [hrouted.same.2.2]
  rcases h.getElem?_cases ht with ⟨q, hq, hqt⟩ | ⟨hj, hadded⟩
  · rw [hqt.same.2.2]
    exact hfirst.first j q hq ((h.matches_iff hc (mem_of_getElem? hq) hqt).1 htm).1 hji
  · have hi := (List.getElem?_eq_some_iff.1 hfirst.declared).1
    have hleast : t.priority = leastPriority := by
      simp only [tailnetRules, mem_cons, not_mem_nil, or_false] at hadded
      rcases hadded with rfl | rfl <;> rfl
    have := h.priorities r hmem
    omega

/-- A TCP flow to the tailnet is routed unless nothing covers it. -/
theorem tailnetRouted_iff (hc' : Compiled cel document' p') (htailnet : flow.tailnetDestination)
    (htcp : toLower flow.protocol.toList = "tcp".toList) :
    TailnetRouted document p' flow ↔ TailnetCovered document flow := by
  rcases hc.evaluateFlow_cases flow with ⟨i, r, hfirst, -⟩ | ⟨hno, -⟩
  · have hmem := hfirst.mem
    obtain ⟨s, hfirst', hrouted⟩ := h.firstMatch_routed hc htailnet hfirst
    have hby := hc'.decidedBy hfirst'
    refine iff_of_true ⟨?_, fun hnot => ?_⟩ (.inl ⟨r, hmem, hfirst.applies⟩)
    · rintro ⟨j, q, hq, hdeny⟩
      rw [hq.eq hfirst] at hdeny
      rcases hrouted with ⟨⟨hallow, -⟩, -⟩ | ⟨-, rfl⟩
      · exact absurd (hallow.symm.trans hdeny) (by decide)
      · exact hby.deny hdeny
    · have hallow := (hc.verdict_cases hmem).resolve_right fun hdeny => hnot ⟨i, r, hfirst, hdeny⟩
      rcases hrouted with ⟨-, rfl⟩ | ⟨hno, -⟩
      · exact ⟨hby.allow hallow, hby.tunnel.trans (if_neg (show "vm" ≠ "" by decide))⟩
      · exact absurd ((h.allowsIP_iff hfirst.applies).2 hallow) hno
  · have hnot : ¬ DeniedFirst document flow := by
      rintro ⟨j, q, hq, -⟩
      exact hno q hq.mem hq.applies
    have hcovered : TailnetCovered document flow ↔ ∃ s ∈ tailnetRules, RuleMatches document' s flow := by
      rw [h.matches_tailnetRule, matches_tailnetEndpoints]
      simp only [TailnetCovered, htailnet, htcp, true_and]
      refine or_iff_right ?_
      rintro ⟨r, hr, hm⟩
      exact hno r hr hm
    rw [hcovered]
    rcases hc'.evaluateFlow_cases flow with ⟨j, s, hfirst', hby', -⟩ | ⟨hno', hdefault', -⟩
    · have hadded : s ∈ tailnetRules := by
        rcases h.getElem?_cases hfirst'.declared with ⟨q, hq, hqs⟩ | ⟨-, hadded⟩
        · have hqmem := mem_of_getElem? hq
          exact absurd ((h.matches_iff hc hqmem hqs).1 hfirst'.applies).1 (hno q hqmem)
        · exact hadded
      refine iff_of_true ⟨fun hdenied => absurd hdenied hnot, fun _ => ?_⟩ ⟨s, hadded, hfirst'.applies⟩
      simp only [tailnetRules, mem_cons, not_mem_nil, or_false] at hadded
      rcases hadded with rfl | rfl <;> exact ⟨hby'.allow rfl, hby'.tunnel⟩
    · refine iff_of_false (fun hrouted => ?_) ?_
      · exact absurd ((hrouted.tunnelled hnot).2.symm.trans hdefault'.tunnel) (by simp)
      · rintro ⟨s, hs, hm⟩
        obtain ⟨routed, -, hrules⟩ := h.rules
        exact hno' s (hrules ▸ mem_append_right _ hs) hm

end Rerouted

end Decisions

end Silo.Netd
