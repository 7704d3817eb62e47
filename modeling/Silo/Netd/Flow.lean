import Silo.Lib.Priority
import Silo.Netd.Compiled
import Silo.Netd.Eval
/-!
# Flow decisions

`EvaluateFlow` on a compiled policy against the document it came from: which rules
match a flow, which match comes first, and what the decision is.
-/

namespace Silo.Netd

open Go Lib List PortRange

/-! ## The specification, on the document -/

def InCIDRs (cidrs : List String) (ip : List UInt8) : Prop :=
  cidrs = [] ∨ ∃ addr, addrFromIP ip = some addr ∧
    ∃ cidr ∈ cidrs, ∃ p, parsePrefix cidr.toList = some p ∧ p.contains addr

/-- An IP endpoint declaration matches a flow: protocol, destination port, source and destination. -/
structure EndpointMatches (d : EndpointDecl) (flow : Flow) : Prop where
  protocol : normalizeProtocol d.protocol = "any" ∨
    (normalizeProtocol d.protocol).toList = toLower flow.protocol.toList
  port : d.ports = [] ∨ ∃ r ∈ d.ports, r.start ≤ flow.destPort ∧ flow.destPort ≤ r.stop
  source : InCIDRs d.sourceCIDRs flow.sourceIP
  destination : InCIDRs d.destinationCIDRs flow.destIP

def EndpointDecl.IPFamily (d : EndpointDecl) : Prop :=
  ∃ definition, Registry.endpoint d.kind = some definition ∧ definition.family = .ip

/-- An enabled IP rule matches a flow; one that carries a tunnel only on the way to the tailnet. -/
structure RuleMatches (document : NetworkPolicyFile) (r : RuleDecl) (flow : Flow) : Prop where
  enabled : r.disabled = false
  family : ∀ name ∈ r.endpoints, ∃ d ∈ document.endpoints, d.name = name ∧ d.IPFamily
  tailnet : r.tunnel ≠ "" → flow.tailnetDestination
  endpoint : ∃ name ∈ r.endpoints, ∃ d ∈ document.endpoints, d.name = name ∧ EndpointMatches d flow

/-- Rule `i` matches and comes before every other match: higher priority, then document order. -/
structure FirstMatch (document : NetworkPolicyFile) (flow : Flow) (i : Nat) (r : RuleDecl) : Prop where
  declared : document.rules[i]? = some r
  applies : RuleMatches document r flow
  first : ∀ j s, document.rules[j]? = some s → RuleMatches document s flow → j ≠ i →
    s.priority < r.priority ∨ (s.priority = r.priority ∧ i < j)

variable {document : NetworkPolicyFile}

theorem FirstMatch.mem {flow : Flow} {i : Nat} {r : RuleDecl}
    (h : FirstMatch document flow i r) : r ∈ document.rules := mem_of_getElem? h.declared

def NoMatch (document : NetworkPolicyFile) (flow : Flow) : Prop := ∀ r ∈ document.rules, ¬ RuleMatches document r flow

/-- Some HTTP, HTTPS or registry endpoint binds the destination port of the TCP flow. -/
def Classifiable (document : NetworkPolicyFile) (flow : Flow) : Prop :=
  toLower flow.protocol.toList = "tcp".toList ∧
    ∃ d ∈ document.endpoints, ∃ definition, Registry.endpoint d.kind = some definition ∧
      definition.transport ≠ .packetFilter ∧
      ∃ host ∈ d.hosts, ∃ b, parseBinding host definition.defaultPort = .ok b ∧ b.port = flow.destPort

/-! ## Ports -/

theorem PortRange.covers_iff {r : PortRange} {port : UInt16} :
    r.covers port ↔ r.start ≤ port ∧ port ≤ r.stop := by simp [covers]

theorem mergePortRanges_covers (port : UInt16) (l : List PortRange) (last : PortRange)
    (hsorted : (last :: l).Pairwise (fun a b => a.start ≤ b.start)) :
    (∃ r ∈ mergePortRanges last l, r.covers port) ↔ ∃ r ∈ last :: l, r.covers port := by
  induction l generalizing last with
  | nil => simp [mergePortRanges]
  | cons c l ih =>
    obtain ⟨hlast, hl⟩ := pairwise_cons.1 hsorted
    obtain ⟨hc, hl'⟩ := pairwise_cons.1 hl
    have hlc := hlast c (by simp)
    unfold mergePortRanges
    split
    · rename_i hjoin
      rw [ih _ (pairwise_cons.2 ⟨fun b hb => ?_, hl'⟩)]
      · simp only [mem_cons, exists_eq_or_imp, covers_iff]
        rw [← or_assoc]
        refine or_congr ?_ Iff.rfl
        split <;> simp only [UInt16.le_iff_toNat_le, UInt16.lt_iff_toNat_lt] at * <;> omega
      · have : last.start ≤ b.start := hlast b (by simp [hb])
        split <;> exact this
    · have := ih c hl
      simp only [mem_cons, exists_eq_or_imp] at this ⊢
      rw [this]

theorem PortRange.before_start {a b : PortRange} (h : a.before b) : a.start ≤ b.start := by
  rcases h with h | ⟨h, -⟩
  · exact UInt16.le_of_lt h
  · exact h ▸ UInt16.le_refl _

instance : Std.Total PortRange.before where
  total a b := by
    simp only [PortRange.before, UInt16.lt_iff_toNat_lt, UInt16.le_iff_toNat_le, ← UInt16.toNat_inj]
    omega

instance : IsTrans PortRange PortRange.before where
  trans a b c h h' := by
    simp only [PortRange.before, UInt16.lt_iff_toNat_lt, UInt16.le_iff_toNat_le, ← UInt16.toNat_inj] at *
    omega

/-- Normalising port ranges keeps the ports they cover, also when a range is inverted. -/
theorem normalizePortRanges_covers (ranges : List PortRange) (port : UInt16) :
    (∃ r ∈ normalizePortRanges ranges, r.covers port) ↔ ∃ r ∈ ranges, r.covers port := by
  have hperm := perm_insertionSort before ranges
  have hsorted := (pairwise_insertionSort before ranges).imp before_start
  unfold normalizePortRanges
  cases hs : ranges.insertionSort before with
  | nil =>
    rw [hs] at hperm
    simp [hperm.symm.eq_nil]
  | cons first rest =>
    rw [hs] at hperm hsorted
    simp only [mergePortRanges_covers port rest first hsorted, hperm.mem_iff]

theorem mergePortRanges_ne_nil (last : PortRange) (l : List PortRange) : mergePortRanges last l ≠ [] := by
  induction l generalizing last with
  | nil => simp [mergePortRanges]
  | cons c l ih =>
    unfold mergePortRanges
    split
    · exact ih _
    · simp

variable {ranges : List PortRange}

theorem normalizePortRanges_eq_nil : normalizePortRanges ranges = [] ↔ ranges = [] := by
  have hperm := perm_insertionSort before ranges
  unfold normalizePortRanges
  cases hs : ranges.insertionSort before with
  | nil => simpa [hs] using hperm
  | cons first rest =>
    rw [hs] at hperm
    constructor
    · intro h; exact absurd h (mergePortRanges_ne_nil _ _)
    · rintro rfl; exact absurd hperm.eq_nil (by simp)

/-- Sorted by start, with at least one port between one range and the next. -/
structure Normalized (ranges : List PortRange) : Prop where
  valid : ∀ r ∈ ranges, r.start ≤ r.stop
  sorted : ranges.Pairwise fun a b => a.start ≤ b.start
  separate : ranges.Pairwise fun a b => a.stop.toNat + 1 < b.start.toNat

theorem Normalized.cons {r : PortRange} (h : Normalized ranges) (hr : r.start ≤ r.stop)
    (hapart : ∀ b ∈ ranges, r.stop.toNat + 1 < b.start.toNat) : Normalized (r :: ranges) := by
  refine ⟨forall_mem_cons.2 ⟨hr, h.valid⟩, pairwise_cons.2 ⟨fun b hb => ?_, h.sorted⟩,
    pairwise_cons.2 ⟨hapart, h.separate⟩⟩
  have := hapart b hb
  rw [UInt16.le_iff_toNat_le] at hr ⊢
  omega

theorem le_start_of_mem_mergePortRanges {l : List PortRange} {last r : PortRange}
    (hsorted : (last :: l).Pairwise fun a b => a.start ≤ b.start) (hr : r ∈ mergePortRanges last l) :
    last.start ≤ r.start := by
  induction l generalizing last with
  | nil =>
    rw [mem_singleton.1 hr]
    exact UInt16.le_refl _
  | cons c l ih =>
    obtain ⟨hlast, hl⟩ := pairwise_cons.1 hsorted
    unfold mergePortRanges at hr
    split at hr
    · -- the open range keeps its start
      have hkeep : ∀ open_ : PortRange, open_.start = last.start → r ∈ mergePortRanges open_ l → last.start ≤ r.start := by
        intro open_ hstart hmem
        rw [← hstart]
        refine ih (pairwise_cons.2 ⟨fun b hb => ?_, (pairwise_cons.1 hl).2⟩) hmem
        rw [hstart]
        exact hlast b (mem_cons_of_mem _ hb)
      split at hr
      · exact hkeep { last with stop := c.stop } rfl hr
      · exact hkeep last rfl hr
    · rcases mem_cons.1 hr with rfl | hr
      · exact UInt16.le_refl _
      · exact UInt16.le_trans (hlast c mem_cons_self) (ih hl hr)

/-- The loop closes a range only when the next one starts two ports later or more. -/
theorem mergePortRanges_normalized {l : List PortRange} {last : PortRange}
    (hsorted : (last :: l).Pairwise fun a b => a.start ≤ b.start) (hvalid : ∀ r ∈ last :: l, r.start ≤ r.stop) :
    Normalized (mergePortRanges last l) := by
  induction l generalizing last with
  | nil => exact ⟨hvalid, pairwise_singleton _ _, pairwise_singleton _ _⟩
  | cons c l ih =>
    obtain ⟨hlast, hl⟩ := pairwise_cons.1 hsorted
    obtain ⟨hv, hvl⟩ := forall_mem_cons.1 hvalid
    have htail : ∀ b ∈ l, last.start ≤ b.start := fun b hb => hlast b (mem_cons_of_mem _ hb)
    have hrest := (pairwise_cons.1 hl).2
    have hvrest := (forall_mem_cons.1 hvl).2
    unfold mergePortRanges
    split
    · split
      · next hgrow =>
        refine ih (pairwise_cons.2 ⟨htail, hrest⟩) (forall_mem_cons.2 ⟨?_, hvrest⟩)
        exact UInt16.le_trans hv (UInt16.le_of_lt hgrow)
      · exact ih (pairwise_cons.2 ⟨htail, hrest⟩) (forall_mem_cons.2 ⟨hv, hvrest⟩)
    · next hgap =>
      refine (ih hl hvl).cons hv fun b hb => ?_
      have hle := le_start_of_mem_mergePortRanges hl hb
      rw [UInt16.le_iff_toNat_le] at hle
      omega

theorem normalizePortRanges_normalized (hvalid : ∀ r ∈ ranges, r.start ≤ r.stop) :
    Normalized (normalizePortRanges ranges) := by
  have hperm := perm_insertionSort before ranges
  have hsorted := (pairwise_insertionSort before ranges).imp before_start
  unfold normalizePortRanges
  cases hs : ranges.insertionSort before with
  | nil => exact ⟨by simp, .nil, .nil⟩
  | cons first rest =>
    rw [hs] at hperm hsorted
    exact mergePortRanges_normalized hsorted fun r hr => hvalid r (hperm.mem_iff.1 hr)

/-! ## Endpoints -/

theorem parsePrefixes_ok {refuse : String → EndpointError} {cidrs : List String} {ps : List IPPrefix}
    (h : parsePrefixes refuse cidrs = .ok ps) :
    List.Forall₂ (fun cidr p => parsePrefix cidr.toList = some p) cidrs ps := by
  induction cidrs generalizing ps with
  | nil => cases h; exact .nil
  | cons c cidrs ih =>
    unfold parsePrefixes at h
    split at h
    · cases h
    split at h
    · cases h
    rename_i p hp _ qs hqs
    cases h
    exact .cons hp (ih hqs)

theorem Addr.unmap_unmap (a : Addr) : a.unmap.unmap = a.unmap := by
  cases a with
  | v4 b => rfl
  | v6 b zone =>
    by_cases h : b >>> 32 = 0xffff#128
    · simp [Addr.unmap, h]
    · simp [Addr.unmap, h]

theorem matchesPrefixes_iff {cidrs : List String} {ps : List IPPrefix} {ip : List UInt8}
    (h : List.Forall₂ (fun cidr p => parsePrefix cidr.toList = some p) cidrs ps) :
    IPEndpoint.matchesPrefixes ps ip ↔ InCIDRs cidrs ip := by
  have hany : ∀ addr, (∃ p ∈ ps, p.contains addr) ↔
      ∃ cidr ∈ cidrs, ∃ p, parsePrefix cidr.toList = some p ∧ p.contains addr := by
    intro addr
    constructor
    · rintro ⟨p, hp, hc⟩
      obtain ⟨cidr, hcidr, hpp⟩ := forall₂_exists_left h p hp
      exact ⟨cidr, hcidr, p, hpp, hc⟩
    · rintro ⟨cidr, hcidr, p, hpp, hc⟩
      obtain ⟨q, hq, hpq⟩ := forall₂_exists_right h cidr hcidr
      rw [hpp] at hpq
      cases hpq
      exact ⟨p, hq, hc⟩
  cases h with
  | nil => simp [IPEndpoint.matchesPrefixes, InCIDRs]
  | @cons c p cidrs ps hc hrest =>
    unfold IPEndpoint.matchesPrefixes InCIDRs
    simp only [isEmpty_cons, Bool.false_eq_true, if_false, reduceCtorEq, false_or]
    cases ha : addrFromIP ip with
    | none => simp
    | some addr =>
      have hu : addr.unmap = addr := by
        obtain ⟨a, -, rfl⟩ := Option.map_eq_some_iff.1 ha
        exact Addr.unmap_unmap a
      simp only [prefixesContain, hu, any_eq_true, hany, Option.some.injEq, exists_eq_left']

theorem IPEndpoint.matchFlow_isSome (e : IPEndpoint) (flow : Flow) :
    (e.matchFlow flow).isSome ↔ e.matchesProtocol flow.protocol ∧
      (e.matchPort flow.destPort).isSome ∧ matchesPrefixes e.sourcePrefixes flow.sourceIP ∧
      matchesPrefixes e.destinationPrefixes flow.destIP := by
  unfold matchFlow
  cases e.matchesProtocol flow.protocol <;> cases e.matchPort flow.destPort <;>
    cases matchesPrefixes e.sourcePrefixes flow.sourceIP <;>
    cases matchesPrefixes e.destinationPrefixes flow.destIP <;> simp

theorem IPEndpoint.matchPort_isSome (e : IPEndpoint) (port : UInt16) :
    (e.matchPort port).isSome ↔ e.ports = [] ∨ ∃ r ∈ e.ports, r.covers port := by
  unfold matchPort
  cases he : e.ports with
  | nil => simp
  | cons r rs => simp [find?_isSome]

variable {e : IPEndpoint}

theorem compileIPEndpoint_ok {d : EndpointDecl} (h : compileIPEndpoint d = .ok e) :
    e.name = d.name ∧ e.protocol = normalizeProtocol d.protocol ∧ e.ports = normalizePortRanges d.ports ∧
      List.Forall₂ (fun cidr p => parsePrefix cidr.toList = some p) d.sourceCIDRs e.sourcePrefixes ∧
      List.Forall₂ (fun cidr p => parsePrefix cidr.toList = some p) d.destinationCIDRs e.destinationPrefixes := by
  simp only [compileIPEndpoint] at h
  split at h
  · cases h
  split at h
  · cases h
  split at h
  · cases h
  split at h
  · cases h
  rename_i sources hsources
  split at h
  · cases h
  rename_i destinations hdestinations
  cases h
  refine ⟨rfl, ?_, ?_, parsePrefixes_ok hsources, parsePrefixes_ok hdestinations⟩
  · with_reducible rfl
  · with_reducible rfl

theorem matchFlow_iff {d : EndpointDecl} (h : compileIPEndpoint d = .ok e) (flow : Flow) :
    (e.matchFlow flow).isSome ↔ EndpointMatches d flow := by
  obtain ⟨-, hproto, hports, hsources, hdestinations⟩ := compileIPEndpoint_ok h
  have hprotocol : e.matchesProtocol flow.protocol ↔ normalizeProtocol d.protocol = "any" ∨
      (normalizeProtocol d.protocol).toList = toLower flow.protocol.toList := by
    rw [IPEndpoint.matchesProtocol, hproto, Bool.or_eq_true, decide_eq_true_iff, decide_eq_true_iff]
  have hport : (e.matchPort flow.destPort).isSome ↔
      d.ports = [] ∨ ∃ r ∈ d.ports, r.start ≤ flow.destPort ∧ flow.destPort ≤ r.stop := by
    rw [IPEndpoint.matchPort_isSome, hports, normalizePortRanges_eq_nil, normalizePortRanges_covers]
    simp only [covers_iff]
  rw [IPEndpoint.matchFlow_isSome, hprotocol, hport, matchesPrefixes_iff hsources, matchesPrefixes_iff hdestinations]
  exact ⟨fun ⟨h1, h2, h3, h4⟩ => ⟨h1, h2, h3, h4⟩, fun ⟨h1, h2, h3, h4⟩ => ⟨h1, h2, h3, h4⟩⟩

/-- Normalised port ranges are sorted and apart, with the ports of the list; a compiled endpoint matches a flow on its
port when no range is declared or one of them covers it. -/
theorem port_ranges_kept {ranges : List PortRange} (hvalid : ∀ r ∈ ranges, r.start ≤ r.stop) :
    Normalized (normalizePortRanges ranges) ∧
      (∀ port, (∃ r ∈ normalizePortRanges ranges, r.covers port = true) ↔ ∃ r ∈ ranges, r.covers port = true) ∧
      ∀ d e, d.ports = ranges → compileIPEndpoint d = .ok e → ∀ flow, (e.matchFlow flow).isSome = true ↔
        (e.matchesProtocol flow.protocol = true ∧ IPEndpoint.matchesPrefixes e.sourcePrefixes flow.sourceIP = true ∧
          IPEndpoint.matchesPrefixes e.destinationPrefixes flow.destIP = true) ∧
        (ranges = [] ∨ ∃ r ∈ ranges, r.covers flow.destPort = true) := by
  refine ⟨normalizePortRanges_normalized hvalid, normalizePortRanges_covers ranges, ?_⟩
  rintro d e rfl h flow
  obtain ⟨-, -, hports, -⟩ := compileIPEndpoint_ok h
  rw [IPEndpoint.matchFlow_isSome, IPEndpoint.matchPort_isSome, hports, normalizePortRanges_eq_nil,
    normalizePortRanges_covers]
  tauto

/-- Overlapping and adjacent ranges, up to the last port. -/
theorem port_ranges_of_overlapping :
    Normalized (normalizePortRanges [⟨443, 65535⟩, ⟨81, 90⟩, ⟨65535, 65535⟩, ⟨80, 80⟩]) :=
  (port_ranges_kept (by decide)).1

theorem any_port_without_ranges :
    ∃ d e, d.ports = [] ∧ compileIPEndpoint d = .ok e ∧
      (e.matchFlow { protocol := "tcp", sourceIP := [10, 0, 0, 1], destPort := 22 }).isSome = true := by
  let d : EndpointDecl :=
    { kind := "ip", name := "web", family := "ip", transport := "packet-filter", tls := "none",
      sourceCIDRs := ["10.0.0.0/8"], protocol := "tcp" }
  obtain ⟨e, he, hm⟩ := exists_ok_of_map (x := compileIPEndpoint d)
    (f := fun e => (e.matchFlow { protocol := "tcp", sourceIP := [10, 0, 0, 1], destPort := 22 }).isSome)
    (b := true) (by decide)
  exact ⟨d, e, rfl, he, hm⟩

/-! ## Rules -/

variable {flow : Flow}

theorem matchIPEndpoints_eq (p : Policy) (refs : List Ref) : p.matchIPEndpoints flow refs =
    refs.findSome? fun ref => (p.ipEndpoints.get? ref.string).bind fun e => (e.matchFlow flow).map (e, ·) := by
  induction refs with
  | nil => rfl
  | cons ref refs ih =>
    rw [Policy.matchIPEndpoints, findSome?_cons, ih]
    cases p.ipEndpoints.get? ref.string with
    | none => rfl
    | some e => cases h : e.matchFlow flow <;> simp [h]

theorem matchIPEndpoints_some {p : Policy} {refs : List Ref} {m : L4Match}
    (h : p.matchIPEndpoints flow refs = some (e, m)) :
    ∃ ref ∈ refs, p.ipEndpoints.get? ref.string = some e ∧ e.matchFlow flow = some m := by
  rw [matchIPEndpoints_eq] at h
  obtain ⟨ref, href, hmatch⟩ := exists_of_findSome?_eq_some h
  obtain ⟨_, hget, hmatch⟩ := Option.bind_eq_some_iff.1 hmatch
  obtain ⟨_, hm, heq⟩ := Option.map_eq_some_iff.1 hmatch
  cases heq
  exact ⟨ref, href, hget, hm⟩

theorem matchIPEndpoints_isSome {p : Policy} {refs : List Ref} {ref : Ref}
    (href : ref ∈ refs) (hget : p.ipEndpoints.get? ref.string = some e) (hm : (e.matchFlow flow).isSome) :
    (p.matchIPEndpoints flow refs).isSome := by
  rw [matchIPEndpoints_eq, findSome?_isSome_iff]
  exact ⟨ref, href, by simpa [hget] using hm⟩

/-- The test the loop of `EvaluateFlow` makes on a rule. -/
def Policy.flowRuleMatches (p : Policy) (flow : Flow) (r : Rule) : Bool :=
  (r.tunnel.isNone || flow.tailnetDestination) && (p.matchIPRule r flow).isSome

theorem evaluateFlowRules_eq (p : Policy) (flow : Flow) (rules : List Rule) :
    (∃ r e m, rules.find? (p.flowRuleMatches flow) = some r ∧ p.matchIPRule r flow = some (e, m) ∧
        p.evaluateFlowRules flow rules = p.flowRuleDecision flow r e m) ∨
      (rules.find? (p.flowRuleMatches flow) = none ∧
        p.evaluateFlowRules flow rules = p.flowDefaultDecision flow) := by
  induction rules with
  | nil => exact .inr ⟨rfl, rfl⟩
  | cons r rules ih =>
    unfold Policy.evaluateFlowRules
    split
    · rename_i hskip
      have : p.flowRuleMatches flow r = false := by
        simp only [Bool.and_eq_true, Bool.not_eq_true'] at hskip
        simp [Policy.flowRuleMatches, Option.isSome_iff_ne_none.1 hskip.1, hskip.2]
      rw [find?_cons_of_neg (by simp [this])]
      exact ih
    · rename_i hskip
      cases hm : p.matchIPRule r flow with
      | none =>
        rw [find?_cons_of_neg (by simp [Policy.flowRuleMatches, hm])]
        exact ih
      | some em =>
        have : p.flowRuleMatches flow r := by
          simp only [Bool.and_eq_true, Bool.not_eq_true', not_and, Bool.not_eq_false] at hskip
          cases ht : r.tunnel with
          | none => simp [Policy.flowRuleMatches, hm, ht]
          | some t => simp [Policy.flowRuleMatches, hm, ht, hskip (by simp [ht])]
        rw [find?_cons_of_pos this]
        exact .inl ⟨r, em.1, em.2, rfl, hm, rfl⟩

/-! ## Classification -/

theorem hostBindingKey_port {t t' : Transport} {h h' : String} {port port' : UInt16} {w w' : Bool}
    (hkey : hostBindingKey t h port w = hostBindingKey t' h' port' w') : port = port' := by
  have hbar : ∀ n, '|' ∉ (itoa n).reverse := fun n hc =>
    absurd (Nat.isDigit_of_mem_toDigits (by decide) (by decide) (mem_reverse.1 hc)) (by decide)
  have hsplit : ∀ (t : Transport) (h : String) (port : UInt16) (w : Bool), ∃ pre,
      (hostBindingKey t h port w).toList.reverse = (itoa port.toNat).reverse ++ '|' :: pre := by
    intro t h port w
    refine ⟨(t.string ++ "|" ++ (if w then "wildcard" else "exact") ++ "|" ++ h).toList.reverse, ?_⟩
    simp [hostBindingKey, String.toList_append]
  obtain ⟨pre, hpre⟩ := hsplit t h port w
  obtain ⟨pre', hpre'⟩ := hsplit t' h' port' w'
  rw [hkey, hpre'] at hpre
  have hdigits := reverse_inj.1 (append_sep_inj (hbar _) (hbar _) hpre).1
  have := congrArg (fun l => Nat.ofDigitChars 10 l 0) hdigits
  simp only [itoa, Nat.ofDigitChars_toDigits (show 1 < 10 by decide) (show 10 ≤ 10 by decide)] at this
  exact UInt16.toNat_inj.1 this.symm

theorem compileHosts_ports {definition : EndpointDefinition} {hosts : List String} {acc bs : List Binding}
    (h : compileHosts definition hosts acc = .ok bs) (port : UInt16) :
    (∃ b ∈ bs, b.port = port) ↔ (∃ b ∈ acc, b.port = port) ∨
      ∃ host ∈ hosts, ∃ b, parseBinding host definition.defaultPort = .ok b ∧ b.port = port := by
  induction hosts generalizing acc with
  | nil => cases h; simp
  | cons host hosts ih =>
    unfold compileHosts at h
    split at h
    · cases h
    rename_i binding hbinding
    simp only [mem_cons, exists_eq_or_imp, hbinding, Except.ok.injEq, exists_eq_left']
    split at h
    · rename_i hseen
      rw [ih h]
      obtain ⟨b, hb, hkey⟩ := any_eq_true.1 hseen
      have hport : b.port = binding.port := hostBindingKey_port (of_decide_eq_true hkey)
      constructor
      · rintro (h | h)
        · exact .inl h
        · exact .inr (.inr h)
      · rintro (h | h | h)
        · exact .inl h
        · exact .inl ⟨b, hb, hport.trans h⟩
        · exact .inr h
    · rw [ih h]
      simp only [mem_append, mem_singleton, or_and_right, exists_or, exists_eq_left, or_assoc]

section Document
variable {cel : Cel} {document : NetworkPolicyFile} {p : Policy} {d : RuleDecl} {i : Nat} {r : Rule}

theorem Registry.ip_of_family {kind : String} {definition : EndpointDefinition}
    (h : Registry.endpoint kind = some definition) (hf : definition.family = .ip) : kind = "ip" := by
  rcases (Registry.endpoint_cases h).2 with hc | hc | hc | hc <;> simp_all

section
variable (hc : Compiled cel document p)
include hc

/-- The compiled rule is filed under the family all its endpoints declare. -/
theorem RuleOf.ip_iff (hr : RuleOf p d i r) :
    r.family = .ip ↔ ∀ name ∈ d.endpoints, ∃ e ∈ document.endpoints, e.name = name ∧ e.IPFamily := by
  constructor
  · intro hf name hname
    obtain ⟨ref, href, hget⟩ := forall₂_exists_right hr.endpoints name hname
    obtain ⟨e, he, hen, rfl⟩ := (hc.endpoints.refs name ref).1 hget
    obtain ⟨definition, hdef, hfam⟩ := hr.family _ href
    obtain ⟨e', he', hkey, hdef'⟩ := (hc.endpoints.definitions _ _).1 hdef
    cases hc.endpoints.eq_of_key he' he hkey
    exact ⟨e, he, hen, definition, hdef', hfam.trans hf⟩
  · intro h
    obtain ⟨ref, href⟩ := exists_mem_of_ne_nil _ hr.nonempty
    obtain ⟨name, hname, hget⟩ := forall₂_exists_left hr.endpoints ref href
    obtain ⟨e, he, hen, definition, hdef, hfam⟩ := h name hname
    obtain ⟨e', he', hen', rfl⟩ := (hc.endpoints.refs name ref).1 hget
    cases hc.endpoints.eq_of_name he' he (hen'.trans hen.symm)
    obtain ⟨definition', hdef', hfam'⟩ := hr.family _ href
    obtain ⟨e'', he'', hkey, hdef''⟩ := (hc.endpoints.definitions _ _).1 hdef'
    cases hc.endpoints.eq_of_key he'' he hkey
    rw [hdef] at hdef''
    cases hdef''
    exact hfam'.symm.trans hfam

/-- A filed IP rule passes the loop's test exactly when its declaration matches the flow. -/
theorem RuleOf.matches_iff (hr : RuleOf p d i r) (flow : Flow) :
    (r.disabled = false ∧ r.family = .ip ∧ p.flowRuleMatches flow r) ↔ RuleMatches document d flow := by
  have htunnel : (r.tunnel.isNone || flow.tailnetDestination) ↔
      (d.tunnel ≠ "" → flow.tailnetDestination) := by
    rcases resolveTunnel_ok hr.tunnel with ⟨h1, h2⟩ | ⟨h1, -, h2⟩ <;> simp [h1, h2]
  constructor
  · rintro ⟨hd, hf, hm⟩
    simp only [Policy.flowRuleMatches, Bool.and_eq_true] at hm
    refine ⟨hr.disabled ▸ hd, (hr.ip_iff hc).1 hf, htunnel.1 hm.1, ?_⟩
    obtain ⟨⟨e, m⟩, hem⟩ := Option.isSome_iff_exists.1 hm.2
    obtain ⟨ref, href, hget, hmatch⟩ := matchIPEndpoints_some hem
    obtain ⟨name, hname, hname'⟩ := forall₂_exists_left hr.endpoints ref href
    obtain ⟨a, ha, han, rfl⟩ := (hc.endpoints.refs name ref).1 hname'
    obtain ⟨b, hb, hkey, -, hcompile⟩ := (hc.endpoints.ip _ _).1 hget
    cases hc.endpoints.eq_of_key hb ha hkey
    exact ⟨name, hname, a, ha, han, (matchFlow_iff hcompile flow).1 (by simp [hmatch])⟩
  · rintro ⟨hd, hf, ht, name, hname, a, ha, han, hmatch⟩
    refine ⟨hr.disabled.trans hd, (hr.ip_iff hc).2 hf, ?_⟩
    simp only [Policy.flowRuleMatches, Bool.and_eq_true]
    refine ⟨htunnel.2 ht, ?_⟩
    obtain ⟨ref, href, hget⟩ := forall₂_exists_right hr.endpoints name hname
    obtain ⟨b, hb, hbn, rfl⟩ := (hc.endpoints.refs name ref).1 hget
    cases hc.endpoints.eq_of_name hb ha (hbn.trans han.symm)
    obtain ⟨c, hcm, hcn, definition, hdef, hfam⟩ := hf name hname
    cases hc.endpoints.eq_of_name hcm ha (hcn.trans han.symm)
    have hkind := Registry.ip_of_family hdef hfam
    obtain ⟨e, he⟩ : ∃ e, compileIPEndpoint a = .ok e := by
      rcases hc.endpoints.compiles a ha with ⟨-, he⟩ | ⟨t, ht, e, definition', hdef', htrans, -⟩
      · exact he
      · rw [hdef] at hdef'
        cases hdef'
        rcases (Registry.endpoint_cases hdef).2 with h | h | h | h <;> simp_all
    exact matchIPEndpoints_isSome href ((hc.endpoints.ip _ _).2 ⟨a, ha, rfl, hkind, he⟩)
      ((matchFlow_iff he flow).2 hmatch)

theorem Compiled.ruleOf :
    ∃ rules, List.Forall₂ (fun d r => RuleOf p d.1 d.2 r) document.rules.zipIdx rules ∧
      ∀ family, p.rulesByFamily family =
        (enabledRules family rules).insertionSort (fun a b => b.priority ≤ a.priority) := by
  obtain ⟨rules, hrules, hsorted⟩ := hc.rules
  exact ⟨rules, hrules.imp (fun _ _ h => (compileRule_ok h).1), hsorted⟩

end

theorem mem_insertionSort_enabled {family : EndpointFamily} {rules : List Rule} {r : Rule} :
    r ∈ (enabledRules family rules).insertionSort (fun a b => b.priority ≤ a.priority) ↔
      r ∈ rules ∧ r.disabled = false ∧ r.family = family := by
  rw [(perm_insertionSort _ _).mem_iff]
  simp [enabledRules]

theorem ruleOf_order {rules : List Rule} (ds : List RuleDecl) (k : Nat)
    (h : List.Forall₂ (fun d r => RuleOf p d.1 d.2 r) (ds.zipIdx k) rules) :
    rules.Pairwise (fun a b => a.order < b.order) := by
  induction ds generalizing k rules with
  | nil => cases h; exact .nil
  | cons d ds ih =>
    rw [zipIdx_cons] at h
    cases h with
    | cons hd hrest =>
      refine pairwise_cons.2 ⟨fun b hb => ?_, ih (k + 1) hrest⟩
      obtain ⟨⟨d', j⟩, hmem, hb'⟩ := forall₂_exists_left hrest b hb
      have := (mem_zipIdx hmem).1
      rw [hd.order, hb'.order]
      simp only at *
      omega

section
variable (hc : Compiled cel document p)
include hc

/-- The IP rules of a compiled policy: where they come from, and that they stand in order of precedence. -/
theorem Compiled.flowRules :
    (∀ r ∈ p.rulesByFamily .ip, r.disabled = false ∧ r.family = .ip ∧
      ∃ i d, document.rules[i]? = some d ∧ RuleOf p d i r) ∧
    (∀ i d, document.rules[i]? = some d → ∃ r, RuleOf p d i r ∧
      (r.disabled = false → r.family = .ip → r ∈ p.rulesByFamily .ip)) ∧
    (p.rulesByFamily .ip).Pairwise (Precedes Rule.priority Rule.order) := by
  obtain ⟨rules, hrules, hsorted⟩ := hc.ruleOf
  rw [hsorted .ip]
  refine ⟨fun r hr => ?_, fun i d hd => ?_, ?_⟩
  · obtain ⟨hmem, hd, hf⟩ := mem_insertionSort_enabled.1 hr
    obtain ⟨⟨d, i⟩, hdi, hof⟩ := forall₂_exists_left hrules r hmem
    exact ⟨hd, hf, i, d, mk_mem_zipIdx_iff_getElem?.1 hdi, hof⟩
  · obtain ⟨r, hr, hof⟩ := forall₂_exists_right hrules (d, i) (mk_mem_zipIdx_iff_getElem?.2 hd)
    exact ⟨r, hof, fun h1 h2 => mem_insertionSort_enabled.2 ⟨hr, h1, h2⟩⟩
  · exact insertionSort_precedes _ _ ((ruleOf_order document.rules 0 hrules).sublist filter_sublist)

/-- Some endpoint of a transport binds the port, read off the document. -/
theorem Compiled.bindsPort_iff {t : Transport} (ht : t ≠ .packetFilter)
    (port : UInt16) : Policy.bindsPort (httpEndpointsForTransport p t) port ↔
      ∃ d ∈ document.endpoints, ∃ definition, Registry.endpoint d.kind = some definition ∧
        definition.transport = t ∧
        ∃ host ∈ d.hosts, ∃ b, parseBinding host definition.defaultPort = .ok b ∧ b.port = port := by
  simp only [Policy.bindsPort, any_eq_true, decide_eq_true_eq]
  constructor
  · rintro ⟨e, he, hb⟩
    obtain ⟨k, hk⟩ := AssocMap.mem_values.1 he
    obtain ⟨d, hd, -, definition, hdef, htr, hcompile⟩ := (hc.endpoints.http t ht k e).1 hk
    obtain ⟨-, -, -, hhosts⟩ := compileHTTPEndpointDecl_ok hcompile
    exact ⟨d, hd, definition, hdef, htr, by simpa using (compileHosts_ports hhosts port).1 hb⟩
  · rintro ⟨d, hd, definition, hdef, htr, hb⟩
    rcases hc.endpoints.compiles d hd with ⟨hk, -⟩ | ⟨t', -, e, definition', hdef', -, hcompile⟩
    · rcases (Registry.endpoint_cases hdef).2 with h | h | h | h <;> simp_all
    · rw [hdef] at hdef'
      cases hdef'
      obtain ⟨-, -, -, hhosts⟩ := compileHTTPEndpointDecl_ok hcompile
      have hget := (hc.endpoints.http t ht d.key e).2 ⟨d, hd, rfl, definition, hdef, htr, hcompile⟩
      exact ⟨e, AssocMap.mem_values.2 ⟨_, hget⟩, (compileHosts_ports hhosts port).2 (.inr hb)⟩

theorem Compiled.canClassify_iff (flow : Flow) :
    p.canClassify flow ↔ Classifiable document flow := by
  have h1 := hc.bindsPort_iff (t := .httpProxy) (by decide) flow.destPort
  have h2 := hc.bindsPort_iff (t := .httpsMITM) (by decide) flow.destPort
  have h3 := hc.bindsPort_iff (t := .tlsTerminate) (by decide) flow.destPort
  unfold Policy.canClassify Classifiable
  by_cases hp : toLower flow.protocol.toList = "tcp".toList
  · simp only [hp, ne_eq, not_true_eq_false, if_false, true_and, Bool.or_eq_true]
    show (Policy.bindsPort (httpEndpointsForTransport p .httpProxy) _ ∨
      Policy.bindsPort (httpEndpointsForTransport p .httpsMITM) _) ∨
      Policy.bindsPort (httpEndpointsForTransport p .tlsTerminate) _ ↔ _
    rw [h1, h2, h3]
    constructor
    · rintro ((⟨d, hd, definition, hdef, ht, hb⟩ | ⟨d, hd, definition, hdef, ht, hb⟩) |
        ⟨d, hd, definition, hdef, ht, hb⟩) <;> exact ⟨d, hd, definition, hdef, by simp [ht], hb⟩
    · rintro ⟨d, hd, definition, hdef, ht, hb⟩
      cases htr : definition.transport with
      | packetFilter => exact absurd htr ht
      | httpProxy => exact .inl (.inl ⟨d, hd, definition, hdef, htr, hb⟩)
      | httpsMITM => exact .inl (.inr ⟨d, hd, definition, hdef, htr, hb⟩)
      | tlsTerminate => exact .inr ⟨d, hd, definition, hdef, htr, hb⟩
  · simp only [ne_eq, hp, not_false_eq_true, if_true, Bool.false_eq_true, false_and]

end

end Document

/-! ## The decision -/

/-- The decision is the one of rule `r`, made at an endpoint of it that matches. -/
structure DecidedBy (document : NetworkPolicyFile) (flow : Flow) (r : RuleDecl) (decision : Decision) : Prop where
  source : decision.source = .rule
  action : Action.ofString r.verdict = some decision.action
  ruleName : decision.ruleName = r.name
  reason : decision.reason = r.reason
  tunnel : decision.tunnel = if r.tunnel = "" then none else some ⟨"tailscale", r.tunnel⟩
  endpoint : ∃ d ∈ document.endpoints, d.name ∈ r.endpoints ∧ EndpointMatches d flow ∧ decision.endpointName = d.name

structure DecidedByDefault (document : NetworkPolicyFile) (decision : Decision) : Prop where
  source : decision.source = .default
  action : compileDefaultAction document.settings = .ok decision.action
  tunnel : decision.tunnel = none

theorem FirstMatch.unique {i j : Nat} {r s : RuleDecl}
    (hi : FirstMatch document flow i r) (hj : FirstMatch document flow j s) : i = j := by
  by_contra hne
  have h1 := hi.first j s hj.declared hj.applies (Ne.symm hne)
  have h2 := hj.first i r hi.declared hi.applies hne
  omega

/-- Either some rule comes first and decides, or none matches and the default does; the classification
opportunity is what the loop computes for that outcome. -/
theorem Compiled.evaluateFlow_cases {cel : Cel} {p : Policy} (hc : Compiled cel document p) (flow : Flow) :
    (∃ i r, FirstMatch document flow i r ∧ DecidedBy document flow r (Policy.evaluateFlow (some p) flow) ∧
      ((Policy.evaluateFlow (some p) flow).classificationOpportunity ↔
        r.tunnel = "" ∧ r.verdict = "allow" ∧ Classifiable document flow)) ∨
    (NoMatch document flow ∧ DecidedByDefault document (Policy.evaluateFlow (some p) flow) ∧
      ((Policy.evaluateFlow (some p) flow).classificationOpportunity ↔ Classifiable document flow)) := by
  obtain ⟨hfrom, hfiled, hsorted⟩ := hc.flowRules
  rcases evaluateFlowRules_eq p flow (p.rulesByFamily .ip) with ⟨r, e, m, hfind, hmatch, heq⟩ | ⟨hnone, heq⟩
  · left
    obtain ⟨hmem, htest, hfirst⟩ := find?_first hsorted hfind
    obtain ⟨hdis, hfam, i, d, hd, hof⟩ := hfrom r hmem
    have happlies := (hof.matches_iff hc flow).1 ⟨hdis, hfam, htest⟩
    have hdecision : Policy.evaluateFlow (some p) flow = p.flowRuleDecision flow r e m := heq
    rw [hdecision]
    have htun := resolveTunnel_ok hof.tunnel
    refine ⟨i, d, ⟨hd, happlies, fun j s hs hsm hji => ?_⟩, ?_, ?_⟩
    · obtain ⟨r', hof', hfile'⟩ := hfiled j s hs
      obtain ⟨hdis', hfam', htest'⟩ := (hof'.matches_iff hc flow).2 hsm
      rcases hfirst r' (hfile' hdis' hfam') htest' with rfl | h | ⟨h, h'⟩
      · exact absurd (hof'.order.symm.trans hof.order) hji
      · exact .inl (by rwa [hof.priority, hof'.priority] at h)
      · rw [hof.priority, hof'.priority] at h
        rw [hof.order, hof'.order] at h'
        exact .inr ⟨h, h'⟩
    · refine ⟨rfl, hof.verdict, hof.name, hof.reason, ?_, ?_⟩
      · rcases htun with ⟨h1, h2⟩ | ⟨h1, -, h2⟩ <;> simp [Policy.flowRuleDecision, h1, h2]
      · obtain ⟨ref, href, hget, hm⟩ := matchIPEndpoints_some hmatch
        obtain ⟨name, hname, hname'⟩ := forall₂_exists_left hof.endpoints ref href
        obtain ⟨a, ha, han, rfl⟩ := (hc.endpoints.refs name ref).1 hname'
        obtain ⟨b, hb, hkey, -, hcompile⟩ := (hc.endpoints.ip _ _).1 hget
        cases hc.endpoints.eq_of_key hb ha hkey
        exact ⟨a, ha, han ▸ hname, (matchFlow_iff hcompile flow).1 (by simp [hm]), (compileIPEndpoint_ok hcompile).1⟩
    · have hverdict : r.verdict = .allow ↔ d.verdict = "allow" := by
        have := hof.verdict
        constructor
        · intro h; rw [h] at this; unfold Action.ofString at this; split at this <;> simp_all
        · intro h; rw [h] at this; exact (Option.some.inj this).symm
      simp only [Policy.flowRuleDecision, Bool.and_eq_true, decide_eq_true_eq, hc.canClassify_iff, hverdict]
      rcases htun with ⟨h1, h2⟩ | ⟨h1, -, h2⟩ <;> simp [h1, h2]
  · right
    have hdecision : Policy.evaluateFlow (some p) flow = p.flowDefaultDecision flow := heq
    rw [hdecision]
    refine ⟨fun s hs hsm => ?_, ⟨rfl, hc.defaultAction, rfl⟩, hc.canClassify_iff flow⟩
    obtain ⟨j, hj⟩ := getElem?_of_mem hs
    obtain ⟨r', hof', hfile'⟩ := hfiled j s hj
    obtain ⟨hdis', hfam', htest'⟩ := (hof'.matches_iff hc flow).2 hsm
    exact absurd htest' (by simpa using find?_eq_none.1 hnone r' (hfile' hdis' hfam'))

/-- `EvaluateFlow` is first-match by priority: the unique rule that matches the flow and precedes every other
match decides, and the policy default does when none matches. A tunnel comes only from a deciding allow rule
that carries it, and classification is offered exactly when an endpoint can classify the flow and no rule or
an allow rule without a tunnel decided. -/
theorem evaluateFlow_first_match {cel : Cel} {filename : String} {document : NetworkPolicyFile} {p : Policy}
    (h : compileNetworkPolicy cel filename document = .ok p) (flow : Flow) :
    ((∃ r ∈ document.rules, RuleMatches document r flow) → ∃! i, ∃ r, FirstMatch document flow i r) ∧
    (∀ i r, FirstMatch document flow i r → DecidedBy document flow r (Policy.evaluateFlow (some p) flow)) ∧
    (NoMatch document flow → DecidedByDefault document (Policy.evaluateFlow (some p) flow)) ∧
    (∀ t, (Policy.evaluateFlow (some p) flow).tunnel = some t →
      ∃ i r, FirstMatch document flow i r ∧ r.verdict = "allow" ∧ r.tunnel ≠ "" ∧ t = ⟨"tailscale", r.tunnel⟩) ∧
    ((Policy.evaluateFlow (some p) flow).classificationOpportunity = true ↔
      Classifiable document flow ∧
        (NoMatch document flow ∨ ∃ i r, FirstMatch document flow i r ∧ r.verdict = "allow" ∧ r.tunnel = "")) := by
  have hc := compiled_of_ok h
  rcases hc.evaluateFlow_cases flow with ⟨i, r, hfirst, hby, hclass⟩ | ⟨hno, hdefault, hclass⟩
  · have hunique : ∀ j s, FirstMatch document flow j s → j = i ∧ s = r := by
      intro j s hs
      have hji := hs.unique hfirst
      subst hji
      exact ⟨rfl, Option.some.inj (hs.declared.symm.trans hfirst.declared)⟩
    refine ⟨fun _ => ⟨i, ⟨r, hfirst⟩, fun j ⟨s, hs⟩ => (hunique j s hs).1⟩, fun j s hs => ?_, fun hno => ?_,
      fun t ht => ?_, ?_⟩
    · rw [(hunique j s hs).2]
      exact hby
    · exact absurd hfirst.applies (hno r hfirst.mem)
    · rw [hby.tunnel] at ht
      split at ht
      · cases ht
      rename_i hne
      refine ⟨i, r, hfirst, ?_, hne, (Option.some.inj ht).symm⟩
      obtain ⟨r', hof, -⟩ := hc.flowRules.2.1 i r hfirst.declared
      rcases resolveTunnel_ok hof.tunnel with ⟨h1, -⟩ | ⟨-, h2, -⟩
      · exact absurd h1 hne
      · exact h2
    · rw [hclass]
      constructor
      · rintro ⟨h1, h2, h3⟩
        exact ⟨h3, .inr ⟨i, r, hfirst, h2, h1⟩⟩
      · rintro ⟨h3, hno | ⟨j, s, hs, h2, h1⟩⟩
        · exact absurd hfirst.applies (hno r hfirst.mem)
        · rw [(hunique j s hs).2] at h1 h2
          exact ⟨h1, h2, h3⟩
  · have hnone : ∀ j s, ¬ FirstMatch document flow j s := fun j s hs =>
      hno s hs.mem hs.applies
    refine ⟨fun ⟨r, hr, hm⟩ => absurd hm (hno r hr), fun j s hs => absurd hs (hnone j s), fun _ => hdefault,
      fun t ht => ?_, ?_⟩
    · rw [hdefault.tunnel] at ht
      cases ht
    · rw [hclass]
      exact ⟨fun h => ⟨h, .inl hno⟩, fun h => h.1⟩

/-- Two IP rules over one endpoint, the later one of higher priority. -/
def sampleDocument : NetworkPolicyFile where
  version := 1
  endpoints := [{ kind := "ip", name := "web", family := "ip", transport := "packet-filter", tls := "none",
                  destinationCIDRs := ["10.0.0.0/8"], protocol := " TCP", ports := [⟨443, 443⟩] }]
  rules := [{ name := "drop", endpoints := ["web"], verdict := "deny" },
            { name := "pass", endpoints := ["web"], verdict := "allow", priority := 5 }]

def sampleFlow : Flow := { protocol := "tcp", destIP := [10, 0, 0, 1], destPort := 443 }

theorem evaluateFlow_first_match_sample :
    ∃ p, compileNetworkPolicy ⟨fun _ _ => true⟩ "policy.json" sampleDocument = .ok p ∧
      (∃! i, ∃ r, FirstMatch sampleDocument sampleFlow i r) ∧
      (Policy.evaluateFlow (some p) sampleFlow).tunnel = none := by
  obtain ⟨p, hp⟩ := exists_ok_of_isOk (x := compileNetworkPolicy ⟨fun _ _ => true⟩ "policy.json" sampleDocument)
    (by decide)
  obtain ⟨hfirst, -, -, htunnel, -⟩ := evaluateFlow_first_match hp sampleFlow
  refine ⟨p, hp, hfirst ⟨_, mem_cons_self, rfl, ?_, by decide, "web", by decide, _, mem_cons_self, rfl, ?_⟩, ?_⟩
  · intro name hname
    exact ⟨_, mem_cons_self, (mem_singleton.1 hname).symm, _, rfl, rfl⟩
  · refine ⟨.inr (by decide), .inr ⟨_, mem_cons_self, by decide, by decide⟩, .inl rfl, .inr ?_⟩
    exact ⟨.v4 0x0a000001#32, by decide, "10.0.0.0/8", mem_cons_self,
      ⟨.v4 0x0a000000#32, 8, by decide, by decide⟩, by decide, by decide⟩
  · cases ht : (Policy.evaluateFlow (some p) sampleFlow).tunnel with
    | none => rfl
    | some t =>
      obtain ⟨i, r, hr, -, hne, -⟩ := htunnel t ht
      have hmem : r ∈ sampleDocument.rules := hr.mem
      simp only [sampleDocument, mem_cons, not_mem_nil, or_false] at hmem
      rcases hmem with rfl | rfl <;> exact absurd rfl hne

end Silo.Netd
