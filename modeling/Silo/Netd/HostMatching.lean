import Silo.Netd.Compiled
import Silo.Netd.Eval
/-!
# Host matching and map order

`matchHTTPFamilyHost` ranges over a Go map, so it sees the endpoints of a kind in any
order. What it selects is an exact binding if one matches and a longest matching
wildcard otherwise; the order shows exactly when two endpoints carry that wildcard.
-/

namespace Silo.Netd

open Go Lib List AssocMap

/-! ## What a host selects -/

def ExactMatch (endpoints : List HTTPEndpoint) (a : Authority) (e : HTTPEndpoint) : Prop :=
  e ∈ endpoints ∧ ∃ b ∈ e.hosts, b.matches a ∧ b.wildcard = false

/-- The endpoint carries a wildcard of suffix length `n` that the authority matches. -/
def WildcardMatch (endpoints : List HTTPEndpoint) (a : Authority) (e : HTTPEndpoint) (n : Nat) : Prop :=
  e ∈ endpoints ∧ ∃ b ∈ e.hosts, b.matches a ∧ b.wildcard ∧ b.suffixLength = n

def LongestWildcard (endpoints : List HTTPEndpoint) (a : Authority) (e : HTTPEndpoint) : Prop :=
  ∃ n, WildcardMatch endpoints a e n ∧ ∀ e' n', WildcardMatch endpoints a e' n' → n' ≤ n

/-- The endpoint has the exact binding or, if no endpoint has one, a longest wildcard. -/
def Selects (endpoints : List HTTPEndpoint) (a : Authority) (e : HTTPEndpoint) : Prop :=
  ExactMatch endpoints a e ∨ ((∀ e', ¬ ExactMatch endpoints a e') ∧ LongestWildcard endpoints a e)

/-! ## The scan -/

variable {endpoints : List HTTPEndpoint} {b : Binding}

variable {e e' : HTTPEndpoint} {a : Authority}

theorem mem_bindingPairs : (e, b) ∈ bindingPairs endpoints ↔ e ∈ endpoints ∧ b ∈ e.hosts := by
  simp [bindingPairs]

/-- How the scan of `pairs`, started with the wildcard match `w`, may end. -/
inductive ScanSpec (a : Authority) (pairs : List (HTTPEndpoint × Binding)) (w : Option HostMatch) :
    ScanResult → Prop where
  | exact (e : HTTPEndpoint) (b : Binding) (hmem : (e, b) ∈ pairs) (hm : b.matches a = true)
      (hw : b.wildcard = false) : ScanSpec a pairs w (.exact e)
  | wildcard (w' : Option HostMatch)
      (hall : ∀ e b, (e, b) ∈ pairs → b.matches a = true →
        b.wildcard = true ∧ ∃ m, w' = some m ∧ b.suffixLength ≤ m.suffixLength)
      (hkeep : ∀ m, w = some m → ∃ m', w' = some m' ∧ m.suffixLength ≤ m'.suffixLength)
      (hfrom : w' = w ∨ ∃ e b, (e, b) ∈ pairs ∧ b.matches a = true ∧ w' = some ⟨e.ref, e, b.suffixLength⟩) :
      ScanSpec a pairs w (.wildcard w')

theorem betterMatch_spec (w : Option HostMatch) (c : HostMatch) :
    c.suffixLength ≤ (betterMatch w c).suffixLength ∧
      (∀ m, w = some m → m.suffixLength ≤ (betterMatch w c).suffixLength) ∧
      (some (betterMatch w c) = w ∨ betterMatch w c = c) := by
  unfold betterMatch
  cases w with
  | none => simp
  | some best =>
    dsimp only
    split
    · simp only [Option.some.injEq, or_true, and_true, forall_eq', le_refl, true_and]
      omega
    · simp only [Option.some.injEq, true_or, and_true, forall_eq', le_refl]
      omega

theorem scanBindings_cons_wildcard (hm : b.matches a) (hw : b.wildcard)
    (rest : List (HTTPEndpoint × Binding)) (w : Option HostMatch) :
    scanBindings a ((e, b) :: rest) w = scanBindings a rest (some (betterMatch w ⟨e.ref, e, b.suffixLength⟩)) := by
  rw [scanBindings]
  simp [hm, hw]

theorem scanBindings_cons_skip (hm : b.matches a = false) (rest : List (HTTPEndpoint × Binding))
    (w : Option HostMatch) : scanBindings a ((e, b) :: rest) w = scanBindings a rest w := by
  rw [scanBindings]
  simp [hm]

theorem scanBindings_spec (a : Authority) (pairs : List (HTTPEndpoint × Binding)) (w : Option HostMatch) :
    ScanSpec a pairs w (scanBindings a pairs w) := by
  induction pairs generalizing w with
  | nil => exact .wildcard w (by simp) (fun m hm => ⟨m, hm, le_refl _⟩) (.inl rfl)
  | cons eb rest ih =>
    obtain ⟨e, b⟩ := eb
    cases hm : b.matches a with
    | false =>
      rw [scanBindings_cons_skip hm]
      have hrest := ih w
      generalize scanBindings a rest w = result at hrest ⊢
      cases hrest with
      | exact e' b' hmem hm' hw' => exact .exact e' b' (by simp [hmem]) hm' hw'
      | wildcard w' hall hkeep hfrom =>
        refine .wildcard w' (fun e' b' hmem hm' => ?_) hkeep ?_
        · rcases mem_cons.1 hmem with h | h
          · cases h
            rw [hm] at hm'
            cases hm'
          · exact hall e' b' h hm'
        · rcases hfrom with h | ⟨e', b', hmem, h⟩
          · exact .inl h
          · exact .inr ⟨e', b', by simp [hmem], h⟩
    | true =>
      cases hw : b.wildcard with
      | false =>
        have : scanBindings a ((e, b) :: rest) w = .exact e := by rw [scanBindings]; simp [hm, hw]
        rw [this]
        exact .exact e b (by simp) hm hw
      | true =>
        rw [scanBindings_cons_wildcard hm hw]
        obtain ⟨hc, hbest, hfrom'⟩ := betterMatch_spec w ⟨e.ref, e, b.suffixLength⟩
        have hrest := ih (some (betterMatch w ⟨e.ref, e, b.suffixLength⟩))
        generalize scanBindings a rest _ = result at hrest ⊢
        cases hrest with
        | exact e' b' hmem hm' hw' => exact .exact e' b' (by simp [hmem]) hm' hw'
        | wildcard w' hall hkeep hfrom =>
          obtain ⟨m', hw', hle⟩ := hkeep _ rfl
          refine .wildcard w' (fun e' b' hmem hm' => ?_) (fun m hm0 => ?_) ?_
          · rcases mem_cons.1 hmem with h | h
            · cases h
              exact ⟨hw, m', hw', le_trans hc hle⟩
            · exact hall e' b' h hm'
          · exact ⟨m', hw', le_trans (hbest m hm0) hle⟩
          · rcases hfrom with h | ⟨e', b', hmem, h⟩
            · rcases hfrom' with h' | h'
              · exact .inl (h.trans h')
              · exact .inr ⟨e, b, by simp, hm, h.trans (congrArg some h')⟩
            · exact .inr ⟨e', b', by simp [hmem], h⟩

def scanEndpoint (a : Authority) (endpoints : List HTTPEndpoint) : Option HTTPEndpoint :=
  match scanBindings a (bindingPairs endpoints) none with
  | .exact e => some e
  | .wildcard w => w.map HostMatch.endpoint

theorem scanEndpoint_some (h : scanEndpoint a endpoints = some e) : Selects endpoints a e := by
  have hspec := scanBindings_spec a (bindingPairs endpoints) none
  unfold scanEndpoint at h
  generalize scanBindings a (bindingPairs endpoints) none = result at hspec h
  cases hspec with
  | exact e' b hmem hm hw =>
    cases h
    obtain ⟨he, hb⟩ := mem_bindingPairs.1 hmem
    exact .inl ⟨he, b, hb, hm, hw⟩
  | wildcard w' hall hkeep hfrom =>
    obtain ⟨m, rfl, rfl⟩ := Option.map_eq_some_iff.1 h
    refine .inr ⟨?_, m.suffixLength, ?_, ?_⟩
    · rintro e' ⟨he', b, hb, hm, hw⟩
      have := (hall e' b (mem_bindingPairs.2 ⟨he', hb⟩) hm).1
      rw [hw] at this
      cases this
    · rcases hfrom with h | ⟨e, b, hmem, hm, h⟩
      · cases h
      · cases h
        obtain ⟨he, hb⟩ := mem_bindingPairs.1 hmem
        exact ⟨he, b, hb, hm, (hall e b hmem hm).1, rfl⟩
    · rintro e' n' ⟨he', b, hb, hm, -, rfl⟩
      obtain ⟨-, m', h', hle⟩ := hall e' b (mem_bindingPairs.2 ⟨he', hb⟩) hm
      cases h'
      exact hle

theorem scanEndpoint_none (h : scanEndpoint a endpoints = none) (e : HTTPEndpoint) : ¬ Selects endpoints a e := by
  have hspec := scanBindings_spec a (bindingPairs endpoints) none
  unfold scanEndpoint at h
  generalize scanBindings a (bindingPairs endpoints) none = result at hspec h
  cases hspec with
  | exact e' b hmem hm hw => cases h
  | wildcard w' hall hkeep hfrom =>
    cases Option.map_eq_none_iff.1 h
    have hno : ∀ e, e ∈ endpoints → ∀ b ∈ e.hosts, b.matches a → False := by
      intro e he b hb hm
      obtain ⟨-, m, hm', -⟩ := hall e b (mem_bindingPairs.2 ⟨he, hb⟩) hm
      cases hm'
    rintro (⟨he, b, hb, hm, -⟩ | ⟨-, n, ⟨he, b, hb, hm, -⟩, -⟩)
    · exact hno e he b hb hm
    · exact hno e he b hb hm

theorem scanBindings_append {l : List (HTTPEndpoint × Binding)} {w w' : Option HostMatch}
    (h : scanBindings a l w = .wildcard w') (l' : List (HTTPEndpoint × Binding)) :
    scanBindings a (l ++ l') w = scanBindings a l' w' := by
  induction l generalizing w with
  | nil => cases h; rfl
  | cons eb l ih =>
    rw [cons_append]
    rw [scanBindings] at h ⊢
    split at h
    · rw [if_pos ‹_›]
      exact ih h
    split at h
    · cases h
    · rw [if_neg ‹_›, if_neg ‹_›]
      exact ih h

theorem scanBindings_keep {l : List (HTTPEndpoint × Binding)} {m : HostMatch}
    (h : ∀ e b, (e, b) ∈ l → b.matches a → b.wildcard ∧ b.suffixLength ≤ m.suffixLength) :
    scanBindings a l (some m) = .wildcard (some m) := by
  induction l with
  | nil => rfl
  | cons eb l ih =>
    obtain ⟨e, b⟩ := eb
    have hl := ih (fun e' b' hmem hm => h e' b' (by simp [hmem]) hm)
    cases hm : b.matches a with
    | false => rw [scanBindings_cons_skip hm, hl]
    | true =>
      obtain ⟨hw, hle⟩ := h e b (by simp) hm
      rw [scanBindings_cons_wildcard hm hw]
      have : betterMatch (some m) ⟨e.ref, e, b.suffixLength⟩ = m := by
        simp only [betterMatch]
        rw [if_neg]
        omega
      rw [this, hl]

/-- Without an exact match, an endpoint with a longest wildcard wins when it comes first. -/
theorem scanEndpoint_front {rest : List HTTPEndpoint} (hno : ∀ e', ¬ ExactMatch (e :: rest) a e')
    (hlong : LongestWildcard (e :: rest) a e) : scanEndpoint a (e :: rest) = some e := by
  have hall : ∀ e' b, (e', b) ∈ bindingPairs (e :: rest) → b.matches a → b.wildcard := by
    intro e' b hmem hm
    obtain ⟨he', hb⟩ := mem_bindingPairs.1 hmem
    cases hw : b.wildcard with
    | true => rfl
    | false => exact absurd ⟨he', b, hb, hm, hw⟩ (hno e')
  obtain ⟨n, ⟨-, b0, hb0, hm0, hw0, hn⟩, hmax⟩ := hlong
  have hpairs : bindingPairs (e :: rest) = e.hosts.map (fun b => (e, b)) ++ bindingPairs rest := rfl
  -- scan the bindings of `e` first: they leave a match of `e` as long as any
  have hspec := scanBindings_spec a (e.hosts.map (fun b => (e, b))) none
  cases hres : scanBindings a (e.hosts.map (fun b => (e, b))) none with
  | exact e' =>
    rw [hres] at hspec
    cases hspec with
    | exact _ b hmem hm hw =>
      have := hall e' b (by rw [hpairs]; exact mem_append_left _ hmem) hm
      rw [hw] at this
      cases this
  | wildcard w' =>
    rw [hres] at hspec
    cases hspec with
    | wildcard _ hall' hkeep hfrom =>
      obtain ⟨-, m, rfl, hle⟩ := hall' e b0 (mem_map.2 ⟨b0, hb0, rfl⟩) hm0
      have hm : m.endpoint = e := by
        rcases hfrom with h | ⟨e', b', hmem, -, h⟩
        · cases h
        · cases h
          obtain ⟨b'', -, h⟩ := mem_map.1 hmem
          cases h
          rfl
      unfold scanEndpoint
      rw [hpairs, scanBindings_append hres, scanBindings_keep]
      · simp [hm]
      · intro e' b' hmem hm'
        have hmem' : (e', b') ∈ bindingPairs (e :: rest) := by rw [hpairs]; exact mem_append_right _ hmem
        obtain ⟨he', hb'⟩ := mem_bindingPairs.1 hmem'
        have hw' := hall e' b' hmem' hm'
        refine ⟨hw', ?_⟩
        have := hmax e' b'.suffixLength ⟨he', b', hb', hm', hw', rfl⟩
        omega

/-! ## Under any order -/

/-- An order that visits `e` first where it occurs. -/
def RangeOrder.front (e : HTTPEndpoint) : RangeOrder where
  range m := if e ∈ m.values then e :: m.values.erase e else m.values
  perm m := by
    split
    · exact (perm_cons_erase ‹_›).symm
    · exact .refl _

section Perm
variable {l l' : List HTTPEndpoint} {a : Authority} {e : HTTPEndpoint}

section
variable (h : l.Perm l')
include h

theorem exactMatch_perm : ExactMatch l a e ↔ ExactMatch l' a e := by
  unfold ExactMatch
  rw [h.mem_iff]

theorem wildcardMatch_perm (n : Nat) : WildcardMatch l a e n ↔ WildcardMatch l' a e n := by
  unfold WildcardMatch
  rw [h.mem_iff]

theorem longestWildcard_perm : LongestWildcard l a e ↔ LongestWildcard l' a e := by
  simp only [LongestWildcard, wildcardMatch_perm h]

theorem selects_perm : Selects l a e ↔ Selects l' a e := by
  simp only [Selects, exactMatch_perm h, longestWildcard_perm h]

end

variable {order : RangeOrder} {m : AssocMap String HTTPEndpoint}

theorem selects_of_scan (h : scanEndpoint a (order.range m) = some e) : Selects m.values a e :=
  (selects_perm (order.perm m)).1 (scanEndpoint_some h)

/-- Where at most one endpoint can be selected the scan finds it, in every order. -/
theorem scanEndpoint_eq_some (huniq : ∀ {e e'}, Selects m.values a e → Selects m.values a e' → e = e') :
    scanEndpoint a (order.range m) = some e ↔ Selects m.values a e := by
  refine ⟨selects_of_scan, fun he => ?_⟩
  cases hs : scanEndpoint a (order.range m) with
  | none => exact absurd ((selects_perm (order.perm m)).2 he) (scanEndpoint_none hs e)
  | some e' => rw [huniq (selects_of_scan hs) he]

end Perm

variable {p : Policy} {kind host : String} {port : UInt16}

theorem matchHTTPFamilyHost_eq {order : RangeOrder} (ha : parseAuthority host port = .ok a) :
    p.matchHTTPFamilyHost order kind host port =
      (scanEndpoint a (order.range (p.httpFamilyEndpoints kind))).map (fun e => (e.ref, e, a)) := by
  have hspec := scanBindings_spec a (bindingPairs (order.range (p.httpFamilyEndpoints kind))) none
  unfold Policy.matchHTTPFamilyHost scanEndpoint
  simp only [ha, parseAuthority_host ha, if_false]
  split
  · rename_i hsize
    have hnil : order.range (p.httpFamilyEndpoints kind) = [] := by
      have hp := order.perm (p.httpFamilyEndpoints kind)
      have hv : (p.httpFamilyEndpoints kind).values = [] := by
        simpa [values, size] using hsize
      exact (hv ▸ hp).eq_nil
    rw [hnil]
    rfl
  · generalize scanBindings a (bindingPairs (order.range (p.httpFamilyEndpoints kind))) none = result at hspec ⊢
    cases hspec with
    | exact e b hmem hm hw => rfl
    | wildcard w' hall hkeep hfrom =>
      rcases hfrom with rfl | ⟨e, b, hmem, hm, rfl⟩ <;> rfl

theorem matchHTTPFamilyHost_error {order : RangeOrder} {err : HostError} (ha : parseAuthority host port = .error err) :
    p.matchHTTPFamilyHost order kind host port = none := by
  unfold Policy.matchHTTPFamilyHost
  simp only [ha]
  split <;> rfl

variable {document : NetworkPolicyFile} {cel : Cel}

/-- The endpoints of one transport are told apart by their references. -/
theorem Compiled.eq_of_ref (hc : Compiled cel document p) {transport : Transport} (ht : transport ≠ .packetFilter)
    (he : e ∈ (httpEndpointsForTransport p transport).values)
    (he' : e' ∈ (httpEndpointsForTransport p transport).values) (href : e.ref = e'.ref) : e = e' := by
  obtain ⟨k, hget⟩ := mem_values.1 he
  obtain ⟨k', hget'⟩ := mem_values.1 he'
  obtain ⟨d, hd, -, def1, hdef1, -, hcompile⟩ := (hc.endpoints.http _ ht k e).1 hget
  obtain ⟨d', hd', -, def2, hdef2, -, hcompile'⟩ := (hc.endpoints.http _ ht k' e').1 hget'
  have hname : d.name = d'.name := by
    have := congrArg Ref.name href
    simpa [HTTPEndpoint.ref, (compileHTTPEndpointDecl_ok hcompile).2.1,
      (compileHTTPEndpointDecl_ok hcompile').2.1] using this
  cases hc.endpoints.eq_of_name hd hd' hname
  rw [hdef1] at hdef2
  cases hdef2
  rw [hcompile] at hcompile'
  exact Except.ok.inj hcompile'

variable {definition : EndpointDefinition}

/-- Two endpoints of a compiled policy never share an exact binding of one kind. -/
theorem Compiled.exactMatch_unique (hc : Compiled cel document p) {kind : String}
    (hk : Registry.endpoint kind = some definition) (he : ExactMatch (p.httpFamilyEndpoints kind).values a e)
    (he' : ExactMatch (p.httpFamilyEndpoints kind).values a e') : e = e' := by
  have hmap : p.httpFamilyEndpoints kind = httpEndpointsForTransport p definition.transport := by
    simp only [Policy.httpFamilyEndpoints, hk]
    cases definition.transport <;> rfl
  rw [hmap] at he he'
  obtain ⟨hmem, b, hb, hm, hw⟩ := he
  obtain ⟨hmem', b', hb', hm', hw'⟩ := he'
  obtain ⟨k, hget⟩ := mem_values.1 hmem
  obtain ⟨k', hget'⟩ := mem_values.1 hmem'
  have ht : definition.transport ≠ .packetFilter := by
    intro h
    rw [h] at hget
    cases hget
  obtain ⟨hh, hp⟩ := (Binding.matches_exact hw).1 hm
  obtain ⟨hh', hp'⟩ := (Binding.matches_exact hw').1 hm'
  -- both bindings have the key of the authority, which belongs to one reference
  have h1 := hc.endpoints.exact _ k e hget b hb hw
  have h2 := hc.endpoints.exact _ k' e' hget' b' hb' hw'
  rw [hh, hp] at h1
  rw [hh', hp'] at h2
  exact hc.eq_of_ref ht hmem hmem' (Option.some.inj (h1.symm.trans h2))

/-! ## Order independence -/

/-- Host matching and the decisions that rest on it do not depend on the order of the endpoint maps, and the
endpoint is the one with the exact binding or else a longest wildcard. -/
structure OrderFree (p : Policy) (kind host : String) (port : UInt16) : Prop where
  endpoint : ∀ o o' : RangeOrder, p.matchHTTPFamilyHost o kind host port = p.matchHTTPFamilyHost o' kind host port
  selected : ∀ (o : RangeOrder) ref e a, p.matchHTTPFamilyHost o kind host port = some (ref, e, a) →
    ref = e.ref ∧ parseAuthority host port = .ok a ∧ Selects (p.httpFamilyEndpoints kind).values a e
  unmatched : ∀ o : RangeOrder, p.matchHTTPFamilyHost o kind host port = none →
    ∀ a, parseAuthority host port = .ok a → ∀ e, ¬ Selects (p.httpFamilyEndpoints kind).values a e
  decision : port = Policy.defaultPort kind → ∀ (evaluate : HTTPRequest → Evaluator) (request : HTTPRequest),
    request.endpointKind = kind → request.host = host → ∀ o o' : RangeOrder,
      Policy.evaluateHTTP o evaluate (some p) request = Policy.evaluateHTTP o' evaluate (some p) request

/-- An exact binding matches the host, or only one endpoint carries a longest matching wildcard. -/
def TieFree (p : Policy) (kind host : String) (port : UInt16) : Prop :=
  ∀ a, parseAuthority host port = .ok a →
    (∃ e, ExactMatch (p.httpFamilyEndpoints kind).values a e) ∨
    ∀ e e', LongestWildcard (p.httpFamilyEndpoints kind).values a e →
      LongestWildcard (p.httpFamilyEndpoints kind).values a e' → e = e'

theorem TieFree.selects_unique (hc : Compiled cel document p) (hk : Registry.endpoint kind = some definition)
    (h : TieFree p kind host port) (ha : parseAuthority host port = .ok a)
    (he : Selects (p.httpFamilyEndpoints kind).values a e) (he' : Selects (p.httpFamilyEndpoints kind).values a e') :
    e = e' := by
  rcases he with he | ⟨hno, he⟩
  · rcases he' with he' | ⟨hno, -⟩
    · exact hc.exactMatch_unique hk he he'
    · exact absurd he (hno e)
  · rcases he' with he' | ⟨-, he'⟩
    · exact absurd he' (hno e')
    · rcases h a ha with ⟨e0, h0⟩ | h
      · exact absurd h0 (hno e0)
      · exact h e e' he he'

theorem TieFree.endpoint (hc : Compiled cel document p)
    (hk : Registry.endpoint kind = some definition) (h : TieFree p kind host port) (o o' : RangeOrder) :
    p.matchHTTPFamilyHost o kind host port = p.matchHTTPFamilyHost o' kind host port := by
  cases ha : parseAuthority host port with
  | error err => rw [matchHTTPFamilyHost_error ha, matchHTTPFamilyHost_error ha]
  | ok a =>
    rw [matchHTTPFamilyHost_eq ha, matchHTTPFamilyHost_eq ha]
    congr 1
    exact Option.ext fun e =>
      (scanEndpoint_eq_some (h.selects_unique hc hk ha)).trans (scanEndpoint_eq_some (h.selects_unique hc hk ha)).symm

theorem matchHTTPFamilyHost_front (ha : parseAuthority host port = .ok a)
    (hno : ∀ e', ¬ ExactMatch (p.httpFamilyEndpoints kind).values a e')
    (he : LongestWildcard (p.httpFamilyEndpoints kind).values a e) :
    p.matchHTTPFamilyHost (.front e) kind host port = some (e.ref, e, a) := by
  have hmem : e ∈ (p.httpFamilyEndpoints kind).values := by
    obtain ⟨n, ⟨hmem, -⟩, -⟩ := he
    exact hmem
  have hrange : (RangeOrder.front e).range (p.httpFamilyEndpoints kind) =
      e :: (p.httpFamilyEndpoints kind).values.erase e := by
    simp [RangeOrder.front, hmem]
  have hp := (RangeOrder.front e).perm (p.httpFamilyEndpoints kind)
  rw [hrange] at hp
  rw [matchHTTPFamilyHost_eq ha, hrange, scanEndpoint_front (fun e' => mt (exactMatch_perm hp).1 (hno e'))
    ((longestWildcard_perm hp).2 he)]
  rfl

/-- Host matching is a function of the policy exactly when an exact binding matches or only one endpoint carries
a longest matching wildcard: for every accepted document, registered kind, host and default port. -/
theorem matchHTTPFamilyHost_orderFree_iff {cel : Cel} {filename : String} {document : NetworkPolicyFile} {p : Policy}
    (h : compileNetworkPolicy cel filename document = .ok p) {kind : String} {definition : EndpointDefinition}
    (hk : Registry.endpoint kind = some definition) (host : String) (port : UInt16) :
    OrderFree p kind host port ↔ TieFree p kind host port := by
  have hc := compiled_of_ok h
  constructor
  · intro hfree a ha
    by_cases hex : ∃ e, ExactMatch (p.httpFamilyEndpoints kind).values a e
    · exact .inl hex
    · refine .inr fun e e' he he' => ?_
      have hno := not_exists.1 hex
      have heq := hfree.endpoint (.front e) (.front e')
      rw [matchHTTPFamilyHost_front ha hno he, matchHTTPFamilyHost_front ha hno he'] at heq
      exact (Prod.mk.inj (Prod.mk.inj (Option.some.inj heq)).2).1
  · intro htie
    refine ⟨htie.endpoint hc hk, fun o ref e a hm => ?_, fun o hm a ha e => ?_, ?_⟩
    · cases ha : parseAuthority host port with
      | error err =>
        rw [matchHTTPFamilyHost_error ha] at hm
        cases hm
      | ok a' =>
        rw [matchHTTPFamilyHost_eq ha] at hm
        obtain ⟨e', hs, heq⟩ := Option.map_eq_some_iff.1 hm
        cases heq
        exact ⟨rfl, rfl, selects_of_scan hs⟩
    · rw [matchHTTPFamilyHost_eq ha, Option.map_eq_none_iff] at hm
      exact mt (selects_perm (o.perm _)).2 (scanEndpoint_none hm e)
    · rintro rfl evaluate request rfl rfl o o'
      have heq : p.matchHTTPFamilyHostDefault o request.endpointKind request.host =
          p.matchHTTPFamilyHostDefault o' request.endpointKind request.host := by
        unfold Policy.matchHTTPFamilyHostDefault
        rw [htie.endpoint hc hk o o']
      unfold Policy.evaluateHTTP
      dsimp only
      rw [heq]

def httpsDecl (name : String) (hosts : List String) : EndpointDecl :=
  { kind := "https", name, family := "http", transport := "https-mitm", tls := "terminate",
    capabilities := ["credential-injection"], hosts }

/-- Two HTTPS endpoints with one wildcard and opposite rules. -/
def tiedDocument : NetworkPolicyFile where
  version := 1
  endpoints := [httpsDecl "a" ["*.example.com"], httpsDecl "b" ["*.example.com"]]
  rules := [{ name := "pass", endpoints := ["a"], verdict := "allow" },
            { name := "drop", endpoints := ["b"], verdict := "deny" }]

def tiedRequest : HTTPRequest :=
  { flow := {}, endpointKind := "https", host := "x.example.com", method := "GET", path := "/", query := "",
    header := [] }

def RangeOrder.reversed : RangeOrder := ⟨fun m => m.values.reverse, fun m => reverse_perm m.values⟩

/-- One wildcard on two endpoints: the verdict is the one of whichever endpoint the range visits first. -/
theorem matchHTTPFamilyHost_tied :
    ∃ p, compileNetworkPolicy ⟨fun _ _ => true⟩ "policy.json" tiedDocument = .ok p ∧
      ¬ OrderFree p "https" "x.example.com" 443 ∧
      (Policy.evaluateHTTP .insertion (fun _ _ => .ok true) (some p) tiedRequest).action = .allow ∧
      (Policy.evaluateHTTP .reversed (fun _ _ => .ok true) (some p) tiedRequest).action = .deny := by
  obtain ⟨p, hp, h1, h2⟩ := exists_ok_of_decide
    (x := compileNetworkPolicy ⟨fun _ _ => true⟩ "policy.json" tiedDocument)
    (p := fun p => (Policy.evaluateHTTP .insertion (fun _ _ => .ok true) (some p) tiedRequest).action = .allow ∧
      (Policy.evaluateHTTP .reversed (fun _ _ => .ok true) (some p) tiedRequest).action = .deny) (by decide)
  refine ⟨p, hp, fun hfree => ?_, h1, h2⟩
  have heq := hfree.decision (by decide) (fun _ _ => .ok true) tiedRequest rfl rfl .insertion .reversed
  rw [heq, h2] at h1
  cases h1

/-- Two nested wildcards and an exact binding on different endpoints: the longest suffix decides. -/
def nestedDocument : NetworkPolicyFile where
  version := 1
  endpoints := [httpsDecl "a" ["*.example.com"], httpsDecl "b" ["*.api.example.com", "example.com"]]

/-- The suffix lengths of the wildcards of an endpoint that match. -/
def HTTPEndpoint.matchingSuffixes (a : Authority) (e : HTTPEndpoint) : List Nat :=
  (e.hosts.filter fun b => b.matches a && b.wildcard).map Binding.suffixLength

theorem mem_matchingSuffixes {a : Authority} {e : HTTPEndpoint} {n : Nat} (h : e ∈ endpoints) :
    n ∈ e.matchingSuffixes a ↔ WildcardMatch endpoints a e n := by
  simp [HTTPEndpoint.matchingSuffixes, WildcardMatch, h, and_assoc]

theorem matchHTTPFamilyHost_nested :
    ∃ p, compileNetworkPolicy ⟨fun _ _ => true⟩ "policy.json" nestedDocument = .ok p ∧
      OrderFree p "https" "x.api.example.com" 443 := by
  obtain ⟨p, hp, hsuffixes⟩ := exists_ok_of_map
    (x := compileNetworkPolicy ⟨fun _ _ => true⟩ "policy.json" nestedDocument)
    (f := fun p => (p.httpFamilyEndpoints "https").values.map (·.matchingSuffixes ⟨"x.api.example.com", 443⟩))
    (b := [[11], [15]]) (by decide)
  refine ⟨p, hp, (matchHTTPFamilyHost_orderFree_iff hp rfl "x.api.example.com" 443).2 fun a ha => .inr ?_⟩
  obtain rfl : a = ⟨"x.api.example.com", 443⟩ := by
    have hparse : (parseAuthority "x.api.example.com" 443).toOption = some ⟨"x.api.example.com", 443⟩ := by decide
    rw [ha] at hparse
    exact Option.some.inj hparse
  obtain ⟨e₁, rest, hvalues, h₁, hrest⟩ := map_eq_cons_iff.1 hsuffixes
  obtain ⟨e₂, rest, rfl, h₂, hnil⟩ := map_eq_cons_iff.1 hrest
  obtain rfl := map_eq_nil_iff.1 hnil
  rw [hvalues]
  -- the endpoint with the longer of the two suffixes is the only candidate
  have honly : ∀ e, LongestWildcard [e₁, e₂] ⟨"x.api.example.com", 443⟩ e → e = e₂ := by
    rintro e ⟨n, hn, hlongest⟩
    rcases mem_pair.1 hn.1 with rfl | rfl
    · have h11 := (mem_matchingSuffixes (by simp)).2 hn
      have h15 := hlongest e₂ 15 ((mem_matchingSuffixes (by simp)).1 (by simp [h₂]))
      rw [h₁, mem_singleton] at h11
      omega
    · rfl
  exact fun e e' he he' => (honly e he).trans (honly e' he').symm

end Silo.Netd
