import Silo.Netd.JudgedHost
import Silo.Netd.Spelling
/-!
# Raw addresses

`ResolveHTTPSRawIP` compares unmapped addresses, host matching compares spellings. They
agree on a destination exactly if every endpoint that declares it does so in its own
spelling, and not only as an IPv4-mapped IPv6 address.
-/

namespace Silo.Netd

open Go Lib List

/-- What is resolved for a raw destination is what its authority matches, under every map order, and every
endpoint that declares the destination is found. -/
structure RawAgrees (p : Policy) (ip : List UInt8) (port : UInt16) : Prop where
  matched : ∀ (o o' : RangeOrder) ref authority host, p.resolveHTTPSRawIP o ip port = some (ref, authority, host) →
    (∃ e, p.matchHTTPFamilyHostDefault o' "https" authority = some (ref, e)) ∧
      Policy.matchEndpointAuthority "https" authority authority
  orderFree : ∀ o o' : RangeOrder, p.resolveHTTPSRawIP o ip port = p.resolveHTTPSRawIP o' ip port
  found : ∀ (o : RangeOrder) dest, addrFromIP ip = some dest → ∀ e ∈ p.httpsEndpoints.values, BindsAddr e dest port →
    ∃ authority host, p.resolveHTTPSRawIP o ip port = some (e.ref, authority, host)

/-- Every HTTPS endpoint that declares the destination also declares it in its own spelling. -/
def OwnSpelling (p : Policy) (ip : List UInt8) (port : UInt16) : Prop :=
  ∀ dest, addrFromIP ip = some dest → ∀ e ∈ p.httpsEndpoints.values, BindsAddr e dest port →
    ∃ b ∈ e.hosts, b.wildcard = false ∧ b.port = port ∧ b.host.toList = dest.string

/-- No wildcard matches an address: its suffix would be made of decimal labels. -/
theorem wildcard_not_address {b : Binding} {host : String} {defaultPort port : UInt16} {ip : List UInt8} {dest : Addr}
    (hparse : parseBinding host defaultPort = .ok b) (hdest : addrFromIP ip = some dest)
    (hm : b.matches (rawAuthority dest port)) : b.wildcard = false := by
  obtain ⟨a, hbound⟩ := parseBinding_eq_ok.1 hparse
  have hnoIP := hbound.noIP
  rw [Bool.eq_false_iff]
  intro hw
  have hfields : b.host = a.host ∧ b.wildcard = hasPrefix (trimSpace host.toList) "*.".toList := by
    rw [hbound.binding]
    exact ⟨rfl, rfl⟩
  rw [← hfields.1, ← hfields.2, hw] at hnoIP
  have hip := hnoIP.resolve_left (by decide)
  obtain ⟨front, hsuffix⟩ : '.' :: b.host.toList <:+ dest.string := by
    simpa [rawAuthority] using ((Binding.matches_wildcard hw).1 hm).2.2
  rcases addrFromIP_shape hdest with ⟨v, rfl⟩ | ⟨v, hv, rfl⟩
  · have hlabels : ∀ label ∈ split '.' b.host.toList, label ∈ split '.' (string4 v) := by
      intro label hlabel
      rw [show string4 v = front ++ '.' :: b.host.toList from hsuffix.symm, split_append]
      exact mem_append_right _ hlabel
    rw [wildcardHostLooksLikeIPPattern, Bool.or_eq_false_iff] at hip
    refine absurd (all_eq_true.2 fun label hlabel => ?_) (Bool.eq_false_iff.1 hip.2)
    have hmem := hlabels label hlabel
    rw [split_string4] at hmem
    obtain ⟨i, -, rfl⟩ := mem_map.1 hmem
    have hne : (itoa ((v >>> (24 - 8 * i)).toNat % 256)).isEmpty = false :=
      isEmpty_eq_false_iff.2 Nat.toDigits_ne_nil
    rw [hne]
    exact all_eq_true.2 fun c hc => isDigit_of_mem_itoa hc
  · have hdot : '.' ∈ literal6 v := by
      rw [← string_v6_nil, ← hsuffix]
      simp
    rw [literal6, if_neg hv] at hdot
    rcases (string6_shape v).1 _ hdot with h | h <;> cases h

section Agreement
variable {cel : Cel} {document : NetworkPolicyFile} {p : Policy} {ip : List UInt8} {port : UInt16} {dest : Addr}

theorem parseAuthority_raw (hdest : addrFromIP ip = some dest) (hport : port ≠ 0) :
    parseAuthority (formatAuthority (rawAuthority dest port) 443) 443 = .ok (rawAuthority dest port) := by
  obtain ⟨hcanonical, hsettled⟩ := canonical_addrFromIP hdest
  exact parseAuthority_formatAuthority (by simpa [rawAuthority] using hcanonical) (.inl hport)
    (by simpa [rawAuthority] using hsettled)

/-- Every endpoint that declares the destination has the exact binding of its authority, so there is one. -/
theorem OwnSpelling.exactMatch (h : OwnSpelling p ip port) (hdest : addrFromIP ip = some dest) {e : HTTPEndpoint}
    (he : e ∈ p.httpsEndpoints.values) (hbinds : BindsAddr e dest port) :
    ExactMatch p.httpsEndpoints.values (rawAuthority dest port) e := by
  obtain ⟨b, hb, hw, hp, hhost⟩ := h dest hdest e he hbinds
  refine ⟨he, b, hb, (Binding.matches_exact hw).2 ⟨String.toList_inj.1 ?_, hp⟩, hw⟩
  simpa [rawAuthority] using hhost

theorem matchHTTPFamilyHost_raw {o : RangeOrder} (hdest : addrFromIP ip = some dest) (hport : port ≠ 0) :
    p.matchHTTPFamilyHostDefault o "https" (formatAuthority (rawAuthority dest port) 443) =
      (scanEndpoint (rawAuthority dest port) (o.range p.httpsEndpoints)).map (fun e => (e.ref, e)) := by
  have heq : p.matchHTTPFamilyHost o "https" _ 443 = _ := matchHTTPFamilyHost_eq (parseAuthority_raw hdest hport)
  change Option.map _ (p.matchHTTPFamilyHost o "https" _ 443) = _
  rw [heq, Option.map_map]
  rfl

theorem OwnSpelling.agrees (hc : Compiled cel document p) (h : OwnSpelling p ip port) : RawAgrees p ip port := by
  cases hdest : addrFromIP ip with
  | none =>
    have hnone : ∀ o, p.resolveHTTPSRawIP o ip port = none := fun o => by simp [Policy.resolveHTTPSRawIP, hdest]
    exact ⟨fun o _ _ _ _ hr => by simp [hnone] at hr, fun o o' => by rw [hnone, hnone], fun _ _ hd => by simp [hdest] at hd⟩
  | some dest =>
    have hunique : ∀ {e e'}, ExactMatch p.httpsEndpoints.values (rawAuthority dest port) e →
        ExactMatch p.httpsEndpoints.values (rawAuthority dest port) e' → e = e' :=
      fun he he' => hc.exactMatch_unique (show Registry.endpoint "https" = some _ from rfl) he he'
    have hfound : ∀ (o : RangeOrder) e, e ∈ p.httpsEndpoints.values → BindsAddr e dest port →
        p.resolveHTTPSRawIP o ip port =
          some (e.ref, formatAuthority (rawAuthority dest port) 443, (rawAuthority dest port).host) := by
      intro o e he hbinds
      rcases resolveHTTPSRawIP_cases o hdest port with ⟨-, hno⟩ | ⟨e', he', hbinds', hsome⟩
      · exact absurd hbinds (hno e he)
      · rw [hsome, hunique (h.exactMatch hdest he hbinds) (h.exactMatch hdest he' hbinds')]
    refine ⟨fun o o' ref authority host hr => ?_, fun o o' => ?_, fun o dest' hd e he hbinds => ?_⟩
    · rcases resolveHTTPSRawIP_cases o hdest port with ⟨hnone, -⟩ | ⟨e, he, hbinds, hsome⟩
      · rw [hnone] at hr
        cases hr
      · rw [hsome] at hr
        cases hr
        have hport := hc.bindsAddr_port he hbinds
        have hexact := h.exactMatch hdest he hbinds
        have hself := parseAuthority_raw hdest hport
        refine ⟨⟨e, ?_⟩, ?_⟩
        · have htie : TieFree p "https" (formatAuthority (rawAuthority dest port) 443) 443 := by
            intro a ha
            cases hself.symm.trans ha
            exact .inl ⟨e, hexact⟩
          rw [matchHTTPFamilyHost_raw hdest hport]
          have hhttps : Registry.endpoint "https" = some _ := rfl
          exact congrArg _ ((scanEndpoint_eq_some (htie.selects_unique hc hhttps hself)).2 (.inl hexact))
        · simp only [Policy.matchEndpointAuthority, show Policy.defaultPort "https" = 443 from rfl, hself, decide_true]
    · rcases resolveHTTPSRawIP_cases o' hdest port with ⟨hnone, hno⟩ | ⟨e, he, hbinds, hsome⟩
      · rcases resolveHTTPSRawIP_cases o hdest port with ⟨hnone', -⟩ | ⟨e, he, hbinds, -⟩
        · rw [hnone, hnone']
        · exact absurd hbinds (hno e he)
      · rw [hsome, hfound o e he hbinds]
    · cases hdest.symm.trans hd
      exact ⟨_, _, hfound o e he hbinds⟩

end Agreement

/-- For every compiled policy, destination and port, resolving a raw address agrees with host matching exactly
if the endpoints that declare the address declare it in its own spelling. -/
theorem rawIP_agrees_iff {cel : Cel} {filename : String} {document : NetworkPolicyFile} {p : Policy}
    (h : compileNetworkPolicy cel filename document = .ok p) (ip : List UInt8) (port : UInt16) :
    RawAgrees p ip port ↔ OwnSpelling p ip port := by
  have hc := compiled_of_ok h
  refine ⟨fun hagrees dest hdest e he hbinds => ?_, OwnSpelling.agrees hc⟩
  have hport := hc.bindsAddr_port he hbinds
  obtain ⟨authority, host, hresolve⟩ := hagrees.found .insertion dest hdest e he hbinds
  obtain ⟨⟨e', hmatch⟩, -⟩ := hagrees.matched .insertion .insertion _ _ _ hresolve
  rcases resolveHTTPSRawIP_cases .insertion hdest port with ⟨hnone, -⟩ | ⟨e'', -, -, hsome⟩
  · rw [hnone] at hresolve
    cases hresolve
  · rw [hsome] at hresolve
    obtain ⟨-, hauthority⟩ := Prod.mk.inj (Option.some.inj hresolve)
    rw [← (Prod.mk.inj hauthority).1, matchHTTPFamilyHost_raw hdest hport] at hmatch
    obtain ⟨e₁, hscan, heq⟩ := Option.map_eq_some_iff.1 hmatch
    obtain ⟨href, rfl⟩ := Prod.mk.inj heq
    -- The scan ends at the endpoint itself, and not at a wildcard.
    have hselects := selects_of_scan hscan
    have hmem : e₁ ∈ p.httpsEndpoints.values := by
      rcases hselects with h | ⟨-, n, h, -⟩ <;> exact h.1
    obtain rfl := hc.eq_of_ref (show Transport.httpsMITM ≠ _ by decide) hmem he href
    have hexact : ∃ b ∈ e₁.hosts, b.matches (rawAuthority dest port) = true := by
      rcases hselects with ⟨-, b, hb, hm, -⟩ | ⟨-, n, ⟨-, b, hb, hm, -⟩, -⟩ <;> exact ⟨b, hb, hm⟩
    obtain ⟨b, hb, hm⟩ := hexact
    obtain ⟨pattern, defaultPort, -, hparse⟩ := hc.binding_parsed hmem hb
    have hw := wildcard_not_address hparse hdest hm
    obtain ⟨hh, hp⟩ := (Binding.matches_exact hw).1 hm
    exact ⟨b, hb, hw, hp, by rw [hh]; simp [rawAuthority]⟩

def bothSpellings : NetworkPolicyFile where
  version := 1
  endpoints := [httpsDecl "a" ["[::ffff:192.0.2.1]", "192.0.2.1"]]

theorem rawIP_agrees_bothSpellings :
    ∃ p, compileNetworkPolicy ⟨fun _ _ => true⟩ "policy.json" bothSpellings = .ok p ∧ RawAgrees p [192, 0, 2, 1] 443 := by
  obtain ⟨p, hp, hends⟩ := exists_ok_of_map (x := compileNetworkPolicy ⟨fun _ _ => true⟩ "policy.json" bothSpellings)
    (f := fun p => p.httpsEndpoints.values.map (·.hosts))
    (b := [[⟨"[::ffff:192.0.2.1]", "::ffff:192.0.2.1", 443, false⟩, ⟨"192.0.2.1", "192.0.2.1", 443, false⟩]])
    (by decide +kernel)
  refine ⟨p, hp, (rawIP_agrees_iff hp [192, 0, 2, 1] 443).2 fun dest hdest e he _ => ?_⟩
  cases hdest
  have hhosts := mem_map_of_mem (f := (·.hosts)) he
  rw [hends] at hhosts
  rw [mem_singleton.1 hhosts]
  exact ⟨⟨"192.0.2.1", "192.0.2.1", 443, false⟩, by simp, rfl, rfl, by decide⟩

/-- An address declared only as IPv4-mapped: it is resolved to an authority that matches no endpoint. -/
theorem mapped_address_unmatched :
    (compileNetworkPolicy ⟨fun _ _ => true⟩ "policy.json"
        { version := 1, endpoints := [httpsDecl "a" ["[::ffff:192.0.2.1]"]] }).toOption.map (fun p =>
      ((p.resolveHTTPSRawIP .insertion [192, 0, 2, 1] 443),
        p.matchHTTPFamilyHostDefault .insertion "https" "192.0.2.1")) =
      some (some (⟨"https", "a"⟩, "192.0.2.1", "192.0.2.1"), none) := by
  decide +kernel

end Silo.Netd
