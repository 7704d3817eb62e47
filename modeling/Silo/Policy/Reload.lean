import Silo.Policy.Forwards
import Silo.Policy.Load
/-!
# Reloading a policy

A loaded policy written as JSON and loaded again is normalised and validated a second time.
Nothing changes then exactly when normalising the hosts once was enough and the floats of the
free-form values come back as they were.
-/

namespace Silo.Policy

open Rust Lib Rust.Serde List

/-! ## Normalising twice -/

/-- A host without the dots at its end, which may uncover white space. -/
def undotted (host : String) : Str := trim_end_matches (· == '.') (trim host.toList)

theorem normalize_host_toList (host : String) : (normalize_host host).toList = to_ascii_lowercase (undotted host) := by
  simp [normalize_host, undotted]

theorem is_dot_ascii_lowercase (c : Char) : (ascii_lowercase c == '.') = (c == '.') :=
  ascii_lowercase_congr (p := (· == '.')) (by decide) c

/-- Normalising a host again changes it exactly when white space was uncovered. -/
theorem normalize_host_idem_iff (host : String) :
    normalize_host (normalize_host host) = normalize_host host ↔ (undotted host).getLast?.any is_whitespace = false := by
  have hagain : (normalize_host (normalize_host host)).toList =
      to_ascii_lowercase (trim_end_matches (· == '.') (trim (undotted host))) := by
    rw [normalize_host_toList, undotted, normalize_host_toList]
    unfold to_ascii_lowercase
    rw [trim_map is_whitespace_ascii_lowercase, trim_end_matches_map is_dot_ascii_lowercase]
    simp [ascii_lowercase_ascii_lowercase]
  rw [← String.toList_inj, hagain, normalize_host_toList]
  constructor
  · intro h
    by_contra hw
    have hlt := length_trim_lt (s := undotted host) (by simpa using hw)
    have hle := (trim_end_matches_isPrefix (· == '.') (trim (undotted host))).length_le
    have hlen := congrArg length h
    simp only [to_ascii_lowercase, length_map] at hlen
    omega
  · intro h
    have hhead : (undotted host).head?.any is_whitespace = false := by
      have hpre : undotted host <+: trim host.toList := trim_end_matches_isPrefix _ _
      obtain ⟨t, ht⟩ := hpre
      cases hu : undotted host with
      | nil => rfl
      | cons c cs =>
        have := head?_trim host.toList
        rw [← ht, hu] at this
        simpa using this
    have hdot : trim_end_matches (· == '.') (undotted host) = undotted host :=
      trim_end_matches_eq_self (getLast?_trim_end_matches _ _)
    rw [trim_eq_self hhead h, hdot]

/-- A listen address that was normalised is the normal form of itself. -/
theorem NetworkForward.normalize_idem (forward : NetworkForward) : forward.normalize.normalize = forward.normalize := by
  by_cases hself : forward.ToSelf
  · have hand : forward.kind = "tailscale" ∧ forward.target = "self" := hself
    cases htr : forward.transport with
    | error e => simp [NetworkForward.normalize, hand, htr]
    | ok o =>
      cases o with
      | none => simp [NetworkForward.normalize, hand, htr]
      | some port => rw [hself.normalize.normalize_eq (hself.transport_normalize.trans htr), hself.normalize_eq htr]
  · have hand : ¬ (forward.kind = "tailscale" ∧ forward.target = "self") := hself
    simp [NetworkForward.normalize, hand]

open NetworkEndpoint NetworkPolicy

theorem NetworkEndpoint.normalize_idem_iff (endpoint : NetworkEndpoint) :
    endpoint.normalize.normalize = endpoint.normalize ↔
      (has_hosts_schema endpoint.kind →
        ∀ host ∈ endpoint.hosts, (undotted host).getLast?.any is_whitespace = false) := by
  unfold normalize
  by_cases h : has_hosts_schema endpoint.kind
  · simp only [h, if_true, mk.injEq, true_and, true_imp_iff, map_map, ← normalize_host_idem_iff]
    rw [map_inj_left]
    rfl
  · simp [h]

/-- Every host was normalised to a fixed point. -/
def NetworkPolicy.HostsSettled (policy : NetworkPolicy) : Prop :=
  ∀ endpoint ∈ policy.endpoints, has_hosts_schema endpoint.kind →
    ∀ host ∈ endpoint.hosts, (undotted host).getLast?.any is_whitespace = false

theorem NetworkPolicy.normalize_idem_iff (policy : NetworkPolicy) :
    policy.normalize.normalize = policy.normalize ↔ policy.HostsSettled := by
  have hforwards : (policy.forwards.map NetworkForward.normalize).map NetworkForward.normalize =
      policy.forwards.map NetworkForward.normalize := by
    simp [NetworkForward.normalize_idem]
  unfold NetworkPolicy.normalize NetworkPolicy.HostsSettled
  simp only [NetworkPolicy.mk.injEq, true_and, hforwards, and_true, map_map, ← NetworkEndpoint.normalize_idem_iff]
  rw [map_inj_left]
  rfl

/-! ## Free-form values -/

/-- The floats of the free-form values are printed and read back as they are. -/
def NetworkPolicy.FloatsSettled (serde : SerdeJson) (policy : NetworkPolicy) : Prop :=
  policy.metadata.mapFloats serde.reread = policy.metadata ∧
    ∀ endpoint ∈ policy.endpoints, endpoint.config.mapFloats serde.reread = endpoint.config

theorem NetworkEndpoint.normalize_config (endpoint : NetworkEndpoint) : endpoint.normalize.config = endpoint.config := by
  unfold normalize
  split <;> rfl

theorem NetworkEndpoint.mapFloats_normalize_eq_iff (f : ℚ → ℚ) (e : NetworkEndpoint) :
    (e.mapFloats f).normalize = e ↔ e.normalize = e ∧ e.config.mapFloats f = e.config := by
  unfold mapFloats normalize
  cases e
  split <;> simp [and_comm]

/-- Replacing floats and normalising changes nothing exactly when neither does. -/
theorem NetworkPolicy.mapFloats_normalize_eq_iff (serde : SerdeJson) (p : NetworkPolicy) :
    (p.mapFloats serde.reread).normalize = p ↔ p.normalize = p ∧ p.FloatsSettled serde := by
  obtain ⟨version, metadata, settings, endpoints, credentials, rules, tailscale, forwards⟩ := p
  have hendpoints : (endpoints.map (NetworkEndpoint.mapFloats serde.reread)).map NetworkEndpoint.normalize = endpoints ↔
      endpoints.map NetworkEndpoint.normalize = endpoints ∧ ∀ e ∈ endpoints, e.config.mapFloats serde.reread = e.config := by
    rw [map_map]
    nth_rewrite 2 [← map_id endpoints]
    nth_rewrite 4 [← map_id endpoints]
    simp only [map_inj_left, Function.comp, NetworkEndpoint.mapFloats_normalize_eq_iff, id]
    exact forall₂_and
  simp only [NetworkPolicy.mapFloats, NetworkPolicy.normalize, NetworkPolicy.FloatsSettled, NetworkPolicy.mk.injEq,
    true_and, hendpoints]
  tauto

theorem NetworkPolicy.floatsSettled_normalize (serde : SerdeJson) (p : NetworkPolicy) :
    p.normalize.FloatsSettled serde ↔ p.FloatsSettled serde := by
  unfold FloatsSettled normalize
  simp [normalize_config]

variable {policy : NetworkPolicy}

theorem NetworkPolicy.Fits.normalize (h : policy.Fits) : policy.normalize.Fits := by
  refine ⟨h.metadata, fun e he => ?_⟩
  obtain ⟨e', he', rfl⟩ := mem_map.1 he
  rw [normalize_config]
  exact h.config e' he'

/-! ## What a source holds fits the recursion limit -/

theorem lower_config_depth (d : EndpointDecl) : (Value.object (lower_config d).members).depth ≤ 2 := by
  refine (Value.depth_read_le (.object _)).trans (Nat.succ_le_succ (Value.depthMembers_le.2 ?_))
  have hstrings : (Value.array (d.registries.map .string)).depth ≤ 1 :=
    (plain_vec (plain_str 0) d.registries).depth
  simp only [forall_mem_append]
  refine ⟨⟨?_, ?_⟩, ?_⟩
  · split
    · simp
    · simpa using hstrings
  · split
    · simp
    · simp [Value.depth]
  · split
    · simp
    · simp [Value.depth]

theorem HclPolicy.fits_lower (policy : HclPolicy) : policy.lower.Fits := by
  -- the documents only add lowered endpoints
  refine foldlRecOn (motive := Fits) _ _ ⟨?_, by simp⟩ fun p h d _ => ⟨h.metadata,
    forall_mem_append.2 ⟨h.config, forall_mem_map.2 fun decl _ => ?_⟩⟩
  swap
  · have := lower_config_depth decl
    show (Value.object (lower_config decl).members).depth + 3 ≤ 127
    omega
  have := Value.depth_read_le (.object [("hcl", .object [("source_hash", .string policy.policy_hash)])])
  exact le_trans (Nat.succ_le_succ this) (by simp [Value.depth, Value.depthMembers])

theorem Source.fits {serde : SerdeJson} {source : Source} (h : source.policy serde = some policy) :
    policy.Fits := by
  cases source with
  | json text =>
    simp only [Source.policy, from_str, Option.bind_eq_bind, Option.bind_eq_some_iff, Option.ite_none_right_eq_some] at h
    obtain ⟨v, -, hdepth, hv⟩ := h
    exact fits_of_deserialize hdepth hv
  | hcl policy' =>
    cases h
    exact policy'.fits_lower

/-! ## Reloading -/

theorem from_json_source_to_json {serde : SerdeJson} (cel : Cel) (hfits : policy.Fits)
    (hserde : serde.Roundtrips policy.serialize) :
    from_json_source serde cel (to_json serde policy) =
      ((policy.mapFloats serde.reread).accept cel).mapError .diagnostics := by
  have hread : from_str serde (to_json serde policy) = some (policy.mapFloats serde.reread) := by
    have hdepth : (policy.mapFloats serde.reread).serialize.depth ≤ recursion_limit := by
      rw [← NetworkPolicy.serialize_mapFloats, Value.depth_mapFloats]
      exact hfits.depth_serialize
    unfold from_str to_json
    rw [hserde, NetworkPolicy.serialize_mapFloats]
    simp [hdepth, NetworkPolicy.deserialize_serialize]
  simp only [from_json_source, hread]

/-- A loaded policy, written as JSON and loaded again, comes back as it was exactly when no host of the source had white
space before its trailing dots and the free-form values hold no float that changes in print. -/
theorem reload_eq_iff (serde : SerdeJson) (cel : Cel) (source : Source) (policy loaded : NetworkPolicy)
    (hpolicy : source.policy serde = some policy) (hload : source.load serde cel = .ok loaded)
    (hserde : serde.Roundtrips loaded.serialize) :
    from_json_source serde cel (to_json serde loaded) = .ok loaded ↔ policy.HostsSettled ∧ policy.FloatsSettled serde := by
  obtain ⟨policy', hpolicy', haccept⟩ := Source.load_eq_ok.1 hload
  obtain rfl : policy = policy' := Option.some.inj (hpolicy.symm.trans hpolicy')
  obtain ⟨rfl, hvalid⟩ := NetworkPolicy.accept_eq_ok.1 haccept
  rw [from_json_source_to_json cel (Source.fits hpolicy).normalize hserde, mapError_eq_ok, NetworkPolicy.accept_eq_ok,
    ← NetworkPolicy.normalize_idem_iff, ← NetworkPolicy.floatsSettled_normalize, ← NetworkPolicy.mapFloats_normalize_eq_iff]
  exact ⟨fun h => h.1.symm, fun h => ⟨h.symm, hvalid⟩⟩

/-! ### One endpoint -/

def web_policy (hosts : List String) : NetworkPolicy :=
  { version := 1
    endpoints := [{ name := "web", kind := "http", family := "http", transport := "http-proxy", tls_mode := "none", hosts }] }

def web_head : String :=
  "\x7b\"version\":1,\"metadata\":\x7b\x7d," ++
  "\"settings\":\x7b\"default_action\":\"allow\",\"audit\":\x7b\"body_buffer_bytes\":1048576,\"body_storage_bytes\":4096\x7d\x7d," ++
  "\"endpoints\":[\x7b\"name\":\"web\",\"kind\":\"http\",\"family\":\"http\",\"transport\":\"http-proxy\",\"tls\":\"none\"," ++
  "\"source_cidrs\":[],\"destination_cidrs\":[],\"protocol\":\"any\",\"ports\":[],\"hosts\":"

def web_tail : String := "\x7d],\"credentials\":[],\"rules\":[],\"tailscale\":[],\"forwards\":[]\x7d"

/-- The text of a policy with one HTTP endpoint; `hosts` is the text of its host list. -/
def web_text (hosts : String) : String := web_head ++ hosts ++ web_tail

theorem web_text_inj {a b : String} (h : web_text a = web_text b) : a = b := by
  have hl := congrArg String.toList h
  simp only [web_text, String.toList_append] at hl
  exact String.toList_inj.1 (append_cancel_left (append_cancel_right hl))

/-- The JSON format on two texts: those of a policy and of what it is normalised to. -/
def two_texts (source printed : String) (policy : NetworkPolicy) : SerdeJson where
  print _ := printed
  parse text :=
    if text = printed then some policy.normalize.serialize else if text = source then some policy.serialize else none
  reread := id

theorem two_texts_roundtrips (source printed : String) (policy : NetworkPolicy) :
    (two_texts source printed policy).Roundtrips policy.normalize.serialize := by
  simp [SerdeJson.Roundtrips, two_texts, Value.mapFloats_id]

theorem two_texts_policy {source printed : String} (hne : source ≠ printed) (hfits : policy.Fits) :
    (Source.json source).policy (two_texts source printed policy) = some policy := by
  have hparse : (two_texts source printed policy).parse source = some policy.serialize := by simp [two_texts, hne]
  simp [Source.policy, from_str, hparse, recursion_limit, hfits.depth_serialize, NetworkPolicy.deserialize_serialize]

theorem web_policy_fits (hosts : List String) : (web_policy hosts).Fits :=
  ⟨show 1 + 1 ≤ 127 by decide, fun e he => by
    obtain rfl := mem_singleton.1 he
    show 1 + 3 ≤ 127
    decide⟩

/-- A CEL crate, on policies without conditions. -/
def no_cel : Cel := ⟨Empty, fun _ => .error "parse error", fun _ _ => .error "no value"⟩

theorem two_texts_load {source printed : String} (hne : source ≠ printed) (hfits : policy.Fits)
    (hvalid : NoErrors (policy.normalize.validate no_cel)) :
    (Source.json source).load (two_texts source printed policy) no_cel = .ok policy.normalize :=
  Source.load_eq_ok.2 ⟨policy, two_texts_policy hne hfits, accept_eq_ok.2 ⟨rfl, hvalid⟩⟩

/-- An ordinary host with a trailing dot is loaded without it and stays so. -/
theorem reload_example_com :
    let serde := two_texts (web_text "[\"Example.com.\"]") (web_text "[\"example.com\"]") (web_policy ["Example.com."])
    (Source.json (web_text "[\"Example.com.\"]")).load serde no_cel = .ok (web_policy ["example.com"]) ∧
      from_json_source serde no_cel (to_json serde (web_policy ["example.com"])) = .ok (web_policy ["example.com"]) := by
  have hne : web_text "[\"Example.com.\"]" ≠ web_text "[\"example.com\"]" := fun h => absurd (web_text_inj h) (by decide)
  have hfits := web_policy_fits ["Example.com."]
  have hnorm : (web_policy ["Example.com."]).normalize = web_policy ["example.com"] := rfl
  have hload := two_texts_load hne hfits (by decide)
  rw [hnorm] at hload
  refine ⟨hload, (reload_eq_iff _ _ _ _ _ (two_texts_policy hne hfits) hload (hnorm ▸ two_texts_roundtrips _ _ _)).2 ⟨?_, ?_⟩⟩
  · show ∀ endpoint ∈ (web_policy ["Example.com."]).endpoints, _
    simp only [web_policy, forall_mem_singleton]
    decide
  · exact ⟨Map.ext' rfl, by simp only [web_policy, forall_mem_singleton]; rfl⟩

/-- A host with a space before its trailing dot is loaded with the space; when it is loaded again the space goes, and
the policy is refused because the host is now declared twice. -/
theorem reload_refused :
    let serde := two_texts (web_text "[\"a .\",\"a\"]") (web_text "[\"a \",\"a\"]") (web_policy ["a .", "a"])
    serde.Roundtrips (web_policy ["a ", "a"]).serialize ∧
      (Source.json (web_text "[\"a .\",\"a\"]")).load serde no_cel = .ok (web_policy ["a ", "a"]) ∧
      ¬ ∃ p, from_json_source serde no_cel (to_json serde (web_policy ["a ", "a"])) = .ok p := by
  have hne : web_text "[\"a .\",\"a\"]" ≠ web_text "[\"a \",\"a\"]" := fun h => absurd (web_text_inj h) (by decide)
  have hnorm : (web_policy ["a .", "a"]).normalize = web_policy ["a ", "a"] := rfl
  have hround := two_texts_roundtrips (web_text "[\"a .\",\"a\"]") (web_text "[\"a \",\"a\"]") (web_policy ["a .", "a"])
  have hload := two_texts_load hne (web_policy_fits ["a .", "a"]) (by decide)
  rw [hnorm] at hround hload
  refine ⟨hround, hload, fun ⟨p, hp⟩ => ?_⟩
  rw [from_json_source_to_json no_cel (web_policy_fits _) hround, mapError_eq_ok, NetworkPolicy.accept_eq_ok] at hp
  obtain ⟨rfl, hvalid⟩ := hp
  exact absurd hvalid (by decide)

end Silo.Policy
