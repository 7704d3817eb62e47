import Silo.Policy.Accepted
import Silo.Policy.Load
/-!
# Secret slots of a policy

The slot of a secret is named after the credential or tailscale node it belongs to, and
its key in the secret store also after the kind. Names have no dots, so both texts can be
read back, and no two slots of an accepted policy meet.
-/

namespace Silo.Policy

open Rust List Option

/-! ## Reading a joined name back -/

theorem joined_inj {a b x y : String} (ha : '.' ∉ a.toList) (hb : '.' ∉ b.toList) (h : a ++ "." ++ x = b ++ "." ++ y) :
    a = b ∧ x = y := by
  have hlist : a.toList ++ '.' :: x.toList = b.toList ++ '.' :: y.toList := by
    simpa using congrArg String.toList h
  obtain ⟨hab, hxy⟩ := Lib.append_sep_inj ha hb hlist
  exact ⟨String.toList_inj.1 hab, String.toList_inj.1 hxy⟩

theorem no_dot_of_valid_identifier {name : String} (h : valid_identifier name) : '.' ∉ name.toList :=
  not_mem_of_valid_identifier h (by decide)

/-! ## The slots of one credential -/

/-- The last part of the key a field is stored under: one key for all fields of an OAuth credential. -/
def key_suffix (f : String × Bool × Secrets.SecretField) : String := if f.2.2 ≠ .Value then "oauth" else f.1

theorem secret_key_eq_some {name : String} {key : Secrets.SecretName} (h : secret_key name = some key) :
    key.as_str = name.toList := by
  unfold secret_key at h
  cases hnew : Secrets.SecretName.new name.toList with
  | error e => simp [hnew, Except.toOption] at h
  | ok n =>
    simp only [hnew, Except.toOption, some.injEq] at h
    exact h ▸ (Secrets.SecretName.new_eq_ok.1 hnew).1

structure FieldSlot (c : NetworkCredential) (f : String × Bool × Secrets.SecretField) (slot : NetworkSecretSlot) : Prop where
  name : slot.name = c.name ++ "." ++ f.1
  key : slot.key.as_str = (c.kind ++ "." ++ c.name ++ "." ++ key_suffix f).toList
  kind : f.2.2 ≠ .Value → slot.kind = .oauth

variable {c : NetworkCredential} {slot : NetworkSecretSlot}

theorem fieldSlot_of_map {f : String × Bool × Secrets.SecretField}
    (h : (secret_key (c.kind ++ "." ++ c.name ++ "." ++ key_suffix f)).map
      (fun key => (⟨c.name ++ "." ++ f.1, f.2.1, if f.2.2 ≠ .Value then .oauth else .plain, key, f.2.2⟩ : NetworkSecretSlot)) =
        some slot) : FieldSlot c f slot := by
  obtain ⟨key, hkey, rfl⟩ := map_eq_some_iff.1 h
  exact ⟨rfl, secret_key_eq_some hkey, fun hne => if_pos hne⟩

theorem mem_credential_secret_slots
    (h : slot ∈ credential_secret_slots c) : ∃ f ∈ credential_fields c.kind, FieldSlot c f slot := by
  obtain ⟨f, hf, hslot⟩ := mem_filterMap.1 h
  exact ⟨f, hf, fieldSlot_of_map hslot⟩

theorem credential_fields_apart (kind : String) :
    (credential_fields kind).Pairwise fun f g =>
      f.1 ≠ g.1 ∧ (key_suffix f = key_suffix g → f.2.2 ≠ .Value ∧ g.2.2 ≠ .Value) := by
  unfold credential_fields
  split <;> decide

theorem credential_fields_not_tailscale (kind : String) :
    ∀ f ∈ credential_fields kind, ∀ g ∈ ["auth_key", "client_secret", "api_token"], f.1 ≠ "tailscale." ++ g := by
  unfold credential_fields
  split <;> decide

theorem supported_kind_no_dot {kind : String} (h : is_supported_credential_kind kind) :
    '.' ∉ kind.toList ∧ kind ≠ "tailscale" := by
  have hall : ∀ k ∈ ["basic_auth", "bearer_token", "header_token", "github_oauth", "openai_codex_oauth", "aws_credential"],
      '.' ∉ k.toList ∧ k ≠ "tailscale" := by decide
  exact hall kind (of_decide_eq_true h)

/-! ## No two slots meet -/

/-- Two slots of a policy: different names, and one key only for the OAuth slots of one credential. -/
def Separate (policy : NetworkPolicy) (a b : NetworkSecretSlot) : Prop :=
  a.name ≠ b.name ∧ (a.key = b.key → ∃ c ∈ policy.credentials, a ∈ credential_secret_slots c ∧
    b ∈ credential_secret_slots c ∧ a.kind = .oauth ∧ b.kind = .oauth)

variable {policy : NetworkPolicy}

theorem separate_same_credential (hc : c ∈ policy.credentials) :
    (credential_secret_slots c).Pairwise (Separate policy) := by
  refine (pairwise_filterMap.2 ?_ : (credential_secret_slots c).Pairwise fun a b =>
    a ∈ credential_secret_slots c → b ∈ credential_secret_slots c → Separate policy a b).imp_of_mem fun ha hb h => h ha hb
  refine (credential_fields_apart c.kind).imp fun {f g} hfg a ha b hb hma hmb => ?_
  have hslotA := fieldSlot_of_map ha
  have hslotB := fieldSlot_of_map hb
  refine ⟨fun hname => ?_, fun hkey => ?_⟩
  · rw [hslotA.name, hslotB.name, String.append_right_inj] at hname
    exact hfg.1 hname
  · have hsuffix : key_suffix f = key_suffix g := by
      have := hslotA.key.symm.trans ((congrArg _ hkey).trans hslotB.key)
      exact (String.append_right_inj _).1 (String.toList_inj.1 this)
    obtain ⟨hf, hg⟩ := hfg.2 hsuffix
    exact ⟨c, hc, hma, hmb, hslotA.kind hf, hslotB.kind hg⟩

theorem separate_credentials {c d : NetworkCredential} (hne : c.name ≠ d.name)
    (hc : CredentialAccepted policy.endpoints c) (hd : CredentialAccepted policy.endpoints d) {a b : NetworkSecretSlot}
    (ha : a ∈ credential_secret_slots c) (hb : b ∈ credential_secret_slots d) : Separate policy a b := by
  obtain ⟨f, -, hslotA⟩ := mem_credential_secret_slots ha
  obtain ⟨g, -, hslotB⟩ := mem_credential_secret_slots hb
  have hcname := no_dot_of_valid_identifier hc.name
  have hdname := no_dot_of_valid_identifier hd.name
  refine ⟨fun hname => ?_, fun hkey => ?_⟩
  · rw [hslotA.name, hslotB.name] at hname
    exact hne (joined_inj hcname hdname hname).1
  · have htext : c.kind ++ "." ++ (c.name ++ "." ++ key_suffix f) = d.kind ++ "." ++ (d.name ++ "." ++ key_suffix g) := by
      have := hslotA.key.symm.trans ((congrArg _ hkey).trans hslotB.key)
      simpa only [String.append_assoc] using String.toList_inj.1 this
    have hrest := (joined_inj (supported_kind_no_dot hc.kind).1 (supported_kind_no_dot hd.kind).1 htext).2
    exact absurd (joined_inj hcname hdname hrest).1 hne

theorem mem_tunnel_secret_slots {t : TailscaleTunnel} (h : slot ∈ tunnel_secret_slots t) :
    ∃ field ∈ ["auth_key", "client_secret", "api_token"], slot.name = t.name ++ "." ++ ("tailscale." ++ field) ∧
      slot.key.as_str = ("tailscale" ++ "." ++ (t.name ++ "." ++ field)).toList := by
  obtain ⟨field, hfield, hslot⟩ := mem_filterMap.1 h
  obtain ⟨key, hkey, rfl⟩ := map_eq_some_iff.1 hslot
  refine ⟨field, hfield, ?_, ?_⟩
  · have hdots : ".tailscale." = "." ++ "tailscale." := by decide
    show t.name ++ ".tailscale." ++ field = _
    rw [hdots]
    simp only [String.append_assoc]
  · have hdots : "tailscale." = "tailscale" ++ "." := by decide
    rw [secret_key_eq_some hkey, hdots]
    simp only [String.append_assoc]

theorem separate_tunnel (t : TailscaleTunnel) : (tunnel_secret_slots t).Pairwise (Separate policy) := by
  refine pairwise_filterMap.2 ?_
  have hfields : ["auth_key", "client_secret", "api_token"].Pairwise (· ≠ ·) := by decide
  refine hfields.imp fun {f g} hfg a ha b hb => ?_
  obtain ⟨keyA, hkeyA, rfl⟩ := map_eq_some_iff.1 ha
  obtain ⟨keyB, hkeyB, rfl⟩ := map_eq_some_iff.1 hb
  refine ⟨fun hname => hfg ((String.append_right_inj _).1 hname), fun hkey => ?_⟩
  have htext := (secret_key_eq_some hkeyA).symm.trans ((congrArg _ hkey).trans (secret_key_eq_some hkeyB))
  exact absurd ((String.append_right_inj _).1 (String.toList_inj.1 htext)) hfg

theorem separate_credential_tunnel (hc : CredentialAccepted policy.endpoints c)
    {t : TailscaleTunnel} (ht : valid_identifier t.name) {a b : NetworkSecretSlot}
    (ha : a ∈ credential_secret_slots c) (hb : b ∈ tunnel_secret_slots t) : Separate policy a b := by
  obtain ⟨f, hf, hslot⟩ := mem_credential_secret_slots ha
  obtain ⟨field, hfield, hname, hkey⟩ := mem_tunnel_secret_slots hb
  refine ⟨fun heq => ?_, fun heq => ?_⟩
  · rw [hslot.name, hname] at heq
    exact credential_fields_not_tailscale c.kind f hf field hfield
      (joined_inj (no_dot_of_valid_identifier hc.name) (no_dot_of_valid_identifier ht) heq).2
  · -- no credential is of kind `tailscale`
    have htext : c.kind ++ "." ++ (c.name ++ "." ++ key_suffix f) = "tailscale" ++ "." ++ (t.name ++ "." ++ field) := by
      have := hslot.key.symm.trans ((congrArg _ heq).trans hkey)
      simpa only [String.append_assoc] using String.toList_inj.1 this
    obtain ⟨hdot, hkind⟩ := supported_kind_no_dot hc.kind
    exact absurd (joined_inj hdot (by decide) htext).1 hkind

/-- The secret slots of a loaded policy have different names, and a key of the store is shared by the OAuth slots of
one credential only. -/
theorem secret_slots_separate (serde : SerdeJson) (cel : Cel) (source : Source) {policy : NetworkPolicy}
    (h : source.load serde cel = .ok policy) : policy.secret_slots.Pairwise (Separate policy) := by
  obtain ⟨_, -, haccept⟩ := Source.load_eq_ok.1 h
  have hacc := accepted_of_noErrors (NetworkPolicy.accept_eq_ok.1 haccept).2
  have htunnels : ∀ t ∈ policy.tailscale, valid_identifier t.name = true := by
    rcases hacc.tailscale with hnil | ⟨node, hnode, hname, -⟩
    · simp [hnil]
    · simpa [hnode] using hname
  unfold NetworkPolicy.secret_slots
  refine pairwise_append.2 ⟨pairwise_flatMap.2 ⟨fun c hc => separate_same_credential hc, ?_⟩,
    pairwise_flatMap.2 ⟨fun t _ => separate_tunnel t, ?_⟩, fun a ha b hb => ?_⟩
  · have hnames : policy.credentials.Pairwise fun c d => c.name ≠ d.name := pairwise_map.1 hacc.credential_names
    exact hnames.imp_of_mem fun hc hd hne a ha b hb =>
      separate_credentials hne (hacc.credentials _ hc) (hacc.credentials _ hd) ha hb
  · rcases hacc.tailscale with hnil | ⟨node, hnode, -⟩
    · rw [hnil]
      exact .nil
    · rw [hnode]
      exact pairwise_singleton _ _
  · obtain ⟨c, hc, hac⟩ := mem_flatMap.1 ha
    obtain ⟨t, ht, hbt⟩ := mem_flatMap.1 hb
    exact separate_credential_tunnel (hacc.credentials c hc) (htunnels t ht) hac hbt

/-- An OAuth credential and a tailscale node of the same name. -/
def namesakes : HclPolicy where
  policy_hash := ""
  documents := [{
    endpoints := [
      { kind := "https", name := "api", family := .http, transport := .https_mitm, default_port := 443,
        terminates_tls := true, supports_credentials := true, hosts := ["api.example.com"] }]
    credentials := [{ kind := "github_oauth", name := "work", endpoint := ⟨"https", "api"⟩ }]
    tailscale := [{ name := "work" }] }]

theorem secret_slots_of_namesakes :
    namesakes.lower.normalize.secret_slots.length = 6 ∧
      namesakes.lower.normalize.secret_slots.Pairwise (Separate namesakes.lower.normalize) := by
  refine ⟨by decide, secret_slots_separate ⟨fun _ => "", fun _ => none, id⟩
    ⟨Empty, fun _ => .error "parse error", fun _ _ => .error "no value"⟩ (.hcl namesakes) ?_⟩
  exact Source.load_eq_ok.2 ⟨_, rfl, NetworkPolicy.accept_eq_ok.2 ⟨rfl, by decide⟩⟩

end Silo.Policy
