import Silo.Policy.Canonical
import Silo.Rust.Serde
/-!
# Policies as JSON

The derived serialisation of a policy, and that reading it back gives the same policy.
-/

namespace Silo.Policy

open Rust Rust.Serde List Option Value Writes

/-! ## Enumerations -/

def Action.serialize : Action → Value
  | allow => str "allow"
  | deny => str "deny"

def Action.deserialize : Value → Option Action :=
  read_variant fun
    | "allow" => some allow
    | "deny" => some deny
    | _ => none

def IpProtocol.serialize : IpProtocol → Value
  | any => str "any"
  | tcp => str "tcp"
  | udp => str "udp"

def IpProtocol.deserialize : Value → Option IpProtocol :=
  read_variant fun
    | "any" => some any
    | "tcp" => some tcp
    | "udp" => some udp
    | _ => none

def ForwardProtocol.serialize : ForwardProtocol → Value
  | tcp => str "tcp"
  | https => str "https"

def ForwardProtocol.deserialize : Value → Option ForwardProtocol :=
  read_variant fun
    | "tcp" => some tcp
    | "https" => some https
    | _ => none

def ForwardCertificateProvider.serialize : ForwardCertificateProvider → Value
  | tailscale => str "tailscale"

def ForwardCertificateProvider.deserialize : Value → Option ForwardCertificateProvider :=
  read_variant fun
    | "tailscale" => some tailscale
    | _ => none

@[simp] theorem Action.deserialize_serialize (a : Action) : Action.deserialize a.serialize = some a := by
  cases a <;> rfl

@[simp] theorem IpProtocol.deserialize_serialize (a : IpProtocol) : IpProtocol.deserialize a.serialize = some a := by
  cases a <;> rfl

@[simp] theorem ForwardProtocol.deserialize_serialize (a : ForwardProtocol) :
    ForwardProtocol.deserialize a.serialize = some a := by
  cases a <;> rfl

@[simp] theorem ForwardCertificateProvider.deserialize_serialize (a : ForwardCertificateProvider) :
    ForwardCertificateProvider.deserialize a.serialize = some a := by
  cases a; rfl

/-! ## Settings -/

def NetworkAuditSettings.fields : List String := ["body_buffer_bytes", "body_storage_bytes"]

def NetworkAuditSettings.serialize (a : NetworkAuditSettings) : Value :=
  .object ([("body_buffer_bytes", u64 a.body_buffer_bytes)] ++ [("body_storage_bytes", u64 a.body_storage_bytes)])

def NetworkAuditSettings.deserialize (v : Value) : Option NetworkAuditSettings := do
  let fs ← struct_fields true fields v
  return {
    body_buffer_bytes := ← defaulted fs "body_buffer_bytes" read_u64 1048576
    body_storage_bytes := ← defaulted fs "body_storage_bytes" read_u64 4096 }

def NetworkPolicySettings.fields : List String := ["default_action", "audit"]

def NetworkPolicySettings.serialize (s : NetworkPolicySettings) : Value :=
  .object ([("default_action", s.default_action.serialize)] ++ [("audit", s.audit.serialize)])

def NetworkPolicySettings.deserialize (v : Value) : Option NetworkPolicySettings := do
  let fs ← struct_fields true fields v
  return {
    default_action := ← defaulted fs "default_action" Action.deserialize .allow
    audit := ← defaulted fs "audit" NetworkAuditSettings.deserialize {} }

/-! ## Endpoints -/

def NetworkEgress.fields : List String := ["host", "port", "tls"]

def NetworkEgress.serialize (e : NetworkEgress) : Value :=
  .object ([("host", str e.host)] ++ [("port", u16 e.port)] ++ [("tls", .bool e.tls)])

def NetworkEgress.deserialize (v : Value) : Option NetworkEgress := do
  let fs ← struct_fields true fields v
  return {
    host := ← required fs "host" read_str
    port := ← required fs "port" read_u16
    tls := ← defaulted fs "tls" read_bool false }

def PortRange.fields : List String := ["start", "end"]

def PortRange.serialize (p : PortRange) : Value := .object ([("start", u16 p.start)] ++ [("end", u16 p.end_)])

/-- `PortRange` does not deny unknown fields. -/
def PortRange.deserialize (v : Value) : Option PortRange := do
  let fs ← struct_fields false fields v
  return { start := ← required fs "start" read_u16, end_ := ← required fs "end" read_u16 }

def NetworkEndpoint.fields : List String :=
  ["name", "kind", "family", "transport", "tls", "config", "egress", "capabilities", "source_cidrs", "destination_cidrs",
   "protocol", "ports", "hosts"]

/-- `skip_serializing_if = "Map::is_empty"`. -/
def config_member (config : Map) : Value.Members := if config.is_empty then [] else [("config", .object config.members)]

def NetworkEndpoint.serialize (e : NetworkEndpoint) : Value :=
  .object ([("name", str e.name)] ++ [("kind", str e.kind)] ++ [("family", str e.family)] ++
    [("transport", str e.transport)] ++ [("tls", str e.tls_mode)] ++ config_member e.config ++
    unless_empty "egress" NetworkEgress.serialize e.egress ++ unless_empty "capabilities" str e.capabilities ++
    [("source_cidrs", vec str e.source_cidrs)] ++ [("destination_cidrs", vec str e.destination_cidrs)] ++
    [("protocol", e.protocol.serialize)] ++ [("ports", vec PortRange.serialize e.ports)] ++ [("hosts", vec str e.hosts)])

def NetworkEndpoint.deserialize (v : Value) : Option NetworkEndpoint := do
  let fs ← struct_fields true fields v
  return {
    name := ← required fs "name" read_str
    kind := ← required fs "kind" read_str
    family := ← required fs "family" read_str
    transport := ← required fs "transport" read_str
    tls_mode := ← required fs "tls" read_str
    config := ← defaulted fs "config" read_map .empty
    egress := ← defaulted fs "egress" (read_vec NetworkEgress.deserialize) []
    capabilities := ← defaulted fs "capabilities" (read_vec read_str) []
    source_cidrs := ← defaulted fs "source_cidrs" (read_vec read_str) []
    destination_cidrs := ← defaulted fs "destination_cidrs" (read_vec read_str) []
    protocol := ← defaulted fs "protocol" IpProtocol.deserialize .any
    ports := ← defaulted fs "ports" (read_vec PortRange.deserialize) []
    hosts := ← defaulted fs "hosts" (read_vec read_str) [] }

/-! ## Credentials, rules, tunnels and forwards -/

def NetworkCredential.fields : List String :=
  ["name", "kind", "endpoint", "username", "header", "prefix", "idempotency_key", "condition"]

def NetworkCredential.serialize (c : NetworkCredential) : Value :=
  .object ([("name", str c.name)] ++ [("kind", str c.kind)] ++ [("endpoint", str c.endpoint)] ++
    optional "username" str c.username ++ optional "header" str c.header ++ optional "prefix" str c.prefix_ ++
    [("idempotency_key", .bool c.idempotency_key)] ++ optional "condition" str c.condition)

def NetworkCredential.deserialize (v : Value) : Option NetworkCredential := do
  let fs ← struct_fields true fields v
  return {
    name := ← required fs "name" read_str
    kind := ← required fs "kind" read_str
    endpoint := ← required fs "endpoint" read_str
    username := ← defaulted fs "username" (read_option read_str) none
    header := ← defaulted fs "header" (read_option read_str) none
    prefix_ := ← defaulted fs "prefix" (read_option read_str) none
    idempotency_key := ← defaulted fs "idempotency_key" read_bool false
    condition := ← defaulted fs "condition" (read_option read_str) none }

def NetworkRule.fields : List String :=
  ["name", "endpoints", "credential", "condition", "tunnel", "verdict", "priority", "disabled", "reason"]

def NetworkRule.serialize (r : NetworkRule) : Value :=
  .object (optional "name" str r.name ++ [("endpoints", vec str r.endpoints)] ++ optional "credential" str r.credential ++
    optional "condition" str r.condition ++ optional "tunnel" str r.tunnel ++ [("verdict", r.verdict.serialize)] ++
    [("priority", i32 r.priority)] ++ [("disabled", .bool r.disabled)] ++ [("reason", str r.reason)])

def NetworkRule.deserialize (v : Value) : Option NetworkRule := do
  let fs ← struct_fields true fields v
  return {
    name := ← defaulted fs "name" (read_option read_str) none
    endpoints := ← required fs "endpoints" (read_vec read_str)
    credential := ← defaulted fs "credential" (read_option read_str) none
    condition := ← defaulted fs "condition" (read_option read_str) none
    tunnel := ← defaulted fs "tunnel" (read_option read_str) none
    verdict := ← defaulted fs "verdict" Action.deserialize .allow
    priority := ← defaulted fs "priority" read_i32 0
    disabled := ← defaulted fs "disabled" read_bool false
    reason := ← defaulted fs "reason" read_str "" }

def TailscaleTunnel.fields : List String := ["name", "ephemeral", "tags", "hostname", "control_url"]

def TailscaleTunnel.serialize (t : TailscaleTunnel) : Value :=
  .object ([("name", str t.name)] ++ [("ephemeral", .bool t.ephemeral)] ++ [("tags", vec str t.tags)] ++
    optional "hostname" str t.hostname ++ optional "control_url" str t.control_url)

def TailscaleTunnel.deserialize (v : Value) : Option TailscaleTunnel := do
  let fs ← struct_fields true fields v
  return {
    name := ← required fs "name" read_str
    ephemeral := ← defaulted fs "ephemeral" read_bool false
    tags := ← defaulted fs "tags" (read_vec read_str) []
    hostname := ← defaulted fs "hostname" (read_option read_str) none
    control_url := ← defaulted fs "control_url" (read_option read_str) none }

def ForwardTls.fields : List String := ["provider"]

def ForwardTls.serialize (t : ForwardTls) : Value := .object [("provider", t.provider.serialize)]

def ForwardTls.deserialize (v : Value) : Option ForwardTls := do
  let fs ← struct_fields true fields v
  return { provider := ← required fs "provider" ForwardCertificateProvider.deserialize }

def NetworkForward.fields : List String :=
  ["name", "kind", "target", "target_port", "listen", "tunnel", "protocol", "tls"]

/-- `skip_serializing_if = "String::is_empty"`. -/
def listen_member (listen : String) : Value.Members := if listen = "" then [] else [("listen", str listen)]

def NetworkForward.serialize (f : NetworkForward) : Value :=
  .object ([("name", str f.name)] ++ [("kind", str f.kind)] ++ [("target", str f.target)] ++
    [("target_port", u16 f.target_port)] ++ listen_member f.listen ++ optional "tunnel" str f.tunnel ++
    [("protocol", f.protocol.serialize)] ++ optional "tls" ForwardTls.serialize f.tls)

def NetworkForward.deserialize (v : Value) : Option NetworkForward := do
  let fs ← struct_fields true fields v
  return {
    name := ← required fs "name" read_str
    kind := ← required fs "kind" read_str
    target := ← required fs "target" read_str
    target_port := ← required fs "target_port" read_u16
    listen := ← defaulted fs "listen" read_str ""
    tunnel := ← defaulted fs "tunnel" (read_option read_str) none
    protocol := ← defaulted fs "protocol" ForwardProtocol.deserialize .tcp
    tls := ← defaulted fs "tls" (read_option ForwardTls.deserialize) none }

/-! ## Policies -/

def NetworkPolicy.fields : List String :=
  ["version", "metadata", "settings", "endpoints", "credentials", "rules", "tailscale", "forwards"]

def NetworkPolicy.serialize (p : NetworkPolicy) : Value :=
  .object ([("version", u32 p.version)] ++ [("metadata", .object p.metadata.members)] ++
    [("settings", p.settings.serialize)] ++ [("endpoints", vec NetworkEndpoint.serialize p.endpoints)] ++
    [("credentials", vec NetworkCredential.serialize p.credentials)] ++ [("rules", vec NetworkRule.serialize p.rules)] ++
    [("tailscale", vec TailscaleTunnel.serialize p.tailscale)] ++ [("forwards", vec NetworkForward.serialize p.forwards)])

def NetworkPolicy.deserialize (v : Value) : Option NetworkPolicy := do
  let fs ← struct_fields true fields v
  return {
    version := ← required fs "version" read_u32
    metadata := ← defaulted fs "metadata" read_map .empty
    settings := ← defaulted fs "settings" NetworkPolicySettings.deserialize {}
    endpoints := ← defaulted fs "endpoints" (read_vec NetworkEndpoint.deserialize) []
    credentials := ← defaulted fs "credentials" (read_vec NetworkCredential.deserialize) []
    rules := ← defaulted fs "rules" (read_vec NetworkRule.deserialize) []
    tailscale := ← defaulted fs "tailscale" (read_vec TailscaleTunnel.deserialize) []
    forwards := ← defaulted fs "forwards" (read_vec NetworkForward.deserialize) [] }

/-! ## Reading back -/

@[simp] theorem elim_optional_str (o : Option String) : o.elim (some none) (read_option read_str ∘ str) = some o :=
  elim_optional read_str_str (fun _ => nofun) o

@[simp] theorem NetworkAuditSettings.deserialize_serialize (a : NetworkAuditSettings) :
    deserialize a.serialize = some a := by
  rw [deserialize, serialize]
  refine (read ?_ (by decide) _).trans ?_
  · exact nil.one.one
  simp [defaulted, lookup_cons]

@[simp] theorem NetworkPolicySettings.deserialize_serialize (s : NetworkPolicySettings) :
    deserialize s.serialize = some s := by
  rw [deserialize, serialize]
  refine (read ?_ (by decide) _).trans ?_
  · exact nil.one.one
  simp [defaulted, lookup_cons]

@[simp] theorem NetworkEgress.deserialize_serialize (e : NetworkEgress) : deserialize e.serialize = some e := by
  rw [deserialize, serialize]
  refine (read ?_ (by decide) _).trans ?_
  · exact nil.one.one.one
  simp [required, defaulted, lookup_cons]

@[simp] theorem PortRange.deserialize_serialize (p : PortRange) : deserialize p.serialize = some p := by
  rw [deserialize, serialize]
  refine (read ?_ (by decide) _).trans ?_
  · exact nil.one.one
  simp [required, lookup_cons]

@[simp] theorem ForwardTls.deserialize_serialize (t : ForwardTls) : deserialize t.serialize = some t := by
  rw [deserialize, serialize]
  refine (read ?_ (by decide) _).trans ?_
  · exact nil.one
  simp [required]

@[simp] theorem TailscaleTunnel.deserialize_serialize (t : TailscaleTunnel) : deserialize t.serialize = some t := by
  rw [deserialize, serialize]
  refine (read ?_ (by decide) _).trans ?_
  · exact nil.one.one.one.optional.optional
  simp [required, defaulted_eq, List.lookup_append, lookup_cons, read_vec_vec read_str_str]

@[simp] theorem NetworkCredential.deserialize_serialize (c : NetworkCredential) : deserialize c.serialize = some c := by
  rw [deserialize, serialize]
  refine (read ?_ (by decide) _).trans ?_
  · exact nil.one.one.one.optional.optional.optional.one.optional
  simp [required, defaulted_eq, List.lookup_append, lookup_cons]

@[simp] theorem NetworkRule.deserialize_serialize (r : NetworkRule) : deserialize r.serialize = some r := by
  rw [deserialize, serialize]
  refine (read ?_ (by decide) _).trans ?_
  · exact nil.optional.one.optional.optional.optional.one.one.one.one
  simp [required, defaulted_eq, List.lookup_append, lookup_cons, read_vec_vec read_str_str]

theorem listen_member_eq (listen : String) :
    listen_member listen = ((if listen = "" then none else some (str listen)).map (Prod.mk "listen")).toList := by
  unfold listen_member
  split <;> rfl

theorem elim_listen (listen : String) :
    (if listen = "" then none else some (str listen)).elim (some "") read_str = some listen := by
  split
  · simp [*]
  · rfl

@[simp] theorem NetworkForward.deserialize_serialize (f : NetworkForward) : deserialize f.serialize = some f := by
  rw [deserialize, serialize, listen_member_eq]
  refine (read ?_ (by decide) _).trans ?_
  · exact nil.one.one.one.one.member.optional.one.optional
  simp [required, defaulted_eq, List.lookup_append, lookup_cons, lookup_member, elim_listen,
    elim_optional ForwardTls.deserialize_serialize fun _ => nofun]

theorem config_member_eq (config : Map) : config_member config =
    ((if config.is_empty then none else some (.object config.members)).map (Prod.mk "config")).toList := by
  unfold config_member
  split <;> rfl

theorem elim_config (config : Map) :
    (if config.is_empty then none else some (.object config.members)).elim (some .empty) read_map = some config := by
  cases hc : config.is_empty
  · exact read_map_members config
  · have : config = .empty := Map.ext' (List.isEmpty_iff.1 hc)
    rw [this]
    rfl

@[simp] theorem NetworkEndpoint.deserialize_serialize (e : NetworkEndpoint) : deserialize e.serialize = some e := by
  rw [deserialize, serialize, config_member_eq]
  refine (Writes.read ?_ (by decide) _).trans ?_
  · exact nil.one.one.one.one.one.member.unless_empty.unless_empty.one.one.one.one.one
  simp [required, defaulted_eq, List.lookup_append, lookup_cons, lookup_member, elim_config,
    read_vec_vec read_str_str, read_vec_vec PortRange.deserialize_serialize, elim_unless_empty read_str_str,
    elim_unless_empty NetworkEgress.deserialize_serialize]

/-- A policy is read back from its serialisation. -/
theorem NetworkPolicy.deserialize_serialize (p : NetworkPolicy) : deserialize p.serialize = some p := by
  rw [deserialize, serialize]
  refine (read ?_ (by decide) _).trans ?_
  · exact nil.one.one.one.one.one.one.one.one
  simp [required, defaulted, lookup_cons, read_vec_vec]

/-! ## Floats and depth

Only `metadata` and `config` hold free-form values; everything else a policy writes is plain. -/

theorem Action.plain (n : Nat) (a : Action) : Plain n a.serialize := by cases a <;> exact plain_str n _

theorem IpProtocol.plain (n : Nat) (a : IpProtocol) : Plain n a.serialize := by cases a <;> exact plain_str n _

theorem ForwardProtocol.plain (n : Nat) (a : ForwardProtocol) : Plain n a.serialize := by cases a <;> exact plain_str n _

theorem NetworkPolicySettings.plain (s : NetworkPolicySettings) : Plain 2 s.serialize := by
  have haudit : Plain 1 s.audit.serialize := plain_object (by simp [plain_u64])
  exact plain_object (by simp [Action.plain, haudit])

theorem NetworkEgress.plain (e : NetworkEgress) : Plain 1 e.serialize :=
  plain_object (by simp [plain_str, plain_u16, plain_bool])

theorem PortRange.plain (p : PortRange) : Plain 1 p.serialize := plain_object (by simp [plain_u16])

theorem NetworkCredential.plain (c : NetworkCredential) : Plain 1 c.serialize := by
  refine plain_object ?_
  simp only [forall_mem_append, forall_mem_singleton, plain_str, plain_bool, true_and, and_true]
  exact ⟨⟨⟨plain_optional (plain_str 0), plain_optional (plain_str 0)⟩, plain_optional (plain_str 0)⟩,
    plain_optional (plain_str 0)⟩

theorem NetworkRule.plain (r : NetworkRule) : Plain 2 r.serialize := by
  refine plain_object ?_
  simp only [forall_mem_append, forall_mem_singleton, plain_str, plain_bool, plain_i32, Action.plain,
    plain_vec (plain_str 0), and_true]
  exact ⟨⟨⟨plain_optional (plain_str 1), plain_optional (plain_str 1)⟩, plain_optional (plain_str 1)⟩,
    plain_optional (plain_str 1)⟩

theorem TailscaleTunnel.plain (t : TailscaleTunnel) : Plain 2 t.serialize := by
  refine plain_object ?_
  simp only [forall_mem_append, forall_mem_singleton, plain_str, plain_bool, plain_vec (plain_str 0), true_and]
  exact ⟨plain_optional (plain_str 1), plain_optional (plain_str 1)⟩

theorem NetworkForward.plain (f : NetworkForward) : Plain 2 f.serialize := by
  have htls : ∀ t : ForwardTls, Plain 1 t.serialize := fun t => plain_object (by
    rw [forall_mem_singleton]
    cases t.provider
    exact plain_str 0 _)
  have hlisten : ∀ m ∈ listen_member f.listen, Plain 1 m.2 := by
    unfold listen_member
    split
    · simp
    · simp [plain_str]
  refine plain_object ?_
  simp only [forall_mem_append, forall_mem_singleton, plain_str, plain_u16, ForwardProtocol.plain, true_and, and_true]
  exact ⟨⟨hlisten, plain_optional (plain_str 1)⟩, plain_optional htls⟩

/-! ### Free-form values -/

def NetworkEndpoint.mapFloats (f : ℚ → ℚ) (e : NetworkEndpoint) : NetworkEndpoint :=
  { e with config := e.config.mapFloats f }

def NetworkPolicy.mapFloats (f : ℚ → ℚ) (p : NetworkPolicy) : NetworkPolicy :=
  { p with metadata := p.metadata.mapFloats f, endpoints := p.endpoints.map (NetworkEndpoint.mapFloats f) }

variable (f : ℚ → ℚ)

theorem mapFloatsMembers_append (a b : Members) :
    mapFloatsMembers f (a ++ b) = mapFloatsMembers f a ++ mapFloatsMembers f b := by
  simp [mapFloatsMembers_eq_map]

theorem mapFloatsMembers_plain {n : Nat} {ms : Members} (h : ∀ m ∈ ms, Plain n m.2) :
    mapFloatsMembers f ms = ms := object.inj ((plain_object h).floats f)

theorem mapFloats_config_member (config : Map) :
    mapFloatsMembers f (config_member config) = config_member (config.mapFloats f) := by
  have he : (config.mapFloats f).is_empty = config.is_empty := by
    simp [Map.is_empty, Map.mapFloats, mapFloatsMembers_eq_map]
  unfold config_member
  rw [he]
  split <;> rfl

theorem NetworkEndpoint.serialize_mapFloats (e : NetworkEndpoint) :
    e.serialize.mapFloats f = (e.mapFloats f).serialize := by
  simp only [NetworkEndpoint.serialize, Value.mapFloats, mapFloatsMembers_append, mapFloats_config_member,
    mapFloatsMembers_plain f (plain_unless_empty NetworkEgress.plain), mapFloatsMembers_plain f (plain_unless_empty (plain_str 0)),
    Value.mapFloatsMembers, (plain_str 0 _).floats, (IpProtocol.plain 0 _).floats, (plain_vec (plain_str 0) _).floats,
    (plain_vec PortRange.plain _).floats]
  rfl

theorem NetworkPolicy.serialize_mapFloats (p : NetworkPolicy) :
    p.serialize.mapFloats f = (p.mapFloats f).serialize := by
  have hendpoints : (vec NetworkEndpoint.serialize p.endpoints).mapFloats f =
      vec NetworkEndpoint.serialize (p.endpoints.map (NetworkEndpoint.mapFloats f)) := by
    show Value.array _ = Value.array _
    congr 1
    induction p.endpoints with
    | nil => rfl
    | cons e es ih => simp [Value.mapFloatsItems, ih, NetworkEndpoint.serialize_mapFloats]
  simp only [NetworkPolicy.serialize, Value.mapFloats, mapFloatsMembers_append, Value.mapFloatsMembers, hendpoints,
    (plain_u32 0 _).floats, (NetworkPolicySettings.plain _).floats, (plain_vec NetworkCredential.plain _).floats,
    (plain_vec NetworkRule.plain _).floats, (plain_vec TailscaleTunnel.plain _).floats,
    (plain_vec NetworkForward.plain _).floats]
  rfl

/-- The free-form values leave room for the levels around them. -/
structure NetworkPolicy.Fits (p : NetworkPolicy) : Prop where
  metadata : (Value.object p.metadata.members).depth + 1 ≤ 127
  config : ∀ e ∈ p.endpoints, (Value.object e.config.members).depth + 3 ≤ 127

theorem NetworkEndpoint.depth_serialize {e : NetworkEndpoint} {n : Nat} (hn : 3 ≤ n)
    (h : (object e.config.members).depth + 1 ≤ n) : e.serialize.depth ≤ n := by
  obtain ⟨n, rfl⟩ : ∃ m, n = m + 1 := ⟨n - 1, by omega⟩
  have hconfig : ∀ m ∈ config_member e.config, m.2.depth ≤ n := by
    unfold config_member
    split
    · simp
    · simpa using h
  have hplain : ∀ {v : Value}, Plain 2 v → v.depth ≤ n := fun hv => hv.depth.trans (by omega)
  refine Nat.succ_le_succ (depthMembers_le.2 ?_)
  simp only [forall_mem_append, forall_mem_singleton, hplain (plain_str 2 _), hplain (IpProtocol.plain 2 _),
    hplain (plain_vec (plain_str 1) _), hplain (plain_vec PortRange.plain _), and_true, true_and]
  exact ⟨⟨hconfig, fun m hm => hplain (plain_unless_empty NetworkEgress.plain m hm)⟩,
    fun m hm => hplain (plain_unless_empty (plain_str 1) m hm)⟩

theorem NetworkPolicy.Fits.depth_serialize {p : NetworkPolicy} (h : p.Fits) : p.serialize.depth ≤ 127 := by
  have hendpoints : (vec NetworkEndpoint.serialize p.endpoints).depth ≤ 126 := by
    refine Nat.succ_le_succ (Value.depthItems_le.2 fun v hv => ?_)
    obtain ⟨e, he, rfl⟩ := List.mem_map.1 hv
    exact NetworkEndpoint.depth_serialize (by omega) (by have := h.config e he; omega)
  have hplain : ∀ {v : Value}, Plain 3 v → v.depth ≤ 126 := fun hv => hv.depth.trans (by omega)
  refine Nat.succ_le_succ (Value.depthMembers_le.2 ?_)
  simp only [forall_mem_append, forall_mem_singleton, hplain (plain_u32 3 _), hendpoints,
    hplain ((NetworkPolicySettings.plain _).mono (by omega)), hplain ((plain_vec NetworkCredential.plain _).mono (by omega)),
    hplain (plain_vec NetworkRule.plain _), hplain (plain_vec TailscaleTunnel.plain _),
    hplain (plain_vec NetworkForward.plain _), and_true, true_and]
  exact Nat.le_of_succ_le_succ h.metadata

theorem NetworkEndpoint.depth_of_deserialize {v : Value} {e : NetworkEndpoint} (h : deserialize v = some e) :
    (object e.config.members).depth ≤ 1 ∨ (object e.config.members).depth < v.depth := by
  obtain ⟨fs, hfs, h⟩ := bind_eq_some_iff.1 h
  -- There are five fields before `config` and seven after it.
  iterate 5 obtain ⟨_, -, h⟩ := bind_eq_some_iff.1 h
  obtain ⟨config, hconfig, h⟩ := bind_eq_some_iff.1 h
  iterate 7 obtain ⟨_, -, h⟩ := bind_eq_some_iff.1 h
  cases h
  exact depth_of_defaulted_map (depth_lt_of_struct_fields hfs) hconfig

/-- A policy read from a value within the recursion limit can be written within it. -/
theorem NetworkPolicy.fits_of_deserialize {v : Value} {p : NetworkPolicy} (hv : v.depth ≤ 127)
    (h : deserialize v = some p) : p.Fits := by
  simp only [NetworkPolicy.deserialize, bind_eq_bind, bind_eq_some_iff] at h
  obtain ⟨fs, hfs, _, _, metadata, hmetadata, _, _, endpoints, hendpoints, _, _, _, _, _, _, _, _, hp⟩ := h
  cases hp
  have hdepth := depth_lt_of_struct_fields hfs
  refine ⟨?_, fun e he => ?_⟩
  · have := depth_of_defaulted_map hdepth hmetadata
    show (object metadata.members).depth + 1 ≤ 127
    omega
  · obtain ⟨w, hw, hd⟩ := depth_of_defaulted_vec hdepth hendpoints e he
    have := NetworkEndpoint.depth_of_deserialize hw
    omega

end Silo.Policy
