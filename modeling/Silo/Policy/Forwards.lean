import Silo.Netd.Forward
import Silo.Policy.Document
import Silo.Policy.Validate
/-!
# Forwards on both sides

The validator and netd's `compileForwards` on forwards from one tailscale node to the machine
itself: forward by forward they check the same things and find the same listen port. They
differ on a tunnel that is present and empty, which netd takes for an absent one.
-/

namespace Silo.Policy

open Rust Lib List

/-! ## Listen addresses -/

theorem listen_digits_eq_some {listen : String} {digits : Str} :
    listen_digits listen = some digits ↔
      listen.toList = ':' :: digits ∧ digits ≠ [] ∧ digits.all is_ascii_digit := by
  unfold listen_digits strip_prefix_of starts_with
  cases h : listen.toList with
  | nil => simp
  | cons c cs =>
    by_cases hc : c = ':'
    · subst hc
      simp only [isPrefixOf, BEq.rfl, Bool.and_self, if_true, length_cons, length_nil, Nat.zero_add,
        drop_succ_cons, drop_zero, Option.filter_eq_some_iff, Option.some.injEq, List.cons.injEq, true_and,
        Bool.and_eq_true, decide_eq_true_eq]
    · have : (':' == c) = false := beq_false_of_ne (Ne.symm hc)
      simp [isPrefixOf, this, hc]

variable {listen : String} {port : UInt16}

theorem parse_u16_eq_some {digits : Str} (hne : digits ≠ []) (hd : digits.all is_ascii_digit) :
    parse_u16 digits = some port ↔ digits_value digits = port.toNat := by
  rw [parse_u16_of_digits hne hd]
  split
  · next hlt => rw [Option.some_inj, ← UInt16.toNat_inj, UInt16.toNat_ofNat_of_lt' hlt]
  · next hge =>
    have hne : digits_value digits ≠ port.toNat := fun h => hge (h ▸ port.toNat_lt)
    simp [hne]

theorem parseUint16_eq_some {digits : Str} :
    Go.parseUint16 digits = some port ↔
      (digits ≠ [] ∧ digits.all is_ascii_digit) ∧ digits_value digits = port.toNat := by
  by_cases h : digits ≠ [] ∧ digits.all is_ascii_digit
  · have hall : digits.all Go.isDigit := h.2
    have hdecimal : Go.parseDecimal digits = some (digits_value digits) := by
      simp [Go.parseDecimal, h.1, hall, digits_value]
    rw [and_iff_right h, ← parse_u16_eq_some h.1 h.2, parse_u16_of_digits h.1 h.2]
    simp only [Go.parseUint16, hdecimal, Nat.lt_succ_iff, Nat.reducePow]
  · have hnone : Go.parseDecimal digits = none := by
      refine if_pos (by_contra fun hok => ?_)
      have hall : digits.all Go.isDigit := by simp_all
      exact h ⟨by simp_all, hall⟩
    simp only [Go.parseUint16, hnone, h, reduceCtorEq, false_and]

/-- The validator reads the port off the digits. -/
theorem validate_listen_eq_ok :
    validate_listen listen = .ok (some port) ↔
      (∃ digits, listen.toList = ':' :: digits ∧ digits ≠ [] ∧ digits.all is_ascii_digit) ∧
        digits_value (listen.toList.drop 1) = port.toNat ∧ port ≠ 0 ∧ port ≠ 22 := by
  unfold validate_listen
  cases hd : listen_digits listen with
  | none =>
    simp only [reduceCtorEq, false_iff, not_and]
    rintro ⟨digits, h⟩
    exact absurd (listen_digits_eq_some.2 h) (by simp [hd])
  | some digits =>
    obtain ⟨hl, hne, hall⟩ := listen_digits_eq_some.1 hd
    have hform : ∃ digits, listen.toList = ':' :: digits ∧ digits ≠ [] ∧ digits.all is_ascii_digit := ⟨digits, hl, hne, hall⟩
    rw [and_iff_right hform, hl, drop_succ_cons, drop_zero, ← parse_u16_eq_some hne hall]
    simp only
    cases parse_u16 digits with
    | none => simp
    | some n =>
      by_cases hn : n = 0 ∨ n = 22
      · simp only [if_pos hn, reduceCtorEq, false_iff, Option.some.injEq]
        rintro ⟨rfl, h0, h22⟩
        exact hn.elim h0 h22
      · simp only [if_neg hn, Except.ok.injEq, Option.some.injEq]
        exact ⟨fun h => ⟨h, h ▸ not_or.1 hn⟩, fun h => h.1⟩

/-- netd reads the same port out of a listen address, except that it leaves port 22 to its caller. -/
theorem forwardListenPort_iff (listen : String) (port : UInt16) :
    (Netd.forwardListenPort listen = some port ∧ port ≠ 22) ↔ validate_listen listen = .ok (some port) := by
  rw [validate_listen_eq_ok, Netd.forwardListenPort]
  split
  · next digits hl =>
    simp only [hl, List.cons.injEq, true_and, exists_eq_left', drop_succ_cons, drop_zero]
    rw [← and_assoc, ← parseUint16_eq_some]
    cases Go.parseUint16 digits with
    | none => simp
    | some n =>
      by_cases h0 : n = 0
      · simp +contextual [h0, eq_comm]
      · simp only [if_neg h0, Option.some.injEq]
        exact ⟨fun h => ⟨h.1, h.1 ▸ h0, h.2⟩, fun h => ⟨h.1, h.2.2⟩⟩
  · next hl =>
    simp only [reduceCtorEq, false_and, false_iff, not_and]
    rintro ⟨digits, h, -⟩
    exact absurd h (hl digits)

theorem validate_listen_listen_address (h0 : port ≠ 0) (h22 : port ≠ 22) :
    validate_listen (listen_address port) = .ok (some port) := by
  have hall : (decimal port.toNat).all is_ascii_digit = true :=
    all_eq_true.2 fun c hc => is_ascii_digit_of_mem_decimal hc
  have hlist : (listen_address port).toList = ':' :: decimal port.toNat := by simp [listen_address]
  refine validate_listen_eq_ok.2 ⟨⟨_, hlist, decimal_ne_nil _, hall⟩, ?_, h0, h22⟩
  rw [hlist]
  exact digits_value_decimal _

/-! ## One forward -/

/-- A forward from a tailscale listener to the machine the policy is attached to. -/
def NetworkForward.ToSelf (forward : NetworkForward) : Prop := forward.kind = "tailscale" ∧ forward.target = "self"

instance (forward : NetworkForward) : Decidable forward.ToSelf := by unfold NetworkForward.ToSelf; infer_instance

def compiled_protocol : ForwardProtocol → Netd.ForwardProtocol
  | .tcp => .tcp
  | .https => .https

def NetworkForward.tls_matches (forward : NetworkForward) : Bool := forward.tls.isSome = (forward.protocol = .https)

variable {forward : NetworkForward}

theorem forwardProtocol_eq_ok {p : Netd.ForwardProtocol} :
    Netd.forwardProtocol (forward_document forward) = .ok p ↔
      forward.tls_matches ∧ p = compiled_protocol forward.protocol := by
  obtain ⟨name, kind, target, port, listen, tunnel, protocol, tls⟩ := forward
  cases protocol <;> cases tls <;>
    simp [Netd.forwardProtocol, forward_document, forward_protocol_document, NetworkForward.tls_matches,
      compiled_protocol, provider_document] <;>
    exact eq_comm

theorem NetworkForward.ToSelf.transport_eq_ok (h : forward.ToSelf) {port : Option UInt16} :
    forward.transport = .ok port ↔ forward.tls_matches ∧ validate_listen forward.listen = .ok port := by
  obtain ⟨name, kind, target, port', listen, tunnel, protocol, tls⟩ := forward
  obtain ⟨rfl, rfl⟩ : kind = "tailscale" ∧ target = "self" := h
  cases protocol <;> cases tls <;>
    simp [NetworkForward.transport, validate_forward_transport, NetworkForward.tls_matches]

theorem validate_listen_ne_none (listen : String) : validate_listen listen ≠ .ok none := by
  unfold validate_listen
  split
  · simp
  · split
    · simp
    · split <;> simp

theorem NetworkForward.ToSelf.normalize_eq (hself : forward.ToSelf) {port : UInt16}
    (h : forward.transport = .ok (some port)) : forward.normalize = { forward with listen := listen_address port } := by
  have hand : forward.kind = "tailscale" ∧ forward.target = "self" := hself
  simp [NetworkForward.normalize, hand, h]

/-- Normalising the listen address leaves the port as it is. -/
theorem NetworkForward.ToSelf.transport_normalize (hself : forward.ToSelf) :
    forward.normalize.transport = forward.transport := by
  cases htr : forward.transport with
  | error e => rw [show forward.normalize = forward by simp [NetworkForward.normalize, htr], htr]
  | ok o =>
    cases o with
    | none => rw [show forward.normalize = forward by simp [NetworkForward.normalize, htr], htr]
    | some port =>
      obtain ⟨htls, hlisten⟩ := hself.transport_eq_ok.1 htr
      obtain ⟨-, -, h0, h22⟩ := validate_listen_eq_ok.1 hlisten
      have hself' : ({ forward with listen := listen_address port } : NetworkForward).ToSelf := hself
      rw [hself.normalize_eq htr]
      exact hself'.transport_eq_ok.2 ⟨htls, validate_listen_listen_address h0 h22⟩

variable {forwards : List NetworkForward} {node : TailscaleTunnel} {names : List String} {listeners : List UInt16}

/-- The number after the colon of the listen address. -/
def NetworkForward.listen_value (forward : NetworkForward) : Nat := digits_value (forward.listen.toList.drop 1)

/-- A forward whose own fields are in order: an identifier for a name, no other tunnel than the node's, a port of the
guest, TLS exactly with HTTPS, and a colon and decimal digits of a port other than 22 to listen on. -/
structure NetworkForward.Sound (node : TailscaleTunnel) (forward : NetworkForward) : Prop where
  name : forward.name ≠ "" ∧ forward.name.toList.all is_identifier_char
  tunnel : forward.tunnel.getD "" = "" ∨ forward.tunnel = some node.name
  target_port : forward.target_port ≠ 0
  tls : forward.tls.isSome ↔ forward.protocol = .https
  listen : ∃ digits, forward.listen.toList = ':' :: digits ∧ digits ≠ [] ∧ digits.all is_ascii_digit
  port : forward.listen_value < 2 ^ 16 ∧ forward.listen_value ≠ 0 ∧ forward.listen_value ≠ 22

theorem NetworkForward.ToSelf.transport_iff (hself : forward.ToSelf) {port : UInt16} :
    forward.transport = .ok (some port) ↔ (forward.tls.isSome ↔ forward.protocol = .https) ∧
      (∃ digits, forward.listen.toList = ':' :: digits ∧ digits ≠ [] ∧ digits.all is_ascii_digit) ∧
      forward.listen_value = port.toNat ∧ port ≠ 0 ∧ port ≠ 22 := by
  rw [hself.transport_eq_ok, validate_listen_eq_ok, NetworkForward.tls_matches, decide_eq_true_iff]
  refine and_congr_left fun _ => ?_
  cases forward.tls <;> simp

theorem NetworkForward.ToSelf.sound_iff (hself : forward.ToSelf) :
    forward.Sound node ↔ valid_identifier forward.name ∧
      (forward.tunnel.getD "" = "" ∨ forward.tunnel = some node.name) ∧ forward.target_port ≠ 0 ∧
      ∃ port, forward.transport = .ok (some port) := by
  constructor
  · intro h
    have hnat : (UInt16.ofNat forward.listen_value).toNat = forward.listen_value := UInt16.toNat_ofNat_of_lt' h.port.1
    refine ⟨by simpa [valid_identifier] using h.name, h.tunnel, h.target_port, .ofNat forward.listen_value,
      hself.transport_iff.2 ⟨h.tls, h.listen, hnat.symm, ?_, ?_⟩⟩
    · exact fun e => h.port.2.1 (by rw [← hnat, e]; rfl)
    · exact fun e => h.port.2.2 (by rw [← hnat, e]; rfl)
  · rintro ⟨hname, htun, hguest, port, htransport⟩
    obtain ⟨htls, hlisten, hvalue, h0, h22⟩ := hself.transport_iff.1 htransport
    refine ⟨by simpa [valid_identifier] using hname, htun, hguest, htls, hlisten, ?_⟩
    rw [hvalue]
    exact ⟨port.toNat_lt, fun e => h0 (UInt16.toNat_inj.1 e), fun e => h22 (UInt16.toNat_inj.1 e)⟩

/-- The validator's checks of one forward, and the rest of the list after it. -/
theorem NetworkForward.ToSelf.noErrors_cons (hself : forward.ToSelf) :
    NoErrors (validate_forwards_after [node.name] names listeners (forward :: forwards)) ↔
      (forward.Sound node ∧ (forward.tunnel = some "" → node.name = "")) ∧ forward.name ∉ names ∧
      ∃ port, forward.transport = .ok (some port) ∧ port ∉ listeners ∧
        NoErrors (validate_forwards_after [node.name] (forward.name :: names) (port :: listeners) forwards) := by
  have hkind : NoErrors (validate_forward_kind [node.name] forward) ↔
      (forward.tunnel.getD "" = "" ∨ forward.tunnel = some node.name) ∧ (forward.tunnel = some "" → node.name = "") := by
    unfold validate_forward_kind
    cases ht : forward.tunnel with
    | none => simp [hself.1, hself.2]
    | some t =>
      by_cases he : t = ""
      · rw [eq_comm (a := node.name)]
        simp [hself.1, he]
      · simp [hself.1, he]
  have hname : NoErrors (validate_name "forward" forward.name) ↔ valid_identifier forward.name := by
    simp [validate_name]
  rw [validate_forwards_after, hself.sound_iff]
  simp only [noErrors_append, hname, hkind, noErrors_report_error, and_assoc]
  simp only [hself.1, hself.2, and_self, or_true, not_true, not_false_eq_true, true_and]
  unfold validate_forward_listener
  cases htr : forward.transport with
  | error detail => simp [error]
  | ok port =>
    cases port with
    | none => exact absurd (hself.transport_eq_ok.1 htr).2 (validate_listen_ne_none _)
    | some port =>
      simp
      tauto

def NetworkForward.listen_port (forward : NetworkForward) : Option UInt16 :=
  match forward.transport with
  | .ok port => port
  | .error _ => none

def compiled_forward (forward : NetworkForward) : Netd.Forward :=
  ⟨forward.name, forward.listen_port.getD 0, forward.target_port, compiled_protocol forward.protocol⟩

theorem isIdentifier_eq (c : Char) : Netd.isIdentifierChar c = is_identifier_char c := by
  unfold Netd.isIdentifierChar is_identifier_char is_ascii_alphanumeric is_ascii_digit is_ascii_lowercase is_ascii_uppercase
  cases 'a' ≤ c && c ≤ 'z' <;> cases 'A' ≤ c && c ≤ 'Z' <;> cases '0' ≤ c && c ≤ '9' <;> simp

/-- One forward compiles after the `earlier` ones exactly when it is sound and has a name and a port of its own. -/
theorem NetworkForward.ToSelf.compile_iff (hself : forward.ToSelf) {earlier : List Netd.Forward} {compiled : Netd.Forward} :
    Netd.compileForward (some (tailscale_document node)) earlier (forward_document forward) = .ok compiled ↔
      compiled = compiled_forward forward ∧ forward.Sound node ∧ (∀ e ∈ earlier, e.name ≠ forward.name) ∧
      ∃ port, forward.transport = .ok (some port) ∧ ∀ e ∈ earlier, e.listenPort ≠ port := by
  have ht : (forward.tunnel.getD "" = "" ∨ forward.tunnel.getD "" = node.name) ↔
      (forward.tunnel.getD "" = "" ∨ forward.tunnel = some node.name) := by
    cases forward.tunnel <;> simp
  have hid : valid_identifier forward.name = true ↔
      forward.name ≠ "" ∧ forward.name.toList.all Netd.isIdentifierChar = true := by
    rw [show Netd.isIdentifierChar = is_identifier_char from funext isIdentifier_eq]
    simp [valid_identifier]
  rw [Netd.compileForward_eq_ok, hself.sound_iff, hid, ← ht]
  constructor
  · rintro ⟨hne, hall, hnames, -, -, htun, protocol, hprotocol, port, hport, h22, hfresh, hguest, rfl⟩
    obtain ⟨htls, rfl⟩ := forwardProtocol_eq_ok.1 hprotocol
    have htransport : forward.transport = .ok (some port) :=
      hself.transport_eq_ok.2 ⟨htls, (forwardListenPort_iff _ _).1 ⟨hport, h22⟩⟩
    refine ⟨?_, ⟨⟨hne, hall⟩, htun, hguest, port, htransport⟩, hnames, port, htransport, hfresh⟩
    simp [compiled_forward, NetworkForward.listen_port, htransport, forward_document]
  · rintro ⟨rfl, ⟨⟨hne, hall⟩, htun, hguest, -⟩, hnames, port, htransport, hfresh⟩
    obtain ⟨htls, hlisten⟩ := hself.transport_eq_ok.1 htransport
    obtain ⟨hport, h22⟩ := (forwardListenPort_iff _ _).2 hlisten
    refine ⟨hne, hall, hnames, hself.1, hself.2, htun, _, forwardProtocol_eq_ok.2 ⟨htls, rfl⟩, port, hport, h22, hfresh,
      hguest, ?_⟩
    simp [compiled_forward, NetworkForward.listen_port, htransport, forward_document]

/-! ## Lists of forwards -/

/-- Sound forwards, of different names and on different ports. -/
structure SoundForwards (node : TailscaleTunnel) (forwards : List NetworkForward) : Prop where
  each : ∀ f ∈ forwards, f.Sound node
  names : (forwards.map (·.name)).Nodup
  ports : (forwards.map (·.listen_value)).Nodup

/-- Both sides go through the list with the names and ports they have seen. -/
def SoundAfter (node : TailscaleTunnel) : List String → List UInt16 → List NetworkForward → Prop
  | _, _, [] => True
  | names, listeners, f :: fs => f.Sound node ∧ f.name ∉ names ∧ ∃ port, f.transport = .ok (some port) ∧ port ∉ listeners ∧
      SoundAfter node (f.name :: names) (port :: listeners) fs

theorem noErrors_iff : ∀ (forwards : List NetworkForward) (names : List String) (listeners : List UInt16),
    (∀ f ∈ forwards, f.ToSelf) →
    (NoErrors (validate_forwards_after [node.name] names listeners forwards) ↔
      SoundAfter node names listeners forwards ∧ ∀ f ∈ forwards, f.tunnel = some "" → node.name = "") := by
  intro forwards
  induction forwards with
  | nil => simp [SoundAfter, validate_forwards_after]
  | cons f fs ih =>
    intro names listeners h
    rw [(h f mem_cons_self).noErrors_cons, SoundAfter]
    simp only [ih _ _ (forall_mem_cons.1 h).2, forall_mem_cons]
    tauto

theorem foldlM_compile_iff (node : TailscaleTunnel) : ∀ (forwards : List NetworkForward) (earlier compiled : List Netd.Forward),
    (∀ f ∈ forwards, f.ToSelf) →
    ((forwards.map forward_document).foldlM (fun earlier decl => do
        return earlier ++ [← Netd.compileForward (some (tailscale_document node)) earlier decl]) earlier = .ok compiled ↔
      SoundAfter node (earlier.map (·.name)).reverse (earlier.map (·.listenPort)).reverse forwards ∧
        compiled = earlier ++ forwards.map compiled_forward) := by
  intro forwards
  induction forwards with
  | nil =>
    intro earlier compiled _
    simp only [map_nil, foldlM_nil, pure_eq_ok, SoundAfter, true_and, append_nil]
    exact eq_comm
  | cons f fs ih =>
    intro earlier compiled h
    have hseen : ∀ port, f.transport = .ok (some port) →
        ((earlier ++ [compiled_forward f]).map (·.name)).reverse = f.name :: (earlier.map (·.name)).reverse ∧
        ((earlier ++ [compiled_forward f]).map (·.listenPort)).reverse = port :: (earlier.map (·.listenPort)).reverse := by
      intro port htransport
      simp [compiled_forward, NetworkForward.listen_port, htransport]
    rw [map_cons, foldlM_cons, SoundAfter]
    simp only [bind_eq_ok, pure_eq_ok, (h f mem_cons_self).compile_iff]
    constructor
    · rintro ⟨_, ⟨_, ⟨rfl, hsound, hnames, port, htransport, hfresh⟩, rfl⟩, hrest⟩
      obtain ⟨hok, rfl⟩ := (ih _ _ (forall_mem_cons.1 h).2).1 hrest
      rw [(hseen port htransport).1, (hseen port htransport).2] at hok
      exact ⟨⟨hsound, by simpa using hnames, port, htransport, by simpa using hfresh, hok⟩, by simp⟩
    · rintro ⟨⟨hsound, hnames, port, htransport, hfresh, hok⟩, rfl⟩
      refine ⟨_, ⟨_, ⟨rfl, hsound, by simpa using hnames, port, htransport, by simpa using hfresh⟩, rfl⟩,
        (ih _ _ (forall_mem_cons.1 h).2).2 ⟨?_, by simp⟩⟩
      rwa [(hseen port htransport).1, (hseen port htransport).2]

theorem soundForwards_cons : SoundForwards node (forward :: forwards) ↔ forward.Sound node ∧ SoundForwards node forwards ∧
    ∀ g ∈ forwards, g.name ≠ forward.name ∧ forward.listen_value ≠ g.listen_value := by
  constructor
  · rintro ⟨hs, hn, hp⟩
    obtain ⟨hname, hn⟩ := nodup_cons.1 hn
    obtain ⟨hport, hp⟩ := nodup_cons.1 hp
    exact ⟨hs _ mem_cons_self, ⟨(forall_mem_cons.1 hs).2, hn, hp⟩, fun g hg =>
      ⟨fun h => hname (mem_map.2 ⟨g, hg, h⟩), fun h => hport (mem_map.2 ⟨g, hg, h.symm⟩)⟩⟩
  · rintro ⟨hsound, ⟨hs, hn, hp⟩, hfresh⟩
    refine ⟨forall_mem_cons.2 ⟨hsound, hs⟩, nodup_cons.2 ⟨?_, hn⟩, nodup_cons.2 ⟨?_, hp⟩⟩
    · simpa using fun g hg => (hfresh g hg).1
    · simpa [eq_comm] using fun g hg => (hfresh g hg).2

/-- After the `names` and `listeners` of the earlier forwards: sound forwards of other names and ports. -/
theorem soundAfter_iff (forwards : List NetworkForward) : ∀ (names : List String) (listeners : List UInt16),
    (∀ f ∈ forwards, f.ToSelf) →
    (SoundAfter node names listeners forwards ↔ SoundForwards node forwards ∧
      ∀ f ∈ forwards, f.name ∉ names ∧ ∀ port ∈ listeners, port.toNat ≠ f.listen_value) := by
  induction forwards with
  | nil =>
    intro names listeners _
    simp only [SoundAfter, not_mem_nil, false_imp_iff, implies_true, and_true, true_iff]
    exact ⟨by simp, by simp, by simp⟩
  | cons f fs ih =>
    intro names listeners h
    obtain ⟨hself, htail⟩ := forall_mem_cons.1 h
    rw [SoundAfter, soundForwards_cons, forall_mem_cons]
    constructor
    · rintro ⟨hsound, hnew, port, htransport, hfree, hok⟩
      obtain ⟨hfs, hfresh⟩ := (ih _ _ htail).1 hok
      have hport := (hself.transport_iff.1 htransport).2.2.1
      simp only [mem_cons, not_or, forall_eq_or_imp, ← hport] at hfresh
      exact ⟨⟨hsound, hfs, fun g hg => ⟨(hfresh g hg).1.1, (hfresh g hg).2.1⟩⟩,
        ⟨hnew, fun p hp heq => hfree (UInt16.toNat_inj.1 (heq.trans hport) ▸ hp)⟩,
        fun g hg => ⟨(hfresh g hg).1.2, (hfresh g hg).2.2⟩⟩
    · rintro ⟨⟨hsound, hfs, hother⟩, ⟨hnew, hfree⟩, hfresh⟩
      obtain ⟨-, -, -, port, htransport⟩ := hself.sound_iff.1 hsound
      have hport := (hself.transport_iff.1 htransport).2.2.1
      refine ⟨hsound, hnew, port, htransport, fun hp => hfree port hp hport.symm, (ih _ _ htail).2 ⟨hfs, ?_⟩⟩
      simp only [mem_cons, not_or, forall_eq_or_imp, ← hport]
      exact fun g hg => ⟨⟨(hother g hg).1, (hfresh g hg).1⟩, (hother g hg).2, (hfresh g hg).2⟩

/-! ## Agreement -/

/-- The forwards as both sides get them. -/
def normalized (forwards : List NetworkForward) : List NetworkForward := forwards.map NetworkForward.normalize

/-- What the validator says about forwards next to one tailscale node. -/
def Validates (node : TailscaleTunnel) (forwards : List NetworkForward) : Prop :=
  NoErrors (validate_forwards (normalized forwards) (validate_tunnels [node]).2)

instance (node : TailscaleTunnel) (forwards : List NetworkForward) : Decidable (Validates node forwards) := by
  unfold Validates; infer_instance

def compiles (node : TailscaleTunnel) (forwards : List NetworkForward) : Except Netd.ForwardError (List Netd.Forward) :=
  Netd.compileForwards (some (tailscale_document node)) ((normalized forwards).map forward_document)

/-- Both sides accept the list or both refuse it, and the listen ports are the same. -/
structure ForwardsAgree (node : TailscaleTunnel) (forwards : List NetworkForward) : Prop where
  accepted : Validates node forwards ↔ ∃ compiled, compiles node forwards = .ok compiled
  ports : ∀ compiled, compiles node forwards = .ok compiled →
    compiled.map (fun g => (g.name, some g.listenPort)) = (normalized forwards).map (fun f => (f.name, f.listen_port))

theorem NetworkForward.ToSelf.normalize (h : forward.ToSelf) : forward.normalize.ToSelf := by
  unfold NetworkForward.normalize
  split
  · split <;> exact h
  · exact h

theorem exists_normalize_eq (forward : NetworkForward) :
    ∃ listen, forward.normalize = { forward with listen } := by
  unfold NetworkForward.normalize
  split
  · split <;> exact ⟨_, rfl⟩
  · exact ⟨_, rfl⟩

theorem normalized_toSelf (hself : ∀ f ∈ forwards, f.ToSelf) :
    ∀ f ∈ normalized forwards, f.ToSelf := by
  intro f hf
  obtain ⟨g, hg, rfl⟩ := mem_map.1 hf
  exact (hself g hg).normalize

theorem NetworkForward.ToSelf.sound_normalize (hself : forward.ToSelf) :
    forward.normalize.Sound node ↔ forward.Sound node := by
  rw [hself.sound_iff, hself.normalize.sound_iff, hself.transport_normalize]
  obtain ⟨listen, h⟩ := exists_normalize_eq forward
  rw [h]

theorem NetworkForward.ToSelf.listen_value_normalize (hself : forward.ToSelf) (h : forward.Sound node) :
    forward.normalize.listen_value = forward.listen_value := by
  obtain ⟨-, -, -, port, htransport⟩ := hself.sound_iff.1 h
  rw [(hself.transport_iff.1 htransport).2.2.1,
    (hself.normalize.transport_iff.1 (hself.transport_normalize.trans htransport)).2.2.1]

/-- Normalising the listen addresses repairs no declaration and spoils none. -/
theorem soundForwards_normalized (hself : ∀ f ∈ forwards, f.ToSelf) :
    SoundForwards node (normalized forwards) ↔ SoundForwards node forwards := by
  have heach : (∀ f ∈ normalized forwards, f.Sound node) ↔ ∀ f ∈ forwards, f.Sound node := by
    rw [normalized, forall_mem_map]
    exact forall₂_congr fun f hf => (hself f hf).sound_normalize
  have hnames : (normalized forwards).map (·.name) = forwards.map (·.name) := by
    rw [normalized, map_map]
    refine map_congr_left fun f _ => ?_
    obtain ⟨listen, h⟩ := exists_normalize_eq f
    rw [Function.comp_apply, h]
  have hports : (∀ f ∈ forwards, f.Sound node) →
      (normalized forwards).map (·.listen_value) = forwards.map (·.listen_value) := by
    intro h
    rw [normalized, map_map]
    exact map_congr_left fun f hf => (hself f hf).listen_value_normalize (h f hf)
  constructor
  · rintro ⟨hs, hn, hp⟩
    exact ⟨heach.1 hs, hnames ▸ hn, hports (heach.1 hs) ▸ hp⟩
  · rintro ⟨hs, hn, hp⟩
    exact ⟨heach.2 hs, hnames.symm ▸ hn, (hports hs).symm ▸ hp⟩

theorem soundAfter_nil_iff (hself : ∀ f ∈ forwards, f.ToSelf) :
    SoundAfter node [] [] (normalized forwards) ↔ SoundForwards node forwards := by
  rw [soundAfter_iff _ _ _ (normalized_toSelf hself), soundForwards_normalized hself]
  simp

theorem validates_iff (hself : ∀ f ∈ forwards, f.ToSelf) :
    Validates node forwards ↔ SoundForwards node forwards ∧ ∀ f ∈ forwards, f.tunnel = some "" → node.name = "" := by
  refine (noErrors_iff _ [] [] (normalized_toSelf hself)).trans ?_
  rw [soundAfter_nil_iff hself, normalized, forall_mem_map]
  refine and_congr_right fun _ => forall₂_congr fun f _ => ?_
  obtain ⟨listen, h⟩ := exists_normalize_eq f
  rw [h]

theorem compiles_iff (hself : ∀ f ∈ forwards, f.ToSelf) {compiled : List Netd.Forward} :
    compiles node forwards = .ok compiled ↔
      SoundForwards node forwards ∧ compiled = (normalized forwards).map compiled_forward := by
  rw [← soundAfter_nil_iff hself]
  exact foldlM_compile_iff node _ [] compiled (normalized_toSelf hself)

/-- On forwards from one node to the machine itself the validator and netd agree, unless the declarations are sound but
for an empty tunnel name. -/
theorem forwards_agree_iff (node : TailscaleTunnel) (forwards : List NetworkForward) (hself : ∀ f ∈ forwards, f.ToSelf) :
    ForwardsAgree node forwards ↔
      (∀ f ∈ forwards, f.tunnel = some "" → node.name = "") ∨ ¬ SoundForwards node forwards := by
  have hports : ∀ compiled, compiles node forwards = .ok compiled →
      compiled.map (fun g => (g.name, some g.listenPort)) =
        (normalized forwards).map (fun f => (f.name, f.listen_port)) := by
    intro compiled h
    obtain ⟨hsound, rfl⟩ := (compiles_iff hself).1 h
    rw [map_map]
    refine map_congr_left fun f hf => ?_
    obtain ⟨-, -, -, port, htransport⟩ :=
      (normalized_toSelf hself f hf).sound_iff.1 (((soundForwards_normalized hself).2 hsound).each f hf)
    simp [compiled_forward, NetworkForward.listen_port, htransport]
  have haccepted : (∃ compiled, compiles node forwards = .ok compiled) ↔ SoundForwards node forwards := by
    simp [compiles_iff hself]
  constructor
  · intro h
    have hiff := (validates_iff hself).symm.trans (h.accepted.trans haccepted)
    tauto
  · intro h
    refine ⟨(validates_iff hself).trans (Iff.trans ?_ haccepted.symm), hports⟩
    tauto

/-- The condition is met by ordinary forwards, and then the ports are those written down. -/
theorem forwards_agree_two :
    ForwardsAgree { name := "node" }
      [{ name := "web", kind := "tailscale", target := "self", target_port := 8080, listen := ":0080" },
       { name := "api", kind := "tailscale", target := "self", target_port := 9000, listen := ":443", tunnel := some "node",
         protocol := .https, tls := some ⟨.tailscale⟩ }] :=
  (forwards_agree_iff _ _ (by decide)).2 (.inl (by decide))

/-- With an empty tunnel name the validator refuses what netd compiles. -/
theorem empty_tunnel_disagrees :
    ¬ ForwardsAgree { name := "node" }
      [{ name := "web", kind := "tailscale", target := "self", target_port := 80, listen := ":80", tunnel := some "" }] := by
  intro h
  have hno : ¬ Validates { name := "node" }
      [{ name := "web", kind := "tailscale", target := "self", target_port := 80, listen := ":80", tunnel := some "" }] := by
    decide
  exact hno (h.accepted.2 (exists_ok_of_isOk (by decide)))

end Silo.Policy
