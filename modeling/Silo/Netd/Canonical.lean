import Silo.Go.HostText
import Silo.Netd.Hostmatch
/-!
# Canonical hosts

`ParseAuthority` returns a host in one of three shapes: an IPv4 address, an IPv6
address with or without a zone, or a lower-case name. `FormatAuthority` spells it out
again. The spelling is read back as the same host unless the host has a percent sign,
which the second reading decodes, or still ends in a dot, of which it drops one.
-/

namespace Silo.Netd

open Go Lib List

/-! ## Accepted authorities -/

/-- The checks that a trimmed input passes on its way to the authority `a`. -/
structure Accepted (raw : Str) (defaultPort : UInt16) (parsed : Url) (a : Authority) : Prop where
  nonempty : raw ≠ []
  ascii : isASCII raw
  scheme : contains raw "://".toList = false
  url : urlParse ("http://".toList ++ raw) = some parsed
  user : parsed.user = false
  bare : parsed.path = [] ∧ parsed.rawQuery = [] ∧ parsed.fragment = []
  present : parsed.host ≠ []
  header : validHostHeader parsed.host
  bracketed : hasPrefix raw ['['] ∨ parsed.host.count ':' ≤ 1
  port : authorityPort parsed.port defaultPort = .ok a.port
  portSyntax : parsed.port ≠ [] ∨ hasExplicitPortSyntax parsed.host = false
  hostname : trimSuffix (toLower parsed.hostname) ['.'] ≠ []
  host : canonicalHost (String.ofList raw) (hasPrefix raw ['[']) (trimSuffix (toLower parsed.hostname) ['.']) =
    .ok a.host

variable {a : Authority} {input : String} {port defaultPort : UInt16} {host : Str}

theorem parseAuthority_eq_ok :
    parseAuthority input defaultPort = .ok a ↔ ∃ parsed, Accepted (trimSpace input.toList) defaultPort parsed a := by
  simp only [parseAuthority, bind_eq_ok, pure_eq_ok, require_eq_ok, orFail_eq_ok]
  constructor
  · rintro ⟨-, h1, -, h2, -, h3, parsed, h4, -, h5, -, h6, -, h7, -, h8, -, h9, port, h10, -, h11, -, h12, host, h13, rfl⟩
    exact ⟨parsed, h1, h2, h3, h4, h5, h6, h7, h8, h9, h10, h11, h12, h13⟩
  · rintro ⟨parsed, h1, h2, h3, h4, h5, h6, h7, h8, h9, h10, h11, h12, h13⟩
    exact ⟨(), h1, (), h2, (), h3, parsed, h4, (), h5, (), h6, (), h7, (), h8, (), h9, a.port, h10, (), h11, (), h12,
      a.host, h13, rfl⟩

variable {s : Str}

/-- How the host is printed, by the family of the address it is. -/
theorem canonicalHost_eq_ok {shown host : String} {bracketed : Bool} (h : canonicalHost shown bracketed s = .ok host) :
    (bracketed ∧ ∃ b zone, parseAddr s = some (.v6 b zone) ∧ host.toList = (Addr.v6 b zone).string) ∨
      (bracketed = false ∧ ∃ b, parseAddr s = some (.v4 b) ∧ host.toList = string4 b) ∨
      (bracketed = false ∧ parseAddr s = none ∧ host.toList = s) := by
  unfold canonicalHost at h
  split at h
  · rename_i addr haddr
    cases addr with
    | v4 b =>
      rw [if_neg (by simp [Addr.is6])] at h
      split at h
      · cases h
      · rename_i hb
        cases h
        exact .inr (.inl ⟨by simpa using hb, b, haddr, by simp [Addr.string]⟩)
    | v6 b zone =>
      rw [if_pos (by simp [Addr.is6])] at h
      split at h
      · rename_i hb
        cases h
        exact .inl ⟨hb, b, zone, haddr, by simp⟩
      · cases h
  · rename_i haddr
    split at h
    · cases h
    · rename_i hb
      cases h
      exact .inr (.inr ⟨by simpa using hb, haddr, by simp⟩)

/-! ## Ports -/

theorem parsePort_ne_zero {value : Str} (h : parsePort value = .ok port) : port ≠ 0 := by
  unfold parsePort at h
  split at h
  · split at h
    · cases h
    · rename_i n _ hrange
      cases h
      simp only [Bool.or_eq_true, decide_eq_true_eq, not_or] at hrange
      intro hzero
      have hn := congrArg UInt16.toNat hzero
      rw [UInt16.toNat_ofNat_of_lt' (by simp [UInt16.size]; omega)] at hn
      exact hrange.1 (by rw [hn]; decide)
  · cases h

theorem parseAuthority_port (h : parseAuthority input defaultPort = .ok a) : a.port ≠ 0 ∨ a.port = defaultPort := by
  obtain ⟨parsed, hacc⟩ := parseAuthority_eq_ok.1 h
  have hport := hacc.port
  unfold authorityPort at hport
  split at hport
  · cases hport
    exact .inr rfl
  · exact .inl (parsePort_ne_zero hport)

/-- The default port only fills in for one that is not written. -/
theorem parseAuthority_defaultPort (h : parseAuthority input defaultPort = .ok a) (other : UInt16) :
    ∃ port, parseAuthority input other = .ok ⟨a.host, port⟩ := by
  obtain ⟨parsed, hacc⟩ := parseAuthority_eq_ok.1 h
  obtain ⟨port, hport⟩ : ∃ port, authorityPort parsed.port other = .ok port := by
    have hp := hacc.port
    unfold authorityPort at hp ⊢
    split at hp
    · rename_i hempty
      exact ⟨other, if_pos hempty⟩
    · rename_i hempty
      exact ⟨a.port, by rw [if_neg hempty, hp]⟩
  exact ⟨port, parseAuthority_eq_ok.2 ⟨parsed, hacc.nonempty, hacc.ascii, hacc.scheme, hacc.url, hacc.user, hacc.bare,
    hacc.present, hacc.header, hacc.bracketed, hport, hacc.portSyntax, hacc.hostname, hacc.host⟩⟩

/-! ## The shape of a host -/

/-- A name: host characters in lower case, without a colon and without brackets at its start. -/
structure IsName (host : Str) : Prop where
  nonempty : host ≠ []
  chars : ∀ c ∈ host, isHostChar c
  lower : toLower host = host
  colon : ':' ∉ host
  bracket : '[' ∉ host
  noAddr : parseAddr host = none

/-- A host that `ParseAuthority` returns. -/
inductive CanonicalHost : Str → Prop
  | v4 (b : BitVec 32) : CanonicalHost (string4 b)
  | v6 (b : BitVec 128) (zone : Str) (chars : ∀ c ∈ zone, isHostChar c = true) : CanonicalHost (Addr.v6 b zone).string
  | name {host : Str} (h : IsName host) : CanonicalHost host

variable {c : Char}

theorem isHostChar_toLower (h : isHostChar c) :
    isHostChar (toLowerRune c) ∧ toLowerRune (toLowerRune c) = toLowerRune c ∧
      ∀ d, isAlnum d = false → toLowerRune c = d → c = d := by
  have hc := ascii_forall
    (P := fun c => !isHostChar c || (isHostChar (toLowerRune c) && toLowerRune (toLowerRune c) == toLowerRune c &&
      (isAlnum (toLowerRune c) || c == toLowerRune c)))
    (by decide +kernel) (isHostChar_ascii h)
  simp only [h, Bool.not_true, Bool.false_or, Bool.and_eq_true, beq_iff_eq, Bool.or_eq_true] at hc
  obtain ⟨⟨h1, h2⟩, h3⟩ := hc
  refine ⟨h1, h2, ?_⟩
  rintro _ hd rfl
  exact h3.resolve_left (by simp [hd])

theorem isPrefix_trimSuffix (s p : Str) : trimSuffix s p <+: s := by
  unfold trimSuffix
  split
  · exact take_prefix _ _
  · exact prefix_rfl

/-- What lower-casing and trimming keep of a host header's text. -/
theorem mem_trimmed (hs : ∀ c ∈ s, isHostChar c) {c : Char}
    (h : c ∈ trimSuffix (toLower s) ['.']) : ∃ d ∈ s, isHostChar d ∧ c = toLowerRune d := by
  obtain ⟨d, hd, rfl⟩ := mem_map.1 ((isPrefix_trimSuffix _ _).subset h)
  exact ⟨d, hd, hs d hd, rfl⟩

theorem mem_of_mem_trimmed (hs : ∀ c ∈ s, isHostChar c) (hc : isAlnum c = false)
    (h : c ∈ trimSuffix (toLower s) ['.']) : c ∈ s := by
  obtain ⟨d, hmem, hd, heq⟩ := mem_trimmed hs h
  exact (isHostChar_toLower hd).2.2 _ hc heq.symm ▸ hmem

theorem toLower_eq_self (h : ∀ c ∈ s, toLowerRune c = c) : toLower s = s := by
  rw [toLower, map_congr_left h, map_id']

theorem validHostHeader_iff : validHostHeader s ↔ ∀ c ∈ s, isHostChar c := all_eq_true

theorem splitHostPort_chars (h : c ∈ (splitHostPort s).1) : c ∈ s := by
  have hfirst : ∀ x : Str × Str, (∀ c ∈ x.1, c ∈ s) →
      c ∈ (if hasPrefix x.1 ['['] && hasSuffix x.1 [']'] then ((x.1.drop 1).dropLast, x.2) else x).1 → c ∈ s := by
    intro x hx hc
    split at hc
    · exact hx c (mem_of_mem_drop ((List.dropLast_prefix _).subset hc))
    · exact hx c hc
  refine hfirst _ ?_ h
  intro c hc
  split at hc
  · rename_i p t hcut
    have hp : p <+: s := by
      unfold cutLast at hcut
      split at hcut
      · cases hcut
        exact take_prefix _ _
      · cases hcut
    split at hc
    · exact hp.subset hc
    · exact hc
  · exact hc

variable {raw : Str} {parsed : Url}

section

variable (h : Accepted raw defaultPort parsed a)

include h

theorem Accepted.chars : ∀ c ∈ parsed.hostname, isHostChar c := fun c hc =>
  validHostHeader_iff.1 h.header c (splitHostPort_chars hc)

/-- The host is decoded from text at the start of the input. -/
theorem Accepted.authority : ∃ authority, authority <+: raw ∧ parseHost authority = some parsed.host := by
  obtain ⟨authority, hfront, hpart⟩ := urlParse_http_eq_some h.url
  refine ⟨authority, hfront, ?_⟩
  rw [h.user] at hpart
  unfold parseAuthorityPart at hpart
  split at hpart
  · obtain ⟨host, hhost, heq⟩ := Option.map_eq_some_iff.1 hpart
    rw [hhost, (Prod.mk.inj heq).2]
  · split at hpart
    · cases hpart
    · split at hpart
      · exact absurd (Prod.mk.inj (Option.some.inj hpart)).1 (by decide)
      · cases hpart

theorem Accepted.plain (hb : hasPrefix raw ['['] = false) :
    ∃ authority, authority <+: raw ∧ '[' ∉ authority ∧ Unescaped .host authority parsed.host := by
  obtain ⟨authority, hfront, hparse⟩ := h.authority
  have hopen : '[' ∉ authority := by
    intro hmem
    obtain ⟨rest, rfl⟩ := hfront
    cases authority with
    | nil => cases hmem
    | cons c authority =>
      cases parseHost_bracket_head hparse hmem
      cases hb
  exact ⟨authority, hfront, hopen, parseHost_plain hparse hopen⟩

/-- An input that does not begin with a bracket has none in its host, and no colon before the port. -/
theorem Accepted.unbracketed (hb : hasPrefix raw ['['] = false) :
    '[' ∉ parsed.hostname ∧ ':' ∉ parsed.hostname := by
  obtain ⟨authority, -, hopen, hun⟩ := h.plain hb
  have hhost : '[' ∉ parsed.host := fun hmem =>
    hopen (hun.mem_host hmem (by decide) (by decide))
  refine ⟨fun hmem => hhost (splitHostPort_chars hmem), ?_⟩
  by_cases hcolon : ':' ∈ parsed.host
  · obtain ⟨p, t, hsplit, ht⟩ := exists_last hcolon
    have hcount : parsed.host.count ':' = p.count ':' + 1 := by
      rw [hsplit, count_append, count_cons_self, count_eq_zero_of_not_mem ht]
    have hle : parsed.host.count ':' ≤ 1 := h.bracketed.resolve_left (by simp [hb])
    by_cases hdigits : t.all isDigit
    · have hp : '[' ∉ p := fun hmem => hhost (hsplit ▸ mem_append_left _ hmem)
      rw [Url.hostname, hsplit, splitHostPort_name_port hp hdigits]
      exact count_eq_zero.1 (show p.count ':' = 0 by omega)
    · -- The text after the colon is no port, so the port is empty and the colon is refused.
      exfalso
      have hport : parsed.port = [] := by
        rw [Url.port, hsplit]
        simp only [splitHostPort, cutLast_append p ht, hdigits, Bool.false_eq_true, if_false]
        rw [← hsplit, hasPrefix_open hhost]
        rfl
      have hgrammar := h.portSyntax.resolve_left (by simp [hport])
      rw [hasExplicitPortSyntax, hasPrefix_open hhost, if_neg Bool.false_ne_true, hcount] at hgrammar
      simp only [beq_eq_false_iff_ne, ne_eq] at hgrammar
      omega
  · rw [Url.hostname, splitHostPort_name hcolon hhost]
    exact hcolon

end

theorem zoneOf_subset (h : c ∈ zoneOf s) : c ∈ s := by
  induction s with
  | nil => cases h
  | cons d s ih =>
    by_cases hd : d = '%'
    · subst hd
      rw [zoneOf_percent] at h
      exact mem_cons_of_mem _ h
    · rw [zoneOf_cons hd] at h
      exact mem_cons_of_mem _ (ih h)

theorem Accepted.canonical (h : Accepted raw defaultPort parsed a) : CanonicalHost a.host.toList := by
  have htrimmed : ∀ c ∈ trimSuffix (toLower parsed.hostname) ['.'], isHostChar c ∧ toLowerRune c = c := by
    intro c hc
    obtain ⟨d, -, hd, rfl⟩ := mem_trimmed h.chars hc
    exact ⟨(isHostChar_toLower hd).1, (isHostChar_toLower hd).2.1⟩
  rcases canonicalHost_eq_ok h.host with ⟨-, b, zone, haddr, hhost⟩ | ⟨-, b, -, hhost⟩ | ⟨hb, haddr, hhost⟩
  · rw [hhost]
    refine .v6 b zone fun c hc => ?_
    rw [parseAddr_zone haddr] at hc
    exact (htrimmed c (zoneOf_subset hc)).1
  · rw [hhost]
    exact .v4 b
  · rw [hhost]
    obtain ⟨hopen, hcolon⟩ := h.unbracketed hb
    exact .name ⟨h.hostname, fun c hc => (htrimmed c hc).1, toLower_eq_self fun c hc => (htrimmed c hc).2,
      fun hc => hcolon (mem_of_mem_trimmed h.chars rfl hc), fun hc => hopen (mem_of_mem_trimmed h.chars rfl hc), haddr⟩

/-! ## Spelling a host out -/

def portSuffix (port defaultPort : UInt16) : Str := if port = defaultPort then [] else ':' :: itoa port.toNat

theorem portSuffix_cases (port defaultPort : UInt16) :
    (port = defaultPort ∧ portSuffix port defaultPort = []) ∨
      portSuffix port defaultPort = ':' :: itoa port.toNat ∧ (itoa port.toNat).all isDigit := by
  unfold portSuffix
  split
  · rename_i h
    exact .inl ⟨h, rfl⟩
  · exact .inr ⟨rfl, all_eq_true.2 fun c hc => isDigit_of_mem_itoa hc⟩

theorem portSuffix_digits (port defaultPort : UInt16) :
    portSuffix port defaultPort = [] ∨
      ∃ digits, portSuffix port defaultPort = ':' :: digits ∧ digits.all isDigit := by
  rcases portSuffix_cases port defaultPort with ⟨-, hp⟩ | ⟨hp, hd⟩
  · exact .inl hp
  · exact .inr ⟨_, hp, hd⟩

theorem mem_portSuffix (h : c ∈ portSuffix port defaultPort) : c = ':' ∨ isDigit c := by
  rcases portSuffix_cases port defaultPort with ⟨-, hs⟩ | ⟨hs, hdigits⟩
  · rw [hs] at h
    cases h
  · rw [hs] at h
    exact (mem_cons.1 h).imp_right (all_eq_true.1 hdigits c)

theorem parsePort_itoa (h : port ≠ 0) : parsePort (itoa port.toNat) = .ok port := by
  have hlt : port.toNat < 65536 := port.toNat_lt
  have hpos : port.toNat ≠ 0 := fun h0 => h (UInt16.toNat_inj.1 h0)
  rw [parsePort, parseDecimal_itoa]
  simp only [Bool.or_eq_true, decide_eq_true_eq, UInt16.ofNat_toNat]
  exact if_neg (by omega)

theorem authorityPort_suffix (h : port ≠ 0 ∨ port = defaultPort) :
    authorityPort ((portSuffix port defaultPort).drop 1) defaultPort = .ok port := by
  by_cases hp : port = defaultPort
  · rw [portSuffix, if_pos hp, hp]
    rfl
  · have hs : portSuffix port defaultPort = ':' :: itoa port.toNat := if_neg hp
    have hne : (itoa port.toNat).isEmpty = false := isEmpty_eq_false_iff.2 Nat.toDigits_ne_nil
    rw [hs, drop_one, tail_cons, authorityPort, hne]
    exact parsePort_itoa (h.resolve_right hp)

theorem formatAuthority_name (h : ':' ∉ a.host.toList) (defaultPort : UInt16) :
    (formatAuthority a defaultPort).toList = a.host.toList ++ portSuffix a.port defaultPort := by
  have hc : a.host.toList.contains ':' = false := by simpa using h
  unfold formatAuthority portSuffix
  split
  · simp [formatAuthorityHost, h]
  · simp [joinHostPort, h]

variable {b : BitVec 128}

theorem colon_mem_v6 (b : BitVec 128) (zone : Str) : ':' ∈ (Addr.v6 b zone).string := by
  obtain ⟨s, rest, hs, -⟩ := literal6_colon b
  simp [string_v6, hs]

theorem formatAuthority_v6 {zone : Str} (h : a.host.toList = (Addr.v6 b zone).string) (defaultPort : UInt16) :
    (formatAuthority a defaultPort).toList = '[' :: a.host.toList ++ ']' :: portSuffix a.port defaultPort := by
  have hcolon : ':' ∈ a.host.toList := h ▸ colon_mem_v6 b zone
  have haddr : (parseAddr a.host.toList).isSome := by rw [h, parseAddr_string]; rfl
  unfold formatAuthority portSuffix
  split
  · simp [formatAuthorityHost, hcolon, haddr]
  · simp [joinHostPort, hcolon]

theorem isHostChar_of_mem_portSuffix (h : c ∈ portSuffix port defaultPort) : isHostChar c := by
  rcases mem_portSuffix h with rfl | h
  · rfl
  · exact isHostChar_of_isDigit h

theorem notMem_portSuffix (hd : isDigit c = false) (hc : c ≠ ':') : c ∉ portSuffix port defaultPort := by
  intro h
  rcases mem_portSuffix h with h | h
  · exact hc h
  · rw [hd] at h
    contradiction

def isLiteralChar (c : Char) : Bool := isLowerHex c || c == ':' || c == '.'

theorem literalChar_spec (h : isLiteralChar c) :
    isHostChar c ∧ toLowerRune c = c ∧ c ≠ '[' := by
  have hhost : isHostChar c := by
    simp only [isLiteralChar, isLowerHex, Bool.or_eq_true, Bool.and_eq_true, decide_eq_true_eq, beq_iff_eq] at h
    rcases h with ((h | h) | rfl) | rfl
    · exact isHostChar_of_isDigit h
    · have hz : c ≤ 'z' := Char.le_trans h.2 (show 'f' ≤ 'z' by decide)
      simp [isHostChar, isAlnum, h.1, hz]
    · rfl
    · rfl
  have hc := ascii_forall (P := fun c => !isLiteralChar c || (toLowerRune c == c && c != '[')) (by decide +kernel)
    (isHostChar_ascii hhost)
  simp only [h, Bool.not_true, Bool.false_or, Bool.and_eq_true, beq_iff_eq, bne_iff_ne] at hc
  exact ⟨hhost, hc.1, hc.2⟩

theorem literal6_chars (h : c ∈ literal6 b) : isLiteralChar c := by
  rcases mem_literal6 h with h | rfl | rfl
  · simp [isLiteralChar, h]
  · rfl
  · rfl

theorem string4_chars {b : BitVec 32} (h : c ∈ string4 b) : isLiteralChar c := by
  rcases mem_string4 h with h | rfl
  · simp [isLiteralChar, isLowerHex, h]
  · rfl

/-- A canonical host is spelled as it is, or in brackets if it is an IPv6 address. -/
theorem CanonicalHost.spelling (h : CanonicalHost a.host.toList) (defaultPort : UInt16) :
    (':' ∉ a.host.toList ∧ '[' ∉ a.host.toList ∧
        (formatAuthority a defaultPort).toList = a.host.toList ++ portSuffix a.port defaultPort) ∨
      (∃ b zone, a.host.toList = (Addr.v6 b zone).string) ∧
        (formatAuthority a defaultPort).toList = '[' :: a.host.toList ++ ']' :: portSuffix a.port defaultPort := by
  generalize hhost : a.host.toList = host at h
  cases h with
  | v4 b =>
    have hcolon : ':' ∉ a.host.toList := by
      intro hc
      rw [hhost] at hc
      rcases mem_string4 hc with h | h <;> cases h
    exact .inl ⟨hhost ▸ hcolon, fun hc => (literalChar_spec (string4_chars hc)).2.2 rfl,
      hhost ▸ formatAuthority_name hcolon defaultPort⟩
  | v6 b zone chars => exact .inr ⟨⟨b, zone, rfl⟩, hhost ▸ formatAuthority_v6 hhost defaultPort⟩
  | name h => exact .inl ⟨h.colon, h.bracket, hhost ▸ formatAuthority_name (hhost ▸ h.colon) defaultPort⟩

theorem CanonicalHost.chars (h : CanonicalHost host) : ∀ c ∈ host, isHostChar c := by
  cases h with
  | v4 b => exact fun _ hc => (literalChar_spec (string4_chars hc)).1
  | v6 b zone chars =>
    rw [string_v6]
    refine forall_mem_append.2 ⟨fun _ hc => (literalChar_spec (literal6_chars hc)).1, ?_⟩
    split
    · exact nofun
    · exact forall_mem_cons.2 ⟨rfl, chars⟩
  | name h => exact h.chars

theorem formatAuthority_chars (h : CanonicalHost a.host.toList) (defaultPort : UInt16) :
    ∀ c ∈ (formatAuthority a defaultPort).toList, isHostChar c := by
  have hport : ∀ c ∈ portSuffix a.port defaultPort, isHostChar c := fun _ => isHostChar_of_mem_portSuffix
  rcases h.spelling defaultPort with ⟨-, -, hs⟩ | ⟨-, hs⟩ <;> rw [hs]
  · exact forall_mem_append.2 ⟨h.chars, hport⟩
  · exact forall_mem_cons.2 ⟨rfl, forall_mem_append.2 ⟨h.chars, forall_mem_cons.2 ⟨rfl, hport⟩⟩⟩

theorem splitHostPort_formatAuthority (h : CanonicalHost a.host.toList) (defaultPort : UInt16) :
    splitHostPort (formatAuthority a defaultPort).toList = (a.host.toList, (portSuffix a.port defaultPort).drop 1) := by
  rcases h.spelling defaultPort with ⟨hcolon, hopen, hs⟩ | ⟨-, hs⟩
  · rcases portSuffix_digits a.port defaultPort with hp | ⟨digits, hp, hd⟩
    · rw [hs, hp, append_nil, splitHostPort_name hcolon hopen]
      rfl
    · rw [hs, hp, splitHostPort_name_port hopen hd]
      rfl
  · rcases portSuffix_digits a.port defaultPort with hp | ⟨digits, hp, hd⟩
    · rw [hs, hp, splitHostPort_bracket]
      rfl
    · rw [hs, hp, splitHostPort_bracket_port _ hd]
      rfl

/-! ## Reading the spelling back -/

theorem trimSpace_of_chars (h : ∀ c ∈ s, isHostChar c) : trimSpace s = s := by
  have hspace : ∀ c ∈ s, isSpace c = false := fun c hc => by
    have hd := not_isUrlDelimiter_of_isHostChar (h c hc)
    simp only [isUrlDelimiter, Bool.or_eq_false_iff] at hd
    exact hd.2
  have hdrop : ∀ l : Str, (∀ c ∈ l, isSpace c = false) → l.dropWhile isSpace = l := by
    intro l hl
    cases l with
    | nil => rfl
    | cons c l => rw [dropWhile_cons, hl c mem_cons_self, if_neg Bool.false_ne_true]
  rw [trimSpace, hdrop s hspace, hdrop s.reverse fun c hc => hspace c (mem_reverse.1 hc), reverse_reverse]

theorem contains_false {sub : Str} (hc : c ∈ sub) (hs : c ∉ s) : contains s sub = false := by
  have hfront : ∀ l : Str, c ∉ l → hasPrefix l sub = false := by
    intro l hl
    rw [Bool.eq_false_iff]
    intro h
    exact hl ((List.isPrefixOf_iff_prefix.1 h).subset hc)
  induction s with
  | nil =>
    cases sub with
    | nil => cases hc
    | cons d sub => rfl
  | cons d s ih =>
    rw [Go.contains, hfront _ hs, ih (fun h => hs (mem_cons_of_mem d h))]
    rfl

/-- Neither of the two things that a second reading changes. -/
structure Settled (host : Str) : Prop where
  percent : '%' ∉ host
  dot : host.getLast? ≠ some '.'

theorem trimSuffix_of_last (h : s.getLast? ≠ some '.') : trimSuffix s ['.'] = s := by
  have hsuffix : hasSuffix s ['.'] = false := by
    rw [Bool.eq_false_iff]
    intro hs
    obtain ⟨p, hp⟩ := isSuffixOf_iff_suffix.1 hs
    apply h
    rw [← hp]
    simp
  rw [trimSuffix, hsuffix, if_neg Bool.false_ne_true]

theorem string4_last (b : BitVec 32) : ∃ c, (string4 b).getLast? = some c ∧ isDigit c := by
  have hne : itoa ((b >>> 0).toNat % 256) ≠ [] := Nat.toDigits_ne_nil
  refine ⟨(itoa ((b >>> 0).toNat % 256)).getLast hne, ?_, isDigit_of_mem_itoa (getLast_mem hne)⟩
  change (_ ++ '.' :: itoa ((b >>> 0).toNat % 256)).getLast? = _
  rw [getLast?_append, getLast?_cons, getLast?_eq_some_getLast hne]
  rfl

theorem settled_string4 (b : BitVec 32) : Settled (string4 b) := by
  refine ⟨fun h => ?_, fun h => ?_⟩
  · rcases mem_string4 h with h | h <;> cases h
  · obtain ⟨c, hc, hd⟩ := string4_last b
    rw [h] at hc
    cases hc
    cases hd

theorem settled_literal6 (b : BitVec 128) : Settled (literal6 b) := by
  refine ⟨percent_notMem_literal6 b, ?_⟩
  unfold literal6
  split
  · obtain ⟨c, hc, hd⟩ := string4_last (b.setWidth 32)
    rw [getLast?_append, hc]
    rintro ⟨⟩
    cases hd
  · intro h
    rcases (string6_shape b).1 _ (mem_of_getLast? h) with h | h <;> cases h

theorem CanonicalHost.ne_nil (h : CanonicalHost host) : host ≠ [] := by
  cases h with
  | v4 b => exact Addr.string_ne_nil (.v4 b)
  | v6 b zone _ => exact Addr.string_ne_nil _
  | name h => exact h.nonempty

theorem Settled.zone {zone : Str} (h : Settled (Addr.v6 b zone).string) : zone = [] := by
  cases zone with
  | nil => rfl
  | cons c zone => exact absurd (by simp [string_v6]) h.percent

theorem string_v6_nil (b : BitVec 128) : (Addr.v6 b []).string = literal6 b := by simp [string_v6]

theorem CanonicalHost.lower (h : CanonicalHost host) (hs : Settled host) : toLower host = host := by
  cases h with
  | v4 b => exact toLower_eq_self fun c hc => (literalChar_spec (string4_chars hc)).2.1
  | v6 b zone _ =>
    obtain rfl := hs.zone
    rw [string_v6_nil]
    exact toLower_eq_self fun c hc => (literalChar_spec (literal6_chars hc)).2.1
  | name h => exact h.lower

/-- A settled spelling is accepted as it is if URL parsing leaves it alone. -/
theorem parseAuthority_spelled (hc : CanonicalHost a.host.toList)
    (hport : a.port ≠ 0 ∨ a.port = defaultPort) (hs : Settled a.host.toList)
    (hraw : (formatAuthority a defaultPort).toList = raw) (hparse : parseHost raw = some raw)
    (hcount : hasPrefix raw ['['] ∨ raw.count ':' ≤ 1)
    (hgrammar : a.port = defaultPort → hasExplicitPortSyntax raw = false)
    (hcanonical : ∀ shown, canonicalHost shown (hasPrefix raw ['[']) a.host.toList = .ok a.host) :
    parseAuthority (formatAuthority a defaultPort) defaultPort = .ok a := by
  have hchars : ∀ c ∈ raw, isHostChar c := hraw ▸ formatAuthority_chars hc defaultPort
  have hsplit := splitHostPort_formatAuthority hc defaultPort
  have htrim : trimSuffix (toLower a.host.toList) ['.'] = a.host.toList := by
    rw [hc.lower hs, trimSuffix_of_last hs.dot]
  have hne : raw ≠ [] := by
    rintro rfl
    rw [hraw] at hsplit
    exact hc.ne_nil (Prod.mk.inj hsplit).1.symm
  have hascii : isASCII raw := all_eq_true.2 fun c hc => by
    have := isHostChar_ascii (hchars c hc)
    simp only [decide_eq_true_eq]
    omega
  have hslash : '/' ∉ raw := fun h => absurd (not_isUrlDelimiter_of_isHostChar (hchars _ h)) (by decide)
  rw [hraw] at hsplit
  refine parseAuthority_eq_ok.2 ⟨{ scheme := "http".toList, host := raw }, ?_⟩
  rw [hraw, trimSpace_of_chars hchars]
  refine ⟨hne, hascii, contains_false (c := '/') (by decide) hslash, ?_, rfl, ⟨rfl, rfl, rfl⟩, hne,
    validHostHeader_iff.2 hchars, hcount, ?_, ?_, ?_, ?_⟩
  · rw [urlParse_http hchars, hparse]
    rfl
  · rw [Url.port, hsplit]
    exact authorityPort_suffix hport
  · rw [Url.port, hsplit]
    rcases portSuffix_cases a.port defaultPort with ⟨hp, -⟩ | ⟨hp, -⟩
    · exact .inr (hgrammar hp)
    · left
      rw [hp]
      exact Nat.toDigits_ne_nil
  · rw [Url.hostname, hsplit, htrim]
    exact hc.ne_nil
  · rw [Url.hostname, hsplit, htrim]
    exact hcanonical _

theorem parseAuthority_formatAuthority (hc : CanonicalHost a.host.toList)
    (hport : a.port ≠ 0 ∨ a.port = defaultPort) (hs : Settled a.host.toList) :
    parseAuthority (formatAuthority a defaultPort) defaultPort = .ok a := by
  have hsuffix := portSuffix_digits a.port defaultPort
  have hempty : a.port = defaultPort → portSuffix a.port defaultPort = [] := fun h => if_pos h
  rcases hc.spelling defaultPort with ⟨hcolon, hopen, hspell⟩ | ⟨⟨b, zone, hhost⟩, hspell⟩
  · have hfront : hasPrefix (a.host.toList ++ portSuffix a.port defaultPort) ['['] = false :=
      hasPrefix_open fun h => (mem_append.1 h).elim hopen (notMem_portSuffix rfl (by decide))
    refine parseAuthority_spelled hc hport hs hspell (parseHost_name hc.chars hs.percent hopen hcolon hsuffix) (.inr ?_)
      ?_ ?_
    · rw [count_append, count_eq_zero_of_not_mem hcolon]
      rcases hsuffix with hp | ⟨digits, hp, hd⟩
      · simp [hp]
      · have hzero : digits.count ':' = 0 :=
          count_eq_zero_of_not_mem fun hc => absurd (all_eq_true.1 hd _ hc) (by decide)
        rw [hp, count_cons_self, hzero]
    · intro hp
      rw [hasExplicitPortSyntax, hfront, if_neg Bool.false_ne_true, hempty hp, append_nil,
        count_eq_zero_of_not_mem hcolon]
      rfl
    · intro shown
      rw [hfront]
      generalize hhost : a.host.toList = host at hc hcolon
      cases hc with
      | v4 b =>
        have haddr : parseAddr (string4 b) = some (.v4 b) := parseAddr_string (.v4 b)
        simp only [canonicalHost, haddr, Addr.is6, Bool.false_eq_true, if_false, Addr.string]
        rw [← hhost, String.ofList_toList]
      | v6 b zone _ => exact absurd (colon_mem_v6 b zone) hcolon
      | name h =>
        simp only [canonicalHost, h.noAddr, Bool.false_eq_true, if_false]
        rw [← hhost, String.ofList_toList]
  · obtain rfl := Settled.zone (hhost ▸ hs)
    have haddr : parseAddr a.host.toList = some (.v6 b []) := by rw [hhost, parseAddr_string]
    have hopen : '[' ∉ a.host.toList := by
      rw [hhost, string_v6_nil]
      exact fun hc => (literalChar_spec (literal6_chars hc)).2.2 rfl
    refine parseAuthority_spelled hc hport hs hspell (parseHost_literal hc.chars hs.percent hopen haddr hsuffix) (.inl rfl)
      ?_ ?_
    · intro hp
      rw [hasExplicitPortSyntax, if_pos (by rfl), hempty hp, cutLast_append _ (by simp)]
      rfl
    · intro shown
      rw [canonicalHost, haddr]
      change Except.ok (String.ofList (Addr.v6 b []).string) = _
      rw [← hhost, String.ofList_toList]

/-! ## What a second reading changes -/

theorem trimSuffix_length_lt (h : s.getLast? = some '.') : (trimSuffix s ['.']).length < s.length := by
  obtain ⟨p, rfl⟩ := getLast?_eq_some_iff.1 h
  have hsuffix : hasSuffix (p ++ ['.']) ['.'] := isSuffixOf_iff_suffix.2 (suffix_append p ['.'])
  simp [trimSuffix, hsuffix]

variable {a c : Authority}

theorem reread (hc : CanonicalHost a.host.toList)
    (hread : parseAuthority (formatAuthority a defaultPort) defaultPort = .ok c) :
    ∃ parsed : Url, Accepted (formatAuthority a defaultPort).toList defaultPort parsed c ∧
      parseHost (formatAuthority a defaultPort).toList = some parsed.host := by
  have hchars := formatAuthority_chars hc defaultPort
  obtain ⟨parsed, h⟩ := parseAuthority_eq_ok.1 hread
  rw [trimSpace_of_chars hchars] at h
  have hurl := h.url
  rw [urlParse_http hchars] at hurl
  obtain ⟨host, hhost, rfl⟩ := Option.map_eq_some_iff.1 hurl
  exact ⟨_, h, hhost⟩

/-- A name is read back as an IPv4 address, or as what decoding, lower-casing and trimming leave of it. -/
theorem reread_name (h : IsName a.host.toList)
    (hread : parseAuthority (formatAuthority a defaultPort) defaultPort = .ok c) :
    (∃ b, c.host.toList = string4 b) ∨
      ∃ t, Unescaped .host a.host.toList t ∧ c.host.toList = trimSuffix (toLower t) ['.'] := by
  have hspell := formatAuthority_name h.colon defaultPort
  obtain ⟨parsed, hacc, hparse⟩ := reread (.name h) hread
  rw [hspell] at hacc hparse
  have hopen : '[' ∉ a.host.toList ++ portSuffix a.port defaultPort := by
    rw [mem_append, not_or]
    exact ⟨h.bracket, notMem_portSuffix rfl (by decide)⟩
  have hun := parseHost_plain hparse hopen
  -- The decoded host keeps the port, so only the name is decoded.
  obtain ⟨t, ht, hname⟩ : ∃ t, Unescaped .host a.host.toList t ∧ parsed.hostname = t := by
    have hnot : ∀ {s t : Str}, Unescaped .host s t → '[' ∉ s → '[' ∉ t := fun hu hs hmem =>
      hs (hu.mem_host hmem (by decide) (by decide))
    rcases portSuffix_digits a.port defaultPort with hp | ⟨digits, hp, hd⟩
    · rw [hp, append_nil] at hun
      refine ⟨parsed.host, hun, ?_⟩
      rw [Url.hostname, splitHostPort_name (fun hmem => h.colon (hun.mem_host hmem (by decide) (by decide)))
        (hnot hun h.bracket)]
    · rw [hp] at hun
      obtain ⟨t, digits', ht, hdigits, heq⟩ := hun.append_colon
      have hplain : '%' ∉ digits := fun hmem => absurd (all_eq_true.1 hd _ hmem) (by decide)
      rw [hdigits.eq_of_plain hplain] at heq
      refine ⟨t, ht, ?_⟩
      rw [Url.hostname, heq, splitHostPort_name_port (hnot ht h.bracket) hd]
  rcases canonicalHost_eq_ok hacc.host with ⟨hb, -⟩ | ⟨-, b, -, hhost⟩ | ⟨-, -, hhost⟩
  · rw [hasPrefix_open hopen] at hb
    contradiction
  · exact .inl ⟨b, hhost⟩
  · exact .inr ⟨t, ht, by rw [hhost, hname]⟩

theorem zoneOf_toLower (h : ∀ c ∈ s, isHostChar c) : (zoneOf (toLower s)).length = (zoneOf s).length := by
  induction s with
  | nil => rfl
  | cons c s ih =>
    have hc := h c mem_cons_self
    have hrest := ih fun d hd => h d (mem_cons_of_mem c hd)
    by_cases hp : c = '%'
    · subst hp
      change (zoneOf ('%' :: toLower s)).length = _
      rw [zoneOf_percent, zoneOf_percent, toLower, length_map]
    · have hlower : toLowerRune c ≠ '%' := fun hl => hp ((isHostChar_toLower hc).2.2 _ rfl hl)
      change (zoneOf (toLowerRune c :: toLower s)).length = _
      rw [zoneOf_cons hlower, zoneOf_cons hp, hrest]

/-- The zone of an IPv6 address gets shorter. -/
theorem reread_zone {zone : Str} (hz : zone ≠ [])
    (hzone : ∀ c ∈ zone, isHostChar c) (hhost : a.host.toList = (Addr.v6 b zone).string)
    (hread : parseAuthority (formatAuthority a defaultPort) defaultPort = .ok c) : c.host ≠ a.host := by
  have hstring : a.host.toList = literal6 b ++ '%' :: zone := by
    rw [hhost, string_v6, if_neg (by simpa using hz)]
  have hspell := formatAuthority_v6 hhost defaultPort
  obtain ⟨parsed, hacc, hparse⟩ := reread (hhost ▸ .v6 b zone hzone) hread
  rw [hspell] at hacc hparse
  obtain ⟨s, z, s', z', port', hsz, hus, huz, hup, hph⟩ :=
    parseHost_bracketed (notMem_portSuffix rfl (by decide)) hparse
  rw [hup.eq_of_plain (notMem_portSuffix rfl (by decide))] at hph
  have hname : parsed.hostname = s' ++ z' := by
    rw [Url.hostname, hph]
    rcases portSuffix_digits a.port defaultPort with hp | ⟨digits, hp, hd⟩
    · rw [hp, splitHostPort_bracket]
    · rw [hp, splitHostPort_bracket_port _ hd]
  rcases canonicalHost_eq_ok hacc.host with ⟨-, b', zone', haddr, hc⟩ | ⟨hb, -⟩ | ⟨hb, -⟩
  · intro heq
    -- Both print the same text, so the zones agree; but the second one was decoded.
    have hsame : some (Addr.v6 b' zone') = some (Addr.v6 b zone) := by
      rw [← parseAddr_string, ← parseAddr_string, ← hc, ← hhost, heq]
    have hzz : zone' = zone := by
      cases hsame
      rfl
    have hheader : ∀ c ∈ s' ++ z', isHostChar c := hname ▸ hacc.chars
    have hpercent : '%' ∈ s ++ z := by
      rw [← hsz, hstring]
      simp
    have hlt := hus.zoneOf_append_lt huz hpercent
    have hle := zoneOf_length_mono (isPrefix_trimSuffix (toLower (s' ++ z')) ['.'])
    rw [zoneOf_toLower hheader, ← hname, ← parseAddr_zone haddr, hzz, hname] at hle
    rw [← hsz, hstring, zoneOf_append (percent_notMem_literal6 b)] at hlt
    omega
  · cases hb
  · cases hb

/-- Reading the spelling of an accepted host gives the host back exactly when it is settled. -/
theorem reread_host_iff (hc : CanonicalHost a.host.toList) (hport : a.port ≠ 0 ∨ a.port = defaultPort) :
    (∃ c, parseAuthority (formatAuthority a defaultPort) defaultPort = .ok c ∧ c.host = a.host) ↔
      Settled a.host.toList := by
  constructor
  · rintro ⟨c, hread, heq⟩
    generalize hhost : a.host.toList = host at hc
    cases hc with
    | v4 b => exact settled_string4 b
    | v6 b zone chars =>
      by_cases hz : zone = []
      · subst hz
        rw [string_v6_nil]
        exact settled_literal6 b
      · exact absurd heq (reread_zone hz chars hhost hread)
    | name h =>
      subst hhost
      rcases reread_name h hread with ⟨b, hb⟩ | ⟨t, ht, hhost⟩
      · rw [← heq, hb]
        exact settled_string4 b
      · rw [heq] at hhost
        have hlen := (isPrefix_trimSuffix (toLower t) ['.']).length_le
        rw [← hhost, toLower, length_map] at hlen
        have hplain : '%' ∉ a.host.toList := fun hp => absurd (ht.length_lt hp) (by omega)
        refine ⟨hplain, fun hdot => ?_⟩
        rw [ht.eq_of_plain hplain, h.lower] at hhost
        have hlt := trimSuffix_length_lt hdot
        rw [← hhost] at hlt
        omega
  · intro hs
    exact ⟨a, parseAuthority_formatAuthority hc hport hs, rfl⟩

end Silo.Netd
