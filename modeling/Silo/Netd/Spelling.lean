import Silo.Netd.Canonical
/-!
# Canonical spellings

`ParseBinding` keeps the spelling `FormatAuthority` gives an accepted authority, and
policies are compared by it. It determines the host and the port, so that bindings
spelled alike match alike; read again it gives them back if the host is an address
without a zone, or a name without a percent sign that does not end in a dot.
-/

namespace Silo.Netd

open Go Lib List

/-! ## What is spelled -/

/-- The host of an input as `ParseAuthority` looks at it: decoded, in lower case, with one trailing dot
removed. -/
def hostText (input : Str) : Option Str :=
  (urlParse ("http://".toList ++ trimSpace input)).map (fun parsed => trimSuffix (toLower parsed.hostname) ['.'])

/-- An address without a zone, or a name without the two things that a second reading changes. -/
def Stable (host : Str) : Prop :=
  match parseAddr host with
  | some (.v6 _ zone) => zone = []
  | some (.v4 _) => True
  | none => '%' ∉ host ∧ host.getLast? ≠ some '.'

instance (host : Str) : Decidable (Stable host) := by
  unfold Stable
  split <;> infer_instance

def StableText (input : Str) : Prop := ∃ host, hostText input = some host ∧ Stable host

variable {defaultPort : UInt16} {a : Authority}

theorem Accepted.settled_iff {raw : Str} {parsed : Url} (h : Accepted raw defaultPort parsed a) :
    Settled a.host.toList ↔ Stable (trimSuffix (toLower parsed.hostname) ['.']) := by
  rcases canonicalHost_eq_ok h.host with ⟨-, b, zone, haddr, hhost⟩ | ⟨-, b, haddr, hhost⟩ | ⟨-, haddr, hhost⟩
  · simp only [Stable, haddr, hhost]
    refine ⟨Settled.zone, ?_⟩
    rintro rfl
    rw [string_v6_nil]
    exact settled_literal6 b
  · simp only [Stable, haddr, hhost, iff_true]
    exact settled_string4 b
  · simp only [Stable, haddr, hhost]
    exact ⟨fun hs => ⟨hs.percent, hs.dot⟩, fun hs => ⟨hs.1, hs.2⟩⟩

variable {input : String}

theorem settled_iff_stableText
    (h : parseAuthority input defaultPort = .ok a) : Settled a.host.toList ↔ StableText input.toList := by
  obtain ⟨parsed, hacc⟩ := parseAuthority_eq_ok.1 h
  have htext : hostText input.toList = some (trimSuffix (toLower parsed.hostname) ['.']) := by
    rw [hostText, hacc.url]
    rfl
  rw [hacc.settled_iff, StableText, htext]
  simp

theorem canonicalHost_of_parseAuthority
    (h : parseAuthority input defaultPort = .ok a) : CanonicalHost a.host.toList :=
  (parseAuthority_eq_ok.1 h).elim fun _ hacc => hacc.canonical

theorem formatAuthority_inj {s t : String} {a c : Authority}
    (ha : parseAuthority s defaultPort = .ok a) (hc : parseAuthority t defaultPort = .ok c)
    (h : formatAuthority a defaultPort = formatAuthority c defaultPort) : a = c := by
  have hsplit := splitHostPort_formatAuthority (canonicalHost_of_parseAuthority ha) defaultPort
  rw [h, splitHostPort_formatAuthority (canonicalHost_of_parseAuthority hc) defaultPort] at hsplit
  obtain ⟨hhost, hdigits⟩ := Prod.mk.inj hsplit
  have hport := authorityPort_suffix (parseAuthority_port ha)
  rw [← hdigits, authorityPort_suffix (parseAuthority_port hc)] at hport
  cases a
  cases c
  cases hport
  cases String.toList_inj.1 hhost
  rfl

/-! ## Bindings -/

/-- The checks of `ParseBinding` on a trimmed pattern: what stands behind the wildcard is the authority `a`. -/
structure Bound (text : Str) (defaultPort : UInt16) (a : Authority) (b : Binding) : Prop where
  nonempty : text ≠ []
  star : hasPrefix text "*.".toList ∨ '*' ∉ text
  suffix : hasPrefix text "*.".toList = false ∨ trimPrefix text "*.".toList ≠ [] ∧ '*' ∉ trimPrefix text "*.".toList
  authority : parseAuthority (String.ofList (trimPrefix text "*.".toList)) defaultPort = .ok a
  noIP : hasPrefix text "*.".toList = false ∨ wildcardHostLooksLikeIPPattern a.host.toList = false
  binding : b = ⟨if hasPrefix text "*.".toList then "*." ++ formatAuthority a defaultPort else formatAuthority a defaultPort,
    a.host, a.port, hasPrefix text "*.".toList⟩

variable {b : Binding}

theorem parseBinding_eq_ok {pattern : String} :
    parseBinding pattern defaultPort = .ok b ↔ ∃ a, Bound (trimSpace pattern.toList) defaultPort a b := by
  simp only [parseBinding, bind_eq_ok, pure_eq_ok, require_eq_ok]
  constructor
  · rintro ⟨-, h1, -, h2, -, h3, a, h4, -, h5, rfl⟩
    exact ⟨a, h1, h2, h3, h4, h5, rfl⟩
  · rintro ⟨a, h1, h2, h3, h4, h5, rfl⟩
    exact ⟨(), h1, (), h2, (), h3, a, h4, (), h5, rfl⟩

theorem Bound.star_notMem {text : Str} (h : Bound text defaultPort a b) : '*' ∉ trimPrefix text "*.".toList := by
  by_cases hw : hasPrefix text "*.".toList
  · exact (h.suffix.resolve_left (by rw [hw]; decide)).2
  · rw [trimPrefix, if_neg hw]
    exact h.star.resolve_left hw

theorem mem_of_mem_trimSpace {s : Str} {c : Char} (h : c ∈ trimSpace s) : c ∈ s :=
  (dropWhile_sublist _).subset (mem_reverse.1 ((dropWhile_sublist _).subset (mem_reverse.1 h)))

section
variable (h : parseAuthority input defaultPort = .ok a)
include h

section
variable (hstar : '*' ∉ input.toList)
include hstar

theorem star_notMem_host
    (hcolon : ':' ∉ a.host.toList) :
    '*' ∉ a.host.toList := by
  obtain ⟨parsed, hacc⟩ := parseAuthority_eq_ok.1 h
  intro hmem
  rcases canonicalHost_eq_ok hacc.host with ⟨-, b, zone, -, hhost⟩ | ⟨-, b, -, hhost⟩ | ⟨hb, -, hhost⟩
  · exact absurd (hhost ▸ colon_mem_v6 b zone) hcolon
  · rw [hhost] at hmem
    rcases mem_string4 hmem with h | h <;> cases h
  · rw [hhost] at hmem
    have hd := mem_of_mem_trimmed hacc.chars rfl hmem
    obtain ⟨authority, hfront, -, hun⟩ := hacc.plain hb
    exact hstar (mem_of_mem_trimSpace
      (hfront.subset (hun.mem_host (splitHostPort_chars hd) (by decide) (by decide))))

/-- The spelling of an authority is never taken for a wildcard. -/
theorem formatAuthority_not_wildcard :
    hasPrefix (formatAuthority a defaultPort).toList "*.".toList = false := by
  rw [Bool.eq_false_iff]
  intro hp
  obtain ⟨rest, hrest⟩ := isPrefixOf_iff_prefix.1 hp
  have hc := canonicalHost_of_parseAuthority h
  rcases hc.spelling defaultPort with ⟨hcolon, -, hs⟩ | ⟨-, hs⟩
  · obtain ⟨c, host, hhost⟩ := exists_cons_of_ne_nil hc.ne_nil
    have hnot := star_notMem_host h hstar hcolon
    rw [hs, hhost] at hrest
    rw [hhost] at hnot
    exact hnot ((show '*' = c from (List.cons.inj hrest).1) ▸ mem_cons_self)
  · rw [hs] at hrest
    exact absurd (List.cons.inj hrest).1 (by decide)

theorem star_notMem_formatAuthority
    (hs : Settled a.host.toList) :
    '*' ∉ (formatAuthority a defaultPort).toList := by
  have hsuffix : '*' ∉ portSuffix a.port defaultPort := notMem_portSuffix rfl (by decide)
  rcases (canonicalHost_of_parseAuthority h).spelling defaultPort with ⟨hcolon, -, hspell⟩ | ⟨⟨b, zone, hhost⟩, hspell⟩
  · simp [hspell, hsuffix, star_notMem_host h hstar hcolon]
  · obtain rfl := Settled.zone (hhost ▸ hs)
    have hnot : '*' ∉ a.host.toList := by
      rw [hhost, string_v6_nil]
      intro hmem
      rcases mem_literal6 hmem with h | h | h <;> cases h
    simp [hspell, hsuffix, hnot]

end

end

theorem Bound.pattern {text : Str} (h : Bound text defaultPort a b) :
    trimSpace b.pattern.toList = b.pattern.toList ∧ hasPrefix b.pattern.toList "*.".toList = b.wildcard ∧
      trimPrefix b.pattern.toList "*.".toList = (formatAuthority a defaultPort).toList := by
  have hchars := formatAuthority_chars (canonicalHost_of_parseAuthority h.authority) defaultPort
  have hnot := formatAuthority_not_wildcard h.authority (by simpa using h.star_notMem)
  rw [h.binding]
  by_cases hw : hasPrefix text "*.".toList
  · have hspell : ("*." ++ formatAuthority a defaultPort).toList = '*' :: '.' :: (formatAuthority a defaultPort).toList := by
      simp
    simp only [hw, if_true, hspell]
    exact ⟨trimSpace_of_chars (forall_mem_cons.2 ⟨rfl, forall_mem_cons.2 ⟨rfl, hchars⟩⟩), rfl, rfl⟩
  · simp only [hw, Bool.false_eq_true, if_false]
    exact ⟨trimSpace_of_chars hchars, hnot, by rw [trimPrefix, hnot, if_neg Bool.false_ne_true]⟩

theorem Bound.reread {text : Str}
    (h : Bound text defaultPort a b) (hs : Settled a.host.toList) : parseBinding b.pattern defaultPort = .ok b := by
  obtain ⟨htrim, hwild, hsuffix⟩ := h.pattern
  have hstar := star_notMem_formatAuthority h.authority (by simpa using h.star_notMem) hs
  have hc := canonicalHost_of_parseAuthority h.authority
  have hne : (formatAuthority a defaultPort).toList ≠ [] := by
    rcases hc.spelling defaultPort with ⟨-, -, hspell⟩ | ⟨-, hspell⟩ <;> simp [hspell, hc.ne_nil]
  have hflag : b.wildcard = hasPrefix text "*.".toList := by rw [h.binding]
  refine parseBinding_eq_ok.2 ⟨a, ?_⟩
  rw [htrim]
  refine ⟨fun hempty => hne (by rw [← hsuffix, hempty]; rfl), ?_, .inr (by rw [hsuffix]; exact ⟨hne, hstar⟩), ?_, ?_, ?_⟩
  · by_cases hw : b.wildcard
    · exact .inl (hwild.trans hw)
    · rw [trimPrefix, hwild, if_neg hw] at hsuffix
      exact .inr (hsuffix ▸ hstar)
  · rw [hsuffix, String.ofList_toList]
    exact parseAuthority_formatAuthority hc (parseAuthority_port h.authority) hs
  · rw [hwild, hflag]
    exact h.noIP
  · rw [hwild, hflag]
    exact h.binding

/-! ## The result -/

/-- Formatting and parsing again gives host and port back exactly for stable texts; in any case the
spelling alone decides what is matched. -/
theorem canonical_spelling_iff (defaultPort : UInt16) :
    (∀ input a, parseAuthority input defaultPort = .ok a →
      ((∃ c, parseAuthority (formatAuthority a defaultPort) defaultPort = .ok c ∧ c.host = a.host ∧ c.port = a.port) ↔
        StableText input.toList)) ∧
    (∀ pattern b, parseBinding pattern defaultPort = .ok b →
      ((∃ c, parseBinding b.pattern defaultPort = .ok c ∧ c.host = b.host ∧ c.port = b.port) ↔
        StableText (trimPrefix (trimSpace pattern.toList) "*.".toList))) ∧
    (∀ s t a c, parseAuthority s defaultPort = .ok a → parseAuthority t defaultPort = .ok c →
      formatAuthority a defaultPort = formatAuthority c defaultPort → ∀ b : Binding, b.matches a = b.matches c) ∧
    (∀ s t b c, parseBinding s defaultPort = .ok b → parseBinding t defaultPort = .ok c → b.pattern = c.pattern →
      ∀ request, b.matches request = c.matches request) := by
  refine ⟨fun input a h => ?_, fun pattern b h => ?_, fun s t a c ha hc h b => ?_, fun s t b c hb hc h request => ?_⟩
  · rw [← settled_iff_stableText h]
    have hc := canonicalHost_of_parseAuthority h
    constructor
    · rintro ⟨c, hread, hhost, -⟩
      exact (reread_host_iff hc (parseAuthority_port h)).1 ⟨c, hread, hhost⟩
    · intro hs
      exact ⟨a, parseAuthority_formatAuthority hc (parseAuthority_port h) hs, rfl, rfl⟩
  · obtain ⟨a, hbound⟩ := parseBinding_eq_ok.1 h
    have hsettled := settled_iff_stableText hbound.authority
    rw [String.toList_ofList] at hsettled
    rw [← hsettled]
    constructor
    · rintro ⟨c, hread, hhost, -⟩
      obtain ⟨a', hbound'⟩ := parseBinding_eq_ok.1 hread
      obtain ⟨htrim, -, hsuffix⟩ := hbound.pattern
      have hagain := hbound'.authority
      rw [htrim, hsuffix, String.ofList_toList] at hagain
      have hsame : a'.host = a.host := by
        rw [hbound'.binding, hbound.binding] at hhost
        exact hhost
      exact (reread_host_iff (canonicalHost_of_parseAuthority hbound.authority) (parseAuthority_port hbound.authority)).1
        ⟨a', hagain, hsame⟩
    · intro hs
      exact ⟨b, hbound.reread hs, rfl, rfl⟩
  · rw [formatAuthority_inj ha hc h]
  · obtain ⟨a, hbound⟩ := parseBinding_eq_ok.1 hb
    obtain ⟨a', hbound'⟩ := parseBinding_eq_ok.1 hc
    obtain ⟨-, hwild, hsuffix⟩ := hbound.pattern
    obtain ⟨-, hwild', hsuffix'⟩ := hbound'.pattern
    rw [h] at hwild hsuffix
    have hsame := formatAuthority_inj hbound.authority hbound'.authority (String.toList_inj.1 (hsuffix.symm.trans hsuffix'))
    have hfields : b.host = c.host ∧ b.port = c.port := by
      rw [hbound.binding, hbound'.binding, hsame]
      exact ⟨rfl, rfl⟩
    simp only [Binding.matches, hfields.1, hfields.2, ← hwild, hwild']

/-- A name in mixed case, with its port and a trailing dot, is read back. -/
theorem canonical_spelling_of_name :
    ∃ c, parseAuthority (formatAuthority ⟨"example.com", 8443⟩ 443) 443 = .ok c ∧ c.host = "example.com" ∧ c.port = 8443 := by
  obtain ⟨a, ha, rfl⟩ := exists_ok_of_map (f := id) (x := parseAuthority "Example.com.:8443" 443)
    (b := ⟨"example.com", 8443⟩) (by decide +kernel)
  exact ((canonical_spelling_iff 443).1 _ _ ha).2 ⟨"example.com".toList, by decide +kernel, by decide +kernel⟩

/-- An address with a zone is accepted, but not in the spelling that it is given. -/
theorem zone_not_read_back :
    (parseAuthority "[fe80::1%25eth0]" 443).toOption = some ⟨"fe80::1%eth0", 443⟩ ∧
      formatAuthority ⟨"fe80::1%eth0", 443⟩ 443 = "[fe80::1%eth0]" ∧
      (parseAuthority "[fe80::1%eth0]" 443).toOption = none ∧
      (parseBinding "a.." 443).toOption.map (·.pattern) = some "a." ∧
      (parseBinding "a." 443).toOption.map (·.host) = some "a" := by
  decide +kernel

end Silo.Netd
