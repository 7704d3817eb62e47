import Silo.Go.PrintedAddr
import Silo.Go.Url
/-!
# Hosts in URLs

How `url.Parse` reads the host of an `http://` URL: the authority ends at the first
`/`, `?` or `#`, percent-decoding shortens what it touches, and `Hostname` and `Port`
split the result at the last colon outside the brackets.
-/

open List

namespace Silo.Go

/-! ## ASCII -/

variable {c : Char} {n : Nat} {mode : Encoding} {s t : Str}

theorem ascii_forall {P : Char → Bool} (h : (List.range 128).all (fun n => P (Char.ofNat n)))
    (hc : c.toNat < 128) : P c := by
  have hn := all_eq_true.1 h c.toNat (mem_range.2 hc)
  rwa [Char.ofNat_toNat] at hn

theorem isHostChar_ascii (h : isHostChar c) : c.toNat < 128 := by
  simp only [isHostChar, isAlnum, isDigit, Bool.or_eq_true, Bool.and_eq_true, decide_eq_true_eq, Char.le_def,
    contains_iff_mem] at h
  have hle : ∀ d : Char, d.toNat < 128 → c.val ≤ d.val → c.toNat < 128 :=
    fun d hd hcd => Nat.lt_of_le_of_lt (UInt32.le_iff_toNat_le.1 hcd) hd
  rcases h with ((h | h) | h) | h
  · exact hle 'z' (by decide) h.2
  · exact hle 'Z' (by decide) h.2
  · exact hle '9' (by decide) h.2
  · have hlist : ∀ d ∈ "!$%&()*+,-.:;=['_~]".toList, d.toNat < 128 :=
      forall_mem_iff_forall_getElem.2 (by decide)
    exact hlist c h

/-- What `url.Parse` asks about single characters. -/
def isUrlDelimiter (c : Char) : Bool :=
  c == '#' || c == '?' || c == '/' || c == '@' || c.toNat < 0x20 || c.toNat == 0x7f || isSpace c

theorem not_isUrlDelimiter_of_isHostChar (h : isHostChar c) : isUrlDelimiter c = false := by
  have hc := ascii_forall (P := fun c => !isHostChar c || !isUrlDelimiter c) (by decide +kernel) (isHostChar_ascii h)
  simpa [h] using hc

theorem not_shouldEscapeHost_of_isHostChar (h : isHostChar c) (hne : c ≠ '%') :
    shouldEscapeHost c = false := by
  have hc := ascii_forall (P := fun c => !isHostChar c || (c == '%' || !shouldEscapeHost c)) (by decide +kernel)
    (isHostChar_ascii h)
  simpa [h, hne] using hc

theorem isHostChar_of_isDigit (h : isDigit c) : isHostChar c := by
  simp [isHostChar, isAlnum, h]

/-! ## Percent-decoding -/

/-- The decoded text, step by step. In a host a decoded byte is the percent sign or not ASCII. -/
inductive Unescaped (mode : Encoding) : Str → Str → Prop
  | nil : Unescaped mode [] []
  | char {c : Char} {s t : Str} (plain : c ≠ '%') (rest : Unescaped mode s t) : Unescaped mode (c :: s) (c :: t)
  | hex {h l b : Char} {s t : Str} (high : isHexChar h = true) (low : isHexChar l = true)
    (decoded : mode = .host → b = '%' ∨ 128 ≤ b.toNat) (rest : Unescaped mode s t) :
    Unescaped mode ('%' :: h :: l :: s) (b :: t)

theorem hexValue_lt (h : hexValue c = some n) : n < 16 := by
  unfold hexValue isDigit at h
  simp only [Bool.and_eq_true, decide_eq_true_eq, Char.le_def, UInt32.le_iff_toNat_le] at h
  have e0 : '0'.toNat = 48 := rfl
  have e9 : ('9'.val).toNat = 57 := rfl
  have ea : 'a'.toNat = 97 := rfl
  have ef : ('f'.val).toNat = 102 := rfl
  have eA : 'A'.toNat = 65 := rfl
  have eF : ('F'.val).toNat = 70 := rfl
  have ec : c.val.toNat = c.toNat := rfl
  split at h
  · cases h; omega
  · split at h
    · cases h; omega
    · split at h
      · cases h; omega
      · cases h

theorem byteChar_toNat (h : n < 256) : (byteChar n).toNat = n := by
  have hvalid : n.isValidChar := .inl (by omega)
  rw [byteChar, Nat.mod_eq_of_lt h, Char.ofNat, dif_pos hvalid]
  rfl

theorem unescape_spec (h : unescape mode s = some t) : Unescaped mode s t := by
  fun_induction unescape mode s generalizing t with
  | case1 =>
    cases h
    exact .nil
  | case3 =>
    rename_i high low rest hi lo hlow hhigh b refused hrefused ih
    obtain ⟨t', ht', rfl⟩ := Option.map_eq_some_iff.1 h
    refine .hex (by simp [isHexChar, hhigh]) (by simp [isHexChar, hlow]) (fun hmode => ?_) (ih ht')
    subst hmode
    have h1 := hexValue_lt hhigh
    have h2 := hexValue_lt hlow
    by_cases hpercent : hi = 2 ∧ lo = 5
    · left
      simp only [b, hpercent.1, hpercent.2]
      rfl
    · right
      have hset : ¬ hi < 8 := by
        intro hlt
        apply hrefused
        simp only [refused, hlt, decide_true, Bool.true_and, Bool.not_eq_true', Bool.and_eq_false_imp, beq_iff_eq,
          beq_eq_false_iff_ne]
        exact fun h h' => hpercent ⟨h, h'⟩
      rw [byteChar_toNat (by omega)]
      omega
  | case7 c rest _ hc hallowed ih =>
    obtain ⟨t', ht', rfl⟩ := Option.map_eq_some_iff.1 h
    exact .char hc (ih ht')
  | _ => cases h

theorem unescape_plain (h : ∀ c ∈ s, isHostChar c) (hp : '%' ∉ s) : unescape .host s = some s := by
  induction s with
  | nil => rfl
  | cons c s ih =>
    rw [mem_cons, not_or] at hp
    have hc : c ≠ '%' := fun hc => hp.1 hc.symm
    have hescape := not_shouldEscapeHost_of_isHostChar (h c mem_cons_self) hc
    unfold unescape
    split
    · contradiction
    · rename_i heq
      exact absurd (List.cons.inj heq).1 hc
    · rename_i heq
      exact absurd (List.cons.inj heq).1 hc
    · rename_i heq
      obtain ⟨rfl, rfl⟩ := List.cons.inj heq
      simp [hescape, ih (fun d hd => h d (mem_cons_of_mem c hd)) hp.2]

namespace Unescaped

variable {mode : Encoding} {s t : Str}

section
variable (h : Unescaped mode s t)
include h

theorem length_le : t.length ≤ s.length := by
  induction h with
  | nil => exact le_rfl
  | char _ _ ih => exact Nat.succ_le_succ ih
  | hex _ _ _ _ ih =>
    simp only [length_cons]
    omega

theorem length_lt (hp : '%' ∈ s) : t.length < s.length := by
  induction h with
  | nil => cases hp
  | char hc _ ih => exact Nat.succ_lt_succ (ih (mem_of_ne_of_mem hc.symm hp))
  | hex _ _ _ rest _ =>
    have := rest.length_le
    simp only [length_cons]
    omega

theorem eq_of_plain (hp : '%' ∉ s) : t = s := by
  induction h with
  | nil => rfl
  | char _ _ ih =>
    rw [mem_cons, not_or] at hp
    rw [ih hp.2]
  | hex => exact absurd mem_cons_self hp

end

theorem mem_host (h : Unescaped .host s t) {c : Char} (hc : c ∈ t) (hp : c ≠ '%') (ha : c.toNat < 128) : c ∈ s := by
  induction h with
  | nil => cases hc
  | char _ _ ih =>
    rcases mem_cons.1 hc with rfl | hc
    · exact mem_cons_self
    · exact mem_cons_of_mem _ (ih hc)
  | hex _ _ decoded _ ih =>
    rcases mem_cons.1 hc with rfl | hc
    · rcases decoded rfl with hb | hb
      · exact absurd hb hp
      · omega
    · exact mem_cons_of_mem _ (mem_cons_of_mem _ (mem_cons_of_mem _ (ih hc)))

/-- A colon is decoded by itself, because it is not a hexadecimal digit. -/
theorem append_colon {r : Str} (h : Unescaped mode (s ++ ':' :: r) t) :
    ∃ t₁ t₂, Unescaped mode s t₁ ∧ Unescaped mode r t₂ ∧ t = t₁ ++ ':' :: t₂ := by
  generalize hx : s ++ ':' :: r = x at h
  induction h generalizing s with
  | nil => simp at hx
  | @char c x t hc rest ih =>
    cases s with
    | nil =>
      obtain ⟨rfl, rfl⟩ := List.cons.inj hx
      exact ⟨[], t, .nil, rest, rfl⟩
    | cons d s =>
      obtain ⟨rfl, hrest⟩ := List.cons.inj hx
      obtain ⟨t₁, t₂, h₁, h₂, rfl⟩ := ih hrest
      exact ⟨d :: t₁, t₂, .char hc h₁, h₂, rfl⟩
  | @hex h l b x t high low decoded rest ih =>
    cases s with
    | nil => cases hx
    | cons d s =>
      cases s with
      | nil =>
        cases hx
        cases high
      | cons e s =>
        cases s with
        | nil =>
          cases hx
          cases low
        | cons f s =>
          simp only [cons_append, List.cons.injEq] at hx
          obtain ⟨rfl, rfl, rfl, hrest⟩ := hx
          obtain ⟨t₁, t₂, h₁, h₂, rfl⟩ := ih hrest
          exact ⟨b :: t₁, t₂, .hex high low decoded h₁, h₂, rfl⟩

end Unescaped

def zoneOf (s : Str) : Str := (cut s '%').2.getD []

theorem zoneOf_percent (s : Str) : zoneOf ('%' :: s) = s := by simp [zoneOf, cut]

theorem zoneOf_cons (hc : c ≠ '%') (s : Str) : zoneOf (c :: s) = zoneOf s := by
  by_cases hs : '%' ∈ s <;> simp [zoneOf, cut, hc, hc.symm, hs]

theorem zoneOf_append (h : '%' ∉ s) (z : Str) : zoneOf (s ++ '%' :: z) = z := by
  rw [zoneOf, cut_append h]
  rfl

theorem zoneOf_tail_le (c : Char) (s : Str) : (zoneOf (c :: s)).length ≤ s.length := by
  by_cases hc : c = '%'
  · rw [hc, zoneOf_percent]
  · rw [zoneOf_cons hc]
    cases s with
    | nil => exact le_rfl
    | cons d s => exact Nat.le_succ_of_le (zoneOf_tail_le d s)

/-- Decoding shortens the zone of a text that has a percent sign. -/
theorem Unescaped.zoneOf_lt (h : Unescaped mode s t) (hp : '%' ∈ s) : (zoneOf t).length < (zoneOf s).length := by
  induction h with
  | nil => cases hp
  | char hc _ ih =>
    rw [zoneOf_cons hc, zoneOf_cons hc]
    exact ih (mem_of_ne_of_mem hc.symm hp)
  | @hex h l b s t _ _ _ rest _ =>
    have hlen := rest.length_le
    have hzone := zoneOf_tail_le b t
    rw [zoneOf_percent]
    simp only [length_cons]
    omega

theorem Unescaped.zoneOf_append_lt {mode' : Encoding} {z w : Str} (h : Unescaped mode s t) (h' : Unescaped mode' z w)
    (hp : '%' ∈ s ++ z) : (zoneOf (t ++ w)).length < (zoneOf (s ++ z)).length := by
  induction h with
  | nil => exact h'.zoneOf_lt hp
  | char hc _ ih =>
    rw [cons_append, cons_append, zoneOf_cons hc, zoneOf_cons hc]
    exact ih (mem_of_ne_of_mem hc.symm hp)
  | @hex h l b s t _ _ _ rest _ =>
    have hlen := rest.length_le
    have hlen' := h'.length_le
    have hzone := zoneOf_tail_le b (t ++ w)
    rw [cons_append, cons_append, zoneOf_percent]
    simp only [length_append, length_cons] at hzone ⊢
    omega

theorem zoneOf_length_mono (h : s <+: t) : (zoneOf s).length ≤ (zoneOf t).length := by
  induction s generalizing t with
  | nil => exact Nat.zero_le _
  | cons c s ih =>
    obtain ⟨r, rfl⟩ := h
    by_cases hc : c = '%'
    · subst hc
      rw [cons_append, zoneOf_percent, zoneOf_percent, length_append]
      exact Nat.le_add_right _ _
    · rw [cons_append, zoneOf_cons hc, zoneOf_cons hc]
      exact ih (prefix_append s r)

theorem parseAddr_zone {b : BitVec 128} {zone : Str} (h : parseAddr s = some (.v6 b zone)) : zone = zoneOf s := by
  have h6 : parseIPv6 s = some (.v6 b zone) := by
    unfold parseAddr at h
    split at h
    · obtain ⟨n, -, hn⟩ := Option.map_eq_some_iff.1 h
      cases hn
    · exact h
    · cases h
  rw [parseIPv6_eq] at h6
  split at h6
  · cases h6
  · obtain ⟨fields, -, hfields⟩ := Option.map_eq_some_iff.1 h6
    cases hfields
    rfl

/-! ## The authority of a URL -/

def isControl (c : Char) : Bool := c.toNat < 0x20 || c.toNat == 0x7f

theorem getScheme_http (r : Str) : getScheme ("http://".toList ++ r) = some ("http".toList, "//".toList ++ r) := rfl

theorem cutQuery_slashes (r : Str) : cutQuery ("//".toList ++ r) = ("//".toList ++ (cutQuery r).1, (cutQuery r).2) := by
  simp [cutQuery, cut]

theorem parseUrl_http (r : Str) :
    parseUrl ("http://".toList ++ r) =
      if r.any isControl then none
      else
        match parseAuthorityPart ((cutQuery r).1.takeWhile (· != '/')),
          unescape .other ((cutQuery r).1.drop ((cutQuery r).1.takeWhile (· != '/')).length) with
        | some (user, host), some path =>
          some { scheme := "http".toList, rawQuery := (cutQuery r).2, user, host, path }
        | _, _ => none := by
  have hcontrol : ("http://".toList ++ r).any (fun c => c.toNat < 0x20 || c.toNat == 0x7f) = r.any isControl := rfl
  have hstar : ("http://".toList ++ r == ['*']) = false := rfl
  have hslash : hasPrefix ("//".toList ++ (cutQuery r).1) ['/'] := rfl
  have hslashes : hasPrefix ("//".toList ++ (cutQuery r).1) "//".toList := rfl
  unfold parseUrl
  rw [hcontrol, hstar, getScheme_http]
  simp only [cutQuery_slashes, hslash, hslashes, Bool.not_true, Bool.false_and, Bool.false_eq_true, if_false]
  rfl

/-- A text of host characters is all authority. -/
theorem urlParse_http {raw : Str} (h : ∀ c ∈ raw, isHostChar c) :
    urlParse ("http://".toList ++ raw) = (parseHost raw).map fun host => { scheme := "http".toList, host } := by
  have hdelim : ∀ c ∈ raw, isUrlDelimiter c = false := fun c hc => not_isUrlDelimiter_of_isHostChar (h c hc)
  have hnot : ∀ d, isUrlDelimiter d → d ∉ raw := fun d hd hmem => by
    rw [hdelim d hmem] at hd
    contradiction
  have hhash : '#' ∉ "http://".toList ++ raw := by
    intro hmem
    rcases mem_append.1 hmem with hmem | hmem
    · revert hmem
      decide
    · exact hnot '#' rfl hmem
  have hcontrol : raw.any isControl = false := by
    refine any_eq_false.2 fun c hc hcontrol => ?_
    have hd := hdelim c hc
    simp only [isControl, Bool.or_eq_true] at hcontrol
    rcases hcontrol with h' | h' <;> simp [isUrlDelimiter, h'] at hd
  have hquery : cutQuery raw = (raw, []) := by
    rw [cutQuery, cut_of_notMem (hnot '?' rfl)]
    rfl
  have htake : raw.takeWhile (· != '/') = raw := by
    have hcut := congrArg Prod.fst (cut_of_notMem (hnot '/' rfl))
    exact hcut
  have huser : cutLast raw '@' = none := by
    simp [cutLast, hnot '@' rfl]
  rw [urlParse, cut_of_notMem hhash]
  simp only [parseUrl_http, hcontrol, Bool.false_eq_true, if_false, hquery, htake, drop_length,
    parseAuthorityPart, huser, unescape]
  cases parseHost raw <;> rfl

/-- The host that `url.Parse` returns comes from an authority at the start of the text. -/
theorem parseUrl_http_eq_some {r : Str} {url : Url} (h : parseUrl ("http://".toList ++ r) = some url) :
    ∃ authority : Str, authority <+: r ∧ parseAuthorityPart authority = some (url.user, url.host) := by
  rw [parseUrl_http] at h
  refine ⟨(cutQuery r).1.takeWhile (· != '/'), (List.takeWhile_prefix _).trans (List.takeWhile_prefix _), ?_⟩
  split at h
  · cases h
  · split at h
    · rename_i hauthority _
      cases h
      exact hauthority
    · cases h

theorem urlParse_http_eq_some {raw : Str} {url : Url} (h : urlParse ("http://".toList ++ raw) = some url) :
    ∃ authority : Str, authority <+: raw ∧ parseAuthorityPart authority = some (url.user, url.host) := by
  have hfirst : (cut ("http://".toList ++ raw) '#').1 = "http://".toList ++ raw.takeWhile (· != '#') := rfl
  obtain ⟨url', hurl', hsame⟩ :
      ∃ url', parseUrl ("http://".toList ++ raw.takeWhile (· != '#')) = some url' ∧
        (url'.user, url'.host) = (url.user, url.host) := by
    rw [← hfirst]
    unfold urlParse at h
    split at h
    · rename_i heq
      rw [heq]
      exact ⟨url, h, rfl⟩
    · rename_i heq
      rw [heq]
      split at h
      · rename_i url' _ hparse _
        cases h
        exact ⟨url', hparse, rfl⟩
      · cases h
  obtain ⟨authority, hfront, hpart⟩ := parseUrl_http_eq_some hurl'
  exact ⟨authority, hfront.trans (List.takeWhile_prefix _), hsame ▸ hpart⟩

/-! ## Hosts -/

theorem cutLast_append {sep : Char} (s : Str) (h : sep ∉ t) : cutLast (s ++ sep :: t) sep = some (s, t) := by
  have hpos : ∀ c ∈ t.reverse, (c != sep) := fun c hc => by
    rw [bne_iff_ne]
    rintro rfl
    exact h (mem_reverse.1 hc)
  have hafter : ((s ++ sep :: t).reverse.takeWhile (· != sep)).reverse = t := by
    rw [reverse_append, reverse_cons, append_assoc, takeWhile_append_of_pos hpos]
    simp
  have hlen : (s ++ sep :: t).length - t.length - 1 = s.length := by
    simp only [length_append, length_cons]
    omega
  simp only [cutLast, hafter, hlen]
  simp

theorem exists_last {sep : Char} (h : sep ∈ s) : ∃ p t, s = p ++ sep :: t ∧ sep ∉ t := by
  obtain ⟨p, t, hs, hp⟩ := eq_append_cons_of_mem (mem_reverse.2 h)
  refine ⟨t.reverse, p.reverse, ?_, fun hmem => hp (mem_reverse.1 hmem)⟩
  rw [← reverse_reverse s, hs]
  simp

variable {host port name : Str}

theorem parseHost_bracket_head {x : Str} (h : parseHost x = some host) (hx : '[' ∈ x) : x.head? = some '[' := by
  obtain ⟨p, t, rfl, ht⟩ := exists_last hx
  have hmem : (p ++ '[' :: t).contains '[' := by simp
  rw [parseHost, if_pos hmem, cutLast_append p ht] at h
  cases p with
  | nil => rfl
  | cons c p => cases h

theorem parseHost_plain {x : Str} (h : parseHost x = some host) (hx : '[' ∉ x) : Unescaped .host x host := by
  have hmem : x.contains '[' = false := by simpa using hx
  rw [parseHost, hmem, if_neg Bool.false_ne_true] at h
  split at h
  · split at h
    · exact unescape_spec h
    · cases h
  · exact unescape_spec h

theorem cutZone_append (s : Str) : (cutZone s).1 ++ (cutZone s).2 = s := by
  fun_induction cutZone s with
  | case1 => rfl
  | case2 => rfl
  | case3 c rest h z heq ih =>
    simp_all

theorem cutZone_plain (h : '%' ∉ s) : cutZone s = (s, []) := by
  fun_induction cutZone s with
  | case1 => simp at h
  | case2 => rfl
  | case3 => simp_all

theorem parseHost_bracketed {inner : Str} (hport : ']' ∉ port)
    (h : parseHost ('[' :: inner ++ ']' :: port) = some host) :
    ∃ s z s' z' port', inner = s ++ z ∧ Unescaped .host s s' ∧ Unescaped .zone z z' ∧ Unescaped .host port port' ∧
      host = '[' :: (s' ++ z') ++ ']' :: port' := by
  have hmem : ('[' :: inner ++ ']' :: port).contains '[' := by simp
  obtain ⟨p, t, hsplit, ht⟩ := exists_last (contains_iff_mem.1 hmem)
  rw [parseHost, if_pos hmem, hsplit, cutLast_append p ht] at h
  cases p with
  | cons c p => cases h
  | nil =>
    obtain rfl : inner ++ ']' :: port = t := by simpa using hsplit
    simp only [cutLast_append inner hport] at h
    split at h
    · cases h
    · split at h
      · rename_i s' z' port' hs hz hp
        split at h
        · cases h
          exact ⟨_, _, s', z', port', (cutZone_append inner).symm, unescape_spec hs, unescape_spec hz, unescape_spec hp,
            rfl⟩
        · cases h
      · cases h

/-- A bracketed IPv6 literal without a zone stands for itself. -/
theorem parseHost_literal {inner : Str} {b : BitVec 128} {zone : Str} (hinner : ∀ c ∈ inner, isHostChar c)
    (hplain : '%' ∉ inner) (hopen : '[' ∉ inner) (haddr : parseAddr inner = some (.v6 b zone))
    (hport : port = [] ∨ ∃ digits, port = ':' :: digits ∧ digits.all isDigit) :
    parseHost ('[' :: inner ++ ']' :: port) = some ('[' :: inner ++ ']' :: port) := by
  have hchars : ∀ c ∈ port, isDigit c ∨ c = ':' := by
    rcases hport with rfl | ⟨digits, rfl, hdigits⟩
    · simp
    · exact forall_mem_cons.2 ⟨.inr rfl, fun c hc => .inl (all_eq_true.1 hdigits c hc)⟩
  have hnot : ∀ d, isDigit d = false → d ≠ ':' → d ∉ port := by
    intro d hd hne hmem
    rcases hchars d hmem with h | h
    · rw [hd] at h
      contradiction
    · exact hne h
  have hvalid : validOptionalPort port := by
    rcases hport with rfl | ⟨digits, rfl, hdigits⟩
    · rfl
    · exact hdigits
  have hmem : ('[' :: inner ++ ']' :: port).contains '[' := by simp
  have hrest : '[' ∉ inner ++ ']' :: port := by
    simp [hopen, hnot '[' rfl (by decide)]
  have hunescape : unescape .host port = some port := by
    refine unescape_plain (fun c hc => ?_) (hnot '%' rfl (by decide))
    rcases hchars c hc with h | rfl
    · exact isHostChar_of_isDigit h
    · rfl
  rw [parseHost, if_pos hmem, cons_append, ← nil_append ('[' :: _), cutLast_append [] hrest]
  simp only [cutLast_append inner (hnot ']' rfl (by decide)), hvalid, Bool.not_true, Bool.false_eq_true, if_false,
    cutZone_plain hplain, unescape_plain hinner hplain, unescape, hunescape, append_nil, haddr]
  rfl

/-- So does a name with host characters only, and with a port behind at most one colon. -/
theorem parseHost_name (hname : ∀ c ∈ name, isHostChar c) (hplain : '%' ∉ name)
    (hopen : '[' ∉ name) (hcolon : ':' ∉ name)
    (hport : port = [] ∨ ∃ digits, port = ':' :: digits ∧ digits.all isDigit) :
    parseHost (name ++ port) = some (name ++ port) := by
  rcases hport with rfl | ⟨digits, rfl, hdigits⟩
  · rw [append_nil]
    have hmem : name.contains '[' = false := by simpa using hopen
    rw [parseHost, hmem, if_neg Bool.false_ne_true, cut_of_notMem hcolon]
    exact unescape_plain hname hplain
  · have hdigit : ∀ c ∈ digits, isDigit c := all_eq_true.1 hdigits
    have hmem : (name ++ ':' :: digits).contains '[' = false := by
      simp only [contains_eq_mem, mem_append, mem_cons, decide_eq_false_iff_not, not_or]
      exact ⟨hopen, by decide, fun h => absurd (hdigit _ h) (by decide)⟩
    have hpos : ∀ c ∈ name, (c != ':') := fun c hc => by
      rw [bne_iff_ne]
      rintro rfl
      exact hcolon hc
    have hcut : cut (name ++ ':' :: digits) ':' = (name, some digits) := by
      simp [cut, takeWhile_append_of_pos hpos, dropWhile_append_of_pos hpos]
    rw [parseHost, hmem, if_neg Bool.false_ne_true, hcut]
    simp only [hdigits, if_true]
    refine unescape_plain (forall_mem_append.2 ⟨hname, forall_mem_cons.2 ⟨rfl, fun c hc =>
      isHostChar_of_isDigit (hdigit c hc)⟩⟩) fun hc => ?_
    rcases mem_append.1 hc with hc | hc
    · exact hplain hc
    · exact absurd (hdigit _ ((mem_cons.1 hc).resolve_left (by decide))) (by decide)

/-! ## Host and port -/

theorem hasPrefix_open {s : Str} (h : '[' ∉ s) : hasPrefix s ['['] = false := by
  cases s with
  | nil => rfl
  | cons c s =>
    rw [mem_cons, not_or] at h
    simp [hasPrefix, isPrefixOf, h.1]

theorem splitHostPort_bracket (inner : Str) : splitHostPort ('[' :: inner ++ [']']) = (inner, []) := by
  by_cases hcolon : ':' ∈ inner
  · obtain ⟨q, t, rfl, ht⟩ := exists_last hcolon
    -- What follows the last colon ends in the bracket, so it is no port.
    have hcut : cutLast ('[' :: (q ++ ':' :: t) ++ [']']) ':' = some ('[' :: q, t ++ [']']) := by
      have hlast := cutLast_append ('[' :: q) (show ':' ∉ t ++ [']'] by simp [ht])
      simpa using hlast
    have hdigits : (t ++ [']']).all isDigit = false := by
      simp only [all_append, Bool.and_eq_false_imp]
      exact fun _ => rfl
    unfold splitHostPort
    simp only [hcut, hdigits, Bool.false_eq_true, if_false]
    generalize q ++ ':' :: t = inner
    simp [hasPrefix, hasSuffix]
  · have hcut : cutLast ('[' :: inner ++ [']']) ':' = none := by simp [cutLast, hcolon]
    unfold splitHostPort
    simp only [hcut]
    simp [hasPrefix, hasSuffix]

theorem splitHostPort_bracket_port (inner : Str) {digits : Str} (h : digits.all isDigit) :
    splitHostPort ('[' :: inner ++ ']' :: ':' :: digits) = (inner, digits) := by
  have hcolon : ':' ∉ digits := fun hc => absurd (all_eq_true.1 h _ hc) (by decide)
  have hcut : cutLast ('[' :: inner ++ ']' :: ':' :: digits) ':' = some ('[' :: inner ++ [']'], digits) := by
    have := cutLast_append ('[' :: inner ++ [']']) hcolon
    rwa [append_assoc, singleton_append] at this
  unfold splitHostPort
  simp only [hcut, h, if_true]
  simp [hasPrefix, hasSuffix]

theorem splitHostPort_name (hcolon : ':' ∉ name) (hopen : '[' ∉ name) :
    splitHostPort name = (name, []) := by
  have hcut : cutLast name ':' = none := by simp [cutLast, hcolon]
  simp [splitHostPort, hcut, hasPrefix_open hopen]

theorem splitHostPort_name_port {digits : Str} (hopen : '[' ∉ name) (h : digits.all isDigit) :
    splitHostPort (name ++ ':' :: digits) = (name, digits) := by
  have hcolon : ':' ∉ digits := fun hc => absurd (all_eq_true.1 h _ hc) (by decide)
  simp [splitHostPort, cutLast_append name hcolon, h, hasPrefix_open hopen]

/-! ## UTF-8 of one character -/

/-- An ASCII byte is its own rune; any other rune comes from bytes that are not ASCII. -/
structure Chunk (chunk : Str) (r : Char) : Prop where
  nonempty : chunk ≠ []
  ascii : r.toNat < 0x80 → chunk = [r]
  wide : 0x80 ≤ r.toNat → ∀ b ∈ chunk, 0x80 ≤ b.toNat

theorem chunk_of_wide {chunk : Str} {r : Char} (hne : chunk ≠ []) (hr : 0x80 ≤ r.toNat)
    (hb : ∀ b ∈ chunk, 0x80 ≤ b.toNat) : Chunk chunk r :=
  ⟨hne, fun h => absurd h (by omega), fun _ => hb⟩

theorem byteChar_ofNat (h : n < 256) : (byteChar (UInt8.ofNat n).toNat).toNat = n := by
  rw [UInt8.toNat_ofNat_of_lt' h, byteChar_toNat h]

theorem chunk_utf8 (r : Char) : Chunk ((String.utf8EncodeChar r).map (fun b => byteChar b.toNat)) r := by
  have hr : r.val.toNat = r.toNat := rfl
  unfold String.utf8EncodeChar
  dsimp only
  rw [hr]
  split
  · have hone : byteChar (UInt8.ofNat r.toNat).toNat = r := Char.ext (UInt32.toNat_inj.1 (byteChar_ofNat (by omega)))
    simp only [map_cons, map_nil, hone]
    exact ⟨by simp, fun _ => rfl, fun h => absurd h (by omega)⟩
  -- Above ASCII every byte of the encoding has its top bit set.
  rename_i h0
  have wide : ∀ l : List Nat, l ≠ [] → (∀ n ∈ l, 0x80 ≤ n ∧ n < 256) →
      Chunk ((l.map UInt8.ofNat).map (fun b => byteChar b.toNat)) r := by
    intro l hne hl
    refine chunk_of_wide (by simpa using hne) (by omega) fun b hb => ?_
    simp only [map_map, mem_map, Function.comp_apply] at hb
    obtain ⟨n, hn, rfl⟩ := hb
    rw [byteChar_ofNat (hl n hn).2]
    exact (hl n hn).1
  split
  · exact wide [_, _] (by simp) (by simp; omega)
  split
  · exact wide [_, _, _] (by simp) (by simp; omega)
  · exact wide [_, _, _, _] (by simp) (by simp; omega)

theorem utf8Bytes_cons_ascii (hc : c.toNat < 0x80) (l : Str) : utf8Bytes (c :: l) = c :: utf8Bytes l := by
  rw [utf8Bytes, flatMap_cons, (chunk_utf8 c).ascii hc]
  rfl

end Silo.Go
