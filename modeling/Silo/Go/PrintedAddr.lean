import Mathlib.Tactic.IntervalCases
import Silo.Go.Netip
/-!
# Printed addresses

`netip.ParseAddr` reads back what `Addr.String` writes: four decimal octets, or eight
hexadecimal fields with the longest run of zeros left out, or the mixed form of an
IPv4-mapped address; and behind them the zone, if there is one.
-/

open List

namespace Silo.Go

/-! ## Numbers -/

theorem isDigit_eq (c : Char) : isDigit c = c.isDigit := by
  simp [isDigit, Char.isDigit, Char.le_def]

variable {c : Char} {n : Nat}

theorem isDigit_of_mem_itoa (h : c ∈ itoa n) : isDigit c := by
  rw [isDigit_eq]
  exact Nat.isDigit_of_mem_toDigits (by decide) (by decide) h

theorem parseDecimal_itoa (n : Nat) : parseDecimal (itoa n) = some n := by
  have hall : (itoa n).all isDigit := all_eq_true.2 fun c hc => isDigit_of_mem_itoa hc
  have hne : (itoa n).isEmpty = false := isEmpty_eq_false_iff.2 Nat.toDigits_ne_nil
  have hval : (itoa n).foldl (fun acc c => acc * 10 + (c.toNat - '0'.toNat)) 0 = n := by
    simp only [Nat.mul_comm _ 10]
    exact Nat.ofDigitChars_toDigits (by decide) (by decide)
  rw [parseDecimal, hall, hne, hval]
  rfl

/-- A number has no leading zero unless it is zero. -/
theorem head?_itoa (h : 0 < n) : (itoa n).head? ≠ some '0' := by
  induction n using Nat.strong_induction_on with
  | _ n ih =>
    rw [itoa, Nat.toDigits_eq_if (by decide)]
    split
    · interval_cases n <;> simp [Nat.digitChar]
    · rw [head?_append_of_ne_nil _ Nat.toDigits_ne_nil]
      exact ih (n / 10) (by omega) (by omega)

theorem parseOctet_itoa (h : n ≤ 255) : parseOctet (itoa n) = some n := by
  have hhead : (itoa n).length = 1 ∨ (itoa n).head? ≠ some '0' := by
    rcases Nat.eq_zero_or_pos n with rfl | hpos
    · exact .inl rfl
    · exact .inr (head?_itoa hpos)
  rw [parseOctet, parseDecimal_itoa]
  simpa [h, Classical.or_iff_not_imp_left] using hhead

theorem hexValue_digitChar {d : Nat} (h : d < 16) : hexValue (Nat.digitChar d) = some d := by
  interval_cases d <;> rfl

theorem hexDigits_toDigits (n : Nat) :
    ∃ digits, (Nat.toDigits 16 n).mapM hexValue = some digits ∧ digits.foldl (fun acc d => acc * 16 + d) 0 = n := by
  induction n using Nat.strong_induction_on with
  | _ n ih =>
    rw [Nat.toDigits_eq_if (by decide)]
    split
    · rename_i h
      exact ⟨[n], by simp [hexValue_digitChar h], by simp⟩
    · obtain ⟨digits, hd, hv⟩ := ih (n / 16) (by omega)
      refine ⟨digits ++ [n % 16], ?_, ?_⟩
      · simp [mapM_append, hd, hexValue_digitChar (Nat.mod_lt n (by decide))]
      · rw [foldl_append, hv]
        simp only [foldl_cons, foldl_nil]
        omega

def isHexChar (c : Char) : Bool := (hexValue c).isSome

def isLowerHex (c : Char) : Bool := isDigit c || ('a' ≤ c && c ≤ 'f')

theorem isHexChar_of_isLowerHex (h : isLowerHex c) : isHexChar c := by
  simp only [isLowerHex, Bool.or_eq_true] at h
  unfold isHexChar hexValue
  rcases h with h | h
  · rw [if_pos h]
    rfl
  · rw [if_pos h]
    split <;> rfl

theorem isLowerHex_of_mem_toDigits (h : c ∈ Nat.toDigits 16 n) : isLowerHex c := by
  have hdigit : ∀ d < 16, isLowerHex (Nat.digitChar d) := by
    intro d hd
    interval_cases d <;> rfl
  induction n using Nat.strong_induction_on with
  | _ n ih =>
    rw [Nat.toDigits_eq_if (by decide)] at h
    split at h
    · rename_i hn
      rw [mem_singleton.1 h]
      exact hdigit n hn
    · rcases mem_append.1 h with h | h
      · exact ih (n / 16) (by omega) h
      · rw [mem_singleton.1 h]
        exact hdigit _ (Nat.mod_lt n (by decide))

theorem isHexChar_of_mem_toDigits (h : c ∈ Nat.toDigits 16 n) : isHexChar c :=
  isHexChar_of_isLowerHex (isLowerHex_of_mem_toDigits h)

theorem isHexChar_of_isDigit (h : isDigit c) : isHexChar c := by
  simp [isHexChar, hexValue, h]

theorem parseHexField_toDigits (h : n < 65536) : parseHexField (Nat.toDigits 16 n) = some n := by
  obtain ⟨digits, hd, hv⟩ := hexDigits_toDigits n
  have hlen : (Nat.toDigits 16 n).length ≤ 4 := (Nat.length_toDigits_le_iff (by decide) (by decide)).2 h
  have hne : (Nat.toDigits 16 n).isEmpty = false := isEmpty_eq_false_iff.2 Nat.toDigits_ne_nil
  simp [parseHexField, hne, hlen, hd, hv]

/-! ## Dotted quads -/

variable {s : Str}

theorem split_ne_nil (sep : Char) (s : Str) : split sep s ≠ [] := by
  cases s with
  | nil => simp [split]
  | cons c s =>
    rw [split]
    split
    · simp
    · split <;> simp

theorem split_append (sep : Char) (s t : Str) : split sep (s ++ sep :: t) = split sep s ++ split sep t := by
  induction s with
  | nil => simp [split]
  | cons c s ih =>
    rw [cons_append, split, split, ih]
    split
    · rfl
    · obtain ⟨f, fs, hs⟩ := exists_cons_of_ne_nil (split_ne_nil sep s)
      simp [hs]

theorem split_of_notMem {sep : Char} (h : sep ∉ s) : split sep s = [s] := by
  induction s with
  | nil => rfl
  | cons c s ih =>
    rw [mem_cons, not_or] at h
    have hc : (c == sep) = false := by simpa using fun e => h.1 e.symm
    simp [split, hc, ih h.2]

theorem dot_notMem_itoa (n : Nat) : '.' ∉ itoa n := fun h => absurd (isDigit_of_mem_itoa h) (by decide)

theorem split_string4 (b : BitVec 32) :
    split '.' (string4 b) = (List.range 4).map fun i => itoa ((b >>> (24 - 8 * i)).toNat % 256) := by
  have hone : ∀ n, split '.' (itoa n) = [itoa n] := fun n => split_of_notMem (dot_notMem_itoa n)
  simp only [string4, append_assoc, cons_append, split_append, hone]
  rfl

theorem parseIPv4Fields_string4 (b : BitVec 32) : parseIPv4Fields (string4 b) = some b.toNat := by
  have hlt := b.isLt
  rw [parseIPv4Fields, split_string4]
  have hoctet : ∀ x, parseOctet (itoa (x % 256)) = some (x % 256) := fun x => parseOctet_itoa (by omega)
  simp only [range_succ, range_zero, nil_append, cons_append, map_cons, map_nil,
    mapM_cons, mapM_nil, hoctet, BitVec.toNat_ushiftRight, Nat.shiftRight_eq_div_pow]
  simp only [Option.pure_def, Option.bind_eq_bind, Option.bind_some, length_cons, length_nil, if_true,
    foldl_cons, foldl_nil, Nat.reduceAdd]
  congr 1
  omega

theorem mem_string4 {b : BitVec 32} (h : c ∈ string4 b) : isDigit c ∨ c = '.' := by
  simp only [string4, append_assoc, mem_append, mem_cons, cons_append] at h
  rcases h with h | rfl | h | rfl | h | rfl | h
  · exact .inl (isDigit_of_mem_itoa h)
  · exact .inr rfl
  · exact .inl (isDigit_of_mem_itoa h)
  · exact .inr rfl
  · exact .inl (isDigit_of_mem_itoa h)
  · exact .inr rfl
  · exact .inl (isDigit_of_mem_itoa h)

/-! ## Hexadecimal fields -/

theorem takeWhile_hex {s rest : Str} (hs : ∀ c ∈ s, isHexChar c)
    (hrest : ∀ c ∈ rest.head?, isHexChar c = false) :
    (s ++ rest).takeWhile (fun c => (hexValue c).isSome) = s := by
  rw [takeWhile_append_of_pos (p := fun c => (hexValue c).isSome) hs]
  cases rest with
  | nil => simp
  | cons c rest =>
    have hc : (hexValue c).isSome = false := hrest c rfl
    simp [hc]

/-- What follows a field in the loop, after the field has been stored. -/
def afterField (fuel : Nat) (st : IPv6Fields) : Str → Option (Str × IPv6Fields)
  | [] => some ([], st)
  | ':' :: ':' :: rest =>
    if st.ellipsis.isSome then none
    else
      let st := { st with ellipsis := some st.fields.length }
      if rest.isEmpty then some ([], st) else parseIPv6Loop fuel rest st
  | ':' :: rest => if rest.isEmpty then none else parseIPv6Loop fuel rest st
  | _ => none

theorem afterField_colon (fuel : Nat) (st : IPv6Fields) {rest : Str} (hc : rest.head? = some c)
    (hne : c ≠ ':') : afterField fuel st (':' :: rest) = parseIPv6Loop fuel rest st := by
  cases rest with
  | nil => cases hc
  | cons d rest =>
    cases hc
    unfold afterField
    split
    · contradiction
    · rename_i heq
      exact absurd (List.cons.inj (List.cons.inj heq).2).1 hne
    · rename_i heq
      rw [← (List.cons.inj heq).2]
      rfl
    · rename_i hnot
      exact absurd rfl (hnot _)

theorem parseIPv6Loop_field (fuel : Nat) (h : n < 65536) (rest : Str) (st : IPv6Fields)
    (hrest : ∀ c ∈ rest.head?, c = ':') :
    parseIPv6Loop (fuel + 1) (Nat.toDigits 16 n ++ rest) st =
      afterField fuel { st with fields := st.fields ++ [n] } rest := by
  have hdigits : (Nat.toDigits 16 n ++ rest).takeWhile (fun c => (hexValue c).isSome) = Nat.toDigits 16 n := by
    refine takeWhile_hex (fun c hc => isHexChar_of_mem_toDigits hc) fun c hc => ?_
    rw [hrest c hc]
    rfl
  have hlen : ¬ 4 < (Nat.toDigits 16 n).length :=
    not_lt.2 ((Nat.length_toDigits_le_iff (by decide) (by decide)).2 h)
  have hne : (Nat.toDigits 16 n).isEmpty = false := isEmpty_eq_false_iff.2 Nat.toDigits_ne_nil
  have hdot : (rest.head? == some '.') = false := by
    rw [beq_eq_false_iff_ne]
    intro hd
    cases hrest '.' hd
  rw [parseIPv6Loop]
  simp only [hdigits, drop_left, hne, Bool.false_or, decide_eq_true_eq, gt_iff_lt, hlen, if_false, hdot,
    Bool.false_eq_true, parseHexField_toDigits h]
  rfl

@[simp] theorem joinColon_nil : joinColon [] = [] := rfl

@[simp] theorem joinColon_singleton (n : Nat) : joinColon [n] = Nat.toDigits 16 n := by simp [joinColon]

@[simp] theorem joinColon_cons_cons (n m : Nat) (l : List Nat) :
    joinColon (n :: m :: l) = Nat.toDigits 16 n ++ ':' :: joinColon (m :: l) := by
  simp [joinColon, intercalate]

variable {l : List Nat}

theorem mem_joinColon (h : c ∈ joinColon l) : isLowerHex c ∨ c = ':' := by
  induction l with
  | nil => cases h
  | cons n l ih =>
    cases l with
    | nil => exact .inl (isLowerHex_of_mem_toDigits (joinColon_singleton n ▸ h))
    | cons m l =>
      rw [joinColon_cons_cons] at h
      rcases mem_append.1 h with h | h
      · exact .inl (isLowerHex_of_mem_toDigits h)
      · rcases mem_cons.1 h with rfl | h
        · exact .inr rfl
        · exact ih h

theorem head?_joinColon (rest : Str) :
    ∃ c, (joinColon (n :: l) ++ rest).head? = some c ∧ isHexChar c := by
  obtain ⟨c, s, hs⟩ := exists_cons_of_ne_nil (Nat.toDigits_ne_nil (n := n) (b := 16))
  refine ⟨c, ?_, isHexChar_of_mem_toDigits (n := n) (hs ▸ mem_cons_self)⟩
  cases l <;> simp [hs]

theorem isEmpty_joinColon (n : Nat) (l : List Nat) : (joinColon (n :: l)).isEmpty = false := by
  rw [isEmpty_eq_false_iff]
  cases l <;> simp

/-- The loop past fields that are followed by a colon each. -/
theorem parseIPv6Loop_fields (hl : l ≠ []) (h : ∀ n ∈ l, n < 65536) (fuel : Nat) (rest : Str)
    (st : IPv6Fields) (hrest : ∀ c ∈ rest.head?, c = ':') :
    parseIPv6Loop (fuel + l.length) (joinColon l ++ rest) st =
      afterField fuel { st with fields := st.fields ++ l } rest := by
  induction l generalizing st with
  | nil => contradiction
  | cons n l ih =>
    have hn := h n mem_cons_self
    cases l with
    | nil =>
      rw [joinColon_singleton]
      exact parseIPv6Loop_field fuel hn rest st hrest
    | cons m l =>
      obtain ⟨c, hc, hhex⟩ := head?_joinColon (n := m) (l := l) rest
      have hne : c ≠ ':' := by
        rintro rfl
        cases hhex
      rw [joinColon_cons_cons, append_assoc, cons_append, length_cons, ← Nat.add_assoc]
      rw [parseIPv6Loop_field _ hn _ st (by simp), afterField_colon _ _ hc hne,
        ih (by simp) (fun k hk => h k (mem_cons_of_mem n hk))]
      simp [append_assoc]

/-! ## The run of zeros -/

theorem eq_zeroRun_append (l : List Nat) : l = List.replicate (zeroRun l) 0 ++ l.drop (zeroRun l) := by
  induction l with
  | nil => rfl
  | cons n l ih =>
    by_cases hn : n = 0
    · have hrun : zeroRun (n :: l) = zeroRun l + 1 := by simp [zeroRun, hn]
      rw [hrun, replicate_succ, drop_succ_cons, cons_append, ← ih, hn]
    · have hrun : zeroRun (n :: l) = 0 := by simp [zeroRun, hn]
      rw [hrun]
      rfl

/-- The run is cut out of zeros only, and is at least two long. -/
theorem longestZeroRun_spec {s e : Nat} (h : longestZeroRun l = some (s, e)) :
    2 ≤ e - s ∧ l = l.take s ++ List.replicate (e - s) 0 ++ l.drop e := by
  refine foldlRecOn (motive := fun best : Option (Nat × Nat) => ∀ r ∈ best,
    2 ≤ r.2 - r.1 ∧ l = l.take r.1 ++ replicate (r.2 - r.1) 0 ++ l.drop r.2) _ _ (by simp) ?_ (s, e) h
  intro best hbest i _
  dsimp only
  split_ifs with hlong
  · rintro r ⟨⟩
    simp only [Bool.and_eq_true, decide_eq_true_eq] at hlong
    simp only [Nat.add_sub_cancel_left]
    refine ⟨hlong.1, ?_⟩
    rw [append_assoc, ← drop_drop, ← eq_zeroRun_append, take_append_drop]
  · exact hbest

/-! ## Whole addresses -/

def fields16 (b : BitVec 128) : List Nat := (List.range 8).map (field16 b)

variable (b : BitVec 128)

theorem length_fields16 : (fields16 b).length = 8 := by simp [fields16]

theorem fields16_lt {b : BitVec 128} (h : n ∈ fields16 b) : n < 65536 := by
  obtain ⟨i, -, rfl⟩ := mem_map.1 h
  exact Nat.mod_lt _ (by decide)

theorem foldl_fields16 :
    BitVec.ofNat 128 ((fields16 b).foldl (fun acc f => acc * 65536 + f) 0) = b := by
  apply BitVec.eq_of_toNat_eq
  have hlt := b.isLt
  simp only [fields16, field16, range_succ, range_zero, nil_append, cons_append, map_cons,
    map_nil, foldl_cons, foldl_nil, BitVec.toNat_ushiftRight, Nat.shiftRight_eq_div_pow,
    BitVec.toNat_ofNat]
  omega

/-- The fields that `parseIPv6` reads before the zone. -/
def ipv6Fields (s : Str) : Option (List Nat) :=
  if hasPrefix s "::".toList then
    if (s.drop 2).isEmpty then some []
    else (parseIPv6Loop 8 (s.drop 2) { ellipsis := some 0 }).bind fun r => if r.1.isEmpty then expandEllipsis r.2 else none
  else (parseIPv6Loop 8 s {}).bind fun r => if r.1.isEmpty then expandEllipsis r.2 else none

theorem parseIPv6_eq (input : Str) :
    parseIPv6 input =
      if (cut input '%').2 = some [] then none
      else
        (ipv6Fields (cut input '%').1).map fun fields =>
          .v6 (BitVec.ofNat 128 (fields.foldl (fun acc f => acc * 65536 + f) 0)) ((cut input '%').2.getD []) := by
  unfold parseIPv6
  obtain ⟨s, zone⟩ := cut input '%'
  simp only [Option.bind_eq_bind, beq_iff_eq, ipv6Fields]
  refine if_congr Iff.rfl rfl ?_
  split
  · split
    · rfl
    · cases parseIPv6Loop 8 (s.drop 2) { ellipsis := some 0 } with
      | none => rfl
      | some r =>
        simp only [Option.bind_some]
        split <;> rfl
  · cases parseIPv6Loop 8 s {} with
    | none => rfl
    | some r =>
      simp only [Option.bind_some]
      split <;> rfl

/-- The `::` stands for as many zeros as are missing. -/
theorem expandEllipsis_append (xs ys : List Nat) (h : xs.length + ys.length < 8) :
    expandEllipsis { fields := xs ++ ys, ellipsis := some xs.length } =
      some (xs ++ replicate (8 - (xs.length + ys.length)) 0 ++ ys) := by
  simp [expandEllipsis, h]

theorem hasPrefix_colons_of_hex (hc : s.head? = some c) (hhex : isHexChar c) :
    hasPrefix s "::".toList = false := by
  cases s with
  | nil => cases hc
  | cons d s =>
    cases hc
    have : c ≠ ':' := by
      rintro rfl
      cases hhex
    simp [hasPrefix, isPrefixOf, this.symm]

theorem parseIPv6Loop_last (hl : l ≠ []) (h : ∀ n ∈ l, n < 65536) {fuel : Nat} (hfuel : l.length ≤ fuel)
    (st : IPv6Fields) :
    parseIPv6Loop fuel (joinColon l) st = some ([], { st with fields := st.fields ++ l }) := by
  have hloop := parseIPv6Loop_fields hl h (fuel - l.length) [] st (by simp)
  rw [Nat.sub_add_cancel hfuel, append_nil] at hloop
  exact hloop

theorem ipv6Fields_joinColon (hlen : l.length = 8) (h : ∀ n ∈ l, n < 65536) :
    ipv6Fields (joinColon l) = some l := by
  obtain ⟨n, l', rfl⟩ := exists_cons_of_length_eq_add_one hlen
  obtain ⟨c, hc, hhex⟩ := head?_joinColon (n := n) (l := l') []
  rw [append_nil] at hc
  rw [ipv6Fields, hasPrefix_colons_of_hex hc hhex, if_neg Bool.false_ne_true,
    parseIPv6Loop_last (cons_ne_nil n l') h (le_of_eq hlen)]
  simp [expandEllipsis, hlen]

theorem ipv6Fields_gap (xs ys : List Nat) (hlen : xs.length + ys.length < 8) (hx : ∀ n ∈ xs, n < 65536)
    (hy : ∀ n ∈ ys, n < 65536) :
    ∃ fields, ipv6Fields (joinColon xs ++ "::".toList ++ joinColon ys) = some fields ∧
      fields.foldl (fun acc f => acc * 65536 + f) 0 =
        (xs ++ List.replicate (8 - (xs.length + ys.length)) 0 ++ ys).foldl (fun acc f => acc * 65536 + f) 0 := by
  cases xs with
  | nil =>
    have hprefix : hasPrefix ("::".toList ++ joinColon ys) "::".toList := by simp [hasPrefix]
    have hdrop : ("::".toList ++ joinColon ys).drop 2 = joinColon ys := rfl
    simp only [joinColon_nil, nil_append, ipv6Fields, hprefix, if_true, hdrop, length_nil, Nat.zero_add]
    cases ys with
    | nil => exact ⟨[], rfl, by decide⟩
    | cons n ys =>
      rw [length_nil, Nat.zero_add] at hlen
      rw [isEmpty_joinColon, if_neg Bool.false_ne_true, parseIPv6Loop_last (cons_ne_nil n ys) hy hlen.le]
      have hexp := expandEllipsis_append [] (n :: ys) (by simpa using hlen)
      simp only [nil_append, length_nil, Nat.zero_add] at hexp
      exact ⟨_, hexp, rfl⟩
  | cons m xs =>
    obtain ⟨c, hc, hhex⟩ := head?_joinColon (n := m) (l := xs) ("::".toList ++ joinColon ys)
    have hloop := parseIPv6Loop_fields (cons_ne_nil m xs) hx (8 - (m :: xs).length)
      ("::".toList ++ joinColon ys) {} (by simp)
    rw [Nat.sub_add_cancel (by omega)] at hloop
    refine ⟨_, ?_, rfl⟩
    rw [← append_assoc] at hc hloop
    rw [ipv6Fields, hasPrefix_colons_of_hex hc hhex, if_neg Bool.false_ne_true, hloop]
    have hafter : afterField (8 - (m :: xs).length) { fields := m :: xs } ("::".toList ++ joinColon ys) =
        some ([], { fields := m :: xs ++ ys, ellipsis := some (m :: xs).length }) := by
      cases ys with
      | nil => simp [afterField]
      | cons n ys =>
        have hlast := parseIPv6Loop_last (cons_ne_nil n ys) hy
          (show (n :: ys).length ≤ 8 - (m :: xs).length by omega)
          { fields := m :: xs, ellipsis := some (m :: xs).length }
        change (if (joinColon (n :: ys)).isEmpty then _ else parseIPv6Loop _ (joinColon (n :: ys)) _) = _
        rw [isEmpty_joinColon, if_neg Bool.false_ne_true]
        exact hlast
    rw [nil_append, hafter]
    exact expandEllipsis_append _ _ hlen

theorem string6_eq : string6 b = match longestZeroRun (fields16 b) with
    | none => joinColon (fields16 b)
    | some (s, e) => joinColon ((fields16 b).take s) ++ "::".toList ++ joinColon ((fields16 b).drop e) := rfl

theorem ipv6Fields_string6 :
    ∃ fields, ipv6Fields (string6 b) = some fields ∧
      BitVec.ofNat 128 (fields.foldl (fun acc f => acc * 65536 + f) 0) = b := by
  have hlen := length_fields16 b
  have hlt : ∀ n ∈ fields16 b, n < 65536 := fun n hn => fields16_lt hn
  have hval := foldl_fields16 b
  rw [string6_eq]
  cases hrun : longestZeroRun (fields16 b) with
  | none => exact ⟨fields16 b, ipv6Fields_joinColon hlen hlt, hval⟩
  | some r =>
    obtain ⟨s, e⟩ := r
    obtain ⟨htwo, hsplit⟩ := longestZeroRun_spec hrun
    generalize fields16 b = l at hsplit hlen hlt hval ⊢
    have hsum : (l.take s).length + (e - s) + (l.drop e).length = 8 := by
      rw [← hlen]
      conv_rhs => rw [hsplit]
      simp only [length_append, length_replicate]
    obtain ⟨fields, hfields, hvalue⟩ := ipv6Fields_gap (l.take s) (l.drop e) (by omega)
      (fun n hn => hlt n (mem_of_mem_take hn)) (fun n hn => hlt n (mem_of_mem_drop hn))
    have hgap : 8 - ((l.take s).length + (l.drop e).length) = e - s := by omega
    rw [hgap, ← hsplit] at hvalue
    exact ⟨fields, hfields, by rw [hvalue]; exact hval⟩

theorem ipv6Fields_mapped (b : BitVec 32) :
    ipv6Fields ("::ffff:".toList ++ string4 b) = some [0, 0, 0, 0, 0, 65535, b.toNat / 65536, b.toNat % 65536] := by
  have hfour := parseIPv4Fields_string4 b
  have hquad : ∃ n rest, n < 256 ∧ string4 b = itoa n ++ '.' :: rest :=
    ⟨_, _, Nat.mod_lt _ (by decide), by simp only [string4, append_assoc, cons_append]; rfl⟩
  obtain ⟨n, rest, hn, hs⟩ := hquad
  have hne : (string4 b).isEmpty = false := by
    rw [hs, isEmpty_eq_false_iff]
    simp
  have hloop : parseIPv6Loop 7 (string4 b) { fields := [65535], ellipsis := some 0 } =
      some ([], { fields := [65535, b.toNat / 65536, b.toNat % 65536], ellipsis := some 0 }) := by
    have hdigits : (string4 b).takeWhile (fun c => (hexValue c).isSome) = itoa n := by
      rw [hs]
      exact takeWhile_hex (fun c hc => isHexChar_of_isDigit (isDigit_of_mem_itoa hc)) (by simp; rfl)
    have hlen : ¬ 4 < (itoa n).length := by
      have : (itoa n).length ≤ 3 := (Nat.length_toDigits_le_iff (by decide) (by decide)).2 (by omega)
      omega
    have hne' : (itoa n).isEmpty = false := isEmpty_eq_false_iff.2 Nat.toDigits_ne_nil
    have hrest : (string4 b).drop (itoa n).length = '.' :: rest := by rw [hs, drop_left]
    rw [parseIPv6Loop]
    simp [hdigits, hrest, hlen, hne', hfour]
  have hfirst := parseIPv6Loop_field 7 (n := 65535) (by decide) (':' :: string4 b) { ellipsis := some 0 } (by simp)
  obtain ⟨c, s, hcs⟩ := exists_cons_of_ne_nil (isEmpty_eq_false_iff.1 hne)
  have hcolon : c ≠ ':' := by
    rintro rfl
    rcases mem_string4 (hcs ▸ mem_cons_self) with h | h <;> cases h
  rw [afterField_colon 7 _ (c := c) (by rw [hcs]; rfl) hcolon] at hfirst
  change (Option.bind (parseIPv6Loop 8 ("ffff".toList ++ ':' :: string4 b) { ellipsis := some 0 }) _) = _
  rw [show "ffff".toList = Nat.toDigits 16 65535 from rfl, hfirst]
  simp only [nil_append, hloop]
  rfl

/-! ## Addresses and zones -/

theorem parseIPv6_zone {b : BitVec 128} {fields : List Nat} (hs : '%' ∉ s) (hfields : ipv6Fields s = some fields)
    (hval : BitVec.ofNat 128 (fields.foldl (fun acc f => acc * 65536 + f) 0) = b) (zone : Str) :
    parseIPv6 (s ++ if zone.isEmpty then [] else '%' :: zone) = some (.v6 b zone) := by
  cases zone with
  | nil =>
    have hcut := cut_of_notMem hs
    rw [isEmpty_nil, if_pos rfl, append_nil, parseIPv6_eq, hcut, if_neg (by simp), hfields, Option.map_some, hval]
    rfl
  | cons c zone =>
    have hcut := cut_append hs (c :: zone)
    rw [isEmpty_cons, if_neg Bool.false_ne_true, parseIPv6_eq, hcut, if_neg (by simp), hfields, Option.map_some, hval]
    rfl

theorem find?_hex_append {s rest : Str} (hs : ∀ d ∈ s, isHexChar d)
    (hc : (c == '.' || c == ':' || c == '%')) :
    (s ++ c :: rest).find? (fun c => c == '.' || c == ':' || c == '%') = some c := by
  have hnone : s.find? (fun c => c == '.' || c == ':' || c == '%') = none := by
    refine find?_eq_none.2 fun d hd hd' => ?_
    have hhex := hs d hd
    simp only [Bool.or_eq_true, beq_iff_eq] at hd'
    rcases hd' with (rfl | rfl) | rfl <;> cases hhex
  rw [find?_append, hnone, Option.none_or, find?_cons, hc]

/-- The first separator of a printed IPv6 address is a colon. -/
theorem string6_shape :
    (∀ c ∈ string6 b, isLowerHex c ∨ c = ':') ∧
      ∃ s rest, string6 b = s ++ ':' :: rest ∧ ∀ c ∈ s, isHexChar c := by
  have hlong : ∀ n m l rest, ∃ s rest', joinColon (n :: m :: l) ++ rest = s ++ ':' :: rest' ∧
      ∀ c ∈ s, isHexChar c := by
    intro n m l rest
    refine ⟨Nat.toDigits 16 n, joinColon (m :: l) ++ rest, by simp, fun c hc => isHexChar_of_mem_toDigits hc⟩
  rw [string6_eq]
  cases longestZeroRun (fields16 b) with
  | none =>
    refine ⟨fun c hc => mem_joinColon hc, ?_⟩
    obtain ⟨n, l, hl⟩ := exists_cons_of_length_eq_add_one (length_fields16 b)
    obtain ⟨m, l', rfl⟩ := exists_cons_of_length_eq_add_one (show l.length = 7 by
      have := length_fields16 b
      rw [hl, length_cons] at this
      omega)
    have := hlong n m l' []
    rw [append_nil, ← hl] at this
    exact this
  | some r =>
    refine ⟨forall_mem_append.2 ⟨forall_mem_append.2 ⟨fun _ => mem_joinColon, by simp⟩, fun _ => mem_joinColon⟩, ?_⟩
    dsimp only
    rw [append_assoc]
    cases (fields16 b).take r.1 with
    | nil => exact ⟨[], _, rfl, by simp⟩
    | cons n l =>
      cases l with
      | nil => exact ⟨Nat.toDigits 16 n, _, by rw [joinColon_singleton]; rfl, fun c hc => isHexChar_of_mem_toDigits hc⟩
      | cons m l => exact hlong n m l _

def literal6 (b : BitVec 128) : Str :=
  if b >>> 32 = 0xffff#128 then "::ffff:".toList ++ string4 (b.setWidth 32) else string6 b

theorem string_v6 (zone : Str) :
    (Addr.v6 b zone).string = literal6 b ++ if zone.isEmpty then [] else '%' :: zone := by
  unfold Addr.string literal6
  dsimp only
  split <;> rfl

theorem mem_literal6 {b : BitVec 128} (h : c ∈ literal6 b) : isLowerHex c ∨ c = ':' ∨ c = '.' := by
  unfold literal6 at h
  split at h
  · rcases mem_append.1 h with h | h
    · have hall : ∀ d ∈ "::ffff:".toList, isLowerHex d ∨ d = ':' := by simp; decide
      exact (hall c h).imp_right .inl
    · rcases mem_string4 h with h | h
      · exact .inl (by simp [isLowerHex, h])
      · exact .inr (.inr h)
  · exact ((string6_shape b).1 c h).imp_right .inl

theorem percent_notMem_literal6 : '%' ∉ literal6 b := by
  intro h
  rcases mem_literal6 h with h | h | h <;> cases h

theorem literal6_colon : ∃ s rest, literal6 b = s ++ ':' :: rest ∧ ∀ c ∈ s, isHexChar c := by
  unfold literal6
  split
  · exact ⟨[], _, rfl, by simp⟩
  · exact (string6_shape b).2

theorem ipv6Fields_literal6 :
    ∃ fields, ipv6Fields (literal6 b) = some fields ∧
      BitVec.ofNat 128 (fields.foldl (fun acc f => acc * 65536 + f) 0) = b := by
  unfold literal6
  split
  · rename_i hmapped
    refine ⟨_, ipv6Fields_mapped _, ?_⟩
    have htop := congrArg BitVec.toNat hmapped
    apply BitVec.eq_of_toNat_eq
    have hlt := b.isLt
    simp only [BitVec.toNat_ushiftRight, Nat.shiftRight_eq_div_pow, BitVec.toNat_ofNat] at htop
    simp only [foldl_cons, foldl_nil, BitVec.toNat_setWidth, BitVec.toNat_ofNat]
    omega
  · exact ipv6Fields_string6 b

theorem parseAddr_string (a : Addr) : parseAddr a.string = some a := by
  cases a with
  | v4 b =>
    have hshape : ∃ s rest, string4 b = s ++ '.' :: rest ∧ ∀ c ∈ s, isHexChar c :=
      ⟨_, _, by simp only [string4, append_assoc, cons_append]; rfl,
        fun c hc => isHexChar_of_isDigit (isDigit_of_mem_itoa hc)⟩
    obtain ⟨s, rest, hs, hhex⟩ := hshape
    have hfind : (string4 b).find? (fun c => c == '.' || c == ':' || c == '%') = some '.' := by
      rw [hs]
      exact find?_hex_append hhex rfl
    rw [Addr.string, parseAddr, hfind]
    simp [parseIPv4Fields_string4]
  | v6 b zone =>
    obtain ⟨t, rest, ht, hhex⟩ := literal6_colon b
    obtain ⟨fields, hfields, hval⟩ := ipv6Fields_literal6 b
    rw [string_v6, ← parseIPv6_zone (percent_notMem_literal6 b) hfields hval zone, ht, append_assoc,
      cons_append, parseAddr, find?_hex_append hhex rfl]
    rfl

end Silo.Go
