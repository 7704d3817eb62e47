import Silo.Go.HostText
/-!
# Raw URL base64

`base64.RawURLEncoding`: three bytes become four characters, and the last one or two bytes
two or three characters without padding. No two byte strings have the same encoding.
-/

open List

namespace Silo.Go.Base64

def alphabet : Str := "ABCDEFGHIJKLMNOPQRSTUVWXYZabcdefghijklmnopqrstuvwxyz0123456789-_".toList

def digit (n : Nat) : Char := alphabet.getD n '='

def pack : List Nat → List Nat
  | a :: b :: c :: rest => a / 4 :: (a % 4 * 16 + b / 16) :: (b % 16 * 4 + c / 64) :: c % 64 :: pack rest
  | [a, b] => [a / 4, a % 4 * 16 + b / 16, b % 16 * 4]
  | [a] => [a / 4, a % 4 * 16]
  | [] => []

def encode (bytes : Str) : Str := (pack (bytes.map Char.toNat)).map digit

def unpack : List Nat → List Nat
  | x :: y :: z :: w :: rest => (x * 4 + y / 16) :: (y % 16 * 16 + z / 4) :: (z % 4 * 64 + w) :: unpack rest
  | [x, y, z] => [x * 4 + y / 16, y % 16 * 16 + z / 4]
  | [x, y] => [x * 4 + y / 16]
  | _ => []

theorem unpack_pack (bytes : List Nat) (h : ∀ b ∈ bytes, b < 256) : unpack (pack bytes) = bytes := by
  fun_induction pack bytes with
  | case1 a b c rest ih =>
    simp only [forall_mem_cons] at h
    obtain ⟨ha, hb, hc, hrest⟩ := h
    rw [unpack, ih hrest]
    refine congrArg₂ _ (by omega) (congrArg₂ _ (by omega) (congrArg₂ _ (by omega) rfl))
  | case2 a b =>
    simp only [forall_mem_cons] at h
    obtain ⟨ha, hb, -⟩ := h
    rw [unpack]
    refine congrArg₂ _ (by omega) (congrArg₂ _ (by omega) rfl)
  | case3 a =>
    simp only [forall_mem_cons] at h
    rw [unpack]
    exact congrArg₂ _ (by omega) rfl
  | case4 => rfl

theorem pack_lt (bytes : List Nat) (h : ∀ b ∈ bytes, b < 256) : ∀ n ∈ pack bytes, n < 64 := by
  fun_induction pack bytes with
  | case1 a b c rest ih =>
    simp only [forall_mem_cons] at h ⊢
    exact ⟨by omega, by omega, by omega, by omega, ih h.2.2.2⟩
  | case2 a b =>
    simp only [forall_mem_cons] at h ⊢
    exact ⟨by omega, by omega, by omega, by simp⟩
  | case3 a =>
    simp only [forall_mem_cons] at h ⊢
    exact ⟨by omega, by omega, by simp⟩
  | case4 => simp

theorem digit_inj {m n : Nat} (hm : m < 64) (hn : n < 64) (h : digit m = digit n) : m = n := by
  have hlen : alphabet.length = 64 := by decide
  have hnodup : alphabet.Nodup := by decide
  have hget : ∀ {k}, k < 64 → digit k = alphabet.get ⟨k % 64, by omega⟩ := by
    intro k hk
    simp only [digit, getD_eq_getElem?_getD, get_eq_getElem, Nat.mod_eq_of_lt hk]
    rw [getElem?_eq_getElem (by omega), Option.getD_some]
  rw [hget hm, hget hn] at h
  have := Fin.mk.inj (nodup_iff_injective_get.1 hnodup h)
  omega

theorem map_digit_inj {l l' : List Nat} (hl : ∀ n ∈ l, n < 64) (hl' : ∀ n ∈ l', n < 64)
    (h : l.map digit = l'.map digit) : l = l' := by
  induction l generalizing l' with
  | nil => exact (map_eq_nil_iff.1 h.symm).symm
  | cons n l ih =>
    cases l' with
    | nil => cases h
    | cons n' l' =>
      rw [forall_mem_cons] at hl hl'
      obtain ⟨hhead, htail⟩ := List.cons.inj h
      rw [digit_inj hl.1 hl'.1 hhead, ih hl.2 hl'.2 htail]

theorem encode_inj {s t : Str} (hs : ∀ c ∈ s, c.toNat < 256) (ht : ∀ c ∈ t, c.toNat < 256) (h : encode s = encode t) :
    s = t := by
  have hbytes : ∀ {u : Str}, (∀ c ∈ u, c.toNat < 256) → ∀ b ∈ u.map Char.toNat, b < 256 := by
    intro u hu b hb
    obtain ⟨c, hc, rfl⟩ := mem_map.1 hb
    exact hu c hc
  have hpacked := map_digit_inj (pack_lt _ (hbytes hs)) (pack_lt _ (hbytes ht)) h
  have hcodes : s.map Char.toNat = t.map Char.toNat := by
    rw [← unpack_pack _ (hbytes hs), hpacked, unpack_pack _ (hbytes ht)]
  exact map_injective_iff.2 (fun _ _ => Char.toNat_inj.1) hcodes

example : encode "user:2".toList = "dXNlcjoy".toList ∧ encode "tag:dev".toList = "dGFnOmRldg".toList := by decide

end Silo.Go.Base64
