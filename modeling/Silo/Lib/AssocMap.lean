import Mathlib.Data.List.Nodup
import Mathlib.Data.List.Perm.Basic
/-!
# Finite maps as keyed lists

A map is a list of bindings with distinct keys. `insert` overwrites in place or
appends, so the list order is the insertion order; a program that ranges over
the map may see any permutation of it.
-/

open List

namespace Silo.Lib

theorem nodup_map_concat {α κ : Type} {key : α → κ} {l : List α} {a : α} (h : (l.map key).Nodup)
    (hnew : ∀ b ∈ l, key b ≠ key a) : ((l ++ [a]).map key).Nodup := by
  rw [map_append, map_singleton, ← concat_eq_append]
  refine h.concat fun hmem => ?_
  obtain ⟨b, hb, hkey⟩ := mem_map.1 hmem
  exact hnew b hb hkey

/-- Under distinct keys the first element with a key is the only one. -/
theorem find?_key_eq_some {α κ : Type} [DecidableEq κ] {key : α → κ} {l : List α} (h : (l.map key).Nodup) {k : κ}
    {a : α} : l.find? (fun b => key b = k) = some a ↔ a ∈ l ∧ key a = k := by
  constructor
  · intro hfind
    exact ⟨mem_of_find?_eq_some hfind, by simpa using find?_some hfind⟩
  · rintro ⟨ha, rfl⟩
    obtain ⟨b, hb⟩ : ∃ b, l.find? (fun b => key b = key a) = some b :=
      Option.isSome_iff_exists.1 (find?_isSome.2 ⟨a, ha, decide_eq_true rfl⟩)
    have hkey : key b = key a := by simpa using find?_some hb
    rwa [inj_on_of_nodup_map h (mem_of_find?_eq_some hb) ha hkey] at hb

/-- A joined key is read back at its first separator. -/
theorem append_sep_inj {α : Type} {sep : α} {a b x y : List α} (ha : sep ∉ a) (hb : sep ∉ b)
    (h : a ++ sep :: x = b ++ sep :: y) : a = b ∧ x = y := by
  rcases append_eq_append_iff.1 h with ⟨c, rfl, hx⟩ | ⟨c, rfl, hx⟩ <;> cases c <;> simp_all

/-- A finite map: bindings with distinct keys. -/
structure AssocMap (κ ν : Type) where
  entries : List (κ × ν)
  nodup : (entries.map Prod.fst).Nodup

namespace AssocMap

variable {κ ν : Type}

def empty : AssocMap κ ν := ⟨[], by simp⟩

def values (m : AssocMap κ ν) : List ν := m.entries.map Prod.snd

def size (m : AssocMap κ ν) : Nat := m.entries.length

def filter (m : AssocMap κ ν) (p : κ → ν → Bool) : AssocMap κ ν :=
  ⟨m.entries.filter (fun e => p e.1 e.2), m.nodup.sublist (List.filter_sublist.map _)⟩

theorem size_filter_le (m : AssocMap κ ν) (p : κ → ν → Bool) : (m.filter p).size ≤ m.size :=
  length_filter_le ..

variable [DecidableEq κ]

def get? (m : AssocMap κ ν) (k : κ) : Option ν := (m.entries.find? (fun e => e.1 = k)).map Prod.snd

def upsert (k : κ) (v : ν) : List (κ × ν) → List (κ × ν)
  | [] => [(k, v)]
  | e :: es => if e.1 = k then (k, v) :: es else e :: upsert k v es

theorem keys_upsert (k : κ) (v : ν) (l : List (κ × ν)) :
    (upsert k v l).map Prod.fst = if k ∈ l.map Prod.fst then l.map Prod.fst else l.map Prod.fst ++ [k] := by
  induction l with
  | nil => simp [upsert]
  | cons e es ih =>
    by_cases he : e.1 = k
    · simp [upsert, he]
    · simp only [upsert, he, if_false, map_cons, ih, mem_cons, Ne.symm he, false_or]
      split <;> rfl

theorem nodup_upsert (k : κ) (v : ν) {l : List (κ × ν)} (h : (l.map Prod.fst).Nodup) :
    ((upsert k v l).map Prod.fst).Nodup := by
  rw [keys_upsert]
  split
  · exact h
  · rename_i hk
    exact concat_eq_append ▸ h.concat hk

def insert (m : AssocMap κ ν) (k : κ) (v : ν) : AssocMap κ ν :=
  ⟨upsert k v m.entries, nodup_upsert k v m.nodup⟩

@[simp] theorem get?_empty (k : κ) : (empty : AssocMap κ ν).get? k = none := rfl

theorem get?_insert (m : AssocMap κ ν) (k k' : κ) (v : ν) :
    (m.insert k v).get? k' = if k' = k then some v else m.get? k' := by
  show ((upsert k v m.entries).find? _).map Prod.snd = if k' = k then some v else (m.entries.find? _).map Prod.snd
  induction m.entries with
  | nil => by_cases h : k' = k <;> simp [upsert, h, eq_comm]
  | cons e es ih =>
    by_cases he : e.1 = k
    · by_cases h : k' = k
      · simp [upsert, he, h]
      · simp [upsert, he, h, Ne.symm h]
    · by_cases h : e.1 = k'
      · subst h; simp [upsert, he]
      · simpa [upsert, he, h, find?_cons] using ih

theorem get?_insert_eq_some {m : AssocMap κ ν} {k k' : κ} {v w : ν} :
    (m.insert k v).get? k' = some w ↔ (k' = k ∧ w = v) ∨ (k' ≠ k ∧ m.get? k' = some w) := by
  rw [get?_insert]
  by_cases h : k' = k <;> simp [h, eq_comm (a := v)]

theorem isSome_get?_insert {m : AssocMap κ ν} {k k' : κ} {v : ν} :
    ((m.insert k v).get? k').isSome ↔ k' = k ∨ (m.get? k').isSome := by
  rw [get?_insert]
  split <;> simp [*]

theorem mem_entries (m : AssocMap κ ν) (k : κ) (v : ν) : (k, v) ∈ m.entries ↔ m.get? k = some v := by
  simp [get?, find?_key_eq_some m.nodup]

variable {m : AssocMap κ ν} {k : κ} {v : ν}

theorem entries_insert_of_none (h : m.get? k = none) (v : ν) : (m.insert k v).entries = m.entries ++ [(k, v)] := by
  have hk : ∀ e ∈ m.entries, e.1 ≠ k := by
    rintro ⟨k', v'⟩ he rfl
    rw [mem_entries, h] at he
    cases he
  show upsert k v m.entries = _
  generalize m.entries = l at hk
  induction l with
  | nil => rfl
  | cons e es ih =>
    rw [upsert, if_neg (hk e (by simp)), ih (fun e' he' => hk e' (by simp [he']))]
    rfl

theorem mem_values : v ∈ m.values ↔ ∃ k, m.get? k = some v := by
  simp only [values, mem_map, Prod.exists, exists_eq_right, mem_entries]

/-- What a map holds after inserting a list of bindings was there before or is one of them. -/
theorem get?_foldl_insert {l : List (κ × ν)} (h : (l.foldl (fun acc e => acc.insert e.1 e.2) m).get? k = some v)
    : m.get? k = some v ∨ (k, v) ∈ l := by
  induction l generalizing m with
  | nil => exact .inl h
  | cons e l ih =>
    rcases ih h with h | h
    · rcases get?_insert_eq_some.1 h with ⟨rfl, rfl⟩ | ⟨-, h⟩
      · exact .inr (by simp)
      · exact .inl h
    · exact .inr (by simp [h])

/-! ## Removing bindings -/

def erase (m : AssocMap κ ν) (k : κ) : AssocMap κ ν := m.filter (fun k' _ => k' ≠ k)

theorem get?_filter_eq_some {p : κ → ν → Bool} : (m.filter p).get? k = some v ↔ m.get? k = some v ∧ p k v := by
  rw [← mem_entries, ← mem_entries, filter, mem_filter]

theorem get?_erase (m : AssocMap κ ν) (k k' : κ) :
    (m.erase k).get? k' = if k' = k then none else m.get? k' := by
  apply Option.ext
  intro v
  rw [erase, get?_filter_eq_some]
  split <;> simp_all

theorem get?_filter (m : AssocMap κ ν) (p : κ → ν → Bool) (k : κ) :
    (m.filter p).get? k = (m.get? k).filter (p k) := by
  apply Option.ext
  intro v
  rw [get?_filter_eq_some, Option.filter_eq_some_iff]

theorem size_insert (m : AssocMap κ ν) (k : κ) (v : ν) :
    (m.insert k v).size = if (m.get? k).isSome then m.size else m.size + 1 := by
  have hlen : (m.insert k v).size = ((m.insert k v).entries.map Prod.fst).length := by simp [size]
  have hmem : k ∈ m.entries.map Prod.fst ↔ (m.get? k).isSome := by
    simp only [mem_map, Prod.exists, exists_and_right, exists_eq_right, mem_entries, Option.isSome_iff_exists]
  rw [hlen, insert, keys_upsert]
  simp only [hmem]
  split <;> simp [size]

theorem size_insert_le (m : AssocMap κ ν) (k : κ) (v : ν) : (m.insert k v).size ≤ m.size + 1 := by
  rw [size_insert]
  split <;> omega

theorem size_erase_of_isSome (h : (m.get? k).isSome) : (m.erase k).size + 1 = m.size := by
  obtain ⟨v, hv⟩ := Option.isSome_iff_exists.1 h
  obtain ⟨l₁, l₂, hl⟩ := append_of_mem ((mem_entries m k v).2 hv)
  have hn := m.nodup
  simp only [hl, map_append, map_cons, nodup_append, nodup_cons, mem_map, mem_cons] at hn
  obtain ⟨-, ⟨h₂, -⟩, h₁⟩ := hn
  have hk₁ : l₁.filter (fun e => e.1 ≠ k) = l₁ :=
    filter_eq_self.2 fun e he => decide_eq_true fun hk => h₁ k ⟨e, he, hk⟩ k (.inl rfl) rfl
  have hk₂ : l₂.filter (fun e => e.1 ≠ k) = l₂ :=
    filter_eq_self.2 fun e he => decide_eq_true fun hk => h₂ ⟨e, he, hk⟩
  show (m.entries.filter (fun e => e.1 ≠ k)).length + 1 = m.entries.length
  rw [hl, filter_append, filter_cons_of_neg (by simp), hk₁, hk₂]
  simp only [length_append, length_cons]
  omega

/-! ## Maps described by a list of declarations -/

section Describes

variable {α : Type} {key : α → κ} {P : α → ν → Prop} {l : List α} {m : AssocMap κ ν}

/-- The map binds exactly the keys of the declarations in `l`, each to a value its declaration has. -/
def Describes (m : AssocMap κ ν) (key : α → κ) (P : α → ν → Prop) (l : List α) : Prop :=
  ∀ k v, m.get? k = some v ↔ ∃ a ∈ l, key a = k ∧ P a v

theorem Describes.nil : (empty : AssocMap κ ν).Describes key P [] := by simp [Describes]

section
variable (h : m.Describes key P l)
include h

theorem Describes.get?_eq_none {k : κ} (hk : ∀ b ∈ l, key b ≠ k) : m.get? k = none :=
  Option.eq_none_iff_forall_ne_some.2 fun v hget => by
    obtain ⟨b, hb, hbk, -⟩ := (h k v).1 hget
    exact hk b hb hbk

theorem Describes.insert {a : α} {v : ν} (hnew : ∀ b ∈ l, key b ≠ key a)
    (hv : ∀ w, P a w ↔ w = v) : (m.insert (key a) v).Describes key P (l ++ [a]) := by
  intro k w
  rw [get?_insert]
  by_cases hk : k = key a
  · subst hk
    have hold : ¬ ∃ b ∈ l, key b = key a ∧ P b w := fun ⟨b, hb, hkey, _⟩ => hnew b hb hkey
    simp [or_and_right, exists_or, hold, hv, eq_comm (a := v)]
  · rw [if_neg hk, h k w]
    simp [or_and_right, exists_or, Ne.symm hk]

theorem Describes.skip {a : α} (hnone : ∀ w, ¬ P a w) :
    m.Describes key P (l ++ [a]) := by
  intro k w
  rw [h k w]
  simp [or_and_right, exists_or, hnone]

end

end Describes

end AssocMap

end Silo.Lib
