import Silo.Rust.Str
import Mathlib.Data.String.Basic
/-!
# Ordered maps

`BTreeMap<String, V>` as the list of its entries in key order.
-/

open List

namespace Silo.Rust.BTreeMap

variable {α : Type}

abbrev Entries (α : Type) := List (String × α)

def insert (k : String) (v : α) : Entries α → Entries α
  | [] => [(k, v)]
  | m :: ms => if k < m.1 then (k, v) :: m :: ms else if k = m.1 then (k, v) :: ms else m :: insert k v ms

def Sorted (ms : Entries α) : Prop := ms.Pairwise (fun a b => a.1 < b.1)

variable {ms : Entries α}

theorem mem_insert {k : String} {v : α} {m : String × α} (h : m ∈ insert k v ms) :
    m = (k, v) ∨ m ∈ ms := by
  induction ms with
  | nil => simpa [insert] using h
  | cons a ms ih =>
    unfold insert at h
    split at h
    · simpa using h
    · split at h <;> rcases mem_cons.1 h with h | h
      · exact .inl h
      · exact .inr (by simp [h])
      · exact .inr (by simp [h])
      · exact (ih h).imp_right (by simp +contextual)

theorem sorted_insert (k : String) (v : α) (h : Sorted ms) : Sorted (insert k v ms) := by
  unfold Sorted at *
  induction ms with
  | nil => simp [insert]
  | cons a ms ih =>
    obtain ⟨hhead, htail⟩ := pairwise_cons.1 h
    unfold insert
    split
    · rename_i hk
      exact pairwise_cons.2 ⟨forall_mem_cons.2 ⟨hk, fun b hb => lt_trans hk (hhead b hb)⟩, h⟩
    · rename_i hk
      split
      · rename_i he
        exact pairwise_cons.2 ⟨fun b hb => he ▸ hhead b hb, htail⟩
      · rename_i he
        refine pairwise_cons.2 ⟨fun b hb => ?_, ih htail⟩
        rcases mem_insert hb with rfl | hb
        · exact lt_of_le_of_ne (not_lt.1 hk) (Ne.symm he)
        · exact hhead b hb

theorem insert_last (k : String) (v : α) (h : ∀ m ∈ ms, m.1 < k) : insert k v ms = ms ++ [(k, v)] := by
  induction ms with
  | nil => rfl
  | cons a ms ih =>
    have ha : a.1 < k := h a (by simp)
    rw [insert, if_neg (lt_asymm ha), if_neg (ne_of_gt ha), ih (fun m hm => h m (by simp [hm]))]
    rfl

end Silo.Rust.BTreeMap
