import Mathlib.Data.List.Sort
/-!
# First match by priority

A list sorted stably by descending priority, searched from the front, yields the
match that precedes every other match: higher priority first, then the original
order.
-/

open List

namespace Silo.Lib

section Stable

variable {α : Type} (prio : α → Int) (pos : α → Nat)

/-- `a` comes before `b`: higher priority, or the same and earlier. -/
def Precedes (a b : α) : Prop := prio b < prio a ∨ (prio b = prio a ∧ pos a < pos b)

theorem orderedInsert_precedes {a : α} {l : List α} (hl : l.Pairwise (Precedes prio pos))
    (ha : ∀ b ∈ l, pos a < pos b) :
    (l.orderedInsert (fun x y => prio y ≤ prio x) a).Pairwise (Precedes prio pos) := by
  induction l with
  | nil => simp
  | cons b l ih =>
    rw [orderedInsert_cons]
    obtain ⟨hb, hl'⟩ := pairwise_cons.1 hl
    have hab := ha b (by simp)
    split
    · rename_i hle
      refine pairwise_cons.2 ⟨fun c hc => ?_, hl⟩
      rcases mem_cons.1 hc with rfl | hc
      · rcases lt_or_eq_of_le hle with h | h
        · exact .inl h
        · exact .inr ⟨h, hab⟩
      · have hac := ha c (by simp [hc])
        rcases hb c hc with h | ⟨h, -⟩
        · exact .inl (lt_of_lt_of_le h hle)
        · rcases lt_or_eq_of_le hle with h' | h'
          · exact .inl (h ▸ h')
          · exact .inr ⟨h.trans h', hac⟩
    · rename_i hlt
      refine pairwise_cons.2 ⟨fun c hc => ?_, ih hl' (fun c hc => ha c (by simp [hc]))⟩
      rcases (mem_orderedInsert _).1 hc with rfl | hc
      · exact .inl (not_le.1 hlt)
      · exact hb c hc

/-- Sorting a list in document order puts it in order of precedence. -/
theorem insertionSort_precedes {l : List α} (h : l.Pairwise (fun a b => pos a < pos b)) :
    (l.insertionSort (fun x y => prio y ≤ prio x)).Pairwise (Precedes prio pos) := by
  induction l with
  | nil => simp
  | cons a l ih =>
    obtain ⟨ha, hl⟩ := pairwise_cons.1 h
    refine orderedInsert_precedes prio pos (ih hl) (fun b hb => ha b ?_)
    exact (perm_insertionSort _ l).mem_iff.1 hb

end Stable

/-- The first match in a list ordered by `R` stands in `R` to every other match. -/
theorem find?_first {α : Type} {R : α → α → Prop} {q : α → Bool} {l : List α} {a : α} (hl : l.Pairwise R)
    (h : l.find? q = some a) : a ∈ l ∧ q a ∧ ∀ b ∈ l, q b → b = a ∨ R a b := by
  obtain ⟨hqa, before, after, rfl, hbefore⟩ := find?_eq_some_iff_append.1 h
  refine ⟨by simp, hqa, fun b hb hqb => ?_⟩
  rcases mem_append.1 hb with hb | hb
  · have := hbefore b hb
    simp [hqb] at this
  · rcases mem_cons.1 hb with rfl | hb
    · exact .inl rfl
    · exact .inr ((pairwise_cons.1 (pairwise_append.1 hl).2.1).1 b hb)

end Silo.Lib
