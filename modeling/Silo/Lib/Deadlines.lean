import Silo.Lib.AssocMap
/-!
# Maps from keys to deadlines

A set whose members expire: each key is bound to the moment it leaves the set.
A missing key has deadline zero. Members are removed lazily, by `prune`, so a key
past its deadline may still be bound.
-/

namespace Silo.Lib

open Lib.AssocMap

abbrev Deadlines (κ : Type) : Type := AssocMap κ Nat

namespace Deadlines

variable {κ : Type}

def prune (m : Deadlines κ) (now : Nat) : Deadlines κ := m.filter (fun _ d => now < d)

variable [DecidableEq κ]

def deadline (m : Deadlines κ) (k : κ) : Nat := (AssocMap.get? m k).getD 0

@[simp] theorem deadline_empty (k : κ) : deadline (AssocMap.empty : Deadlines κ) k = 0 := rfl

variable (m : Deadlines κ)

theorem deadline_insert (k k' : κ) (d : Nat) :
    deadline (AssocMap.insert m k d) k' = if k' = k then d else deadline m k' := by
  rw [deadline, get?_insert]
  split <;> rfl

theorem deadline_erase (k k' : κ) :
    deadline (AssocMap.erase m k) k' = if k' = k then 0 else deadline m k' := by
  rw [deadline, get?_erase]
  split <;> rfl

theorem deadline_prune (now : Nat) (k : κ) :
    deadline (m.prune now) k = if now < deadline m k then deadline m k else 0 := by
  rw [deadline, prune, get?_filter, deadline]
  cases m.get? k with
  | none => rfl
  | some d => by_cases h : now < d <;> simp [Option.filter, h]

theorem isSome_of_deadline_pos {m : Deadlines κ} {k : κ} (h : 0 < deadline m k) : (AssocMap.get? m k).isSome := by
  rw [deadline] at h
  cases hk : m.get? k with
  | none => simp [hk] at h
  | some d => rfl

theorem isSome_prune_iff (now : Nat) (k : κ) :
    (AssocMap.get? (m.prune now) k).isSome ↔ now < deadline m k := by
  rw [deadline, prune, get?_filter]
  cases m.get? k with
  | none => simp
  | some d => by_cases h : now < d <;> simp [Option.filter, h]

def raise (m : Deadlines κ) (k : κ) (d : Nat) : Deadlines κ :=
  if deadline m k < d then AssocMap.insert m k d else m

theorem deadline_raise (k k' : κ) (d : Nat) :
    deadline (m.raise k d) k' = if k' = k then max d (deadline m k) else deadline m k' := by
  rw [raise]
  split
  · rw [deadline_insert]
    split <;> omega
  · split
    · subst_vars
      omega
    · rfl

theorem size_raise_le (k : κ) (d : Nat) : (m.raise k d).size ≤ m.size + 1 := by
  rw [raise]
  split
  · exact size_insert_le ..
  · omega

def raiseAll (m : Deadlines κ) (l : List (κ × Nat)) : Deadlines κ := l.foldl (fun m e => m.raise e.1 e.2) m

theorem deadline_le_raiseAll (l : List (κ × Nat)) (k : κ) :
    deadline m k ≤ deadline (m.raiseAll l) k := by
  induction l generalizing m with
  | nil => exact Nat.le_refl _
  | cons e l ih =>
    refine Nat.le_trans ?_ (ih _)
    rw [deadline_raise]
    split
    · next h => rw [h]; omega
    · exact Nat.le_refl _

theorem le_deadline_raiseAll {l : List (κ × Nat)} {e : κ × Nat} (he : e ∈ l) :
    e.2 ≤ deadline (m.raiseAll l) e.1 := by
  induction l generalizing m with
  | nil => cases he
  | cons e' l ih =>
    rcases List.mem_cons.1 he with rfl | he
    · refine Nat.le_trans ?_ (deadline_le_raiseAll _ l _)
      rw [deadline_raise, if_pos rfl]
      omega
    · exact ih _ he

theorem size_raiseAll_le (l : List (κ × Nat)) : (m.raiseAll l).size ≤ m.size + l.length := by
  induction l generalizing m with
  | nil => exact Nat.le_refl _
  | cons e l ih =>
    have h₁ := ih (m.raise e.1 e.2)
    have h₂ := size_raise_le m e.1 e.2
    simp only [raiseAll, List.foldl_cons, List.length_cons] at h₁ ⊢
    omega

theorem deadline_of_get? {m : Deadlines κ} {k : κ} {d : Nat} (h : AssocMap.get? m k = some d) : deadline m k = d := by
  rw [deadline, h]
  rfl

end Deadlines

end Silo.Lib
