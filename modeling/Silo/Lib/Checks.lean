import Mathlib.Data.List.Forall2
/-!
# Checked computations

A computation that makes a series of checks and stops at the first failure, in
`Except`, together with how a successful run is read back check by check.
-/

open List

namespace Silo.Lib

variable {ε α β σ : Type}

def require (c : Prop) [Decidable c] (e : ε) : Except ε Unit := if c then .ok () else .error e

variable {e : ε} {x : Except ε α} {a : α} {l : List α}

@[simp] theorem require_eq_ok {c : Prop} [Decidable c] {u : Unit} : require c e = .ok u ↔ c := by
  unfold require; split <;> simp_all

@[simp] theorem bind_eq_ok {f : α → Except ε β} {b : β} : (x >>= f) = .ok b ↔ ∃ a, x = .ok a ∧ f a = .ok b := by
  cases x <;> simp [bind, Except.bind]

@[simp] theorem pure_eq_ok {b : α} : (pure a : Except ε α) = .ok b ↔ a = b := by simp [pure, Except.pure]

@[simp] theorem mapError_eq_ok {δ : Type} {f : ε → δ} : x.mapError f = .ok a ↔ x = .ok a := by
  cases x <;> simp [Except.mapError]

theorem exists_ok_of_isOk (h : x.isOk) : ∃ a, x = .ok a := by
  cases x with
  | ok a => exact ⟨a, rfl⟩
  | error e => cases h

theorem exists_ok_of_map {f : α → β} {b : β} (h : x.toOption.map f = some b) : ∃ a, x = .ok a ∧ f a = b := by
  cases x with
  | ok a => exact ⟨a, rfl, by simpa [Except.toOption] using h⟩
  | error e => cases h

theorem exists_ok_of_decide {p : α → Prop} [DecidablePred p] (h : x.toOption.map (fun a => decide (p a)) = some true) :
    ∃ a, x = .ok a ∧ p a := by
  obtain ⟨a, ha, hp⟩ := exists_ok_of_map h
  exact ⟨a, ha, of_decide_eq_true hp⟩

def orFail (x : Option α) (e : ε) : Except ε α :=
  match x with
  | some a => .ok a
  | none => .error e

@[simp] theorem orFail_eq_ok {x : Option α} : orFail x e = .ok a ↔ x = some a := by
  cases x <;> simp [orFail]

theorem throw_if_bind_eq_ok {c : Prop} [Decidable c] {k : PUnit → Except ε α} :
    (if c then (throw e : Except ε PUnit) >>= k else k PUnit.unit) = .ok a ↔ ¬ c ∧ k PUnit.unit = .ok a := by
  by_cases h : c
  · simp [h, throw, throwThe, MonadExceptOf.throw]
  · simp [h]

/-- The invariant rule for a loop that stops at the first failure: what every step keeps, with the items
already processed, holds of the result and the whole list. -/
theorem foldlM_ok_invariant (step : σ → α → Except ε σ) (Inv : List α → σ → Prop)
    (hstep : ∀ done s a s', Inv done s → step s a = .ok s' → Inv (done ++ [a]) s') :
    ∀ (todo done : List α) (s s' : σ), Inv done s → todo.foldlM step s = .ok s' → Inv (done ++ todo) s' := by
  intro todo
  induction todo with
  | nil =>
    intro done s s' hs h
    obtain rfl : s = s' := by simpa [pure, Except.pure] using h
    simpa using hs
  | cons a rest ih =>
    intro done s s' hs h
    rw [foldlM_cons] at h
    obtain ⟨t, hat, hrest⟩ := bind_eq_ok.1 h
    have := ih (done ++ [a]) t s' (hstep done s a t hs hat) hrest
    simpa using this

/-- What every step says about its item holds of all items of a loop that ended. -/
theorem foldlM_ok_forall {step : σ → α → Except ε σ} {P : α → Prop} (hstep : ∀ s a s', step s a = .ok s' → P a)
    {items : List α} {s s' : σ} (h : items.foldlM step s = .ok s') : ∀ a ∈ items, P a := by
  refine foldlM_ok_invariant step (fun done _ => ∀ a ∈ done, P a) ?_ items [] s s' (by simp) h
  intro done t a t' hdone hat
  exact forall_mem_append.2 ⟨hdone, forall_mem_singleton.2 (hstep t a t' hat)⟩

/-- The progress rule for such a loop: when every step can be taken, and what it needs holds again after it, the loop
runs to its end. -/
theorem foldlM_ok_of_progress (step : σ → α → Except ε σ) (Inv : List α → σ → Prop) (items : List α)
    (hstep : ∀ done a rest s, done ++ a :: rest = items → Inv done s → ∃ s', step s a = .ok s' ∧ Inv (done ++ [a]) s') :
    ∀ (todo done : List α) (s : σ), done ++ todo = items → Inv done s → ∃ s', todo.foldlM step s = .ok s' ∧ Inv items s' := by
  intro todo
  induction todo with
  | nil =>
    intro done s hitems hs
    rw [append_nil] at hitems
    exact ⟨s, rfl, hitems ▸ hs⟩
  | cons a rest ih =>
    intro done s hitems hs
    obtain ⟨t, ht, hinv⟩ := hstep done a rest s hitems hs
    obtain ⟨s', hs', hend⟩ := ih (done ++ [a]) t (by simpa using hitems) hinv
    refine ⟨s', ?_, hend⟩
    rw [foldlM_cons]
    exact bind_eq_ok.2 ⟨t, ht, hs'⟩

/-! ## Lists compiled item by item -/

theorem forall₂_exists_right {R : α → β → Prop} {m : List β} (h : List.Forall₂ R l m) : ∀ a ∈ l, ∃ b ∈ m, R a b := by
  induction h with
  | nil => simp
  | cons hab _ ih =>
    intro x hx
    rcases mem_cons.1 hx with rfl | hx
    · exact ⟨_, by simp, hab⟩
    · obtain ⟨b, hb, hR⟩ := ih x hx
      exact ⟨b, by simp [hb], hR⟩

theorem forall₂_exists_left {R : α → β → Prop} {m : List β} (h : List.Forall₂ R l m) : ∀ b ∈ m, ∃ a ∈ l, R a b :=
  fun b hb => forall₂_exists_right (R := fun b a => R a b) (Forall₂.flip h) b hb

theorem mapM_eq_ok {f : α → Except ε β} {r : List β} :
    l.mapM f = .ok r ↔ List.Forall₂ (fun a b => f a = .ok b) l r := by
  induction l generalizing r with
  | nil => cases r <;> simp [pure, Except.pure]
  | cons a l ih =>
    rw [mapM_cons]
    simp only [bind_eq_ok, pure_eq_ok, ih]
    cases r with
    | nil => simp
    | cons b r => simp [forall₂_cons]

theorem forM_eq_ok {f : α → Except ε Unit} {u : Unit} : l.forM f = .ok u ↔ ∀ a ∈ l, f a = .ok () := by
  induction l with
  | nil => simp [List.forM, pure, Except.pure]
  | cons a l ih =>
    simp only [List.forM, bind_eq_ok, forall_mem_cons, ← ih]
    exact ⟨fun ⟨_, h, ht⟩ => ⟨h, ht⟩, fun ⟨h, ht⟩ => ⟨(), h, ht⟩⟩

end Silo.Lib
