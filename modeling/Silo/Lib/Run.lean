import Mathlib.Order.Defs.Unbundled
/-!
# Computations that change a state and may fail

A failure keeps the changes made before it. `Spec P m Q E` is the triple: from a
state with `P`, a success ends with `Q` and a failure with `E`.
-/

namespace Silo.Lib

def Run (ε σ α : Type) : Type := σ → Except ε α × σ

namespace Run

variable {ε σ α β : Type}

instance : Monad (Run ε σ) where
  pure a := fun s => (.ok a, s)
  bind m f := fun s =>
    match m s with
    | (.ok a, s) => f a s
    | (.error e, s) => (.error e, s)

def get : Run ε σ σ := fun s => (.ok s, s)

def modify (f : σ → σ) : Run ε σ Unit := fun s => (.ok (), f s)

def fail (e : ε) : Run ε σ α := fun s => (.error e, s)

def check (c : Prop) [Decidable c] (e : ε) : Run ε σ Unit := if c then pure () else fail e

def when (c : Prop) [Decidable c] (m : Run ε σ Unit) : Run ε σ Unit := if c then m else pure ()

def ofExcept : Except ε α → Run ε σ α
  | .ok a => pure a
  | .error e => fail e

def ofOption (x : Option α) (e : ε) : Run ε σ α :=
  match x with
  | some a => pure a
  | none => fail e

/-! ## Running -/

@[simp] theorem pure_run (a : α) (s : σ) : (pure a : Run ε σ α) s = (.ok a, s) := rfl

@[simp] theorem fail_run (e : ε) (s : σ) : (fail e : Run ε σ α) s = (.error e, s) := rfl

@[simp] theorem get_bind_run (f : σ → Run ε σ β) (s : σ) : (get >>= f) s = f s s := rfl

@[simp] theorem modify_run (g : σ → σ) (s : σ) : (modify g : Run ε σ Unit) s = (.ok (), g s) := rfl

@[simp] theorem modify_bind_run (g : σ → σ) (f : Unit → Run ε σ β) (s : σ) : (modify g >>= f) s = f () (g s) := rfl

@[simp] theorem ite_run (c : Prop) [Decidable c] (m n : Run ε σ α) (s : σ) :
    (if c then m else n) s = if c then m s else n s := by
  split <;> rfl

variable {m n : Run ε σ α} {f : α → Run ε σ β} {s s' : σ} {a : α} {e : ε} {c : Prop}

theorem bind_run (m : Run ε σ α) (f : α → Run ε σ β) (s : σ) : (m >>= f) s = match m s with
    | (.ok a, s) => f a s
    | (.error e, s) => (.error e, s) := rfl

theorem bind_run_ok {b : β} : (m >>= f) s = (.ok b, s') ↔ ∃ a s₁, m s = (.ok a, s₁) ∧ f a s₁ = (.ok b, s') := by
  rw [bind_run]
  generalize m s = r
  obtain ⟨e | a, s₁⟩ := r
  · simp
  · constructor
    · exact fun h => ⟨a, s₁, rfl, h⟩
    · rintro ⟨a', s₁', heq, h⟩
      cases heq
      exact h

theorem bind_run_of_ok (h : m s = (.ok a, s')) : (m >>= f) s = f a s' := by
  rw [bind_run, h]

theorem bind_run_of_error (h : m s = (.error e, s')) : (m >>= f) s = (.error e, s') := by
  rw [bind_run, h]

variable {x : Except ε α}

theorem ofExcept_run_ok : (ofExcept x : Run ε σ α) s = (.ok a, s') ↔ x = .ok a ∧ s' = s := by
  cases x with
  | error e => simp [ofExcept]
  | ok b => simp [ofExcept, eq_comm]

theorem ofOption_run_ok {x : Option α} : (ofOption x e : Run ε σ α) s = (.ok a, s') ↔ x = some a ∧ s' = s := by
  cases x with
  | none => simp [ofOption]
  | some b => simp [ofOption, eq_comm]

theorem check_run_ok [Decidable c] {u : Unit} : (check c e : Run ε σ Unit) s = (.ok u, s') ↔ c ∧ s' = s := by
  by_cases h : c
  · simp [check, h, eq_comm]
  · simp [check, h]

/-! ## Rules -/

/-- From a state with `P` a success of `m` ends with `Q`, and a failure with `E`. -/
def Spec (P : σ → Prop) (m : Run ε σ α) (Q : α → σ → Prop) (E : ε → σ → Prop) : Prop :=
  ∀ s, P s → match m s with
    | (.ok a, s') => Q a s'
    | (.error e, s') => E e s'

variable {P P' : σ → Prop} {m : Run ε σ α} {f : α → Run ε σ β} {Q Q' : α → σ → Prop} {R : β → σ → Prop}
  {E E' : ε → σ → Prop}

/-- An invariant survives the computation, whatever its outcome. -/
abbrev Preserves (I : σ → Prop) (m : Run ε σ α) : Prop := Spec I m (fun _ => I) (fun _ => I)

theorem Spec.ok (h : Spec P m Q E) (hs : P s) (hrun : m s = (.ok a, s')) : Q a s' := by
  have := h s hs
  rwa [hrun] at this

theorem Spec.error (h : Spec P m Q E) (hs : P s) (hrun : m s = (.error e, s')) : E e s' := by
  have := h s hs
  rwa [hrun] at this

/-- A spec whose two outcomes agree says what holds of the state in any case. -/
theorem Spec.after {I : σ → Prop} {r : Except ε α} (h : Spec P m (fun _ => I) (fun _ => I)) (hs : P s)
    (hrun : m s = (r, s')) : I s' := by
  cases r with
  | error e => exact h.error hs hrun
  | ok a => exact h.ok hs hrun

theorem Spec.of_run_ok (h : m s = (.ok a, s')) (hQ : Q a s') : Spec (· = s) m Q E := by
  rintro _ rfl
  rw [h]
  exact hQ

theorem Spec.pure (h : ∀ s, P s → Q a s) : Spec P (pure a : Run ε σ α) Q E := h

theorem Spec.done : Spec P (Pure.pure a : Run ε σ α) (fun _ => P) E := fun _ h => h

theorem Spec.get {Q : σ → σ → Prop} (h : ∀ s, P s → Q s s) : Spec P (get : Run ε σ σ) Q E := h

theorem Spec.got : Spec P (Run.get : Run ε σ σ) (fun _ => P) E := fun _ h => h

theorem Spec.modify {g : σ → σ} {Q : Unit → σ → Prop} (h : ∀ s, P s → Q () (g s)) :
    Spec P (modify g : Run ε σ Unit) Q E := h

theorem Spec.fail (h : ∀ s, P s → E e s) : Spec P (fail e : Run ε σ α) Q E := h

theorem Spec.failed : Spec P (Run.fail e : Run ε σ α) Q (fun _ => P) := fun _ h => h

theorem Spec.bind (hm : Spec P m Q E) (hf : ∀ a, Spec (Q a) (f a) R E) : Spec P (m >>= f) R E := by
  intro s hs
  have h := hm s hs
  rw [bind_run]
  generalize m s = r at h
  obtain ⟨a | a, s'⟩ := r
  · exact h
  · exact hf a s' h

/-- `Spec.bind` with the state in between. -/
theorem Spec.seq (I : σ → Prop) (hm : Spec P m (fun _ => I) E) (hf : ∀ a, Spec I (f a) R E) : Spec P (m >>= f) R E :=
  .bind hm hf

theorem Spec.of_forall (h : ∀ s, P s → Spec (· = s) m Q E) : Spec P m Q E := fun s hs => h s hs s rfl

theorem Spec.trivial : Spec P m (fun _ _ => True) (fun _ _ => True) := by
  intro s _
  split <;> exact True.intro

theorem Spec.skip (h : ∀ a, Spec (fun _ => True) (f a) R fun _ _ => True) : Spec P (m >>= f) R fun _ _ => True :=
  .bind .trivial h

theorem Spec.get_bind {f : σ → Run ε σ β} (h : ∀ s, P s → Spec (· = s) (f s) R E) : Spec P (Run.get >>= f) R E :=
  fun s hs => h s hs s rfl

theorem Spec.pure_at (h : Q a s) : Spec (· = s) (Pure.pure a : Run ε σ α) Q E := fun _ hs => hs ▸ h

theorem Spec.fail_at (h : E e s) : Spec (· = s) (Run.fail e : Run ε σ α) Q E := fun _ hs => hs ▸ h

theorem Spec.when [Decidable c] {m : Run ε σ Unit} {Q : Unit → σ → Prop} (ht : c → Spec P m Q E)
    (he : ¬ c → ∀ s, P s → Q () s) : Spec P (when c m) Q E := by
  unfold Run.when
  split
  · next h => exact ht h
  · next h => exact .pure (he h)

theorem Spec.and_pre {p : Prop} (h : p → Spec P m Q E) : Spec (fun s => p ∧ P s) m Q E := fun s hs => h hs.1 s hs.2

theorem Spec.check [Decidable c] {Q : Unit → σ → Prop} (hok : c → ∀ s, P s → Q () s) (herr : ¬ c → ∀ s, P s → E e s)
    : Spec P (check c e : Run ε σ Unit) Q E := by
  unfold Run.check
  split
  · next h => exact .pure (hok h)
  · next h => exact .fail (herr h)

theorem Spec.check_at [Decidable c] {Q : Unit → σ → Prop} (hok : c → Q () s) (herr : ¬ c → E e s) :
    Spec (· = s) (Run.check c e : Run ε σ Unit) Q E :=
  .check (fun hc _ hs => hs ▸ hok hc) fun hc _ hs => hs ▸ herr hc

theorem Spec.checked [Decidable c] : Preserves P (Run.check c e : Run ε σ Unit) :=
  .check (fun _ _ h => h) fun _ _ h => h

theorem Spec.ite [Decidable c] (ht : c → Spec P m Q E) (he : ¬ c → Spec P n Q E) :
    Spec P (if c then m else n) Q E := by
  split
  · next h => exact ht h
  · next h => exact he h

theorem Spec.ofOption {x : Option α} (hok : ∀ a, x = some a → ∀ s, P s → Q a s) (herr : x = none → ∀ s, P s → E e s)
    : Spec P (ofOption x e : Run ε σ α) Q E := by
  cases x with
  | none => exact .fail (herr rfl)
  | some a => exact .pure (hok a rfl)

theorem Spec.ofExcept (hok : ∀ a, x = .ok a → ∀ s, P s → Q a s)
    (herr : ∀ e, x = .error e → ∀ s, P s → E e s) : Spec P (ofExcept x : Run ε σ α) Q E := by
  cases x with
  | error e => exact .fail (herr e rfl)
  | ok a => exact .pure (hok a rfl)

section
variable (h : Spec P m Q E)
include h

theorem Spec.weaken (hP : ∀ s, P' s → P s) (hQ : ∀ a s, Q a s → Q' a s)
    (hE : ∀ e s, E e s → E' e s) : Spec P' m Q' E' := by
  intro s hs
  have := h s (hP s hs)
  generalize m s = r at this ⊢
  obtain ⟨e | a, s'⟩ := r
  · exact hE e s' this
  · exact hQ a s' this

theorem Spec.pre (hP : ∀ s, P' s → P s) : Spec P' m Q E :=
  h.weaken hP (fun _ _ h => h) fun _ _ h => h

theorem Spec.post (hQ : ∀ a s, Q a s → Q' a s) : Spec P m Q' E :=
  h.weaken (fun _ h => h) hQ fun _ _ h => h

theorem Spec.err (hE : ∀ e s, E e s → E' e s) : Spec P m Q E' :=
  h.weaken (fun _ h => h) (fun _ _ h => h) hE

theorem Spec.and {P' : σ → Prop} {Q' : α → σ → Prop} {E' : ε → σ → Prop} (h' : Spec P' m Q' E') :
    Spec (fun s => P s ∧ P' s) m (fun a s => Q a s ∧ Q' a s) (fun e s => E e s ∧ E' e s) := by
  intro s hs
  have hm := h s hs.1
  have hm' := h' s hs.2
  generalize m s = r at hm hm'
  obtain ⟨e | a, s'⟩ := r
  · exact ⟨hm, hm'⟩
  · exact ⟨hm, hm'⟩

theorem Spec.or_pre {P' : σ → Prop} (h' : Spec P' m Q E) : Spec (fun s => P s ∨ P' s) m Q E :=
  fun s hs => hs.elim (h s) (h' s)

end

/-! ## What a computation leaves alone -/

variable {T : σ → σ → Prop}

/-- `m` leads from a state to related ones only, whether it succeeds or fails. -/
def Along (T : σ → σ → Prop) (m : Run ε σ α) : Prop := ∀ s, T s (m s).2

theorem Along.modify {h : σ → σ} (hR : ∀ s, T s (h s)) : Along T (modify h : Run ε σ Unit) := hR

theorem Along.ite [Decidable c] (hm : Along T m) (hn : Along T n) :
    Along T (if c then m else n) := by
  split
  · exact hm
  · exact hn

section Preorder

variable [IsPreorder σ T]

theorem Along.bind (hm : Along T m) (hf : ∀ a, Along T (f a)) : Along T (m >>= f) := by
  intro s
  have h := hm s
  rw [bind_run]
  generalize m s = r at h
  obtain ⟨e | a, s'⟩ := r
  · exact h
  · exact IsTrans.trans _ _ _ h (hf a s')

theorem Along.pure (a : α) : Along T (Pure.pure a : Run ε σ α) := refl_of T

theorem Along.get : Along T (Run.get : Run ε σ σ) := refl_of T

theorem Along.fail (e : ε) : Along T (Run.fail e : Run ε σ α) := refl_of T

theorem Along.check [Decidable c] : Along T (Run.check c e : Run ε σ Unit) := .ite (.pure ()) (.fail e)

theorem Along.when [Decidable c] {m : Run ε σ Unit} (h : Along T m) : Along T (Run.when c m) := .ite h (.pure ())

theorem Along.ofOption {x : Option α} : Along T (Run.ofOption x e : Run ε σ α) := by
  cases x with
  | none => exact .fail e
  | some a => exact .pure a

theorem Along.ofExcept : Along T (Run.ofExcept x : Run ε σ α) := by
  cases x with
  | error e => exact .fail e
  | ok a => exact .pure a

theorem Along.forM {l : List β} {f : β → Run ε σ Unit} (h : ∀ b ∈ l, Along T (f b)) : Along T (l.forM f) := by
  induction l with
  | nil => exact .pure ()
  | cons b l ih => exact .bind (h b List.mem_cons_self) fun _ => ih fun c hc => h c (List.mem_cons_of_mem _ hc)

end Preorder

variable {γ : Type} {g : σ → γ}

/-- `m` never changes the part `g` of the state, whether it succeeds or fails. -/
def Keeps (g : σ → γ) (m : Run ε σ α) : Prop := ∀ s, g (m s).2 = g s

theorem Along.of_keeps (hk : Keeps g m) (h : ∀ s s', g s' = g s → T s s') : Along T m := fun s => h s _ (hk s)

theorem Keeps.pure (a : α) : Keeps g (pure a : Run ε σ α) := fun _ => rfl

theorem Keeps.get : Keeps g (get : Run ε σ σ) := fun _ => rfl

theorem Keeps.fail (e : ε) : Keeps g (fail e : Run ε σ α) := fun _ => rfl

theorem Keeps.modify {h : σ → σ} (hg : ∀ s, g (h s) = g s) : Keeps g (modify h : Run ε σ Unit) := hg

instance (g : σ → γ) : IsPreorder σ fun s s' => g s' = g s where
  refl _ := rfl
  trans _ _ _ h h' := h'.trans h

theorem Keeps.bind (hm : Keeps g m) (hf : ∀ a, Keeps g (f a)) : Keeps g (m >>= f) :=
  Along.bind (T := fun s s' => g s' = g s) hm hf

theorem Keeps.check (c : Prop) [Decidable c] (e : ε) : Keeps g (check c e : Run ε σ Unit) :=
  Along.check (T := fun s s' => g s' = g s)

theorem Keeps.ite [Decidable c] (hm : Keeps g m) (hn : Keeps g n) : Keeps g (if c then m else n) :=
  Along.ite (T := fun s s' => g s' = g s) hm hn

theorem Keeps.ofOption (x : Option α) (e : ε) : Keeps g (ofOption x e : Run ε σ α) :=
  Along.ofOption (T := fun s s' => g s' = g s)

theorem Keeps.ofExcept (x : Except ε α) : Keeps g (ofExcept x : Run ε σ α) :=
  Along.ofExcept (T := fun s s' => g s' = g s)

theorem Along.spec {R : σ → σ → Prop} (hm : Along R m) (hP : ∀ s s', R s s' → P s → P s') : Preserves P m := by
  intro s hs
  have hkeep := hP s _ (hm s) hs
  split
  · rename_i heq
    rwa [heq] at hkeep
  · rename_i heq
    rwa [heq] at hkeep

theorem Keeps.spec (hk : Keeps g m) (hP : ∀ s s', g s' = g s → P s → P s') : Preserves P m :=
  Along.spec (R := fun s s' => g s' = g s) hk hP

def Returns (m : Run ε σ α) (p : α → Prop) : Prop := ∀ s a s', m s = (.ok a, s') → p a

variable {p : α → Prop}

theorem Returns.bind {q : β → Prop} (hm : Returns m p) (hf : ∀ a, p a → Returns (f a) q) :
    Returns (m >>= f) q := by
  intro s b s' h
  obtain ⟨a, s₁, ha, hb⟩ := bind_run_ok.1 h
  exact hf a (hm s a s₁ ha) s₁ b s' hb

theorem Returns.pure (h : p a) : Returns (pure a : Run ε σ α) p := by
  rintro s _ _ ⟨⟩
  exact h

theorem Returns.fail : Returns (fail e : Run ε σ α) p := by
  rintro s _ _ ⟨⟩

theorem Returns.trivial : Returns m fun _ => True := fun _ _ _ _ => True.intro

theorem Returns.ite [Decidable c] (hm : Returns m p) (hn : Returns n p) :
    Returns (if c then m else n) p := by
  split
  · exact hm
  · exact hn

/-- The triple of a computation that leaves the part `g` alone: what only depends on that part is kept. -/
theorem Keeps.invariant (hk : Keeps g m) (hr : Returns m p) (hP : ∀ s s', g s' = g s → P s → P s') :
    Spec P m (fun a s => p a ∧ P s) (fun _ => P) := by
  intro s hs
  have hk := hk s
  have hr := hr s
  generalize m s = r at hk hr
  obtain ⟨e | a, s'⟩ := r
  · exact hP s s' hk hs
  · exact ⟨hr a s' rfl, hP s s' hk hs⟩

end Run

end Silo.Lib
