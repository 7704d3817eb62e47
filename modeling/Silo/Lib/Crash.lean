import Mathlib.Data.List.Basic
/-!
# Writes that may be lost

A program writes to a store through a cache: a write is pending until a barrier
makes everything issued before it durable. At a crash any of the pending writes
may be missing; what is left are the durable store and some of the pending writes,
in the order they were issued.

`guarded_update` is the rule for the update protocol that first makes a mark
durable, then writes its changes behind a second barrier, and removes the mark
last: a store found unmarked is the old one or the new one.
-/

open List

namespace Silo.Lib

inductive Op (ω : Type) where
  | write (w : ω)
  | sync

/-- The store with the writes that no barrier has followed yet. -/
structure Cached (σ ω : Type) where
  durable : σ
  pending : List ω

variable {σ ω : Type} (apply : σ → ω → σ)

def issue (c : Cached σ ω) : Op ω → Cached σ ω
  | .write w => { c with pending := c.pending ++ [w] }
  | .sync => ⟨c.pending.foldl apply c.durable, []⟩

/-- `s` can be found after a crash: some of the pending writes got through. -/
def Survives (c : Cached σ ω) (s : σ) : Prop :=
  ∃ kept : List ω, kept.Sublist c.pending ∧ s = kept.foldl apply c.durable

/-- `s` can be found after a crash at some point of the run: before the next operation, or later. -/
def CrashesTo (c : Cached σ ω) : List (Op ω) → σ → Prop
  | [], s => Survives apply c s
  | op :: ops, s => Survives apply c s ∨ CrashesTo (issue apply c op) ops s

def finished (s : σ) (ops : List (Op ω)) : σ :=
  ops.foldl (fun s op => match op with | .write w => apply s w | .sync => s) s

variable (s : σ)

@[simp] theorem finished_append (a b : List (Op ω)) :
    finished apply s (a ++ b) = finished apply (finished apply s a) b := foldl_append

@[simp] theorem finished_write (w : ω) (ops : List (Op ω)) :
    finished apply s (.write w :: ops) = finished apply (apply s w) ops := rfl

@[simp] theorem finished_sync (ops : List (Op ω)) :
    finished apply s (.sync :: ops) = finished apply s ops := rfl

@[simp] theorem finished_nil : finished apply s ([] : List (Op ω)) = s := rfl

@[simp] theorem finished_writes (ws : List ω) : finished apply s (ws.map .write) = ws.foldl apply s := by
  induction ws generalizing s with
  | nil => rfl
  | cons w ws ih => exact ih (apply s w)

variable {apply}

variable {c : Cached σ ω} {s d : σ} {rest : List (Op ω)}

theorem Survives.mono (h : Survives apply c s) (ws : List ω) : Survives apply ⟨c.durable, c.pending ++ ws⟩ s := by
  obtain ⟨kept, hk, rfl⟩ := h
  exact ⟨kept, hk.trans (sublist_append_left _ _), rfl⟩

theorem Survives.crashesTo (h : Survives apply c s) (ops : List (Op ω)) : CrashesTo apply c ops s := by
  cases ops with
  | nil => exact h
  | cons op ops => exact .inl h

/-- A crash among writes leaves some of them pending; otherwise the run gets past them all. -/
theorem crashesTo_writes (ws : List ω) (h : CrashesTo apply c (ws.map .write ++ rest) s) :
    Survives apply ⟨c.durable, c.pending ++ ws⟩ s ∨ CrashesTo apply ⟨c.durable, c.pending ++ ws⟩ rest s := by
  induction ws generalizing c with
  | nil => right; simpa using h
  | cons w ws ih =>
    rcases h with h | h
    · exact .inl (h.mono _)
    · have := ih h
      simpa [issue] using this

/-- A batch of writes and the barrier after it: a crash finds some of the batch, or gets past the barrier. -/
theorem crashesTo_batch (ws : List ω) (h : CrashesTo apply ⟨d, []⟩ (ws.map .write ++ .sync :: rest) s) :
    (∃ kept : List ω, kept.Sublist ws ∧ s = kept.foldl apply d) ∨ CrashesTo apply ⟨ws.foldl apply d, []⟩ rest s := by
  have h := crashesTo_writes ws h
  simp only [nil_append] at h
  rcases h with h | h | h
  · exact .inl h
  · exact .inl h
  · exact .inr h

/-- Set a mark, write behind it, remove the mark. -/
def guarded (mark changes : List ω) (commit : ω) : List (Op ω) :=
  mark.map .write ++ .sync :: (changes.map .write ++ .sync :: ([commit].map .write ++ [.sync]))

theorem finished_guarded (mark changes : List ω) (commit : ω) :
    finished apply s (guarded mark changes commit) = apply (changes.foldl apply (mark.foldl apply s)) commit := by
  simp [guarded]

/-- A crash of a guarded update that leaves no mark leaves part of the marking writes only, or the whole update. -/
theorem guarded_update {Marked : σ → Prop} {mark changes : List ω} {commit : ω} (hmark : Marked (mark.foldl apply d))
    (hkeep : ∀ w ∈ changes, ∀ s, Marked s → Marked (apply s w))
    (h : CrashesTo apply ⟨d, []⟩ (guarded mark changes commit) s) (hs : ¬ Marked s) :
    (∃ kept : List ω, kept.Sublist mark ∧ s = kept.foldl apply d) ∨
      s = finished apply d (guarded mark changes commit) := by
  rw [finished_guarded]
  rcases crashesTo_batch mark h with h | h
  · exact .inl h
  -- behind the first barrier the mark is durable, and no change removes it
  rcases crashesTo_batch changes h with ⟨kept, hk, rfl⟩ | h
  · exact absurd (foldlRecOn kept apply hmark fun s hs w hw => hkeep w (hk.subset hw) s hs) hs
  have hall := foldlRecOn changes apply hmark fun s hs w hw => hkeep w hw s hs
  -- behind the second one everything is durable but the removal of the mark
  rcases crashesTo_batch [commit] h with ⟨kept, hk, rfl⟩ | ⟨kept, hk, rfl⟩
  · rcases sublist_singleton.1 hk with rfl | rfl
    · exact absurd hall hs
    · exact .inr rfl
  · obtain rfl := sublist_nil.1 hk
    exact .inr rfl

theorem crashesTo_of_writes (ws : List ω) (h : CrashesTo apply ⟨c.durable, c.pending ++ ws⟩ rest s)
    : CrashesTo apply c (ws.map .write ++ rest) s := by
  induction ws generalizing c with
  | nil => simpa using h
  | cons w ws ih =>
    refine .inr (ih ?_)
    simpa [issue] using h

/-- Between its barriers a guarded update can leave any part of its changes behind the mark. -/
theorem guarded_interrupted {mark changes kept : List ω} (commit : ω) (h : kept.Sublist changes) :
    CrashesTo apply ⟨d, []⟩ (guarded mark changes commit) (kept.foldl apply (mark.foldl apply d)) := by
  apply crashesTo_of_writes
  right
  apply crashesTo_of_writes
  exact .inl ⟨kept, h, rfl⟩

end Silo.Lib
