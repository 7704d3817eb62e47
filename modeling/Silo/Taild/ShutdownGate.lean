import Mathlib.Algebra.Group.Nat.Defs
import Mathlib.Data.List.Basic
import Silo.Lib.Steps
/-!
# The shutdown gate

`ShutdownGate` and the marker file it keeps, under every order of the steps of its
calls. A load, a compare-and-swap and an operation on the marker are a step each; the
operations of `AtomicWrite` before its rename change no marker, and are one step.
`Mark` and `Recover` hold `diskMu`, so one of them is under way at a time.
-/

namespace Silo.Taild

open Lib List

/-- The call that holds `diskMu`, before its next step; `renamed` and `removed` are before the sync of the directory.
A `Recover` carries its revision and how many times the gate had been sealed when that was read. -/
inductive DiskCall where
  | idle
  | mark
  | marking
  | renamed
  | recover (revision seals : Nat)
  | clearing (revision seals : Nat)
  | removed (revision seals : Nat)
  | cleared (revision seals : Nat)
  deriving DecidableEq

/-- The gate with its marker file. `loaded` are the revisions that calls of `Seal` have loaded and not yet swapped,
`reads` the revisions callers know, with the number of seals before.

The rest is history: how far the revision has been advanced in all, now and at the last seal, the number of seals, the
`reads` with which `Recover` succeeded; whether a `Mark` has returned without error or a `Recover` has succeeded since
the last seal; and whether a `Recover` has removed the marker and then failed, since it was last written. -/
structure ShutdownGate where
  revision : Nat := 0
  marker : Bool := false
  diskMu : DiskCall := .idle
  loaded : List Nat := []
  reads : List (Nat × Nat) := []
  advanced : Nat := 0
  sealedAt : Nat := 0
  seals : Nat := 0
  recovered : List Nat := []
  marked : Bool := false
  reopened : Bool := false
  lost : Bool := false

def sealStep (old : Nat) : Nat := if old % 2 ≠ 0 then 2 else 1

def recoverStep (revision : Nat) : Nat := if revision % 2 = 0 then 2 else 1

namespace ShutdownGate

def pending (g : ShutdownGate) : Bool := g.revision % 2 ≠ 0

/-- A revision is a `uint64`. -/
def advance (g : ShutdownGate) (n : Nat) : ShutdownGate :=
  { g with revision := (g.revision + n) % 2 ^ 64, advanced := g.advanced + n }

/-- `CompareAndSwap` of `Seal` succeeds, and its caller gets the new revision. -/
def sealGate (g : ShutdownGate) : ShutdownGate :=
  let g := g.advance (sealStep g.revision)
  { g with
    seals := g.seals + 1, sealedAt := g.advanced, marked := false, reopened := false
    reads := g.reads ++ [(g.revision, g.seals + 1)] }

/-- The next step of the call that holds `diskMu`, where `ok` says that its operation on the disk succeeds. -/
def proceed (g : ShutdownGate) (ok : Bool) : Option ShutdownGate :=
  match g.diskMu with
  | .idle => none
  | .mark => if !g.pending then some { g with diskMu := .idle, marked := true } else some { g with diskMu := .marking }
  | .marking =>
    if ok then some { g with diskMu := .renamed, marker := true, lost := false } else some { g with diskMu := .idle }
  | .renamed => some { g with diskMu := .idle, marked := g.marked || ok }
  | .recover revision seals =>
    if g.revision ≠ revision then some { g with diskMu := .idle } else some { g with diskMu := .clearing revision seals }
  | .clearing revision seals =>
    if !ok then some { g with diskMu := .idle }
    else if g.marker then some { g with diskMu := .removed revision seals, marker := false }
    else some { g with diskMu := .cleared revision seals }
  | .removed revision seals =>
    if ok then some { g with diskMu := .cleared revision seals } else some { g with diskMu := .idle, lost := true }
  | .cleared revision seals =>
    if g.revision ≠ revision then some { g with diskMu := .idle }
    else some { g.advance (recoverStep revision) with
      diskMu := .idle, reopened := true, recovered := seals :: g.recovered }

end ShutdownGate

inductive GateEvent where
  | load
  | swap (i : Nat)
  | read
  | mark
  | recover (i : Nat)
  | proceed (ok : Bool)

def ShutdownGate.step (g : ShutdownGate) : GateEvent → Option ShutdownGate
  | .load => some { g with loaded := g.loaded ++ [g.revision] }
  | .swap i => do
    let old ← g.loaded[i]?
    let rest := { g with loaded := g.loaded.eraseIdx i }
    if g.revision = old then some rest.sealGate else some rest
  | .read => some { g with reads := g.reads ++ [(g.revision, g.seals)] }
  | .mark => if g.diskMu = .idle then some { g with diskMu := .mark } else none
  | .recover i => do
    let (revision, seals) ← g.reads[i]?
    if g.diskMu = .idle then some { g with diskMu := .recover revision seals } else none
  | .proceed ok => g.proceed ok

/-! ## What every run keeps -/

namespace ShutdownGate

/-- A revision that was read with `seals` seals before. -/
def Known (g : ShutdownGate) (revision seals : Nat) : Prop :=
  ∃ at_ ≤ g.advanced, revision = at_ % 2 ^ 64 ∧ (seals < g.seals → at_ < g.sealedAt)

/-- What holds of the call under way. Until it has swapped, a `Recover` that saw its revision still sees it, unless
the gate has been sealed since. -/
def Sound (g : ShutdownGate) : DiskCall → Prop
  | .idle | .mark | .marking => True
  | .renamed => g.marker ∧ g.lost = false
  | .recover revision seals => g.Known revision seals
  | .clearing revision seals | .removed revision seals | .cleared revision seals =>
    g.Known revision seals ∧ (g.revision = revision ∨ g.marked = false)

structure Inv (g : ShutdownGate) : Prop where
  revision : g.revision = g.advanced % 2 ^ 64
  sealedAt : g.sealedAt ≤ g.advanced
  reads : ∀ r ∈ g.reads, g.Known r.1 r.2
  call : g.Sound g.diskMu
  pending : g.seals ≠ 0 → g.reopened = false → g.pending
  recovered : g.advanced < 2 ^ 64 → g.reopened → ∃ seals ∈ g.recovered, g.seals ≤ seals
  marker : g.seals ≠ 0 → g.marked → g.reopened = false → g.lost = false →
    g.marker ∨ ∃ revision seals, g.diskMu = .removed revision seals ∨ g.diskMu = .cleared revision seals

variable {g g' : ShutdownGate}

theorem Known.seal {revision seals : Nat} (h : g.Known revision seals) : g.sealGate.Known revision seals := by
  obtain ⟨at_, hle, hrev, -⟩ := h
  have : 0 < sealStep g.revision := by unfold sealStep; split <;> decide
  exact ⟨at_, Nat.le_add_right_of_le hle, hrev, fun _ => by simp only [sealGate, advance]; omega⟩

/-- Only the revision that the gate still has was read at its last seal or later. -/
theorem Known.current {revision seals : Nat} (h : g.Inv) (hk : g.Known revision seals) (hsame : g.revision = revision)
    (hlt : g.advanced < 2 ^ 64) : g.seals ≤ seals := by
  obtain ⟨at_, hle, hrev, hold⟩ := hk
  refine Nat.le_of_not_lt fun hlater => ?_
  have := hold hlater
  have := h.revision
  have := h.sealedAt
  omega

theorem Inv.sealGate (h : g.Inv) : g.sealGate.Inv := by
  obtain ⟨hrevision, hsealed, hreads, hcall, -, -, -⟩ := h
  have hpos : 0 < sealStep g.revision := by unfold sealStep; split <;> decide
  refine ⟨?_, Nat.le_refl _, ?_, ?_, fun _ _ => ?_, fun _ => nofun, fun _ => nofun⟩
  · simp only [ShutdownGate.sealGate, advance]
    omega
  · refine forall_mem_append.2 ⟨fun r hr => (hreads r hr).seal, forall_mem_singleton.2
      ⟨_, Nat.le_refl _, ?_, fun hlt => absurd hlt (Nat.lt_irrefl _)⟩⟩
    simp only [ShutdownGate.sealGate, advance]
    omega
  · have hmu : g.sealGate.diskMu = g.diskMu := rfl
    rw [hmu]
    cases hg : g.diskMu <;> rw [hg] at hcall
    case idle | mark | marking => trivial
    case renamed => exact hcall
    case recover => exact Known.seal hcall
    case clearing | removed | cleared => exact ⟨hcall.1.seal, .inr rfl⟩
  · have hodd : g.sealGate.revision % 2 = 1 := by
      simp only [ShutdownGate.sealGate, advance, sealStep]
      split <;> omega
    simp [ShutdownGate.pending, hodd]

theorem Inv.proceed {ok : Bool} (h : g.Inv) (hs : g.proceed ok = some g') : g'.Inv := by
  have hcall := h.call
  have hmarker := h.marker
  unfold ShutdownGate.proceed at hs
  split at hs <;> rename_i hg <;> rw [hg] at hcall <;> simp only [hg] at hmarker
  · cases hs
  · split_ifs at hs with hopen <;> cases hs
    · refine { h with call := trivial, marker := fun hseals _ hreopened => ?_ }
      simp [h.pending hseals hreopened] at hopen
    · exact { h with call := trivial, marker := by simpa using hmarker }
  · split_ifs at hs <;> cases hs
    · exact { h with call := ⟨rfl, rfl⟩, marker := fun _ _ _ _ => .inl rfl }
    · exact { h with call := trivial, marker := by simpa using hmarker }
  · cases hs
    exact { h with call := trivial, marker := fun _ _ _ _ => .inl hcall.1 }
  · split_ifs at hs with hsame <;> cases hs
    · exact { h with call := trivial, marker := by simpa using hmarker }
    · exact { h with call := ⟨hcall, .inl (not_not.1 hsame)⟩, marker := by simpa using hmarker }
  · split_ifs at hs <;> cases hs
    · exact { h with call := trivial, marker := by simpa using hmarker }
    · exact { h with call := hcall, marker := fun _ _ _ _ => .inr ⟨_, _, .inl rfl⟩ }
    · exact { h with call := hcall, marker := fun _ _ _ _ => .inr ⟨_, _, .inr rfl⟩ }
  · split_ifs at hs <;> cases hs
    · exact { h with call := hcall, marker := fun _ _ _ _ => .inr ⟨_, _, .inr rfl⟩ }
    · exact { h with call := trivial, marker := fun _ _ _ => nofun }
  · rename_i revision seals
    split_ifs at hs with hsame <;> cases hs
    · refine { h with call := trivial, marker := fun _ hmarked => ?_ }
      simp [hcall.2.resolve_left hsame] at hmarked
    · have hcurrent := hcall.1.current h (not_not.1 hsame)
      have hle : g.advanced ≤ g.advanced + recoverStep revision := Nat.le_add_right _ _
      refine ⟨?_, Nat.le_trans h.sealedAt hle, ?_, trivial, fun _ => nofun, fun hlt _ => ?_, fun _ _ => nofun⟩
      · have := h.revision
        simp only [advance]
        omega
      · intro r hr
        obtain ⟨at_, hat, hrest⟩ := h.reads r hr
        exact ⟨at_, Nat.le_trans hat hle, hrest⟩
      · exact ⟨seals, mem_cons_self, hcurrent (Nat.lt_of_le_of_lt hle hlt)⟩

theorem Inv.step {event : GateEvent} (h : g.Inv) (hs : g.step event = some g') : g'.Inv := by
  cases event with
  | load =>
    cases hs
    exact { h with }
  | swap i =>
    obtain ⟨old, -, hs⟩ := Option.bind_eq_some_iff.1 hs
    have hrest : ({ g with loaded := g.loaded.eraseIdx i } : ShutdownGate).Inv := { h with }
    split_ifs at hs <;> cases hs
    · exact hrest.sealGate
    · exact hrest
  | read =>
    cases hs
    refine { h with reads := forall_mem_append.2 ⟨h.reads, ?_⟩ }
    rw [forall_mem_singleton]
    exact ⟨g.advanced, Nat.le_refl _, h.revision, fun hlt => absurd hlt (Nat.lt_irrefl _)⟩
  | mark =>
    simp only [ShutdownGate.step] at hs
    split_ifs at hs with hidle
    cases hs
    exact { h with call := trivial, marker := by simpa [hidle] using h.marker }
  | recover i =>
    obtain ⟨⟨revision, seals⟩, hread, hs⟩ := Option.bind_eq_some_iff.1 hs
    simp only at hs
    split_ifs at hs with hidle
    cases hs
    exact { h with call := h.reads _ (mem_of_getElem? hread), marker := by simpa [hidle] using h.marker }
  | proceed ok => exact h.proceed hs

/-- Shutdown is not undone by stale recovery. The gate is pending from every seal until a `Recover` succeeds with a
revision read at that seal or later; and the marker exists when no call is on the disk, a `Mark` has returned without
error since the last seal and no `Recover` has succeeded, unless one has removed the marker and failed to sync. The
first needs that the revision has not wrapped around. -/
theorem shutdown_not_undone (marker : Bool) (h : Reaches step { marker := marker } g) :
    (g.advanced < 2 ^ 64 → ∀ k, 1 ≤ k → k ≤ g.seals → g.pending = true ∨ ∃ seals ∈ g.recovered, k ≤ seals) ∧
      (g.diskMu = .idle → g.seals ≠ 0 → g.marked = true → g.reopened = false → g.lost = false → g.marker = true) := by
  have hinv : g.Inv := by
    refine h.invariant (fun _ _ _ ht he => ht.step he) ?_
    exact ⟨rfl, Nat.le_refl _, nofun, trivial, fun hseals => absurd rfl hseals, fun _ => nofun, fun hseals => absurd rfl hseals⟩
  refine ⟨fun hwrap k hk hle => ?_, fun hidle hseals hmarked hopen hlost => ?_⟩
  · cases hreopened : g.reopened with
    | false => exact .inl (hinv.pending (by omega) hreopened)
    | true =>
      obtain ⟨seals, hmem, hseals⟩ := hinv.recovered hwrap hreopened
      exact .inr ⟨seals, hmem, Nat.le_trans hle hseals⟩
  · simpa [hidle] using hinv.marker hseals hmarked hopen hlost

/-- A seal and its mark. -/
def sealAndMark : List GateEvent := [.load, .swap 0, .mark, .proceed true, .proceed true, .proceed true]

theorem sealed_and_marked : ∃ g, runSteps step sealAndMark {} = some g ∧ g.pending = true ∧ g.marker = true := by
  refine ⟨_, rfl, rfl, ?_⟩
  exact (shutdown_not_undone false (reaches_runSteps sealAndMark rfl)).2 rfl (by decide) rfl rfl rfl

/-- The recovery that follows removes the marker and fails in the sync of the directory: it has not succeeded, the
gate is still sealed and marked, and the marker is gone. -/
theorem failed_recovery_unmarks : ∃ g,
    runSteps step (sealAndMark ++ [.recover 0, .proceed true, .proceed true, .proceed false]) {} = some g ∧
      g.diskMu = .idle ∧ g.seals = 1 ∧ g.marked = true ∧ g.reopened = false ∧ g.marker = false := by
  exact ⟨_, rfl, rfl, rfl, rfl, rfl, rfl⟩

end ShutdownGate
end Silo.Taild
