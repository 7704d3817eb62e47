import Mathlib.Data.List.Basic
import Silo.Lib.Steps
/-!
# Reaping as PID 1

The supervisor's registry against the children of PID 1, under every order of the
steps. `spawn_lock` is held from a fork to its registration and through a pass of
`reap_adopted_children`, but not by the waits of owners and the drops of guards.
-/

namespace Silo.Agent

open Lib Option

/-- A child that nobody has reaped: spawned through the supervisor, or an orphan. Its `serial` is its own. -/
structure Process where
  serial : Nat
  (supervised exited : Bool)
deriving DecidableEq

/-- What holds `spawn_lock`. A pass has the pids that were tracked and the number of processes born when it began,
then the pids it has still to wait for. -/
inductive SpawnLock where
  | free
  | forked (pid : Nat)
  | scanning (tracked : List Nat) (born : Nat)
  | reaping (tracked pids : List Nat)
deriving DecidableEq

/-- `children` are the pids of the registry, `guards` those of the guards not dropped yet. The last two are history: what
the latest pass has reaped, and the orphans that had exited, untracked, when it began. -/
structure Pid1Supervisor where
  processes : Nat → Option Process := fun _ => none
  children : List Nat := []
  guards : List Nat := []
  spawn_lock : SpawnLock := .free
  born : Nat := 0
  reaped : List Process := []
  due : Nat → Option Process := fun _ => none

inductive Pid1Event where
  | fork (pid : Nat)
  | register_child
  | adopt (pid : Nat) (exited : Bool)
  | exit (pid : Nat)
  | wait (pid : Nat)
  | drop (pid : Nat)
  | begin_pass
  | current_child_pids (found : Option (List Nat))
  | reap_child

namespace Pid1Supervisor

abbrev put (s : Pid1Supervisor) (pid : Nat) (p : Option Process) : Pid1Supervisor :=
  { s with processes := fun q => if q = pid then p else s.processes q }

/-- There are pids below `pid_max`. `/proc` shows every process that is there throughout the scan; an error in reading
it ends the pass. -/
def step (pid_max : Nat) (s : Pid1Supervisor) : Pid1Event → Option Pid1Supervisor
  | .fork pid =>
    match s.spawn_lock, s.processes pid with
    | .free, none =>
      if pid < pid_max then
        some ({ s with spawn_lock := .forked pid, born := s.born + 1 }.put pid (some ⟨s.born, true, false⟩))
      else none
    | _, _ => none
  | .register_child =>
    match s.spawn_lock with
    | .forked pid => some { s with children := pid :: s.children, guards := pid :: s.guards, spawn_lock := .free }
    | _ => none
  | .adopt pid exited =>
    if pid < pid_max ∧ (s.processes pid).isNone then
      some ({ s with born := s.born + 1 }.put pid (some ⟨s.born, false, exited⟩))
    else none
  | .exit pid => (s.processes pid).map fun p => s.put pid (some { p with exited := true })
  | .wait pid =>
    match s.processes pid with
    -- the owner has the child once it is registered
    | some ⟨_, true, true⟩ => if s.spawn_lock = .forked pid then none else some (s.put pid none)
    | _ => none
  | .drop pid =>
    if pid ∈ s.guards then
      some { s with guards := s.guards.erase pid, children := s.children.filter (· ≠ pid) }
    else none
  | .begin_pass =>
    match s.spawn_lock with
    | .free => some { s with
        spawn_lock := .scanning s.children s.born
        reaped := []
        due := fun pid => (s.processes pid).filter fun p => p.exited && !p.supervised && pid ∉ s.children }
    | _ => none
  | .current_child_pids found =>
    match s.spawn_lock, found with
    | .scanning _ _, none => some { s with spawn_lock := .free }
    | .scanning tracked born, some found =>
      if ∀ pid < pid_max, (s.processes pid).any (·.serial < born) → pid ∈ found then
        some { s with spawn_lock := .reaping tracked found }
      else none
    | _, _ => none
  | .reap_child =>
    match s.spawn_lock with
    | .reaping _ [] => some { s with spawn_lock := .free }
    | .reaping tracked (pid :: pids) =>
      if pid ∈ tracked then some { s with spawn_lock := .reaping tracked pids }
      else match (s.processes pid).filter (·.exited) with
        -- the loop waits for the pid again
        | some p => some ({ s with reaped := p :: s.reaped }.put pid none)
        | none => some { s with spawn_lock := .reaping tracked pids }
    | _ => none

/-- No guard is dropped while a child of the supervisor that its owner has not waited for has the guard's pid. -/
def Orderly (s : Pid1Supervisor) : Pid1Event → Prop
  | .drop pid => ∀ p, s.processes pid = some p → p.supervised = false
  | _ => True

/-- The registry has every child of the supervisor but the one just forked, a pass leaves the pids of all of them alone,
and what is due and not reaped yet is still ahead of it. -/
structure Inv (pid_max : Nat) (s : Pid1Supervisor) : Prop where
  born : ∀ pid p, s.processes pid = some p → p.serial < s.born ∧ pid < pid_max
  owned : ∀ pid p, s.processes pid = some p → p.supervised → pid ∈ s.children ∨ s.spawn_lock = .forked pid
  scanning : ∀ tracked born, s.spawn_lock = .scanning tracked born →
    (∀ pid p, s.processes pid = some p → p.supervised → pid ∈ tracked) ∧
      ∀ pid p, s.due pid = some p → p ∉ s.reaped → p.serial < born ∧ pid ∉ tracked
  reaping : ∀ tracked pids, s.spawn_lock = .reaping tracked pids →
    (∀ pid p, s.processes pid = some p → p.supervised → pid ∈ tracked) ∧
      ∀ pid p, s.due pid = some p → p ∉ s.reaped → pid ∈ pids ∧ pid ∉ tracked
  due : ∀ pid p, s.due pid = some p → p.exited ∧ p.supervised = false ∧ (p ∈ s.reaped ∨ s.processes pid = some p)
  orphans : ∀ p ∈ s.reaped, p.supervised = false

variable {pid_max : Nat} {s s' : Pid1Supervisor} {e : Pid1Event}

theorem Inv.begin_pass (h : Inv pid_max s) (hs : s.step pid_max .begin_pass = some s') : Inv pid_max s' := by
  obtain ⟨hborn, howned, hscanning, hreaping, hdue, horphans⟩ := h
  simp only [Pid1Supervisor.step] at hs
  split at hs <;> cases hs
  constructor <;> grind [filter_eq_some_iff]

theorem Inv.current_child_pids (h : Inv pid_max s) {found : Option (List Nat)}
    (hs : s.step pid_max (.current_child_pids found) = some s') : Inv pid_max s' := by
  obtain ⟨hborn, howned, hscanning, hreaping, hdue, horphans⟩ := h
  simp only [Pid1Supervisor.step] at hs
  repeat' split at hs
  all_goals cases hs
  all_goals constructor <;> grind

theorem Inv.reap_child (h : Inv pid_max s) (hs : s.step pid_max .reap_child = some s') : Inv pid_max s' := by
  obtain ⟨hborn, howned, hscanning, hreaping, hdue, horphans⟩ := h
  simp only [Pid1Supervisor.step] at hs
  repeat' split at hs
  all_goals cases hs
  all_goals constructor <;> grind [filter_eq_some_iff, filter_eq_none_iff]

theorem Inv.step (h : Inv pid_max s) (he : s.Orderly e) (hs : s.step pid_max e = some s') : Inv pid_max s' := by
  cases e
  case begin_pass => exact h.begin_pass hs
  case current_child_pids found => exact h.current_child_pids hs
  case reap_child => exact h.reap_child hs
  all_goals
    obtain ⟨hborn, howned, hscanning, hreaping, hdue, horphans⟩ := h
    simp only [Pid1Supervisor.step] at hs
  case exit pid =>
    -- what is due had exited already, so the table keeps it as it was
    obtain ⟨⟨serial, supervised, exited⟩, hp, rfl⟩ := map_eq_some_iff.1 hs
    constructor <;> grind
  case drop pid =>
    -- the only event that takes a pid out of the registry
    have he : ∀ p, s.processes pid = some p → p.supervised = false := he
    split_ifs at hs
    cases hs
    constructor <;> grind
  all_goals repeat' split at hs
  all_goals cases hs
  all_goals constructor <;> grind

/-- In every run whose guards are dropped in order, no pass reaps a child of the supervisor, and a pass that comes to its
end has reaped every orphan that was due. -/
theorem steals_nothing (h : ReachesBy (step pid_max) Orderly {} s) :
    (∀ p ∈ s.reaped, p.supervised = false) ∧
      ∀ tracked, s.spawn_lock = .reaping tracked [] → ∀ pid p, s.due pid = some p → p ∈ s.reaped := by
  have hinv : Inv pid_max s := ReachesBy.invariant h (fun _ _ _ ht he hs => ht.step he hs) (by constructor <;> simp)
  refine ⟨hinv.orphans, fun tracked hlock pid p hdue => ?_⟩
  by_contra hreaped
  have hleft := ((hinv.reaping tracked [] hlock).2 pid p hdue hreaped).1
  cases hleft

/-- A child is waited for and its guard dropped, its pid goes to another child, and a pass finds that one and an orphan,
both of which have exited. -/
def orphanPass : List Pid1Event :=
  [.fork 0, .register_child, .exit 0, .wait 0, .drop 0, .fork 0, .register_child, .exit 0, .adopt 1 true, .begin_pass,
    .current_child_pids (some [0, 1]), .reap_child, .reap_child, .reap_child]

theorem orphan_reaped : ∃ s, runSteps (step 2) orphanPass {} = some s ∧ s.due 1 = some ⟨2, false, true⟩ ∧
    ⟨2, false, true⟩ ∈ s.reaped ∧ s.processes 0 = some ⟨1, true, true⟩ := by
  have hall : AllAllowed (step 2) Orderly orphanPass {} := by
    iterate 4
      refine ⟨trivial, ?_⟩
      rintro _ ⟨⟩
    refine ⟨nofun, fun _ _ => ?_⟩
    repeat refine ⟨trivial, fun _ _ => ?_⟩
    exact trivial
  exact ⟨_, rfl, rfl, (steals_nothing (reachesBy_runSteps orphanPass hall rfl)).2 [0] rfl 1 _ rfl, rfl⟩

/-- The guard of a child that was waited for is dropped after its pid went to a new child, which is then reaped. An
error of the scan ends the pass with an orphan that was due. -/
theorem reused_pid_stolen :
    (∃ s, runSteps (step 1) [.fork 0, .register_child, .exit 0, .wait 0, .fork 0, .register_child, .drop 0, .exit 0,
      .begin_pass, .current_child_pids (some [0]), .reap_child] {} = some s ∧ s.reaped = [⟨1, true, true⟩]) ∧
    ∃ s, runSteps (step 1) [.adopt 0 true, .begin_pass, .current_child_pids none] {} = some s ∧
      s.spawn_lock = .free ∧ s.due 0 = some ⟨0, false, true⟩ ∧ s.reaped = [] :=
  ⟨⟨_, rfl, rfl⟩, _, rfl, rfl, rfl, rfl⟩

end Pid1Supervisor
end Silo.Agent
