import Silo.Libvm.Transitions
/-!
# Runs of a machine's stored state

Every write of the runtime does one of three things: it ends a run, it opens one, or it
goes on with the run that is stored. The invariant of the stored state follows for every
sequence of writes, but for a monitor that is observed when no run is stored.
-/

namespace Silo.Libvm

open Option Lib
open Rust (Str)

/-! ## Writes -/

inductive Write where
  | event (e : Event) (now : Int)
  | refresh (now : Int)
  | mark_stopped (last_error : Option Str) (now : Int)
  deriving DecidableEq, Repr

def Write.apply (s : MachineState) : Write → Option MachineState
  | .event e now => (reduce s e now).toOption
  | .refresh now => if s.status = .Starting then some (refresh_starting s now) else none
  | .mark_stopped last_error now => some (mark_machine_stopped s.machine_id last_error now)

/-- The callers take the run id of a `MonitorObserved` and of a `StopRequested` from the stored state. -/
def AsBuilt (s : MachineState) : Write → Prop
  | .event (.MonitorObserved _ _ run_id) _ => run_id = s.run_id
  | .event (.StopRequested _ _ run_id) _ => run_id = s.run_id
  | _ => True

def Write.opens : Write → Option Str
  | .event (.StartRequested run_id) _ => some run_id
  | _ => none

/-- A monitor is observed while no run is stored. -/
def Adopts (s : MachineState) : Write → Prop
  | .event (.MonitorObserved _ _ _) _ => is_active s.status = false
  | _ => False

/-- The states writes lead to from `s₀`, each made where `ok` allows it, with the run of the latest accepted
`StartRequested`. -/
inductive Reaches (ok : MachineState → Write → Prop) (s₀ : MachineState) : MachineState → Option Str → Prop where
  | start : Reaches ok s₀ s₀ none
  | step {s s' : MachineState} {last : Option Str} {w : Write} :
      Reaches ok s₀ s last → AsBuilt s w → ok s w → w.apply s = some s' → Reaches ok s₀ s' (w.opens.or last)

variable {s s' : MachineState} {w : Write} {last : Option Str}

/-! ## What a write does -/

structure Ended (s : MachineState) : Prop where
  status : s.status = .Stopped ∨ s.status = .Error
  vmm_pid : s.vmm_pid = none
  started_at : s.started_at = none
  run_id : s.run_id = none

theorem not_active_iff : is_active s.status = false ↔ s.status = .Stopped ∨ s.status = .Error := by
  cases s.status <;> simp [is_active]

structure Continues (s s' : MachineState) : Prop where
  active : is_active s'.status
  run_id : s'.run_id = s.run_id
  vmm_pid : s'.status ≠ .Starting → s'.vmm_pid ≠ none

theorem ended_replace_runtime {status : MachineRuntimeState} (h : status = .Stopped ∨ status = .Error)
    (last_error : Option Str) (now : Int) : Ended (replace_runtime s status none none none last_error now) :=
  ⟨h, rfl, rfl, rfl⟩

theorem reduce_cases {e : Event} {now : Int} (hbuilt : AsBuilt s (.event e now)) (h : reduce s e now = .ok s') :
    Ended s' ∨
    (∃ run_id, e = .StartRequested run_id ∧ s'.status = .Starting ∧ s'.run_id = some run_id) ∨
    (Continues s s' ∧ (is_active s.status ∨ Adopts s (.event e now)) ∧ (Write.event e now).opens = none) := by
  cases e with
  | StartRequested run_id =>
    simp only [reduce, start_requested, bind_eq_ok, pure_eq_ok, require_eq_ok] at h
    obtain ⟨_, _, rfl⟩ := h
    exact .inr (.inl ⟨run_id, rfl, rfl, rfl⟩)
  | MonitorReady run_id pid started_at =>
    simp only [reduce, monitor_ready, require_state, require_run_id, bind_eq_ok, pure_eq_ok, require_eq_ok] at h
    obtain ⟨_, hstate, _, hrun, rfl⟩ := h
    have hrun : s.run_id = some run_id := by simpa using hrun
    exact .inr (.inr ⟨⟨rfl, hrun.symm, fun _ => by simp [replace_runtime]⟩, .inl (by simp [is_active, hstate]), rfl⟩)
  | MonitorObserved pid started_at run_id =>
    obtain rfl : run_id = s.run_id := hbuilt
    simp only [reduce, monitor_observed, pure_eq_ok] at h
    subst h
    refine .inr (.inr ⟨⟨?_, rfl, fun _ => by simp [replace_runtime]⟩, ?_, rfl⟩)
    · cases s.status <;> rfl
    · show is_active s.status = true ∨ is_active s.status = false
      cases is_active s.status <;> simp
  | StartFailed run_id failure error =>
    simp only [reduce, start_failed, bind_eq_ok, pure_eq_ok] at h
    obtain ⟨_, _, _, _, rfl⟩ := h
    exact .inl (ended_replace_runtime (by cases failure <;> simp) _ _)
  | StopRequested pid started_at run_id =>
    obtain rfl : run_id = s.run_id := hbuilt
    simp only [reduce, stop_requested, bind_eq_ok, pure_eq_ok, require_eq_ok] at h
    obtain ⟨_, hstate, _, _, rfl⟩ := h
    refine .inr (.inr ⟨⟨rfl, rfl, fun _ => by simp [replace_runtime]⟩, .inl ?_, rfl⟩)
    rw [← not_active_iff] at hstate
    simpa using hstate
  | StopCompleted pid started_at run_id last_error =>
    simp only [reduce, stop_completed, bind_eq_ok, pure_eq_ok] at h
    obtain ⟨_, _, _, _, rfl⟩ := h
    exact .inl (ended_replace_runtime (.inl rfl) _ _)
  | ExitObserved clean error =>
    simp only [reduce, exit_observed, pure_eq_ok] at h
    subst h
    exact .inl (ended_replace_runtime (by cases clean <;> simp) _ _)
  | MonitorGone last_error =>
    simp only [reduce, monitor_gone, pure_eq_ok] at h
    subst h
    exact .inl (ended_replace_runtime (by cases s.status <;> simp) _ _)
  | StartTimedOut =>
    simp only [reduce, start_timed_out, bind_eq_ok, pure_eq_ok] at h
    obtain ⟨_, _, rfl⟩ := h
    exact .inl (ended_replace_runtime (.inr rfl) _ _)

theorem write_cases (hbuilt : AsBuilt s w) (h : w.apply s = some s') :
    Ended s' ∨
    (∃ run_id, w.opens = some run_id ∧ s'.status = .Starting ∧ s'.run_id = some run_id) ∨
    (Continues s s' ∧ (is_active s.status ∨ Adopts s w) ∧ w.opens = none) := by
  cases w with
  | event e now =>
    have hok : reduce s e now = .ok s' := by
      simp only [Write.apply] at h
      cases hr : reduce s e now with
      | error e => rw [hr] at h; cases h
      | ok t => rw [hr] at h; cases h; rfl
    rcases reduce_cases hbuilt hok with hend | ⟨run_id, rfl, hstate, hrun⟩ | hgo
    · exact .inl hend
    · exact .inr (.inl ⟨run_id, rfl, hstate, hrun⟩)
    · exact .inr (.inr hgo)
  | refresh now =>
    simp only [Write.apply, ite_none_right_eq_some, some.injEq] at h
    obtain ⟨hstarting, rfl⟩ := h
    have hactive : is_active s.status := by simp [is_active, hstarting]
    exact .inr (.inr ⟨⟨hactive, rfl, fun hne => absurd hstarting hne⟩, .inl hactive, rfl⟩)
  | mark_stopped last_error now =>
    simp only [Write.apply, some.injEq] at h
    subst h
    exact .inl ⟨.inl rfl, rfl, rfl, rfl⟩

/-! ## The invariant -/

/-- What the stored state carries, when `last` is the run of the latest accepted `StartRequested`. -/
structure MachineInv (s : MachineState) (last : Option Str) : Prop where
  ended : s.status = .Stopped ∨ s.status = .Error → s.vmm_pid = none ∧ s.started_at = none ∧ s.run_id = none
  monitored : s.status = .Running ∨ s.status = .Stopping → s.vmm_pid ≠ none
  starting : s.status = .Starting → s.run_id = last
  run : is_active s.status → s.run_id = last ∧ last ≠ none

theorem Ended.inv (h : Ended s) (last : Option Str) : MachineInv s last := by
  have hstatus := h.status
  constructor
  · intro _
    exact ⟨h.vmm_pid, h.started_at, h.run_id⟩
  · rintro (hs | hs) <;> simp [hs] at hstatus
  · intro hs
    simp [hs] at hstatus
  · intro hs
    rw [not_active_iff.2 h.status] at hs
    cases hs

theorem MachineInv.of_active (hactive : is_active s.status) (hpid : s.status ≠ .Starting → s.vmm_pid ≠ none)
    (hrun : s.run_id = last) (hlast : last ≠ none) : MachineInv s last := by
  constructor
  · intro hs
    rw [not_active_iff.2 hs] at hactive
    cases hactive
  · intro hs
    exact hpid (by rcases hs with hs | hs <;> simp [hs])
  · exact fun _ => hrun
  · exact fun _ => ⟨hrun, hlast⟩

/-- One write keeps the invariant, unless it adopts a monitor. -/
theorem MachineInv.write (h : MachineInv s last) (hbuilt : AsBuilt s w) (hok : ¬ Adopts s w) (hw : w.apply s = some s') :
    MachineInv s' (w.opens.or last) := by
  rcases write_cases hbuilt hw with hend | ⟨run_id, hopens, hstate, hrun⟩ | ⟨hgo, hactive, hopens⟩
  · exact hend.inv _
  · rw [hopens]
    exact .of_active (by simp [is_active, hstate]) (fun hne => absurd hstate hne) hrun (by simp)
  · rw [hopens]
    obtain ⟨hrun, hlast⟩ := h.run (hactive.resolve_right hok)
    exact .of_active hgo.active hgo.vmm_pid (hgo.run_id.trans hrun) hlast

/-- The stored state of a machine, along every sequence of writes in which no monitor is observed while no run is
stored. -/
theorem machineInv_of_reaches (machine_id : Str) (now : Int) (s : MachineState) (last : Option Str)
    (h : Reaches (fun s w => ¬ Adopts s w) (stopped_machine_state machine_id none now) s last) : MachineInv s last := by
  induction h with
  | start => exact (⟨.inl rfl, rfl, rfl, rfl⟩ : Ended _).inv _
  | step _ hbuilt hok hw ih => exact ih.write hbuilt hok hw

theorem machineInv_of_reaches_ready : ∃ s, s.status = .Running ∧
    Reaches (fun s w => ¬ Adopts s w) (stopped_machine_state "vm".toList none 0) s (some "run-1".toList) ∧
    MachineInv s (some "run-1".toList) := by
  let started := replace_runtime (stopped_machine_state "vm".toList none 0) .Starting none none (some "run-1".toList) none 1
  let ready := replace_runtime started .Running (some 7) (some 1) (some "run-1".toList) none 2
  have hstarted : Reaches (fun s w => ¬ Adopts s w) (stopped_machine_state "vm".toList none 0) started
      (some "run-1".toList) := .step (w := .event (.StartRequested "run-1".toList) 1) .start trivial (fun h => h) (by decide)
  have hready : Reaches (fun s w => ¬ Adopts s w) (stopped_machine_state "vm".toList none 0) ready
      (some "run-1".toList) := .step (w := .event (.MonitorReady "run-1".toList 7 1) 2) hstarted trivial (fun h => h) (by decide)
  exact ⟨ready, rfl, hready, machineInv_of_reaches _ _ _ _ hready⟩

/-- A start fails while its monitor lives on. The next observation finds the pid file and makes the machine a running
one that belongs to no run. -/
theorem observed_after_failed_start :
    let stopped := replace_runtime (stopped_machine_state "vm".toList none 0) .Stopped none none none none 2
    let host : Host := ⟨some 7, fun _ => some ⟨7, some 1, true⟩, false, none, 3⟩
    ∃ s, Reaches (fun _ _ => True) (stopped_machine_state "vm".toList none 0) s (some "run-1".toList) ∧
      observe_machine_state "vm".toList host (some stopped) = .ok s ∧ s.status = .Running ∧ s.run_id = none := by
  intro stopped host
  let started := replace_runtime (stopped_machine_state "vm".toList none 0) .Starting none none (some "run-1".toList) none 1
  have hstarted : Reaches (fun _ _ => True) (stopped_machine_state "vm".toList none 0) started
      (some "run-1".toList) := .step (w := .event (.StartRequested "run-1".toList) 1) .start trivial trivial (by decide)
  have hstopped : Reaches (fun _ _ => True) (stopped_machine_state "vm".toList none 0) stopped (some "run-1".toList) :=
    .step (w := .event (.StartFailed "run-1".toList .Stopped none) 2) hstarted trivial trivial (by decide)
  exact ⟨replace_runtime stopped .Running (some 7) (some 1) none none 3,
    .step (w := .event (.MonitorObserved 7 (some 1) none) 3) hstopped rfl trivial (by decide), by decide, rfl, rfl⟩

end Silo.Libvm
