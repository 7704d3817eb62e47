import Silo.Libvm.Lifecycle
/-!
# Calls on one machine, one after the other

The machine lock lets one section run at a time, and the host moves before, within and
after each. A call that has returned a wait target is taken up again at any later time.
-/

namespace Silo.Libvm

open Lib
open Rust (Str)

inductive Call where
  | start (options : Op.StartOptions)
  | stop (expected_run_id : Option Str)
  | kill (expected_run_id : Option Str)
  | wait (expected_run_id : Option Str)
  /-- The second section of a wait that found nothing to wait for. -/
  | poll (expected_run_id : Option Str)
  /-- The rest of the stop or wait that returned a target. -/
  | finish (target : Nat)
  | remove (expected_run_id : Option Str)
  | reconcile

abbrev Target := Option Str × WaitTarget

structure System where
  world : World
  targets : List Target
  /-- The run ids drawn so far. -/
  runs : List Str

open Op in
def Call.op (targets : List Target) : Call → Op (Option Target)
  | .start options => do
    let _ ← start_with_options options
    pure none
  | .stop expected => do
    let target ← stop_impl expected
    pure (target.map fun target => (expected, target))
  | .kill expected => do
    kill_impl expected
    pure none
  | .wait expected => do
    let target ← active_wait_target expected
    pure (target.map fun target => (expected, target))
  | .poll expected => do
    let _ ← wait_poll expected
    pure none
  | .finish n =>
    match targets[n]? with
    | none => pure none
    | some (expected, target) => do
      wait_for_target_exit target expected
      pure none
  | .remove expected => do
    remove_impl expected
    pure none
  | .reconcile => do
    lock_machine_config
    let _ ← reconcile_machine_runtime_locked
    pure none

def Call.run_id : Call → Option Str
  | .start options => some options.run_id
  | _ => none

namespace System

/-- One call, with what happens on the host meanwhile, and what the call did. -/
def call (s : System) (script : List Moment) (c : Call) : System × List Entry :=
  match c.op s.targets { s.world with script, log := [] } with
  | (.ok (some target), w) => (⟨w, s.targets ++ [target], c.run_id.toList ++ s.runs⟩, w.log)
  | (_, w) => (⟨w, s.targets, c.run_id.toList ++ s.runs⟩, w.log)

inductive Step where
  | host (e : HostEvent)
  | call (script : List Moment) (c : Call)

def step (s : System) : Step → System × List Entry
  | .host e => ({ s with world := { s.world with host := s.world.host.apply s.world.machine_id e } }, [])
  | .call script c => s.call script c

/-- `Uuid::new_v4` draws a run id that was never drawn before. -/
def Enabled (s : System) : Step → Prop
  | .call _ (.start options) => options.run_id ∉ s.runs
  | _ => True

instance (s : System) (st : Step) : Decidable (s.Enabled st) := by
  unfold Enabled
  split <;> infer_instance

/-- Steps one after the other, with everything the calls did added to `log`. -/
def run (s : System) (log : List Entry) : List Step → System × List Entry
  | [] => (s, log)
  | st :: rest => (s.step st).1.run ((s.step st).2 ++ log) rest

def EnabledRun (s : System) : List Step → Prop
  | [] => True
  | st :: rest => s.Enabled st ∧ (s.step st).1.EnabledRun rest

instance decidableEnabledRun (s : System) : (steps : List Step) → Decidable (s.EnabledRun steps)
  | [] => isTrue trivial
  | st :: rest =>
    have := decidableEnabledRun (s.step st).1 rest
    inferInstanceAs (Decidable (s.Enabled st ∧ (s.step st).1.EnabledRun rest))

end System

/-- A machine that was never started, on any host. -/
structure NewMachine (w : World) : Prop where
  present : w.present
  state : ∃ now, w.state = some (stopped_machine_state w.machine_id none now)
  pid_file : w.host.pid_file = none
  exit_file : w.host.exit_file = none
  lock_file : w.host.lock_file = none
  start_lock : w.start_lock = none
  latest : w.latest = none
  monitor : w.monitor = none

/-- The systems that steps lead to from a new machine, with everything the calls did on the way. -/
inductive SystemReaches : System → List Entry → Prop where
  | init {w : World} (h : NewMachine w) : SystemReaches ⟨w, [], []⟩ []
  | step {s : System} {log : List Entry} {st : System.Step} (h : SystemReaches s log) (he : s.Enabled st) :
      SystemReaches (s.step st).1 ((s.step st).2 ++ log)

def World.idle (machine_id : MachineId) (retention : MachineRetention) : World where
  machine_id := machine_id
  name := machine_id
  run_dir := machine_id
  retention := retention
  present := true
  state := some (stopped_machine_state machine_id none 0)
  trees := true
  host := ⟨none, none, none, 0, [], [], .none, false, false⟩
  start_lock := none
  now := 0
  script := []
  latest := none
  monitor := none
  log := []

theorem idle_new (machine_id : MachineId) (retention : MachineRetention) : NewMachine (World.idle machine_id retention) :=
  ⟨rfl, ⟨0, rfl⟩, rfl, rfl, rfl, rfl, rfl, rfl⟩

def Moment.quiet (n : Nat) : List Moment := List.replicate n ⟨[], 0, .done⟩

/-- The silo-vmm of a start on a quiet host writes its pid file before it reports. -/
def Moment.reports (pid : Int) : List Moment := Moment.quiet 22 ++ [⟨[.write_pid pid], 0, .done⟩]

theorem SystemReaches.run {s : System} {log : List Entry} {steps : List System.Step} (h : SystemReaches s log)
    (he : s.EnabledRun steps) : SystemReaches (s.run log steps).1 (s.run log steps).2 := by
  induction steps generalizing s log with
  | nil => exact h
  | cons st rest ih => exact ih (h.step he.1) he.2

theorem System.call_log (s : System) (script : List Moment) (c : Call) :
    (s.call script c).2 = (c.op s.targets { s.world with script, log := [] }).2.log := by
  unfold System.call
  split <;> rename_i heq <;> rw [heq]

end Silo.Libvm
