import Silo.Lib.Checks
import Silo.Rust.Str
/-!
# The stored state of a machine

`reduce` decides what an event makes of a stored machine state. `observe_machine_state`
builds events from what the host shows: the pid file, the process table, the lifetime
lock and the exit status file. What the runtime saves is always the result of one of
these or of `mark_machine_stopped`.
-/

namespace Silo.Libvm

open Lib
open Rust (Str)

inductive MachineRuntimeState where
  | Stopped
  | Starting
  | Running
  | Stopping
  | Error
  deriving DecidableEq, Repr

structure MachineState where
  machine_id : Str
  status : MachineRuntimeState
  (vmm_pid started_at : Option Int)
  (run_id last_error : Option Str)
  updated_at : Int
  deriving DecidableEq, Repr

inductive StartFailure where
  | Stopped
  | Error
  deriving DecidableEq, Repr

inductive Event where
  | StartRequested (run_id : Str)
  | MonitorReady (run_id : Str) (pid started_at : Int)
  | MonitorObserved (pid : Int) (started_at : Option Int) (run_id : Option Str)
  | StartFailed (run_id : Str) (failure : StartFailure) (error : Option Str)
  | StopRequested (pid : Int) (started_at : Option Int) (run_id : Option Str)
  | StopCompleted (pid : Int) (started_at : Option Int) (run_id last_error : Option Str)
  | ExitObserved (clean : Bool) (error : Option Str)
  | MonitorGone (last_error : Option Str)
  | StartTimedOut
  deriving DecidableEq, Repr

inductive TransitionError where
  | AlreadyActive
  | NotRunning
  | InvalidTransition (state : MachineRuntimeState) (event : Str)
  | StaleGeneration
  deriving DecidableEq, Repr

def START_TIMEOUT_ERROR : Str := "machine start did not leave a live runtime".toList

/-! ## Transitions -/

def is_active (status : MachineRuntimeState) : Bool := status = .Starting || status = .Running || status = .Stopping

def replace_runtime (state : MachineState) (status : MachineRuntimeState) (vmm_pid started_at : Option Int)
    (run_id last_error : Option Str) (now : Int) : MachineState :=
  { state with status, vmm_pid, started_at, run_id, last_error, updated_at := now }

def require_state (actual expected : MachineRuntimeState) (event : Str) : Except TransitionError Unit :=
  require (actual = expected) (.InvalidTransition actual event)

def require_run_id (state : MachineState) (run_id : Option Str) : Except TransitionError Unit :=
  require (run_id = none ∨ state.run_id = run_id) .StaleGeneration

def require_generation (state : MachineState) (pid : Int) (started_at : Option Int) (run_id : Option Str) :
    Except TransitionError Unit := do
  require_run_id state run_id
  require (state.vmm_pid = some pid) .StaleGeneration
  require (started_at = none ∨ state.started_at = started_at) .StaleGeneration

def start_requested (state : MachineState) (run_id : Str) (now : Int) : Except TransitionError MachineState := do
  require (is_active state.status = false) .AlreadyActive
  pure (replace_runtime state .Starting none none (some run_id) none now)

def monitor_ready (state : MachineState) (run_id : Str) (pid started_at now : Int) :
    Except TransitionError MachineState := do
  require_state state.status .Starting "MonitorReady".toList
  require_run_id state (some run_id)
  pure (replace_runtime state .Running (some pid) (some started_at) (some run_id) none now)

def monitor_observed (state : MachineState) (pid : Int) (started_at : Option Int) (run_id : Option Str) (now : Int) :
    Except TransitionError MachineState :=
  let status := match state.status with
    | .Starting => .Starting
    | .Stopping => .Stopping
    | _ => .Running
  pure (replace_runtime state status (some pid) started_at run_id none now)

def start_failed (state : MachineState) (run_id : Str) (failure : StartFailure) (error : Option Str) (now : Int) :
    Except TransitionError MachineState := do
  require_state state.status .Starting "StartFailed".toList
  require_run_id state (some run_id)
  let status := match failure with
    | .Stopped => .Stopped
    | .Error => .Error
  pure (replace_runtime state status none none none error now)

def stop_requested (state : MachineState) (pid : Int) (started_at : Option Int) (run_id : Option Str) (now : Int) :
    Except TransitionError MachineState := do
  require (¬ (state.status = .Stopped ∨ state.status = .Error)) .NotRunning
  require_generation state pid started_at run_id
  pure (replace_runtime state .Stopping (some pid) started_at run_id none now)

def stop_completed (state : MachineState) (pid : Int) (started_at : Option Int) (run_id last_error : Option Str)
    (now : Int) : Except TransitionError MachineState := do
  require_state state.status .Stopping "StopCompleted".toList
  require_generation state pid started_at run_id
  pure (replace_runtime state .Stopped none none none last_error now)

def exit_observed (state : MachineState) (clean : Bool) (error : Option Str) (now : Int) :
    Except TransitionError MachineState :=
  let (status, last_error) :=
    if clean then (MachineRuntimeState.Stopped, none)
    else (.Error, some (error.getD "machine runtime exited with an error".toList))
  pure (replace_runtime state status none none none last_error now)

def monitor_gone (state : MachineState) (last_error : Option Str) (now : Int) : Except TransitionError MachineState :=
  let status := match state.status with
    | .Error => .Error
    | _ => .Stopped
  pure (replace_runtime state status none none none last_error now)

def start_timed_out (state : MachineState) (now : Int) : Except TransitionError MachineState := do
  require_state state.status .Starting "StartTimedOut".toList
  pure (replace_runtime state .Error none none none (some START_TIMEOUT_ERROR) now)

def reduce (state : MachineState) (event : Event) (now : Int) : Except TransitionError MachineState :=
  match event with
  | .StartRequested run_id => start_requested state run_id now
  | .MonitorReady run_id pid started_at => monitor_ready state run_id pid started_at now
  | .MonitorObserved pid started_at run_id => monitor_observed state pid started_at run_id now
  | .StartFailed run_id failure error => start_failed state run_id failure error now
  | .StopRequested pid started_at run_id => stop_requested state pid started_at run_id now
  | .StopCompleted pid started_at run_id last_error => stop_completed state pid started_at run_id last_error now
  | .ExitObserved clean error => exit_observed state clean error now
  | .MonitorGone last_error => monitor_gone state last_error now
  | .StartTimedOut => start_timed_out state now

/-! ## What the host shows -/

/-- A process, as `ProcessIdentity::for_pid` finds it. -/
structure ProcessIdentity where
  pid : Int
  started_at : Option Int
  is_alive : Bool
  deriving DecidableEq, Repr

inductive VmmExitOutcome where
  | Clean
  | Error
  | Forced
  deriving DecidableEq, Repr

structure VmmExitStatus where
  (machine_id run_id : Str)
  pid : Int
  outcome : VmmExitOutcome
  error : Option Str
  deriving DecidableEq, Repr

/-- The files, processes and locks one observation reads. A read that fails ends the observation without a write. -/
structure Host where
  pid_from_file : Option Int
  for_pid : Int → Option ProcessIdentity
  lifetime_lock_free : Bool
  exit_status : Option VmmExitStatus
  now : Int

def identity_matches_generation (identity : ProcessIdentity) (expected_started_at : Option Int) : Bool :=
  expected_started_at.isNone || identity.started_at = expected_started_at

/-- The pid of the file comes first, then the stored one unless it is the same. -/
def live_monitor_identity (host : Host) (runtime : Option MachineState) : Option ProcessIdentity :=
  let stored_pid := runtime.bind (·.vmm_pid)
  let expected_started_at := runtime.bind (·.started_at)
  let recovering_prearmed_start := runtime.any fun state =>
    state.status = .Starting && (state.vmm_pid.isNone || state.started_at.isNone)
  let candidates := host.pid_from_file.toList ++ if stored_pid = host.pid_from_file then [] else stored_pid.toList
  candidates.findSome? fun pid => (host.for_pid pid).filter fun identity =>
    identity.is_alive && (identity_matches_generation identity expected_started_at || recovering_prearmed_start)

def runtime_exit_matches (status : VmmExitStatus) : Option MachineState → Bool
  | none => true
  | some state => status.machine_id = state.machine_id && state.run_id = some status.run_id && state.vmm_pid = some status.pid

def exit_observed_event (status : VmmExitStatus) : Bool × Option Str :=
  match status.outcome with
  | .Clean | .Forced => (true, none)
  | .Error => (false, status.error)

def stopped_machine_state (machine_id : Str) (last_error : Option Str) (now : Int) : MachineState :=
  ⟨machine_id, .Stopped, none, none, none, last_error, now⟩

def refresh_starting (state : MachineState) (now : Int) : MachineState :=
  { state with vmm_pid := none, started_at := none, last_error := none, updated_at := now }

/-- What an observation decides to do with the stored state. -/
inductive Observed where
  | event (e : Event)
  | refresh
  deriving DecidableEq, Repr

/-- The decision of `observe_machine_state`. -/
def observation (host : Host) (runtime : Option MachineState) : Observed :=
  let live := live_monitor_identity host runtime
  let current_state := (runtime.map (·.status)).getD .Stopped
  let abandoned_start := current_state = .Starting && live.isNone && host.lifetime_lock_free
  match (host.exit_status.filter (runtime_exit_matches · runtime)).filter fun _ => live.isNone with
  | some status => .event (.ExitObserved (exit_observed_event status).1 (exit_observed_event status).2)
  | none =>
    match live with
    | some identity => .event (.MonitorObserved identity.pid identity.started_at (runtime.bind (·.run_id)))
    | none =>
      if abandoned_start then .event .StartTimedOut
      else if current_state = .Starting then .refresh
      else .event (.MonitorGone (runtime.bind (·.last_error)))

def observe_machine_state (machine_id : Str) (host : Host) (runtime : Option MachineState) :
    Except TransitionError MachineState :=
  let stored_state := runtime.getD (stopped_machine_state machine_id none host.now)
  match observation host runtime with
  | .event e => reduce stored_state e host.now
  | .refresh => pure (refresh_starting stored_state host.now)

def mark_machine_stopped (machine_id : Str) (last_error : Option Str) (now : Int) : MachineState :=
  stopped_machine_state machine_id last_error now

end Silo.Libvm
