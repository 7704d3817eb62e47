import Silo.Libvm.World
/-!
# The lifecycle calls

Start, stop, kill, wait and remove, each as the section it runs under the machine lock.
What stop and wait do after they have released it is a section of its own: the wait
target they return is taken up by `wait_for_target_exit`.
-/

namespace Silo.Libvm

open Lib Run
open Rust (Str)

def display (n : Int) : Str := (toString n).toList

structure VmmRunIdentity where
  pid : Int
  started_at : Option Int
  run_id : Option Str
  deriving DecidableEq

structure WaitTarget where
  generation : VmmRunIdentity
  identity : Identity
  stop_requested : Bool
  deriving DecidableEq

/-! ## Pure checks -/

def machine_state_needs_writeback (persisted : Option MachineState) (observed : MachineState) : Bool :=
  match persisted with
  | none => true
  | some persisted =>
    persisted.status ≠ observed.status || persisted.vmm_pid ≠ observed.vmm_pid ||
      persisted.started_at ≠ observed.started_at || persisted.run_id ≠ observed.run_id ||
      persisted.last_error ≠ observed.last_error

def vmm_run_identity_matches (state : MachineState) (generation : VmmRunIdentity) : Bool :=
  (generation.run_id.isNone || state.run_id = generation.run_id) && state.vmm_pid = some generation.pid &&
    (generation.started_at.isNone || state.started_at = generation.started_at)

def exit_status_matches_generation (status : VmmExitStatus) (generation : VmmRunIdentity) : Bool :=
  generation.run_id = some status.run_id && generation.pid = status.pid

def MachineState.generation (state : MachineState) (pid : Int) : VmmRunIdentity := ⟨pid, state.started_at, state.run_id⟩

/-- The birth time agrees with the stored one, if there is one. -/
def Identity.matches_generation (identity : Identity) (started_at : Option Int) : Bool :=
  started_at.isNone || started_at = some identity.started_at

namespace World

def pid_path (w : World) : Str := w.run_dir ++ "/vm.pid".toList

/-- What an observation reads, once the pid file has been read. -/
def observed_host (w : World) (pid_from_file : Option Int) : Host where
  pid_from_file := pid_from_file
  for_pid := fun pid => (w.host.for_pid pid).map fun identity => ⟨identity.pid, some identity.started_at, true⟩
  lifetime_lock_free := w.lifetime_lock_free
  exit_status := w.host.exit_file.bind fun
    | .status status => some status
    | .malformed _ => none
  now := w.now

end World

namespace Op

/-! ## Reading the host -/

def lock_machine_config : Op Unit := do
  io
  let w ← get
  check (w.present) .MachineNotFound

def read_monitor_pid : Op Int := do
  io
  let w ← get
  match w.host.pid_file with
  | none => fail (.Io .NotFound "No such file or directory (os error 2)".toList)
  | some (.malformed message) => fail (.Io .InvalidData message)
  | some (.pid pid) => pure pid

def pid_from_file : Op (Option Int) := do
  match ← attempt read_monitor_pid with
  | .ok pid => pure (some pid)
  | .error (.Io .NotFound _) => pure none
  | .error err => fail err

/-- `ProcessIdentity::for_pid` on the pid of the file. -/
def probe (pid : Int) : Op (Option Identity) := do
  io
  note fun w => .probed (w.trusts (some pid))
  let w ← get
  pure (w.host.for_pid pid)

def read_exit_status : Op (Option VmmExitStatus) := do
  io
  let w ← get
  match w.host.exit_file with
  | none => pure none
  | some (.malformed message) => fail (.Io .InvalidData message)
  | some (.status status) => pure (some status)

/-- `observe_machine_state`. Looking for an abandoned start opens the lifetime lock. -/
def observe : Op MachineState := do
  let pid ← pid_from_file
  io
  note fun w => .probed (w.trusts pid)
  let w ← get
  let host := w.observed_host pid
  when (w.stored.status = .Starting ∧ (live_monitor_identity host w.state).isNone)
    (modify fun w => { w with host := w.host.open_lock_file.2 })
  match w.host.exit_file with
  | some (.malformed message) => fail (.Io .InvalidData message)
  | _ => reduced (observe_machine_state w.machine_id host w.state)

def reconcile_machine_runtime_locked : Op MachineState := do
  io
  let observed ← observe
  let w ← get
  note fun w => .observed w.stored.run_id (!machine_state_needs_writeback w.state observed)
  when (machine_state_needs_writeback w.state observed) (save .reconcile observed)
  pure observed

def require_current_run (status : MachineState) (expected_run_id : Option Str) : Op Unit :=
  match expected_run_id with
  | none => pure ()
  | some expected => check (status.run_id = some expected) (.MachineStaleGeneration expected status.run_id)

def monitor_identity (generation : VmmRunIdentity) : Op (Option Identity) := do
  io
  let w ← get
  pure ((w.host.for_pid generation.pid).filter (·.matches_generation generation.started_at))

def vmm_run_is_alive (generation : VmmRunIdentity) : Op Bool := do
  let identity ← monitor_identity generation
  pure identity.isSome

/-! ## Signals -/

/-- A signal is sent only to a process that lives; the check and the call are one step. -/
def signal (identity : Identity) : Op Bool := do
  io
  let w ← get
  when (w.host.is_alive identity) (note fun w => .signalled identity w.stored.run_id w.monitor)
  pure (w.host.is_alive identity)

def interrupt_monitor (identity : Identity) : Op Bool := signal identity

def kill_monitor_process_group (identity : Identity) : Op Bool := signal identity

def wait_for_monitor_stop (identity : Identity) : Op Unit := do
  io
  let w ← get
  check (w.host.is_alive identity = false)
    (.Io .TimedOut ("timed out waiting for machine ".toList ++ w.name ++ " monitor pid ".toList ++
      display identity.pid ++ " to stop".toList))

/-! ## Clean-up -/

/-- `reconcile_network_runtime`: a running monitor keeps a network whose helper lives. -/
def reconcile_machine_network (monitor_running : Bool) : Op Unit := do
  io
  modify fun w => { w with host := { w.host with
    network := if monitor_running && w.host.network = .live then .live else .none } }

def cleanup_machine_resources_locked : Op Unit := do
  io
  reconcile_machine_network false
  io
  modify fun w => { w.note (.cleaned w.stored.run_id) with
    host := { w.host with pid_file := none, lock_file := none } }

def machine_inspect_data : Op Unit := io

/-- `mark_machine_stopped` and the clean-up that always follows it. -/
def mark_machine_stopped_and_clean : Op Unit := do
  let w ← get
  save .call (mark_machine_stopped w.machine_id none w.now)
  cleanup_machine_resources_locked

def request_machine_stop (generation : VmmRunIdentity) : Op Unit := do
  let _ ← transition_current_machine_state
    (.StopRequested generation.pid generation.started_at generation.run_id)

def complete_stop_locked (generation : VmmRunIdentity) : Op Bool := do
  let state ← machine_state
  if is_active state.status = false then pure true
  else if vmm_run_identity_matches state generation = false then pure false
  else do
    let alive ← vmm_run_is_alive generation
    if alive then pure false
    else do
      let w ← get
      match reduce state (.StopCompleted generation.pid generation.started_at generation.run_id none) w.now with
      | .error .StaleGeneration => pure false
      | .error err => fail (transition_error err)
      | .ok next => do
        save .call next
        cleanup_machine_resources_locked
        pure true

def remove_machine_records : Op Unit := do
  io
  modify fun w => { w.note (.removed w.latest) with present := false, state := none }
  io

/-- The log and data trees go one after the other; the exit record is in the first. -/
def remove_machine_trees : Op Unit := do
  io
  modify fun w => { w with host := { w.host with exit_file := none } }
  io
  modify fun w => { w with trees := false }

/-! ## Stop, wait and kill -/

def stop_impl (expected_run_id : Option Str) : Op (Option WaitTarget) := do
  lock_machine_config
  let status ← reconcile_machine_runtime_locked
  require_current_run status expected_run_id
  if status.status = .Stopped ∨ status.status = .Error then do
    cleanup_machine_resources_locked
    machine_inspect_data
    pure none
  else
    match status.vmm_pid with
    | none => do
      mark_machine_stopped_and_clean
      machine_inspect_data
      pure none
    | some pid => do
      let generation := status.generation pid
      match ← monitor_identity generation with
      | none => do
        mark_machine_stopped_and_clean
        machine_inspect_data
        pure none
      | some identity => do
        -- A run that is stopping has had its signal.
        let signalled ← (if status.status = .Stopping then pure true else interrupt_monitor identity)
        if signalled then do
          request_machine_stop generation
          pure (some ⟨generation, identity, true⟩)
        else do
          mark_machine_stopped_and_clean
          machine_inspect_data
          pure none

/-- `active_wait_target`: the stored process counts even when its pid file is gone. -/
def active_wait_target (expected_run_id : Option Str) : Op (Option WaitTarget) := do
  lock_machine_config
  let persisted ← machine_state
  let identity ← (match persisted.vmm_pid with
    | some pid => if is_active persisted.status then monitor_identity (persisted.generation pid) else pure none
    | none => pure none)
  match persisted.vmm_pid, identity with
  | some pid, some identity => do
    require_current_run persisted expected_run_id
    pure (some ⟨persisted.generation pid, identity, false⟩)
  | _, _ => do
    let status ← reconcile_machine_runtime_locked
    Run.when (is_active status.status) (require_current_run status expected_run_id)
    pure none

/-- The other section of the loop in `wait_impl`: `true` when the machine has stopped. -/
def wait_poll (expected_run_id : Option Str) : Op Bool := do
  lock_machine_config
  let status ← reconcile_machine_runtime_locked
  if is_active status.status = false then do
    machine_inspect_data
    pure true
  else do
    require_current_run status expected_run_id
    machine_inspect_data
    pure false

def finish_stop (target : WaitTarget) (expected_run_id : Option Str) : Op Unit := do
  let completed ← complete_stop_locked target.generation
  match completed, expected_run_id with
  | false, some expected => do
    let state ← machine_state
    fail (.MachineStaleGeneration expected state.run_id)
  | _, _ => pure ()

def finish_wait (expected_run_id : Option Str) : Op Unit := do
  let status ← reconcile_machine_runtime_locked
  match expected_run_id with
  | some expected =>
    check (¬ (is_active status.status ∧ status.run_id ≠ some expected))
      (.MachineStaleGeneration expected status.run_id)
  | none => when (is_active status.status = false) cleanup_machine_resources_locked

/-- `wait_for_target_exit`: waits without the lock, then takes it. -/
def wait_for_target_exit (target : WaitTarget) (expected_run_id : Option Str) : Op Unit := do
  wait_for_monitor_stop target.identity
  lock_machine_config
  (if target.stop_requested then finish_stop target expected_run_id else finish_wait expected_run_id)
  let _ ← read_exit_status
  machine_inspect_data

def write_forced (run_id : Str) (pid : Int) : Op Unit := do
  io
  modify fun w => { w with host := { w.host with
    exit_file := some (.status ⟨w.machine_id, run_id, pid, .Forced, none⟩) } }

/-- The record of a run killed before it could write its own. -/
def record_forced_exit (generation : VmmRunIdentity) : Op Unit := do
  let recorded ← read_exit_status
  let w ← get
  match generation.run_id with
  | none => pure ()
  | some run_id =>
    when (recorded.any (fun status => status.machine_id = w.machine_id &&
      exit_status_matches_generation status generation) = false) (write_forced run_id generation.pid)

def kill_impl (expected_run_id : Option Str) : Op Unit := do
  lock_machine_config
  let status ← reconcile_machine_runtime_locked
  require_current_run status expected_run_id
  check (¬ (status.status = .Stopped ∨ status.status = .Error)) .MachineNotRunning
  match status.vmm_pid with
  | none => do
    mark_machine_stopped_and_clean
    machine_inspect_data
  | some pid => do
    let generation := status.generation pid
    let identity ← monitor_identity generation
    let killed ← (match identity with
      | none => pure false
      | some identity => kill_monitor_process_group identity)
    match identity, killed with
    | some identity, true => do
      request_machine_stop generation
      wait_for_monitor_stop identity
      record_forced_exit generation
      let completed ← complete_stop_locked generation
      check (completed) .MachineNotRunning
      machine_inspect_data
    | _, _ => do
      mark_machine_stopped_and_clean
      let _ ← read_exit_status
      machine_inspect_data

/-! ## Remove -/

/-- `node_state::acquire_lock`. -/
def acquire_node_state_lock : Op Unit := do
  io
  let w ← get
  check (w.host.node_state_busy = false) (.InvalidMachineUpdate "node state busy".toList)

/-- `node_state::acquire`. -/
def acquire_node_state : Op Unit := do
  acquire_node_state_lock
  io
  let w ← get
  check (w.host.node_state_fenced = false) (.InvalidMachineUpdate "node state recovery required".toList)

def ensure_no_live_vmm_generation : Op Unit := do
  let state ← machine_state
  match state.vmm_pid with
  | none => pure ()
  | some pid => do
    io
    let w ← get
    match w.host.for_pid pid with
    | none => pure ()
    | some identity => do
      check (identity.matches_generation state.started_at)
        (.InvalidOwnedPath w.run_dir ("silo-vmm pid ".toList ++ display pid ++
          " is a different process generation than persisted machine state".toList))
      fail .MachineAlreadyRunning

def require_last_exit (expected_run_id : Option Str) : Op Unit :=
  match expected_run_id with
  | none => pure ()
  | some expected => do
    let _ ← read_exit_status
    note fun w => .exit_read (w.last_exit = w.latest)
    let w ← get
    check (w.last_exit = some expected) (.MachineStaleGeneration expected w.last_exit)

def remove_impl (expected_run_id : Option Str) : Op Unit := do
  io
  let w ← get
  if w.present = false then pure ()
  else do
    lock_machine_config
    io
    acquire_node_state_lock
    ensure_no_live_vmm_generation
    let status ← reconcile_machine_runtime_locked
    if is_active status.status then do
      require_current_run status expected_run_id
      fail .MachineAlreadyRunning
    else do
      require_last_exit expected_run_id
      cleanup_machine_resources_locked
      let scope ← attempt io
      remove_machine_trees
      remove_machine_records
      match scope with
      | .ok () => pure ()
      | .error err => fail (.MachinePreparationFailed
          ("machine removed but secret scope cleanup failed: ".toList ++ err.to_string w.name))

/-! ## A start that fails -/

def stop_failed_start_monitor (monitor : Identity) : Op Unit := do
  let interrupted ← interrupt_monitor monitor
  let waited ← (if interrupted then attempt (wait_for_monitor_stop monitor)
    else pure (.error (.Io .Other [])))
  match waited with
  | .ok () => pure ()
  | .error _ => do
    let killed ← kill_monitor_process_group monitor
    if killed then wait_for_monitor_stop monitor
    else do
      let alive ← signal monitor
      if alive then wait_for_monitor_stop monitor else pure ()

/-- The value of a clean-up step, or the default with the text of its failure. -/
def collect {α : Type} (label : Str) (default : α) (m : Op α) : Op (α × List Str) := do
  let w ← get
  match ← attempt m with
  | .ok a => pure (a, [])
  | .error err => pure (default, [label ++ err.to_string w.name])

/-- The silo-vmm named by the pid file. A file that does not read is no failure of the clean-up. -/
def discover_monitor : Op (Option Identity × List Str) := do
  match ← attempt read_monitor_pid with
  | .ok pid => collect "inspect silo-vmm for cleanup: ".toList none (probe pid)
  | .error _ => pure (none, [])

def stop_discovered (monitor : Option Identity) : Op (Bool × List Str) :=
  match monitor with
  | none => pure (true, [])
  | some monitor =>
    collect "terminate silo-vmm: ".toList false (do
      stop_failed_start_monitor monitor
      pure true)

def mark_machine_start_failed (run_id : Str) (failure : StartFailure) (error : Option Str) : Op Unit := do
  let _ ← transition_current_machine_state (.StartFailed run_id failure error)

def remove_ephemeral : Op (List Str) := do
  let scope ← collect "delete ephemeral machine secret scope: ".toList () io
  let removed ← collect "remove ephemeral machine: ".toList () (do
    cleanup_machine_resources_locked
    remove_machine_trees
    remove_machine_records)
  pure (scope.2 ++ removed.2)

/-- The clean-up of `finish_failed_start`: the texts of what went wrong in it. -/
def clean_failed_start (run_id : Str) (failure : StartFailure) (monitor : Option Identity) (message : Str) :
    Op (List Str) := do
  let discovered ← (match monitor with
    | some monitor => pure (some monitor, [])
    | none => discover_monitor)
  note fun w => .discovered (w.covers discovered.1)
  let stopped ← stop_discovered discovered.1
  if stopped.1 = false then pure (discovered.2 ++ stopped.2)
  else do
    let network ← collect "reconcile prepared network: ".toList () (reconcile_machine_network false)
    let terminal ← collect "record failed start: ".toList false (do
      mark_machine_start_failed run_id failure (some message)
      pure true)
    let w ← get
    let removed ← (if terminal.1 ∧ w.retention = .Ephemeral then remove_ephemeral else pure [])
    pure (discovered.2 ++ stopped.2 ++ network.2 ++ terminal.2 ++ removed)

def finish_failed_start {α : Type} (run_id : Str) (failure : StartFailure) (monitor : Option Identity)
    (primary : LibVmError) : Op α := do
  let w ← get
  let cleanup_errors ← clean_failed_start run_id failure monitor (primary.to_string w.name)
  if cleanup_errors = [] then fail primary
  else fail (.MachineStartCleanupFailed (primary.to_string w.name) (List.intercalate "; ".toList cleanup_errors))

def or_fail {α : Type} (run_id : Str) (failure : StartFailure) (monitor : Option Identity) (m : Op α) : Op α := do
  match ← attempt m with
  | .ok a => pure a
  | .error err => finish_failed_start run_id failure monitor err

/-! ## Start -/

structure StartOptions where
  run_id : Str
  entrypoint : Bool
  /-- The launch inputs enable the guest agent. -/
  agent_enabled : Bool
  /-- The silo-vmm that the spawn starts, if it gets so far. -/
  spawned : Option Identity
  deriving DecidableEq

structure ResolvedSecrets where
  ssh_trusted_ca : Bool
  deriving DecidableEq

/-- `MachineLifetimeLock::try_acquire`, for the start to keep. -/
def try_acquire : Op Bool := do
  io
  let w ← get
  modify fun w => { w with host := w.host.open_lock_file.2 }
  when (w.lifetime_lock_free) (modify fun w => { w with start_lock := w.host.lock_file })
  pure w.lifetime_lock_free

def request_machine_start (run_id : Str) : Op Unit := do
  let _ ← transition_current_machine_state (.StartRequested run_id)
  modify fun w => { w.note (.accepted run_id) with latest := some run_id, monitor := none }

/-- The SSH CA is resolved with the other secrets, or the resolution fails. -/
def resolve_machine_secrets : Op ResolvedSecrets := do
  io
  io
  pure ⟨true⟩

def reconcile_root_disk_size : Op Unit := io

def prepare_machine_network : Op Unit := do
  reconcile_machine_network false
  io
  modify fun w => { w with host := { w.host with network := .live } }
  io

def prepare_vmm_launch_inputs (agent_enabled : Bool) : Op Bool := do
  io
  pure agent_enabled

def machine_logs_directory : Op Unit := io

/-- `VmSupervisor::spawn`: the silo-vmm inherits the lifetime lock and lives on whatever the handshake says. -/
def spawn (run_id : Str) (spawned : Option Identity) : Op Unit := do
  io
  let w ← get
  match spawned.bind fun identity => w.host.add ⟨identity, some run_id, w.start_lock⟩ with
  | none => fail (.Io .Other "spawn silo-vmm".toList)
  | some host => do
    modify fun w => { w with host, monitor := spawned }
    -- The launcher exits, the start request is handed over, and silo-vmm reports.
    io
    io
    io

def monitor_identity_for_pid (pid : Int) : Op Identity := do
  match ← probe pid with
  | some identity => pure identity
  | none => do
    let w ← get
    fail (.MonitorConnection ("silo-vmm pid ".toList ++ display pid ++ " from ".toList ++ w.pid_path ++
      " is not running".toList))

def mark_machine_monitor_ready (run_id : Str) (monitor : Identity) : Op Unit := do
  let _ ← transition_current_machine_state (.MonitorReady run_id monitor.pid monitor.started_at)

def launch (options : StartOptions) : Op Unit := do
  let secrets ← or_fail options.run_id .Stopped none (do
    let secrets ← resolve_machine_secrets
    reconcile_root_disk_size
    pure secrets)
  or_fail options.run_id .Stopped none prepare_machine_network
  -- This exit does not go through the clean-up.
  check (secrets.ssh_trusted_ca) (.MachinePreparationFailed "missing resolved SSH CA".toList)
  let agent_enabled ← or_fail options.run_id .Stopped none (prepare_vmm_launch_inputs options.agent_enabled)
  or_fail options.run_id .Stopped none (check (¬ (options.entrypoint ∧ agent_enabled = false))
    (.MachinePreparationFailed "an entrypoint requires the managed guest agent".toList))
  or_fail options.run_id .Stopped none machine_logs_directory
  or_fail options.run_id .Stopped none (spawn options.run_id options.spawned)
  let pid ← or_fail options.run_id .Error none read_monitor_pid
  let monitor ← or_fail options.run_id .Error none (monitor_identity_for_pid pid)
  or_fail options.run_id .Error (some monitor) (mark_machine_monitor_ready options.run_id monitor)

def accept_start (options : StartOptions) : Op Unit := do
  lock_machine_config
  io
  acquire_node_state
  io
  let acquired ← try_acquire
  check (acquired) .MachineAlreadyRunning
  let status ← reconcile_machine_runtime_locked
  reconcile_machine_network (is_active status.status)
  check (is_active status.status = false) .MachineAlreadyRunning
  request_machine_start options.run_id

def start_with_options (options : StartOptions) : Op Str := do
  releasing (do accept_start options; launch options) fun w => { w with start_lock := none }
  machine_inspect_data
  pure options.run_id

end Op

end Silo.Libvm
