import Silo.Lib.Run
import Silo.Libvm.MachineLocks
import Silo.Libvm.Transitions
/-!
# One machine and its host

The record of a machine, the files of its silo-vmm and the processes of the host, as the
lifecycle calls find and leave them.

A call is a computation on this state that holds the machine lock. At every point where
it waits for I/O the host goes on by itself: processes exit, others take over their pids,
a silo-vmm writes and removes its files. The I/O may then fail, and the libvm process may
be killed there. The script says what happens at each of these points, so that a
statement about every script is one about every interleaving.
-/

namespace Silo.Libvm

open Lib
open Rust (Str)

/-! ## Processes and files -/

structure Identity where
  (pid started_at : Int)
  deriving DecidableEq, Repr

structure Process where
  identity : Identity
  /-- The run a silo-vmm was spawned for. -/
  run_id : Option Str
  /-- The lifetime lock a silo-vmm has inherited. -/
  lifetime_lock : Option Inode
  deriving DecidableEq

/-- A file that does not read as one says why. -/
inductive PidFile where
  | pid (pid : Int)
  | malformed (message : Str)
  deriving DecidableEq

inductive ExitFile where
  | status (status : VmmExitStatus)
  | malformed (message : Str)
  deriving DecidableEq

/-- The machine's network attachment and whether its helper process lives. -/
inductive Attachment where
  | none
  | live
  | dead
  deriving DecidableEq

structure HostState where
  pid_file : Option PidFile
  exit_file : Option ExitFile
  /-- The file at `vmm_lock_path`. -/
  lock_file : Option Inode
  next_inode : Inode
  processes : List Process
  /-- Every process there has been. -/
  seen : List Identity
  network : Attachment
  node_state_busy : Bool
  /-- A transaction on the node state was left unfinished. -/
  node_state_fenced : Bool

namespace HostState

def find (h : HostState) (pid : Int) : Option Process := h.processes.find? (·.identity.pid = pid)

def for_pid (h : HostState) (pid : Int) : Option Identity := (h.find pid).map (·.identity)

/-- `ProcessIdentity::is_alive`: of this process, not of its pid. -/
def is_alive (h : HostState) (identity : Identity) : Bool := h.processes.any (·.identity = identity)

def run_of (h : HostState) (pid : Int) : Option Str := (h.find pid).bind (·.run_id)

/-- A process starts: its pid is free and it is not one there was before. -/
def add (h : HostState) (p : Process) : Option HostState :=
  if 0 < p.identity.pid ∧ (h.for_pid p.identity.pid).isNone ∧ p.identity ∉ h.seen then
    some { h with processes := p :: h.processes, seen := p.identity :: h.seen }
  else none

def holds_lifetime (h : HostState) (inode : Inode) : Bool := h.processes.any (·.lifetime_lock = some inode)

def open_lock_file (h : HostState) : Inode × HostState :=
  match h.lock_file with
  | some inode => (inode, h)
  | none => (h.next_inode, { h with lock_file := some h.next_inode, next_inode := h.next_inode + 1 })

end HostState

/-! ## What the host does by itself -/

inductive HostEvent where
  /-- A process that has nothing to do with the machine starts. -/
  | spawn (identity : Identity)
  | exit (pid : Int)
  /-- A silo-vmm truncates the pid file before it writes it. -/
  | truncate_pid (pid : Int) (message : Str)
  | write_pid (pid : Int)
  | remove_pid (pid : Int)
  | write_exit (pid : Int) (outcome : VmmExitOutcome) (error : Option Str)
  | network_dies
  | node_state (busy fenced : Bool)
  deriving DecidableEq

def HostState.apply (machine_id : MachineId) (h : HostState) : HostEvent → HostState
  | .spawn identity => (h.add ⟨identity, none, none⟩).getD h
  | .exit pid => { h with processes := h.processes.filter (·.identity.pid ≠ pid) }
  | .truncate_pid pid message => if (h.run_of pid).isSome then { h with pid_file := some (.malformed message) } else h
  | .write_pid pid => if (h.run_of pid).isSome then { h with pid_file := some (.pid pid) } else h
  | .remove_pid pid => if (h.run_of pid).isSome then { h with pid_file := none } else h
  | .write_exit pid outcome error =>
    match h.run_of pid with
    | some run_id => { h with exit_file := some (.status ⟨machine_id, run_id, pid, outcome, error⟩) }
    | none => h
  | .network_dies => { h with network := if h.network = .live then .dead else h.network }
  | .node_state busy fenced => { h with node_state_busy := busy, node_state_fenced := fenced }

/-! ## Errors -/

inductive IoKind where
  | NotFound
  | InvalidData
  | TimedOut
  | Other
  deriving DecidableEq

inductive LibVmError where
  | Io (kind : IoKind) (message : Str)
  | InvalidOwnedPath (path message : Str)
  | MachineNotFound
  | MachineAlreadyRunning
  | MachineNotRunning
  | MachineStaleGeneration (requested : Str) (current : Option Str)
  | MonitorConnection (message : Str)
  | MachinePreparationFailed (message : Str)
  | InvalidMachineUpdate (reason : Str)
  | MachineStartCleanupFailed (primary cleanup : Str)
  /-- The libvm process was killed: nothing of the call goes on. -/
  | Killed
  deriving DecidableEq

/-- The text of an error about the machine called `reference`. -/
def LibVmError.to_string (reference : Str) : LibVmError → Str
  | .Io _ message => message
  | .InvalidOwnedPath path message =>
    "invalid machine-owned filesystem object ".toList ++ path ++ ": ".toList ++ message
  | .MachineNotFound => "machine ".toList ++ reference ++ " not found".toList
  | .MachineAlreadyRunning => "machine ".toList ++ reference ++ " is already running".toList
  | .MachineNotRunning => "machine ".toList ++ reference ++ " is not running".toList
  | .MachineStaleGeneration requested _ =>
    "machine ".toList ++ reference ++ " run ".toList ++ requested ++ " is no longer current".toList
  | .MonitorConnection message => "monitor connection for ".toList ++ reference ++ " failed: ".toList ++ message
  | .MachinePreparationFailed message => "machine preparation for ".toList ++ reference ++ " failed: ".toList ++ message
  | .InvalidMachineUpdate reason => "invalid update for machine \"".toList ++ reference ++ "\": ".toList ++ reason
  | .MachineStartCleanupFailed primary cleanup =>
    "machine start failed: ".toList ++ primary ++ "; cleanup also failed: ".toList ++ cleanup
  | .Killed => []

def MachineRuntimeState.debug : MachineRuntimeState → Str
  | .Stopped => "Stopped".toList
  | .Starting => "Starting".toList
  | .Running => "Running".toList
  | .Stopping => "Stopping".toList
  | .Error => "Error".toList

def TransitionError.to_string : TransitionError → Str
  | .AlreadyActive => "machine is already active".toList
  | .NotRunning => "machine is not running".toList
  | .InvalidTransition state event =>
    "invalid transition from ".toList ++ state.debug ++ " for event ".toList ++ event
  | .StaleGeneration => "event belongs to a stale runtime generation".toList

def transition_error (err : TransitionError) : LibVmError := .Io .InvalidData err.to_string

/-! ## The state of a call -/

inductive Outcome where
  | done
  | failed (message : Str)
  | killed
  deriving DecidableEq

/-- What happens where a call waits for I/O. -/
structure Moment where
  events : List HostEvent
  now : Int
  outcome : Outcome
  deriving DecidableEq

inductive MachineRetention where
  | Persistent
  | Ephemeral
  deriving DecidableEq

/-- A save is the reconciliation's, or one of the call itself. -/
inductive Writer where
  | reconcile
  | call
  deriving DecidableEq

/-- What a call did, with what was true when it did it. -/
inductive Entry where
  /-- The pid of the file was looked up among the processes. -/
  | probed (trusted : Bool)
  /-- The stored state was compared with the host; `agrees` when nothing needed to be saved. -/
  | observed (run_id : Option Str) (agrees : Bool)
  | signalled (target : Identity) (run_id : Option Str) (monitor : Option Identity)
  | saved (writer : Writer) (before after : MachineState) (monitor : Option Identity)
  | accepted (run_id : Str)
  /-- The exit record was read; `of_latest` when it is of the latest accepted start. -/
  | exit_read (of_latest : Bool)
  | cleaned (run_id : Option Str)
  | removed (latest : Option Str)
  /-- A failed start looked for the silo-vmm it may have spawned; `covered` when that is dead or the one found. -/
  | discovered (covered : Bool)
  deriving DecidableEq

structure World where
  machine_id : MachineId
  (name run_dir : Str)
  retention : MachineRetention
  /-- The machine's rows are in the store. -/
  present : Bool
  state : Option MachineState
  /-- The machine's data and log trees. -/
  trees : Bool
  host : HostState
  /-- The lifetime lock of the start in progress. -/
  start_lock : Option Inode
  now : Int
  script : List Moment
  /-- The run of the latest accepted start, and the silo-vmm it spawned. -/
  latest : Option Str
  monitor : Option Identity
  /-- What the call has done so far, latest first. -/
  log : List Entry

namespace World

/-- `machine_state`: a machine without a row is stopped. -/
def stored (w : World) : MachineState := w.state.getD (stopped_machine_state w.machine_id none w.now)

def note (w : World) (e : Entry) : World := { w with log := e :: w.log }

/-- The process that now has the pid is the silo-vmm of the latest start, or the stored birth time tells it is not. -/
def trusts (w : World) (pid : Option Int) : Bool :=
  match pid.bind w.host.for_pid with
  | none => true
  | some identity =>
    w.monitor = some identity || w.stored.started_at.any (· ≠ identity.started_at)

/-- The silo-vmm of the latest start is dead, or the process that was found. -/
def covers (w : World) (found : Option Identity) : Bool :=
  w.monitor.all fun monitor => !w.host.is_alive monitor || found = some monitor

/-- The run of the exit record, if the record is of this machine. -/
def last_exit (w : World) : Option Str :=
  match w.host.exit_file with
  | some (.status status) => if status.machine_id = w.machine_id then some status.run_id else none
  | _ => none

/-- The lifetime lock is free for a new open file description. -/
def lifetime_lock_free (w : World) : Bool :=
  match w.host.lock_file with
  | none => true
  | some inode => !w.host.holds_lifetime inode && w.start_lock ≠ some inode

end World

abbrev Op (α : Type) := Run LibVmError World α

namespace Op

def get : Op World := Run.get

def modify (f : World → World) : Op Unit := Run.modify f

def fail {α : Type} (e : LibVmError) : Op α := Run.fail e

/-- The call waits for I/O. -/
def io : Op Unit := fun w =>
  match w.script with
  | [] => (.ok (), w)
  | m :: rest =>
    let w := { w with host := m.events.foldl (HostState.apply w.machine_id) w.host, now := m.now, script := rest }
    match m.outcome with
    | .done => (.ok (), w)
    | .failed message => (.error (.Io .Other message), w)
    | .killed => (.error .Killed, w)

/-- The result of a part of the call, with its error. Nothing goes on in a process that was killed. -/
def attempt {α : Type} (m : Op α) : Op (Except LibVmError α) := fun w =>
  match m w with
  | (.error .Killed, w) => (.error .Killed, w)
  | (r, w) => (.ok r, w)

/-- `f` is done however `m` ends: a lock is dropped. -/
def releasing {α : Type} (m : Op α) (f : World → World) : Op α := fun w =>
  match m w with
  | (r, w) => (r, f w)

def note (e : World → Entry) : Op Unit := modify fun w => w.note (e w)

def machine_state : Op MachineState := do
  io
  let w ← get
  pure w.stored

/-- `save_machine_state`. -/
def save (writer : Writer) (after : MachineState) : Op Unit := do
  io
  modify fun w => { w.note (.saved writer w.stored after w.monitor) with state := some after }

def reduced (r : Except TransitionError MachineState) : Op MachineState :=
  match r with
  | .ok s => pure s
  | .error err => fail (transition_error err)

def transition_current_machine_state (event : Event) : Op MachineState := do
  let state ← machine_state
  let w ← get
  let next ← reduced (reduce state event w.now)
  save .call next
  pure next

end Op

end Silo.Libvm
