import Silo.Vmm.State
/-!
# One execution

`run_execution` relays one guest process to its client. Before its loop it connects to
the guest and starts the process; the loop then waits for five things at once:
cancellation, shutdown, a change of the ready identity, a guest event and a client
message. Each is a step here, and a step carries what the code reads while it handles
it: the identity borrowed from the channel, the outcome of forwarding a control, and
the guest events that arrive while the guest is being cancelled.

The client takes some number of items and then drops its stream; from then on a send
fails. Left out are the execution log, the permits for the two signals and the process
spec, which nothing else in the loop depends on.
-/

namespace Silo.Vmm.Execution

open Rust (Str)

/-! ## Messages -/

abbrev Bytes := List UInt8

def CHUNK_64_KIB : Nat := 64 * 1024

inductive LostReason where
  | Unspecified | AgentInstanceReplaced | AgentBootReplaced | AgentUnavailable | GuestStreamLost | VmStopped
  | VmmonExited
  deriving DecidableEq, Repr

def LostReason.as_i32 : LostReason → Int
  | .Unspecified => 0
  | .AgentInstanceReplaced => 1
  | .AgentBootReplaced => 2
  | .AgentUnavailable => 3
  | .GuestStreamLost => 4
  | .VmStopped => 5
  | .VmmonExited => 6

/-- `LaunchFailureReason::CancelledBeforeStart as i32`. -/
def CancelledBeforeStart : Int := 9

inductive GuestEventKind where
  | Started
  | Stdout (data : Bytes)
  | Stderr (data : Bytes)
  | TerminalOutput (data : Bytes)
  | Exited (code : Option UInt32)
  | Signaled (signal : Option UInt32)
  | LaunchFailed (reason : Option Int) (message : Option Str)
  deriving DecidableEq, Repr

structure GuestProcessEvent where
  event : Option GuestEventKind
  deriving DecidableEq, Repr

inductive ExecutionEventKind where
  | Accepted
  | Started
  | Stdout (data : Bytes)
  | Stderr (data : Bytes)
  | TerminalOutput (data : Bytes)
  | Exited (code : Option UInt32)
  | Signaled (signal : Option UInt32)
  | LaunchFailed (reason : Option Int) (message : Option Str)
  | Lost (reason : Option Int) (message : Option Str)
  deriving DecidableEq, Repr

inductive Code where
  | Ok | Cancelled | Unknown | InvalidArgument | DeadlineExceeded | NotFound | AlreadyExists | PermissionDenied
  | ResourceExhausted | FailedPrecondition | Aborted | OutOfRange | Unimplemented | Internal | Unavailable | DataLoss
  | Unauthenticated
  deriving DecidableEq, Repr

inductive ErrorCode where
  | OperationCancelled | InvalidRequest | AgentTimeout | PathNotFound | AlreadyExists | PermissionDenied
  | ResourceExhausted | PreconditionFailed | Unsupported | AgentUnavailable | AgentProtocolError | Internal
  | MonitorStopping
  deriving DecidableEq, Repr

/-- A gRPC status; `details` is the error code attached to it, if one is. -/
structure Status where
  code : Code
  message : Str
  details : Option ErrorCode
  deriving DecidableEq, Repr

def status_with_error (code : Code) (error_code : ErrorCode) (message : Str) : Status :=
  { code, message, details := some error_code }

def detailed_status (status : Status) : Status :=
  if status.details.isSome then status
  else
    let code := match status.code with
      | .Cancelled => ErrorCode.OperationCancelled
      | .InvalidArgument | .OutOfRange => .InvalidRequest
      | .DeadlineExceeded => .AgentTimeout
      | .NotFound => .PathNotFound
      | .AlreadyExists | .Aborted => .AlreadyExists
      | .PermissionDenied | .Unauthenticated => .PermissionDenied
      | .ResourceExhausted => .ResourceExhausted
      | .FailedPrecondition => .PreconditionFailed
      | .Unimplemented => .Unsupported
      | .Unavailable => .AgentUnavailable
      | .DataLoss => .AgentProtocolError
      | .Internal | .Unknown | .Ok => .Internal
    status_with_error status.code code status.message

def invalid_request (message : String) : Status :=
  detailed_status { code := .InvalidArgument, message := message.toList, details := none }

def stopping : Status := status_with_error .Unavailable .MonitorStopping "monitor is stopping".toList

/-! ## Client controls -/

structure TerminalSize where
  (columns rows : Nat)
  deriving DecidableEq, Repr

inductive ExecuteMessage where
  | Start
  | StdinData (data : Bytes)
  | CloseStdin
  | ResizePty (size : Option TerminalSize)
  | SignalProcess (signal : Option UInt32)
  deriving DecidableEq, Repr

structure ExecuteInput where
  message : Option ExecuteMessage
  deriving DecidableEq, Repr

inductive GuestProcessInput where
  | StdinData (data : Bytes)
  | CloseStdin
  | ResizePty (size : Option TerminalSize)
  | SignalProcess (signal : Option UInt32)
  deriving DecidableEq, Repr

def validate_terminal_size (size : Option TerminalSize) (field : String) : Except Status Unit :=
  match size with
  | none => .error (invalid_request (field ++ " is required"))
  | some size =>
    if !(1 ≤ size.columns && size.columns ≤ 65535) || !(1 ≤ size.rows && size.rows ≤ 65535) then
      .error (invalid_request (field ++ " columns and rows must be from 1 through 65535"))
    else .ok ()

def valid_signal (raw : UInt32) : Bool := 1 ≤ raw && raw ≤ 64

def validate_signal (signal : Option UInt32) : Except Status Unit :=
  match signal with
  | none => .error (invalid_request "a positive process signal is required")
  | some raw =>
    if valid_signal raw then .ok ()
    else .error (invalid_request "process signal must be a valid Linux signal number from 1 through 64")

def guest_control (control : ExecuteInput) : Except Status GuestProcessInput :=
  match control.message with
  | some (.StdinData data) =>
    if CHUNK_64_KIB < data.length then .error (invalid_request "stdin data exceeds 64 KiB")
    else .ok (.StdinData data)
  | some .CloseStdin => .ok .CloseStdin
  | some (.ResizePty size) => do
    validate_terminal_size size "PTY resize size"
    return .ResizePty size
  | some (.SignalProcess signal) => do
    validate_signal signal
    return .SignalProcess signal
  | some .Start => .error (invalid_request "StartExecution is only valid as the first Execute request")
  | none => .error (invalid_request "Execute request message is required")

/-- How `forward_guest_control` ends: sent, or which of its three failures came first. -/
inductive Forwarded where
  | sent | closed | cancelled | stopping
  deriving DecidableEq, Repr

def forward_guest_control : Forwarded → Except Status Unit
  | .sent => .ok ()
  | .closed =>
    .error (detailed_status
      { code := .Unavailable, message := "guest input stream closed".toList, details := none })
  | .cancelled =>
    .error { code := .Cancelled, message := "execution client disconnected".toList, details := none }
  | .stopping => .error Execution.stopping

/-! ## Guest events -/

def identity_loss (expected : ReadyAgentIdentity) (current : Option ReadyAgentIdentity) : Option (LostReason × Str) :=
  match current with
  | none => some (.AgentUnavailable, "guest agent is no longer ready".toList)
  | some current =>
    if current.instance_id ≠ expected.instance_id then
      some (.AgentInstanceReplaced, "guest agent instance was replaced".toList)
    else if current.boot_id ≠ expected.boot_id then
      some (.AgentBootReplaced, "guest boot was replaced".toList)
    else none

def ensure_agent_generation (expected : ReadyAgentIdentity) (current : Option ReadyAgentIdentity) : Except Str Unit :=
  match identity_loss expected current with
  | some (_, message) => .error message
  | none => .ok ()

structure GuestEventState where
  started : Bool
  deriving DecidableEq, Repr

/-- The event for the client, whether it is terminal, and the state after it. -/
def translate_event (guest : GuestProcessEvent) (state : GuestEventState) :
    Except Str ((ExecutionEventKind × Bool) × GuestEventState) :=
  match guest.event with
  | some .Started =>
    if !state.started then .ok ((.Started, false), { started := true })
    else .error "guest process emitted duplicate Started".toList
  | some (.Stdout data) =>
    if state.started && data.length ≤ CHUNK_64_KIB then .ok ((.Stdout data, false), state)
    else if !state.started then .error "guest process emitted stdout before Started".toList
    else .error "guest process stdout exceeds 64 KiB".toList
  | some (.Stderr data) =>
    if state.started && data.length ≤ CHUNK_64_KIB then .ok ((.Stderr data, false), state)
    else if !state.started then .error "guest process emitted stderr before Started".toList
    else .error "guest process stderr exceeds 64 KiB".toList
  | some (.TerminalOutput data) =>
    if state.started && data.length ≤ CHUNK_64_KIB then .ok ((.TerminalOutput data, false), state)
    else if !state.started then .error "guest process emitted terminal output before Started".toList
    else .error "guest process terminal output exceeds 64 KiB".toList
  | some (.Exited code) =>
    if state.started then .ok ((.Exited code, true), state)
    else .error "guest process exited before Started".toList
  | some (.Signaled signal) =>
    if state.started && signal.any valid_signal then .ok ((.Signaled signal, true), state)
    else if !state.started then .error "guest process was signaled before Started".toList
    else .error "guest process emitted an invalid signal".toList
  | some (.LaunchFailed reason message) =>
    if !state.started then .ok ((.LaunchFailed reason message, true), state)
    else .error "guest process emitted LaunchFailed after Started".toList
  | none => .error "guest process event is missing its message".toList

def GuestProcessEvent.is_terminal (guest : GuestProcessEvent) : Bool :=
  match guest.event with
  | some (.Exited _) | some (.Signaled _) | some (.LaunchFailed _ _) => true
  | _ => false

/-- The guest events that arrive while the guest is cancelled: `before` the first
deadline, and `after` it until the deadline that follows the kill. -/
structure Arrivals where
  (before after : List GuestProcessEvent)
  deriving DecidableEq, Repr

/-- Whether a terminal event came, the events read up to it, and those still unread. -/
def wait_for_terminal : List GuestProcessEvent → Bool × List GuestProcessEvent × List GuestProcessEvent
  | [] => (false, [], [])
  | message :: rest =>
    if message.is_terminal then (true, [message], rest)
    else
      let (found, read, left) := wait_for_terminal rest
      (found, message :: read, left)

def cancel_guest (arrivals : Arrivals) : List GuestProcessEvent :=
  let (found, read, left) := wait_for_terminal arrivals.before
  -- A terminal event leaves the drain only what is left before the first deadline.
  if found then read ++ left else read ++ arrivals.after

theorem wait_for_terminal_reads (l : List GuestProcessEvent) :
    (wait_for_terminal l).1 = l.any GuestProcessEvent.is_terminal ∧
      (wait_for_terminal l).2.1 ++ (wait_for_terminal l).2.2 = l ∧
      ((wait_for_terminal l).1 = false → (wait_for_terminal l).2.1 = l) := by
  induction l with
  | nil => simp [wait_for_terminal]
  | cons message rest ih =>
    obtain ⟨hfound, hall, hnone⟩ := ih
    by_cases h : message.is_terminal
    · simp [wait_for_terminal, h]
    · simp only [Bool.not_eq_true] at h
      refine ⟨by simp [wait_for_terminal, h, hfound], by simp [wait_for_terminal, h, hall], ?_⟩
      simp only [wait_for_terminal, h, Bool.false_eq_true, if_false, List.cons.injEq, true_and]
      exact hnone

theorem cancel_guest_eq (arrivals : Arrivals) :
    cancel_guest arrivals =
      if arrivals.before.any GuestProcessEvent.is_terminal then arrivals.before
      else arrivals.before ++ arrivals.after := by
  obtain ⟨hfound, hall, hnone⟩ := wait_for_terminal_reads arrivals.before
  simp only [cancel_guest, ← hfound]
  split
  · exact hall
  · rename_i h
    rw [hnone (by simpa using h)]

/-! ## The loop -/

/-- What the client's stream yields. -/
inductive Item where
  | event (kind : ExecutionEventKind)
  | error (status : Status)
  deriving DecidableEq, Repr

structure Exec where
  delivered : List Item
  /-- The guest events read so far, those dropped while cancelling included. -/
  received : List GuestProcessEvent
  guest_state : GuestEventState
  input_open : Bool
  /-- The function has returned. -/
  finished : Bool
  /-- How many more items the client takes. -/
  takes : Nat
  deriving DecidableEq, Repr

def Exec.send (e : Exec) (item : Item) : Exec :=
  if e.takes = 0 then e else { e with delivered := e.delivered ++ [item], takes := e.takes - 1 }

def Exec.send_lost (e : Exec) (reason : LostReason) (message : Str) : Exec :=
  e.send (.event (.Lost (some reason.as_i32) (some message)))

def Exec.read (e : Exec) (events : List GuestProcessEvent) : Exec :=
  { e with received := e.received ++ events }

def Exec.finish (e : Exec) : Exec := { e with finished := true }

/-- A select of cancellation and shutdown with a call. -/
inductive Awaited where
  | Cancelled
  | Shutdown
  | Failed (message : Str)
  | Done
  deriving DecidableEq, Repr

/-- What the code meets before its loop. -/
structure Setup where
  ready : Option ReadyAgentIdentity
  has_process : Bool
  process_client : Awaited
  (start_sent term_reserved kill_reserved : Bool)
  execute : Awaited
  /-- The ready identity after a failed `execute`. -/
  ready_then : Option ReadyAgentIdentity
  deriving DecidableEq, Repr

/-- `run_execution` up to its loop, for a client that takes `takes` items. -/
def prepare (expected : ReadyAgentIdentity) (setup : Setup) (takes : Nat) : Exec :=
  let e : Exec :=
    { delivered := [], received := [], guest_state := { started := false }, input_open := true, finished := false,
      takes := takes }
  match setup.ready with
  | none => (e.send_lost .AgentUnavailable "guest agent is no longer ready".toList).finish
  | some current =>
    match identity_loss expected (some current) with
    | some (reason, message) => (e.send_lost reason message).finish
    | none =>
      if !setup.has_process then (e.send_lost .GuestStreamLost "execution process disappeared".toList).finish
      else match setup.process_client with
      | .Cancelled => e.finish
      | .Shutdown => (e.send_lost .VmmonExited "silo-vmm is stopping".toList).finish
      | .Failed message => (e.send_lost .AgentUnavailable message).finish
      | .Done =>
        if !setup.start_sent || !setup.term_reserved || !setup.kill_reserved then
          (e.send_lost .GuestStreamLost "guest input stream closed".toList).finish
        else match setup.execute with
        | .Cancelled => e.finish
        | .Shutdown => (e.send_lost .VmmonExited "silo-vmm is stopping".toList).finish
        | .Failed message =>
          let (reason, message) := (identity_loss expected setup.ready_then).getD (.GuestStreamLost, message)
          (e.send_lost reason message).finish
        | .Done => e

inductive Step where
  | Cancelled (arrivals : Arrivals)
  | Shutdown (arrivals : Arrivals)
  /-- The new identity, or `none` when the notifications have stopped. -/
  | IdentityChanged (changed : Option (Option ReadyAgentIdentity)) (arrivals : Arrivals)
  /-- `later` is the identity borrowed again after a failure. -/
  | Guest (message : Except Str (Option GuestProcessEvent)) (current later : Option ReadyAgentIdentity)
  | Control (control : Except Str (Option ExecuteInput)) (current : Option ReadyAgentIdentity) (forwarded : Forwarded)
      (arrivals : Arrivals)

def cancelled_before_start_event : ExecutionEventKind :=
  .LaunchFailed (some CancelledBeforeStart) (some "execution request closed before process start".toList)

/-- An item for the client, then the cancellation of the guest and the end. -/
def Exec.abort (e : Exec) (item : Item) (arrivals : Arrivals) : Exec :=
  ((e.send item).read (cancel_guest arrivals)).finish

def on_guest (expected : ReadyAgentIdentity) (e : Exec) (guest : GuestProcessEvent)
    (current later : Option ReadyAgentIdentity) : Exec :=
  let e := e.read [guest]
  match (do ensure_agent_generation expected current; translate_event guest e.guest_state) with
  | .ok ((event, terminal), state) =>
    let sent := { e with guest_state := state }.send (.event event)
    if e.takes = 0 || terminal then sent.finish else sent
  | .error message =>
    match identity_loss expected later with
    | some (reason, message) => (e.send_lost reason message).finish
    | none => (e.send_lost .GuestStreamLost message).finish

def on_control (expected : ReadyAgentIdentity) (e : Exec) (control : Except Str (Option ExecuteInput))
    (current : Option ReadyAgentIdentity) (forwarded : Forwarded) (arrivals : Arrivals) : Exec :=
  match control with
  | .ok (some control) =>
    match identity_loss expected current with
    | some (reason, message) => e.abort (.event (.Lost (some reason.as_i32) (some message))) arrivals
    | none =>
      match guest_control control with
      | .ok _ =>
        match forward_guest_control forwarded with
        | .ok () => e
        | .error error => e.abort (.error (detailed_status error)) arrivals
      | .error error => e.abort (.error (detailed_status error)) arrivals
  | .ok none =>
    if !e.guest_state.started then
      ((e.read (cancel_guest arrivals)).send (.event cancelled_before_start_event)).finish
    else { e with input_open := false }
  | .error _ => (e.read (cancel_guest arrivals)).finish

def step (expected : ReadyAgentIdentity) (e : Exec) (s : Step) : Exec :=
  if e.finished then e
  else match s with
  | .Cancelled arrivals => (e.read (cancel_guest arrivals)).finish
  | .Shutdown arrivals =>
    e.abort (.event (.Lost (some LostReason.VmmonExited.as_i32) (some "silo-vmm is stopping".toList))) arrivals
  | .IdentityChanged none arrivals =>
    e.abort
      (.event (.Lost (some LostReason.AgentUnavailable.as_i32) (some "guest identity notifications stopped".toList)))
      arrivals
  | .IdentityChanged (some current) arrivals =>
    match identity_loss expected current with
    | some (reason, message) => e.abort (.event (.Lost (some reason.as_i32) (some message))) arrivals
    | none => e
  | .Guest (.ok (some guest)) current later => on_guest expected e guest current later
  | .Guest (.ok none) _ _ =>
    (e.send_lost .GuestStreamLost "guest process stream ended before a terminal result".toList).finish
  | .Guest (.error message) _ _ => (e.send_lost .GuestStreamLost message).finish
  | .Control control current forwarded arrivals =>
    -- The select does not poll the client's stream once it has ended.
    if e.input_open then on_control expected e control current forwarded arrivals else e

/-- The execution after the steps of a history, whose newest step comes first. -/
def after (expected : ReadyAgentIdentity) (setup : Setup) (takes : Nat) : List Step → Exec
  | [] => prepare expected setup takes
  | s :: earlier => step expected (after expected setup takes earlier) s

end Silo.Vmm.Execution
