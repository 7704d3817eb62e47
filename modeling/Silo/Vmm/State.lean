import Silo.Lib.Run
import Silo.Rust.Str
/-!
# The monitor's view of one machine

`InstanceStore`: the state of the VM and of its guest agent, updated under one lock
by calls from several tasks. The store also keeps the host's own verification of the
SSH listener that the agent advertises. A verification belongs to a target, which
carries an epoch; a target is issued when a listener becomes eligible and is dropped
with its verification when it no longer matches.

Every call reads the clock once. Instants and times of day are nanoseconds. Left out
are texts that are only copied into reports (the machine's ids and name) and the
snapshot that is kept for logging. The system, boot and provisioning sections of a
status report and the body of a metrics report are checked and stored but read by
nothing else; a report carries the outcome of that check.
-/

namespace Silo.Vmm

open Lib
open Rust (Str as_bytes)

/-! ## Reports -/

inductive VmState where
  | Unspecified | Starting | Running | Stopping | Stopped | Failed
  deriving DecidableEq, Repr

inductive AgentConnectionState where
  | Unspecified | Connecting | Responsive | Unresponsive
  deriving DecidableEq, Repr

inductive AgentStatusState where
  | Unspecified | Starting | Ready | Failed
  deriving DecidableEq, Repr

def AgentStatusState.as_i32 : AgentStatusState → Int
  | .Unspecified => 0
  | .Starting => 1
  | .Ready => 2
  | .Failed => 3

def AgentStatusState.try_from (value : Int) : Option AgentStatusState :=
  if value = 0 then some .Unspecified
  else if value = 1 then some .Starting
  else if value = 2 then some .Ready
  else if value = 3 then some .Failed
  else none

inductive ReadinessReason where
  | VmStarting | VmStopping | VmStopped | VmFailed | AgentNotRequired | AgentUnavailable | AgentStatusStale
  | GuestStarting | GuestFailed | GuestReportedReady
  deriving DecidableEq, Repr

structure SshListenerReport where
  backend : Str
  port : Nat
  host_public_key : Str
  (config_verified kex_verified : Bool)
  deriving DecidableEq, Repr

structure Timestamp where
  (seconds nanos : Int)
  deriving DecidableEq, Repr

/-- `sections` is the first complaint about the system, boot and provisioning sections, if there is one. -/
structure AgentStatusReport where
  observed_at : Option Timestamp
  state : Option Int
  (code message : Option Str)
  ssh : Option SshListenerReport
  sections : Option Str
  deriving DecidableEq, Repr

structure AgentIdentity where
  (instance_id version boot_id : Option Str)
  deriving DecidableEq, Repr

structure AgentStatus where
  identity : Option AgentIdentity
  report : Option AgentStatusReport
  deriving DecidableEq, Repr

/-- `report` is the first complaint about the metrics themselves, if there is one. -/
structure AgentMetrics where
  (agent_instance_id report : Option Str)
  deriving DecidableEq, Repr

structure HostMemoryReclaim where
  requested : Option Bool
  qualification : Option Str
  effective : Option Bool
  released_bytes : Option Nat
  deriving DecidableEq, Repr

/-! ## The state -/

abbrev Uuid := BitVec 128

inductive StoreError where
  | Validation (message : Str)
  | Protocol (message : Str)
  | IdentityMismatch
  | Clock
  | SshEpochExhausted
  deriving DecidableEq, Repr

structure ReadyAgentIdentity where
  (instance_id boot_id : Uuid)
  deriving DecidableEq, Repr

/-- Host-owned identity of one eligible listener. -/
structure SshVerificationTarget where
  epoch : Nat
  identity : ReadyAgentIdentity
  backend : Str
  port : Nat
  host_public_key : Str
  deriving DecidableEq, Repr

inductive SshVerificationOutcome where
  | Pending
  | Verified (deadline : Nat)
  | Failed (message : Str)
  deriving DecidableEq, Repr

structure SshVerification where
  target : SshVerificationTarget
  outcome : SshVerificationOutcome
  deriving DecidableEq, Repr

structure Observation (α : Type) where
  (received_at stale_at deadline : Nat)
  value : α
  deriving DecidableEq, Repr

structure AgentConnection where
  state : Option AgentConnectionState := none
  last_success_at : Option Nat := none
  last_failure_at : Option Nat := none
  message : Option Str := none
  deriving DecidableEq, Repr

structure State where
  vm_state : VmState
  vm_changed_at : Nat
  running_since : Option Nat
  vm_message : Option Str
  agent_enabled : Bool
  connection : AgentConnection
  identity : Option AgentIdentity
  status : Option (Observation AgentStatusReport)
  metrics : Option (Observation Str)
  host_memory_reclaim : Option HostMemoryReclaim
  agent_services : List Str
  stopping : Bool
  ssh_epoch : Nat
  ssh_verification : Option SshVerification
  deriving DecidableEq, Repr

structure Clock where
  (instant system : Nat)
  deriving DecidableEq, Repr

/-- The functions of other crates the store calls: `Uuid::parse_str`, `Uuid::hyphenated` and whether
`PublicKey::from_openssh` accepts a text. -/
structure Crates where
  parse_str : Str → Option Uuid
  hyphenated : Uuid → Str
  from_openssh : Str → Bool

def u64_max : Nat := 2 ^ 64 - 1

/-- The last representable `Instant` and `SystemTime`: signed 64-bit seconds. -/
def time_max : Nat := 2 ^ 63 * 1000000000 - 1

def checked_add (time duration : Nat) : Option Nat :=
  if time + duration ≤ time_max then some (time + duration) else none

def SSH_VERIFICATION_VALIDITY : Nat := 65 * 1000000000

def SSH_VERIFICATION_PENDING : Str := "SSH listener verification pending".toList

def MAX_INFO_BYTES : Nat := 1024

def MAX_CODE_BYTES : Nat := 128

def MAX_DIAGNOSTIC_BYTES : Nat := 4096

/-- Cut a text at the last character boundary that leaves at most `maximum` bytes. -/
def truncate : Str → Nat → Str
  | [], _ => []
  | c :: cs, maximum => if c.utf8Size ≤ maximum then c :: truncate cs (maximum - c.utf8Size) else []

def InstanceStore.new (agent_enabled : Bool) (clock : Clock) : State where
  vm_state := .Starting
  vm_changed_at := clock.system
  running_since := none
  vm_message := some "vm starting".toList
  agent_enabled := agent_enabled
  connection := { state := some .Connecting }
  identity := none
  status := none
  metrics := none
  host_memory_reclaim := none
  agent_services := []
  stopping := false
  ssh_epoch := 0
  ssh_verification := none

/-! ## Checking reports -/

def invalid (message : Str) : StoreError := .Validation message

def text (field value : Str) (maximum : Nat) (nonempty : Bool) : Except StoreError Unit :=
  if (nonempty && value.isEmpty) || maximum < (as_bytes value).length then
    .error (invalid (field ++ " has an invalid length".toList))
  else .ok ()

def required (field : Str) (value : Option Str) (maximum : Nat) : Except StoreError Str :=
  match value with
  | none => .error (invalid (field ++ " is required".toList))
  | some value => do
    text field value maximum true
    .ok value

def optional (field : Str) (value : Option Str) (maximum : Nat) : Except StoreError Unit :=
  match value with
  | none => .ok ()
  | some value => text field value maximum false

def validate_uuid (crates : Crates) (field : Str) (value : Option Str) : Except StoreError Unit := do
  let value ← required field value 36
  match crates.parse_str value with
  | none => .error (invalid (field ++ " must be a UUID".toList))
  | some parsed =>
    if crates.hyphenated parsed = value then .ok ()
    else .error (invalid (field ++ " must be a canonical lowercase UUID".toList))

def validate_identity (crates : Crates) (identity : AgentIdentity) : Except StoreError Unit := do
  validate_uuid crates "instance_id".toList identity.instance_id
  validate_uuid crates "boot_id".toList identity.boot_id
  let _ ← required "version".toList identity.version MAX_INFO_BYTES
  .ok ()

def validate_ssh (crates : Crates) (ssh : SshListenerReport) : Except StoreError Unit :=
  if ssh.backend ∈ ["native".toList, "openssh".toList, "systemd-openssh".toList] ∧ ssh.port = 22 ∧
      ssh.config_verified ∧ crates.from_openssh ssh.host_public_key then .ok ()
  else .error (invalid "invalid SSH listener descriptor".toList)

def validate_timestamp (field : Str) (value : Option Timestamp) : Except StoreError Unit :=
  match value with
  | none => .error (invalid (field ++ " is required".toList))
  | some value =>
    if -62135596800 ≤ value.seconds ∧ value.seconds ≤ 253402300799 ∧ 0 ≤ value.nanos ∧ value.nanos < 1000000000 then .ok ()
    else .error (invalid (field ++ " is invalid".toList))

def required_state (field : Str) (value : Option Int) : Except StoreError AgentStatusState :=
  match value with
  | none => .error (invalid (field ++ " is required".toList))
  | some value =>
    match AgentStatusState.try_from value with
    | none => .error (invalid (field ++ " is invalid".toList))
    | some state => .ok state

/-- The code and message that go with a state. -/
def validate_diagnostic (state : AgentStatusState) (code message : Option Str) : Except StoreError Unit := do
  let both := do
    let _ ← required "status.code".toList code MAX_CODE_BYTES
    let _ ← required "status.message".toList message MAX_DIAGNOSTIC_BYTES
    .ok ()
  match state with
  | .Starting =>
    match code, message with
    | none, none => .ok ()
    | some _, some _ => both
    | _, _ => .error (invalid "starting status code and message must both be present or both be absent".toList)
  | .Ready =>
    if code.isSome || message.isSome then .error (invalid "ready status must not contain code or message".toList)
    else .ok ()
  | .Failed => both
  | .Unspecified => .error (invalid "status.state must be specified".toList)

def validate_sections (complaint : Option Str) : Except StoreError Unit :=
  match complaint with
  | none => .ok ()
  | some message => .error (invalid message)

def validate_status_report (crates : Crates) (report : AgentStatusReport) : Except StoreError Unit := do
  match report.ssh with
  | none => pure ()
  | some ssh => validate_ssh crates ssh
  validate_timestamp "status.observed_at".toList report.observed_at
  let state ← required_state "status.state".toList report.state
  optional "status.code".toList report.code MAX_CODE_BYTES
  optional "status.message".toList report.message MAX_DIAGNOSTIC_BYTES
  validate_diagnostic state report.code report.message
  validate_sections report.sections

def validate_status (crates : Crates) (status : AgentStatus) :
    Except StoreError (AgentIdentity × AgentStatusReport) :=
  match status.identity with
  | none => .error (invalid "identity is required".toList)
  | some identity => do
    validate_identity crates identity
    match status.report with
    | none => .error (invalid "report is required".toList)
    | some report => do
      validate_status_report crates report
      .ok (identity, report)

def validate_metrics (crates : Crates) (metrics : AgentMetrics) : Except StoreError Str := do
  let value ← required "agent_instance_id".toList metrics.agent_instance_id 36
  if (crates.parse_str value).isNone then .error (invalid "agent_instance_id must be a UUID".toList)
  else
    validate_sections metrics.report
    .ok value

def observation {α : Type} (value : α) (freshness : Nat) (clock : Clock) : Except StoreError (Observation α) :=
  match checked_add clock.system freshness, checked_add clock.instant freshness with
  | some stale_at, some deadline => .ok ⟨clock.system, stale_at, deadline, value⟩
  | _, _ => .error .Clock

/-! ## SSH verification -/

def identity_from_state (crates : Crates) (state : State) : Option ReadyAgentIdentity := do
  let identity ← state.identity
  let instance_id ← identity.instance_id.bind crates.parse_str
  let boot_id ← identity.boot_id.bind crates.parse_str
  some ⟨instance_id, boot_id⟩

/-- The listener the agent advertises, while everything it depends on is current. -/
def eligible_ssh (state : State) (now : Nat) : Option SshListenerReport :=
  if state.agent_enabled = false ∨ state.vm_state ≠ .Running ∨ state.stopping ∨
      state.connection.state ≠ some .Responsive then none
  else
    match state.status with
    | none => none
    | some status =>
      if status.deadline ≤ now ∨ status.value.state ≠ some AgentStatusState.Ready.as_i32 then none
      else status.value.ssh.filter (·.config_verified)

def ssh_target_matches (crates : Crates) (state : State) (target : SshVerificationTarget) (now : Nat) : Bool :=
  state.ssh_epoch = target.epoch && identity_from_state crates state = some target.identity &&
    match eligible_ssh state now with
    | none => false
    | some ssh =>
      ssh.backend = target.backend && ssh.port = target.port && ssh.host_public_key = target.host_public_key

def invalidate_ssh_verification : Run StoreError State Unit := fun state =>
  if state.ssh_verification.isSome then
    if state.ssh_epoch + 1 ≤ u64_max then
      (.ok (), { state with ssh_epoch := state.ssh_epoch + 1, ssh_verification := none })
    else (.error .SshEpochExhausted, state)
  else (.ok (), state)

def issue_ssh_target (crates : Crates) (now : Nat) : Run StoreError State Unit := fun state =>
  match eligible_ssh state now, identity_from_state crates state with
  | some ssh, some identity =>
    if state.ssh_epoch + 1 ≤ u64_max then
      let target := ⟨state.ssh_epoch + 1, identity, ssh.backend, ssh.port, ssh.host_public_key⟩
      (.ok (), { state with ssh_epoch := state.ssh_epoch + 1, ssh_verification := some ⟨target, .Pending⟩ })
    else (.error .SshEpochExhausted, state)
  | _, _ => (.ok (), state)

def refresh_ssh_verification (crates : Crates) (now : Nat) : Run StoreError State Unit := fun state =>
  if state.ssh_verification.any (fun verification => ssh_target_matches crates state verification.target now) then
    (.ok (), state)
  else (invalidate_ssh_verification >>= fun _ => issue_ssh_target crates now) state

/-! ## What the store reports -/

structure EffectiveStatus where
  state : Option Int
  (code message : Option Str)
  kex_verified : Bool
  deriving DecidableEq, Repr

def current_verification (crates : Crates) (state : State) (now : Nat) : Option SshVerification :=
  state.ssh_verification.filter (fun verification => ssh_target_matches crates state verification.target now)

def SshVerificationOutcome.valid_at (now : Nat) : SshVerificationOutcome → Bool
  | .Verified deadline => now < deadline
  | _ => false

def effective_status (crates : Crates) (state : State) (report : AgentStatusReport) (now : Nat) : EffectiveStatus :=
  let verification := current_verification crates state now
  let kex_verified := verification.any (fun v => v.outcome.valid_at now)
  if report.state = some AgentStatusState.Ready.as_i32 ∧ report.ssh.isSome ∧ kex_verified = false then
    let message :=
      match verification.map (·.outcome) with
      | some (.Failed message) => message
      | _ => SSH_VERIFICATION_PENDING
    ⟨some AgentStatusState.Starting.as_i32, some "SSH_NOT_READY".toList, some message, kex_verified⟩
  else ⟨report.state, report.code, report.message, kex_verified⟩

def readiness_detail (crates : Crates) (state : State) (now : Nat) : Bool × ReadinessReason :=
  match state.vm_state with
  | .Starting => (false, .VmStarting)
  | .Unspecified => (false, .VmStarting)
  | .Stopping => (false, .VmStopping)
  | .Stopped => (false, .VmStopped)
  | .Failed => (false, .VmFailed)
  | .Running =>
    if state.agent_enabled = false then (true, .AgentNotRequired)
    else
      match state.status with
      | none => (false, .AgentUnavailable)
      | some status =>
        if state.stopping ∨ status.deadline ≤ now then (false, .AgentStatusStale)
        else
          match (effective_status crates state status.value now).state.bind AgentStatusState.try_from with
          | some .Starting => (false, .GuestStarting)
          | some .Failed => (false, .GuestFailed)
          | some .Ready => (true, .GuestReportedReady)
          | _ => (false, .AgentUnavailable)

def ready_agent_identity (crates : Crates) (state : State) (now : Nat) : Option ReadyAgentIdentity :=
  if (readiness_detail crates state now).1 then identity_from_state crates state else none

/-- The parts of the log snapshot that the published identity is computed from. -/
structure StateLogSnapshot where
  (agent_instance_id agent_boot_id : Option Str)
  ready : Bool
  deriving DecidableEq, Repr

def state_log_snapshot (crates : Crates) (state : State) (now : Nat) : StateLogSnapshot where
  agent_instance_id := state.identity.bind (·.instance_id)
  agent_boot_id := state.identity.bind (·.boot_id)
  ready := (readiness_detail crates state now).1

def ready_agent_identity_from_snapshot (crates : Crates) (snapshot : StateLogSnapshot) : Option ReadyAgentIdentity :=
  if snapshot.ready = false then none
  else do
    let instance_id ← snapshot.agent_instance_id
    let boot_id ← snapshot.agent_boot_id
    let instance_id ← crates.parse_str instance_id
    let boot_id ← crates.parse_str boot_id
    some ⟨instance_id, boot_id⟩

inductive Freshness where
  | Fresh | Stale
  deriving DecidableEq, Repr

def freshness (state : State) (deadline now : Nat) : Freshness :=
  if state.stopping = false ∧ now < deadline then .Fresh else .Stale

structure AgentStatusObservation where
  (received_at stale_at : Nat)
  freshness : Freshness
  report : AgentStatusReport
  deriving DecidableEq, Repr

/-- The guest's report with the host's verdict on its SSH listener. -/
def status_observation (crates : Crates) (state : State) (status : Observation AgentStatusReport) (now : Nat) :
    AgentStatusObservation :=
  let effective := effective_status crates state status.value now
  { received_at := status.received_at
    stale_at := status.stale_at
    freshness := freshness state status.deadline now
    report :=
      { status.value with
        state := effective.state
        code := effective.code
        message := effective.message
        ssh := status.value.ssh.map (fun ssh => { ssh with kex_verified := effective.kex_verified }) } }

structure EnabledAgent where
  connection : AgentConnection
  identity : Option AgentIdentity
  status : Option AgentStatusObservation
  services : List Str
  deriving DecidableEq, Repr

/-- `HostStatus`; `agent` is `none` for `DisabledAgent`. -/
structure HostStatus where
  vm_state : VmState
  state_changed_at : Nat
  running_since : Option Nat
  message : Option Str
  ready : Bool
  reason : ReadinessReason
  agent : Option EnabledAgent
  deriving DecidableEq, Repr

def project_status (crates : Crates) (state : State) (now : Nat) : HostStatus where
  vm_state := state.vm_state
  state_changed_at := state.vm_changed_at
  running_since := state.running_since
  message := state.vm_message
  ready := (readiness_detail crates state now).1
  reason := (readiness_detail crates state now).2
  agent :=
    if state.agent_enabled then
      some {
        connection := state.connection
        identity := state.identity
        status := state.status.map (fun status => status_observation crates state status now)
        services := state.agent_services }
    else none

/-! ## Calls -/

/-- A call as its callers see it: the state it leaves, its result, and the identity it publishes, if it
publishes one. -/
structure Outcome where
  state : State
  result : Except StoreError Unit
  published : Option (Option ReadyAgentIdentity)

def mutate_if (crates : Crates) (clock : Clock) (update : Run StoreError State Bool) (state : State) : Outcome :=
  match update state with
  | (.error e, state) => ⟨state, .error e, none⟩
  | (.ok false, state) => ⟨state, .ok (), none⟩
  | (.ok true, state) =>
    match refresh_ssh_verification crates clock.instant state with
    | (.error e, state) => ⟨state, .error e, none⟩
    | (.ok (), state) =>
      let after := state_log_snapshot crates state clock.instant
      ⟨state, .ok (), some (ready_agent_identity_from_snapshot crates after)⟩

def mutate (crates : Crates) (clock : Clock) (update : Run StoreError State Unit) (state : State) : Outcome :=
  mutate_if crates clock (update >>= fun _ => pure true) state

def set_vm_state (crates : Crates) (vm_state : VmState) (message : Str) (clock : Clock) : State → Outcome :=
  mutate crates clock (Run.modify fun state =>
    { state with
      vm_state := vm_state
      vm_changed_at := clock.system
      vm_message := some (truncate message MAX_DIAGNOSTIC_BYTES)
      running_since :=
        if vm_state = .Running ∧ state.running_since.isNone then some clock.system else state.running_since
      stopping := vm_state ∈ [VmState.Stopping, .Stopped, .Failed] })

def set_host_memory_reclaim (crates : Crates) (report : HostMemoryReclaim) (clock : Clock) : State → Outcome :=
  mutate crates clock (Run.modify fun state => { state with host_memory_reclaim := some report })

def agent_connecting (crates : Crates) (clock : Clock) : State → Outcome :=
  mutate crates clock (Run.modify fun state =>
    if state.agent_enabled then { state with connection := { state.connection with state := some .Connecting } }
    else state)

def agent_failure (crates : Crates) (message : Str) (clock : Clock) : State → Outcome :=
  mutate crates clock (Run.modify fun state =>
    if state.agent_enabled then
      { state with
        connection :=
          { state.connection with
            state := some .Unresponsive
            last_failure_at := some clock.system
            message := some (truncate message MAX_DIAGNOSTIC_BYTES) } }
    else state)

def known_agent_services : List Str :=
  ["silo.v1.GuestAgentService".toList, "silo.v1.GuestFilesystemService".toList, "silo.v1.GuestProcessService".toList]

/-- The previous receipt has expired by `now`. -/
def State.expired (state : State) (now : Nat) : Prop := ∃ status, state.status = some status ∧ status.deadline ≤ now

instance (state : State) (now : Nat) : Decidable (state.expired now) :=
  match h : state.status with
  | none => .isFalse fun ⟨_, hs, _⟩ => by simp [h] at hs
  | some status =>
    if hd : status.deadline ≤ now then .isTrue ⟨status, h, hd⟩
    else .isFalse fun ⟨_, hs, hle⟩ => hd (by rw [h] at hs; cases hs; exact hle)

/-- A new agent instance or boot supersedes every old observation. -/
def supersede (identity : AgentIdentity) : Run StoreError State Unit := fun state =>
  match state.identity with
  | none => (.ok (), { state with agent_services := known_agent_services })
  | some current =>
    if current.instance_id ≠ identity.instance_id ∨ current.boot_id ≠ identity.boot_id then
      (.ok (), { state with status := none, metrics := none, agent_services := known_agent_services })
    else if current.version ≠ identity.version then
      (.error (.Protocol "agent version changed without an instance replacement".toList), state)
    else (.ok (), state)

def record_status (identity : AgentIdentity) (observed : Observation AgentStatusReport) (clock : Clock) :
    Run StoreError State Unit := do
  let state ← Run.get
  -- A new receipt cannot revive evidence whose previous receipt expired.
  Run.when (state.expired clock.instant) invalidate_ssh_verification
  supersede identity
  Run.modify fun state =>
    { state with
      identity := some identity
      connection :=
        { state.connection with state := some .Responsive, last_success_at := some observed.received_at, message := none }
      status := some observed }

def observe_status (crates : Crates) (status : AgentStatus) (fresh_for : Nat) (clock : Clock) (state : State) : Outcome :=
  match validate_status crates status with
  | .error e => ⟨state, .error e, none⟩
  | .ok (identity, report) =>
    match observation report fresh_for clock with
    | .error e => ⟨state, .error e, none⟩
    | .ok observed => mutate crates clock (record_status identity observed clock) state

def observe_metrics (crates : Crates) (metrics : AgentMetrics) (fresh_for : Nat) (clock : Clock) (state : State) : Outcome :=
  match validate_metrics crates metrics with
  | .error e => ⟨state, .error e, none⟩
  | .ok instance_id =>
    match observation instance_id fresh_for clock with
    | .error e => ⟨state, .error e, none⟩
    | .ok observed =>
      match state.identity with
      | none => ⟨state, .error (.Protocol "metrics arrived before a current status identity".toList), none⟩
      | some identity =>
        if identity.instance_id ≠ some instance_id then
          -- The status stream has to establish the replacement identity first.
          let cleared := { state with identity := none, status := none, metrics := none, agent_services := [] }
          match invalidate_ssh_verification cleared with
          | (.error e, state) => ⟨state, .error e, none⟩
          | (.ok (), state) =>
            let after := state_log_snapshot crates state clock.instant
            ⟨state, .error .IdentityMismatch, some (ready_agent_identity_from_snapshot crates after)⟩
        else ⟨{ state with metrics := some observed }, .ok (), none⟩

def set_forward_service (crates : Crates) (identity : ReadyAgentIdentity) (serving : Bool) (clock : Clock) :
    State → Outcome :=
  mutate crates clock (Run.modify fun state =>
    match state.identity with
    | none => state
    | some current =>
      if current.instance_id.bind crates.parse_str ≠ some identity.instance_id ∨
          current.boot_id.bind crates.parse_str ≠ some identity.boot_id then state
      else
        { state with
          agent_services :=
            known_agent_services ++ if serving then ["silo.v1.GuestForwardService".toList] else [] })

/-- Whether `target` is the one being verified and still matches. -/
def awaits (crates : Crates) (target : SshVerificationTarget) (now : Nat) (state : State) : Bool :=
  state.ssh_verification.any (fun v => v.target = target) && ssh_target_matches crates state target now

def verification_outcome (result : Except Str Unit) (now : Nat) : Except StoreError SshVerificationOutcome :=
  match result with
  | .ok () =>
    match checked_add now SSH_VERIFICATION_VALIDITY with
    | none => .error .Clock
    | some deadline => .ok (.Verified deadline)
  | .error message => .ok (.Failed (truncate message MAX_DIAGNOSTIC_BYTES))

def complete_ssh_verification (crates : Crates) (target : SshVerificationTarget) (result : Except Str Unit)
    (clock : Clock) : State → Outcome :=
  mutate_if crates clock fun state =>
    if awaits crates target clock.instant state then
      match verification_outcome result clock.instant with
      | .error e => (.error e, state)
      | .ok outcome => (.ok true, { state with ssh_verification := some ⟨target, outcome⟩ })
    else (.ok false, state)

inductive Call where
  | set_vm_state (vm_state : VmState) (message : Str)
  | set_host_memory_reclaim (report : HostMemoryReclaim)
  | agent_connecting
  | agent_failure (message : Str)
  | observe_status (status : AgentStatus) (fresh_for : Nat)
  | observe_metrics (metrics : AgentMetrics) (fresh_for : Nat)
  | set_forward_service (identity : ReadyAgentIdentity) (serving : Bool)
  | complete_ssh_verification (target : SshVerificationTarget) (result : Except Str Unit)

def Call.apply (crates : Crates) (clock : Clock) : Call → State → Outcome
  | .set_vm_state vm_state message => Vmm.set_vm_state crates vm_state message clock
  | .set_host_memory_reclaim report => Vmm.set_host_memory_reclaim crates report clock
  | .agent_connecting => Vmm.agent_connecting crates clock
  | .agent_failure message => Vmm.agent_failure crates message clock
  | .observe_status status fresh_for => Vmm.observe_status crates status fresh_for clock
  | .observe_metrics metrics fresh_for => Vmm.observe_metrics crates metrics fresh_for clock
  | .set_forward_service identity serving => Vmm.set_forward_service crates identity serving clock
  | .complete_ssh_verification target result => Vmm.complete_ssh_verification crates target result clock

end Silo.Vmm
