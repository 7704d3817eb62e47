import Silo.Lib.AssocMap
import Silo.Taild.Identity
/-!
# Admission of creates

A create reserves its name, its place in the owner's quota and its disk before it becomes
a job, and the job asks for admission again when it writes the machine. Growing a disk
reserves the growth. `createMu` is held over each of these, so that one is a single step;
between the steps of one request those of others may come.

What the host, the manager and the tailnet answer is an input of the step. `machines` is
the manager's inventory, by name.
-/

namespace Silo.Taild

open Go Lib

structure Config where
  /-- `Runtime.Instance`. -/
  instanceName : Str
  /-- `Limits().VMs`. -/
  (vms diskReserve : UInt64)

/-- The two labels of a machine that the quota reads. -/
structure Machine where
  (instanceLabel ownerLabel : Str)
  deriving DecidableEq

def Machine.ownedBy (config : Config) (owner : Principal) (m : Machine) : Prop :=
  m.instanceLabel = config.instanceName ∧ m.ownerLabel = owner

instance (config : Config) (owner : Principal) (m : Machine) : Decidable (m.ownedBy config owner) :=
  inferInstanceAs (Decidable (_ ∧ _))

/-- An inventory entry; the data is missing when it cannot be read. -/
structure InventoryEntry where
  name : Str
  data : Option Machine

structure Statfs where
  bsize : Int64
  bavail : UInt64

/-- What one try to reserve a name finds: the name the manager proposes, and whether its inventory can be listed. -/
structure Attempt where
  proposal : Except Failure Str
  inventory : Option Failure

structure Observation where
  shutdownPending : Bool
  statfs : Option Statfs
  inventory : Option Failure
  unreadable : Str → Bool
  visibleNames : Option (List Str)
  attempts : Nat → Attempt

structure CreateRequest where
  name : Str
  owner : Principal
  disk : UInt64

/-- How far a create is: with its reservation, with its policy, as a job, with its machine, with its reservation given
back, and about to run its finalizer. -/
inductive Stage where
  | reserved
  | prepared
  | queued
  | running
  | made
  | freed
  | returned
  deriving DecidableEq

/-- A create in progress. `released` is the state of the `sync.Once` of its release. -/
structure Request where
  name : Str
  owner : Principal
  disk : UInt64
  stage : Stage
  released : Bool
  deriving DecidableEq

structure Service where
  machines : AssocMap Str Machine
  /-- The names reserved by the runtime. -/
  reserved : AssocMap Str Unit
  pending : AssocMap Str Principal
  diskPending : AssocMap Str UInt64
  requests : AssocMap Nat Request
  /-- The disk growths in progress, by machine id. -/
  growths : AssocMap Str UInt64

def Service.new (machines : AssocMap Str Machine) : Service := ⟨machines, .empty, .empty, .empty, .empty, .empty⟩

/-! ## Admission -/

def maxUint64 : UInt64 := 18446744073709551615

/-- The loop over the pending sizes; nothing on overflow. -/
def sumPending (needed : UInt64) : List UInt64 → Option UInt64
  | [] => some needed
  | size :: rest => if maxUint64 - needed < size then none else sumPending (needed + size) rest

/-- The owned entries of the inventory; a failure when one cannot be read. -/
def ownedNames (config : Config) (owner : Principal) : List InventoryEntry → Except Failure (List Str)
  | [] => .ok []
  | entry :: rest =>
    match entry.data with
    | none => .error (failure "unavailable" "VM quota inventory unreadable" 9)
    | some machine => do
      let names ← ownedNames config owner rest
      return if machine.ownedBy config owner then entry.name :: names else names

namespace Service

variable (config : Config)

def inventory (s : Service) (o : Observation) : Except Failure (List InventoryEntry) :=
  match o.inventory with
  | some e => .error e
  | none => .ok (s.machines.entries.map fun e => ⟨e.1, if o.unreadable e.1 then none else some e.2⟩)

def diskAdmissionLocked (s : Service) (statfs : Option Statfs) (add : UInt64) : Except Failure Unit :=
  match statfs with
  | none => .error (failure "unavailable" "disk availability unavailable" 9)
  | some stat =>
    if stat.bsize ≤ 0 ∨ maxUint64 / stat.bsize.toUInt64 < stat.bavail then
      .error (failure "unavailable" "disk availability invalid" 9)
    else
      match sumPending config.diskReserve s.diskPending.values with
      | none => .error (failure "limit" "disk reserve admission exceeded" 6)
      | some needed =>
        if maxUint64 - needed < add ∨ stat.bavail * stat.bsize.toUInt64 < needed + add then
          .error (failure "limit" "disk free-space floor or concurrent reservations exceeded" 6)
        else .ok ()

/-- The reservations of an owner that are not durable yet. -/
def countedPending (s : Service) (owner : Principal) (durable : List Str) : List Str :=
  (s.pending.entries.filter fun e => e.2 = owner ∧ e.1 ∉ durable).map Prod.fst

def ownedCountLocked (s : Service) (o : Observation) (owner : Principal) : Except Failure Nat := do
  let entries ← s.inventory o
  let durable ← ownedNames config owner entries
  return durable.length + (s.countedPending owner durable).length

/-- `admitLocked` for a peer that may have `vms` machines. -/
def admitLocked (s : Service) (o : Observation) (vms : UInt64) (owner : Principal) (disk : UInt64) (reserved : Bool) :
    Except Failure Unit :=
  if o.shutdownPending then .error (failure "unavailable" "host is shutting down" 9)
  else do
    s.diskAdmissionLocked config o.statfs disk
    let count ← s.ownedCountLocked config o owner
    let limit := (min config.vms vms).toNat
    if limit < count ∨ (reserved = false ∧ count = limit) then .error (failure "limit" "VM count ceiling exceeded" 6)
    else .ok ()

end Service

/-! ## Reservations -/

def validName (s : Str) : Bool :=
  !s.isEmpty && len s ≤ 63 && s.getLast? != some '-' && s.head? != some '-' &&
    s.all fun c => ('a' ≤ c && c ≤ 'z') || isDigit c || c == '-'

def errNameTaken : Failure := failure "conflict" "name already taken locally or on the tailnet" 5

/-- `Categorize` of an error that is none of the known ones. -/
def uncategorized : Failure := failure "unavailable" "runtime operation unavailable; inspect VM state" 9

def growthKey (id : Str) : Str := "resize:".toList ++ id

namespace Service

variable (config : Config)

/-- `Runtime.Reserve`, with its errors categorised. -/
def reserve (s : Service) (attempt : Attempt) (visible : List Str) (name : Str) : Except Failure Unit :=
  if validName name = false then .error uncategorized
  else
    match attempt.inventory with
    | some e => .error e
    | none =>
      if (s.reserved.get? name).isSome ∨ name ∈ visible ∨ (s.machines.get? name).isSome then
        .error errNameTaken
      else .ok ()

/-- The loop of `reserveCreate`, with the number of tries that are left. -/
def reserveName (s : Service) (o : Observation) (visible : List Str) (generated : Bool) (name : Str) :
    Nat → Except Failure Str
  | 0 => .error (failure "conflict" "could not reserve a generated name after 3 attempts" 5)
  | left + 1 =>
    let attempt := o.attempts left
    match if generated then attempt.proposal else .ok name with
    | .error e => .error e
    | .ok name =>
      match s.reserve attempt visible name with
      | .ok () => .ok name
      | .error e =>
        if generated = false ∨ e.code ≠ "conflict" then .error e else s.reserveName o visible generated name left

/-- `reserveCreate`: the name it reserved, and the service with the reservation. -/
def reserveCreate (s : Service) (o : Observation) (vms : UInt64) (q : CreateRequest) : Except Failure (Service × Str) := do
  s.admitLocked config o vms q.owner q.disk false
  match o.visibleNames with
  | none => .error (failure "unavailable" "tailnet name inventory unavailable" 9)
  | some visible =>
    let name ← s.reserveName o visible q.name.isEmpty q.name 3
    return ({ s with
      reserved := s.reserved.insert name ()
      pending := s.pending.insert name q.owner
      diskPending := s.diskPending.insert name q.disk }, name)

def releaseCreate (s : Service) (r : Request) : Service :=
  if r.released then s
  else { s with
    reserved := s.reserved.erase r.name
    pending := s.pending.erase r.name
    diskPending := s.diskPending.erase r.name }

def reserveDiskGrowth (s : Service) (statfs : Option Statfs) (id : Str) (growth : UInt64) : Except Failure Service := do
  s.diskAdmissionLocked config statfs growth
  return { s with diskPending := s.diskPending.insert (growthKey id) growth }

end Service

/-! ## The durable write -/

/-- How the manager's create ends: with the machine, with an error after the machine was written, or before. -/
inductive CreateOutcome where
  | created
  | lost (e : Failure)
  | refused (e : Failure)
  deriving DecidableEq

namespace Service

variable (config : Config)

/-- `Control.Create`: the manager has each name once. -/
def managerCreate (s : Service) (name : Str) (owner : Principal) (outcome : CreateOutcome) : Service × Except Failure Unit :=
  if (s.machines.get? name).isSome then (s, .error errNameTaken)
  else
    let written := { s with machines := s.machines.insert name ⟨config.instanceName, owner⟩ }
    match outcome with
    | .created => (written, .ok ())
    | .lost e => (written, .error e)
    | .refused e => (s, .error e)

def materialize (s : Service) (o : Observation) (vms : UInt64) (name : Str) (owner : Principal) (outcome : CreateOutcome) :
    Service × Except Failure Unit :=
  match s.admitLocked config o vms owner 0 true with
  | .error e => (s, .error e)
  | .ok () => s.managerCreate config name owner outcome

end Service

/-! ## Requests -/

structure Registry where
  /-- Closing, paused, shutting down or refused by `Admission`. -/
  unavailable : Bool
  (active limit : Nat)
  newID : Option Failure

/-- `SubmitResult` up to the point where the job is accepted. -/
def Registry.submit (r : Registry) : Except Failure Unit :=
  if r.unavailable then .error (failure "unavailable" "daemon is shutting down" 9)
  else if r.limit ≤ r.active then .error (failure "limit" "operation admission limit reached" 6)
  else
    match r.newID with
    | some e => .error e
    | none => .ok ()

inductive QuotaEvent where
  | create (q : CreateRequest) (vms : UInt64) (o : Observation)
  /-- The policy of the new machine is built. -/
  | prepare (fails : Bool)
  | submit (registry : Registry)
  /-- The job's turn comes, or the daemon goes down before. -/
  | dequeue (cancelled : Bool)
  /-- An error of the job, before or after its durable write. -/
  | fail
  | materialize (vms : UInt64) (o : Observation) (outcome : CreateOutcome)
  /-- The job gives the reservation back. -/
  | release
  /-- The rest of the job, up to its return. -/
  | return
  | finalize
  /-- Machines are removed, or made without a request. -/
  | inventory (machines : AssocMap Str Machine)
  | grow (id : Str) (growth : UInt64) (statfs : Option Statfs)
  | grown (id : Str)

namespace Service

variable (config : Config)

def put (s : Service) (t : Nat) (r : Request) : Service := { s with requests := s.requests.insert t r }

def create (s : Service) (t : Nat) (q : CreateRequest) (vms : UInt64) (o : Observation) : Service :=
  match s.reserveCreate config o vms q with
  | .error _ => s
  | .ok (s, name) => s.put t ⟨name, q.owner, q.disk, .reserved, false⟩

/-- One step of a create; nothing when its stage has no such step. -/
def advance (s : Service) (t : Nat) (r : Request) : QuotaEvent → Option Service
  | .prepare fails =>
    if r.stage = .reserved then some (s.put t { r with stage := if fails then .returned else .prepared }) else none
  | .submit registry =>
    if r.stage = .prepared then
      match registry.submit with
      | .error _ => some (s.put t { r with stage := .returned })
      | .ok () => some (s.put t { r with stage := .queued })
    else none
  | .dequeue cancelled =>
    if r.stage = .queued then some (s.put t { r with stage := if cancelled then .returned else .running }) else none
  | .fail => if r.stage = .running ∨ r.stage = .made then some (s.put t { r with stage := .returned }) else none
  | .materialize vms o outcome =>
    if r.stage = .running then
      let result := s.materialize config o vms r.name r.owner outcome
      some (result.1.put t { r with stage := if result.2.isOk then .made else .returned })
    else none
  | .release =>
    if r.stage = .made then some ((s.releaseCreate r).put t { r with stage := .freed, released := true }) else none
  | .return => if r.stage = .freed then some (s.put t { r with stage := .returned }) else none
  | .finalize =>
    if r.stage = .returned then some { s.releaseCreate r with requests := s.requests.erase t } else none
  | _ => none

/-- Jobs on one machine take turns, so it grows once at a time. -/
def step (s : Service) (t : Nat) : QuotaEvent → Option Service
  | .create q vms o => if (s.requests.get? t).isSome then none else some (s.create config t q vms o)
  | .inventory machines => some { s with machines }
  | .grow id growth statfs =>
    if (s.growths.get? id).isSome then none
    else
      match s.reserveDiskGrowth config statfs id growth with
      | .error _ => some s
      | .ok s => some { s with growths := s.growths.insert id growth }
  | .grown id =>
    if (s.growths.get? id).isSome then
      some { s with diskPending := s.diskPending.erase (growthKey id), growths := s.growths.erase id }
    else none
  | e =>
    match s.requests.get? t with
    | none => none
    | some r => s.advance config t r e

def run (s : Service) (events : List (Nat × QuotaEvent)) : Option Service :=
  events.foldlM (fun s e => s.step config e.1 e.2) s

end Service

end Silo.Taild
