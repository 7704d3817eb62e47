import Silo.Lib.AssocMap
import Silo.Rust.Str
/-!
# Machine locks

A machine is locked by an advisory lock on the file `locks/<id>`. The file's presence
reserves the number, the store says which machine has it, and both are shared by
processes that know nothing of each other. Here every call that takes part is cut into
the steps other processes can come between.

A file is its inode: once its path is unlinked it lives on for whoever has it open, and
the path may lead to a new one. What a killed process leaves in the directory stays.
-/

namespace Silo.Libvm

open Lib
open Rust (Str)

abbrev MachineId := Str

abbrev LockId := Nat

abbrev Inode := Nat

def u32_max : Nat := 4294967295

/-! ## The lock directory -/

structure LockDir where
  files : AssocMap LockId Inode
  next : Inode

namespace LockDir

def add (d : LockDir) (id : LockId) : LockDir := ⟨d.files.insert id d.next, d.next + 1⟩

/-- `create_new` is atomic: nothing when the path exists. -/
def create_lock_allocation (d : LockDir) (id : LockId) : Option LockDir :=
  if (d.files.get? id).isSome then none else some (d.add id)

def open_lock_file (d : LockDir) (id : LockId) : Inode × LockDir :=
  match d.files.get? id with
  | some file => (file, d)
  | none => (d.next, d.add id)

def free (d : LockDir) (id : LockId) : LockDir := { d with files := d.files.erase id }

end LockDir

/-! ## Calls in progress -/

/-- How far the holder of a guard is with removing its machine. -/
inductive Removal where
  | none
  | records
  | freed
  deriving DecidableEq

inductive Task where
  /-- `allocate`, about to try a number. -/
  | allocating (machine : MachineId) (raw_id : LockId)
  /-- A `MachineCreateGuard` that is not committed. -/
  | creating (machine : MachineId) (lock_id : LockId)
  /-- `lock_machine_config` after its first lookup. -/
  | resolved (machine : MachineId) (lock_id : LockId)
  | opened (machine : MachineId) (lock_id : LockId) (file : Inode)
  | locked (machine : MachineId) (lock_id : LockId) (file : Inode)
  /-- The `Ok` result of `lock_machine_config`. -/
  | guard (machine : MachineId) (lock_id : LockId) (file : Inode) (removal : Removal)
  deriving DecidableEq

namespace Task

def machine : Task → MachineId
  | allocating machine _ | creating machine _ | resolved machine _ | opened machine _ _ | locked machine _ _
  | guard machine _ _ _ => machine

def flock : Task → Option Inode
  | locked _ _ file | guard _ _ file _ => some file
  | _ => none

def reserves : Task → Option LockId
  | creating _ lock_id | guard _ lock_id _ .records => some lock_id
  | _ => none

def is_create : Task → Bool
  | allocating _ _ | creating _ _ => true
  | _ => false

def is_guard : Task → Bool
  | guard _ _ _ _ => true
  | _ => false

end Task

structure Locks where
  dir : LockDir
  /-- The lock id in each machine's record. -/
  records : AssocMap MachineId LockId
  /-- The machine ids drawn so far. -/
  drawn : List MachineId
  tasks : AssocMap Nat Task

namespace Locks

def init : Locks := ⟨⟨.empty, 0⟩, .empty, [], .empty⟩

def put (s : Locks) (t : Nat) (task : Task) : Locks := { s with tasks := s.tasks.insert t task }

/-- The call returns or its process dies: its files are closed and their locks released. -/
def drop (s : Locks) (t : Nat) : Locks := { s with tasks := s.tasks.erase t }

def flocked (s : Locks) (file : Inode) : Bool := s.tasks.entries.any fun e => e.2.flock = some file

end Locks

/-! ## Steps -/

inductive LockEvent where
  | create (machine : MachineId)
  | lookup (machine : MachineId)
  /-- The call goes on by one step. -/
  | advance
  /-- A create that fails. -/
  | rollback
  /-- The holder of a guard removes its machine. -/
  | remove
  /-- A call ends, by returning or with its process. -/
  | stop
  deriving DecidableEq

namespace Locks

/-- `MachineId::new` draws an id that was never drawn before. -/
def create (s : Locks) (t : Nat) (machine : MachineId) : Option Locks :=
  if machine ∈ s.drawn then none
  else some ({ s with drawn := machine :: s.drawn }.put t (.allocating machine 0))

def lookup (s : Locks) (t : Nat) (machine : MachineId) : Option Locks :=
  match s.records.get? machine with
  | some lock_id => some (s.put t (.resolved machine lock_id))
  | none => some s

def allocate (s : Locks) (t : Nat) (machine : MachineId) (raw_id : LockId) : Locks :=
  if u32_max < raw_id then s.drop t
  else
    match s.dir.create_lock_allocation raw_id with
    | some dir => { s with dir }.put t (.creating machine raw_id)
    | none => s.put t (.allocating machine (raw_id + 1))

def commit (s : Locks) (t : Nat) (machine : MachineId) (lock_id : LockId) : Locks :=
  { s with records := s.records.insert machine lock_id }.drop t

/-- The second lookup of `lock_machine_config`. -/
def recheck (s : Locks) (t : Nat) (machine : MachineId) (lock_id : LockId) (file : Inode) : Locks :=
  match s.records.get? machine with
  | none => s.drop t
  | some current => if current ≠ lock_id then s.drop t else s.put t (.guard machine lock_id file .none)

def advance (s : Locks) (t : Nat) : Task → Option Locks
  | .allocating machine raw_id => some (s.allocate t machine raw_id)
  | .creating machine lock_id => some (s.commit t machine lock_id)
  | .resolved machine lock_id =>
    let (file, dir) := s.dir.open_lock_file lock_id
    some ({ s with dir }.put t (.opened machine lock_id file))
  | .opened machine lock_id file => if s.flocked file then none else some (s.put t (.locked machine lock_id file))
  | .locked machine lock_id file => some (s.recheck t machine lock_id file)
  -- `remove_machine_records`: the record goes first, then the file.
  | .guard machine lock_id file .records =>
    some ({ s with dir := s.dir.free lock_id }.put t (.guard machine lock_id file .freed))
  | .guard _ _ _ _ => none

/-- Dropping a create guard that is not committed frees its number. -/
def rollback (s : Locks) (t : Nat) : Task → Option Locks
  | .creating _ lock_id => some ({ s with dir := s.dir.free lock_id }.drop t)
  | _ => none

def remove (s : Locks) (t : Nat) : Task → Option Locks
  | .guard machine lock_id file .none =>
    some ({ s with records := s.records.erase machine }.put t (.guard machine lock_id file .records))
  | _ => none

/-- Nothing when the step cannot be taken. A new call has a number of its own. -/
def step (s : Locks) (t : Nat) (e : LockEvent) : Option Locks :=
  match e, s.tasks.get? t with
  | .create machine, none => s.create t machine
  | .lookup machine, none => s.lookup t machine
  | .advance, some task => s.advance t task
  | .rollback, some task => s.rollback t task
  | .remove, some task => s.remove t task
  | .stop, some _ => some (s.drop t)
  | _, _ => none

def run (s : Locks) (events : List (Nat × LockEvent)) : Option Locks :=
  events.foldlM (fun s e => s.step e.1 e.2) s

end Locks

end Silo.Libvm
