import Mathlib.Logic.Function.Basic
import Mathlib.Data.List.Nodup
import Silo.Lib.Steps
import Silo.Vmm.State
/-!
# The forward table

The entries of a `ForwardTable` under the calls that add, remove and stop them, and
under the availability of the guest half. Each lock-protected section and each watch
update is a step. `add_session`, `remove` and `shutdown` hold the operation lock, so
one of them runs at a time; `set_agent_availability` takes no such lock, and has one
caller, which makes one call after another.

`add_session` refreshes the entry it pushed in one step: the statement that reads the
table's availability holds the read guard of the watch until the entry is set.
Of a status snapshot the state is kept; connection tokens are left out, since no
status depends on them.
-/

namespace Silo.Vmm

open List Lib

inductive ForwardShape where
  | InboundAgent | InboundVsock | OutboundAgent | OutboundVsock
  deriving DecidableEq

/-- The guest half is an agent endpoint. -/
def ForwardShape.agent : ForwardShape → Bool
  | .InboundAgent | .OutboundAgent => true
  | .InboundVsock | .OutboundVsock => false

inductive ForwardState where
  | Pending | Active | Unsupported | Closed
  deriving DecidableEq

inductive GuestHalfAvailability where
  | Unknown
  | Available (identity : Option ReadyAgentIdentity)
  | Unsupported
  deriving DecidableEq

def GuestHalfAvailability.available : GuestHalfAvailability → Bool
  | .Available _ => true
  | _ => false

/-! ## One entry -/

/-- `guest_listener` is the state that a call of `activate_guest_listener` or `end_guest_listener` is about to
write: it has passed its check and holds the generation lock. `was_closed` records that the entry was `Closed`. -/
structure ForwardEntry where
  shape : ForwardShape
  availability : GuestHalfAvailability
  state : ForwardState
  shutdown : Bool := false
  guest_listener : Option ForwardState := none
  was_closed : Bool := false

namespace ForwardEntry

def set_state (e : ForwardEntry) (state : ForwardState) : ForwardEntry :=
  { e with state := state, was_closed := e.was_closed || state = .Closed }

def apply_availability (e : ForwardEntry) : GuestHalfAvailability → ForwardEntry
  | .Unknown => e.set_state .Pending
  | .Available _ =>
    match e.shape with
    | .InboundAgent => e.set_state .Active
    | .OutboundAgent => e.set_state .Pending
    | .InboundVsock | .OutboundVsock => e
  | .Unsupported => e.set_state .Unsupported

def set_availability (e : ForwardEntry) (availability : GuestHalfAvailability) : ForwardEntry :=
  if e.availability = availability then e
  else { e.apply_availability availability with availability := availability }

end ForwardEntry

def initial_state : GuestHalfAvailability → ForwardShape → ForwardState
  | .Available _, .InboundAgent => .Active
  | .Available _, .InboundVsock => .Active
  | .Unsupported, _ => .Unsupported
  | _, _ => .Pending

/-- The entry that `build_entry` makes when the table's availability is `table`. -/
def build_entry (shape : ForwardShape) (table : GuestHalfAvailability) : ForwardEntry :=
  let availability := match shape with
    | .InboundVsock => .Available none
    | .OutboundVsock => .Unknown
    | .InboundAgent | .OutboundAgent => table
  { shape := shape, availability := availability, state := initial_state availability shape }

/-! ## The table and its calls -/

/-- `set_agent_availability`: after the watch update it takes a snapshot of the entries and walks it. -/
inductive Setter where
  | idle
  | wrote (value : GuestHalfAvailability)
  | walking (value : GuestHalfAvailability) (rest : List Nat)

/-- The call that holds the operation lock: `add_session` up to `refreshed`, then `remove`, and `shutdown` with
the entries it has still to stop. -/
inductive Operation where
  | idle
  | built (id : Nat)
  | pushed (id : Nat)
  | refreshed (id : Nat)
  | removed (id : Nat)
  | cancelled (id : Nat)
  | stopping (rest : List Nat)

structure ForwardTable where
  availability : GuestHalfAvailability
  /-- Every entry built, by id. -/
  entry : Nat → ForwardEntry
  entries : List Nat
  next_id : Nat
  shutdown : Bool
  setter : Setter
  operation : Operation

namespace ForwardTable

/-- `prepare_machine`, with the shapes of the machine's own forwards. -/
def prepare_machine (shapes : List ForwardShape) : ForwardTable :=
  ⟨.Unknown, fun id => build_entry (shapes.getD (id - 1) .InboundAgent) .Unknown, List.range' 1 shapes.length,
    shapes.length + 1, false, .idle, .idle⟩

def is_cancelled (s : ForwardTable) (id : Nat) : Bool := s.shutdown || (s.entry id).shutdown

def put (s : ForwardTable) (id : Nat) (e : ForwardEntry) : ForwardTable :=
  { s with entry := Function.update s.entry id e }

/-- The next step of `set_agent_availability` after the watch update. -/
def walk (s : ForwardTable) : Option ForwardTable :=
  match s.setter with
  | .idle => none
  | .wrote value => some { s with setter := .walking value s.entries }
  | .walking _ [] => some { s with setter := .idle }
  | .walking value (id :: rest) =>
    let s' := { s with setter := .walking value rest }
    if !(s.entry id).shape.agent then some s'
    else if (s.entry id).guest_listener.isSome then none
    else some (s'.put id ((s.entry id).set_availability value))

/-- The next step of the call that holds the operation lock. -/
def proceed (s : ForwardTable) : Option ForwardTable :=
  match s.operation with
  | .idle => none
  | .built id => some { s with entries := s.entries ++ [id], operation := .pushed id }
  | .pushed id =>
    let s' := { s with operation := .refreshed id }
    if !(s.entry id).shape.agent then some s'
    else if (s.entry id).guest_listener.isSome then none
    else some (s'.put id ((s.entry id).set_availability s.availability))
  -- `activate_entry`
  | .refreshed id =>
    let s' := { s with operation := .idle }
    if (s.entry id).shape = .OutboundVsock then some (s'.put id ((s.entry id).set_state .Active)) else some s'
  -- `stop`: first the token, then the state
  | .removed id => some ({ s with operation := .cancelled id }.put id { s.entry id with shutdown := true })
  | .cancelled id => some ({ s with operation := .idle }.put id ((s.entry id).set_state .Closed))
  | .stopping [] => some { s with entries := [], operation := .idle }
  | .stopping (id :: rest) => some ({ s with operation := .stopping rest }.put id ((s.entry id).set_state .Closed))

/-- The check of `activate_guest_listener` for an identity, or of `end_guest_listener`. -/
def check_guest_listener (s : ForwardTable) (id : Nat) : Option ReadyAgentIdentity → Option ForwardState
  | some identity =>
    if s.is_cancelled id ∨ (s.entry id).availability ≠ .Available (some identity) then none else some .Active
  | none => if !s.is_cancelled id ∧ (s.entry id).availability.available then some .Pending else none

end ForwardTable

inductive ForwardEvent where
  | set_agent_availability (value : GuestHalfAvailability)
  | walk
  | add_session (shape : ForwardShape)
  | add_failed
  | remove (id : Nat)
  | shutdown
  | shutdown_locked
  | proceed
  | check_guest_listener (id : Nat) (identity : Option ReadyAgentIdentity)
  | update_guest_listener (id : Nat)

def ForwardTable.step (s : ForwardTable) : ForwardEvent → Option ForwardTable
  | .set_agent_availability value =>
    match s.setter with
    | .idle => if s.availability = value then some s else some { s with availability := value, setter := .wrote value }
    | _ => none
  | .walk => s.walk
  | .add_session shape =>
    match s.operation with
    | .idle =>
      if s.shutdown then some s
      else some ({ s with operation := .built s.next_id, next_id := s.next_id + 1 }.put s.next_id
        (build_entry shape s.availability))
    | _ => none
  | .add_failed =>
    match s.operation with
    | .built _ => some { s with operation := .idle }
    | _ => none
  | .remove id =>
    match s.operation with
    | .idle =>
      if id ∈ s.entries then some { s with entries := s.entries.erase id, operation := .removed id } else some s
    | _ => none
  | .shutdown => some { s with shutdown := true }
  | .shutdown_locked =>
    match s.operation with
    | .idle => if s.shutdown then some { s with operation := .stopping s.entries } else none
    | _ => none
  | .proceed => s.proceed
  | .check_guest_listener id identity =>
    if (s.entry id).shape ≠ .OutboundAgent ∨ (s.entry id).guest_listener.isSome then none
    else some (s.put id { s.entry id with guest_listener := s.check_guest_listener id identity })
  | .update_guest_listener id =>
    match (s.entry id).guest_listener with
    | some state => some (s.put id { (s.entry id).set_state state with guest_listener := none })
    | none => none

/-! ## What every run keeps -/

/-- An inbound agent entry is active exactly while the guest half is available, until it is closed. Only outbound
agent entries have a guest listener, which never closes them. -/
structure ForwardEntry.Inv (e : ForwardEntry) : Prop where
  inbound : e.shape = .InboundAgent → e.was_closed = false → (e.state = .Active ↔ e.availability.available)
  listener : ∀ state, e.guest_listener = some state → e.shape = .OutboundAgent ∧ state ≠ .Closed

section Entry

variable {e : ForwardEntry}

@[grind .] theorem build_entry_inv (shape : ForwardShape) (table : GuestHalfAvailability) : (build_entry shape table).Inv := by
  refine ⟨?_, by simp [build_entry]⟩
  rintro rfl -
  cases table <;> simp [build_entry, initial_state, GuestHalfAvailability.available]

@[grind .] theorem ForwardEntry.Inv.set_availability (h : e.Inv) (value : GuestHalfAvailability) :
    (e.set_availability value).Inv := by
  obtain ⟨hinbound, hlistener⟩ := h
  unfold ForwardEntry.set_availability apply_availability set_state
  constructor <;> grind [GuestHalfAvailability.available]

/-- An inbound agent entry gets its state from its availability, or is closed. -/
theorem ForwardEntry.Inv.set_state {state : ForwardState} (h : e.Inv)
    (hstate : e.shape ≠ .InboundAgent ∨ state = .Closed) : (e.set_state state).Inv := by
  refine ⟨?_, h.listener⟩
  rintro hshape hopen
  rcases hstate with hother | rfl
  · exact absurd hshape hother
  · simp [ForwardEntry.set_state] at hopen

/-- Setting the availability changes nothing else but the state. -/
theorem set_availability_frame (e : ForwardEntry) (value : GuestHalfAvailability) :
    (e.set_availability value).availability = value ∧ (e.set_availability value).shape = e.shape ∧
      (e.set_availability value).shutdown = e.shutdown ∧ (e.set_availability value).was_closed = e.was_closed := by
  unfold ForwardEntry.set_availability ForwardEntry.apply_availability ForwardEntry.set_state
  grind

end Entry

/-- The setter has still to bring its value to the entry. -/
@[grind] def Setter.Owes : Setter → Nat → Prop
  | .idle, _ => False
  | .wrote _, _ => True
  | .walking _ rest, id => id ∈ rest

namespace ForwardTable

structure Inv (s : ForwardTable) : Prop where
  nodup : s.entries.Nodup
  fresh : ∀ id ∈ s.entries, id < s.next_id
  built : ∀ id, s.operation = .built id → id ∉ s.entries ∧ id < s.next_id ∧ (s.entry id).was_closed = false
  pushed : ∀ id, s.operation = .pushed id ∨ s.operation = .refreshed id → (s.entry id).was_closed = false
  removed : ∀ id, s.operation = .removed id ∨ s.operation = .cancelled id → id ∉ s.entries
  cancelled : ∀ id, s.operation = .cancelled id → (s.entry id).shutdown
  stopping : ∀ rest, s.operation = .stopping rest → s.shutdown
  setter : ∀ value, (s.setter = .wrote value ∨ ∃ rest, s.setter = .walking value rest) → value = s.availability
  entry : ∀ id, (s.entry id).Inv
  synced : ∀ id ∈ s.entries, (s.entry id).shape.agent →
    (s.entry id).availability = s.availability ∨ s.operation = .pushed id ∨ s.setter.Owes id
  /-- An entry of the table is closed only by `shutdown`. -/
  closed : ∀ id ∈ s.entries, (s.entry id).was_closed → ∃ rest, s.operation = .stopping rest

variable {s s' : ForwardTable} {id : Nat} {e : ForwardEntry}

theorem put_entry (j : Nat) : (s.put id e).entry j = if j = id then e else s.entry j := Function.update_apply ..

open ForwardTable

section
variable (h : s.Inv)
include h

/-- An entry may be replaced by one of its shape that has its availability or the table's, and that is closed only
by `stop`. -/
theorem Inv.put (he : e.Inv) (hshape : e.shape = (s.entry id).shape)
    (havailability : e.availability = (s.entry id).availability ∨ e.availability = s.availability)
    (hshutdown : (s.entry id).shutdown → e.shutdown)
    (hclosed : e.was_closed → (s.entry id).was_closed ∨ s.operation = .cancelled id ∨
      ∃ rest, s.operation = .stopping rest) : (s.put id e).Inv := by
  have hinv := h
  obtain ⟨-, -, hbuilt, hpushed, hremoved, hcancelled, -, -, hentry, hsynced, hclosing⟩ := h
  refine { hinv with built := ?_, pushed := ?_, cancelled := ?_, entry := ?_, synced := ?_, closed := ?_ } <;>
    intro j <;> rw [put_entry] <;> split_ifs with hj <;> try subst hj
  all_goals grind [put]

theorem Inv.set_availability (id : Nat) : (s.put id ((s.entry id).set_availability s.availability)).Inv := by
  obtain ⟨havailability, hshape, hshutdown, hclosed⟩ := set_availability_frame (s.entry id) s.availability
  exact h.put ((h.entry id).set_availability _) hshape (.inr havailability) hshutdown.trans fun hwas => .inl (hclosed ▸ hwas)

/-- The next operation, once the entry is as the step leaves it. -/
theorem Inv.next {operation : Operation}
    (hnext : (∃ id, s.operation = .pushed id ∧ operation = .refreshed id ∧
        ((s.entry id).shape.agent → (s.entry id).availability = s.availability)) ∨
      (∃ id, s.operation = .removed id ∧ operation = .cancelled id ∧ (s.entry id).shutdown) ∨
      ∃ rest rest', s.operation = .stopping rest ∧ operation = .stopping rest') : { s with operation }.Inv := by
  obtain ⟨hnodup, hfresh, hbuilt, hpushed, hremoved, hcancelled, hstopping, hsetter, hentry, hsynced, hclosed⟩ := h
  rcases hnext with ⟨id, heq, rfl, hsame⟩ | ⟨id, heq, rfl, hstopped⟩ | ⟨rest, rest', heq, rfl⟩ <;>
    constructor <;> grind

theorem Inv.idle (heq : s.operation = .built id ∨ s.operation = .refreshed id ∨ s.operation = .cancelled id) :
    { s with operation := .idle }.Inv := by
  have hsynced := h.synced
  have hclosed := h.closed
  exact { h with
    built := nofun, pushed := nofun, removed := nofun, cancelled := nofun, stopping := nofun
    synced := by grind, closed := by grind }

theorem Inv.walk (hs : s.walk = some s') : s'.Inv := by
  have hsetter := h.setter
  have hsynced := h.synced
  unfold ForwardTable.walk at hs
  split at hs <;> rename_i heq
  · cases hs
  · cases hs
    exact { h with setter := by grind, synced := fun _ hmem _ => .inr (.inr hmem) }
  · cases hs
    exact { h with setter := nofun, synced := by grind }
  · rename_i value id rest
    obtain rfl : value = s.availability := hsetter value (.inr ⟨_, heq⟩)
    split_ifs at hs with hother <;> cases hs
    · exact { h with setter := by grind, synced := by grind }
    · have hframe := set_availability_frame (s.entry id) s.availability
      refine { h.set_availability id with setter := by grind [ForwardTable.put], synced := fun j => ?_ }
      rw [put_entry]
      grind [ForwardTable.put]

theorem Inv.proceed (hs : s.proceed = some s') : s'.Inv := by
  have hstop (id : Nat) := h.put ((h.entry id).set_state (.inr rfl)) rfl (.inl rfl) (fun hs => hs)
  unfold ForwardTable.proceed at hs
  split at hs <;> rename_i heq
  · cases hs
  · rename_i id
    obtain ⟨hnodup, hfresh, hbuilt, hpushed, hremoved, hcancelled, hstopping, hsetter, hentry, hsynced, hclosed⟩ := h
    have hadded := hnodup.append (nodup_singleton id) (by simpa using (hbuilt id heq).1)
    cases hs
    constructor <;> grind
  · rename_i id
    split_ifs at hs with hother <;> cases hs
    · exact h.next (.inl ⟨id, heq, rfl, fun hagent => by simp [hagent] at hother⟩)
    · exact (h.set_availability id).next (.inl ⟨id, heq, rfl, fun _ => by simp [set_availability_frame, ForwardTable.put]⟩)
  · rename_i id
    split_ifs at hs with hvsock <;> cases hs
    · have hactive : ((s.entry id).set_state .Active).Inv := (h.entry id).set_state (.inl (by simp [hvsock]))
      have hput := h.put hactive rfl (.inl rfl) (fun hs => hs) fun hwas => .inl (by simpa [ForwardEntry.set_state] using hwas)
      exact hput.idle (.inr (.inl heq))
    · exact h.idle (.inr (.inl heq))
  · rename_i id
    cases hs
    have hput := h.put (e := { s.entry id with shutdown := true }) ⟨(h.entry id).inbound, (h.entry id).listener⟩ rfl
      (.inl rfl) (fun _ => rfl) .inl
    exact hput.next (.inr (.inl ⟨id, heq, rfl, by rw [put_entry, if_pos rfl]⟩))
  · rename_i id
    cases hs
    exact (hstop id fun _ => .inr (.inl heq)).idle (.inr (.inr heq))
  · cases hs
    exact ⟨.nil, nofun, nofun, nofun, nofun, nofun, nofun, h.setter, h.entry, nofun, nofun⟩
  · rename_i id rest
    cases hs
    exact (hstop id fun _ => .inr (.inr ⟨_, heq⟩)).next (.inr (.inr ⟨_, rest, heq, rfl⟩))

theorem Inv.step {event : ForwardEvent} (hs : s.step event = some s') : s'.Inv := by
  have hinv := h
  obtain ⟨hnodup, hfresh, hbuilt, hpushed, hremoved, hcancelled, hstopping, hsetter, hentry, hsynced, hclosed⟩ := h
  cases event <;> simp only [ForwardTable.step] at hs
  case walk => exact hinv.walk hs
  case proceed => exact hinv.proceed hs
  case set_agent_availability value =>
    split at hs <;> try cases hs
    split_ifs at hs <;> cases hs
    · exact hinv
    · exact { hinv with setter := by grind, synced := fun _ _ _ => .inr (.inr trivial) }
  case add_session shape =>
    split at hs <;> try cases hs
    split_ifs at hs <;> cases hs
    · exact hinv
    · have hopen : (build_entry shape s.availability).was_closed = false := rfl
      constructor <;> grind [put_entry, ForwardTable.put]
  case add_failed =>
    split at hs <;> cases hs
    exact hinv.idle (.inl ‹_›)
  case remove id =>
    split at hs <;> try cases hs
    split_ifs at hs <;> cases hs
    · have herased := hnodup.erase id
      have hout : id ∉ s.entries.erase id := hnodup.not_mem_erase
      have hkept : ∀ j ∈ s.entries.erase id, j ∈ s.entries := fun _ => mem_of_mem_erase
      constructor <;> grind
    · exact hinv
  case shutdown =>
    cases hs
    exact { hinv with stopping := fun _ _ => rfl }
  case shutdown_locked =>
    split at hs <;> try cases hs
    split_ifs at hs with hshutdown
    cases hs
    constructor <;> grind
  case check_guest_listener id identity =>
    have hcheck : s.check_guest_listener id identity ≠ some .Closed := by
      cases identity <;> simp [ForwardTable.check_guest_listener]
    split_ifs at hs with hlocked
    cases hs
    refine hinv.put ⟨(hentry id).inbound, fun state hstate => ?_⟩ rfl (.inl rfl) (fun hs => hs) .inl
    exact ⟨by simpa using (not_or.1 hlocked).1, fun hc => hcheck (hstate.trans (hc ▸ rfl))⟩
  case update_guest_listener id =>
    split at hs <;> cases hs
    rename_i state hstate
    obtain ⟨hshape, hstate⟩ := (hentry id).listener state hstate
    exact hinv.put ⟨by simp [ForwardEntry.set_state, hshape], nofun⟩ rfl (.inl rfl) (fun hs => hs)
      fun hwas => .inl (by simpa [ForwardEntry.set_state, hstate] using hwas)

end

theorem prepare_machine_inv (shapes : List ForwardShape) : (prepare_machine shapes).Inv := by
  refine ⟨nodup_range', ?_, nofun, nofun, nofun, nofun, nofun, nofun, fun id => build_entry_inv _ _, ?_,
    by simp [prepare_machine, build_entry]⟩
  · intro id hid
    have := mem_range'_1.1 hid
    simp only [prepare_machine]
    omega
  · intro id _ hagent
    refine Or.inl ?_
    simp only [prepare_machine, build_entry] at hagent ⊢
    generalize shapes.getD (id - 1) .InboundAgent = shape at hagent
    cases shape <;> simp_all [ForwardShape.agent]

/-- Once every call has returned, each agent entry of the table has the table's availability, and an inbound one is
active exactly when that is available. Calls of `set_agent_availability` come one after another, as from its one caller:
`step` starts none while another walks. -/
theorem availability_converges (shapes : List ForwardShape) (h : Reaches ForwardTable.step (prepare_machine shapes) s)
    (hsetter : s.setter = .idle) (hoperation : s.operation = .idle) :
    ∀ id ∈ s.entries, (s.entry id).shape.agent = true → (s.entry id).availability = s.availability ∧
      ((s.entry id).shape = .InboundAgent → ((s.entry id).state = .Active ↔ s.availability.available = true)) := by
  have hinv : s.Inv := h.invariant (fun _ _ _ ht he => ht.step he) (prepare_machine_inv shapes)
  intro id hmem hagent
  have hopen : (s.entry id).was_closed = false := by
    by_contra hwas
    obtain ⟨rest, hrest⟩ := hinv.closed id hmem (by simpa using hwas)
    cases hoperation.symm.trans hrest
  have hsame : (s.entry id).availability = s.availability := by
    have hsynced := hinv.synced id hmem hagent
    simpa [Setter.Owes, hsetter, hoperation] using hsynced
  refine ⟨hsame, fun hshape => ?_⟩
  rw [← hsame]
  exact (hinv.entry id).inbound hshape hopen

/-- The guest half becomes available while a session forward is being added: the walk comes before the push. -/
def setDuringAdd : List ForwardEvent :=
  [.add_session .InboundAgent, .set_agent_availability (.Available none), .walk, .walk, .walk, .proceed, .proceed, .proceed]

theorem set_during_add_converges : ∃ s, runSteps ForwardTable.step setDuringAdd (prepare_machine [.OutboundAgent]) = some s ∧
    s.entries = [1, 2] ∧ (s.entry 2).availability = s.availability ∧ (s.entry 2).state = .Active := by
  refine ⟨_, rfl, rfl, ?_, rfl⟩
  exact (availability_converges [.OutboundAgent] (reaches_runSteps setDuringAdd rfl) rfl rfl 2 (by decide) rfl).1

/-! ## Closed entries -/

/-- A closed entry is cancelled, and no guest listener call is past its check. -/
def AllKept (s : ForwardTable) : Prop := ∀ id, (s.entry id).was_closed →
  (s.entry id).state = .Closed ∧ s.is_cancelled id ∧ (s.entry id).guest_listener = none

/-- The steps after which closed entries are still closed: the walk brings no new value to one of the agent, and none is
closed while a guest listener call is past its check. -/
def Respects (s : ForwardTable) : ForwardEvent → Prop
  | .walk => ∀ value id rest, s.setter = .walking value (id :: rest) → (s.entry id).shape.agent →
      (s.entry id).state = .Closed → (s.entry id).availability = value
  | .proceed => (∀ id, s.operation = .cancelled id → (s.entry id).guest_listener = none) ∧
      ∀ id rest, s.operation = .stopping (id :: rest) → (s.entry id).guest_listener = none
  | _ => True

theorem AllKept.step {event : ForwardEvent} (h : s.AllKept) (hinv : s.Inv) (hr : s.Respects event)
    (hs : s.step event = some s') : s'.AllKept := by
  obtain ⟨-, -, hbuilt, hpushed, -, hcancelled, hstopping, -, hentry, -, -⟩ := hinv
  intro j hj
  have hkept := h j
  unfold is_cancelled at hkept ⊢
  cases event with
  | walk =>
    simp only [ForwardTable.step, ForwardTable.walk] at hs
    have hframe := fun value => set_availability_frame (s.entry j) value
    grind [Respects, put_entry, ForwardTable.put, ForwardEntry.set_availability]
  | proceed =>
    simp only [ForwardTable.step, ForwardTable.proceed] at hs
    have hframe := set_availability_frame (s.entry j) s.availability
    split at hs <;> grind [Respects, put_entry, ForwardTable.put, ForwardEntry.set_state]
  | add_session shape =>
    have hopen : (build_entry shape s.availability).was_closed = false := rfl
    grind [step, put_entry, put]
  | check_guest_listener id identity =>
    have hcheck : s.is_cancelled id → s.check_guest_listener id identity = none := by
      intro hc
      cases identity <;> simp [ForwardTable.check_guest_listener, hc]
    grind [step, put_entry, put, is_cancelled]
  | update_guest_listener id =>
    have hlistener := (hentry id).listener
    grind [ForwardTable.step, put_entry, ForwardTable.put, ForwardEntry.set_state]
  | _ => grind [step]

/-- A closed entry stays closed, in every run whose steps respect the closed entries. -/
theorem closed_stays_closed (shapes : List ForwardShape)
    (h : ReachesBy ForwardTable.step Respects (prepare_machine shapes) s) :
    ∀ id, (s.entry id).was_closed = true → (s.entry id).state = .Closed := by
  have hkept : s.Inv ∧ s.AllKept := by
    refine ReachesBy.invariant (P := fun s => s.Inv ∧ s.AllKept) h ?_ ⟨prepare_machine_inv shapes, ?_⟩
    · exact fun _ _ _ ht hr he => ⟨ht.1.step he, ht.2.step ht.1 hr he⟩
    · simp [AllKept, prepare_machine, build_entry]
  exact fun id hwas => (hkept.2 id hwas).1

theorem removed_stays_closed : ∃ s,
    runSteps ForwardTable.step [.remove 1, .proceed, .proceed] (prepare_machine [.InboundAgent]) = some s ∧
      (s.entry 1).was_closed = true ∧ (s.entry 1).state = .Closed := by
  refine ⟨_, rfl, rfl, closed_stays_closed [.InboundAgent] (reachesBy_runSteps [.remove 1, .proceed, .proceed] ?_ rfl) 1 rfl⟩
  refine ⟨trivial, ?_⟩
  rintro t ⟨⟩
  refine ⟨⟨fun _ _ => rfl, nofun⟩, ?_⟩
  rintro t ⟨⟩
  refine ⟨⟨?_, nofun⟩, fun _ _ => trivial⟩
  rintro id hid
  cases (hid : Operation.cancelled 1 = .cancelled id)
  rfl

/-- A walk that took its snapshot before the entry was removed. -/
def removedDuringWalk : List ForwardEvent :=
  [.set_agent_availability (.Available none), .walk, .remove 1, .proceed, .proceed, .walk]

/-- Availability is applied to an entry that was closed. -/
theorem removed_during_walk_reopened :
    ∃ s, runSteps ForwardTable.step removedDuringWalk (prepare_machine [.InboundAgent]) = some s ∧
      (s.entry 1).was_closed = true ∧ (s.entry 1).state = .Active :=
  ⟨_, rfl, rfl, rfl⟩

end ForwardTable

end Silo.Vmm
