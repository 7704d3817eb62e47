import Silo.Lib.Steps
import Silo.Netnode.Node
/-!
# The status observation loop

`watch` turns notifications into signals on a mailbox that merges them, and
`runObservations` takes the mailbox, queries the local client and publishes what it
read. A signal may come between any two steps of the loop, a query included: a query
is made in one step and answered in a later one.

Each answer is stamped with the number of signals sent before its query was made, so
an answer stamped with all signals so far was read after the last of them. The copy
that `offerObservation` hands to the actions loop is left out: nothing reads it back.
-/

namespace Silo.Netnode

open Go Lib

/-! ## The mailbox -/

/-- `observationChanges`; `wake` is the channel of capacity one. -/
structure ObservationChanges where
  wake : Bool := false
  revision : UInt64 := 0
  connected : Bool := false
  full : Bool := false
  invalidate : Bool := false

structure ObservationChange where
  revision : UInt64
  (connected full invalidate : Bool)

namespace ObservationChanges

@[grind] def signal (c : ObservationChanges) (connected full invalidate : Bool) : ObservationChanges :=
  ⟨true, c.revision + 1, connected, c.full || full, c.invalidate || invalidate⟩

@[grind] def take (c : ObservationChanges) : ObservationChange × ObservationChanges :=
  (⟨c.revision, c.connected, c.full, c.invalidate⟩, { c with wake := false, full := false, invalidate := false })

@[grind] def current (c : ObservationChanges) (revision : UInt64) : Bool := c.connected && c.revision == revision

end ObservationChanges

/-! ## The loop -/

/-- `Status`, `StatusWithoutPeers` of the local client, and `Up` of the server. -/
inductive StatusQuery where
  | status
  | withoutPeers
  | up
  deriving DecidableEq

/-- What the client answers: an error, or a status that may be nil. -/
inductive Answer where
  | failed
  | ok (status : Option Status)

/-- A status, the query it answers and how many signals had been sent when that was made. -/
structure StatusRead where
  query : StatusQuery
  since : Nat
  status : Status

def Answer.read (query : StatusQuery) (since : Nat) : Answer → Option StatusRead
  | .ok (some status) => some ⟨query, since, status⟩
  | _ => none

def Answer.running : Answer → Bool
  | .ok (some status) => status.backendState = "Running".toList
  | _ => false

def sameSelf : Option PeerStatus → Option PeerStatus → Bool
  | none, none => true
  | some a, some b => a.id = b.id ∧ a.dnsName = b.dnsName ∧ a.tailscaleIPs = b.tailscaleIPs
  | _, _ => false

def sameStatusIdentity : Option Status → Option Status → Bool
  | some a, some b =>
    a.backendState = b.backendState && sameSelf a.self b.self && a.currentTailnet == b.currentTailnet
  | _, _ => false

/-- An error is not compared. -/
def Answer.sameIdentity (peers : Option StatusRead) : Answer → Bool
  | .failed => true
  | .ok status => sameStatusIdentity (peers.map StatusRead.status) status

/-- The last state handed to `observeStatus`: nil as the node starts or on an invalidation, nil after a
failed read, or a status with the peers of a second read (the same one if it was full). -/
inductive Published where
  | cleared
  | failed
  | status (read peers : StatusRead)

inductive Loop where
  | waiting
  | woken
  | taken (change : ObservationChange)
  | reading (change : ObservationChange)
  | querying (change : ObservationChange) (full : Bool) (query : StatusQuery) (since : Nat)
  | checking (change : ObservationChange) (full : Bool) (result : Option StatusRead)
  | publishing (full : Bool) (result : Option StatusRead)

/-- The loop, its mailbox and what it published; the last four fields only record the signals: how many, what
the last one said, how many there were up to the last full one and up to the last `take`. -/
structure Observing where
  changes : ObservationChanges := {}
  loop : Loop := .waiting
  peers : Option StatusRead := none
  up : Bool := false
  published : Published := .cleared
  signals : Nat := 0
  last : Option Bool := none
  fullAt : Nat := 0
  takenAt : Nat := 0

/-- What follows an answer: a full read where the identity changed, `Up` until it succeeds once where the node
runs, or the check that nothing was signalled meanwhile. `dialled` is the outcome of `strictDialer`. -/
def Observing.answered (s : Observing) (change : ObservationChange) (full : Bool) (query : StatusQuery) (since : Nat)
    (answer : Answer) (dialled : Bool) : Observing :=
  match query, answer with
  | .up, .ok _ =>
    if dialled then { s with up := true, loop := .checking change full (answer.read query since) }
    else { s with loop := .checking change full none }
  | .up, .failed => { s with loop := .checking change full none }
  | _, _ =>
    if query = .withoutPeers ∧ !answer.sameIdentity s.peers then
      { s with loop := .querying change true .status s.signals }
    else if answer.running && !s.up then { s with loop := .querying change true .up s.signals }
    else { s with loop := .checking change full (answer.read query since) }

inductive ObservingEvent where
  | signal (connected full invalidate : Bool)
  | tick
  | advance (answer : Answer) (dialled : Bool)

/-- The next step of the loop; only a query looks at `answer` and `dialled`. -/
def Observing.advance (s : Observing) (answer : Answer) (dialled : Bool) : Option Observing :=
  match s.loop with
  | .waiting => if s.changes.wake then some { s with changes.wake := false, loop := .woken } else none
  | .woken => some { s with loop := .taken s.changes.take.1, changes := s.changes.take.2, takenAt := s.signals }
  | .taken change =>
    let s := if change.invalidate || !change.connected then { s with peers := none, published := .cleared } else s
    some { s with loop := if change.connected then .reading change else .waiting }
  | .reading change =>
    let full := change.full || s.peers.isNone
    some { s with loop := .querying change full (if full then .status else .withoutPeers) s.signals }
  | .querying change full query since => some (s.answered change full query since answer dialled)
  | .checking change full result =>
    if s.changes.current change.revision then some { s with loop := .publishing full result }
    else some { s with peers := none, loop := .waiting }
  | .publishing _ none => some { s with peers := none, published := .failed, loop := .waiting }
  | .publishing true (some read) => some { s with peers := some read, published := .status read read, loop := .waiting }
  -- without a full read the cached peers are there: `ReadSince`
  | .publishing false (some read) =>
    s.peers.map fun peers => { s with published := .status read peers, loop := .waiting }

@[grind] def Observing.signalled (s : Observing) (connected full invalidate : Bool) : Observing :=
  { s with
    changes := s.changes.signal connected full invalidate
    signals := s.signals + 1
    last := some connected
    fullAt := if full then s.signals + 1 else s.fullAt }

def Observing.step (s : Observing) : ObservingEvent → Option Observing
  | .signal connected full invalidate => some (s.signalled connected full invalidate)
  | .tick =>
    match s.loop with
    | .waiting => some { s with loop := .woken }
    | _ => none
  | .advance answer dialled => s.advance answer dialled

/-! ## What the loop keeps -/

/-- What the state shows once the last signal has been acted on. -/
@[grind] def Observing.UpToDate (s : Observing) : Prop :=
  match s.last with
  | none => True
  | some false => s.published = .cleared
  | some true => s.published = .failed ∨
      ∃ read peers, s.published = .status read peers ∧ read.since = s.signals ∧
        peers.query ≠ .withoutPeers ∧ s.fullAt ≤ peers.since

/-- Nothing was signalled after the last `take`. -/
@[grind] def Observing.Fresh (s : Observing) : Prop := s.takenAt = s.signals

/-- The change taken is the mailbox's, unless something was signalled since. -/
@[grind] def Observing.Seen (s : Observing) (change : ObservationChange) : Prop :=
  s.Fresh → change.revision = s.changes.revision ∧ change.connected = s.changes.connected

/-- The cached peers are as new as the last full signal, unless that is not taken yet or a full read is under way. -/
@[grind] def Observing.PeersSince (s : Observing) (full : Bool) : Prop :=
  ∀ peers, s.peers = some peers →
    peers.query ≠ .withoutPeers ∧ (s.takenAt < s.fullAt ∨ full ∨ s.fullAt ≤ peers.since)

/-- A query made after the last `take`, which took the peers if the loop is to keep them. -/
@[grind] def Observing.ReadSince (s : Observing) (full : Bool) (query : StatusQuery) (since : Nat) : Prop :=
  (full → query ≠ .withoutPeers) ∧ (full = false → s.peers.isSome) ∧ s.takenAt ≤ since ∧ since ≤ s.signals

@[grind] def Observing.InLoop (s : Observing) : Loop → Prop
  | .waiting => s.PeersSince false ∧ (s.Fresh → s.UpToDate)
  | .woken => s.PeersSince false
  | .taken change => s.PeersSince change.full ∧ s.Seen change
  | .reading change => s.PeersSince change.full ∧ s.Seen change ∧ change.connected = true
  | .querying change full query since =>
    s.PeersSince full ∧ s.Seen change ∧ change.connected = true ∧ s.ReadSince full query since
  | .checking change full result =>
    s.PeersSince full ∧ s.Seen change ∧ change.connected = true ∧
      ∀ read, result = some read → s.ReadSince full read.query read.since
  | .publishing full result =>
    s.PeersSince full ∧ (s.Fresh → s.changes.connected) ∧
      ∀ read, result = some read → s.ReadSince full read.query read.since

structure Observing.Inv (s : Observing) : Prop where
  taken : s.takenAt ≤ s.signals
  fullAt : s.fullAt ≤ s.signals
  /-- A signal not yet taken has left a wake-up. -/
  wake : s.changes.wake ∨ s.loop = .woken ∨ s.Fresh
  full : s.takenAt < s.fullAt → s.changes.full
  last : ∀ c, s.last = some c → s.changes.connected = c
  loop : s.InLoop s.loop

variable {s s' : Observing}

/-- A signal leaves the loop where it is: what it still promises is only what it read before. -/
theorem Observing.Inv.signal (h : s.Inv) (connected full invalidate : Bool) :
    (s.signalled connected full invalidate).Inv := by
  obtain ⟨htaken, hfullAt, hwake, hfull, hlast, hloop⟩ := h
  have hfresh : ¬ (s.signalled connected full invalidate).Fresh := by
    simp only [Fresh, signalled]
    omega
  refine ⟨?_, ?_, ?_, ?_, ?_, ?_⟩
  iterate 5 grind
  show (s.signalled connected full invalidate).InLoop s.loop
  generalize s.loop = loop at hloop
  cases loop <;> grind

/-- An answer leads to another query or to the check with what was read. -/
theorem Observing.answered_cases (s : Observing) (change : ObservationChange) (full : Bool) (query : StatusQuery)
    (since : Nat) (answer : Answer) (dialled : Bool) :
    (∃ q, q ≠ .withoutPeers ∧ s.answered change full query since answer dialled =
      { s with loop := .querying change true q s.signals }) ∨
    ∃ up result, (∀ read, result = some read → read.query = query ∧ read.since = since) ∧
      s.answered change full query since answer dialled = { s with up := up, loop := .checking change full result } := by
  have hread : ∀ read, answer.read query since = some read → read.query = query ∧ read.since = since := by
    intro read hr
    unfold Answer.read at hr
    split at hr <;> cases hr
    exact ⟨rfl, rfl⟩
  unfold Observing.answered
  split
  · split
    · exact .inr ⟨_, _, hread, rfl⟩
    · exact .inr ⟨_, none, by simp, rfl⟩
  · exact .inr ⟨_, none, by simp, rfl⟩
  · split
    · exact .inl ⟨.status, by decide, rfl⟩
    · split
      · exact .inl ⟨.up, by decide, rfl⟩
      · exact .inr ⟨_, _, hread, rfl⟩

theorem Observing.Inv.advance {answer : Answer} {dialled : Bool} (h : s.Inv) (hs : s.advance answer dialled = some s') :
    s'.Inv := by
  obtain ⟨htaken, hfullAt, hwake, hfull, hlast, hloop⟩ := h
  unfold Observing.advance at hs
  split at hs <;> rename_i heq <;> rw [heq] at hloop <;> simp only [InLoop] at hloop
  · constructor <;> grind
  -- `take` clears the request for a full read, and the change carries it on
  · constructor <;> grind
  -- a disconnected watcher is shown as nil
  · constructor <;> grind
  · cases hpeers : s.peers <;> constructor <;> grind
  -- another query is made now, so after every signal so far
  · rcases s.answered_cases _ _ _ _ answer dialled with ⟨q, hq, heq⟩ | ⟨up, result, hread, heq⟩ <;>
      rw [heq] at hs <;> cases hs <;> constructor <;> grind
  · constructor <;> grind
  · constructor <;> grind
  · constructor <;> grind
  -- the cached peers stay with a status read without them only if no full signal came since
  · obtain ⟨peers, hcached, rfl⟩ := Option.map_eq_some_iff.1 hs
    constructor <;> grind

theorem Observing.Inv.step {e : ObservingEvent} (h : s.Inv) (hs : s.step e = some s') : s'.Inv := by
  cases e with
  | signal connected full invalidate =>
    cases hs
    exact h.signal connected full invalidate
  | tick =>
    have hloop := h.loop
    simp only [Observing.step] at hs
    split at hs <;> cases hs
    rename_i heq
    rw [heq] at hloop
    exact ⟨h.taken, h.fullAt, .inr (.inl rfl), h.full, h.last, hloop.1⟩
  | advance answer dialled => exact h.advance hs

theorem Observing.inv_init : ({} : Observing).Inv :=
  ⟨le_rfl, le_rfl, .inr (.inr rfl), by simp, by simp, by simp [PeersSince], fun _ => trivial⟩

/-- No invalidation is lost: whenever the loop waits with no wake-up pending, what it last published is up to
date with the last signal. -/
theorem observation_up_to_date {s : Observing} (h : Reaches Observing.step {} s) (hwaiting : s.loop = .waiting)
    (hwake : s.changes.wake = false) : s.UpToDate := by
  have hinv : s.Inv := h.invariant (fun _ _ _ ht he => ht.step he) Observing.inv_init
  have hloop := hinv.loop
  rw [hwaiting] at hloop
  rcases hinv.wake with hpending | hwoken | hfresh
  · cases hpending.symm.trans hwake
  · cases hwaiting.symm.trans hwoken
  · exact hloop.2 hfresh

/-- The loop reads the status of a node that runs, and a signal arrives while `Up` is still to be answered. -/
def signalDuringUp : List ObservingEvent :=
  let answer : ObservingEvent := .advance (.ok (some ⟨"Running".toList, none, none, []⟩)) true
  .signal true true false :: List.replicate 5 answer ++ .signal true false false :: List.replicate 9 answer

theorem signal_during_up_read_again : ∃ s, runSteps Observing.step signalDuringUp {} = some s ∧
    (∃ read peers, s.published = .status read peers) ∧ s.last = some true ∧ s.signals = 2 ∧ s.UpToDate := by
  refine ⟨_, rfl, ⟨_, _, rfl⟩, rfl, rfl, ?_⟩
  exact observation_up_to_date (reaches_runSteps signalDuringUp rfl) rfl rfl

end Silo.Netnode
