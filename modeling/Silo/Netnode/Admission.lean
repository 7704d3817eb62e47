import Silo.Go.Strings
import Silo.Lib.Steps
/-!
# Admitted connections

The part of `netnode.Node` that admits inbound connections and the accounting of each
one. A step is one section under a mutex (`n.mu` for `admit` and `Node.Close`, `c.mu`
for the rest), so `Close` takes two: between them it cancels the context and closes
the socket. `release` is called by those whose `acquire` succeeded; `Close` may come
from anyone at any time, the context's `AfterFunc` included.

A connection records what finishing it did. Audit is taken to be configured.
-/

namespace Silo.Netnode

open Go Lib List

/-- The fields of `InboundEvent` that change after admission. -/
structure InboundEvent where
  (decision reason : Str)
  deriving DecidableEq

/-- What `finishLocked` has done for a connection: the events audited, and how often it called `Flows.Done`, took a
value out of `slots` and called `relays.Done`. -/
structure Finished where
  audits : List InboundEvent := []
  flows : Nat := 0
  slots : Nat := 0
  relays : Nat := 0
  deriving DecidableEq

/-- `admittedConn`. `held` counts the references `acquire` gave out, and `closing` says that a `Close` is between
its two sections. -/
structure AdmittedConn where
  event : InboundEvent
  closed : Bool := false
  terminal : Bool := false
  hijacked : Bool := false
  httpOwned : Bool := false
  httpTracked : Bool := false
  refs : Int := 0
  held : Nat := 0
  closing : Bool := false
  finished : Finished := {}
  deriving DecidableEq

/-- The node: `slots` is the number of values in the channel, `waited` says that `Node.Close` is past
`relays.Wait`. -/
structure Inbound where
  started : Bool := false
  closed : Bool := false
  cancelled : Bool := false
  slots : Nat := 0
  relays : Int := 0
  waited : Bool := false
  conns : List AdmittedConn := []
  deriving DecidableEq

def slotCapacity : Nat := 256

/-! ## The sections -/

/-- `admit`; `verified` says that no identity is expected or the node runs under it, `flows` is the answer of
`Flows.Start`, and `reason` is the caller's. A refused connection is closed and audited there. -/
def Inbound.admitInbound (n : Inbound) (event : InboundEvent) (reason : Str) (verified flows : Bool) : Inbound :=
  if n.closed || !n.started || n.cancelled then n
  else if reason ≠ "forward_unavailable".toList ∧ !verified then n
  else if reason ≠ [] then n
  else if slotCapacity ≤ n.slots then n
  else if !flows then n
  else { n with slots := n.slots + 1, relays := n.relays + 1, conns := n.conns ++ [{ event := event }] }

def Inbound.put (n : Inbound) (i : Nat) (c : AdmittedConn) : Inbound := { n with conns := n.conns.set i c }

/-- `finishLocked` at the end of a section that leaves the connection `c`. -/
def Inbound.finishLocked (n : Inbound) (i : Nat) (c : AdmittedConn) : Inbound :=
  if !c.closed ∨ c.refs ≠ 0 ∨ c.terminal then n.put i c
  else
    let done := c.finished
    let done := ⟨done.audits ++ [c.event], done.flows + 1, done.slots + 1, done.relays + 1⟩
    { n with
      conns := n.conns.set i { c with terminal := true, finished := done }
      slots := n.slots - 1
      relays := n.relays - 1 }

namespace AdmittedConn

def outcome (c : AdmittedConn) (reason : Str) (connected : Bool) : AdmittedConn :=
  if c.terminal then c
  else if connected then { c with event := ⟨"allow".toList, "connected".toList⟩ }
  else if c.event.decision ≠ "allow".toList then { c with event.reason := reason }
  else c

def acquire (c : AdmittedConn) : AdmittedConn :=
  if c.closed then c else { c with refs := c.refs + 1, held := c.held + 1 }

def connContext (c : AdmittedConn) : AdmittedConn :=
  if !c.terminal then { c with httpTracked := true, refs := c.refs + 1, httpOwned := true }
  else { c with httpTracked := true }

/-- The first half of the section in `ConnState`. -/
def connState (c : AdmittedConn) (hijacked handshakeComplete : Bool) : AdmittedConn :=
  let c := if !c.terminal && handshakeComplete && c.event.reason = "tls_handshake_failed".toList then
    { c with event.reason := "guest_not_contacted".toList } else c
  { c with hijacked := c.hijacked || hijacked, httpTracked := false }

end AdmittedConn

inductive ConnStep where
  | outcome (reason : Str) (connected : Bool)
  | acquire
  | release
  | close
  | closeEnd
  | connContext
  | connState (hijacked handshakeComplete : Bool)

/-- What a section makes of its connection, and whether it ends with `finishLocked`. -/
def AdmittedConn.step (c : AdmittedConn) : ConnStep → Option (AdmittedConn × Bool)
  | .outcome reason connected => some (c.outcome reason connected, false)
  | .acquire => some (c.acquire, false)
  | .release => if c.held = 0 then none else some ({ c with refs := c.refs - 1, held := c.held - 1 }, true)
  | .close => if c.closed then none else some ({ c with closed := true, closing := true }, false)
  | .closeEnd => if c.closing then some ({ c with closing := false }, true) else none
  | .connContext => some (c.connContext, false)
  | .connState hijacked handshakeComplete =>
    let c := c.connState hijacked handshakeComplete
    if c.httpOwned then some ({ c with httpOwned := false, refs := c.refs - 1 }, true) else some (c, false)

inductive InboundStep where
  | start
  | cancel
  | nodeClose
  | nodeWait
  | admitInbound (event : InboundEvent) (reason : Str) (verified flows : Bool)
  | conn (i : Nat) (e : ConnStep)

def Inbound.step (n : Inbound) : InboundStep → Option Inbound
  | .start => some { n with started := true }
  | .cancel => some { n with cancelled := true }
  | .nodeClose => some { n with closed := true, cancelled := true }
  | .nodeWait => if n.closed ∧ n.relays = 0 then some { n with waited := true } else none
  | .admitInbound event reason verified flows => some (n.admitInbound event reason verified flows)
  | .conn i e => do
    let c ← n.conns[i]?
    let (c, finish) ← c.step e
    if finish then n.finishLocked i c else n.put i c

/-! ## What is kept -/

/-- A terminal connection was audited once with its event, gave back one slot and was reported done once to the
flows and the relays, all of it after it was closed and its last reference released; no other has done any of it. -/
structure AdmittedConn.Accounted (c : AdmittedConn) : Prop where
  finished : c.finished = if c.terminal then ⟨[c.event], 1, 1, 1⟩ else {}
  released : c.terminal → c.closed ∧ c.refs = 0 ∧ c.held = 0 ∧ c.httpOwned = false

/-- The references given out are counted, and a `Close` under way has closed the connection. -/
structure AdmittedConn.Sound (c : AdmittedConn) : Prop where
  accounted : c.Accounted
  closing : c.closing → c.closed
  counted : (c.held : Int) + c.httpOwned.toNat ≤ c.refs

/-- Once closed and released, with no `Close` on its way to finishing it, a connection is terminal. -/
def AdmittedConn.Settled (c : AdmittedConn) : Prop :=
  c.closed → c.refs = 0 → c.closing = false → c.terminal

structure Inbound.Inv (n : Inbound) : Prop where
  conns : ∀ c ∈ n.conns, c.Sound ∧ c.Settled
  slots : n.slots = n.conns.countP (fun c => !c.terminal)
  relays : n.relays = n.slots
  limit : n.slots ≤ slotCapacity
  waited : n.waited → n.closed ∧ n.slots = 0

variable {n n' : Inbound} {c c' : AdmittedConn} {i : Nat}

/-- A section on one connection, which may have made it terminal. -/
theorem Inbound.Inv.replace (h : n.Inv) (ended : Nat) (hc : n.conns[i]? = some c) (hsound : c'.Sound)
    (hsettled : c'.Settled) (hended : c'.terminal.toNat = c.terminal.toNat + ended) :
    { n with conns := n.conns.set i c', slots := n.slots - ended, relays := n.relays - ended }.Inv := by
  obtain ⟨hi, rfl⟩ := List.getElem?_eq_some_iff.1 hc
  have hcount : (n.conns.set i c').countP (fun c => !c.terminal) + ended = n.conns.countP (fun c => !c.terminal) := by
    have hpos : n.conns[i].terminal = false → 0 < n.conns.countP (fun c => !c.terminal) := fun hlive =>
      countP_pos_iff.2 ⟨_, getElem_mem hi, by simp [hlive]⟩
    rw [countP_set hi]
    generalize n.conns.countP (fun c => !c.terminal) = live at hpos
    cases hwas : n.conns[i].terminal <;> cases hnow : c'.terminal <;> simp [hwas, hnow] at hended hpos ⊢ <;> omega
  obtain ⟨hconns, hslots, hrelays, hlimit, hwaited⟩ := h
  refine ⟨?_, ?_, ?_, ?_, fun hw => ⟨(hwaited hw).1, ?_⟩⟩
  · intro d hd
    rcases mem_or_eq_of_mem_set hd with hd | rfl
    · exact hconns d hd
    · exact ⟨hsound, hsettled⟩
  · simp only
    omega
  · simp only
    omega
  · exact (Nat.sub_le _ _).trans hlimit
  · simp [(hwaited hw).2]

theorem Inbound.Inv.put (h : n.Inv) (hc : n.conns[i]? = some c) (hsound : c'.Sound) (hsettled : c'.Settled)
    (hterminal : c'.terminal = c.terminal) : (n.put i c').Inv := by
  have := h.replace 0 hc hsound hsettled (by rw [hterminal, Nat.add_zero])
  simpa [Inbound.put] using this

/-- `finishLocked` leaves the connection settled. -/
theorem Inbound.Inv.finishLocked (h : n.Inv) (hc : n.conns[i]? = some c) (hsound : c'.Sound)
    (hterminal : c'.terminal = c.terminal) : (n.finishLocked i c').Inv := by
  unfold Inbound.finishLocked
  split
  · rename_i hskip
    refine h.put hc hsound ?_ hterminal
    intro hclosed hrefs _
    simpa [hclosed, hrefs] using hskip
  · rename_i hfinish
    simp only [not_or, ne_eq, not_not, Bool.not_eq_true, Bool.not_eq_false'] at hfinish
    obtain ⟨hclosed, hrefs, hlive⟩ := hfinish
    obtain ⟨⟨hfinished, _⟩, hclosing, hcounted⟩ := hsound
    have hzero : c'.held = 0 ∧ c'.httpOwned.toNat = 0 := by omega
    refine h.replace 1 hc ⟨⟨?_, ?_⟩, hclosing, hcounted⟩ (fun _ _ _ => rfl) ?_
    · simp [hfinished, hlive]
    · exact fun _ => ⟨hclosed, hrefs, hzero.1, by simpa using hzero.2⟩
    · simp [← hterminal, hlive]

theorem Inbound.Inv.admitInbound (h : n.Inv) (event : InboundEvent) (reason : Str) (verified flows : Bool) :
    (n.admitInbound event reason verified flows).Inv := by
  unfold Inbound.admitInbound
  split_ifs with hrefused _ _ hfull
  iterate 5 exact h
  refine ⟨forall_mem_append.2 ⟨h.conns, ?_⟩, ?_, ?_, Nat.not_le.1 hfull, fun hw => ?_⟩
  · rw [forall_mem_singleton]
    exact ⟨⟨⟨rfl, by simp⟩, by simp, by simp⟩, by simp [AdmittedConn.Settled]⟩
  · simp [h.slots]
  · simp [h.relays]
  · simp [(h.waited hw).1] at hrefused

/-! ## Every step -/

/-- A section without `finishLocked` leaves its connection settled, and none makes it terminal. -/
theorem AdmittedConn.Sound.step {e : ConnStep} {finish : Bool} (h : c.Sound) (hs : c.Settled)
    (he : c.step e = some (c', finish)) :
    c'.Sound ∧ (finish = false → c'.Settled) ∧ c'.terminal = c.terminal := by
  obtain ⟨⟨hfinished, hreleased⟩, hclosing, hcounted⟩ := h
  cases e with
  | outcome reason connected =>
    cases he
    unfold AdmittedConn.outcome
    split_ifs with hterminal
    iterate 4 exact ⟨⟨⟨by simp_all, hreleased⟩, hclosing, hcounted⟩, fun _ => hs, rfl⟩
  | acquire =>
    cases he
    unfold AdmittedConn.acquire
    split_ifs with hclosed
    · exact ⟨⟨⟨hfinished, hreleased⟩, hclosing, hcounted⟩, fun _ => hs, rfl⟩
    · refine ⟨⟨⟨hfinished, fun ht => absurd (hreleased ht).1 hclosed⟩, hclosing, ?_⟩, fun _ hc => absurd hc hclosed, rfl⟩
      simp only
      omega
  | release =>
    simp only [AdmittedConn.step] at he
    split_ifs at he with hheld
    cases he
    refine ⟨⟨⟨hfinished, fun ht => absurd (hreleased ht).2.2.1 hheld⟩, hclosing, ?_⟩, nofun, rfl⟩
    simp only
    omega
  | close =>
    simp only [AdmittedConn.step] at he
    split_ifs at he with hclosed
    cases he
    exact ⟨⟨⟨hfinished, fun ht => absurd (hreleased ht).1 hclosed⟩, fun _ => rfl, hcounted⟩, fun _ => nofun, rfl⟩
  | closeEnd =>
    simp only [AdmittedConn.step] at he
    split_ifs at he
    cases he
    exact ⟨⟨⟨hfinished, hreleased⟩, nofun, hcounted⟩, nofun, rfl⟩
  | connContext =>
    cases he
    unfold AdmittedConn.connContext
    split_ifs with hlive
    · refine ⟨⟨⟨hfinished, by simp_all⟩, hclosing, ?_⟩, fun _ _ hrefs => ?_, rfl⟩ <;> simp_all <;> omega
    · exact ⟨⟨⟨hfinished, hreleased⟩, hclosing, hcounted⟩, fun _ => hs, rfl⟩
  | connState hijacked handshakeComplete =>
    simp only [AdmittedConn.step, AdmittedConn.connState] at he
    generalize "tls_handshake_failed".toList = failed, "guest_not_contacted".toList = text at he
    simp only [AdmittedConn.Settled] at hs ⊢
    refine ⟨⟨⟨?_, ?_⟩, ?_, ?_⟩, ?_, ?_⟩ <;> grind

theorem Inbound.Inv.step {e : InboundStep} (h : n.Inv) (hs : n.step e = some n') : n'.Inv := by
  cases e with
  | start | cancel => cases hs; exact { h with }
  | nodeClose => cases hs; exact ⟨h.conns, h.slots, h.relays, h.limit, fun hw => ⟨rfl, (h.waited hw).2⟩⟩
  | nodeWait =>
    simp only [Inbound.step] at hs
    split at hs <;> cases hs
    rename_i hidle
    exact ⟨h.conns, h.slots, h.relays, h.limit, fun _ => ⟨hidle.1, by simpa [h.relays] using hidle.2⟩⟩
  | admitInbound event reason verified flows =>
    cases hs
    exact h.admitInbound event reason verified flows
  | conn i e =>
    obtain ⟨c, hc, hs⟩ := Option.bind_eq_some_iff.1 hs
    obtain ⟨⟨c', finish⟩, he, hs⟩ := Option.bind_eq_some_iff.1 hs
    have hold := h.conns c (mem_of_getElem? hc)
    obtain ⟨hsound, hsettled, hterminal⟩ := hold.1.step hold.2 he
    cases finish with
    | true =>
      cases hs
      exact h.finishLocked hc hsound hterminal
    | false =>
      cases hs
      exact h.put hc hsound (hsettled rfl) hterminal

/-- Inbound connections are accounted exactly once. Of every admitted connection the effects of finishing it have
been done exactly once or not at all, the former only after it was closed and released, and always once it is
closed and released and no `Close` is under way; all of them are done when `Node.Close` returns. -/
theorem inbound_accounted_once (h : Reaches Inbound.step {} n) :
    (∀ c ∈ n.conns, c.Accounted ∧ c.Settled) ∧ (n.waited = true → ∀ c ∈ n.conns, c.terminal = true) ∧
      n.slots = n.conns.countP (fun c => !c.terminal) ∧ n.slots ≤ 256 ∧
      (n.closed = true → ∀ event reason verified flows, n.step (.admitInbound event reason verified flows) = some n) := by
  have hinv : n.Inv := by
    refine h.invariant (fun _ _ _ ht he => ht.step he) ⟨?_, rfl, rfl, Nat.zero_le _, ?_⟩
    · simp
    · simp
  refine ⟨fun c hc => ⟨(hinv.conns c hc).1.accounted, (hinv.conns c hc).2⟩, fun hw => ?_, hinv.slots, hinv.limit, ?_⟩
  · have hnone := hinv.slots.symm.trans (hinv.waited hw).2
    simpa [countP_eq_zero] using hnone
  · intro hclosed event reason verified flows
    simp [Inbound.step, Inbound.admitInbound, hclosed]

/-- A connection closed by the session while a relay and the HTTP server hold it: the last release finishes it,
and the `Close` that is still under way does not do so again. -/
def closedWhileHeld : List InboundStep :=
  [.start, .admitInbound ⟨[], []⟩ [] true true, .conn 0 .acquire, .conn 0 .connContext, .nodeClose, .conn 0 .close,
    .conn 0 .release, .conn 0 (.connState false true), .conn 0 .closeEnd, .nodeWait]

theorem closed_while_held_accounted : ∃ n, runSteps Inbound.step closedWhileHeld {} = some n ∧ n.waited = true ∧
    n.conns.map (·.finished) = [⟨[⟨[], []⟩], 1, 1, 1⟩] ∧ ∀ c ∈ n.conns, c.Accounted ∧ c.Settled := by
  refine ⟨_, rfl, rfl, rfl, ?_⟩
  exact (inbound_accounted_once (reaches_runSteps closedWhileHeld rfl)).1

end Silo.Netnode
