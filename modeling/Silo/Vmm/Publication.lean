import Mathlib.Data.List.Nodup
import Silo.Vmm.Verification
/-!
# The published agent identity

A mutation updates the state under the lock and publishes the ready identity after
releasing it, so the two halves of concurrent mutations interleave. Each publishing
commit draws a ticket, in commit order; a publication may then happen at any time.

The channel shows the identity of the last commit once nothing is pending if no
publication overtakes a later one, and if the calls that commit without publishing
(accepted metrics, a status refused for its version) find the readiness unchanged
since the last commit.
-/

namespace Silo.Vmm

open List Lib
open Rust (Str)

/-! ## Commits and publications -/

/-- The store as its concurrent callers share it. -/
structure Shared where
  state : State
  /-- When the last commit was made. -/
  committed_at : Nat
  /-- How many commits have drawn a ticket. -/
  tickets : Nat
  /-- Identities still to be published, with their tickets. -/
  pending : List (Nat × Option ReadyAgentIdentity)
  /-- The ticket shown on the channel; zero is the initial value. -/
  shown : Nat
  published : Option ReadyAgentIdentity

inductive Action where
  | call (clock : Clock) (call : Call)
  | publish (ticket : Nat)

/-- A call under the lock. A call that writes nothing is no commit. -/
def commit (crates : Crates) (s : Shared) (clock : Clock) (call : Call) : Shared :=
  let outcome := call.apply crates clock s.state
  match outcome.published with
  | some identity =>
    { s with
      state := outcome.state
      committed_at := clock.instant
      tickets := s.tickets + 1
      pending := (s.tickets + 1, identity) :: s.pending }
  | none => if outcome.state = s.state then s else { s with state := outcome.state, committed_at := clock.instant }

/-- `send_replace` of one pending identity. -/
def publish (s : Shared) (ticket : Nat) : Shared :=
  match s.pending.find? (fun p => p.1 = ticket) with
  | none => s
  | some p => { s with pending := s.pending.filter (fun p => p.1 ≠ ticket), shown := ticket, published := p.2 }

def Shared.step (crates : Crates) (s : Shared) : Action → Shared
  | .call clock call => commit crates s clock call
  | .publish ticket => publish s ticket

def Shared.run (crates : Crates) (s : Shared) (actions : List Action) : Shared := actions.foldl (Shared.step crates) s

def Shared.new (agent_enabled : Bool) (start : Clock) : Shared :=
  ⟨InstanceStore.new agent_enabled start, start.instant, 0, [], 0, none⟩

/-- What the channel should show: the identity computed from the last committed state. -/
def Shared.identity (crates : Crates) (s : Shared) : Option ReadyAgentIdentity :=
  ready_agent_identity crates s.state s.committed_at

variable {crates : Crates}

/-! ## Interleavings -/

/-- A step that keeps the channel in line: a publication is not older than what is shown, a call is made below
the limit of the epoch, and a call that does not publish finds the readiness as it was at the last commit. -/
def InLine (crates : Crates) (s : Shared) : Action → Prop
  | .publish ticket => s.shown < ticket
  | .call clock call =>
    s.state.ssh_epoch < u64_max ∧
      (Unpublished s.state call → ready_agent_identity crates s.state clock.instant = s.identity crates)

inductive Reaches (crates : Crates) (s₀ : Shared) : Shared → Prop where
  | start : Reaches crates s₀ s₀
  | step {s : Shared} {action : Action} : Reaches crates s₀ s → InLine crates s action → Reaches crates s₀ (s.step crates action)

theorem Reaches.call {s₀ s : Shared} (h : Reaches crates s₀ s) (clock : Clock) (call : Call)
    (hline : InLine crates s (.call clock call)) : Reaches crates s₀ (commit crates s clock call) := h.step hline

theorem Reaches.publish {s₀ s : Shared} (h : Reaches crates s₀ s) (ticket : Nat)
    (hline : s.shown < ticket) : Reaches crates s₀ (Vmm.publish s ticket) :=
  h.step (show InLine crates s (.publish ticket) from hline)

/-- The identity of the last commit is shown, or the ticket drawn last is still to be published with it. -/
structure Tracked (crates : Crates) (s : Shared) : Prop where
  paired : Paired s.state
  distinct : (s.pending.map Prod.fst).Nodup
  drawn : ∀ p ∈ s.pending, p.1 ≤ s.tickets
  shown_le : s.shown ≤ s.tickets
  latest : (s.shown = s.tickets ∧ s.published = s.identity crates) ∨ (s.tickets, s.identity crates) ∈ s.pending

theorem tracked_commit {s : Shared} (h : Tracked crates s) {clock : Clock} {call : Call}
    (hline : InLine crates s (.call clock call)) : Tracked crates (commit crates s clock call) := by
  obtain ⟨hmax, hready⟩ := hline
  obtain ⟨hp, -, hchannel⟩ := (apply_step crates clock call h.paired).resolve_left fun hlast => Nat.not_le.2 hmax hlast.1
  rw [commit]
  cases hchannel with
  | publishes hpub =>
    simp only [hpub]
    refine ⟨hp, ?_, ?_, Nat.le_succ_of_le h.shown_le, .inr mem_cons_self⟩
    · refine nodup_cons.2 ⟨?_, h.distinct⟩
      rintro hmem
      obtain ⟨p, hp, hpt⟩ := mem_map.1 hmem
      have := h.drawn p hp
      omega
    · exact forall_mem_cons.2 ⟨Nat.le_refl _, fun p hp => Nat.le_succ_of_le (h.drawn p hp)⟩
  | nothing hpub hsame =>
    simp only [hpub, hsame, if_true]
    exact h
  | unpublished hpub hun hid =>
    simp only [hpub]
    split
    · exact h
    · have hidentity : ({ s with state := (call.apply crates clock s.state).state, committed_at := clock.instant } :
          Shared).identity crates = s.identity crates := hid.trans (hready hun)
      refine ⟨hp, h.distinct, h.drawn, h.shown_le, ?_⟩
      rw [hidentity]
      exact h.latest

theorem tracked_publish {s : Shared} (h : Tracked crates s) {ticket : Nat} (hline : s.shown < ticket) :
    Tracked crates (publish s ticket) := by
  rw [publish]
  split
  · exact h
  · next p hfind =>
    have hmem := mem_of_find?_eq_some hfind
    have hticket : p.1 = ticket := by simpa using find?_some hfind
    refine ⟨h.paired, h.distinct.sublist (filter_sublist.map _), ?_, hticket ▸ h.drawn p hmem, ?_⟩
    · exact fun q hq => h.drawn q (mem_of_mem_filter hq)
    · rcases h.latest with ⟨hshown, -⟩ | hlatest
      · -- The last ticket is shown already, so a later one cannot be pending.
        have := h.drawn p hmem
        omega
      · by_cases heq : ticket = s.tickets
        · have hp : p = (s.tickets, s.identity crates) :=
            inj_on_of_nodup_map h.distinct hmem hlatest (hticket.trans heq)
          exact .inl ⟨heq, by rw [hp]; rfl⟩
        · exact .inr (mem_filter.2 ⟨hlatest, by simpa using fun h => heq h.symm⟩)

theorem reaches_tracked {agent_enabled : Bool} {start : Clock} {s : Shared}
    (h : Reaches crates (Shared.new agent_enabled start) s) : Tracked crates s := by
  induction h with
  | start => exact ⟨⟨rfl, by rintro v ⟨⟩⟩, nodup_nil, by rintro p ⟨⟩, Nat.le_refl _, .inl ⟨rfl, rfl⟩⟩
  | @step s action _ hline ih =>
    cases action with
    | call clock call => exact tracked_commit ih hline
    | publish ticket => exact tracked_publish ih hline

/-- In every interleaving whose steps are in line, once nothing is pending the channel shows the identity
computed from the last committed state. -/
theorem channel_follows_state (crates : Crates) (agent_enabled : Bool) (start : Clock) (s : Shared)
    (h : Reaches crates (Shared.new agent_enabled start) s) (hquiet : s.pending = []) :
    s.published = s.identity crates := by
  rcases (reaches_tracked h).latest with ⟨-, hpub⟩ | hmem
  · exact hpub
  · rw [hquiet] at hmem
    cases hmem

/-- A status without an SSH listener is enough to be ready. -/
def plainStatus : AgentStatus := ⟨some theAgent, some ⟨some ⟨1, 0⟩, some 2, none, none, none, none⟩⟩

def readyRun : List Action :=
  [.call origin (.set_vm_state .Running []), .publish 1, .call origin (.observe_status plainStatus 1), .publish 2]

theorem ready_run_shown :
    (Shared.run twoKeys (Shared.new true origin) readyRun).published = some theIdentity :=
  channel_follows_state twoKeys true origin _
    ((((Reaches.start.call origin (.set_vm_state .Running []) ⟨by decide, fun h => h.elim⟩).publish 1 (by decide)).call
      origin (.observe_status plainStatus 1) ⟨by decide, fun ⟨_, _, h, _⟩ => by cases h⟩).publish 2 (by decide))
    (by decide)

/-- A ready status and a stop commit in this order and publish in the other: the channel keeps the identity of
an agent whose machine is stopping. -/
def overtaken : List Action :=
  [.call origin (.set_vm_state .Running []), .publish 1, .call origin (.observe_status plainStatus 1),
    .call origin (.set_vm_state .Stopping []), .publish 3, .publish 2]

theorem overtaken_publication_stays :
    (Shared.run twoKeys (Shared.new true origin) overtaken).pending = [] ∧
      (Shared.run twoKeys (Shared.new true origin) overtaken).published = some theIdentity ∧
      (Shared.run twoKeys (Shared.new true origin) overtaken).identity twoKeys = none := by
  decide

end Silo.Vmm
