import Silo.Lib.Checks
import Silo.Vmm.Execution
/-!
# What a client sees of an execution

The items of one execution follow a grammar: `Started`, then output, then at most one
`Exited`, `Signaled` or `Lost`; or one `LaunchFailed` or `Lost` alone. A stream may be
cut off, or end in one error status. While the loop runs, what has been delivered is
what has been received, event by event (`Running`), so the grammar only has to be
checked where the loop ends.

A client that closes its input before the start is told `LaunchFailed` after the guest
has been cancelled, whatever the guest reported while it was.
-/

namespace Silo.Vmm.Execution

open List Lib
open Rust (Str)

/-! ## The grammar -/

inductive Channel where
  | Stdout | Stderr | TerminalOutput
  deriving DecidableEq, Repr

def Channel.guest (channel : Channel) (data : Bytes) : GuestProcessEvent :=
  match channel with
  | .Stdout => { event := some (.Stdout data) }
  | .Stderr => { event := some (.Stderr data) }
  | .TerminalOutput => { event := some (.TerminalOutput data) }

def Channel.event (channel : Channel) (data : Bytes) : ExecutionEventKind :=
  match channel with
  | .Stdout => .Stdout data
  | .Stderr => .Stderr data
  | .TerminalOutput => .TerminalOutput data

def GuestProcessEvent.output? (guest : GuestProcessEvent) : Option (Channel × Bytes) :=
  match guest.event with
  | some (.Stdout data) => some (.Stdout, data)
  | some (.Stderr data) => some (.Stderr, data)
  | some (.TerminalOutput data) => some (.TerminalOutput, data)
  | _ => none

def GuestProcessEvent.is_started (guest : GuestProcessEvent) : Bool := guest.event == some .Started

def Item.output? : Item → Option (Channel × Bytes)
  | .event (.Stdout data) => some (.Stdout, data)
  | .event (.Stderr data) => some (.Stderr, data)
  | .event (.TerminalOutput data) => some (.TerminalOutput, data)
  | _ => none

def Item.is_launch_failed : Item → Bool
  | .event (.LaunchFailed _ _) => true
  | _ => false

def well_formed_started : List Item → Bool
  | [] => true
  | item :: rest =>
    match item with
    | .event (.Stdout _) | .event (.Stderr _) | .event (.TerminalOutput _) => well_formed_started rest
    | .event (.Exited _) | .event (.Signaled _) | .event (.Lost _ _) | .error _ => rest.isEmpty
    | _ => false

def well_formed : List Item → Bool
  | [] => true
  | item :: rest =>
    match item with
    | .event .Started => well_formed_started rest
    | .event (.LaunchFailed _ _) | .event (.Lost _ _) | .error _ => rest.isEmpty
    | _ => false

structure Conforms (e : Exec) : Prop where
  grammar : well_formed e.delivered
  outputs : e.delivered.filterMap Item.output? <+: e.received.filterMap GuestProcessEvent.output?
  launch : ∀ item ∈ e.delivered, item.is_launch_failed → ∀ guest ∈ e.received, guest.is_started = false

/-! ## The running loop -/

def started_event : GuestProcessEvent := { event := some .Started }

def outputs_read (outs : List (Channel × Bytes)) : List GuestProcessEvent := outs.map fun o => o.1.guest o.2

def outputs_sent (outs : List (Channel × Bytes)) : List Item := outs.map fun o => .event (o.1.event o.2)

/-- The loop is running, and has relayed exactly what it has read. -/
inductive Running (e : Exec) : Prop
  | waiting (running : e.finished = false) (state : e.guest_state.started = false) (delivered : e.delivered = [])
      (received : e.received = [])
  | started (outs : List (Channel × Bytes)) (running : e.finished = false) (state : e.guest_state.started = true)
      (delivered : e.delivered = .event .Started :: outputs_sent outs)
      (received : e.received = started_event :: outputs_read outs)

variable {e : Exec}

theorem Running.finished (h : Running e) : e.finished = false := by
  cases h <;> assumption

@[simp] theorem output?_guest (o : Channel × Bytes) : (o.1.guest o.2).output? = some o := by
  obtain ⟨channel, data⟩ := o
  cases channel <;> rfl

@[simp] theorem output?_event (o : Channel × Bytes) : Item.output? (.event (o.1.event o.2)) = some o := by
  obtain ⟨channel, data⟩ := o
  cases channel <;> rfl

@[simp] theorem outputs_of_read (outs : List (Channel × Bytes)) :
    (outputs_read outs).filterMap GuestProcessEvent.output? = outs := by
  simp [outputs_read, filterMap_map]

@[simp] theorem outputs_of_sent (outs : List (Channel × Bytes)) :
    (outputs_sent outs).filterMap Item.output? = outs := by
  simp [outputs_sent, filterMap_map]

@[simp] theorem output?_started_event : started_event.output? = none := rfl

@[simp] theorem output?_started : Item.output? (.event .Started) = none := rfl

/-- Output may stand before anything that may follow a start. -/
theorem well_formed_started_append (outs : List (Channel × Bytes)) (rest : List Item) :
    well_formed_started (outputs_sent outs ++ rest) = well_formed_started rest := by
  induction outs with
  | nil => rfl
  | cons o outs ih =>
    obtain ⟨channel, data⟩ := o
    cases channel <;> exact ih

variable {item : Item}

theorem not_launch_failed_of_sent {outs : List (Channel × Bytes)} (h : item ∈ outputs_sent outs) :
    item.is_launch_failed = false := by
  obtain ⟨⟨channel, data⟩, -, rfl⟩ := mem_map.1 h
  cases channel <;> rfl

/-! ## How the loop ends -/

/-- An item that may come last, before or after the start. -/
def Item.ends (started : Bool) : Item → Bool
  | .event (.Lost _ _) | .error _ => true
  | .event (.Exited _) | .event (.Signaled _) => started
  | .event (.LaunchFailed _ _) => !started
  | _ => false

theorem ends_spec {started : Bool} (h : item.ends started = true) :
    (if started then well_formed_started [item] else well_formed [item]) = true ∧ item.output? = none ∧
      (item.is_launch_failed = true → started = false) := by
  cases item with
  | event kind => cases kind <;> cases started <;> first | exact ⟨rfl, rfl, fun _ => rfl⟩ | exact ⟨rfl, rfl, nofun⟩ | cases h
  | error status => cases started <;> exact ⟨rfl, rfl, nofun⟩

/-- What has been relayed conforms, with or without items that end the stream. -/
theorem Running.conforms (h : Running e) {e' : Exec} {tail : List Item} {events : List GuestProcessEvent}
    (hd : e'.delivered = e.delivered ++ tail) (hr : e'.received = e.received ++ events)
    (hform : (if e.guest_state.started then well_formed_started tail else well_formed tail) = true)
    (hout : tail.filterMap Item.output? = [])
    (hlaunch : ∀ item ∈ tail, item.is_launch_failed = true →
      e.guest_state.started = false ∧ ∀ guest ∈ events, guest.is_started = false) : Conforms e' := by
  cases h with
  | waiting _ state delivered received =>
    rw [delivered, nil_append] at hd
    rw [received, nil_append] at hr
    refine ⟨by simpa [hd, state] using hform, by simp [hd, hout], fun item hitem hlf => ?_⟩
    rw [hr]
    exact (hlaunch item (hd ▸ hitem) hlf).2
  | started outs _ state delivered received =>
    rw [delivered, cons_append] at hd
    rw [received] at hr
    refine ⟨?_, ?_, fun item hitem hlf => ?_⟩
    · rw [hd]
      exact (well_formed_started_append outs tail).trans (by simpa [state] using hform)
    · rw [hd, hr]
      simp [filterMap_cons, hout]
    · rw [hd] at hitem
      rcases mem_cons.1 hitem with rfl | hitem
      · cases hlf
      · rcases mem_append.1 hitem with hitem | hitem
        · simp [not_launch_failed_of_sent hitem] at hlf
        · cases state.symm.trans (hlaunch item hitem hlf).1

theorem Running.conforms_silent (h : Running e) (e' : Exec) {events : List GuestProcessEvent}
    (hd : e'.delivered = e.delivered) (hr : e'.received = e.received ++ events) : Conforms e' :=
  h.conforms (hd.trans (append_nil _).symm) hr (by split <;> rfl) rfl nofun

/-- The loop is running, or has returned and conforms. -/
def Sound (e : Exec) : Prop := Running e ∨ e.finished ∧ Conforms e

theorem Sound.conforms (h : Sound e) : Conforms e := by
  rcases h with h | ⟨-, h⟩
  · exact h.conforms_silent _ rfl (append_nil _).symm
  · exact h

theorem send_eq (e : Exec) (item : Item) : e.send item = { e with
    delivered := if e.takes = 0 then e.delivered else e.delivered ++ [item], takes := e.takes - 1 } := by
  obtain ⟨_, _, _, _, _, takes⟩ := e
  cases takes <;> rfl

section
variable (h : Running e)
include h

theorem Running.ended {e' : Exec} (item : Item) (events : List GuestProcessEvent)
    (hd : e'.delivered = if e.takes = 0 then e.delivered else e.delivered ++ [item])
    (hr : e'.received = e.received ++ events) (hf : e'.finished = true)
    (hends : item.ends e.guest_state.started = true)
    (hlaunch : e.takes ≠ 0 → item.is_launch_failed = true → ∀ guest ∈ events, guest.is_started = false) : Sound e' := by
  refine .inr ⟨hf, ?_⟩
  split at hd
  · exact h.conforms_silent _ hd hr
  · next htakes =>
    obtain ⟨hform, hout, hstarted⟩ := ends_spec hends
    refine h.conforms hd hr hform (by simp [hout]) fun item' hitem hlf => ?_
    rw [mem_singleton.1 hitem] at hlf
    exact ⟨hstarted hlf, hlaunch htakes hlf⟩

theorem Running.lost (reason : LostReason) (message : Str) :
    Sound (e.send_lost reason message).finish :=
  h.ended (.event (.Lost (some reason.as_i32) (some message))) [] (by rw [Exec.send_lost, send_eq]; rfl)
    (by simp [Exec.finish, Exec.send_lost, send_eq]) rfl rfl nofun

theorem Running.abort (hends : ∀ started, item.ends started = true)
    (arrivals : Arrivals) : Sound (e.abort item arrivals) := by
  refine h.ended item (cancel_guest arrivals) ?_ ?_ rfl (hends _) fun _ hlf => nomatch (ends_spec (hends true)).2.2 hlf
  · rw [Exec.abort, send_eq]
    rfl
  · rw [Exec.abort, send_eq]
    rfl

theorem Running.cancelled (arrivals : Arrivals) :
    Sound (e.read (cancel_guest arrivals)).finish :=
  .inr ⟨rfl, h.conforms_silent _ rfl rfl⟩

end

/-! ## Guest events -/

/-- What an accepted guest event can be. -/
inductive Translated (guest : GuestProcessEvent) (state : GuestEventState) :
    ExecutionEventKind → Bool → GuestEventState → Prop
  | started (unstarted : state.started = false) (event : guest = started_event) :
      Translated guest state .Started false { started := true }
  | output (started : state.started = true) (channel : Channel) (data : Bytes) (event : guest = channel.guest data) :
      Translated guest state (channel.event data) false state
  | terminal (kind : ExecutionEventKind) (ends : Item.ends state.started (.event kind) = true)
      (event : guest.is_started = false) : Translated guest state kind true state

theorem translate_event_spec {guest : GuestProcessEvent} {state state' : GuestEventState}
    {kind : ExecutionEventKind} {terminal : Bool}
    (h : translate_event guest state = .ok ((kind, terminal), state')) : Translated guest state kind terminal state' := by
  obtain ⟨event⟩ := guest
  obtain ⟨started⟩ := state
  unfold translate_event at h
  cases event with
  | none => cases h
  | some event =>
    cases event with
    | Started =>
      cases started <;> cases h
      exact .started rfl rfl
    | Stdout data =>
      cases started
      · cases h
      · simp only [Bool.true_and] at h
        split at h <;> cases h
        exact .output rfl .Stdout data rfl
    | Stderr data =>
      cases started
      · cases h
      · simp only [Bool.true_and] at h
        split at h <;> cases h
        exact .output rfl .Stderr data rfl
    | TerminalOutput data =>
      cases started
      · cases h
      · simp only [Bool.true_and] at h
        split at h <;> cases h
        exact .output rfl .TerminalOutput data rfl
    | Exited code =>
      cases started <;> cases h
      exact .terminal _ rfl rfl
    | Signaled signal =>
      cases started
      · cases h
      · simp only [Bool.true_and] at h
        split at h <;> cases h
        exact .terminal _ rfl rfl
    | LaunchFailed reason message =>
      cases started <;> cases h
      exact .terminal _ rfl rfl

/-- An event relayed to a client that takes it, or lost on one that does not. -/
theorem Running.relayed (h : Running e) {guest : GuestProcessEvent} {state : GuestEventState}
    {kind : ExecutionEventKind} {terminal : Bool} (ht : Translated guest e.guest_state kind terminal state) :
    let sent := { e.read [guest] with guest_state := state }.send (.event kind)
    Sound (if e.takes = 0 || terminal then sent.finish else sent) := by
  intro sent
  obtain ⟨hd, hr, hs, hf⟩ : (sent.delivered = if e.takes = 0 then e.delivered else e.delivered ++ [.event kind]) ∧
      sent.received = e.received ++ [guest] ∧ sent.guest_state = state ∧ sent.finished = e.finished := by
    rw [show sent = _ from send_eq ..]
    exact ⟨rfl, rfl, rfl, rfl⟩
  by_cases hzero : e.takes = 0
  · simp only [hzero, decide_true, Bool.true_or, if_true]
    rw [if_pos hzero] at hd
    exact .inr ⟨rfl, h.conforms_silent sent.finish hd hr⟩
  simp only [hzero, decide_false, Bool.false_or]
  cases ht with
  | started unstarted event =>
    rw [if_neg Bool.false_ne_true]
    cases h with
    | waiting running _ delivered received =>
      refine .inl (.started [] (hf.trans running) (by rw [hs]) ?_ ?_)
      · rw [hd, if_neg hzero, delivered]; rfl
      · rw [hr, received, event]; rfl
    | started _ _ isStarted => simp [isStarted] at unstarted
  | output started channel data event =>
    rw [if_neg Bool.false_ne_true]
    cases h with
    | waiting _ unstarted => simp [started] at unstarted
    | started outs running _ delivered received =>
      refine .inl (.started (outs ++ [(channel, data)]) (hf.trans running) (by rw [hs, started]) ?_ ?_)
      · rw [hd, if_neg hzero, delivered]; simp [outputs_sent]
      · rw [hr, received, event]; simp [outputs_read]
  | terminal kind ends event =>
    rw [if_pos rfl]
    refine h.ended (.event kind) [guest] hd hr rfl ends fun _ _ guest' hguest => ?_
    rw [mem_singleton.1 hguest, event]

theorem Running.on_guest (h : Running e) (expected : ReadyAgentIdentity) (guest : GuestProcessEvent)
    (current later : Option ReadyAgentIdentity) : Sound (on_guest expected e guest current later) := by
  unfold Execution.on_guest
  dsimp only
  split
  · rename_i kind terminal state heq
    obtain ⟨-, -, heq⟩ := bind_eq_ok.1 heq
    exact h.relayed (translate_event_spec heq)
  · -- The guest's event is dropped, and only the loss is reported.
    have hlost : ∀ reason message, Sound ((e.read [guest]).send_lost reason message).finish := fun reason message =>
      h.ended (.event (.Lost (some reason.as_i32) (some message))) [guest] (by rw [Exec.send_lost, send_eq]; rfl)
        (by rw [Exec.send_lost, send_eq]; rfl) rfl rfl nofun
    split
    · exact hlost _ _
    · exact hlost _ _

/-! ## Client messages -/

/-- The guest reports its start where `cancel_guest` reads and drops it. -/
def Arrivals.starts (arrivals : Arrivals) : Bool :=
  arrivals.before.any GuestProcessEvent.is_started ||
    !arrivals.before.any GuestProcessEvent.is_terminal && arrivals.after.any GuestProcessEvent.is_started

theorem starts_iff (arrivals : Arrivals) :
    arrivals.starts = true ↔ ∃ guest ∈ cancel_guest arrivals, guest.is_started = true := by
  rw [cancel_guest_eq, Arrivals.starts]
  split
  · rename_i h
    simp [h]
  · rename_i h
    rw [Bool.not_eq_true] at h
    simp only [h, Bool.not_false, Bool.true_and, Bool.or_eq_true, any_eq_true, mem_append, or_and_right, exists_or]

/-- The client closes its input before a start was relayed to it, still takes an item,
and the guest reports its start while it is being cancelled. -/
def UnseenStart (e : Exec) : Step → Prop
  | .Control (.ok none) _ _ arrivals =>
    e.finished = false ∧ e.input_open ∧ e.guest_state.started = false ∧ e.takes ≠ 0 ∧ arrivals.starts
  | _ => False

theorem Running.on_control (h : Running e) (expected : ReadyAgentIdentity)
    (control : Except Str (Option ExecuteInput)) (current : Option ReadyAgentIdentity) (forwarded : Forwarded)
    (arrivals : Arrivals) (hseen : ¬ UnseenStart e (.Control control current forwarded arrivals))
    (isOpen : e.input_open = true) : Sound (on_control expected e control current forwarded arrivals) := by
  unfold Execution.on_control
  split
  · split
    · exact h.abort (fun _ => rfl) arrivals
    · split
      · split
        · exact .inl h
        · exact h.abort (fun _ => rfl) arrivals
      · exact h.abort (fun _ => rfl) arrivals
  · split
    · rename_i hstate
      rw [Bool.not_eq_true'] at hstate
      rw [send_eq]
      refine h.ended (.event cancelled_before_start_event) (cancel_guest arrivals) rfl rfl rfl (by rw [hstate]; rfl) ?_
      intro hzero _ guest hguest
      by_contra hs
      rw [Bool.not_eq_false] at hs
      exact hseen ⟨h.finished, isOpen, hstate, hzero, (starts_iff arrivals).2 ⟨guest, hguest, hs⟩⟩
    · cases h with
      | waiting running state delivered received => exact .inl (.waiting running state delivered received)
      | started outs running state delivered received => exact .inl (.started outs running state delivered received)
  · exact h.cancelled arrivals

/-! ## Whole executions -/

variable {s : Step}

theorem step_sound (h : Sound e) (expected : ReadyAgentIdentity) (hseen : ¬ UnseenStart e s) :
    Sound (step expected e s) := by
  rcases h with h | ⟨hf, hc⟩
  · have running := h.finished
    unfold step
    rw [if_neg (by simp [running])]
    split
    · exact h.cancelled _
    · exact h.abort (fun _ => rfl) _
    · exact h.abort (fun _ => rfl) _
    · split
      · exact h.abort (fun _ => rfl) _
      · exact .inl h
    · exact h.on_guest expected _ _ _
    · exact h.lost _ _
    · exact h.lost _ _
    · split
      · rename_i isOpen
        exact h.on_control expected _ _ _ _ hseen isOpen
      · exact .inl h
  · unfold step
    rw [if_pos hf]
    exact .inr ⟨hf, hc⟩

/-- The client is told that the launch failed though the guest reported a start. -/
theorem step_unsound (expected : ReadyAgentIdentity) (hs : UnseenStart e s) :
    (step expected e s).finished = true ∧ ¬ Conforms (step expected e s) := by
  unfold UnseenStart at hs
  split at hs
  · rename_i current forwarded arrivals
    obtain ⟨running, isOpen, hstate, hzero, hstarts⟩ := hs
    obtain ⟨guest, hguest, hstarted⟩ := (starts_iff arrivals).1 hstarts
    have hstep : step expected e (.Control (.ok none) current forwarded arrivals) =
        ((e.read (cancel_guest arrivals)).send (.event cancelled_before_start_event)).finish := by
      simp [step, on_control, running, isOpen, hstate]
    rw [hstep, send_eq, if_neg (show (e.read _).takes ≠ 0 from hzero)]
    refine ⟨rfl, fun hconf => ?_⟩
    have hd := mem_append_right e.delivered (mem_singleton_self (Item.event cancelled_before_start_event))
    rw [hconf.launch _ hd rfl guest (mem_append_right _ hguest)] at hstarted
    contradiction
  · contradiction

theorem prepare_sound (expected : ReadyAgentIdentity) (setup : Setup) (takes : Nat) :
    Sound (prepare expected setup takes) := by
  have h : Running ⟨[], [], ⟨false⟩, true, false, takes⟩ := .waiting rfl rfl rfl rfl
  have hsilent : Sound (Exec.finish ⟨[], [], ⟨false⟩, true, false, takes⟩) :=
    .inr ⟨rfl, h.conforms_silent _ rfl rfl⟩
  unfold prepare
  dsimp only
  split
  · exact h.lost _ _
  · split
    · exact h.lost _ _
    · split
      · exact h.lost _ _
      · split
        · exact hsilent
        · exact h.lost _ _
        · exact h.lost _ _
        · split
          · exact h.lost _ _
          · split
            · exact hsilent
            · exact h.lost _ _
            · exact h.lost _ _
            · exact .inl h

/-- No start goes unseen in a history, whose newest step comes first. -/
def StartsSeen (expected : ReadyAgentIdentity) (setup : Setup) (takes : Nat) (history : List Step) : Prop :=
  ∀ s earlier, s :: earlier <:+ history → ¬ UnseenStart (after expected setup takes earlier) s

variable {expected : ReadyAgentIdentity} {setup : Setup} {takes : Nat}

theorem startsSeen_cons {earlier : List Step} :
    StartsSeen expected setup takes (s :: earlier) ↔
      ¬ UnseenStart (after expected setup takes earlier) s ∧ StartsSeen expected setup takes earlier := by
  constructor
  · intro h
    exact ⟨h s earlier suffix_rfl, fun s' earlier' hs => h s' earlier' (hs.trans (suffix_cons ..))⟩
  · rintro ⟨hs, h⟩ s' earlier' hsuffix
    rcases suffix_cons_iff.1 hsuffix with heq | hsuffix
    · obtain ⟨rfl, rfl⟩ := List.cons.inj heq
      exact hs
    · exact h s' earlier' hsuffix

theorem after_sound {history : List Step}
    (h : StartsSeen expected setup takes history) : Sound (after expected setup takes history) := by
  induction history with
  | nil => exact prepare_sound expected setup takes
  | cons s earlier ih =>
    obtain ⟨hs, h⟩ := startsSeen_cons.1 h
    exact step_sound (ih h) expected hs

/-- Nothing repairs the stream after an unseen start, because the loop has returned. -/
theorem after_unsound {history : List Step} (h : ¬ StartsSeen expected setup takes history) :
    (after expected setup takes history).finished = true ∧ ¬ Conforms (after expected setup takes history) := by
  induction history with
  | nil =>
    refine absurd ?_ h
    intro s earlier hs
    exact absurd (suffix_nil.1 hs) (cons_ne_nil s earlier)
  | cons s earlier ih =>
    rw [startsSeen_cons, not_and_or, not_not] at h
    rcases h with h | h
    · exact step_unsound expected h
    · obtain ⟨hf, hc⟩ := ih h
      have hstep : after expected setup takes (s :: earlier) = after expected setup takes earlier := if_pos hf
      rw [hstep]
      exact ⟨hf, hc⟩

/-- A client's stream is well formed exactly when no start of the guest falls into the
cancellation that follows the client closing its input before the start. -/
theorem execution_stream_conforms_iff (expected : ReadyAgentIdentity) (setup : Setup) (takes : Nat)
    (history : List Step) :
    Conforms (after expected setup takes history) ↔ StartsSeen expected setup takes history := by
  constructor
  · intro hc
    by_contra h
    exact (after_unsound h).2 hc
  · exact fun h => (after_sound h).conforms

/-- The client closes its input, and the guest starts before the signal reaches it. -/
theorem late_start_reported_as_launch_failure :
    ¬ Conforms (after ⟨1, 2⟩ ⟨some ⟨1, 2⟩, true, .Done, true, true, true, .Done, none⟩ 8
      [.Control (.ok none) (some ⟨1, 2⟩) .sent ⟨[⟨some .Started⟩, ⟨some (.Signaled (some 15))⟩], []⟩]) := by
  intro h
  have hstarted : GuestProcessEvent.is_started ⟨some .Started⟩ = false :=
    h.launch (.event cancelled_before_start_event) (mem_singleton_self _) rfl _ mem_cons_self
  cases hstarted

end Silo.Vmm.Execution
