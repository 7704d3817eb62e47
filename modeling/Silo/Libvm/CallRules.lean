import Silo.Libvm.Onward
/-!
# Rules for the lifecycle calls

The host moves at every point of a call, but it changes neither the store nor what the
call has done. A statement about those two is kept wherever the call only reads, and each
thing a call does to them has one rule, with the statement as a parameter.
-/

namespace Silo.Libvm

open List Lib Lib.Run
open Rust (Str)

/-- The part of the state that only libvm changes. -/
structure Record where
  machine_id : MachineId
  name : Str
  retention : MachineRetention
  present : Bool
  state : Option MachineState
  latest : Option Str
  monitor : Option Identity
  log : List Entry

def World.record (w : World) : Record :=
  ⟨w.machine_id, w.name, w.retention, w.present, w.state, w.latest, w.monitor, w.log⟩

def Steady (P : World → Prop) : Prop := ∀ w w', w'.record = w.record → P w → P w'

abbrev Reads {α : Type} (m : Op α) : Prop := Keeps World.record m

/-- The record is as it was, and the host has moved on. -/
structure Looked (w w' : World) : Prop where
  record : w'.record = w.record
  onward : Onward w w'

instance : IsPreorder World Looked where
  refl w := ⟨rfl, .refl w⟩
  trans _ _ _ h h' := ⟨h'.record.trans h.record, h.onward.trans h'.onward⟩

abbrev Looks {α : Type} (m : Op α) : Prop := Along Looked m

variable {α β : Type} {m : Op α} {P : World → Prop}

theorem log_eq {w w' : World} (h : w'.record = w.record) : w'.log = w.log := congrArg Record.log h

theorem Looks.spec (hm : Looks m) (hP : Steady P) : Preserves P m := Along.spec hm fun w w' h => hP w w' h.record

theorem Looks.moves (hm : Looks m) : Moves m := fun w => (hm w).onward

theorem Looks.reads (hm : Looks m) : Reads m := fun w => (hm w).record

theorem Steady.and {P' : World → Prop} (h : Steady P) (h' : Steady P') : Steady fun w => P w ∧ P' w :=
  fun w w' heq hw => ⟨h w w' heq hw.1, h' w w' heq hw.2⟩

/-! ## The stored state -/

@[simp] theorem stored_status (w : World) : w.stored.status = (w.state.map (·.status)).getD .Stopped := by
  cases h : w.state <;> simp [World.stored, stopped_machine_state, h]

@[simp] theorem stored_run_id (w : World) : w.stored.run_id = w.state.bind (·.run_id) := by
  cases h : w.state <;> simp [World.stored, stopped_machine_state, h]

@[simp] theorem stored_vmm_pid (w : World) : w.stored.vmm_pid = w.state.bind (·.vmm_pid) := by
  cases h : w.state <;> simp [World.stored, stopped_machine_state, h]

@[simp] theorem stored_started_at (w : World) : w.stored.started_at = w.state.bind (·.started_at) := by
  cases h : w.state <;> simp [World.stored, stopped_machine_state, h]

/-- Two states of the same run, whatever error and time they carry. -/
structure SameRun (s s' : MachineState) : Prop where
  status : s.status = s'.status
  vmm_pid : s.vmm_pid = s'.vmm_pid
  started_at : s.started_at = s'.started_at
  run_id : s.run_id = s'.run_id

theorem SameRun.refl (s : MachineState) : SameRun s s := ⟨rfl, rfl, rfl, rfl⟩

theorem SameRun.trans {s₁ s₂ s₃ : MachineState} (h : SameRun s₁ s₂) (h' : SameRun s₂ s₃) : SameRun s₁ s₃ :=
  ⟨h.status.trans h'.status, h.vmm_pid.trans h'.vmm_pid, h.started_at.trans h'.started_at, h.run_id.trans h'.run_id⟩

theorem stored_same {w w' : World} (h : w'.record = w.record) : SameRun w.stored w'.stored := by
  have hstate : w'.state = w.state := congrArg Record.state h
  constructor <;> simp [hstate]

theorem steady_same (s : MachineState) : Steady fun w => SameRun s w.stored :=
  fun _ _ heq h => h.trans (stored_same heq)

namespace Op

/-! ## Control -/

variable {Q : α → World → Prop} {E : LibVmError → World → Prop}

theorem attempt_spec (h : Spec P m Q E) :
    Spec P (attempt m) (fun r w => match r with
      | .ok a => Q a w
      | .error e => E e w) (fun e w => e = .Killed ∧ E e w) := by
  intro w hw
  have hm := h w hw
  unfold attempt
  generalize m w = r at hm
  obtain ⟨e | a, w'⟩ := r
  · cases e with
    | Killed => exact ⟨rfl, hm⟩
    | _ => exact hm
  · exact hm

theorem releasing_spec {f : World → World} (h : Spec P m Q E) (hQ : ∀ a w, Q a w → Q a (f w))
    (hE : ∀ e w, E e w → E e (f w)) : Spec P (releasing m f) Q E := by
  intro w hw
  have hm := h w hw
  unfold releasing
  generalize m w = r at hm
  obtain ⟨e | a, w'⟩ := r
  · exact hE e w' hm
  · exact hQ a w' hm

theorem collect_spec {label : Str} {default : α} (h : Spec P m Q E) :
    Spec P (collect label default m)
      (fun r w => (r.2 = [] ∧ Q r.1 w) ∨ (r.1 = default ∧ r.2 ≠ [] ∧ ∃ e, E e w)) (fun e w => e = .Killed ∧ E e w) := by
  refine .bind .got fun w₁ => .bind (attempt_spec h) fun r => ?_
  cases r with
  | ok a => exact .pure fun w hw => .inl ⟨rfl, hw⟩
  | error e => exact .pure fun w hw => .inr ⟨rfl, cons_ne_nil _ _, e, hw⟩

theorem collect_preserves {label : Str} {default : α} (h : Preserves P m) : Preserves P (collect label default m) := by
  refine .weaken (collect_spec h) (fun _ h => h) (fun r w h => ?_) fun _ _ h => h.2
  rcases h with ⟨-, h⟩ | ⟨-, -, _, h⟩
  · exact h
  · exact h

theorem or_fail_spec {run_id : Str} {failure : StartFailure} {monitor : Option Identity}
    {F : LibVmError → World → Prop} (h : Spec P m Q F) (hkilled : ∀ w, F .Killed w → E .Killed w)
    (hfail : ∀ e, Spec (F e) (finish_failed_start run_id failure monitor e) (fun (_ : α) _ => False) E) :
    Spec P (or_fail run_id failure monitor m) Q E := by
  refine .bind (.err (attempt_spec h) ?_) fun r => ?_
  · rintro _ w ⟨rfl, h⟩
    exact hkilled w h
  cases r with
  | ok a => exact .pure fun _ h => h
  | error e => exact .post (hfail e) fun _ _ h => h.elim

/-! ## Reading -/

theorem io_looks : Looks io := by
  refine fun w => ⟨?_, io_moves w⟩
  unfold io
  cases w.script with
  | nil => rfl
  | cons m rest =>
    obtain ⟨events, now, outcome⟩ := m
    cases outcome <;> rfl

theorem look_looks {f : World → Op α} (h : ∀ w, Looks (f w)) : Looks (io >>= fun _ => get >>= f) :=
  .bind io_looks fun _ => .bind .get h

theorem host_looks {f : World → HostState} (hprocesses : ∀ w, (f w).processes = w.host.processes := by exact fun _ => rfl)
    (hseen : ∀ w, (f w).seen = w.host.seen := by exact fun _ => rfl)
    (hnetwork : ∀ w, w.host.network = .none → (f w).network = .none := by exact fun _ h => h) :
    Looks (modify fun w => { w with host := f w }) :=
  fun w => ⟨rfl, .of_same ⟨[], rfl, nofun⟩ (hprocesses w) (hseen w) (hnetwork w)⟩

theorem open_lock_file_looks : Looks (modify fun w => { w with host := w.host.open_lock_file.2 }) := by
  refine host_looks (fun w => ?_) (fun w => ?_) fun w h => ?_
  · unfold HostState.open_lock_file
    cases w.host.lock_file <;> rfl
  · unfold HostState.open_lock_file
    cases w.host.lock_file <;> rfl
  · unfold HostState.open_lock_file
    cases w.host.lock_file <;> exact h

theorem reduced_looks (r : Except TransitionError MachineState) : Looks (reduced r) := by
  unfold reduced
  split
  · exact .pure _
  · exact .fail _

theorem machine_state_looks : Looks machine_state :=
  look_looks fun _ => .pure _

theorem lock_machine_config_looks : Looks lock_machine_config :=
  look_looks fun _ => .check

theorem read_monitor_pid_looks : Looks read_monitor_pid := by
  refine look_looks fun w => ?_
  split
  · exact .fail _
  · exact .fail _
  · exact .pure _

theorem pid_from_file_looks : Looks pid_from_file := by
  refine .bind (attempt_along read_monitor_pid_looks) fun r => ?_
  split
  · exact .pure _
  · exact .pure _
  · exact .fail _

theorem read_exit_status_looks : Looks read_exit_status := by
  refine look_looks fun w => ?_
  split
  · exact .pure _
  · exact .fail _
  · exact .pure _

theorem require_current_run_looks (status : MachineState) (expected : Option Str) :
    Looks (require_current_run status expected) := by
  unfold require_current_run
  split
  · exact .pure _
  · exact .check

theorem monitor_identity_looks (generation : VmmRunIdentity) : Looks (monitor_identity generation) :=
  look_looks fun _ => .pure _

theorem vmm_run_is_alive_looks (generation : VmmRunIdentity) : Looks (vmm_run_is_alive generation) :=
  .bind (monitor_identity_looks generation) fun _ => .pure _

theorem wait_for_monitor_stop_looks (identity : Identity) : Looks (wait_for_monitor_stop identity) :=
  look_looks fun _ => .check

theorem reconcile_machine_network_looks (running : Bool) : Looks (reconcile_machine_network running) :=
  .bind io_looks fun _ => host_looks (fun _ => rfl) (fun _ => rfl) fun w h => by simp [h]

theorem remove_machine_trees_looks : Looks remove_machine_trees :=
  .bind io_looks fun _ => .bind host_looks fun _ => .bind io_looks fun _ _ =>
    ⟨rfl, .of_same ⟨[], rfl, nofun⟩⟩

theorem acquire_node_state_lock_looks : Looks acquire_node_state_lock :=
  look_looks fun _ => .check

theorem acquire_node_state_looks : Looks acquire_node_state :=
  .bind acquire_node_state_lock_looks fun _ =>
    look_looks fun _ => .check

theorem ensure_no_live_vmm_generation_looks : Looks ensure_no_live_vmm_generation := by
  refine .bind machine_state_looks fun state => ?_
  split
  · exact .pure _
  · refine look_looks fun w => ?_
    split
    · exact .pure _
    · exact .bind .check fun _ => .fail _

theorem write_forced_looks (run_id : Str) (pid : Int) : Looks (write_forced run_id pid) :=
  .bind io_looks fun _ => host_looks

theorem record_forced_exit_looks (generation : VmmRunIdentity) : Looks (record_forced_exit generation) := by
  refine .bind read_exit_status_looks fun recorded => .bind .get fun w => ?_
  split
  · exact .pure _
  · exact .when (write_forced_looks _ _)

theorem try_acquire_looks : Looks try_acquire := by
  refine look_looks fun w => .bind open_lock_file_looks fun _ => .bind (.when fun _ => ?_) fun _ => .pure _
  exact ⟨rfl, .of_same ⟨[], rfl, nofun⟩⟩

theorem prepare_machine_network_reads : Reads prepare_machine_network :=
  .bind (reconcile_machine_network_looks false).reads fun _ =>
    .bind io_looks.reads fun _ => .bind (.modify fun _ => rfl) fun _ => io_looks.reads

/-! ## Notes and saves -/

theorem probe_spec (hP : Steady P) {pid : Int} {Q : Option Identity → World → Prop}
    (h : ∀ w, P w → Q (w.host.for_pid pid) (w.note (.probed (w.trusts (some pid))))) :
    Spec P (probe pid) Q (fun _ => P) := by
  refine .bind (io_looks.spec hP) fun _ => .seq (fun w => Q (w.host.for_pid pid) w)
    (.modify h) fun _ => ?_
  exact .get_bind fun w hw => .pure_at hw

theorem note_spec {e : World → Entry} (h : ∀ w, P w → P (w.note (e w))) : Preserves P (note e) :=
  .modify h

variable {Q : World → Prop}

theorem save_spec (hP : Steady P) {writer : Writer} {after : MachineState}
    (h : ∀ w, P w → Q { w.note (.saved writer w.stored after w.monitor) with state := some after }) :
    Spec P (save writer after) (fun _ => Q) (fun _ => P) :=
  .bind (io_looks.spec hP) fun _ => .modify h

theorem machine_state_spec (hP : Steady P) :
    Spec P machine_state (fun s w => P w ∧ SameRun s w.stored) (fun _ => P) :=
  .bind (io_looks.spec hP) fun _ => .bind (Q := fun s w => P w ∧ w = s) (.get fun _ h => ⟨h, rfl⟩)
    fun _ => .pure fun _ h => ⟨h.1, by rw [h.2]; exact SameRun.refl _⟩

theorem transition_spec (hP : Steady P) {event : Event}
    (h : ∀ w s next now, P w → SameRun s w.stored → reduce s event now = .ok next →
      Q { w.note (.saved .call w.stored next w.monitor) with state := some next }) :
    Spec P (transition_current_machine_state event) (fun _ => Q) (fun _ => P) := by
  refine .bind (machine_state_spec hP) fun s => ?_
  refine .seq (fun w => P w ∧ SameRun s w.stored) (.get fun _ h => h) fun w₁ => ?_
  unfold reduced
  cases hreduce : reduce s event w₁.now with
  | error err =>
    exact .seq (fun _ => False) (.fail fun _ h => h.1) fun _ _ h => h.elim
  | ok next =>
    refine .bind (Q := fun a w => a = next ∧ P w ∧ SameRun s w.stored) (.pure fun _ h => ⟨rfl, h⟩) fun a => ?_
    refine .and_pre ?_
    rintro rfl
    refine .seq Q (E := fun _ => P) ?_ fun _ => .pure fun _ h => h
    refine .err (save_spec (hP.and (steady_same s)) fun w hw => h w s a w₁.now hw.1 hw.2 hreduce) fun _ _ h => h.1

/-! ## Observations -/

/-- `observed` is what an observation makes of the stored state, and the call has noted whether the pid file could be
trusted. -/
def Observation (observed : MachineState) (w : World) : Prop :=
  ∃ (w₀ : World) (pid : Option Int), w₀.state = w.state ∧ w₀.monitor = w.monitor ∧
    Entry.probed (w₀.trusts pid) ∈ w.log ∧ observe_machine_state w₀.machine_id (w₀.observed_host pid) w₀.state = .ok observed

theorem steady_observation (observed : MachineState) : Steady (Observation observed) := by
  rintro w w' heq ⟨w₀, pid, hstate, hmonitor, hlog, hobserved⟩
  exact ⟨w₀, pid, hstate.trans (congrArg Record.state heq).symm, hmonitor.trans (congrArg Record.monitor heq).symm,
    log_eq heq ▸ hlog, hobserved⟩

theorem Observation.note {observed : MachineState} {w : World} (h : Observation observed w) (e : Entry) :
    Observation observed (w.note e) := by
  obtain ⟨w₀, pid, hstate, hmonitor, hlog, hobserved⟩ := h
  exact ⟨w₀, pid, hstate, hmonitor, mem_cons_of_mem _ hlog, hobserved⟩

theorem observe_spec (hP : Steady P) (hprobed : ∀ w t, P w → P (w.note (.probed t))) :
    Spec P observe (fun observed w => P w ∧ Observation observed w) (fun _ => P) := by
  refine .bind (pid_from_file_looks.spec hP) fun pid => .bind (io_looks.spec hP) fun _ => ?_
  refine .seq (fun w => P w ∧ Entry.probed (w.trusts pid) ∈ w.log)
    (.modify fun w hw => ⟨hprobed w _ hw, mem_cons_self⟩) fun _ => ?_
  refine .bind (Q := fun w₁ w => w₁ = w ∧ P w ∧ Entry.probed (w.trusts pid) ∈ w.log)
    (.get fun _ h => ⟨rfl, h⟩) fun w₁ => ?_
  -- From here on only the lock file may have changed.
  have hsame : Steady fun w => w.record = w₁.record := fun w w' heq hw => heq.trans hw
  refine .weaken (P := fun w => (P w ∧ Entry.probed (w₁.trusts pid) ∈ w.log) ∧ w.record = w₁.record)
    (Q := fun observed w => P w ∧ Observation observed w) (E := fun _ => P) ?_ ?_ (fun _ _ h => h) fun _ _ h => h
  · have hlog : Steady fun w => Entry.probed (w₁.trusts pid) ∈ w.log := by
      intro w w' heq hw
      rwa [log_eq heq]
    refine .seq (fun w => (P w ∧ Entry.probed (w₁.trusts pid) ∈ w.log) ∧ w.record = w₁.record) (E := fun _ => P)
      (.err (Looks.spec (.when open_lock_file_looks) ((hP.and hlog).and hsame)) fun _ _ h => h.1.1) fun _ => ?_
    split
    · exact .fail fun _ h => h.1.1
    · unfold reduced
      split
      · rename_i observed hobserved
        refine .pure fun w hw => ⟨hw.1.1, w₁, pid, ?_, ?_, hw.1.2, hobserved⟩
        · exact (congrArg Record.state hw.2).symm
        · exact (congrArg Record.monitor hw.2).symm
      · exact .fail fun _ h => h.1.1
  · rintro w ⟨rfl, h⟩
    exact ⟨h, rfl⟩

/-- Nothing needs to be saved when the observation is of the stored run as it is. -/
theorem same_of_no_writeback {w : World} {observed : MachineState}
    (h : machine_state_needs_writeback w.state observed = false) : SameRun observed w.stored := by
  unfold machine_state_needs_writeback at h
  unfold World.stored
  cases hstate : w.state with
  | none => rw [hstate] at h; cases h
  | some persisted =>
    rw [hstate] at h
    simp only [Bool.or_eq_false_iff, decide_eq_false_iff_not, not_not] at h
    obtain ⟨⟨⟨⟨hstatus, hpid⟩, hstarted⟩, hrun⟩, -⟩ := h
    exact ⟨hstatus.symm, hpid.symm, hstarted.symm, hrun.symm⟩

theorem reconcile_spec (hP : Steady P) (hprobed : ∀ w t, P w → P (w.note (.probed t)))
    (hobserved : ∀ w r b, P w → P (w.note (.observed r b)))
    (hsaved : ∀ w observed, P w → Observation observed w → Entry.observed w.stored.run_id false ∈ w.log →
      P { w.note (.saved .reconcile w.stored observed w.monitor) with state := some observed }) :
    Spec P reconcile_machine_runtime_locked (fun status w => P w ∧ SameRun status w.stored) (fun _ => P) := by
  refine .bind (io_looks.spec hP) fun _ => .bind (observe_spec hP hprobed) fun observed => ?_
  refine .bind (Q := fun w₁ w => w₁.state = w.state ∧ P w ∧ Observation observed w)
    (.get fun _ h => ⟨rfl, h⟩) fun w₁ => ?_
  refine .seq (fun w => w₁.state = w.state ∧ (P w ∧ Observation observed w) ∧
      Entry.observed w.stored.run_id (!machine_state_needs_writeback w.state observed) ∈ w.log)
    (.modify fun w hw => ⟨hw.1, ⟨hobserved w _ _ hw.2.1, hw.2.2.note _⟩, mem_cons_self⟩) fun _ => ?_
  refine .seq (fun w => P w ∧ SameRun observed w.stored) (E := fun _ => P) ?_
    fun _ => .pure fun _ h => h
  refine .when (fun hneeds => ?_) fun hnot w hw => ?_
  · have hlog : Steady fun w => Entry.observed w.stored.run_id false ∈ w.log := by
      intro w w' heq hw
      rw [log_eq heq, ← (stored_same heq).run_id]
      exact hw
    refine .weaken (save_spec ((hP.and (steady_observation observed)).and hlog)
      (Q := fun w => P w ∧ SameRun observed w.stored)
      fun w hw => ⟨hsaved w observed hw.1.1 hw.1.2 hw.2, SameRun.refl _⟩) ?_ (fun _ _ h => h) fun _ _ h => h.1.1
    intro w hw
    have hnote := hw.2.2
    rw [← hw.1, hneeds] at hnote
    exact ⟨hw.2.1, hnote⟩
  · refine ⟨hw.2.1.1, same_of_no_writeback ?_⟩
    rw [← hw.1]
    exact Bool.not_eq_true _ ▸ hnot

/-! ## A start that fails -/

/-- Only the end of the libvm process stops `m`. -/
def Unstoppable (m : Op α) : Prop := Spec (fun _ => True) m (fun _ _ => True) (fun e _ => e = .Killed)

theorem Unstoppable.bind {m : Op α} {f : α → Op β} (hm : Unstoppable m) (hf : ∀ a, Unstoppable (f a)) :
    Unstoppable (m >>= f) := Spec.bind hm hf

theorem pure_unstoppable (a : α) : Unstoppable (pure a : Op α) := .pure fun _ h => h

theorem attempt_unstoppable (m : Op α) : Unstoppable (attempt m) :=
  .weaken (attempt_spec (P := fun _ => True) (Q := fun _ _ => True) (E := fun _ _ => True) .trivial)
    (fun _ h => h) (fun _ _ _ => trivial) fun _ _ h => h.1

theorem collect_unstoppable (label : Str) (default : α) (m : Op α) : Unstoppable (collect label default m) := by
  refine .bind (.get fun _ h => h) fun w => (attempt_unstoppable m).bind fun r => ?_
  cases r <;> exact pure_unstoppable _

theorem clean_failed_start_unstoppable (run_id : Str) (failure : StartFailure) (monitor : Option Identity)
    (message : Str) : Unstoppable (clean_failed_start run_id failure monitor message) := by
  refine .bind ?_ fun discovered => .bind (.modify fun _ h => h) fun _ =>
    .bind ?_ fun stopped => ?_
  · cases monitor with
    | some monitor => exact pure_unstoppable _
    | none =>
      refine (attempt_unstoppable _).bind fun r => ?_
      cases r with
      | ok pid => exact collect_unstoppable _ _ _
      | error e => exact pure_unstoppable _
  · unfold stop_discovered
    split
    · exact pure_unstoppable _
    · exact collect_unstoppable _ _ _
  · split
    · exact pure_unstoppable _
    · refine (collect_unstoppable _ _ _).bind fun network => (collect_unstoppable _ _ _).bind fun terminal =>
        .bind (.get fun _ h => h) fun w => .bind ?_ pure_unstoppable
      split
      · exact (collect_unstoppable _ _ _).bind fun _ => (collect_unstoppable _ _ _).bind pure_unstoppable
      · exact pure_unstoppable _

/-! ## Signals and clean-up -/

section
variable (hP : Steady P)
include hP

theorem signal_spec {identity : Identity}
    (h : ∀ w, P w → P (w.note (.signalled identity w.stored.run_id w.monitor))) :
    Preserves P (signal identity) := by
  refine .bind (io_looks.spec hP) fun _ => .bind .got fun w => ?_
  refine .seq P ?_ fun _ => .pure fun _ h => h
  exact .when (fun _ => note_spec h) fun _ _ h => h

theorem cleanup_spec (h : ∀ w, P w → P (w.note (.cleaned w.stored.run_id))) :
    Preserves P cleanup_machine_resources_locked := by
  refine .bind (io_looks.spec hP) fun _ => .bind ((reconcile_machine_network_looks false).spec hP) fun _ =>
    .bind (io_looks.spec hP) fun _ => .modify fun w hw => ?_
  exact hP (w.note (.cleaned w.stored.run_id)) _ rfl (h w hw)

/-- The run is recorded as stopped, whatever else happens. -/
theorem mark_machine_stopped_and_clean_spec (hQ : Steady Q) (hPQ : ∀ w, P w → Q w)
    (hsaved : ∀ w after, P w → after.vmm_pid = none → after.started_at = none → after.run_id = none →
      Q { w.note (.saved .call w.stored after w.monitor) with state := some after })
    (hcleaned : ∀ w, Q w → Q (w.note (.cleaned w.stored.run_id))) :
    Spec P mark_machine_stopped_and_clean (fun _ => Q) (fun _ => Q) := by
  refine .bind .got fun w₁ => ?_
  refine .seq Q (.err (save_spec hP fun w hw => hsaved w _ hw rfl rfl rfl)
    fun _ w h => hPQ w h) fun _ => cleanup_spec hQ hcleaned

/-- A start changes nothing of `P` before its request. -/
theorem accept_start_spec {options : StartOptions}
    (hreconcile : Preserves P reconcile_machine_runtime_locked)
    (hrequest : Spec P (request_machine_start options.run_id) (fun _ => Q) (fun _ => P)) :
    Spec P (accept_start options) (fun _ => Q) (fun _ => P) :=
  .bind (lock_machine_config_looks.spec hP) fun _ => .bind (io_looks.spec hP) fun _ =>
    .bind (acquire_node_state_looks.spec hP) fun _ => .bind (io_looks.spec hP) fun _ =>
    .bind (try_acquire_looks.spec hP) fun _ => .bind .checked fun _ => .bind hreconcile fun _ =>
    .bind ((reconcile_machine_network_looks _).spec hP) fun _ => .bind .checked fun _ => hrequest

end

/-! ## Stop, wait and kill -/

/-- The run a call was asked for, if any, is the one at hand. -/
def Expects (expected run_id : Option Str) : Prop := ∀ r, expected = some r → run_id = some r

abbrev WithStatus (P : World → Prop) (status : MachineState) (w : World) : Prop := P w ∧ SameRun status w.stored

/-- What a stop and a kill do to the record, and what is `Found` once they have looked for the process. -/
structure StopRules (P : World → Prop) (Found : MachineState → Option Identity → World → Prop) (expected : Option Str) :
    Prop where
  steady : Steady P
  reconcile : Spec P reconcile_machine_runtime_locked (WithStatus P) (fun _ => P)
  cleanup : Preserves P cleanup_machine_resources_locked
  mark : ∀ {status : MachineState}, Expects expected status.run_id →
    Spec (WithStatus P status) mark_machine_stopped_and_clean (fun _ => P) (fun _ => P)
  look : ∀ {status : MachineState} {pid : Int}, status.vmm_pid = some pid →
    Spec (WithStatus P status) (monitor_identity (status.generation pid)) (Found status) (fun _ => P)
  held : ∀ {status : MachineState} {found : Option Identity} (w : World), Found status found w → WithStatus P status w
  signal : ∀ {status : MachineState} (identity : Identity), Expects expected status.run_id →
    Spec (Found status (some identity)) (signal identity) (fun _ => WithStatus P status) (fun _ => P)
  request : ∀ {status : MachineState} {pid : Int}, Expects expected status.run_id → status.vmm_pid = some pid →
    Spec (WithStatus P status) (request_machine_stop (status.generation pid)) (fun _ => P) (fun _ => P)
  complete : ∀ {generation : VmmRunIdentity}, Expects expected generation.run_id →
    Preserves P (complete_stop_locked generation)

variable {Found : MachineState → Option Identity → World → Prop} {expected : Option Str}

theorem require_current_spec (status : MachineState) :
    Spec P (require_current_run status expected) (fun _ w => Expects expected status.run_id ∧ P w) (fun _ => P) := by
  unfold require_current_run
  split
  · exact .pure fun _ h => ⟨fun _ => nofun, h⟩
  · exact .check (fun hrun _ h => ⟨fun _ hr => Option.some.inj hr ▸ hrun, h⟩) fun _ _ h => h

/-- A stop leaves targets of the run it was asked for. -/
theorem StopRules.stop_impl (h : StopRules P Found expected) :
    Spec P (stop_impl expected) (fun t w => P w ∧ ∀ target, t = some target →
      Expects expected target.generation.run_id ∧ target.stop_requested) (fun _ => P) := by
  refine .bind (lock_machine_config_looks.spec h.steady) fun _ => .bind h.reconcile fun status =>
    .bind (.err (require_current_spec status) fun _ _ h => h.1) fun _ => .and_pre fun hrun => ?_
  have hended {m : Op Unit} (hm : Spec (WithStatus P status) m (fun _ => P) (fun _ => P)) :
      Spec (WithStatus P status) (do m; machine_inspect_data; pure none) (fun (t : Option WaitTarget) w => P w ∧
        ∀ target, t = some target → Expects expected target.generation.run_id ∧ target.stop_requested) (fun _ => P) :=
    .bind hm fun _ => .bind (io_looks.spec h.steady) fun _ =>
      .pure fun _ h => ⟨h, nofun⟩
  split
  · exact hended (.pre h.cleanup fun _ h => h.1)
  split
  · exact hended (h.mark hrun)
  · rename_i pid hpid
    refine .bind (h.look hpid) fun found => ?_
    cases found with
    | none => exact .pre (hended (h.mark hrun)) h.held
    | some identity =>
      refine .seq (WithStatus P status) ?_ fun signalled => ?_
      · split
        · exact .pure h.held
        · exact h.signal identity hrun
      · split
        · refine .bind (h.request hrun hpid) fun _ => .pure fun _ h => ⟨h, ?_⟩
          rintro target ⟨⟩
          exact ⟨hrun, rfl⟩
        · exact hended (h.mark hrun)

theorem StopRules.kill_impl (h : StopRules P Found expected) : Preserves P (kill_impl expected) := by
  refine .bind (lock_machine_config_looks.spec h.steady) fun _ => .bind h.reconcile fun status =>
    .bind (.err (require_current_spec status) fun _ _ h => h.1) fun _ => .and_pre fun hrun =>
    .seq (WithStatus P status) (.check (fun _ _ h => h) fun _ _ h => h.1) fun _ => ?_
  split
  · exact .bind (h.mark hrun) fun _ => io_looks.spec h.steady
  · rename_i pid hpid
    refine .bind (h.look hpid) fun found => .seq (WithStatus P status) ?_ fun killed => ?_
    · split
      · exact .pure h.held
      · exact h.signal _ hrun
    · split
      · exact .bind (h.request hrun hpid) fun _ =>
          .bind ((wait_for_monitor_stop_looks _).spec h.steady) fun _ =>
          .bind ((record_forced_exit_looks _).spec h.steady) fun _ => .bind (h.complete hrun) fun _ =>
          .bind .checked fun _ => io_looks.spec h.steady
      · exact .bind (h.mark hrun) fun _ => .bind (read_exit_status_looks.spec h.steady) fun _ =>
          io_looks.spec h.steady

theorem active_wait_target_spec (hP : Steady P) (hreconcile : Preserves P reconcile_machine_runtime_locked)
    (expected : Option Str) :
    Spec P (active_wait_target expected)
      (fun t w => P w ∧ ∀ target, t = some target → target.stop_requested = false) (fun _ => P) := by
  refine .bind (lock_machine_config_looks.spec hP) fun _ =>
    .bind (machine_state_looks.spec hP) fun persisted => .seq P ?_ fun identity => ?_
  · split
    · split
      · exact (monitor_identity_looks _).spec hP
      · exact .done
    · exact .done
  · split
    · refine .bind ((require_current_run_looks _ _).spec hP) fun _ => .pure fun _ h => ⟨h, ?_⟩
      rintro target ⟨⟩
      rfl
    · exact .bind hreconcile fun status =>
        .bind (Looks.spec (.when (require_current_run_looks _ _)) hP) fun _ =>
        .pure fun _ h => ⟨h, nofun⟩

theorem wait_poll_spec (hP : Steady P) (hreconcile : Preserves P reconcile_machine_runtime_locked)
    (expected : Option Str) : Preserves P (wait_poll expected) := by
  refine .bind (lock_machine_config_looks.spec hP) fun _ => .bind hreconcile fun status => ?_
  split
  · exact .bind (io_looks.spec hP) fun _ => .done
  · exact .bind ((require_current_run_looks _ _).spec hP) fun _ =>
      .bind (io_looks.spec hP) fun _ => .done

theorem wait_for_target_exit_spec (hP : Steady P) {target : WaitTarget} {expected : Option Str}
    (hcomplete : target.stop_requested → Preserves P (complete_stop_locked target.generation))
    (hreconcile : Preserves P reconcile_machine_runtime_locked)
    (hcleanup : expected = none → Preserves P cleanup_machine_resources_locked) :
    Preserves P (wait_for_target_exit target expected) := by
  refine .bind ((wait_for_monitor_stop_looks _).spec hP) fun _ =>
    .bind (lock_machine_config_looks.spec hP) fun _ => .seq P ?_ fun _ =>
    .bind (read_exit_status_looks.spec hP) fun _ => io_looks.spec hP
  refine .ite (fun hstop => .bind (hcomplete hstop) fun completed => ?_) fun _ =>
    .bind hreconcile fun status => ?_
  · split
    · exact .bind (machine_state_looks.spec hP) fun _ => .failed
    · exact .done
  · split
    · exact .checked
    · exact .when (fun _ => hcleanup rfl) fun _ _ h => h

end Op

end Silo.Libvm
