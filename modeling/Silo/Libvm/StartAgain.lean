import Silo.Libvm.CallRules
import Silo.Libvm.Calls
import Silo.Libvm.MachineRuns
/-!
# Starting a machine again

A start takes the lifetime lock before it looks at the stored state. The reconciliation
then finds the lock taken, by this very start, when it asks whether a start without a
monitor was abandoned. Which stored states a start gets past follows exactly.
-/

namespace Silo.Libvm

open Lib Lib.Run
open Rust (Str)

/-! ## What a start finds -/

namespace World

def file_pid (w : World) : Option Int :=
  match w.host.pid_file with
  | some (.pid pid) => some pid
  | _ => none

def live_monitor (w : World) : Option ProcessIdentity := live_monitor_identity (w.observed_host w.file_pid) w.state

def exit_recorded (w : World) : Bool :=
  match w.host.exit_file with
  | some (.status status) => runtime_exit_matches status w.state
  | _ => false

end World

structure Startable (w : World) : Prop where
  node_state : w.host.node_state_fenced = false
  pid_file : ∀ message, w.host.pid_file ≠ some (.malformed message)
  exit_file : ∀ message, w.host.exit_file ≠ some (.malformed message)
  live : w.live_monitor = none
  starting : w.stored.status = .Starting → w.exit_recorded

structure View where
  machine_id : MachineId
  present : Bool
  state : Option MachineState
  pid_file : Option PidFile
  exit_file : Option ExitFile
  processes : List Process
  (node_state_busy node_state_fenced : Bool)

def World.view (w : World) : View :=
  ⟨w.machine_id, w.present, w.state, w.host.pid_file, w.host.exit_file, w.host.processes, w.host.node_state_busy,
    w.host.node_state_fenced⟩

variable {w w' : World}

section
variable (h : w'.view = w.view)
include h

theorem file_pid_congr : w'.file_pid = w.file_pid := by
  have hpid : w'.host.pid_file = w.host.pid_file := congrArg View.pid_file h
  rw [World.file_pid, hpid]
  rfl

theorem live_monitor_congr : w'.live_monitor = w.live_monitor := by
  have hstate : w'.state = w.state := congrArg View.state h
  have hprocesses : w'.host.processes = w.host.processes := congrArg View.processes h
  unfold World.live_monitor World.observed_host live_monitor_identity HostState.for_pid HostState.find
  rw [hstate, hprocesses, file_pid_congr h]

theorem exit_recorded_congr : w'.exit_recorded = w.exit_recorded := by
  have hstate : w'.state = w.state := congrArg View.state h
  have hexit : w'.host.exit_file = w.host.exit_file := congrArg View.exit_file h
  rw [World.exit_recorded, hexit, hstate]
  rfl

end

theorem exit_recorded_iff (w : World) (pid : Option Int) :
    ((w.observed_host pid).exit_status.filter (runtime_exit_matches · w.state)).isSome = w.exit_recorded := by
  unfold World.observed_host World.exit_recorded
  cases w.host.exit_file with
  | none => rfl
  | some file =>
    cases file with
    | malformed message => rfl
    | status status => cases h : runtime_exit_matches status w.state <;> simp [Option.filter, h]

theorem reduce_monitor_observed (s : MachineState) (pid : Int) (started_at : Option Int) (run_id : Option Str) (now : Int) :
    ∃ observed, reduce s (.MonitorObserved pid started_at run_id) now = .ok observed ∧ is_active observed.status := by
  refine ⟨_, rfl, ?_⟩
  cases h : s.status <;> simp [replace_runtime, is_active]

theorem reduce_exit_observed (s : MachineState) (clean : Bool) (error : Option Str) (now : Int) :
    ∃ observed, reduce s (.ExitObserved clean error) now = .ok observed ∧ is_active observed.status = false := by
  cases clean <;> exact ⟨_, rfl, rfl⟩

theorem reduce_monitor_gone (s : MachineState) (last_error : Option Str) (now : Int) :
    ∃ observed, reduce s (.MonitorGone last_error) now = .ok observed ∧ is_active observed.status = false := by
  refine ⟨_, rfl, ?_⟩
  cases h : s.status <;> simp [replace_runtime, is_active]

/-- An observation that finds the lifetime lock taken makes the machine an active one if a process is taken for its
monitor, or if it is starting and has not recorded its exit. -/
theorem observed_when_locked (hlocked : w.lifetime_lock_free = false) :
    ∃ observed, observe_machine_state w.machine_id (w.observed_host w.file_pid) w.state = .ok observed ∧
      (is_active observed.status = false ↔
        w.live_monitor = none ∧ (w.stored.status = .Starting → w.exit_recorded)) := by
  have hrecorded := exit_recorded_iff w w.file_pid
  have hlive : live_monitor_identity (w.observed_host w.file_pid) w.state = w.live_monitor := rfl
  have hfree : (w.observed_host w.file_pid).lifetime_lock_free = false := hlocked
  rw [stored_status, ← hrecorded]
  unfold observe_machine_state observation
  generalize w.live_monitor = live at hlive ⊢
  generalize (w.observed_host w.file_pid).exit_status.filter (runtime_exit_matches · w.state) = record
  simp only [hlive, hfree, Bool.and_false, Bool.false_eq_true, if_false]
  cases live with
  | some identity =>
    obtain ⟨observed, hok, hactive⟩ := reduce_monitor_observed w.stored
      identity.pid identity.started_at (w.state.bind (·.run_id)) w.now
    refine ⟨observed, ?_, by simp [hactive]⟩
    cases record <;> exact hok
  | none =>
    cases record with
    | some status =>
      obtain ⟨observed, hok, hactive⟩ := reduce_exit_observed w.stored
        (exit_observed_event status).1 (exit_observed_event status).2 w.now
      exact ⟨observed, hok, by simp [hactive]⟩
    | none =>
      by_cases hstarting : (w.state.map (·.status)).getD .Stopped = .Starting
      · -- The start finds its own lock and goes on believing in the start it replaces.
        refine ⟨refresh_starting w.stored w.now, ?_, ?_⟩
        · simp only [Option.filter_none, if_pos hstarting]
          rfl
        · have hstatus : (refresh_starting w.stored w.now).status =
              .Starting := (stored_status w).trans hstarting
          simp [is_active, hstatus, hstarting]
      · obtain ⟨observed, hok, hactive⟩ := reduce_monitor_gone w.stored
          (w.state.bind (·.last_error)) w.now
        refine ⟨observed, ?_, by simp [hactive, hstarting]⟩
        simp only [Option.filter_none, if_neg hstarting]
        exact hok

/-! ## A quiet host -/

/-- Nothing happens on the host, and all I/O succeeds. -/
def Quiet (script : List Moment) : Prop := ∀ m ∈ script, m.events = [] ∧ m.outcome = .done

namespace Op

variable {w₀ : World} {E : LibVmError → World → Prop}

theorem io_quiet {P : World → Prop} (hP : ∀ w now script, P w → P { w with now, script }) :
    Spec (fun w => Quiet w.script ∧ P w) io (fun _ w => Quiet w.script ∧ P w) E := by
  intro w hw
  unfold io
  cases hscript : w.script with
  | nil => exact hw
  | cons m rest =>
    obtain ⟨hevents, hdone⟩ := hw.1 m (hscript ▸ List.mem_cons_self)
    obtain ⟨events, now, outcome⟩ := m
    simp only at hevents hdone
    subst hevents hdone
    exact ⟨fun m hm => hw.1 m (hscript ▸ List.mem_cons_of_mem _ hm), hP w now rest hw.2⟩

def Free (w₀ w : World) : Prop := Quiet w.script ∧ w.view = w₀.view ∧ w.lifetime_lock_free

def Held (w₀ w : World) : Prop :=
  Quiet w.script ∧ w.view = w₀.view ∧ ∃ inode, w.host.lock_file = some inode ∧ w.start_lock = some inode

theorem io_free : Spec (Free w₀) io (fun _ => Free w₀) E := io_quiet fun _ _ _ h => h

theorem io_held : Spec (Held w₀) io (fun _ => Held w₀) E := io_quiet fun _ _ _ h => h

theorem Held.locked (h : Held w₀ w) : w.lifetime_lock_free = false := by
  obtain ⟨-, -, inode, hfile, hstart⟩ := h
  simp [World.lifetime_lock_free, hfile, hstart]

theorem lock_machine_config_free (hpresent : w₀.present) :
    Spec (Free w₀) lock_machine_config (fun _ => Free w₀) E := by
  refine .bind io_free fun _ => .get_bind fun w hw => .check_at (fun _ => hw) fun habsent => ?_
  have hw_present : w.present = w₀.present := congrArg View.present hw.2.1
  exact absurd (hw_present.trans hpresent) habsent

theorem acquire_node_state_free (hbusy : w₀.host.node_state_busy = false) :
    Spec (Free w₀) acquire_node_state (fun _ w => w₀.host.node_state_fenced = false ∧ Free w₀ w)
      (fun _ _ => ¬ Startable w₀) := by
  refine .seq (Free w₀) (.bind io_free fun _ => .get_bind fun w hw =>
    .check_at (fun _ => hw) fun hb => ?_) fun _ =>
    .bind io_free fun _ => .get_bind fun w hw => .check_at (fun hfenced => ?_) fun hfenced => ?_
  · have hw_busy : w.host.node_state_busy = w₀.host.node_state_busy := congrArg View.node_state_busy hw.2.1
    exact absurd (hw_busy.trans hbusy) hb
  · exact ⟨(congrArg View.node_state_fenced hw.2.1).symm.trans hfenced, hw⟩
  · have hw_fenced : w.host.node_state_fenced = w₀.host.node_state_fenced := congrArg View.node_state_fenced hw.2.1
    exact fun hstartable => hfenced (hw_fenced.trans hstartable.node_state)

theorem try_acquire_free : Spec (Free w₀) try_acquire (fun acquired w => acquired ∧ Held w₀ w) E := by
  refine .bind io_free fun _ => .get_bind fun w hw => ?_
  rw [hw.2.2]
  have hview : ({ w with host := w.host.open_lock_file.2 } : World).view = w.view := by
    unfold HostState.open_lock_file World.view
    cases w.host.lock_file <;> rfl
  obtain ⟨inode, hfile⟩ : ∃ inode, w.host.open_lock_file.2.lock_file = some inode := by
    unfold HostState.open_lock_file
    cases h : w.host.lock_file with
    | none => exact ⟨_, rfl⟩
    | some inode => exact ⟨inode, h⟩
  refine .seq (· = { w with host := w.host.open_lock_file.2 }) (.modify fun w' h => by rw [h])
    fun _ => .seq (Held w₀) (.when (fun _ => .modify ?_) fun hfalse => absurd rfl hfalse)
    fun _ => .pure fun _ h => ⟨rfl, h⟩
  rintro w' rfl
  exact ⟨hw.1, hview.trans hw.2.1, inode, hfile, hfile⟩

/-! ## The reconciliation of a start -/

theorem pid_from_file_held : Spec (Held w₀) pid_from_file
    (fun pid w => (pid = w₀.file_pid ∧ ∀ message, w₀.host.pid_file ≠ some (.malformed message)) ∧ Held w₀ w)
    (fun _ _ => ¬ Startable w₀) := by
  have hread : Spec (Held w₀) read_monitor_pid
      (fun pid w => w₀.host.pid_file = some (.pid pid) ∧ Held w₀ w)
      (fun e w => ((∃ message, e = .Io .NotFound message ∧ w₀.host.pid_file = none) ∨
        ∃ message, e = .Io .InvalidData message ∧ w₀.host.pid_file = some (.malformed message)) ∧ Held w₀ w) := by
    refine .bind io_held fun _ => .get_bind fun w hw => ?_
    have hfile : w.host.pid_file = w₀.host.pid_file := congrArg View.pid_file hw.2.1
    rw [hfile]
    cases w₀.host.pid_file with
    | none => exact .fail_at ⟨.inl ⟨_, rfl, rfl⟩, hw⟩
    | some file =>
      cases file with
      | malformed message => exact .fail_at ⟨.inr ⟨message, rfl, rfl⟩, hw⟩
      | pid pid => exact .pure_at ⟨rfl, hw⟩
  refine .bind (.err (attempt_spec hread) ?_) fun r => ?_
  · rintro _ w ⟨rfl, ⟨_, hkilled, -⟩ | ⟨_, hkilled, -⟩, -⟩ <;> cases hkilled
  · cases r with
    | ok pid => exact .pure fun w h => ⟨⟨by simp [World.file_pid, h.1], by simp [h.1]⟩, h.2⟩
    | error e =>
      refine .of_forall fun w hw => ?_
      obtain ⟨⟨message, rfl, hfile⟩ | ⟨message, rfl, hfile⟩, hheld⟩ := hw
      · exact .pure_at ⟨⟨by simp [World.file_pid, hfile], by simp [hfile]⟩, hheld⟩
      · exact .fail fun _ _ hstartable => hstartable.pid_file message hfile

theorem observe_held (hfenced : w₀.host.node_state_fenced = false) : Spec (Held w₀) observe
    (fun observed w => (is_active observed.status = false ↔ Startable w₀) ∧ Quiet w.script)
    (fun _ _ => ¬ Startable w₀) := by
  refine .bind pid_from_file_held fun pid => .and_pre ?_
  rintro ⟨rfl, hpid_file⟩
  refine .bind io_held fun _ => .seq (Held w₀) (.modify fun _ h => h) fun _ =>
    .get_bind fun w hw => ?_
  have hopen : w.host.open_lock_file.2 = w.host := by
    obtain ⟨-, -, inode, hfile, -⟩ := hw
    simp [HostState.open_lock_file, hfile]
  have hexit : w.host.exit_file = w₀.host.exit_file := congrArg View.exit_file hw.2.1
  refine .seq (· = w) (.when (fun _ => .modify ?_) fun _ _ h => h) fun _ => ?_
  · rintro w' rfl
    rw [hopen]
  split
  · rename_i message hmalformed
    exact .fail fun _ _ hstartable => hstartable.exit_file message (hexit ▸ hmalformed)
  · rename_i hexit_file
    obtain ⟨observed, hobserved, hactive⟩ := observed_when_locked hw.locked
    rw [← file_pid_congr hw.2.1, hobserved]
    refine .pure_at ⟨?_, hw.1⟩
    have hstate : w.state = w₀.state := congrArg View.state hw.2.1
    rw [hactive, live_monitor_congr hw.2.1, exit_recorded_congr hw.2.1, stored_status, hstate, ← stored_status]
    exact ⟨fun h => ⟨hfenced, hpid_file, fun message hmal => hexit_file message (hexit.trans hmal), h.1, h.2⟩,
      fun h => ⟨h.live, h.starting⟩⟩

def Settled (status : MachineState) (w : World) : Prop := Quiet w.script ∧ SameRun status w.stored

theorem settled_io {status : MachineState} : Spec (Settled status) io (fun _ => Settled status) E :=
  io_quiet fun w _ _ h => h.trans ⟨by simp, by simp, by simp, by simp⟩

theorem reconcile_held (hfenced : w₀.host.node_state_fenced = false) :
    Spec (Held w₀) reconcile_machine_runtime_locked
      (fun status w => (is_active status.status = false ↔ Startable w₀) ∧ Settled status w)
      (fun _ _ => ¬ Startable w₀) := by
  refine .bind io_held fun _ => .bind (observe_held hfenced) fun observed => .and_pre fun hactive =>
    .get_bind fun w hw => ?_
  refine .seq (fun w' => Quiet w'.script ∧ w'.state = w.state) (.modify ?_) fun _ =>
    .seq (Settled observed) (.when (fun _ => ?_) fun hno w' hw' => ⟨hw'.1, ?_⟩) fun _ =>
    .pure fun _ h => ⟨hactive, h⟩
  · rintro w' rfl
    exact ⟨hw, rfl⟩
  · exact .bind (io_quiet fun _ _ _ h => h) fun _ => .modify fun w' hw' => ⟨hw'.1, SameRun.refl _⟩
  · refine same_of_no_writeback ?_
    rw [hw'.2]
    exact Bool.not_eq_true _ ▸ hno

theorem request_settled {status : MachineState} {run_id : Str} (hidle : is_active status.status = false) :
    Spec (Settled status) (request_machine_start run_id)
      (fun _ w => w.stored.status = .Starting ∧ w.stored.run_id = some run_id) E := by
  refine .seq (fun w => w.stored.status = .Starting ∧ w.stored.run_id = some run_id) ?_ fun _ =>
    .modify fun _ h => h
  refine .bind (Q := fun s w => s.status = status.status ∧ Quiet w.script) (.bind settled_io fun _ =>
    .bind (Q := fun w₁ w => w₁ = w ∧ Settled status w) (.get fun _ h => ⟨rfl, h⟩) fun w₁ => .pure ?_)
    fun s => .and_pre fun hstatus => .bind .got fun w₁ => ?_
  · rintro w ⟨rfl, h⟩
    exact ⟨h.2.status.symm, h.1⟩
  · have hreduce : reduce s (.StartRequested run_id) w₁.now =
        .ok (replace_runtime s .Starting none none (some run_id) none w₁.now) := by
      simp [reduce, start_requested, hstatus, hidle, require]
    rw [hreduce]
    exact .bind (Q := fun s' w => s' = replace_runtime s .Starting none none (some run_id) none w₁.now ∧ Quiet w.script)
      (.pure fun _ h => ⟨rfl, h⟩) fun s' => .and_pre fun hs' => .bind
        (Q := fun _ w => w.stored.status = .Starting ∧ w.stored.run_id = some run_id)
        (.bind (.pre (io_quiet (P := fun _ => True) fun _ _ _ h => h) fun _ h => ⟨h, trivial⟩)
          fun _ => .modify fun _ _ => by rw [hs']; exact ⟨rfl, rfl⟩)
        fun _ => .done

/-- A start of a machine whose locks are free is accepted exactly if there is nothing in its way. -/
theorem accept_start_free {options : StartOptions} (hpresent : w₀.present)
    (hbusy : w₀.host.node_state_busy = false) :
    Spec (Free w₀) (accept_start options)
      (fun _ w => Startable w₀ ∧ w.stored.status = .Starting ∧ w.stored.run_id = some options.run_id)
      (fun _ _ => ¬ Startable w₀) := by
  refine .bind (lock_machine_config_free hpresent) fun _ => .bind io_free fun _ =>
    .bind (acquire_node_state_free hbusy) fun _ => .and_pre fun hfenced => .bind io_free fun _ =>
    .bind try_acquire_free fun acquired => .and_pre fun hacquired =>
    .seq (Held w₀) (.check (fun _ _ h => h) fun hnot => absurd hacquired hnot) fun _ =>
    .bind (reconcile_held hfenced) fun status => .and_pre fun hactive => ?_
  refine .seq (Settled status) ?_ fun _ => .seq (fun w => Startable w₀ ∧ Settled status w)
    (.check (fun hidle _ h => ⟨hactive.1 hidle, h⟩) fun hbusy _ _ hstartable => hbusy (hactive.2 hstartable)) fun _ =>
    .and_pre fun hstartable => ?_
  · exact .bind settled_io fun _ => .modify fun w h => ⟨h.1, h.2.trans ⟨by simp, by simp, by simp, by simp⟩⟩
  · exact .weaken (request_settled (hactive.2 hstartable)) (fun _ h => h) (fun _ _ h => ⟨hstartable, h⟩) fun _ _ h => h

/-! ## After the start is accepted -/

def Unreported {α : Type} (m : Op α) : Prop :=
  Spec (fun _ => True) m (fun _ _ => True) (fun e _ => e ≠ .MachineAlreadyRunning)

variable {α β : Type}

theorem Unreported.bind {m : Op α} {f : α → Op β} (hm : Unreported m) (hf : ∀ a, Unreported (f a)) : Unreported (m >>= f) :=
  Spec.bind hm hf

theorem io_unreported : Unreported io := by
  intro w _
  unfold io
  cases w.script with
  | nil => trivial
  | cons m rest =>
    obtain ⟨events, now, outcome⟩ := m
    cases outcome with
    | done => trivial
    | failed message => exact nofun
    | killed => exact nofun

theorem pure_unreported (a : α) : Unreported (pure a : Op α) := .done

theorem get_unreported : Unreported get := .get fun _ h => h

theorem modify_unreported (f : World → World) : Unreported (modify f) := .modify fun _ h => h

theorem fail_unreported {e : LibVmError} (h : e ≠ .MachineAlreadyRunning) : Unreported (fail e : Op α) :=
  .fail fun _ _ => h

theorem or_fail_unreported {run_id : Str} {failure : StartFailure} {monitor : Option Identity} {m : Op α}
    (h : Unreported m) : Unreported (or_fail run_id failure monitor m) := by
  refine or_fail_spec h (fun _ h => h) fun e => .of_forall fun w hne => ?_
  refine .weaken (P := fun _ => True) (Q := fun _ _ => False) (E := fun e _ => e ≠ .MachineAlreadyRunning) ?_
    (fun _ _ => trivial) (fun _ _ h => h) fun _ _ h => h
  refine .bind get_unreported fun w₁ => .bind (.err (clean_failed_start_unstoppable _ _ _ _)
    fun _ _ h => by rw [h]; exact nofun) fun errors => ?_
  split
  · exact .fail fun _ _ => hne
  · exact .fail fun _ _ => nofun

theorem transition_unreported (event : Event) : Unreported (transition_current_machine_state event) := by
  refine (io_unreported.bind fun _ => get_unreported.bind fun _ => pure_unreported _).bind fun state =>
    get_unreported.bind fun w => Unreported.bind ?_ fun next =>
    (io_unreported.bind fun _ => modify_unreported _).bind fun _ => pure_unreported _
  unfold reduced
  split
  · exact pure_unreported _
  · exact fail_unreported nofun

theorem read_monitor_pid_unreported : Unreported read_monitor_pid := by
  refine io_unreported.bind fun _ => get_unreported.bind fun w => ?_
  split
  · exact fail_unreported nofun
  · exact fail_unreported nofun
  · exact pure_unreported _

theorem spawn_unreported (run_id : Str) (spawned : Option Identity) : Unreported (spawn run_id spawned) := by
  refine io_unreported.bind fun _ => get_unreported.bind fun w => ?_
  split
  · exact fail_unreported nofun
  · exact (modify_unreported _).bind fun _ => io_unreported.bind fun _ => io_unreported.bind fun _ => io_unreported

theorem check_unreported {c : Prop} [Decidable c] {e : LibVmError} (h : e ≠ .MachineAlreadyRunning) :
    Unreported (Run.check c e) :=
  .check (fun _ _ h => h) fun _ _ _ => h

theorem launch_unreported (options : StartOptions) : Unreported (launch options) := by
  refine (or_fail_unreported ((io_unreported.bind fun _ => io_unreported.bind fun _ => pure_unreported _).bind fun _ =>
      io_unreported.bind fun _ => pure_unreported _)).bind fun secrets =>
    (or_fail_unreported ((io_unreported.bind fun _ => modify_unreported _).bind fun _ => io_unreported.bind fun _ =>
      (modify_unreported _).bind fun _ => io_unreported)).bind fun _ =>
    (check_unreported fun h => by cases h).bind fun _ =>
    (or_fail_unreported (io_unreported.bind fun _ => pure_unreported _)).bind fun agent_enabled =>
    (or_fail_unreported (check_unreported fun h => by cases h)).bind fun _ =>
    (or_fail_unreported io_unreported).bind fun _ =>
    (or_fail_unreported (spawn_unreported _ _)).bind fun _ =>
    (or_fail_unreported read_monitor_pid_unreported).bind fun pid =>
    (or_fail_unreported ?_).bind fun monitor =>
    or_fail_unreported ((transition_unreported _).bind fun _ => pure_unreported _)
  refine (io_unreported.bind fun _ => (modify_unreported _).bind fun _ => get_unreported.bind fun _ =>
    pure_unreported _).bind fun found => ?_
  split
  · exact pure_unreported _
  · exact get_unreported.bind fun w => fail_unreported nofun

end Op

/-! ## Starting again -/

/-- A machine whose locks are free is started again, with the run id the call has drawn, exactly if its node state and
its files can be read, no process is taken for its monitor, and it is not left starting without an exit record of that
run. -/
theorem started_again_iff (w : World) (options : Op.StartOptions) (hpresent : w.present = true)
    (hbusy : w.host.node_state_busy = false) (hlifetime : w.lifetime_lock_free = true) (hquiet : Quiet w.script) :
    ((∃ w', Op.accept_start options w = (.ok (), w') ∧ w'.stored.status = .Starting ∧
        w'.stored.run_id = some options.run_id) ∧
      (Op.start_with_options options w).1 ≠ .error .MachineAlreadyRunning) ↔ Startable w := by
  have haccept : Spec (Op.Free w) (Op.accept_start options) _ _ := Op.accept_start_free hpresent hbusy
  have hfree : Op.Free w w := ⟨hquiet, rfl, hlifetime⟩
  constructor
  · rintro ⟨⟨w', hok, -⟩, -⟩
    exact (haccept.ok hfree hok).1
  · intro hstartable
    obtain ⟨w', hok⟩ : ∃ w', Op.accept_start options w = (.ok (), w') := by
      generalize hrun : Op.accept_start options w = r
      obtain ⟨e | u, w'⟩ := r
      · exact absurd hstartable (haccept.error hfree hrun)
      · exact ⟨w', rfl⟩
    refine ⟨⟨w', hok, (haccept.ok hfree hok).2⟩, fun hrunning => ?_⟩
    have hstart : Spec (· = w) (Op.start_with_options options) (fun _ _ => True) (fun e _ => e ≠ .MachineAlreadyRunning) :=
      .bind (Op.releasing_spec (.bind (.of_run_ok hok trivial) fun _ => Op.launch_unreported options)
        (fun _ _ h => h) fun _ _ h => h) fun _ => Op.io_unreported.bind fun _ => Op.pure_unreported _
    exact hstart.error rfl (Prod.ext hrunning rfl) rfl

/-- The libvm process is killed between the request of a start and its spawn. -/
def abandoned : System := (System.run ⟨World.idle ['m'] .Persistent, [], []⟩ []
  [.call (Moment.quiet 12 ++ [⟨[], 0, .killed⟩]) (.start ⟨['a'], false, false, some ⟨7, 1⟩⟩)]).1

/-- No process lives and no lock is taken, but the machine cannot be started. -/
theorem abandoned_not_started : (∃ log, SystemReaches abandoned log) ∧
    abandoned.world.present = true ∧ abandoned.world.host.node_state_busy = false ∧
    abandoned.world.lifetime_lock_free = true ∧ abandoned.world.host.processes = [] ∧
    (Op.start_with_options ⟨['b'], false, false, some ⟨7, 1⟩⟩ { abandoned.world with script := [] }).1 =
      .error .MachineAlreadyRunning :=
  ⟨⟨_, (SystemReaches.init (idle_new _ _)).run (by decide +kernel)⟩, by decide +kernel, by decide +kernel,
    by decide +kernel, by decide +kernel, by decide +kernel⟩

/-- A machine whose monitor died and left its pid file. -/
def crashed : World := (System.run ⟨World.idle ['m'] .Persistent, [], []⟩ []
  [.call (Moment.reports 7) (.start ⟨['a'], false, false, some ⟨7, 1⟩⟩), .host (.exit 7)]).1.world

theorem crashed_startable : Startable crashed where
  node_state := by decide +kernel
  pid_file := by
    rw [show crashed.host.pid_file = some (.pid 7) by decide +kernel]
    exact nofun
  exit_file := by
    rw [show crashed.host.exit_file = none by decide +kernel]
    exact nofun
  live := by decide +kernel
  starting := by decide +kernel

theorem crashed_started_again : crashed.stored.status = .Running ∧
    ∃ w', Op.accept_start ⟨['b'], false, false, none⟩ crashed = (.ok (), w') ∧ w'.stored.status = .Starting ∧
      w'.stored.run_id = some ['b'] :=
  ⟨by decide +kernel, ((started_again_iff crashed ⟨['b'], false, false, none⟩ (by decide +kernel) (by decide +kernel)
    (by decide +kernel) (by unfold Quiet; decide +kernel)).2 crashed_startable).1⟩

end Silo.Libvm
