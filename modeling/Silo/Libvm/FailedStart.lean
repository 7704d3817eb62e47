import Silo.Libvm.CallRules
import Silo.Libvm.Calls
import Silo.Libvm.MachineRuns
/-!
# Starts that fail

Every exit of an accepted start but the last goes through one clean-up: it stops the
monitor that the pid file names, takes the network down, ends the run and removes an
ephemeral machine. A silo-vmm that lives and is not the one named is missed.
-/

namespace Silo.Libvm

open List Lib Lib.Run
open Rust (Str)

/-- What a failed start is to leave behind. -/
structure Clean (w : World) : Prop where
  status : w.stored.status = .Stopped ∨ w.stored.status = .Error
  run_id : w.stored.run_id = none
  monitor : ∀ monitor, w.monitor = some monitor → w.host.is_alive monitor = false
  network : w.host.network = .none
  removed : w.retention = .Ephemeral → w.present = false ∧ w.trees = false

/-! ## What stays true -/

def Known (w : World) : Prop := ∀ monitor, w.monitor = some monitor → monitor ∈ w.host.seen

def Gone (w : World) : Prop :=
  ∀ monitor, w.monitor = some monitor → monitor ∈ w.host.seen ∧ w.host.is_alive monitor = false

/-- The start has not been cleaned up. -/
def Unmarked (w : World) : Prop := ∀ covered, Entry.discovered covered ∉ w.log

def Marked (covered : Bool) (w : World) : Prop := ∀ b, Entry.discovered b ∈ w.log ↔ b = covered

/-- The monitor does not exit, by assumption `stays`. -/
def Lasts (stays : Prop) (spawned : Option Identity) (w : World) : Prop :=
  ∀ monitor, spawned = some monitor → stays → NoExit monitor w.script

/-- The monitor lives on, by assumption `stays`. -/
def Left (stays : Prop) (w : World) : Prop :=
  stays → ∃ monitor, w.monitor = some monitor ∧ w.host.is_alive monitor ∧ NoExit monitor w.script

variable {α : Type} {stays : Prop} {spawned : Option Identity} {covered : Bool}

theorem forward_known : Forward Known := by
  intro w w' hon h monitor hmonitor
  rw [hon.monitor] at hmonitor
  exact hon.seen monitor (h monitor hmonitor)

theorem forward_gone : Forward Gone := by
  intro w w' hon h monitor hmonitor
  rw [hon.monitor] at hmonitor
  obtain ⟨hseen, hdead⟩ := h monitor hmonitor
  exact ⟨hon.seen monitor hseen, hon.dead monitor hseen hdead⟩

theorem forward_unmarked : Forward Unmarked := by
  intro w w' hon h covered hmem
  obtain ⟨noted, heq, hno⟩ := hon.log
  exact (mem_append.1 (heq ▸ hmem)).elim (hno covered) (h covered)

theorem forward_marked : Forward (Marked covered) := by
  intro w w' hon h b
  obtain ⟨noted, heq, hno⟩ := hon.log
  rw [heq, mem_append, ← h b]
  exact or_iff_right (hno b)

theorem forward_lasts : Forward (Lasts stays spawned) :=
  fun _ _ hon h monitor hmonitor hstays m hm => h monitor hmonitor hstays m (hon.script m hm)

theorem forward_left : Forward (Left stays) := by
  intro w w' hon h hstays
  obtain ⟨monitor, hmonitor, halive, hno⟩ := h hstays
  exact ⟨monitor, hon.monitor.trans hmonitor, hon.alive monitor halive hno, fun m hm => hno m (hon.script m hm)⟩

theorem forward_off : Forward fun w => w.host.network = .none := fun _ _ hon h => hon.network h

namespace Op

/-! ## How the calls move on -/

variable {m : Op α}

theorem transition_moves (event : Event) : Moves (transition_current_machine_state event) :=
  .bind machine_state_looks.moves fun _ => .bind .get fun _ => .bind (reduced_looks _).moves fun _ =>
    .bind (save_moves _ _) fun _ => .pure _

theorem collect_moves {label : Str} {default : α} (h : Moves m) : Moves (collect label default m) := by
  refine .bind .get fun w => .bind (attempt_along h) fun r => ?_
  cases r <;> exact .pure _

theorem probe_moves (pid : Int) : Moves (probe pid) :=
  .bind io_moves fun _ => .bind (note_moves fun _ _ => nofun) fun _ => .bind .get fun _ =>
    .pure _

theorem observe_moves : Moves observe := by
  refine .bind pid_from_file_looks.moves fun pid => .bind io_moves fun _ =>
    .bind (note_moves fun _ _ => nofun) fun _ => .bind .get fun w =>
    .bind (.when open_lock_file_looks.moves) fun _ => ?_
  split
  · exact .fail _
  · exact (reduced_looks _).moves

theorem reconcile_moves : Moves reconcile_machine_runtime_locked :=
  .bind io_moves fun _ => .bind observe_moves fun _ => .bind .get fun _ =>
    .bind (note_moves fun _ _ => nofun) fun _ => .bind (.when (save_moves _ _)) fun _ =>
    .pure _

theorem signal_moves (identity : Identity) : Moves (signal identity) :=
  .bind io_moves fun _ => .bind .get fun _ =>
    .bind (.when (note_moves fun _ _ => nofun)) fun _ => .pure _

theorem stop_failed_start_monitor_moves (identity : Identity) : Moves (stop_failed_start_monitor identity) := by
  have hwait := (wait_for_monitor_stop_looks identity).moves
  refine .bind (signal_moves identity) fun interrupted =>
    .bind (.ite (attempt_along hwait) (.pure _)) fun waited => ?_
  split
  · exact .pure _
  · exact .bind (signal_moves identity) fun _ => .ite hwait
      (.bind (signal_moves identity) fun _ => .ite hwait (.pure _))

theorem discover_monitor_moves : Moves discover_monitor := by
  refine .bind (attempt_along read_monitor_pid_looks.moves) fun r => ?_
  split
  · exact collect_moves (probe_moves _)
  · exact .pure _

theorem cleanup_moves : Moves cleanup_machine_resources_locked :=
  .bind io_moves fun _ => .bind (reconcile_machine_network_looks false).moves fun _ => .bind io_moves fun _ _ =>
    .of_same (noted_once (fun _ heq => by cases heq) _)

theorem remove_machine_records_moves : Moves remove_machine_records :=
  .bind io_moves fun _ => .bind
    (fun _ => .of_same (noted_once (fun _ heq => by cases heq) _)) fun _ => io_moves

theorem remove_ephemeral_moves : Moves remove_ephemeral :=
  .bind (collect_moves io_moves) fun _ => .bind (collect_moves (.bind cleanup_moves fun _ =>
    .bind remove_machine_trees_looks.moves fun _ => remove_machine_records_moves)) fun _ => .pure _

/-! ## Stopping the monitor -/

variable {identity : Identity} {monitor : Option Identity}

theorem wait_for_monitor_stop_dead : Spec (fun _ => True) (wait_for_monitor_stop identity)
    (fun _ w => w.host.is_alive identity = false) (fun _ _ => True) :=
  .skip fun _ => .get_bind fun _ _ => .check_at (fun hdead => hdead) fun _ => trivial

theorem signal_dead : Spec (fun _ => True) (signal identity) (fun alive w => alive = w.host.is_alive identity)
    (fun _ _ => True) := by
  refine .skip fun _ => .get_bind fun w _ => ?_
  refine .seq (fun w' => w'.host = w.host) (.when (fun _ => .modify ?_) ?_) fun _ =>
    .pure fun w' h => by rw [h]
  · rintro w' rfl
    rfl
  · rintro _ w' rfl
    rfl

theorem stop_failed_start_monitor_dead : Spec (fun _ => True) (stop_failed_start_monitor identity)
    (fun _ w => w.host.is_alive identity = false) (fun _ _ => True) := by
  refine .skip fun interrupted => ?_
  refine .bind (Q := fun r w => r = .ok () → w.host.is_alive identity = false) ?_ fun waited => ?_
  · split
    · refine .weaken (attempt_spec wait_for_monitor_stop_dead) (fun _ h => h) (fun r w h => ?_) fun _ _ _ => trivial
      cases r with
      | ok u => exact fun _ => h
      | error e => exact fun he => by cases he
    · exact .pure fun _ _ he => by cases he
  · cases waited with
    | ok u => exact .pure fun _ h => h rfl
    | error e =>
      refine .skip fun killed => .ite (fun _ => wait_for_monitor_stop_dead)
        fun _ => .bind signal_dead fun alive => .ite (fun _ => ?_) fun hdead => .pure fun w h => ?_
      · exact .pre wait_for_monitor_stop_dead fun _ _ => trivial
      · rw [← h]
        exact Bool.not_eq_true _ ▸ hdead

theorem collect_done {label : Str} {default : α} {P : World → Prop} {Q : α → World → Prop}
    (h : Spec P m Q (fun _ _ => True)) :
    Spec P (collect label default m) (fun r w => r.2 = [] → Q r.1 w) (fun _ _ => True) := by
  refine .weaken (collect_spec h) (fun _ h => h) (fun r w h hnil => ?_) fun _ _ _ => trivial
  rcases h with ⟨-, h⟩ | ⟨-, hne, -⟩
  · exact h
  · exact absurd hnil hne

/-- The monitor has exited or is the process that was found. -/
def Doomed (found : Option Identity) (w : World) : Prop :=
  ∀ monitor, w.monitor = some monitor →
    monitor ∈ w.host.seen ∧ (w.host.is_alive monitor = false ∨ found = some monitor)

variable {found : Option Identity}

theorem forward_doomed : Forward (Doomed found) := by
  intro w w' hon h monitor hmonitor
  rw [hon.monitor] at hmonitor
  obtain ⟨hseen, hdead | hfound⟩ := h monitor hmonitor
  · exact ⟨hon.seen monitor hseen, .inl (hon.dead monitor hseen hdead)⟩
  · exact ⟨hon.seen monitor hseen, .inr hfound⟩

variable {w : World}

theorem doomed_of_covers (h : Known w) (hcovers : w.covers found) :
    Doomed found w := by
  intro monitor hmonitor
  refine ⟨h monitor hmonitor, ?_⟩
  simpa [World.covers, hmonitor] using hcovers

/-- The clean-up has the monitor stopped, if it found it, or says that it has not. -/
theorem stop_discovered_gone :
    Spec (Doomed found) (stop_discovered found) (fun r w => r.2 = [] → r.1 ∧ Gone w) (fun _ _ => True) := by
  unfold stop_discovered
  split
  · refine .pure fun w h _ => ⟨rfl, fun monitor hmonitor => ?_⟩
    obtain ⟨hseen, hdead | hfound⟩ := h monitor hmonitor
    · exact ⟨hseen, hdead⟩
    · cases hfound
  · rename_i identity
    have hstop : Spec (Doomed (some identity)) (do
        stop_failed_start_monitor identity
        pure true) (fun b w => b ∧ Gone w) (fun _ _ => True) := by
      refine .bind ((stop_failed_start_monitor_moves identity).and_spec forward_doomed stop_failed_start_monitor_dead)
        fun _ => .pure fun w h => ⟨rfl, fun monitor hmonitor => ?_⟩
      obtain ⟨hseen, hdead | hfound⟩ := h.1 monitor hmonitor
      · exact ⟨hseen, hdead⟩
      · cases hfound
        exact ⟨hseen, h.2⟩
    exact collect_done hstop

/-! ## Ending the run -/

def RunEnded (w : World) : Prop := (w.stored.status = .Stopped ∨ w.stored.status = .Error) ∧ w.stored.run_id = none

variable {run_id : Str} {failure : StartFailure}

theorem start_failed_ended {error : Option Str} {s next : MachineState} {now : Int}
    (h : reduce s (.StartFailed run_id failure error) now = .ok next) :
    (next.status = .Stopped ∨ next.status = .Error) ∧ next.run_id = none := by
  simp only [reduce, start_failed, require_state, require_run_id, bind_eq_ok, pure_eq_ok, require_eq_ok] at h
  obtain ⟨_, _, _, _, rfl⟩ := h
  cases failure
  · exact ⟨.inl rfl, rfl⟩
  · exact ⟨.inr rfl, rfl⟩

theorem mark_start_failed_ended {error : Option Str} :
    Spec (fun _ => True) (mark_machine_start_failed run_id failure error) (fun _ => RunEnded) (fun _ _ => True) :=
  .seq RunEnded (transition_spec (fun _ _ _ _ => trivial)
    fun _ _ _ _ _ _ hreduce => start_failed_ended hreduce) fun _ => .done

theorem io_keeps_machine : Keeps (fun w : World => (w.state, w.present, w.trees)) io := by
  intro w
  unfold io
  cases w.script with
  | nil => rfl
  | cons m rest =>
    obtain ⟨events, now, outcome⟩ := m
    cases outcome <;> rfl

def Erased (w : World) : Prop := w.state = none ∧ w.present = false ∧ w.trees = false

theorem Erased.ended (h : Erased w) : RunEnded w := by
  constructor
  · exact .inl (by simp [h.1])
  · simp [h.1]

theorem io_erased : Spec Erased io (fun _ => Erased) (fun _ _ => True) := by
  refine .err (io_keeps_machine.spec (P := Erased) fun w w' heq h => ?_) fun _ _ _ => trivial
  simp only [Prod.mk.injEq] at heq
  rw [Erased, heq.1, heq.2.1, heq.2.2]
  exact h

theorem io_trees : Spec (fun w => w.trees = false) io (fun _ w => w.trees = false) (fun _ _ => True) := by
  refine .err (io_keeps_machine.spec (P := fun w => w.trees = false) fun w w' heq h => ?_) fun _ _ _ => trivial
  simp only [Prod.mk.injEq] at heq
  exact heq.2.2.trans h

theorem remove_ephemeral_erased : Spec (fun _ => True) remove_ephemeral (fun errors w => errors = [] → Erased w)
    (fun _ _ => True) := by
  have hremove : Spec (fun _ => True) (do
      cleanup_machine_resources_locked
      remove_machine_trees
      remove_machine_records) (fun _ => Erased) (fun _ _ => True) :=
    .skip fun _ => .seq (fun w => w.trees = false)
      (.skip fun _ => .skip fun _ => .skip fun _ => .modify fun _ _ => rfl) fun _ =>
      .bind io_trees fun _ => .seq Erased (.modify fun _ h => ⟨rfl, rfl, h⟩) fun _ => io_erased
  exact .skip fun scope => .bind (collect_done hremove) fun removed =>
    .pure fun w h hnil => h (append_eq_nil_iff.1 hnil).2

/-! ## The clean-up -/

def Cleaned (stays : Prop) (w : World) : Prop := (Marked true w ∧ Clean w) ∨ (Marked false w ∧ Left stays w)

def Launching (stays : Prop) (w : World) : Prop := Known w ∧ Unmarked w ∧ Lasts stays w.monitor w

theorem forward_launching : Forward (Launching stays) := by
  refine forward_known.and (forward_unmarked.and fun w w' hon h => ?_)
  rw [hon.monitor]
  exact forward_lasts w w' hon h

theorem Launching.discovered (h : Launching stays w) (found : Option Identity) :
    let w' := w.note (.discovered (w.covers found))
    (Marked true w' ∧ Doomed found w') ∨ (Marked false w' ∧ Left stays w') := by
  have hmarked (b : Bool) (hb : w.covers found = b) : Marked b (w.note (.discovered (w.covers found))) := by
    intro c
    rw [World.note, mem_cons, hb]
    simp [h.2.1 c]
  cases hcovers : w.covers found with
  | true => exact .inl ⟨hcovers ▸ hmarked true hcovers, doomed_of_covers h.1 hcovers⟩
  | false =>
    refine .inr ⟨hcovers ▸ hmarked false hcovers, fun hstays => ?_⟩
    obtain ⟨monitor, hmonitor⟩ : ∃ monitor, w.monitor = some monitor := by
      cases hm : w.monitor with
      | none => simp [World.covers, hm] at hcovers
      | some monitor => exact ⟨monitor, rfl⟩
    refine ⟨monitor, hmonitor, ?_, h.2.2 monitor hmonitor hstays⟩
    simp only [World.covers, hmonitor, Option.all_some, Bool.or_eq_false_iff, Bool.not_eq_false'] at hcovers
    exact hcovers.1

theorem stop_discovered_moves : Moves (stop_discovered found) := by
  unfold stop_discovered
  split
  · exact .pure _
  · exact collect_moves (.bind (stop_failed_start_monitor_moves _) fun _ => .pure _)

theorem reconcile_network_off : Spec (fun _ => True) (reconcile_machine_network false) (fun _ w => w.host.network = .none)
    (fun _ _ => True) :=
  .skip fun _ => .modify fun _ _ => rfl

theorem clean_failed_start_cleaned {message : Str} :
    Spec (Launching stays) (clean_failed_start run_id failure monitor message)
      (fun errors w => errors = [] → Cleaned stays w) (fun _ _ => True) := by
  refine .seq (Launching stays) (Moves.spec ?_ forward_launching) fun discovered =>
    .seq (fun w => (Marked true w ∧ Doomed discovered.1 w) ∨ (Marked false w ∧ Left stays w))
    (.modify fun w h => h.discovered discovered.1) fun _ => .or_pre ?_
    (.weaken (Moves.spec ?_ (forward_marked.and forward_left)) (fun _ h => h) (fun _ _ h _ => .inr h)
      fun _ _ _ => trivial)
  · split
    · exact .pure _
    · exact discover_monitor_moves
  swap
  · -- whatever it does, the clean-up does not undo the record or revive the process
    exact .bind stop_discovered_moves fun _ => .ite (.pure _) (.bind (collect_moves
      (reconcile_machine_network_looks false).moves) fun _ => .bind (collect_moves (.bind (.bind
      (transition_moves _) fun _ => .pure _) fun _ => .pure _)) fun _ => .bind .get fun _ =>
      .bind (.ite remove_ephemeral_moves (.pure _)) fun _ => .pure _)
  refine .bind (Q := fun stopped w => Marked true w ∧ (stopped.2 = [] → stopped.1 ∧ Gone w))
    (.err (.and (stop_discovered_moves.spec forward_marked) stop_discovered_gone) fun _ _ _ => trivial)
      fun stopped => ?_
  split
  · rename_i hfalse
    refine .pure fun w h hnil => ?_
    have htrue := (h.2 (append_eq_nil_iff.1 hnil).2).1
    rw [hfalse] at htrue
    cases htrue
  -- Each step keeps what the ones before it have done, and does its own work unless it reports a failure.
  have hgone : Forward fun w => Marked true w ∧ (stopped.2 = [] → Gone w) := forward_marked.and (forward_gone.imp _)
  refine .bind (.pre ((collect_moves (reconcile_machine_network_looks false).moves).and_spec hgone
    (collect_done reconcile_network_off)) fun _ h => ⟨h.1, fun hnil => (h.2 hnil).2⟩) fun network => ?_
  have hoff : Forward fun w => (Marked true w ∧ (stopped.2 = [] → Gone w)) ∧ (network.2 = [] → w.host.network = .none) :=
    hgone.and (forward_off.imp _)
  have hmark : Spec (fun _ => True) (do
      mark_machine_start_failed run_id failure (some message)
      pure true) (fun b w => b ∧ RunEnded w) (fun _ _ => True) :=
    .bind mark_start_failed_ended fun _ => .pure fun _ h => ⟨rfl, h⟩
  refine .bind ((collect_moves (.bind (.bind (transition_moves _) fun _ => .pure _)
    fun _ => .pure _)).and_spec hoff (collect_done hmark)) fun terminal => ?_
  refine .get_bind fun w hw => .bind (Q := fun removed w' => (w'.retention = w.retention ∧
      (Marked true w' ∧ (stopped.2 = [] → Gone w')) ∧ (network.2 = [] → w'.host.network = .none)) ∧
      (terminal.2 = [] → removed = [] → RunEnded w' ∧ (w.retention = .Ephemeral → w'.present = false ∧ w'.trees = false)))
    ?_ fun removed => .pure fun w' h hnil => ?_
  · have hretention : Forward fun w' => w'.retention = w.retention := fun _ _ hon h => hon.retention.trans h
    split
    · refine .weaken (remove_ephemeral_moves.and_spec (hretention.and hoff) remove_ephemeral_erased) ?_
        (fun _ w' h => ⟨h.1, fun _ hnil => ⟨(h.2 hnil).ended, fun _ => (h.2 hnil).2⟩⟩) fun _ _ _ => trivial
      rintro w' rfl
      exact ⟨rfl, hw.1⟩
    · rename_i hkeep
      exact .pure_at ⟨⟨rfl, hw.1⟩, fun hterminal _ => ⟨(hw.2 hterminal).2, fun hephemeral =>
        absurd ⟨(hw.2 hterminal).1, hephemeral⟩ hkeep⟩⟩
  · simp only [append_eq_nil_iff] at hnil
    obtain ⟨⟨⟨⟨-, hstopped⟩, hnetwork⟩, hterminal⟩, hremoved⟩ := hnil
    obtain ⟨⟨hretention, ⟨hmarked, hgone⟩, hoff⟩, hended⟩ := h
    obtain ⟨⟨hstatus, hrun⟩, hephemeral⟩ := hended hterminal hremoved
    exact .inl ⟨hmarked, hstatus, hrun, fun monitor hmonitor => (hgone hstopped monitor hmonitor).2, hoff hnetwork,
      fun he => hephemeral (hretention ▸ he)⟩

/-- The error of a start that failed and was cleaned up. -/
def Failed (stays : Prop) (e : LibVmError) (w : World) : Prop :=
  e ≠ .Killed → (∀ primary cleanup, e ≠ .MachineStartCleanupFailed primary cleanup) → Cleaned stays w

theorem finish_failed_start_failed (e : LibVmError) :
    Spec (Launching stays) (finish_failed_start run_id failure monitor e) (fun (_ : α) _ => False) (Failed stays) := by
  refine .bind .got fun w => ?_
  refine .bind (Q := fun errors w => errors = [] → Cleaned stays w) (.weaken (.and clean_failed_start_cleaned
    (clean_failed_start_unstoppable _ _ _ _)) (fun _ h => ⟨h, trivial⟩) (fun _ _ h => h.1)
    fun _ _ h hkilled => absurd h.2 hkilled) fun errors => ?_
  split
  · rename_i hnil
    exact .fail fun w h _ _ => h hnil
  · exact .fail fun w _ _ hcleanup => absurd rfl (hcleanup _ _)

/-! ## The steps of a start -/

theorem or_fail_failed {P : World → Prop} {Q : α → World → Prop} (h : Spec P m Q (fun _ => Launching stays)) :
    Spec P (or_fail run_id failure monitor m) Q (Failed stays) :=
  or_fail_spec h (fun _ _ hkilled => absurd rfl hkilled) finish_failed_start_failed

def Spawning (stays : Prop) (spawned : Option Identity) (w : World) : Prop := Launching stays w ∧ Lasts stays spawned w

theorem forward_spawning : Forward (Spawning stays spawned) := forward_launching.and forward_lasts

theorem Moves.spawning (hm : Moves m) :
    Spec (Spawning stays spawned) m (fun _ => Spawning stays spawned) (fun _ => Launching stays) :=
  Spec.err (Along.spec hm forward_spawning) fun _ _ h => h.1

theorem step_spawning (hm : Moves m) :
    Spec (Spawning stays spawned) (or_fail run_id failure none m) (fun _ => Spawning stays spawned) (Failed stays) :=
  or_fail_failed (Moves.spawning hm)

theorem prepare_network_spawning : Spec (Spawning stays spawned) prepare_machine_network
    (fun _ => Spawning stays spawned) (fun _ => Launching stays) :=
  .bind (Moves.spawning (reconcile_machine_network_looks false).moves) fun _ => .bind (Moves.spawning io_moves) fun _ =>
    .seq (Spawning stays spawned) (.modify fun _ h => h) fun _ => Moves.spawning io_moves

theorem spawn_launching (run_id : Str) : Spec (Spawning stays spawned) (spawn run_id spawned) (fun _ => Launching stays)
    (fun _ => Launching stays) := by
  refine .bind (Moves.spawning io_moves) fun _ => .get_bind fun w hw => ?_
  split
  · exact .fail_at hw.1
  · rename_i host hhost
    refine .seq (Launching stays) (.modify ?_) fun _ =>
      Spec.bind (Along.spec io_moves forward_launching) fun _ => Spec.bind (Along.spec io_moves forward_launching) fun _ =>
      Along.spec io_moves forward_launching
    rintro w' rfl
    refine ⟨fun monitor hmonitor => ?_, hw.1.2.1, hw.2⟩
    obtain rfl : spawned = some monitor := hmonitor
    simp only [Option.bind_some, HostState.add] at hhost
    split at hhost
    · cases hhost
      exact mem_cons_self
    · cases hhost

theorem resolve_secrets_spawning : Spec (Spawning stays spawned) (do
    let secrets ← resolve_machine_secrets
    reconcile_root_disk_size
    pure secrets) (fun secrets w => secrets.ssh_trusted_ca ∧ Spawning stays spawned w) (fun _ => Launching stays) := by
  have hio : Spec (Spawning stays spawned) io _ _ := Moves.spawning io_moves
  exact .bind (Q := fun secrets w => secrets.ssh_trusted_ca ∧ Spawning stays spawned w)
    (.bind hio fun _ => .bind hio fun _ => .pure fun _ h => ⟨rfl, h⟩) fun secrets =>
    .and_pre fun hca => .bind hio fun _ => .pure fun _ h => ⟨hca, h⟩

theorem mark_ready_launching (monitor : Identity) :
    Spec (Launching stays) (mark_machine_monitor_ready run_id monitor)
      (fun _ w => Unmarked w ∧ w.stored.run_id = some run_id) (fun _ => Launching stays) := by
  have hready : Spec (fun _ => True) (transition_current_machine_state (.MonitorReady run_id monitor.pid monitor.started_at))
      (fun _ w => w.stored.run_id = some run_id) (fun _ _ => True) := by
    refine transition_spec (fun _ _ _ _ => trivial) fun w s next now _ _ hreduce => ?_
    simp only [reduce, monitor_ready, require_state, require_run_id, bind_eq_ok, pure_eq_ok, require_eq_ok] at hreduce
    obtain ⟨_, _, _, _, rfl⟩ := hreduce
    rfl
  exact Spec.seq (fun w => Unmarked w ∧ w.stored.run_id = some run_id) (Spec.weaken (Spec.and
    (Along.spec (transition_moves _) forward_launching) hready) (fun _ h => ⟨h, trivial⟩) (fun _ _ h => ⟨h.1.2.1, h.2⟩)
    fun _ _ h => h.1) fun _ => Spec.done

variable (options : StartOptions)

/-- A start that has been accepted ends with its run stored, or is cleaned up. -/
theorem launch_failed : Spec (Spawning stays options.spawned) (launch options)
    (fun _ w => Unmarked w ∧ w.stored.run_id = some options.run_id) (Failed stays) := by
  refine Spec.bind (or_fail_failed resolve_secrets_spawning) fun secrets => Spec.and_pre fun hca =>
    Spec.bind (or_fail_failed prepare_network_spawning) fun _ =>
    Spec.seq (Spawning stays options.spawned) (Spec.check (fun _ _ h => h) fun hno => absurd hca hno) fun _ =>
    Spec.bind (step_spawning (Along.bind io_moves fun _ => Along.pure _)) fun agent_enabled =>
    Spec.bind (step_spawning Along.check) fun _ => Spec.bind (step_spawning io_moves) fun _ =>
    Spec.bind (or_fail_failed (spawn_launching _)) fun _ =>
    Spec.bind (or_fail_failed (Along.spec read_monitor_pid_looks.moves forward_launching)) fun pid =>
    Spec.bind (or_fail_failed (Along.spec ?_ forward_launching)) fun monitor => or_fail_failed (mark_ready_launching monitor)
  refine Along.bind (probe_moves pid) fun found => ?_
  cases found with
  | some identity => exact Along.pure _
  | none => exact Along.bind Along.get fun _ => Along.fail _

/-! ## The acceptance of a start -/

theorem accept_start_spawning :
    Spec (fun w => Unmarked w ∧ Lasts stays options.spawned w) (accept_start options)
      (fun _ => Spawning stays options.spawned) (fun _ _ => True) := by
  have hP : Forward fun w => Unmarked w ∧ Lasts stays options.spawned w := forward_unmarked.and forward_lasts
  refine .bind (lock_machine_config_looks.moves.spec hP) fun _ => .bind (io_moves.spec hP) fun _ =>
    .bind (acquire_node_state_looks.moves.spec hP) fun _ => .bind (io_moves.spec hP) fun _ =>
    .bind (try_acquire_looks.moves.spec hP) fun acquired => .bind (Moves.spec .check hP) fun _ =>
    .bind (reconcile_moves.spec hP) fun status => .bind ((reconcile_machine_network_looks _).moves.spec hP) fun _ =>
    .bind (Moves.spec .check hP) fun _ => .bind ((transition_moves _).spec hP) fun _ => .modify fun w h => ?_
  refine ⟨⟨nofun, fun covered hmem => ?_, nofun⟩, h.2⟩
  exact h.1 covered ((mem_cons.1 hmem).resolve_left nofun)

def Unaccepted (w : World) : Prop := ∀ run_id, Entry.accepted run_id ∉ w.log

theorem steady_unaccepted : Steady Unaccepted := by
  intro w w' heq h
  rw [Unaccepted, log_eq heq]
  exact h

theorem Unaccepted.note (h : Unaccepted w) {e : Entry} (he : ∀ run_id, e ≠ .accepted run_id) :
    Unaccepted (w.note e) := by
  intro run_id hmem
  exact (mem_cons.1 hmem).elim (fun heq => he run_id heq.symm) (h run_id)

theorem Unaccepted.save (h : Unaccepted w) (writer : Writer) (after : MachineState) :
    Unaccepted { w.note (.saved writer w.stored after w.monitor) with state := some after } := by
  have hnote : Unaccepted (w.note (.saved writer w.stored after w.monitor)) := h.note nofun
  exact hnote

theorem accept_start_unaccepted :
    Spec Unaccepted (accept_start options) (fun _ _ => True) (fun _ => Unaccepted) := by
  refine .post (accept_start_spec steady_unaccepted (.post (reconcile_spec steady_unaccepted
    (fun _ _ h => h.note nofun) (fun _ _ _ h => h.note nofun) fun _ _ h _ _ => h.save _ _) fun _ _ h => h.1)
    (.seq Unaccepted ?_ fun _ => .modify fun _ _ => trivial)) fun _ _ h => h
  exact transition_spec steady_unaccepted fun w _ _ _ h _ _ => h.save _ _

/-- How a start fails: before it was accepted, after its run was stored, or cleaned up. -/
theorem start_with_options_failed :
    Spec (fun w => Unaccepted w ∧ Unmarked w ∧ Lasts stays options.spawned w) (start_with_options options)
      (fun _ _ => True)
      (fun e w => Unaccepted w ∨ (Unmarked w ∧ w.stored.run_id = some options.run_id) ∨ Failed stays e w) := by
  have hready : Steady fun w => Unmarked w ∧ w.stored.run_id = some options.run_id := by
    intro w w' heq h
    refine ⟨?_, (stored_same heq).run_id.symm.trans h.2⟩
    rw [Unmarked, log_eq heq]
    exact h.1
  refine .seq (fun w => Unmarked w ∧ w.stored.run_id = some options.run_id) (releasing_spec
    (.seq (Spawning stays options.spawned) ?_ fun _ => ?_) ?_ ?_) fun _ =>
    .bind (.err (io_looks.spec hready) fun _ _ h => .inr (.inl h)) fun _ =>
    .pure fun _ _ => trivial
  · exact .weaken (.and (accept_start_unaccepted options) (accept_start_spawning options)) (fun _ h => h)
      (fun _ _ h => h.2) fun _ _ h => .inl h.1
  · exact .err (launch_failed options) fun _ _ h => .inr (.inr h)
  · exact fun _ w h => hready w _ rfl h
  · rintro e w (h | h | h)
    · exact .inl h
    · exact .inr (.inl h)
    · refine .inr (.inr fun hkilled hcleanup => ?_)
      rcases h hkilled hcleanup with ⟨hmarked, hclean⟩ | h
      · exact .inl ⟨hmarked, { hclean with }⟩
      · exact .inr h

end Op

/-! ## Every failure -/

/-- A start that was accepted and failed, and whose clean-up reports nothing, leaves no run behind if the clean-up was
reached and the silo-vmm of the start was dead then or was the process it found. Otherwise it does leave one, unless that
silo-vmm exits by itself. -/
theorem failed_start_clean_iff (w : World) (options : Op.StartOptions) (script : List Moment) {w' : World} {e : LibVmError}
    (hrun : Op.start_with_options options { w with script, log := [] } = (.error e, w'))
    (haccepted : Entry.accepted options.run_id ∈ w'.log) (hkilled : e ≠ .Killed)
    (hcleanup : ∀ primary cleanup, e ≠ .MachineStartCleanupFailed primary cleanup) :
    (Entry.discovered true ∈ w'.log → Clean w') ∧
      ((∀ monitor, options.spawned = some monitor → NoExit monitor script) → Clean w' → Entry.discovered true ∈ w'.log) := by
  have hstart : Spec _ _ _ (fun e w => Op.Unaccepted w ∨ (Unmarked w ∧ w.stored.run_id = some options.run_id) ∨
      Op.Failed (∀ monitor, options.spawned = some monitor → NoExit monitor script) e w) :=
    Op.start_with_options_failed options
  have hnew : Op.Unaccepted { w with script, log := [] } ∧ Unmarked { w with script, log := [] } ∧
      Lasts (∀ monitor, options.spawned = some monitor → NoExit monitor script) options.spawned
        { w with script, log := [] } :=
    ⟨nofun, nofun, fun monitor hspawned hstays => hstays monitor hspawned⟩
  rcases hstart.error hnew hrun with h | ⟨hunmarked, hrun_id⟩ | h
  · exact absurd haccepted (h _)
  · refine ⟨fun hmem => absurd hmem (hunmarked _), fun _ hclean => ?_⟩
    rw [hclean.run_id] at hrun_id
    cases hrun_id
  · rcases h hkilled hcleanup with ⟨hmarked, hclean⟩ | ⟨hmarked, hleft⟩
    · exact ⟨fun _ => hclean, fun _ _ => (hmarked true).2 rfl⟩
    · refine ⟨fun hmem => absurd ((hmarked true).1 hmem) (by decide), fun hstays hclean => ?_⟩
      obtain ⟨monitor, hmonitor, halive, -⟩ := hleft hstays
      rw [hclean.monitor monitor hmonitor] at halive
      cases halive

/-- The silo-vmm reports that it could not start, removes its pid file and goes on to exit. -/
def Moment.gives_up (pid : Int) : List Moment :=
  Moment.quiet 21 ++ [⟨[.write_pid pid], 0, .done⟩, ⟨[], 0, .done⟩,
    ⟨[.write_exit pid .Error none, .remove_pid pid], 0, .failed "no kernel".toList⟩]

/-- The start returns the report, with the machine stored as stopped and the silo-vmm alive. -/
theorem given_up_alive :
    let r := Op.start_with_options ⟨['a'], false, false, some ⟨7, 1⟩⟩
      { World.idle ['m'] .Persistent with script := Moment.gives_up 7 }
    r.1 = .error (.Io .Other "no kernel".toList) ∧ Entry.accepted ['a'] ∈ r.2.log ∧ r.2.stored.status = .Stopped ∧
      r.2.monitor = some ⟨7, 1⟩ ∧ r.2.host.is_alive ⟨7, 1⟩ = true := by
  decide +kernel

/-- A silo-vmm that has exited when its report is read leaves nothing behind, nor does its ephemeral machine. -/
theorem given_up_clean :
    let script := Moment.quiet 23 ++ [⟨[.exit 7], 0, .failed "no kernel".toList⟩]
    let r := Op.start_with_options ⟨['a'], false, false, some ⟨7, 1⟩⟩
      { World.idle ['m'] .Ephemeral with script, log := [] }
    r.1 = .error (.Io .Other "no kernel".toList) ∧ Clean r.2 ∧ r.2.present = false := by
  refine ⟨by decide +kernel, (failed_start_clean_iff (e := .Io .Other "no kernel".toList) (World.idle ['m'] .Ephemeral)
    ⟨['a'], false, false, some ⟨7, 1⟩⟩ (Moment.quiet 23 ++ [⟨[.exit 7], 0, .failed "no kernel".toList⟩])
    (Prod.ext (by decide +kernel) rfl) (by decide +kernel) nofun nofun).1
    (by decide +kernel), by decide +kernel⟩

end Silo.Libvm
