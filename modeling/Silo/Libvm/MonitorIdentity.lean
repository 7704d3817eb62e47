import Silo.Libvm.CallRules
import Silo.Libvm.Calls
import Silo.Libvm.MachineRuns
/-!
# The monitor of the latest start

A stored pid comes with the birth time of its process, and a process found again by the
two is the same one. The pid file has no birth time: as long as no other process has taken
the pid it names, every process that is stored or signalled is the silo-vmm of the latest
start.
-/

namespace Silo.Libvm

open List Option Lib Lib.Run
open Rust (Str)

/-- The state names no process, or the silo-vmm of the latest start. -/
def Tracked (s : MachineState) (monitor : Option Identity) : Prop :=
  (s.vmm_pid = none ∧ s.started_at = none) ∨
    ∃ pid started_at, s.vmm_pid = some pid ∧ s.started_at = some started_at ∧ monitor = some ⟨pid, started_at⟩

/-- What is signalled or stored is the silo-vmm of the latest start. -/
def Entry.to_monitor : Entry → Prop
  | .signalled target _ monitor => monitor = some target
  | .saved _ _ after monitor => Tracked after monitor
  | _ => True

/-! ## Transitions -/

def Event.monitor : Event → Option (Int × Option Int)
  | .MonitorReady _ pid started_at => some (pid, some started_at)
  | .MonitorObserved pid started_at _ => some (pid, started_at)
  | .StopRequested pid started_at _ => some (pid, started_at)
  | _ => none

theorem reduce_monitor {s s' : MachineState} {e : Event} {now : Int} (h : reduce s e now = .ok s') :
    s'.vmm_pid = e.monitor.map (·.1) ∧ s'.started_at = e.monitor.bind (·.2) := by
  cases e <;> simp only [reduce, start_requested, monitor_ready, monitor_observed, start_failed, stop_requested,
    stop_completed, exit_observed, monitor_gone, start_timed_out, bind_eq_ok, pure_eq_ok] at h
  -- by the number of checks before the state is written
  case MonitorObserved | ExitObserved | MonitorGone =>
    subst h
    exact ⟨rfl, rfl⟩
  case StartRequested | StartTimedOut =>
    obtain ⟨_, _, rfl⟩ := h
    exact ⟨rfl, rfl⟩
  all_goals
    obtain ⟨_, _, _, _, rfl⟩ := h
    exact ⟨rfl, rfl⟩

/-- An observation stores no process, or the one that lives. -/
theorem observed_monitor {machine_id : Str} {host : Host} {runtime : Option MachineState} {s : MachineState}
    (h : observe_machine_state machine_id host runtime = .ok s) :
    (s.vmm_pid = none ∧ s.started_at = none) ∨ ∃ identity, live_monitor_identity host runtime = some identity ∧
      s.vmm_pid = some identity.pid ∧ s.started_at = identity.started_at := by
  unfold observe_machine_state observation at h
  simp only at h
  split at h
  · rename_i e heq
    have hmonitor := reduce_monitor h
    split at heq
    · cases heq
      exact .inl hmonitor
    · split at heq
      · rename_i identity hlive
        cases heq
        exact .inr ⟨identity, hlive, hmonitor⟩
      · split at heq
        · cases heq
          exact .inl hmonitor
        · split at heq
          · cases heq
          · cases heq
            exact .inl hmonitor
  · cases h
    exact .inl ⟨rfl, rfl⟩

/-! ## Observations -/

variable {identity : Identity} {pid : Int}

theorem for_pid_pid {h : HostState} (hpid : h.for_pid pid = some identity) :
    identity.pid = pid := by
  unfold HostState.for_pid HostState.find at hpid
  obtain ⟨p, hp, rfl⟩ := map_eq_some_iff.1 hpid
  simpa using find?_some hp

variable {w : World}

/-- A pid that can be trusted leads to the silo-vmm of the latest start when no birth time is stored, or the stored one
agrees. -/
theorem monitor_of_trusts (htrust : w.trusts (some pid)) (hpid : w.host.for_pid pid = some identity)
    (hstarted : w.stored.started_at = none ∨ w.stored.started_at = some identity.started_at) :
    w.monitor = some identity := by
  unfold World.trusts at htrust
  rw [bind_some, hpid] at htrust
  simp only [Bool.or_eq_true, decide_eq_true_eq] at htrust
  rcases htrust with h | h
  · exact h
  · rcases hstarted with hs | hs
    · rw [hs] at h
      cases h
    · rw [hs] at h
      simp at h

theorem live_monitor_of_trusts {pid : Option Int} {identity : ProcessIdentity}
    (hlive : live_monitor_identity (w.observed_host pid) w.state = some identity) (htrust : w.trusts pid)
    (htracked : Tracked w.stored w.monitor) :
    ∃ started_at, identity.started_at = some started_at ∧ w.monitor = some ⟨identity.pid, started_at⟩ := by
  unfold live_monitor_identity at hlive
  simp only [findSome?_eq_some_iff] at hlive
  obtain ⟨_, candidate, _, hcandidates, hfound, -⟩ := hlive
  obtain ⟨hpid, hmatches⟩ := filter_eq_some_iff.1 hfound
  obtain ⟨found, hfind, rfl⟩ := map_eq_some_iff.1 hpid
  refine ⟨found.started_at, rfl, ?_⟩
  have hmem : candidate ∈ pid.toList ++
      if w.state.bind (·.vmm_pid) = pid then [] else (w.state.bind (·.vmm_pid)).toList := by
    rw [show pid.toList ++ (if w.state.bind (·.vmm_pid) = pid then [] else (w.state.bind (·.vmm_pid)).toList) = _ from
      hcandidates]
    simp
  have hcases : pid = some candidate ∨ w.stored.vmm_pid = some candidate := by
    rw [stored_vmm_pid]
    rcases mem_append.1 hmem with h | h
    · exact .inl (by simpa using h)
    · split at h
      · cases h
      · exact .inr (by simpa using h)
  rcases htracked with ⟨hno_pid, hno_time⟩ | ⟨p, t, hp, ht, hmonitor⟩
  · -- Nothing is stored: the process is the one the pid file names.
    rcases hcases with rfl | hstored
    · exact monitor_of_trusts htrust hfind (.inl hno_time)
    · rw [hno_pid] at hstored
      cases hstored
  · have hstarted : w.stored.started_at = some found.started_at := by
      rw [stored_vmm_pid] at hp
      rw [stored_started_at] at ht ⊢
      obtain ⟨state, hstate, hp⟩ := bind_eq_some_iff.1 hp
      rw [hstate, bind_some] at ht ⊢
      simpa [hstate, hp, ht, identity_matches_generation, eq_comm] using hmatches
    rcases hcases with rfl | hstored
    · exact monitor_of_trusts htrust hfind (.inr hstarted)
    · rw [hp] at hstored
      cases hstored
      rw [ht] at hstarted
      cases hstarted
      rw [hmonitor, ← for_pid_pid hfind]

/-! ## What a call keeps -/

/-- If every pid of the file could be trusted so far, the stored state and all the call did are about the silo-vmm of the
latest start. -/
def Guarded (w : World) : Prop :=
  Entry.probed false ∉ w.log → Tracked w.stored w.monitor ∧ ∀ e ∈ w.log, e.to_monitor

theorem Tracked.congr {s s' : MachineState} {monitor : Option Identity} (h : Tracked s monitor)
    (hpid : s.vmm_pid = s'.vmm_pid) (hstarted : s.started_at = s'.started_at) : Tracked s' monitor := by
  unfold Tracked at h ⊢
  rwa [← hpid, ← hstarted]

theorem steady_guarded : Steady Guarded := by
  intro w w' heq h htrusted
  have hmonitor : w'.monitor = w.monitor := congrArg Record.monitor heq
  rw [log_eq heq] at htrusted ⊢
  rw [hmonitor]
  exact ⟨(h htrusted).1.congr (stored_same heq).vmm_pid (stored_same heq).started_at, (h htrusted).2⟩

theorem not_mem_of_cons {e : Entry} {log : List Entry} (h : Entry.probed false ∉ e :: log) : Entry.probed false ∉ log :=
  fun hmem => h (mem_cons_of_mem _ hmem)

/-- What the call does and leaves is about the monitor, given that it was so before. -/
theorem Guarded.noted {w w' : World} {e : Entry} (h : Guarded w) (hlog : w'.log = e :: w.log)
    (he : Tracked w.stored w.monitor → Entry.probed false ∉ w.log → e.to_monitor ∧ Tracked w'.stored w'.monitor) :
    Guarded w' := by
  intro htrusted
  rw [hlog] at htrusted ⊢
  obtain ⟨htracked, hall⟩ := h (not_mem_of_cons htrusted)
  obtain ⟨he, htracked'⟩ := he htracked (not_mem_of_cons htrusted)
  exact ⟨htracked', forall_mem_cons.2 ⟨he, hall⟩⟩

theorem Guarded.note {e : Entry} (h : Guarded w) (he : e.to_monitor) : Guarded (w.note e) :=
  h.noted rfl fun htracked _ => ⟨he, htracked⟩

theorem Guarded.save (h : Guarded w) {writer : Writer} {after : MachineState}
    (hafter : Tracked w.stored w.monitor → Entry.probed false ∉ w.log → Tracked after w.monitor) :
    Guarded { w.note (.saved writer w.stored after w.monitor) with state := some after } :=
  h.noted rfl fun htracked htrusted => ⟨hafter htracked htrusted, hafter htracked htrusted⟩

theorem Guarded.save_none (h : Guarded w) {writer : Writer} {after : MachineState}
    (hpid : after.vmm_pid = none) (hstarted : after.started_at = none) :
    Guarded { w.note (.saved writer w.stored after w.monitor) with state := some after } :=
  h.save fun _ _ => .inl ⟨hpid, hstarted⟩

namespace Op

def Holds (status : MachineState) (w : World) : Prop := Guarded w ∧ SameRun status w.stored

theorem steady_holds (status : MachineState) : Steady (Holds status) := steady_guarded.and (steady_same status)

theorem tracked_of_observation {observed : MachineState} (h : Observation observed w)
    (htrusted : Entry.probed false ∉ w.log) (htracked : Tracked w.stored w.monitor) : Tracked observed w.monitor := by
  obtain ⟨w₀, pid, hstate, hmonitor, hprobed, hobserved⟩ := h
  have htrust : w₀.trusts pid := by
    by_contra hfalse
    rw [Bool.not_eq_true] at hfalse
    rw [hfalse] at hprobed
    exact htrusted hprobed
  have htracked₀ : Tracked w₀.stored w₀.monitor := by
    rw [hmonitor]
    exact htracked.congr (by simp [hstate]) (by simp [hstate])
  rcases observed_monitor hobserved with hnone | ⟨identity, hlive, hpid, hstarted⟩
  · exact .inl hnone
  · obtain ⟨started_at, htime, hmon⟩ := live_monitor_of_trusts hlive htrust htracked₀
    exact .inr ⟨identity.pid, started_at, hpid, hstarted.trans htime, hmonitor ▸ hmon⟩

theorem reconcile_guarded :
    Spec Guarded reconcile_machine_runtime_locked (fun status => Holds status) (fun _ => Guarded) :=
  reconcile_spec steady_guarded (fun _ _ h => h.note trivial) (fun _ _ _ h => h.note trivial) fun _ _ h hobserved _ =>
    h.save fun htracked htrusted => tracked_of_observation hobserved htrusted htracked

theorem cleanup_guarded : Preserves Guarded cleanup_machine_resources_locked :=
  cleanup_spec steady_guarded fun _ h => h.note trivial

theorem mark_stopped_guarded : Preserves Guarded mark_machine_stopped_and_clean :=
  mark_machine_stopped_and_clean_spec steady_guarded steady_guarded (fun _ h => h) (fun _ _ h hpid hstarted _ =>
    h.save_none hpid hstarted) fun _ h => h.note trivial

theorem complete_stop_guarded (generation : VmmRunIdentity) :
    Preserves Guarded (complete_stop_locked generation) := by
  refine .bind (machine_state_looks.spec steady_guarded) fun state => ?_
  split
  · exact .done
  split
  · exact .done
  refine .bind ((vmm_run_is_alive_looks _).spec steady_guarded) fun alive => ?_
  split
  · exact .done
  refine .bind .got fun w₁ => ?_
  split
  · exact .done
  · exact .failed
  · rename_i next hreduce
    obtain ⟨hpid, hstarted⟩ := reduce_monitor hreduce
    exact .bind (save_spec steady_guarded fun w h => h.save_none hpid hstarted) fun _ =>
      .bind cleanup_guarded fun _ => .done

/-! ## Stop and kill -/

def Found (status : MachineState) (found : Option Identity) (w : World) : Prop :=
  Holds status w ∧ ∀ identity, found = some identity → Entry.probed false ∉ w.log → w.monitor = some identity

theorem steady_named (found : Option Identity) : Steady fun w =>
    ∀ identity, found = some identity → Entry.probed false ∉ w.log → w.monitor = some identity := by
  intro w w' heq h identity hfound htrusted
  rw [log_eq heq] at htrusted
  rw [show w'.monitor = w.monitor from congrArg Record.monitor heq]
  exact h identity hfound htrusted

theorem steady_found (status : MachineState) (found : Option Identity) : Steady (Found status found) :=
  (steady_holds status).and (steady_named found)

variable {status : MachineState}

theorem Found.guarded {found : Option Identity} (h : Found status found w) :
    Guarded w := h.1.1

theorem monitor_identity_found (hpid : status.vmm_pid = some pid) :
    Spec (Holds status) (monitor_identity (status.generation pid)) (fun found => Found status found)
      (fun _ => Holds status) := by
  refine .bind (io_looks.spec (steady_holds status)) fun _ =>
    .get_bind fun w hw => .pure_at ?_
  refine ⟨hw, fun identity hfound htrusted => ?_⟩
  obtain ⟨hfor, hmatches⟩ := filter_eq_some_iff.1 hfound
  -- The stored run has a pid, so it has the birth time and both are the monitor's.
  rcases (hw.1 htrusted).1 with ⟨hnone, -⟩ | ⟨p, t, hp, ht, hmonitor⟩
  · rw [← hw.2.vmm_pid, hpid] at hnone
    cases hnone
  · rw [← hw.2.vmm_pid, hpid] at hp
    cases hp
    rw [← hw.2.started_at] at ht
    have hstarted : identity.started_at = t := by
      simpa [Identity.matches_generation, MachineState.generation, ht, eq_comm] using hmatches
    rw [hmonitor, ← hstarted, ← show identity.pid = pid from for_pid_pid hfor]

theorem signal_found : Preserves (Found status (some identity)) (signal identity) := by
  refine signal_spec (steady_found _ _) fun w h => ⟨⟨?_, h.1.2⟩, fun identity' hid htrusted =>
    h.2 identity' hid (not_mem_of_cons htrusted)⟩
  exact h.guarded.noted rfl fun htracked htrusted => ⟨h.2 identity rfl htrusted, htracked⟩

theorem request_stop_guarded (hpid : status.vmm_pid = some pid) :
    Spec (Holds status) (request_machine_stop (status.generation pid)) (fun _ => Guarded) (fun _ => Guarded) := by
  refine .seq Guarded (.err (transition_spec (steady_holds status)
    fun w s next now h _ hreduce => h.1.save fun htracked _ => ?_) fun _ _ h => h.1)
    fun _ => .done
  obtain ⟨hnext_pid, hnext_started⟩ := reduce_monitor hreduce
  exact htracked.congr ((h.2.vmm_pid.symm.trans hpid).trans hnext_pid.symm)
    (h.2.started_at.symm.trans hnext_started.symm)

theorem stop_rules_guarded (expected : Option Str) : StopRules Guarded Found expected where
  steady := steady_guarded
  reconcile := reconcile_guarded
  cleanup := cleanup_guarded
  mark := fun _ => .pre mark_stopped_guarded fun _ h => h.1
  look := fun hpid => .err (monitor_identity_found hpid) fun _ _ h => h.1
  held := fun _ h => h.1
  signal := fun _ _ => .weaken signal_found (fun _ h => h) (fun _ _ h => h.1) fun _ _ h => h.guarded
  request := fun _ hpid => request_stop_guarded hpid
  complete := fun _ => complete_stop_guarded _

/-! ## Wait and remove -/

theorem reconcile_guarded' : Preserves Guarded reconcile_machine_runtime_locked :=
  .post reconcile_guarded fun _ _ h => h.1

theorem remove_records_guarded : Preserves Guarded remove_machine_records :=
  .bind (io_looks.spec steady_guarded) fun _ => .bind
    (.modify fun w h => h.noted (e := .removed w.latest) rfl fun _ _ => ⟨trivial, .inl ⟨rfl, rfl⟩⟩) fun _ =>
    io_looks.spec steady_guarded

theorem require_last_exit_guarded (expected : Option Str) : Preserves Guarded (require_last_exit expected) := by
  unfold require_last_exit
  split
  · exact .done
  · exact .bind (read_exit_status_looks.spec steady_guarded) fun _ =>
      .bind (note_spec fun _ h => h.note trivial) fun _ => .bind .got fun w =>
      .checked

theorem remove_impl_guarded (expected : Option Str) : Preserves Guarded (remove_impl expected) := by
  refine .bind (io_looks.spec steady_guarded) fun _ => .bind .got fun w => ?_
  split
  · exact .done
  refine .bind (lock_machine_config_looks.spec steady_guarded) fun _ => .bind (io_looks.spec steady_guarded) fun _ =>
    .bind (acquire_node_state_lock_looks.spec steady_guarded) fun _ =>
    .bind (ensure_no_live_vmm_generation_looks.spec steady_guarded) fun _ =>
    .bind reconcile_guarded' fun status => ?_
  split
  · exact .bind ((require_current_run_looks _ _).spec steady_guarded) fun _ => .failed
  · refine .bind (require_last_exit_guarded expected) fun _ => .bind cleanup_guarded fun _ =>
      .bind (Looks.spec (attempt_along io_looks) steady_guarded) fun scope =>
      .bind (remove_machine_trees_looks.spec steady_guarded) fun _ => .bind remove_records_guarded fun _ => ?_
    split
    · exact .done
    · exact .failed

/-! ## A start that fails -/

def Unnamed (w : World) : Prop := Guarded w ∧ w.stored.vmm_pid = none ∧ w.stored.started_at = none

theorem steady_unnamed : Steady Unnamed := by
  refine steady_guarded.and fun w w' heq h => ?_
  rw [← (stored_same heq).vmm_pid, ← (stored_same heq).started_at]
  exact h

def Aims (found : Option Identity) (w : World) : Prop :=
  Unnamed w ∧ ∀ identity, found = some identity → Entry.probed false ∉ w.log → w.monitor = some identity

theorem steady_aims (found : Option Identity) : Steady (Aims found) := steady_unnamed.and (steady_named found)

theorem Unnamed.aims_none (h : Unnamed w) : Aims none w := ⟨h, nofun⟩

theorem Aims.note {found : Option Identity} (h : Aims found w) (covered : Bool) :
    Aims found (w.note (.discovered covered)) :=
  ⟨⟨h.1.1.note trivial, h.1.2⟩, fun identity hfound htrusted => h.2 identity hfound (not_mem_of_cons htrusted)⟩

theorem probe_aims (pid : Int) : Spec Unnamed (probe pid) (fun found => Aims found) (fun _ => Unnamed) := by
  refine probe_spec steady_unnamed fun w h => ⟨⟨h.1.note trivial, h.2⟩, fun identity hfound htrusted => ?_⟩
  have htrust : w.trusts (some pid) := by
    by_contra hfalse
    rw [Bool.not_eq_true] at hfalse
    rw [hfalse] at htrusted
    exact htrusted mem_cons_self
  exact monitor_of_trusts htrust hfound (.inl h.2.2)

theorem discover_aims : Spec Unnamed discover_monitor (fun r => Aims r.1) (fun _ => Unnamed) := by
  refine .bind (Looks.spec (attempt_along read_monitor_pid_looks) steady_unnamed) fun r => ?_
  split
  · refine .weaken (collect_spec (probe_aims _)) (fun _ h => h) (fun r w h => ?_) fun _ _ h => h.2
    rcases h with ⟨-, h⟩ | ⟨hnone, -, _, h⟩
    · exact h
    · rw [hnone]
      exact h.aims_none
  · exact .pure fun _ h => h.aims_none

theorem signal_aims : Preserves (Aims (some identity)) (signal identity) := by
  refine signal_spec (steady_aims _) fun w h => ⟨⟨?_, h.1.2⟩, fun identity' hid htrusted =>
    h.2 identity' hid (not_mem_of_cons htrusted)⟩
  exact h.1.1.noted rfl fun htracked htrusted => ⟨h.2 identity rfl htrusted, htracked⟩

theorem stop_failed_start_monitor_aims (identity : Identity) :
    Preserves (Aims (some identity)) (stop_failed_start_monitor identity) := by
  have hwait := (wait_for_monitor_stop_looks identity).spec (steady_aims (some identity))
  refine .bind signal_aims fun interrupted => .seq (Aims (some identity)) ?_ fun waited => ?_
  · split
    · exact Looks.spec (attempt_along (wait_for_monitor_stop_looks identity)) (steady_aims _)
    · exact .done
  · split
    · exact .done
    · refine .bind signal_aims fun killed => ?_
      split
      · exact hwait
      · refine .bind signal_aims fun alive => ?_
        split
        · exact hwait
        · exact .done

theorem stop_discovered_unnamed (found : Option Identity) :
    Spec (Aims found) (stop_discovered found) (fun _ => Unnamed) (fun _ => Unnamed) := by
  unfold stop_discovered
  split
  · exact .pure fun _ h => h.1
  · rename_i monitor
    exact .weaken (collect_preserves (.bind (stop_failed_start_monitor_aims monitor) fun _ => .done))
      (fun _ h => h) (fun _ _ h => h.1) fun _ _ h => h.1

theorem transition_guarded {event : Event} (hevent : event.monitor = none) :
    Spec Guarded (transition_current_machine_state event) (fun _ => Unnamed) (fun _ => Guarded) := by
  refine transition_spec steady_guarded fun w s next now h _ hreduce => ?_
  obtain ⟨hpid, hstarted⟩ := reduce_monitor hreduce
  rw [hevent] at hpid hstarted
  exact ⟨h.save_none hpid hstarted, hpid, hstarted⟩

theorem remove_ephemeral_guarded : Preserves Guarded remove_ephemeral :=
  .bind (collect_preserves (io_looks.spec steady_guarded)) fun _ => .bind
    (collect_preserves (.bind cleanup_guarded fun _ => .bind (remove_machine_trees_looks.spec steady_guarded) fun _ =>
      remove_records_guarded)) fun _ => .done

theorem clean_failed_start_guarded (run_id : Str) (failure : StartFailure) (monitor : Option Identity) (message : Str) :
    Spec (Aims monitor) (clean_failed_start run_id failure monitor message) (fun _ => Guarded) (fun _ => Guarded) := by
  refine .bind (Q := fun r => Aims r.1) ?_ fun discovered => .seq (Aims discovered.1)
    (.modify fun w h => h.note _) fun _ => .seq Guarded
      (.weaken (stop_discovered_unnamed _) (fun _ h => h) (fun _ _ h => h.1) fun _ _ h => h.1) fun stopped => ?_
  · split
    · exact .pure fun _ h => h
    · exact .weaken discover_aims (fun _ h => h.1) (fun _ _ h => h) fun _ _ h => h.1
  · split
    · exact .done
    · refine .bind (collect_preserves ((reconcile_machine_network_looks false).spec steady_guarded)) fun network =>
        .bind (collect_preserves (.bind (.bind (.weaken (transition_guarded rfl) (fun _ h => h)
          (fun _ _ h => h.1) fun _ _ h => h) fun _ => .done) fun _ => .done))
        fun terminal => .bind .got fun w =>
        .seq Guarded ?_ fun _ => .done
      split
      · exact remove_ephemeral_guarded
      · exact .done

theorem finish_failed_start_guarded {run_id : Str} {failure : StartFailure} {monitor : Option Identity} (e : LibVmError) :
    Spec (Aims monitor) (finish_failed_start run_id failure monitor e) (fun (_ : α) _ => False) (fun _ => Guarded) := by
  refine .seq (Aims monitor) (.get fun _ h => h) fun w =>
    .bind (clean_failed_start_guarded _ _ _ _) fun errors => ?_
  split
  · exact .failed
  · exact .failed

/-! ## Start -/

theorem or_fail_unnamed {run_id : Str} {failure : StartFailure} {m : Op α} {Q : α → World → Prop}
    (h : Spec Unnamed m Q (fun _ => Unnamed)) : Spec Unnamed (or_fail run_id failure none m) Q (fun _ => Guarded) :=
  or_fail_spec h (fun _ h => h.1) fun e => .pre (finish_failed_start_guarded e) fun _ h => h.aims_none

theorem spawn_unnamed (run_id : Str) (spawned : Option Identity) : Preserves Unnamed (spawn run_id spawned) := by
  refine .bind (io_looks.spec steady_unnamed) fun _ => .bind .got fun w => ?_
  split
  · exact .failed
  · refine .seq Unnamed (.modify fun w h => ?_) fun _ =>
      .bind (io_looks.spec steady_unnamed) fun _ => .bind (io_looks.spec steady_unnamed) fun _ =>
      io_looks.spec steady_unnamed
    -- The new silo-vmm is the latest start's, and nothing is stored of the one before.
    exact ⟨fun htrusted => ⟨.inl h.2, (h.1 htrusted).2⟩, h.2⟩

theorem monitor_identity_for_pid_aims (pid : Int) :
    Spec Unnamed (monitor_identity_for_pid pid) (fun identity => Aims (some identity)) (fun _ => Unnamed) := by
  refine .bind (probe_aims pid) fun found => ?_
  split
  · exact .pure fun _ h => h
  · exact .seq Unnamed (.get fun _ h => h.1) fun _ => .failed

theorem mark_ready_guarded {run_id : Str} (monitor : Identity) :
    Spec (Aims (some monitor)) (mark_machine_monitor_ready run_id monitor) (fun _ => Guarded)
      (fun _ => Aims (some monitor)) := by
  refine .seq Guarded (transition_spec (steady_aims _) fun w s next now h _ hreduce => ?_) fun _ =>
    .done
  obtain ⟨hpid, hstarted⟩ := reduce_monitor hreduce
  exact h.1.1.save fun _ htrusted => .inr ⟨monitor.pid, monitor.started_at, hpid, hstarted, h.2 monitor rfl htrusted⟩

theorem launch_guarded (options : StartOptions) :
    Spec Unnamed (launch options) (fun _ => Guarded) (fun _ => Guarded) := by
  have hreads {β : Type} {m : Op β} (hm : Looks m) : Preserves Unnamed m :=
    hm.spec steady_unnamed
  refine .bind (or_fail_unnamed (hreads (.bind (.bind io_looks fun _ => .bind io_looks fun _ =>
      .pure _) fun _ => .bind io_looks fun _ => .pure _))) fun secrets =>
    Spec.bind (or_fail_unnamed (Keeps.spec prepare_machine_network_reads steady_unnamed)) fun _ =>
    .seq Unnamed (.check (fun _ _ h => h) fun _ _ h => h.1) fun _ =>
    .bind (or_fail_unnamed (hreads (.bind io_looks fun _ => .pure _))) fun agent_enabled =>
    .bind (or_fail_unnamed (hreads .check)) fun _ =>
    .bind (or_fail_unnamed (hreads io_looks)) fun _ =>
    .bind (or_fail_unnamed (spawn_unnamed _ _)) fun _ =>
    .bind (or_fail_unnamed (hreads read_monitor_pid_looks)) fun pid =>
    .bind (or_fail_unnamed (monitor_identity_for_pid_aims pid)) fun monitor =>
    or_fail_spec (mark_ready_guarded monitor) (fun _ h => h.1.1) fun e => finish_failed_start_guarded e

theorem accept_start_unnamed (options : StartOptions) :
    Spec Guarded (accept_start options) (fun _ => Unnamed) (fun _ => Guarded) := by
  refine accept_start_spec steady_guarded reconcile_guarded' (.bind (transition_guarded rfl) fun _ =>
    .modify fun w h => ⟨?_, h.2⟩)
  exact h.1.noted rfl fun _ _ => ⟨trivial, .inl h.2⟩

theorem start_with_options_guarded (options : StartOptions) : Preserves Guarded (start_with_options options) := by
  refine .seq Guarded (releasing_spec (.bind (accept_start_unnamed options) fun _ =>
    launch_guarded options) ?_ ?_) fun _ => .bind (io_looks.spec steady_guarded) fun _ => .done
  · exact fun _ w h => steady_guarded w _ rfl h
  · exact fun _ w h => steady_guarded w _ rfl h

end Op

/-! ## Every interleaving -/

theorem call_guarded (targets : List Target) (c : Call) : Preserves Guarded (c.op targets) := by
  cases c with
  | start options => exact .bind (Op.start_with_options_guarded options) fun _ => .done
  | stop expected => exact .bind (Op.stop_rules_guarded expected).stop_impl fun _ => .pure fun _ h => h.1
  | kill expected => exact .bind (Op.stop_rules_guarded expected).kill_impl fun _ => .done
  | wait expected =>
    exact .bind (Op.active_wait_target_spec steady_guarded Op.reconcile_guarded' expected) fun _ =>
      .pure fun _ h => h.1
  | poll expected => exact .bind (Op.wait_poll_spec steady_guarded Op.reconcile_guarded' expected) fun _ => .done
  | finish n =>
    rw [Call.op]
    cases targets[n]? with
    | none => exact .done
    | some target =>
      exact .bind (Op.wait_for_target_exit_spec steady_guarded (fun _ => Op.complete_stop_guarded _)
        Op.reconcile_guarded' fun _ => Op.cleanup_guarded) fun _ => .done
  | remove expected => exact .bind (Op.remove_impl_guarded expected) fun _ => .done
  | reconcile =>
    exact .bind (Op.lock_machine_config_looks.spec steady_guarded) fun _ => .bind Op.reconcile_guarded' fun _ =>
      .done

theorem guarded_of_call (s : System) (script : List Moment) (c : Call) (h : Tracked s.world.stored s.world.monitor)
    (htrusted : Entry.probed false ∉ (s.call script c).2) :
    Tracked (s.call script c).1.world.stored (s.call script c).1.world.monitor ∧
      ∀ e ∈ (s.call script c).2, e.to_monitor := by
  have hnew : Guarded { s.world with script, log := [] } :=
    fun _ => ⟨h.congr (by simp) (by simp), fun _ h => absurd h not_mem_nil⟩
  have hrun := call_guarded s.targets c _ hnew
  unfold System.call at htrusted ⊢
  generalize c.op s.targets { s.world with script, log := [] } = r at hrun htrusted
  obtain ⟨_ | _ | _, w⟩ := r <;> exact hrun htrusted

/-- In every interleaving in which no other process had the pid of the pid file where a call looked it up and the stored
birth time did not tell, every process that is stored or signalled is the silo-vmm of the latest start. -/
theorem only_monitor_signalled {s : System} {log : List Entry} (h : SystemReaches s log)
    (htrusted : Entry.probed false ∉ log) :
    Tracked s.world.stored s.world.monitor ∧ ∀ e ∈ log, e.to_monitor := by
  induction h with
  | @init w h =>
    obtain ⟨now, hstate⟩ := h.state
    exact ⟨.inl (by simp [hstate, stopped_machine_state]), fun _ h => absurd h not_mem_nil⟩
  | @step s log st _ _ ih =>
    obtain ⟨htracked, hall⟩ := ih fun hmem => htrusted (mem_append_right _ hmem)
    cases st with
    | host e => exact ⟨htracked.congr (by simp [System.step]) (by simp [System.step]), hall⟩
    | call script c =>
      obtain ⟨htracked, hnew⟩ := guarded_of_call s script c htracked fun hmem => htrusted (mem_append_left _ hmem)
      exact ⟨htracked, forall_mem_append.2 ⟨hnew, hall⟩⟩

/-- A machine that is stopped while another process has started: only its monitor is signalled. -/
theorem stopped_signalled :
    let log := (System.run ⟨World.idle ['m'] .Persistent, [], []⟩ [] [.call (Moment.reports 7)
      (.start ⟨['a'], false, false, some ⟨7, 1⟩⟩), .host (.spawn ⟨8, 2⟩), .call [] (.stop none)]).2
    Entry.signalled ⟨7, 1⟩ (some ['a']) (some ⟨7, 1⟩) ∈ log ∧ ∀ e ∈ log, e.to_monitor :=
  ⟨by decide +kernel, (only_monitor_signalled ((SystemReaches.init (idle_new ['m'] .Persistent)).run (by decide +kernel))
    (by decide +kernel)).2⟩

/-- A machine runs, its monitor dies and leaves the pid file, another process takes the pid, and the machine is stopped. -/
def reused : List System.Step :=
  [.call (Moment.reports 7) (.start ⟨['a'], false, false, some ⟨7, 1⟩⟩), .host (.exit 7), .call [] .reconcile,
    .host (.spawn ⟨7, 9⟩), .call [] (.stop none)]

theorem reused_signalled : ∃ s log, SystemReaches s log ∧
    Entry.signalled ⟨7, 9⟩ none (some ⟨7, 1⟩) ∈ log ∧
    ∃ before after, Entry.saved .reconcile before after (some ⟨7, 1⟩) ∈ log ∧
      after.vmm_pid = some 7 ∧ after.started_at = some 9 :=
  ⟨_, _, (SystemReaches.init (idle_new ['m'] .Persistent)).run
      (show System.EnabledRun ⟨World.idle ['m'] .Persistent, [], []⟩ reused by decide +kernel), by decide +kernel,
    ⟨['m'], .Stopped, none, none, none, none, 0⟩, ⟨['m'], .Running, some 7, some 9, none, none, 0⟩, by decide +kernel,
    rfl, rfl⟩

end Silo.Libvm
