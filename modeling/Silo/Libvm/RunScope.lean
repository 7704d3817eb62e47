import Silo.Libvm.CallRules
import Silo.Libvm.Calls
/-!
# Calls about one run

`stop_run` and `kill_run` check the stored run under the machine lock before they signal or
save anything, and a wait saves nothing of its own. `remove_after_run` has only the exit
record to go by, and a run that ends without writing one leaves that of an earlier run.
-/

namespace Silo.Libvm

open List Lib Lib.Run Entry
open Rust (Str)

/-! ## What the calls may do -/

def Entry.by_run (r : Str) : Entry → Prop
  | .signalled _ run_id _ => run_id = some r
  | .saved .call before _ _ => before.run_id = some r
  | .removed _ => False
  | _ => True

def Entry.by_wait : Entry → Prop
  | .signalled _ _ _ | .saved .call _ _ _ | .cleaned _ | .removed _ => False
  | _ => True

/-- All the call has done is `ok`, and a reconciliation has saved only what did not agree with the host. -/
structure Did (ok : Entry → Prop) (w : World) : Prop where
  all : ∀ e ∈ w.log, ok e
  reconciled : ∀ before after monitor, Entry.saved .reconcile before after monitor ∈ w.log →
    Entry.observed before.run_id false ∈ w.log

variable {ok : Entry → Prop} {r : Str}

variable {w : World}

theorem Did.of_log {w' : World} (h : Did ok w) (hlog : w'.log = w.log) : Did ok w' :=
  ⟨hlog ▸ h.all, hlog ▸ h.reconciled⟩

theorem steady_did : Steady (Did ok) := fun _ _ heq h => h.of_log (log_eq heq)

theorem Did.noted (h : Did ok w) {e : Entry} (he : ok e) (hreconciled : ∀ before after monitor,
      e = .saved .reconcile before after monitor → observed before.run_id false ∈ w.log) : Did ok (w.note e) := by
  refine ⟨forall_mem_cons.2 ⟨he, h.all⟩, fun before after monitor hmem => mem_cons_of_mem _ ?_⟩
  rcases mem_cons.1 hmem with heq | hmem
  · exact hreconciled before after monitor heq.symm
  · exact h.reconciled before after monitor hmem

theorem Did.note (h : Did ok w) {e : Entry} (he : ok e)
    (hne : ∀ before after monitor, e ≠ .saved .reconcile before after monitor) : Did ok (w.note e) :=
  h.noted he fun _ _ _ heq => absurd heq (hne _ _ _)

theorem Did.save (h : Did ok w) {after : MachineState} (he : ok (.saved .call w.stored after w.monitor)) :
    Did ok { w.note (.saved .call w.stored after w.monitor) with state := some after } := by
  have hnote : Did ok (w.note (.saved .call w.stored after w.monitor)) := h.note he fun _ _ _ => nofun
  exact hnote.of_log rfl

theorem Did.reconcile (h : Did ok w) {after : MachineState}
    (he : ok (.saved .reconcile w.stored after w.monitor)) (hobserved : observed w.stored.run_id false ∈ w.log) :
    Did ok { w.note (.saved .reconcile w.stored after w.monitor) with state := some after } := by
  refine (h.noted he fun before after' monitor heq => ?_).of_log rfl
  cases heq
  exact hobserved

/-- Looking at the host and saving what it shows is allowed to every call. -/
structure Reconciles (ok : Entry → Prop) : Prop where
  probed : ∀ t, ok (.probed t)
  observed : ∀ run_id agrees, ok (.observed run_id agrees)
  saved : ∀ before after monitor, ok (.saved .reconcile before after monitor)

theorem by_run_reconciles : Reconciles (by_run r) := ⟨fun _ => trivial, fun _ _ => trivial, fun _ _ _ => trivial⟩

theorem by_wait_reconciles : Reconciles by_wait := ⟨fun _ => trivial, fun _ _ => trivial, fun _ _ _ => trivial⟩

namespace Op

theorem reconcile_did (hok : Reconciles ok) :
    Spec (Did ok) reconcile_machine_runtime_locked (fun status w => Did ok w ∧ SameRun status w.stored) (fun _ => Did ok) :=
  reconcile_spec steady_did (fun _ t h => h.note (hok.probed t) fun _ _ _ => nofun)
    (fun _ r b h => h.note (hok.observed r b) fun _ _ _ => nofun)
    fun _ _ h _ hobserved => h.reconcile (hok.saved _ _ _) hobserved

/-! ## Stop and kill -/

def Current (r : Str) (w : World) : Prop := Did (Entry.by_run r) w ∧ w.stored.run_id = some r

theorem steady_current : Steady (Current r) :=
  steady_did.and fun _ _ heq h => (stored_same heq).run_id.symm.trans h

theorem cleanup_did : Preserves (Did (by_run r)) cleanup_machine_resources_locked :=
  cleanup_spec steady_did fun _ h => h.note trivial fun _ _ _ => nofun

theorem mark_stopped_did : Spec (Current r) mark_machine_stopped_and_clean (fun _ => Did (by_run r))
    (fun _ => Did (by_run r)) :=
  mark_machine_stopped_and_clean_spec steady_current steady_did (fun _ h => h.1) (fun _ _ h _ _ _ => h.1.save h.2)
    fun _ h => h.note trivial fun _ _ _ => nofun

theorem signal_did {status : MachineState} (hrun : status.run_id = some r) (identity : Identity) :
    Preserves (WithStatus (Did (by_run r)) status) (signal identity) :=
  signal_spec (steady_did.and (steady_same status)) fun _ h =>
    ⟨h.1.note (h.2.run_id.symm.trans hrun) fun _ _ _ => nofun, h.2⟩

theorem request_stop_did (generation : VmmRunIdentity) :
    Spec (Current r) (request_machine_stop generation) (fun _ => Did (by_run r)) (fun _ => Did (by_run r)) := by
  refine .seq (Did (by_run r)) (.err (transition_spec steady_current
    fun w _ _ _ h _ _ => h.1.save h.2) fun _ _ h => h.1)
    fun _ => .done

/-- A stop is completed only while the run it was asked for is stored. -/
theorem complete_stop_did {generation : VmmRunIdentity} (hrun : generation.run_id = some r) :
    Preserves (Did (by_run r)) (complete_stop_locked generation) := by
  refine .bind (machine_state_spec steady_did) fun state => ?_
  split
  · exact .pure fun _ h => h.1
  split
  · exact .pure fun _ h => h.1
  · rename_i hmatches
    have hcurrent : state.run_id = some r := by
      simp only [Bool.not_eq_false, vmm_run_identity_matches, hrun, Bool.and_eq_true, Option.isNone_some, Bool.false_or,
        decide_eq_true_eq] at hmatches
      exact hmatches.1.1
    refine .weaken (P := Current r) (Q := fun _ => Did (by_run r)) (E := fun _ => Did (by_run r)) ?_
      (fun _ h => ⟨h.1, h.2.run_id.symm.trans hcurrent⟩) (fun _ _ h => h) fun _ _ h => h
    refine .seq (Current r) (.err ((vmm_run_is_alive_looks _).spec steady_current) fun _ _ h => h.1) fun alive => ?_
    split
    · exact .pure fun _ h => h.1
    · refine .bind .got fun w₁ => ?_
      split
      · exact .pure fun _ h => h.1
      · exact .fail fun _ h => h.1
      · refine .seq (Did (by_run r)) (.err (save_spec steady_current
          fun w h => h.1.save h.2) fun _ _ h => h.1) fun _ =>
          .bind cleanup_did fun _ => .done

theorem stop_rules : StopRules (Did (by_run r)) (fun status _ => WithStatus (Did (by_run r)) status) (some r) where
  steady := steady_did
  reconcile := reconcile_did by_run_reconciles
  cleanup := cleanup_did
  mark := fun hrun => .pre mark_stopped_did fun _ h => ⟨h.1, h.2.run_id.symm.trans (hrun r rfl)⟩
  look := fun _ => .err ((monitor_identity_looks _).spec (steady_did.and (steady_same _))) fun _ _ h => h.1
  held := fun _ h => h
  signal := fun identity hrun => .err (signal_did (hrun r rfl) identity) fun _ _ h => h.1
  request := fun hrun _ => .pre (request_stop_did _) fun _ h => ⟨h.1, h.2.run_id.symm.trans (hrun r rfl)⟩
  complete := fun hrun => complete_stop_did (hrun r rfl)

theorem reconcile_by_wait : Preserves (Did by_wait) reconcile_machine_runtime_locked :=
  .post (reconcile_did by_wait_reconciles) fun _ _ h => h.1

/-! ## Remove -/

/-- The machine has not been removed and the exit record has not been read. -/
def Intact (w : World) : Prop := (∀ latest, Entry.removed latest ∉ w.log) ∧ ∀ of_latest, Entry.exit_read of_latest ∉ w.log

def LastExit (r : Str) (w : World) : Prop :=
  (∀ latest, Entry.removed latest ∉ w.log) ∧ Entry.exit_read (some r = w.latest) ∈ w.log ∧
    ∀ of_latest, Entry.exit_read of_latest ∈ w.log → of_latest = decide (some r = w.latest)

def Removed (r : Str) (w : World) : Prop := ∀ latest, Entry.removed latest ∈ w.log →
  (latest = some r ↔ Entry.exit_read false ∉ w.log)

theorem steady_intact : Steady Intact := by
  intro w w' heq h
  rw [Intact, log_eq heq]
  exact h

theorem steady_lastExit : Steady (LastExit r) := by
  intro w w' heq h
  have hlatest : w'.latest = w.latest := congrArg Record.latest heq
  rw [LastExit, log_eq heq, hlatest]
  exact h

theorem steady_removed : Steady (Removed r) := by
  intro w w' heq h
  rw [Removed, log_eq heq]
  exact h

theorem Intact.removed (h : Intact w) : Removed r w := fun latest hmem => absurd hmem (h.1 latest)

theorem LastExit.removed (h : LastExit r w) : Removed r w := fun latest hmem => absurd hmem (h.1 latest)

theorem Intact.note (h : Intact w) {e : Entry} (hremoved : ∀ latest, e ≠ .removed latest)
    (hread : ∀ of_latest, e ≠ .exit_read of_latest) : Intact (w.note e) := by
  refine ⟨fun latest hmem => ?_, fun of_latest hmem => ?_⟩
  · exact (mem_cons.1 hmem).elim (fun heq => hremoved latest heq.symm) (h.1 latest)
  · exact (mem_cons.1 hmem).elim (fun heq => hread of_latest heq.symm) (h.2 of_latest)

theorem reconcile_intact : Preserves Intact reconcile_machine_runtime_locked := by
  refine .post (reconcile_spec steady_intact ?_ ?_ ?_) fun _ _ h => h.1
  · exact fun _ t h => h.note (fun _ => nofun) fun _ => nofun
  · exact fun _ r b h => h.note (fun _ => nofun) fun _ => nofun
  · intro w observed h _ _
    have hnote : Intact (w.note (.saved .reconcile w.stored observed w.monitor)) :=
      h.note (fun _ => nofun) fun _ => nofun
    exact hnote

theorem require_last_exit_spec :
    Spec Intact (require_last_exit (some r)) (fun _ => LastExit r) (fun _ => Removed r) := by
  refine .seq Intact (.err (read_exit_status_looks.spec steady_intact) fun _ w h => h.removed)
    fun _ => ?_
  refine .seq (fun w => (∀ latest, removed latest ∉ w.log) ∧
      exit_read (w.last_exit = w.latest) ∈ w.log ∧
      ∀ of_latest, exit_read of_latest ∈ w.log → of_latest = decide (w.last_exit = w.latest))
    (.modify fun w h => ⟨fun latest hmem => ?_, mem_cons_self, fun of_latest hmem => ?_⟩) fun _ => ?_
  · exact h.1 latest ((mem_cons.1 hmem).resolve_left nofun)
  · rcases mem_cons.1 hmem with heq | hmem
    · cases heq
      rfl
    · exact absurd hmem (h.2 of_latest)
  · refine .get_bind fun w hw => .check_at (fun hlast => ?_) fun _ latest hmem => absurd hmem (hw.1 latest)
    rw [hlast] at hw
    exact hw

theorem remove_records_spec : Spec (LastExit r) remove_machine_records (fun _ => Removed r) (fun _ => Removed r) := by
  refine .bind (.err (io_looks.spec steady_lastExit) fun _ w h => h.removed)
    fun _ => .seq (Removed r) (.modify fun w h latest hmem => ?_) fun _ =>
    io_looks.spec steady_removed
  have hlog : ∀ b, exit_read b ∈ removed w.latest :: w.log ↔ exit_read b ∈ w.log := by
    intro b
    simp
  rcases mem_cons.1 hmem with heq | hmem
  · cases heq
    rw [show ({ w.note (.removed w.latest) with present := false, state := none } : World).log =
      removed w.latest :: w.log from rfl, hlog]
    constructor
    · intro heq hread
      have := h.2.2 false hread
      rw [heq] at this
      simp at this
    · intro hnot
      by_contra hne
      have hread := h.2.1
      rw [decide_eq_false (fun heq => hne heq.symm)] at hread
      exact hnot hread
  · exact absurd hmem (h.1 latest)

theorem remove_impl_spec : Spec Intact (remove_impl (some r)) (fun _ => Removed r) (fun _ => Removed r) := by
  have hreads {α : Type} {m : Op α} (hm : Looks m) : Spec Intact m (fun _ => Intact) (fun _ => Removed r) :=
    .err (hm.spec steady_intact) fun _ w h => h.removed
  have hlate {α : Type} {m : Op α} (hm : Looks m) : Spec (LastExit r) m (fun _ => LastExit r) (fun _ => Removed r) :=
    .err (hm.spec steady_lastExit) fun _ w h => h.removed
  refine .bind (hreads io_looks) fun _ => .bind (hreads .get) fun w => ?_
  split
  · exact .pure fun _ h => h.removed
  · refine .bind (hreads lock_machine_config_looks) fun _ => .bind (hreads io_looks) fun _ =>
      .bind (hreads acquire_node_state_lock_looks) fun _ =>
      .bind (hreads ensure_no_live_vmm_generation_looks) fun _ =>
      .bind (.err reconcile_intact fun _ w h => h.removed) fun status => ?_
    split
    · exact .bind (hreads (require_current_run_looks _ _)) fun _ => .fail fun _ h => h.removed
    · refine .bind require_last_exit_spec fun _ => .seq (LastExit r) ?_ fun _ =>
        .bind (hlate (attempt_along io_looks)) fun scope => .bind (hlate remove_machine_trees_looks) fun _ =>
        .bind remove_records_spec fun _ => ?_
      · refine .err (cleanup_spec steady_lastExit fun w h => ?_) fun _ w h => h.removed
        refine ⟨fun latest hmem => ?_, mem_cons_of_mem _ h.2.1, fun of_latest hmem => ?_⟩
        · exact h.1 latest ((mem_cons.1 hmem).resolve_left nofun)
        · exact h.2.2 of_latest ((mem_cons.1 hmem).resolve_left nofun)
      · split
        · exact .done
        · exact .failed

end Op

/-! ## Every interleaving -/

inductive Call.Scoped (targets : List Target) (r : Str) : Call → (Entry → Prop) → Prop where
  | stop : Scoped targets r (.stop (some r)) (Entry.by_run r)
  | kill : Scoped targets r (.kill (some r)) (Entry.by_run r)
  | wait : Scoped targets r (.wait (some r)) Entry.by_wait
  | poll : Scoped targets r (.poll (some r)) Entry.by_wait
  | finish_stop {n : Nat} {target : WaitTarget} (h : targets[n]? = some (some r, target))
      (hstop : target.stop_requested = true) : Scoped targets r (.finish n) (Entry.by_run r)
  | finish_wait {n : Nat} {target : WaitTarget} (h : targets[n]? = some (some r, target))
      (hwait : target.stop_requested = false) : Scoped targets r (.finish n) Entry.by_wait

def TargetOk : Target → Prop
  | (some r, target) => target.stop_requested → target.generation.run_id = some r
  | (none, _) => True

theorem did_new (w : World) (script : List Moment) : Did ok { w with script, log := [] } :=
  ⟨fun _ h => absurd h not_mem_nil, fun _ _ _ h => absurd h not_mem_nil⟩

theorem scoped_did {targets : List Target} {c : Call} (hc : c.Scoped targets r ok) (htargets : ∀ t ∈ targets, TargetOk t) :
    Preserves (Did ok) (c.op targets) := by
  cases hc with
  | stop => exact .bind Op.stop_rules.stop_impl fun _ => .pure fun _ h => h.1
  | kill => exact .bind Op.stop_rules.kill_impl fun _ => .done
  | wait =>
    exact .bind (Op.active_wait_target_spec steady_did Op.reconcile_by_wait _) fun _ => .pure fun _ h => h.1
  | poll => exact .bind (Op.wait_poll_spec steady_did Op.reconcile_by_wait _) fun _ => .done
  | finish_stop h hstop =>
    rw [Call.op, h]
    refine .bind (Op.wait_for_target_exit_spec steady_did (fun _ => Op.complete_stop_did ?_) ?_ nofun) fun _ => .done
    · exact htargets _ (mem_of_getElem? h) hstop
    · exact .post Op.stop_rules.reconcile fun _ _ h => h.1
  | finish_wait h hwait =>
    rw [Call.op, h]
    refine .bind (Op.wait_for_target_exit_spec steady_did (fun hstop => ?_) Op.reconcile_by_wait nofun) fun _ => .done
    rw [hwait] at hstop
    cases hstop

theorem did_of_call {s : System} {c : Call} (hc : c.Scoped s.targets r ok) (htargets : ∀ t ∈ s.targets, TargetOk t)
    (script : List Moment) : Did ok (c.op s.targets { s.world with script, log := [] }).2 :=
  (scoped_did hc htargets).after (did_new s.world script) rfl

theorem target_ok (targets : List Target) (c : Call) (w : World) (script : List Moment) {t : Target} {w' : World}
    (h : c.op targets { w with script, log := [] } = (.ok (some t), w')) : TargetOk t := by
  have hnone {α : Type} {m : Op α} {w : World} (hrun : (m >>= fun _ => pure none) w = (.ok (some t), w')) :
      TargetOk t := by
    obtain ⟨_, _, -, hpure⟩ := bind_run_ok.1 hrun
    cases hpure
  cases c with
  | stop expected =>
    obtain ⟨target, w₁, hstop, hpure⟩ := bind_run_ok.1 h
    cases target with
    | none => cases hpure
    | some target =>
      cases hpure
      cases expected with
      | none => trivial
      | some r => exact fun _ => ((Op.stop_rules.stop_impl.ok (did_new w script) hstop).2 target rfl).1 r rfl
  | wait expected =>
    obtain ⟨target, w₁, hwait, hpure⟩ := bind_run_ok.1 h
    cases target with
    | none => cases hpure
    | some target =>
      cases hpure
      cases expected with
      | none => trivial
      | some r =>
        have hfalse := ((Op.active_wait_target_spec steady_did Op.reconcile_by_wait _).ok (did_new w script) hwait).2 target rfl
        exact fun htrue => absurd htrue (by rw [hfalse]; exact Bool.false_ne_true)
  | finish n =>
    rw [Call.op] at h
    cases htarget : targets[n]? with
    | none =>
      rw [htarget] at h
      cases h
    | some target =>
      rw [htarget] at h
      exact hnone h
  | start | poll | kill | remove => exact hnone h
  | reconcile =>
    obtain ⟨_, _, -, hrest⟩ := bind_run_ok.1 h
    exact hnone hrest

theorem targets_ok {s : System} {log : List Entry} (h : SystemReaches s log) : ∀ t ∈ s.targets, TargetOk t := by
  induction h with
  | init _ => exact nofun
  | @step s log st _ _ ih =>
    cases st with
    | host e => exact ih
    | call script c =>
      simp only [System.step, System.call]
      split
      · rename_i heq
        exact forall_mem_append.2 ⟨ih, forall_mem_singleton.2 (target_ok _ _ _ _ heq)⟩
      · exact ih

theorem removed_of_call (s : System) (r : Str) (script : List Moment) :
    Op.Removed r ((Call.remove (some r)).op s.targets { s.world with script, log := [] }).2 := by
  have hnew : Op.Intact { s.world with script, log := [] } := ⟨nofun, nofun⟩
  have h : Spec Op.Intact ((Call.remove (some r)).op s.targets) (fun _ => Op.Removed r) (fun _ => Op.Removed r) :=
    .bind Op.remove_impl_spec fun _ => .done
  exact h.after hnew rfl

/-- In every interleaving, a stop or kill of run `r` signals and saves only while `r` is the stored run, and a wait for
it does neither. What the reconciliation at the head of a call saves is of run `r` too, unless another stored run does not
agree with the host. A removal after `r` is one after the latest start exactly if the exit record it reads is of that
start. -/
theorem run_scoped_calls {s : System} {log : List Entry} (h : SystemReaches s log) (r : Str) (script : List Moment) :
    (∀ c ok, c.Scoped s.targets r ok →
      (∀ e ∈ (s.call script c).2, ok e) ∧
        ((∀ run_id, Entry.observed run_id false ∈ (s.call script c).2 → run_id = some r) →
          ∀ writer before after monitor, Entry.saved writer before after monitor ∈ (s.call script c).2 →
            before.run_id = some r)) ∧
      ∀ latest, Entry.removed latest ∈ (s.call script (.remove (some r))).2 →
        (latest = some r ↔ Entry.exit_read false ∉ (s.call script (.remove (some r))).2) := by
  refine ⟨fun c ok hc => ?_, ?_⟩
  · have hdid := did_of_call hc (targets_ok h) script
    rw [System.call_log]
    refine ⟨hdid.all, fun hagrees writer before after monitor hmem => ?_⟩
    cases writer with
    | reconcile => exact hagrees _ (hdid.reconciled before after monitor hmem)
    | call =>
      have hok := hdid.all _ hmem
      cases hc with
      | stop => exact hok
      | kill => exact hok
      | finish_stop _ _ => exact hok
      | wait => exact hok.elim
      | poll => exact hok.elim
      | finish_wait _ _ => exact hok.elim
  · rw [System.call_log]
    exact removed_of_call s r script

/-- A machine ran as `a` until its monitor left an exit record, then as `b` until its monitor died without one. -/
def reran : System := (System.run ⟨World.idle ['m'] .Persistent, [], []⟩ []
  [.call (Moment.reports 7) (.start ⟨['a'], false, false, some ⟨7, 1⟩⟩), .host (.write_exit 7 .Clean none), .host (.exit 7),
    .call [] .reconcile, .call (Moment.reports 8) (.start ⟨['b'], false, false, some ⟨8, 2⟩⟩), .host (.exit 8)]).1

/-- Removing it after `a` removes it after `b`. -/
theorem reran_removed : (∃ log, SystemReaches reran log) ∧
    Entry.removed (some ['b']) ∈ (reran.call [] (.remove (some ['a']))).2 :=
  ⟨⟨_, (SystemReaches.init (idle_new _ _)).run (by decide +kernel)⟩, by decide +kernel⟩

/-- The machine runs as `a`: it is stopped, and not by a stop of `b`. -/
theorem running_scoped :
    let s := (System.run ⟨World.idle ['m'] .Persistent, [], []⟩ []
      [.call (Moment.reports 7) (.start ⟨['a'], false, false, some ⟨7, 1⟩⟩)]).1
    Entry.signalled ⟨7, 1⟩ (some ['a']) (some ⟨7, 1⟩) ∈ (s.call [] (.stop (some ['a']))).2 ∧
      ∀ e ∈ (s.call [] (.stop (some ['b']))).2, e.by_run ['b'] :=
  ⟨by decide +kernel, ((run_scoped_calls ((SystemReaches.init (idle_new ['m'] .Persistent)).run (by decide +kernel))
    ['b'] []).1 _ _ .stop).1⟩

end Silo.Libvm
