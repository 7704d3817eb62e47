import Silo.Libvm.Lifecycle
/-!
# How the host moves on

Whatever happens where a call waits, a process that has exited stays dead, since no other
process is ever the same one, and one that has not exited stays alive. All that a call
does besides spawning a silo-vmm keeps to this too.
-/

namespace Silo.Libvm

open List Lib Lib.Run HostState
open Rust (Str)

def NoExit (identity : Identity) (script : List Moment) : Prop := ∀ m ∈ script, HostEvent.exit identity.pid ∉ m.events

/-! ## Events of the host -/

namespace HostState

variable {h : HostState} {machine_id : MachineId} {identity : Identity}

theorem apply_cases (h : HostState) (machine_id : MachineId) (e : HostEvent) :
    ((h.apply machine_id e).processes = h.processes ∧ (h.apply machine_id e).seen = h.seen) ∨
    (∃ p : Process, p.identity ∉ h.seen ∧ (h.apply machine_id e).processes = p :: h.processes ∧
      (h.apply machine_id e).seen = p.identity :: h.seen) ∨
    ∃ pid, e = .exit pid ∧ (h.apply machine_id e).processes = h.processes.filter (·.identity.pid ≠ pid) ∧
      (h.apply machine_id e).seen = h.seen := by
  cases e with
  | spawn identity =>
    simp only [apply, add]
    split
    · rename_i hfree
      exact .inr (.inl ⟨⟨identity, none, none⟩, hfree.2.2, rfl, rfl⟩)
    · exact .inl ⟨rfl, rfl⟩
  | exit pid => exact .inr (.inr ⟨pid, rfl, rfl, rfl⟩)
  | truncate_pid | write_pid | remove_pid | write_exit =>
    simp only [apply]
    split <;> exact .inl ⟨rfl, rfl⟩
  | network_dies | node_state => exact .inl ⟨rfl, rfl⟩

theorem is_alive_iff : h.is_alive identity ↔ ∃ p ∈ h.processes, p.identity = identity := by
  simp [is_alive]

theorem seen_apply (e : HostEvent) (hseen : identity ∈ h.seen) : identity ∈ (h.apply machine_id e).seen := by
  rcases apply_cases h machine_id e with ⟨-, heq⟩ | ⟨p, -, -, heq⟩ | ⟨pid, -, -, heq⟩
  · rwa [heq]
  · rw [heq]
    exact mem_cons_of_mem _ hseen
  · rwa [heq]

theorem dead_apply (e : HostEvent) (hseen : identity ∈ h.seen) (hdead : h.is_alive identity = false) :
    (h.apply machine_id e).is_alive identity = false := by
  rw [← Bool.not_eq_true, is_alive_iff] at hdead ⊢
  rintro ⟨q, hq, heq⟩
  rcases apply_cases h machine_id e with ⟨hsame, -⟩ | ⟨p, hnew, hcons, -⟩ | ⟨pid, -, hfilter, -⟩
  · exact hdead ⟨q, hsame ▸ hq, heq⟩
  · rcases mem_cons.1 (hcons ▸ hq) with rfl | hq
    · exact hnew (heq ▸ hseen)
    · exact hdead ⟨q, hq, heq⟩
  · exact hdead ⟨q, (mem_filter.1 (hfilter ▸ hq)).1, heq⟩

theorem alive_apply {e : HostEvent} (he : e ≠ .exit identity.pid) (halive : h.is_alive identity) :
    (h.apply machine_id e).is_alive identity := by
  rw [is_alive_iff] at halive ⊢
  obtain ⟨q, hq, rfl⟩ := halive
  rcases apply_cases h machine_id e with ⟨hsame, -⟩ | ⟨p, -, hcons, -⟩ | ⟨pid, rfl, hfilter, -⟩
  · exact ⟨q, hsame ▸ hq, rfl⟩
  · exact ⟨q, hcons ▸ mem_cons_of_mem _ hq, rfl⟩
  · refine ⟨q, hfilter ▸ mem_filter.2 ⟨hq, ?_⟩, rfl⟩
    simpa using fun heq => he (by rw [heq])

theorem network_apply (e : HostEvent) (hnone : h.network = .none) : (h.apply machine_id e).network = .none := by
  cases e with
  | spawn identity =>
    simp only [apply, add]
    split <;> exact hnone
  | truncate_pid | write_pid | remove_pid | write_exit =>
    simp only [apply]
    split <;> exact hnone
  | network_dies => simp [apply, hnone]
  | exit | node_state => exact hnone

end HostState

/-! ## Moving on -/

structure Onward (w w' : World) : Prop where
  seen : ∀ identity ∈ w.host.seen, identity ∈ w'.host.seen
  dead : ∀ identity ∈ w.host.seen, w.host.is_alive identity = false → w'.host.is_alive identity = false
  alive : ∀ identity, w.host.is_alive identity → NoExit identity w.script → w'.host.is_alive identity
  script : ∀ m ∈ w'.script, m ∈ w.script
  /-- A network that was taken down stays down. -/
  network : w.host.network = .none → w'.host.network = .none
  monitor : w'.monitor = w.monitor
  retention : w'.retention = w.retention
  log : ∃ noted, w'.log = noted ++ w.log ∧ ∀ covered, Entry.discovered covered ∉ noted

theorem Onward.refl (w : World) : Onward w w :=
  ⟨fun _ h => h, fun _ _ h => h, fun _ h _ => h, fun _ h => h, fun h => h, rfl, rfl, [], rfl, nofun⟩

theorem Onward.trans {w₁ w₂ w₃ : World} (h : Onward w₁ w₂) (h' : Onward w₂ w₃) : Onward w₁ w₃ where
  seen := fun i hi => h'.seen i (h.seen i hi)
  dead := fun i hi hd => h'.dead i (h.seen i hi) (h.dead i hi hd)
  alive := fun i hi hno => h'.alive i (h.alive i hi hno) fun m hm => hno m (h.script m hm)
  script := fun m hm => h.script m (h'.script m hm)
  network := fun hnone => h'.network (h.network hnone)
  monitor := h'.monitor.trans h.monitor
  retention := h'.retention.trans h.retention
  log := by
    obtain ⟨noted, heq, hno⟩ := h.log
    obtain ⟨noted', heq', hno'⟩ := h'.log
    exact ⟨noted' ++ noted, by rw [heq', heq, append_assoc], fun covered hmem =>
      (mem_append.1 hmem).elim (hno' covered) (hno covered)⟩

theorem Onward.of_same {w w' : World} (hlog : ∃ noted, w'.log = noted ++ w.log ∧ ∀ covered, Entry.discovered covered ∉ noted)
    (hprocesses : w'.host.processes = w.host.processes := by rfl) (hseen : w'.host.seen = w.host.seen := by rfl)
    (hnetwork : w.host.network = .none → w'.host.network = .none := by exact fun h => h)
    (hscript : w'.script = w.script := by rfl) (hmonitor : w'.monitor = w.monitor := by rfl)
    (hretention : w'.retention = w.retention := by rfl) : Onward w w' := by
  have halive (i : Identity) : w'.host.is_alive i = w.host.is_alive i := by rw [is_alive, hprocesses]; rfl
  refine ⟨fun i hi => hseen ▸ hi, fun i _ hd => (halive i).trans hd, fun i ha _ => (halive i).trans ha, ?_, hnetwork,
    hmonitor, hretention, hlog⟩
  rw [hscript]
  exact fun _ h => h

instance : IsPreorder World Onward where
  refl := Onward.refl
  trans _ _ _ := Onward.trans

def Forward (P : World → Prop) : Prop := ∀ w w', Onward w w' → P w → P w'

theorem Forward.and {P P' : World → Prop} (h : Forward P) (h' : Forward P') : Forward fun w => P w ∧ P' w :=
  fun w w' hon hw => ⟨h w w' hon hw.1, h' w w' hon hw.2⟩

theorem Forward.imp {P : World → Prop} (p : Prop) (h : Forward P) : Forward fun w => p → P w :=
  fun w w' hon hw hp => h w w' hon (hw hp)

variable {α : Type} {m : Op α} {P : World → Prop}

abbrev Moves (m : Op α) : Prop := Along Onward m

theorem Moves.spec (hm : Moves m) (hP : Forward P) :
    Spec P m (fun _ => P) (fun _ _ => True) :=
  Spec.err (Along.spec hm hP) fun _ _ _ => trivial

/-- What a call does besides, it does to a state that has moved on. -/
theorem Moves.and_spec {Q : α → World → Prop} (hm : Moves m) (hP : Forward P)
    (h : Spec (fun _ => True) m Q fun _ _ => True) : Spec P m (fun a w => P w ∧ Q a w) fun _ _ => True :=
  .weaken (.and (hm.spec hP) h) (fun _ h => ⟨h, trivial⟩) (fun _ _ h => h) fun _ _ _ => trivial

namespace Op

theorem attempt_along {T : World → World → Prop} (h : Along T m) : Along T (attempt m) := by
  intro w
  have hw := h w
  unfold attempt
  generalize m w = r at hw
  obtain ⟨e | a, w'⟩ := r
  · cases e <;> exact hw
  · exact hw

theorem io_moves : Moves io := by
  intro w
  unfold io
  cases hscript : w.script with
  | nil => exact Onward.refl w
  | cons m rest =>
    have hon : Onward w { w with
        host := m.events.foldl (apply w.machine_id) w.host, now := m.now, script := rest } := by
      refine ⟨fun i hi => ?_, fun i hi hd => ?_, fun i ha hno => ?_, fun m' hm => ?_,
        fun hn => ?_, rfl, rfl, [], rfl, nofun⟩
      · exact foldlRecOn (motive := fun h : HostState => i ∈ h.seen) _ _ hi fun _ hi e _ => seen_apply e hi
      · exact (foldlRecOn (motive := fun h : HostState => i ∈ h.seen ∧ h.is_alive i = false) _ _ ⟨hi, hd⟩ fun _ hh e _ =>
          ⟨seen_apply e hh.1, dead_apply e hh.1 hh.2⟩).2
      · refine foldlRecOn (motive := fun h : HostState => h.is_alive i) _ _ ha fun h ha e he => ?_
        refine alive_apply (fun heq => ?_) ha
        exact hno m (hscript ▸ mem_cons_self) (heq ▸ he)
      · exact hscript ▸ mem_cons_of_mem _ hm
      · exact foldlRecOn (motive := fun h : HostState => h.network = .none) _ _ hn fun _ hn e _ =>
          network_apply e hn
    obtain ⟨events, now, outcome⟩ := m
    cases outcome <;> exact hon

theorem noted_once {e : Entry} (h : ∀ covered, e ≠ .discovered covered) (log : List Entry) :
    ∃ noted, e :: log = noted ++ log ∧ ∀ covered, Entry.discovered covered ∉ noted :=
  ⟨[e], rfl, fun covered hmem => h covered (mem_singleton.1 hmem).symm⟩

theorem note_moves {e : World → Entry} (h : ∀ w covered, e w ≠ .discovered covered) : Moves (note e) := fun w =>
  .of_same (noted_once (h w) _)

theorem save_moves (writer : Writer) (after : MachineState) : Moves (save writer after) :=
  .bind io_moves fun _ _ =>
    .of_same (noted_once (fun _ heq => by cases heq) _)

end Op

end Silo.Libvm
