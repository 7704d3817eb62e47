import Mathlib.Logic.Function.Basic
import Silo.Libvm.MachineLocks
/-!
# At most one holder of a machine's lock

A number is reserved by a create in progress, by a record, or by a removal that has
deleted its record and not yet the file; it has one reserver at a time and its file
stays at its path meanwhile. A call that opened an older file is turned away by its
second lookup, because the record it resolved is gone for good.
-/

namespace Silo.Libvm

open List Lib.AssocMap Lib

/-! ## The invariant -/

def Task.Ok (dir : LockDir) (records : AssocMap MachineId LockId) : Task → Prop
  | .allocating machine _ => records.get? machine = none
  | .creating machine lock_id => records.get? machine = none ∧ (dir.files.get? lock_id).isSome
  | .resolved _ _ => True
  | .opened machine lock_id file | .locked machine lock_id file =>
    records.get? machine = some lock_id → dir.files.get? lock_id = some file
  | .guard machine lock_id file .none => records.get? machine = some lock_id ∧ dir.files.get? lock_id = some file
  | .guard machine lock_id file .records => records.get? machine = none ∧ dir.files.get? lock_id = some file
  | .guard machine _ _ .freed => records.get? machine = none

variable {a : Task}

variable {records : AssocMap MachineId LockId}

theorem Task.Ok.unrecorded {dir : LockDir} (h : a.Ok dir records)
    (hc : a.is_create) : records.get? a.machine = none := by
  cases a with
  | allocating machine raw_id => exact h
  | creating machine lock_id => exact h.1
  | _ => cases hc

/-- A task keeps what it counts on under changes that leave its machine's record and the files of its numbers alone. -/
theorem Task.Ok.mono {dir dir' : LockDir} {records' : AssocMap MachineId LockId} (h : a.Ok dir records)
    (hnone : records.get? a.machine = none → records'.get? a.machine = none)
    (hback : ∀ l, records'.get? a.machine = some l → records.get? a.machine = some l)
    (hkept : a.is_guard → ∀ l, records.get? a.machine = some l → records'.get? a.machine = some l)
    (hfiles : ∀ l f, a.reserves = some l ∨ records.get? a.machine = some l → dir.files.get? l = some f →
      dir'.files.get? l = some f) : a.Ok dir' records' := by
  cases a with
  | allocating machine raw_id => exact hnone h
  | creating machine l =>
    obtain ⟨f, hf⟩ := Option.isSome_iff_exists.1 h.2
    exact ⟨hnone h.1, Option.isSome_iff_exists.2 ⟨f, hfiles l f (.inl rfl) hf⟩⟩
  | resolved machine l => trivial
  | opened machine l f | locked machine l f => exact fun hm => hfiles l f (.inr (hback l hm)) (h (hback l hm))
  | guard machine l f removal =>
    cases removal with
    | none => exact ⟨hkept rfl l h.1, hfiles l f (.inr h.1) h.2⟩
    | records => exact ⟨hnone h.1, hfiles l f (.inl rfl) h.2⟩
    | freed => exact hnone h

structure Task.Apart (a b : Task) : Prop where
  reserves : ∀ lock_id, a.reserves = some lock_id → b.reserves ≠ some lock_id
  machine : a.is_create ∨ b.is_create → a.machine ≠ b.machine
  flock : ∀ file, a.flock = some file → b.flock ≠ some file
  guards : a.is_guard → b.is_guard → a.machine ≠ b.machine

theorem Task.Apart.symm {a b : Task} (h : a.Apart b) : b.Apart a where
  reserves := fun lock_id hb ha => h.reserves lock_id ha hb
  machine := fun hc => (h.machine hc.symm).symm
  flock := fun file hb ha => h.flock file ha hb
  guards := fun hb ha => (h.guards ha hb).symm

structure LockInv (dir : LockDir) (records : AssocMap MachineId LockId) (drawn : List MachineId)
    (tasks : Nat → Option Task) : Prop where
  ok : ∀ t a, tasks t = some a → a.machine ∈ drawn ∧ a.Ok dir records
  apart : ∀ t t' a b, t ≠ t' → tasks t = some a → tasks t' = some b → a.Apart b
  record : ∀ machine lock_id, records.get? machine = some lock_id →
    machine ∈ drawn ∧ (dir.files.get? lock_id).isSome ∧ ∀ t a, tasks t = some a → a.reserves ≠ some lock_id
  distinct : ∀ machine machine' lock_id, records.get? machine = some lock_id → records.get? machine' = some lock_id →
    machine = machine'

section Steps

variable {dir : LockDir} {records : AssocMap MachineId LockId} {drawn : List MachineId} {tasks : Nat → Option Task}
  {t : Nat} {a : Task} {machine : MachineId} {lock_id : LockId}

theorem update_some {t' : Nat} {o : Option Task} {b : Task} (h : Function.update tasks t o t' = some b) :
    (t' = t ∧ o = some b) ∨ (t' ≠ t ∧ tasks t' = some b) := by
  by_cases heq : t' = t
  · subst heq
    rw [Function.update_self] at h
    exact .inl ⟨rfl, h⟩
  · rw [Function.update_of_ne heq] at h
    exact .inr ⟨heq, h⟩

theorem update_none {t' : Nat} {b : Task} (h : Function.update tasks t none t' = some b) : t' ≠ t ∧ tasks t' = some b :=
  (update_some h).resolve_left nofun

theorem LockInv.drop (h : LockInv dir records drawn tasks) (t : Nat) :
    LockInv dir records drawn (Function.update tasks t none) := by
  have hold {t' : Nat} {b : Task} (hb : Function.update tasks t none t' = some b) : tasks t' = some b := (update_none hb).2
  refine ⟨fun t' b hb => h.ok t' b (hold hb), fun t₁ t₂ b c hne hb hc => h.apart t₁ t₂ b c hne (hold hb) (hold hc),
    fun machine lock_id hm => ?_, h.distinct⟩
  obtain ⟨hd, hf, hr⟩ := h.record machine lock_id hm
  exact ⟨hd, hf, fun t' b hb => hr t' b (hold hb)⟩

theorem LockInv.put (h : LockInv dir records drawn tasks) (hmachine : a.machine ∈ drawn) (hok : a.Ok dir records)
    (hapart : ∀ t' b, t' ≠ t → tasks t' = some b → a.Apart b)
    (hrecord : ∀ machine lock_id, records.get? machine = some lock_id → a.reserves ≠ some lock_id) :
    LockInv dir records drawn (Function.update tasks t (some a)) := by
  refine ⟨fun t' b hb => ?_, fun t₁ t₂ b c hne hb hc => ?_, fun machine lock_id hm => ?_, h.distinct⟩
  · rcases update_some hb with ⟨-, ⟨⟩⟩ | ⟨-, hb⟩
    · exact ⟨hmachine, hok⟩
    · exact h.ok t' b hb
  · rcases update_some hb with ⟨rfl, ⟨⟩⟩ | ⟨hne₁, hold₁⟩ <;> rcases update_some hc with ⟨rfl, ⟨⟩⟩ | ⟨hne₂, hold₂⟩
    · exact absurd rfl hne
    · exact hapart t₂ c hne₂ hold₂
    · exact (hapart t₁ b hne₁ hold₁).symm
    · exact h.apart t₁ t₂ b c hne hold₁ hold₂
  · obtain ⟨hd, hf, hr⟩ := h.record machine lock_id hm
    refine ⟨hd, hf, fun t' b hb => ?_⟩
    rcases update_some hb with ⟨-, ⟨⟩⟩ | ⟨-, hb⟩
    · exact hrecord machine lock_id hm
    · exact hr t' b hb

/-! ### The directory -/

theorem get?_add (d : LockDir) (id id' : LockId) :
    (d.add id).files.get? id' = if id' = id then some d.next else d.files.get? id' := get?_insert ..

theorem get?_free (d : LockDir) (id id' : LockId) :
    (d.free id).files.get? id' = if id' = id then none else d.files.get? id' := get?_erase ..

variable (h : LockInv dir records drawn tasks)

include h

/-- A new file appears where there was none. No task and no record counts on that path. -/
theorem LockInv.add (hfree : dir.files.get? lock_id = none) :
    LockInv (dir.add lock_id) records drawn tasks := by
  have hsome {l : LockId} {f : Inode} (hf : dir.files.get? l = some f) : (dir.add lock_id).files.get? l = some f := by
    rw [get?_add, if_neg (fun heq => by rw [heq, hfree] at hf; cases hf)]
    exact hf
  refine ⟨fun t b hb => ⟨(h.ok t b hb).1, (h.ok t b hb).2.mono id (fun _ => id) (fun _ _ => id) fun _ _ _ => hsome⟩,
    h.apart, fun machine l hm => ?_, h.distinct⟩
  obtain ⟨hd, hf, hr⟩ := h.record machine l hm
  obtain ⟨f, hf⟩ := Option.isSome_iff_exists.1 hf
  exact ⟨hd, Option.isSome_iff_exists.2 ⟨f, hsome hf⟩, hr⟩

/-- A path that nobody reserves is unlinked. -/
theorem LockInv.free (hrecord : ∀ machine, records.get? machine ≠ some lock_id)
    (htasks : ∀ t b, tasks t = some b → b.reserves ≠ some lock_id) :
    LockInv (dir.free lock_id) records drawn tasks := by
  have hget {l : LockId} (hne : l ≠ lock_id) : (dir.free lock_id).files.get? l = dir.files.get? l := by
    rw [get?_free, if_neg hne]
  have hnamed {machine : MachineId} {l : LockId} (hm : records.get? machine = some l) : l ≠ lock_id :=
    fun heq => hrecord machine (heq ▸ hm)
  refine ⟨fun t b hb => ⟨(h.ok t b hb).1, (h.ok t b hb).2.mono id (fun _ => id) (fun _ _ => id) fun l f hl hf => ?_⟩,
    h.apart, fun machine l hm => ?_, h.distinct⟩
  · rw [hget (hl.elim (fun hl heq => htasks t b hb (heq ▸ hl)) hnamed)]
    exact hf
  · obtain ⟨hd, hf, hr⟩ := h.record machine l hm
    exact ⟨hd, by rw [hget (hnamed hm)]; exact hf, hr⟩

/-! ### The records -/

theorem LockInv.insert (hmachine : machine ∈ drawn)
    (hfile : (dir.files.get? lock_id).isSome) (hothers : ∀ t b, tasks t = some b → b.machine ≠ machine)
    (hreserves : ∀ t b, tasks t = some b → b.reserves ≠ some lock_id)
    (hrecord : ∀ machine', records.get? machine' ≠ some lock_id) :
    LockInv dir (records.insert machine lock_id) drawn tasks := by
  have hget {m : MachineId} (hne : m ≠ machine) : (records.insert machine lock_id).get? m = records.get? m := by
    rw [get?_insert, if_neg hne]
  refine ⟨fun t b hb => ⟨(h.ok t b hb).1, ?_⟩, h.apart, fun m l hm => ?_, fun m m' l hm hm' => ?_⟩
  · have hne := hget (hothers t b hb)
    exact (h.ok t b hb).2.mono hne.trans (fun _ => hne.symm.trans) (fun _ _ => hne.trans) fun _ _ _ => id
  · rcases get?_insert_eq_some.1 hm with ⟨rfl, rfl⟩ | ⟨-, hm⟩
    · exact ⟨hmachine, hfile, hreserves⟩
    · exact h.record m l hm
  · rcases get?_insert_eq_some.1 hm with ⟨rfl, rfl⟩ | ⟨-, hold⟩
    · rcases get?_insert_eq_some.1 hm' with ⟨rfl, -⟩ | ⟨-, hold'⟩
      · rfl
      · exact absurd hold' (hrecord m')
    · rcases get?_insert_eq_some.1 hm' with ⟨rfl, rfl⟩ | ⟨-, hold'⟩
      · exact absurd hold (hrecord m)
      · exact h.distinct m m' l hold hold'

theorem LockInv.erase
    (hguards : ∀ t b, tasks t = some b → b.is_guard → b.machine ≠ machine) :
    LockInv dir (records.erase machine) drawn tasks := by
  have hold {m : MachineId} {l : LockId} (hm : (records.erase machine).get? m = some l) : records.get? m = some l := by
    rw [get?_erase] at hm
    split at hm
    · cases hm
    · exact hm
  have hnone {m : MachineId} (hm : records.get? m = none) : (records.erase machine).get? m = none := by
    rw [get?_erase]
    split
    · rfl
    · exact hm
  refine ⟨fun t b hb => ⟨(h.ok t b hb).1, ?_⟩, h.apart, fun m l hm => h.record m l (hold hm),
    fun m m' l hm hm' => h.distinct m m' l (hold hm) (hold hm')⟩
  refine (h.ok t b hb).2.mono hnone (fun _ => hold) (fun hguard l hm => ?_) fun _ _ _ => id
  rw [get?_erase, if_neg (hguards t b hb hguard)]
  exact hm

end Steps

/-! ## Every step -/

namespace Locks

structure Inv (s : Locks) : Prop where
  inv : LockInv s.dir s.records s.drawn s.tasks.get?

theorem put_get? (s : Locks) (t : Nat) (a : Task) : (s.put t a).tasks.get? = Function.update s.tasks.get? t (some a) := by
  funext t'
  rw [put, get?_insert, Function.update_apply]

theorem drop_get? (s : Locks) (t : Nat) : (s.drop t).tasks.get? = Function.update s.tasks.get? t none := by
  funext t'
  rw [drop, get?_erase, Function.update_apply]

variable {s s' : Locks} {t : Nat}

theorem Inv.drop (h : s.Inv) (t : Nat) : (s.drop t).Inv := ⟨by rw [drop_get?]; exact h.inv.drop t⟩

/-- A task of the same machine takes the place of one it is in no more conflict than. -/
theorem Inv.put_of {dir : LockDir} {a' : Task} (h : s.Inv)
    (ht : s.tasks.get? t = some a) (hinv : LockInv dir records s.drawn (Function.update s.tasks.get? t none))
    (hmachine : a'.machine = a.machine) (hok : a'.Ok dir records)
    (hapart : ∀ t' b, s.tasks.get? t' = some b → a.Apart b → a'.Apart b)
    (hrecord : ∀ machine lock_id, records.get? machine = some lock_id → a'.reserves ≠ some lock_id) :
    ({ s with dir, records }.put t a').Inv := by
  refine ⟨?_⟩
  rw [put_get?, ← Function.update_idem]
  refine hinv.put (hmachine ▸ (h.inv.ok t a ht).1) hok (fun t' b hne hb => ?_) hrecord
  rw [Function.update_of_ne hne] at hb
  exact hapart t' b hb (h.inv.apart t t' a b hne.symm ht hb)

variable {file : Inode}

theorem flocked_iff : s.flocked file ↔ ∃ t a, s.tasks.get? t = some a ∧ a.flock = some file := by
  simp [flocked, mem_entries]

variable {machine : MachineId}

theorem create_inv (h : s.Inv) (hstep : s.create t machine = some s') : s'.Inv := by
  unfold create at hstep
  split at hstep
  · cases hstep
  · rename_i hnew
    cases hstep
    have hfresh {m : MachineId} (hm : m ∈ s.drawn) : machine ≠ m := fun heq => hnew (heq ▸ hm)
    refine ⟨?_⟩
    rw [put_get?]
    refine LockInv.put ⟨fun t b hb => ?_, h.inv.apart, fun m l hm => ?_, h.inv.distinct⟩ mem_cons_self ?_ ?_ ?_
    · exact ⟨mem_cons_of_mem _ (h.inv.ok t b hb).1, (h.inv.ok t b hb).2⟩
    · obtain ⟨hd, hf, hr⟩ := h.inv.record m l hm
      exact ⟨mem_cons_of_mem _ hd, hf, hr⟩
    · show s.records.get? machine = none
      cases hget : s.records.get? machine with
      | none => rfl
      | some l => exact absurd rfl (hfresh (h.inv.record machine l hget).1)
    · intro t' b _ hb
      have hne := hfresh (h.inv.ok t' b hb).1
      exact ⟨nofun, fun _ => hne, nofun, fun _ _ => hne⟩
    · intro m l _ hnone
      cases hnone

theorem lookup_inv (h : s.Inv) (hstep : s.lookup t machine = some s') : s'.Inv := by
  unfold lookup at hstep
  split at hstep
  · rename_i lock_id hrecord
    cases hstep
    refine ⟨?_⟩
    rw [put_get?]
    refine h.inv.put (h.inv.record machine lock_id hrecord).1 trivial (fun t' b _ hb => ?_) nofun
    -- A create has no record yet.
    have hcreate (hc : b.is_create) : machine ≠ b.machine := by
      rintro rfl
      rw [(h.inv.ok t' b hb).2.unrecorded hc] at hrecord
      cases hrecord
    exact ⟨nofun, fun hc => hc.elim nofun hcreate, nofun, nofun⟩
  · cases hstep
    exact h

theorem allocate_inv (h : s.Inv) {raw_id : LockId}
    (ht : s.tasks.get? t = some (.allocating machine raw_id)) : (s.allocate t machine raw_id).Inv := by
  have hok := (h.inv.ok t _ ht).2
  unfold allocate
  split
  · exact h.drop t
  split
  · rename_i dir hdir
    unfold LockDir.create_lock_allocation at hdir
    split at hdir
    · cases hdir
    · rename_i hfree
      cases hdir
      have hfree : s.dir.files.get? raw_id = none := by simpa using hfree
      have hadd := h.inv.add hfree
      refine h.put_of ht (hadd.drop t) rfl ⟨hok, ?_⟩ (fun t' b hb hother => ?_) (fun m l hm => ?_)
      · rw [get?_add, if_pos rfl]
        rfl
      · refine ⟨fun l hl hl' => ?_, hother.machine, ?_, fun he => by cases he⟩
        -- A number that is reserved has its file.
        cases hl
        have hokb := (h.inv.ok t' b hb).2
        cases b with
        | creating m l =>
          cases hl'
          rw [Task.Ok, hfree] at hokb
          cases hokb.2
        | guard m l f removal =>
          cases removal with
          | records =>
            cases hl'
            rw [Task.Ok, hfree] at hokb
            cases hokb.2
          | _ => cases hl'
        | _ => cases hl'
        · exact fun _ he => by cases he
      · rintro ⟨⟩
        obtain ⟨-, hf, -⟩ := h.inv.record m raw_id hm
        rw [hfree] at hf
        cases hf
  · refine h.put_of ht (h.inv.drop t) rfl hok (fun _ _ _ hother => ⟨?_, hother.machine, ?_, fun he => by cases he⟩) ?_
    · exact fun _ he => by cases he
    · exact fun _ he => by cases he
    · exact fun _ _ _ he => by cases he

variable {lock_id : LockId}

section
variable (h : s.Inv)
include h

theorem commit_inv
    (ht : s.tasks.get? t = some (.creating machine lock_id)) : (s.commit t machine lock_id).Inv := by
  obtain ⟨hmachine, -, hfile⟩ := h.inv.ok t _ ht
  have hother {t' : Nat} {b : Task} (hb : Function.update s.tasks.get? t none t' = some b) :
      (Task.creating machine lock_id).Apart b :=
    h.inv.apart t t' _ b (update_none hb).1.symm ht (update_none hb).2
  refine ⟨?_⟩
  rw [commit, drop_get?]
  refine (h.inv.drop t).insert hmachine hfile (fun t' b hb => ((hother hb).machine (.inl rfl)).symm)
    (fun t' b hb => (hother hb).reserves lock_id rfl) fun machine' hm => ?_
  exact (h.inv.record machine' lock_id hm).2.2 t _ ht rfl

theorem open_inv (ht : s.tasks.get? t = some (.resolved machine lock_id)) :
    ({ s with dir := (s.dir.open_lock_file lock_id).2 }.put t
      (.opened machine lock_id (s.dir.open_lock_file lock_id).1)).Inv := by
  have hapart (f : Inode) (t' : Nat) (b : Task) (_ : s.tasks.get? t' = some b)
      (hother : (Task.resolved machine lock_id).Apart b) : (Task.opened machine lock_id f).Apart b :=
    ⟨nofun, hother.machine, nofun, nofun⟩
  unfold LockDir.open_lock_file
  split
  · rename_i file hfile
    exact h.put_of ht (h.inv.drop t) rfl (fun _ => hfile) (hapart file) nofun
  · rename_i hfree
    refine h.put_of ht ((h.inv.add hfree).drop t) rfl (fun _ => ?_) (hapart _) nofun
    rw [get?_add, if_pos rfl]

theorem flock_inv
    (ht : s.tasks.get? t = some (.opened machine lock_id file)) (hfree : ¬ s.flocked file) :
    (s.put t (.locked machine lock_id file)).Inv := by
  refine h.put_of ht (h.inv.drop t) rfl (h.inv.ok t _ ht).2 (fun t' b hb hother => ?_) nofun
  refine ⟨nofun, hother.machine, fun f hf hf' => ?_, nofun⟩
  cases hf
  exact hfree (flocked_iff.2 ⟨t', b, hb, hf'⟩)

/-- The second lookup finds the record only if the file is still the one at its path. -/
theorem recheck_inv
    (ht : s.tasks.get? t = some (.locked machine lock_id file)) : (s.recheck t machine lock_id file).Inv := by
  unfold recheck
  split
  · exact h.drop t
  split
  · exact h.drop t
  · rename_i current hcurrent hsame
    have hrecord : s.records.get? machine = some lock_id := by rw [hcurrent, not_not.1 hsame]
    have hfile := (h.inv.ok t _ ht).2 hrecord
    refine h.put_of ht (h.inv.drop t) rfl ⟨hrecord, hfile⟩ (fun t' b hb hother => ?_) nofun
    refine ⟨nofun, hother.machine, hother.flock, fun _ hguard heq => ?_⟩
    have hokb := (h.inv.ok t' b hb).2
    cases b with
    | guard m l f removal =>
      obtain rfl : machine = m := heq
      cases removal with
      | none =>
        -- Another guard would hold the lock of the same file.
        obtain ⟨hm, hf⟩ := hokb
        rw [hrecord] at hm
        cases hm
        rw [hfile] at hf
        cases hf
        exact hother.flock file rfl rfl
      | records => rw [Task.Ok, hrecord] at hokb; cases hokb.1
      | freed => rw [Task.Ok, hrecord] at hokb; cases hokb
    | _ => cases hguard

/-- The file goes when no record and no other task has its number. -/
theorem free_inv (ht : s.tasks.get? t = some a) (hreserves : a.reserves = some lock_id) :
    LockInv (s.dir.free lock_id) s.records s.drawn (Function.update s.tasks.get? t none) := by
  refine (h.inv.drop t).free (fun m hm => (h.inv.record m lock_id hm).2.2 t a ht hreserves) fun t' b hb => ?_
  obtain ⟨hne, hb⟩ := update_none hb
  exact (h.inv.apart t t' a b hne.symm ht hb).reserves lock_id hreserves

theorem unlink_inv (ht : s.tasks.get? t = some (.guard machine lock_id file .records)) :
    ({ s with dir := s.dir.free lock_id }.put t (.guard machine lock_id file .freed)).Inv := by
  have hrecord := (h.inv.ok t _ ht).2.1
  exact h.put_of ht (free_inv h ht rfl) rfl hrecord
    (fun _ _ _ hother => ⟨nofun, hother.machine, hother.flock, hother.guards⟩) nofun

section
variable (ht : s.tasks.get? t = some a)
include ht

theorem rollback_inv (hstep : s.rollback t a = some s') :
    s'.Inv := by
  cases a with
  | creating machine lock_id =>
    cases hstep
    refine ⟨?_⟩
    rw [drop_get?]
    exact free_inv h ht rfl
  | _ => cases hstep

theorem remove_inv (hstep : s.remove t a = some s') : s'.Inv := by
  cases a with
  | guard machine lock_id file removal =>
    cases removal with
    | none =>
      cases hstep
      obtain ⟨-, hrecord, hfile⟩ := h.inv.ok t _ ht
      have hnamed := h.inv.record machine lock_id hrecord
      have herase : LockInv s.dir (s.records.erase machine) s.drawn (Function.update s.tasks.get? t none) := by
        refine (h.inv.drop t).erase fun t' b hb hguard => ?_
        obtain ⟨hne, hb⟩ := update_none hb
        exact ((h.inv.apart t t' _ b hne.symm ht hb).guards rfl hguard).symm
      refine h.put_of ht herase rfl ⟨?_, hfile⟩ (fun t' b hb hother => ?_) fun m l hm hl => ?_
      · rw [get?_erase, if_pos rfl]
      · refine ⟨fun l hl hl' => ?_, hother.machine, hother.flock, hother.guards⟩
        cases hl
        exact hnamed.2.2 t' b hb hl'
      · cases hl
        rw [get?_erase] at hm
        split at hm
        · cases hm
        · rename_i hne
          exact hne (h.inv.distinct m machine lock_id hm hrecord)
    | records => cases hstep
    | freed => cases hstep
  | _ => cases hstep

theorem advance_inv (hstep : s.advance t a = some s') : s'.Inv := by
  cases a with
  | allocating machine raw_id =>
    cases hstep
    exact allocate_inv h ht
  | creating machine lock_id =>
    cases hstep
    exact commit_inv h ht
  | resolved machine lock_id =>
    cases hstep
    exact open_inv h ht
  | opened machine lock_id file =>
    simp only [advance] at hstep
    split at hstep
    · cases hstep
    · rename_i hfree
      cases hstep
      exact flock_inv h ht hfree
  | locked machine lock_id file =>
    cases hstep
    exact recheck_inv h ht
  | guard machine lock_id file removal =>
    cases removal with
    | none => cases hstep
    | records =>
      cases hstep
      exact unlink_inv h ht
    | freed => cases hstep

end

theorem step_inv {e : LockEvent} (hstep : s.step t e = some s') : s'.Inv := by
  unfold step at hstep
  split at hstep
  · exact create_inv h hstep
  · exact lookup_inv h hstep
  · exact advance_inv h (by assumption) hstep
  · exact rollback_inv h (by assumption) hstep
  · exact remove_inv h (by assumption) hstep
  · cases hstep
    exact h.drop t
  · cases hstep

end

theorem init_inv : init.Inv :=
  ⟨⟨nofun, nofun, nofun, nofun⟩⟩

theorem run_inv {events : List (Nat × LockEvent)} (h : s.Inv) (hrun : s.run events = some s') : s'.Inv := by
  induction events generalizing s with
  | nil =>
    cases hrun
    exact h
  | cons e events ih =>
    obtain ⟨s₁, hstep, hrest⟩ := Option.bind_eq_some_iff.1 (show (s.step e.1 e.2).bind (·.run events) = some s' from hrun)
    exact ih (step_inv h hstep) hrest

end Locks

/-- In every interleaving of creates, removals and `lock_machine_config` calls at most one guard of a machine is
alive, and no two records have the same lock id. -/
theorem machine_lock_exclusive {events : List (Nat × LockEvent)} {s : Locks} (hrun : Locks.init.run events = some s) :
    (∀ t t' machine lock_id lock_id' file file' removal removal',
        s.tasks.get? t = some (.guard machine lock_id file removal) →
        s.tasks.get? t' = some (.guard machine lock_id' file' removal') → t = t') ∧
      ∀ machine machine' lock_id, s.records.get? machine = some lock_id → s.records.get? machine' = some lock_id →
        machine = machine' := by
  have h := Locks.run_inv Locks.init_inv hrun
  refine ⟨fun t t' machine lock_id lock_id' file file' removal removal' ht ht' => ?_, h.inv.distinct⟩
  by_contra hne
  exact (h.inv.apart t t' _ _ hne ht ht').guards rfl rfl rfl

/-- Machine `a` is removed while a second call waits for its lock, and `b` takes over the number. -/
def reuseRun : List (Nat × LockEvent) :=
  [(0, .create ['a']), (0, .advance), (0, .advance), (1, .lookup ['a']), (1, .advance), (2, .lookup ['a']), (2, .advance),
    (1, .advance), (1, .advance), (1, .remove), (1, .advance), (3, .create ['b']), (3, .advance), (3, .advance),
    (1, .stop), (2, .advance), (4, .lookup ['b']), (4, .advance), (4, .advance), (4, .advance)]

/-- The late call holds the lock of the old file while the guard of `b` holds that of the new one, and `b` has no other
guard. -/
theorem reuse_exclusive : ∃ s, Locks.init.run reuseRun = some s ∧ s.tasks.get? 2 = some (.locked ['a'] 0 0) ∧
    s.tasks.get? 4 = some (.guard ['b'] 0 1 .none) ∧
    ∀ t file, s.tasks.get? t = some (.guard ['b'] 0 file .none) → t = 4 :=
  ⟨_, rfl, rfl, rfl, fun t _ h =>
    (machine_lock_exclusive (show Locks.init.run reuseRun = some _ from rfl)).1 t 4 _ _ _ _ _ _ _ h rfl⟩

/-- The guard of a machine that is not being removed has locked the file its record leads to, and no create or removal
under way has its number. -/
theorem guard_holds_recorded_file {events : List (Nat × LockEvent)} {s : Locks} {t : Nat} {machine : MachineId}
    {lock_id : LockId} {file : Inode} (hrun : Locks.init.run events = some s)
    (hguard : s.tasks.get? t = some (.guard machine lock_id file .none)) :
    s.records.get? machine = some lock_id ∧ s.dir.files.get? lock_id = some file ∧
      ∀ t' b, s.tasks.get? t' = some b → b.reserves ≠ some lock_id := by
  have h := Locks.run_inv Locks.init_inv hrun
  obtain ⟨hrecord, hfile⟩ := (h.inv.ok t _ hguard).2
  exact ⟨hrecord, hfile, (h.inv.record machine lock_id hrecord).2.2⟩

theorem reuse_holds_recorded_file : ∃ s, Locks.init.run reuseRun = some s ∧ s.records.get? ['b'] = some 0 ∧
    s.dir.files.get? 0 = some 1 := by
  obtain ⟨hrecord, hfile, -⟩ := @guard_holds_recorded_file reuseRun _ 4 ['b'] 0 1 rfl rfl
  exact ⟨_, rfl, hrecord, hfile⟩

end Silo.Libvm
