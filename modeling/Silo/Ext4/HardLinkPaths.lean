import Silo.Ext4.InodeChanges
/-!
# Paths that are hard links

The node of a hard link carries the root's inode number as a placeholder, and only
`remove` and the writing of directories look at the link. The calls that take the
node's inode number (`is_dir`, `set_permissions`, `set_owner`, `create` below the path,
`link` to the path) act on the root directory instead of the file.
-/

namespace Silo.Ext4

open Lib

namespace Formatter

open Run (Spec)

variable {s s' : Formatter}

def HardLink (s : Formatter) (p : Str) (n : Nat) : Prop :=
  ∃ idx, s.tree.lookup p = some idx ∧ (s.tree.node idx).link = some n

/-- The calls on the path `p` act on inode `n`, a file. -/
structure HardLinkActs (s : Formatter) (p : Str) (n : Nat) : Prop where
  is_dir : path_is_dir s p = false
  set_permissions : ∀ mode s', set_permissions p mode s = (.ok (), s') →
    s'.inode n = { s.inode n with mode := replace_permissions (s.inode n).mode mode } ∧
      ∀ m, 0 < m → m ≠ n → s'.inode m = s.inode m
  set_owner : ∀ uid gid s', set_owner p uid gid s = (.ok (), s') →
    s'.inode n = ((s.inode n).set_uid uid).set_gid gid ∧ ∀ m, 0 < m → m ≠ n → s'.inode m = s.inode m
  create_below : ∀ a name, NormalName name → a.path = child_path p name → (create a s).1.isOk = false
  link : ∀ q, (∀ s', link q p s = (.ok (), s') → (s'.tree.lookup q).map s'.denotes = some n) ∧
    (link q p s).1 ≠ .error (.error (.CannotHardlinkDirectory p))

/-! ## The placeholder -/

/-- Inode 2 is a directory, and hard links carry its number. -/
structure Rooted (s : Formatter) : Prop where
  length : 2 ≤ s.inodes.length
  root_dir : (s.inode ROOT_INODE).is_dir
  placeholder : ∀ c, (s.tree.node c).link = none ∨ (s.tree.node c).inode = ROOT_INODE

theorem Rooted.changed (h : Rooted s) (hc : Changed s s') : Rooted s' := by
  have hlength := h.length
  refine ⟨hlength.trans hc.length, ?_, fun c => ?_⟩
  · exact (hc.inodes ROOT_INODE (by rw [ROOT_INODE]; omega)).2 (by decide) h.root_dir
  · rcases hc.nodes c with hnone | hroot | hsame
    · exact .inl hnone
    · exact .inr hroot
    · rw [hsame.1, hsame.2.2]
      exact h.placeholder c

theorem fresh_rooted (opts : FormatOptions) (random_uuid : Nat) (clock : Nat → UInt32 × UInt32) :
    Rooted (fresh opts random_uuid clock) := by
  have hroot : (fresh opts random_uuid clock).inode ROOT_INODE = root_inode (clock 0).1 (clock 0).2 := rfl
  refine ⟨by simp [fresh], ?_, fun c => .inl ?_⟩
  · rw [hroot]
    show Ext4.is_dir (file_mode.S_IFDIR ||| 0o755)
    decide
  cases c with
  | zero => rfl
  | succ c => rfl

theorem with_options_rooted {opts : FormatOptions} {random_uuid : Nat} {clock : Nat → UInt32 × UInt32}
    (h : with_options opts random_uuid clock = .ok s) : Rooted s := by
  refine with_options_keeps (fun t t' hcat ht => ht.changed (changed_of_catalog t t' hcat)) (fun t i ht _ _ => ?_)
    (fun t ht => ?_) (fresh_rooted opts random_uuid clock) h
  · -- the journal's inode is another one
    refine ⟨by simpa [set_inode] using ht.length, ?_, ht.placeholder⟩
    rcases inode_set_inode_cases t JOURNAL_INODE_NUMBER ROOT_INODE i with heq | ⟨-, -, hnumber⟩
    · rw [heq]
      exact ht.root_dir
    · exact absurd hnumber (by decide)
  · exact ((along_create_depth _ _).spec fun _ _ hc h => h.changed hc).weaken (fun u hu => hu ▸ ht) (fun _ _ h => h)
      fun _ _ _ => trivial

theorem rooted_of_opsReachable (h : OpsReachable s) : Rooted s := by
  obtain ⟨opts, random_uuid, clock, s₀, hs₀, hreach⟩ := h
  exact (with_options_rooted hs₀).changed (changed_of_opsReach hreach)

/-! ## What the calls do -/

theorem path_inode_of_hardLink (h : Rooted s) {p : Str} {n : Nat} (hp : HardLink s p n) :
    path_inode p s = (.ok ROOT_INODE, s) := by
  obtain ⟨idx, hlookup, hlink⟩ := hp
  have hroot : (s.tree.node idx).inode = ROOT_INODE := (h.placeholder idx).resolve_left (by simp [hlink])
  rw [path_inode, Run.get_bind_run]
  refine Run.bind_run_ok.2 ⟨idx, s, Run.ofOption_run_ok.2 ⟨hlookup, rfl⟩, ?_⟩
  rw [hroot]
  rfl

/-- A hard link is taken for a directory, updates of it go to the root, and it cannot be linked to. -/
theorem hardLink_acts_on_root (h : Rooted s) {p : Str} {n : Nat} (hp : HardLink s p n) :
    path_is_dir s p ∧
      (∀ mode, set_permissions p mode s = (.ok (), s.set_inode ROOT_INODE
        { s.inode ROOT_INODE with mode := replace_permissions (s.inode ROOT_INODE).mode mode })) ∧
      (∀ uid gid, set_owner p uid gid s =
        (.ok (), s.set_inode ROOT_INODE (((s.inode ROOT_INODE).set_uid uid).set_gid gid))) ∧
      ∀ q, validate_path_component_names q = .ok () →
        link q p s = (.error (.error (.CannotHardlinkDirectory p)), s) := by
  have hinode := path_inode_of_hardLink h hp
  obtain ⟨idx, hlookup, hlink⟩ := hp
  have hroot : (s.tree.node idx).inode = ROOT_INODE := (h.placeholder idx).resolve_left (by simp [hlink])
  refine ⟨?_, fun mode => ?_, fun uid gid => ?_, fun q hq => ?_⟩
  · rw [path_is_dir, hlookup]
    show (s.inode (s.tree.node idx).inode).is_dir
    rw [hroot]
    exact h.root_dir
  · exact Run.bind_run_ok.2 ⟨ROOT_INODE, s, hinode, rfl⟩
  · exact Run.bind_run_ok.2 ⟨ROOT_INODE, s, hinode, rfl⟩
  · rw [Formatter.link, Run.bind_run_of_ok (Run.ofExcept_run_ok.2 ⟨hq, rfl⟩), Run.get_bind_run,
      Run.bind_run_of_ok (Run.ofOption_run_ok.2 ⟨hlookup, rfl⟩)]
    refine Run.bind_run_of_error ?_
    rw [hroot, h.root_dir]
    rfl

/-- In no reachable state do the calls on a hard link act on its file. -/
theorem hardLinkActs_iff (s : Formatter) (h : OpsReachable s) (p : Str) (n : Nat) (hp : HardLink s p n) :
    HardLinkActs s p n ↔ False := by
  refine ⟨fun hacts => ?_, False.elim⟩
  have hdir := (hardLink_acts_on_root (rooted_of_opsReachable h) hp).1
  rw [hacts.is_dir] at hdir
  cases hdir

def linked_file (s : Formatter) : Formatter :=
  ((Call.link "/l".toList "/f".toList).run
    ((Call.create { path := "/f".toList, mode := make_mode file_mode.S_IFREG 0o644 }).run s).2).2

theorem opsReach_call {s₀ : Formatter} (h : OpsReach s₀ s) {c : Call} (hrun : (c.run s).1.isOk) :
    OpsReach s₀ (c.run s).2 := by
  obtain ⟨_, hr⟩ := exists_ok_of_isOk hrun
  exact @OpsReach.step s₀ _ _ (.call c) _ h (Prod.ext hr rfl : c.run s = (.ok _, (c.run s).2)) (by simp)

theorem linked_file_not_acts : ∃ s, OpsReachable s ∧ HardLink s "/l".toList 12 ∧ ¬ HardLinkActs s "/l".toList 12 := by
  obtain ⟨s₀, hs₀, hfile, hlink, hlookup, hnode⟩ := exists_ok_of_decide (x := small)
    (p := fun s =>
      let file : Call := .create { path := "/f".toList, mode := make_mode file_mode.S_IFREG 0o644 }
      let t := (file.run s).2
      (file.run s).1.isOk = true ∧ ((Call.link "/l".toList "/f".toList).run t).1.isOk = true ∧
        (linked_file s).tree.lookup "/l".toList = some 3 ∧ ((linked_file s).tree.node 3).link = some 12)
    (by decide +kernel)
  have hreach : OpsReachable (linked_file s₀) := ⟨_, _, _, s₀, hs₀, opsReach_call (opsReach_call .start hfile) hlink⟩
  have hp : HardLink (linked_file s₀) "/l".toList 12 := ⟨3, hlookup, hnode⟩
  exact ⟨_, hreach, hp, (hardLinkActs_iff _ hreach _ _ hp).1⟩

/-- `/l` is taken for a directory, its permissions are set at the root, and a file can be created below it. -/
theorem linked_file_changes_root : ∃ s₀, small = .ok s₀ ∧
    let s := linked_file s₀
    s.tree.lookup "/l".toList = some 3 ∧ (s.tree.node 3).link = some 12 ∧ path_is_dir s "/l".toList = true ∧
      ((set_permissions "/l".toList 0o600 s).2.inode 12).mode = (s.inode 12).mode ∧
      ((set_permissions "/l".toList 0o600 s).2.inode ROOT_INODE).mode = file_mode.S_IFDIR ||| 0o600 ∧
      (create { path := "/l/x".toList, mode := make_mode file_mode.S_IFREG 0o644 } s).1.isOk = true ∧
      (create { path := "/f/x".toList, mode := make_mode file_mode.S_IFREG 0o644 } s).1.isOk = false :=
  exists_ok_of_decide (by decide +kernel)

end Formatter

end Silo.Ext4
