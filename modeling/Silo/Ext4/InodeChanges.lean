import Silo.Ext4.NewImage
/-!
# What the calls do to existing inodes

The rest of the formatter's calls, `is_dir`, `set_permissions` and `set_owner`, and
one relation for all of them: an inode that is a directory afterwards was one before
and kept its storage, a reserved inode does not stop being a directory, and a node that
is a hard link carries the root's inode number as a placeholder.
-/

namespace Silo.Ext4

open List Lib FileTree

namespace Formatter

/-! ## Queries and updates by path -/

/-- `is_dir`: whether the path denotes a directory. -/
def path_is_dir (s : Formatter) (path : Str) : Bool :=
  match s.tree.lookup path with
  | some idx => (s.inode (s.tree.node idx).inode).is_dir
  | none => false

def path_inode (path : Str) : FormatM Nat := do
  let s ← Run.get
  let idx ← Run.ofOption (s.tree.lookup path) (.error (.NotFound path))
  pure (s.tree.node idx).inode

def replace_permissions (mode new : UInt16) : UInt16 :=
  (mode &&& file_mode.TYPE_MASK) ||| (new &&& ~~~file_mode.TYPE_MASK)

def set_permissions (path : Str) (mode : UInt16) : FormatM Unit := do
  let ino ← path_inode path
  Run.modify fun s => s.set_inode ino { s.inode ino with mode := replace_permissions (s.inode ino).mode mode }

def set_owner (path : Str) (uid gid : UInt32) : FormatM Unit := do
  let ino ← path_inode path
  Run.modify fun s => s.set_inode ino (((s.inode ino).set_uid uid).set_gid gid)

inductive Op where
  | call (c : Call)
  | set_permissions (path : Str) (mode : UInt16)
  | set_owner (path : Str) (uid gid : UInt32)

def Op.run : Op → FormatM Unit
  | .call c => c.run
  | .set_permissions path mode => Formatter.set_permissions path mode
  | .set_owner path uid gid => Formatter.set_owner path uid gid

inductive OpsReach (s₀ : Formatter) : Formatter → Prop where
  | start : OpsReach s₀ s₀
  | step {s s' : Formatter} {op : Op} {r : Except Failure Unit} :
      OpsReach s₀ s → op.run s = (r, s') → r ≠ .error .panic → OpsReach s₀ s'

def OpsReachable (s : Formatter) : Prop :=
  ∃ opts random_uuid clock s₀, with_options opts random_uuid clock = .ok s₀ ∧ OpsReach s₀ s

end Formatter

/-! ## One inode -/

/-- The fields that say which blocks an inode owns and how it counts them. -/
def storage (i : Inode) : UInt32 × UInt32 × UInt16 × (Fin 60 → UInt8) × UInt32 :=
  (i.flags, i.blocks_lo, i.blocks_hi, i.block, i.xattr_block_lo)

def Touched (n : Nat) (i i' : Inode) : Prop :=
  (i'.is_dir → i.is_dir ∧ storage i' = storage i) ∧ (n < FIRST_INODE → i.is_dir → i'.is_dir)

theorem Touched.refl (n : Nat) (i : Inode) : Touched n i i := ⟨fun h => ⟨h, rfl⟩, fun _ h => h⟩

variable {n : Nat}

theorem Touched.trans {i₁ i₂ i₃ : Inode} (h : Touched n i₁ i₂) (h' : Touched n i₂ i₃) : Touched n i₁ i₃ := by
  refine ⟨fun hdir => ?_, fun hn hdir => h'.2 hn (h.2 hn hdir)⟩
  obtain ⟨hdir₂, hstorage₂⟩ := h'.1 hdir
  obtain ⟨hdir₁, hstorage₁⟩ := h.1 hdir₂
  exact ⟨hdir₁, hstorage₂.trans hstorage₁⟩

variable {i i' : Inode}

theorem Touched.of_same (hdir : i'.is_dir = i.is_dir) (hstorage : storage i' = storage i) :
    Touched n i i' :=
  ⟨fun h => ⟨hdir ▸ h, hstorage⟩, fun _ h => hdir ▸ h⟩

theorem Touched.of_released (hn : FIRST_INODE ≤ n) (hdir : i'.is_dir = false) : Touched n i i' :=
  ⟨fun h => absurd h (by simp [hdir]), fun hlt => absurd hlt (Nat.not_lt.2 hn)⟩

/-- What a removal may do to inode `n`: take links away, or give it up. -/
def Dropped (n : Nat) (i i' : Inode) : Prop :=
  (i' = { i with links_count := i'.links_count } ∧ i'.links_count ≤ i.links_count) ∨
    (FIRST_INODE ≤ n ∧ ∃ time, i' = { dtime := time })

theorem Dropped.refl (n : Nat) (i : Inode) : Dropped n i i := .inl ⟨rfl, UInt16.le_refl _⟩

theorem Dropped.links_le (h : Dropped n i i') : i'.links_count ≤ i.links_count := by
  rcases h with ⟨-, h⟩ | ⟨-, time, rfl⟩
  · exact h
  · exact UInt16.le_iff_toNat_le.2 (Nat.zero_le _)

theorem Dropped.trans {i₁ i₂ i₃ : Inode} (h : Dropped n i₁ i₂) (h' : Dropped n i₂ i₃) : Dropped n i₁ i₃ := by
  have hle : i₃.links_count ≤ i₁.links_count := UInt16.le_trans h'.links_le h.links_le
  rcases h' with ⟨hlinks, hle'⟩ | hgone
  · rcases h with ⟨hfirst, -⟩ | ⟨hn, time, rfl⟩
    · refine .inl ⟨?_, hle⟩
      rw [hlinks, hfirst]
    · -- there is no link left to take
      have hzero : i₃.links_count = 0 := UInt16.le_zero_iff.1 hle'
      refine .inr ⟨hn, time, ?_⟩
      rw [hlinks, hzero]
  · exact .inr hgone

theorem Dropped.touched (h : Dropped n i i') : Touched n i i' := by
  rcases h with ⟨hlinks, -⟩ | ⟨hn, time, rfl⟩
  · rw [hlinks]
    exact .of_same rfl rfl
  · refine .of_released hn ?_
    show Ext4.is_dir 0 = false
    decide

theorem is_dir_replace_permissions (mode new : UInt16) : is_dir (Formatter.replace_permissions mode new) = is_dir mode := by
  have hmask : Formatter.replace_permissions mode new &&& file_mode.TYPE_MASK = mode &&& file_mode.TYPE_MASK := by
    apply UInt16.eq_of_toBitVec_eq
    ext k hk
    simp only [Formatter.replace_permissions, UInt16.toBitVec_and, UInt16.toBitVec_or, UInt16.toBitVec_not,
      BitVec.getElem_and, BitVec.getElem_or, BitVec.getElem_not]
    cases file_mode.TYPE_MASK.toBitVec[k] <;> simp
  rw [is_dir, is_dir, hmask]

/-! ## All inodes -/

namespace Formatter

/-- What any call or update can do: no inode number is taken back, every inode changes as it may, and a new hard link
carries the number of the root's inode. -/
structure Changed (s s' : Formatter) : Prop where
  length : s.inodes.length ≤ s'.inodes.length
  inodes : ∀ n, n - 1 < s.inodes.length → Touched n (s.inode n) (s'.inode n)
  nodes : ∀ c, (s'.tree.node c).link = none ∨ (s'.tree.node c).inode = ROOT_INODE ∨ SameNode (s'.tree.node c) (s.tree.node c)

theorem Changed.refl (s : Formatter) : Changed s s :=
  ⟨Nat.le_refl _, fun n _ => .refl n _, fun _ => .inr (.inr ⟨rfl, rfl, rfl⟩)⟩

theorem Changed.trans {s t u : Formatter} (h : Changed s t) (h' : Changed t u) : Changed s u := by
  refine ⟨h.length.trans h'.length, fun n hn => (h.inodes n hn).trans (h'.inodes n (Nat.lt_of_lt_of_le hn h.length)),
    fun c => ?_⟩
  rcases h'.nodes c with hnone | hroot | hsame
  · exact .inl hnone
  · exact .inr (.inl hroot)
  · rw [hsame.1, hsame.2.2]
    refine (h.nodes c).imp_right fun hold => hold.imp_right fun hold => ?_
    exact ⟨hsame.1.trans hold.1, hsame.2.1.trans hold.2.1, hsame.2.2.trans hold.2.2⟩

variable {s s' : Formatter}

theorem inode_congr (hinodes : s'.inodes = s.inodes) (n : Nat) : s'.inode n = s.inode n := by rw [inode, inode, hinodes]

theorem Changed.of_same (hinodes : s'.inodes = s.inodes) (htree : s'.tree = s.tree) : Changed s s' := by
  refine ⟨by rw [hinodes], fun n _ => ?_, fun c => .inr (.inr (htree ▸ ⟨rfl, rfl, rfl⟩))⟩
  rw [inode_congr hinodes]
  exact .refl n _

theorem changed_of_catalog (s s' : Formatter) (h : catalog s' = catalog s) : Changed s s' :=
  .of_same (congrArg (fun c => c.2.1) h) (congrArg (fun c => c.1) h)

theorem changed_set_inode (s : Formatter) {i : Inode} (h : Touched n (s.inode n) i) :
    Changed s (s.set_inode n i) := by
  refine ⟨by simp [set_inode], fun m _ => ?_, fun _ => .inr (.inr ⟨rfl, rfl, rfl⟩)⟩
  rcases inode_set_inode_cases s n m i with heq | ⟨heq, hsame, hnumber⟩
  · rw [heq]
    exact .refl m _
  · rw [heq, hsame]
    -- 0 and 1 both stand for the first inode
    refine ⟨h.1, fun hm => h.2 ?_⟩
    unfold FIRST_INODE at hm ⊢
    omega

theorem sameNode_add_child (t : FileTree) (p : Nat) (n : FileTreeNode) (c : Nat) :
    SameNode ((t.add_child p n).node c) (if c = t.nodes.length then n else t.node c) := by
  have hlast : SameNode ((⟨t.nodes ++ [{ n with parent := some p }], t.root⟩ : FileTree).node c)
      (if c = t.nodes.length then n else t.node c) := by
    rcases Nat.lt_trichotomy c t.nodes.length with h | h | h
    · rw [if_neg (Nat.ne_of_lt h), node, getD, getElem?_append_left h]
      exact ⟨rfl, rfl, rfl⟩
    · rw [if_pos h, node, getD, h, getElem?_append_right (Nat.le_refl _), Nat.sub_self]
      exact ⟨rfl, rfl, rfl⟩
    · rw [if_neg (Nat.ne_of_gt h), node_of_ge (Nat.le_of_lt h), node_of_ge (by simp; omega)]
      exact ⟨rfl, rfl, rfl⟩
  rw [add_child]
  by_cases hp : p < t.nodes.length + 1
  · rw [node_set_node _ (by simpa using hp)]
    split
    · next heq =>
      subst heq
      exact hlast
    · exact hlast
  · rw [set_node, set_eq_of_length_le (by simp; omega)]
    exact hlast

theorem changed_add_child {p : Nat} {n : FileTreeNode} (hinodes : s'.inodes = s.inodes)
    (htree : s'.tree = s.tree.add_child p n) (hn : n.link = none ∨ n.inode = ROOT_INODE) : Changed s s' := by
  refine { @Changed.of_same s { s' with tree := s.tree } hinodes rfl with nodes := fun c => ?_ }
  have hsame := sameNode_add_child s.tree p n c
  rw [htree]
  split at hsame
  · rw [hsame.1, hsame.2.2]
    exact hn.imp_right .inl
  · exact .inr (.inr hsame)

/-! ## Removals -/

/-- What a removal can do: entries go, and inodes lose links or are given up. -/
structure Reduced (s s' : Formatter) : Prop where
  length : s'.inodes.length = s.inodes.length
  inodes : ∀ n, Dropped n (s.inode n) (s'.inode n)
  root : s'.tree.root = s.tree.root
  nodes : s'.tree.nodes.length = s.tree.nodes.length
  same : ∀ c, SameNode (s'.tree.node c) (s.tree.node c)
  children : ∀ p, List.Sublist (s'.tree.node p).children (s.tree.node p).children

theorem Reduced.refl (s : Formatter) : Reduced s s :=
  ⟨rfl, fun n => .refl n _, rfl, rfl, fun _ => ⟨rfl, rfl, rfl⟩, fun _ => .refl _⟩

theorem Reduced.trans {s₁ s₂ s₃ : Formatter} (h : Reduced s₁ s₂) (h' : Reduced s₂ s₃) : Reduced s₁ s₃ where
  length := h'.length.trans h.length
  inodes n := (h.inodes n).trans (h'.inodes n)
  root := h'.root.trans h.root
  nodes := h'.nodes.trans h.nodes
  same c := ⟨(h'.same c).1.trans (h.same c).1, (h'.same c).2.1.trans (h.same c).2.1, (h'.same c).2.2.trans (h.same c).2.2⟩
  children p := (h'.children p).trans (h.children p)

theorem Reduced.of_set_inode {s : Formatter} {i : Inode} (h : Dropped n (s.inode n) i) :
    Reduced s (s.set_inode n i) := by
  refine { Reduced.refl s with length := by simp [set_inode], inodes := fun m => ?_ }
  rcases inode_set_inode_cases s n m i with heq | ⟨heq, hsame, hnumber⟩
  · rw [heq]
    exact .refl m _
  · rw [heq, hsame]
    refine h.imp_right fun hgone => ⟨?_, hgone.2⟩
    have := hgone.1
    unfold FIRST_INODE at this ⊢
    omega

theorem Reduced.of_same (hinodes : s'.inodes = s.inodes) (htree : s'.tree = s.tree) : Reduced s s' := by
  refine ⟨by rw [hinodes], fun n => ?_, by rw [htree], by rw [htree], fun c => ?_, fun p => ?_⟩
  · rw [inode_congr hinodes]
    exact .refl n _
  · rw [htree]
    exact ⟨rfl, rfl, rfl⟩
  · exact htree ▸ .refl _

theorem Reduced.of_remove_child {p : Nat} {name : Str} (hinodes : s'.inodes = s.inodes)
    (htree : s'.tree = s.tree.remove_child p name) : Reduced s s' := by
  by_cases hp : p < s.tree.nodes.length
  · refine ⟨by rw [hinodes], fun n => ?_, by rw [htree]; rfl, ?_, fun c => ?_, fun q => ?_⟩
    · rw [inode_congr hinodes]
      exact .refl n _
    · rw [htree]
      simp [remove_child, set_node]
    · rw [htree, node_remove_child hp]
      split
      · next heq =>
        subst heq
        exact ⟨rfl, rfl, rfl⟩
      · exact ⟨rfl, rfl, rfl⟩
    · rw [htree, node_remove_child hp]
      split
      · next heq =>
        subst heq
        exact eraseP_sublist
      · exact .refl _
  · refine .of_same hinodes ?_
    rw [htree, remove_child, set_node, set_eq_of_length_le (Nat.le_of_not_lt hp)]

theorem Reduced.changed (h : Reduced s s') : Changed s s' :=
  ⟨h.length.ge, fun n _ => (h.inodes n).touched, fun c => .inr (.inr (h.same c))⟩

instance : IsPreorder Formatter Reduced where
  refl := Reduced.refl
  trans _ _ _ := Reduced.trans

instance : IsPreorder Formatter Changed where
  refl := Changed.refl
  trans _ _ _ := Changed.trans

open Run (Along Keeps)

theorem release_reduces {node_idx target : Nat} (htarget : FIRST_INODE ≤ target) :
    Along Reduced (release node_idx target) := by
  refine .bind (.modify fun s => ?_) fun _ => .bind .get fun s => ?_
  · split
    · next hpos =>
      exact .of_set_inode (.inl ⟨rfl, UInt16.sub_le hpos⟩)
    · exact .refl s
  · refine .ite (.bind (fun t => .of_same rfl rfl) fun now => .modify fun t => ?_)
      (.ite (.modify fun t => .of_same rfl rfl) .refl)
    exact .trans (.of_set_inode (.inr ⟨htarget, now.1, rfl⟩)) (.of_same rfl rfl)

variable (path : Str)

theorem detach_reduces (node_is_dir : Bool) : Along Reduced (detach path node_is_dir) := by
  refine .modify fun s => ?_
  split
  · exact .refl s
  · dsimp only
    split
    · next hlinks =>
      have hpos := UInt16.le_of_lt (UInt16.lt_trans (by decide : (1 : UInt16) < 2) hlinks.2)
      exact .trans (.of_set_inode (.inl ⟨rfl, UInt16.sub_le hpos⟩)) (.of_remove_child rfl rfl)
    · exact .of_remove_child rfl rfl

theorem remove_inner_reduces (fuel : Nat) : ∀ path remove_self, Along Reduced (remove_inner fuel path remove_self) := by
  induction fuel with
  | zero => exact fun _ _ => .refl
  | succ fuel ih =>
    intro path remove_self
    refine .bind .get fun s => ?_
    cases s.tree.lookup path with
    | none => exact .refl
    | some idx =>
      refine .bind .check fun _ => .bind
        (.forM fun name _ => ih _ _) fun _ => .ite .refl ?_
      refine .bind (detach_reduces _ _) fun _ => ?_
      split
      · next hfirst => exact release_reduces (Nat.le_of_pred_lt hfirst)
      · exact .refl

theorem remove_reduces : Along Reduced (remove path) :=
  .bind .get fun _ => remove_inner_reduces _ _ _

theorem remove_children_reduces : Along Reduced (remove_children path) :=
  .bind .get fun _ => remove_inner_reduces _ _ _

/-! ## All calls -/

variable {α : Type}

theorem along_of_keeps {m : FormatM α} (h : Keeps catalog m) : Along Changed m :=
  .of_keeps h changed_of_catalog

theorem changed_links (s : Formatter) (n : Nat) (c : UInt16) :
    Changed s (s.set_inode n { s.inode n with links_count := c }) :=
  changed_set_inode s (.of_same rfl rfl)

theorem along_remove : Along Changed (remove path) := fun s => (remove_reduces path s).changed

theorem along_remove_children : Along Changed (remove_children path) := fun s =>
  (remove_children_reduces path s).changed

variable (a : CreateArgs)

/-- What `create` does about an existing entry: remove it, or give a directory a new mode and owner. -/
theorem handle_existing_effect (s : Formatter) :
    Reduced s (handle_existing a s).2 ∨ ∃ n i, (handle_existing a s).2 = s.set_inode n i ∧
      i.is_dir = (s.inode n).is_dir ∧ storage i = storage (s.inode n) ∧ i.links_count = (s.inode n).links_count := by
  unfold handle_existing
  rw [Run.get_bind_run]
  cases s.tree.lookup a.path with
  | none => exact .inl (.refl s)
  | some idx =>
    have hremove : Along Reduced (do remove a.path; pure false : FormatM Bool) :=
      .bind (remove_reduces _) fun _ => .refl
    simp only [Run.ite_run]
    split
    · next hmode =>
      split
      · next hdir =>
        split
        · by_cases howner : a.uid.isSome ∨ a.gid.isSome
          · simp only [Run.when, howner, if_true]
            -- the new mode is that of a directory again
            refine .inr ⟨_, _, rfl, ?_, ?_, ?_⟩
            · rw [hdir]
              cases a.uid <;> cases a.gid <;> exact hmode
            · cases a.uid <;> cases a.gid <;> rfl
            · cases a.uid <;> cases a.gid <;> rfl
          · simp only [Run.when, howner, if_false]
            exact .inl (.refl s)
        · exact .inl (.refl s)
      · exact .inl (.refl s)
    · split
      · exact .inl (hremove s)
      · split
        · exact .inl (.refl s)
        · exact .inl (hremove s)

theorem along_handle_existing : Along Changed (handle_existing a) := by
  intro s
  rcases handle_existing_effect a s with h | ⟨n, i, heq, hdir, hstorage, -⟩
  · exact h.changed
  · rw [heq]
    exact changed_set_inode s (.of_same hdir hstorage)

theorem along_write_content (parent : Nat) (i : Inode) : Along Changed (write_content a parent i) := by
  refine .ite (.bind (.modify fun s => changed_links s _ _) fun _ => .pure _) (.ite ?_
    (.ite (along_of_keeps (keeps_write_regular _ _)) (.fail _)))
  cases a.link with
  | some target => exact along_of_keeps (keeps_write_symlink _ _)
  | none => exact .fail _

theorem along_register (parent_idx : Nat) (name : Str) (i : Inode) (ranges : List BlockRange) :
    Along Changed (register parent_idx name i ranges) := by
  refine .modify fun s => .trans (t := { s with inodes := s.inodes ++ [i] }) ⟨by simp, fun n hn => ?_, fun _ => ?_⟩
    (changed_add_child rfl rfl (.inl rfl))
  · have hsame : (s.inodes ++ [i]).getD (n - 1) {} = s.inodes.getD (n - 1) {} := by
      simp [getD, getElem?_append_left hn]
    exact .of_same (congrArg Inode.is_dir hsame) (congrArg storage hsame)
  · exact .inr (.inr ⟨rfl, rfl, rfl⟩)

theorem along_create_entry : Along Changed (create_entry a) :=
  .bind .get fun _ => .bind .ofOption fun _ => .bind .check fun _ =>
    .bind (along_of_keeps (keeps_write_xattrs _ _)) fun _ =>
      .bind (along_of_keeps (keeps_unwrap_timestamps _)) fun _ =>
        .bind (along_write_content _ _ _) fun _ => along_register _ _ _ _

theorem along_create_depth (fuel : Nat) : ∀ a, Along Changed (create_depth fuel a) := by
  induction fuel with
  | zero => exact fun _ => .fail _
  | succ fuel ih =>
    intro a
    refine .bind .ofExcept fun _ => .bind .check fun _ => .bind .check fun _ =>
      .bind (along_handle_existing a) fun finished => .ite (.pure ()) ?_
    exact .bind (.when (ih _)) fun _ => along_create_entry a

theorem along_link (link_path target_path : Str) : Along Changed (link link_path target_path) := by
  refine .bind .ofExcept fun _ => .bind .get fun _ => .bind .ofOption fun _ =>
    .bind .check fun _ => .ite (.pure ()) ?_
  refine .bind .ofOption fun _ => .bind .check fun _ =>
    .bind (.when (along_remove _)) fun _ => .modify fun s => ?_
  exact .trans (changed_links s _ _) (changed_add_child rfl rfl (.inr rfl))

theorem along_call (c : Call) : Along Changed c.run := by
  cases c with
  | create a => exact along_create_depth _ a
  | link link_path target_path => exact along_link _ _
  | remove path => exact along_remove path
  | remove_children path => exact along_remove_children path

theorem along_path_inode : Along Changed (path_inode path) :=
  .bind .get fun _ => .bind .ofOption fun _ => .pure _

/-- Every call and every update changes the inodes as they may change. -/
theorem along_op (op : Op) : Along Changed op.run := by
  cases op with
  | call c => exact along_call c
  | set_permissions path mode =>
    refine .bind (along_path_inode path) fun n => .modify fun s => changed_set_inode s (.of_same ?_ rfl)
    exact is_dir_replace_permissions _ _
  | set_owner path uid gid =>
    exact .bind (along_path_inode path) fun n => .modify fun s => changed_set_inode s (.of_same rfl rfl)

theorem changed_of_opsReach {s₀ s : Formatter} (h : OpsReach s₀ s) : Changed s₀ s := by
  induction h with
  | start => exact .refl s₀
  | @step s s' op r _ hrun _ ih =>
    have hstep := along_op op s
    rw [hrun] at hstep
    exact ih.trans hstep

end Formatter

end Silo.Ext4
