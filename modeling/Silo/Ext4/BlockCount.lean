import Silo.Ext4.Close
import Silo.Ext4.InodeChanges
import Silo.Ext4.Recording
import Silo.Ext4.XattrAreas
/-!
# The block count of an inode

An inode counts the blocks it owns (data, index blocks, and the block of its
attributes) in file-system blocks or in sectors of 512 bytes, as its flags say.
The count grows while the inode is built, each part in the unit of the flags at that
time. `Accounts` compares the two as bytes, under the flags the inode ends up with.
-/

namespace Silo.Ext4

open List Lib Run

/-! ## What an inode owns -/

def index_blocks (i : Inode) : Nat :=
  let header := ExtentHeader.read_from i.blockBuf
  if i.flags &&& inode_flags.EXTENTS ≠ 0 ∧ header.depth = 1 then header.entries.toNat else 0

def owned_blocks (i : Inode) (ranges : List BlockRange) : Nat :=
  (ranges.map BlockRange.size).sum + index_blocks i + if i.xattr_block_lo ≠ 0 then 1 else 0

def count_unit (i : Inode) : Nat := if i.flags &&& inode_flags.HUGE_FILE ≠ 0 then BLOCK_SIZE else 512

def counted_blocks (i : Inode) : Nat := i.blocks_lo.toNat + i.blocks_hi.toNat * 2 ^ 32

def Accounts (i : Inode) (ranges : List BlockRange) : Prop :=
  counted_blocks i * count_unit i = owned_blocks i ranges * BLOCK_SIZE

/-- A new inode, with or without a block of attributes: nothing but that block is counted yet, as one block. -/
structure Fresh (i : Inode) (owns_xattr_block : Prop) : Prop where
  flags : i.flags = inode_flags.HUGE_FILE
  block : i.block = fun _ => 0
  hi : i.blocks_hi = 0
  counted : (owns_xattr_block → i.blocks_lo = 1) ∧ (¬ owns_xattr_block → i.blocks_lo = 0)
  owned : i.xattr_block_lo ≠ 0 ↔ owns_xattr_block

variable {p : Prop}

variable {i j : Inode}

theorem Fresh.congr (h : Fresh i p) (hs : storage j = storage i) : Fresh j p := by
  simp only [storage, Prod.mk.injEq] at hs
  obtain ⟨h₁, h₂, h₃, h₄, h₅⟩ := hs
  exact ⟨h₁.trans h.flags, h₄.trans h.block, h₃.trans h.hi, h₂ ▸ h.counted, h₅ ▸ h.owned⟩

theorem Fresh.of_iff {p q : Prop} (h : Fresh i p) (hpq : p ↔ q) : Fresh i q :=
  ⟨h.flags, h.block, h.hi, ⟨h.counted.1 ∘ hpq.2, fun hq => h.counted.2 (mt hpq.1 hq)⟩, h.owned.trans hpq⟩

theorem Fresh.small (h : Fresh i p) : i.blocks_lo.toNat ≤ 1 := by
  by_cases hp : p
  · rw [h.counted.1 hp]
    decide
  · rw [h.counted.2 hp]
    decide

/-! ## Extents -/

theorem header_write_inline_extents (inode : Inode) (n : Nat) (leaves : List ExtentLeaf) :
    ExtentHeader.read_from (write_inline_extents inode n leaves).blockBuf =
      { magic := EXTENT_HEADER_MAGIC, entries := .ofNat leaves.length, max := 4, depth := 0 } :=
  node_header_of_agree (leaf_sizes leaves) (by decide) (blockBuf_eq rfl)

/-- What `write_extents` does to the count: it adds the data and the index blocks, in the unit of the flags. -/
structure Counts (inode inode' : Inode) (n : Nat) : Prop where
  unit : count_unit inode' = count_unit inode
  hi : inode'.blocks_hi = inode.blocks_hi
  xattr : inode'.xattr_block_lo = inode.xattr_block_lo
  added : inode'.blocks_lo = inode.blocks_lo + .ofNat ((n + index_blocks inode') * (BLOCK_SIZE / count_unit inode))
  few : index_blocks inode' ≤ 4

def BareFlags (i : Inode) : Prop := i.flags = inode_flags.HUGE_FILE ∨ i.flags = 0

theorem BareFlags.extents (h : BareFlags i) (hj : j.flags = i.flags ||| inode_flags.EXTENTS) :
    count_unit j = count_unit i ∧ j.flags &&& inode_flags.EXTENTS ≠ 0 := by
  rcases h with h | h <;> rw [h] at hj <;> simp only [count_unit, hj, h] <;> decide

theorem BareFlags.index_blocks (h : BareFlags i) : index_blocks i = 0 := by
  refine if_neg fun hset => hset.1 ?_
  rcases h with h | h <;> rw [h] <;> decide

theorem add_inode_blocks_lo (i : Inode) (n : Nat) :
    (add_inode_blocks i n).blocks_lo = i.blocks_lo + .ofNat (n * (BLOCK_SIZE / count_unit i)) := by
  unfold add_inode_blocks count_unit
  by_cases h : i.flags &&& inode_flags.HUGE_FILE ≠ 0
  · simp only [if_pos h]
    rw [Nat.div_self (by decide), Nat.mul_one]
  · simp only [if_neg h]

theorem counts_inline {inode : Inode} (h : BareFlags inode) (n : Nat) (leaves : List ExtentLeaf) :
    Counts inode (write_inline_extents inode n leaves) n := by
  have hindex : index_blocks (write_inline_extents inode n leaves) = 0 := by
    unfold index_blocks
    rw [header_write_inline_extents]
    exact if_neg fun hd => absurd hd.2 (show ¬ (0 : UInt16) = 1 by decide)
  refine ⟨(h.extents rfl).1, rfl, rfl, ?_, by rw [hindex]; decide⟩
  rw [hindex, Nat.add_zero]
  exact add_inode_blocks_lo _ n

variable {n next size : Nat}

theorem counts_indexed {inode inode' : Inode} (h : BareFlags inode) {current_block : Nat} {leaves : List ExtentLeaf}
    {file file' : File} (hw : write_indexed_extents inode n leaves file current_block = some (inode', file', next)) :
    Counts inode inode' n ∧ leaves.length ≤ 4 * leaves_per_block := by
  obtain ⟨k, hk⟩ : ∃ k, k = div_ceil leaves.length leaves_per_block := ⟨_, rfl⟩
  unfold write_indexed_extents at hw
  simp only [← hk] at hw
  split at hw
  · cases hw
  rename_i hfew
  have hlen : leaves.length ≤ 4 * leaves_per_block := by
    rw [div_ceil] at hk
    have hper : leaves_per_block = 340 := rfl
    rw [hper] at hk ⊢
    omega
  simp only [Option.some.injEq, Prod.mk.injEq] at hw
  obtain ⟨hinode, -⟩ := hw
  have hflags : inode'.flags = inode.flags ||| inode_flags.EXTENTS := by rw [← hinode]; rfl
  have hheader : ExtentHeader.read_from inode'.blockBuf =
      { magic := EXTENT_HEADER_MAGIC, entries := .ofNat k, max := 4, depth := 1 } := by
    rw [← hinode]
    refine @node_header_of_agree _ _ INODE_BLOCK_SIZE
      ((indexEntries current_block (leafChunks k leaves)).map ExtentIndex.write_to) (index_sizes _) (by decide)
      (blockBuf_eq rfl)
  obtain ⟨hunit, hset⟩ := h.extents hflags
  have hindex : index_blocks inode' = k := by
    unfold index_blocks
    rw [hheader, if_pos ⟨hset, rfl⟩]
    show (UInt16.ofNat k).toNat = k
    rw [UInt16.toNat_ofNat']
    omega
  refine ⟨⟨hunit, by rw [← hinode]; rfl, by rw [← hinode]; rfl, ?_, by omega⟩, hlen⟩
  rw [hindex, ← hinode]
  exact add_inode_blocks_lo _ _

theorem Contiguous.sum_le {logical : Nat} {leaves : List ExtentLeaf} (h : Contiguous logical leaves) :
    (leaves.map fun l => l.len.toNat).sum ≤ leaves.length * MAX_BLOCKS_PER_EXTENT := by
  induction leaves generalizing logical with
  | nil => simp
  | cons l ls ih =>
    obtain ⟨-, -, hlen, hrest⟩ := h
    have := ih hrest
    rw [map_cons, sum_cons, length_cons, Nat.succ_mul]
    omega

variable {ranges : List BlockRange}

namespace Formatter

variable {s s' : Formatter} {i i' : Inode}

theorem write_extents_here_cases (h : write_extents_here i ranges s = (.ok (i', next), s')) :
    ∃ file file' cur, write_extents i ranges file cur = some (i', file', next) := by
  obtain ⟨_, s₁, -, h⟩ := bind_run_ok.1 h
  obtain ⟨cur, s₂, -, h⟩ := bind_run_ok.1 h
  rw [get_bind_run] at h
  generalize hw : write_extents i ranges s₂.file cur = r at h
  rcases r with _ | ⟨inode, file, next'⟩
  · cases h
  · cases h
    exact ⟨_, _, _, hw⟩

/-- The equation between the count and the blocks, carried over `write_extents`; the sums stay below 2^32. -/
theorem write_extents_here_counts (hrec : Recorded size ranges)
    (hw : write_extents_here i ranges s = (.ok (i', next), s')) (hbare : BareFlags i) (hhi : i.blocks_hi = 0)
    (hsmall : i.blocks_lo.toNat ≤ 1) :
    i'.xattr_block_lo = i.xattr_block_lo ∧ counted_blocks i' * count_unit i' =
      counted_blocks i * count_unit i + ((ranges.map BlockRange.size).sum + index_blocks i') * BLOCK_SIZE := by
  obtain ⟨hbounds, -, htotal, -⟩ := recorded_bounds hrec
  obtain ⟨file, file', cur, hw⟩ := write_extents_here_cases hw
  obtain ⟨hcovers, hsum, -⟩ := @fill_ranges_leaves 0 _
    (fun r hr => ⟨Nat.le_of_lt (hbounds r hr).2.1, (hbounds r hr).2.2⟩) (by omega)
  have hleaves := hcovers.contiguous.sum_le
  rw [hsum] at hleaves
  have hunits : count_unit i = 4096 ∨ count_unit i = 512 := by
    unfold count_unit
    split
    · exact .inl rfl
    · exact .inr rfl
  unfold write_extents at hw
  simp only at hw
  split at hw
  · -- no data: nothing is added, and there is no tree
    rename_i h0
    cases hw
    rw [hbare.index_blocks, h0, Nat.add_zero, Nat.zero_mul, Nat.add_zero]
    exact ⟨rfl, rfl⟩
  have hcounts : Counts i i' (ranges.map BlockRange.size).sum ∧
      (fill_extent_leaves_from_ranges 0 ranges).length ≤ 4 * leaves_per_block := by
    split at hw
    · rename_i h4
      cases hw
      exact ⟨counts_inline hbare _ _, Nat.le_trans h4 (by decide)⟩
    · exact counts_indexed hbare hw
  obtain ⟨hc, hfew⟩ := hcounts
  have hindex := hc.few
  have hbound : (ranges.map BlockRange.size).sum ≤ 1360 * 32768 :=
    Nat.le_trans hleaves (Nat.mul_le_mul_right _ hfew)
  refine ⟨hc.xattr, ?_⟩
  have hblocks : i'.blocks_lo.toNat = i.blocks_lo.toNat +
      ((ranges.map BlockRange.size).sum + index_blocks i') * (BLOCK_SIZE / count_unit i) := by
    rw [hc.added, UInt32.toNat_add, UInt32.toNat_ofNat']
    rcases hunits with hu | hu <;> rw [hu] <;> simp only [BLOCK_SIZE] <;> omega
  rw [counted_blocks, counted_blocks, hc.hi, hhi, hc.unit, hblocks]
  rcases hunits with hu | hu <;> rw [hu] <;> simp only [BLOCK_SIZE, UInt16.toNat_zero] <;> omega

theorem accounts_of_fresh (h : Fresh i p) (hrec : Recorded size ranges)
    (hw : write_extents_here i ranges s = (.ok (i', next), s')) : Accounts i' ranges := by
  have hunit : count_unit i = BLOCK_SIZE := by
    simp only [count_unit, h.flags]
    decide
  have hcounted : counted_blocks i = if i.xattr_block_lo ≠ 0 then 1 else 0 := by
    rw [counted_blocks, h.hi]
    by_cases hp : p
    · rw [if_pos (h.owned.2 hp), h.counted.1 hp]
      rfl
    · rw [if_neg (mt h.owned.1 hp), h.counted.2 hp]
      rfl
  obtain ⟨hxattr, heq⟩ := write_extents_here_counts hrec hw (.inl h.flags) h.hi h.small
  rw [Accounts, heq, hunit, hcounted, owned_blocks, hxattr, ← Nat.add_mul, Nat.add_comm]

/-! ## Attributes -/

/-- Where `add` puts the attributes of a new inode. -/
def xattr_state (inode : Nat) (attrs : List (Str × List UInt8)) : Except Failure XattrState :=
  (("system.data".toList, []) :: attrs).foldlM (fun st (name, value) => st.add (.new name value))
    (XattrState.new inode INODE_EXTRA_SIZE BLOCK_SIZE)

/-- Whether some attribute does not fit the inode. -/
def needs_xattr_block (inode : Nat) : Option (List (Str × List UInt8)) → Bool
  | none | some [] => false
  | some attrs => match xattr_state inode attrs with
    | .ok st => st.has_block
    | .error _ => false

variable {st : XattrState}

theorem block_capacity_of_xattr_state {inode : Nat} {attrs : List (Str × List UInt8)}
    (h : xattr_state inode attrs = .ok st) : st.block_capacity = BLOCK_SIZE := by
  have hmap : ((("system.data".toList, []) :: attrs).map fun a => ExtendedAttribute.new a.1 a.2).foldlM XattrState.add
      (XattrState.new inode INODE_EXTRA_SIZE BLOCK_SIZE) = .ok st := by
    rw [foldlM_map]
    exact h
  exact (XattrState.capacities_of_add_all hmap).2

theorem size_of_write_block {buf : Bytes} (h : st.write_block = .ok buf) : buf.size = st.block_capacity := by
  obtain ⟨t, -, h⟩ := bind_eq_ok.1 h
  rw [← pure_eq_ok.1 h]

theorem store_inline_xattrs_storage (h : store_inline_xattrs st i = .ok i') :
    storage i' = storage i := by
  unfold store_inline_xattrs at h
  split at h
  · obtain ⟨buf, -, h⟩ := bind_eq_ok.1 h
    rw [← pure_eq_ok.1 h]
    rfl
  · rw [← pure_eq_ok.1 h]

theorem write_xattr_block_fresh (hcap : st.block_capacity = BLOCK_SIZE)
    (hi : Fresh i False) (h : write_xattr_block st i s = (.ok i', s')) : Fresh i' (st.has_block) := by
  unfold write_xattr_block at h
  split at h
  · rename_i hblock
    obtain ⟨buf, s₁, hbuf, h⟩ := bind_run_ok.1 h
    obtain ⟨ranges, s₂, hranges, h⟩ := bind_run_ok.1 h
    have hsize : buf.size = BLOCK_SIZE := (size_of_write_block (ofExcept_run_ok.1 hbuf).1).trans hcap
    have hrec : Recorded BLOCK_SIZE ranges := .inr (.inl ⟨s₁, s₂, buf, hsize, hranges⟩)
    obtain ⟨hbounds, hblocks, -⟩ := recorded_bounds hrec
    -- a block is written, and it is not block 0
    cases ranges with
    | nil => exact absurd hblocks (by decide)
    | cons r rest =>
      obtain ⟨hpos, hlt, hle⟩ := hbounds r mem_cons_self
      have hstart : UInt32.ofNat r.start ≠ 0 := by
        intro h0
        have := congrArg UInt32.toNat h0
        rw [UInt32.toNat_ofNat', UInt32.toNat_zero] at this
        omega
      cases h
      refine ⟨hi.flags, hi.block, hi.hi, ⟨fun _ => ?_, fun hn => absurd hblock hn⟩, ⟨fun _ => hblock, fun _ => hstart⟩⟩
      show i.blocks_lo + (if i.flags &&& inode_flags.HUGE_FILE ≠ 0 then 1 else .ofNat (BLOCK_SIZE / 512)) = 1
      rw [hi.counted.2 not_false, hi.flags]
      decide
  · rename_i hblock
    cases h
    exact hi.of_iff (iff_of_false not_false hblock)

theorem write_xattrs_fresh {xattrs : Option (List (Str × List UInt8))} (hi : Fresh i False)
    (h : write_xattrs xattrs i s = (.ok i', s')) : Fresh i' (needs_xattr_block (s.inodes.length + 1) xattrs) := by
  match xattrs, h with
  | none, h =>
    cases h
    exact hi.of_iff (iff_of_false not_false Bool.false_ne_true)
  | some [], h =>
    cases h
    exact hi.of_iff (iff_of_false not_false Bool.false_ne_true)
  | some (x :: xs), h =>
    simp only [write_xattrs, get_bind_run] at h
    obtain ⟨st, s₁, hst, h⟩ := bind_run_ok.1 h
    obtain ⟨i₁, s₂, hinline, h⟩ := bind_run_ok.1 h
    have hstate : xattr_state (s.inodes.length + 1) (x :: xs) = .ok st := ofExcept_run_ok.1 hst |>.1
    have hfresh : Fresh i₁ False := hi.congr (store_inline_xattrs_storage (ofExcept_run_ok.1 hinline).1)
    have hblock := write_xattr_block_fresh (block_capacity_of_xattr_state hstate) hfresh h
    exact hblock.of_iff (by simp [needs_xattr_block, hstate])

/-! ## Symbolic links, files and directories -/

theorem new_inode_fresh (a : CreateArgs) (parent : Inode) : Fresh (new_inode a parent) False := by
  have hstorage : storage (new_inode a parent) = storage { flags := inode_flags.HUGE_FILE } := by
    unfold new_inode
    cases a.uid <;> cases a.gid <;> rfl
  exact Fresh.congr ⟨rfl, rfl, rfl, ⟨False.elim, fun _ => rfl⟩, ⟨fun h => h rfl, False.elim⟩⟩ hstorage

/-- With the data counted in sectors, the rest of the count has to be in sectors as well. -/
theorem sectors_accounts_iff {i' : Inode}
    (hw : write_extents_here j ranges s = (.ok (i', next), s')) (hrec : Recorded size ranges) (hflags : j.flags = 0)
    (hhi : j.blocks_hi = 0) (hsmall : j.blocks_lo.toNat ≤ 1) :
    Accounts i' ranges ↔ j.blocks_lo.toNat * 512 = (if j.xattr_block_lo ≠ 0 then 1 else 0) * BLOCK_SIZE := by
  obtain ⟨hxattr, heq⟩ := write_extents_here_counts hrec hw (.inr hflags) hhi hsmall
  have hunit : count_unit j = 512 := by
    simp only [count_unit, hflags]
    decide
  have hcounted : counted_blocks j = j.blocks_lo.toNat := by
    rw [counted_blocks, hhi]
    rfl
  rw [Accounts, heq, hunit, hcounted, owned_blocks, hxattr]
  generalize (if j.xattr_block_lo ≠ 0 then 1 else 0) = x
  rw [Nat.add_mul _ x]
  omega

/-- A symbolic link ends up counting in sectors, and a block of attributes counted before that is lost or counted as
one sector. -/
theorem write_symlink_accounts {target : Str} (h : Fresh i p) (hw : write_symlink target i s = (.ok (i', ranges), s')) :
    (Accounts i' ranges ↔ ¬ p) ∧ ∃ size, Recorded size ranges := by
  have hp : i.xattr_block_lo ≠ 0 ↔ p := h.owned
  unfold write_symlink at hw
  simp only at hw
  split at hw
  · cases hw
    refine ⟨?_, 0, .inl ⟨s, s, none, rfl⟩⟩
    rw [Accounts, owned_blocks, BareFlags.index_blocks (.inr rfl), ← hp, not_not]
    show (0 + i.blocks_hi.toNat * 2 ^ 32) * _ = (0 + 0 + if i.xattr_block_lo ≠ 0 then 1 else 0) * BLOCK_SIZE ↔ _
    rw [h.hi]
    by_cases hx : i.xattr_block_lo = 0
    · simp [hx]
    · simp [hx, BLOCK_SIZE]
  · obtain ⟨ranges₁, s₁, hbytes, hw⟩ := bind_run_ok.1 hw
    obtain ⟨⟨i₁, next⟩, s₂, hextents, hw⟩ := bind_run_ok.1 hw
    cases hw
    have hrec : Recorded _ ranges := .inr (.inl ⟨s, s₁, _, rfl, hbytes⟩)
    refine ⟨?_, _, hrec⟩
    rw [sectors_accounts_iff hextents hrec rfl h.hi h.small]
    show i.blocks_lo.toNat * 512 = (if i.xattr_block_lo ≠ 0 then 1 else 0) * BLOCK_SIZE ↔ _
    by_cases hx : p
    · rw [if_pos (hp.2 hx), h.counted.1 hx]
      exact iff_of_false (by decide) (not_not.2 hx)
    · rw [if_neg (mt hp.1 hx), h.counted.2 hx]
      exact iff_of_true (by decide) hx

theorem node_blocks_of_ranges (h : ∀ r ∈ ranges, r.start < r.end_) {node : FileTreeNode}
    (hb : node.blocks = ranges.head?) (ha : node.additional_blocks = ranges.tail) : node_blocks node = ranges := by
  cases ranges with
  | nil => simp [node_blocks, hb, ha]
  | cons r rest =>
    have hne : r.start ≠ r.end_ := Nat.ne_of_lt (h r mem_cons_self)
    simp [node_blocks, hb, ha, hne]

theorem blocks_of_added (t : FileTree) (p : Nat) (n : FileTreeNode) :
    ((t.add_child p n).node t.nodes.length).blocks = n.blocks ∧
      ((t.add_child p n).node t.nodes.length).additional_blocks = n.additional_blocks ∧
      (t.add_child p n).nodes.length = t.nodes.length + 1 := by
  by_cases hp : p = t.nodes.length
  · subst hp
    simp [FileTree.add_child, FileTree.set_node, FileTree.node]
  · simp [FileTree.add_child, FileTree.set_node, FileTree.node, hp]

/-- What may happen to a builder between the creation of inode `n` and the writing of its entries: calls and updates,
and the writing of other directories. -/
inductive Later (n : Nat) (s : Formatter) : Formatter → Prop where
  | start : Later n s s
  | op {t t' : Formatter} {op : Op} {r : Except Failure Unit} : Later n s t → op.run t = (r, t') → Later n s t'
  | commit {t t' : Formatter} {parent : Option Nat} {idx : Nat} : Later n s t → (t.tree.node idx).inode - 1 ≠ n - 1 →
      commit_directory parent idx t = (.ok (), t') → Later n s t'

/-- The count of the inode that a call of `create` has made is right: of a file or a symbolic link as it is registered,
of a directory once its entries have been written. -/
def FinalAccounts (a : CreateArgs) (s : Formatter) : Prop :=
  if is_dir a.mode then
    ∀ t t' parent idx, Later s.inodes.length s t → (t.tree.node idx).inode = s.inodes.length → t.is_committed idx →
      commit_directory parent idx t = (.ok (), t') →
      Accounts (t'.inode s.inodes.length) (node_blocks (t'.tree.node idx))
  else Accounts (s.inode s.inodes.length) (node_blocks (s.tree.node (s.tree.nodes.length - 1)))

open Run (Keeps)

def numbered (n : Nat) (s : Formatter) : Inode × Nat := (s.inode n, s.inodes.length)

theorem keeps_numbered {α : Type} {m : FormatM α} (n : Nat) (h : Keeps catalog m) : Keeps (numbered n) m := by
  intro s
  have hinodes : (m s).2.inodes = s.inodes := congrArg (fun c => c.2.1) (h s)
  simp only [numbered, inode, hinodes]

theorem numbered_set_inode {m : Nat} (h : m - 1 ≠ n - 1) (s : Formatter) (i : Inode) :
    numbered n (s.set_inode m i) = numbered n s := by
  simp [numbered, inode, set_inode, List.getD, h]

theorem commit_directory_frame {idx : Nat} {parent : Option Nat} {t : Formatter} (hn : (t.tree.node idx).inode - 1 ≠ n - 1) :
    numbered n (commit_directory parent idx t).2 = numbered n t := by
  rw [commit_directory, get_bind_run]
  split
  · generalize (t.tree.node idx).inode = number at hn
    have hbody : ∀ ranges, Keeps (numbered n) (do
        let s ← .get
        let r ← write_extents_here (s.inode number) ranges
        .modify fun s => s.set_inode number r.1) := fun ranges =>
      .bind .get fun u => .bind (keeps_numbered n (keeps_write_extents_here _ _)) fun r =>
        .modify fun v => numbered_set_inode hn v r.1
    refine Keeps.bind (keeps_numbered n (keeps_write_aligned_payload_bytes _)) (fun ranges => ?_) t
    exact Keeps.bind (Keeps.modify fun u => numbered_set_inode hn u _) fun _ => hbody ranges
  · rfl

theorem Later.touched {s t : Formatter} (h : Later n s t) (hn : n - 1 < s.inodes.length) :
    s.inodes.length ≤ t.inodes.length ∧ Touched n (s.inode n) (t.inode n) := by
  induction h with
  | start => exact ⟨Nat.le_refl _, .refl n _⟩
  | @op t t' op r _ hrun ih =>
    have hstep : Changed t t' := by
      have := along_op op t
      rwa [hrun] at this
    exact ⟨ih.1.trans hstep.length, ih.2.trans (hstep.inodes n (Nat.lt_of_lt_of_le hn ih.1))⟩
  | @commit t t' parent idx _ hother hrun ih =>
    have hstep := @commit_directory_frame _ _ parent _ hother
    rw [hrun] at hstep
    obtain ⟨hinode, hlen⟩ := Prod.mk.inj hstep
    exact ⟨by rw [hlen]; exact ih.1, by rw [hinode]; exact ih.2⟩

theorem create_entry_cases {a : CreateArgs} (h : create_entry a s = (.ok (), s')) :
    ∃ i i' ts s₁ s₂ ranges parent parent_idx, Fresh i (needs_xattr_block (s.inodes.length + 1) a.xattrs) ∧
      write_content a parent (set_timestamps i ts) s₁ = (.ok (i', ranges), s₂) ∧
      register parent_idx (basename a.path) i' ranges s₂ = (.ok (), s') := by
  rw [create_entry, get_bind_run] at h
  obtain ⟨parent_idx, s₀, hparent, h⟩ := bind_run_ok.1 h
  obtain ⟨_, s₁, hcheck, h⟩ := bind_run_ok.1 h
  obtain ⟨i, s₂, hxattrs, h⟩ := bind_run_ok.1 h
  obtain ⟨ts, s₃, hts, h⟩ := bind_run_ok.1 h
  obtain ⟨⟨i', ranges⟩, s₄, hcontent, hregister⟩ := bind_run_ok.1 h
  have hs₀ : s₀ = s := (ofOption_run_ok.1 hparent).2
  have hs₁ : s₁ = s₀ := (check_run_ok.1 hcheck).2
  have hfresh := write_xattrs_fresh (new_inode_fresh _ _) hxattrs
  rw [hs₁, hs₀] at hfresh
  exact ⟨i, i', ts, s₃, s₄, ranges, _, parent_idx, hfresh, hcontent, hregister⟩

/-- The content of each type of entry, and whether its count is right. -/
theorem write_content_accounts {a : CreateArgs} {parent : Nat} (h : Fresh i p)
    (hw : write_content a parent i s = (.ok (i', ranges), s')) :
    (is_dir a.mode ∧ storage i' = storage i ∧ ranges = []) ∨
      (is_dir a.mode = false ∧ (Accounts i' ranges ↔ ¬ (is_link a.mode ∧ p)) ∧ ∃ size, Recorded size ranges) := by
  unfold write_content at hw
  split at hw
  · rename_i hdir
    rw [modify_bind_run] at hw
    cases hw
    exact .inl ⟨hdir, rfl, rfl⟩
  rename_i hdir
  refine .inr ⟨Bool.eq_false_of_not_eq_true hdir, ?_⟩
  split at hw
  · rename_i hlink
    cases hl : a.link with
    | none =>
      rw [hl] at hw
      cases hw
    | some target =>
      rw [hl] at hw
      obtain ⟨hiff, hrec⟩ := write_symlink_accounts h hw
      exact ⟨by rw [hiff, hlink]; simp, hrec⟩
  rename_i hlink
  split at hw
  · obtain ⟨⟨size, ranges₁⟩, s₁, hdata, hw⟩ := bind_run_ok.1 hw
    obtain ⟨⟨i₁, next⟩, s₂, hextents, hw⟩ := bind_run_ok.1 hw
    cases hw
    have hrec : Recorded size ranges := .inl ⟨s, s₁, a.data, hdata⟩
    have hfresh : Fresh (i.set_file_size size) p := h.congr rfl
    refine ⟨iff_of_true (accounts_of_fresh hfresh hrec hextents) ?_, size, hrec⟩
    exact fun hl => hlink hl.1
  · cases hw

theorem commit_directory_accounts {t t' : Formatter} {parent : Option Nat} {idx : Nat}
    (hlen : (t.tree.node idx).inode ≤ t.inodes.length) (hpos : 0 < (t.tree.node idx).inode)
    (hfresh : Fresh (t.inode (t.tree.node idx).inode) p) (hcommitted : t.is_committed idx)
    (h : commit_directory parent idx t = (.ok (), t')) :
    Accounts (t'.inode (t.tree.node idx).inode) (node_blocks (t'.tree.node idx)) := by
  rw [commit_directory, get_bind_run, if_pos hcommitted] at h
  obtain ⟨ranges, t₁, hwrite, h⟩ := bind_run_ok.1 h
  have hrec : Recorded _ ranges := .inr (.inl ⟨t, t₁, _, rfl, hwrite⟩)
  have hkeep := keeps_write_aligned_payload_bytes (t.directory_content parent idx) t
  rw [hwrite] at hkeep
  simp only [catalog, Prod.mk.injEq] at hkeep
  obtain ⟨htree, hinodes, -⟩ := hkeep
  obtain ⟨_, u, hmodify, h⟩ := bind_run_ok.1 h
  rw [get_bind_run] at h
  obtain ⟨⟨i', next⟩, u', hextents, h⟩ := bind_run_ok.1 h
  generalize hnumber : (t.tree.node idx).inode = number at *
  have hidx : idx < t.tree.nodes.length := by
    by_contra hge
    rw [FileTree.node_of_ge (Nat.le_of_not_lt hge)] at hnumber
    exact absurd (hnumber : 0 = number) (Nat.ne_of_lt hpos)
  -- the extents are those of the directory's inode with its size set
  have hinode : u.inode number = (t.inode number).set_file_size (t.directory_content parent idx).size := by
    cases hmodify
    show (t₁.set_inode number _).inode number = _
    rw [inode_set_inode hpos (by rwa [hinodes]) hpos, if_pos rfl]
    simp only [inode, hinodes]
  have hunode : u.tree.node idx = { t.tree.node idx with blocks := ranges.head?, additional_blocks := ranges.tail } := by
    cases hmodify
    show (t₁.tree.set_node idx _).node idx = _
    rw [FileTree.node_set_node _ (by rwa [htree]), if_pos rfl, htree]
  have hulen : u.inodes.length = t.inodes.length := by
    cases hmodify
    show (t₁.inodes.set _ _).length = _
    rw [length_set, hinodes]
  have hkeep := keeps_write_extents_here (u.inode number) ranges u
  rw [hextents] at hkeep
  simp only [catalog, Prod.mk.injEq] at hkeep
  obtain ⟨htree', hinodes', -⟩ := hkeep
  have ht' : t' = u'.set_inode number i' := by
    cases h
    rfl
  have hresult : t'.inode number = i' := by
    rw [ht', inode_set_inode hpos (by rw [hinodes', hulen]; exact hlen) hpos, if_pos rfl]
  have hnode : node_blocks (t'.tree.node idx) = ranges := by
    have htnode : t'.tree.node idx = u.tree.node idx := by
      rw [ht', ← htree']
      rfl
    rw [htnode, hunode]
    exact node_blocks_of_ranges (fun r hr => ((recorded_bounds hrec).1 r hr).2.1) rfl rfl
  rw [hresult, hnode]
  rw [hinode] at hextents
  have hfresh' : Fresh ((t.inode number).set_file_size (t.directory_content parent idx).size) p := hfresh.congr rfl
  exact accounts_of_fresh hfresh' hrec hextents

theorem create_accounts_iff (a : CreateArgs) (s s' : Formatter) (h : create_entry a s = (.ok (), s')) :
    FinalAccounts a s' ↔ ¬ (is_link a.mode = true ∧ needs_xattr_block (s.inodes.length + 1) a.xattrs = true) := by
  obtain ⟨i, i', ts, s₁, s₂, ranges, parent, parent_idx, hfresh, hcontent, hregister⟩ := create_entry_cases h
  have hfresh₁ : Fresh (set_timestamps i ts) (needs_xattr_block (s.inodes.length + 1) a.xattrs = true) := hfresh.congr rfl
  obtain ⟨hblocks, hadditional, hcount⟩ := blocks_of_added s₂.tree parent_idx
    { inode := s₂.inodes.length + 1, name := basename a.path, blocks := ranges.head?, additional_blocks := ranges.tail }
  have hlength : s'.inodes.length = s₂.inodes.length + 1 := by
    cases hregister
    simp
  have hinode : s'.inode s'.inodes.length = i' := by
    rw [hlength]
    cases hregister
    simp [inode]
  unfold FinalAccounts
  rcases write_content_accounts hfresh₁ hcontent with ⟨hdir, hstorage, -⟩ | ⟨hdir, hiff, size, hrec⟩
  · -- a directory, whose mode is not that of a link
    have hnot : ¬ is_link a.mode = true := by
      simp only [is_dir, is_link, beq_iff_eq] at hdir ⊢
      rw [hdir]
      decide
    rw [if_pos hdir]
    refine iff_of_true ?_ fun hl => hnot hl.1
    intro t t' parent idx hlater hidx hcommitted hrun
    obtain ⟨hlen, htouched⟩ := hlater.touched (by omega)
    have hsame : storage (t.inode s'.inodes.length) = storage (s'.inode s'.inodes.length) := by
      refine (htouched.1 ?_).2
      rw [is_committed, hidx] at hcommitted
      exact (Bool.and_eq_true _ _ ▸ hcommitted).2
    have hfresh₂ : Fresh (t.inode s'.inodes.length) (needs_xattr_block (s.inodes.length + 1) a.xattrs = true) :=
      hfresh₁.congr (by rw [hsame, hinode, hstorage])
    rw [← hidx] at hfresh₂ hlen ⊢
    exact commit_directory_accounts hlen (by omega) hfresh₂ hcommitted hrun
  · rw [if_neg (by simp [hdir]), hinode, ← hiff]
    have hnode : node_blocks (s'.tree.node (s'.tree.nodes.length - 1)) = ranges := by
      cases hregister
      refine node_blocks_of_ranges (fun r hr => ((recorded_bounds hrec).1 r hr).2.1) ?_ ?_
      · simp only [hcount, Nat.add_sub_cancel, hblocks]
      · simp only [hcount, Nat.add_sub_cancel, hadditional]
    rw [hnode]

def tagged_file : CreateArgs :=
  { path := "/f".toList, mode := make_mode file_mode.S_IFREG 0o644, xattrs := some [("user.a".toList, List.replicate 200 0)] }

theorem tagged_file_accounts : ∃ s₀ s', small = .ok s₀ ∧ create_entry tagged_file s₀ = (.ok (), s') ∧
    needs_xattr_block (s₀.inodes.length + 1) tagged_file.xattrs = true ∧ FinalAccounts tagged_file s' := by
  obtain ⟨s₀, hs₀, hrun, hblock⟩ := exists_ok_of_decide (x := small)
    (p := fun s => (create_entry tagged_file s).1.isOk = true ∧
      needs_xattr_block (s.inodes.length + 1) tagged_file.xattrs = true) (by decide +kernel)
  obtain ⟨_, hr⟩ := exists_ok_of_isOk hrun
  have hrun' : create_entry tagged_file s₀ = (.ok (), (create_entry tagged_file s₀).2) := Prod.ext hr rfl
  refine ⟨s₀, _, hs₀, hrun', hblock, (create_accounts_iff tagged_file s₀ _ hrun').2 fun h => ?_⟩
  exact absurd h.1 (by decide)

def tagged_link : CreateArgs :=
  { path := "/l".toList, mode := make_mode file_mode.S_IFLNK 0o777, link := some "f".toList
    xattrs := some [("user.a".toList, List.replicate 200 0)] }

/-- The link's inode owns the block of its attributes and counts none. -/
theorem tagged_link_counts_nothing : ∃ s₀ s', small = .ok s₀ ∧ create tagged_link s₀ = (.ok (), s') ∧
    s'.tree.lookup tagged_link.path = some 2 ∧ (s'.tree.node 2).inode = 12 ∧ counted_blocks (s'.inode 12) = 0 ∧
      owned_blocks (s'.inode 12) (node_blocks (s'.tree.node 2)) = 1 := by
  obtain ⟨s₀, hs₀, hrun, hfacts⟩ := exists_ok_of_decide (x := small)
    (p := fun s =>
      let s' := (create tagged_link s).2
      (create tagged_link s).1.isOk = true ∧ s'.tree.lookup tagged_link.path = some 2 ∧ (s'.tree.node 2).inode = 12 ∧
        counted_blocks (s'.inode 12) = 0 ∧ owned_blocks (s'.inode 12) (node_blocks (s'.tree.node 2)) = 1)
    (by decide +kernel)
  obtain ⟨_, hr⟩ := exists_ok_of_isOk hrun
  exact ⟨s₀, _, hs₀, Prod.ext hr rfl, hfacts⟩

end Formatter

end Silo.Ext4
