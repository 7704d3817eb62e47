import Silo.Ext4.Extent
/-!
# Extent trees read back

`write_extents` against `parse_extents`. The leaves of a list of ranges cover its
blocks in order (`Covers`), at most `MAX_BLOCKS_PER_EXTENT` blocks each; a node gives
its entries back, in the inode or in an index block; so a tree whose leaves fit four
index blocks gives the blocks back that it was built from.
-/

namespace Silo.Ext4

open List Lib

/-! ## The leaves of a list of ranges -/

namespace BlockRange

def blocks (r : BlockRange) : List Nat := List.range' r.start r.size

end BlockRange

/-- The leaves take up the logical blocks from `logical` on without a gap, none of them empty or too long. -/
def Contiguous : Nat → List ExtentLeaf → Prop
  | _, [] => True
  | logical, l :: ls =>
    l.block.toNat = logical ∧ 0 < l.len.toNat ∧ l.len.toNat ≤ MAX_BLOCKS_PER_EXTENT ∧ Contiguous (logical + l.len.toNat) ls

/-- The leaves map the logical blocks from `logical` on to the physical blocks of the list, in order. -/
structure Covers (logical : Nat) (leaves : List ExtentLeaf) (blocks : List Nat) : Prop where
  contiguous : Contiguous logical leaves
  physical : leaves.flatMap (fun l => l.range.blocks) = blocks

variable {logical : Nat}

theorem Contiguous.append {as bs : List ExtentLeaf} {n : Nat} (ha : Contiguous logical as)
    (hn : (as.map fun l => l.len.toNat).sum = n) (hb : Contiguous (logical + n) bs) : Contiguous logical (as ++ bs) := by
  induction as generalizing logical n with
  | nil =>
    obtain rfl : 0 = n := by simpa using hn
    exact hb
  | cons l as ih =>
    obtain ⟨h₁, h₂, h₃, h₄⟩ := ha
    rw [map_cons, sum_cons] at hn
    refine ⟨h₁, h₂, h₃, ih h₄ rfl ?_⟩
    rwa [Nat.add_assoc, hn]

variable {leaves : List ExtentLeaf}

theorem Contiguous.len_le (h : Contiguous logical leaves) :
    ∀ l ∈ leaves, 0 < l.len.toNat ∧ l.len.toNat ≤ MAX_BLOCKS_PER_EXTENT := by
  induction leaves generalizing logical with
  | nil => simp
  | cons l ls ih =>
    obtain ⟨-, h₂, h₃, h₄⟩ := h
    exact forall_mem_cons.2 ⟨⟨h₂, h₃⟩, ih h₄⟩

structure RangeLeaves (logical phys remaining : Nat) (leaves : List ExtentLeaf) : Prop where
  covers : Covers logical leaves (List.range' phys remaining)
  total : (leaves.map fun l => l.len.toNat).sum = remaining
  few : leaves.length ≤ remaining / MAX_BLOCKS_PER_EXTENT + 1

theorem fill_range_leaves {fuel logical phys remaining : Nat} (hfuel : remaining ≤ fuel)
    (hlogical : logical + remaining ≤ 2 ^ 32) (hphys : phys + remaining ≤ 2 ^ 32) :
    RangeLeaves logical phys remaining (fill_range fuel logical phys remaining) := by
  induction fuel generalizing logical phys remaining with
  | zero =>
    obtain rfl : remaining = 0 := Nat.le_zero.1 hfuel
    exact ⟨⟨trivial, rfl⟩, rfl, Nat.zero_le _⟩
  | succ fuel ih =>
    rw [fill_range]
    by_cases h0 : remaining = 0
    · rw [if_pos h0, h0]
      exact ⟨⟨trivial, rfl⟩, rfl, Nat.zero_le _⟩
    rw [if_neg h0]
    obtain ⟨len, hlen⟩ : ∃ len, len = min remaining MAX_BLOCKS_PER_EXTENT := ⟨_, rfl⟩
    simp only [← hlen]
    have hmax : MAX_BLOCKS_PER_EXTENT = 32768 := rfl
    have hrest := @ih (logical + len) (phys + len) (remaining - len) (by omega) (by omega) (by omega)
    have hlenNat : (UInt16.ofNat len).toNat = len := by rw [UInt16.toNat_ofNat']; omega
    have hblock : (UInt32.ofNat logical).toNat = logical := by rw [UInt32.toNat_ofNat']; omega
    have hstart : (UInt32.ofNat phys).toNat = phys := by rw [UInt32.toNat_ofNat']; omega
    refine ⟨⟨⟨hblock, ?_, ?_, ?_⟩, ?_⟩, ?_, ?_⟩
    · show 0 < (UInt16.ofNat len).toNat
      omega
    · show (UInt16.ofNat len).toNat ≤ _
      omega
    · show Contiguous (logical + (UInt16.ofNat len).toNat) _
      rw [hlenNat]
      exact hrest.covers.contiguous
    · rw [flatMap_cons, hrest.covers.physical]
      simp only [ExtentLeaf.range, BlockRange.blocks, BlockRange.size, hstart, hlenNat, Nat.add_sub_cancel_left]
      rw [range'_append_1, Nat.add_sub_cancel' (by omega)]
    · rw [map_cons, sum_cons, hrest.total]
      simp only [hlenNat]
      omega
    · have hfew := hrest.few
      rw [length_cons]
      rw [hmax] at hfew hlen ⊢
      -- a leaf that is not full is the last one
      by_cases hfull : remaining ≤ 32768
      · have hend : remaining - len = 0 := by omega
        have hnil : fill_range fuel (logical + len) (phys + len) (remaining - len) = [] := by
          rw [hend]
          cases fuel <;> rfl
        rw [hnil, length_nil]
        omega
      · omega

theorem fill_ranges_leaves {ranges : List BlockRange} (hle : ∀ r ∈ ranges, r.start ≤ r.end_ ∧ r.end_ ≤ 2 ^ 32)
    (hlogical : logical + (ranges.map BlockRange.size).sum ≤ 2 ^ 32) :
    Covers logical (fill_extent_leaves_from_ranges logical ranges) (ranges.flatMap BlockRange.blocks) ∧
      ((fill_extent_leaves_from_ranges logical ranges).map fun l => l.len.toNat).sum = (ranges.map BlockRange.size).sum ∧
      (fill_extent_leaves_from_ranges logical ranges).length ≤
        (ranges.map BlockRange.size).sum / MAX_BLOCKS_PER_EXTENT + ranges.length := by
  induction ranges generalizing logical with
  | nil => exact ⟨⟨trivial, rfl⟩, rfl, Nat.zero_le _⟩
  | cons r ranges ih =>
    rw [map_cons, sum_cons] at hlogical ⊢
    have hr := hle r mem_cons_self
    have hfirst : RangeLeaves logical r.start r.size (fill_range r.size logical r.start r.size) :=
      fill_range_leaves (Nat.le_refl _) (by omega) (by simp only [BlockRange.size]; omega)
    obtain ⟨hcovers, htotal, hfew⟩ := @ih (logical + r.size) (fun r hr => hle r (mem_cons_of_mem _ hr)) (by omega)
    have hfirstFew := hfirst.few
    refine ⟨⟨hfirst.covers.contiguous.append hfirst.total hcovers.contiguous, ?_⟩, ?_, ?_⟩
    · rw [fill_extent_leaves_from_ranges, flatMap_append, hfirst.covers.physical, hcovers.physical, flatMap_cons]
      rfl
    · rw [fill_extent_leaves_from_ranges, map_append, sum_append, hfirst.total, htotal]
    · rw [fill_extent_leaves_from_ranges, length_append, length_cons]
      simp only [MAX_BLOCKS_PER_EXTENT] at hfew hfirstFew ⊢
      omega

/-! ## Nodes -/

section Node

variable {a b : Buf}

section
variable (h : ∀ i < 12, a i = b i)
include h

theorem ExtentHeader.read_congr : read_from a = read_from b := by
  simp only [read_from, mk.injEq]
  refine ⟨getU16_congr ?_, getU16_congr ?_, getU16_congr ?_, getU16_congr ?_, getU32_congr ?_⟩ <;>
    exact fun i hi => h i (by omega)

theorem ExtentLeaf.read_congr : read_from a = read_from b := by
  simp only [read_from, mk.injEq]
  refine ⟨getU32_congr ?_, getU16_congr ?_, getU16_congr ?_, getU32_congr ?_⟩ <;> exact fun i hi => h i (by omega)

theorem ExtentIndex.read_congr : read_from a = read_from b := by
  simp only [read_from, mk.injEq]
  refine ⟨getU32_congr ?_, getU32_congr ?_, getU16_congr ?_, getU16_congr ?_⟩ <;> exact fun i hi => h i (by omega)

end

variable {header : ExtentHeader} {entries : List Bytes} (hsize : ∀ e ∈ entries, e.size = 12)
include hsize

theorem node_apart :
    ((({ off := 0, src := header.write_to } : Field) :: entriesAt 12 entries).map Field.span).Pairwise Apart := by
  rw [map_cons, pairwise_cons]
  constructor
  · intro s hs
    obtain ⟨f, hf, rfl⟩ := mem_map.1 hs
    obtain ⟨i, -, rfl⟩ := mem_mapIdx.1 hf
    left
    simp only [Field.span, ExtentHeader.write_to]
    omega
  · rw [pairwise_map, pairwise_iff_getElem]
    intro i j hi hj hij
    simp only [entriesAt, getElem_mapIdx, length_mapIdx] at hi hj ⊢
    left
    simp only [Field.span]
    rw [hsize _ (getElem_mem hi)]
    omega

theorem node_header : ExtentHeader.read_from (extentNode header entries) = header := by
  refine Eq.trans (ExtentHeader.read_congr ?_) header.read_write
  intro i hi
  have := fields_read (@node_apart header entries hsize) (f := ⟨0, header.write_to⟩) mem_cons_self hi fun _ => 0
  rwa [Nat.zero_add] at this

theorem node_entry {i : Nat} (hi : i < entries.length) :
    ∀ k < 12, extentNode header entries (12 + i * 12 + k) = entries[i].get k := by
  intro k hk
  refine fields_read (@node_apart header entries hsize) (f := ⟨12 + i * 12, entries[i]⟩) ?_ ?_ _
  · exact mem_cons_of_mem _ (mem_mapIdx.2 ⟨i, hi, rfl⟩)
  · rwa [hsize _ (getElem_mem hi)]

end Node

/-- The first `entries` leaves of a node, with their logical blocks. -/
def node_leaves (node : Buf) (entries : Nat) : List ExtentLeaf :=
  (List.range entries).map fun i => ExtentLeaf.read_from fun k => node (12 + i * 12 + k)

def node_indices (node : Buf) (entries : Nat) : List ExtentIndex :=
  (List.range entries).map fun i => ExtentIndex.read_from fun k => node (12 + i * 12 + k)

theorem parse_leaves_eq {node : Buf} {size entries : Nat} (hroom : 12 + entries * 12 ≤ size) :
    parse_leaves node size entries = .ok ((node_leaves node entries).map ExtentLeaf.range) := by
  rw [parse_leaves, mapM_eq_ok, forall₂_iff_get]
  refine ⟨by simp [node_leaves], fun i h₁ h₂ => ?_⟩
  have hi : i < entries := by simpa using h₁
  simp only [node_leaves, get_eq_getElem, getElem_range, getElem_map]
  exact bind_eq_ok.2 ⟨(), require_eq_ok.2 (by omega), rfl⟩

section Entries

variable {header : ExtentHeader} {node : Buf} {size : Nat}

theorem leaf_sizes (leaves : List ExtentLeaf) : ∀ e ∈ leaves.map ExtentLeaf.write_to, e.size = 12 :=
  forall_mem_map.2 fun _ _ => rfl

theorem index_sizes (indices : List ExtentIndex) : ∀ e ∈ indices.map ExtentIndex.write_to, e.size = 12 :=
  forall_mem_map.2 fun _ _ => rfl

/-- The leaves of a node read back, from any buffer that agrees with the node. -/
theorem node_leaves_node (hroom : 12 + leaves.length * 12 ≤ size)
    (hnode : ∀ i < size, node i = extentNode header (leaves.map ExtentLeaf.write_to) i) : node_leaves node leaves.length = leaves := by
  apply ext_getElem
  · simp [node_leaves]
  · intro i h₁ hi
    simp only [node_leaves, getElem_map, getElem_range]
    refine Eq.trans (ExtentLeaf.read_congr ?_) (leaves[i]).read_write
    intro k hk
    rw [hnode _ (by omega), node_entry (leaf_sizes _) (by simpa using hi) k hk, getElem_map]

theorem node_indices_node {indices : List ExtentIndex} (hroom : 12 + indices.length * 12 ≤ size)
    (hnode : ∀ i < size, node i = extentNode header (indices.map ExtentIndex.write_to) i) :
    node_indices node indices.length = indices := by
  apply ext_getElem
  · simp [node_indices]
  · intro i h₁ hi
    simp only [node_indices, getElem_map, getElem_range]
    refine Eq.trans (ExtentIndex.read_congr ?_) (indices[i]).read_write
    intro k hk
    rw [hnode _ (by omega), node_entry (index_sizes _) (by simpa using hi) k hk, getElem_map]

theorem node_header_of_agree {entries : List Bytes} (hsize : ∀ e ∈ entries, e.size = 12) (hroom : 12 ≤ size)
    (hnode : ∀ i < size, node i = extentNode header entries i) : ExtentHeader.read_from node = header :=
  Eq.trans (ExtentHeader.read_congr fun i hi => hnode i (by omega)) (node_header hsize)

end Entries

/-! ## Index blocks -/

theorem leafChunks_flatten (n : Nat) (h : leaves.length ≤ n * leaves_per_block) :
    (leafChunks n leaves).flatten = leaves := by
  induction n generalizing leaves with
  | zero => simpa [leafChunks] using h
  | succ n ih =>
    rw [leafChunks, flatten_cons, ih, take_append_drop]
    rw [length_drop]
    rw [Nat.succ_mul] at h
    omega

theorem leafChunks_length (n : Nat) (leaves : List ExtentLeaf) : (leafChunks n leaves).length = n := by
  induction n generalizing leaves with
  | zero => rfl
  | succ n ih => rw [leafChunks, length_cons, ih]

theorem leafChunks_short (n : Nat) (leaves : List ExtentLeaf) : ∀ c ∈ leafChunks n leaves, c.length ≤ leaves_per_block := by
  induction n generalizing leaves with
  | zero => simp [leafChunks]
  | succ n ih => exact forall_mem_cons.2 ⟨length_take_le _ _, ih _⟩

def HoldsIndexBlock (file : File) (block : Nat) (chunk : List ExtentLeaf) : Prop :=
  (∀ i < BLOCK_SIZE, file.bytes (block * BLOCK_SIZE + i) = (indexBlock chunk).get i) ∧ block * BLOCK_SIZE + BLOCK_SIZE ≤ file.len

variable {file : File}

theorem HoldsIndexBlock.write {block other : Nat} {chunk chunk' : List ExtentLeaf}
    (h : HoldsIndexBlock file block chunk) (hne : other ≠ block) :
    HoldsIndexBlock (file.write (other * BLOCK_SIZE) (indexBlock chunk')) block chunk := by
  refine ⟨fun i hi => ?_, Nat.le_trans h.2 (File.le_len_write _ _ _)⟩
  rw [File.write_bytes, copyAt_outside, h.1 i hi]
  simp only [indexBlock, BLOCK_SIZE] at hi ⊢
  omega

theorem holds_written (file : File) (block : Nat) (chunk : List ExtentLeaf) :
    HoldsIndexBlock (file.write (block * BLOCK_SIZE) (indexBlock chunk)) block chunk := by
  refine ⟨fun i hi => copyAt_inside hi, ?_⟩
  have hne : (indexBlock chunk).size ≠ 0 := (by decide : BLOCK_SIZE ≠ 0)
  simp only [File.write, if_neg hne]
  exact Nat.le_max_right _ _

theorem HoldsIndexBlock.write_all {block current : Nat} {chunk : List ExtentLeaf} {chunks : List (List ExtentLeaf)}
    (h : HoldsIndexBlock file block chunk) (hne : ∀ k < chunks.length, (current + k) % 2 ^ 32 ≠ block) :
    HoldsIndexBlock (write_index_blocks file current chunks) block chunk := by
  induction chunks generalizing file current with
  | nil => exact h
  | cons c chunks ih =>
    rw [write_index_blocks]
    apply ih (h.write (hne 0 (Nat.succ_pos _)))
    intro k hk
    have := hne (k + 1) (Nat.succ_lt_succ hk)
    rwa [Nat.add_comm k, ← Nat.add_assoc] at this

/-- All index blocks are where the inode's index entries say. -/
theorem write_index_blocks_holds {current : Nat} {chunks : List (List ExtentLeaf)} (hfew : chunks.length ≤ 4)
    {k : Nat} (hk : k < chunks.length) :
    HoldsIndexBlock (write_index_blocks file current chunks) ((current + k) % 2 ^ 32) chunks[k] := by
  induction chunks generalizing file current k with
  | nil => cases hk
  | cons c chunks ih =>
    rw [write_index_blocks]
    cases k with
    | zero =>
      refine (holds_written _ _ _).write_all fun k hk => ?_
      rw [length_cons] at hfew
      omega
    | succ k =>
      have := @ih (file.write (current % 2 ^ 32 * BLOCK_SIZE) (indexBlock c)) (current + 1)
        (by rw [length_cons] at hfew; omega) k (Nat.lt_of_succ_lt_succ hk)
      rwa [Nat.add_assoc, Nat.add_comm 1 k] at this

theorem HoldsIndexBlock.read {block : Nat} {chunk : List ExtentLeaf} (h : HoldsIndexBlock file block chunk)
    (hshort : chunk.length ≤ leaves_per_block) :
    (ExtentHeader.read_from (file.drop (block * BLOCK_SIZE))).entries.toNat = chunk.length ∧
      node_leaves (file.drop (block * BLOCK_SIZE)) chunk.length = chunk ∧
      parse_index_block BLOCK_SIZE file block = .ok (chunk.map ExtentLeaf.range) := by
  have hleaves : leaves_per_block = 340 := rfl
  have hblock : BLOCK_SIZE = 4096 := rfl
  have hheader : ExtentHeader.read_from (file.drop (block * BLOCK_SIZE)) = _ :=
    node_header_of_agree (leaf_sizes _) (by omega) h.1
  have hentries : (UInt16.ofNat chunk.length).toNat = chunk.length := by
    rw [UInt16.toNat_ofNat']
    omega
  have hnode : node_leaves (file.drop (block * BLOCK_SIZE)) chunk.length = chunk := node_leaves_node (by omega) h.1
  refine ⟨by rw [hheader, hentries], hnode, ?_⟩
  refine bind_eq_ok.2 ⟨file.drop (block * BLOCK_SIZE), orFail_eq_ok.2 (if_pos h.2), ?_⟩
  rw [hheader]
  refine bind_eq_ok.2 ⟨(), require_eq_ok.2 ⟨rfl, rfl⟩, ?_⟩
  rw [hentries, parse_leaves_eq (by omega), hnode]

/-! ## Trees -/

/-- All leaves of an inode's tree, with their logical blocks, in the order of the tree. -/
def tree_leaves (inode : Inode) (file : File) : List ExtentLeaf :=
  let header := ExtentHeader.read_from inode.blockBuf
  if header.magic ≠ EXTENT_HEADER_MAGIC then []
  else if header.depth = 0 then node_leaves inode.blockBuf header.entries.toNat
  else (node_indices inode.blockBuf header.entries.toNat).flatMap fun index =>
    node_leaves (file.drop (index.leaf * BLOCK_SIZE))
      (ExtentHeader.read_from (file.drop (index.leaf * BLOCK_SIZE))).entries.toNat

/-- The tree holds the leaves, and `parse_extents` finds them. -/
structure HoldsTree (inode : Inode) (file : File) (leaves : List ExtentLeaf) : Prop where
  stored : tree_leaves inode file = leaves
  parsed : parse_extents inode BLOCK_SIZE file = .ok (leaves.map ExtentLeaf.range)

theorem blockBuf_eq {inode : Inode} {buf : Buf} (h : inode.block = fun i : Fin 60 => buf i) :
    ∀ i < INODE_BLOCK_SIZE, inode.blockBuf i = buf i := by
  intro i hi
  have hlt : i < 60 := hi
  simp [Inode.blockBuf, Bytes.ofFn, h, hlt]

theorem write_inline_extents_holds (inode : Inode) (data_blocks : Nat) (hfew : leaves.length ≤ 4)
    (file : File) : HoldsTree (write_inline_extents inode data_blocks leaves) file leaves := by
  have hroom : INODE_BLOCK_SIZE = 60 := rfl
  have hnode := @blockBuf_eq (write_inline_extents inode data_blocks leaves) _ rfl
  have hheader := node_header_of_agree (leaf_sizes _) (by omega) hnode
  have hleaves := node_leaves_node (by omega) hnode
  have hentries : (UInt16.ofNat leaves.length).toNat = leaves.length := by
    rw [UInt16.toNat_ofNat']
    omega
  constructor
  · simp only [tree_leaves, hheader, ne_eq, not_true_eq_false, if_false, if_true, hentries, hleaves]
  · simp only [parse_extents, hheader, ne_eq, not_true_eq_false, if_false, if_true, hentries]
    rw [parse_leaves_eq (by omega), hleaves]

def indexEntries (current_block : Nat) (chunks : List (List ExtentLeaf)) : List ExtentIndex :=
  chunks.mapIdx fun i chunk => { block := (chunk.head?.map ExtentLeaf.block).getD 0, leaf_lo := .ofNat (current_block + i) }

theorem write_indexed_extents_holds (inode : Inode) (data_blocks : Nat)
    (hfew : leaves.length ≤ 4 * leaves_per_block) (file : File) (current_block : Nat) :
    ∃ inode' file' next, write_indexed_extents inode data_blocks leaves file current_block = some (inode', file', next) ∧
      HoldsTree inode' file' leaves := by
  obtain ⟨n, hn⟩ : ∃ n, n = div_ceil leaves.length leaves_per_block := ⟨_, rfl⟩
  have hper : leaves_per_block = 340 := rfl
  have hn4 : n ≤ 4 := by
    rw [hn, div_ceil, hper]
    omega
  have henough : leaves.length ≤ n * leaves_per_block := by
    rw [hn, div_ceil, hper]
    omega
  obtain ⟨chunks, hchunks⟩ : ∃ chunks, chunks = leafChunks n leaves := ⟨_, rfl⟩
  have hlength : chunks.length = n := by rw [hchunks, leafChunks_length]
  have hflatten : chunks.flatten = leaves := by rw [hchunks, leafChunks_flatten n henough]
  have hshort : ∀ c ∈ chunks, c.length ≤ leaves_per_block := by
    rw [hchunks]
    exact leafChunks_short n leaves
  have hcount : (indexEntries current_block chunks).length = n := by rw [indexEntries, length_mapIdx, hlength]
  have hentries : (UInt16.ofNat n).toNat = n := by
    rw [UInt16.toNat_ofNat']
    omega
  have hroom : INODE_BLOCK_SIZE = 60 := rfl
  unfold write_indexed_extents
  simp only [← hn, if_neg (Nat.not_lt.2 hn4), ← hchunks]
  refine ⟨_, _, _, rfl, ?_⟩
  generalize hinode : ({ add_inode_blocks _ _ with flags := _ } : Inode) = inode'
  have hnode : ∀ i < INODE_BLOCK_SIZE, inode'.blockBuf i =
      extentNode { magic := EXTENT_HEADER_MAGIC, entries := .ofNat n, max := 4, depth := 1 }
        ((indexEntries current_block chunks).map ExtentIndex.write_to) i := blockBuf_eq (by rw [← hinode]; rfl)
  have hheader := node_header_of_agree (index_sizes _) (by omega) hnode
  have hindices := node_indices_node (by omega) hnode
  rw [hcount] at hindices
  -- every index entry leads to the block that was written for it
  have hleaf : ∀ k (hk : k < chunks.length) (hk' : k < (indexEntries current_block chunks).length),
      HoldsIndexBlock (write_index_blocks file current_block chunks) (indexEntries current_block chunks)[k].leaf chunks[k] := by
    intro k hk hk'
    have hnumber : (indexEntries current_block chunks)[k].leaf = (current_block + k) % 2 ^ 32 := by
      simp [indexEntries, ExtentIndex.leaf, UInt32.toNat_ofNat']
    rw [hnumber]
    exact write_index_blocks_holds (by omega) hk
  constructor
  · simp only [tree_leaves, hheader, ne_eq, not_true_eq_false, if_false, hentries, hindices]
    rw [if_neg (by decide), flatMap_def, ← hflatten]
    congr 1
    apply ext_getElem
    · rw [length_map, hcount, hlength]
    · intro k h₁ h₂
      obtain ⟨hlen, hread, -⟩ := (hleaf k h₂ (by omega)).read (hshort _ (getElem_mem h₂))
      rw [getElem_map, hlen, hread]
  · simp only [parse_extents, hheader, ne_eq, not_true_eq_false, if_false, if_true]
    rw [if_neg (by decide)]
    have hranges : (List.range n).mapM (fun i => do
        require (12 + i * 12 + 12 ≤ INODE_BLOCK_SIZE) .InvalidExtents
        parse_index_block BLOCK_SIZE (write_index_blocks file current_block chunks)
          (ExtentIndex.read_from fun k => inode'.blockBuf (12 + i * 12 + k)).leaf) =
        (.ok (chunks.map fun c => c.map ExtentLeaf.range) : Except ReadError _) := by
      rw [mapM_eq_ok, forall₂_iff_get]
      refine ⟨by rw [length_range, length_map, hlength], fun k h₁ h₂ => ?_⟩
      have hk : k < chunks.length := by simpa using h₂
      have hindex : ExtentIndex.read_from (fun j => inode'.blockBuf (12 + k * 12 + j)) =
          (indexEntries current_block chunks)[k] := by
        simp only [← hindices, node_indices, getElem_map, getElem_range]
      simp only [get_eq_getElem, getElem_range, getElem_map, hindex]
      refine bind_eq_ok.2 ⟨(), require_eq_ok.2 (by omega), ?_⟩
      exact ((hleaf k hk (by omega)).read (hshort _ (getElem_mem hk))).2.2
    refine bind_eq_ok.2 ⟨chunks.map fun c => c.map ExtentLeaf.range, ?_, ?_⟩
    · simpa only [hentries] using hranges
    · rw [pure_eq_ok, ← hflatten, map_flatten]

/-- `write_extents` for ranges whose leaves fit four index blocks: it succeeds, and the tree maps the logical blocks
from 0 on to the blocks of the ranges, in order. -/
theorem write_extents_holds {inode : Inode} (hnew : inode.block = fun _ => 0) {ranges : List BlockRange}
    (hle : ∀ r ∈ ranges, r.start ≤ r.end_ ∧ r.end_ ≤ 2 ^ 32) (htotal : (ranges.map BlockRange.size).sum ≤ 2 ^ 32)
    (hfew : (ranges.map BlockRange.size).sum / MAX_BLOCKS_PER_EXTENT + ranges.length ≤ 4 * leaves_per_block) (file : File)
    (current_block : Nat) :
    ∃ inode' file' next, write_extents inode ranges file current_block = some (inode', file', next) ∧
      HoldsTree inode' file' (fill_extent_leaves_from_ranges 0 ranges) ∧
      Covers 0 (fill_extent_leaves_from_ranges 0 ranges) (ranges.flatMap BlockRange.blocks) := by
  obtain ⟨hcovers, hsum, hlen⟩ := @fill_ranges_leaves 0 _ hle (by omega)
  unfold write_extents
  by_cases h0 : (ranges.map BlockRange.size).sum = 0
  · -- no data: the inode keeps its zeros, which are not a tree
    have hnil : fill_extent_leaves_from_ranges 0 ranges = [] := by
      cases hl : fill_extent_leaves_from_ranges 0 ranges with
      | nil => rfl
      | cons l ls =>
        have hc := hcovers.contiguous
        rw [hl] at hc hsum
        have := hc.2.1
        rw [h0, map_cons, sum_cons] at hsum
        omega
    have hmagic : (ExtentHeader.read_from inode.blockBuf).magic ≠ EXTENT_HEADER_MAGIC := by
      have : ExtentHeader.read_from inode.blockBuf = ExtentHeader.read_from fun _ => 0 :=
        ExtentHeader.read_congr fun i hi => @blockBuf_eq _ (fun _ => 0) hnew i (Nat.lt_trans hi (by decide))
      rw [this]
      decide
    simp only [if_pos h0]
    refine ⟨_, _, _, rfl, ⟨?_, ?_⟩, hcovers⟩
    · simp only [tree_leaves, if_pos hmagic, hnil]
    · simp only [parse_extents, if_pos hmagic, hnil, map_nil]
  · simp only [if_neg h0]
    by_cases h4 : (fill_extent_leaves_from_ranges 0 ranges).length ≤ 4
    · simp only [if_pos h4]
      exact ⟨_, _, _, rfl, write_inline_extents_holds inode _ h4 file, hcovers⟩
    · simp only [if_neg h4]
      obtain ⟨inode', file', next, hw, ht⟩ := write_indexed_extents_holds inode (ranges.map BlockRange.size).sum
        (Nat.le_trans hlen hfew) file current_block
      exact ⟨inode', file', next, hw, ht, hcovers⟩

end Silo.Ext4
