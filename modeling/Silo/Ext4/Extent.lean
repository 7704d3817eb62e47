import Silo.Lib.Checks
import Silo.Ext4.Types
/-!
# Extent trees

`extent.rs`: how the block ranges of a file are written into its inode (up to four
extents) or into index blocks, and how they are read back. `file_tree.rs`'s
`BlockRange` and the reader's errors are here too.
-/

namespace Silo.Ext4

open Lib

/-- The blocks from `start` up to, not including, `end_`. -/
structure BlockRange where
  (start end_ : Nat)
deriving DecidableEq, Repr

namespace BlockRange

def size (r : BlockRange) : Nat := r.end_ - r.start

end BlockRange

/-! ## Writing -/

/-- The leaves of one range, each at most `MAX_BLOCKS_PER_EXTENT` blocks long; `fuel` at least `remaining`. -/
def fill_range : Nat → Nat → Nat → Nat → List ExtentLeaf
  | 0, _, _, _ => []
  | fuel + 1, logical, phys, remaining =>
    if remaining = 0 then []
    else
      let len := min remaining MAX_BLOCKS_PER_EXTENT
      { block := .ofNat logical, len := .ofNat len, start_hi := 0, start_lo := .ofNat phys } ::
        fill_range fuel (logical + len) (phys + len) (remaining - len)

def fill_extent_leaves_from_ranges : Nat → List BlockRange → List ExtentLeaf
  | _, [] => []
  | logical, r :: ranges =>
    fill_range r.size logical r.start r.size ++ fill_extent_leaves_from_ranges (logical + r.size) ranges

/-- Entries of 12 bytes each from `off` on. -/
def entriesAt (off : Nat) (entries : List Bytes) : List Field :=
  entries.mapIdx fun i e => ⟨off + i * 12, e⟩

/-- A node of the tree: a header and the entries after it. -/
def extentNode (header : ExtentHeader) (entries : List Bytes) : Buf :=
  writeFields (fun _ => 0) (⟨0, header.write_to⟩ :: entriesAt 12 entries)

/-- The unit of an inode's block count depends on its flags. -/
def add_inode_blocks (inode : Inode) (filesystem_blocks : Nat) : Inode :=
  let blocks := if inode.flags &&& inode_flags.HUGE_FILE ≠ 0 then filesystem_blocks
    else filesystem_blocks * (BLOCK_SIZE / 512)
  { inode with blocks_lo := inode.blocks_lo + .ofNat blocks }

def write_inline_extents (inode : Inode) (data_blocks : Nat) (leaves : List ExtentLeaf) : Inode :=
  let header : ExtentHeader := { magic := EXTENT_HEADER_MAGIC, entries := .ofNat leaves.length, max := 4, depth := 0 }
  let buf := extentNode header (leaves.map ExtentLeaf.write_to)
  let inode := add_inode_blocks { inode with block := fun i => buf i } data_blocks
  { inode with flags := inode.flags ||| inode_flags.EXTENTS }

def leaves_per_block : Nat := (BLOCK_SIZE - 12 - 4) / 12

def leafChunks : Nat → List ExtentLeaf → List (List ExtentLeaf)
  | 0, _ => []
  | n + 1, leaves => leaves.take leaves_per_block :: leafChunks n (leaves.drop leaves_per_block)

/-- One index block: its header, its leaves, and a tail that stays zero. -/
def indexBlock (leaves : List ExtentLeaf) : Bytes :=
  let header : ExtentHeader :=
    { magic := EXTENT_HEADER_MAGIC, entries := .ofNat leaves.length, max := .ofNat leaves_per_block, depth := 0 }
  ⟨BLOCK_SIZE, extentNode header (leaves.map ExtentLeaf.write_to)⟩

/-- Write the index blocks one after the other from `current_block` on; block numbers are of 32 bits. -/
def write_index_blocks (file : File) (current_block : Nat) : List (List ExtentLeaf) → File
  | [] => file
  | chunk :: chunks =>
    write_index_blocks (file.write (current_block % 2 ^ 32 * BLOCK_SIZE) (indexBlock chunk)) (current_block + 1) chunks

/-- The inode, the file, and the block after the last index block. More than four index blocks do not fit the
inode: the source panics. -/
def write_indexed_extents (inode : Inode) (data_blocks : Nat) (all_leaves : List ExtentLeaf) (file : File)
    (current_block : Nat) : Option (Inode × File × Nat) :=
  let num_index_blocks := div_ceil all_leaves.length leaves_per_block
  if 4 < num_index_blocks then none
  else
    let chunks := leafChunks num_index_blocks all_leaves
    let indices := chunks.mapIdx fun i chunk =>
      ({ block := (chunk.head?.map ExtentLeaf.block).getD 0, leaf_lo := .ofNat (current_block + i) } : ExtentIndex)
    let header : ExtentHeader := { magic := EXTENT_HEADER_MAGIC, entries := .ofNat num_index_blocks, max := 4, depth := 1 }
    let buf := extentNode header (indices.map ExtentIndex.write_to)
    let file := write_index_blocks file current_block chunks
    let inode := add_inode_blocks { inode with block := fun i => buf i } (data_blocks + num_index_blocks)
    some ({ inode with flags := inode.flags ||| inode_flags.EXTENTS }, file, (current_block + num_index_blocks) % 2 ^ 32)

def write_extents (inode : Inode) (blocks : List BlockRange) (file : File) (current_block : Nat) :
    Option (Inode × File × Nat) :=
  let data_blocks := (blocks.map BlockRange.size).sum
  if data_blocks = 0 then some (inode, file, current_block)
  else
    let leaves := fill_extent_leaves_from_ranges 0 blocks
    if leaves.length ≤ 4 then some (write_inline_extents inode data_blocks leaves, file, current_block)
    else write_indexed_extents inode data_blocks leaves file current_block

/-! ## Reading -/

inductive ReadError where
  | InvalidSuperBlock
  | DeepExtentsUnsupported
  | InvalidExtents
  | CouldNotReadBlock (block : Nat)
  | Io
deriving DecidableEq, Repr

def ExtentLeaf.range (leaf : ExtentLeaf) : BlockRange := ⟨leaf.start_lo.toNat, leaf.start_lo.toNat + leaf.len.toNat⟩

/-- The leaf entries after a header, in a node of `size` bytes. -/
def parse_leaves (node : Buf) (size entries : Nat) : Except ReadError (List BlockRange) :=
  (List.range entries).mapM fun i => do
    let off := 12 + i * 12
    require (off + 12 ≤ size) .InvalidExtents
    pure (ExtentLeaf.read_from fun k => node (off + k)).range

def parse_index_block (block_size : Nat) (file : File) (phys_block : Nat) : Except ReadError (List BlockRange) := do
  let leaf_buf ← orFail (file.readExact (phys_block * block_size) block_size) (.CouldNotReadBlock phys_block)
  let leaf_header := ExtentHeader.read_from leaf_buf
  require (leaf_header.magic = EXTENT_HEADER_MAGIC ∧ leaf_header.depth = 0) .InvalidExtents
  parse_leaves leaf_buf block_size leaf_header.entries.toNat

def parse_depth1 (block_field : Buf) (header : ExtentHeader) (block_size : Nat) (file : File) :
    Except ReadError (List BlockRange) := do
  let ranges ← (List.range header.entries.toNat).mapM fun i => do
    let off := 12 + i * 12
    require (off + 12 ≤ INODE_BLOCK_SIZE) .InvalidExtents
    parse_index_block block_size file (ExtentIndex.read_from fun k => block_field (off + k)).leaf
  pure ranges.flatten

/-- The physical ranges of an inode. An inode without the magic number has none, whatever its flags. -/
def parse_extents (inode : Inode) (block_size : Nat) (file : File) : Except ReadError (List BlockRange) :=
  let header := ExtentHeader.read_from inode.blockBuf
  if header.magic ≠ EXTENT_HEADER_MAGIC then .ok []
  else if header.depth = 0 then parse_leaves inode.blockBuf INODE_BLOCK_SIZE header.entries.toNat
  else if header.depth = 1 then parse_depth1 inode.blockBuf header block_size file
  else .error .DeepExtentsUnsupported

end Silo.Ext4
