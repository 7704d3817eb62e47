import Silo.Ext4.Formatter
import Silo.Ext4.Dir
import Silo.Ext4.Resizer
/-!
# Finishing an image

Two parts of `Formatter::close`: how a directory is written, and where the run of inode
tables and bitmaps behind the data is placed.
-/

namespace Silo.Ext4

open Lib

namespace Formatter

/-! ## Directories -/

/-- The entry of one child: a hard link is written with the inode it stands for. Children of inodes without links
are left out. -/
def write_child_entry (s : Formatter) (d : DirBuf) (child : Nat) : DirBuf :=
  let node := s.tree.node child
  match node.link with
  | some linked_ino =>
    if (s.inode linked_ino).links_count = 0 then d
    else write_dir_entry d node.name linked_ino (s.inode linked_ino).mode
  | none =>
    if (s.inode node.inode).links_count = 0 then d
    else write_dir_entry d node.name node.inode (s.inode node.inode).mode

def sorted_children (t : FileTree) (idx : Nat) : List Nat :=
  (t.node idx).children.insertionSort fun a b => (t.node a).inode ≤ (t.node b).inode

def directory_content (s : Formatter) (parent : Option Nat) (node_idx : Nat) : Bytes :=
  let inode_num := (s.tree.node node_idx).inode
  let parent_ino := match parent with
    | some p => (s.tree.node p).inode
    | none => inode_num
  let d := write_dir_entry {} ['.'] inode_num (s.inode inode_num).mode
  let d := write_dir_entry d ['.', '.'] parent_ino (s.inode parent_ino).mode
  (finish_dir_entry_block ((sorted_children s.tree node_idx).foldl (write_child_entry s) d)).buf

/-- Whether `commit_directories` writes the node's content. -/
def is_committed (s : Formatter) (node_idx : Nat) : Bool :=
  let node := s.tree.node node_idx
  (s.inode node.inode).links_count ≠ 0 && node.link.isNone && (s.inode node.inode).is_dir

def commit_directory (parent : Option Nat) (node_idx : Nat) : FormatM Unit := do
  let s ← Run.get
  if s.is_committed node_idx then do
    let dir_buf := s.directory_content parent node_idx
    let inode_num := (s.tree.node node_idx).inode
    let ranges ← write_aligned_payload_bytes dir_buf
    Run.modify fun s =>
      let node := { s.tree.node node_idx with blocks := ranges.head?, additional_blocks := ranges.tail }
      { s.set_inode inode_num ((s.inode inode_num).set_file_size dir_buf.size) with tree := s.tree.set_node node_idx node }
    let s ← Run.get
    let (i, _) ← write_extents_here (s.inode inode_num) ranges
    Run.modify fun s => s.set_inode inode_num i
  else pure ()

/-! ## The run of inode tables and bitmaps -/

structure FlexMetadataLayout where
  (block_groups inode_table_offset bitmap_offset data_size total_groups gd_block_count gd_area_blocks size_bytes : Nat)

def total_groups_for_data_end (s : Formatter) (data_end minimum_disk_size_blocks : Nat) : Nat :=
  let current_size_blocks := div_ceil s.size BLOCK_SIZE
  let required_blocks := max (max (max data_end minimum_disk_size_blocks) current_size_blocks) 1
  ((required_blocks - 1) / BLOCKS_PER_GROUP + 1) % 2 ^ 32

/-- The groups up to the last block before `data_end`; the subtraction is one of `u64`. -/
def occupied_groups (data_end : Nat) : Nat := ((data_end + (2 ^ 64 - 1)) % 2 ^ 64 / BLOCKS_PER_GROUP + 1) % 2 ^ 32

def block_ranges_overlap (a_start a_end b_start b_end : Nat) : Bool := a_start < b_end && b_start < a_end

/-- The end of the first static range that the blocks from `start` to `end_` run into. -/
def first_static_overlap (start end_ total_groups gd_area_blocks : Nat) : Option Nat :=
  (List.range total_groups).findSome? fun group =>
    let metadata_blocks := static_metadata_blocks_in_group_for_area group gd_area_blocks
    let group_start := group * BLOCKS_PER_GROUP
    if metadata_blocks ≠ 0 ∧ block_ranges_overlap start end_ group_start (group_start + metadata_blocks) then
      some (group_start + metadata_blocks)
    else none

/-- Every round goes past one more static range. -/
def metadata_run_start_after_static_ranges (blocks total_groups gd_area_blocks : Nat) : Nat → Nat → Nat
  | 0, start => start
  | rounds + 1, start =>
    match first_static_overlap start (start + blocks) total_groups gd_area_blocks with
    | none => start
    | some next => metadata_run_start_after_static_ranges blocks total_groups gd_area_blocks rounds next

/-- The loop of `flex_metadata_layout`: move the run past static ranges and count the groups it touches, until
nothing changes. -/
def flex_metadata_loop (s : Formatter) (inode_table_size_per_group minimum_disk_size_blocks : Nat) :
    Nat → Nat → Nat → Option FlexMetadataLayout
  | 0, _, _ => none
  | rounds + 1, start, block_groups =>
    let inode_table_blocks := block_groups * inode_table_size_per_group
    let metadata_blocks := inode_table_blocks + block_groups * 2
    let total_groups := s.total_groups_for_data_end (start + metadata_blocks) minimum_disk_size_blocks
    let gd_area_blocks := group_descriptor_area_blocks_for_groups total_groups
    let adjusted_start :=
      metadata_run_start_after_static_ranges metadata_blocks total_groups gd_area_blocks (total_groups + 1) start
    let adjusted_data_end := adjusted_start + metadata_blocks
    let adjusted_block_groups := max block_groups (occupied_groups adjusted_data_end)
    let adjusted_total_groups := s.total_groups_for_data_end adjusted_data_end minimum_disk_size_blocks
    let adjusted_gd_area_blocks := group_descriptor_area_blocks_for_groups adjusted_total_groups
    if adjusted_start = start ∧ adjusted_block_groups = block_groups ∧ adjusted_total_groups = total_groups ∧
        adjusted_gd_area_blocks = gd_area_blocks then
      some {
        block_groups := adjusted_block_groups
        inode_table_offset := adjusted_start % 2 ^ 32
        bitmap_offset := (adjusted_start + inode_table_blocks) % 2 ^ 32
        data_size := adjusted_data_end % 2 ^ 32
        total_groups := adjusted_total_groups
        gd_block_count := descriptor_blocks_for_groups adjusted_total_groups
        gd_area_blocks := adjusted_gd_area_blocks
        size_bytes := adjusted_total_groups * BLOCKS_PER_GROUP * BLOCK_SIZE }
    else flex_metadata_loop s inode_table_size_per_group minimum_disk_size_blocks rounds adjusted_start adjusted_block_groups

/-- The number of rounds is far above what is ever needed: every round moves the run or adds a group to it. -/
def flex_metadata_layout (s : Formatter) (start_min block_groups inode_table_size_per_group minimum_disk_size_blocks : Nat) :
    Option FlexMetadataLayout :=
  flex_metadata_loop s inode_table_size_per_group minimum_disk_size_blocks (2 ^ 32) start_min block_groups

end Formatter

end Silo.Ext4
