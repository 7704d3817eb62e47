import Silo.Ext4.Formatter
/-!
# What writing payload leaves alone

Handing out blocks changes the file, the position and the size, and nothing else.
-/

namespace Silo.Ext4

open Lib

namespace Formatter

/-- Everything the builder knows about the entries: the tree, the inodes and the blocks to free. -/
def catalog (s : Formatter) : FileTree × List Inode × List BlockRange × (Nat → List BlockRange) :=
  (s.tree, s.inodes, s.deleted_blocks, s.deferred_blocks)

open Run (Keeps)

theorem keeps_timestamp_now : Keeps catalog timestamp_now := fun _ => rfl

theorem keeps_current_block : Keeps catalog current_block :=
  .bind .get fun _ => .bind (.check _ _) fun _ => .pure _

theorem keeps_seek_to_block (block : Nat) : Keeps catalog (seek_to_block block) := fun _ => rfl

variable (bytes : Bytes)

theorem keeps_write_all : Keeps catalog (write_all bytes) := fun _ => rfl

theorem keeps_align_to_block : Keeps catalog align_to_block :=
  .bind .get fun _ => .ite
    (.bind keeps_current_block fun _ => .bind (.check _ _) fun _ => keeps_seek_to_block _) (.pure _)

theorem keeps_skip_reserved_loop (rounds : Nat) : Keeps catalog (skip_reserved_loop rounds) := by
  induction rounds with
  | zero => exact .fail _
  | succ rounds ih =>
    exact .bind keeps_current_block fun _ => .bind .get fun _ =>
      .ite (.pure _) (.bind (keeps_seek_to_block _) fun _ => ih)

theorem keeps_skip_reserved_metadata_blocks : Keeps catalog skip_reserved_metadata_blocks :=
  .bind .get fun _ => .ite (.pure _) (keeps_skip_reserved_loop _)

theorem keeps_write_payload_chunk (offset : Nat) (ranges : List BlockRange) :
    Keeps catalog (write_payload_chunk bytes offset ranges) :=
  .bind keeps_skip_reserved_metadata_blocks fun _ => .bind keeps_current_block fun _ =>
    .bind .get fun _ => .bind (keeps_write_all _) fun _ =>
      .bind (.modify fun _ => rfl) fun _ => .pure _

theorem keeps_write_payload_from (rounds : Nat) (bytes : Bytes) (offset : Nat) (ranges : List BlockRange) :
    Keeps catalog (write_payload_from rounds bytes offset ranges) := by
  induction rounds generalizing offset ranges with
  | zero => exact .pure _
  | succ rounds ih =>
    exact .ite (.bind (keeps_write_payload_chunk _ _ _) fun _ => ih _ _) (.pure _)

theorem keeps_write_payload_bytes (ranges : List BlockRange) :
    Keeps catalog (write_payload_bytes bytes ranges) :=
  keeps_write_payload_from _ _ _ _

theorem keeps_write_payload_from_reader (reader : Reads) (size : Nat) (ranges : List BlockRange) :
    Keeps catalog (write_payload_from_reader reader size ranges) := by
  induction reader generalizing size ranges with
  | nil => exact .pure _
  | cons read reader ih =>
    cases read with
    | none => exact .fail _
    | some buf =>
      exact .ite (.pure _) (.ite (.fail _) (.ite (.fail _) (.bind (keeps_write_payload_bytes _ _) fun _ => ih _ _)))

theorem keeps_write_aligned_payload_bytes : Keeps catalog (write_aligned_payload_bytes bytes) :=
  .bind keeps_align_to_block fun _ => .bind keeps_skip_reserved_metadata_blocks fun _ =>
    .bind (keeps_write_payload_bytes _ _) fun _ => .bind keeps_align_to_block fun _ => .pure _

theorem keeps_allocate_sparse_from (rounds remaining : Nat) (ranges : List BlockRange) :
    Keeps catalog (allocate_sparse_from rounds remaining ranges) := by
  induction rounds generalizing remaining ranges with
  | zero => exact .pure _
  | succ rounds ih =>
    exact .ite (.pure _) (.bind keeps_skip_reserved_metadata_blocks fun _ =>
      .bind keeps_current_block fun _ => .bind (.check _ _) fun _ =>
        .bind (keeps_seek_to_block _) fun _ => ih _ _)

theorem keeps_allocate_sparse_blocks (block_count : Nat) : Keeps catalog (allocate_sparse_blocks block_count) :=
  .bind keeps_align_to_block fun _ => keeps_allocate_sparse_from _ _ _

theorem keeps_write_extents_here (i : Inode) (ranges : List BlockRange) : Keeps catalog (write_extents_here i ranges) := by
  refine .bind keeps_skip_reserved_metadata_blocks fun _ => .bind keeps_current_block fun _ =>
    .bind .get fun _ => ?_
  split
  · exact .fail _
  · exact .bind (.modify fun _ => rfl) fun _ => .pure _

theorem keeps_unwrap_timestamps (ts : Option FileTimestamps) : Keeps catalog (unwrap_timestamps ts) := by
  cases ts with
  | some ts => exact .pure _
  | none => exact .bind keeps_timestamp_now fun _ => .pure _

theorem keeps_write_xattr_block (state : XattrState) (i : Inode) : Keeps catalog (write_xattr_block state i) :=
  .ite (.bind (.ofExcept _) fun _ => .bind (keeps_write_aligned_payload_bytes _) fun _ =>
    .pure _) (.pure _)

theorem keeps_write_xattrs (xattrs : Option (List (Str × List UInt8))) (i : Inode) :
    Keeps catalog (write_xattrs xattrs i) := by
  unfold write_xattrs
  split
  · exact .pure _
  · exact .pure _
  · exact .bind .get fun _ => .bind (.ofExcept _) fun _ => .bind (.ofExcept _) fun _ =>
      keeps_write_xattr_block _ _

theorem keeps_write_symlink (target : Str) (i : Inode) : Keeps catalog (write_symlink target i) :=
  .ite (.pure _) (.bind (keeps_write_aligned_payload_bytes _) fun _ =>
    .bind (keeps_write_extents_here _ _) fun _ => .pure _)

theorem keeps_write_file_data (data : Option Reads) : Keeps catalog (write_file_data data) := by
  cases data with
  | none => exact .pure _
  | some reader =>
    exact .bind keeps_align_to_block fun _ => .bind keeps_skip_reserved_metadata_blocks fun _ =>
      .bind (keeps_write_payload_from_reader _ _ _) fun _ => .bind keeps_align_to_block fun _ => .pure _

theorem keeps_write_regular (data : Option Reads) (i : Inode) : Keeps catalog (write_regular data i) :=
  .bind (keeps_write_file_data _) fun _ => .bind (keeps_write_extents_here _ _) fun _ => .pure _

end Formatter

end Silo.Ext4
