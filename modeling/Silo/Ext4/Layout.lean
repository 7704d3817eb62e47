import Mathlib.Algebra.Group.Nat.Defs
import Mathlib.Data.Nat.Basic
/-!
# Constants and block-group geometry

`constants.rs` and `layout.rs`: the numbers an ext4 image of this crate is built
from, and which block groups carry a superblock copy.
-/

namespace Silo.Ext4

def BLOCK_SIZE : Nat := 4096
def BLOCKS_PER_GROUP : Nat := BLOCK_SIZE * 8
def DESCRIPTOR_SIZE : Nat := 32
def INODE_SIZE : Nat := 256
def INODE_BLOCK_SIZE : Nat := 60
def SUPERBLOCK_SIZE : Nat := 1024
def SUPERBLOCK_OFFSET : Nat := 1024
def SUPERBLOCK_MAGIC : Nat := 0xEF53
def EXTENT_HEADER_MAGIC : UInt16 := 0xF30A

def ROOT_INODE : Nat := 2
def RESIZE_INODE_NUMBER : Nat := 7
def JOURNAL_INODE_NUMBER : Nat := 8
def FIRST_INODE : Nat := 11

def MAX_LINKS : Nat := 65000
def EXT4_NAME_LEN : Nat := 255
def MAX_BLOCKS_PER_EXTENT : Nat := 0x8000
def MAX_FILE_SIZE : Nat := 128 * 1024 * 1024 * 1024
def EXTRA_ISIZE : UInt16 := 32
/-- The slot of an inode's block field that holds the double-indirect pointer. -/
def EXT2_DIND_BLOCK : Nat := 13

def U32_MAX : Nat := 2 ^ 32 - 1

namespace compat
def HAS_JOURNAL : Nat := 0x4
def EXT_ATTR : Nat := 0x8
def RESIZE_INODE : Nat := 0x10
end compat

namespace incompat
def FILETYPE : Nat := 0x2
def RECOVER : Nat := 0x4
def EXTENTS : Nat := 0x40
def FLEX_BG : Nat := 0x200
end incompat

namespace ro_compat
def SPARSE_SUPER : Nat := 0x1
def LARGE_FILE : Nat := 0x2
def HUGE_FILE : Nat := 0x8
def GDT_CSUM : Nat := 0x10
def EXTRA_ISIZE : Nat := 0x40
end ro_compat

namespace bg_flags
def INODE_UNINIT : UInt16 := 0x1
def BLOCK_UNINIT : UInt16 := 0x2
end bg_flags

namespace inode_flags
def HUGE_FILE : UInt32 := 0x40000
def EXTENTS : UInt32 := 0x80000
end inode_flags

namespace file_mode
def S_IFDIR : UInt16 := 0x4000
def S_IFREG : UInt16 := 0x8000
def S_IFLNK : UInt16 := 0xA000
def TYPE_MASK : UInt16 := 0xF000
end file_mode

def make_mode (file_type perm : UInt16) : UInt16 := file_type ||| perm
def is_dir (mode : UInt16) : Bool := mode &&& file_mode.TYPE_MASK == file_mode.S_IFDIR
def is_reg (mode : UInt16) : Bool := mode &&& file_mode.TYPE_MASK == file_mode.S_IFREG
def is_link (mode : UInt16) : Bool := mode &&& file_mode.TYPE_MASK == file_mode.S_IFLNK

/-! ## Group geometry -/

def div_ceil (n d : Nat) : Nat := (n + d - 1) / d

def align_up (n align : Nat) : Nat := (n + align - 1) / align * align

def group_count (blocks first_data_block blocks_per_group : Nat) : Nat :=
  div_ceil (blocks - first_data_block) blocks_per_group % 2 ^ 32

def descriptor_blocks (groups block_size descriptor_size : Nat) : Nat :=
  div_ceil groups (block_size / descriptor_size)

/-- Divide `value` by `base` while it divides; `fuel` at least `value` is enough for a positive value. -/
def divide_out (base : Nat) : Nat → Nat → Nat
  | 0, value => value
  | fuel + 1, value => if value % base = 0 then divide_out base fuel (value / base) else value

def is_power_of (value base : Nat) : Bool := base ≤ value && divide_out base value value == 1

/-- The groups that carry a copy of the superblock and of the descriptors. -/
def has_sparse_super (group : Nat) : Bool :=
  group == 0 || group == 1 || is_power_of group 3 || is_power_of group 5 || is_power_of group 7

example : (List.range 100).filter has_sparse_super = [0, 1, 3, 5, 7, 9, 25, 27, 49, 81] := by decide

def backup_groups (groups : Nat) : List Nat :=
  (List.range groups).filter fun group => group != 0 && has_sparse_super group

theorem mem_backup_groups {groups group : Nat} :
    group ∈ backup_groups groups ↔ group < groups ∧ group ≠ 0 ∧ has_sparse_super group := by
  simp [backup_groups]

end Silo.Ext4
