import Mathlib.Logic.Function.Iterate
import Silo.Lib.Bytes
import Silo.Ext4.Layout
/-!
# On-disk structures

`types.rs`: the superblock, the group descriptor, the inode and the nodes of the
extent tree, each with the offsets it is serialized at. All numbers are
little-endian. The offsets of reading and of writing are two lists, as in the source.
-/

namespace Silo.Ext4

open List Lib

/-! ## The superblock -/

structure SuperBlock where
  inodes_count : UInt32 := 0
  blocks_count_lo : UInt32 := 0
  r_blocks_count_lo : UInt32 := 0
  free_blocks_count_lo : UInt32 := 0
  free_inodes_count : UInt32 := 0
  first_data_block : UInt32 := 0
  log_block_size : UInt32 := 0
  log_cluster_size : UInt32 := 0
  blocks_per_group : UInt32 := 0
  clusters_per_group : UInt32 := 0
  inodes_per_group : UInt32 := 0
  mtime : UInt32 := 0
  wtime : UInt32 := 0
  mount_count : UInt16 := 0
  max_mount_count : UInt16 := 0
  magic : UInt16 := 0
  state : UInt16 := 0
  errors : UInt16 := 0
  minor_rev_level : UInt16 := 0
  lastcheck : UInt32 := 0
  check_interval : UInt32 := 0
  creator_os : UInt32 := 0
  rev_level : UInt32 := 0
  def_resuid : UInt16 := 0
  def_resgid : UInt16 := 0
  first_ino : UInt32 := 0
  inode_size : UInt16 := 0
  block_group_nr : UInt16 := 0
  feature_compat : UInt32 := 0
  feature_incompat : UInt32 := 0
  feature_ro_compat : UInt32 := 0
  uuid : Fin 16 → UInt8 := fun _ => 0
  volume_name : Fin 16 → UInt8 := fun _ => 0
  last_mounted : Fin 64 → UInt8 := fun _ => 0
  algorithm_usage_bitmap : UInt32 := 0
  prealloc_blocks : UInt8 := 0
  prealloc_dir_blocks : UInt8 := 0
  reserved_gdt_blocks : UInt16 := 0
  journal_uuid : Fin 16 → UInt8 := fun _ => 0
  journal_inum : UInt32 := 0
  journal_dev : UInt32 := 0
  last_orphan : UInt32 := 0
  hash_seed : Fin 4 → UInt32 := fun _ => 0
  def_hash_version : UInt8 := 0
  journal_backup_type : UInt8 := 0
  desc_size : UInt16 := 0
  default_mount_opts : UInt32 := 0
  first_meta_bg : UInt32 := 0
  mkfs_time : UInt32 := 0
  journal_blocks : Fin 17 → UInt32 := fun _ => 0
  blocks_count_hi : UInt32 := 0
  r_blocks_count_hi : UInt32 := 0
  free_blocks_count_hi : UInt32 := 0
  min_extra_isize : UInt16 := 0
  want_extra_isize : UInt16 := 0
  flags : UInt32 := 0
  raid_stride : UInt16 := 0
  mmp_interval : UInt16 := 0
  mmp_block : UInt64 := 0
  raid_stripe_width : UInt32 := 0
  log_groups_per_flex : UInt8 := 0
  checksum_type : UInt8 := 0
  reserved_pad : UInt16 := 0
  kbytes_written : UInt64 := 0
  snapshot_inum : UInt32 := 0
  snapshot_id : UInt32 := 0
  snapshot_r_blocks_count : UInt64 := 0
  snapshot_list : UInt32 := 0
  error_count : UInt32 := 0
  first_error_time : UInt32 := 0
  first_error_ino : UInt32 := 0
  first_error_block : UInt64 := 0
  first_error_func : Fin 32 → UInt8 := fun _ => 0
  first_error_line : UInt32 := 0
  last_error_time : UInt32 := 0
  last_error_ino : UInt32 := 0
  last_error_line : UInt32 := 0
  last_error_block : UInt64 := 0
  last_error_func : Fin 32 → UInt8 := fun _ => 0
  mount_opts : Fin 64 → UInt8 := fun _ => 0
  usr_quota_inum : UInt32 := 0
  grp_quota_inum : UInt32 := 0
  overhead_blocks : UInt32 := 0
  backup_bgs : Fin 2 → UInt32 := fun _ => 0
  encrypt_algos : Fin 4 → UInt8 := fun _ => 0
  encrypt_pw_salt : Fin 16 → UInt8 := fun _ => 0
  lpf_ino : UInt32 := 0
  prj_quota_inum : UInt32 := 0
  checksum_seed : UInt32 := 0
  wtime_hi : UInt8 := 0
  mtime_hi : UInt8 := 0
  mkfs_time_hi : UInt8 := 0
  lastcheck_hi : UInt8 := 0
  first_error_time_hi : UInt8 := 0
  last_error_time_hi : UInt8 := 0
  pad : Fin 2 → UInt8 := fun _ => 0
  reserved : Fin 96 → UInt32 := fun _ => 0
  checksum : UInt32 := 0

namespace SuperBlock

def read_from (buf : Buf) : SuperBlock where
  inodes_count := getU32 buf 0x00
  blocks_count_lo := getU32 buf 0x04
  r_blocks_count_lo := getU32 buf 0x08
  free_blocks_count_lo := getU32 buf 0x0C
  free_inodes_count := getU32 buf 0x10
  first_data_block := getU32 buf 0x14
  log_block_size := getU32 buf 0x18
  log_cluster_size := getU32 buf 0x1C
  blocks_per_group := getU32 buf 0x20
  clusters_per_group := getU32 buf 0x24
  inodes_per_group := getU32 buf 0x28
  mtime := getU32 buf 0x2C
  wtime := getU32 buf 0x30
  mount_count := getU16 buf 0x34
  max_mount_count := getU16 buf 0x36
  magic := getU16 buf 0x38
  state := getU16 buf 0x3A
  errors := getU16 buf 0x3C
  minor_rev_level := getU16 buf 0x3E
  lastcheck := getU32 buf 0x40
  check_interval := getU32 buf 0x44
  creator_os := getU32 buf 0x48
  rev_level := getU32 buf 0x4C
  def_resuid := getU16 buf 0x50
  def_resgid := getU16 buf 0x52
  first_ino := getU32 buf 0x54
  inode_size := getU16 buf 0x58
  block_group_nr := getU16 buf 0x5A
  feature_compat := getU32 buf 0x5C
  feature_incompat := getU32 buf 0x60
  feature_ro_compat := getU32 buf 0x64
  uuid := getBytes 16 buf 0x68
  volume_name := getBytes 16 buf 0x78
  last_mounted := getBytes 64 buf 0x88
  algorithm_usage_bitmap := getU32 buf 0xC8
  prealloc_blocks := getU8 buf 0xCC
  prealloc_dir_blocks := getU8 buf 0xCD
  reserved_gdt_blocks := getU16 buf 0xCE
  journal_uuid := getBytes 16 buf 0xD0
  journal_inum := getU32 buf 0xE0
  journal_dev := getU32 buf 0xE4
  last_orphan := getU32 buf 0xE8
  hash_seed i := getU32 buf (0xEC + i * 4)
  def_hash_version := getU8 buf 0xFC
  journal_backup_type := getU8 buf 0xFD
  desc_size := getU16 buf 0xFE
  default_mount_opts := getU32 buf 0x100
  first_meta_bg := getU32 buf 0x104
  mkfs_time := getU32 buf 0x108
  journal_blocks i := getU32 buf (0x10C + i * 4)
  blocks_count_hi := getU32 buf 0x150
  r_blocks_count_hi := getU32 buf 0x154
  free_blocks_count_hi := getU32 buf 0x158
  min_extra_isize := getU16 buf 0x15C
  want_extra_isize := getU16 buf 0x15E
  flags := getU32 buf 0x160
  raid_stride := getU16 buf 0x164
  mmp_interval := getU16 buf 0x166
  mmp_block := getU64 buf 0x168
  raid_stripe_width := getU32 buf 0x170
  log_groups_per_flex := getU8 buf 0x174
  checksum_type := getU8 buf 0x175
  reserved_pad := getU16 buf 0x176
  kbytes_written := getU64 buf 0x178
  snapshot_inum := getU32 buf 0x180
  snapshot_id := getU32 buf 0x184
  snapshot_r_blocks_count := getU64 buf 0x188
  snapshot_list := getU32 buf 0x190
  error_count := getU32 buf 0x194
  first_error_time := getU32 buf 0x198
  first_error_ino := getU32 buf 0x19C
  first_error_block := getU64 buf 0x1A0
  first_error_func := getBytes 32 buf 0x1A8
  first_error_line := getU32 buf 0x1C8
  last_error_time := getU32 buf 0x1CC
  last_error_ino := getU32 buf 0x1D0
  last_error_line := getU32 buf 0x1D4
  last_error_block := getU64 buf 0x1D8
  last_error_func := getBytes 32 buf 0x1E0
  mount_opts := getBytes 64 buf 0x200
  usr_quota_inum := getU32 buf 0x240
  grp_quota_inum := getU32 buf 0x244
  overhead_blocks := getU32 buf 0x248
  backup_bgs i := if i = 0 then getU32 buf 0x24C else getU32 buf 0x250
  encrypt_algos := getBytes 4 buf 0x254
  encrypt_pw_salt := getBytes 16 buf 0x258
  lpf_ino := getU32 buf 0x268
  prj_quota_inum := getU32 buf 0x26C
  checksum_seed := getU32 buf 0x270
  wtime_hi := getU8 buf 0x274
  mtime_hi := getU8 buf 0x275
  mkfs_time_hi := getU8 buf 0x276
  lastcheck_hi := getU8 buf 0x277
  first_error_time_hi := getU8 buf 0x278
  last_error_time_hi := getU8 buf 0x279
  pad := getBytes 2 buf 0x27A
  reserved i := getU32 buf (0x27C + i * 4)
  checksum := getU32 buf 0x3FC

def fields (r : SuperBlock) : List Field := flatten [
  [.u32 0x00 r.inodes_count, .u32 0x04 r.blocks_count_lo, .u32 0x08 r.r_blocks_count_lo,
   .u32 0x0C r.free_blocks_count_lo, .u32 0x10 r.free_inodes_count, .u32 0x14 r.first_data_block,
   .u32 0x18 r.log_block_size, .u32 0x1C r.log_cluster_size, .u32 0x20 r.blocks_per_group,
   .u32 0x24 r.clusters_per_group, .u32 0x28 r.inodes_per_group, .u32 0x2C r.mtime, .u32 0x30 r.wtime,
   .u16 0x34 r.mount_count, .u16 0x36 r.max_mount_count, .u16 0x38 r.magic, .u16 0x3A r.state,
   .u16 0x3C r.errors, .u16 0x3E r.minor_rev_level, .u32 0x40 r.lastcheck, .u32 0x44 r.check_interval,
   .u32 0x48 r.creator_os, .u32 0x4C r.rev_level, .u16 0x50 r.def_resuid, .u16 0x52 r.def_resgid,
   .u32 0x54 r.first_ino, .u16 0x58 r.inode_size, .u16 0x5A r.block_group_nr, .u32 0x5C r.feature_compat,
   .u32 0x60 r.feature_incompat, .u32 0x64 r.feature_ro_compat, .bytes 0x68 r.uuid, .bytes 0x78 r.volume_name,
   .bytes 0x88 r.last_mounted, .u32 0xC8 r.algorithm_usage_bitmap, .u8 0xCC r.prealloc_blocks,
   .u8 0xCD r.prealloc_dir_blocks, .u16 0xCE r.reserved_gdt_blocks, .bytes 0xD0 r.journal_uuid,
   .u32 0xE0 r.journal_inum, .u32 0xE4 r.journal_dev, .u32 0xE8 r.last_orphan],
  Field.u32s 0xEC r.hash_seed,
  [.u8 0xFC r.def_hash_version, .u8 0xFD r.journal_backup_type, .u16 0xFE r.desc_size,
   .u32 0x100 r.default_mount_opts, .u32 0x104 r.first_meta_bg, .u32 0x108 r.mkfs_time],
  Field.u32s 0x10C r.journal_blocks,
  [.u32 0x150 r.blocks_count_hi, .u32 0x154 r.r_blocks_count_hi, .u32 0x158 r.free_blocks_count_hi,
   .u16 0x15C r.min_extra_isize, .u16 0x15E r.want_extra_isize, .u32 0x160 r.flags, .u16 0x164 r.raid_stride,
   .u16 0x166 r.mmp_interval, .u64 0x168 r.mmp_block, .u32 0x170 r.raid_stripe_width,
   .u8 0x174 r.log_groups_per_flex, .u8 0x175 r.checksum_type, .u16 0x176 r.reserved_pad,
   .u64 0x178 r.kbytes_written, .u32 0x180 r.snapshot_inum, .u32 0x184 r.snapshot_id,
   .u64 0x188 r.snapshot_r_blocks_count, .u32 0x190 r.snapshot_list, .u32 0x194 r.error_count,
   .u32 0x198 r.first_error_time, .u32 0x19C r.first_error_ino, .u64 0x1A0 r.first_error_block,
   .bytes 0x1A8 r.first_error_func, .u32 0x1C8 r.first_error_line, .u32 0x1CC r.last_error_time,
   .u32 0x1D0 r.last_error_ino, .u32 0x1D4 r.last_error_line, .u64 0x1D8 r.last_error_block,
   .bytes 0x1E0 r.last_error_func, .bytes 0x200 r.mount_opts, .u32 0x240 r.usr_quota_inum,
   .u32 0x244 r.grp_quota_inum, .u32 0x248 r.overhead_blocks, .u32 0x24C (r.backup_bgs 0),
   .u32 0x250 (r.backup_bgs 1), .bytes 0x254 r.encrypt_algos, .bytes 0x258 r.encrypt_pw_salt,
   .u32 0x268 r.lpf_ino, .u32 0x26C r.prj_quota_inum, .u32 0x270 r.checksum_seed, .u8 0x274 r.wtime_hi,
   .u8 0x275 r.mtime_hi, .u8 0x276 r.mkfs_time_hi, .u8 0x277 r.lastcheck_hi, .u8 0x278 r.first_error_time_hi,
   .u8 0x279 r.last_error_time_hi, .bytes 0x27A r.pad],
  Field.u32s 0x27C r.reserved,
  [.u32 0x3FC r.checksum]]

def write_to (r : SuperBlock) : Bytes := ⟨SUPERBLOCK_SIZE, writeFields (fun _ => 0) r.fields⟩



theorem fields_tile (r : SuperBlock) : Tiles 0 (r.fields.map Field.span) SUPERBLOCK_SIZE := by
  simp only [fields, map_flatten, map_cons, map_nil, Field.span_u8, Field.span_u16, Field.span_u32, Field.span_u64,
    Field.span_bytes, Field.span_u32s]
  decide +kernel

theorem pair_eq_iff {a b : UInt32} {v : Fin 2 → UInt32} :
    (fun i => if i = 0 then a else b) = v ↔ a = v 0 ∧ b = v 1 := by
  simp [funext_iff, Fin.forall_fin_two]

/-- Both lists name the same places. -/
theorem reads_iff {r : SuperBlock} {buf : Buf} : (∀ f ∈ r.fields, f.Reads buf) ↔ read_from buf = r := by
  cases r
  simp only [fields, read_from, flatten_cons, flatten_nil, append_nil, forall_mem_append, forall_mem_cons, not_mem_nil,
    false_implies, implies_true, and_true, and_assoc, Field.reads_u8, Field.reads_u16, Field.reads_u32,
    Field.reads_u64, Field.reads_bytes, Field.reads_u32s, pair_eq_iff, mk.injEq]

theorem read_write (r : SuperBlock) : read_from r.write_to.get = r :=
  read_writeFields (Tiles.pairwise r.fields_tile) fun _ => reads_iff.1

theorem byte_exact : ByteExact SUPERBLOCK_SIZE read_from write_to :=
  .of_fields fields_tile (fun _ => reads_iff.2 rfl) read_write

end SuperBlock

/-! ## Group descriptors and inodes -/

structure GroupDescriptor where
  block_bitmap_lo : UInt32 := 0
  inode_bitmap_lo : UInt32 := 0
  inode_table_lo : UInt32 := 0
  free_blocks_count_lo : UInt16 := 0
  free_inodes_count_lo : UInt16 := 0
  used_dirs_count_lo : UInt16 := 0
  flags : UInt16 := 0
  exclude_bitmap_lo : UInt32 := 0
  block_bitmap_csum_lo : UInt16 := 0
  inode_bitmap_csum_lo : UInt16 := 0
  itable_unused_lo : UInt16 := 0
  checksum : UInt16 := 0

namespace GroupDescriptor

def read_from (buf : Buf) : GroupDescriptor where
  block_bitmap_lo := getU32 buf 0x00
  inode_bitmap_lo := getU32 buf 0x04
  inode_table_lo := getU32 buf 0x08
  free_blocks_count_lo := getU16 buf 0x0C
  free_inodes_count_lo := getU16 buf 0x0E
  used_dirs_count_lo := getU16 buf 0x10
  flags := getU16 buf 0x12
  exclude_bitmap_lo := getU32 buf 0x14
  block_bitmap_csum_lo := getU16 buf 0x18
  inode_bitmap_csum_lo := getU16 buf 0x1A
  itable_unused_lo := getU16 buf 0x1C
  checksum := getU16 buf 0x1E

def fields (r : GroupDescriptor) : List Field :=
  [.u32 0x00 r.block_bitmap_lo, .u32 0x04 r.inode_bitmap_lo, .u32 0x08 r.inode_table_lo,
   .u16 0x0C r.free_blocks_count_lo, .u16 0x0E r.free_inodes_count_lo, .u16 0x10 r.used_dirs_count_lo,
   .u16 0x12 r.flags, .u32 0x14 r.exclude_bitmap_lo, .u16 0x18 r.block_bitmap_csum_lo,
   .u16 0x1A r.inode_bitmap_csum_lo, .u16 0x1C r.itable_unused_lo, .u16 0x1E r.checksum]

def write_to (r : GroupDescriptor) : Bytes := ⟨DESCRIPTOR_SIZE, writeFields (fun _ => 0) r.fields⟩

theorem fields_tile (r : GroupDescriptor) : Tiles 0 (r.fields.map Field.span) DESCRIPTOR_SIZE := rfl

theorem read_write (r : GroupDescriptor) : read_from r.write_to.get = r := by
  refine read_writeFields (Tiles.pairwise r.fields_tile) fun buf h => ?_
  cases r
  simpa [fields, read_from] using h

theorem byte_exact : ByteExact DESCRIPTOR_SIZE read_from write_to :=
  .of_fields fields_tile (fun buf f hf => by
    revert f
    simp [fields, read_from]) read_write

end GroupDescriptor

/-- An inode: 160 bytes and 96 bytes of inline extended attributes. The 60-byte block field is the root of
the extent tree or a short symlink target. -/
structure Inode where
  mode : UInt16 := 0
  uid : UInt16 := 0
  size_lo : UInt32 := 0
  atime : UInt32 := 0
  ctime : UInt32 := 0
  mtime : UInt32 := 0
  dtime : UInt32 := 0
  gid : UInt16 := 0
  links_count : UInt16 := 0
  blocks_lo : UInt32 := 0
  flags : UInt32 := 0
  version : UInt32 := 0
  block : Fin 60 → UInt8 := fun _ => 0
  generation : UInt32 := 0
  xattr_block_lo : UInt32 := 0
  size_hi : UInt32 := 0
  obsolete_fragment_addr : UInt32 := 0
  blocks_hi : UInt16 := 0
  xattr_block_hi : UInt16 := 0
  uid_hi : UInt16 := 0
  gid_hi : UInt16 := 0
  checksum_lo : UInt16 := 0
  reserved : UInt16 := 0
  extra_isize : UInt16 := 0
  checksum_hi : UInt16 := 0
  ctime_extra : UInt32 := 0
  mtime_extra : UInt32 := 0
  atime_extra : UInt32 := 0
  crtime : UInt32 := 0
  crtime_extra : UInt32 := 0
  version_hi : UInt32 := 0
  projid : UInt32 := 0
  inline_xattrs : Fin 96 → UInt8 := fun _ => 0

namespace Inode

def read_from (buf : Buf) : Inode where
  mode := getU16 buf 0x00
  uid := getU16 buf 0x02
  size_lo := getU32 buf 0x04
  atime := getU32 buf 0x08
  ctime := getU32 buf 0x0C
  mtime := getU32 buf 0x10
  dtime := getU32 buf 0x14
  gid := getU16 buf 0x18
  links_count := getU16 buf 0x1A
  blocks_lo := getU32 buf 0x1C
  flags := getU32 buf 0x20
  version := getU32 buf 0x24
  block := getBytes 60 buf 0x28
  generation := getU32 buf 0x64
  xattr_block_lo := getU32 buf 0x68
  size_hi := getU32 buf 0x6C
  obsolete_fragment_addr := getU32 buf 0x70
  blocks_hi := getU16 buf 0x74
  xattr_block_hi := getU16 buf 0x76
  uid_hi := getU16 buf 0x78
  gid_hi := getU16 buf 0x7A
  checksum_lo := getU16 buf 0x7C
  reserved := getU16 buf 0x7E
  extra_isize := getU16 buf 0x80
  checksum_hi := getU16 buf 0x82
  ctime_extra := getU32 buf 0x84
  mtime_extra := getU32 buf 0x88
  atime_extra := getU32 buf 0x8C
  crtime := getU32 buf 0x90
  crtime_extra := getU32 buf 0x94
  version_hi := getU32 buf 0x98
  projid := getU32 buf 0x9C
  inline_xattrs := getBytes 96 buf 0xA0

def fields (r : Inode) : List Field :=
  [.u16 0x00 r.mode, .u16 0x02 r.uid, .u32 0x04 r.size_lo, .u32 0x08 r.atime, .u32 0x0C r.ctime,
   .u32 0x10 r.mtime, .u32 0x14 r.dtime, .u16 0x18 r.gid, .u16 0x1A r.links_count, .u32 0x1C r.blocks_lo,
   .u32 0x20 r.flags, .u32 0x24 r.version, .bytes 0x28 r.block, .u32 0x64 r.generation,
   .u32 0x68 r.xattr_block_lo, .u32 0x6C r.size_hi, .u32 0x70 r.obsolete_fragment_addr,
   .u16 0x74 r.blocks_hi, .u16 0x76 r.xattr_block_hi, .u16 0x78 r.uid_hi, .u16 0x7A r.gid_hi,
   .u16 0x7C r.checksum_lo, .u16 0x7E r.reserved, .u16 0x80 r.extra_isize, .u16 0x82 r.checksum_hi,
   .u32 0x84 r.ctime_extra, .u32 0x88 r.mtime_extra, .u32 0x8C r.atime_extra, .u32 0x90 r.crtime,
   .u32 0x94 r.crtime_extra, .u32 0x98 r.version_hi, .u32 0x9C r.projid, .bytes 0xA0 r.inline_xattrs]

def write_to (r : Inode) : Bytes := ⟨INODE_SIZE, writeFields (fun _ => 0) r.fields⟩

theorem fields_tile (r : Inode) : Tiles 0 (r.fields.map Field.span) INODE_SIZE := rfl

theorem read_write (r : Inode) : read_from r.write_to.get = r := by
  refine read_writeFields (Tiles.pairwise r.fields_tile) fun buf h => ?_
  cases r
  simpa [fields, read_from] using h

theorem byte_exact : ByteExact INODE_SIZE read_from write_to :=
  .of_fields fields_tile (fun buf f hf => by
    revert f
    simp [fields, read_from]) read_write

end Inode

namespace Inode

def is_dir (i : Inode) : Bool := Ext4.is_dir i.mode
def is_reg (i : Inode) : Bool := Ext4.is_reg i.mode

def file_size (i : Inode) : Nat := i.size_lo.toNat + i.size_hi.toNat * 2 ^ 32

def set_file_size (i : Inode) (size : Nat) : Inode :=
  { i with size_lo := UInt32.ofNat size, size_hi := UInt32.ofNat (size / 2 ^ 32) }

def set_uid (i : Inode) (uid : UInt32) : Inode :=
  { i with uid := uid.toUInt16, uid_hi := (uid >>> 16).toUInt16 }

def set_gid (i : Inode) (gid : UInt32) : Inode :=
  { i with gid := gid.toUInt16, gid_hi := (gid >>> 16).toUInt16 }

def blockBuf (i : Inode) : Buf := (Bytes.ofFn i.block).get

end Inode

/-- Decoding a full-size buffer and encoding the record reproduces every byte, and an encoded record is decoded as
itself. -/
theorem records_byte_exact :
    ByteExact SUPERBLOCK_SIZE SuperBlock.read_from SuperBlock.write_to ∧
      ByteExact DESCRIPTOR_SIZE GroupDescriptor.read_from GroupDescriptor.write_to ∧
      ByteExact INODE_SIZE Inode.read_from Inode.write_to :=
  ⟨SuperBlock.byte_exact, GroupDescriptor.byte_exact, Inode.byte_exact⟩

/-! ## Extent tree nodes -/

structure ExtentHeader where
  magic : UInt16 := 0
  entries : UInt16 := 0
  max : UInt16 := 0
  depth : UInt16 := 0
  generation : UInt32 := 0

namespace ExtentHeader

def read_from (buf : Buf) : ExtentHeader where
  magic := getU16 buf 0x00
  entries := getU16 buf 0x02
  max := getU16 buf 0x04
  depth := getU16 buf 0x06
  generation := getU32 buf 0x08

def fields (r : ExtentHeader) : List Field :=
  [.u16 0x00 r.magic, .u16 0x02 r.entries, .u16 0x04 r.max, .u16 0x06 r.depth, .u32 0x08 r.generation]

def write_to (r : ExtentHeader) : Bytes := ⟨12, writeFields (fun _ => 0) r.fields⟩

theorem fields_apart (r : ExtentHeader) : (r.fields.map Field.span).Pairwise Apart :=
  Tiles.pairwise (show Tiles 0 _ 12 = true from rfl)

theorem read_write (r : ExtentHeader) : read_from r.write_to.get = r := by
  refine read_writeFields r.fields_apart fun buf h => ?_
  cases r
  simpa [fields, read_from] using h

end ExtentHeader

/-- A leaf entry: `len` blocks from logical block `block`, at physical block `start_lo`. -/
structure ExtentLeaf where
  block : UInt32 := 0
  len : UInt16 := 0
  start_hi : UInt16 := 0
  start_lo : UInt32 := 0

namespace ExtentLeaf

def read_from (buf : Buf) : ExtentLeaf where
  block := getU32 buf 0x00
  len := getU16 buf 0x04
  start_hi := getU16 buf 0x06
  start_lo := getU32 buf 0x08

def fields (r : ExtentLeaf) : List Field :=
  [.u32 0x00 r.block, .u16 0x04 r.len, .u16 0x06 r.start_hi, .u32 0x08 r.start_lo]

def write_to (r : ExtentLeaf) : Bytes := ⟨12, writeFields (fun _ => 0) r.fields⟩

theorem fields_apart (r : ExtentLeaf) : (r.fields.map Field.span).Pairwise Apart :=
  Tiles.pairwise (show Tiles 0 _ 12 = true from rfl)

theorem read_write (r : ExtentLeaf) : read_from r.write_to.get = r := by
  refine read_writeFields r.fields_apart fun buf h => ?_
  cases r
  simpa [fields, read_from] using h

end ExtentLeaf

/-- An index entry: where the child node that covers logical block `block` on is stored. -/
structure ExtentIndex where
  block : UInt32 := 0
  leaf_lo : UInt32 := 0
  leaf_hi : UInt16 := 0
  unused : UInt16 := 0

namespace ExtentIndex

def read_from (buf : Buf) : ExtentIndex where
  block := getU32 buf 0x00
  leaf_lo := getU32 buf 0x04
  leaf_hi := getU16 buf 0x08
  unused := getU16 buf 0x0A

def fields (r : ExtentIndex) : List Field :=
  [.u32 0x00 r.block, .u32 0x04 r.leaf_lo, .u16 0x08 r.leaf_hi, .u16 0x0A r.unused]

def write_to (r : ExtentIndex) : Bytes := ⟨12, writeFields (fun _ => 0) r.fields⟩

theorem fields_apart (r : ExtentIndex) : (r.fields.map Field.span).Pairwise Apart :=
  Tiles.pairwise (show Tiles 0 _ 12 = true from rfl)

theorem read_write (r : ExtentIndex) : read_from r.write_to.get = r := by
  refine read_writeFields r.fields_apart fun buf h => ?_
  cases r
  simpa [fields, read_from] using h

end ExtentIndex

def ExtentIndex.leaf (r : ExtentIndex) : Nat := r.leaf_lo.toNat + r.leaf_hi.toNat * 2 ^ 32

/-! ## Checksums -/

namespace checksum

def crc16_bit (crc : UInt16) : UInt16 := if crc &&& 1 ≠ 0 then (crc >>> 1) ^^^ 0xA001 else crc >>> 1

def crc16 (crc : UInt16) (buf : List UInt8) : UInt16 :=
  buf.foldl (fun crc b => crc16_bit^[8] (crc ^^^ b.toUInt16)) crc

example : crc16 0 [0x31, 0x32, 0x33, 0x34, 0x35, 0x36, 0x37, 0x38, 0x39] = 0xBB3D := by decide +kernel

def bytesOf (buf : Buf) (n : Nat) : List UInt8 := (List.range n).map buf

/-- The descriptor's checksum field: over the UUID, the group's number and the descriptor up to that field. -/
def group_descriptor (uuid : Fin 16 → UInt8) (group_nr : Nat) (gd : GroupDescriptor) : UInt16 :=
  let crc := crc16 0xFFFF (List.ofFn uuid)
  let crc := crc16 crc (bytesOf (byteOf group_nr) 4)
  crc16 crc (bytesOf gd.write_to.get 0x1E)

end checksum

end Silo.Ext4
