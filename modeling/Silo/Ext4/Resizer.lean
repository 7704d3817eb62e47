import Silo.Lib.Crash
import Silo.Ext4.Extent
/-!
# The offline resizer

`resizer.rs`: `parse_image` reads and checks an image, `plan_grow` computes every
write that growing it takes, and `apply_plan` issues them. A file operation that
fails for a reason outside the image (a full disk, a device error) ends the call
like a crash at that point, so only reads past the end of the file fail here.
-/

namespace Silo.Ext4

open Lib

def EXT4_VALID_FS : Nat := 0x0001
def EXT4_ERROR_FS : Nat := 0x0002

def EXPECTED_COMPAT : Nat := compat.HAS_JOURNAL ||| compat.EXT_ATTR ||| compat.RESIZE_INODE
def EXPECTED_INCOMPAT : Nat := incompat.FILETYPE ||| incompat.EXTENTS ||| incompat.FLEX_BG
def EXPECTED_RO_COMPAT : Nat :=
  ro_compat.SPARSE_SUPER ||| ro_compat.LARGE_FILE ||| ro_compat.HUGE_FILE ||| ro_compat.GDT_CSUM ||| ro_compat.EXTRA_ISIZE

inductive ResizeError where
  | RequiresRecovery
  | Unsupported (reason : String)
  | Corrupt (reason : String)
  | UnalignedSize (size : Nat)
  | ShrinkUnsupported (current_blocks requested_blocks : Nat)
  | GdtCapacityExceeded (required_descriptor_blocks available_descriptor_blocks : Nat)
  | TooLarge (requested_blocks maximum_blocks : Nat)
  | TooManyInodes
  | Io
deriving DecidableEq, Repr

structure GrowOutcome where
  (old_blocks new_blocks old_groups new_groups : Nat)
deriving DecidableEq, Repr

def GrowOutcome.changed (o : GrowOutcome) : Bool := o.old_blocks != o.new_blocks

structure ParsedImage where
  superblock : SuperBlock
  descriptors : List GroupDescriptor
  (descriptor_span groups blocks inode_table_blocks : Nat)
  resize_inode : Inode
  (resize_inode_offset resize_dind_block : Nat)

structure BitmapWrite where
  block : Nat
  bytes : Buf

structure GrowPlan where
  outcome : GrowOutcome
  backing_size : Nat
  (error_superblock final_superblock : SuperBlock)
  gdt : Bytes
  bitmap_writes : List BitmapWrite
  resize_inode : Inode
  (resize_inode_offset resize_dind_block : Nat)
  resize_dind : Buf
  reserved_gdt_writes : List BitmapWrite
  backup_groups : List Nat

/-! ## Reading an image -/

def read_at (file : File) (offset n : Nat) : Except ResizeError Buf := orFail (file.readExact offset n) .Io

def read_block (file : File) (block : Nat) : Except ResizeError Buf := read_at file (block * BLOCK_SIZE) BLOCK_SIZE

def read_inode_at (file : File) (offset : Nat) : Except ResizeError Inode := do
  let buf ← read_at file offset INODE_SIZE
  pure (Inode.read_from buf)

def get_le32 (buf : Buf) (offset : Nat) : Nat := leNat buf offset 4

def get_be32 (buf : Buf) (offset : Nat) : Nat := beNat buf offset 4

def inode_offset (descriptors : List GroupDescriptor) (superblock : SuperBlock) (inode_number : Nat) :
    Except ResizeError Nat := do
  let group := (inode_number - 1) / superblock.inodes_per_group.toNat
  let index := (inode_number - 1) % superblock.inodes_per_group.toNat
  let descriptor ← orFail descriptors[group]? (.Corrupt "inode group descriptor is missing")
  pure (descriptor.inode_table_lo.toNat * BLOCK_SIZE + index * superblock.inode_size.toNat)

def validate_descriptor (descriptor : GroupDescriptor) (blocks inodes_per_group : Nat) : Except ResizeError Unit :=
  let inode_table_blocks := inodes_per_group * INODE_SIZE / BLOCK_SIZE
  require (descriptor.block_bitmap_lo.toNat < blocks ∧ descriptor.inode_bitmap_lo.toNat < blocks ∧
      descriptor.inode_table_lo.toNat < blocks ∧ descriptor.inode_table_lo.toNat + inode_table_blocks ≤ blocks)
    (.Corrupt "group metadata lies outside the filesystem")

def parse_descriptor (gdt : Buf) (superblock : SuperBlock) (blocks group : Nat) : Except ResizeError GroupDescriptor := do
  let descriptor := GroupDescriptor.read_from fun k => gdt (group * DESCRIPTOR_SIZE + k)
  require (checksum.group_descriptor superblock.uuid group descriptor = descriptor.checksum)
    (.Corrupt "group descriptor checksum mismatch")
  validate_descriptor descriptor blocks (superblock.inodes_per_group.toNat)
  pure descriptor

/-- The pointer to the copy of reserved descriptor block `primary` in a backup group. -/
def backup_pointer (primary group : Nat) : Except ResizeError Nat := do
  let backup := primary + min (group * BLOCKS_PER_GROUP) U32_MAX
  require (backup ≤ U32_MAX) (.Corrupt "backup GDT pointer overflows")
  pure backup

/-- The double-indirect block of the resize inode lists the reserved descriptor blocks, and each of these lists
its own copies in the backup groups. -/
def validate_resize_inode (file : File) (superblock : SuperBlock) (descriptor_blocks descriptor_span groups : Nat)
    (inode : Inode) : Except ResizeError Nat := do
  require (inode.mode &&& file_mode.TYPE_MASK = file_mode.S_IFREG ∧ inode.links_count = 1 ∧ inode.flags = 0)
    (.Corrupt "invalid resize inode")
  let dind_block := get_le32 inode.blockBuf (EXT2_DIND_BLOCK * 4)
  require (dind_block ≠ 0 ∧ dind_block < superblock.blocks_count_lo.toNat)
    (.Corrupt "invalid resize inode double-indirect block")
  let dind ← read_block file dind_block
  (List.range' descriptor_blocks (descriptor_span - descriptor_blocks)).forM fun index => do
    let expected := 1 + index
    require (get_le32 dind (index * 4) = expected) (.Corrupt "resize inode GDT pointer mismatch")
    let pointers ← read_block file expected
    (backup_groups groups).zipIdx.forM fun (group, backup_index) => do
      let expected_backup ← backup_pointer expected group
      require (get_le32 pointers (backup_index * 4) = expected_backup)
        (.Corrupt "resize inode backup pointer mismatch")
  pure dind_block

def validate_journal_superblock (block : Buf) (journal_blocks : Nat) (uuid : Fin 16 → UInt8) :
    Except ResizeError Unit := do
  let maximum_journal_blocks := get_be32 block 0x10
  let first_journal_block := get_be32 block 0x14
  require (get_be32 block 0x00 = 0xC03B3998 ∧ get_be32 block 0x04 = 4 ∧ get_be32 block 0x0C = BLOCK_SIZE ∧
      1024 ≤ maximum_journal_blocks ∧ maximum_journal_blocks ≤ journal_blocks ∧ first_journal_block ≠ 0 ∧
      first_journal_block < maximum_journal_blocks ∧ get_be32 block 0x40 = 1 ∧ ∀ i, getBytes 16 block 0x30 i = uuid i)
    (.Corrupt "invalid JBD2 superblock")
  require (get_be32 block 0x20 = 0) (.Corrupt "journal records an aborted transaction")
  require (get_be32 block 0x1C = 0) .RequiresRecovery
  require (get_be32 block 0x24 = 0 ∧ (get_be32 block 0x28 = 0 ∨ get_be32 block 0x28 = 1) ∧ get_be32 block 0x2C = 0)
    (.Unsupported "unsupported JBD2 feature set")

def validate_clean_journal (file : File) (descriptors : List GroupDescriptor) (superblock : SuperBlock) :
    Except ResizeError Unit := do
  let offset ← inode_offset descriptors superblock JOURNAL_INODE_NUMBER
  let inode ← read_inode_at file offset
  require (inode.mode &&& file_mode.TYPE_MASK = file_mode.S_IFREG ∧ inode.links_count ≠ 0 ∧
      inode.flags &&& inode_flags.EXTENTS ≠ 0)
    (.Corrupt "invalid journal inode")
  let ranges ← (parse_extents inode BLOCK_SIZE file).mapError fun _ => .Corrupt "invalid journal extents"
  let mapped_blocks := (ranges.map BlockRange.size).sum
  let journal_blocks := inode.file_size / BLOCK_SIZE
  require (1024 ≤ journal_blocks ∧ journal_blocks ≤ mapped_blocks) (.Corrupt "journal is not fully allocated")
  let first ← orFail ranges.head? (.Corrupt "journal has no blocks")
  let block ← read_block file first.start
  validate_journal_superblock block journal_blocks superblock.uuid

/-- The checks `parse_image` makes on the superblock alone. -/
def validate_superblock (superblock : SuperBlock) : Except ResizeError Unit := do
  require (superblock.magic.toNat = SUPERBLOCK_MAGIC) (.Corrupt "invalid superblock magic")
  require (superblock.log_block_size.toNat = 2 ∧ superblock.first_data_block.toNat = 0 ∧
      superblock.blocks_per_group.toNat = BLOCKS_PER_GROUP ∧ superblock.clusters_per_group.toNat = BLOCKS_PER_GROUP ∧
      superblock.inode_size.toNat = INODE_SIZE)
    (.Unsupported "unsupported filesystem geometry")
  require (superblock.feature_compat.toNat = EXPECTED_COMPAT) (.Unsupported "unexpected compatible feature set")
  require (superblock.feature_incompat.toNat &&& incompat.RECOVER = 0) .RequiresRecovery
  require (superblock.feature_incompat.toNat = EXPECTED_INCOMPAT) (.Unsupported "unexpected incompatible feature set")
  require (superblock.feature_ro_compat.toNat = EXPECTED_RO_COMPAT)
    (.Unsupported "unexpected read-only compatible feature set")
  require (superblock.state.toNat &&& EXT4_VALID_FS ≠ 0 ∧ superblock.state.toNat &&& EXT4_ERROR_FS = 0)
    (.Corrupt "filesystem is not clean")
  require (superblock.last_orphan.toNat = 0) .RequiresRecovery
  require (superblock.journal_inum.toNat = JOURNAL_INODE_NUMBER ∧ superblock.journal_dev.toNat = 0)
    (.Unsupported "unsupported journal location")
  require (superblock.reserved_gdt_blocks.toNat ≠ 0) (.Unsupported "filesystem has no reserved GDT capacity")
  require (superblock.blocks_count_hi.toNat = 0 ∧ superblock.blocks_count_lo.toNat ≠ 0)
    (.Unsupported "64-bit block counts are unsupported")

def parse_image (file : File) : Except ResizeError ParsedImage := do
  let sb_buf ← read_at file SUPERBLOCK_OFFSET SUPERBLOCK_SIZE
  let superblock := SuperBlock.read_from sb_buf
  validate_superblock superblock
  let blocks := superblock.blocks_count_lo.toNat
  require (blocks * BLOCK_SIZE < 2 ^ 64) (.Corrupt "filesystem size overflows u64")
  require (blocks * BLOCK_SIZE ≤ file.len) (.Corrupt "backing file is shorter than the filesystem")
  let groups := group_count blocks 0 BLOCKS_PER_GROUP
  require (groups = 0 ∨ groups * superblock.inodes_per_group.toNat ≤ U32_MAX) (.Corrupt "inode count overflows")
  require (groups ≠ 0 ∧ groups * superblock.inodes_per_group.toNat = superblock.inodes_count.toNat)
    (.Corrupt "inconsistent group or inode count")
  let descriptor_blocks := descriptor_blocks groups BLOCK_SIZE DESCRIPTOR_SIZE
  let descriptor_span := descriptor_blocks + superblock.reserved_gdt_blocks.toNat
  require (descriptor_span ≤ U32_MAX) (.Corrupt "resize inode GDT span overflows")
  require (descriptor_span ≤ BLOCK_SIZE / 4) (.Corrupt "resize inode GDT span exceeds double-indirect block")
  let gdt ← read_at file BLOCK_SIZE (descriptor_blocks * BLOCK_SIZE)
  let descriptors ← (List.range groups).mapM (parse_descriptor gdt superblock blocks)
  require (superblock.inodes_per_group.toNat * superblock.inode_size.toNat ≤ U32_MAX)
    (.Corrupt "inode table size overflows")
  let inode_table_blocks := superblock.inodes_per_group.toNat * superblock.inode_size.toNat / BLOCK_SIZE
  require (inode_table_blocks ≠ 0) (.Corrupt "inode table is empty")
  let resize_inode_offset ← inode_offset descriptors superblock RESIZE_INODE_NUMBER
  let resize_inode ← read_inode_at file resize_inode_offset
  let resize_dind_block ← validate_resize_inode file superblock descriptor_blocks descriptor_span groups resize_inode
  validate_clean_journal file descriptors superblock
  pure { superblock, descriptors, descriptor_span, groups, blocks, inode_table_blocks, resize_inode,
         resize_inode_offset, resize_dind_block }

/-! ## Planning -/

/-- The blocks at the start of a group that hold the superblock copy and the descriptor area. -/
def system_blocks (group descriptor_span : Nat) : Nat := if has_sparse_super group then 1 + descriptor_span else 0

/-- The blocks and groups after the growth. A new last group too small for its own metadata is left out. -/
def grow_target (image : ParsedImage) (requested_blocks : Nat) : Nat × Nat :=
  let new_groups := group_count requested_blocks 0 BLOCKS_PER_GROUP
  let last_group := new_groups - 1
  let blocks_in_last := requested_blocks - last_group * BLOCKS_PER_GROUP
  let minimum := system_blocks last_group image.descriptor_span + 2 + image.inode_table_blocks + 1
  if image.groups < new_groups ∧ blocks_in_last ≠ BLOCKS_PER_GROUP ∧ blocks_in_last ≤ minimum then
    (last_group * BLOCKS_PER_GROUP, last_group)
  else (requested_blocks, new_groups)

/-- What the growth of one group adds: its descriptor, the bitmaps to write and the blocks it frees. -/
structure GroupGrowth where
  descriptor : GroupDescriptor
  writes : List BitmapWrite
  free_blocks : Nat

/-- The old last group when it was partial: the blocks it gains become free. -/
def extend_last_group (file : File) (image : ParsedImage) (new_blocks : Nat) :
    Except ResizeError (Option GroupGrowth) :=
  let old_last_group := image.groups - 1
  let group_start := old_last_group * BLOCKS_PER_GROUP
  let expanded_end := min new_blocks ((old_last_group + 1) * BLOCKS_PER_GROUP)
  if image.blocks % BLOCKS_PER_GROUP ≠ 0 ∧ image.blocks < expanded_end then do
    let descriptor ← orFail image.descriptors[old_last_group]? (.Corrupt "missing final group descriptor")
    require (descriptor.flags &&& bg_flags.BLOCK_UNINIT = 0) (.Corrupt "partial group has uninitialized bitmap")
    let bitmap ← read_block file descriptor.block_bitmap_lo.toNat
    let bitmap := clearBits bitmap (image.blocks - group_start) (expanded_end - group_start)
    let added := expanded_end - image.blocks
    require (descriptor.free_blocks_count_lo.toNat + added % 2 ^ 16 < 2 ^ 16) (.Corrupt "free block count overflows")
    pure (some {
      descriptor := { descriptor with free_blocks_count_lo := .ofNat (descriptor.free_blocks_count_lo.toNat + added) }
      writes := [⟨descriptor.block_bitmap_lo.toNat, bitmap⟩]
      free_blocks := added })
  else pure none

/-- A new group: its metadata follows its superblock copy, and everything after that is free. -/
def new_group (image : ParsedImage) (new_blocks new_groups group : Nat) : Except ResizeError GroupGrowth := do
  let group_start := group * BLOCKS_PER_GROUP
  let blocks_in_group := min (new_blocks - group_start) BLOCKS_PER_GROUP
  let system_blocks := system_blocks group image.descriptor_span
  let inode_table := group_start + system_blocks
  let block_bitmap := inode_table + image.inode_table_blocks
  let inode_bitmap := block_bitmap + 1
  let used_blocks := system_blocks + image.inode_table_blocks + 2
  require (used_blocks < blocks_in_group) (.Corrupt "new group is too small for metadata")
  let block_bitmap_bytes := setBits (setBits (fun _ => 0) 0 used_blocks) blocks_in_group BLOCKS_PER_GROUP
  let inode_bitmap_bytes := setBits (fun _ => 0) (image.superblock.inodes_per_group.toNat) BLOCKS_PER_GROUP
  let free_blocks := blocks_in_group - used_blocks
  let inodes_per_group := UInt16.ofNat (image.superblock.inodes_per_group.toNat)
  pure {
    descriptor :=
      { block_bitmap_lo := .ofNat block_bitmap, inode_bitmap_lo := .ofNat inode_bitmap,
        inode_table_lo := .ofNat inode_table, free_blocks_count_lo := .ofNat free_blocks,
        free_inodes_count_lo := inodes_per_group, used_dirs_count_lo := 0,
        flags := if group ≠ new_groups - 1 then bg_flags.INODE_UNINIT ||| bg_flags.BLOCK_UNINIT
          else bg_flags.INODE_UNINIT,
        itable_unused_lo := inodes_per_group }
    writes := [⟨block_bitmap, block_bitmap_bytes⟩, ⟨inode_bitmap, inode_bitmap_bytes⟩]
    free_blocks }

def pointerBlock (pointers : List (Nat × Nat)) : Buf :=
  writeFields (fun _ => 0) (pointers.map fun (index, value) => .nat (index * 4) 4 value)

/-- Reserved descriptor block `1 + index`, listing its copies in the backup groups. -/
def reserved_gdt_write (backups : List Nat) (index : Nat) : Except ResizeError BitmapWrite := do
  let pointers ← backups.mapM (backup_pointer (1 + index))
  pure ⟨1 + index, pointerBlock (pointers.mapIdx fun i pointer => (i, pointer))⟩

/-- The descriptor table, with the checksums computed afresh. -/
def encode_gdt (uuid : Fin 16 → UInt8) (descriptor_blocks : Nat) (descriptors : List GroupDescriptor) : Bytes where
  size := descriptor_blocks * BLOCK_SIZE
  get i :=
    match descriptors[i / DESCRIPTOR_SIZE]? with
    | some descriptor =>
      let descriptor := { descriptor with checksum := checksum.group_descriptor uuid (i / DESCRIPTOR_SIZE) descriptor }
      descriptor.write_to.get (i % DESCRIPTOR_SIZE)
    | none => 0

def final_superblock (image : ParsedImage) (new_blocks new_groups new_reserved_gdt free_blocks_added : Nat) :
    Except ResizeError SuperBlock := do
  let sb := image.superblock
  require (sb.free_blocks_count_lo.toNat + free_blocks_added % 2 ^ 32 ≤ U32_MAX)
    (.Corrupt "superblock free block count overflows")
  let inodes_added := (new_groups - image.groups) * sb.inodes_per_group.toNat
  require (sb.free_inodes_count.toNat + inodes_added ≤ U32_MAX) (.Corrupt "superblock free inode count overflows")
  pure { sb with
    blocks_count_lo := .ofNat new_blocks
    free_blocks_count_lo := .ofNat (sb.free_blocks_count_lo.toNat + free_blocks_added)
    inodes_count := .ofNat (new_groups * sb.inodes_per_group.toNat)
    free_inodes_count := .ofNat (sb.free_inodes_count.toNat + inodes_added)
    reserved_gdt_blocks := .ofNat new_reserved_gdt
    state := .ofNat EXT4_VALID_FS }

def plan_grow (file : File) (image : ParsedImage) (backing_size : Nat) : Except ResizeError GrowPlan := do
  let requested_blocks := backing_size / BLOCK_SIZE
  require (requested_blocks ≤ U32_MAX) (.TooLarge requested_blocks U32_MAX)
  require (image.blocks ≤ requested_blocks) (.ShrinkUnsupported image.blocks requested_blocks)
  let (new_blocks, new_groups) := grow_target image requested_blocks
  let outcome : GrowOutcome := ⟨image.blocks, new_blocks, image.groups, new_groups⟩
  let error_superblock := { image.superblock with state := .ofNat (EXT4_VALID_FS ||| EXT4_ERROR_FS) }
  if !outcome.changed then
    pure { outcome, backing_size, error_superblock, final_superblock := image.superblock, gdt := .zeros 0,
           bitmap_writes := [], resize_inode := image.resize_inode,
           resize_inode_offset := image.resize_inode_offset, resize_dind_block := image.resize_dind_block,
           resize_dind := fun _ => 0, reserved_gdt_writes := [], backup_groups := [] }
  else do
    let new_descriptor_blocks := descriptor_blocks new_groups BLOCK_SIZE DESCRIPTOR_SIZE
    let descriptor_span := image.descriptor_span
    require (new_descriptor_blocks ≤ descriptor_span) (.GdtCapacityExceeded new_descriptor_blocks descriptor_span)
    let new_reserved_gdt := descriptor_span - new_descriptor_blocks
    let extended ← extend_last_group file image new_blocks
    let added ← (List.range' image.groups (new_groups - image.groups)).mapM (new_group image new_blocks new_groups)
    let descriptors := (match extended with
      | some g => image.descriptors.set (image.groups - 1) g.descriptor
      | none => image.descriptors) ++ added.map GroupGrowth.descriptor
    let growth := extended.toList ++ added
    require (new_groups * image.superblock.inodes_per_group.toNat ≤ U32_MAX) .TooManyInodes
    let final_backup_groups := backup_groups new_groups
    let reserved := List.range' new_descriptor_blocks (descriptor_span - new_descriptor_blocks)
    let reserved_gdt_writes ← reserved.mapM (reserved_gdt_write final_backup_groups)
    let resize_owned_blocks := 1 + new_reserved_gdt * (1 + final_backup_groups.length)
    require (resize_owned_blocks * (BLOCK_SIZE / 512) ≤ U32_MAX) (.Corrupt "resize inode block count overflows")
    let final_superblock ← final_superblock image new_blocks new_groups new_reserved_gdt
      (growth.map GroupGrowth.free_blocks).sum
    pure { outcome, backing_size, error_superblock, final_superblock,
           gdt := encode_gdt final_superblock.uuid new_descriptor_blocks descriptors,
           bitmap_writes := growth.flatMap GroupGrowth.writes,
           resize_inode := { image.resize_inode with blocks_lo := .ofNat (resize_owned_blocks * (BLOCK_SIZE / 512)) },
           resize_inode_offset := image.resize_inode_offset, resize_dind_block := image.resize_dind_block,
           resize_dind := pointerBlock (reserved.map fun index => (index, 1 + index)), reserved_gdt_writes,
           backup_groups := final_backup_groups }

/-! ## Applying the plan -/

inductive FileWrite where
  | set_len (n : Nat)
  | write_at (offset : Nat) (buf : Bytes)

def FileWrite.apply (file : File) : FileWrite → File
  | .set_len n => file.setLen n
  | .write_at offset buf => file.write offset buf

def write_block (block : Nat) (buf : Buf) : FileWrite := .write_at (block * BLOCK_SIZE) ⟨BLOCK_SIZE, buf⟩

/-- The copy of the superblock in the group that starts at `group_start`; the primary one stands behind the boot
sector. -/
def write_superblock (group_start : Nat) (superblock : SuperBlock) : FileWrite :=
  let sb := { superblock with block_group_nr := .ofNat (group_start / BLOCKS_PER_GROUP) }
  .write_at (if group_start = 0 then SUPERBLOCK_OFFSET else group_start * BLOCK_SIZE) sb.write_to

def write_bitmap (w : BitmapWrite) : FileWrite := write_block w.block w.bytes

/-- The descriptor table and the superblock copy of a backup group. -/
def write_backup (plan : GrowPlan) (group : Nat) : List FileWrite :=
  let group_start := group * BLOCKS_PER_GROUP
  [.write_at ((group_start + 1) * BLOCK_SIZE) plan.gdt, write_superblock group_start plan.final_superblock]

/-- What `apply_plan` writes before its first barrier. -/
def mark_writes (file : File) (plan : GrowPlan) : List FileWrite :=
  (if file.len < plan.backing_size then [.set_len plan.backing_size] else []) ++
    [write_superblock 0 plan.error_superblock]

/-- What `apply_plan` writes between its first two barriers. -/
def metadata_writes (plan : GrowPlan) : List FileWrite :=
  plan.bitmap_writes.map write_bitmap ++
    (write_block plan.resize_dind_block plan.resize_dind ::
      (plan.reserved_gdt_writes.map write_bitmap ++
        (.write_at plan.resize_inode_offset plan.resize_inode.write_to ::
          .write_at BLOCK_SIZE plan.gdt :: plan.backup_groups.flatMap (write_backup plan))))

/-- The operations of `apply_plan`, in order: the primary superblock marks an error while anything else is written. -/
def apply_plan (file : File) (plan : GrowPlan) : List (Op FileWrite) :=
  (mark_writes file plan).map .write ++ .sync ::
    ((metadata_writes plan).map .write ++
      [.sync, .write (write_superblock 0 plan.final_superblock), .sync])

/-- What `grow_image` does to an image file: the operations it issues, and its result. -/
def grow_image (file : File) (new_size_bytes : Nat) : Except ResizeError (GrowOutcome × List (Op FileWrite)) := do
  require (new_size_bytes % BLOCK_SIZE = 0) (.UnalignedSize new_size_bytes)
  let image ← parse_image file
  let plan ← plan_grow file image new_size_bytes
  if !plan.outcome.changed then
    pure (plan.outcome, if file.len < plan.backing_size then [.write (.set_len plan.backing_size)] else [])
  else pure (plan.outcome, apply_plan file plan)

def grown (file : File) (ops : List (Op FileWrite)) : File := finished FileWrite.apply file ops

end Silo.Ext4
