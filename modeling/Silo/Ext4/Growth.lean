import Silo.Ext4.Resizer
/-!
# What a successful parse and a successful plan say

`parse_image` and `plan_grow` make a long series of checks. Both are read back
here once, as the list of facts a success stands for.
-/

namespace Silo.Ext4

open Lib

variable {file : File} {image : ParsedImage}

theorem read_at_eq_ok {off n : Nat} {buf : Buf} :
    read_at file off n = .ok buf ↔ off + n ≤ file.len ∧ file.drop off = buf := by
  unfold read_at File.readExact
  split <;> simp_all [orFail]

theorem read_block_eq_ok {block : Nat} {buf : Buf} :
    read_block file block = .ok buf ↔
      block * BLOCK_SIZE + BLOCK_SIZE ≤ file.len ∧ file.drop (block * BLOCK_SIZE) = buf := read_at_eq_ok

def primary_superblock (file : File) : SuperBlock := SuperBlock.read_from (file.drop SUPERBLOCK_OFFSET)

structure ValidSuperblock (sb : SuperBlock) : Prop where
  magic : sb.magic.toNat = SUPERBLOCK_MAGIC
  log_block_size : sb.log_block_size.toNat = 2
  first_data_block : sb.first_data_block.toNat = 0
  blocks_per_group : sb.blocks_per_group.toNat = BLOCKS_PER_GROUP
  clusters_per_group : sb.clusters_per_group.toNat = BLOCKS_PER_GROUP
  inode_size : sb.inode_size.toNat = INODE_SIZE
  feature_compat : sb.feature_compat.toNat = EXPECTED_COMPAT
  feature_incompat : sb.feature_incompat.toNat = EXPECTED_INCOMPAT
  feature_ro_compat : sb.feature_ro_compat.toNat = EXPECTED_RO_COMPAT
  clean : sb.state.toNat &&& EXT4_VALID_FS ≠ 0
  no_error : sb.state.toNat &&& EXT4_ERROR_FS = 0
  last_orphan : sb.last_orphan.toNat = 0
  journal_inum : sb.journal_inum.toNat = JOURNAL_INODE_NUMBER
  journal_dev : sb.journal_dev.toNat = 0
  reserved_gdt_blocks : sb.reserved_gdt_blocks.toNat ≠ 0
  blocks_count_hi : sb.blocks_count_hi.toNat = 0
  blocks_count_lo : sb.blocks_count_lo.toNat ≠ 0

theorem validate_superblock_eq_ok {sb : SuperBlock} {u : Unit} :
    validate_superblock sb = .ok u ↔ ValidSuperblock sb := by
  simp only [validate_superblock, bind_eq_ok, require_eq_ok]
  constructor
  · rintro ⟨_, h1, _, ⟨h2, h3, h4, h5, h6⟩, _, h7, _, _, _, h8, _, h9, _, ⟨h10, h11⟩, _, h12, _, ⟨h13, h14⟩, _,
      h15, h16, h17⟩
    exact ⟨h1, h2, h3, h4, h5, h6, h7, h8, h9, h10, h11, h12, h13, h14, h15, h16, h17⟩
  · intro h
    have hrecover : sb.feature_incompat.toNat &&& incompat.RECOVER = 0 := by rw [h.feature_incompat]; decide
    exact ⟨(), h.magic, (),
      ⟨h.log_block_size, h.first_data_block, h.blocks_per_group, h.clusters_per_group, h.inode_size⟩,
      (), h.feature_compat, (), hrecover, (), h.feature_incompat, (), h.feature_ro_compat, (),
      ⟨h.clean, h.no_error⟩, (), h.last_orphan, (),
      ⟨h.journal_inum, h.journal_dev⟩, (), h.reserved_gdt_blocks, h.blocks_count_hi, h.blocks_count_lo⟩

/-- The resize inode and the blocks it lists are those of a file system with `groups` groups. -/
structure ValidResizeInode (file : File) (blocks descriptor_blocks descriptor_span groups : Nat) (inode : Inode)
    (dind_block : Nat) : Prop where
  mode : inode.mode &&& file_mode.TYPE_MASK = file_mode.S_IFREG
  links_count : inode.links_count = 1
  flags : inode.flags = 0
  pointer : get_le32 inode.blockBuf (EXT2_DIND_BLOCK * 4) = dind_block
  pointer_ne : dind_block ≠ 0
  pointer_lt : dind_block < blocks
  has_dind : dind_block * BLOCK_SIZE + BLOCK_SIZE ≤ file.len
  reserved : ∀ index, descriptor_blocks ≤ index → index < descriptor_span →
    get_le32 (file.drop (dind_block * BLOCK_SIZE)) (index * 4) = 1 + index ∧
    (1 + index) * BLOCK_SIZE + BLOCK_SIZE ≤ file.len ∧
    ∀ group backup_index, (group, backup_index) ∈ (backup_groups groups).zipIdx →
      backup_pointer (1 + index) group = .ok (get_le32 (file.drop ((1 + index) * BLOCK_SIZE)) (backup_index * 4))

theorem validate_resize_inode_eq_ok {sb : SuperBlock} {descriptor_blocks descriptor_span groups : Nat} {inode : Inode}
    {dind_block : Nat} :
    validate_resize_inode file sb descriptor_blocks descriptor_span groups inode = .ok dind_block ↔
      ValidResizeInode file sb.blocks_count_lo.toNat descriptor_blocks descriptor_span groups inode dind_block := by
  simp only [validate_resize_inode, bind_eq_ok, require_eq_ok, pure_eq_ok, forM_eq_ok, read_block_eq_ok,
    List.mem_range'_1]
  constructor
  · rintro ⟨_, ⟨h1, h2, h3⟩, _, ⟨h4, h5⟩, _, ⟨h6, rfl⟩, _, hall, rfl⟩
    refine ⟨h1, h2, h3, rfl, h4, h5, h6, ?_⟩
    intro index hlo hhi
    obtain ⟨_, hindex, _, ⟨hlen, rfl⟩, hbackups⟩ := hall index ⟨hlo, by omega⟩
    refine ⟨hindex, hlen, ?_⟩
    intro group backup_index hmem
    obtain ⟨_, hp, hget⟩ := hbackups (group, backup_index) hmem
    rw [hget]
    exact hp
  · rintro ⟨h1, h2, h3, rfl, h4, h5, h6, hall⟩
    refine ⟨(), ⟨h1, h2, h3⟩, (), ⟨h4, h5⟩, _, ⟨h6, rfl⟩, (), ?_, rfl⟩
    intro index hindex
    obtain ⟨hp, hlen, hbackups⟩ := hall index hindex.1 (by omega)
    exact ⟨(), hp, _, ⟨hlen, rfl⟩, fun p hmem => ⟨_, hbackups p.1 p.2 hmem, rfl⟩⟩

/-- What `parse_image` finds in an image it accepts. -/
structure Parsed (file : File) (image : ParsedImage) : Prop where
  has_superblock : SUPERBLOCK_OFFSET + SUPERBLOCK_SIZE ≤ file.len
  superblock : image.superblock = primary_superblock file
  valid : validate_superblock image.superblock = .ok ()
  blocks : image.blocks = image.superblock.blocks_count_lo.toNat
  blocks_u64 : image.blocks * BLOCK_SIZE < 2 ^ 64
  blocks_le : image.blocks * BLOCK_SIZE ≤ file.len
  groups : image.groups = group_count image.blocks 0 BLOCKS_PER_GROUP
  groups_ne : image.groups ≠ 0
  inodes_le : image.groups * image.superblock.inodes_per_group.toNat ≤ U32_MAX
  inodes : image.groups * image.superblock.inodes_per_group.toNat = image.superblock.inodes_count.toNat
  span : image.descriptor_span =
    descriptor_blocks image.groups BLOCK_SIZE DESCRIPTOR_SIZE + image.superblock.reserved_gdt_blocks.toNat
  span_le : image.descriptor_span ≤ BLOCK_SIZE / 4
  has_gdt : BLOCK_SIZE + descriptor_blocks image.groups BLOCK_SIZE DESCRIPTOR_SIZE * BLOCK_SIZE ≤ file.len
  descriptors : (List.range image.groups).mapM
    (parse_descriptor (file.drop BLOCK_SIZE) image.superblock image.blocks) = .ok image.descriptors
  table_le : image.superblock.inodes_per_group.toNat * image.superblock.inode_size.toNat ≤ U32_MAX
  table : image.inode_table_blocks =
    image.superblock.inodes_per_group.toNat * image.superblock.inode_size.toNat / BLOCK_SIZE
  table_ne : image.inode_table_blocks ≠ 0
  resize_offset : inode_offset image.descriptors image.superblock RESIZE_INODE_NUMBER = .ok image.resize_inode_offset
  resize_inode : read_inode_at file image.resize_inode_offset = .ok image.resize_inode
  resize_valid : validate_resize_inode file image.superblock
    (descriptor_blocks image.groups BLOCK_SIZE DESCRIPTOR_SIZE) image.descriptor_span image.groups image.resize_inode =
      .ok image.resize_dind_block
  journal_valid : validate_clean_journal file image.descriptors image.superblock = .ok ()

theorem parse_image_eq_ok : parse_image file = .ok image ↔ Parsed file image := by
  constructor
  · intro h
    simp only [parse_image, bind_eq_ok, pure_eq_ok, require_eq_ok, read_at_eq_ok] at h
    obtain ⟨_, ⟨hlen, rfl⟩, _, hvalid, _, h64, _, hle, _, hov, _, ⟨hg, hino⟩, _, hspan32, _, hspan, _, ⟨hgdt, rfl⟩,
      descriptors, hdesc, _, htab, _, htab0, off, hoff, inode, hinode, dind, hdind, _, hjournal, rfl⟩ := h
    exact { has_superblock := hlen, superblock := rfl, valid := hvalid, blocks := rfl, blocks_u64 := h64,
            blocks_le := hle, groups := rfl, groups_ne := hg, inodes_le := hov.resolve_left hg, inodes := hino,
            span := rfl, span_le := hspan, has_gdt := hgdt, descriptors := hdesc, table_le := htab, table := rfl,
            table_ne := htab0, resize_offset := hoff, resize_inode := hinode, resize_valid := hdind,
            journal_valid := hjournal }
  · intro h
    obtain ⟨sb, descriptors, span, groups, blocks, tables, inode, off, dind⟩ := image
    obtain ⟨hlen, hsb, hvalid, hblocks, h64, hle, hgroups, hg, hov, hino, hsp, hspan, hgdt, hdesc, htab, htables, htab0,
      hoff, hinode, hdind, hjournal⟩ := h
    dsimp only at *
    subst hsb hblocks hgroups hsp htables
    have hspan32 := Nat.le_trans hspan (show BLOCK_SIZE / 4 ≤ U32_MAX by decide)
    simp only [parse_image, bind_eq_ok, pure_eq_ok, require_eq_ok, read_at_eq_ok]
    exact ⟨_, ⟨hlen, rfl⟩, (), hvalid, (), h64, (), hle, (), .inr hov, (), ⟨hg, hino⟩, (), hspan32, (), hspan, _,
      ⟨hgdt, rfl⟩, descriptors, hdesc, (), htab, (), htab0, off, hoff, inode, hinode, dind, hdind, (), hjournal, rfl⟩

section Target

variable (image : ParsedImage) (size : Nat)

def target_blocks : Nat := (grow_target image (size / BLOCK_SIZE)).1

def target_groups : Nat := (grow_target image (size / BLOCK_SIZE)).2

def target_descriptor_blocks : Nat := descriptor_blocks (target_groups image size) BLOCK_SIZE DESCRIPTOR_SIZE

def target_reserved_gdt : Nat := image.descriptor_span - target_descriptor_blocks image size

/-- The 512-byte sectors of the resize inode: its double-indirect block, and the reserved descriptor blocks with
their copies. -/
def target_resize_sectors : Nat :=
  (1 + target_reserved_gdt image size * (1 + (backup_groups (target_groups image size)).length)) * (BLOCK_SIZE / 512)

end Target

def grown_descriptors (image : ParsedImage) (extended : Option GroupGrowth) (added : List GroupGrowth) :
    List GroupDescriptor :=
  (match extended with
    | some g => image.descriptors.set (image.groups - 1) g.descriptor
    | none => image.descriptors) ++ added.map GroupGrowth.descriptor

/-- The plan of a growth that changes the image: `extended` is the growth of the old last group, `added` the new
groups. -/
structure Planned (file : File) (image : ParsedImage) (size : Nat) (extended : Option GroupGrowth)
    (added : List GroupGrowth) (plan : GrowPlan) : Prop where
  requested_le : size / BLOCK_SIZE ≤ U32_MAX
  blocks_le : image.blocks ≤ size / BLOCK_SIZE
  outcome : plan.outcome = ⟨image.blocks, target_blocks image size, image.groups, target_groups image size⟩
  changed : image.blocks ≠ target_blocks image size
  span_le : target_descriptor_blocks image size ≤ image.descriptor_span
  extended_ok : extend_last_group file image (target_blocks image size) = .ok extended
  added_ok : (List.range' image.groups (target_groups image size - image.groups)).mapM
    (new_group image (target_blocks image size) (target_groups image size)) = .ok added
  inodes_le : target_groups image size * image.superblock.inodes_per_group.toNat ≤ U32_MAX
  reserved_ok : (List.range' (target_descriptor_blocks image size) (target_reserved_gdt image size)).mapM
    (reserved_gdt_write (backup_groups (target_groups image size))) = .ok plan.reserved_gdt_writes
  sectors_le : target_resize_sectors image size ≤ U32_MAX
  final_ok : final_superblock image (target_blocks image size) (target_groups image size)
    (target_reserved_gdt image size) ((extended.toList ++ added).map GroupGrowth.free_blocks).sum =
      .ok plan.final_superblock
  backing_size : plan.backing_size = size
  error_superblock : plan.error_superblock =
    { image.superblock with state := .ofNat (EXT4_VALID_FS ||| EXT4_ERROR_FS) }
  gdt : plan.gdt = encode_gdt plan.final_superblock.uuid (target_descriptor_blocks image size)
    (grown_descriptors image extended added)
  bitmap_writes : plan.bitmap_writes = (extended.toList ++ added).flatMap GroupGrowth.writes
  resize_inode : plan.resize_inode = { image.resize_inode with blocks_lo := .ofNat (target_resize_sectors image size) }
  resize_inode_offset : plan.resize_inode_offset = image.resize_inode_offset
  resize_dind_block : plan.resize_dind_block = image.resize_dind_block
  resize_dind : plan.resize_dind = pointerBlock
    ((List.range' (target_descriptor_blocks image size) (target_reserved_gdt image size)).map
      fun index => (index, 1 + index))
  backups : plan.backup_groups = backup_groups (target_groups image size)

theorem plan_grow_cases {size : Nat} {plan : GrowPlan} (h : plan_grow file image size = .ok plan) :
    (plan.outcome.changed = false ∧ image.blocks = target_blocks image size ∧ image.blocks ≤ size / BLOCK_SIZE ∧
      plan.backing_size = size) ∨
    plan.outcome.changed ∧ ∃ extended added, Planned file image size extended added plan := by
  simp only [plan_grow, bind_eq_ok, require_eq_ok] at h
  obtain ⟨_, hreq, _, hle, h⟩ := h
  split at h
  · next hsame =>
    simp only [pure_eq_ok] at h
    subst h
    have hsame : image.blocks = target_blocks image size := by simpa [GrowOutcome.changed, target_blocks] using hsame
    exact .inl ⟨by simpa [GrowOutcome.changed, target_blocks] using hsame, hsame, hle, rfl⟩
  · next hdiff =>
    simp only [bind_eq_ok, require_eq_ok, pure_eq_ok] at h
    obtain ⟨_, hspan, extended, hext, added, hadded, _, hino, reserved, hres, _, hown, sb, hsb, rfl⟩ := h
    simp only [Bool.not_eq_true, Bool.not_eq_false'] at hdiff
    have hne : image.blocks ≠ target_blocks image size := by simpa [GrowOutcome.changed, target_blocks] using hdiff
    refine .inr ⟨hdiff, extended, added, ?_⟩
    exact { requested_le := hreq, blocks_le := hle, outcome := rfl, changed := hne, span_le := hspan,
            extended_ok := hext, added_ok := hadded, inodes_le := hino, reserved_ok := hres, final_ok := hsb,
            backing_size := rfl, error_superblock := rfl, gdt := rfl, bitmap_writes := rfl,
            sectors_le := hown, resize_inode := rfl, resize_inode_offset := rfl, resize_dind_block := rfl,
            resize_dind := rfl, backups := rfl }

/-! ## Group by group -/

/-- How far the old last group reaches in the grown image. -/
def expanded_end (image : ParsedImage) (new_blocks : Nat) : Nat :=
  min new_blocks ((image.groups - 1 + 1) * BLOCKS_PER_GROUP)

structure Extended (file : File) (image : ParsedImage) (new_blocks : Nat) (d : GroupDescriptor) (g : GroupGrowth) :
    Prop where
  descriptor : image.descriptors[image.groups - 1]? = some d
  partial_group : image.blocks % BLOCKS_PER_GROUP ≠ 0
  gains : image.blocks < expanded_end image new_blocks
  initialized : d.flags &&& bg_flags.BLOCK_UNINIT = 0
  bitmap : d.block_bitmap_lo.toNat * BLOCK_SIZE + BLOCK_SIZE ≤ file.len
  free_le : d.free_blocks_count_lo.toNat + (expanded_end image new_blocks - image.blocks) % 2 ^ 16 < 2 ^ 16
  growth : g = {
    descriptor := { d with
      free_blocks_count_lo := .ofNat (d.free_blocks_count_lo.toNat + (expanded_end image new_blocks - image.blocks)) }
    writes := [⟨d.block_bitmap_lo.toNat, clearBits (file.drop (d.block_bitmap_lo.toNat * BLOCK_SIZE))
      (image.blocks - (image.groups - 1) * BLOCKS_PER_GROUP)
      (expanded_end image new_blocks - (image.groups - 1) * BLOCKS_PER_GROUP)⟩]
    free_blocks := expanded_end image new_blocks - image.blocks }

theorem extend_last_group_cases {new_blocks : Nat} {extended : Option GroupGrowth}
    (h : extend_last_group file image new_blocks = .ok extended) :
    (extended = none ∧ (image.blocks % BLOCKS_PER_GROUP = 0 ∨ expanded_end image new_blocks ≤ image.blocks)) ∨
      ∃ d g, extended = some g ∧ Extended file image new_blocks d g := by
  simp only [extend_last_group] at h
  split at h
  · next hcond =>
    simp only [bind_eq_ok, require_eq_ok, orFail_eq_ok, pure_eq_ok, read_block_eq_ok] at h
    obtain ⟨d, hd, _, hinit, _, ⟨hlen, rfl⟩, _, hfree, rfl⟩ := h
    exact .inr ⟨d, _, rfl, hd, hcond.1, hcond.2, hinit, hlen, hfree, rfl⟩
  · next hcond =>
    simp only [pure_eq_ok] at h
    refine .inl ⟨h.symm, ?_⟩
    simp only [expanded_end]
    omega

end Silo.Ext4
