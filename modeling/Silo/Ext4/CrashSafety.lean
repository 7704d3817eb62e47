import Silo.Ext4.Growth
/-!
# Crash consistency of offline growth

`apply_plan` marks the primary superblock with an error, writes the new metadata
between two barriers, and writes the clean superblock last. An image found clean
after a crash is therefore the old one or the new one, provided no metadata write
hits the mark itself. The one write whose place the image alone decides is the
block bitmap of its last group, which is written when that group is partial.
-/

namespace Silo.Ext4

open List Lib SuperBlock

/-- The primary superblock is marked clean, in the sense `parse_image` checks. -/
def MarkedClean (file : File) : Prop :=
  (primary_superblock file).state.toNat &&& EXT4_VALID_FS ≠ 0 ∧
    (primary_superblock file).state.toNat &&& EXT4_ERROR_FS = 0

instance (file : File) : Decidable (MarkedClean file) := inferInstanceAs (Decidable (_ ∧ _))

/-- The last group, when it is partial, does not keep its block bitmap in the block of the primary superblock. -/
def BitmapApart (image : ParsedImage) : Prop :=
  image.blocks % BLOCKS_PER_GROUP ≠ 0 → ∀ d ∈ image.descriptors[image.groups - 1]?, d.block_bitmap_lo ≠ 0

instance (image : ParsedImage) : Decidable (BitmapApart image) := by unfold BitmapApart; infer_instance

/-- The primary superblock carries the state `apply_plan` marks it with. -/
def MarkedError (file : File) : Prop := (primary_superblock file).state.toNat = EXT4_VALID_FS ||| EXT4_ERROR_FS

theorem MarkedError.not_clean {file : File} (h : MarkedError file) : ¬ MarkedClean file := by
  rintro ⟨_, herror⟩
  rw [h] at herror
  revert herror
  decide

/-! ## The state field -/

def STATE_OFFSET : Nat := SUPERBLOCK_OFFSET + 0x3A

variable {f : File}

theorem primary_state_congr {g : File} (h : ∀ i, STATE_OFFSET ≤ i → i < STATE_OFFSET + 2 → f.bytes i = g.bytes i) :
    (primary_superblock f).state = (primary_superblock g).state := by
  apply congrArg UInt16.ofNat
  apply leNat_congr
  intro i hi
  exact h _ (by simp only [STATE_OFFSET]; omega) (by simp only [STATE_OFFSET]; omega)

theorem MarkedError.write (h : MarkedError f) {off : Nat} (src : Bytes) (hoff : STATE_OFFSET + 2 ≤ off) :
    MarkedError (f.write off src) := by
  have hstate : (primary_superblock (f.write off src)).state = (primary_superblock f).state := by
    apply primary_state_congr
    intro i _ hi
    exact copyAt_outside (by omega)
  rw [MarkedError, hstate]
  exact h

theorem primary_superblock_write (f : File) (sb : SuperBlock) :
    primary_superblock (f.write SUPERBLOCK_OFFSET sb.write_to) = sb := by
  apply reads_iff.1
  intro field hfield i hi
  have hstop : field.off + field.src.size ≤ SUPERBLOCK_SIZE := Tiles.le_stop sb.fields_tile _ (mem_map_of_mem hfield)
  have hread := reads_writeFields (Tiles.pairwise sb.fields_tile) (fun _ => 0) field hfield i hi
  rw [hread]
  have hinside : field.off + i < sb.write_to.size := show field.off + i < SUPERBLOCK_SIZE by omega
  exact (copyAt_inside hinside).symm

/-! ## The writes of a plan -/

section Writes

variable {file : File} {image : ParsedImage} {size : Nat} {extended : Option GroupGrowth} {added : List GroupGrowth}
  {plan : GrowPlan}

variable {w : BitmapWrite}

/-- The bitmaps of the new groups lie in the new groups. -/
theorem new_group_writes {new_blocks new_groups group : Nat} {g : GroupGrowth}
    (h : new_group image new_blocks new_groups group = .ok g) (hw : w ∈ g.writes) :
    group * BLOCKS_PER_GROUP ≤ w.block := by
  simp only [new_group, bind_eq_ok, require_eq_ok, pure_eq_ok] at h
  obtain ⟨_, _, rfl⟩ := h
  simp only [mem_cons, not_mem_nil, or_false] at hw
  rcases hw with rfl | rfl <;> simp only <;> omega

theorem extend_last_group_writes {new_blocks : Nat} {g : GroupGrowth}
    (h : extend_last_group file image new_blocks = .ok (some g)) (hw : w ∈ g.writes) (hbitmap : BitmapApart image) :
    w.block ≠ 0 := by
  rcases extend_last_group_cases h with ⟨hnone, _⟩ | ⟨d, g', hsome, hext⟩
  · cases hnone
  · cases hsome
    rw [hext.growth, mem_singleton] at hw
    intro h0
    rw [hw] at h0
    exact hbitmap hext.partial_group d hext.descriptor (UInt32.toNat_inj.1 h0)

theorem Planned.bitmap_block (h : Planned file image size extended added plan) (himage : image.groups ≠ 0)
    (hw : w ∈ plan.bitmap_writes) (hbitmap : BitmapApart image) : w.block ≠ 0 := by
  rw [h.bitmap_writes, mem_flatMap] at hw
  obtain ⟨g, hg, hw⟩ := hw
  rcases mem_append.1 hg with hg | hg
  · have hext := h.extended_ok
    rw [Option.mem_toList.1 hg] at hext
    exact extend_last_group_writes hext hw hbitmap
  · obtain ⟨group, hgroup, hok⟩ := forall₂_exists_left (mapM_eq_ok.1 h.added_ok) g hg
    have hstart := new_group_writes hok hw
    rw [mem_range'_1] at hgroup
    have : 1 * BLOCKS_PER_GROUP ≤ group * BLOCKS_PER_GROUP := Nat.mul_le_mul_right _ (by omega)
    simp only [BLOCKS_PER_GROUP, BLOCK_SIZE] at this hstart
    omega

theorem Planned.reserved_block (h : Planned file image size extended added plan)
    (hw : w ∈ plan.reserved_gdt_writes) : w.block ≠ 0 := by
  obtain ⟨index, _, hok⟩ := forall₂_exists_left (mapM_eq_ok.1 h.reserved_ok) w hw
  simp only [reserved_gdt_write, bind_eq_ok, pure_eq_ok] at hok
  obtain ⟨_, _, rfl⟩ := hok
  simp

theorem Parsed.resize_offset_ge (h : Parsed file image) : STATE_OFFSET + 2 ≤ image.resize_inode_offset := by
  have hoff := h.resize_offset
  have htab := h.table
  have hne := h.table_ne
  have hsize := (validate_superblock_eq_ok.1 h.valid).inode_size
  simp only [inode_offset, bind_eq_ok, orFail_eq_ok, pure_eq_ok] at hoff
  obtain ⟨d, _, hoff⟩ := hoff
  -- a table of at least one block has room for the seventh inode
  have hipg : 16 ≤ image.superblock.inodes_per_group.toNat := by
    rw [hsize] at htab
    simp only [INODE_SIZE, BLOCK_SIZE] at htab
    omega
  rw [hsize, Nat.mod_eq_of_lt (by simp only [RESIZE_INODE_NUMBER]; omega)] at hoff
  simp only [RESIZE_INODE_NUMBER, INODE_SIZE] at hoff
  simp only [STATE_OFFSET, SUPERBLOCK_OFFSET]
  omega

theorem Parsed.resize_dind_ne (h : Parsed file image) : image.resize_dind_block ≠ 0 :=
  (validate_resize_inode_eq_ok.1 h.resize_valid).pointer_ne

theorem write_block_keeps {block : Nat} (hb : block ≠ 0) (buf : Buf) (h : MarkedError f) :
    MarkedError (FileWrite.apply f (write_block block buf)) := by
  apply h.write
  have : 1 * BLOCK_SIZE ≤ block * BLOCK_SIZE := Nat.mul_le_mul_right _ (by omega)
  simp only [STATE_OFFSET, SUPERBLOCK_OFFSET, BLOCK_SIZE] at *
  omega

theorem write_backup_keeps {group : Nat} (hg : group ≠ 0) {w : FileWrite} (hw : w ∈ write_backup plan group)
    (h : MarkedError f) : MarkedError (FileWrite.apply f w) := by
  have hstart : 1 * BLOCKS_PER_GROUP ≤ group * BLOCKS_PER_GROUP := Nat.mul_le_mul_right _ (by omega)
  simp only [write_backup, mem_cons, not_mem_nil, or_false] at hw
  rcases hw with rfl | rfl
  · apply h.write
    simp only [STATE_OFFSET, SUPERBLOCK_OFFSET, BLOCK_SIZE, BLOCKS_PER_GROUP] at *
    omega
  · apply h.write
    rw [if_neg (by simp only [BLOCKS_PER_GROUP, BLOCK_SIZE] at *; omega)]
    simp only [STATE_OFFSET, SUPERBLOCK_OFFSET, BLOCK_SIZE, BLOCKS_PER_GROUP] at *
    omega

/-- No metadata write removes the mark, unless the bitmap of a partial last group lies in block 0. -/
theorem metadata_writes_keep (himage : Parsed file image) (hplan : Planned file image size extended added plan)
    (hbitmap : BitmapApart image) :
    ∀ w ∈ metadata_writes plan, ∀ f, MarkedError f → MarkedError (FileWrite.apply f w) := by
  intro w hw f hf
  simp only [metadata_writes, mem_append, mem_cons, mem_map, mem_flatMap] at hw
  rcases hw with ⟨b, hb, rfl⟩ | rfl | ⟨b, hb, rfl⟩ | rfl | rfl | ⟨group, hgroup, hw⟩
  · exact write_block_keeps (hplan.bitmap_block himage.groups_ne hb hbitmap) _ hf
  · exact write_block_keeps (hplan.resize_dind_block ▸ himage.resize_dind_ne) _ hf
  · exact write_block_keeps (hplan.reserved_block hb) _ hf
  · exact hf.write _ (hplan.resize_inode_offset ▸ himage.resize_offset_ge)
  · exact hf.write _ (by decide)
  · rw [hplan.backups] at hgroup
    exact write_backup_keeps (mem_backup_groups.1 hgroup).2.1 hw hf

end Writes

/-! ## Crashes -/

theorem apply_plan_guarded (file : File) (plan : GrowPlan) :
    apply_plan file plan =
      guarded (mark_writes file plan) (metadata_writes plan) (write_superblock 0 plan.final_superblock) := rfl

theorem marked_after_marking {plan : GrowPlan} {image : ParsedImage}
    (h : plan.error_superblock = { image.superblock with state := .ofNat (EXT4_VALID_FS ||| EXT4_ERROR_FS) }) :
    MarkedError (FileWrite.apply f (write_superblock 0 plan.error_superblock)) := by
  have hread : primary_superblock (FileWrite.apply f (write_superblock 0 plan.error_superblock)) =
      { plan.error_superblock with block_group_nr := .ofNat (0 / BLOCKS_PER_GROUP) } := primary_superblock_write _ _
  rw [MarkedError, hread, h]
  rfl

theorem set_len_bytes {file : File} {n : Nat} {kept : List FileWrite}
    (h : kept.Sublist (if file.len < n then [.set_len n] else [])) :
    (kept.foldl FileWrite.apply file).bytes = file.bytes := by
  split at h
  · next hlt =>
    rcases sublist_singleton.1 h with rfl | rfl
    · rfl
    · exact File.setLen_bytes_of_le (by omega)
  · rw [sublist_nil.1 h]
    rfl

/-- After a crash of `grow_image` an image that is marked clean is the old one or the new one. -/
theorem grow_image_crash {file : File} {size : Nat} {outcome : GrowOutcome} {ops : List (Op FileWrite)}
    (hgrow : grow_image file size = .ok (outcome, ops))
    (hbitmap : outcome.changed → ∀ image, parse_image file = .ok image → BitmapApart image)
    {crashed : File} (hcrash : CrashesTo FileWrite.apply ⟨file, []⟩ ops crashed) (hclean : MarkedClean crashed) :
    crashed.bytes = file.bytes ∨ crashed = grown file ops := by
  simp only [grow_image, bind_eq_ok, require_eq_ok] at hgrow
  obtain ⟨_, _, image, himage, plan, hplan, hops⟩ := hgrow
  have hparsed := parse_image_eq_ok.1 himage
  rcases plan_grow_cases hplan with ⟨hsame, _, _, _⟩ | ⟨hchanged, extended, added, hplanned⟩
  · -- nothing is planned: at most the file is lengthened
    simp only [hsame, Bool.not_false, if_true, pure_eq_ok, Prod.mk.injEq] at hops
    obtain ⟨_, hops⟩ := hops
    have hws : ops = (if file.len < plan.backing_size then [FileWrite.set_len plan.backing_size] else []).map .write := by
      rw [← hops]
      split <;> rfl
    rw [hws, ← append_nil (List.map _ _)] at hcrash
    left
    rcases crashesTo_writes _ hcrash with ⟨kept, hkept, rfl⟩ | ⟨kept, hkept, rfl⟩
    · exact set_len_bytes hkept
    · exact set_len_bytes hkept
  · simp only [hchanged, Bool.not_true, Bool.false_eq_true, if_false, pure_eq_ok, Prod.mk.injEq] at hops
    obtain ⟨rfl, rfl⟩ := hops
    rw [apply_plan_guarded] at hcrash ⊢
    have hmark : MarkedError ((mark_writes file plan).foldl FileWrite.apply file) := by
      rw [mark_writes, foldl_append]
      exact marked_after_marking hplanned.error_superblock
    rcases guarded_update hmark (metadata_writes_keep hparsed hplanned (hbitmap hchanged image himage)) hcrash
      (fun h => h.not_clean hclean) with ⟨kept, hkept, rfl⟩ | h
    · left
      obtain ⟨front, mark, rfl, hfront, hmark'⟩ := sublist_append_iff.1 hkept
      rcases sublist_singleton.1 hmark' with rfl | rfl
      · rw [append_nil]
        exact set_len_bytes hfront
      · -- had the mark got through, the image would not be clean
        rw [foldl_append] at hclean
        exact absurd hclean (marked_after_marking hplanned.error_superblock).not_clean
    · exact .inr h

/-! ## A sample image

Smaller than anything the crate writes, but `parse_image` accepts it: one group of 2000 blocks, its
inode table in block 4, the double-indirect block of the resize inode in block 5 and a journal from block 6 on. -/

def sample_superblock : SuperBlock where
  inodes_count := 16
  blocks_count_lo := 2000
  log_block_size := 2
  blocks_per_group := .ofNat BLOCKS_PER_GROUP
  clusters_per_group := .ofNat BLOCKS_PER_GROUP
  inodes_per_group := 16
  magic := .ofNat SUPERBLOCK_MAGIC
  state := .ofNat EXT4_VALID_FS
  inode_size := .ofNat INODE_SIZE
  feature_compat := .ofNat EXPECTED_COMPAT
  feature_incompat := .ofNat EXPECTED_INCOMPAT
  feature_ro_compat := .ofNat EXPECTED_RO_COMPAT
  reserved_gdt_blocks := 1
  journal_inum := .ofNat JOURNAL_INODE_NUMBER

def sample_resize_inode : Inode :=
  { mode := file_mode.S_IFREG, links_count := 1, block := fun i => if i = EXT2_DIND_BLOCK * 4 then 5 else 0 }

def sample_journal_inode : Inode :=
  write_inline_extents { mode := file_mode.S_IFREG, links_count := 1, size_lo := .ofNat (1024 * BLOCK_SIZE) } 1024
    [{ block := 0, len := 1024, start_lo := 6 }]

def sample_journal_superblock : Buf :=
  writeFields (fun _ => 0) [⟨0x00, beBytes 4 0xC03B3998⟩, ⟨0x04, beBytes 4 4⟩, ⟨0x0C, beBytes 4 BLOCK_SIZE⟩,
    ⟨0x10, beBytes 4 1024⟩, ⟨0x14, beBytes 4 1⟩, ⟨0x40, beBytes 4 1⟩]

/-- The image with its group's block bitmap in block `bitmap`. -/
def sample_image (bitmap : UInt32) : File :=
  [.set_len (2000 * BLOCK_SIZE),
    write_superblock 0 sample_superblock,
    .write_at BLOCK_SIZE (encode_gdt (fun _ => 0) 1
      [{ block_bitmap_lo := bitmap, inode_bitmap_lo := 3, inode_table_lo := 4 }]),
    .write_at (4 * BLOCK_SIZE + 6 * INODE_SIZE) sample_resize_inode.write_to,
    .write_at (4 * BLOCK_SIZE + 7 * INODE_SIZE) sample_journal_inode.write_to,
    write_block 5 (pointerBlock [(1, 2)]),
    write_block 6 sample_journal_superblock].foldl FileWrite.apply File.empty

/-- The length that the first operation sets. -/
def first_length : List (Op FileWrite) → Nat
  | .write (.set_len n) :: _ => n
  | _ => 0

theorem eq_cons_of_first_length {ops : List (Op FileWrite)} (h : first_length ops ≠ 0) :
    ∃ rest, ops = .write (.set_len (first_length ops)) :: rest := by
  unfold first_length at h ⊢
  split at h
  · exact ⟨_, rfl⟩
  · exact absurd rfl h

/-- A growth to 3000 blocks of which only the lengthening of the file got through. -/
theorem grow_image_crash_sample : ∃ outcome ops,
    grow_image (sample_image 1500) (3000 * BLOCK_SIZE) = .ok (outcome, ops) ∧
    (((sample_image 1500).setLen (3000 * BLOCK_SIZE)).bytes = (sample_image 1500).bytes ∨
      (sample_image 1500).setLen (3000 * BLOCK_SIZE) = grown (sample_image 1500) ops) := by
  obtain ⟨⟨outcome, ops⟩, hok, hfirst⟩ := exists_ok_of_map (x := grow_image (sample_image 1500) (3000 * BLOCK_SIZE))
    (f := fun r => first_length r.2) (b := 3000 * BLOCK_SIZE) (by decide +kernel)
  have hbitmap : (parse_image (sample_image 1500)).toOption.map (fun image => decide (BitmapApart image)) =
      some true := by decide +kernel
  refine ⟨outcome, ops, hok, grow_image_crash hok ?_ ?_ (by decide +kernel)⟩
  · intro _ image himage
    rw [himage] at hbitmap
    simpa [Except.toOption] using hbitmap
  · have hne : first_length ops ≠ 0 := by
      rw [hfirst]
      decide
    obtain ⟨rest, hops⟩ := eq_cons_of_first_length hne
    rw [hfirst] at hops
    subst hops
    exact .inr (Survives.crashesTo ⟨[.set_len _], Sublist.refl _, rfl⟩ rest)

/-- The part of a growth that rewrites the bitmaps and the descriptors, behind the mark. -/
def bitmaps_and_gdt (file : File) (plan : GrowPlan) : File :=
  (plan.bitmap_writes.map write_bitmap ++ [FileWrite.write_at BLOCK_SIZE plan.gdt]).foldl FileWrite.apply
    ((mark_writes file plan).foldl FileWrite.apply file)

theorem bitmaps_and_gdt_crash (file : File) (plan : GrowPlan) :
    CrashesTo FileWrite.apply ⟨file, []⟩ (apply_plan file plan) (bitmaps_and_gdt file plan) := by
  rw [apply_plan_guarded]
  apply guarded_interrupted
  rw [metadata_writes]
  apply Sublist.append_left
  rw [singleton_sublist]
  simp

/-- With its block bitmap in block 0 the image is accepted as well, and writing the bitmap back restores the clean
superblock: the crash leaves the new descriptors with the old resize inode. -/
theorem grow_image_crash_mixed : ∃ outcome ops crashed,
    grow_image (sample_image 0) (3000 * BLOCK_SIZE) = .ok (outcome, ops) ∧
    CrashesTo FileWrite.apply ⟨sample_image 0, []⟩ ops crashed ∧ MarkedClean crashed ∧
    crashed.bytes (BLOCK_SIZE + 0x0C) ≠ (sample_image 0).bytes (BLOCK_SIZE + 0x0C) ∧
    crashed.bytes (4 * BLOCK_SIZE + 6 * INODE_SIZE + 0x1C) ≠
      (grown (sample_image 0) ops).bytes (4 * BLOCK_SIZE + 6 * INODE_SIZE + 0x1C) := by
  have hrun : (parse_image (sample_image 0) >>= fun image =>
      plan_grow (sample_image 0) image (3000 * BLOCK_SIZE)).toOption.map (fun plan => plan.outcome.changed &&
        decide (MarkedClean (bitmaps_and_gdt (sample_image 0) plan)) &&
        (bitmaps_and_gdt (sample_image 0) plan).bytes (BLOCK_SIZE + 0x0C) != (sample_image 0).bytes (BLOCK_SIZE + 0x0C) &&
        (bitmaps_and_gdt (sample_image 0) plan).bytes (4 * BLOCK_SIZE + 6 * INODE_SIZE + 0x1C) !=
          (grown (sample_image 0) (apply_plan (sample_image 0) plan)).bytes
            (4 * BLOCK_SIZE + 6 * INODE_SIZE + 0x1C)) = some true := by decide +kernel
  obtain ⟨plan, hplan, htest⟩ := exists_ok_of_map hrun
  obtain ⟨image, himage, hplan⟩ := bind_eq_ok.1 hplan
  simp only [Bool.and_eq_true, bne_iff_ne, decide_eq_true_eq] at htest
  obtain ⟨⟨⟨hchanged, hclean⟩, hgdt⟩, hinode⟩ := htest
  refine ⟨plan.outcome, apply_plan (sample_image 0) plan, bitmaps_and_gdt (sample_image 0) plan, ?_,
    bitmaps_and_gdt_crash _ _, hclean, hgdt, hinode⟩
  simp only [grow_image, bind_eq_ok, require_eq_ok]
  exact ⟨(), by decide, image, himage, plan, hplan, by simp [hchanged, pure, Except.pure]⟩

end Silo.Ext4
