import Mathlib.Data.Finset.Card
import Mathlib.Tactic.IntervalCases
import Silo.Ext4.ExtentTree
import Silo.Ext4.Frame
/-!
# The ranges recorded for a file

The formatter hands out blocks in one pass, so the ranges of a file break only where
static metadata has to be skipped: at a group with a superblock copy, or again in the
same group when the reserved descriptor area has grown in between. There are 25 such
groups below the 32-bit limit and 32 sizes of the area, so a file has fewer than 60
ranges, and its extent tree fits the four index slots of an inode.
-/

namespace Silo.Ext4

open List Lib
open Run (bind_run_ok get_bind_run ite_run modify_bind_run)

/-! ## Groups with a superblock copy -/

theorem eq_pow_of_divide_out {base fuel value : Nat} (h : divide_out base fuel value = 1) : ∃ k, value = base ^ k := by
  induction fuel generalizing value with
  | zero => exact ⟨0, h⟩
  | succ fuel ih =>
    rw [divide_out] at h
    split at h
    · rename_i hmod
      obtain ⟨k, hk⟩ := ih h
      refine ⟨k + 1, ?_⟩
      rw [Nat.pow_succ, ← hk, Nat.div_mul_cancel (Nat.dvd_of_mod_eq_zero hmod)]
    · exact ⟨0, h⟩

/-- The groups with a superblock copy among those that 32-bit block numbers reach. -/
def sparseGroups : Finset Nat :=
  {0, 1, 3, 5, 7, 9, 25, 27, 49, 81, 125, 243, 343, 625, 729, 2187, 2401, 3125, 6561, 15625, 16807, 19683, 59049, 78125,
    117649}

theorem pow_mem_sparseGroups {base bound : Nat} (hbase : 1 < base) (hbound : 2 ^ 17 ≤ base ^ bound)
    (hmem : ∀ k < bound, base ^ k ∈ sparseGroups) {k : Nat} (hk : base ^ k < 2 ^ 17) : base ^ k ∈ sparseGroups := by
  apply hmem
  by_contra hle
  have := Nat.pow_le_pow_right (Nat.lt_of_lt_of_le Nat.zero_lt_one (Nat.le_of_lt hbase)) (Nat.le_of_not_lt hle)
  omega

theorem mem_sparseGroups {group : Nat} (h : has_sparse_super group) (hlt : group < 2 ^ 17) : group ∈ sparseGroups := by
  have hpower {base : Nat} (hp : is_power_of group base) : ∃ k, group = base ^ k := by
    simp only [is_power_of, Bool.and_eq_true, beq_iff_eq] at hp
    exact eq_pow_of_divide_out hp.2
  simp only [has_sparse_super, Bool.or_eq_true, beq_iff_eq] at h
  rcases h with (((h | h) | h) | h) | h
  · rw [h]
    decide
  · rw [h]
    decide
  · obtain ⟨k, rfl⟩ := hpower h
    exact @pow_mem_sparseGroups _ 11 (by decide) (by decide) (by decide) _ hlt
  · obtain ⟨k, rfl⟩ := hpower h
    exact @pow_mem_sparseGroups _ 8 (by decide) (by decide) (by decide) _ hlt
  · obtain ⟨k, rfl⟩ := hpower h
    exact @pow_mem_sparseGroups _ 7 (by decide) (by decide) (by decide) _ hlt

def sparseRank (group : Nat) : Nat := (sparseGroups.filter (· ≤ group)).card

theorem sparseRank_le (group : Nat) : sparseRank group ≤ 25 := Finset.card_filter_le _ _

theorem sparseRank_lt {a b : Nat} (hb : b ∈ sparseGroups) (h : a < b) : sparseRank a < sparseRank b := by
  apply Finset.card_lt_card
  rw [Finset.ssubset_iff_of_subset fun g hg => ?_]
  · exact ⟨b, Finset.mem_filter.2 ⟨hb, Nat.le_refl _⟩, fun hmem => Nat.not_lt.2 (Finset.mem_filter.1 hmem).2 h⟩
  · obtain ⟨hg, hle⟩ := Finset.mem_filter.1 hg
    exact Finset.mem_filter.2 ⟨hg, by omega⟩

theorem sparseRank_pos {group : Nat} (h : group ∈ sparseGroups) : 0 < sparseRank group :=
  Finset.card_pos.2 ⟨group, Finset.mem_filter.2 ⟨h, Nat.le_refl _⟩⟩

namespace Formatter

/-! ## The reserved area -/

theorem group_count_le (size : Nat) : group_count size ≤ 2 ^ 17 := by
  simp only [group_count, block_count, BLOCKS_PER_GROUP, BLOCK_SIZE]
  omega

/-- The area is a multiple of 32 blocks, at most 1024, and it does not shrink with more groups. -/
theorem area_eq {groups : Nat} (h : groups ≤ 2 ^ 17) :
    group_descriptor_area_blocks_for_groups groups = min (((groups - 1) / 128 + 1) * 32) 1024 := by
  simp only [group_descriptor_area_blocks_for_groups, reserved_gdt_blocks_for_descriptor_blocks, descriptor_blocks_for_groups,
    RESERVED_GDT_MULTIPLIER, BLOCK_SIZE]
  omega

theorem area_le (s : Formatter) : s.group_descriptor_blocks ≤ 1024 ∧ s.group_descriptor_blocks % 32 = 0 := by
  rw [group_descriptor_blocks, area_eq (group_count_le _)]
  omega

variable {s s' : Formatter} {u : Unit} {n count offset : Nat} {bytes : Bytes} {ranges ranges' : List BlockRange}

theorem area_mono (h : s.size ≤ s'.size) (hlimit : s'.size ≤ U32_MAX * BLOCK_SIZE) :
    s.group_descriptor_blocks ≤ s'.group_descriptor_blocks := by
  rw [group_descriptor_blocks, group_descriptor_blocks, area_eq (group_count_le _), area_eq (group_count_le _)]
  have hgroups : group_count s.size ≤ group_count s'.size := by
    simp only [group_count, block_count, BLOCKS_PER_GROUP, BLOCK_SIZE, U32_MAX] at hlimit ⊢
    omega
  omega

/-! ## One round -/

theorem current_block_ok {block : Nat} (h : current_block s = (.ok block, s')) :
    block = s.pos / BLOCK_SIZE ∧ block ≤ U32_MAX ∧ s' = s := by
  simp only [current_block, get_bind_run, bind_run_ok, Run.check_run_ok] at h
  obtain ⟨_, s₁, ⟨hle, rfl⟩, h⟩ := h
  cases h
  exact ⟨rfl, hle, rfl⟩

theorem reserved_end_cases (s : Formatter) (block : Nat) :
    s.reserved_metadata_end_for_block block = block ∨
      has_sparse_super (block / BLOCKS_PER_GROUP) ∧
        block < block / BLOCKS_PER_GROUP * BLOCKS_PER_GROUP + 1 + s.group_descriptor_blocks ∧
        s.reserved_metadata_end_for_block block =
          block / BLOCKS_PER_GROUP * BLOCKS_PER_GROUP + 1 + s.group_descriptor_blocks := by
  unfold reserved_metadata_end_for_block static_metadata_blocks_in_group_for_area
  by_cases hsparse : has_sparse_super (block / BLOCKS_PER_GROUP)
  · simp only [hsparse, if_true]
    split
    · exact .inr ⟨trivial, by omega, by omega⟩
    · exact .inl rfl
  · simp only [hsparse, Bool.false_eq_true, if_false]
    left
    split <;> omega

theorem skip_run (h : skip_reserved_metadata_blocks s = (.ok u, s')) (hs : s.pos % BLOCK_SIZE = 0) :
    s.pos / BLOCK_SIZE ≤ U32_MAX ∧ s'.reserved_metadata_end_for_block (s'.pos / BLOCK_SIZE) = s'.pos / BLOCK_SIZE ∧
      (s' = s ∨ s.reserved_metadata_end_for_block (s.pos / BLOCK_SIZE) ≠ s.pos / BLOCK_SIZE ∧
        s' = { s with pos := s.reserved_metadata_end_for_block (s.pos / BLOCK_SIZE) * BLOCK_SIZE }) := by
  rw [skip_reserved_metadata_blocks, get_bind_run, ite_run, if_neg (by omega), skip_reserved_loop] at h
  obtain ⟨block, s₁, hblock, h⟩ := bind_run_ok.1 h
  obtain ⟨hb, hlimit, hs₁⟩ := current_block_ok hblock
  subst hb hs₁
  rw [get_bind_run, ite_run] at h
  refine ⟨hlimit, ?_⟩
  split at h
  · rename_i hstay
    cases h
    exact ⟨hstay, .inl rfl⟩
  rename_i hmoved
  -- the second round of the loop either stays or runs out of rounds
  rw [seek_to_block, modify_bind_run, skip_reserved_loop] at h
  obtain ⟨block, s₂, hblock, h⟩ := bind_run_ok.1 h
  obtain ⟨hb, -, hs₂⟩ := current_block_ok hblock
  subst hb hs₂
  rw [get_bind_run, ite_run] at h
  split at h
  · rename_i hstay
    cases h
    exact ⟨hstay, .inr ⟨hmoved, rfl⟩⟩
  · cases h

/-- Skipping moves a position in static metadata to the end of it, and no other position. -/
theorem skip_cases (h : skip_reserved_metadata_blocks s = (.ok u, s')) :
    s' = s ∨ s.pos % BLOCK_SIZE = 0 ∧ s.pos / BLOCK_SIZE ≤ U32_MAX ∧
      ∃ group, has_sparse_super group ∧ group * BLOCKS_PER_GROUP ≤ s.pos / BLOCK_SIZE ∧
        s.pos / BLOCK_SIZE < group * BLOCKS_PER_GROUP + 1 + s.group_descriptor_blocks ∧
        s' = { s with pos := (group * BLOCKS_PER_GROUP + 1 + s.group_descriptor_blocks) * BLOCK_SIZE } := by
  by_cases haligned : s.pos % BLOCK_SIZE = 0
  · obtain ⟨hlimit, -, hs'⟩ := skip_run h haligned
    refine hs'.imp_right fun ⟨hmoved, hs'⟩ => ?_
    obtain ⟨hsparse, hlt, hend⟩ := (reserved_end_cases s (s.pos / BLOCK_SIZE)).resolve_left hmoved
    refine ⟨haligned, hlimit, s.pos / BLOCK_SIZE / BLOCKS_PER_GROUP, hsparse, Nat.div_mul_le_self _ _, hlt, ?_⟩
    rw [hs', hend]
  · rw [skip_reserved_metadata_blocks, get_bind_run, ite_run, if_pos haligned] at h
    cases h
    exact .inl rfl

/-- What recording a block does to ranges that end in `last`. -/
theorem record_next (ranges : List BlockRange) (last : BlockRange) (block : Nat) :
    (last.start ≤ block ∧ block < last.end_ → record_block_range (ranges ++ [last]) block = ranges ++ [last]) ∧
    (last.end_ = block → record_block_range (ranges ++ [last]) block = ranges ++ [⟨last.start, last.end_ + 1⟩]) ∧
    (last.end_ < block → record_block_range (ranges ++ [last]) block = ranges ++ [last] ++ [⟨block, block + 1⟩]) := by
  simp only [record_block_range, getLast?_concat, dropLast_concat]
  refine ⟨fun hin => if_pos hin, fun heq => ?_, fun hlt => ?_⟩
  · rw [if_neg (by omega), if_pos heq]
  · rw [if_neg (by omega), if_neg (by omega)]

/-- Why there are `n` ranges: there is no second one, or the last was begun behind the metadata of `group`, with the
reserved area as large as it was then. -/
def Breaks (s : Formatter) (n : Nat) : Prop :=
  n ≤ 1 ∨ ∃ group area, n ≤ 1 + sparseRank group + area / 32 ∧ area % 32 = 0 ∧ area ≤ 1024 ∧
    group * BLOCKS_PER_GROUP + 1 + area ≤ s.pos / BLOCK_SIZE ∧
    (area ≤ s.group_descriptor_blocks ∨ U32_MAX * BLOCK_SIZE < s.pos)

theorem Breaks.le (h : Breaks s n) : n ≤ 58 := by
  rcases h with h | ⟨group, area, h, -, harea, -⟩
  · omega
  · have := sparseRank_le group
    omega

/-- The ranges while a file is written: `written` bytes so far, and the last range ends where the position is. -/
structure Recording (s : Formatter) (written : Nat) (ranges : List BlockRange) : Prop where
  bounds : ∀ r ∈ ranges, 0 < r.start ∧ r.start < r.end_ ∧ r.end_ ≤ 2 ^ 32
  start : ranges = [] → s.pos % BLOCK_SIZE = 0
  frontier : ∀ last, ranges.getLast? = some last →
    last.end_ = (s.pos + BLOCK_SIZE - 1) / BLOCK_SIZE ∧ (ranges.map BlockRange.size).sum ≤ last.end_
  total : (ranges.map BlockRange.size).sum * BLOCK_SIZE = written + (BLOCK_SIZE - s.pos % BLOCK_SIZE) % BLOCK_SIZE
  few : Breaks s ranges.length

theorem Recording.nil (h : s.pos % BLOCK_SIZE = 0) : Recording s 0 [] :=
  ⟨by simp, fun _ => h, by simp, by rw [h]; decide, .inl (Nat.zero_le _)⟩

/-- Writing one byte or more into the block at the position. -/
structure Advances (s s' : Formatter) (count : Nat) : Prop where
  pos_count : 0 < count
  in_block : s.pos % BLOCK_SIZE + count ≤ BLOCK_SIZE
  pos : s'.pos = s.pos + count
  size : s'.size = max s.size s'.pos
  limit : s.pos / BLOCK_SIZE ≤ U32_MAX

/-- The area only grows, as long as there are blocks left. -/
theorem Advances.area {area : Nat} (h : Advances s s' count) (ha : area ≤ s.group_descriptor_blocks) :
    area ≤ s'.group_descriptor_blocks ∨ U32_MAX * BLOCK_SIZE < s'.pos := by
  have hsize := h.size
  by_cases hlimit : U32_MAX * BLOCK_SIZE < s'.pos
  · exact .inr hlimit
  left
  by_cases hgrows : s'.pos ≤ s.size
  · have hsame : s'.size = s.size := by omega
    rwa [group_descriptor_blocks, hsame]
  · exact Nat.le_trans ha (area_mono (by omega) (by omega))

theorem write_payload_chunk_cases {offset' : Nat} (hoff : offset < bytes.size)
    (h : write_payload_chunk bytes offset ranges s = (.ok (offset', ranges'), s')) :
    ∃ s₁ count, skip_reserved_metadata_blocks s = (.ok (), s₁) ∧ Advances s₁ s' count ∧ offset' = offset + count ∧
      offset' ≤ bytes.size ∧ ranges' = record_block_range ranges (s₁.pos / BLOCK_SIZE) := by
  rw [write_payload_chunk] at h
  obtain ⟨_, s₁, hskip, h⟩ := bind_run_ok.1 h
  obtain ⟨block, s₂, hblock, h⟩ := bind_run_ok.1 h
  obtain ⟨hb, hlimit, hs₂⟩ := current_block_ok hblock
  subst hb hs₂
  rw [get_bind_run, write_all, modify_bind_run, modify_bind_run, Run.pure_run] at h
  cases h
  have hpos : 0 < BLOCK_SIZE := by decide
  have hmod := Nat.mod_lt s₂.pos hpos
  refine ⟨s₂, min (BLOCK_SIZE - s₂.pos % BLOCK_SIZE) (bytes.size - offset), hskip, ⟨?_, ?_, rfl, rfl, hlimit⟩, rfl, ?_, rfl⟩
  · omega
  · omega
  · omega

theorem Breaks.advance (h : Breaks s n) (hadv : Advances s s' count) : Breaks s' n := by
  have hpos := hadv.pos
  refine h.imp_right ?_
  rintro ⟨group, area, hlen, hmod, harea, hbehind, hgrown⟩
  refine ⟨group, area, hlen, hmod, harea, ?_, ?_⟩
  · simp only [BLOCK_SIZE] at hbehind ⊢
    omega
  · rcases hgrown with hgrown | hgrown
    · exact hadv.area hgrown
    · right
      omega

/-- A range that begins behind static metadata is one more range, with a reason of its own: a later group, or a
larger area in the same group. -/
theorem Breaks.skip {group : Nat} (h : Breaks s n) (haligned : s.pos % BLOCK_SIZE = 0)
    (hlimit : s.pos / BLOCK_SIZE ≤ U32_MAX) (hsparse : has_sparse_super group)
    (hge : group * BLOCKS_PER_GROUP ≤ s.pos / BLOCK_SIZE)
    (hlt : s.pos / BLOCK_SIZE < group * BLOCKS_PER_GROUP + 1 + s.group_descriptor_blocks)
    (hadv : Advances { s with pos := (group * BLOCKS_PER_GROUP + 1 + s.group_descriptor_blocks) * BLOCK_SIZE } s' count) :
    Breaks s' (n + 1) := by
  obtain ⟨harea, hmod⟩ := area_le s
  have hgroup : group ∈ sparseGroups := mem_sparseGroups hsparse (by
    simp only [BLOCKS_PER_GROUP, BLOCK_SIZE, U32_MAX] at hge hlimit
    omega)
  have hpos := hadv.pos
  refine .inr ⟨group, s.group_descriptor_blocks, ?_, hmod, harea, ?_, hadv.area (Nat.le_refl _)⟩
  · rcases h with hfew | ⟨group₀, area₀, hlen, hmod₀, -, hbehind, harea₀⟩
    · have := sparseRank_pos hgroup
      omega
    · have harea₀ : area₀ ≤ s.group_descriptor_blocks := by
        rcases harea₀ with h | h
        · exact h
        · simp only [BLOCK_SIZE, U32_MAX] at h haligned hlimit
          omega
      have hle : group₀ ≤ group := by
        simp only [BLOCKS_PER_GROUP, BLOCK_SIZE] at hbehind hge hlt
        omega
      rcases Nat.lt_or_eq_of_le hle with h | rfl
      · have := sparseRank_lt hgroup h
        omega
      · omega
  · simp only [BLOCK_SIZE] at hpos ⊢
    omega

theorem Advances.frontier (h : Advances s s' count) :
    (s'.pos + BLOCK_SIZE - 1) / BLOCK_SIZE = s.pos / BLOCK_SIZE + 1 := by
  have hcount := h.pos_count
  have hblock := h.in_block
  have hpos := h.pos
  simp only [BLOCK_SIZE] at hblock ⊢
  omega

theorem sum_size_append (ranges : List BlockRange) (r : BlockRange) :
    ((ranges ++ [r]).map BlockRange.size).sum = (ranges.map BlockRange.size).sum + r.size := by simp

section Round

variable {s s' : Formatter} {written count : Nat} {front : List BlockRange} {last : BlockRange}

theorem Recording.within (h : Recording s written (front ++ [last])) (hadv : Advances s s' count)
    (hmid : s.pos % BLOCK_SIZE ≠ 0) : Recording s' (written + count) (front ++ [last]) := by
  have htotal := h.total
  have hblock := hadv.in_block
  have hpos := hadv.pos
  refine ⟨h.bounds, by simp, ?_, ?_, h.few.advance hadv⟩
  · intro r hr
    obtain ⟨hend, hsum⟩ := h.frontier r hr
    refine ⟨?_, hsum⟩
    rw [hadv.frontier, hend]
    simp only [BLOCK_SIZE] at hmid ⊢
    omega
  · simp only [BLOCK_SIZE] at htotal hblock hmid ⊢
    omega

theorem Recording.extend (h : Recording s written (front ++ [last])) (hadv : Advances s s' count)
    (haligned : s.pos % BLOCK_SIZE = 0) : Recording s' (written + count) (front ++ [⟨last.start, last.end_ + 1⟩]) := by
  have htotal := h.total
  have hblock := hadv.in_block
  have hcount := hadv.pos_count
  have hpos := hadv.pos
  have hlimit : s.pos / BLOCK_SIZE ≤ 2 ^ 32 - 1 := hadv.limit
  obtain ⟨hend, hsum⟩ := h.frontier last (getLast?_concat ..)
  obtain ⟨hstart, hlt, -⟩ := h.bounds last (by simp)
  have hend : last.end_ = s.pos / BLOCK_SIZE := by
    simp only [BLOCK_SIZE] at hend haligned ⊢
    omega
  have hmore : ((front ++ [(⟨last.start, last.end_ + 1⟩ : BlockRange)]).map BlockRange.size).sum =
      ((front ++ [last]).map BlockRange.size).sum + 1 := by
    simp only [sum_size_append, BlockRange.size]
    omega
  refine ⟨forall_mem_append.2 ⟨(forall_mem_append.1 h.bounds).1, ?_⟩, by simp, ?_, ?_,
    by simpa using h.few.advance hadv⟩
  · exact forall_mem_singleton.2 ⟨hstart, by simp only; omega, by simp only; omega⟩
  · intro r hr
    rw [getLast?_concat, Option.some.injEq] at hr
    rw [← hr, hadv.frontier, hmore, hend]
    exact ⟨rfl, Nat.succ_le_succ (hend ▸ hsum)⟩
  · rw [hmore, Nat.succ_mul, htotal]
    simp only [BLOCK_SIZE] at hblock haligned ⊢
    omega

theorem Recording.fresh {ranges : List BlockRange} {s₁ : Formatter} (h : Recording s written ranges)
    (haligned : s.pos % BLOCK_SIZE = 0) (haligned₁ : s₁.pos % BLOCK_SIZE = 0) (hpos₁ : 0 < s₁.pos / BLOCK_SIZE)
    (hbehind : (ranges.map BlockRange.size).sum ≤ s₁.pos / BLOCK_SIZE) (hadv : Advances s₁ s' count)
    (hfew : Breaks s' (ranges.length + 1)) :
    Recording s' (written + count) (ranges ++ [⟨s₁.pos / BLOCK_SIZE, s₁.pos / BLOCK_SIZE + 1⟩]) := by
  have htotal := h.total
  have hblock := hadv.in_block
  have hcount := hadv.pos_count
  have hpos := hadv.pos
  have hlimit : s₁.pos / BLOCK_SIZE ≤ 2 ^ 32 - 1 := hadv.limit
  have hmore : ((ranges ++ [(⟨s₁.pos / BLOCK_SIZE, s₁.pos / BLOCK_SIZE + 1⟩ : BlockRange)]).map BlockRange.size).sum =
      (ranges.map BlockRange.size).sum + 1 := by
    rw [sum_size_append, BlockRange.size, Nat.add_sub_cancel_left]
  refine ⟨forall_mem_append.2 ⟨h.bounds, ?_⟩, by simp, ?_, ?_, by rwa [length_append]⟩
  · exact forall_mem_singleton.2 ⟨hpos₁, Nat.lt_succ_self _, by simp only; omega⟩
  · intro r hr
    rw [getLast?_concat, Option.some.injEq] at hr
    rw [← hr, hadv.frontier, hmore]
    exact ⟨rfl, Nat.succ_le_succ hbehind⟩
  · rw [hmore, Nat.succ_mul, htotal]
    simp only [BLOCK_SIZE] at hblock haligned haligned₁ ⊢
    omega

end Round

theorem aligned_of_skip (h : skip_reserved_metadata_blocks s = (.ok u, s')) (hs : s.pos % BLOCK_SIZE = 0)
    : s'.pos % BLOCK_SIZE = 0 := by
  rcases skip_cases h with rfl | ⟨-, -, group, -, -, -, rfl⟩
  · exact hs
  · exact Nat.mul_mod_left _ _

/-- Block 0 is metadata, so it is never handed out. -/
theorem pos_of_skip (h : skip_reserved_metadata_blocks s = (.ok u, s')) (hs : s.pos % BLOCK_SIZE = 0)
    : 0 < s'.pos / BLOCK_SIZE := by
  apply Nat.pos_of_ne_zero
  intro h0
  have hstay := (skip_run h hs).2.1
  rw [h0] at hstay
  simp [reserved_metadata_end_for_block, static_metadata_blocks_in_group_for_area, has_sparse_super] at hstay

theorem Recording.chunk {before offset' : Nat} (h : Recording s (before + offset) ranges) (hoff : offset < bytes.size)
    (hrun : write_payload_chunk bytes offset ranges s = (.ok (offset', ranges'), s')) :
    offset < offset' ∧ offset' ≤ bytes.size ∧ Recording s' (before + offset') ranges' := by
  obtain ⟨s₁, count, hskip, hadv, rfl, hle, rfl⟩ := write_payload_chunk_cases hoff hrun
  have hcount := hadv.pos_count
  refine ⟨by omega, hle, ?_⟩
  rw [← Nat.add_assoc]
  rcases eq_nil_or_concat' ranges with rfl | ⟨front, last, rfl⟩
  · -- the first block of the file
    have haligned := h.start rfl
    exact h.fresh haligned (aligned_of_skip hskip haligned) (pos_of_skip hskip haligned) (Nat.zero_le _) hadv
      (.inl (Nat.le_refl _))
  · obtain ⟨hlast, hsum⟩ := h.frontier last (getLast?_concat ..)
    obtain ⟨-, hlastLt, -⟩ := h.bounds last (by simp)
    obtain ⟨hinside, hextend, happend⟩ := record_next front last (s₁.pos / BLOCK_SIZE)
    rcases skip_cases hskip with hs | ⟨haligned, hlim, group, hsparse, hge, hlt, hs⟩
    · -- nothing skipped: the block is the last one still, or the next
      subst hs
      by_cases hmid : s₁.pos % BLOCK_SIZE = 0
      · have hend : last.end_ = s₁.pos / BLOCK_SIZE := by
          simp only [BLOCK_SIZE] at hlast hmid ⊢
          omega
        rw [hextend hend]
        exact h.extend hadv hmid
      · have hend : last.end_ = s₁.pos / BLOCK_SIZE + 1 := by
          simp only [BLOCK_SIZE] at hlast hmid ⊢
          omega
        rw [hinside ⟨by omega, by omega⟩]
        exact h.within hadv hmid
    · -- static metadata skipped: a new range behind it
      have hend : last.end_ = s.pos / BLOCK_SIZE := by
        simp only [BLOCK_SIZE] at hlast haligned ⊢
        omega
      have hdiv : s₁.pos / BLOCK_SIZE = group * BLOCKS_PER_GROUP + 1 + s.group_descriptor_blocks := by
        rw [hs]
        exact Nat.mul_div_cancel _ (by decide)
      rw [happend (by omega)]
      refine h.fresh haligned (aligned_of_skip hskip haligned) (pos_of_skip hskip haligned) (by omega) hadv ?_
      exact h.few.skip haligned hlim hsparse hge hlt (hs ▸ hadv)

/-! ## A whole file -/

theorem Recording.payload_from {rounds before : Nat} (h : Recording s (before + offset) ranges)
    (hoff : offset ≤ bytes.size) (hrounds : bytes.size ≤ offset + rounds)
    (hrun : write_payload_from rounds bytes offset ranges s = (.ok ranges', s')) :
    Recording s' (before + bytes.size) ranges' := by
  induction rounds generalizing s offset ranges with
  | zero =>
    obtain rfl : offset = bytes.size := Nat.le_antisymm hoff hrounds
    cases hrun
    exact h
  | succ rounds ih =>
    rw [write_payload_from, ite_run] at hrun
    split at hrun
    · rename_i hlt
      obtain ⟨⟨offset₁, ranges₁⟩, s₁, hchunk, hrest⟩ := bind_run_ok.1 hrun
      obtain ⟨hmore, hle, h₁⟩ := h.chunk hlt hchunk
      exact ih h₁ hle (by omega) hrest
    · rename_i hge
      obtain rfl : offset = bytes.size := by omega
      cases hrun
      exact h

theorem Recording.payload_bytes {written : Nat} (h : Recording s written ranges)
    (hrun : write_payload_bytes bytes ranges s = (.ok ranges', s')) : Recording s' (written + bytes.size) ranges' :=
  @Recording.payload_from _ _ 0 _ _ _ _ _ h (Nat.zero_le _) (by omega) hrun

theorem Recording.payload_from_reader {reader : Reads} {size size' : Nat} (h : Recording s size ranges)
    (hrun : write_payload_from_reader reader size ranges s = (.ok (size', ranges'), s')) :
    Recording s' size' ranges' := by
  induction reader generalizing s size ranges with
  | nil =>
    cases hrun
    exact h
  | cons read reader ih =>
    cases read with
    | none => cases hrun
    | some buf =>
      simp only [write_payload_from_reader, ite_run] at hrun
      split at hrun
      · cases hrun
        exact h
      split at hrun
      · cases hrun
      split at hrun
      · cases hrun
      · obtain ⟨ranges₁, s₁, hbytes, hrest⟩ := bind_run_ok.1 hrun
        exact ih (h.payload_bytes hbytes) hrest

theorem aligned_of_align (h : align_to_block s = (.ok u, s')) : s'.pos % BLOCK_SIZE = 0 := by
  rw [align_to_block, get_bind_run, ite_run] at h
  split at h
  · obtain ⟨block, s₁, -, h⟩ := bind_run_ok.1 h
    obtain ⟨_, s₂, -, h⟩ := bind_run_ok.1 h
    cases h
    exact Nat.mul_mod_left _ _
  · cases h
    omega

/-! ## The journal -/

/-- At the start of a group the static metadata leaves most of the group. -/
theorem room_of_skip (hskip : skip_reserved_metadata_blocks s = (.ok u, s'))
    (hgroup : s.pos / BLOCK_SIZE % BLOCKS_PER_GROUP = 0) :
    31743 ≤ (s'.pos / BLOCK_SIZE / BLOCKS_PER_GROUP + 1) * BLOCKS_PER_GROUP - s'.pos / BLOCK_SIZE := by
  rcases skip_cases hskip with rfl | ⟨-, -, group, -, hge, hlt, rfl⟩
  · simp only [BLOCKS_PER_GROUP, BLOCK_SIZE] at hgroup ⊢
    omega
  · have harea := (area_le s).1
    simp only [BLOCKS_PER_GROUP, BLOCK_SIZE] at hgroup hge hlt ⊢
    omega

/-- The ranges of a sparse allocation: one in each group, of all the blocks that are left there. A group has 31743 blocks
or more behind its static metadata. -/
theorem allocate_sparse_spec {rounds remaining : Nat} (haligned : s.pos % BLOCK_SIZE = 0) (hrounds : remaining ≤ rounds)
    (h : allocate_sparse_from rounds remaining ranges s = (.ok ranges', s')) :
    ∃ new, ranges' = ranges ++ new ∧ (∀ r ∈ new, 0 < r.start ∧ r.start < r.end_ ∧ r.end_ ≤ 2 ^ 32) ∧
      (new.map BlockRange.size).sum = remaining ∧
      new.length * 31743 ≤ remaining + 31742 + if s.pos / BLOCK_SIZE % BLOCKS_PER_GROUP = 0 then 0 else 31743 := by
  induction rounds generalizing s remaining ranges with
  | zero =>
    obtain rfl : remaining = 0 := Nat.le_zero.1 hrounds
    cases h
    exact ⟨[], by simp, by simp, rfl, by simp⟩
  | succ rounds ih =>
    rw [allocate_sparse_from, ite_run] at h
    split at h
    · rename_i h0
      cases h
      exact ⟨[], by simp, by simp, h0.symm, by simp⟩
    rename_i hmore
    obtain ⟨_, s₁, hskip, h⟩ := bind_run_ok.1 h
    obtain ⟨start, s₂, hblock, h⟩ := bind_run_ok.1 h
    obtain ⟨rfl, -, rfl⟩ := current_block_ok hblock
    obtain ⟨_, s₃, hcheck, h⟩ := bind_run_ok.1 h
    obtain ⟨hlimit, rfl⟩ := Run.check_run_ok.1 hcheck
    rw [seek_to_block, modify_bind_run] at h
    have hstart := pos_of_skip hskip haligned
    have hroom := room_of_skip hskip
    generalize s₃.pos / BLOCK_SIZE = start at *
    have hlast : start < (start / BLOCKS_PER_GROUP + 1) * BLOCKS_PER_GROUP := by
      simp only [BLOCKS_PER_GROUP, BLOCK_SIZE]
      omega
    generalize hend : (start / BLOCKS_PER_GROUP + 1) * BLOCKS_PER_GROUP = group_end at *
    obtain ⟨new, rfl, hbounds, hsum, hlen⟩ := ih (Nat.mul_mod_left _ _) (by omega) h
    refine ⟨⟨start, start + min remaining (group_end - start)⟩ :: new, by simp, forall_mem_cons.2 ⟨⟨hstart, ?_, ?_⟩, hbounds⟩,
      ?_, ?_⟩
    · simp only
      omega
    · simp only [U32_MAX] at hlimit ⊢
      omega
    · simp only [map_cons, sum_cons, BlockRange.size]
      omega
    · rw [length_cons, Nat.succ_mul]
      simp only [Nat.mul_div_cancel _ (show 0 < BLOCK_SIZE by decide)] at hlen
      by_cases hdone : remaining ≤ group_end - start
      · obtain rfl : new = [] := by
          have hnil : (new.map BlockRange.size).sum = 0 := by omega
          cases new with
          | nil => rfl
          | cons r rest =>
            have := hbounds r mem_cons_self
            simp only [map_cons, sum_cons, BlockRange.size] at hnil
            omega
        simp only [length_nil]
        omega
      · rw [show start + min remaining (group_end - start) = group_end by omega, ← hend, if_pos (Nat.mul_mod_left _ _)] at hlen
        generalize new.length * 31743 = blocks at hlen ⊢
        split
        · rename_i hgroup
          have := hroom hgroup
          omega
        · omega

/-- The ranges that the formatter records for content of `size` bytes: a file's, read from a reader, a directory's or a
symbolic link's, written as one buffer, or the journal's, which is left sparse. -/
def Recorded (size : Nat) (ranges : List BlockRange) : Prop :=
  (∃ s s' data, write_file_data data s = (.ok (size, ranges), s')) ∨
    (∃ s s' bytes, bytes.size = size ∧ write_aligned_payload_bytes bytes s = (.ok ranges, s')) ∨
    ∃ s s' blocks, default_journal_blocks blocks * BLOCK_SIZE = size ∧
      allocate_sparse_blocks (default_journal_blocks blocks) s = (.ok ranges, s')

theorem recording_of_written {size : Nat} (h : (∃ s s' data, write_file_data data s = (.ok (size, ranges), s')) ∨
    ∃ s s' bytes, bytes.size = size ∧ write_aligned_payload_bytes bytes s = (.ok ranges, s')) :
    ∃ s, Recording s size ranges := by
  rcases h with ⟨s, s', data, hrun⟩ | ⟨s, s', bytes, rfl, hrun⟩
  · cases data with
    | none =>
      cases hrun
      exact ⟨{ s with pos := 0 }, Recording.nil rfl⟩
    | some reader =>
      obtain ⟨_, s₁, halign, hrun⟩ := bind_run_ok.1 hrun
      obtain ⟨_, s₂, hskip, hrun⟩ := bind_run_ok.1 hrun
      obtain ⟨⟨size₁, ranges₁⟩, s₃, hread, hrun⟩ := bind_run_ok.1 hrun
      obtain ⟨_, s₄, -, hrun⟩ := bind_run_ok.1 hrun
      cases hrun
      exact ⟨s₃, (Recording.nil (aligned_of_skip hskip (aligned_of_align halign))).payload_from_reader hread⟩
  · obtain ⟨_, s₁, halign, hrun⟩ := bind_run_ok.1 hrun
    obtain ⟨_, s₂, hskip, hrun⟩ := bind_run_ok.1 hrun
    obtain ⟨ranges₁, s₃, hbytes, hrun⟩ := bind_run_ok.1 hrun
    obtain ⟨_, s₄, -, hrun⟩ := bind_run_ok.1 hrun
    cases hrun
    have := (Recording.nil (aligned_of_skip hskip (aligned_of_align halign))).payload_bytes hbytes
    rw [Nat.zero_add] at this
    exact ⟨s₃, this⟩

/-- Recorded ranges are few, and have as many blocks as the content takes. -/
theorem recorded_bounds {size : Nat} (h : Recorded size ranges) :
    (∀ r ∈ ranges, 0 < r.start ∧ r.start < r.end_ ∧ r.end_ ≤ 2 ^ 32) ∧
      (ranges.map BlockRange.size).sum = div_ceil size BLOCK_SIZE ∧ (ranges.map BlockRange.size).sum ≤ 2 ^ 32 ∧
      ranges.length ≤ 58 := by
  rcases or_assoc.2 h with hwritten | ⟨s, s', blocks, rfl, hrun⟩
  · obtain ⟨s, hrec⟩ := recording_of_written hwritten
    have htotal := hrec.total
    refine ⟨hrec.bounds, ?_, ?_, hrec.few.le⟩
    · simp only [div_ceil, BLOCK_SIZE] at htotal ⊢
      omega
    · rcases eq_nil_or_concat' ranges with rfl | ⟨front, last, rfl⟩
      · exact Nat.zero_le _
      · obtain ⟨-, hsum⟩ := hrec.frontier last (getLast?_concat ..)
        exact Nat.le_trans hsum (hrec.bounds last (by simp)).2.2
  · obtain ⟨_, s₁, halign, hrun⟩ := bind_run_ok.1 hrun
    obtain ⟨new, rfl, hbounds, hsum, hlen⟩ := allocate_sparse_spec (aligned_of_align halign) (Nat.le_refl _) hrun
    have hblocks : default_journal_blocks blocks ≤ 262144 := by
      unfold default_journal_blocks
      repeat' split
      all_goals omega
    refine ⟨hbounds, ?_, by omega, ?_⟩
    · rw [hsum]
      simp only [div_ceil, BLOCK_SIZE]
      omega
    · split at hlen <;> omega

/-- For the ranges recorded for at most `MAX_FILE_SIZE` bytes `write_extents` succeeds, and the tree it leaves, read from
the inode and the file, gives back extents that take up the logical blocks from 0 on without a gap, map them to the
recorded blocks in order, and are at most 32768 blocks long each. -/
theorem extents_round_trip (size : Nat) (ranges : List BlockRange) (hrec : Recorded size ranges) (hsize : size ≤ MAX_FILE_SIZE)
    (inode : Inode) (hnew : inode.block = fun _ => 0) (file : File) (current_block : Nat) :
    ∃ inode' file' next, write_extents inode ranges file current_block = some (inode', file', next) ∧
      ∃ extents, parse_extents inode' BLOCK_SIZE file' = .ok extents ∧
        extents.flatMap BlockRange.blocks = ranges.flatMap BlockRange.blocks ∧
        (ranges.flatMap BlockRange.blocks).length = div_ceil size BLOCK_SIZE ∧
        (∀ e ∈ extents, 0 < e.size ∧ e.size ≤ 32768) ∧
        extents = (tree_leaves inode' file').map ExtentLeaf.range ∧ Contiguous 0 (tree_leaves inode' file') := by
  obtain ⟨hbounds, hblocks, -, hfew⟩ := recorded_bounds hrec
  have hmax : (ranges.map BlockRange.size).sum ≤ 2 ^ 25 := by
    simp only [hblocks, div_ceil, BLOCK_SIZE, MAX_FILE_SIZE] at hsize ⊢
    omega
  obtain ⟨inode', file', next, hwrite, htree, hcovers⟩ := write_extents_holds hnew
    (fun r hr => ⟨Nat.le_of_lt (hbounds r hr).2.1, (hbounds r hr).2.2⟩) (by omega)
    (by simp only [MAX_BLOCKS_PER_EXTENT, leaves_per_block, BLOCK_SIZE]; omega) file current_block
  refine ⟨inode', file', next, hwrite, _, htree.parsed, ?_, ?_, ?_, by rw [htree.stored], ?_⟩
  · rw [flatMap_map]
    exact hcovers.physical
  · rw [length_flatMap, ← hblocks]
    simp [BlockRange.blocks]
  · intro e he
    obtain ⟨l, hl, rfl⟩ := mem_map.1 he
    have := hcovers.contiguous.len_le l hl
    simpa [ExtentLeaf.range, BlockRange.size, MAX_BLOCKS_PER_EXTENT] using this
  · rw [htree.stored]
    exact hcovers.contiguous

def blank : Formatter where
  file := .empty
  pos := 0
  size := 2 ^ 20
  inodes := []
  tree := .new 2 []
  deleted_blocks := []
  deferred_blocks := fun _ => []
  uuid := 0
  label := none
  clock := fun _ => (0, 0)

/-- A file that begins in the last block of group 0 goes on behind the superblock of group 1: two ranges, and the extents
lead back to both. -/
theorem two_ranges_round_trip :
    Recorded 4097 [⟨32767, 32768⟩, ⟨32801, 32802⟩] ∧ ∃ inode' file' next,
      write_extents {} [⟨32767, 32768⟩, ⟨32801, 32802⟩] .empty 32802 = some (inode', file', next) ∧
      ∃ extents, parse_extents inode' BLOCK_SIZE file' = .ok extents ∧
        extents.flatMap BlockRange.blocks = [32767, 32801] := by
  have hrec : Recorded 4097 [⟨32767, 32768⟩, ⟨32801, 32802⟩] := by
    obtain ⟨s, hs⟩ : ∃ s : Formatter, s = { blank with pos := 32767 * BLOCK_SIZE } := ⟨_, rfl⟩
    obtain ⟨data, hdata⟩ : ∃ data : Reads, data = [some ⟨BLOCK_SIZE, fun _ => 104⟩, some ⟨1, fun _ => 105⟩] := ⟨_, rfl⟩
    have hrun : (write_file_data (some data) s).1.toOption = some (4097, [⟨32767, 32768⟩, ⟨32801, 32802⟩]) := by
      rw [hs, hdata]
      decide +kernel
    refine .inl ⟨s, (write_file_data (some data) s).2, some data, Prod.ext ?_ rfl⟩
    generalize (write_file_data (some data) s).1 = r at hrun
    cases r with
    | error e => cases hrun
    | ok a => exact congrArg Except.ok (Option.some.inj hrun)
  obtain ⟨inode', file', next, hwrite, extents, hparse, hblocks, -⟩ :=
    extents_round_trip 4097 [⟨32767, 32768⟩, ⟨32801, 32802⟩] hrec (by decide) {} rfl .empty 32802
  exact ⟨hrec, inode', file', next, hwrite, extents, hparse, hblocks⟩

end Formatter

end Silo.Ext4
