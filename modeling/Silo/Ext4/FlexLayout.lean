import Silo.Ext4.Recording
import Silo.Ext4.Close
/-!
# Where the inode tables and bitmaps go

`flex_metadata_layout` looks for one run of blocks for the inode tables and bitmaps of
all groups. Moving the run past a static range may add groups; more groups make the run
longer and the static ranges wider. `Placed` says what a run has to meet. Each round of
the search is monotone in its start and its group count, so the search stays below every
placed run, and it ends with one as soon as there is one.
-/

namespace Silo.Ext4

open List Lib

namespace Formatter

/-- The inode tables of `groups` groups, and two bitmaps for each. -/
def run_blocks (groups inode_table_size_per_group : Nat) : Nat := groups * inode_table_size_per_group + groups * 2

/-- The run of `blocks` blocks from `start` meets no superblock or descriptor area. -/
def Clear (start blocks total_groups gd_area_blocks : Nat) : Prop :=
  ∀ group < total_groups, has_sparse_super group →
    start + blocks ≤ group * BLOCKS_PER_GROUP ∨ group * BLOCKS_PER_GROUP + (1 + gd_area_blocks) ≤ start

/-- A run of tables and bitmaps for `groups` groups, in a file system of `total` groups with 32-bit block numbers. -/
structure Placed (s : Formatter) (start_min block_groups table minimum start groups total : Nat) : Prop where
  start_min : start_min ≤ start
  block_groups : block_groups ≤ groups
  inside : start + run_blocks groups table ≤ groups * BLOCKS_PER_GROUP
  fits : start + run_blocks groups table ≤ U32_MAX
  total_pos : 0 < total
  total_fits : total * BLOCKS_PER_GROUP ≤ 2 ^ 32
  total_run : start + run_blocks groups table ≤ total * BLOCKS_PER_GROUP
  total_minimum : minimum ≤ total * BLOCKS_PER_GROUP
  total_size : s.size ≤ total * BLOCKS_PER_GROUP * BLOCK_SIZE
  clear : Clear start (run_blocks groups table) total (group_descriptor_area_blocks_for_groups total)

/-! ## One static range after the other -/

/-- A shorter run, with fewer groups and smaller areas, is clear where a longer one is. -/
theorem Clear.mono {start blocks blocks' total total' area area' : Nat} (h : Clear start blocks' total' area')
    (hblocks : blocks ≤ blocks') (htotal : total ≤ total') (harea : area ≤ area') : Clear start blocks total area := by
  intro group hgroup hsparse
  rcases h group (Nat.lt_of_lt_of_le hgroup htotal) hsparse with hbefore | hbehind
  · exact .inl (by omega)
  · exact .inr (by omega)

theorem clear_of_first_static_overlap {start blocks total area : Nat}
    (h : first_static_overlap start (start + blocks) total area = none) : Clear start blocks total area := by
  intro group hgroup hsparse
  have := findSome?_eq_none_iff.1 h group (mem_range.2 hgroup)
  simp only [static_metadata_blocks_in_group_for_area, hsparse, if_true, block_ranges_overlap, ite_eq_right_iff,
    reduceCtorEq, imp_false, Bool.and_eq_true, decide_eq_true_eq] at this
  omega

theorem first_static_overlap_some {start blocks total area next : Nat}
    (h : first_static_overlap start (start + blocks) total area = some next) :
    ∃ group < total, has_sparse_super group ∧ next = group * BLOCKS_PER_GROUP + (1 + area) ∧ start < next ∧
      group * BLOCKS_PER_GROUP < start + blocks := by
  obtain ⟨group, hgroup, hsome⟩ := exists_of_findSome?_eq_some h
  simp only [block_ranges_overlap, Bool.and_eq_true, decide_eq_true_eq, Option.ite_none_right_eq_some,
    Option.some.injEq] at hsome
  obtain ⟨⟨hmeta, hlt, hgt⟩, hnext⟩ := hsome
  rw [static_metadata_blocks_in_group_for_area] at hmeta hlt hnext
  cases hsparse : has_sparse_super group with
  | false => simp [hsparse] at hmeta
  | true =>
    rw [hsparse, if_pos rfl] at hlt hnext
    exact ⟨group, mem_range.1 hgroup, hsparse, hnext.symm, by omega, hgt⟩

/-- The start found is the first one from `start` on that is clear. The groups below `k` are behind the start, so that
many rounds have been made. -/
theorem metadata_run_start_spec {blocks total area : Nat} : ∀ (rounds start k : Nat),
    (∀ group < k, group * BLOCKS_PER_GROUP + (1 + area) ≤ start) → total - k < rounds →
    start ≤ metadata_run_start_after_static_ranges blocks total area rounds start ∧
      Clear (metadata_run_start_after_static_ranges blocks total area rounds start) blocks total area ∧
      ∀ start', start ≤ start' → Clear start' blocks total area →
        metadata_run_start_after_static_ranges blocks total area rounds start ≤ start' := by
  intro rounds
  induction rounds with
  | zero => exact fun _ _ _ h => absurd h (Nat.not_lt_zero _)
  | succ rounds ih =>
    intro start k hbehind hrounds
    rw [metadata_run_start_after_static_ranges]
    cases hfirst : first_static_overlap start (start + blocks) total area with
    | none => exact ⟨Nat.le_refl _, clear_of_first_static_overlap hfirst, fun _ h _ => h⟩
    | some next =>
      obtain ⟨group, hgroup, hsparse, hnext, hlt, hoverlap⟩ := first_static_overlap_some hfirst
      have hk : k ≤ group := by
        by_contra hlt'
        have := hbehind group (Nat.lt_of_not_le hlt')
        omega
      have hbehind' : ∀ group' < group + 1, group' * BLOCKS_PER_GROUP + (1 + area) ≤ next := by
        intro group' hgroup'
        have := Nat.mul_le_mul_right BLOCKS_PER_GROUP (Nat.le_of_lt_succ hgroup')
        omega
      obtain ⟨hle, hclear, hleast⟩ := ih next (group + 1) hbehind' (by omega)
      refine ⟨Nat.le_trans (Nat.le_of_lt hlt) hle, hclear, fun start' hstart' hclear' => hleast start' ?_ hclear'⟩
      -- a clear run is not before this range, as it starts no earlier than one that meets it
      rcases hclear' group hgroup hsparse with hbefore | hafter
      · omega
      · rw [hnext]
        exact hafter

/-! ## One round -/

theorem area_mono_groups {groups groups' : Nat} (h : groups ≤ groups') (hlimit : groups' ≤ 2 ^ 17) :
    group_descriptor_area_blocks_for_groups groups ≤ group_descriptor_area_blocks_for_groups groups' := by
  rw [area_eq hlimit, area_eq (h.trans hlimit)]
  omega

theorem run_blocks_mono {groups groups' : Nat} (h : groups ≤ groups') (table : Nat) :
    run_blocks groups table ≤ run_blocks groups' table := by
  have := Nat.mul_le_mul_right table h
  simp only [run_blocks]
  omega

theorem occupied_groups_eq {data_end : Nat} (h : data_end ≤ U32_MAX) :
    data_end ≤ occupied_groups data_end * BLOCKS_PER_GROUP ∧
      ∀ groups, data_end ≤ groups * BLOCKS_PER_GROUP → occupied_groups data_end ≤ groups := by
  simp only [occupied_groups, BLOCKS_PER_GROUP, BLOCK_SIZE, U32_MAX] at h ⊢
  constructor
  · omega
  · intro groups hle
    omega

/-- The total is the smallest group count for the run, the minimum and the size. -/
theorem total_groups_spec {s : Formatter} {data_end minimum total : Nat} (hpos : 0 < total)
    (hfits : total * BLOCKS_PER_GROUP ≤ 2 ^ 32) (hrun : data_end ≤ total * BLOCKS_PER_GROUP)
    (hminimum : minimum ≤ total * BLOCKS_PER_GROUP) (hsize : s.size ≤ total * BLOCKS_PER_GROUP * BLOCK_SIZE) :
    let total' := s.total_groups_for_data_end data_end minimum
    0 < total' ∧ total' ≤ total ∧ data_end ≤ total' * BLOCKS_PER_GROUP ∧ minimum ≤ total' * BLOCKS_PER_GROUP ∧
      s.size ≤ total' * BLOCKS_PER_GROUP * BLOCK_SIZE := by
  simp only [total_groups_for_data_end, div_ceil, BLOCKS_PER_GROUP, BLOCK_SIZE] at *
  omega

/-- What the search has found is a placed run, with the bitmaps behind the tables. -/
structure Found (s : Formatter) (start_min block_groups table minimum : Nat) (l : FlexMetadataLayout) : Prop where
  placed : Placed s start_min block_groups table minimum l.inode_table_offset l.block_groups l.total_groups
  tables : l.bitmap_offset = l.inode_table_offset + l.block_groups * table
  bitmaps : l.data_size = l.bitmap_offset + l.block_groups * 2
  area : l.gd_area_blocks = group_descriptor_area_blocks_for_groups l.total_groups

section Search

variable {s : Formatter} {start_min block_groups table minimum start groups total : Nat}

/-- One round from a start and a group count that are no larger than those of a placed run: it does not pass them, and
when it changes neither, they are those of a placed run. -/
theorem round_spec (h : Placed s start_min block_groups table minimum start groups total) {start₁ groups₁ : Nat}
    (hmin : start_min ≤ start₁) (hgroups : block_groups ≤ groups₁) (hstart : start₁ ≤ start) (hle : groups₁ ≤ groups) :
    let blocks := run_blocks groups₁ table
    let total₁ := s.total_groups_for_data_end (start₁ + blocks) minimum
    let area₁ := group_descriptor_area_blocks_for_groups total₁
    let start₂ := metadata_run_start_after_static_ranges blocks total₁ area₁ (total₁ + 1) start₁
    let groups₂ := max groups₁ (occupied_groups (start₂ + blocks))
    start₁ ≤ start₂ ∧ start₂ ≤ start ∧ groups₁ ≤ groups₂ ∧ groups₂ ≤ groups ∧
      (start₂ = start₁ → groups₂ = groups₁ → Placed s start_min block_groups table minimum start₁ groups₁ total₁) := by
  intro blocks total₁ area₁ start₂ groups₂
  have hblocks : blocks ≤ run_blocks groups table := run_blocks_mono hle table
  have hfits := h.fits
  obtain ⟨hpos, htotal, hrun, hminimum, hsize⟩ := @total_groups_spec _ (start₁ + blocks) _ _ h.total_pos h.total_fits
    (Nat.le_trans (by omega) h.total_run) h.total_minimum h.total_size
  have harea : area₁ ≤ group_descriptor_area_blocks_for_groups total := by
    refine area_mono_groups htotal ?_
    have := h.total_fits
    simp only [BLOCKS_PER_GROUP, BLOCK_SIZE] at this
    omega
  obtain ⟨hge, hclear, hleast⟩ := @metadata_run_start_spec blocks total₁ area₁ (total₁ + 1)
    start₁ 0 (fun _ hlt => absurd hlt (Nat.not_lt_zero _)) (by omega)
  have hstart₂ : start₂ ≤ start := hleast start hstart (h.clear.mono hblocks htotal harea)
  obtain ⟨hinside, hsmallest⟩ := @occupied_groups_eq (start₂ + blocks) (by omega)
  have hoccupied : occupied_groups (start₂ + blocks) ≤ groups :=
    hsmallest groups (Nat.le_trans (Nat.add_le_add hstart₂ hblocks) h.inside)
  refine ⟨hge, hstart₂, Nat.le_max_left _ _, Nat.max_le.2 ⟨hle, hoccupied⟩, fun hsame hsameGroups => ?_⟩
  rw [show metadata_run_start_after_static_ranges blocks total₁ area₁ (total₁ + 1) start₁ = start₁ from hsame] at hclear
  rw [hsame] at hinside
  have hcount : occupied_groups (start₁ + blocks) ≤ groups₁ := by
    have : occupied_groups (start₂ + blocks) ≤ groups₂ := Nat.le_max_right _ _
    rwa [hsame, hsameGroups] at this
  exact {
    start_min := hmin
    block_groups := hgroups
    inside := hinside.trans (Nat.mul_le_mul_right _ hcount)
    fits := Nat.le_trans (Nat.add_le_add hstart hblocks) h.fits
    total_pos := hpos
    total_fits := (Nat.mul_le_mul_right _ htotal).trans h.total_fits
    total_run := hrun
    total_minimum := hminimum
    total_size := hsize
    clear := hclear }

/-- The rounds that are left are more than the steps to the placed run, and every round but the last makes one. -/
theorem flex_metadata_loop_finds (h : Placed s start_min block_groups table minimum start groups total) :
    ∀ (rounds start₁ groups₁ : Nat), start_min ≤ start₁ → block_groups ≤ groups₁ → start₁ ≤ start → groups₁ ≤ groups →
      (start - start₁) + (groups - groups₁) < rounds →
      ∃ l, flex_metadata_loop s table minimum rounds start₁ groups₁ = some l ∧
        Found s start_min block_groups table minimum l := by
  intro rounds
  induction rounds with
  | zero => exact fun _ _ _ _ _ _ h => absurd h (Nat.not_lt_zero _)
  | succ rounds ih =>
    intro start₁ groups₁ hmin hgroups hstart hle hrounds
    obtain ⟨hge, hstart₂, hgrow, hgroups₂, hdone⟩ := round_spec h hmin hgroups hstart hle
    rw [flex_metadata_loop]
    simp only [run_blocks] at hge hstart₂ hgrow hgroups₂ hdone
    generalize hs₂ : metadata_run_start_after_static_ranges _ _ _ _ start₁ = start₂ at *
    generalize hg₂ : max groups₁ _ = groups₂ at *
    by_cases hsame : start₂ = start₁ ∧ groups₂ = groups₁
    · obtain ⟨rfl, rfl⟩ := hsame
      rw [if_pos ⟨rfl, rfl, rfl, rfl⟩]
      have hplaced := hdone rfl rfl
      -- nothing is cut off in the result
      have hend := hplaced.fits
      simp only [run_blocks, U32_MAX] at hend
      have hs : start₂ % 2 ^ 32 = start₂ := Nat.mod_eq_of_lt (by omega)
      have hb : (start₂ + groups₂ * table) % 2 ^ 32 = start₂ + groups₂ * table := Nat.mod_eq_of_lt (by omega)
      have hd : (start₂ + (groups₂ * table + groups₂ * 2)) % 2 ^ 32 = start₂ + (groups₂ * table + groups₂ * 2) :=
        Nat.mod_eq_of_lt (by omega)
      rw [hs, hb, hd]
      exact ⟨_, rfl, hplaced, rfl, (Nat.add_assoc _ _ _).symm, rfl⟩
    · rw [if_neg (fun hcond => hsame ⟨hcond.1, hcond.2.1⟩)]
      exact ih start₂ groups₂ (hmin.trans hge) (hgroups.trans hgrow) hstart₂ hgroups₂ (by omega)

end Search

theorem flex_metadata_layout_finds {s : Formatter} {start_min block_groups table minimum start groups total : Nat}
    (h : Placed s start_min block_groups table minimum start groups total) :
    ∃ l, flex_metadata_layout s start_min block_groups table minimum = some l ∧
      Found s start_min block_groups table minimum l := by
  refine flex_metadata_loop_finds h _ _ _ (Nat.le_refl _) (Nat.le_refl _) h.start_min h.block_groups ?_
  -- two bitmaps for each group lie behind the start
  have := h.fits
  simp only [run_blocks, U32_MAX] at this
  omega

/-- The search returns a placed run exactly when there is one. -/
theorem flex_metadata_layout_iff (s : Formatter) (start_min block_groups table minimum : Nat) :
    (∃ start groups total, Placed s start_min block_groups table minimum start groups total) ↔
      ∃ l, flex_metadata_layout s start_min block_groups table minimum = some l ∧
        Found s start_min block_groups table minimum l := by
  constructor
  · rintro ⟨start, groups, total, h⟩
    exact flex_metadata_layout_finds h
  · rintro ⟨l, -, hfound⟩
    exact ⟨_, _, _, hfound.placed⟩

/-- A run of two groups that would meet the superblock of group 1 is laid out behind it. -/
theorem run_moved_past_group_one : ∃ l, flex_metadata_layout blank 32760 2 8 0 = some l ∧ Found blank 32760 2 8 0 l :=
  (flex_metadata_layout_iff blank 32760 2 8 0).1 ⟨32801, 2, 2,
    { start_min := by decide, block_groups := by decide, inside := by decide, fits := by decide, total_pos := by decide,
      total_fits := by decide, total_run := by decide, total_minimum := by decide, total_size := by decide,
      clear := by unfold Clear; decide +kernel }⟩

end Formatter

end Silo.Ext4
