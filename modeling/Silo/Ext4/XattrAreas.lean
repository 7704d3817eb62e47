import Silo.Ext4.Xattr
/-!
# Extended attribute areas

The table of entries grows up from the header, the values grow down from the end of
the buffer. `placements` says where each attribute goes; while the rooms of all of
them fit between the two ends, the writes lie side by side, and every entry reads
back with the offset and the size of its own value. `XattrState::add` checks exactly
that, as long as no value is so long that its size is cut to 32 bits.
-/

namespace Silo.Ext4

open List Lib

/-! ## Names -/

namespace ExtendedAttribute

/-- The prefix found so far is one of the table that the name starts with. -/
def Found (name : Str) (best : UInt8 × Nat) : Prop :=
  best = (0, 0) ∨ ∃ p ∈ XATTR_PREFIXES, p.2 <+: name ∧ best = (p.1, p.2.length)

theorem found_longest (name : Str) : Found name (XATTR_PREFIXES.foldl (fun (best : UInt8 × Nat) (idx, pre) =>
    if pre.isPrefixOf name ∧ best.2 < pre.length then (idx, pre.length) else best) (0, 0)) := by
  refine foldlRecOn _ _ (.inl rfl) fun best h p hp => ?_
  by_cases hlonger : p.2.isPrefixOf name ∧ best.2 < p.2.length
  · simp only [hlonger, and_self, if_true]
    exact .inr ⟨p, hp, isPrefixOf_iff_prefix.1 hlonger.1, rfl⟩
  · simp only [hlonger, if_false]
    exact h

theorem find_index : ∀ p ∈ XATTR_PREFIXES, XATTR_PREFIXES.find? (fun (idx, _) => idx = p.1) = some p := by decide

theorem decompress_compress (name : Str) : decompress_name (compress_name name).1 (compress_name name).2 = name := by
  unfold compress_name
  rcases found_longest name with h | ⟨p, hp, ⟨rest, hrest⟩, h⟩
  · rw [h]
    rfl
  · rw [h]
    simp only [decompress_name, find_index p hp]
    rw [← hrest, drop_left]

/-! ## Where an attribute goes -/

def entryRoom (a : ExtendedAttribute) : Nat := align_up (16 + a.name_len) 4

def valueRoom (a : ExtendedAttribute) : Nat := align_up a.value.length 4

theorem name_le_entryRoom (a : ExtendedAttribute) : 16 + a.name_len ≤ a.entryRoom := by
  simp only [entryRoom, align_up]
  omega

theorem value_le_valueRoom (a : ExtendedAttribute) : a.value.length ≤ a.valueRoom := by
  simp only [valueRoom, align_up]
  omega

end ExtendedAttribute

open ExtendedAttribute

def entryRooms (attrs : List ExtendedAttribute) : Nat := (attrs.map entryRoom).sum
def valueRooms (attrs : List ExtendedAttribute) : Nat := (attrs.map valueRoom).sum

@[simp] theorem entryRooms_nil : entryRooms [] = 0 := rfl
@[simp] theorem valueRooms_nil : valueRooms [] = 0 := rfl

@[simp] theorem entryRooms_cons (a : ExtendedAttribute) (as : List ExtendedAttribute) :
    entryRooms (a :: as) = a.entryRoom + entryRooms as := by simp [entryRooms]

@[simp] theorem valueRooms_cons (a : ExtendedAttribute) (as : List ExtendedAttribute) :
    valueRooms (a :: as) = a.valueRoom + valueRooms as := by simp [valueRooms]

@[simp] theorem entryRooms_append (as bs : List ExtendedAttribute) : entryRooms (as ++ bs) = entryRooms as + entryRooms bs := by
  simp [entryRooms]

@[simp] theorem valueRooms_append (as bs : List ExtendedAttribute) : valueRooms (as ++ bs) = valueRooms as + valueRooms bs := by
  simp [valueRooms]

/-- An attribute with the offsets of its entry and of its value. -/
structure Placement where
  attr : ExtendedAttribute
  (entry value : Nat)

/-- Entries from `entry` upwards, values from `stop` downwards. -/
def placements : Nat → Nat → List ExtendedAttribute → List Placement
  | _, _, [] => []
  | entry, stop, a :: as => ⟨a, entry, stop - a.valueRoom⟩ :: placements (entry + a.entryRoom) (stop - a.valueRoom) as

theorem map_attr_placements (entry stop : Nat) (attrs : List ExtendedAttribute) :
    (placements entry stop attrs).map Placement.attr = attrs := by
  induction attrs generalizing entry stop with
  | nil => rfl
  | cons a as ih => rw [placements, map_cons, ih]

variable {attrs : List ExtendedAttribute}

theorem placements_bounds {entry stop : Nat} (hroom : entry + entryRooms attrs + valueRooms attrs ≤ stop) :
    ∀ p ∈ placements entry stop attrs, entry ≤ p.entry ∧ p.entry + p.attr.entryRoom ≤ entry + entryRooms attrs ∧
      stop - valueRooms attrs ≤ p.value ∧ p.value + p.attr.valueRoom ≤ stop := by
  induction attrs generalizing entry stop with
  | nil => simp [placements]
  | cons a as ih =>
    rw [entryRooms_cons, valueRooms_cons] at hroom ⊢
    intro p hp
    rcases mem_cons.1 hp with rfl | hp
    · refine ⟨?_, ?_, ?_, ?_⟩ <;> simp only <;> omega
    · obtain ⟨h₁, h₂, h₃, h₄⟩ := ih (by omega) p hp
      refine ⟨?_, ?_, ?_, ?_⟩ <;> omega

theorem placements_pairwise {entry stop : Nat} (hroom : entry + entryRooms attrs + valueRooms attrs ≤ stop) :
    (placements entry stop attrs).Pairwise fun p q =>
      p.entry + p.attr.entryRoom ≤ q.entry ∧ q.value + q.attr.valueRoom ≤ p.value := by
  induction attrs generalizing entry stop with
  | nil => exact .nil
  | cons a as ih =>
    rw [entryRooms_cons, valueRooms_cons] at hroom
    refine pairwise_cons.2 ⟨?_, ih (by omega)⟩
    intro q hq
    obtain ⟨h₁, -, -, h₄⟩ := placements_bounds (by omega) q hq
    exact ⟨h₁, h₄⟩

/-! ## What is written -/

def Placement.fields (value_base : Nat) (hash : ExtendedAttribute → UInt32) (p : Placement) : List Field :=
  [.nat p.entry 1 p.attr.name_len, .nat (p.entry + 1) 1 p.attr.index.toNat,
    .nat (p.entry + 2) 2 (2 ^ 16 + p.value - value_base), .nat (p.entry + 4) 4 0, .nat (p.entry + 8) 4 p.attr.value.length,
    .u32 (p.entry + 12) (hash p.attr), ⟨p.entry + 16, .ofList (as_bytes p.attr.name)⟩, ⟨p.value, .ofList p.attr.value⟩]

section Table

variable {capacity value_base : Nat} {hash : ExtendedAttribute → UInt32}

variable {t : XattrTable}

theorem write_xattr_entry_eq_ok {t' : XattrTable} {a : ExtendedAttribute} :
    write_xattr_entry capacity value_base hash t a = .ok t' ↔
      a.valueRoom ≤ t.value_end ∧ t.entry_offset + 16 + a.name_len ≤ capacity ∧
        t' = ⟨t.fields ++ Placement.fields value_base hash ⟨a, t.entry_offset, t.value_end - a.valueRoom⟩,
          t.entry_offset + a.entryRoom, t.value_end - a.valueRoom⟩ := by
  simp only [write_xattr_entry, bind_eq_ok, require_eq_ok, pure_eq_ok, exists_and_left, exists_const, eq_comm (a := t')]
  rfl

theorem table_of_room
    (hroom : t.entry_offset + entryRooms attrs + valueRooms attrs ≤ t.value_end) (hstop : t.value_end ≤ capacity) :
    attrs.foldlM (write_xattr_entry capacity value_base hash) t =
      .ok ⟨t.fields ++ (placements t.entry_offset t.value_end attrs).flatMap (Placement.fields value_base hash),
        t.entry_offset + entryRooms attrs, t.value_end - valueRooms attrs⟩ := by
  induction attrs generalizing t with
  | nil => simp [placements, entryRooms, valueRooms, pure, Except.pure]
  | cons a as ih =>
    rw [entryRooms_cons, valueRooms_cons] at hroom
    have hname := a.name_le_entryRoom
    rw [foldlM_cons]
    refine bind_eq_ok.2 ⟨_, write_xattr_entry_eq_ok.2 ⟨by omega, by omega, rfl⟩, ?_⟩
    rw [ih (by simp only; omega) (by simp only; omega)]
    simp only [placements, flatMap_cons, append_assoc, entryRooms_cons, valueRooms_cons, Nat.add_assoc, Nat.sub_sub]

theorem value_le_of_table {t' : XattrTable} (h : attrs.foldlM (write_xattr_entry capacity value_base hash) t = .ok t') :
    ∀ a ∈ attrs, a.value.length ≤ t.value_end := by
  induction attrs generalizing t with
  | nil => simp
  | cons a as ih =>
    rw [foldlM_cons] at h
    obtain ⟨t₁, h₁, hrest⟩ := bind_eq_ok.1 h
    obtain ⟨hroom, -, rfl⟩ := write_xattr_entry_eq_ok.1 h₁
    intro b hb
    rcases mem_cons.1 hb with rfl | hb
    · exact Nat.le_trans b.value_le_valueRoom hroom
    · have := ih hrest b hb
      simp only at this
      omega

end Table

/-! ## What is read back -/

/-- The header of an entry, as `types.rs` reads it. -/
structure XAttrEntry where
  (name_len name_index value_offset value_inum value_size hash : Nat)
deriving DecidableEq, Repr

def XAttrEntry.read_from (buf : Buf) : XAttrEntry :=
  ⟨leNat buf 0 1, leNat buf 1 1, leNat buf 2 2, leNat buf 4 4, leNat buf 8 4, leNat buf 12 4⟩

/-- An attribute in a buffer: its entry gives the offset and the size of its own value. -/
structure Stored (value_base : Nat) (hash : ExtendedAttribute → UInt32) (buf : Bytes) (p : Placement) : Prop where
  entry : XAttrEntry.read_from (fun i => buf.get (p.entry + i)) =
    ⟨p.attr.name_len, p.attr.index.toNat, p.value - value_base, 0, p.attr.value.length, (hash p.attr).toNat⟩
  above_base : value_base ≤ p.value
  name : (buf.slice (p.entry + 16) p.attr.name_len).toList = as_bytes p.attr.name
  value : (buf.slice p.value p.attr.value.length).toList = p.attr.value

/-- An area that holds the attributes: all writes are inside it and apart from one another; the table ends in a
terminator of zeros below the values; and every attribute is stored, its entry in the table and its value above it. -/
structure WellFormedArea (header value_base capacity : Nat) (hash : ExtendedAttribute → UInt32)
    (attrs : List ExtendedAttribute) (t : XattrTable) (buf : Bytes) : Prop where
  size : buf.size = capacity
  inside : ∀ f ∈ t.fields, f.off + f.src.size ≤ capacity
  apart : (t.fields.map Field.span).Pairwise Apart
  terminator : t.entry_offset + 4 ≤ t.value_end ∧ leNat buf.get t.entry_offset 4 = 0
  attributes : ∃ ps : List Placement, ps.map Placement.attr = attrs ∧
    ps.Pairwise (fun p q => p.entry + 16 + p.attr.name_len ≤ q.entry ∧ q.value + q.attr.value.length ≤ p.value) ∧
    ∀ p ∈ ps, header ≤ p.entry ∧ p.entry + 16 + p.attr.name_len ≤ t.entry_offset ∧ t.value_end ≤ p.value ∧
      p.value + p.attr.value.length ≤ capacity ∧ Stored value_base hash buf p

theorem mem_fields {value_base : Nat} {hash : ExtendedAttribute → UInt32} {p : Placement} {f : Field}
    (h : f ∈ p.fields value_base hash) :
    (p.entry ≤ f.off ∧ f.off + f.src.size ≤ p.entry + p.attr.entryRoom) ∨
      (f.off = p.value ∧ f.src.size ≤ p.attr.valueRoom) := by
  have hname := p.attr.name_le_entryRoom
  have hvalue := p.attr.value_le_valueRoom
  simp only [Placement.fields, mem_cons, not_mem_nil, or_false] at h
  rcases h with rfl | rfl | rfl | rfl | rfl | rfl | rfl | rfl
  case inr.inr.inr.inr.inr.inr.inr => exact .inr ⟨rfl, hvalue⟩
  all_goals
    left
    simp only [Field.nat, Field.u32, leBytes, Bytes.ofList, name_len] at hname ⊢
    omega

theorem fields_apart {value_base : Nat} {hash : ExtendedAttribute → UInt32} {p : Placement}
    (h : p.entry + p.attr.entryRoom ≤ p.value) : ((p.fields value_base hash).map Field.span).Pairwise Apart := by
  have hname := p.attr.name_le_entryRoom
  simp only [name_len] at hname
  simp only [Placement.fields, map_cons, map_nil, Field.span, Field.nat, Field.u32, leBytes, Bytes.ofList,
    pairwise_cons, mem_cons, not_mem_nil, or_false, forall_eq_or_imp, forall_eq, Apart,
    List.Pairwise.nil, and_true, IsEmpty.forall_iff, implies_true]
  refine ⟨⟨?_, ?_, ?_, ?_, ?_, ?_, ?_⟩, ⟨?_, ?_, ?_, ?_, ?_, ?_⟩, ⟨?_, ?_, ?_, ?_, ?_⟩, ⟨?_, ?_, ?_, ?_⟩, ⟨?_, ?_, ?_⟩,
    ⟨?_, ?_⟩, ?_⟩ <;> omega

section Area

variable {header value_base capacity : Nat} {hash : ExtendedAttribute → UInt32} {attrs : List ExtendedAttribute}
  {head : List Field} (hroom : header + entryRooms attrs + valueRooms attrs + 4 ≤ capacity)
  (hhead : ∀ f ∈ head, f.off + f.src.size ≤ header) (hheadApart : (head.map Field.span).Pairwise Apart)

def tableFields (header value_base capacity : Nat) (hash : ExtendedAttribute → UInt32) (attrs : List ExtendedAttribute)
    (head : List Field) : List Field :=
  head ++ (placements header capacity attrs).flatMap (Placement.fields value_base hash)

include hroom in
theorem mem_placement_fields {f : Field}
    (hf : f ∈ (placements header capacity attrs).flatMap (Placement.fields value_base hash)) :
    (header ≤ f.off ∧ f.off + f.src.size ≤ header + entryRooms attrs) ∨
      (capacity - valueRooms attrs ≤ f.off ∧ f.off + f.src.size ≤ capacity) := by
  obtain ⟨p, hp, hf⟩ := mem_flatMap.1 hf
  obtain ⟨h₁, h₂, h₃, h₄⟩ := placements_bounds (by omega) p hp
  rcases mem_fields hf with hf | hf
  · left
    omega
  · right
    omega

include hroom in
theorem placement_fields_apart :
    (((placements header capacity attrs).flatMap (Placement.fields value_base hash)).map Field.span).Pairwise Apart := by
  rw [pairwise_map, pairwise_flatMap]
  refine ⟨?_, (placements_pairwise (by omega)).imp_of_mem ?_⟩
  · intro p hp
    obtain ⟨h₁, h₂, h₃, h₄⟩ := placements_bounds (by omega) p hp
    exact pairwise_map.1 (fields_apart (by omega))
  · intro p q hp hq hpq f hf g hg
    -- entries and values of two attributes, four pairs in all
    obtain ⟨hp₁, hp₂, hp₃, hp₄⟩ := placements_bounds (by omega) p hp
    obtain ⟨hq₁, hq₂, hq₃, hq₄⟩ := placements_bounds (by omega) q hq
    unfold Apart Field.span
    rcases mem_fields hf with hf | hf <;> rcases mem_fields hg with hg | hg <;> simp only <;> omega

include hroom hhead hheadApart in
theorem tableFields_apart : ((tableFields header value_base capacity hash attrs head).map Field.span).Pairwise Apart := by
  rw [tableFields, map_append, pairwise_append]
  refine ⟨hheadApart, placement_fields_apart hroom, ?_⟩
  simp only [mem_map]
  rintro _ ⟨f, hf, rfl⟩ _ ⟨g, hg, rfl⟩
  have := hhead f hf
  have := mem_placement_fields hroom hg
  unfold Apart Field.span
  omega

include hroom hhead hheadApart in
theorem stored_of_placement (hbase : value_base ≤ header) (hcap : capacity < 2 ^ 16)
    (hnames : ∀ a ∈ attrs, a.name_len ≤ EXT4_NAME_LEN) {p : Placement} (hp : p ∈ placements header capacity attrs) :
    Stored value_base hash ⟨capacity, writeFields (fun _ => 0) (tableFields header value_base capacity hash attrs head)⟩ p := by
  obtain ⟨h₁, h₂, h₃, h₄⟩ := placements_bounds (by omega) p hp
  have hapart := @tableFields_apart header value_base capacity hash attrs head hroom hhead hheadApart
  have hmem {f : Field} (hf : f ∈ p.fields value_base hash) : f ∈ tableFields header value_base capacity hash attrs head :=
    mem_append_right _ (mem_flatMap.2 ⟨p, hp, hf⟩)
  have hattr : p.attr ∈ attrs := by
    rw [← map_attr_placements header capacity attrs]
    exact mem_map_of_mem hp
  have hname : p.attr.name_len ≤ 255 := hnames _ hattr
  have hvalue := p.attr.value_le_valueRoom
  have hindex := p.attr.index.toNat_lt
  have hhash := (hash p.attr).toNat_lt
  have hread (off width v : Nat) (hf : Field.nat (p.entry + off) width v ∈ p.fields value_base hash) :
      leNat (fun i => writeFields (fun _ => 0) (tableFields header value_base capacity hash attrs head) (p.entry + i)) off width =
        v % 256 ^ width := by
    rw [← leNat_writeFields hapart (fun _ => 0) (hmem hf)]
    apply leNat_congr
    intro i _
    rw [Nat.add_assoc]
  refine ⟨?_, by omega, ?_, ?_⟩
  · simp only [XAttrEntry.read_from, XAttrEntry.mk.injEq]
    refine ⟨?_, ?_, ?_, ?_, ?_, ?_⟩
    · rw [hread 0 1 p.attr.name_len (by simp [Placement.fields])]
      omega
    · rw [hread 1 1 p.attr.index.toNat (by simp [Placement.fields])]
      omega
    · rw [hread 2 2 (2 ^ 16 + p.value - value_base) (by simp [Placement.fields])]
      omega
    · rw [hread 4 4 0 (by simp [Placement.fields]), Nat.zero_mod]
    · rw [hread 8 4 p.attr.value.length (by simp [Placement.fields])]
      omega
    · rw [hread 12 4 (hash p.attr).toNat (by simp [Placement.fields, Field.u32])]
      omega
  · refine Eq.trans ?_ (Bytes.toList_ofList (as_bytes p.attr.name))
    apply Bytes.toList_congr
    · rfl
    · intro i hi
      exact fields_read hapart (hmem (f := ⟨p.entry + 16, .ofList (as_bytes p.attr.name)⟩) (by simp [Placement.fields])) hi _
  · refine Eq.trans ?_ (Bytes.toList_ofList p.attr.value)
    apply Bytes.toList_congr
    · rfl
    · intro i hi
      exact fields_read hapart (hmem (f := ⟨p.value, .ofList p.attr.value⟩) (by simp [Placement.fields])) hi _

variable (header value_base hash head) in
include hroom hhead hheadApart in
/-- One lemma for both areas: with room for all entries, all values and the terminator, the area is well-formed. -/
theorem wellFormedArea_of_room (hbase : value_base ≤ header) (hcap : capacity < 2 ^ 16)
    (hnames : ∀ a ∈ attrs, a.name_len ≤ EXT4_NAME_LEN) :
    ∃ t, attrs.foldlM (write_xattr_entry capacity value_base hash) ⟨head, header, capacity⟩ = .ok t ∧
      WellFormedArea header value_base capacity hash attrs t ⟨capacity, writeFields (fun _ => 0) t.fields⟩ := by
  refine ⟨_, table_of_room (by simp only; omega) (Nat.le_refl _), ?_⟩
  constructor
  case size => rfl
  case inside =>
    intro f hf
    rcases mem_append.1 hf with hf | hf
    · have := hhead f hf
      omega
    · have := mem_placement_fields hroom hf
      omega
  case apart => exact tableFields_apart hroom hhead hheadApart
  case terminator =>
    refine ⟨by simp only; omega, ?_⟩
    have hzero : leNat (fun _ => (0 : UInt8)) 0 4 = 0 := rfl
    rw [← hzero]
    apply leNat_congr
    intro i hi
    apply writeFields_outside
    intro f hf
    simp only
    rcases mem_append.1 hf with hf | hf
    · have := hhead f hf
      omega
    · have := mem_placement_fields hroom hf
      omega
  case attributes =>
    refine ⟨placements header capacity attrs, map_attr_placements _ _ _, ?_, ?_⟩
    · refine (placements_pairwise (by omega)).imp ?_
      intro p q hpq
      have := p.attr.name_le_entryRoom
      have := q.attr.value_le_valueRoom
      omega
    · intro p hp
      have := p.attr.name_le_entryRoom
      have := p.attr.value_le_valueRoom
      obtain ⟨h₁, h₂, h₃, h₄⟩ := placements_bounds (by omega) p hp
      exact ⟨h₁, by simp only; omega, h₃, by omega, stored_of_placement hroom hhead hheadApart hbase hcap hnames hp⟩

end Area

/-! ## What `add` accepts -/

namespace XattrState

/-- What the areas should be once all attributes have been added. -/
def AreasWellFormed (s : XattrState) : Prop :=
  (∃ t buf, s.inline_table = .ok t ∧ s.write_inline = .ok buf ∧
    WellFormedArea XATTR_INODE_HEADER_SIZE XATTR_INODE_HEADER_SIZE s.inode_capacity (fun _ => 0) s.inline_attrs t buf) ∧
  ∃ t buf, s.block_table = .ok t ∧ s.write_block = .ok buf ∧
    WellFormedArea XATTR_BLOCK_HEADER_SIZE 0 s.block_capacity ExtendedAttribute.hash (s.block_attrs.insertionSort entry_le) t buf

variable {s s' : XattrState} {a : ExtendedAttribute} {attrs : List ExtendedAttribute}

theorem write_inline_of_table (h : s.inline_table = .ok t) :
    s.write_inline = .ok ⟨s.inode_capacity, writeFields (fun _ => 0) t.fields⟩ := by
  simp [write_inline, h, bind, Except.bind, pure, Except.pure]

theorem write_block_of_table (h : s.block_table = .ok t) :
    s.write_block = .ok ⟨s.block_capacity, writeFields (fun _ => 0) t.fields⟩ := by
  simp [write_block, h, bind, Except.bind, pure, Except.pure]

/-- An accepted attribute has a short name and joins one of the two lists. -/
theorem add_cases (h : s.add a = .ok s') :
    a.name_len ≤ EXT4_NAME_LEN ∧
      (((s.used_inline + a.total_size + 4) % 2 ^ 32 ≤ s.inode_capacity ∧
          s' = { s with used_inline := (s.used_inline + a.total_size) % 2 ^ 32, inline_attrs := s.inline_attrs ++ [a] }) ∨
        ((s.used_block + a.total_size + 4) % 2 ^ 32 ≤ s.block_capacity ∧
          s' = { s with used_block := (s.used_block + a.total_size) % 2 ^ 32, block_attrs := s.block_attrs ++ [a] })) := by
  simp only [add] at h
  split at h
  · cases h
  rename_i hname
  refine ⟨Nat.le_of_not_lt hname, ?_⟩
  split at h
  · exact .inl ⟨by assumption, (Except.ok.inj h).symm⟩
  split at h
  · exact .inr ⟨by assumption, (Except.ok.inj h).symm⟩
  · cases h

theorem mem_of_add_all (h : attrs.foldlM add s = .ok s') : ∀ a ∈ attrs, a ∈ s'.inline_attrs ∨ a ∈ s'.block_attrs := by
  refine foldlM_ok_invariant add (fun done s => ∀ a ∈ done, a ∈ s.inline_attrs ∨ a ∈ s.block_attrs) ?_ attrs [] s s'
    (by simp) h
  intro done s a s' hs hadd b hb
  rcases mem_append.1 hb with hb | hb
  · obtain ⟨-, ⟨-, rfl⟩ | ⟨-, rfl⟩⟩ := add_cases hadd
    · exact (hs b hb).imp_left (mem_append_left _)
    · exact (hs b hb).imp_right (mem_append_left _)
  · obtain rfl := mem_singleton.1 hb
    obtain ⟨-, ⟨-, rfl⟩ | ⟨-, rfl⟩⟩ := add_cases hadd
    · exact .inl (mem_append_right _ hb)
    · exact .inr (mem_append_right _ hb)

theorem capacities_of_add_all (h : attrs.foldlM add s = .ok s') :
    s'.inode_capacity = s.inode_capacity ∧ s'.block_capacity = s.block_capacity := by
  refine foldlM_ok_invariant add
    (fun _ r => r.inode_capacity = s.inode_capacity ∧ r.block_capacity = s.block_capacity) ?_ attrs [] s s' ⟨rfl, rfl⟩ h
  intro _ s a s' hs hadd
  obtain ⟨-, ⟨-, rfl⟩ | ⟨-, rfl⟩⟩ := add_cases hadd <;> exact hs

/-- The counters are the rooms of what has been accepted, and leave room for the terminators. -/
structure Counted (s : XattrState) : Prop where
  inline_used : s.used_inline = XATTR_INODE_HEADER_SIZE + entryRooms s.inline_attrs + valueRooms s.inline_attrs
  inline_room : s.used_inline + 4 ≤ s.inode_capacity
  block_used : s.used_block = XATTR_BLOCK_HEADER_SIZE + entryRooms s.block_attrs + valueRooms s.block_attrs
  block_room : s.used_block + 4 ≤ s.block_capacity
  names : ∀ a, a ∈ s.inline_attrs ∨ a ∈ s.block_attrs → a.name_len ≤ EXT4_NAME_LEN

theorem total_size_eq (hname : a.name_len ≤ EXT4_NAME_LEN) (hvalue : a.value.length < 2 ^ 16) :
    a.total_size = a.entryRoom + a.valueRoom ∧ a.total_size < 2 ^ 17 := by
  simp only [EXT4_NAME_LEN] at hname
  simp only [total_size, entry_size, value_size, entryRoom, valueRoom, align_up]
  omega

theorem Counted.add (h : Counted s) (hadd : s.add a = .ok s') (hvalue : a.value.length < 2 ^ 16)
    (hic : s.inode_capacity < 2 ^ 16) (hbc : s.block_capacity < 2 ^ 16) : Counted s' := by
  obtain ⟨hname, hcases⟩ := add_cases hadd
  obtain ⟨htotal, hlt⟩ := total_size_eq hname hvalue
  have hi := h.inline_room
  have hb := h.block_room
  have hiu := h.inline_used
  have hbu := h.block_used
  have hnames {b : ExtendedAttribute} (hb : b ∈ s.inline_attrs ∨ b ∈ s.block_attrs ∨ b = a) : b.name_len ≤ EXT4_NAME_LEN := by
    rcases hb with hb | hb | rfl
    · exact h.names b (.inl hb)
    · exact h.names b (.inr hb)
    · exact hname
  -- the sums stay below 2^32, so the checks are made on the true sizes
  rcases hcases with ⟨hfits, rfl⟩ | ⟨hfits, rfl⟩
  · refine ⟨?_, ?_, hbu, hb, ?_⟩
    · simp only [entryRooms_append, valueRooms_append, entryRooms_cons, valueRooms_cons, entryRooms_nil, valueRooms_nil]
      omega
    · simp only
      omega
    · exact fun b hb => hnames (by grind)
  · refine ⟨hiu, hi, ?_, ?_, ?_⟩
    · simp only [entryRooms_append, valueRooms_append, entryRooms_cons, valueRooms_cons, entryRooms_nil, valueRooms_nil]
      omega
    · simp only
      omega
    · exact fun b hb => hnames (by grind)

theorem counted_of_add_all (hs : Counted s) (hic : s.inode_capacity < 2 ^ 16) (hbc : s.block_capacity < 2 ^ 16)
    (hvalues : ∀ a ∈ attrs, a.value.length < 2 ^ 16) (h : attrs.foldlM add s = .ok s') : Counted s' := by
  induction attrs generalizing s with
  | nil =>
    obtain rfl : s = s' := by simpa [pure, Except.pure] using h
    exact hs
  | cons a as ih =>
    rw [foldlM_cons] at h
    obtain ⟨s₁, hadd, hrest⟩ := bind_eq_ok.1 h
    have hcap : s₁.inode_capacity = s.inode_capacity ∧ s₁.block_capacity = s.block_capacity :=
      @capacities_of_add_all _ _ [a] (by simpa [foldlM_cons] using hadd)
    exact ih (hs.add hadd (hvalues a mem_cons_self) hic hbc) (hcap.1 ▸ hic) (hcap.2 ▸ hbc)
      (fun b hb => hvalues b (mem_cons_of_mem _ hb)) hrest

theorem entryRooms_perm {as bs : List ExtendedAttribute} (h : as.Perm bs) : entryRooms as = entryRooms bs :=
  (h.map _).sum_nat

theorem valueRooms_perm {as bs : List ExtendedAttribute} (h : as.Perm bs) : valueRooms as = valueRooms bs :=
  (h.map _).sum_nat

/-- With the counters right, both areas come out well-formed. -/
theorem Counted.wellFormed (h : Counted s) (hic : s.inode_capacity < 2 ^ 16) (hbc : s.block_capacity < 2 ^ 16)
    : s.AreasWellFormed := by
  have hi := h.inline_room
  have hb := h.block_room
  have hiu := h.inline_used
  have hbu := h.block_used
  have hperm := perm_insertionSort entry_le s.block_attrs
  rw [← entryRooms_perm hperm, ← valueRooms_perm hperm] at hbu
  have hheader : XATTR_INODE_HEADER_SIZE = 4 ∧ XATTR_BLOCK_HEADER_SIZE = 32 := ⟨rfl, rfl⟩
  refine ⟨?_, ?_⟩
  · obtain ⟨t, ht, harea⟩ := wellFormedArea_of_room XATTR_INODE_HEADER_SIZE XATTR_INODE_HEADER_SIZE (fun _ => 0)
      [.nat 0 4 XATTR_HEADER_MAGIC] (by omega) (by simp [Field.nat, leBytes, XATTR_INODE_HEADER_SIZE]) (by simp)
      (Nat.le_refl _) hic fun a ha => h.names a (.inl ha)
    have htable : s.inline_table = .ok t := bind_eq_ok.2 ⟨(), require_eq_ok.2 (by omega), ht⟩
    exact ⟨t, _, htable, write_inline_of_table htable, harea⟩
  · obtain ⟨t, ht, harea⟩ := wellFormedArea_of_room XATTR_BLOCK_HEADER_SIZE 0 ExtendedAttribute.hash
      [.nat 0 4 XATTR_HEADER_MAGIC, .nat 4 4 1, .nat 8 4 1] (by omega)
      (by simp [Field.nat, leBytes, XATTR_BLOCK_HEADER_SIZE]) (by simp [Field.span, Field.nat, leBytes, Apart])
      (Nat.zero_le _) hbc fun a ha => h.names a (.inr (hperm.mem_iff.1 ha))
    have htable : s.block_table = .ok t := bind_eq_ok.2 ⟨(), require_eq_ok.2 (by omega), ht⟩
    exact ⟨t, _, htable, write_block_of_table htable, harea⟩

theorem AreasWellFormed.value_le (h : s.AreasWellFormed) :
    (∀ a ∈ s.inline_attrs, a.value.length ≤ s.inode_capacity) ∧ ∀ a ∈ s.block_attrs, a.value.length ≤ s.block_capacity := by
  obtain ⟨⟨t, -, ht, -⟩, ⟨t', -, ht', -⟩⟩ := h
  obtain ⟨-, -, ht⟩ := bind_eq_ok.1 ht
  obtain ⟨-, -, ht'⟩ := bind_eq_ok.1 ht'
  refine ⟨value_le_of_table ht, ?_⟩
  intro a ha
  exact value_le_of_table ht' a ((perm_insertionSort entry_le s.block_attrs).mem_iff.2 ha)

end XattrState

/-- For every list of attributes that `add` accepts: the areas are written without leaving their buffers, with table
and values apart and every entry pointing at its own value, and names decompress to themselves, exactly when no value
is longer than both areas. -/
theorem xattr_areas (inode ic bc : Nat) (hic : 8 ≤ ic ∧ ic < 2 ^ 16) (hbc : 36 ≤ bc ∧ bc < 2 ^ 16)
    (attrs : List ExtendedAttribute) (s : XattrState) (h : attrs.foldlM XattrState.add (.new inode ic bc) = .ok s) :
    (s.AreasWellFormed ∧ ∀ name, decompress_name (compress_name name).1 (compress_name name).2 = name) ↔
      ∀ a ∈ attrs, a.value.length ≤ max ic bc := by
  obtain ⟨hsi, hsb⟩ : s.inode_capacity = ic ∧ s.block_capacity = bc := XattrState.capacities_of_add_all h
  constructor
  · rintro ⟨hw, -⟩ a ha
    obtain ⟨hinline, hblock⟩ := hw.value_le
    rcases XattrState.mem_of_add_all h a ha with ha | ha
    · exact Nat.le_trans (hsi ▸ hinline a ha) (Nat.le_max_left _ _)
    · exact Nat.le_trans (hsb ▸ hblock a ha) (Nat.le_max_right _ _)
  · intro hvalues
    have hstart : XattrState.Counted (.new inode ic bc) := by
      refine ⟨rfl, hic.1, rfl, hbc.1, ?_⟩
      rintro a (ha | ha) <;> cases ha
    have hcounted := XattrState.counted_of_add_all hstart hic.2 hbc.2
      (fun a ha => Nat.lt_of_le_of_lt (hvalues a ha) (Nat.max_lt.2 ⟨hic.2, hbc.2⟩)) h
    exact ⟨hcounted.wellFormed (hsi ▸ hic.2) (hsb ▸ hbc.2), decompress_compress⟩

/-- One attribute in the inode and one in the block, with the capacities `create` gives. -/
theorem two_attributes_areas :
    let attrs := [ExtendedAttribute.new "user.mime_type".toList [116, 120, 116],
      ExtendedAttribute.new "security.selinux".toList (replicate 80 7)]
    ∃ s, attrs.foldlM XattrState.add (.new 12 INODE_EXTRA_SIZE BLOCK_SIZE) = .ok s ∧ s.AreasWellFormed := by
  intro attrs
  obtain ⟨s, hs⟩ : ∃ s, attrs.foldlM XattrState.add (.new 12 INODE_EXTRA_SIZE BLOCK_SIZE) = .ok s :=
    exists_ok_of_isOk (by decide +kernel)
  exact ⟨s, hs, ((xattr_areas 12 INODE_EXTRA_SIZE BLOCK_SIZE (by decide) (by decide) attrs s hs).2 (by decide +kernel)).1⟩

/-- A value of 2^32 bytes counts as none: `add` accepts it for the inode, and the writer panics. -/
theorem long_value_accepted (a : ExtendedAttribute) (hname : a.name_len = 1) (hvalue : a.value.length = 2 ^ 32) :
    ∃ s, [a].foldlM XattrState.add (.new 12 INODE_EXTRA_SIZE BLOCK_SIZE) = .ok s ∧ s.write_inline = .error .panic := by
  have htotal : a.total_size = 20 := by simp [total_size, entry_size, value_size, hname, hvalue, align_up]
  refine ⟨{ XattrState.new 12 INODE_EXTRA_SIZE BLOCK_SIZE with used_inline := 24, inline_attrs := [a] }, ?_, ?_⟩
  · simp [XattrState.add, htotal, hname, XattrState.new, EXT4_NAME_LEN, INODE_EXTRA_SIZE, XATTR_INODE_HEADER_SIZE, pure,
      Except.pure, bind, Except.bind]
  · simp [XattrState.write_inline, XattrState.inline_table, write_xattr_entry, hvalue, align_up, require, INODE_EXTRA_SIZE,
      XattrState.new, bind, Except.bind]

theorem four_gigabyte_value_panics :
    ∃ s, [ExtendedAttribute.new "user.a".toList (List.replicate (2 ^ 32) 0)].foldlM XattrState.add
        (.new 12 INODE_EXTRA_SIZE BLOCK_SIZE) = .ok s ∧ s.write_inline = .error .panic ∧ ¬ s.AreasWellFormed := by
  obtain ⟨s, hs, hpanic⟩ := long_value_accepted (.new "user.a".toList (replicate (2 ^ 32) 0)) (by decide)
    length_replicate
  refine ⟨s, hs, hpanic, ?_⟩
  rintro ⟨⟨t, buf, -, hok, -⟩, -⟩
  rw [hpanic] at hok
  cases hok

end Silo.Ext4
