import Silo.Ext4.Dir
import Silo.Rust.Str
/-!
# Directory blocks read back

`dir.rs`, the reading half, against the writing half. A directory is a list of blocks,
each a list of records; `Written` says that the bytes written so far are those records,
one after the other, and that all blocks but the current one are full. The parser and
the walk over the record headers are then read off the list of records.
-/

namespace Silo.Ext4

open List Lib
open Rust (from_utf8_lossy)

/-! ## The reader -/

structure DirectoryEntry where
  (inode rec_len name_len file_type : Nat)
deriving DecidableEq, Repr

def DirectoryEntry.SIZE : Nat := 8

def DirectoryEntry.read_from (buf : Buf) : DirectoryEntry :=
  ⟨leNat buf 0 4, leNat buf 4 2, leNat buf 6 1, leNat buf 7 1⟩

open DirectoryEntry

/-- The headers in `data` from `offset` on, each with its position. A round moves by at least one
byte, so the size of the data is fuel enough. -/
def dir_headers (data : Bytes) : Nat → Nat → List (Nat × DirectoryEntry)
  | 0, _ => []
  | fuel + 1, offset =>
    if offset + SIZE ≤ data.size then
      let entry := read_from fun i => data.get (offset + i)
      if entry.rec_len = 0 then [] else (offset, entry) :: dir_headers data fuel (offset + entry.rec_len)
    else []

/-- The loop of `parse_dir_entries`. -/
def parse_dir_entries_from (data : Bytes) : Nat → Nat → List (Str × Nat)
  | 0, _ => []
  | fuel + 1, offset =>
    if offset + SIZE ≤ data.size then
      let entry := read_from fun i => data.get (offset + i)
      -- a record without a length would be read for ever
      if entry.rec_len = 0 then []
      else
        let rest := parse_dir_entries_from data fuel (offset + entry.rec_len)
        let name_start := offset + SIZE
        if entry.inode ≠ 0 ∧ 0 < entry.name_len ∧ name_start + entry.name_len ≤ data.size then
          (from_utf8_lossy (data.slice name_start entry.name_len).toList, entry.inode) :: rest
        else rest
    else []

def parse_dir_entries (data : Bytes) : List (Str × Nat) := parse_dir_entries_from data data.size 0

/-! ## Records -/

structure Record where
  inode : UInt32
  rec_len : Nat
  file_type : FileType
  name : Str
  name_le : (as_bytes name).length ≤ EXT4_NAME_LEN
  room : SIZE + (as_bytes name).length ≤ rec_len
  fits : rec_len ≤ BLOCK_SIZE

namespace Record

def bytes (r : Record) : Bytes := dir_record r.inode.toNat r.rec_len r.file_type.code r.name

/-- The record that takes the `left` bytes a block has left. -/
def closing (left : Nat) (hroom : 12 ≤ left) (hfits : left ≤ BLOCK_SIZE) : Record :=
  ⟨0, left, .Unknown, [], Nat.zero_le _, Nat.le_trans (by decide) hroom, hfits⟩

def header (r : Record) : DirectoryEntry := ⟨r.inode.toNat, r.rec_len, (as_bytes r.name).length, r.file_type.code⟩

/-- What the reader makes of a record: nothing when it has no inode or no name. -/
def parsed (r : Record) : Option (Str × Nat) :=
  if r.inode ≠ 0 ∧ r.name ≠ [] then some (r.name, r.inode.toNat) else none

theorem inode_eq_zero (r : Record) : r.inode.toNat = 0 ↔ r.inode = 0 := UInt32.toNat_inj (b := 0)

theorem rec_len_pos (r : Record) : DirectoryEntry.SIZE ≤ r.rec_len := Nat.le_trans (Nat.le_add_right _ _) r.room

end Record

theorem as_bytes_length_pos {s : Str} : 0 < (as_bytes s).length ↔ s ≠ [] := by
  cases s with
  | nil => simp [as_bytes]
  | cons c s =>
    have := String.length_utf8EncodeChar c
    have := c.utf8Size_pos
    simp only [as_bytes, flatMap_cons, length_append, ne_eq, reduceCtorEq, not_false_eq_true, iff_true]
    omega

theorem record_apart (inode rec_len name_len file_type : Nat) (name : Bytes) :
    (List.map Field.span [.nat 0 4 inode, .nat 4 2 rec_len, .nat 6 1 name_len, .nat 7 1 file_type, ⟨8, name⟩]).Pairwise
      Apart := by
  apply @Tiles.pairwise 0 (8 + name.size)
  simp [Tiles, Field.span, Field.nat, leBytes]

theorem FileType.code_lt (t : FileType) : t.code < 256 := by cases t <;> decide

theorem Record.read_header (r : Record) : DirectoryEntry.read_from r.bytes.get = r.header := by
  have hp := record_apart r.inode.toNat r.rec_len (as_bytes r.name).length r.file_type.code (.ofList (as_bytes r.name))
  have hinode := r.inode.toNat_lt
  have hlen := r.fits
  have hname := r.name_le
  have hcode := r.file_type.code_lt
  simp only [BLOCK_SIZE, EXT4_NAME_LEN] at hlen hname
  simp only [DirectoryEntry.read_from, Record.bytes, dir_record, Record.header, DirectoryEntry.mk.injEq]
  refine ⟨?_, ?_, ?_, ?_⟩
  · rw [leNat_writeFields hp _ (v := r.inode.toNat) (by simp), Nat.mod_eq_of_lt (by omega)]
  · rw [leNat_writeFields hp _ (v := r.rec_len) (by simp), Nat.mod_eq_of_lt (by omega)]
  · rw [leNat_writeFields hp _ (v := (as_bytes r.name).length) (by simp), Nat.mod_eq_of_lt (by omega)]
  · rw [leNat_writeFields hp _ (v := r.file_type.code) (by simp), Nat.mod_eq_of_lt (by omega)]

theorem Record.read_name (r : Record) : (r.bytes.slice DirectoryEntry.SIZE (as_bytes r.name).length).toList = as_bytes r.name := by
  have hp := record_apart r.inode.toNat r.rec_len (as_bytes r.name).length r.file_type.code (.ofList (as_bytes r.name))
  rw [← Bytes.toList_ofList (as_bytes r.name)]
  apply Bytes.toList_congr
  · simp [Bytes.slice, Bytes.ofList]
  · intro i hi
    exact fields_read hp (f := ⟨8, .ofList (as_bytes r.name)⟩) (by simp) hi _

/-! ## Records in a buffer -/

/-- The records lie in the buffer one after the other, from `off` on. -/
def At (buf : Buf) (off : Nat) : List Record → Prop
  | [] => True
  | r :: rs => (∀ i < r.rec_len, buf (off + i) = r.bytes.get i) ∧ At buf (off + r.rec_len) rs

def extent (rs : List Record) : Nat := (rs.map Record.rec_len).sum

@[simp] theorem extent_nil : extent [] = 0 := rfl
@[simp] theorem extent_cons (r : Record) (rs : List Record) : extent (r :: rs) = r.rec_len + extent rs := by simp [extent]
@[simp] theorem extent_append (as bs : List Record) : extent (as ++ bs) = extent as + extent bs := by simp [extent]

theorem at_append {buf : Buf} {off : Nat} {as bs : List Record} :
    At buf off (as ++ bs) ↔ At buf off as ∧ At buf (off + extent as) bs := by
  induction as generalizing off with
  | nil => simp [At]
  | cons r as ih => simp [At, ih, and_assoc, Nat.add_assoc]

variable {rs : List Record}

theorem at_congr {a b : Buf} {p q : Nat} (h : ∀ i < extent rs, b (q + i) = a (p + i)) (ha : At a p rs) :
    At b q rs := by
  induction rs generalizing p q with
  | nil => trivial
  | cons r rs ih =>
    rw [extent_cons] at h
    refine ⟨?_, ih ?_ ha.2⟩
    · intro i hi
      rw [h i (by omega)]
      exact ha.1 i hi
    · intro i hi
      have := h (r.rec_len + i) (by omega)
      rwa [← Nat.add_assoc, ← Nat.add_assoc] at this

theorem length_le_extent (rs : List Record) : rs.length * 8 ≤ extent rs := by
  induction rs with
  | nil => simp
  | cons r rs ih =>
    have : 8 ≤ r.rec_len := r.rec_len_pos
    simp only [length_cons, extent_cons]
    omega

variable {r : Record}

section Read

variable {data : Bytes} {off : Nat}

theorem read_header_at (h : At data.get off (r :: rs)) :
    DirectoryEntry.read_from (fun i => data.get (off + i)) = r.header := by
  have hsize := r.rec_len_pos
  have hread (p width : Nat) (hw : p + width ≤ DirectoryEntry.SIZE) :
      leNat (fun i => data.get (off + i)) p width = leNat r.bytes.get p width :=
    leNat_congr fun i hi => h.1 (p + i) (by omega)
  rw [← r.read_header]
  simp only [DirectoryEntry.read_from, DirectoryEntry.mk.injEq]
  exact ⟨hread 0 4 (by decide), hread 4 2 (by decide), hread 6 1 (by decide), hread 7 1 (by decide)⟩

theorem read_name_at (h : At data.get off (r :: rs)) :
    from_utf8_lossy (data.slice (off + DirectoryEntry.SIZE) (as_bytes r.name).length).toList = r.name := by
  have hroom := r.room
  have hname : (data.slice (off + DirectoryEntry.SIZE) (as_bytes r.name).length).toList = as_bytes r.name := by
    rw [← r.read_name, Bytes.length_toList]
    apply Bytes.toList_congr
    · rfl
    intro i hi
    simp only [Bytes.slice] at hi ⊢
    rw [Nat.add_assoc]
    exact h.1 _ (by omega)
  rw [hname]
  exact Silo.Rust.from_utf8_lossy_as_bytes r.name

theorem dir_headers_at {fuel : Nat} (h : At data.get off rs) (hsize : data.size = off + extent rs)
    (hfuel : rs.length ≤ fuel) :
    Tiles off ((dir_headers data fuel off).map fun p => (p.1, p.2.rec_len)) data.size ∧
      (dir_headers data fuel off).map Prod.snd = rs.map Record.header := by
  induction rs generalizing off fuel with
  | nil =>
    have hnone : dir_headers data fuel off = [] := by
      cases fuel with
      | zero => rfl
      | succ fuel => rw [dir_headers, if_neg (by simp [DirectoryEntry.SIZE, hsize])]
    simp [hnone, Tiles, hsize]
  | cons r rs ih =>
    obtain ⟨fuel, rfl⟩ := Nat.exists_eq_add_of_lt (Nat.lt_of_lt_of_le (Nat.succ_pos _) hfuel)
    rw [Nat.zero_add] at hfuel ⊢
    have hpos := r.rec_len_pos
    rw [extent_cons] at hsize
    rw [dir_headers, if_pos (by omega), read_header_at h]
    have hne : r.header.rec_len ≠ 0 := Nat.ne_of_gt (Nat.lt_of_lt_of_le (by decide) hpos)
    obtain ⟨htiles, hheads⟩ := ih h.2 (by omega) (Nat.le_of_succ_le_succ hfuel)
    simp only [if_neg hne, map_cons, Tiles, beq_self_eq_true, Bool.true_and]
    exact ⟨htiles, congrArg _ hheads⟩

theorem parse_dir_entries_at {fuel : Nat} (h : At data.get off rs) (hsize : data.size = off + extent rs)
    (hfuel : rs.length ≤ fuel) : parse_dir_entries_from data fuel off = rs.filterMap Record.parsed := by
  induction rs generalizing off fuel with
  | nil =>
    cases fuel with
    | zero => rfl
    | succ fuel => rw [parse_dir_entries_from, if_neg (by simp [DirectoryEntry.SIZE, hsize]), filterMap_nil]
  | cons r rs ih =>
    obtain ⟨fuel, rfl⟩ := Nat.exists_eq_add_of_lt (Nat.lt_of_lt_of_le (Nat.succ_pos _) hfuel)
    rw [Nat.zero_add] at hfuel ⊢
    have hpos := r.rec_len_pos
    have hroom := r.room
    rw [extent_cons] at hsize
    rw [parse_dir_entries_from, if_pos (by omega), read_header_at h]
    have hne : r.header.rec_len ≠ 0 := Nat.ne_of_gt (Nat.lt_of_lt_of_le (by decide) hpos)
    have hrest := ih h.2 (by omega) (Nat.le_of_succ_le_succ hfuel)
    -- the record's own room covers its name, so the reader's bound never drops it
    have hlive : r.header.inode ≠ 0 ∧ 0 < r.header.name_len ∧ off + DirectoryEntry.SIZE + r.header.name_len ≤ data.size ↔
        r.inode ≠ 0 ∧ r.name ≠ [] := by
      have hin : off + DirectoryEntry.SIZE + (as_bytes r.name).length ≤ data.size := by omega
      simp only [Record.header, as_bytes_length_pos, hin, and_true, ne_eq, r.inode_eq_zero]
    simp only [if_neg hne, hlive]
    rw [show r.header.name_len = (as_bytes r.name).length from rfl, show off + r.header.rec_len = off + r.rec_len from rfl,
      read_name_at h, hrest]
    by_cases hl : r.inode ≠ 0 ∧ r.name ≠ []
    · simp only [if_pos hl, filterMap_cons, Record.parsed]
      rfl
    · simp only [if_neg hl, filterMap_cons, Record.parsed]

end Read

/-! ## The writer -/

/-- The arguments of `write_dir_entry`, with a hard link resolved to its target. -/
structure NewEntry where
  name : Str
  inode : UInt32
  mode : UInt16

/-- The entries written one after the other, and the last block closed. -/
def write_dir_entries (entries : List NewEntry) : DirBuf :=
  finish_dir_entry_block (entries.foldl (fun d e => write_dir_entry d e.name e.inode.toNat e.mode) {})

/-- What has been written: full blocks, and the records of the current one, with room left for a closing record. -/
structure Written (d : DirBuf) (blocks : List (List Record)) (current : List Record) : Prop where
  records : At d.buf.get 0 (blocks.flatten ++ current)
  size : d.buf.size = extent (blocks.flatten ++ current)
  full : ∀ b ∈ blocks, extent b = BLOCK_SIZE
  left : extent current + d.left = BLOCK_SIZE
  room : 12 ≤ d.left

namespace Written

variable {d : DirBuf} {blocks : List (List Record)} {current : List Record}

theorem empty : Written {} [] [] := ⟨trivial, rfl, by simp, by simp, by decide⟩

section
variable (h : Written d blocks current)
include h

theorem at_push (r : Record) :
    At (d.buf.append r.bytes).get 0 (blocks.flatten ++ (current ++ [r])) := by
  have hsize := h.size
  rw [← append_assoc, at_append]
  refine ⟨at_congr (fun i hi => ?_) h.records, fun i hi => ?_, trivial⟩
  · rw [Nat.zero_add, Bytes.append_get_left (by omega)]
  · rw [Nat.zero_add, ← hsize, Bytes.append_get_right]

theorem size_push (r : Record) :
    (d.buf.append r.bytes).size = extent (blocks.flatten ++ (current ++ [r])) := by
  have hsize := h.size
  simp only [extent_append, extent_cons, extent_nil] at hsize ⊢
  simp only [Bytes.append, Record.bytes, dir_record]
  omega

theorem push (r : Record) (hr : r.rec_len + 12 ≤ d.left) :
    Written ⟨d.buf.append r.bytes, d.left - r.rec_len⟩ blocks (current ++ [r]) := by
  have hleft := h.left
  refine ⟨h.at_push r, h.size_push r, h.full, ?_, ?_⟩
  · simp only [extent_append, extent_cons, extent_nil]
    omega
  · show 12 ≤ d.left - r.rec_len
    omega

theorem finish :
    ∃ r : Record, r.inode = 0 ∧ Written (finish_dir_entry_block d) (blocks ++ [current ++ [r]]) [] := by
  have hleft := h.left
  have hroom := h.room
  refine ⟨.closing d.left hroom (by omega), rfl, ?_⟩
  rw [finish_dir_entry_block, if_neg (by omega)]
  have hrec (r : Record) : (blocks ++ [current ++ [r]]).flatten ++ [] = blocks.flatten ++ (current ++ [r]) := by simp
  refine ⟨?_, ?_, ?_, by simp, show 12 ≤ BLOCK_SIZE by decide⟩
  · rw [hrec]
    exact h.at_push (.closing d.left hroom (by omega))
  · rw [hrec]
    exact h.size_push (.closing d.left hroom (by omega))
  · refine forall_mem_append.2 ⟨h.full, forall_mem_singleton.2 ?_⟩
    rw [extent_append, extent_cons, extent_nil]
    exact hleft

end

end Written

def NewEntry.record (e : NewEntry) (h : (as_bytes e.name).length ≤ EXT4_NAME_LEN) : Record :=
  ⟨e.inode, align_up (8 + (as_bytes e.name).length) 4, FileType.from_mode e.mode, e.name, h,
    by simp only [SIZE, align_up]; omega, by simp only [BLOCK_SIZE, EXT4_NAME_LEN, align_up] at *; omega⟩

theorem NewEntry.rec_len_le (e : NewEntry) (h : (as_bytes e.name).length ≤ EXT4_NAME_LEN) :
    (e.record h).rec_len + 12 ≤ BLOCK_SIZE := by
  simp only [EXT4_NAME_LEN] at h
  simp only [BLOCK_SIZE, align_up, NewEntry.record]
  omega

/-- What is stored of an entry that the reader should find again. -/
def Record.stored (r : Record) : Str × Nat × FileType := (r.name, r.inode.toNat, r.file_type)

def NewEntry.stored (e : NewEntry) : Str × Nat × FileType := (e.name, e.inode.toNat, FileType.from_mode e.mode)

/-- The records with an inode: those of the entries, without the closing ones. -/
def live (rs : List Record) : List (Str × Nat × FileType) := (rs.filter (·.inode ≠ 0)).map Record.stored

@[simp] theorem live_append (as bs : List Record) : live (as ++ bs) = live as ++ live bs := by simp [live]

@[simp] theorem live_nil : live [] = [] := rfl

theorem live_closing (h : r.inode = 0) (rs : List Record) : live (r :: rs) = live rs := by simp [live, h]

theorem live_cons (h : r.inode ≠ 0) (rs : List Record) : live (r :: rs) = r.stored :: live rs := by simp [live, h]

theorem live_record (e : NewEntry) (h : (as_bytes e.name).length ≤ EXT4_NAME_LEN) :
    live [e.record h] = ([e].filter (·.inode ≠ 0)).map NewEntry.stored := by
  by_cases h0 : e.inode = 0 <;> simp [live, NewEntry.record, NewEntry.stored, Record.stored, h0]

theorem Written.write {d : DirBuf} {blocks : List (List Record)} {current : List Record} (h : Written d blocks current)
    (e : NewEntry) (hname : (as_bytes e.name).length ≤ EXT4_NAME_LEN) :
    ∃ blocks' current', Written (write_dir_entry d e.name e.inode.toNat e.mode) blocks' current' ∧
      live (blocks'.flatten ++ current') = live (blocks.flatten ++ current) ++ live [e.record hname] := by
  have hlen := e.rec_len_le hname
  unfold write_dir_entry
  by_cases hroom : d.left < align_up (8 + (as_bytes e.name).length) 4 + 12
  · obtain ⟨r, hzero, hw⟩ := h.finish
    have hnext : (finish_dir_entry_block d).left = BLOCK_SIZE := by simpa using hw.left
    simp only [if_pos hroom]
    refine ⟨_, _, hw.push (e.record hname) (by rw [hnext]; exact hlen), ?_⟩
    simp [live_closing hzero]
  · simp only [if_neg hroom]
    refine ⟨_, _, h.push (e.record hname) (by simp only [NewEntry.record]; omega), ?_⟩
    simp

theorem Written.write_all {entries : List NewEntry} (hnames : ∀ e ∈ entries, (as_bytes e.name).length ≤ EXT4_NAME_LEN)
    {d : DirBuf} {blocks : List (List Record)} {current : List Record} (h : Written d blocks current) :
    ∃ blocks' current', Written (entries.foldl (fun d e => write_dir_entry d e.name e.inode.toNat e.mode) d) blocks' current' ∧
      live (blocks'.flatten ++ current') =
        live (blocks.flatten ++ current) ++ (entries.filter (·.inode ≠ 0)).map NewEntry.stored := by
  induction entries generalizing d blocks current with
  | nil => exact ⟨blocks, current, h, by simp⟩
  | cons e entries ih =>
    obtain ⟨blocks₁, current₁, hw₁, hl₁⟩ := h.write e (hnames e mem_cons_self)
    obtain ⟨blocks₂, current₂, hw₂, hl₂⟩ := ih (fun e he => hnames e (mem_cons_of_mem _ he)) hw₁
    refine ⟨blocks₂, current₂, hw₂, ?_⟩
    rw [hl₂, hl₁, live_record, append_assoc, ← map_append, ← filter_append, singleton_append]

/-- The finished directory: whole blocks of records, with the entries' records in order. -/
theorem write_dir_entries_blocks {entries : List NewEntry}
    (hnames : ∀ e ∈ entries, (as_bytes e.name).length ≤ EXT4_NAME_LEN) :
    ∃ blocks : List (List Record), At (write_dir_entries entries).buf.get 0 blocks.flatten ∧
      (write_dir_entries entries).buf.size = extent blocks.flatten ∧ (∀ b ∈ blocks, extent b = BLOCK_SIZE) ∧
      live blocks.flatten = (entries.filter (·.inode ≠ 0)).map NewEntry.stored := by
  obtain ⟨blocks, current, hw, hl⟩ := Written.empty.write_all hnames
  obtain ⟨r, hzero, hw⟩ := hw.finish
  refine ⟨blocks ++ [current ++ [r]], ?_, ?_, hw.full, ?_⟩
  · simpa [write_dir_entries] using hw.records
  · simpa [write_dir_entries] using hw.size
  · simpa [live_closing hzero] using hl

/-! ## The round trip -/

/-- The `k`-th block of a directory, as the reader fetches it. -/
def dir_block (data : Bytes) (k : Nat) : Bytes := data.slice (k * BLOCK_SIZE) BLOCK_SIZE

def block_headers (data : Bytes) : List (Nat × DirectoryEntry) := dir_headers data data.size 0

section Blocks

variable {blocks : List (List Record)} (hfull : ∀ b ∈ blocks, extent b = BLOCK_SIZE)
include hfull

theorem extent_flatten : extent blocks.flatten = blocks.length * BLOCK_SIZE := by
  induction blocks with
  | nil => simp
  | cons b blocks ih =>
    rw [flatten_cons, extent_append, hfull b mem_cons_self,
      ih fun b hb => hfull b (mem_cons_of_mem _ hb), length_cons, Nat.succ_mul, Nat.add_comm]

variable {k : Nat}

theorem at_block {buf : Buf} {off : Nat} (h : At buf off blocks.flatten) (hk : k < blocks.length) :
    At buf (off + k * BLOCK_SIZE) blocks[k] := by
  induction blocks generalizing off k with
  | nil => cases hk
  | cons b blocks ih =>
    rw [flatten_cons, at_append, hfull b mem_cons_self] at h
    cases k with
    | zero => simpa using h.1
    | succ k =>
      have := ih (fun b hb => hfull b (mem_cons_of_mem _ hb)) h.2 (Nat.lt_of_succ_lt_succ hk)
      rwa [Nat.add_assoc, Nat.add_comm BLOCK_SIZE, ← Nat.succ_mul] at this

variable {data : Bytes} (hat : At data.get 0 blocks.flatten)
include hat

section
variable (hk : k < blocks.length)
include hk

theorem at_dir_block : At (dir_block data k).get 0 blocks[k] := by
  refine at_congr (fun i _ => ?_) (at_block hfull hat hk)
  simp only [dir_block, Bytes.slice, Nat.zero_add]

theorem parse_dir_block :
    parse_dir_entries (dir_block data k) = blocks[k].filterMap Record.parsed := by
  have hsize : extent blocks[k] = BLOCK_SIZE := hfull _ (getElem_mem hk)
  have hlen := length_le_extent blocks[k]
  have hpos : 0 < BLOCK_SIZE := by decide
  exact parse_dir_entries_at (at_dir_block hfull hat hk) (by simp [dir_block, Bytes.slice, hsize])
    (by simp only [dir_block, Bytes.slice]; omega)

theorem headers_dir_block :
    Tiles 0 ((block_headers (dir_block data k)).map fun p => (p.1, p.2.rec_len)) BLOCK_SIZE ∧
      (block_headers (dir_block data k)).map Prod.snd = blocks[k].map Record.header := by
  have hsize : extent blocks[k] = BLOCK_SIZE := hfull _ (getElem_mem hk)
  have hlen := length_le_extent blocks[k]
  have hpos : 0 < BLOCK_SIZE := by decide
  exact dir_headers_at (at_dir_block hfull hat hk) (by simp [dir_block, Bytes.slice, hsize])
    (by simp only [dir_block, Bytes.slice]; omega)

end

end Blocks

theorem flatMap_range {α β : Type} {f : Nat → List α} {g : β → List α} {bs : List β} (h : ∀ k (hk : k < bs.length), f k = g bs[k]) :
    (List.range bs.length).flatMap f = bs.flatMap g := by
  rw [flatMap_def, flatMap_def]
  congr 1
  apply ext_getElem
  · simp
  · intro k h₁ h₂
    simpa using h k (by simpa using h₂)

theorem filterMap_parsed (rs : List Record) :
    rs.filterMap Record.parsed = (live rs).filterMap fun s => if s.1 ≠ [] then some (s.1, s.2.1) else none := by
  induction rs with
  | nil => rfl
  | cons r rs ih =>
    by_cases h0 : r.inode = 0
    · rw [live_closing h0, ← ih, filterMap_cons_none (by simp [Record.parsed, h0])]
    · have hhead : r.parsed = if r.stored.1 ≠ [] then some (r.stored.1, r.stored.2.1) else none := by
        by_cases hn : r.name = [] <;> simp [Record.parsed, Record.stored, h0, hn]
      rw [live_cons h0, filterMap_cons, filterMap_cons, ih, hhead]

theorem live_headers (rs : List Record) :
    ((rs.map Record.header).filter (·.inode ≠ 0)).map (fun h => (h.inode, h.file_type)) =
      (live rs).map fun s => (s.2.1, s.2.2.code) := by
  induction rs with
  | nil => rfl
  | cons r rs ih =>
    by_cases h0 : r.inode = 0
    · rw [live_closing h0, ← ih]
      simp [Record.header, h0]
    · rw [live_cons h0, map_cons, map_cons, ← ih]
      simp [Record.header, Record.stored, r.inode_eq_zero, h0]

/-- Writing entries with names of 1 to 255 bytes leaves whole blocks; the record lengths of a block tile
it, so that no record crosses its end; the parser gives the names and inode numbers of the entries with an
inode back, in their order, block by block or over all blocks at once; and their records store their types. -/
theorem dir_blocks_round_trip (entries : List NewEntry)
    (hnames : ∀ e ∈ entries, 1 ≤ (as_bytes e.name).length ∧ (as_bytes e.name).length ≤ 255) :
    ∃ n, (write_dir_entries entries).buf.size = n * BLOCK_SIZE ∧
      (∀ k < n, Tiles 0 ((block_headers (dir_block (write_dir_entries entries).buf k)).map fun p => (p.1, p.2.rec_len))
        BLOCK_SIZE = true) ∧
      (∀ k < n, ∀ p ∈ block_headers (dir_block (write_dir_entries entries).buf k), p.1 + p.2.rec_len ≤ BLOCK_SIZE) ∧
      ((List.range n).flatMap fun k => parse_dir_entries (dir_block (write_dir_entries entries).buf k)) =
        (entries.filter (·.inode ≠ 0)).map (fun e => (e.name, e.inode.toNat)) ∧
      parse_dir_entries (write_dir_entries entries).buf =
        (entries.filter (·.inode ≠ 0)).map (fun e => (e.name, e.inode.toNat)) ∧
      ((((List.range n).flatMap fun k => (block_headers (dir_block (write_dir_entries entries).buf k)).map Prod.snd).filter
        (·.inode ≠ 0)).map fun h => (h.inode, h.file_type)) =
        (entries.filter (·.inode ≠ 0)).map (fun e => (e.inode.toNat, (FileType.from_mode e.mode).code)) := by
  obtain ⟨blocks, hat, hsize, hfull, hlive⟩ := write_dir_entries_blocks fun e he => (hnames e he).2
  have hblocks := extent_flatten hfull
  -- every entry has a name, so the reader drops none for the lack of one
  have hparsed : blocks.flatten.filterMap Record.parsed =
      (entries.filter (·.inode ≠ 0)).map (fun e => (e.name, e.inode.toNat)) := by
    rw [filterMap_parsed, hlive, filterMap_map, ← filterMap_eq_map]
    apply filterMap_congr
    intro e he
    have hne : e.name ≠ [] := as_bytes_length_pos.1 (hnames e (mem_filter.1 he).1).1
    simp [NewEntry.stored, hne]
  have htiles : ∀ k < blocks.length,
      Tiles 0 ((block_headers (dir_block (write_dir_entries entries).buf k)).map fun p => (p.1, p.2.rec_len)) BLOCK_SIZE =
        true := fun k hk => (headers_dir_block hfull hat hk).1
  refine ⟨blocks.length, by rw [hsize, hblocks], htiles, ?_, ?_, ?_, ?_⟩
  · intro k hk p hp
    exact Tiles.le_stop (htiles k hk) _ (mem_map_of_mem (f := fun p : Nat × DirectoryEntry => (p.1, p.2.rec_len)) hp)
  · rw [flatMap_range (fun k hk => parse_dir_block hfull hat hk), ← hparsed, filterMap_flatten]
    rfl
  · have hlen := length_le_extent blocks.flatten
    rw [← hparsed]
    exact parse_dir_entries_at hat (by rw [Nat.zero_add, hsize]) (by omega)
  · rw [flatMap_range (fun k hk => (headers_dir_block hfull hat hk).2), flatMap_def, ← map_flatten,
      live_headers, hlive, map_map]
    rfl

/-- A file and a directory in one block: the hypothesis holds, and both are read back. -/
theorem two_entries_round_trip :
    let entries : List NewEntry := [⟨"etc".toList, 12, 0x41ED⟩, ⟨"passwd".toList, 13, 0x81A4⟩]
    (∀ e ∈ entries, 1 ≤ (as_bytes e.name).length ∧ (as_bytes e.name).length ≤ 255) ∧
      parse_dir_entries (write_dir_entries entries).buf = [("etc".toList, 12), ("passwd".toList, 13)] := by
  intro entries
  have hnames : ∀ e ∈ entries, 1 ≤ (as_bytes e.name).length ∧ (as_bytes e.name).length ≤ 255 := by decide
  obtain ⟨n, -, -, -, -, hparse, -⟩ := dir_blocks_round_trip entries hnames
  exact ⟨hnames, hparse⟩

/-- The reader does not tell a file from a directory, and it drops an entry without an inode. -/
theorem parse_forgets_types :
    parse_dir_entries (write_dir_entries [⟨['a'], 11, 0x81A4⟩]).buf = [(['a'], 11)] ∧
      parse_dir_entries (write_dir_entries [⟨['a'], 11, 0x41ED⟩]).buf = [(['a'], 11)] ∧
      FileType.from_mode 0x81A4 = .Regular ∧ FileType.from_mode 0x41ED = .Directory ∧
      parse_dir_entries (write_dir_entries [⟨['a'], 0, 0x81A4⟩]).buf = [] := by
  decide +kernel

end Silo.Ext4
