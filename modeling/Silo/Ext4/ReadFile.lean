import Silo.Ext4.ExtentTree
import Silo.Ext4.FileTree
/-!
# Reading a file at a position

`read_file` and `read_from_extents` of `reader_io.rs`. The extents come from
`parse_extents`, which knows trees of depth 0 and 1 and keeps neither the logical block
of an extent nor the upper part of its block number nor the mark of an unwritten one:
the loop lays them end to end from position 0 on, as long as their length fields say.
The block size is the one of the superblock.
-/

namespace Silo.Ext4

open List Lib ExtentLeaf

inductive ReadFileError where
  | IsDirectory (path : Str)
  | NotAFile (path : Str)
  | extents (e : ReadError)
deriving DecidableEq

def File.slice (file : File) (pos n : Nat) : List UInt8 := (List.range' pos n).map file.bytes

/-- The inner loop: reads of up to 1 MiB until `remaining` bytes are there or the image ends. -/
def read_chunks (file : File) (pos remaining : Nat) : List UInt8 :=
  if remaining = 0 then []
  else
    let n := min (min remaining (2 ^ 20)) (file.len - pos)
    if n = 0 then [] else File.slice file pos n ++ read_chunks file (pos + n) (remaining - n)
termination_by remaining

/-- The loop over the extents; `out` is what is read so far. -/
def read_ranges (bs : Nat) (file : File) (start count : Nat) : List BlockRange → Nat → List UInt8 → List UInt8
  | [], _, out => out
  | r :: ranges, logical_offset, out =>
    let req_end := start + count
    let logical_end := logical_offset + r.size * bs
    if logical_end ≤ start then read_ranges bs file start count ranges logical_end out
    else if logical_offset ≥ req_end then out
    else
      let overlap_start := max start logical_offset
      let remaining := min req_end logical_end - overlap_start
      if remaining = 0 then read_ranges bs file start count ranges logical_end out
      else
        let out := out ++ read_chunks file (r.start * bs + (overlap_start - logical_offset)) remaining
        if out.length ≥ count then out else read_ranges bs file start count ranges logical_end out

def read_from_extents (bs : Nat) (file : File) (extents : List BlockRange) (start count : Nat) : List UInt8 :=
  if extents.isEmpty then [] else (read_ranges bs file start count extents 0 []).take count

def want (size offset : Nat) (count : Option Nat) : Nat :=
  let max_readable := size - min offset size
  match count with
  | some c => min c max_readable
  | none => max_readable

/-- `read_file`, for the inode `path` resolves to. -/
def read_file (bs : Nat) (file : File) (path : Str) (inode : Inode) (offset : Nat) (count : Option Nat) :
    Except ReadFileError (List UInt8) :=
  if inode.is_dir then .error (.IsDirectory path)
  else if !inode.is_reg then .error (.NotAFile path)
  else
    let start := min offset inode.file_size
    let want := want inode.file_size offset count
    if want = 0 then .ok []
    else
      match parse_extents inode bs file with
      | .error e => .error (.extents e)
      | .ok extents => .ok (read_from_extents bs file extents start want)

/-! ## What the loop reads -/

/-- The positions of the ranges' bytes in the image, one range after the other. -/
def stream (bs : Nat) (ranges : List BlockRange) : List Nat :=
  ranges.flatMap fun r => List.range' (r.start * bs) (r.size * bs)

theorem read_chunks_eq {file : File} {pos remaining : Nat} (h : pos + remaining ≤ file.len) :
    read_chunks file pos remaining = File.slice file pos remaining := by
  induction remaining using Nat.strong_induction_on generalizing pos with
  | _ remaining ih =>
    rw [read_chunks]
    split
    · next hzero => simp [hzero, File.slice]
    · have hn : min (min remaining (2 ^ 20)) (file.len - pos) = min remaining (2 ^ 20) := by omega
      simp only [hn, show min remaining (2 ^ 20) ≠ 0 by omega, if_false]
      rw [ih (remaining - min remaining (2 ^ 20)) (by omega) (by omega), File.slice, File.slice, File.slice,
        ← map_append, range'_append_1]
      congr 2
      omega

theorem drop_slice (file : File) {pos n k : Nat} :
    ((List.range' pos n).map file.bytes).drop k = File.slice file (pos + k) (n - k) := by
  rw [← map_drop, drop_range', Nat.mul_one]
  rfl

theorem take_slice (file : File) {pos n k : Nat} : (File.slice file pos n).take k = File.slice file pos (min k n) := by
  apply ext_getElem
  · simp [File.slice]
  · intro i h₁ h₂
    simp [File.slice]

/-- The ranges that meet the request, when they are laid end to end from `logical_offset` on, are inside the image. -/
def Fits (bs : Nat) (file : File) (start count : Nat) : Nat → List BlockRange → Prop
  | _, [] => True
  | logical_offset, r :: ranges =>
    (max start logical_offset < min (start + count) (logical_offset + r.size * bs) →
      (r.start + r.size) * bs ≤ file.len) ∧
      Fits bs file start count (logical_offset + r.size * bs) ranges

/-- The loop, from an extent on that starts at `logical_offset`: it reads the requested part of the stream. -/
theorem read_ranges_eq {bs start count : Nat} {file : File} {ranges : List BlockRange} {logical_offset : Nat}
    {out : List UInt8} (hpos : 0 < count) (hfits : Fits bs file start count logical_offset ranges)
    (hout : out.length = logical_offset - start) (hshort : out.length ≤ count) :
    read_ranges bs file start count ranges logical_offset out =
      out ++ (((stream bs ranges).map file.bytes).drop (start - logical_offset)).take (count - out.length) := by
  induction ranges generalizing logical_offset out with
  | nil => simp [read_ranges, stream]
  | cons r ranges ih =>
    obtain ⟨hr, hrest⟩ := hfits
    rw [Nat.add_mul] at hr
    have hstream : (stream bs (r :: ranges)).map file.bytes =
        (range' (r.start * bs) (r.size * bs)).map file.bytes ++ (stream bs ranges).map file.bytes := by
      simp [stream]
    rw [hstream, read_ranges]
    generalize hn : r.size * bs = n at *
    generalize (stream bs ranges).map file.bytes = rest at *
    simp only
    split
    · -- before the request
      next hskip =>
      have hdrop : ((range' (r.start * bs) n).map file.bytes ++ rest).drop (start - logical_offset) =
          rest.drop (start - (logical_offset + n)) := by
        rw [drop_append, drop_eq_nil_of_le (by simp; omega)]
        simp [Nat.sub_sub]
      rw [ih hrest (by omega) hshort, hdrop]
    split
    · next hpast =>
      rw [show count - out.length = 0 by omega]
      simp
    split
    · -- an extent without blocks
      next hskip hpast hnone =>
      obtain rfl : n = 0 := by omega
      rw [ih hrest (by omega) hshort]
      simp
    · next hskip hpast hsome =>
      have hread : read_chunks file (r.start * bs + (max start logical_offset - logical_offset))
          (min (start + count) (logical_offset + n) - max start logical_offset) =
          (((range' (r.start * bs) n).map file.bytes).drop (start - logical_offset)).take (count - out.length) := by
        have := hr (by omega)
        rw [read_chunks_eq (by omega), drop_slice, take_slice]
        congr 1
        · omega
        · omega
      have hlen : (((range' (r.start * bs) n).map file.bytes).drop (start - logical_offset)).length =
          n - (start - logical_offset) := by simp
      rw [hread, drop_append_of_le_length (by simp; omega), take_append, hlen]
      split
      · next hfull =>
        simp only [length_append, length_take, hlen] at hfull
        rw [show count - out.length - (n - (start - logical_offset)) = 0 by omega]
        simp
      · next hmore =>
        simp only [length_append, length_take, hlen] at hmore
        rw [ih hrest (by simp only [length_append, length_take, hlen]; omega)
          (by simp only [length_append, length_take, hlen]; omega)]
        simp only [length_append, length_take, hlen, append_assoc]
        rw [show start - (logical_offset + n) = 0 by omega, drop_zero]
        congr 3
        omega

/-- With these ranges inside the image, `read_from_extents` reads the requested part of the stream. -/
theorem read_from_extents_eq {bs start count : Nat} {file : File} {ranges : List BlockRange} (hpos : 0 < count)
    (hfits : Fits bs file start count 0 ranges) :
    read_from_extents bs file ranges start count = (((stream bs ranges).map file.bytes).drop start).take count := by
  cases ranges with
  | nil => simp [read_from_extents, stream]
  | cons r ranges =>
    rw [read_from_extents, read_ranges_eq hpos hfits (by simp) (by simp)]
    simp [take_take]

/-! ## Extent trees -/

abbrev entries (node : Buf) : Nat := (ExtentHeader.read_from node).entries.toNat

structure IsNode (node : Buf) (size depth : Nat) : Prop where
  magic : (ExtentHeader.read_from node).magic = EXTENT_HEADER_MAGIC
  depth : (ExtentHeader.read_from node).depth.toNat = depth
  room : 12 + entries node * 12 ≤ size

/-- The leaves of the tree below a node of `size` bytes. -/
def HasLeaves (bs : Nat) (file : File) : Nat → Nat → Buf → List ExtentLeaf → Prop
  | 0, size, node, leaves => IsNode node size 0 ∧ node_leaves node (entries node) = leaves
  | depth + 1, size, node, leaves =>
    IsNode node size (depth + 1) ∧ ∃ parts, parts.flatten = leaves ∧
      Forall₂ (fun index part => index.leaf * bs + bs ≤ file.len ∧
        HasLeaves bs file depth bs (file.drop (index.leaf * bs)) part) (node_indices node (entries node)) parts

section Tree

variable {bs : Nat} {file : File} {inode : Inode} {leaves : List ExtentLeaf}

theorem eq_ofNat_of_toNat {a : UInt16} {n : Nat} (h : a.toNat = n) : a = UInt16.ofNat n := by
  rw [← h, UInt16.ofNat_toNat]

theorem parse_leaves_of_tree {size : Nat} {node : Buf} (h : HasLeaves bs file 0 size node leaves) :
    parse_leaves node size (entries node) = .ok (leaves.map ExtentLeaf.range) := by
  rw [parse_leaves_eq h.1.room, h.2]

theorem parse_index_block_of_tree {block : Nat} (hlen : block * bs + bs ≤ file.len)
    (h : HasLeaves bs file 0 bs (file.drop (block * bs)) leaves) :
    parse_index_block bs file block = .ok (leaves.map ExtentLeaf.range) := by
  refine bind_eq_ok.2 ⟨_, orFail_eq_ok.2 (if_pos hlen), ?_⟩
  exact bind_eq_ok.2 ⟨(), require_eq_ok.2 ⟨h.1.magic, eq_ofNat_of_toNat h.1.depth⟩, parse_leaves_of_tree h⟩

/-- What `parse_extents` makes of a tree. -/
theorem parse_extents_of_tree {depth : Nat} (h : HasLeaves bs file depth INODE_BLOCK_SIZE inode.blockBuf leaves) :
    parse_extents inode bs file =
      if depth ≤ 1 then .ok (leaves.map ExtentLeaf.range) else .error .DeepExtentsUnsupported := by
  match depth, h with
  | 0, h =>
    have hdepth := eq_ofNat_of_toNat h.1.depth
    have hparsed := parse_leaves_of_tree h
    simpa [parse_extents, h.1.magic, hdepth] using hparsed
  | 1, ⟨hnode, parts, hflat, hparts⟩ =>
    have hdepth := eq_ofNat_of_toNat hnode.depth
    have hroom := hnode.room
    have hranges : (List.range (entries inode.blockBuf)).mapM (fun i => do
        require (12 + i * 12 + 12 ≤ INODE_BLOCK_SIZE) .InvalidExtents
        parse_index_block bs file (ExtentIndex.read_from fun k => inode.blockBuf (12 + i * 12 + k)).leaf) =
        (.ok (parts.map fun part => part.map ExtentLeaf.range) : Except ReadError _) := by
      rw [mapM_eq_ok, forall₂_map_right_iff]
      rw [node_indices, forall₂_map_left_iff] at hparts
      refine forall₂_iff_get.2 ⟨hparts.length_eq, fun i h₁ h₂ => ?_⟩
      obtain ⟨hlen, htree⟩ := hparts.get h₁ h₂
      have hi : i < entries inode.blockBuf := by simpa using h₁
      simp only [get_eq_getElem, getElem_range] at hlen htree ⊢
      exact bind_eq_ok.2 ⟨(), require_eq_ok.2 (by omega), parse_index_block_of_tree hlen htree⟩
    have hparsed : parse_depth1 inode.blockBuf (ExtentHeader.read_from inode.blockBuf) bs file =
        .ok (leaves.map ExtentLeaf.range) :=
      bind_eq_ok.2 ⟨_, hranges, by rw [pure_eq_ok, ← map_flatten, hflat]⟩
    simpa [parse_extents, hnode.magic, hdepth] using hparsed
  | depth + 2, h =>
    have hdepth : (ExtentHeader.read_from inode.blockBuf).depth.toNat = depth + 2 := h.1.depth
    have h0 : (ExtentHeader.read_from inode.blockBuf).depth ≠ 0 := fun h0 => by simp [h0] at hdepth
    have h1 : (ExtentHeader.read_from inode.blockBuf).depth ≠ 1 := fun h1 => by simp [h1] at hdepth
    simp [parse_extents, h.1.magic, h0, h1]

end Tree

/-! ## The content of a file -/

namespace ExtentLeaf

/-- A length above the largest one marks an extent that is allocated and not written. -/
def written (l : ExtentLeaf) : Bool := l.len.toNat ≤ MAX_BLOCKS_PER_EXTENT

def blocks (l : ExtentLeaf) : Nat := if l.written then l.len.toNat else l.len.toNat - MAX_BLOCKS_PER_EXTENT

def start (l : ExtentLeaf) : Nat := l.start_lo.toNat + l.start_hi.toNat * 2 ^ 32

def next (l : ExtentLeaf) : Nat := l.block.toNat + l.blocks

def covers (l : ExtentLeaf) (block : Nat) : Bool := l.block.toNat ≤ block && block < l.next

theorem covers_iff {l : ExtentLeaf} {block : Nat} : l.covers block ↔ l.block.toNat ≤ block ∧ block < l.next := by
  simp [covers]

theorem next_of_written {l : ExtentLeaf} (h : l.written) : l.next = l.block.toNat + l.len.toNat := by
  simp [next, blocks, h]

end ExtentLeaf

/-- Where the byte at position `p` of the file is in the image; nothing in a hole or in an unwritten extent. -/
def locate (bs : Nat) (leaves : List ExtentLeaf) (p : Nat) : Option Nat :=
  ((leaves.find? (·.covers (p / bs))).filter (·.written)).map fun l =>
    (l.start + (p / bs - l.block.toNat)) * bs + p % bs

def content (bs : Nat) (file : File) (leaves : List ExtentLeaf) (p : Nat) : UInt8 :=
  match locate bs leaves p with
  | some q => file.bytes q
  | none => 0

def Ordered (leaves : List ExtentLeaf) : Prop := leaves.Pairwise fun a b => a.next ≤ b.block.toNat

/-- The image holds the inode's extent tree and the blocks of the written extents. -/
structure Stores (bs : Nat) (inode : Inode) (depth : Nat) (leaves : List ExtentLeaf) (file : File) : Prop where
  tree : HasLeaves bs file depth INODE_BLOCK_SIZE inode.blockBuf leaves
  data : ∀ l ∈ leaves, l.written → (l.start + l.blocks) * bs ≤ file.len

/-- The length fields of the extents `before`: where the loop puts the extent behind them. -/
def laid (before : List ExtentLeaf) : Nat := (before.map fun l => l.len.toNat).sum

/-- Laid end to end, the extents have the block where it is: in a written extent whose number fits 32 bits and whose
first block is the sum of the length fields before it. -/
def InStep (leaves : List ExtentLeaf) (block : Nat) : Prop :=
  ∃ before l after, leaves = before ++ l :: after ∧ l.covers block ∧ l.written ∧ l.start_hi = 0 ∧
    laid before = l.block.toNat

/-- What `read_file` takes for granted in a request of `count` bytes from `start` on. The ends of the extents are added
up in 32 bits. -/
structure Readable (bs depth : Nat) (leaves : List ExtentLeaf) (start count : Nat) : Prop where
  shallow : depth ≤ 1
  narrow : ∀ l ∈ leaves, l.start_lo.toNat + l.len.toNat < 2 ^ 32
  in_step : ∀ p, start ≤ p → p < start + count → InStep leaves (p / bs)

section Laid

variable {bs : Nat} {l : ExtentLeaf} {leaves before after : List ExtentLeaf} {p q : Nat}

theorem laid_cons (bs : Nat) (l : ExtentLeaf) (leaves : List ExtentLeaf) :
    laid (l :: leaves) * bs = l.len.toNat * bs + laid leaves * bs := by
  simp [laid, Nat.add_mul]

theorem length_stream (bs : Nat) (leaves : List ExtentLeaf) :
    (stream bs (leaves.map ExtentLeaf.range)).length = laid leaves * bs := by
  induction leaves with
  | nil => simp [stream, laid]
  | cons l leaves ih =>
    rw [stream, map_cons, flatMap_cons, length_append, length_range', laid_cons]
    rw [stream] at ih
    rw [ih]
    simp [ExtentLeaf.range, BlockRange.size]

theorem stream_at {k : Nat} (hk : k < l.len.toNat * bs) :
    (stream bs ((before ++ l :: after).map ExtentLeaf.range))[laid before * bs + k]? = some (l.start_lo.toNat * bs + k) := by
  have hsplit : stream bs ((before ++ l :: after).map ExtentLeaf.range) =
      stream bs (before.map ExtentLeaf.range) ++ (List.range' (l.start_lo.toNat * bs) (l.len.toNat * bs) ++
        stream bs (after.map ExtentLeaf.range)) := by
    simp [stream, ExtentLeaf.range, BlockRange.size]
  rw [hsplit, getElem?_append_right (by rw [length_stream]; omega), length_stream, Nat.add_sub_cancel_left,
    getElem?_append_left (by simpa using hk)]
  simp [hk]

/-- Every place of the stream is in some extent. -/
theorem split_of_stream (h : (stream bs (leaves.map ExtentLeaf.range))[p]? = some q) :
    ∃ before l after k, leaves = before ++ l :: after ∧ k < l.len.toNat * bs ∧ p = laid before * bs + k ∧
      q = l.start_lo.toNat * bs + k := by
  induction leaves generalizing p with
  | nil => simp [stream] at h
  | cons l leaves ih =>
    rcases Nat.lt_or_ge p (l.len.toNat * bs) with hin | hbehind
    · have hat := @stream_at bs l [] leaves p hin
      simp only [nil_append, laid, map_nil, sum_nil, Nat.zero_mul, Nat.zero_add] at hat
      exact ⟨[], l, leaves, p, rfl, hin, by simp [laid], Option.some.inj (h.symm.trans hat)⟩
    · have hcons : stream bs ((l :: leaves).map ExtentLeaf.range) =
          List.range' (l.start_lo.toNat * bs) (l.len.toNat * bs) ++ stream bs (leaves.map ExtentLeaf.range) := by
        simp [stream, ExtentLeaf.range, BlockRange.size]
      rw [hcons, getElem?_append_right (by simpa using hbehind), length_range'] at h
      obtain ⟨before, m, after, k, rfl, hk, hp, rfl⟩ := ih h
      refine ⟨l :: before, m, after, k, rfl, hk, ?_, rfl⟩
      rw [laid_cons]
      omega

theorem locate_eq_some (h : locate bs leaves p = some q) :
    ∃ l ∈ leaves, l.covers (p / bs) ∧ l.written ∧ (l.start + (p / bs - l.block.toNat)) * bs + p % bs = q := by
  obtain ⟨l, hfound, heq⟩ := Option.map_eq_some_iff.1 h
  obtain ⟨hfind, hwritten⟩ := Option.filter_eq_some_iff.1 hfound
  exact ⟨l, mem_of_find?_eq_some hfind, by simpa using find?_some hfind, hwritten, heq⟩

/-- The position behind the start of a covering extent. -/
theorem sub_of_covers (hcovers : l.covers (p / bs)) :
    (p / bs - l.block.toNat) * bs + p % bs = p - l.block.toNat * bs ∧ l.block.toNat * bs ≤ p := by
  have hle := (ExtentLeaf.covers_iff.1 hcovers).1
  have hmul := Nat.mul_le_mul_right bs hle
  have hp := Nat.div_add_mod' p bs
  rw [Nat.sub_mul]
  omega

theorem offset_lt (hbs : 0 < bs) (hcovers : l.covers (p / bs)) (hwritten : l.written) :
    p - l.block.toNat * bs < l.len.toNat * bs := by
  have hlt := (ExtentLeaf.covers_iff.1 hcovers).2
  rw [ExtentLeaf.next_of_written hwritten] at hlt
  have hp := Nat.div_add_mod' p bs
  have hmod := Nat.mod_lt p hbs
  have hle : (p / bs + 1) * bs ≤ (l.block.toNat + l.len.toNat) * bs := Nat.mul_le_mul_right bs hlt
  rw [Nat.add_mul, Nat.one_mul, Nat.add_mul] at hle
  have := (sub_of_covers hcovers).2
  omega

/-- In step, the stream has the byte where the file has it. -/
theorem InStep.stream_eq (hbs : 0 < bs) (hordered : Ordered leaves) (h : InStep leaves (p / bs)) :
    ∃ q, (stream bs (leaves.map ExtentLeaf.range))[p]? = some q ∧ locate bs leaves p = some q := by
  obtain ⟨before, l, after, rfl, hcovers, hwritten, hhi, hlaid⟩ := h
  obtain ⟨hsub, hle⟩ := sub_of_covers hcovers
  have hfind : (before ++ l :: after).find? (·.covers (p / bs)) = some l := by
    have hnone : before.find? (·.covers (p / bs)) = none := by
      rw [find?_eq_none]
      intro e he hcov
      have hbefore := (pairwise_append.1 hordered).2.2 e he l mem_cons_self
      rw [ExtentLeaf.covers_iff] at hcov hcovers
      omega
    rw [find?_append, hnone, Option.none_or, find?_cons, hcovers]
  refine ⟨l.start_lo.toNat * bs + (p - l.block.toNat * bs), ?_, ?_⟩
  · have hat := @stream_at bs l before after _ (offset_lt hbs hcovers hwritten)
    rwa [hlaid, Nat.add_sub_cancel' hle] at hat
  · have hstart : l.start = l.start_lo.toNat := by simp [ExtentLeaf.start, hhi]
    rw [locate, hfind, Option.filter_some, if_pos hwritten, Option.map_some, hstart, Nat.add_mul, Nat.add_assoc, hsub]

/-- Two extents that take up the same place when they are laid end to end are one. -/
theorem laid_unique {before' after' : List ExtentLeaf} {l' : ExtentLeaf} (h : before ++ l :: after = before' ++ l' :: after')
    (hp : laid before * bs ≤ p) (hlt : p < laid before * bs + l.len.toNat * bs) (hp' : laid before' * bs ≤ p)
    (hlt' : p < laid before' * bs + l'.len.toNat * bs) : l = l' := by
  induction before generalizing before' p with
  | nil =>
    cases before' with
    | nil => exact (cons.inj h).1
    | cons m before' =>
      obtain ⟨rfl, -⟩ := cons.inj h
      rw [laid_cons] at hp'
      simp only [laid, map_nil, sum_nil] at hlt
      omega
  | cons m before ih =>
    cases before' with
    | nil =>
      obtain ⟨rfl, -⟩ := cons.inj h
      rw [laid_cons] at hp
      simp only [laid, map_nil, sum_nil] at hlt'
      omega
    | cons m' before' =>
      obtain ⟨rfl, hrest⟩ := cons.inj h
      rw [laid_cons] at hp hlt hp' hlt'
      exact ih hrest (p := p - m.len.toNat * bs) (by omega) (by omega) (by omega) (by omega)

end Laid

/-! ## Positional reads -/

section Read

variable {bs : Nat} {inode : Inode} {depth : Nat} {leaves : List ExtentLeaf} {file : File} {start count : Nat}

/-- The extents that serve the request are inside the image. -/
theorem Readable.fits (hbs : 0 < bs) (h : Readable bs depth leaves start count) (hstores : Stores bs inode depth leaves file) :
    Fits bs file start count 0 (leaves.map ExtentLeaf.range) := by
  have hgo : ∀ after before, leaves = before ++ after →
      Fits bs file start count (laid before * bs) (after.map ExtentLeaf.range) := by
    intro after
    induction after with
    | nil => exact fun _ _ => trivial
    | cons l after ih =>
      intro before hleaves
      have hsize : l.range.size = l.len.toNat := by simp [ExtentLeaf.range, BlockRange.size]
      have hlaid : laid before * bs + l.range.size * bs = laid (before ++ [l]) * bs := by simp [laid, hsize, Nat.add_mul]
      refine ⟨fun hmeets => ?_, ?_⟩
      · -- some position of the request is in this extent, so it is the one that is in step there
        rw [hsize] at hmeets ⊢
        obtain ⟨before', l', after', hleaves', hcovers, hwritten, hhi, hlaid'⟩ :=
          h.in_step (max start (laid before * bs)) (by omega) (by omega)
        have hoff := offset_lt hbs hcovers hwritten
        have hle := (sub_of_covers hcovers).2
        obtain rfl : l = l' := by
          refine laid_unique (hleaves.symm.trans hleaves') (Nat.le_max_right start (laid before * bs)) ?_ ?_ ?_
          · omega
          · rwa [hlaid']
          · rw [hlaid']
            omega
        have hdata := hstores.data l (by rw [hleaves]; simp) hwritten
        simpa [ExtentLeaf.start, hhi, ExtentLeaf.blocks, hwritten, ExtentLeaf.range] using hdata
      · rw [hlaid]
        exact ih _ (by simp [hleaves])
  simpa [laid] using hgo leaves [] rfl

theorem read_file_eq (hreg : inode.is_dir = false ∧ inode.is_reg = true) (path : Str) (offset : Nat) (count : Option Nat)
    (hpos : 0 < want inode.file_size offset count) (hstores : Stores bs inode depth leaves file) (hdepth : depth ≤ 1)
    (hfits : Fits bs file (min offset inode.file_size) (want inode.file_size offset count) 0 (leaves.map ExtentLeaf.range)) :
    read_file bs file path inode offset count =
      .ok ((((stream bs (leaves.map ExtentLeaf.range)).map file.bytes).drop (min offset inode.file_size)).take
        (want inode.file_size offset count)) := by
  have hparsed := parse_extents_of_tree hstores.tree
  rw [if_pos hdepth] at hparsed
  simp only [read_file, hreg.1, hreg.2, Bool.false_eq_true, if_false, Bool.not_true, if_neg (Nat.ne_of_gt hpos), hparsed]
  rw [read_from_extents_eq hpos hfits]

/-- The fields `parse_extents` reads name no block twice, and none of the index blocks. -/
structure Separate (inode : Inode) (depth : Nat) (leaves : List ExtentLeaf) : Prop where
  narrow : ∀ l ∈ leaves, l.start_lo.toNat + l.len.toNat < 2 ^ 32
  apart : leaves.Pairwise fun a b => Apart (a.start_lo.toNat, a.len.toNat) (b.start_lo.toNat, b.len.toNat)
  tree : depth = 1 → ∀ index ∈ node_indices inode.blockBuf (entries inode.blockBuf), ∀ l ∈ leaves,
    Apart (index.leaf, 1) (l.start_lo.toNat, l.len.toNat)

theorem HasLeaves.congr {size : Nat} {node node' : Buf} (h : HasLeaves bs file 0 size node leaves) (g : File)
    (hagree : ∀ i < size, node' i = node i) : HasLeaves bs g 0 size node' leaves := by
  obtain ⟨⟨hmagic, hdepth, hroom⟩, hleaves⟩ := h
  have hheader : ExtentHeader.read_from node' = ExtentHeader.read_from node :=
    ExtentHeader.read_congr fun i hi => hagree i (by omega)
  refine ⟨⟨hheader ▸ hmagic, hheader ▸ hdepth, by rwa [entries, hheader]⟩, ?_⟩
  rw [← hleaves, entries, hheader]
  refine map_congr_left fun i hi => ExtentLeaf.read_congr fun k hk => hagree _ ?_
  have hi : i < entries node := mem_range.1 hi
  omega

/-- Another image with the same index blocks stores the same file. -/
theorem Stores.of_agree (h : Stores bs inode depth leaves file) (hdepth : depth ≤ 1) {g : File} (hlen : file.len ≤ g.len)
    (hagree : depth = 1 → ∀ index ∈ node_indices inode.blockBuf (entries inode.blockBuf), ∀ i < bs,
      g.bytes (index.leaf * bs + i) = file.bytes (index.leaf * bs + i)) : Stores bs inode depth leaves g := by
  refine ⟨?_, fun l hl hw => Nat.le_trans (h.data l hl hw) hlen⟩
  have htree := h.tree
  match depth, htree with
  | 0, htree => exact htree.congr g fun _ _ => rfl
  | 1, ⟨hnode, parts, hflat, hparts⟩ =>
    refine ⟨hnode, parts, hflat, forall₂_iff_get.2 ⟨hparts.length_eq, fun i h₁ h₂ => ?_⟩⟩
    obtain ⟨hin, hpart⟩ := hparts.get h₁ h₂
    exact ⟨Nat.le_trans hin hlen, hpart.congr g fun k hk => hagree rfl _ (get_mem _ _) k hk⟩

/-- A byte changed, in an image of at least `n` bytes. -/
def File.poke (file : File) (n q : Nat) (v : UInt8) : File := (file.setLen (max file.len n)).write q ⟨1, fun _ => v⟩

theorem File.poke_bytes (file : File) (n q : Nat) (v : UInt8) (i : Nat) :
    (File.poke file n q v).bytes i = if i = q then v else file.bytes i := by
  rw [File.poke, File.write_bytes, File.setLen_bytes_of_le (Nat.le_max_left _ _)]
  split
  · next h => exact h ▸ copyAt_inside (i := 0) Nat.one_pos
  · exact copyAt_outside (by simp only; omega)

theorem File.poke_len (file : File) (n q : Nat) (v : UInt8) : file.len ≤ (File.poke file n q v).len ∧
    n ≤ (File.poke file n q v).len := by
  have h := File.le_len_write (file.setLen (max file.len n)) q ⟨1, fun _ => v⟩
  have hset : (file.setLen (max file.len n)).len = max file.len n := rfl
  rw [hset] at h
  exact ⟨Nat.le_trans (Nat.le_max_left _ _) h, Nat.le_trans (Nat.le_max_right _ _) h⟩

theorem fits_of_narrow (h : ∀ l ∈ leaves, l.start_lo.toNat + l.len.toNat < 2 ^ 32) (hlen : 2 ^ 32 * bs ≤ file.len)
    (start count logical_offset : Nat) : Fits bs file start count logical_offset (leaves.map ExtentLeaf.range) := by
  induction leaves generalizing logical_offset with
  | nil => trivial
  | cons l leaves ih =>
    obtain ⟨hl, h⟩ := forall_mem_cons.1 h
    refine ⟨fun _ => Nat.le_trans (Nat.mul_le_mul_right bs ?_) hlen, ih h _⟩
    simp only [ExtentLeaf.range, BlockRange.size]
    omega

/-- The place is in one of the blocks that the fields of `l` name. -/
def Holds (bs : Nat) (l : ExtentLeaf) (q : Nat) : Prop :=
  l.start_lo.toNat ≤ q / bs ∧ q / bs < l.start_lo.toNat + l.len.toNat

theorem holds_of_offset {l : ExtentLeaf} {k : Nat} (hbs : 0 < bs) (hk : k < l.len.toNat * bs) :
    Holds bs l (l.start_lo.toNat * bs + k) := by
  unfold Holds
  rw [Nat.le_div_iff_mul_le hbs, Nat.div_lt_iff_lt_mul hbs, Nat.add_mul]
  omega

theorem Separate.eq_of_holds {l m : ExtentLeaf} {q : Nat} (h : Separate inode depth leaves) (hl : l ∈ leaves)
    (hm : m ∈ leaves) (hlq : Holds bs l q) (hmq : Holds bs m q) : l = m := by
  by_contra hne
  have : Std.Symm fun a b : ExtentLeaf => Apart (a.start_lo.toNat, a.len.toNat) (b.start_lo.toNat, b.len.toNat) :=
    ⟨fun _ _ => Or.symm⟩
  have happart := h.apart.forall hl hm hne
  simp only [Apart, Holds] at happart hlq hmq
  omega

/-- A byte of the extents is none of the index blocks'. -/
theorem Separate.not_index {m : ExtentLeaf} {q i : Nat} (hbs : 0 < bs) (h : Separate inode depth leaves) (hm : m ∈ leaves)
    (hq : Holds bs m q) (h1 : depth = 1) {index : ExtentIndex}
    (hindex : index ∈ node_indices inode.blockBuf (entries inode.blockBuf)) (hi : i < bs) : index.leaf * bs + i ≠ q := by
  intro heq
  have hblock : q / bs = index.leaf := by
    rw [← heq, Nat.add_comm, Nat.add_mul_div_right _ _ hbs, Nat.div_eq_of_lt hi, Nat.zero_add]
  have happart := h.tree h1 index hindex m hm
  simp only [Apart, Holds] at happart hq
  omega

/-- A place within the first `2 ^ 32` blocks has a block number without an upper part. -/
theorem start_hi_eq_zero {l : ExtentLeaf} {q k : Nat} (hbs : 0 < bs) (hlow : q / bs < 2 ^ 32)
    (h : (l.start + k) * bs ≤ q) : l.start_hi = 0 := by
  by_contra hhi
  have hpos : 1 ≤ l.start_hi.toNat := Nat.one_le_iff_ne_zero.2 fun h0 => hhi (UInt16.toNat_inj.1 h0)
  have hhigh := (Nat.le_div_iff_mul_le hbs).2 h
  simp only [ExtentLeaf.start] at hhigh
  omega

/-- A read that is right whatever the blocks hold is in step. -/
theorem inStep_of_bytes (hbs : 0 < bs) (hsep : Separate inode depth leaves) (hdepth : depth ≤ 1)
    (hstores : Stores bs inode depth leaves file) {p : Nat}
    (hat : ∀ g, Stores bs inode depth leaves g → 2 ^ 32 * bs ≤ g.len →
      ((stream bs (leaves.map ExtentLeaf.range))[p]?).map g.bytes = some (content bs g leaves p)) :
    InStep leaves (p / bs) := by
  -- any byte outside the index blocks can be changed
  have hpoke : ∀ q v, (depth = 1 → ∀ index ∈ node_indices inode.blockBuf (entries inode.blockBuf), ∀ i < bs,
      index.leaf * bs + i = q → v = file.bytes q) →
      ((stream bs (leaves.map ExtentLeaf.range))[p]?).map (File.poke file (2 ^ 32 * bs) q v).bytes =
        some (content bs (File.poke file (2 ^ 32 * bs) q v) leaves p) := by
    intro q v hfree
    obtain ⟨hlen, hn⟩ := File.poke_len file (2 ^ 32 * bs) q v
    refine hat _ (hstores.of_agree hdepth hlen fun h1 index hindex i hi => ?_) hn
    rw [File.poke_bytes]
    split
    · next hq => rw [hfree h1 index hindex i hi hq, hq]
    · rfl
  cases hq : (stream bs (leaves.map ExtentLeaf.range))[p]? with
  | none =>
    have := hpoke 0 (file.bytes 0) fun _ _ _ _ _ _ => rfl
    simp [hq] at this
  | some q =>
    obtain ⟨before, m, after, k, hleaves, hk, hp, hplace⟩ := split_of_stream hq
    have hm : m ∈ leaves := by simp [hleaves]
    have hmq : Holds bs m q := hplace ▸ holds_of_offset hbs hk
    have hchange : ∀ v, v = content bs (File.poke file (2 ^ 32 * bs) q v) leaves p := by
      intro v
      have := hpoke q v fun h1 _ hindex _ hi heq => absurd heq (hsep.not_index hbs hm hmq h1 hindex hi)
      rw [hq, Option.map_some, File.poke_bytes, if_pos rfl] at this
      exact Option.some.inj this
    cases hl : locate bs leaves p with
    | none => simpa [content, hl] using hchange 1
    | some q' =>
      obtain rfl : q' = q := by
        by_contra hne
        have := hchange (file.bytes q' + 1)
        simp [content, hl, File.poke_bytes, hne] at this
      obtain ⟨l, hl, hcovers, hwritten, hlocated⟩ := locate_eq_some hl
      have hsub := sub_of_covers hcovers
      have hhi : l.start_hi = 0 :=
        start_hi_eq_zero hbs (Nat.lt_trans hmq.2 (hsep.narrow m hm)) (hlocated ▸ Nat.le_add_right _ _)
      have hstart : l.start = l.start_lo.toNat := by simp [ExtentLeaf.start, hhi]
      rw [hstart, Nat.add_mul, Nat.add_assoc, hsub.1] at hlocated
      obtain rfl : l = m :=
        hsep.eq_of_holds hl hm (hlocated ▸ holds_of_offset hbs (offset_lt hbs hcovers hwritten)) hmq
      refine ⟨before, l, after, hleaves, hcovers, hwritten, hhi, ?_⟩
      exact Nat.eq_of_mul_eq_mul_right hbs (by omega)

end Read

/-- Nothing is to be read, or the request is readable. -/
def Served (bs : Nat) (inode : Inode) (depth : Nat) (leaves : List ExtentLeaf) (offset : Nat) (count : Option Nat) : Prop :=
  want inode.file_size offset count = 0 ∨
    Readable bs depth leaves (min offset inode.file_size) (want inode.file_size offset count)

/-- `read_file` returns the bytes of the file. -/
def ReadsContent (bs : Nat) (inode : Inode) (leaves : List ExtentLeaf) (path : Str) (offset : Nat) (count : Option Nat)
    (file : File) : Prop :=
  read_file bs file path inode offset count =
    .ok ((List.range' (min offset inode.file_size) (want inode.file_size offset count)).map (content bs file leaves))

section Served

variable {bs : Nat} (hbs : 0 < bs) {inode : Inode} (hreg : inode.is_dir = false ∧ inode.is_reg = true) {depth : Nat}
  {leaves : List ExtentLeaf} {path : Str} {offset : Nat} {count : Option Nat} {file : File}

include hbs hreg

theorem Served.readsContent (hordered : Ordered leaves) (h : Served bs inode depth leaves offset count)
    (hstores : Stores bs inode depth leaves file) : ReadsContent bs inode leaves path offset count file := by
  rcases Nat.eq_zero_or_pos (want inode.file_size offset count) with h0 | hpos
  · simp [ReadsContent, read_file, hreg, h0]
  · have h := h.resolve_left (by omega)
    refine (read_file_eq hreg path offset count hpos hstores h.shallow (h.fits hbs hstores)).trans (congrArg _ ?_)
    generalize want inode.file_size offset count = wanted at *
    apply ext_getElem?
    intro i
    rcases Nat.lt_or_ge i wanted with hi | hi
    · obtain ⟨q, hstream, hlocate⟩ :=
        (h.in_step (min offset inode.file_size + i) (by omega) (by omega)).stream_eq hbs hordered
      rw [getElem?_take_of_lt hi, getElem?_drop, getElem?_map, hstream]
      simp [hi, content, hlocate]
    · rw [getElem?_eq_none (by simp; omega), getElem?_eq_none (by simpa using hi)]

theorem served_of_readsContent (hsep : Separate inode depth leaves) (hstores : Stores bs inode depth leaves file)
    (h : ∀ g, Stores bs inode depth leaves g → ReadsContent bs inode leaves path offset count g) :
    Served bs inode depth leaves offset count := by
  rcases Nat.eq_zero_or_pos (want inode.file_size offset count) with h0 | hpos
  · exact .inl h0
  have hdepth : depth ≤ 1 := by
    by_contra hdeep
    have hparsed := parse_extents_of_tree hstores.tree
    rw [if_neg hdeep] at hparsed
    have hread := h file hstores
    simp [ReadsContent, read_file, hreg, Nat.ne_of_gt hpos, hparsed] at hread
  refine .inr ⟨hdepth, hsep.narrow, fun p hle hlt => inStep_of_bytes hbs hsep hdepth hstores fun g hg hlen => ?_⟩
  have hread := read_file_eq hreg path offset count hpos hg hdepth (fits_of_narrow hsep.narrow hlen _ _ _)
  have heq := Except.ok.inj (hread.symm.trans (h g hg))
  generalize want inode.file_size offset count = wanted at *
  have hi : p - min offset inode.file_size < wanted := by omega
  have heq := congrArg (·[p - min offset inode.file_size]?) heq
  simp only [getElem?_take_of_lt hi, getElem?_drop, getElem?_map, getElem?_range' hi, Nat.one_mul, Option.map_some] at heq
  rwa [Nat.add_sub_cancel' hle] at heq

end Served

/-- `read_file` returns the bytes of the file when nothing is to be read or the request is readable; and when no block
has two uses, only then does it do so whatever the blocks hold. -/
theorem positional_read_iff {bs : Nat} (hbs : 0 < bs) {inode : Inode}
    (hreg : inode.is_dir = false ∧ inode.is_reg = true) {depth : Nat} {leaves : List ExtentLeaf} (hordered : Ordered leaves)
    (path : Str) (offset : Nat) (count : Option Nat) :
    (Served bs inode depth leaves offset count →
      ∀ file, Stores bs inode depth leaves file → ReadsContent bs inode leaves path offset count file) ∧
    (Separate inode depth leaves → (∃ file, Stores bs inode depth leaves file) →
      (∀ file, Stores bs inode depth leaves file → ReadsContent bs inode leaves path offset count file) →
      Served bs inode depth leaves offset count) :=
  ⟨fun h _ hstores => h.readsContent hbs hreg hordered hstores,
    fun hsep ⟨_, hstores⟩ h => served_of_readsContent hbs hreg hsep hstores h⟩

theorem hasLeaves_inline (bs : Nat) (file : File) (inode : Inode) (data_blocks : Nat) {leaves : List ExtentLeaf}
    (hfew : leaves.length ≤ 4) :
    HasLeaves bs file 0 INODE_BLOCK_SIZE (write_inline_extents inode data_blocks leaves).blockBuf leaves := by
  have hroom : INODE_BLOCK_SIZE = 60 := rfl
  have hnode := @blockBuf_eq (write_inline_extents inode data_blocks leaves) _ rfl
  have hheader := node_header_of_agree (leaf_sizes _) (by omega) hnode
  have hentries : (UInt16.ofNat leaves.length).toNat = leaves.length := by
    rw [UInt16.toNat_ofNat']
    omega
  refine ⟨⟨by rw [hheader], by rw [hheader]; rfl, by rw [entries, hheader, hentries]; omega⟩, ?_⟩
  rw [entries, hheader, hentries]
  exact node_leaves_node (by omega) hnode

/-- A file of two blocks by its size, with one extent of one block from block `block` of the file on. -/
def one_block (block : UInt32) : ExtentLeaf := { block, len := 1, start_lo := 5 }

def two_blocks (block : UInt32) : Inode :=
  write_inline_extents { mode := file_mode.S_IFREG ||| 0o644, size_lo := 8192 } 1 [one_block block]

theorem two_blocks_reg (block : UInt32) : (two_blocks block).is_dir = false ∧ (two_blocks block).is_reg = true := by
  change is_dir (file_mode.S_IFREG ||| 0o644) = false ∧ is_reg (file_mode.S_IFREG ||| 0o644) = true
  decide

theorem two_blocks_size (block : UInt32) : (two_blocks block).file_size = 8192 := by
  change (8192 : UInt32).toNat + (0 : UInt32).toNat * 2 ^ 32 = 8192
  decide

def marked (q : Nat) : File :=
  ⟨fun i => if i = q ∧ i < 24576 then 1 else 0, 24576, fun i hi => if_neg fun h => absurd h.2 (by omega)⟩

theorem two_blocks_stored (block : UInt32) (q : Nat) :
    Stores 4096 (two_blocks block) 0 [one_block block] (marked q) :=
  ⟨hasLeaves_inline _ _ _ _ (Nat.le_succ_of_le (by simp)), by
    simp [one_block, ExtentLeaf.start, ExtentLeaf.blocks, ExtentLeaf.written, MAX_BLOCKS_PER_EXTENT, marked]⟩

theorem two_blocks_separate (block : UInt32) : Separate (two_blocks block) 0 [one_block block] :=
  ⟨by simp [one_block], pairwise_singleton _ _, by simp⟩

/-- With the extent in its place the first block is read; behind a hole it is not read in every image. -/
theorem read_in_first_block :
    ReadsContent 4096 (two_blocks 0) [one_block 0] "/f".toList 5 (some 10) (marked 20485) ∧
      ¬ ∀ file, Stores 4096 (two_blocks 1) 0 [one_block 1] file →
        ReadsContent 4096 (two_blocks 1) [one_block 1] "/f".toList 0 (some 1) file := by
  constructor
  · refine (@positional_read_iff 4096 (by decide) (two_blocks 0) (two_blocks_reg 0) 0 _ (pairwise_singleton _ _) _ _ _).1 (.inr ?_) _
      (two_blocks_stored 0 20485)
    refine ⟨by decide, (two_blocks_separate 0).narrow, fun p _ hlt => ?_⟩
    have hp : p < 15 := by rwa [two_blocks_size] at hlt
    exact ⟨[], _, [], rfl, by rw [Nat.div_eq_of_lt (by omega)]; decide, by decide, rfl, rfl⟩
  · intro h
    have hserved := (@positional_read_iff 4096 (by decide) (two_blocks 1) (two_blocks_reg 1) 0 _ (pairwise_singleton _ _) _ _ _).2
      (two_blocks_separate 1) ⟨_, two_blocks_stored 1 0⟩ h
    obtain ⟨before, l, after, hleaves, hcovers, -⟩ :=
      (hserved.resolve_left (by rw [two_blocks_size]; decide)).in_step 0
        (Nat.min_le_left 0 _) (by rw [two_blocks_size]; decide)
    obtain rfl : l = one_block 1 := mem_singleton.1 (by rw [hleaves]; simp)
    exact absurd hcovers (by decide)

/-- The first block is a hole: a read of its first byte returns the first byte of the second. -/
theorem read_over_hole :
    Stores 4096 (two_blocks 1) 0 [one_block 1] (marked 20480) ∧
      read_file 4096 (marked 20480) "/f".toList (two_blocks 1) 0 (some 1) = .ok [1] ∧
      content 4096 (marked 20480) [one_block 1] 0 = 0 := by
  refine ⟨two_blocks_stored 1 20480, ?_, by decide⟩
  have hfits : Fits 4096 (marked 20480) 0 1 0 [(one_block 1).range] := ⟨fun _ => by decide, trivial⟩
  have hread := @read_file_eq 4096 (two_blocks 1) 0 _ _ (two_blocks_reg 1) "/f".toList 0 (some 1) (by rw [two_blocks_size]; decide)
    (two_blocks_stored 1 20480) (by decide) (by rwa [two_blocks_size])
  have hstream : stream 4096 ([one_block 1].map ExtentLeaf.range) = range' 20480 (4095 + 1) := by
    rw [map_singleton, stream, flatMap_singleton]
    rfl
  rw [hread, hstream, two_blocks_size, range'_succ]
  rfl

end Silo.Ext4
