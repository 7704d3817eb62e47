import Mathlib.Data.List.Pairwise
import Mathlib.Data.Nat.Basic
import Mathlib.Tactic.Ring
/-!
# Byte buffers and fixed-offset records

A buffer is the function from positions to bytes, so that a four-gigabyte file
costs nothing to state. Numbers are stored little-endian (or big-endian) in a
number of bytes; a record is written as a list of fields, each at its own offset,
and read back field by field: `fields_read` is the round trip, for any layout
whose fields do not overlap.
-/

namespace Silo.Lib

open List Field

abbrev Buf := Nat → UInt8

/-- A buffer of a known size, as a write takes it. -/
structure Bytes where
  size : Nat
  get : Buf

namespace Bytes

def zeros (n : Nat) : Bytes := ⟨n, fun _ => 0⟩

def ofList (l : List UInt8) : Bytes := ⟨l.length, fun i => l.getD i 0⟩

def append (a b : Bytes) : Bytes := ⟨a.size + b.size, fun i => if i < a.size then a.get i else b.get (i - a.size)⟩

def slice (b : Bytes) (off n : Nat) : Bytes := ⟨n, fun i => b.get (off + i)⟩

def ofFn {n : Nat} (f : Fin n → UInt8) : Bytes := ⟨n, fun i => if h : i < n then f ⟨i, h⟩ else 0⟩

def toList (b : Bytes) : List UInt8 := (List.range b.size).map b.get

@[simp] theorem length_toList (b : Bytes) : b.toList.length = b.size := by simp [toList]

theorem toList_congr {a b : Bytes} (hs : a.size = b.size) (h : ∀ i < b.size, a.get i = b.get i) : a.toList = b.toList := by
  rw [toList, toList, hs]
  exact map_congr_left fun i hi => h i (mem_range.1 hi)

@[simp] theorem toList_ofList (l : List UInt8) : (ofList l).toList = l := by
  apply ext_getElem
  · simp [ofList]
  · intro i h₁ h₂
    simp [toList, ofList, getD_eq_getElem?_getD, h₂]

theorem append_get_left {a b : Bytes} {i : Nat} (h : i < a.size) : (a.append b).get i = a.get i := by
  simp [append, h]

theorem append_get_right {a b : Bytes} (i : Nat) : (a.append b).get (a.size + i) = b.get i := by
  simp [append]

end Bytes

def copyAt (buf : Buf) (off : Nat) (src : Bytes) : Buf :=
  fun i => if off ≤ i ∧ i < off + src.size then src.get (i - off) else buf i

variable {buf a b : Buf} {off i : Nat}

theorem copyAt_inside {src : Bytes} (h : i < src.size) : copyAt buf off src (off + i) = src.get i := by
  simp [copyAt, h]

theorem copyAt_outside {src : Bytes} (h : i < off ∨ off + src.size ≤ i) : copyAt buf off src i = buf i := by
  unfold copyAt
  rw [if_neg (by omega)]

/-! ## Numbers -/

/-- The `i`-th byte of `v`, least significant first. -/
def byteOf (v i : Nat) : UInt8 := UInt8.ofNat (v / 256 ^ i)

def leBytes (width v : Nat) : Bytes := ⟨width, byteOf v⟩

def beBytes (width v : Nat) : Bytes := ⟨width, fun i => byteOf v (width - 1 - i)⟩

/-- The little-endian number in `width` bytes from `off` on. -/
def leNat (buf : Buf) : Nat → Nat → Nat
  | _, 0 => 0
  | off, width + 1 => (buf off).toNat + 256 * leNat buf (off + 1) width

def beNat (buf : Buf) : Nat → Nat → Nat
  | _, 0 => 0
  | off, width + 1 => (buf off).toNat * 256 ^ width + beNat buf (off + 1) width

theorem leNat_lt (buf : Buf) (off width : Nat) : leNat buf off width < 256 ^ width := by
  induction width generalizing off with
  | zero => simp [leNat]
  | succ width ih =>
    have hb := (buf off).toNat_lt
    have hr := ih (off + 1)
    rw [leNat, Nat.pow_succ]
    omega

variable {width v : Nat}

theorem leNat_congr {p q : Nat} (h : ∀ i < width, a (p + i) = b (q + i)) :
    leNat a p width = leNat b q width := by
  induction width generalizing p q with
  | zero => rfl
  | succ width ih =>
    have h0 := h 0 (by omega)
    have hrest : leNat a (p + 1) width = leNat b (q + 1) width := by
      apply ih
      intro i hi
      have := h (i + 1) (by omega)
      rwa [show p + (i + 1) = p + 1 + i by omega, show q + (i + 1) = q + 1 + i by omega] at this
    rw [leNat, leNat, hrest, show a p = b q from h0]

theorem byteOf_succ (v i : Nat) : byteOf v (i + 1) = byteOf (v / 256) i := by
  rw [byteOf, byteOf, Nat.pow_succ', Nat.div_div_eq_div_mul]

theorem leNat_byteOf (width v : Nat) : leNat (byteOf v) 0 width = v % 256 ^ width := by
  induction width generalizing v with
  | zero => simp [leNat, Nat.mod_one]
  | succ width ih =>
    have hshift : leNat (byteOf v) (0 + 1) width = leNat (byteOf (v / 256)) 0 width :=
      leNat_congr fun i _ => by rw [Nat.zero_add, Nat.zero_add, Nat.add_comm 1 i, byteOf_succ]
    rw [leNat, hshift, ih, Nat.pow_succ', Nat.mod_mul]
    simp [byteOf]

theorem byteOf_leNat (h : i < width) : byteOf (leNat buf off width) i = buf (off + i) := by
  induction width generalizing off i with
  | zero => omega
  | succ width ih =>
    have hb := (buf off).toNat_lt
    cases i with
    | zero =>
      rw [leNat, byteOf, Nat.pow_zero, Nat.div_one, Nat.add_zero off]
      apply UInt8.toNat_inj.1
      rw [UInt8.toNat_ofNat']
      omega
    | succ i =>
      have hdiv : ((buf off).toNat + 256 * leNat buf (off + 1) width) / 256 = leNat buf (off + 1) width := by omega
      rw [leNat, byteOf_succ, hdiv, ih (by omega), show off + 1 + i = off + (i + 1) by omega]

/-! ## Fields -/

/-- Bytes at a fixed offset of a record. -/
structure Field where
  off : Nat
  src : Bytes

namespace Field

def nat (off width v : Nat) : Field := ⟨off, leBytes width v⟩
def u8 (off : Nat) (v : UInt8) : Field := nat off 1 v.toNat
def u16 (off : Nat) (v : UInt16) : Field := nat off 2 v.toNat
def u32 (off : Nat) (v : UInt32) : Field := nat off 4 v.toNat
def u64 (off : Nat) (v : UInt64) : Field := nat off 8 v.toNat
def bytes (off : Nat) {n : Nat} (v : Fin n → UInt8) : Field := ⟨off, Bytes.ofFn v⟩

/-- An array of numbers, one field for each element. -/
def u32s (off : Nat) {n : Nat} (v : Fin n → UInt32) : List Field := ofFn fun i => u32 (off + i * 4) (v i)

def span (f : Field) : Nat × Nat := (f.off, f.src.size)

section
variable (off : Nat)

@[simp] theorem span_u8 (v : UInt8) : (u8 off v).span = (off, 1) := rfl
@[simp] theorem span_u16 (v : UInt16) : (u16 off v).span = (off, 2) := rfl
@[simp] theorem span_u32 (v : UInt32) : (u32 off v).span = (off, 4) := rfl
@[simp] theorem span_u64 (v : UInt64) : (u64 off v).span = (off, 8) := rfl
@[simp] theorem span_bytes {n : Nat} (v : Fin n → UInt8) : (bytes off v).span = (off, n) := rfl
@[simp] theorem span_u32s {n : Nat} (v : Fin n → UInt32) :
    (u32s off v).map span = ofFn fun i : Fin n => (off + i * 4, 4) := by
  rw [u32s, map_ofFn]
  rfl

end

end Field

/-- One range ends before the other begins. -/
def Apart (a b : Nat × Nat) : Prop := a.1 + a.2 ≤ b.1 ∨ b.1 + b.2 ≤ a.1

instance (a b : Nat × Nat) : Decidable (Apart a b) := inferInstanceAs (Decidable (_ ∨ _))

/-- The ranges follow one another without a gap, from `start` to `stop`. -/
def Tiles (start : Nat) (spans : List (Nat × Nat)) (stop : Nat) : Bool :=
  match spans with
  | [] => start == stop
  | s :: spans => s.1 == start && Tiles (start + s.2) spans stop

variable {start stop : Nat} {spans : List (Nat × Nat)}

section
variable (h : Tiles start spans stop)
include h

theorem Tiles.start_le :
    ∀ s ∈ spans, start ≤ s.1 := by
  induction spans generalizing start with
  | nil => simp
  | cons s spans ih =>
    simp only [Tiles, Bool.and_eq_true, beq_iff_eq] at h
    exact forall_mem_cons.2 ⟨Nat.le_of_eq h.1.symm, fun t ht =>
      Nat.le_trans (Nat.le_add_right _ _) (ih h.2 t ht)⟩

theorem Tiles.start_le_stop : start ≤ stop := by
  induction spans generalizing start with
  | nil => exact Nat.le_of_eq (by simpa [Tiles] using h)
  | cons s spans ih =>
    simp only [Tiles, Bool.and_eq_true] at h
    exact Nat.le_trans (Nat.le_add_right _ _) (ih h.2)

theorem Tiles.le_stop :
    ∀ s ∈ spans, s.1 + s.2 ≤ stop := by
  induction spans generalizing start with
  | nil => simp
  | cons s spans ih =>
    simp only [Tiles, Bool.and_eq_true, beq_iff_eq] at h
    exact forall_mem_cons.2 ⟨h.1 ▸ Tiles.start_le_stop h.2, ih h.2⟩

theorem Tiles.pairwise :
    spans.Pairwise Apart := by
  induction spans generalizing start with
  | nil => exact List.Pairwise.nil
  | cons s spans ih =>
    simp only [Tiles, Bool.and_eq_true, beq_iff_eq] at h
    refine pairwise_cons.2 ⟨?_, ih h.2⟩
    intro t ht
    left
    rw [h.1]
    exact Tiles.start_le h.2 t ht

end

def writeFields (buf : Buf) (fields : List Field) : Buf :=
  fields.foldl (fun buf f => copyAt buf f.off f.src) buf

variable {fields : List Field}

theorem writeFields_outside (h : ∀ f ∈ fields, i < f.off ∨ f.off + f.src.size ≤ i) (buf : Buf)
    : writeFields buf fields i = buf i := by
  induction fields generalizing buf with
  | nil => rfl
  | cons f fields ih =>
    have hrest := ih (fun g hg => h g (mem_cons_of_mem _ hg)) (copyAt buf f.off f.src)
    rw [copyAt_outside (h f mem_cons_self)] at hrest
    exact hrest

/-- In a layout without overlaps every field keeps its own bytes. -/
theorem fields_read (hp : (fields.map Field.span).Pairwise Apart) {f : Field} (hf : f ∈ fields)
    (hi : i < f.src.size) (buf : Buf) : writeFields buf fields (f.off + i) = f.src.get i := by
  induction fields generalizing buf with
  | nil => cases hf
  | cons g fields ih =>
    rw [map_cons, pairwise_cons] at hp
    rcases mem_cons.1 hf with rfl | hf
    · -- the fields after this one are apart from it, so they leave its bytes alone
      have hlater : ∀ g ∈ fields, f.off + i < g.off ∨ g.off + g.src.size ≤ f.off + i := by
        intro g hg
        rcases hp.1 _ (mem_map_of_mem hg) with h | h <;> simp only [Field.span] at h <;> omega
      have := writeFields_outside hlater (copyAt buf f.off f.src)
      rwa [copyAt_inside hi] at this
    · exact ih hp.2 hf _

def getU8 (buf : Buf) (off : Nat) : UInt8 := buf off
def getU16 (buf : Buf) (off : Nat) : UInt16 := UInt16.ofNat (leNat buf off 2)
def getU32 (buf : Buf) (off : Nat) : UInt32 := UInt32.ofNat (leNat buf off 4)
def getU64 (buf : Buf) (off : Nat) : UInt64 := UInt64.ofNat (leNat buf off 8)
def getBytes (n : Nat) (buf : Buf) (off : Nat) : Fin n → UInt8 := fun i => buf (off + i)

theorem getU16_congr (h : ∀ i < off + 2, a i = b i) : getU16 a off = getU16 b off :=
  congrArg UInt16.ofNat (leNat_congr fun i _ => h (off + i) (by omega))

theorem getU32_congr (h : ∀ i < off + 4, a i = b i) : getU32 a off = getU32 b off :=
  congrArg UInt32.ofNat (leNat_congr fun i _ => h (off + i) (by omega))

/-! ## Records -/

def Field.Reads (buf : Buf) (f : Field) : Prop := ∀ i < f.src.size, f.src.get i = buf (f.off + i)

theorem reads_writeFields (hp : (fields.map Field.span).Pairwise Apart) (buf : Buf) :
    ∀ f ∈ fields, f.Reads (writeFields buf fields) := fun _ hf _ hi => (fields_read hp hf hi buf).symm

theorem read_writeFields {α : Type} {read : Buf → α} {a : α}
    (hp : (fields.map Field.span).Pairwise Apart) (h : ∀ buf, (∀ f ∈ fields, f.Reads buf) → read buf = a) :
    read (writeFields (fun _ => 0) fields) = a :=
  h _ (reads_writeFields hp _)

section Reads
variable {buf : Buf} {off : Nat}

theorem Field.Reads.leNat_eq (h : (nat off width v).Reads buf) :
    leNat buf off width = v % 256 ^ width := by
  rw [← leNat_byteOf]
  apply leNat_congr
  intro i hi
  rw [Nat.zero_add]
  exact (h i hi).symm

theorem leNat_writeFields (hp : (fields.map Field.span).Pairwise Apart) (buf : Buf)
    (h : Field.nat off width v ∈ fields) : leNat (writeFields buf fields) off width = v % 256 ^ width :=
  (reads_writeFields hp buf _ h).leNat_eq

theorem Field.reads_nat (buf : Buf) (off width : Nat) : (nat off width (leNat buf off width)).Reads buf :=
  fun _ hi => byteOf_leNat hi

theorem Field.reads_nat_iff (hv : v < 256 ^ width) :
    (nat off width v).Reads buf ↔ leNat buf off width = v := by
  constructor
  · intro h
    rw [h.leNat_eq, Nat.mod_eq_of_lt hv]
  · rintro rfl
    exact reads_nat buf off width

@[simp] theorem Field.reads_u8 {v : UInt8} : (u8 off v).Reads buf ↔ getU8 buf off = v := by
  rw [u8, reads_nat_iff v.toNat_lt, getU8, ← UInt8.toNat_inj]
  rfl

@[simp] theorem Field.reads_u16 {v : UInt16} : (u16 off v).Reads buf ↔ getU16 buf off = v := by
  have hlt : leNat buf off 2 < 2 ^ 16 := leNat_lt buf off 2
  rw [u16, reads_nat_iff v.toNat_lt, getU16, ← UInt16.toNat_inj, UInt16.toNat_ofNat', Nat.mod_eq_of_lt hlt]

@[simp] theorem Field.reads_u32 {v : UInt32} : (u32 off v).Reads buf ↔ getU32 buf off = v := by
  have hlt : leNat buf off 4 < 2 ^ 32 := leNat_lt buf off 4
  rw [u32, reads_nat_iff v.toNat_lt, getU32, ← UInt32.toNat_inj, UInt32.toNat_ofNat', Nat.mod_eq_of_lt hlt]

@[simp] theorem Field.reads_u64 {v : UInt64} : (u64 off v).Reads buf ↔ getU64 buf off = v := by
  have hlt : leNat buf off 8 < 2 ^ 64 := leNat_lt buf off 8
  rw [u64, reads_nat_iff v.toNat_lt, getU64, ← UInt64.toNat_inj, UInt64.toNat_ofNat', Nat.mod_eq_of_lt hlt]

@[simp] theorem Field.reads_bytes {n : Nat} {v : Fin n → UInt8} :
    (bytes off v).Reads buf ↔ getBytes n buf off = v := by
  constructor
  · intro h
    funext i
    simpa [getBytes, bytes, Bytes.ofFn] using (h i i.isLt).symm
  · rintro rfl i hi
    have hlt : i < n := hi
    simp [bytes, Bytes.ofFn, getBytes, hlt]

@[simp] theorem Field.reads_u32s {n : Nat} {v : Fin n → UInt32} :
    (∀ f ∈ u32s off v, f.Reads buf) ↔ (fun i : Fin n => getU32 buf (off + i * 4)) = v := by
  simp [u32s, funext_iff]

end Reads

/-- Fields that tile a record and hold what a buffer has in their places write that buffer again. -/
theorem writeFields_of_reads (ht : Tiles start (fields.map Field.span) stop)
    (hreads : ∀ f ∈ fields, f.Reads buf) (hstart : start ≤ i) (hstop : i < stop) (old : Buf)
    : writeFields old fields i = buf i := by
  have hcovered : ∃ f ∈ fields, f.off ≤ i ∧ i < f.off + f.src.size := by
    clear hreads
    induction fields generalizing start with
    | nil =>
      have : start = stop := by simpa [Tiles] using ht
      omega
    | cons f fields ih =>
      simp only [map_cons, Tiles, Bool.and_eq_true, beq_iff_eq] at ht
      obtain ⟨hoff, hrest⟩ := ht
      simp only [Field.span] at hoff hrest
      rcases Nat.lt_or_ge i (start + f.src.size) with hin | hafter
      · exact ⟨f, mem_cons_self, by omega, by omega⟩
      · obtain ⟨g, hg, hspan⟩ := ih hrest hafter
        exact ⟨g, mem_cons_of_mem _ hg, hspan⟩
  obtain ⟨f, hf, hle, hlt⟩ := hcovered
  obtain ⟨j, rfl⟩ := Nat.exists_eq_add_of_le hle
  rw [fields_read (Tiles.pairwise ht) hf (by omega), hreads f hf j (by omega)]

/-- A record of `size` bytes that loses nothing: decoding and encoding are inverse to each other. -/
structure ByteExact {R : Type} (size : Nat) (read_from : Buf → R) (write_to : R → Bytes) : Prop where
  encode_decode : ∀ buf, (write_to (read_from buf)).toList = (Bytes.mk size buf).toList
  decode_encode : ∀ r, read_from (write_to r).get = r

/-- A record written as fields that tile it and are read from the same places. -/
theorem ByteExact.of_fields {R : Type} {size : Nat} {read_from : Buf → R} {fields : R → List Field}
    (ht : ∀ r, Tiles 0 ((fields r).map Field.span) size)
    (hreads : ∀ buf, ∀ f ∈ fields (read_from buf), f.Reads buf)
    (hback : ∀ r, read_from (writeFields (fun _ => 0) (fields r)) = r) :
    ByteExact size read_from fun r => ⟨size, writeFields (fun _ => 0) (fields r)⟩ where
  encode_decode buf := Bytes.toList_congr rfl fun i hi =>
    writeFields_of_reads (ht (read_from buf)) (hreads buf) (Nat.zero_le i) hi _
  decode_encode := hback

/-! ## Files -/

/-- A file: its length, and its bytes, zero from the length on. -/
structure File where
  bytes : Buf
  len : Nat
  zero_past : ∀ i, len ≤ i → bytes i = 0

namespace File

def empty : File := ⟨fun _ => 0, 0, fun _ _ => rfl⟩

/-- `src` written at `off`; the file grows when it must, and a gap reads as zeros. -/
def write (f : File) (off : Nat) (src : Bytes) : File where
  bytes := copyAt f.bytes off src
  len := if src.size = 0 then f.len else max f.len (off + src.size)
  zero_past i hi := by
    by_cases h0 : src.size = 0
    · rw [if_pos h0] at hi
      rw [copyAt_outside (by omega)]
      exact f.zero_past i hi
    · rw [if_neg h0] at hi
      rw [copyAt_outside (by omega)]
      exact f.zero_past i (by omega)

/-- Cut or extend the file to `n` bytes. -/
def setLen (f : File) (n : Nat) : File where
  bytes i := if i < n then f.bytes i else 0
  len := n
  zero_past i hi := by rw [if_neg (by omega)]

def drop (f : File) (off : Nat) : Buf := fun i => f.bytes (off + i)

def readExact (f : File) (off n : Nat) : Option Buf := if off + n ≤ f.len then some (f.drop off) else none

@[simp] theorem write_bytes (f : File) (off : Nat) (src : Bytes) : (f.write off src).bytes = copyAt f.bytes off src :=
  rfl

theorem setLen_bytes_of_le {f : File} {n : Nat} (h : f.len ≤ n) : (f.setLen n).bytes = f.bytes := by
  funext i
  simp only [setLen]
  split
  · rfl
  · exact (f.zero_past i (by omega)).symm

theorem le_len_write (f : File) (off : Nat) (src : Bytes) : f.len ≤ (f.write off src).len := by
  simp only [write]
  split <;> omega

end File

/-! ## Bitmaps

Bit `n` of a buffer is bit `n % 8` of byte `n / 8`. -/

def setBit (buf : Buf) (bit : Nat) : Buf :=
  fun i => if i = bit / 8 then buf i ||| (1 <<< UInt8.ofNat (bit % 8)) else buf i

def clearBit (buf : Buf) (bit : Nat) : Buf :=
  fun i => if i = bit / 8 then buf i &&& ~~~(1 <<< UInt8.ofNat (bit % 8)) else buf i

def setBits (buf : Buf) (lo hi : Nat) : Buf := (List.range' lo (hi - lo)).foldl setBit buf

def clearBits (buf : Buf) (lo hi : Nat) : Buf := (List.range' lo (hi - lo)).foldl clearBit buf

end Silo.Lib
