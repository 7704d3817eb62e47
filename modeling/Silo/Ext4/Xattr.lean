import Mathlib.Data.List.Sort
import Silo.Ext4.FileTree
/-!
# Extended attributes

`xattr.rs`: attributes go into the inode while they fit and into one extra block
after that. `FormatError` is the formatter's error type (`error.rs`).
-/

namespace Silo.Ext4

open Lib

inductive FormatError where
  | NotDirectory (path : Str)
  | NotFile (path : Str)
  | NotFound (path : Str)
  | UnsupportedFiletype
  | MaximumLinksExceeded (path : Str)
  | FileTooBig (size : Nat)
  | InvalidLink (path : Str)
  | InvalidName (name : Str)
  | InsufficientSpaceForGroupDescriptorBlocks
  | CannotHardlinkDirectory (path : Str)
  | UnsupportedBlockSize (block_size : Nat)
  | InvalidSize (size : Nat) (reason : String)
  | InvalidLabel (label : Str)
  | XattrInsufficientSpace (inode : Nat)
  | MalformedXattrBuffer
  | InvalidPathEncoding (path : Str)
  | Io (message : String)
deriving DecidableEq, Repr

/-- How a call can end without a result: with an error, or not at all (a Rust panic, or a recursion without end). -/
inductive Failure where
  | error (e : FormatError)
  | panic
deriving DecidableEq, Repr

def XATTR_HEADER_MAGIC : Nat := 0xEA020000
def INODE_EXTRA_SIZE : Nat := 96
def XATTR_INODE_HEADER_SIZE : Nat := 4
def XATTR_BLOCK_HEADER_SIZE : Nat := 32

def XATTR_PREFIXES : List (UInt8 × Str) :=
  [(1, "user.".toList), (2, "system.posix_acl_access".toList), (3, "system.posix_acl_default".toList),
    (4, "trusted.".toList), (6, "security.".toList), (7, "system.".toList), (8, "system.richacl".toList)]

structure ExtendedAttribute where
  name : Str
  index : UInt8
  value : List UInt8

namespace ExtendedAttribute

/-- The longest known prefix of the name, and what follows it. -/
def compress_name (name : Str) : UInt8 × Str :=
  let best := XATTR_PREFIXES.foldl (fun (best : UInt8 × Nat) (idx, pre) =>
    if pre.isPrefixOf name ∧ best.2 < pre.length then (idx, pre.length) else best) (0, 0)
  (best.1, name.drop best.2)

def decompress_name (index : UInt8) (suffix : Str) : Str :=
  match XATTR_PREFIXES.find? fun (idx, _) => idx = index with
  | some (_, pre) => pre ++ suffix
  | none => suffix

def new (full_name : Str) (value : List UInt8) : ExtendedAttribute :=
  ⟨(compress_name full_name).2, (compress_name full_name).1, value⟩

def name_len (a : ExtendedAttribute) : Nat := (as_bytes a.name).length

/-! The sizes are computed in `usize` and cut to 32 bits. -/

def entry_size (a : ExtendedAttribute) : Nat := align_up (a.name_len + 16) 4 % 2 ^ 32
def value_size (a : ExtendedAttribute) : Nat := align_up a.value.length 4 % 2 ^ 32
def total_size (a : ExtendedAttribute) : Nat := (a.entry_size + a.value_size) % 2 ^ 32

def hash_step (shift h word : UInt32) : UInt32 := (h <<< shift) ^^^ (h >>> (32 - shift)) ^^^ word

/-- The value's words, the last one filled up with zeros. -/
def value_words (value : List UInt8) : List UInt32 :=
  (List.range ((value.length + 3) / 4)).map fun i => UInt32.ofNat (leNat (Bytes.ofList value).get (i * 4) 4)

def hash (a : ExtendedAttribute) : UInt32 :=
  (value_words a.value).foldl (hash_step 16) ((as_bytes a.name).foldl (fun h b => hash_step 5 h b.toUInt32) 0)

end ExtendedAttribute

structure XattrState where
  (inode_capacity block_capacity : Nat)
  inline_attrs : List ExtendedAttribute := []
  block_attrs : List ExtendedAttribute := []
  used_inline : Nat := XATTR_INODE_HEADER_SIZE
  used_block : Nat := XATTR_BLOCK_HEADER_SIZE
  inode_number : Nat

namespace XattrState

def new (inode inode_capacity block_capacity : Nat) : XattrState :=
  { inode_capacity, block_capacity, inode_number := inode }

def add (s : XattrState) (attr : ExtendedAttribute) : Except Failure XattrState :=
  let total := attr.total_size
  if EXT4_NAME_LEN < attr.name_len then
    .error (.error (.InvalidName (ExtendedAttribute.decompress_name attr.index attr.name)))
  else if (s.used_inline + total + 4) % 2 ^ 32 ≤ s.inode_capacity then
    .ok { s with used_inline := (s.used_inline + total) % 2 ^ 32, inline_attrs := s.inline_attrs ++ [attr] }
  else if (s.used_block + total + 4) % 2 ^ 32 ≤ s.block_capacity then
    .ok { s with used_block := (s.used_block + total) % 2 ^ 32, block_attrs := s.block_attrs ++ [attr] }
  else .error (.error (.XattrInsufficientSpace s.inode_number))

def has_inline (s : XattrState) : Bool := !s.inline_attrs.isEmpty
def has_block (s : XattrState) : Bool := !s.block_attrs.isEmpty

end XattrState

/-- The entry table while it is filled: it grows upwards, the values downwards. -/
structure XattrTable where
  fields : List Field
  (entry_offset value_end : Nat)

/-- Write one entry and its value, the value's offset modulo 2^16. A value that does not fit above the buffer's
start makes the source panic. -/
def write_xattr_entry (capacity value_base : Nat) (hash : ExtendedAttribute → UInt32) (t : XattrTable)
    (attr : ExtendedAttribute) : Except Failure XattrTable := do
  require (align_up attr.value.length 4 ≤ t.value_end) .panic
  let value_end := t.value_end - align_up attr.value.length 4
  require (t.entry_offset + 16 + attr.name_len ≤ capacity) (.error .MalformedXattrBuffer)
  let off := t.entry_offset
  pure {
    fields := t.fields ++
      [.nat off 1 attr.name_len, .nat (off + 1) 1 attr.index.toNat, .nat (off + 2) 2 (2 ^ 16 + value_end - value_base),
       .nat (off + 4) 4 0, .nat (off + 8) 4 attr.value.length, .u32 (off + 12) (hash attr),
       ⟨off + 16, .ofList (as_bytes attr.name)⟩, ⟨value_end, .ofList attr.value⟩]
    entry_offset := off + align_up (16 + attr.name_len) 4
    value_end }

namespace XattrState

def inline_table (s : XattrState) : Except Failure XattrTable := do
  require (4 ≤ s.inode_capacity) .panic
  s.inline_attrs.foldlM (write_xattr_entry s.inode_capacity XATTR_INODE_HEADER_SIZE fun _ => 0)
    ⟨[.nat 0 4 XATTR_HEADER_MAGIC], XATTR_INODE_HEADER_SIZE, s.inode_capacity⟩

def write_inline (s : XattrState) : Except Failure Bytes := do
  let t ← s.inline_table
  pure ⟨s.inode_capacity, writeFields (fun _ => 0) t.fields⟩

/-- The order of the entries of a block: by index, then by length, then by name. -/
def entry_le (a b : ExtendedAttribute) : Prop :=
  a.index < b.index ∨ a.index = b.index ∧
    (a.name_len < b.name_len ∨ a.name_len = b.name_len ∧ as_bytes a.name ≤ as_bytes b.name)

instance (a b : ExtendedAttribute) : Decidable (entry_le a b) := inferInstanceAs (Decidable (_ ∨ _))

def block_table (s : XattrState) : Except Failure XattrTable := do
  require (12 ≤ s.block_capacity) .panic
  (s.block_attrs.insertionSort entry_le).foldlM (write_xattr_entry s.block_capacity 0 ExtendedAttribute.hash)
    ⟨[.nat 0 4 XATTR_HEADER_MAGIC, .nat 4 4 1, .nat 8 4 1], XATTR_BLOCK_HEADER_SIZE, s.block_capacity⟩

def write_block (s : XattrState) : Except Failure Bytes := do
  let t ← s.block_table
  pure ⟨s.block_capacity, writeFields (fun _ => 0) t.fields⟩

end XattrState

end Silo.Ext4
