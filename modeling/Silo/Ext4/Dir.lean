import Silo.Ext4.FileTree
/-!
# Directory blocks

`dir.rs`, the writing half: variable-length records packed into blocks, each block
closed by a record without an inode that takes the rest of it.
-/

namespace Silo.Ext4

open Lib

inductive FileType where
  | Unknown | Regular | Directory | Character | Block | Fifo | Socket | SymbolicLink
deriving DecidableEq, Repr

def FileType.code (t : FileType) : Nat := t.ctorIdx

def FileType.from_mode (mode : UInt16) : FileType :=
  let kind := mode &&& file_mode.TYPE_MASK
  if kind = file_mode.S_IFREG then .Regular
  else if kind = file_mode.S_IFDIR then .Directory
  else if kind = 0x2000 then .Character
  else if kind = 0x6000 then .Block
  else if kind = 0x1000 then .Fifo
  else if kind = 0xC000 then .Socket
  else if kind = file_mode.S_IFLNK then .SymbolicLink
  else .Unknown

/-- A record of `rec_len` bytes: an 8-byte header, the name, and zeros. -/
def dir_record (inode rec_len file_type : Nat) (name : Str) : Bytes :=
  ⟨rec_len, writeFields (fun _ => 0)
    [.nat 0 4 inode, .nat 4 2 rec_len, .nat 6 1 (as_bytes name).length, .nat 7 1 file_type, ⟨8, .ofList (as_bytes name)⟩]⟩

/-- A directory while it is written: the bytes so far, and how many are left in the current block. -/
structure DirBuf where
  buf : Bytes := .zeros 0
  left : Nat := BLOCK_SIZE

/-- Close the block with a record that takes the rest of it. -/
def finish_dir_entry_block (d : DirBuf) : DirBuf :=
  if d.left = 0 then { d with left := BLOCK_SIZE } else ⟨d.buf.append (dir_record 0 d.left 0 []), BLOCK_SIZE⟩

/-- Append an entry, in the next block when this one has no room for it and for a closing record. -/
def write_dir_entry (d : DirBuf) (name : Str) (inode : Nat) (mode : UInt16) : DirBuf :=
  let entry_size := align_up (8 + (as_bytes name).length) 4
  let d := if d.left < entry_size + 12 then finish_dir_entry_block d else d
  ⟨d.buf.append (dir_record inode entry_size (FileType.from_mode mode).code name), d.left - entry_size⟩

end Silo.Ext4
