import Silo.Lib.Run
import Silo.Ext4.Xattr
/-!
# The formatter

`formatter.rs` up to `close`: the builder's state, how blocks are handed out in one
pass through the file, and the calls `create`, `link`, `remove` and
`remove_children`. The block size is 4096, the only one `with_options` accepts.

Block numbers and counts are exact here. In the source they are `u32`; they stay
below `2 ^ 32` while the image has at most 131071 groups, and `current_block` fails
before a position past that is used. The clock is a stream of readings.
-/

namespace Silo.Ext4

open Lib Run

structure FileTimestamps where
  (access_lo access_hi modification_lo modification_hi creation_lo creation_hi now_lo now_hi : UInt32)

/-- The builder: the file with its position, and everything `close` still has to write. -/
structure Formatter where
  file : File
  (pos size : Nat)
  inodes : List Inode
  tree : FileTree
  deleted_blocks : List BlockRange
  /-- The ranges of inodes whose original entry is gone while other links remain. -/
  deferred_blocks : Nat → List BlockRange
  uuid : Nat
  label : Option Str
  /-- The readings of the clock still to come. -/
  clock : Nat → UInt32 × UInt32

abbrev FormatM := Run Failure Formatter

namespace Formatter

def fail {α : Type} (e : FormatError) : FormatM α := Run.fail (.error e)

def timestamp_now : FormatM (UInt32 × UInt32) :=
  fun s => (.ok (s.clock 0), { s with clock := fun n => s.clock (n + 1) })

def inode (s : Formatter) (n : Nat) : Inode := s.inodes.getD (n - 1) {}

def set_inode (s : Formatter) (n : Nat) (i : Inode) : Formatter := { s with inodes := s.inodes.set (n - 1) i }

/-! ## Geometry -/

def block_count (size : Nat) : Nat := ((size - 1) / BLOCK_SIZE + 1) % 2 ^ 32

def group_count (size : Nat) : Nat := (block_count size - 1) / BLOCKS_PER_GROUP + 1

def descriptor_blocks_for_groups (groups : Nat) : Nat := (groups - 1) / (BLOCK_SIZE / 32) + 1

def RESERVED_GDT_MULTIPLIER : Nat := 32

def reserved_gdt_blocks_for_descriptor_blocks (descriptor_blocks : Nat) : Nat :=
  min (descriptor_blocks * (RESERVED_GDT_MULTIPLIER - 1)) (BLOCK_SIZE / 4 - descriptor_blocks)

/-- The descriptor blocks of `groups` groups and the blocks reserved behind them for growth. -/
def group_descriptor_area_blocks_for_groups (groups : Nat) : Nat :=
  descriptor_blocks_for_groups groups + reserved_gdt_blocks_for_descriptor_blocks (descriptor_blocks_for_groups groups)

def group_descriptor_blocks (s : Formatter) : Nat := group_descriptor_area_blocks_for_groups (group_count s.size)

def static_metadata_blocks_in_group_for_area (group gd_area_blocks : Nat) : Nat :=
  if has_sparse_super group then 1 + gd_area_blocks else 0

/-- The end of the static metadata `block` lies in, or `block` itself. -/
def reserved_metadata_end_for_block (s : Formatter) (block : Nat) : Nat :=
  let group := block / BLOCKS_PER_GROUP
  let group_start := group * BLOCKS_PER_GROUP
  let metadata_end := group_start + static_metadata_blocks_in_group_for_area group s.group_descriptor_blocks
  if group_start ≤ block ∧ block < metadata_end then metadata_end else block

/-! ## Position -/

def LIMIT_MESSAGE : String := "filesystem exceeds 32-bit block limit"

def current_block : FormatM Nat := do
  let s ← get
  let block := s.pos / BLOCK_SIZE
  check (block ≤ U32_MAX) (.error (.Io LIMIT_MESSAGE))
  pure block

def seek_to_block (block : Nat) : FormatM Unit := modify fun s => { s with pos := block * BLOCK_SIZE }

def align_to_block : FormatM Unit := do
  let s ← get
  if s.pos % BLOCK_SIZE ≠ 0 then do
    let blk ← current_block
    check (blk + 1 ≤ U32_MAX) (.error (.Io LIMIT_MESSAGE))
    seek_to_block (blk + 1)
  else pure ()

/-- The loop of `skip_reserved_metadata_blocks`; static metadata is shorter than a group, so its second round
finds nothing to skip. -/
def skip_reserved_loop : Nat → FormatM Unit
  | 0 => Run.fail .panic
  | rounds + 1 => do
    let block ← current_block
    let s ← get
    let next := s.reserved_metadata_end_for_block block
    if next = block then pure ()
    else do
      seek_to_block next
      skip_reserved_loop rounds

def skip_reserved_metadata_blocks : FormatM Unit := do
  let s ← get
  if s.pos % BLOCK_SIZE ≠ 0 then pure () else skip_reserved_loop 2

def write_all (bytes : Bytes) : FormatM Unit :=
  modify fun s => { s with file := s.file.write s.pos bytes, pos := s.pos + bytes.size }

/-! ## Handing out blocks -/

/-- Note that `block` belongs to the ranges collected so far. -/
def record_block_range (ranges : List BlockRange) (block : Nat) : List BlockRange :=
  match ranges.getLast? with
  | some last =>
    if last.start ≤ block ∧ block < last.end_ then ranges
    else if last.end_ = block then ranges.dropLast ++ [⟨last.start, last.end_ + 1⟩]
    else ranges ++ [⟨block, block + 1⟩]
  | none => ranges ++ [⟨block, block + 1⟩]

/-- One round of `write_payload_bytes`: the bytes from `offset` that fit the current block. -/
def write_payload_chunk (bytes : Bytes) (offset : Nat) (ranges : List BlockRange) : FormatM (Nat × List BlockRange) := do
  skip_reserved_metadata_blocks
  let block ← current_block
  let s ← get
  let writable := min (BLOCK_SIZE - s.pos % BLOCK_SIZE) (bytes.size - offset)
  write_all (bytes.slice offset writable)
  modify fun s => { s with size := max s.size s.pos }
  pure (offset + writable, record_block_range ranges block)

/-- `write_payload_bytes` from `offset` on; every round writes at least one byte. -/
def write_payload_from : Nat → Bytes → Nat → List BlockRange → FormatM (List BlockRange)
  | 0, _, _, ranges => pure ranges
  | rounds + 1, bytes, offset, ranges =>
    if offset < bytes.size then do
      let (offset, ranges) ← write_payload_chunk bytes offset ranges
      write_payload_from rounds bytes offset ranges
    else pure ranges

def write_payload_bytes (bytes : Bytes) (ranges : List BlockRange) : FormatM (List BlockRange) :=
  write_payload_from bytes.size bytes 0 ranges

/-- What a file's content is read from: the result of every `read` call, an error or the bytes it filled in. The
content ends with an empty read or with the list. -/
abbrev Reads := List (Option Bytes)

def write_payload_from_reader : Reads → Nat → List BlockRange → FormatM (Nat × List BlockRange)
  | [], size, ranges => pure (size, ranges)
  | none :: _, _, _ => fail (.Io "read")
  | some buf :: reader, size, ranges =>
    if buf.size = 0 then pure (size, ranges)
    else if MAX_FILE_SIZE < size + buf.size then fail (.FileTooBig (size + buf.size))
    else if BLOCK_SIZE < buf.size then Run.fail .panic
    else do
      let ranges ← write_payload_bytes buf ranges
      write_payload_from_reader reader (size + buf.size) ranges

def write_aligned_payload_bytes (bytes : Bytes) : FormatM (List BlockRange) := do
  align_to_block
  skip_reserved_metadata_blocks
  let ranges ← write_payload_bytes bytes []
  align_to_block
  pure ranges

/-- The rounds of `allocate_sparse_blocks`: every one takes at least one block. -/
def allocate_sparse_from : Nat → Nat → List BlockRange → FormatM (List BlockRange)
  | 0, _, ranges => pure ranges
  | rounds + 1, remaining, ranges =>
    if remaining = 0 then pure ranges
    else do
      skip_reserved_metadata_blocks
      let start ← current_block
      let group_end := (start / BLOCKS_PER_GROUP + 1) * BLOCKS_PER_GROUP
      check (group_end ≤ U32_MAX) (.error (.Io LIMIT_MESSAGE))
      let count := min remaining (group_end - start)
      seek_to_block (start + count)
      allocate_sparse_from rounds (remaining - count) (ranges ++ [⟨start, start + count⟩])

def allocate_sparse_blocks (block_count : Nat) : FormatM (List BlockRange) := do
  align_to_block
  allocate_sparse_from block_count block_count []

/-- `write_extents` at the current position: index blocks, if any, are written there one after the other. -/
def write_extents_here (inode : Inode) (ranges : List BlockRange) : FormatM (Inode × Nat) := do
  skip_reserved_metadata_blocks
  let cur ← current_block
  let s ← get
  match write_extents inode ranges s.file cur with
  | none => Run.fail .panic
  | some (inode, file, next) => do
    modify fun s => { s with file := file, pos := if next = cur then s.pos else next * BLOCK_SIZE }
    pure (inode, next)

/-! ## Removing -/

def node_blocks (node : FileTreeNode) : List BlockRange :=
  (match node.blocks with
    | some b => if b.start ≠ b.end_ then [b] else []
    | none => []) ++ node.additional_blocks

/-- Drop one link of inode `target` when its entry `node_idx` goes. The blocks are freed with the last link, and
kept for later while there are others. -/
def release (node_idx target : Nat) : FormatM Unit := do
  modify fun s =>
    if 0 < (s.inode target).links_count then
      s.set_inode target { s.inode target with links_count := (s.inode target).links_count - 1 }
    else s
  let s ← get
  let node_blocks := node_blocks (s.tree.node node_idx)
  let xattr_block := (s.inode target).xattr_block_lo
  if (s.inode target).links_count = 0 then do
    let (now_lo, _) ← timestamp_now
    modify fun s =>
      { s.set_inode target { dtime := now_lo } with
        deleted_blocks := s.deleted_blocks ++ node_blocks ++ s.deferred_blocks target ++
          (if xattr_block ≠ 0 then [⟨xattr_block.toNat, xattr_block.toNat + 1⟩] else [])
        deferred_blocks := fun n => if n = target then [] else s.deferred_blocks n }
  else if node_blocks ≠ [] then
    modify fun s =>
      { s with deferred_blocks := fun n =>
          if n = target then s.deferred_blocks n ++ node_blocks else s.deferred_blocks n }
  else pure ()

/-- Take the entry out of its parent's list. A parent directory that loses a directory loses a link. -/
def detach (path : Str) (node_is_dir : Bool) : FormatM Unit :=
  modify fun s =>
    match s.tree.lookup (parent_of path) with
    | none => s
    | some parent_idx =>
      let parent := (s.tree.node parent_idx).inode
      let s := if node_is_dir ∧ 2 < (s.inode parent).links_count then
          s.set_inode parent { s.inode parent with links_count := (s.inode parent).links_count - 1 }
        else s
      { s with tree := s.tree.remove_child parent_idx (basename path) }

def child_path (path child_name : Str) : Str := if path = ['/'] then '/' :: child_name else path ++ '/' :: child_name

/-- `remove_inner`, to a recursion depth of `fuel`. -/
def remove_inner : Nat → Str → Bool → FormatM Unit
  | 0, _, _ => Run.fail .panic
  | fuel + 1, path, remove_self => do
    let s ← get
    match s.tree.lookup path with
    | none => pure ()
    | some node_idx => do
      let node := s.tree.node node_idx
      let target_ino := node.link.getD node.inode
      let node_is_dir := node.link.isNone && (s.inode node.inode).is_dir
      check (remove_self ∨ node_is_dir) (.error (.NotDirectory path))
      let child_names := node.children.map fun child => (s.tree.node child).name
      child_names.forM fun child_name => remove_inner fuel (child_path path child_name) true
      if !remove_self then pure ()
      else do
        detach path node_is_dir
        if FIRST_INODE - 1 < target_ino then release node_idx target_ino else pure ()

/-- The recursion goes down the tree, so it is never deeper than the tree has nodes, or it never ends. -/
def removal_depth (s : Formatter) : Nat := s.tree.nodes.length + 1

def remove (path : Str) : FormatM Unit := do
  let s ← get
  remove_inner s.removal_depth path true

def remove_children (path : Str) : FormatM Unit := do
  let s ← get
  remove_inner s.removal_depth path false

/-! ## Creating -/

/-- The arguments of `create`. The attributes come in the order the map yields them. -/
structure CreateArgs where
  path : Str
  mode : UInt16
  link : Option Str := none
  ts : Option FileTimestamps := none
  data : Option Reads := none
  uid : Option UInt32 := none
  gid : Option UInt32 := none
  xattrs : Option (List (Str × List UInt8)) := none

/-- Path components that cannot be represented in a directory entry. -/
def validate_path_component_names (path : Str) : Except Failure Unit :=
  (split_slash path).forM fun name => do
    require (name ≠ ['.'] ∧ name ≠ ['.', '.']) (.error (.InvalidPathEncoding path))
    require ((as_bytes name).length ≤ EXT4_NAME_LEN) (.error (.InvalidName name))

/-- What `create` does when `path` already denotes an entry: `true` when nothing is left to create. -/
def handle_existing (a : CreateArgs) : FormatM Bool := do
  let s ← get
  match s.tree.lookup a.path with
  | none => pure false
  | some existing_idx =>
    let node := s.tree.node existing_idx
    let existing := s.inode node.inode
    if is_dir a.mode then
      if existing.is_dir then
        -- the path `/` written in another way denotes the root, whose name is `/`
        if node.name = basename a.path then do
          let updated := { existing with mode := a.mode }
          let updated := (a.uid.map updated.set_uid).getD updated
          let updated := (a.gid.map updated.set_gid).getD updated
          when (a.uid.isSome ∨ a.gid.isSome) (modify fun s => s.set_inode node.inode updated)
          pure true
        else pure false
      else fail (.NotDirectory a.path)
    else if node.link.isSome then do
      remove a.path
      pure false
    else if existing.is_dir ∧ !is_link a.mode then fail (.NotFile a.path)
    else do
      remove a.path
      pure false

/-- The new inode before its content: mode, owner (the parent's unless given). -/
def new_inode (a : CreateArgs) (parent : Inode) : Inode :=
  let i : Inode := { mode := a.mode, flags := inode_flags.HUGE_FILE }
  let i := match a.uid with
    | some u => i.set_uid u
    | none => { i with uid := parent.uid, uid_hi := parent.uid_hi }
  match a.gid with
    | some g => i.set_gid g
    | none => { i with gid := parent.gid, gid_hi := parent.gid_hi }

def store_inline_xattrs (state : XattrState) (i : Inode) : Except Failure Inode :=
  if state.has_inline then do
    let buf ← state.write_inline
    pure { i with inline_xattrs := fun k => buf.get k }
  else pure i

/-- The other attributes go to a block of their own, counted in the unit the flags give. -/
def write_xattr_block (state : XattrState) (i : Inode) : FormatM Inode :=
  if state.has_block then do
    let block_buf ← ofExcept state.write_block
    let ranges ← write_aligned_payload_bytes block_buf
    let i := match ranges.head? with
      | some range => { i with xattr_block_lo := .ofNat range.start }
      | none => i
    pure { i with blocks_lo := i.blocks_lo +
      if i.flags &&& inode_flags.HUGE_FILE ≠ 0 then 1 else .ofNat (BLOCK_SIZE / 512) }
  else pure i

def write_xattrs (xattrs : Option (List (Str × List UInt8))) (i : Inode) : FormatM Inode :=
  match xattrs with
  | none | some [] => pure i
  | some attrs => do
    let s ← get
    let state : XattrState :=
      { inode_capacity := INODE_EXTRA_SIZE, block_capacity := BLOCK_SIZE, inode_number := s.inodes.length + 1 }
    let state ← ofExcept
      ((("system.data".toList, []) :: attrs).foldlM (fun st (name, value) => st.add (.new name value)) state)
    let i ← ofExcept (store_inline_xattrs state i)
    write_xattr_block state i

def unwrap_timestamps : Option FileTimestamps → FormatM FileTimestamps
  | some ts => pure ts
  | none => do
    let (lo, hi) ← timestamp_now
    pure ⟨lo, hi, lo, hi, lo, hi, lo, hi⟩

def set_timestamps (i : Inode) (ts : FileTimestamps) : Inode :=
  { i with
    atime := ts.access_lo, atime_extra := ts.access_hi, ctime := ts.now_lo, ctime_extra := ts.now_hi,
    mtime := ts.modification_lo, mtime_extra := ts.modification_hi, crtime := ts.creation_lo,
    crtime_extra := ts.creation_hi, links_count := 1, extra_isize := EXTRA_ISIZE }

/-- A target of fewer than 60 bytes is stored in the inode, a longer one in blocks. -/
def write_symlink (target : Str) (i : Inode) : FormatM (Inode × List BlockRange) :=
  let bytes := as_bytes target
  let finish (i : Inode) : Inode := { i.set_file_size bytes.length with mode := i.mode ||| 0o777, flags := 0 }
  if bytes.length < 60 then
    pure ({ finish { i with block := fun k => bytes.getD k (i.block k) } with blocks_lo := 0 }, [])
  else do
    let ranges ← write_aligned_payload_bytes (.ofList bytes)
    let (i, _) ← write_extents_here (finish i) ranges
    pure (i, ranges)

def write_file_data : Option Reads → FormatM (Nat × List BlockRange)
  | some reader => do
    align_to_block
    skip_reserved_metadata_blocks
    let written ← write_payload_from_reader reader 0 []
    align_to_block
    pure written
  | none => pure (0, [])

def write_regular (data : Option Reads) (i : Inode) : FormatM (Inode × List BlockRange) := do
  let (size, ranges) ← write_file_data data
  let (i, _) ← write_extents_here (i.set_file_size size) ranges
  pure (i, ranges)

/-- The content of the new inode, by file type. A directory's entries are written by `close`. -/
def write_content (a : CreateArgs) (parent : Nat) (i : Inode) : FormatM (Inode × List BlockRange) :=
  if is_dir a.mode then do
    modify fun s => s.set_inode parent { s.inode parent with links_count := (s.inode parent).links_count + 1 }
    pure ({ i with links_count := 2 }, [])
  else if is_link a.mode then
    match a.link with
    | some target => write_symlink target i
    | none => fail (.InvalidLink a.path)
  else if is_reg a.mode then write_regular a.data i
  else fail .UnsupportedFiletype

def register (parent_idx : Nat) (name : Str) (i : Inode) (ranges : List BlockRange) : FormatM Unit :=
  modify fun s =>
    let node : FileTreeNode :=
      { inode := s.inodes.length + 1, name, blocks := ranges.head?, additional_blocks := ranges.tail }
    { s with inodes := s.inodes ++ [i], tree := s.tree.add_child parent_idx node }

/-- `create` once its parent directory is there. -/
def create_entry (a : CreateArgs) : FormatM Unit := do
  let s ← get
  let parent_path := parent_of a.path
  let parent_idx ← ofOption (s.tree.lookup parent_path) (.error (.NotFound parent_path))
  let parent := (s.tree.node parent_idx).inode
  let parent_inode := s.inode parent
  check (parent_inode.links_count.toNat < MAX_LINKS) (.error (.MaximumLinksExceeded parent_path))
  let i ← write_xattrs a.xattrs (new_inode a parent_inode)
  let ts ← unwrap_timestamps a.ts
  let (i, ranges) ← write_content a parent (set_timestamps i ts)
  register parent_idx (basename a.path) i ranges

/-- `create`, to a recursion depth of `fuel`. -/
def create_depth : Nat → CreateArgs → FormatM Unit
  | 0, _ => Run.fail .panic
  | fuel + 1, a => do
    ofExcept (validate_path_component_names a.path)
    check (is_dir a.mode ∨ is_reg a.mode ∨ is_link a.mode) (.error .UnsupportedFiletype)
    check (is_link a.mode = a.link.isSome) (.error (.InvalidLink a.path))
    let finished ← handle_existing a
    if finished then pure ()
    else do
      when (parent_of a.path ≠ a.path)
        (create_depth fuel { path := parent_of a.path, mode := make_mode file_mode.S_IFDIR 0o755 })
      create_entry a

/-- Every round goes to a shorter path, and `/` is the last one. -/
def create (a : CreateArgs) : FormatM Unit := create_depth (a.path.length + 2) a

/-! ## Hard links -/

def link (link_path target_path : Str) : FormatM Unit := do
  ofExcept (validate_path_component_names link_path)
  let s ← get
  let target_idx ← ofOption (s.tree.lookup target_path) (.error (.NotFound target_path))
  let target := (s.tree.node target_idx).inode
  check (!(s.inode target).is_dir) (.error (.CannotHardlinkDirectory target_path))
  let existing_target := (s.tree.lookup link_path).map fun idx => (s.tree.node idx).link.getD (s.tree.node idx).inode
  if existing_target = some target then pure ()
  else do
    let parent_path := parent_of link_path
    let parent_idx ← ofOption (s.tree.lookup parent_path) (.error (.NotFound parent_path))
    let parent := (s.tree.node parent_idx).inode
    check ((s.inode parent).links_count.toNat < MAX_LINKS) (.error (.MaximumLinksExceeded parent_path))
    when (existing_target.isSome) (remove link_path)
    modify fun s =>
      let s := s.set_inode target { s.inode target with links_count := (s.inode target).links_count + 1 }
      let node : FileTreeNode := { inode := ROOT_INODE, name := basename link_path, link := some target }
      { s with tree := s.tree.add_child parent_idx node }

/-! ## A new image -/

def root_inode (time_lo time_extra : UInt32) : Inode :=
  { mode := file_mode.S_IFDIR ||| 0o755, links_count := 2, flags := inode_flags.HUGE_FILE, extra_isize := EXTRA_ISIZE,
    atime := time_lo, ctime := time_lo, mtime := time_lo, crtime := time_lo, atime_extra := time_extra,
    ctime_extra := time_extra, mtime_extra := time_extra, crtime_extra := time_extra }

/-- A reserved inode for a file of `size` bytes. -/
def reserved_inode (time_lo time_extra : UInt32) (size : Nat) : Inode :=
  let i : Inode :=
    { mode := file_mode.S_IFREG ||| 0o600, links_count := 1, extra_isize := EXTRA_ISIZE, atime := time_lo,
      ctime := time_lo, mtime := time_lo, crtime := time_lo, atime_extra := time_extra, ctime_extra := time_extra,
      mtime_extra := time_extra, crtime_extra := time_extra }
  i.set_file_size size

/-- `journal.rs`: the journal's size for a file system of that many blocks. -/
def default_journal_blocks (filesystem_blocks : Nat) : Nat :=
  if filesystem_blocks < 32768 then 1024
  else if filesystem_blocks < 256 * 1024 then 4096
  else if filesystem_blocks < 512 * 1024 then 8192
  else if filesystem_blocks < 4096 * 1024 then 16384
  else if filesystem_blocks < 8192 * 1024 then 32768
  else if filesystem_blocks < 16384 * 1024 then 65536
  else if filesystem_blocks < 32768 * 1024 then 131072
  else 262144

/-- `journal.rs`: a clean JBD2 superblock, big-endian. -/
def journal_superblock (journal_blocks uuid : Nat) : Bytes :=
  ⟨BLOCK_SIZE, writeFields (fun _ => 0)
    [⟨0x00, beBytes 4 0xC03B3998⟩, ⟨0x04, beBytes 4 4⟩, ⟨0x0C, beBytes 4 BLOCK_SIZE⟩, ⟨0x10, beBytes 4 journal_blocks⟩,
     ⟨0x14, beBytes 4 1⟩, ⟨0x18, beBytes 4 1⟩, .nat 0x30 16 uuid, ⟨0x40, beBytes 4 1⟩]⟩

def initialize_journal : FormatM Unit := do
  let s ← get
  let journal_blocks := default_journal_blocks (max (div_ceil s.size BLOCK_SIZE) BLOCKS_PER_GROUP)
  let ranges ← allocate_sparse_blocks journal_blocks
  let first ← ofOption ranges.head? (.error .InsufficientSpaceForGroupDescriptorBlocks)
  let (time_lo, time_extra) ← timestamp_now
  let (i, next_block) ← write_extents_here (reserved_inode time_lo time_extra (journal_blocks * BLOCK_SIZE)) ranges
  seek_to_block next_block
  modify fun s => s.set_inode JOURNAL_INODE_NUMBER i
  let s ← get
  let end_position := s.pos
  seek_to_block first.start
  write_all (journal_superblock journal_blocks s.uuid)
  modify fun s => { s with pos := end_position }

structure FormatOptions where
  block_size : Nat := 4096
  size : Nat
  uuid : Option Nat := none
  label : Option Str := none

def VOLUME_NAME_LEN : Nat := 16

def validate_label (label : Str) : Except Failure Unit := do
  require ((as_bytes label).length ≤ VOLUME_NAME_LEN) (.error (.InvalidLabel label))
  require ('\x00' ∉ label) (.error (.InvalidLabel label))

def MAXIMUM_BLOCKS : Nat := U32_MAX / BLOCKS_PER_GROUP * BLOCKS_PER_GROUP

def validate_options (opts : FormatOptions) : Except Failure Unit := do
  require (opts.block_size = 4096) (.error (.UnsupportedBlockSize opts.block_size))
  require (opts.size ≠ 0) (.error (.InvalidSize opts.size "size must be greater than zero"))
  require (div_ceil opts.size BLOCK_SIZE ≤ MAXIMUM_BLOCKS)
    (.error (.InvalidSize opts.size "size exceeds the 32-bit block layout"))
  match opts.label with
  | some label => validate_label label
  | none => pure ()

/-- The builder over the truncated file: ten reserved inodes, and the root of the tree. -/
def fresh (opts : FormatOptions) (random_uuid : Nat) (clock : Nat → UInt32 × UInt32) : Formatter where
  file := File.empty.setLen opts.size
  pos := 0
  size := opts.size
  inodes := ({} : Inode) :: root_inode (clock 0).1 (clock 0).2 :: List.replicate 8 {}
  tree := FileTree.new ROOT_INODE ['/']
  deleted_blocks := []
  deferred_blocks := fun _ => []
  uuid := opts.uuid.getD random_uuid
  label := opts.label
  clock := fun n => clock (n + 1)

/-- What `with_options` does with the builder: the journal behind the descriptor area, and `/lost+found`. -/
def set_up : FormatM Unit := do
  let s ← get
  seek_to_block (s.group_descriptor_blocks + 1)
  initialize_journal
  create { path := "/lost+found".toList, mode := make_mode file_mode.S_IFDIR 0o700 }

/-- `random_uuid` is what the random generator yields when no UUID is given. -/
def with_options (opts : FormatOptions) (random_uuid : Nat) (clock : Nat → UInt32 × UInt32) :
    Except Failure Formatter := do
  validate_options opts
  let (r, s) := set_up (fresh opts random_uuid clock)
  r
  pure s

/-! ## Runs -/

inductive Call where
  | create (a : CreateArgs)
  | link (link_path target_path : Str)
  | remove (path : Str)
  | remove_children (path : Str)

def Call.run : Call → FormatM Unit
  | .create a => Formatter.create a
  | .link link_path target_path => Formatter.link link_path target_path
  | .remove path => Formatter.remove path
  | .remove_children path => Formatter.remove_children path

/-- The states calls lead to from `s₀`, each call made where `ok` allows it. A call that returns an error leaves a
builder that can still be used; a panic does not. -/
inductive Reaches (ok : Formatter → Call → Prop) (s₀ : Formatter) : Formatter → Prop where
  | start : Reaches ok s₀ s₀
  | step {s s' : Formatter} {c : Call} {r : Except Failure Unit} :
      Reaches ok s₀ s → ok s c → c.run s = (r, s') → r ≠ .error .panic → Reaches ok s₀ s'

/-- The states of a builder between its construction and `close`. -/
def Reachable (ok : Formatter → Call → Prop) (s : Formatter) : Prop :=
  ∃ opts random_uuid clock s₀, with_options opts random_uuid clock = .ok s₀ ∧ Reaches ok s₀ s

end Formatter

end Silo.Ext4
