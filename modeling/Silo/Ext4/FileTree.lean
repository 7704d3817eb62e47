import Silo.Ext4.Extent
/-!
# Paths and the in-memory file tree

`file_tree.rs` and the path helpers at the end of `formatter.rs`. A Rust `&str` is
the list of its characters; lengths are counted in UTF-8 bytes.
-/

namespace Silo.Ext4

abbrev Str := List Char

def as_bytes (s : Str) : List UInt8 := s.flatMap String.utf8EncodeChar

/-! ## Paths -/

def split_slash : Str → List Str
  | [] => [[]]
  | c :: cs =>
    if c = '/' then [] :: split_slash cs
    else
      match split_slash cs with
      | [] => [[c]]
      | piece :: pieces => (c :: piece) :: pieces

/-- What `Path::components` yields on Unix: a leading slash is the component `/`, a leading `.` stays, and every
other `.` and every empty piece is dropped. -/
def components (path : Str) : List Str :=
  let pieces := split_slash path
  (if path.head? = some '/' then [['/']] else if pieces.head? = some ['.'] then [['.']] else []) ++
    pieces.filter fun piece => piece ≠ [] ∧ piece ≠ ['.']

def trim_end_slashes (path : Str) : Str := (path.reverse.dropWhile (· = '/')).reverse

def parent_of (path : Str) : Str :=
  if path = ['/'] then ['/']
  else
    match (trim_end_slashes path).reverse.dropWhile (· ≠ '/') with
    | [] => ['/']
    | _ :: front => if front = [] then ['/'] else front.reverse

def basename (path : Str) : Str :=
  if path = ['/'] then ['/'] else ((trim_end_slashes path).reverse.takeWhile (· ≠ '/')).reverse

/-! ## The tree -/

structure FileTreeNode where
  inode : Nat
  name : Str
  children : List Nat := []
  parent : Option Nat := none
  blocks : Option BlockRange := none
  additional_blocks : List BlockRange := []
  /-- The inode a hard link stands for. -/
  link : Option Nat := none
deriving Inhabited

/-- Nodes by index; an index stays valid for ever, also when its node is removed from the tree. -/
structure FileTree where
  nodes : List FileTreeNode
  root : Nat

namespace FileTree

def new (root_inode : Nat) (name : Str) : FileTree := ⟨[{ inode := root_inode, name }], 0⟩

def node (t : FileTree) (idx : Nat) : FileTreeNode := t.nodes.getD idx default

def set_node (t : FileTree) (idx : Nat) (n : FileTreeNode) : FileTree := { t with nodes := t.nodes.set idx n }

def step (t : FileTree) (current : Nat) (name : Str) : Option Nat :=
  if name = ['/'] ∨ name = [] then some current
  else (t.node current).children.find? fun child => (t.node child).name = name

def lookup (t : FileTree) (path : Str) : Option Nat := (components path).foldlM t.step t.root

def add_child (t : FileTree) (parent : Nat) (n : FileTreeNode) : FileTree :=
  let idx := t.nodes.length
  let t := { t with nodes := t.nodes ++ [{ n with parent := some parent }] }
  t.set_node parent { t.node parent with children := (t.node parent).children ++ [idx] }

def remove_child (t : FileTree) (parent : Nat) (name : Str) : FileTree :=
  t.set_node parent
    { t.node parent with children := (t.node parent).children.eraseP fun child => (t.node child).name = name }

end FileTree

end Silo.Ext4
