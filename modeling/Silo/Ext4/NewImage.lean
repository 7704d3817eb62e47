import Silo.Ext4.Frame
import Silo.Ext4.Tree
/-!
# A new builder

What `with_options` leaves behind: a property of the empty tree that survives the
journal's inode and the creation of `/lost+found` holds of every new builder.
-/

namespace Silo.Ext4

open List Lib

namespace Formatter

open Run (Keeps Preserves Returns Spec)

variable {s s' : Formatter}

/-! ## Nodes and inodes -/

/-- The inode the node at `idx` stands for. -/
def denotes (s : Formatter) (idx : Nat) : Nat := (s.tree.node idx).link.getD (s.tree.node idx).inode

def SameNode (a b : FileTreeNode) : Prop := a.inode = b.inode ∧ a.name = b.name ∧ a.link = b.link

theorem inode_set_inode {s : Formatter} {n m : Nat} {i : Inode} (hn : 0 < n) (hlen : n ≤ s.inodes.length) (hm : 0 < m) :
    (s.set_inode n i).inode m = if m = n then i else s.inode m := by
  by_cases h : m = n
  · subst h
    simp [inode, set_inode, getD, show m - 1 < s.inodes.length by omega]
  · have : n - 1 ≠ m - 1 := by omega
    simp [inode, set_inode, getD, this, h]

theorem inode_set_inode_cases (s : Formatter) (n m : Nat) (i : Inode) :
    (s.set_inode n i).inode m = s.inode m ∨
      (s.set_inode n i).inode m = i ∧ s.inode m = s.inode n ∧ n - 1 = m - 1 := by
  by_cases h : n - 1 = m - 1 ∧ m - 1 < s.inodes.length
  · exact .inr ⟨by simp [inode, set_inode, getD, h], by simp [inode, h.1], h.1⟩
  · refine .inl ?_
    by_cases hnm : n - 1 = m - 1
    · have hge : s.inodes.length ≤ m - 1 := Nat.le_of_not_lt fun hlt => h ⟨hnm, hlt⟩
      simp [inode, set_inode, getD, hge]
    · simp [inode, set_inode, getD, hnm]

/-! ## Writing extents -/

def SameUse (i j : Inode) : Prop := j.mode = i.mode ∧ j.links_count = i.links_count

theorem write_extents_same {i j : Inode} {ranges : List BlockRange} {file file' : File} {cur next : Nat}
    (h : write_extents i ranges file cur = some (j, file', next)) : SameUse i j := by
  unfold write_extents at h
  simp only at h
  split at h
  · cases h; exact ⟨rfl, rfl⟩
  · split at h
    · cases h; exact ⟨rfl, rfl⟩
    · unfold write_indexed_extents at h
      simp only at h
      split at h
      · cases h
      · cases h; exact ⟨rfl, rfl⟩

theorem write_extents_here_returns (i : Inode) (ranges : List BlockRange) :
    Returns (write_extents_here i ranges) fun r => SameUse i r.1 := by
  refine .bind .trivial fun _ _ => .bind .trivial fun cur _ =>
    .bind .trivial fun s _ => ?_
  split
  · exact .fail
  · next hw => exact .bind .trivial fun _ _ => .pure (write_extents_same hw)

theorem write_regular_returns (data : Option Reads) (i : Inode) :
    Returns (write_regular data i) fun r => SameUse i r.1 :=
  .bind .trivial fun _ _ => .bind (write_extents_here_returns _ _) fun _ hr => .pure hr

/-! ## Setting up -/

/-- What depends on the entries only, and allows the journal its inode, holds after the journal is written. -/
theorem initialize_journal_keeps {P : Formatter → Prop} (hcatalog : ∀ s s', s'.catalog = s.catalog → P s → P s')
    (hjournal : ∀ s i, P s → i.is_dir = false → i.links_count = 1 → P (s.set_inode JOURNAL_INODE_NUMBER i)) :
    Preserves P initialize_journal := by
  have hkeeps {α : Type} {m : FormatM α} (hm : Keeps catalog m) : Preserves P m := hm.spec hcatalog
  unfold initialize_journal
  refine .seq P (hkeeps .get) fun s₁ => ?_
  refine .bind (hkeeps (keeps_allocate_sparse_blocks _)) fun ranges => ?_
  refine .bind (hkeeps (.ofOption _ _)) fun first => ?_
  refine .bind (hkeeps keeps_timestamp_now) fun ⟨time_lo, time_extra⟩ => ?_
  refine .bind (Q := fun r t => (r.1.is_dir = false ∧ r.1.links_count = 1) ∧ P t) ?_ fun ⟨i, next_block⟩ =>
    .and_pre fun hi => ?_
  · refine ((keeps_write_extents_here _ _).invariant (write_extents_here_returns _ _) hcatalog).post
      fun r t ht => ⟨⟨?_, ht.1.2⟩, ht.2⟩
    rw [Inode.is_dir, ht.1.1]
    show Ext4.is_dir (file_mode.S_IFREG ||| 0o600) = false
    decide
  · refine .bind (hkeeps (keeps_seek_to_block _)) fun _ => ?_
    refine .seq P (.modify fun t ht => hjournal t i ht hi.1 hi.2) fun _ => ?_
    refine .seq P (hkeeps .get) fun s₂ => ?_
    refine .bind (hkeeps (keeps_seek_to_block _)) fun _ => ?_
    refine .bind (hkeeps (keeps_write_all _)) fun _ => ?_
    exact hkeeps (.modify fun _ => rfl)

theorem with_options_run {opts : FormatOptions} {random_uuid : Nat} {clock : Nat → UInt32 × UInt32}
    (h : with_options opts random_uuid clock = .ok s) : set_up (fresh opts random_uuid clock) = (.ok (), s) := by
  unfold with_options at h
  generalize set_up (fresh opts random_uuid clock) = res at h
  obtain ⟨r, s₁⟩ := res
  simp only [bind_eq_ok, pure_eq_ok] at h
  obtain ⟨_, _, _, rfl, rfl⟩ := h
  rfl

/-- What holds of the empty tree and stays so until `/lost+found` is created. -/
theorem with_options_keeps {P Q : Formatter → Prop} (hcatalog : ∀ s s', s'.catalog = s.catalog → P s → P s')
    (hjournal : ∀ s i, P s → i.is_dir = false → i.links_count = 1 → P (s.set_inode JOURNAL_INODE_NUMBER i))
    (hcreate : ∀ s, P s → Spec (· = s) (create { path := "/lost+found".toList, mode := make_mode file_mode.S_IFDIR 0o700 })
      (fun _ => Q) (fun _ _ => True))
    {opts : FormatOptions} {random_uuid : Nat} {clock : Nat → UInt32 × UInt32} (hfresh : P (fresh opts random_uuid clock))
    (h : with_options opts random_uuid clock = .ok s) : Q s := by
  have hset : Spec P set_up (fun _ => Q) (fun _ _ => True) := by
    unfold set_up
    refine .seq P (.get fun _ h => h) fun _ => ?_
    refine .seq P (.modify fun t ht => hcatalog t _ rfl ht) fun _ => ?_
    exact .bind ((initialize_journal_keeps hcatalog hjournal).err fun _ _ _ => trivial) fun _ =>
      .of_forall hcreate
  exact hset.ok hfresh (with_options_run h)

/-! ## Runs -/

/-- A builder of a small image, with a clock that stands still. -/
def small : Except Failure Formatter := with_options { size := 256 * 1024 } 0 fun _ => (0, 0)

def AddsEntry (s : Formatter) (c : Call) : Prop :=
  (match c with
    | .create _ | .link _ _ => True
    | _ => False) ∧ (c.run s).1.isOk

theorem reaches_call {ok : Formatter → Call → Prop} {s₀ : Formatter} (h : Reaches ok s₀ s) {c : Call} (hok : ok s c)
    (hrun : (c.run s).1.isOk) : Reaches ok s₀ (c.run s).2 := by
  obtain ⟨_, hr⟩ := exists_ok_of_isOk hrun
  exact .step h hok (Prod.ext hr rfl : c.run s = (.ok _, (c.run s).2)) (by simp)

end Formatter

end Silo.Ext4
