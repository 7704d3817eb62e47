import Silo.Ext4.InodeChanges
/-!
# The limit on link counts

`create` and `link` check the link count of the parent directory before they add an
entry. A new directory is one more link of that parent, so its count stays within the
limit. A hard link is one more link of its target, and the target's count is not
checked.
-/

namespace Silo.Ext4

open List Lib

namespace Formatter

open Run (Keeps Preserves Returns Spec)

variable {s s' : Formatter}

def Within (s : Formatter) : Prop := ∀ n, (s.inode n).links_count.toNat ≤ MAX_LINKS

theorem within_iff : Within s ↔ ∀ i ∈ s.inodes, i.links_count.toNat ≤ MAX_LINKS := by
  constructor
  · intro h i hi
    obtain ⟨k, hk⟩ := getElem?_of_mem hi
    simpa [inode, getD, hk] using h (k + 1)
  · intro h n
    rw [inode, getD]
    cases hn : s.inodes[n - 1]? with
    | none => exact Nat.zero_le _
    | some i => exact h i (mem_of_getElem? hn)

theorem Within.of_inodes (h : Within s) (hinodes : s'.inodes = s.inodes) : Within s' := by
  intro n
  rw [inode_congr hinodes]
  exact h n

theorem Within.of_catalog (hcat : s'.catalog = s.catalog) (h : Within s) : Within s' :=
  h.of_inodes (congrArg (fun c => c.2.1) hcat)

theorem Within.set_inode (h : Within s) {n : Nat} {i : Inode} (hi : i.links_count.toNat ≤ MAX_LINKS) :
    Within (s.set_inode n i) := by
  intro m
  rcases inode_set_inode_cases s n m i with heq | ⟨heq, -⟩
  · rw [heq]
    exact h m
  · rw [heq]
    exact hi

theorem Within.reduced (h : Within s) (hr : Reduced s s') : Within s' := fun n =>
  Nat.le_trans (UInt16.le_iff_toNat_le.1 (hr.inodes n).links_le) (h n)

theorem toNat_add_one {c : UInt16} (h : c.toNat < MAX_LINKS) : (c + 1).toNat = c.toNat + 1 := by
  simp only [MAX_LINKS] at h
  rw [UInt16.toNat_add, UInt16.toNat_one]
  omega

theorem keeps_within {α : Type} {m : FormatM α} (hm : Keeps catalog m) : Preserves Within m :=
  hm.spec fun _ _ => Within.of_catalog

theorem remove_within (path : Str) : Preserves Within (remove path) :=
  (remove_reduces path).spec fun _ _ hr h => h.reduced hr

theorem remove_children_within (path : Str) : Preserves Within (remove_children path) :=
  (remove_children_reduces path).spec fun _ _ hr h => h.reduced hr

/-! ## Creating -/

theorem handle_existing_within (a : CreateArgs) : Preserves Within (handle_existing a) := by
  have halong : Run.Along (fun s s' => Within s → Within s') (handle_existing a) := by
    intro s h
    rcases handle_existing_effect a s with hr | ⟨n, i, heq, -, -, hlinks⟩
    · exact h.reduced hr
    · rw [heq]
      exact h.set_inode (by rw [hlinks]; exact h n)
  exact halong.spec fun _ _ h => h

/-- The new inode has one link or two, and the parent, if it gets one more, was below the limit. -/
theorem write_content_within (a : CreateArgs) (parent : Nat) {i : Inode} (hi : i.links_count = 1) :
    Spec (fun s => Within s ∧ (s.inode parent).links_count.toNat < MAX_LINKS) (write_content a parent i)
      (fun r s => r.1.links_count.toNat ≤ 2 ∧ Within s) (fun _ => Within) := by
  have hfile : ∀ {m : FormatM (Inode × List BlockRange)}, Keeps catalog m →
      Returns m (fun r => r.1.links_count = i.links_count) →
      Spec (fun s => Within s ∧ (s.inode parent).links_count.toNat < MAX_LINKS) m
        (fun r s => r.1.links_count.toNat ≤ 2 ∧ Within s) (fun _ => Within) := by
    intro m hk hr
    refine ((hk.invariant hr fun _ _ => Within.of_catalog).pre fun _ h => h.1).post fun r s h => ⟨?_, h.2⟩
    rw [h.1, hi]
    decide
  unfold write_content
  refine .ite (fun _ => ?_) fun _ => .ite (fun hlink => ?_) fun _ => .ite (fun _ => ?_) fun _ =>
    .fail fun _ h => h.1
  · refine .seq Within (.modify fun s h => ?_) fun _ => .pure fun s h => ⟨Nat.le_refl 2, h⟩
    refine h.1.set_inode ?_
    show ((s.inode parent).links_count + 1).toNat ≤ MAX_LINKS
    rw [toNat_add_one h.2]
    exact h.2
  · cases a.link with
    | none => exact .fail fun _ h => h.1
    | some target =>
      refine hfile (keeps_write_symlink _ _) ?_
      refine .ite (.pure rfl) (.bind .trivial fun _ _ =>
        .bind (write_extents_here_returns _ _) fun r hr => .pure hr.2)
  · exact hfile (keeps_write_regular _ _) fun s r s' hrun => (write_regular_returns _ _ s r s' hrun).2

theorem register_within (parent_idx : Nat) (name : Str) {i : Inode} (ranges : List BlockRange)
    (hi : i.links_count.toNat ≤ 2) : Preserves Within (register parent_idx name i ranges) := by
  exact .modify fun s h => within_iff.2 (forall_mem_append.2 ⟨within_iff.1 h,
    forall_mem_singleton.2 (hi.trans (by decide))⟩)

theorem create_entry_within (a : CreateArgs) : Preserves Within (create_entry a) := by
  refine .get_bind fun s h => ?_
  have hkeep {α : Type} {m : FormatM α} (hm : Keeps catalog m) : Spec (·.catalog = s.catalog) m
      (fun _ t => t.catalog = s.catalog) (fun _ => Within) :=
    (hm.spec fun _ _ hcat ht => hcat.trans ht).err fun _ _ hcat => h.of_catalog hcat
  refine .bind (Q := fun p t => s.tree.lookup (parent_of a.path) = some p ∧ t = s)
    (.ofOption (fun _ hp _ ht => ⟨hp, ht⟩) fun _ _ ht => ht ▸ h) fun p => .and_pre fun _ => ?_
  generalize (s.tree.node p).inode = parent
  refine .seq (fun t => (s.inode parent).links_count.toNat < MAX_LINKS ∧ t.catalog = s.catalog)
    (.check (fun hmax t ht => ⟨hmax, ht ▸ rfl⟩) fun _ t ht => ht ▸ h) fun _ => .and_pre fun hmax => ?_
  refine .bind (hkeep (keeps_write_xattrs _ _)) fun i => .bind (hkeep (keeps_unwrap_timestamps _)) fun ts => ?_
  refine .bind ((write_content_within a parent (i := set_timestamps i ts) rfl).pre fun t hcat => ?_) fun r =>
    .and_pre fun hr => register_within _ _ _ hr
  refine ⟨h.of_catalog hcat, ?_⟩
  rw [inode_congr (congrArg (fun c => c.2.1) hcat)]
  exact hmax

theorem create_depth_within (fuel : Nat) : ∀ a, Preserves Within (create_depth fuel a) := by
  induction fuel with
  | zero => exact fun _ => .failed
  | succ fuel ih =>
    intro a
    refine .bind (keeps_within (.ofExcept _)) fun _ => .bind (keeps_within (.check _ _)) fun _ =>
      .bind (keeps_within (.check _ _)) fun _ => .bind (handle_existing_within a) fun finished =>
        .ite (fun _ => .done) fun _ => ?_
    exact .bind (.when (fun _ => ih _) fun _ _ h => h) fun _ => create_entry_within a

/-! ## Linking -/

/-- When a call leaves the link counts within the limit: a hard link is made to a file whose count is below it, unless
the target is a directory (an error) or has that name already (nothing to do). -/
def LinkRoom (s : Formatter) : Call → Prop
  | .link link_path target_path => ∀ idx, s.tree.lookup target_path = some idx →
      (s.inode (s.tree.node idx).inode).is_dir ∨
      (s.tree.lookup link_path).map s.denotes = some (s.tree.node idx).inode ∨
      (s.inode (s.tree.node idx).inode).links_count.toNat < MAX_LINKS
  | _ => True

theorem link_within (h : Within s) {link_path target_path : Str} (hroom : LinkRoom s (.link link_path target_path)) :
    Spec (· = s) (link link_path target_path) (fun _ => Within) (fun _ => Within) := by
  refine .seq (fun t => t = s) (.ofExcept (fun _ _ _ ht => ht) fun _ _ t ht => ht ▸ h) fun _ => ?_
  refine .get_bind ?_
  rintro s rfl
  refine .bind (Q := fun i t => s.tree.lookup target_path = some i ∧ t = s)
    (.ofOption (fun _ hv t ht => ⟨hv, ht⟩) fun _ t ht => ht ▸ h) fun i => .and_pre fun hi => ?_
  have hroom := hroom i hi
  generalize (s.tree.node i).inode = target at hroom ⊢
  refine .seq (fun t => (s.inode target).is_dir = false ∧ t = s)
    (.check (fun hc t ht => ⟨by simpa using hc, ht⟩) fun _ t ht => ht ▸ h) fun _ => .and_pre fun hfile => ?_
  refine .ite (fun _ => .pure fun t ht => ht ▸ h) fun hnew => ?_
  refine .seq (fun t => t = s) (.ofOption (fun _ _ _ ht => ht) fun _ t ht => ht ▸ h) fun p => ?_
  refine .seq (fun t => t = s) (.check (fun _ _ ht => ht) fun _ t ht => ht ▸ h) fun _ => ?_
  have hmax : (s.inode target).links_count.toNat < MAX_LINKS := by
    rcases hroom with hdir | hsame | hmax
    · rw [hfile] at hdir
      cases hdir
    · exact absurd hsame hnew
    · exact hmax
  -- removing what is there can only take links away from the target
  refine .seq (fun t => Within t ∧ (t.inode target).links_count.toNat < MAX_LINKS)
    (.when (fun _ => ?_) fun _ t ht => ht ▸ ⟨h, hmax⟩) fun _ => .modify fun t ht => ?_
  · refine ((remove_reduces link_path).spec (P := fun t => Within t ∧ (t.inode target).links_count.toNat < MAX_LINKS)
      fun t u hr ht => ⟨ht.1.reduced hr, ?_⟩).weaken (fun t ht => ht ▸ ⟨h, hmax⟩) (fun _ _ h => h) (fun _ _ h => h.1)
    exact Nat.lt_of_le_of_lt (UInt16.le_iff_toNat_le.1 (hr.inodes target).links_le) ht.2
  · have hset : Within (t.set_inode target { t.inode target with links_count := (t.inode target).links_count + 1 }) := by
      refine ht.1.set_inode ?_
      show ((t.inode target).links_count + 1).toNat ≤ MAX_LINKS
      rw [toNat_add_one ht.2]
      exact ht.2
    exact hset.of_inodes rfl

/-! ## Runs -/

theorem run_within (h : Within s) {c : Call} (hroom : LinkRoom s c) :
    Spec (· = s) c.run (fun _ => Within) (fun _ => Within) := by
  cases c with
  | create a => exact (create_depth_within _ a).pre fun _ ht => ht ▸ h
  | link link_path target_path => exact link_within h hroom
  | remove path => exact (remove_within path).pre fun _ ht => ht ▸ h
  | remove_children path => exact (remove_children_within path).pre fun _ ht => ht ▸ h

theorem fresh_within (opts : FormatOptions) (random_uuid : Nat) (clock : Nat → UInt32 × UInt32) :
    Within (fresh opts random_uuid clock) := by
  refine within_iff.2 fun i hi => ?_
  simp only [fresh, mem_cons, mem_replicate] at hi
  rcases hi with rfl | rfl | ⟨-, rfl⟩
  · exact Nat.zero_le _
  · show (2 : UInt16).toNat ≤ MAX_LINKS
    decide
  · exact Nat.zero_le _

theorem within_of_reachable (h : Reachable LinkRoom s) : Within s := by
  obtain ⟨opts, random_uuid, clock, s₀, hs₀, hreach⟩ := h
  induction hreach with
  | start =>
    refine with_options_keeps (fun _ _ => Within.of_catalog) (fun t i ht _ hlinks => ht.set_inode ?_) (fun t ht => ?_)
      (fresh_within opts random_uuid clock) hs₀
    · rw [hlinks]
      decide
    · exact .err (.pre (create_depth_within _ _) fun _ h => h ▸ ht) fun _ _ _ => trivial
  | step _ hroom hrun _ ih => exact (run_within ih hroom).after rfl hrun

/-- In every state reached, every count is within the limit, and one more link does not make it wrap. -/
theorem links_within_limit (s : Formatter) (h : Reachable LinkRoom s) (n : Nat) :
    (s.inode n).links_count.toNat ≤ MAX_LINKS ∧ ((s.inode n).links_count + 1).toNat = (s.inode n).links_count.toNat + 1 := by
  have hle := within_of_reachable h n
  refine ⟨hle, ?_⟩
  simp only [MAX_LINKS] at hle
  rw [UInt16.toNat_add, UInt16.toNat_one]
  omega

theorem links_within_limit_of_file : ∃ s, Reachable LinkRoom s ∧ s.tree.lookup "/f".toList = some 2 ∧
    ∀ n, (s.inode n).links_count.toNat ≤ MAX_LINKS := by
  let file : Call := .create { path := "/f".toList, mode := make_mode file_mode.S_IFREG 0o644 }
  obtain ⟨s₀, hs₀, hrun, hfile⟩ := exists_ok_of_decide (x := small)
    (p := fun s => (file.run s).1.isOk = true ∧ (file.run s).2.tree.lookup "/f".toList = some 2) (by decide +kernel)
  have hreach : Reachable LinkRoom (file.run s₀).2 := ⟨_, _, _, s₀, hs₀, reaches_call .start trivial hrun⟩
  exact ⟨_, hreach, hfile, fun n => (links_within_limit _ hreach n).1⟩

/-! ## One link too many -/

def nth_name (k : Nat) : Str := [Char.ofNat (256 + k / 256), Char.ofNat (256 + k % 256)]

section NthName

variable {k j : Nat}

theorem toNat_nth (h : k < 2 ^ 16) : (Char.ofNat (256 + k / 256)).toNat = 256 + k / 256 ∧
    (Char.ofNat (256 + k % 256)).toNat = 256 + k % 256 := by
  have hofNat : ∀ n < 0xD800, (Char.ofNat n).toNat = n := by
    intro n hn
    rw [Char.ofNat, dif_pos (.inl hn)]
    rfl
  exact ⟨hofNat _ (by omega), hofNat _ (by omega)⟩

theorem nth_name_inj (hk : k < 2 ^ 16) (hj : j < 2 ^ 16) (h : nth_name k = nth_name j) : k = j := by
  simp only [nth_name, List.cons.injEq] at h
  have hfirst := congrArg Char.toNat h.1
  have hsecond := congrArg Char.toNat h.2.1
  rw [(toNat_nth hk).1, (toNat_nth hj).1] at hfirst
  rw [(toNat_nth hk).2, (toNat_nth hj).2] at hsecond
  omega

theorem nth_name_chars (h : k < 2 ^ 16) {c : Char} (hc : c ∈ nth_name k) : 256 ≤ c.toNat := by
  simp only [nth_name, mem_cons, not_mem_nil, or_false] at hc
  rcases hc with rfl | rfl
  · rw [(toNat_nth h).1]
    omega
  · rw [(toNat_nth h).2]
    omega

theorem normalName_nth (h : k < 2 ^ 16) : NormalName (nth_name k) := by
  refine ⟨by simp [nth_name], fun hslash => ?_, by simp [nth_name]⟩
  exact absurd (nth_name_chars h hslash) (by decide)

theorem validate_nth (h : k < 2 ^ 16) : validate_path_component_names ('/' :: nth_name k) = .ok () := by
  have hname := normalName_nth h
  have hsplit : split_slash ('/' :: nth_name k) = [[], nth_name k] := by
    rw [show '/' :: nth_name k = [] ++ '/' :: nth_name k from rfl, split_slash_append,
      split_slash_of_no_slash hname.no_slash]
    rfl
  have hdots : nth_name k ≠ ['.', '.'] := fun heq => absurd (nth_name_chars h (heq ▸ mem_cons_self)) (by decide)
  have hlen : (as_bytes (nth_name k)).length ≤ EXT4_NAME_LEN := by
    have h₁ := Char.utf8Size_le_four (Char.ofNat (256 + k / 256))
    have h₂ := Char.utf8Size_le_four (Char.ofNat (256 + k % 256))
    simp only [as_bytes, nth_name, flatMap_cons, flatMap_nil, length_append, length_nil,
      String.length_utf8EncodeChar, EXT4_NAME_LEN]
    omega
  simp only [validate_path_component_names, hsplit, forM_eq_ok, bind_eq_ok, require_eq_ok]
  intro name hmem
  simp only [mem_cons, not_mem_nil, or_false] at hmem
  rcases hmem with rfl | rfl
  · exact ⟨(), by decide, by decide⟩
  · exact ⟨(), ⟨hname.ne_dot, hdots⟩, hlen⟩

end NthName

/-- The file `/f` with `k` more names in the root directory, and none of the later ones. -/
structure Linkable (s : Formatter) (k : Nat) : Prop where
  root : s.tree.root = 0
  length : 0 < s.tree.nodes.length
  down : ∀ c ∈ (s.tree.node 0).children, 0 < c ∧ c < s.tree.nodes.length
  file : ∃ idx, (s.tree.node 0).children.find? (fun c => (s.tree.node c).name = ['f']) = some idx ∧
    (s.tree.node idx).inode = 12
  names : ∀ c ∈ (s.tree.node 0).children, ∀ j, k ≤ j → j < 2 ^ 16 → (s.tree.node c).name ≠ nth_name j
  inodes : 12 ≤ s.inodes.length
  is_file : (s.inode 12).is_dir = false
  links : (s.inode 12).links_count = .ofNat (k + 1)
  parent : (s.tree.node 0).inode = 2 ∧ (s.inode 2).links_count.toNat < MAX_LINKS

section Linkable

variable {k : Nat} (h : Linkable s k)
include h

theorem Linkable.lookup_entry {name : Str} (hname : NormalName name) :
    s.tree.lookup ('/' :: name) = (s.tree.node 0).children.find? fun c => (s.tree.node c).name = name := by
  rw [show '/' :: name = [] ++ '/' :: name from rfl, s.tree.lookup_append hname, FileTree.lookup_nil, h.root,
    Option.bind_some, FileTree.step_of_normal _ hname]

theorem Linkable.lookup_file {idx : Nat}
    (hidx : (s.tree.node 0).children.find? (fun c => (s.tree.node c).name = ['f']) = some idx) :
    s.tree.lookup "/f".toList = some idx :=
  (h.lookup_entry ⟨by simp, by decide, by decide⟩).trans hidx

theorem Linkable.step (hk : k < 2 ^ 16) :
    ∃ s', link ('/' :: nth_name k) "/f".toList s = (.ok (), s') ∧ Linkable s' (k + 1) := by
  have hname := normalName_nth hk
  obtain ⟨idx, hidx, hnumber⟩ := h.file
  have htarget := h.lookup_file hidx
  have hnone : s.tree.lookup ('/' :: nth_name k) = none := by
    rw [h.lookup_entry hname, find?_eq_none]
    intro c hc
    simpa using h.names c hc k (Nat.le_refl k) hk
  have hlast := last_component hname []
  have hparent : parent_of ('/' :: nth_name k) = ['/'] := hlast.2
  have hbase : basename ('/' :: nth_name k) = nth_name k := hlast.1
  generalize hs' : ({ s.set_inode 12 { s.inode 12 with links_count := (s.inode 12).links_count + 1 } with
    tree := s.tree.add_child 0 { inode := ROOT_INODE, name := nth_name k, link := some 12 } } : Formatter) = s'
  have hrun : link ('/' :: nth_name k) "/f".toList s = (.ok (), s') := by
    refine Run.bind_run_ok.2 ⟨(), s, Run.ofExcept_run_ok.2 ⟨validate_nth hk, rfl⟩, ?_⟩
    rw [Run.get_bind_run]
    refine Run.bind_run_ok.2 ⟨idx, s, Run.ofOption_run_ok.2 ⟨htarget, rfl⟩, ?_⟩
    rw [hnumber, hnone]
    refine Run.bind_run_ok.2 ⟨(), s, Run.check_run_ok.2 ⟨by simp [h.is_file], rfl⟩, ?_⟩
    rw [Option.map_none, if_neg (by simp), hparent, hbase]
    refine Run.bind_run_ok.2 ⟨0, s, Run.ofOption_run_ok.2 ⟨by rw [FileTree.lookup_root, h.root], rfl⟩, ?_⟩
    rw [h.parent.1]
    refine Run.bind_run_ok.2 ⟨(), s, Run.check_run_ok.2 ⟨h.parent.2, rfl⟩, ?_⟩
    rw [← hs']
    rfl
  have hinode : ∀ m, 0 < m → s'.inode m =
      if m = 12 then { s.inode 12 with links_count := (s.inode 12).links_count + 1 } else s.inode m := by
    intro m hm
    rw [← inode_set_inode (by decide) h.inodes hm, ← hs']
    rfl
  have hnode : ∀ c, s'.tree.node c = if c = 0 then { s.tree.node 0 with children := (s.tree.node 0).children ++ [s.tree.nodes.length] }
      else if c = s.tree.nodes.length then { inode := ROOT_INODE, name := nth_name k, link := some 12, parent := some 0 }
      else s.tree.node c := by
    intro c
    rw [← hs']
    exact FileTree.node_add_child h.length
  have hchildren : (s'.tree.node 0).children = (s.tree.node 0).children ++ [s.tree.nodes.length] := by
    rw [hnode, if_pos rfl]
  have hlen : s'.tree.nodes.length = s.tree.nodes.length + 1 := by
    rw [← hs']
    exact FileTree.length_add_child _ _
  have hold : ∀ c ∈ (s.tree.node 0).children, s'.tree.node c = s.tree.node c := by
    intro c hc
    have := h.down c hc
    rw [hnode, if_neg (by omega), if_neg (by omega)]
  have hnew : s'.tree.node s.tree.nodes.length = { inode := ROOT_INODE, name := nth_name k, link := some 12, parent := some 0 } := by
    rw [hnode, if_neg (Nat.ne_of_gt h.length), if_pos rfl]
  refine ⟨s', hrun, by rw [← hs']; exact h.root, by omega, ?_, ⟨idx, ?_, ?_⟩, ?_, by rw [← hs']; simpa [set_inode] using h.inodes,
    ?_, ?_, by rw [hnode, if_pos rfl]; exact h.parent.1, by rw [hinode 2 (by decide), if_neg (by decide)]; exact h.parent.2⟩
  · have := h.length
    rw [hchildren]
    refine forall_mem_append.2 ⟨fun c hc => ?_, forall_mem_singleton.2 (by omega)⟩
    have := h.down c hc
    omega
  · have hsame : (s.tree.node 0).children.find? (fun c => (s'.tree.node c).name = ['f']) = some idx := by
      rw [← hidx]
      exact find?_congr fun c hc => by rw [hold c hc]
    rw [hchildren, find?_append, hsame]
    rfl
  · rw [hold idx (mem_of_find?_eq_some hidx)]
    exact hnumber
  · rw [hchildren]
    refine forall_mem_append.2 ⟨fun c hc j hj hlt => ?_, forall_mem_singleton.2 fun j hj hlt => ?_⟩
    · rw [hold c hc]
      exact h.names c hc j (by omega) hlt
    · rw [hnew]
      intro heq
      have := nth_name_inj hk hlt heq
      omega
  · rw [hinode 12 (by decide), if_pos rfl]
    exact h.is_file
  · rw [hinode 12 (by decide), if_pos rfl]
    show (s.inode 12).links_count + 1 = _
    rw [h.links]
    exact (UInt16.ofNat_add (k + 1) 1).symm

end Linkable

theorem Linkable.run {s₀ : Formatter} (h : Linkable s 0) (hreach : Reaches AddsEntry s₀ s) {k : Nat} (hk : k ≤ 2 ^ 16) :
    ∃ s', Reaches AddsEntry s₀ s' ∧ Linkable s' k := by
  induction k with
  | zero => exact ⟨s, hreach, h⟩
  | succ k ih =>
    obtain ⟨t, hreach', ht⟩ := ih (by omega)
    obtain ⟨s', hrun, hs'⟩ := ht.step hk
    refine ⟨s', ?_, hs'⟩
    have hrun : (Call.link ('/' :: nth_name k) "/f".toList).run t = (.ok (), s') := hrun
    exact .step hreach' ⟨trivial, by rw [hrun]; rfl⟩ hrun (by simp)

/-- With 65001 names the count of `/f` is past the limit, and with 65536 it has wrapped to 0. -/
theorem links_pass_limit : ∃ s₀, small = .ok s₀ ∧
    (∃ s, Reaches AddsEntry s₀ s ∧ (s.inode 12).links_count.toNat = MAX_LINKS + 1) ∧
    ∃ s idx, Reaches AddsEntry s₀ s ∧ s.tree.lookup "/f".toList = some idx ∧ (s.tree.node idx).inode = 12 ∧
      (s.inode 12).links_count = 0 := by
  let file : Call := .create { path := "/f".toList, mode := make_mode file_mode.S_IFREG 0o644 }
  obtain ⟨s₀, hs₀, hrun, hroot, hlen, hchildren, hinode, hname₁, hname₂, hnumber, hinodes, hfile, hlinks, hparent⟩ :=
    exists_ok_of_decide (x := small)
    (p := fun s =>
      let s' := (file.run s).2
      (file.run s).1.isOk = true ∧ s'.tree.root = 0 ∧ s'.tree.nodes.length = 3 ∧ (s'.tree.node 0).children = [1, 2] ∧
        (s'.tree.node 0).inode = 2 ∧ (s'.tree.node 1).name = "lost+found".toList ∧ (s'.tree.node 2).name = "f".toList ∧
        (s'.tree.node 2).inode = 12 ∧ s'.inodes.length = 12 ∧ (s'.inode 12).is_dir = false ∧ (s'.inode 12).links_count = 1 ∧
        (s'.inode 2).links_count = 3)
    (by decide +kernel)
  have hreach : Reaches AddsEntry s₀ (file.run s₀).2 := reaches_call .start ⟨trivial, hrun⟩ hrun
  generalize (file.run s₀).2 = s₁ at *
  have hlinkable : Linkable s₁ 0 := by
    refine ⟨hroot, by omega, ?_, ⟨2, ?_, hnumber⟩, ?_, by omega, hfile, hlinks, hinode, by rw [hparent]; decide⟩
    · rw [hchildren, hlen]
      decide
    · rw [hchildren]
      simp [hname₁, hname₂]
    · rw [hchildren]
      intro c hc j _ _ heq
      -- the names there have another length
      have hlength := congrArg length heq
      simp only [mem_cons, not_mem_nil, or_false] at hc
      rcases hc with rfl | rfl
      · rw [hname₁] at hlength
        exact absurd hlength (by simp [nth_name])
      · rw [hname₂] at hlength
        exact absurd hlength (by simp [nth_name])
  refine ⟨s₀, hs₀, ?_, ?_⟩
  · obtain ⟨s, hs, hmany⟩ := hlinkable.run hreach (k := 65000) (by decide)
    refine ⟨s, hs, ?_⟩
    rw [hmany.links]
    decide
  · obtain ⟨s, hs, hmany⟩ := hlinkable.run hreach (k := 65535) (by decide)
    obtain ⟨idx, hidx, hnumber⟩ := hmany.file
    refine ⟨s, idx, hs, hmany.lookup_file hidx, hnumber, ?_⟩
    rw [hmany.links]
    decide

end Formatter

end Silo.Ext4
