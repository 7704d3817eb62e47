import Mathlib.Logic.Relation
import Mathlib.Data.List.Find
import Mathlib.Data.List.TakeWhile
import Silo.Ext4.Formatter
/-!
# Paths and the shape of the tree

How `lookup` follows a path component by component, and what adding and removing an
entry does to the nodes of the tree.
-/

open List

namespace Silo.Ext4

/-! ## Components of a path -/

structure NormalName (name : Str) : Prop where
  ne_nil : name ≠ []
  no_slash : '/' ∉ name
  ne_dot : name ≠ ['.']

theorem split_slash_ne_nil (s : Str) : split_slash s ≠ [] := by
  cases s with
  | nil => simp [split_slash]
  | cons c cs =>
    unfold split_slash
    split
    · simp
    · split <;> simp

theorem split_slash_append (a b : Str) : split_slash (a ++ '/' :: b) = split_slash a ++ split_slash b := by
  induction a with
  | nil => simp [split_slash]
  | cons c cs ih =>
    by_cases hc : c = '/'
    · simp [split_slash, hc, ih]
    · rw [cons_append, split_slash, split_slash, if_neg hc, if_neg hc, ih]
      obtain ⟨piece, pieces, h⟩ := exists_cons_of_ne_nil (split_slash_ne_nil cs)
      simp [h]

theorem split_slash_of_no_slash {s : Str} (h : '/' ∉ s) : split_slash s = [s] := by
  induction s with
  | nil => rfl
  | cons c cs ih =>
    simp only [mem_cons, not_or] at h
    rw [split_slash, if_neg (Ne.symm h.1), ih h.2]

variable {name : Str}

theorem components_append (h : NormalName name) (path : Str) :
    components (path ++ '/' :: name) = (if path = [] then [['/']] else components path) ++ [name] := by
  have hsplit : split_slash (path ++ '/' :: name) = split_slash path ++ [name] := by
    rw [split_slash_append, split_slash_of_no_slash h.no_slash]
  have hfilter : [name].filter (fun piece => piece ≠ [] ∧ piece ≠ ['.']) = [name] := by
    simp [h.ne_nil, h.ne_dot]
  cases path with
  | nil =>
    have hsplit : split_slash ('/' :: name) = [[], name] := hsplit
    show components ('/' :: name) = [['/'], name]
    rw [components, hsplit]
    simp [h.ne_nil, h.ne_dot]
  | cons c cs =>
    obtain ⟨piece, pieces, hp⟩ := exists_cons_of_ne_nil (split_slash_ne_nil (c :: cs))
    simp only [components, hsplit, filter_append, hfilter, hp]
    simp

namespace FileTree

variable (t : FileTree)

theorem step_of_normal (h : NormalName name) (idx : Nat) :
    t.step idx name = (t.node idx).children.find? fun child => (t.node child).name = name := by
  have hslash : name ≠ ['/'] := fun h' => h.no_slash (by simp [h'])
  simp [step, hslash, h.ne_nil]

theorem lookup_nil : t.lookup [] = some t.root := rfl

theorem lookup_root : t.lookup ['/'] = some t.root := rfl

def walk (names : List Str) (idx : Nat) : Option Nat := names.foldlM t.step idx

theorem walk_append (a b : List Str) (idx : Nat) : t.walk (a ++ b) idx = (t.walk a idx).bind (t.walk b) := by
  simp only [walk, foldlM_append]
  rfl

theorem lookup_append (h : NormalName name) (path : Str) :
    t.lookup (path ++ '/' :: name) = (t.lookup path).bind fun idx => t.step idx name := by
  have hstep : ∀ idx, t.walk [name] idx = t.step idx name := fun idx => by simp [walk]
  show t.walk (components (path ++ '/' :: name)) t.root = _
  rw [components_append h, walk_append]
  split
  · next hnil =>
    subst hnil
    exact hstep t.root
  · exact congrArg _ (funext hstep)

end FileTree

/-! ## The last component -/

/-- The path above the last component, without a slash at its end; nothing for a bare name. -/
def front (path : Str) : Option Str :=
  match (trim_end_slashes path).reverse.dropWhile (· ≠ '/') with
  | [] => none
  | _ :: rest => some rest.reverse

theorem parent_of_eq {path : Str} (h : trim_end_slashes path ≠ []) :
    parent_of path = match front path with
      | none | some [] => ['/']
      | some f => f := by
  have hroot : path ≠ ['/'] := fun h' => h (by rw [h']; rfl)
  unfold parent_of front
  rw [if_neg hroot]
  generalize (trim_end_slashes path).reverse.dropWhile (· ≠ '/') = r
  match r with
  | [] => rfl
  | [_] => rfl
  | _ :: d :: rest =>
    obtain ⟨e, es, hr⟩ := exists_cons_of_ne_nil (show (d :: rest).reverse ≠ [] by simp)
    simp only [if_neg (cons_ne_nil d rest), hr]

theorem basename_eq {path : Str} (h : trim_end_slashes path ≠ []) :
    basename path = ((trim_end_slashes path).reverse.takeWhile (· ≠ '/')).reverse := by
  have hroot : path ≠ ['/'] := fun h' => h (by rw [h']; rfl)
  rw [basename, if_neg hroot]

theorem trim_end_slashes_name (h : NormalName name) (path : Str) :
    trim_end_slashes (path ++ '/' :: name) = path ++ '/' :: name := by
  obtain ⟨c, cs, hrev⟩ := exists_cons_of_ne_nil (show name.reverse ≠ [] by simpa using h.ne_nil)
  have hc : c ≠ '/' := by
    rintro rfl
    exact h.no_slash (mem_reverse.1 (hrev ▸ mem_cons_self))
  have hdrop : (path ++ '/' :: name).reverse.dropWhile (· = '/') = (path ++ '/' :: name).reverse := by
    rw [reverse_append, reverse_cons, hrev]
    simp [hc]
  rw [trim_end_slashes, hdrop, reverse_reverse]

theorem last_component (h : NormalName name) (path : Str) :
    basename (path ++ '/' :: name) = name ∧ parent_of (path ++ '/' :: name) = if path = [] then ['/'] else path := by
  have htrim := trim_end_slashes_name h path
  have hne : trim_end_slashes (path ++ '/' :: name) ≠ [] := by simp [htrim]
  have hall : ∀ c ∈ name.reverse, decide (c ≠ '/') := fun c hc =>
    decide_eq_true fun heq => h.no_slash (heq ▸ mem_reverse.1 hc)
  have hrev : (path ++ '/' :: name).reverse = name.reverse ++ '/' :: path.reverse := by simp
  constructor
  · rw [basename_eq hne, htrim, hrev, takeWhile_append_of_pos hall]
    simp
  · have hfront : front (path ++ '/' :: name) = some path := by
      rw [front, htrim, hrev, dropWhile_append_of_pos hall]
      simp
    rw [parent_of_eq hne, hfront]
    cases path <;> rfl

/-! ## Entries -/

namespace FileTree

variable {t : FileTree} {i p : Nat}

theorem node_of_lt (h : i < t.nodes.length) : t.node i = t.nodes[i] := by
  simp [node, getD, h]

theorem node_of_ge (h : t.nodes.length ≤ i) : t.node i = default := by
  simp [node, getD, h]

theorem node_set_node (n : FileTreeNode) (hp : p < t.nodes.length) :
    (t.set_node p n).node i = if i = p then n else t.node i := by
  by_cases h : i = p
  · subst h
    simp [node, set_node, getD, hp]
  · simp [node, set_node, getD, Ne.symm h, h]

theorem node_add_child {n : FileTreeNode} (hp : p < t.nodes.length) :
    (t.add_child p n).node i =
      if i = p then { t.node p with children := (t.node p).children ++ [t.nodes.length] }
      else if i = t.nodes.length then { n with parent := some p }
      else t.node i := by
  have hlast : ∀ j, ({ t with nodes := t.nodes ++ [{ n with parent := some p }] } : FileTree).node j =
      if j = t.nodes.length then { n with parent := some p } else t.node j := by
    intro j
    rcases Nat.lt_trichotomy j t.nodes.length with h | h | h
    · rw [if_neg (by omega), node_of_lt (by simp; omega), node_of_lt h]
      exact getElem_append_left h
    · simp [node, h]
    · rw [if_neg (by omega), node_of_ge (by simp; omega), node_of_ge (by omega)]
  have hparent : ({ t with nodes := t.nodes ++ [{ n with parent := some p }] } : FileTree).node p = t.node p := by
    rw [hlast, if_neg (by omega)]
  rw [add_child, node_set_node _ (by simp; omega), hparent, hlast]

theorem length_add_child (p : Nat) (n : FileTreeNode) : (t.add_child p n).nodes.length = t.nodes.length + 1 := by
  simp [add_child, set_node]

theorem node_remove_child (hp : p < t.nodes.length) :
    (t.remove_child p name).node i =
      if i = p then
        { t.node p with children := (t.node p).children.eraseP fun child => (t.node child).name = name }
      else t.node i :=
  node_set_node _ hp

end FileTree

end Silo.Ext4
