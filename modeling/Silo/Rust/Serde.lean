import Silo.Lib.Checks
import Silo.Rust.Json
/-!
# Derived serialisation

What `derive(Serialize, Deserialize)` does for structs and unit enums on `serde_json` values:
named fields in order, defaults for absent ones, and fields left out when they are empty.
-/

namespace Silo.Rust.Serde

open Rust.BTreeMap List Value

variable {α β : Type}

/-! ## Writing -/

def str (s : String) : Value := .string s

def u16 (n : UInt16) : Value := .number (.pos n.toUInt64)

def u32 (n : UInt32) : Value := .number (.pos n.toUInt64)

def u64 (n : UInt64) : Value := .number (.pos n)

theorem i32_bound (n : Int32) : (-n.toInt - 1).toNat < 2 ^ 63 := by
  have h1 := n.minValue_le_toInt
  have h2 : Int32.minValue.toInt = -2 ^ 31 := rfl
  omega

def i32 (n : Int32) : Value :=
  if 0 ≤ n.toInt then .number (.pos (.ofNat n.toInt.toNat)) else .number (.neg ⟨(-n.toInt - 1).toNat, i32_bound n⟩)

def vec (f : α → Value) (l : List α) : Value := .array (l.map f)

/-- `skip_serializing_if = "Option::is_none"`. -/
def optional (name : String) (f : α → Value) (o : Option α) : Value.Members :=
  match o with
  | none => []
  | some a => [(name, f a)]

/-- `skip_serializing_if = "Vec::is_empty"`. -/
def unless_empty (name : String) (f : α → Value) (l : List α) : Value.Members :=
  if l = [] then [] else [(name, vec f l)]

/-! ## Reading -/

def read_str : Value → Option String
  | .string s => some s
  | _ => none

def read_bool : Value → Option Bool
  | .bool b => some b
  | _ => none

def read_nat (bound : Nat) : Value → Option Nat
  | .number (.pos n) => if n.toNat < bound then some n.toNat else none
  | _ => none

def read_u16 (v : Value) : Option UInt16 := (read_nat (2 ^ 16) v).map .ofNat

def read_u32 (v : Value) : Option UInt32 := (read_nat (2 ^ 32) v).map .ofNat

def read_u64 (v : Value) : Option UInt64 := (read_nat (2 ^ 64) v).map .ofNat

def read_i32 : Value → Option Int32
  | .number (.pos n) => if n.toNat < 2 ^ 31 then some (.ofInt n.toNat) else none
  | .number (.neg m) => if m.val < 2 ^ 31 then some (.ofInt (-m.val - 1)) else none
  | _ => none

def read_vec (f : Value → Option α) : Value → Option (List α)
  | .array items => items.mapM f
  | _ => none

def read_option (f : Value → Option α) : Value → Option (Option α)
  | .null => some none
  | v => (f v).map some

def read_map : Value → Option Map
  | .object members => some (.ofMembers members)
  | _ => none

/-- The variant of a unit enum, by name or as a map from the name to null. -/
def read_variant (f : String → Option α) : Value → Option α
  | .string s => f s
  | .object [(s, .null)] => f s
  | _ => none

/-- The fields of a struct: a map without repeated known keys, or the values in order. With `deny` an unknown key
is refused, else it is ignored. -/
def struct_fields (deny : Bool) (names : List String) : Value → Option Value.Members
  | .object members =>
    if (deny → ∀ m ∈ members, m.1 ∈ names) ∧ ((members.map Prod.fst).filter (· ∈ names)).Nodup then some members
    else none
  | .array items => if items.length ≤ names.length then some (names.zip items) else none
  | _ => none

def required (fields : Value.Members) (name : String) (f : Value → Option α) : Option α := (fields.lookup name).bind f

/-- `serde(default)`. -/
def defaulted (fields : Value.Members) (name : String) (f : Value → Option α) (default : α) : Option α :=
  match fields.lookup name with
  | none => some default
  | some v => f v

/-! ## Reading back what was written -/

@[simp] theorem read_str_str (s : String) : read_str (str s) = some s := rfl

@[simp] theorem read_bool_bool (b : Bool) : read_bool (.bool b) = some b := rfl

@[simp] theorem read_u16_u16 (n : UInt16) : read_u16 (u16 n) = some n := by
  have h := n.toNat_lt
  simp [read_u16, u16, read_nat, h]

@[simp] theorem read_u32_u32 (n : UInt32) : read_u32 (u32 n) = some n := by
  have h := n.toNat_lt
  simp [read_u32, u32, read_nat, h]

@[simp] theorem read_u64_u64 (n : UInt64) : read_u64 (u64 n) = some n := by
  have h := n.toNat_lt
  simp [read_u64, u64, read_nat, h]

@[simp] theorem read_i32_i32 (n : Int32) : read_i32 (i32 n) = some n := by
  have h1 := n.minValue_le_toInt
  have h2 : Int32.minValue.toInt = -2 ^ 31 := rfl
  have h3 := n.toInt_le
  have h4 : Int32.maxValue.toInt = 2 ^ 31 - 1 := rfl
  unfold i32
  split
  · rename_i h
    have hlt : n.toInt.toNat < 2 ^ 64 := by omega
    have hn : (UInt64.ofNat n.toInt.toNat).toNat = n.toInt.toNat := UInt64.toNat_ofNat_of_lt' hlt
    rw [read_i32, hn, if_pos (by omega), Int.toNat_of_nonneg h, Int32.ofInt_toInt]
  · rename_i h
    have hlt : (-n.toInt - 1).toNat < 2 ^ 31 := by omega
    have hn : -(((-n.toInt - 1).toNat : Nat) : Int) - 1 = n.toInt := by omega
    rw [read_i32, if_pos hlt, hn, Int32.ofInt_toInt]

variable {f : α → Value} {g : Value → Option α} {names : List String} {l : List α}

theorem read_vec_vec (h : ∀ a, g (f a) = some a) (l : List α) : read_vec g (vec f l) = some l := by
  unfold read_vec vec
  induction l with
  | nil => rfl
  | cons a l ih => simp [h, ih]

@[simp] theorem read_map_members (m : Map) : read_map (.object m.members) = some m := by
  simp [read_map, Map.ofMembers_members]

/-! ## Keys -/

/-- The keys written are the struct's fields, in order. -/
def Writes (names : List String) (members : Value.Members) : Prop := (members.map Prod.fst).Sublist names

theorem Writes.nil : Writes [] [] := .slnil

theorem Writes.append {a b : List String} {x y : Members} (ha : Writes a x) (hb : Writes b y) :
    Writes (a ++ b) (x ++ y) := by
  unfold Writes
  rw [map_append]
  exact .append ha hb

theorem lookup_member (name key : String) (o : Option Value) :
    (o.map (Prod.mk name)).toList.lookup key = if key = name then o else none := by
  cases o with
  | none => simp
  | some v =>
    by_cases h : key = name
    · simp [h]
    · simp [lookup_cons, beq_false_of_ne h, h]

theorem optional_eq (name : String) (f : α → Value) (o : Option α) :
    optional name f o = ((o.map f).map (Prod.mk name)).toList := by
  cases o <;> rfl

theorem unless_empty_eq (name : String) (f : α → Value) (l : List α) :
    unless_empty name f l = ((if l = [] then none else some (vec f l)).map (Prod.mk name)).toList := by
  unfold unless_empty
  split <;> rfl

section Chain
variable {names : List String} {members : Value.Members} {name : String}

section
variable (h : Writes names members)
include h

theorem Writes.one {v : Value} : Writes (names ++ [name]) (members ++ [(name, v)]) :=
  h.append (.refl [name])

/-- A member that is left out where there is no value. -/
theorem Writes.member {o : Option Value} :
    Writes (names ++ [name]) (members ++ (o.map (Prod.mk name)).toList) := by
  cases o with
  | none => exact h.append (nil_sublist _)
  | some v => exact h.one

theorem Writes.optional {f : α → Value} {o : Option α} :
    Writes (names ++ [name]) (members ++ optional name f o) :=
  optional_eq name f o ▸ h.member

theorem Writes.unless_empty {f : α → Value} {l : List α} :
    Writes (names ++ [name]) (members ++ unless_empty name f l) :=
  unless_empty_eq name f l ▸ h.member

end

end Chain

theorem Writes.struct_fields {members : Members} (h : Writes names members) (hn : names.Nodup) (deny : Bool)
    : struct_fields deny names (.object members) = some members := by
  have hsub : ∀ m ∈ members, m.1 ∈ names := fun m hm => h.subset (mem_map_of_mem hm)
  have hnodup : ((members.map Prod.fst).filter (· ∈ names)).Nodup := (hn.sublist h).filter _
  rw [Serde.struct_fields, if_pos ⟨fun _ => hsub, hnodup⟩]

theorem Writes.read {β : Type} {members : Members} (h : Writes names members) (hn : names.Nodup) {deny : Bool}
    (k : Members → Option β) : (Serde.struct_fields deny names (.object members) >>= k) = k members := by
  rw [h.struct_fields hn]
  rfl

@[simp] theorem lookup_optional (name key : String) (f : α → Value) (o : Option α) :
    (optional name f o).lookup key = if key = name then o.map f else none := by
  rw [optional_eq, lookup_member]

@[simp] theorem lookup_unless_empty (name key : String) (f : α → Value) (l : List α) :
    (unless_empty name f l).lookup key = if key = name then if l = [] then none else some (vec f l) else none := by
  rw [unless_empty_eq, lookup_member]

variable {fields : Value.Members} {v : Value} {name : String}

theorem defaulted_eq (f : Value → Option α) (default : α) :
    defaulted fields name f default = (fields.lookup name).elim (some default) f := by
  unfold defaulted
  cases fields.lookup name <;> rfl

theorem elim_optional (hg : ∀ a, g (f a) = some a) (hnull : ∀ a, f a ≠ .null) (o : Option α)
    : o.elim (some none) (read_option g ∘ f) = some o := by
  cases o with
  | none => rfl
  | some a =>
    rw [Option.elim_some, Function.comp_apply, read_option]
    · simp [hg]
    · exact hnull a

theorem elim_unless_empty (hg : ∀ a, g (f a) = some a) (l : List α) :
    (if l = [] then none else some (vec f l)).elim (some []) (read_vec g) = some l := by
  by_cases hl : l = []
  · simp [hl]
  · simp [hl, read_vec_vec hg]

/-! ## Plain values -/

/-- A value without floats, nested at most `n` deep. -/
structure Plain (n : Nat) (v : Value) : Prop where
  floats : ∀ f, v.mapFloats f = v
  depth : v.depth ≤ n

theorem Plain.mono {m n : Nat} (h : Plain m v) (hmn : m ≤ n) : Plain n v := ⟨h.floats, h.depth.trans hmn⟩

variable (n : Nat)

theorem plain_str (s : String) : Plain n (str s) := ⟨fun _ => rfl, Nat.zero_le _⟩

theorem plain_bool (b : Bool) : Plain n (.bool b) := ⟨fun _ => rfl, Nat.zero_le _⟩

theorem plain_u16 (k : UInt16) : Plain n (u16 k) := ⟨fun _ => rfl, Nat.zero_le _⟩

theorem plain_u32 (k : UInt32) : Plain n (u32 k) := ⟨fun _ => rfl, Nat.zero_le _⟩

theorem plain_u64 (k : UInt64) : Plain n (u64 k) := ⟨fun _ => rfl, Nat.zero_le _⟩

theorem plain_i32 (k : Int32) : Plain n (i32 k) := by
  unfold i32
  split
  · exact ⟨fun _ => rfl, Nat.zero_le _⟩
  · exact ⟨fun _ => rfl, Nat.zero_le _⟩

variable {n : Nat}

theorem plain_vec (h : ∀ a, Plain n (f a)) (l : List α) : Plain (n + 1) (vec f l) := by
  constructor
  · intro g
    show array _ = array _
    congr 1
    induction l with
    | nil => rfl
    | cons a l ih => rw [map_cons, mapFloatsItems, (h a).floats g, ih]
  · refine Nat.succ_le_succ (depthItems_le.2 fun v hv => ?_)
    obtain ⟨a, -, rfl⟩ := mem_map.1 hv
    exact (h a).depth

theorem plain_object {ms : Members} (h : ∀ m ∈ ms, Plain n m.2) : Plain (n + 1) (.object ms) := by
  constructor
  · intro g
    show object _ = object _
    rw [mapFloatsMembers_eq_map]
    congr 1
    exact (map_congr_left fun m hm => by rw [(h m hm).floats g]; rfl).trans (map_id ms)
  · exact Nat.succ_le_succ (depthMembers_le.2 fun m hm => (h m hm).depth)

theorem plain_optional {o : Option α} (h : ∀ a, Plain n (f a)) : ∀ m ∈ optional name f o, Plain n m.2 := by
  cases o with
  | none => simp [optional]
  | some a => simpa [optional] using h a

theorem plain_unless_empty (h : ∀ a, Plain n (f a)) : ∀ m ∈ unless_empty name f l, Plain (n + 1) m.2 := by
  unfold unless_empty
  split
  · simp
  · simpa using plain_vec h l

/-! ## Depth of what is read -/

theorem depth_lt_of_struct_fields {deny : Bool} (h : struct_fields deny names v = some fields)
    : ∀ m ∈ fields, m.2.depth < v.depth := by
  cases v with
  | object members =>
    rw [struct_fields, Option.ite_none_right_eq_some, Option.some.injEq] at h
    obtain ⟨-, rfl⟩ := h
    exact fun m hm => Nat.lt_succ_of_le (depthMembers_le.1 le_rfl m hm)
  | array items =>
    rw [struct_fields, Option.ite_none_right_eq_some, Option.some.injEq] at h
    obtain ⟨-, rfl⟩ := h
    exact fun m hm => Nat.lt_succ_of_le (depthItems_le.1 le_rfl m.2 (of_mem_zip hm).2)
  | null => cases h
  | bool b => cases h
  | number n => cases h
  | string s => cases h

theorem depth_lt_of_lookup (h : ∀ m ∈ fields, m.2.depth < v.depth) {name : String}
    {w : Value} (hw : fields.lookup name = some w) : w.depth < v.depth := by
  obtain ⟨l, r, rfl, -⟩ := lookup_eq_some_iff.1 hw
  exact h (name, w) (by simp)

theorem depth_le_of_read_map {m : Map} (h : read_map v = some m) : (Value.object m.members).depth ≤ v.depth := by
  cases v with
  | object members =>
    obtain rfl : Map.ofMembers members = m := by simpa [read_map] using h
    exact depth_read_le (.object members)
  | _ => cases h

/-- A map field is a level below its struct; an absent one is empty. -/
theorem depth_of_defaulted_map (h : ∀ m ∈ fields, m.2.depth < v.depth) {name : String}
    {m : Map} (hm : defaulted fields name read_map .empty = some m) :
    (object m.members).depth ≤ 1 ∨ (object m.members).depth < v.depth := by
  unfold defaulted at hm
  split at hm
  · cases hm
    exact .inl le_rfl
  · rename_i w hw
    exact .inr (lt_of_le_of_lt (depth_le_of_read_map hm) (depth_lt_of_lookup h hw))

theorem mapM_eq_some {f : Value → Option α} {items : List Value} :
    items.mapM f = some l ↔ List.Forall₂ (fun v a => f v = some a) items l := by
  induction items generalizing l with
  | nil => cases l <;> simp
  | cons v items ih =>
    rw [mapM_cons]
    cases l with
    | nil => simp [Option.bind_eq_some_iff]
    | cons a l => simp [forall₂_cons, ← ih, Option.bind_eq_some_iff]

/-- The items of a list field are two levels below its struct. -/
theorem depth_of_defaulted_vec (h : ∀ m ∈ fields, m.2.depth < v.depth) {f : Value → Option α}
    (hl : defaulted fields name (read_vec f) [] = some l) : ∀ a ∈ l, ∃ w, f w = some a ∧ w.depth + 2 ≤ v.depth := by
  unfold defaulted at hl
  split at hl
  · cases hl
    simp
  · rename_i w hw
    have hd := depth_lt_of_lookup h hw
    cases w with
    | array items =>
      intro a ha
      obtain ⟨w, hw, hfw⟩ := Lib.forall₂_exists_left (mapM_eq_some.1 hl) a ha
      have hi : w.depth ≤ depthItems items := depthItems_le.1 le_rfl w hw
      have ha' : (Value.array items).depth = depthItems items + 1 := rfl
      exact ⟨w, hfw, by omega⟩
    | _ => cases hl

end Silo.Rust.Serde
