import Silo.Rust.BTreeMap
import Mathlib.Data.Rat.Defs
/-!
# JSON values

`serde_json::Value`. Objects are ordered maps: reading members in any order, with later
ones replacing earlier ones, gives a list sorted by key, and such a list reads as itself.
-/

namespace Silo.Rust

open Rust.BTreeMap List

/-- `serde_json::Number`: an unsigned integer, `-(m + 1)`, or the value of a finite float. -/
inductive Number where
  | pos (n : UInt64)
  | neg (m : Fin (2 ^ 63))
  | float (q : ℚ)
  deriving DecidableEq

inductive Value where
  | null
  | bool (b : Bool)
  | number (n : Number)
  | string (s : String)
  | array (items : List Value)
  | object (members : List (String × Value))

namespace Value

abbrev Members := Entries Value

def as_array : Value → Option (List Value)
  | array items => some items
  | _ => none

def as_str : Value → Option String
  | string s => some s
  | _ => none

def as_u64 : Value → Option UInt64
  | number (.pos n) => some n
  | _ => none

/-! ## Reading a value -/

mutual
/-- The value that the members in the text's order, repetitions included, are read as. -/
def read : Value → Value
  | array items => array (readItems items)
  | object members => object (readMembers [] members)
  | null => null
  | bool b => bool b
  | number n => number n
  | string s => string s

def readItems : List Value → List Value
  | [] => []
  | v :: vs => v.read :: readItems vs

def readMembers (done : Members) : Members → Members
  | [] => done
  | (k, v) :: ms => readMembers (insert k v.read done) ms
end

mutual
def mapFloats (f : ℚ → ℚ) : Value → Value
  | array items => array (mapFloatsItems f items)
  | object members => object (mapFloatsMembers f members)
  | number (.float q) => number (.float (f q))
  | number (.pos n) => number (.pos n)
  | number (.neg m) => number (.neg m)
  | null => null
  | bool b => bool b
  | string s => string s

def mapFloatsItems (f : ℚ → ℚ) : List Value → List Value
  | [] => []
  | v :: vs => v.mapFloats f :: mapFloatsItems f vs

def mapFloatsMembers (f : ℚ → ℚ) : Members → Members
  | [] => []
  | (k, v) :: ms => (k, v.mapFloats f) :: mapFloatsMembers f ms
end

mutual
/-- How many arrays and objects are open at the innermost point. -/
def depth : Value → Nat
  | array items => depthItems items + 1
  | object members => depthMembers members + 1
  | null => 0
  | bool _ => 0
  | number _ => 0
  | string _ => 0

def depthItems : List Value → Nat
  | [] => 0
  | v :: vs => max v.depth (depthItems vs)

def depthMembers : Members → Nat
  | [] => 0
  | (_, v) :: ms => max v.depth (depthMembers ms)
end

/-! ## What reading leaves alone -/

theorem sorted_readMembers (ms : Members) : ∀ {done : Members}, Sorted done → Sorted (readMembers done ms) := by
  induction ms with
  | nil => exact id
  | cons m ms ih => exact fun h => ih (sorted_insert _ _ h)

/-- Members in order whose values read as themselves are read as they stand. -/
theorem readMembers_of_sorted (ms : Members) (hv : ∀ m ∈ ms, m.2.read = m.2) :
    ∀ done, Sorted (done ++ ms) → readMembers done ms = done ++ ms := by
  induction ms with
  | nil => intro done _; simp [readMembers]
  | cons m ms ih =>
    intro done hs
    have hlast : ∀ d ∈ done, d.1 < m.1 := fun d hd => (pairwise_append.1 hs).2.2 d hd m (by simp)
    rw [readMembers, hv m (by simp), insert_last _ _ hlast, ih (fun x hx => hv x (by simp [hx])) _ (by simpa using hs)]
    simp

mutual
theorem read_read : ∀ v : Value, v.read.read = v.read
  | array items => by rw [read, read, readItems_readItems items]
  | object members => by
    rw [read, read, readMembers_of_sorted _ (read_readMembers members (by simp)) []
      (by simpa using sorted_readMembers members List.Pairwise.nil)]
    rfl
  | null => rfl
  | bool _ => rfl
  | number _ => rfl
  | string _ => rfl

theorem readItems_readItems : ∀ vs : List Value, readItems (readItems vs) = readItems vs
  | [] => rfl
  | v :: vs => by rw [readItems, readItems, read_read v, readItems_readItems vs]

theorem read_readMembers : ∀ (ms : Members) {done : Members}, (∀ m ∈ done, m.2.read = m.2) →
    ∀ m ∈ readMembers done ms, m.2.read = m.2
  | [], _, h => h
  | (k, v) :: ms, _, h => read_readMembers ms (fun m hm => by
    rcases mem_insert hm with rfl | hm
    · exact read_read v
    · exact h m hm)
end

theorem readItems_eq_self {vs : List Value} : readItems vs = vs ↔ ∀ v ∈ vs, v.read = v := by
  induction vs with
  | nil => simp [readItems]
  | cons v vs ih => simp [readItems, ih]

theorem mapFloatsMembers_eq_map (f : ℚ → ℚ) (ms : Members) :
    mapFloatsMembers f ms = ms.map (fun m => (m.1, m.2.mapFloats f)) := by
  induction ms with
  | nil => rfl
  | cons m ms ih => simp [mapFloatsMembers, ih]

theorem read_object_iff {ms : Members} :
    (object ms).read = object ms ↔ Sorted ms ∧ ∀ m ∈ ms, m.2.read = m.2 := by
  constructor
  · intro h
    have hms : readMembers [] ms = ms := by simpa [read] using h
    rw [← hms]
    exact ⟨sorted_readMembers ms List.Pairwise.nil, read_readMembers ms (by simp)⟩
  · rintro ⟨hs, hv⟩
    rw [read, readMembers_of_sorted ms hv [] (by simpa using hs)]
    rfl

mutual
theorem read_mapFloats (f : ℚ → ℚ) : ∀ v : Value, v.read = v → (v.mapFloats f).read = v.mapFloats f
  | array items, h => by
    have hi := readItems_eq_self.1 (array.inj h)
    simp only [mapFloats, read]
    exact congrArg array (readItems_eq_self.2 (read_mapFloatsItems f items hi))
  | object members, h => by
    obtain ⟨hs, hv⟩ := read_object_iff.1 h
    refine read_object_iff.2 ⟨?_, read_mapFloatsMembers f members hv⟩
    rw [mapFloatsMembers_eq_map]
    exact pairwise_map.2 hs
  | null, _ => rfl
  | bool _, _ => rfl
  | number (.pos _), _ => rfl
  | number (.neg _), _ => rfl
  | number (.float _), _ => rfl
  | string _, _ => rfl

theorem read_mapFloatsItems (f : ℚ → ℚ) : ∀ vs : List Value, (∀ v ∈ vs, v.read = v) →
    ∀ w ∈ mapFloatsItems f vs, w.read = w
  | [], _ => nofun
  | v :: vs, h => forall_mem_cons.2 ⟨read_mapFloats f v (h v (by simp)),
    read_mapFloatsItems f vs fun x hx => h x (by simp [hx])⟩

theorem read_mapFloatsMembers (f : ℚ → ℚ) : ∀ ms : Members, (∀ m ∈ ms, m.2.read = m.2) →
    ∀ m ∈ mapFloatsMembers f ms, m.2.read = m.2
  | [], _ => nofun
  | (k, v) :: ms, h => forall_mem_cons.2 ⟨read_mapFloats f v (h (k, v) (by simp)),
    read_mapFloatsMembers f ms fun x hx => h x (by simp [hx])⟩
end

mutual
theorem mapFloats_id : ∀ v : Value, v.mapFloats id = v
  | array items => by rw [mapFloats, mapFloatsItems_id items]
  | object members => by rw [mapFloats, mapFloatsMembers_id members]
  | null => rfl
  | bool _ => rfl
  | number (.pos _) => rfl
  | number (.neg _) => rfl
  | number (.float _) => rfl
  | string _ => rfl

theorem mapFloatsItems_id : ∀ vs : List Value, mapFloatsItems id vs = vs
  | [] => rfl
  | v :: vs => by rw [mapFloatsItems, mapFloats_id v, mapFloatsItems_id vs]

theorem mapFloatsMembers_id : ∀ ms : Members, mapFloatsMembers id ms = ms
  | [] => rfl
  | (k, v) :: ms => by rw [mapFloatsMembers, mapFloats_id v, mapFloatsMembers_id ms]
end

/-! ## Depth -/

theorem depthMembers_le {ms : Members} {n : Nat} : depthMembers ms ≤ n ↔ ∀ m ∈ ms, m.2.depth ≤ n := by
  induction ms with
  | nil => simp [depthMembers]
  | cons m ms ih => simp [depthMembers, ih]

theorem depthItems_le {vs : List Value} {n : Nat} : depthItems vs ≤ n ↔ ∀ v ∈ vs, v.depth ≤ n := by
  induction vs with
  | nil => simp [depthItems]
  | cons v vs ih => simp [depthItems, ih]

mutual
theorem depth_read_le : ∀ v : Value, v.read.depth ≤ v.depth
  | array items => by
    simp only [read, depth]
    exact Nat.succ_le_succ (depthItems_read_le items)
  | object members => by
    simp only [read, depth]
    exact Nat.succ_le_succ (depthMembers_le.2 (depth_readMembers members (by simp) (depthMembers_le.1 le_rfl)))
  | null => le_rfl
  | bool _ => le_rfl
  | number _ => le_rfl
  | string _ => le_rfl

theorem depthItems_read_le : ∀ vs : List Value, depthItems (readItems vs) ≤ depthItems vs
  | [] => le_rfl
  | v :: vs => max_le_max (depth_read_le v) (depthItems_read_le vs)

theorem depth_readMembers : ∀ (ms : Members) {done : Members} {n : Nat}, (∀ m ∈ done, m.2.depth ≤ n) →
    (∀ m ∈ ms, m.2.depth ≤ n) → ∀ m ∈ readMembers done ms, m.2.depth ≤ n
  | [], _, _, hd, _ => hd
  | (k, v) :: ms, _, _, hd, h => depth_readMembers ms (fun m hm => by
      rcases mem_insert hm with rfl | hm
      · exact le_trans (depth_read_le v) (h (k, v) (by simp))
      · exact hd m hm) (fun m hm => h m (by simp [hm]))
end

mutual
theorem depth_mapFloats (f : ℚ → ℚ) : ∀ v : Value, (v.mapFloats f).depth = v.depth
  | array items => by simp only [mapFloats, depth, depthItems_mapFloats f items]
  | object members => by simp only [mapFloats, depth, depthMembers_mapFloats f members]
  | null => rfl
  | bool _ => rfl
  | number (.pos _) => rfl
  | number (.neg _) => rfl
  | number (.float _) => rfl
  | string _ => rfl

theorem depthItems_mapFloats (f : ℚ → ℚ) : ∀ vs : List Value, depthItems (mapFloatsItems f vs) = depthItems vs
  | [] => rfl
  | v :: vs => by simp only [mapFloatsItems, depthItems, depth_mapFloats f v, depthItems_mapFloats f vs]

theorem depthMembers_mapFloats (f : ℚ → ℚ) : ∀ ms : Members, depthMembers (mapFloatsMembers f ms) = depthMembers ms
  | [] => rfl
  | (_, v) :: ms => by simp only [mapFloatsMembers, depthMembers, depth_mapFloats f v, depthMembers_mapFloats f ms]
end

end Value

/-! ## Maps -/

/-- `serde_json::Map`: members in key order, with values that are themselves in order. -/
structure Map where
  members : Value.Members
  read_eq : (Value.object members).read = .object members

namespace Map

theorem ext' {a b : Map} (h : a.members = b.members) : a = b := by
  cases a; cases b; cases h; rfl

def empty : Map := ⟨[], rfl⟩

def ofMembers (ms : Value.Members) : Map := ⟨Value.readMembers [] ms, Value.read_read (.object ms)⟩

def get (m : Map) (key : String) : Option Value := m.members.lookup key

def contains_key (m : Map) (key : String) : Bool := (m.get key).isSome

def len (m : Map) : Nat := m.members.length

def is_empty (m : Map) : Bool := m.members.isEmpty

def mapFloats (f : ℚ → ℚ) (m : Map) : Map :=
  ⟨Value.mapFloatsMembers f m.members, Value.read_mapFloats f (.object m.members) m.read_eq⟩

theorem ofMembers_members (m : Map) : ofMembers m.members = m :=
  ext' (Value.object.inj m.read_eq)

end Map

end Silo.Rust
