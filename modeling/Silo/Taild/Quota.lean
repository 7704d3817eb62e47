import Silo.Lib.Checks
import Silo.Taild.Admission
/-!
# Quota and disk floor

Every reservation belongs to a request or a growth in progress and the other way round,
and a request that has not reached its durable write has a name the manager does not
know. The second admission therefore counts the request itself, next to everything of the
owner that is durable.
-/

namespace Silo.Taild

open Go Lib List AssocMap

/-! ## The disk floor -/

/-- The space a host has left, as it is observed. -/
def Statfs.available (stat : Statfs) : Nat := stat.bavail.toNat * stat.bsize.toUInt64.toNat

theorem toNat_add_of_fits {a b : UInt64} (h : ¬ maxUint64 - a < b) : (a + b).toNat = a.toNat + b.toNat := by
  have hmax : maxUint64.toNat = 2 ^ 64 - 1 := rfl
  have hlt := a.toNat_lt
  have ha : a ≤ maxUint64 := UInt64.le_iff_toNat_le.2 (by omega)
  have hle := UInt64.le_iff_toNat_le.1 (UInt64.not_lt.1 h)
  rw [UInt64.toNat_sub_of_le _ _ ha] at hle
  rw [UInt64.toNat_add, Nat.mod_eq_of_lt]
  omega

theorem sumPending_eq {sizes : List UInt64} {needed total : UInt64} (h : sumPending needed sizes = some total) :
    total.toNat = needed.toNat + (sizes.map UInt64.toNat).sum := by
  induction sizes generalizing needed with
  | nil =>
    cases h
    simp
  | cons size rest ih =>
    unfold sumPending at h
    split at h
    · cases h
    · rename_i hfits
      rw [ih h, toNat_add_of_fits hfits, map_cons, sum_cons, Nat.add_assoc]

/-- The reserve, all that is pending and the request fit in the available space. -/
def FitsDisk (config : Config) (s : Service) (statfs : Option Statfs) (add : UInt64) : Prop :=
  ∃ stat, statfs = some stat ∧
    config.diskReserve.toNat + (s.diskPending.values.map UInt64.toNat).sum + add.toNat ≤ stat.available

section Admission

variable {config : Config} {s : Service} {o : Observation} {owner : Principal}

theorem diskAdmissionLocked_ok {statfs : Option Statfs} {add : UInt64} {u : Unit}
    (h : s.diskAdmissionLocked config statfs add = .ok u) : FitsDisk config s statfs add := by
  unfold Service.diskAdmissionLocked at h
  split at h
  · cases h
  rename_i stat
  split at h
  · cases h
  split at h
  · cases h
  rename_i needed hneeded
  split at h
  · cases h
  rename_i hroom
  obtain ⟨hfits, havailable⟩ := not_or.1 hroom
  refine ⟨stat, rfl, ?_⟩
  have hle := UInt64.le_iff_toNat_le.1 (UInt64.not_lt.1 havailable)
  rw [toNat_add_of_fits hfits, sumPending_eq hneeded, UInt64.toNat_mul] at hle
  exact hle.trans (Nat.mod_le _ _)

/-! ## The count -/

def Service.durable (config : Config) (s : Service) (owner : Principal) : List Str :=
  (s.machines.entries.filter fun e => e.2.ownedBy config owner).map Prod.fst

theorem ownedNames_ok {unreadable : Str → Bool} {l : List (Str × Machine)} {names : List Str}
    (h : ownedNames config owner (l.map fun e => ⟨e.1, if unreadable e.1 then none else some e.2⟩) = .ok names) :
    names = (l.filter fun e => e.2.ownedBy config owner).map Prod.fst := by
  induction l generalizing names with
  | nil =>
    cases h
    rfl
  | cons e l ih =>
    simp only [map_cons, ownedNames] at h
    split at h
    · cases h
    · rename_i machine hdata
      obtain rfl : e.2 = machine := by
        split at hdata
        · cases hdata
        · exact Option.some.inj hdata
      simp only [bind_eq_ok, pure_eq_ok] at h
      obtain ⟨rest, hrest, rfl⟩ := h
      rw [ih hrest]
      by_cases howned : e.2.ownedBy config owner
      · rw [if_pos howned, filter_cons_of_pos (by simpa using howned), map_cons]
      · rw [if_neg howned, filter_cons_of_neg (by simpa using howned)]

theorem ownedCountLocked_ok {n : Nat} (h : s.ownedCountLocked config o owner = .ok n) :
    n = (s.durable config owner).length + (s.countedPending owner (s.durable config owner)).length := by
  simp only [Service.ownedCountLocked, bind_eq_ok, pure_eq_ok] at h
  obtain ⟨entries, hentries, names, hnames, rfl⟩ := h
  unfold Service.inventory at hentries
  split at hentries
  · cases hentries
  · cases hentries
    rw [ownedNames_ok hnames]
    rfl

theorem admitLocked_ok {vms disk : UInt64} {reserved : Bool} {u : Unit}
    (h : s.admitLocked config o vms owner disk reserved = .ok u) :
    FitsDisk config s o.statfs disk ∧
      (s.durable config owner).length + (s.countedPending owner (s.durable config owner)).length ≤
        (min config.vms vms).toNat := by
  unfold Service.admitLocked at h
  split at h
  · cases h
  simp only [bind_eq_ok] at h
  obtain ⟨_, hdisk, count, hcount, hlimit⟩ := h
  split at hlimit
  · cases hlimit
  · rename_i hroom
    rw [← ownedCountLocked_ok hcount]
    exact ⟨diskAdmissionLocked_ok hdisk, not_lt.1 (not_or.1 hroom).1⟩

theorem counted_nodup (config : Config) (s : Service) (owner : Principal) :
    (s.durable config owner ++ s.countedPending owner (s.durable config owner)).Nodup := by
  refine nodup_append.2 ⟨?_, ?_, ?_⟩
  · exact s.machines.nodup.sublist (filter_sublist.map _)
  · exact s.pending.nodup.sublist (filter_sublist.map _)
  · intro a ha b hb hab
    obtain ⟨e, he, rfl⟩ := mem_map.1 hb
    have := (mem_filter.1 he).2
    simp only [decide_eq_true_eq] at this
    exact this.2 (hab ▸ ha)

theorem mem_durable {name : Str} :
    name ∈ s.durable config owner ↔ ∃ m, s.machines.get? name = some m ∧ m.ownedBy config owner := by
  simp [Service.durable, mem_entries]

theorem mem_countedPending {name : Str} {durable : List Str} :
    name ∈ s.countedPending owner durable ↔ s.pending.get? name = some owner ∧ name ∉ durable := by
  simp [Service.countedPending, mem_entries]

/-- A machine that was reserved and not durable fits in the ceiling once it is. -/
theorem durable_le {vms disk : UInt64} {reserved : Bool} {u : Unit} {name : Str}
    (h : s.admitLocked config o vms owner disk reserved = .ok u) (hpending : s.pending.get? name = some owner)
    (hnew : s.machines.get? name = none) : (s.durable config owner).length + 1 ≤ (min config.vms vms).toNat := by
  have hcounted : name ∈ s.countedPending owner (s.durable config owner) := by
    refine mem_countedPending.2 ⟨hpending, fun hdurable => ?_⟩
    obtain ⟨m, hm, -⟩ := mem_durable.1 hdurable
    rw [hnew] at hm
    cases hm
  have := length_pos_of_mem hcounted
  have := (admitLocked_ok h).2
  omega

end Admission

/-! ## The invariant -/

/-- The stages before the durable write. -/
def Stage.early : Stage → Bool
  | .reserved | .prepared | .queued | .running => true
  | .made | .freed | .returned => false

structure Holds (s : Service) (t : Nat) (r : Request) : Prop where
  request : s.requests.get? t = some r
  held : r.released = false

structure Inv (s : Service) : Prop where
  valid : ∀ {t r}, Holds s t r → validName r.name
  reserved : ∀ {t r}, Holds s t r → s.reserved.get? r.name = some ()
  pending : ∀ {t r}, Holds s t r → s.pending.get? r.name = some r.owner
  disk : ∀ {t r}, Holds s t r → s.diskPending.get? r.name = some r.disk
  distinct : ∀ {t t' r r'}, Holds s t r → Holds s t' r' → r.name = r'.name → t = t'
  early : ∀ {t r}, s.requests.get? t = some r → r.stage.early → r.released = false
  growth : ∀ {id growth}, s.growths.get? id = some growth → s.diskPending.get? (growthKey id) = some growth
  reserved_by : ∀ {name u}, s.reserved.get? name = some u → ∃ t r, Holds s t r ∧ r.name = name
  pending_by : ∀ {name p}, s.pending.get? name = some p → ∃ t r, Holds s t r ∧ r.name = name
  disk_by : ∀ {key size}, s.diskPending.get? key = some size →
    (∃ t r, Holds s t r ∧ r.name = key) ∨ ∃ id growth, s.growths.get? id = some growth ∧ growthKey id = key

theorem colon_notMem {name : Str} (h : validName name) : ':' ∉ name := by
  intro hcolon
  rw [validName, Bool.and_eq_true] at h
  exact absurd (all_eq_true.1 h.2 ':' hcolon) (by decide)

theorem growthKey_ne {name id : Str} (h : validName name) : growthKey id ≠ name := by
  rintro rfl
  have hcolon : ':' ∈ "resize:".toList := by decide
  exact colon_notMem h (mem_append_left id hcolon)

theorem growthKey_inj {id id' : Str} (h : growthKey id = growthKey id') : id = id' := append_cancel_left h

theorem Inv.new (machines : AssocMap Str Machine) : Inv (Service.new machines) := by
  have hnone : ∀ {t r}, ¬ Holds (Service.new machines) t r := by
    rintro t r ⟨hr, -⟩
    cases hr
  constructor
  case valid => exact fun h => absurd h hnone
  case reserved => exact fun h => absurd h hnone
  case pending => exact fun h => absurd h hnone
  case disk => exact fun h => absurd h hnone
  case distinct => exact fun h => absurd h hnone
  case early => intro t r h; cases h
  case growth => intro id growth h; cases h
  case reserved_by => intro name u h; cases h
  case pending_by => intro name p h; cases h
  case disk_by => intro key size h; cases h

section Steps

variable {config : Config} {s s' : Service} {t : Nat} {r : Request}

theorem holds_put {r' : Request} {t' : Nat} {q : Request} :
    Holds (s.put t r') t' q ↔ (t' = t ∧ q = r' ∧ r'.released = false) ∨ (t' ≠ t ∧ Holds s t' q) := by
  constructor
  · rintro ⟨hq, hheld⟩
    rcases get?_insert_eq_some.1 hq with ⟨rfl, rfl⟩ | ⟨hne, hq⟩
    · exact .inl ⟨rfl, rfl, hheld⟩
    · exact .inr ⟨hne, hq, hheld⟩
  · rintro (⟨rfl, rfl, hheld⟩ | ⟨hne, hq, hheld⟩)
    · exact ⟨get?_insert_eq_some.2 (.inl ⟨rfl, rfl⟩), hheld⟩
    · exact ⟨get?_insert_eq_some.2 (.inr ⟨hne, hq⟩), hheld⟩

/-- The name is the one of a request that holds its reservation. -/
abbrev Service.Held (s : Service) (name : Str) : Prop := ∃ t r, Holds s t r ∧ r.name = name

/-- The request is reserved with its owner and its disk. -/
def Service.Books (s : Service) (r : Request) : Prop :=
  s.reserved.get? r.name = some () ∧ s.pending.get? r.name = some r.owner ∧ s.diskPending.get? r.name = some r.disk

def Service.Free (s : Service) (name : Str) : Prop :=
  s.reserved.get? name = none ∧ s.pending.get? name = none ∧
    ((∀ id, growthKey id ≠ name) → s.diskPending.get? name = none)

theorem Inv.books (h : Inv s) (hr : Holds s t r) : s.Books r := ⟨h.reserved hr, h.pending hr, h.disk hr⟩

theorem Inv.free (h : Inv s) {name : Str} (hname : ¬ s.Held name) : s.Free name := by
  refine ⟨?_, ?_, fun hkey => ?_⟩ <;> refine Option.eq_none_iff_forall_ne_some.2 fun v hv => hname ?_
  · exact h.reserved_by hv
  · exact h.pending_by hv
  · exact (h.disk_by hv).resolve_right fun ⟨id, _, _, hid⟩ => hkey id hid

/-- What is reserved under a growth's key is that growth: no name has such a key. -/
theorem Inv.diskPending_growthKey (h : Inv s) (id : Str) : s.diskPending.get? (growthKey id) = s.growths.get? id := by
  cases hg : s.growths.get? id with
  | some growth => exact h.growth hg
  | none =>
    refine Option.eq_none_iff_forall_ne_some.2 fun size hk => ?_
    rcases h.disk_by hk with ⟨t, q, hq, hname⟩ | ⟨id', growth, hg', hkey⟩
    · exact growthKey_ne (h.valid hq) hname.symm
    · rw [growthKey_inj hkey, hg] at hg'
      cases hg'

/-- The reservations are those of the holders and of the growths. -/
theorem Inv.of_books (hvalid : ∀ {t r}, Holds s t r → validName r.name)
    (hdistinct : ∀ {t t' r r'}, Holds s t r → Holds s t' r' → r.name = r'.name → t = t')
    (hearly : ∀ {t r}, s.requests.get? t = some r → r.stage.early → r.released = false)
    (hbooks : ∀ {t r}, Holds s t r → s.Books r) (hfree : ∀ {name}, ¬ s.Held name → s.Free name)
    (hgrowth : ∀ id, s.diskPending.get? (growthKey id) = s.growths.get? id) : Inv s := by
  constructor
  case valid => exact hvalid
  case reserved => exact fun hr => (hbooks hr).1
  case pending => exact fun hr => (hbooks hr).2.1
  case disk => exact fun hr => (hbooks hr).2.2
  case distinct => exact hdistinct
  case early => exact hearly
  case growth => exact fun hg => (hgrowth _).trans hg
  case reserved_by => exact fun hn => by_contra fun hname => nomatch hn.symm.trans (hfree hname).1
  case pending_by => exact fun hn => by_contra fun hname => nomatch hn.symm.trans (hfree hname).2.1
  case disk_by =>
    intro key size hk
    by_cases hkey : ∃ id, growthKey id = key
    · obtain ⟨id, rfl⟩ := hkey
      exact .inr ⟨id, size, (hgrowth id).symm.trans hk, rfl⟩
    · exact .inl (by_contra fun hname => nomatch hk.symm.trans ((hfree hname).2.2 (not_exists.1 hkey)))

/-- The reservations are kept when every holder keeps what it holds. -/
theorem Inv.of_holders {machines : AssocMap Str Machine} {requests : AssocMap Nat Request} (h : Inv s)
    (hback : ∀ {t q}, Holds { s with machines, requests } t q →
      ∃ q', Holds s t q' ∧ q'.name = q.name ∧ q'.owner = q.owner ∧ q'.disk = q.disk)
    (hforth : ∀ {t q}, Holds s t q → ∃ q', Holds { s with machines, requests } t q' ∧ q'.name = q.name)
    (hearly : ∀ {t q}, requests.get? t = some q → q.stage.early → q.released = false) :
    Inv { s with machines, requests } := by
  refine .of_books ?_ ?_ hearly ?_ ?_ h.diskPending_growthKey
  · intro t q hq
    obtain ⟨q', hq', hname, -⟩ := hback hq
    exact hname ▸ h.valid hq'
  · intro t₁ t₂ q₁ q₂ hq₁ hq₂ hname
    obtain ⟨q₁', hq₁', hname₁, -⟩ := hback hq₁
    obtain ⟨q₂', hq₂', hname₂, -⟩ := hback hq₂
    exact h.distinct hq₁' hq₂' (hname₁.trans (hname.trans hname₂.symm))
  · intro t q hq
    obtain ⟨q', hq', hname, howner, hsize⟩ := hback hq
    simpa only [Service.Books, hname, howner, hsize] using h.books hq'
  · refine fun hname => h.free ?_
    rintro ⟨t, q, hq, he⟩
    obtain ⟨q', hq', he'⟩ := hforth hq
    exact hname ⟨t, q', hq', he'.trans he⟩

theorem Inv.restage {stage : Stage} (h : Inv s) (hr : s.requests.get? t = some r)
    (hown : stage.early → r.stage.early) : Inv (s.put t { r with stage }) := by
  refine h.of_holders ?_ ?_ ?_
  · intro t' q hq
    rcases holds_put.1 hq with ⟨rfl, rfl, hheld⟩ | ⟨-, hq⟩
    · exact ⟨r, ⟨hr, hheld⟩, rfl, rfl, rfl⟩
    · exact ⟨q, hq, rfl, rfl, rfl⟩
  · intro t' q hq
    by_cases ht : t' = t
    · subst ht
      cases hr.symm.trans hq.request
      exact ⟨_, holds_put.2 (.inl ⟨rfl, rfl, hq.held⟩), rfl⟩
    · exact ⟨q, holds_put.2 (.inr ⟨ht, hq⟩), rfl⟩
  · intro t' q hq hearly
    rcases get?_insert_eq_some.1 hq with ⟨rfl, rfl⟩ | ⟨-, hq⟩
    · exact (h.early hr (hown hearly) : r.released = false)
    · exact h.early hq hearly

theorem Inv.inventory (h : Inv s) (machines : AssocMap Str Machine) : Inv { s with machines } :=
  h.of_holders (fun hq => ⟨_, ⟨hq.request, hq.held⟩, rfl, rfl, rfl⟩) (fun hq => ⟨_, ⟨hq.request, hq.held⟩, rfl⟩) h.early

theorem releaseCreate_same (s : Service) (r : Request) :
    (s.releaseCreate r).growths = s.growths ∧ (s.releaseCreate r).requests = s.requests := by
  unfold Service.releaseCreate
  split <;> exact ⟨rfl, rfl⟩

theorem releaseCreate_of_ne {name : Str} (hne : r.released = false → name ≠ r.name) :
    (s.releaseCreate r).reserved.get? name = s.reserved.get? name ∧
      (s.releaseCreate r).pending.get? name = s.pending.get? name ∧
      (s.releaseCreate r).diskPending.get? name = s.diskPending.get? name := by
  unfold Service.releaseCreate
  split
  · exact ⟨rfl, rfl, rfl⟩
  · simp [get?_erase, hne (Bool.eq_false_iff.2 ‹_›)]

/-- A request that is gone or has given its reservation back. -/
theorem Inv.release {requests : AssocMap Nat Request} (h : Inv s) (hr : s.requests.get? t = some r)
    (hothers : ∀ t', t' ≠ t → requests.get? t' = s.requests.get? t')
    (hown : ∀ q, requests.get? t = some q → q.released = true ∧ q.stage.early = false) :
    Inv { s.releaseCreate r with requests } := by
  have hback : ∀ {t' q}, Holds { s.releaseCreate r with requests } t' q → t' ≠ t ∧ Holds s t' q := by
    rintro t' q ⟨hq, hheld⟩
    by_cases ht : t' = t
    · subst ht
      rw [(hown q hq).1] at hheld
      cases hheld
    · exact ⟨ht, hothers t' ht ▸ hq, hheld⟩
  refine .of_books (fun hq => h.valid (hback hq).2) (fun hq hq' => h.distinct (hback hq).2 (hback hq').2) ?_ ?_ ?_ ?_
  · intro t' q hq he
    by_cases ht : t' = t
    · subst ht
      rw [(hown q hq).2] at he
      cases he
    · exact h.early (hothers t' ht ▸ hq) he
  · intro t' q hq
    obtain ⟨ht, hq⟩ := hback hq
    have hne := fun hheld he => ht (h.distinct hq ⟨hr, hheld⟩ he)
    simpa only [Service.Books, releaseCreate_of_ne hne] using h.books hq
  · intro name hname
    by_cases hne : r.released = false → name ≠ r.name
    · have hfree : s.Free name := by
        refine h.free ?_
        rintro ⟨t', q, hq, he⟩
        refine hname ⟨t', q, ⟨(hothers t' ?_).trans hq.request, hq.held⟩, he⟩
        rintro rfl
        cases hr.symm.trans hq.request
        exact hne hq.held he.symm
      simpa only [Service.Free, releaseCreate_of_ne hne] using hfree
    · obtain ⟨hheld, rfl⟩ : r.released = false ∧ name = r.name := by simpa using hne
      simp [Service.Free, Service.releaseCreate, hheld, get?_erase]
  · intro id
    have hne (hheld : r.released = false) : growthKey id ≠ r.name := growthKey_ne (h.valid ⟨hr, hheld⟩)
    exact (releaseCreate_of_ne hne).2.2.trans ((h.diskPending_growthKey id).trans (by rw [(releaseCreate_same s r).1]))

variable {o : Observation}

theorem reserveName_ok {visible : List Str} {generated : Bool} {name₀ name : Str} {left : Nat}
    (h : s.reserveName o visible generated name₀ left = .ok name) :
    validName name ∧ s.reserved.get? name = none := by
  induction left generalizing name₀ with
  | zero => cases h
  | succ left ih =>
    unfold Service.reserveName at h
    dsimp only at h
    split at h
    · cases h
    rename_i proposed _
    split at h
    · rename_i hreserve
      cases h
      unfold Service.reserve at hreserve
      split at hreserve
      · cases hreserve
      rename_i hvalid
      split at hreserve
      · cases hreserve
      split at hreserve
      · cases hreserve
      rename_i hfree
      simp only [not_or, Bool.not_eq_true, Option.isSome_eq_false_iff, Option.isNone_iff_eq_none] at hfree
      exact ⟨by simpa using hvalid, hfree.1⟩
    · split at h
      · cases h
      · exact ih h

theorem reserveCreate_ok {vms : UInt64} {q : CreateRequest} {name : Str}
    (h : s.reserveCreate config o vms q = .ok (s', name)) :
    (∃ u, s.admitLocked config o vms q.owner q.disk false = .ok u) ∧
      (validName name ∧ s.reserved.get? name = none) ∧
      s' = { s with
        reserved := s.reserved.insert name ()
        pending := s.pending.insert name q.owner
        diskPending := s.diskPending.insert name q.disk } := by
  simp only [Service.reserveCreate, bind_eq_ok] at h
  obtain ⟨u, hadmit, h⟩ := h
  split at h
  · cases h
  · simp only [bind_eq_ok, pure_eq_ok, Prod.mk.injEq] at h
    obtain ⟨_, hname, rfl, rfl⟩ := h
    exact ⟨⟨u, hadmit⟩, reserveName_ok hname, rfl⟩

/-- A new request takes a name that nothing holds. -/
theorem Inv.take (h : Inv s) (ht : s.requests.get? t = none) (hheld : r.released = false)
    (hvalid : validName r.name = true) (hfree : s.reserved.get? r.name = none) :
    Inv ({ s with
      reserved := s.reserved.insert r.name ()
      pending := s.pending.insert r.name r.owner
      diskPending := s.diskPending.insert r.name r.disk }.put t r) := by
  have hne : ∀ {t' q}, Holds s t' q → q.name ≠ r.name := by
    intro t' q hq he
    exact absurd (hfree.symm.trans (he ▸ h.reserved hq)) (by simp)
  generalize hs' : Service.put _ t _ = s'
  have hiff : ∀ {t' q}, Holds s' t' q ↔ (t' = t ∧ q = r) ∨ Holds s t' q := by
    intro t' q
    rw [← hs', holds_put]
    constructor
    · rintro (⟨rfl, rfl, -⟩ | ⟨-, hq⟩)
      · exact .inl ⟨rfl, rfl⟩
      · exact .inr ⟨hq.request, hq.held⟩
    · rintro (⟨rfl, rfl⟩ | hq)
      · exact .inl ⟨rfl, rfl, hheld⟩
      · refine .inr ⟨?_, hq.request, hq.held⟩
        rintro rfl
        exact absurd (ht.symm.trans hq.request) (by simp)
  refine .of_books ?_ ?_ ?_ ?_ ?_ ?_
  · intro t' q hq
    rcases hiff.1 hq with ⟨rfl, rfl⟩ | hq
    · exact hvalid
    · exact h.valid hq
  · intro t₁ t₂ q₁ q₂ hq₁ hq₂ hname
    rcases hiff.1 hq₁ with ⟨rfl, rfl⟩ | hq₁ <;> rcases hiff.1 hq₂ with ⟨rfl, rfl⟩ | hq₂
    · rfl
    · exact absurd hname.symm (hne hq₂)
    · exact absurd hname (hne hq₁)
    · exact h.distinct hq₁ hq₂ hname
  · intro t' q hq he
    rw [← hs'] at hq
    rcases get?_insert_eq_some.1 hq with ⟨rfl, rfl⟩ | ⟨-, hq⟩
    · exact hheld
    · exact h.early hq he
  · intro t' q hq
    rcases hiff.1 hq with ⟨rfl, rfl⟩ | hq
    · simp [← hs', Service.Books, Service.put, get?_insert]
    · simpa [← hs', Service.Books, Service.put, get?_insert, hne hq] using h.books hq
  · intro name hname
    have hnew : name ≠ r.name := fun he => hname ⟨t, r, hiff.2 (.inl ⟨rfl, rfl⟩), he.symm⟩
    have hfree : s.Free name := by
      refine h.free ?_
      rintro ⟨t', q, hq, he⟩
      exact hname ⟨t', q, hiff.2 (.inr hq), he⟩
    simpa [← hs', Service.Free, Service.put, get?_insert, hnew] using hfree
  · intro id
    simpa [← hs', Service.put, get?_insert, growthKey_ne hvalid] using h.diskPending_growthKey id

theorem create_inv (h : Inv s) (ht : s.requests.get? t = none) (q : CreateRequest) (vms : UInt64) (o : Observation) :
    Inv (s.create config t q vms o) := by
  unfold Service.create
  split
  · exact h
  · rename_i s₁ name hreserve
    obtain ⟨-, ⟨hvalid, hfree⟩, rfl⟩ := reserveCreate_ok hreserve
    exact h.take (r := ⟨name, q.owner, q.disk, .reserved, false⟩) ht rfl hvalid hfree

/-- What the durable write does: nothing, or a machine of the request's name after its admission. -/
theorem materialize_cases (s : Service) (o : Observation) (vms : UInt64) (name : Str) (owner : Principal)
    (outcome : CreateOutcome) :
    ((s.materialize config o vms name owner outcome).1 = s) ∨
      ((∃ u, s.admitLocked config o vms owner 0 true = .ok u) ∧ s.machines.get? name = none ∧
        (s.materialize config o vms name owner outcome).1 =
          { s with machines := s.machines.insert name ⟨config.instanceName, owner⟩ }) := by
  unfold Service.materialize
  split
  · exact .inl rfl
  · rename_i hadmit
    unfold Service.managerCreate
    split
    · exact .inl rfl
    · rename_i hnew
      have hnone : s.machines.get? name = none := by simpa using hnew
      cases outcome with
      | created => exact .inr ⟨⟨_, hadmit⟩, hnone, rfl⟩
      | lost e => exact .inr ⟨⟨_, hadmit⟩, hnone, rfl⟩
      | refused e => exact .inl rfl

section
variable (h : Inv s)
include h

theorem materialize_inv (hr : s.requests.get? t = some r) (o : Observation) (vms : UInt64)
    (outcome : CreateOutcome) {stage : Stage} (hlate : stage.early → r.stage.early) :
    Inv ((s.materialize config o vms r.name r.owner outcome).1.put t { r with stage }) := by
  rcases materialize_cases s o vms r.name r.owner outcome with hsame | ⟨-, -, hwritten⟩
  · rw [hsame]
    exact h.restage hr hlate
  · rw [hwritten]
    exact (h.inventory _).restage hr hlate

theorem advance_inv (hr : s.requests.get? t = some r) {e : QuotaEvent}
    (hstep : s.advance config t r e = some s') : Inv s' := by
  cases e <;> simp only [Service.advance, Option.ite_none_right_eq_some, Option.some.injEq, reduceCtorEq] at hstep
  case submit registry =>
    obtain ⟨hstage, hstep⟩ := hstep
    split at hstep <;> cases hstep <;> exact h.restage hr fun _ => by rw [hstage]; rfl
  all_goals obtain ⟨hstage, rfl⟩ := hstep
  case prepare => exact h.restage hr fun _ => by rw [hstage]; rfl
  case dequeue => exact h.restage hr fun _ => by rw [hstage]; rfl
  case fail => exact h.restage hr nofun
  case materialize vms o outcome => exact materialize_inv h hr o vms outcome fun _ => by rw [hstage]; rfl
  case «return» => exact h.restage hr nofun
  case release =>
    refine h.release hr (fun t' ht => ?_) fun q hq => ?_
    · rw [get?_insert, if_neg ht, (releaseCreate_same s r).2]
    · rw [get?_insert, if_pos rfl] at hq
      cases hq
      exact ⟨rfl, rfl⟩
  case finalize =>
    refine h.release hr (fun t' ht => ?_) fun q hq => ?_
    · rw [get?_erase, if_neg ht]
    · rw [get?_erase, if_pos rfl] at hq
      cases hq

/-- The growths may change, together with what is reserved under their keys. -/
theorem Inv.regrow {diskPending growths : AssocMap Str UInt64}
    (hothers : ∀ key, (∀ id, growthKey id ≠ key) → diskPending.get? key = s.diskPending.get? key)
    (hgrowths : ∀ id, diskPending.get? (growthKey id) = growths.get? id) : Inv { s with diskPending, growths } := by
  have hback : ∀ {t q}, Holds { s with diskPending, growths } t q → Holds s t q := fun hq => ⟨hq.request, hq.held⟩
  refine .of_books (fun hq => h.valid (hback hq)) (fun hq hq' => h.distinct (hback hq) (hback hq')) h.early ?_ ?_ hgrowths
  · intro t q hq
    have hkey := hothers q.name fun _ => growthKey_ne (h.valid (hback hq))
    simpa only [Service.Books, hkey] using h.books (hback hq)
  · intro name hname
    obtain ⟨hreserved, hpending, hdisk⟩ := h.free (by
      rintro ⟨t, q, hq, he⟩
      exact hname ⟨t, q, ⟨hq.request, hq.held⟩, he⟩)
    exact ⟨hreserved, hpending, fun hkey => (hothers name hkey).trans (hdisk hkey)⟩

theorem grow_inv {id : Str} {growth : UInt64} :
    Inv { s with
      diskPending := s.diskPending.insert (growthKey id) growth
      growths := s.growths.insert id growth } := by
  refine h.regrow (fun key hkey => ?_) fun id' => ?_
  · rw [get?_insert, if_neg (hkey id).symm]
  · rw [get?_insert, get?_insert, h.diskPending_growthKey]
    exact if_congr ⟨growthKey_inj, congrArg _⟩ rfl rfl

theorem grown_inv {id : Str} :
    Inv { s with diskPending := s.diskPending.erase (growthKey id), growths := s.growths.erase id } := by
  refine h.regrow (fun key hkey => ?_) fun id' => ?_
  · rw [get?_erase, if_neg (hkey id).symm]
  · rw [get?_erase, get?_erase, h.diskPending_growthKey]
    exact if_congr ⟨growthKey_inj, congrArg _⟩ rfl rfl

theorem step_inv {e : QuotaEvent} (hstep : s.step config t e = some s') : Inv s' := by
  unfold Service.step at hstep
  split at hstep
  · -- a create
    split at hstep
    · cases hstep
    · cases hstep
      exact create_inv h (Option.not_isSome_iff_eq_none.1 ‹_›) _ _ _
  · cases hstep
    exact h.inventory _
  · -- a growth
    split at hstep
    · cases hstep
    split at hstep
    · cases hstep
      exact h
    · rename_i s₁ hgrow
      simp only [Service.reserveDiskGrowth, bind_eq_ok, pure_eq_ok] at hgrow
      obtain ⟨_, -, rfl⟩ := hgrow
      cases hstep
      exact grow_inv h
  · split at hstep
    · cases hstep
      exact grown_inv h
    · cases hstep
  · split at hstep
    · cases hstep
    · exact advance_inv h ‹_› hstep

theorem run_inv {events : List (Nat × QuotaEvent)} (hrun : s.run config events = some s') : Inv s' := by
  induction events generalizing s with
  | nil =>
    cases hrun
    exact h
  | cons e events ih =>
    obtain ⟨s₁, hstep, hrest⟩ := Option.bind_eq_some_iff.1 hrun
    exact ih (step_inv h hstep) hrest

end

end Steps

/-! ## Every run -/

section Results

variable {config : Config} {s : Service}

/-- The sizes that creates and growths in progress have asked for. -/
def Service.outstanding (s : Service) : List UInt64 :=
  (s.requests.entries.filter fun e => e.2.released = false).map (fun e => e.2.disk) ++ s.growths.values

/-- The pending sizes are those of the requests and growths in progress, each once. -/
theorem Inv.diskPending_perm (h : Inv s) : s.diskPending.values.Perm s.outstanding := by
  let held := (s.requests.entries.filter fun e => e.2.released = false).map fun e => (e.2.name, e.2.disk)
  let grown := s.growths.entries.map fun e => (growthKey e.1, e.2)
  have hheld : ∀ {e}, e ∈ s.requests.entries.filter (fun e => e.2.released = false) → Holds s e.1 e.2 := by
    intro e he
    obtain ⟨hmem, hreleased⟩ := mem_filter.1 he
    exact ⟨(s.requests.mem_entries _ _).1 hmem, by simpa using hreleased⟩
  have hdistinct : (held ++ grown).Nodup := by
    refine nodup_append.2 ⟨?_, ?_, ?_⟩
    · refine Nodup.map_on ?_ (s.requests.nodup.of_map.filter _)
      intro e he e' he' heq
      have ht := h.distinct (hheld he) (hheld he') (Prod.ext_iff.1 heq).1
      exact inj_on_of_nodup_map s.requests.nodup (mem_filter.1 he).1 (mem_filter.1 he').1 ht
    · refine Nodup.map_on ?_ s.growths.nodup.of_map
      intro e _ e' _ heq
      obtain ⟨hkey, hsize⟩ := Prod.ext_iff.1 heq
      exact Prod.ext (growthKey_inj hkey) hsize
    · intro a ha b hb hab
      obtain ⟨e, he, rfl⟩ := mem_map.1 ha
      obtain ⟨e', -, rfl⟩ := mem_map.1 hb
      exact growthKey_ne (h.valid (hheld he)) (Prod.ext_iff.1 hab).1.symm
  have hperm : s.diskPending.entries.Perm (held ++ grown) := by
    refine (perm_ext_iff_of_nodup s.diskPending.nodup.of_map hdistinct).2 ?_
    rintro ⟨key, size⟩
    rw [s.diskPending.mem_entries, mem_append, mem_map, mem_map]
    constructor
    · intro hk
      rcases h.disk_by hk with ⟨t, r, hr, rfl⟩ | ⟨id, growth, hg, rfl⟩
      · cases hk.symm.trans (h.disk hr)
        exact .inl ⟨(t, r), mem_filter.2 ⟨(s.requests.mem_entries _ _).2 hr.request, by simpa using hr.held⟩, rfl⟩
      · cases hk.symm.trans (h.growth hg)
        exact .inr ⟨(id, size), (s.growths.mem_entries _ _).2 hg, rfl⟩
    · rintro (⟨e, he, heq⟩ | ⟨e, he, heq⟩)
      · cases heq
        exact h.disk (hheld he)
      · cases heq
        exact h.growth ((s.growths.mem_entries _ _).1 he)
  have := hperm.map Prod.snd
  rwa [map_append, map_map, map_map] at this

theorem Inv.idle (h : Inv s) (hrequests : s.requests.entries = []) (hgrowths : s.growths.entries = []) :
    s.reserved.entries = [] ∧ s.pending.entries = [] ∧ s.diskPending.entries = [] := by
  have hnone : ∀ {t r}, ¬ Holds s t r := by
    rintro t r ⟨hr, -⟩
    rw [← mem_entries, hrequests] at hr
    cases hr
  refine ⟨?_, ?_, ?_⟩ <;> refine eq_nil_iff_forall_not_mem.2 ?_
  · rintro ⟨name, u⟩ hmem
    obtain ⟨t, r, hr, -⟩ := h.reserved_by ((s.reserved.mem_entries _ _).1 hmem)
    exact hnone hr
  · rintro ⟨name, p⟩ hmem
    obtain ⟨t, r, hr, -⟩ := h.pending_by ((s.pending.mem_entries _ _).1 hmem)
    exact hnone hr
  · rintro ⟨key, size⟩ hmem
    rcases h.disk_by ((s.diskPending.mem_entries _ _).1 hmem) with ⟨t, r, hr, -⟩ | ⟨id, growth, hg, -⟩
    · exact hnone hr
    · rw [← mem_entries, hgrowths] at hg
      cases hg

theorem durable_insert {name : Str} {owner : Principal} (hnew : s.machines.get? name = none) :
    Service.durable config { s with machines := s.machines.insert name ⟨config.instanceName, owner⟩ } owner =
      s.durable config owner ++ [name] := by
  unfold Service.durable
  rw [entries_insert_of_none hnew, filter_append, map_append]
  congr 1
  rw [filter_cons_of_pos (by simp [Machine.ownedBy])]
  rfl

/-- The machine a request writes is within both ceilings. -/
theorem materialize_within {t : Nat} {r : Request} {vms : UInt64} {o : Observation} {outcome : CreateOutcome} {s' : Service}
    (h : Inv s) (hr : s.requests.get? t = some r) (hstep : s.step config t (.materialize vms o outcome) = some s')
    (hwritten : s'.machines ≠ s.machines) : (s'.durable config r.owner).length ≤ (min config.vms vms).toNat := by
  simp only [Service.step, hr, Service.advance, Option.ite_none_right_eq_some, Option.some.injEq] at hstep
  obtain ⟨hstage, rfl⟩ := hstep
  rcases materialize_cases s o vms r.name r.owner outcome with hsame | ⟨⟨u, hadmit⟩, hnew, hmade⟩
  · exact absurd (congrArg Service.machines hsame) hwritten
  · have hholds : Holds s t r := ⟨hr, h.early hr (by rw [hstage]; rfl)⟩
    have hbound := durable_le hadmit (h.pending hholds) hnew
    show (Service.durable config (s.materialize config o vms r.name r.owner outcome).1 r.owner).length ≤ _
    rw [hmade, durable_insert hnew, length_append]
    exact hbound

/-- What is in progress and the request fit above the reserve. -/
def Fits (config : Config) (s : Service) (statfs : Option Statfs) (add : UInt64) : Prop :=
  ∃ stat, statfs = some stat ∧
    config.diskReserve.toNat + (s.outstanding.map UInt64.toNat).sum + add.toNat ≤ stat.available

theorem Inv.fits {statfs : Option Statfs} {add : UInt64} (h : Inv s) (hfits : FitsDisk config s statfs add) :
    Fits config s statfs add := by
  obtain ⟨stat, hstat, hle⟩ := hfits
  refine ⟨stat, hstat, ?_⟩
  rwa [← (h.diskPending_perm.map UInt64.toNat).sum_nat]

/-- In every interleaving: a written machine is within both ceilings, a name is counted once, the disk floor holds at
each admission, live names are distinct, and nothing stays reserved. -/
theorem quota_and_floor_hold (config : Config) (machines : AssocMap Str Machine) (events : List (Nat × QuotaEvent))
    (s : Service) (hrun : (Service.new machines).run config events = some s) :
    (∀ t r vms o outcome s', s.requests.get? t = some r → s.step config t (.materialize vms o outcome) = some s' →
      s'.machines ≠ s.machines → (s'.durable config r.owner).length ≤ (min config.vms vms).toNat) ∧
    (∀ o owner n, s.ownedCountLocked config o owner = .ok n →
      ∃ counted : List Str, counted.Nodup ∧ n = counted.length ∧
        ∀ name, name ∈ counted ↔
          (∃ m, s.machines.get? name = some m ∧ m.ownedBy config owner) ∨ s.pending.get? name = some owner) ∧
    (∀ o vms owner disk reserved, s.admitLocked config o vms owner disk reserved = .ok () → Fits config s o.statfs disk) ∧
    (∀ statfs id growth s', s.reserveDiskGrowth config statfs id growth = .ok s' → Fits config s statfs growth) ∧
    (∀ t t' r r', Holds s t r → Holds s t' r' → r.name = r'.name → t = t') ∧
    (s.requests.entries = [] → s.growths.entries = [] →
      s.reserved.entries = [] ∧ s.pending.entries = [] ∧ s.diskPending.entries = []) := by
  have h : Inv s := run_inv (Inv.new machines) hrun
  refine ⟨fun _ _ _ _ _ _ hr hstep => materialize_within h hr hstep, ?_, ?_, ?_, fun _ _ _ _ => h.distinct, h.idle⟩
  · intro o owner n hn
    refine ⟨_, counted_nodup config s owner, ?_, fun name => ?_⟩
    · rw [ownedCountLocked_ok hn, length_append]
    · rw [mem_append, mem_countedPending, ← mem_durable]
      by_cases hname : name ∈ s.durable config owner <;> simp [hname]
  · intro o vms owner disk reserved hadmit
    exact h.fits (admitLocked_ok hadmit).1
  · intro statfs id growth s' hgrow
    simp only [Service.reserveDiskGrowth, bind_eq_ok] at hgrow
    obtain ⟨_, hadmit, -⟩ := hgrow
    exact h.fits (diskAdmissionLocked_ok hadmit)

end Results

/-- A host with a million bytes, and nothing that fails. -/
def roomyHost : Observation :=
  { shutdownPending := false, statfs := some ⟨1000, 1000⟩, inventory := none, unreadable := fun _ => false,
    visibleNames := some [], attempts := fun _ => ⟨.ok "calm-otter".toList, none⟩ }

def smallConfig : Config := ⟨"lab".toList, 2, 1000⟩

/-- Two creates of one owner, up to the durable write of the second; the first machine is written and its name is still
reserved. -/
def twoCreates : List (Nat × QuotaEvent) :=
  let registry : Registry := ⟨false, 0, 8, none⟩
  [(1, .create ⟨"web".toList, "42".toList, 1000⟩ 2 roomyHost), (1, .prepare false), (1, .submit registry),
    (2, .create ⟨[], "42".toList, 1000⟩ 2 roomyHost), (1, .dequeue false), (1, .materialize 2 roomyHost .created),
    (7, .grow "web".toList 500 (some ⟨1000, 1000⟩)), (2, .prepare false), (2, .submit registry), (2, .dequeue false)]

theorem twoCreates_run : ((Service.new .empty).run smallConfig twoCreates).isSome = true := by decide +kernel

theorem twoCreates_step : ((((Service.new .empty).run smallConfig twoCreates).get twoCreates_run).step smallConfig 2
    (.materialize 2 roomyHost .created)).isSome := by decide +kernel

/-- The second machine fills the quota, a third create is refused. -/
theorem twoCreates_hold :
    ∃ s s', (Service.new .empty).run smallConfig twoCreates = some s ∧
      s.step smallConfig 2 (.materialize 2 roomyHost .created) = some s' ∧ s'.machines ≠ s.machines ∧
      (s'.durable smallConfig "42".toList).length ≤ (min smallConfig.vms 2).toNat ∧
      s.outstanding = [1000, 1000, 500] ∧
      s.admitLocked smallConfig roomyHost 2 "42".toList 10 false = .error (failure "limit" "VM count ceiling exceeded" 6) := by
  have hrun := (Option.some_get twoCreates_run).symm
  have hstep := (Option.some_get twoCreates_step).symm
  have hwritten : (Option.get _ twoCreates_step).machines ≠
        (((Service.new .empty).run smallConfig twoCreates).get twoCreates_run).machines := by
    intro heq
    exact absurd (congrArg (fun m => m.entries.length) heq) (by decide +kernel)
  refine ⟨_, _, hrun, hstep, hwritten, ?_, by decide +kernel, by decide +kernel⟩
  refine (quota_and_floor_hold smallConfig .empty twoCreates _ hrun).1 2
    ⟨"calm-otter".toList, "42".toList, 1000, .running, false⟩ 2 roomyHost .created _ ?_ hstep hwritten
  decide +kernel

end Silo.Taild
