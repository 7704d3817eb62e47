import Silo.Netnode.Classified
/-!
# Names that were once classified

A node remembers the short names and the suffixes it has seen, and gives up telling names
apart when a table is full. The full names of the last status are not remembered: a peer
name outside every suffix the node has seen is forgotten with the peer.
-/

namespace Silo.Netnode

open Go Lib List AssocMap

/-- A name is the suffix or ends in it after a dot. -/
def within (suffix name : Str) : Bool := name = suffix || hasSuffix name ('.' :: suffix)

def Node.classifies (n : Node) (name : Str) : Prop := (n.dnsNameLocked name).2

/-- The part of the classification that no observation takes back, on canonical names. -/
structure Remembered (n : Node) (name : Str) : Prop where
  kept : (n.knownShort.get? name).isSome ∨ (∃ suffix, (n.knownSuffixes.get? suffix).isSome ∧ within suffix name) ∨
    n.classificationFull ∨ within "ts.net".toList name

/-- What the tables of the last status classify is remembered. -/
structure Anchored (n : Node) : Prop where
  short : ∀ name, (n.short.get? name).isSome → Remembered n name
  full : ∀ name, (n.fullNames.get? name).isSome → Remembered n name
  suffix : n.suffix ≠ [] → ∀ name, within n.suffix name → Remembered n name

def Grows (n n' : Node) : Prop := ∀ name, Remembered n name → Remembered n' name

theorem Grows.refl (n : Node) : Grows n n := fun _ h => h

theorem Grows.trans {n₁ n₂ n₃ : Node} (h : Grows n₁ n₂) (h' : Grows n₂ n₃) : Grows n₁ n₃ :=
  fun name hname => h' name (h name hname)

/-! ## Lookups -/

variable {n n' : Node} {name : Str}

theorem any_knownSuffixes :
    n.knownSuffixes.entries.any (fun e => within e.1 name) ↔
      ∃ suffix, (n.knownSuffixes.get? suffix).isSome ∧ within suffix name := by
  simp [mem_entries, Option.isSome_iff_exists]

theorem classifies_iff :
    n.classifies name ↔ (n.short.get? (canonical name)).isSome ∨ (n.fullNames.get? (canonical name)).isSome ∨
      (n.suffix ≠ [] ∧ within n.suffix (canonical name)) ∨ Remembered n (canonical name) := by
  have heq : n.dnsNameLocked name = (n.short.get? (canonical name)).elim
      (if (n.fullNames.get? (canonical name)).isSome then (canonical name, true)
        else if n.suffix ≠ [] && within n.suffix (canonical name) then (canonical name, true)
        else if (n.knownShort.get? (canonical name)).isSome then ([], true)
        else if n.knownSuffixes.entries.any (fun e => within e.1 (canonical name)) then ([], true)
        else if n.classificationFull || within "ts.net".toList (canonical name) then ([], true)
        else (canonical name, false)) fun full => (full, true) := by
    generalize hs : n.short.get? (canonical name) = short
    simp only [Node.dnsNameLocked]
    rw [show n.short.get? (toLower (trimSuffix name ['.'])) = short from hs]
    cases short <;> rfl
  unfold Node.classifies
  rw [heq]
  generalize canonical name = c
  rcases n.short.get? c with _ | full
  · dsimp only [Option.elim]
    split
    · rename_i hfull
      exact iff_of_true rfl (.inr (.inl hfull))
    split
    · rename_i hfull hsuffix
      exact iff_of_true rfl (.inr (.inr (.inl (by simpa only [Bool.and_eq_true, decide_eq_true_eq] using hsuffix))))
    split
    · rename_i hfull hsuffix hshort
      exact iff_of_true rfl (.inr (.inr (.inr ⟨.inl hshort⟩)))
    split
    · rename_i hfull hsuffix hshort hknown
      exact iff_of_true rfl (.inr (.inr (.inr ⟨.inr (.inl (any_knownSuffixes.1 hknown))⟩)))
    split
    · rename_i hfull hsuffix hshort hknown hrest
      exact iff_of_true rfl (.inr (.inr (.inr ⟨.inr (.inr (Bool.or_eq_true_iff.1 hrest))⟩)))
    · rename_i hfull hsuffix hshort hknown hrest
      refine iff_of_false Bool.false_ne_true ?_
      rintro (h | h | h | ⟨h | h | h⟩)
      · cases h
      · exact hfull h
      · exact hsuffix (by simpa only [Bool.and_eq_true, decide_eq_true_eq] using h)
      · exact hshort h
      · exact hknown (any_knownSuffixes.2 h)
      · exact hrest (Bool.or_eq_true_iff.2 h)
  · exact iff_of_true rfl (.inl rfl)

theorem Anchored.classifies_iff (ha : Anchored n) : n.classifies name ↔ Remembered n (canonical name) := by
  rw [Silo.Netnode.classifies_iff]
  constructor
  · rintro (h | h | h | h)
    · exact ha.short _ h
    · exact ha.full _ h
    · exact ha.suffix h.1 _ h.2
    · exact h
  · exact fun h => .inr (.inr (.inr h))

/-! ## Learning -/

theorem grows_of_same (hshort : n'.knownShort = n.knownShort) (hsuffixes : n'.knownSuffixes = n.knownSuffixes)
    (hfull : n.classificationFull → n'.classificationFull) : Grows n n' := by
  rintro name ⟨h⟩
  rw [← hshort, ← hsuffixes] at h
  exact ⟨h.imp_right (.imp_right (.imp_left hfull))⟩

theorem learnShort_grows (n : Node) (name : Str) : Grows n (n.learnShort name) := by
  unfold Node.learnShort
  split
  · exact Grows.refl n
  split
  · rintro name' ⟨h⟩
    exact ⟨h.imp_left fun hknown => isSome_get?_insert.2 (.inr hknown)⟩
  · exact grows_of_same rfl rfl fun _ => rfl

theorem learnShort_remembers (n : Node) (name : Str) : Remembered (n.learnShort name) name := by
  unfold Node.learnShort
  split
  · rename_i h
    exact ⟨.inl h⟩
  split
  · exact ⟨.inl (isSome_get?_insert.2 (.inl rfl))⟩
  · exact ⟨.inr (.inr (.inl rfl))⟩

theorem learnSuffix_grows (n : Node) (suffix : Str) : Grows n (n.learnSuffix suffix) := by
  unfold Node.learnSuffix
  split
  · exact Grows.refl n
  split
  · rintro name ⟨h⟩
    refine ⟨h.imp_right (.imp_left ?_)⟩
    rintro ⟨known, hsome, hwithin⟩
    exact ⟨known, isSome_get?_insert.2 (.inr hsome), hwithin⟩
  · exact grows_of_same rfl rfl fun _ => rfl

theorem learnSuffix_remembers (n : Node) {suffix : Str} (hne : suffix ≠ []) (h : within suffix name) :
    Remembered (n.learnSuffix suffix) name := by
  unfold Node.learnSuffix
  split
  · rename_i hknown
    exact ⟨.inr (.inl ⟨suffix, hknown.resolve_left hne, h⟩)⟩
  split
  · exact ⟨.inr (.inl ⟨suffix, isSome_get?_insert.2 (.inl rfl), h⟩)⟩
  · exact ⟨.inr (.inr (.inl rfl))⟩

theorem foldl_learnShort_grows (names : List Str) (n : Node) : Grows n (names.foldl Node.learnShort n) :=
  foldlRecOn names _ (Grows.refl n) fun m h name _ => h.trans (learnShort_grows m name)

theorem foldl_learnShort_remembers {names : List Str} (h : name ∈ names) (n : Node) :
    Remembered (names.foldl Node.learnShort n) name := by
  induction names generalizing n with
  | nil => cases h
  | cons first names ih =>
    rcases mem_cons.1 h with rfl | h
    · exact foldl_learnShort_grows names _ _ (learnShort_remembers n name)
    · exact ih h (n.learnShort first)

/-! ## The tables of a status -/

def Status.peerNames (s : Option Status) : List Str :=
  ((s.map (·.peer)).getD []).map fun p => canonical ((p.map (·.dnsName)).getD [])

/-- A full name is the name of a peer, and its label is a short name unless that table is full. -/
structure Labelled (names : List Str) (maps : AssocMap Str Str × AssocMap Str Unit) : Prop where
  peer : ∀ name, (maps.2.get? name).isSome → name ∈ names
  label : ∀ name, (maps.2.get? name).isSome → (maps.1.get? (cut name '.').1).isSome ∨ maps.1.size = 4096
  size : maps.1.size ≤ 4096

theorem Labelled.insert {names : List Str} {short short' : AssocMap Str Str} {full : AssocMap Str Unit}
    (h : Labelled names (short, full)) (hname : name ∈ names) (hkeep : ∀ k, (short.get? k).isSome → (short'.get? k).isSome)
    (hsize : short.size ≤ short'.size ∧ short'.size ≤ 4096)
    (hlabel : (short'.get? (cut name '.').1).isSome ∨ short'.size = 4096) :
    Labelled names (short', if full.size < 4096 then full.insert name () else full) := by
  have hcases (k : Str) (hk : ((if full.size < 4096 then full.insert name () else full).get? k).isSome) :
      k = name ∨ (full.get? k).isSome := by
    split at hk
    · exact isSome_get?_insert.1 hk
    · exact .inr hk
  have hsize₁ := hsize.1
  have hsize₂ := hsize.2
  refine ⟨fun k hk => ?_, fun k hk => ?_, hsize.2⟩
  · rcases hcases k hk with rfl | hk
    · exact hname
    · exact h.peer k hk
  · rcases hcases k hk with rfl | hk
    · exact hlabel
    · rcases h.label k hk with hk | hk
      · exact .inl (hkeep _ hk)
      · exact .inr (by dsimp only at hk ⊢; omega)

theorem nameMaps_labelled (s : Option Status) : Labelled (Status.peerNames s) (nameMaps s) := by
  unfold nameMaps Status.peerNames
  generalize (s.map (·.peer)).getD [] = peers
  -- The peers still to come are generalised together with the tables built so far.
  suffices hloop : ∀ (rest : List (Option PeerStatus)) (maps : AssocMap Str Str × AssocMap Str Unit), rest ⊆ peers →
      Labelled (peers.map fun p => canonical ((p.map (·.dnsName)).getD [])) maps →
      Labelled (peers.map fun p => canonical ((p.map (·.dnsName)).getD [])) (rest.foldl _ maps) by
    exact hloop peers _ (List.Subset.refl _) ⟨nofun, nofun, Nat.zero_le _⟩
  intro rest
  induction rest with
  | nil => exact fun maps _ h => h
  | cons p rest ih =>
    rintro ⟨short, full⟩ hsub h
    refine ih _ (fun q hq => hsub (mem_cons_of_mem _ hq)) ?_
    have hname : canonical ((p.map (·.dnsName)).getD []) ∈
        peers.map fun p => canonical ((p.map (·.dnsName)).getD []) :=
      mem_map.2 ⟨p, hsub mem_cons_self, rfl⟩
    have hsize := h.size
    dsimp only at hsize ⊢
    split
    · exact h
    split
    · rename_i hlabel
      have hins := size_insert short (cut (canonical ((p.map (·.dnsName)).getD [])) '.').1 []
      rw [if_pos hlabel] at hins
      exact h.insert hname (fun _ hk => isSome_get?_insert.2 (.inr hk)) ⟨by omega, by omega⟩
        (.inl (isSome_get?_insert.2 (.inl rfl)))
    split
    · rename_i hlabel hroom
      have hins := size_insert short (cut (canonical ((p.map (·.dnsName)).getD [])) '.').1
        (canonical ((p.map (·.dnsName)).getD []))
      rw [if_neg hlabel] at hins
      exact h.insert hname (fun _ hk => isSome_get?_insert.2 (.inr hk)) ⟨by omega, by omega⟩
        (.inl (isSome_get?_insert.2 (.inl rfl)))
    · exact h.insert hname (fun _ hk => hk) ⟨Nat.le_refl _, hsize⟩ (.inr (by omega))

/-! ## One observation -/

def Status.suffix (s : Option Status) : Str := canonical (((s.bind (·.currentTailnet)).map (·.magicDNSSuffix)).getD [])

/-- Every peer is named by one label, within the suffix of its status, or by a name the node remembers. -/
structure Covered (n : Node) (s : Option Status) : Prop where
  peers : ∀ name ∈ Status.peerNames s, '.' ∉ name ∨ (Status.suffix s ≠ [] ∧ within (Status.suffix s) name) ∨
    Remembered n name

/-- The names of a new status are remembered, but for full names that only a suffix can keep. -/
theorem replaceStatus_spec (n : Node) (s : Option Status) (fingerprint : Str) (now : Nat) :
    Grows n (n.replaceStatus s fingerprint now) ∧ (n.replaceStatus s fingerprint now).suffix = n.suffix ∧
      (∀ name, ((n.replaceStatus s fingerprint now).short.get? name).isSome →
        Remembered (n.replaceStatus s fingerprint now) name) ∧
      ∀ name, ((n.replaceStatus s fingerprint now).fullNames.get? name).isSome → name ∈ Status.peerNames s ∧
        ('.' ∉ name → Remembered (n.replaceStatus s fingerprint now) name) := by
  have hlabelled := nameMaps_labelled s
  unfold Node.replaceStatus
  generalize nameMaps s = maps at hlabelled ⊢
  obtain ⟨short, full⟩ := maps
  dsimp only
  generalize hreset : ({ n.quarantine now with fingerprint := fingerprint, short := short, fullNames := full } : Node) = reset
  have hgrow : Grows n reset := by
    subst hreset
    exact grows_of_same rfl rfl fun h => h
  obtain ⟨known, flag, heq⟩ := learnShort_eq (short.entries.map Prod.fst) reset
  have hlearn (name : Str) (h : (short.get? name).isSome) :
      Remembered ((short.entries.map Prod.fst).foldl Node.learnShort reset) name := by
    obtain ⟨full, hfull⟩ := Option.isSome_iff_exists.1 h
    exact foldl_learnShort_remembers (mem_map.2 ⟨_, (mem_entries _ _ _).2 hfull, rfl⟩) reset
  have hgrow' : Grows n ((short.entries.map Prod.fst).foldl Node.learnShort reset) :=
    hgrow.trans (foldl_learnShort_grows _ reset)
  generalize (short.entries.map Prod.fst).foldl Node.learnShort reset = learned at heq hlearn hgrow' ⊢
  obtain ⟨hs, hf, hx⟩ : learned.short = short ∧ learned.fullNames = full ∧ learned.suffix = n.suffix := by
    rw [heq, ← hreset]
    exact ⟨rfl, rfl, rfl⟩
  split
  · -- A table that is full classifies everything.
    exact ⟨hgrow'.trans (grows_of_same rfl rfl fun _ => rfl), hx, fun _ _ => ⟨.inr (.inr (.inl rfl))⟩,
      fun name h => ⟨hlabelled.peer name (by rwa [← hf]), fun _ => ⟨.inr (.inr (.inl rfl))⟩⟩⟩
  · rename_i hroom
    refine ⟨hgrow', hx, fun name h => hlearn name (by rwa [← hs]), fun name h => ?_⟩
    rw [hf] at h
    refine ⟨hlabelled.peer name h, fun hdot => hlearn name ?_⟩
    have hlabel := (hlabelled.label name h).resolve_right (fun hsize => hroom (.inl hsize))
    rwa [cut_of_notMem hdot] at hlabel

theorem observeStatus_eq (n : Node) (s : Option Status) (peersChanged : Bool) (now : Nat) :
    ∃ fingerprint running, n.observeStatus s peersChanged now =
      { (if fingerprint ≠ n.fingerprint then n.replaceStatus s fingerprint now else n).learnSuffix (Status.suffix s) with
        suffix := Status.suffix s, running := running } :=
  ⟨_, _, rfl⟩

theorem observeStatus_grows (n : Node) (s : Option Status) (peersChanged : Bool) (now : Nat) :
    Grows n (n.observeStatus s peersChanged now) := by
  obtain ⟨fingerprint, running, heq⟩ := observeStatus_eq n s peersChanged now
  rw [heq]
  refine Grows.trans ?_ ((learnSuffix_grows _ (Status.suffix s)).trans (grows_of_same rfl rfl fun h => h))
  split
  · exact (replaceStatus_spec n s fingerprint now).1
  · exact Grows.refl n

theorem observeStatus_anchored (ha : Anchored n) {s : Option Status} (hc : Covered n s) (peersChanged : Bool)
    (now : Nat) : Anchored (n.observeStatus s peersChanged now) := by
  have hgrows := observeStatus_grows n s peersChanged now
  obtain ⟨fingerprint, running, heq⟩ := observeStatus_eq n s peersChanged now
  rw [heq] at hgrows ⊢
  generalize hm : (if fingerprint ≠ n.fingerprint then n.replaceStatus s fingerprint now else n) = m at hgrows ⊢
  have hlater : Grows m { m.learnSuffix (Status.suffix s) with suffix := Status.suffix s, running := running } :=
    (learnSuffix_grows m (Status.suffix s)).trans (grows_of_same rfl rfl fun h => h)
  have hsuffix (name : Str) (hne : Status.suffix s ≠ []) (h : within (Status.suffix s) name) :
      Remembered { m.learnSuffix (Status.suffix s) with suffix := Status.suffix s, running := running } name :=
    have hgrows : Grows (m.learnSuffix (Status.suffix s))
        { m.learnSuffix (Status.suffix s) with suffix := Status.suffix s, running := running } :=
      grows_of_same rfl rfl fun h => h
    hgrows name (learnSuffix_remembers m hne h)
  obtain ⟨known, flag, hlearn⟩ := learnSuffix_eq m (Status.suffix s)
  refine ⟨fun name h => hlater _ ?_, fun name h => ?_, fun hne name h => hsuffix name hne h⟩
  · have h : (m.short.get? name).isSome := by rwa [hlearn] at h
    subst hm
    by_cases hchanged : fingerprint ≠ n.fingerprint
    · rw [if_pos hchanged] at h ⊢
      exact (replaceStatus_spec n s fingerprint now).2.2.1 name h
    · rw [if_neg hchanged] at h ⊢
      exact ha.short name h
  · have h : (m.fullNames.get? name).isSome := by rwa [hlearn] at h
    by_cases hchanged : fingerprint ≠ n.fingerprint
    · rw [if_pos hchanged] at hm
      subst hm
      obtain ⟨hpeer, hlabel⟩ := (replaceStatus_spec n s fingerprint now).2.2.2 name h
      rcases hc.peers name hpeer with hdot | ⟨hne, hwithin⟩ | hknown
      · exact hlater _ (hlabel hdot)
      · exact hsuffix name hne hwithin
      · exact hgrows name hknown
    · rw [if_neg hchanged] at hm
      subst hm
      exact hlater _ (ha.full name h)

/-! ## Runs -/

def Node.names (n : Node) : AssocMap Str Str × AssocMap Str Unit × Str × AssocMap Str Unit × AssocMap Str Unit × Bool :=
  (n.short, n.fullNames, n.suffix, n.knownShort, n.knownSuffixes, n.classificationFull)

theorem grows_of_names (h : n'.names = n.names) : Grows n n' := by
  simp only [Node.names, Prod.mk.injEq] at h
  exact grows_of_same h.2.2.2.1 h.2.2.2.2.1 fun hfull => by rw [h.2.2.2.2.2]; exact hfull

theorem anchored_of_names (h : n'.names = n.names) (ha : Anchored n) : Anchored n' := by
  have hgrows := grows_of_names h
  simp only [Node.names, Prod.mk.injEq] at h
  refine ⟨fun name hname => hgrows _ (ha.short name (by rwa [← h.1])), fun name hname => hgrows _ (ha.full name (by rwa [← h.2.1])),
    fun hne name hname => hgrows _ (ha.suffix (by rwa [← h.2.2.1]) name (by rwa [← h.2.2.1]))⟩

theorem commit_names (n : Node) (updates : List (Addr × Nat)) : (n.commit updates).names = n.names := by
  rw [commit_eq]
  induction updates generalizing n with
  | nil => rfl
  | cons e updates ih => exact ih (n.commitOne e)

theorem remember_names (n : Node) (msg : Msg) (fingerprint : Str) (now : Nat) :
    (n.remember msg fingerprint now).1.names = n.names := by
  unfold Node.remember
  split
  · rfl
  dsimp only
  split
  · rfl
  · split
    · rfl
    · exact commit_names _ _

variable (dns : DnsPackage)

theorem step_names (s : System) (now : Nat) {e : Event} (he : ∀ status changed, e ≠ .observe status changed) :
    (step dns s now e).1.node.names = s.node.names := by
  cases e with
  | connect => rfl
  | close => rfl
  | query id name qtype =>
    simp only [step]
    split <;> rfl
  | answer id reply =>
    simp only [step]
    split
    · rfl
    · cases reply with
      | none => rfl
      | some msg => exact remember_names _ _ _ now
  | observe status changed => exact absurd rfl (he status changed)
  | lookup ip =>
    simp only [step]
    rcases isDestination_node s.node ip now with h | h
    · rw [h]
    · rw [h]
      rfl

theorem step_grows (s : System) (now : Nat) (e : Event) : Grows s.node (step dns s now e).1.node := by
  by_cases he : ∃ status changed, e = .observe status changed
  · obtain ⟨status, changed, rfl⟩ := he
    exact observeStatus_grows s.node status changed now
  · exact grows_of_names (step_names dns s now fun status changed heq => he ⟨status, changed, heq⟩)

theorem run_grows (s : System) (events : List (Nat × Event)) : Grows s.node (run dns s events).node :=
  foldlRecOn (motive := fun t : System => Grows s.node t.node) events _ (Grows.refl _) fun t h e _ =>
    h.trans (step_grows dns t e.1 e.2)

def CoveredRun (dns : DnsPackage) : System → List (Nat × Event) → Prop
  | _, [] => True
  | s, e :: events =>
    (∀ status changed, e.2 = .observe status changed → Covered s.node status) ∧
      CoveredRun dns (step dns s e.1 e.2).1 events

theorem run_anchored {s : System} (ha : Anchored s.node) {events : List (Nat × Event)}
    (h : CoveredRun dns s events) : Anchored (run dns s events).node := by
  induction events generalizing s with
  | nil => exact ha
  | cons e events ih =>
    obtain ⟨now, e⟩ := e
    refine ih ?_ h.2
    by_cases he : ∃ status changed, e = .observe status changed
    · obtain ⟨status, changed, rfl⟩ := he
      exact observeStatus_anchored ha (h.1 status changed rfl) changed now
    · exact anchored_of_names (step_names dns s now fun status changed heq => he ⟨status, changed, heq⟩) ha

theorem init_anchored (options : Options) : Anchored (init options).node :=
  ⟨nofun, nofun, fun h => absurd rfl h⟩

/-! ## Losing the status -/

def bareStatus : Status where
  backendState := []
  self := some ⟨"self".toList, [], [], false, 0, none, false, none⟩
  currentTailnet := none
  peer := []

theorem observe_bare {s : Option Status} (hs : s = none ∨ s = some bareStatus) (now : Nat) :
    (n.observeStatus s true now).knownShort = n.knownShort ∧ (n.observeStatus s true now).knownSuffixes = n.knownSuffixes ∧
      (n.observeStatus s true now).classificationFull = n.classificationFull ∧ (n.observeStatus s true now).suffix = [] ∧
      (n.observeStatus s true now).fingerprint = fingerprintOf false [] s ∧
      (n.fingerprint ≠ fingerprintOf false [] s →
        (n.observeStatus s true now).short = .empty ∧ (n.observeStatus s true now).fullNames = .empty) := by
  have hrunning : n.accepts s now = false := by
    rcases hs with rfl | rfl <;> rfl
  have hsuffix : canonical (((s.bind (·.currentTailnet)).map (·.magicDNSSuffix)).getD []) = [] := by
    rcases hs with rfl | rfl <;> rfl
  have hmaps : nameMaps s = (.empty, .empty) := by
    rcases hs with rfl | rfl <;> rfl
  have hfp : n.nextFingerprint false [] s true = fingerprintOf false [] s := rfl
  unfold Node.observeStatus
  dsimp only
  rw [hrunning, hsuffix, hfp]
  by_cases hsame : fingerprintOf false [] s = n.fingerprint
  · rw [if_neg (not_not.2 hsame)]
    exact ⟨rfl, rfl, rfl, rfl, hsame.symm, fun h => absurd hsame.symm h⟩
  · rw [if_pos hsame, Node.replaceStatus, hmaps]
    exact ⟨rfl, rfl, rfl, rfl, rfl, fun _ => ⟨rfl, rfl⟩⟩

/-- After two such statuses only what is remembered is still classified. -/
theorem remembered_of_lost (s : System)
    (h : (run dns s [(0, .observe (some bareStatus) true), (0, .observe none true)]).node.classifies name) :
    Remembered s.node (canonical name) := by
  obtain ⟨hshort₁, hsuffixes₁, hfull₁, -, hfp₁, -⟩ := observe_bare (n := s.node) (s := some bareStatus) (.inr rfl) 0
  obtain ⟨hshort₂, hsuffixes₂, hfull₂, hsuffix, -, hlost⟩ :=
    observe_bare (n := s.node.observeStatus (some bareStatus) true 0) (s := none) (.inl rfl) 0
  obtain ⟨hs, hf⟩ := hlost (by rw [hfp₁]; decide)
  change ((s.node.observeStatus (some bareStatus) true 0).observeStatus none true 0).classifies name at h
  rw [classifies_iff, hs, hf, hsuffix] at h
  rcases h with h | h | h | h
  · cases h
  · cases h
  · exact absurd rfl h.1
  · have hkept := h.kept
    rw [hshort₂, hsuffixes₂, hfull₂, hshort₁, hsuffixes₁, hfull₁] at hkept
    exact ⟨hkept⟩

/-- A name stays classified through every continuation exactly when the node remembers it, and a node whose statuses
were all covered remembers every name it classifies. -/
theorem classified_name_stays_iff (dns : DnsPackage) (options : Options) (before : List (Nat × Event)) (name : Str) :
    ((∀ after, (run dns (init options) (before ++ after)).node.classifies name) ↔
        Remembered (run dns (init options) before).node (canonical name)) ∧
      (CoveredRun dns (init options) before → (run dns (init options) before).node.classifies name →
        ∀ after, (run dns (init options) (before ++ after)).node.classifies name) := by
  have hstays (h : Remembered (run dns (init options) before).node (canonical name)) (after : List (Nat × Event)) :
      (run dns (init options) (before ++ after)).node.classifies name := by
    rw [run_append]
    exact classifies_iff.2 (.inr (.inr (.inr (run_grows dns _ after _ h))))
  refine ⟨⟨fun h => ?_, hstays⟩, fun hcovered h => ?_⟩
  · have hlost := h [(0, .observe (some bareStatus) true), (0, .observe none true)]
    rw [run_append] at hlost
    exact remembered_of_lost dns _ hlost
  · exact hstays ((run_anchored dns (init_anchored options) hcovered).classifies_iff.1 h)

def suffixedPeer : Status := { onePeer with currentTailnet := some ⟨[], "tail.test".toList⟩ }

theorem suffixedPeer_covered (n : Node) : Covered n (some suffixedPeer) := by
  refine ⟨fun name hname => .inr (.inl ?_)⟩
  have hpeers : Status.peerNames (some suffixedPeer) = ["peer.tail.test".toList] := rfl
  rw [hpeers, mem_singleton] at hname
  rw [hname]
  decide

theorem suffixed_peer_stays : ∀ after : List (Nat × Event),
    (run asciiDns (init ⟨none, []⟩) ([(1, .observe (some suffixedPeer) true)] ++ after)).node.classifies
      "peer.tail.test".toList := by
  refine (classified_name_stays_iff asciiDns ⟨none, []⟩ _ _).2 ⟨?_, trivial⟩ ?_
  · rintro status changed ⟨⟩
    exact suffixedPeer_covered _
  · unfold Node.classifies
    decide

/-- A peer outside the suffix of its tailnet is classified while it is there and forgotten with the status. -/
theorem peer_name_forgotten :
    (run asciiDns (init ⟨none, []⟩) [(1, .observe (some onePeer) true)]).node.classifies "peer.tail.test".toList ∧
      ¬ (run asciiDns (init ⟨none, []⟩) [(1, .observe (some onePeer) true), (2, .observe none true)]).node.classifies
        "peer.tail.test".toList := by
  unfold Node.classifies
  decide

end Silo.Netnode
