import Silo.Netnode.Node
/-!
# Addresses stay classified

`Node.deadline` is what the two address maps say together: the moment until which
an address counts as a tailnet destination. No step lowers a deadline that has not
passed (`Keeps`), and every step keeps the maps disjoint and within their common
budget (`Bounded`). An answer that is returned has raised the deadline of each of
its addresses past the lifetime of its record.
-/

namespace Silo.Netnode

open Go Lib List AssocMap

def Node.deadline (n : Node) (ip : Addr) : Nat := max (n.provenance.deadline ip) (n.quarantined.deadline ip)

structure Bounded (n : Node) : Prop where
  disjoint : ∀ ip, (n.provenance.get? ip).isSome → n.quarantined.get? ip = none
  budget : n.provenance.size + n.quarantined.size ≤ 4096

def Keeps (now : Nat) (n n' : Node) : Prop := ∀ ip, now < n.deadline ip → n.deadline ip ≤ n'.deadline ip

theorem Keeps.refl (now : Nat) (n : Node) : Keeps now n n := fun _ _ => Nat.le_refl _

variable {now : Nat}

theorem Keeps.of_same {n n' : Node} (hp : n'.provenance = n.provenance)
    (hq : n'.quarantined = n.quarantined) : Keeps now n n' := by
  intro ip _
  rw [Node.deadline, Node.deadline, hp, hq]

theorem Bounded.of_same {n n' : Node} (h : Bounded n) (hp : n'.provenance = n.provenance)
    (hq : n'.quarantined = n.quarantined) : Bounded n' := by
  refine ⟨?_, ?_⟩
  · rw [hp, hq]
    exact h.disjoint
  · rw [hp, hq]
    exact h.budget

/-! ## Pruning and lookups -/

theorem pruneAddresses_deadline (n : Node) (now : Nat) (ip : Addr) :
    (n.pruneAddresses now).deadline ip = if now < n.deadline ip then n.deadline ip else 0 := by
  simp only [Node.deadline, Node.pruneAddresses, Deadlines.deadline_prune]
  grind

theorem pruneAddresses_keeps (n : Node) (now : Nat) : Keeps now n (n.pruneAddresses now) := by
  intro ip h
  rw [pruneAddresses_deadline, if_pos h]

variable {ip : Addr}

theorem isSome_of_isSome_prune {m : Deadlines Addr}
    (h : (AssocMap.get? (m.prune now) ip).isSome) : (m.get? ip).isSome := by
  obtain ⟨d, hd⟩ := Option.isSome_iff_exists.1 h
  exact Option.isSome_iff_exists.2 ⟨d, (get?_filter_eq_some.1 hd).1⟩

variable {n : Node}

open Deadlines Node

theorem pruneAddresses_bounded (h : Bounded n) (now : Nat) : Bounded (n.pruneAddresses now) := by
  refine ⟨?_, ?_⟩
  · intro ip hip
    have hq := h.disjoint ip (isSome_of_isSome_prune hip)
    by_contra hne
    have := isSome_of_isSome_prune (Option.isSome_iff_ne_none.2 hne)
    simp [hq] at this
  · have h₁ := size_filter_le n.provenance (fun _ d => now < d)
    have h₂ := size_filter_le n.quarantined (fun _ d => now < d)
    have h₃ := h.budget
    simp only [pruneAddresses, prune] at *
    omega

theorem isDestination_of_deadline (h : now < n.deadline ip.unmap) :
    (n.isDestination ip now).2 := by
  rw [isDestination]
  split
  · rfl
  · have hd : 0 < (n.pruneAddresses now).deadline ip.unmap := by
      rw [pruneAddresses_deadline, if_pos h]
      omega
    simp only [Bool.or_eq_true]
    rcases Nat.eq_zero_or_pos ((n.pruneAddresses now).provenance.deadline ip.unmap) with hzero | hpos
    · exact .inr (Deadlines.isSome_of_deadline_pos (by rw [Node.deadline] at hd; omega))
    · exact .inl (isSome_of_deadline_pos hpos)

theorem isDestination_node (n : Node) (ip : Addr) (now : Nat) :
    (n.isDestination ip now).1 = n ∨ (n.isDestination ip now).1 = n.pruneAddresses now := by
  rw [isDestination]
  split
  · exact .inl rfl
  · exact .inr rfl

/-! ## Committing an answer -/

def Node.commitOne (n : Node) (e : Addr × Nat) : Node :=
  { n with
    quarantined := n.quarantined.erase e.1,
    provenance := n.provenance.insert e.1 (max e.2 (max (n.provenance.deadline e.1) (n.quarantined.deadline e.1))) }

theorem commit_eq (n : Node) (updates : List (Addr × Nat)) : n.commit updates = updates.foldl commitOne n := rfl

theorem commitOne_deadline (n : Node) (e : Addr × Nat) (ip : Addr) :
    (n.commitOne e).deadline ip = if ip = e.1 then max e.2 (n.deadline ip) else n.deadline ip := by
  simp only [Node.deadline, Node.commitOne, Deadlines.deadline_insert, Deadlines.deadline_erase]
  split
  · subst_vars
    omega
  · rfl

theorem commitOne_get? (n : Node) (e : Addr × Nat) (h : ip ≠ e.1) :
    (n.commitOne e).provenance.get? ip = n.provenance.get? ip ∧
      (n.commitOne e).quarantined.get? ip = n.quarantined.get? ip := by
  simp only [commitOne, get?_insert, get?_erase, h, if_false, and_self]

theorem commitOne_disjoint (h : ∀ ip, (n.provenance.get? ip).isSome → n.quarantined.get? ip = none)
    (e : Addr × Nat) (ip : Addr) :
    ((n.commitOne e).provenance.get? ip).isSome → (n.commitOne e).quarantined.get? ip = none := by
  by_cases hip : ip = e.1
  · intro _
    simp [commitOne, get?_erase, hip]
  · obtain ⟨hp, hq⟩ := commitOne_get? n e hip
    rw [hp, hq]
    exact h ip

theorem commitOne_size (n : Node) (e : Addr × Nat) :
    (n.commitOne e).provenance.size + (n.commitOne e).quarantined.size ≤
      n.provenance.size + n.quarantined.size + if n.fresh e then 1 else 0 := by
  simp only [commitOne, size_insert, fresh]
  have hle := size_filter_le n.quarantined (fun k _ => k ≠ e.1)
  by_cases hp : (n.provenance.get? e.1).isSome
  · rw [if_pos hp]
    simp only [AssocMap.erase]
    omega
  · rw [if_neg hp]
    by_cases hq : (n.quarantined.get? e.1).isSome
    · have := size_erase_of_isSome hq
      omega
    · simp only [Option.not_isSome_iff_eq_none] at hp hq
      simp only [hp, hq, AssocMap.erase, Option.isNone_none, Bool.and_self, if_true]
      omega

theorem commit_keeps (n : Node) (updates : List (Addr × Nat)) (ip : Addr) :
    n.deadline ip ≤ (n.commit updates).deadline ip := by
  rw [commit_eq]
  induction updates generalizing n with
  | nil => exact Nat.le_refl _
  | cons e l ih =>
    refine Nat.le_trans ?_ (ih _)
    rw [commitOne_deadline]
    split <;> omega

theorem le_commit_deadline (n : Node) {updates : List (Addr × Nat)} {e : Addr × Nat} (he : e ∈ updates) :
    e.2 ≤ (n.commit updates).deadline e.1 := by
  rw [commit_eq]
  induction updates generalizing n with
  | nil => cases he
  | cons e' l ih =>
    rcases mem_cons.1 he with rfl | he
    · have := commit_keeps (n.commitOne e) l e.1
      rw [commitOne_deadline, if_pos rfl, commit_eq] at this
      simp only [foldl_cons]
      omega
    · exact ih _ he

/-- The commit loop keeps the maps disjoint and grows them by the addresses it counted beforehand: the
addresses are distinct, so a round does not change what is fresh for the later ones. -/
theorem commit_bounded {updates : List (Addr × Nat)} (hn : (updates.map Prod.fst).Nodup)
    (h : ∀ ip, (n.provenance.get? ip).isSome → n.quarantined.get? ip = none) :
    (∀ ip, ((n.commit updates).provenance.get? ip).isSome → (n.commit updates).quarantined.get? ip = none) ∧
      (n.commit updates).provenance.size + (n.commit updates).quarantined.size ≤
        n.provenance.size + n.quarantined.size + updates.countP n.fresh := by
  rw [commit_eq]
  induction updates generalizing n with
  | nil => exact ⟨h, Nat.le_refl _⟩
  | cons e l ih =>
    obtain ⟨hnew, hn⟩ := nodup_cons.1 hn
    obtain ⟨hdisj, hsize⟩ := ih hn (commitOne_disjoint h e)
    have hfresh : l.countP (n.commitOne e).fresh = l.countP n.fresh := by
      refine countP_congr fun e' he' => ?_
      have hne : e'.1 ≠ e.1 := fun heq => hnew (heq ▸ mem_map_of_mem he')
      obtain ⟨hp, hq⟩ := commitOne_get? n e hne
      simp only [fresh, hp, hq]
    have hone := commitOne_size n e
    refine ⟨hdisj, ?_⟩
    rw [countP_cons]
    simp only [foldl_cons]
    omega

/-! ## Reading an answer -/

/-- A record that was read has its lifetime covered by the addresses collected. -/
def Covers (now : Nat) (updates : Deadlines Addr) (rr : RR) : Prop :=
  ∀ ip, rr.address = some ip → now + rr.ttl * second ≤ updates.deadline ip.unmap

variable {u u' : Deadlines Addr}

theorem Covers.mono {rr : RR} (h : Covers now u rr) (hle : ∀ ip, u.deadline ip ≤ u'.deadline ip) : Covers now u' rr :=
  fun ip hip => Nat.le_trans (h ip hip) (hle _)

theorem noteRecord_covers {rr rr' : RR}
    (h : n.noteRecord now u rr = some (rr', u')) : Covers now u' rr' ∧ ∀ ip, u.deadline ip ≤ u'.deadline ip := by
  have hraise (ip : Addr) (d : Nat) (ip' : Addr) : u.deadline ip' ≤ (u.raise ip d).deadline ip' := by
    rw [deadline_raise]
    split
    · subst_vars
      omega
    · exact Nat.le_refl _
  rw [noteRecord] at h
  split at h
  · next target hdata =>
    simp only at h
    split at h
    · cases h
    · cases h
      exact ⟨fun ip hip => by simp [RR.address, hdata] at hip, fun _ => Nat.le_refl _⟩
  · split at h
    · next hnone =>
      cases h
      exact ⟨fun ip hip => by simp [hnone] at hip, fun _ => Nat.le_refl _⟩
    · next ip hip =>
      cases h
      refine ⟨?_, hraise _ _⟩
      intro ip' hip'
      have heq : ip = ip' := Option.some.inj (hip.symm.trans hip')
      subst heq
      rw [deadline_raise, if_pos rfl]
      have := Nat.mul_le_mul_right second (Nat.le_max_left (min rr.ttl 60) 1)
      show now + min rr.ttl 60 * second ≤ _
      omega

theorem noteSection_covers {l l' : List RR} (h : n.noteSection now u l = some (l', u')) :
    (∀ rr ∈ l', Covers now u' rr) ∧ ∀ ip, u.deadline ip ≤ u'.deadline ip := by
  induction l generalizing u l' with
  | nil =>
    cases h
    exact ⟨by simp, fun _ => Nat.le_refl _⟩
  | cons rr rest ih =>
    simp only [noteSection, Option.bind_eq_bind, Option.bind_eq_some_iff, Option.some.injEq, Prod.mk.injEq,
      Prod.exists] at h
    obtain ⟨rr₁, u₁, hone, rest₁, u₂, hrest, rfl, rfl⟩ := h
    obtain ⟨hcov, hle₁⟩ := noteRecord_covers hone
    obtain ⟨hrest, hle₂⟩ := ih hrest
    exact ⟨forall_mem_cons.2 ⟨hcov.mono hle₂, hrest⟩, fun ip => Nat.le_trans (hle₁ ip) (hle₂ ip)⟩

theorem remember_spec (hb : Bounded n) (msg : Msg) (fingerprint : Str) (now : Nat) :
    Bounded (n.remember msg fingerprint now).1 ∧ Keeps now n (n.remember msg fingerprint now).1 ∧
      ∀ msg', (n.remember msg fingerprint now).2 = some msg' → ∀ rr ∈ msg'.records, ∀ ip, rr.address = some ip →
        now + rr.ttl * second ≤ (n.remember msg fingerprint now).1.deadline ip.unmap := by
  have hb' := pruneAddresses_bounded hb now
  have hk := pruneAddresses_keeps n now
  rw [remember]
  split
  · exact ⟨hb, .refl now n, by simp⟩
  · simp only
    split
    · exact ⟨hb', hk, by simp⟩
    · next msg' updates hnoted =>
      split
      · exact ⟨hb', hk, by simp⟩
      · next hcount =>
        obtain ⟨hdisj, hsize⟩ := commit_bounded updates.nodup hb'.disjoint
        refine ⟨⟨hdisj, Nat.le_trans hsize (Nat.le_of_not_lt hcount)⟩, fun ip hip => Nat.le_trans (hk ip hip) (commit_keeps _ _ ip), ?_⟩
        rintro _ ⟨⟩ rr hrr ip hip
        simp only [Option.bind_eq_bind, Option.bind_eq_some_iff, Option.some.injEq, Prod.mk.injEq, Prod.exists] at hnoted
        obtain ⟨answer, u₁, h₁, ns, u₂, h₂, extra, u₃, h₃, rfl, rfl⟩ := hnoted
        obtain ⟨hc₁, -⟩ := noteSection_covers h₁
        obtain ⟨hc₂, hle₂⟩ := noteSection_covers h₂
        obtain ⟨hc₃, hle₃⟩ := noteSection_covers h₃
        have hcov : Covers now u₃ rr := by
          simp only [Msg.records, mem_append] at hrr
          rcases hrr with (hrr | hrr) | hrr
          · exact (hc₁ rr hrr).mono fun ip => Nat.le_trans (hle₂ ip) (hle₃ ip)
          · exact (hc₂ rr hrr).mono hle₃
          · exact hc₃ rr hrr
        have hd := hcov ip hip
        by_cases hzero : u₃.deadline ip.unmap = 0
        · omega
        · obtain ⟨d, hget⟩ := Option.isSome_iff_exists.1 (isSome_of_deadline_pos (Nat.pos_of_ne_zero hzero))
          have hcommit := le_commit_deadline (n.pruneAddresses now) ((mem_entries u₃ _ _).2 hget)
          rw [deadline_of_get? hget] at hd
          exact Nat.le_trans hd hcommit

/-! ## Status changes -/

theorem quarantine_keeps (n : Node) (now : Nat) : Keeps now n (n.quarantine now) := by
  intro ip hip
  have hprune := pruneAddresses_deadline n now ip
  rw [if_pos hip] at hprune
  rw [← hprune]
  simp only [Node.deadline, Node.quarantine, Deadlines.deadline_empty, Nat.zero_max]
  refine max_le ?_ (deadline_le_raiseAll _ _ _)
  cases hget : (n.pruneAddresses now).provenance.get? ip with
  | none => simp [Deadlines.deadline, hget]
  | some d =>
    rw [deadline_of_get? hget]
    exact le_deadline_raiseAll _ ((mem_entries _ ip d).2 hget)

theorem quarantine_bounded (h : Bounded n) (now : Nat) : Bounded (n.quarantine now) := by
  refine ⟨fun ip hip => by simp [quarantine] at hip, ?_⟩
  have hb := (pruneAddresses_bounded h now).budget
  have hs := size_raiseAll_le (n.pruneAddresses now).quarantined (n.pruneAddresses now).provenance.entries
  simp only [quarantine, size, empty, length_nil, Nat.zero_add] at hb hs ⊢
  omega

theorem learnShort_eq (names : List Str) (n : Node) :
    ∃ known full, names.foldl learnShort n = { n with knownShort := known, classificationFull := full } := by
  induction names generalizing n with
  | nil => exact ⟨_, _, rfl⟩
  | cons name names ih =>
    obtain ⟨known, full, h⟩ := ih (n.learnShort name)
    rw [foldl_cons, h, learnShort]
    split
    · exact ⟨known, full, rfl⟩
    · split <;> exact ⟨known, full, rfl⟩

theorem learnSuffix_eq (n : Node) (suffix : Str) :
    ∃ known full, n.learnSuffix suffix = { n with knownSuffixes := known, classificationFull := full } := by
  rw [learnSuffix]
  split
  · exact ⟨_, _, rfl⟩
  · split <;> exact ⟨_, _, rfl⟩

theorem replaceStatus_same (n : Node) (s : Option Status) (fingerprint : Str) (now : Nat) :
    (n.replaceStatus s fingerprint now).provenance = (n.quarantine now).provenance ∧
      (n.replaceStatus s fingerprint now).quarantined = (n.quarantine now).quarantined := by
  obtain ⟨known, full, h⟩ := learnShort_eq ((nameMaps s).1.entries.map Prod.fst)
    { n.quarantine now with fingerprint := fingerprint, short := (nameMaps s).1, fullNames := (nameMaps s).2 }
  simp only [replaceStatus, h]
  split <;> exact ⟨rfl, rfl⟩

theorem observeStatus_same (n : Node) (s : Option Status) (peersChanged : Bool) (now : Nat) :
    ∃ n₁, (n₁ = n ∨ n₁ = n.quarantine now) ∧ (n.observeStatus s peersChanged now).provenance = n₁.provenance ∧
      (n.observeStatus s peersChanged now).quarantined = n₁.quarantined := by
  rw [observeStatus]
  generalize n.accepts s now = running
  generalize canonical _ = suffix
  generalize n.nextFingerprint running suffix s peersChanged = fingerprint
  dsimp only
  split
  · obtain ⟨known, full, h⟩ := learnSuffix_eq (n.replaceStatus s fingerprint now) suffix
    rw [h]
    exact ⟨_, .inr rfl, replaceStatus_same n s fingerprint now⟩
  · obtain ⟨known, full, h⟩ := learnSuffix_eq n suffix
    rw [h]
    exact ⟨n, .inl rfl, rfl, rfl⟩

theorem observeStatus_spec (hb : Bounded n) (s : Option Status) (peersChanged : Bool) (now : Nat) :
    Bounded (n.observeStatus s peersChanged now) ∧ Keeps now n (n.observeStatus s peersChanged now) := by
  obtain ⟨n₁, hn₁, hp, hq⟩ := observeStatus_same n s peersChanged now
  have hd (ip : Addr) : (n.observeStatus s peersChanged now).deadline ip = n₁.deadline ip := by
    rw [Node.deadline, Node.deadline, hp, hq]
  rcases hn₁ with rfl | rfl
  · exact ⟨hb.of_same hp hq, .of_same hp hq⟩
  · exact ⟨(quarantine_bounded hb now).of_same hp hq, fun ip hip => hd ip ▸ quarantine_keeps n now ip hip⟩

/-! ## Runs -/

variable {s : System}

variable (dns : DnsPackage)

/-- Every step keeps the invariant and the deadlines ahead of it. -/
theorem step_spec (hb : Bounded s.node) (now : Nat) (e : Event) :
    Bounded (step dns s now e).1.node ∧ Keeps now s.node (step dns s now e).1.node := by
  cases e with
  | connect | close => exact ⟨hb.of_same rfl rfl, .of_same rfl rfl⟩
  | query id name qtype =>
    simp only [step]
    split <;> exact ⟨hb, .refl now _⟩
  | answer id reply =>
    simp only [step]
    split
    · exact ⟨hb, .refl now _⟩
    · next q _ =>
      cases reply with
      | none => exact ⟨hb, .refl now _⟩
      | some msg =>
        obtain ⟨hb', hk, -⟩ := remember_spec hb { msg with answer := msg.answer.map (q.rename dns) } q.fingerprint now
        exact ⟨hb', hk⟩
  | observe status peersChanged => exact observeStatus_spec hb status peersChanged now
  | lookup ip =>
    simp only [step]
    rcases isDestination_node s.node ip now with h | h
    · rw [h]
      exact ⟨hb, .refl now _⟩
    · rw [h]
      exact ⟨pruneAddresses_bounded hb now, pruneAddresses_keeps _ now⟩

theorem run_bounded (hb : Bounded s.node) (events : List (Nat × Event)) :
    Bounded (run dns s events).node := by
  induction events generalizing s with
  | nil => exact hb
  | cons e events ih => exact ih (step_spec dns hb e.1 e.2).1

/-- A deadline outlives every run that ends before it. -/
theorem run_keeps (hb : Bounded s.node) {events : List (Nat × Event)}
    {d : Nat} (hd : d ≤ s.node.deadline ip) (hbefore : ∀ e ∈ events, e.1 < d) :
    d ≤ (run dns s events).node.deadline ip := by
  induction events generalizing s with
  | nil => exact hd
  | cons e events ih =>
    obtain ⟨hb', hk⟩ := step_spec dns hb e.1 e.2
    have hlt : e.1 < d := hbefore e mem_cons_self
    exact ih hb' (Nat.le_trans hd (hk ip (by omega))) fun e' he' => hbefore e' (mem_cons_of_mem _ he')

theorem run_append (s : System) (l₁ l₂ : List (Nat × Event)) :
    run dns s (l₁ ++ l₂) = run dns (run dns s l₁) l₂ := foldl_append ..

/-- The addresses of a returned message are classified past the lifetime of their records. -/
theorem answered_deadline (hb : Bounded s.node) {id : Nat}
    {reply : Option Msg} {msg : Msg} (h : (step dns s now (.answer id reply)).2 = .answered (some msg)) {rr : RR}
    (hrr : rr ∈ msg.records) (hip : rr.address = some ip) :
    now + rr.ttl * second ≤ (step dns s now (.answer id reply)).1.node.deadline ip.unmap := by
  simp only [step] at h ⊢
  split at h
  · cases h
  · next q hq =>
    cases reply with
    | none => simp [QueryDNS.finish] at h
    | some raw =>
      simp only [QueryDNS.finish, Output.answered.injEq] at h ⊢
      exact (remember_spec hb _ _ now).2.2 msg h rr hrr ip hip

theorem init_bounded (options : Options) : Bounded (init options).node := by
  refine ⟨fun ip hip => ?_, Nat.zero_le _⟩
  simp [init, New] at hip

/-- In every run the two address maps are disjoint and hold at most 4096 addresses, and an address in an A or
AAAA record of a returned message is a destination until the lifetime of that record is over. -/
theorem returned_addresses_stay_classified (dns : DnsPackage) (options : Options) (events : List (Nat × Event)) :
    (∀ ip, ¬ (((run dns (init options) events).node.provenance.get? ip).isSome ∧
        ((run dns (init options) events).node.quarantined.get? ip).isSome)) ∧
      (run dns (init options) events).node.provenance.size + (run dns (init options) events).node.quarantined.size ≤ 4096 ∧
      ∀ before t id reply msg after, events = before ++ (t, .answer id reply) :: after →
        (step dns (run dns (init options) before) t (.answer id reply)).2 = .answered (some msg) →
        ∀ rr ∈ msg.records, ∀ ip, rr.address = some ip → ∀ now, (∀ e ∈ events, e.1 ≤ now) →
          now < t + rr.ttl * second → ((run dns (init options) events).node.isDestination ip now).2 = true := by
  have hinit := init_bounded options
  have hb := run_bounded dns hinit events
  refine ⟨fun ip ⟨hp, hq⟩ => by simp [hb.disjoint ip hp] at hq, hb.budget, ?_⟩
  rintro before t id reply msg after rfl hmsg rr hrr ip hip now hnow hlt
  have hb₁ := run_bounded dns hinit before
  have hd := answered_deadline dns hb₁ hmsg hrr hip
  apply isDestination_of_deadline
  -- The deadline set by the answer survives the rest of the run, which ends before it.
  rw [run_append]
  refine Nat.lt_of_lt_of_le hlt (run_keeps dns (step_spec dns hb₁ t _).1 hd ?_)
  intro e he
  exact Nat.lt_of_le_of_lt (hnow e (by simp [he])) hlt

/-- A node that meets one peer, answers for it, and then loses its status. -/
def onePeer : Status where
  backendState := "Running".toList
  self := none
  currentTailnet := none
  peer := [some ⟨[], "peer.tail.test.".toList, [], true, 0, none, false, none⟩]

def asciiDns : DnsPackage := ⟨fun s => s ++ ['.'], (· == 1)⟩

def peerReply : Msg := ⟨[⟨"peer.tail.test.".toList, 3600, .a [10, 0, 0, 9]⟩], [], []⟩

def peerRun : List (Nat × Event) :=
  [(1, .connect), (2, .observe (some onePeer) true), (3, .query 0 "peer".toList 1), (4, .answer 0 (some peerReply)),
    (5, .observe none true)]

theorem peer_stays_classified :
    ((run asciiDns (init ⟨none, []⟩) peerRun).node.isDestination (.v4 0x0a000009#32) (59 * second)).2 = true :=
  (returned_addresses_stay_classified asciiDns ⟨none, []⟩ peerRun).2.2
    (peerRun.take 3) 4 0 (some peerReply) ⟨[⟨"peer.".toList, 60, .a [10, 0, 0, 9]⟩], [], []⟩ (peerRun.drop 4) rfl rfl
    ⟨"peer.".toList, 60, .a [10, 0, 0, 9]⟩ (by decide) _ rfl (59 * second) (by decide) (by decide)

end Silo.Netnode
