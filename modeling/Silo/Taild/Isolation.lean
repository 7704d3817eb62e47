import Silo.Taild.Documents
/-!
# Isolation of documents

A step for a principal reads its own directory and the operator's, and writes its own. The
encoding of principals is injective, so that two of them have two directories wherever the
host tells the spellings of their names apart. There, what a peer is answered does not
depend on what peers do that share no principal with it.
-/

namespace Silo.Taild

open Go Lib List

/-! ## Directories of principals -/

theorem isLetter_ascii {c : Char} (h : isLetter c) : c.toNat < 0x80 := by
  simp only [isLetter, decide_eq_true_eq, Char.le_def, UInt32.le_iff_toNat_le] at h
  have hz : 'z'.val.toNat = 122 := rfl
  have hZ : 'Z'.val.toNat = 90 := rfl
  show c.val.toNat < 0x80
  omega

theorem isDigit_ascii {c : Char} (h : isDigit c) : c.toNat < 0x80 := by
  simp only [isDigit, Bool.and_eq_true, decide_eq_true_eq, Char.le_def, UInt32.le_iff_toNat_le] at h
  have h9 : '9'.val.toNat = 57 := rfl
  show c.val.toNat < 0x80
  omega

theorem eq_append_drop {s p : Str} (h : hasPrefix s p) : s = p ++ s.drop p.length := by
  obtain ⟨t, rfl⟩ := isPrefixOf_iff_prefix.1 h
  simp

theorem ascii_of_all {s : Str} (h : s.all (fun c => c.toNat < 0x80)) : ∀ c ∈ s, c.toNat < 0x80 :=
  fun c hc => of_decide_eq_true (all_eq_true.1 h c hc)

theorem tagPattern_ascii {s : Str} (h : tagPattern s) : ∀ c ∈ s, c.toNat < 0x80 := by
  rw [tagPattern, Bool.and_eq_true] at h
  obtain ⟨hstarts, hrest⟩ := h
  rw [eq_append_drop hstarts]
  refine forall_mem_append.2 ⟨ascii_of_all (by decide), ?_⟩
  change ∀ c ∈ s.drop 4, c.toNat < 0x80
  split at hrest
  · rename_i hnil
    rw [hnil]
    exact nofun
  · rename_i c₀ cs hcons
    simp only [Bool.and_eq_true, all_eq_true, Bool.or_eq_true, beq_iff_eq] at hrest
    rw [hcons]
    refine forall_mem_cons.2 ⟨isLetter_ascii hrest.1, fun c hc => ?_⟩
    rcases hrest.2 c hc with (hletter | hdigit) | rfl
    · exact isLetter_ascii hletter
    · exact isDigit_ascii hdigit
    · decide

theorem canonicalID_ascii {s : Str} (h : canonicalID s) : ∀ c ∈ s, c.toNat < 0x80 := by
  unfold canonicalID at h
  split at h
  · cases h
  · rename_i n _
    simp only [Bool.and_eq_true, beq_iff_eq] at h
    rw [← h.2]
    intro c hc
    exact isDigit_ascii (by simpa [isDigit, Char.isDigit, Char.le_def] using Nat.isDigit_of_mem_toDigits (by decide) (by decide) hc)

theorem parsePrincipal_ascii {s : Principal} (h : (parsePrincipal s).isSome) : ∀ c ∈ s, c.toNat < 0x80 := by
  unfold parsePrincipal at h
  split at h
  · rename_i hvalid
    rw [Bool.or_eq_true, Bool.and_eq_true] at hvalid
    rcases hvalid with ⟨hstarts, hid⟩ | htag
    · rw [eq_append_drop hstarts]
      exact forall_mem_append.2 ⟨ascii_of_all (by decide), canonicalID_ascii hid⟩
    · exact tagPattern_ascii htag
  · cases h

theorem utf8Bytes_of_ascii {s : Str} (h : ∀ c ∈ s, c.toNat < 0x80) : utf8Bytes s = s := by
  induction s with
  | nil => rfl
  | cons c s ih =>
    rw [forall_mem_cons] at h
    rw [utf8Bytes_cons_ascii h.1, ih h.2]

/-- On a host that looks names up by their exact spelling, two principals never have the same directory. -/
theorem own_inj {dirs : Directories} {kind kind' : Kind} {owner owner' : Principal} (hexact : dirs.locate.Injective)
    (h : (parsePrincipal owner).isSome) (h' : (parsePrincipal owner').isSome)
    (heq : dirs.own kind owner = dirs.own kind' owner') : owner = owner' := by
  have hcode : Base64.encode (utf8Bytes owner) = Base64.encode (utf8Bytes owner') := by
    have := append_cancel_left (hexact heq)
    exact (List.cons.inj (List.cons.inj (List.cons.inj this).2).2).1
  rw [utf8Bytes_of_ascii (parsePrincipal_ascii h), utf8Bytes_of_ascii (parsePrincipal_ascii h')] at hcode
  have hbyte : ∀ {o : Principal}, (parsePrincipal o).isSome → ∀ c ∈ o, c.toNat < 256 :=
    fun ho c hc => (parsePrincipal_ascii ho c hc).trans (by decide)
  exact Base64.encode_inj (hbyte h) (hbyte h') hcode

/-! ## One principal's step -/

section Step

variable {dirs : Directories} {env : Surroundings} {s s' : Store} {kind : Kind} {verb : Verb} {name raw : Str}
  {owner : Principal}

theorem get?_put (path path' : Path) (dir : Option Dir) :
    (s.put path dir).get? path' = if path' = path ∧ dir.isSome then dir else s.get? path' := by
  cases dir with
  | none => simp [Store.put]
  | some files => simp [Store.put, AssocMap.get?_insert]

/-- Only the principal's own directory changes. -/
theorem documentsFor_frame {path : Path} (h : (parsePrincipal owner).isSome → path ≠ dirs.own kind owner) :
    (documentsFor dirs env s kind verb name owner raw).1.get? path = s.get? path := by
  unfold documentsFor
  split
  · rfl
  rename_i hvalid
  have hne := h (Bool.of_not_eq_false hvalid)
  split
  · rfl
  dsimp only
  split
  · rfl
  · split
    · rw [get?_put, if_neg fun hp => hne hp.1]
    · rw [get?_put, if_neg fun hp => hne hp.1]

/-- The two directories a step opens are as they are in the other store. -/
structure SameView (dirs : Directories) (kind : Kind) (owner : Principal) (s s' : Store) : Prop where
  own : (parsePrincipal owner).isSome → s.get? (dirs.own kind owner) = s'.get? (dirs.own kind owner)
  operator : ∀ path, dirs.operator kind = some path → s.get? path = s'.get? path

/-- The answer, and the principal's directory afterwards, follow from the two directories. -/
theorem documentsFor_congr (h : SameView dirs kind owner s s') :
    (documentsFor dirs env s kind verb name owner raw).2 = (documentsFor dirs env s' kind verb name owner raw).2 ∧
      ((parsePrincipal owner).isSome →
        (documentsFor dirs env s kind verb name owner raw).1.get? (dirs.own kind owner) =
          (documentsFor dirs env s' kind verb name owner raw).1.get? (dirs.own kind owner)) := by
  unfold documentsFor
  split
  · rename_i hinvalid
    exact ⟨rfl, fun hvalid => absurd (hinvalid.symm.trans hvalid) (by decide)⟩
  rename_i hvalid
  have hown := h.own (Bool.of_not_eq_false hvalid)
  have hop : openOperator dirs env.faults s kind = openOperator dirs env.faults s' kind := by
    unfold openOperator
    split
    · rfl
    · rename_i path hpath
      rw [h.operator path hpath]
  split
  · exact ⟨rfl, fun _ => hown⟩
  dsimp only
  rw [hown, hop]
  split
  · exact ⟨rfl, fun _ => hown⟩
  · split
    · exact ⟨rfl, fun _ => by rw [get?_put, get?_put, hown]⟩
    · exact ⟨rfl, fun _ => by rw [get?_put, get?_put, hown]⟩

theorem answer_reads (hverb : verb.writes = false) (own op : Option Handle) :
    (env.answer kind verb name owner raw own op).1 = own.map (·.files) := by
  unfold Surroundings.answer
  cases verb with
  | create | edit | rm => cases hverb
  | ls => rfl
  | «show» | validate | other =>
    dsimp only
    rw [if_neg (by decide)]
    split <;> rfl

theorem opened_documentDir {f : Faults} {path : Path} {dir : Option Dir} {h : Handle}
    (heq : opened (documentDir f path dir false) = .ok (some h)) : dir = some h.files := by
  unfold documentDir at heq
  split at heq
  · rename_i e _
    cases e <;> cases heq
  · split at heq
    · cases Except.ok.inj heq
      rfl
    · cases heq

theorem documentsFor_reads (hverb : verb.writes = false) (path : Path) :
    (documentsFor dirs env s kind verb name owner raw).1.get? path = s.get? path := by
  have hsame : ∀ {own : Option Handle},
      opened (documentDir env.faults (dirs.own kind owner) (s.get? (dirs.own kind owner)) false) = .ok own →
        (s.put (dirs.own kind owner) (own.map (·.files))).get? path = s.get? path := by
    intro own hopen
    cases own with
    | none => rfl
    | some h =>
      rw [get?_put]
      split
      · rename_i hpath
        rw [hpath.1, opened_documentDir hopen]
        rfl
      · rfl
  unfold documentsFor
  split
  · rfl
  split
  · rfl
  dsimp only
  rw [hverb]
  split
  · rfl
  · rename_i own hopen
    split
    · exact hsame hopen
    · rw [answer_reads hverb]
      exact hsame hopen

end Step

/-! ## Calls -/

section Calls

variable {dirs : Directories} {s s' : Store} {c : Call}

theorem listAll_reads {first : Principal} {principals : List Principal} {yours operator : List Document}
    (hverb : c.verb.writes = false) (path : Path) :
    (c.listAll dirs first principals s yours operator).1.get? path = s.get? path := by
  induction principals generalizing s yours operator with
  | nil => rfl
  | cons principal rest ih =>
    have hstep : (c.documentsFor dirs s principal).1.get? path = s.get? path := documentsFor_reads hverb path
    unfold Call.listAll
    split
    · rename_i heq
      rwa [heq] at hstep
    · rename_i heq
      rw [heq] at hstep
      rw [ih, hstep]

theorem listAll_congr {first : Principal} {principals : List Principal} {yours operator : List Document}
    (hverb : c.verb.writes = false) (h : ∀ q ∈ principals, SameView dirs c.kind q s s') :
    (c.listAll dirs first principals s yours operator).2 = (c.listAll dirs first principals s' yours operator).2 := by
  induction principals generalizing s s' yours operator with
  | nil => rfl
  | cons principal rest ih =>
    have hanswer : (c.documentsFor dirs s principal).2 = (c.documentsFor dirs s' principal).2 :=
      (documentsFor_congr (h principal mem_cons_self)).1
    have hreads : ∀ (s : Store) path, (c.documentsFor dirs s principal).1.get? path = s.get? path :=
      fun s path => documentsFor_reads hverb path
    have hs := hreads s
    have hs' := hreads s'
    unfold Call.listAll
    rcases hd : c.documentsFor dirs s principal with ⟨t, result⟩
    rcases hd' : c.documentsFor dirs s' principal with ⟨t', result'⟩
    rw [hd] at hs hanswer
    rw [hd'] at hs' hanswer
    obtain rfl : result = result' := hanswer
    cases result with
    | error e => rfl
    | ok docs =>
      refine ih fun q hq => ?_
      obtain ⟨hown, hop⟩ := h q (mem_cons_of_mem _ hq)
      exact ⟨fun hv => (hs _).trans ((hown hv).trans (hs' _).symm),
        fun path hpath => (hs _).trans ((hop path hpath).trans (hs' _).symm)⟩

theorem selectedOwner_mem {p : Peer} {owner principal : Principal} (h : selectedOwner p owner = .ok principal) :
    principal ∈ p.principals := by
  unfold selectedOwner at h
  split at h
  · split at h
    · rename_i hone
      cases h
      rw [hone]
      exact mem_cons_self
    · cases h
  · split at h
    · cases h
    · rename_i howned
      cases h
      exact not_not.1 (not_or.1 howned).2

/-- What a call does: it answers from nothing of the store, lists every principal of the peer, or takes one step for one
of them. -/
theorem documents_cases (c : Call) (dirs : Directories) :
    (∃ answer, ∀ s, c.documents dirs s = (s, answer)) ∨
    ∃ p, c.acting = .ok p ∧
      ((c.verb.writes = false ∧ ∀ s, c.documents dirs s = c.listAll dirs (p.principals.headD []) p.principals s [] []) ∨
        ∃ principal ∈ p.principals, ∀ s, c.documents dirs s =
          ((c.documentsFor dirs s principal).1, (c.documentsFor dirs s principal).2.bind (c.report principal))) := by
  rcases hacting : c.acting with e | p
  · exact .inl ⟨.error e, fun s => by simp only [Call.documents, hacting]⟩
  rcases hauth : c.env.authorize p c.action with e | u
  · exact .inl ⟨.error e, fun s => by simp only [Call.documents, hacting, hauth]⟩
  by_cases hkind : c.kind ≠ .template ∧ c.kind ≠ .policy
  · exact .inl ⟨.error usageDocument, fun s => by simp only [Call.documents, hacting, hauth, if_pos hkind]⟩
  by_cases hvalidate : c.verb = .validate
  · refine .inl ⟨(validateDocument c.env.checker c.kind c.raw).map fun d => [d], fun s => ?_⟩
    simp only [Call.documents, hacting, hauth, if_neg hkind, if_pos hvalidate]
  by_cases hls : c.verb = .ls ∧ c.owner = [] ∧ 1 < p.principals.length
  · refine .inr ⟨p, rfl, .inl ⟨by rw [hls.1]; rfl, fun s => ?_⟩⟩
    simp only [Call.documents, hacting, hauth, if_neg hkind, if_neg hvalidate, if_pos hls]
  rcases howner : selectedOwner p c.owner with e | principal
  · refine .inl ⟨.error e, fun s => ?_⟩
    simp only [Call.documents, hacting, hauth, if_neg hkind, if_neg hvalidate, if_neg hls, howner]
  · refine .inr ⟨p, rfl, .inr ⟨principal, selectedOwner_mem howner, fun s => ?_⟩⟩
    simp only [Call.documents, hacting, hauth, if_neg hkind, if_neg hvalidate, if_neg hls, howner]
    rcases c.documentsFor dirs s principal with ⟨t, e | docs⟩ <;> rfl

/-- A call changes nothing, or the directory of one principal of the peer it acts for, with a verb that writes. -/
theorem documents_frame (c : Call) (dirs : Directories) (s : Store) :
    (∀ path, (c.documents dirs s).1.get? path = s.get? path) ∨
    c.verb.writes ∧ ∃ p, c.acting = .ok p ∧ ∃ principal ∈ p.principals, (parsePrincipal principal).isSome ∧
      ∀ path, path ≠ dirs.own c.kind principal → (c.documents dirs s).1.get? path = s.get? path := by
  rcases documents_cases c dirs with ⟨answer, heq⟩ | ⟨p, hacting, ⟨hverb, heq⟩ | ⟨principal, hmem, heq⟩⟩
  · exact .inl fun path => by rw [heq]
  · exact .inl fun path => by rw [heq, listAll_reads hverb]
  · cases hverb : c.verb.writes with
    | false => exact .inl fun path => by rw [heq]; exact documentsFor_reads hverb path
    | true =>
      cases hvalid : (parsePrincipal principal).isSome with
      | false =>
        refine .inl fun path => ?_
        rw [heq]
        exact documentsFor_frame fun hv => absurd (hvalid.symm.trans hv) (by decide)
      | true =>
        refine .inr ⟨rfl, p, hacting, principal, hmem, hvalid, fun path hne => ?_⟩
        rw [heq]
        exact documentsFor_frame fun _ => hne

/-- The answer follows from the documents of the peer's principals and the operator's. -/
theorem documents_congr (h : ∀ p, c.acting = .ok p → ∀ q ∈ p.principals, SameView dirs c.kind q s s') :
    (c.documents dirs s).2 = (c.documents dirs s').2 := by
  rcases documents_cases c dirs with ⟨answer, heq⟩ | ⟨p, hacting, ⟨hverb, heq⟩ | ⟨principal, hmem, heq⟩⟩
  · rw [heq, heq]
  · rw [heq, heq]
    exact listAll_congr hverb (h p hacting)
  · rw [heq, heq]
    exact congrArg (Except.bind · _) (documentsFor_congr (h p hacting principal hmem)).1

/-- A directory after a call follows from the directory before it and the operator's. -/
theorem documents_local {path : Path} (hpath : s.get? path = s'.get? path)
    (hop : ∀ op, dirs.operator c.kind = some op → s.get? op = s'.get? op) :
    (c.documents dirs s).1.get? path = (c.documents dirs s').1.get? path := by
  rcases documents_cases c dirs with ⟨answer, heq⟩ | ⟨p, hacting, ⟨hverb, heq⟩ | ⟨principal, hmem, heq⟩⟩
  · rw [heq, heq]
    exact hpath
  · rw [heq, heq, listAll_reads hverb, listAll_reads hverb]
    exact hpath
  · rw [heq, heq]
    by_cases hown : (parsePrincipal principal).isSome ∧ path = dirs.own c.kind principal
    · obtain ⟨hvalid, rfl⟩ := hown
      exact (documentsFor_congr ⟨fun _ => hpath, hop⟩).2 hvalid
    · have hframe : ∀ s : Store, (c.documentsFor dirs s principal).1.get? path = s.get? path :=
        fun s => documentsFor_frame fun hv hp => hown ⟨hv, hp⟩
      exact (hframe s).trans (hpath.trans (hframe s').symm)

end Calls

/-! ## Sequences of calls -/

/-- The host finds another directory for every principal, and neither of the operator's among them. -/
structure Directories.Apart (dirs : Directories) : Prop where
  principals : ∀ kind kind' owner owner', (parsePrincipal owner).isSome → (parsePrincipal owner').isSome →
    dirs.own kind owner = dirs.own kind' owner' → owner = owner'
  operator : ∀ kind kind' owner path, (parsePrincipal owner).isSome → dirs.operator kind = some path →
    path ≠ dirs.own kind' owner

def Call.shares (principals : List Principal) (c : Call) : Bool :=
  match c.acting with
  | .ok p => p.principals.any (· ∈ principals)
  | .error _ => false

/-- The directories that count for some principals: theirs and the operator's. -/
def Agree (dirs : Directories) (principals : List Principal) (s s' : Store) : Prop :=
  (∀ kind, ∀ q ∈ principals, (parsePrincipal q).isSome → s.get? (dirs.own kind q) = s'.get? (dirs.own kind q)) ∧
    ∀ kind path, dirs.operator kind = some path → s.get? path = s'.get? path

section Runs

variable {dirs : Directories} {s s' : Store} {c : Call} {principals : List Principal}

/-- A call of a peer that shares no principal changes none of these directories. -/
theorem Agree.foreign (hapart : dirs.Apart) (h : Agree dirs principals s s') (hforeign : c.shares principals = false) :
    Agree dirs principals (c.documents dirs s).1 s' := by
  rcases documents_frame c dirs s with hsame | ⟨-, p, hacting, principal, hmem, hvalid, hframe⟩
  · exact ⟨fun kind q hq hv => (hsame _).trans (h.1 kind q hq hv), fun kind path hp => (hsame _).trans (h.2 kind path hp)⟩
  have hnew : principal ∉ principals := by
    intro hin
    simp only [Call.shares, hacting, any_eq_false, decide_eq_true_eq] at hforeign
    exact hforeign principal hmem hin
  refine ⟨fun kind q hq hv => ?_, fun kind path hp => ?_⟩
  · rw [hframe _ fun heq => hnew (hapart.principals _ _ _ _ hv hvalid heq ▸ hq)]
    exact h.1 kind q hq hv
  · rw [hframe _ (hapart.operator _ _ _ _ hvalid hp)]
    exact h.2 kind path hp

theorem Agree.both (h : Agree dirs principals s s') :
    Agree dirs principals (c.documents dirs s).1 (c.documents dirs s').1 :=
  ⟨fun kind q hq hv => documents_local (h.1 kind q hq hv) (h.2 c.kind),
    fun kind path hp => documents_local (h.2 kind path hp) (h.2 c.kind)⟩

/-- Leaving out the calls of the others makes no difference for these directories. -/
theorem Agree.run (hapart : dirs.Apart) (calls : List Call) (h : Agree dirs principals s s') :
    Agree dirs principals (run dirs s calls) (run dirs s' (calls.filter (Call.shares principals))) := by
  induction calls generalizing s s' with
  | nil => exact h
  | cons c calls ih =>
    cases hshares : c.shares principals with
    | true =>
      rw [filter_cons_of_pos hshares]
      exact ih h.both
    | false =>
      rw [filter_cons_of_neg (by simp [hshares])]
      exact ih (h.foreign hapart hshares)

end Runs

def Call.principals (c : Call) : List Principal :=
  match c.acting with
  | .ok p => p.principals
  | .error _ => []

/-- Whatever was called before: a call changes at most the directory of one principal of its peer, and only with a verb
that writes; its answer follows from the directories of the peer's principals and the operator's; and with all these
directories apart it is the same without the calls of peers that share no principal with it. -/
theorem documents_isolated (dirs : Directories) (s : Store) (before : List Call) (c : Call) :
    ((∀ path, (c.documents dirs (run dirs s before)).1.get? path = (run dirs s before).get? path) ∨
      c.verb.writes = true ∧ ∃ principal ∈ c.principals, ∀ path, path ≠ dirs.own c.kind principal →
        (c.documents dirs (run dirs s before)).1.get? path = (run dirs s before).get? path) ∧
    (∀ s', Agree dirs c.principals (run dirs s before) s' →
      (c.documents dirs (run dirs s before)).2 = (c.documents dirs s').2) ∧
    (dirs.Apart → (c.documents dirs (run dirs s before)).2 =
      (c.documents dirs (run dirs s (before.filter (Call.shares c.principals)))).2) := by
  have hcongr : ∀ {t t' : Store}, Agree dirs c.principals t t' → (c.documents dirs t).2 = (c.documents dirs t').2 := by
    intro t t' h
    refine documents_congr fun p hacting q hq => ⟨fun hv => h.1 _ q ?_ hv, h.2 _⟩
    simpa only [Call.principals, hacting] using hq
  refine ⟨?_, fun s' h => hcongr h, fun hapart => ?_⟩
  · rcases documents_frame c dirs (run dirs s before) with hsame | ⟨hverb, p, hacting, principal, hmem, -, hframe⟩
    · exact .inl hsame
    · refine .inr ⟨hverb, principal, ?_, hframe⟩
      simpa only [Call.principals, hacting] using hmem
  · exact hcongr (Agree.run hapart before ⟨fun _ _ _ _ => rfl, fun _ _ _ => rfl⟩)

/-- A host on which nothing fails; the library reads and writes the smallest template. -/
def plainHost : Surroundings :=
  let template : Template := ⟨"1".toList, none, none, none, none, none, none, none, []⟩
  { shutdownPending := false
    auditFails := false
    checker :=
      { yaml :=
          { first := fun _ =>
              some [.mapping "!!map".toList [(.scalar "!!str".toList "version".toList, .scalar "!!str".toList "1".toList)]]
            atEnd := fun _ => true
            decode := fun _ => some template
            marshal := fun _ => .ok "version: \"1\"\n".toList }
        parseResource := fun _ _ => .parsed
        normalizePolicy := fun _ => .error uncategorized }
    faults := ⟨fun _ => none, fun _ => none, fun _ _ => none, "00".toList, none, false, none, none⟩
    machines := .ok [] }

def userPeer (principal : String) : Peer := ⟨[principal.toList], principal.toList, true, [.read, .templateManage]⟩

def userCall (principal : String) (verb : Verb) : Call :=
  let peer := userPeer principal
  ⟨⟨peer, some (some peer)⟩, .template, verb, "web".toList, [], "version: '1'".toList, plainHost⟩

/-- A configuration with the operator's directories under `/etc`, on a host that looks names up by their spelling. -/
def separate : Directories :=
  ⟨["srv".toList], some ["etc".toList, "templates".toList], some ["etc".toList, "policies".toList], id⟩

theorem separate_apart : separate.Apart where
  principals _ _ _ _ hv hv' := own_inj Function.injective_id hv hv'
  operator kind _ _ _ _ hpath := by
    cases kind <;>
    · cases hpath
      exact fun heq => absurd (List.cons.inj heq).1 (by decide)

/-- There a user is shown the same with and without the create of another. -/
theorem separate_isolated :
    (userCall "user:2" .create).shares (userCall "user:1" .show).principals = false ∧
    ((userCall "user:1" .show).documents separate (run separate .empty [userCall "user:2" .create])).2 =
      ((userCall "user:1" .show).documents separate (run separate .empty [])).2 :=
  ⟨by decide, (documents_isolated separate .empty [userCall "user:2" .create] (userCall "user:1" .show)).2.2 separate_apart⟩

/-- A configuration whose templates are those of `user:2`. -/
def overlapping : Directories :=
  let home := ["srv".toList]
  ⟨home, some (Directories.own ⟨home, none, none, id⟩ .template "user:2".toList), none, id⟩

/-- A volume that folds the case of ASCII letters. -/
def folding : Directories := ⟨["srv".toList], none, none, map (map Char.toLower)⟩

/-- With the first the create of one user changes what another is shown, with the second that of one tag what another tag
is: the codes of `tag:aG` and `tag:aa` differ only in the case of a letter. -/
theorem overlapping_interferes :
    ((userCall "user:2" .create).shares (userCall "user:1" .show).principals = false ∧
      ((userCall "user:1" .show).documents overlapping (run overlapping .empty [])).2 =
        .error (failure "not_found" "document not found" 3) ∧
      (((userCall "user:1" .show).documents overlapping (run overlapping .empty [userCall "user:2" .create])).2).isOk = true) ∧
    (userCall "tag:aG" .create).shares (userCall "tag:aa" .show).principals = false ∧
      ((userCall "tag:aa" .show).documents folding (run folding .empty [])).2 =
        .error (failure "not_found" "document not found" 3) ∧
      (((userCall "tag:aa" .show).documents folding (run folding .empty [userCall "tag:aG" .create])).2).isOk = true := by
  decide +kernel

end Silo.Taild
