import Silo.Lib.AssocMap
import Silo.Secrets.Names
/-!
# Provider grants

A grant lists the secrets a provider may hand out to one run of one machine.
`authorize` checks the whole grant and the whole request before it joins the requested
names with the grant's slots.
-/

namespace Silo.Secrets

open List Lib Rust

structure AllowedSecret where
  (slot key : SecretName)
  field : SecretField
  backing_scope : SecretScope
  deriving DecidableEq

structure SecretGrant where
  version : Nat
  store : Str
  machine : MachineScopeId
  run : Str
  allowed : List AllowedSecret

structure RequestScope where
  machine : MachineScopeId
  run : Str

/-- A request as the provider gets it: every name has been checked on the wire. -/
structure ProviderRequest where
  scope : RequestScope
  names : List SecretName
  checked : ∀ name ∈ names, name.Valid

theorem valid_of_mapM_new {names : List Str} {checked : List SecretName} (h : names.mapM SecretName.new = .ok checked) :
    ∀ name ∈ checked, name.Valid := by
  intro name hname
  obtain ⟨raw, _, hraw⟩ := forall₂_exists_left (mapM_eq_ok.1 h) _ hname
  exact (SecretName.new_eq_ok.1 hraw).2

def ProviderRequest.deserialize (machine run : Str) (names : List Str) : Except SecretError ProviderRequest := do
  let machine ← MachineScopeId.new machine
  match h : names.mapM SecretName.new with
  | .ok checked => .ok ⟨⟨machine, run⟩, checked, valid_of_mapM_new h⟩
  | .error e => .error e

def file_identity (path : List UInt8) : Except SecretError Str := do
  require (path.head? = some 0x2F) (.InvalidRequest "provider store path must be absolute".toList)
  let path ← orFail (from_utf8 path) (.InvalidRequest "store path must be UTF-8".toList)
  pure ("file:".toList ++ path)

def denied : SecretError := .Unauthorized "provider grant does not authorize this request".toList

namespace SecretGrant

/-- One entry of the grant, after the slots already seen. -/
def check_allowed (grant : SecretGrant) (slots : List Str) (allowed : AllowedSecret) : Except SecretError (List Str) := do
  require (allowed.slot.as_str ∉ slots) denied
  require (allowed.slot.reserved = false) denied
  require (allowed.key.reserved = false) denied
  require (allowed.field ≠ .Value) denied
  require (allowed.backing_scope = .Home ∨ allowed.backing_scope = .Machine grant.machine) denied
  pure (allowed.slot.as_str :: slots)

/-- The entry of a requested name, after the names already seen and the entries found for them. -/
def find_allowed (grant : SecretGrant) (found : List Str × List AllowedSecret) (name : SecretName) :
    Except SecretError (List Str × List AllowedSecret) := do
  require (name.as_str ∉ found.1) denied
  let entry ← orFail (grant.allowed.find? fun entry => entry.slot = name) denied
  pure (name.as_str :: found.1, found.2 ++ [entry])

def authorize (grant : SecretGrant) (store : List UInt8) (request : ProviderRequest) :
    Except SecretError (List AllowedSecret) := do
  require (grant.version = 2) denied
  let identity ← file_identity store
  require (grant.store = identity) denied
  require (grant.run ≠ []) denied
  require (grant.machine = request.scope.machine) denied
  require (grant.run = request.scope.run) denied
  let _ ← grant.allowed.foldlM grant.check_allowed []
  require (request.names ≠ []) denied
  let found ← request.names.foldlM grant.find_allowed ([], [])
  pure found.2

/-! ## What an authorized request can reach -/

variable {grant : SecretGrant}

/-- What the grant's own checks say about one entry. -/
structure Admissible (grant : SecretGrant) (entry : AllowedSecret) : Prop where
  slot : entry.slot.reserved = false
  key : entry.key.reserved = false
  field : entry.field ≠ .Value
  scope : entry.backing_scope = .Home ∨ entry.backing_scope = .Machine grant.machine

/-- What has been seen stays what has been visited. -/
theorem mem_seen {α β : Type} {f : α → β} {done : List α} {seen : List β} (h : ∀ b, b ∈ seen ↔ ∃ a ∈ done, f a = b)
    (a : α) (b : β) : b ∈ f a :: seen ↔ ∃ a' ∈ done ++ [a], f a' = b := by
  simp [h, or_and_right, exists_or, or_comm, eq_comm (a := b)]

theorem allowed_checked {slots : List Str} (h : grant.allowed.foldlM grant.check_allowed [] = .ok slots) :
    (grant.allowed.map (·.slot)).Nodup ∧ ∀ entry ∈ grant.allowed, Admissible grant entry := by
  -- invariant: the slots seen so far are exactly those of the entries already checked
  have hinv := foldlM_ok_invariant grant.check_allowed
    (fun done slots => (∀ slot, slot ∈ slots ↔ ∃ entry ∈ done, entry.slot.as_str = slot) ∧
      (done.map (·.slot)).Nodup ∧ ∀ entry ∈ done, Admissible grant entry)
    (fun done slots entry slots' hinv hstep => by
      obtain ⟨hseen, hnodup, hadm⟩ := hinv
      simp only [check_allowed, bind_eq_ok, require_eq_ok, pure_eq_ok] at hstep
      obtain ⟨_, hfresh, _, hslot, _, hkey, _, hfield, _, hscope, rfl⟩ := hstep
      refine ⟨mem_seen hseen entry, ?_, ?_⟩
      · exact Lib.nodup_map_concat hnodup fun e he hslot => hfresh ((hseen _).2 ⟨e, he, by rw [hslot]⟩)
      · exact forall_mem_append.2 ⟨hadm, forall_mem_singleton.2 ⟨hslot, hkey, hfield, hscope⟩⟩)
    grant.allowed [] [] slots ⟨by simp, by simp, by simp⟩ h
  rw [nil_append] at hinv
  exact hinv.2

theorem names_found {names : List SecretName} {found : List Str × List AllowedSecret}
    (h : names.foldlM grant.find_allowed ([], []) = .ok found) :
    names.Nodup ∧ List.Forall₂ (fun name entry => entry ∈ grant.allowed ∧ entry.slot = name) names found.2 := by
  -- invariant: the names seen are those already joined, each with its entry, in order
  have hinv := foldlM_ok_invariant grant.find_allowed
    (fun done found => (∀ name, name ∈ found.1 ↔ ∃ n ∈ done, n.as_str = name) ∧ done.Nodup ∧
      Forall₂ (fun name entry => entry ∈ grant.allowed ∧ entry.slot = name) done found.2)
    (fun done found name found' hinv hstep => by
      obtain ⟨hseen, hnodup, hjoin⟩ := hinv
      simp only [find_allowed, bind_eq_ok, require_eq_ok, pure_eq_ok, orFail_eq_ok] at hstep
      obtain ⟨_, hfresh, entry, hfind, rfl⟩ := hstep
      refine ⟨mem_seen hseen name, ?_, ?_⟩
      · rw [← concat_eq_append]
        exact hnodup.concat fun hmem => hfresh ((hseen _).2 ⟨name, hmem, rfl⟩)
      · refine rel_append hjoin (.cons ⟨mem_of_find?_eq_some hfind, ?_⟩ .nil)
        simpa using find?_some hfind)
    names [] ([], []) found ⟨by simp, by simp, .nil⟩ h
  rw [nil_append] at hinv
  exact hinv.2

/-- What holds of the grant, the request and the entries handed out when a request is authorized. -/
structure Confined (grant : SecretGrant) (request : ProviderRequest) (entries : List AllowedSecret) : Prop where
  machine : request.scope.machine = grant.machine
  run : request.scope.run = grant.run
  slots : (grant.allowed.map (·.slot)).Nodup
  names : ∀ name ∈ request.names, name.Valid ∧ name.reserved = false ∧ ∃ entry ∈ grant.allowed, entry.slot = name
  once : request.names.Nodup
  /-- In request order, the one entry of the grant for each name. -/
  exact_entries : List.Forall₂ (fun name entry => entry ∈ grant.allowed ∧ entry.slot = name ∧
    ∀ other ∈ grant.allowed, other.slot = name → other = entry) request.names entries
  /-- No entry belongs to another machine's scope. -/
  scope : ∀ entry ∈ entries, entry.backing_scope = .Home ∨ entry.backing_scope = .Machine grant.machine

/-- An authorized request reaches nothing outside the grant. -/
theorem authorize_confined (grant : SecretGrant) (store : List UInt8) (request : ProviderRequest)
    (entries : List AllowedSecret) (h : grant.authorize store request = .ok entries) :
    Confined grant request entries := by
  simp only [authorize, bind_eq_ok, require_eq_ok, pure_eq_ok] at h
  obtain ⟨_, _, _, _, _, _, _, _, _, hmachine, _, hrun, slots, hallowed, _, _, found, hfound, rfl⟩ := h
  obtain ⟨hnodup, hadm⟩ := allowed_checked hallowed
  obtain ⟨honce, hjoin⟩ := names_found hfound
  constructor
  · exact hmachine.symm
  · exact hrun.symm
  · exact hnodup
  · intro name hname
    obtain ⟨entry, _, hentry, rfl⟩ := forall₂_exists_right hjoin _ hname
    exact ⟨request.checked _ hname, (hadm entry hentry).slot, entry, hentry, rfl⟩
  · exact honce
  · refine hjoin.imp fun name entry hentry => ⟨hentry.1, hentry.2, fun other hother hslot => ?_⟩
    exact inj_on_of_nodup_map hnodup hother hentry.1 (hslot.trans hentry.2.symm)
  · intro entry hentry
    obtain ⟨name, _, hentry, _⟩ := forall₂_exists_left hjoin _ hentry
    exact (hadm entry hentry).scope

theorem authorize_confined_token :
    let machine : MachineScopeId := ⟨"0123456789abcdef0123456789abcdef".toList, by decide⟩
    let entry : AllowedSecret := ⟨⟨"codex.oauth.access_token".toList⟩, ⟨"openai_codex_oauth.codex.oauth".toList⟩,
      .OAuthAccessToken, .Machine machine⟩
    let grant : SecretGrant := ⟨2, "file:/s".toList, machine, "run".toList, [entry]⟩
    ∃ request, ProviderRequest.deserialize machine.as_str "run".toList ["codex.oauth.access_token".toList] = .ok request ∧
      grant.authorize (as_bytes "/s".toList) request = .ok [entry] ∧ Confined grant request [entry] := by
  intro machine entry grant
  have hvalid : ∀ name ∈ [(⟨"codex.oauth.access_token".toList⟩ : SecretName)], name.Valid := by
    intro name hname
    obtain rfl : name = ⟨"codex.oauth.access_token".toList⟩ := by simpa using hname
    exact ⟨by decide, by decide, all_eq_true.1 (by decide)⟩
  have hidentity : file_identity (as_bytes "/s".toList) = .ok "file:/s".toList := by
    simp only [file_identity, from_utf8_as_bytes]
    rfl
  have hauth : grant.authorize (as_bytes "/s".toList) ⟨⟨machine, "run".toList⟩, _, hvalid⟩ = .ok [entry] := by
    simp only [authorize, hidentity]
    rfl
  exact ⟨_, rfl, hauth, authorize_confined _ _ _ _ hauth⟩

end SecretGrant

end Silo.Secrets
