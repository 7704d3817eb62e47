import Silo.Lib.Checks
import Silo.Rust.Str
/-!
# Secret names and scopes

A `SecretName` is checked when it is made or read from the wire; `legacy` addresses an
existing record without a check. A `MachineScopeId` is always checked.
-/

namespace Silo.Secrets

open Lib Rust

inductive SecretError where
  | NotFound
  | ReadOnly
  | Unauthorized (message : Str)
  | InvalidRequest (message : Str)
  | ProviderUnavailable (message : Str)
  | ProviderRejected (message : Str)
  | RateLimited
  | Unsupported
  | Internal (message : Str)
  deriving DecidableEq, Repr

structure SecretName where
  as_str : Str
  deriving DecidableEq, Repr

namespace SecretName

/-- The characters of a name; every other character has a byte outside this set. -/
def allowed (c : Char) : Bool := is_ascii_alphanumeric c || c = '.' || c = '_' || c = '-'

def new (name : Str) : Except SecretError SecretName := do
  require (name ≠ []) (.InvalidRequest "secret name cannot be empty".toList)
  require (¬ [] ∈ split '.' name) (.InvalidRequest ("secret name `".toList ++ name ++ "` is not allowed".toList))
  require (name.all allowed) (.InvalidRequest ("secret name `".toList ++ name ++
    "` may only contain ASCII letters, numbers, dots, underscores, and dashes".toList))
  pure ⟨name⟩

def legacy (name : Str) : SecretName := ⟨name⟩

structure Valid (name : SecretName) : Prop where
  nonempty : name.as_str ≠ []
  segments : [] ∉ split '.' name.as_str
  characters : ∀ c ∈ name.as_str, allowed c

theorem new_eq_ok {name : Str} {n : SecretName} : new name = .ok n ↔ n.as_str = name ∧ n.Valid := by
  simp only [new, bind_eq_ok, require_eq_ok, pure_eq_ok, List.all_eq_true]
  constructor
  · rintro ⟨_, hne, _, hseg, _, hall, rfl⟩
    exact ⟨rfl, hne, hseg, hall⟩
  · rintro ⟨rfl, h⟩
    exact ⟨(), h.nonempty, (), h.segments, (), h.characters, rfl⟩

/-- The namespace kept for generated secrets. -/
def reserved (name : SecretName) : Bool := starts_with name.as_str "silo.".toList

end SecretName

def valid_machine_id (id : Str) : Bool :=
  len id = 32 && id.all fun c => is_ascii_digit c || ('a' ≤ c && c ≤ 'f')

structure MachineScopeId where
  as_str : Str
  valid : valid_machine_id as_str
  deriving DecidableEq

def MachineScopeId.new (id : Str) : Except SecretError MachineScopeId :=
  if h : valid_machine_id id then .ok ⟨id, h⟩
  else .error (.InvalidRequest "machine scope id must be 32 lowercase hex characters".toList)

inductive SecretScope where
  | Home
  | Machine (id : MachineScopeId)
  deriving DecidableEq

inductive SecretField where
  | Value
  | OAuthAccessToken
  | OAuthExpiresAt
  | OAuthAccountId
  deriving DecidableEq, Repr

end Silo.Secrets
