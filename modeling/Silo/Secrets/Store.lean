import Mathlib.Data.Char
import Mathlib.Data.Finmap
import Mathlib.Data.Finset.Sort
import Silo.Secrets.Names
/-!
# The file store

A scope is one JSON file. A transaction reads it under the scope's lock, works on the
records in memory and replaces the file as a whole when it commits or makes a
checkpoint. Records stay JSON values; only a record that is read or written is decoded.

`serde_json` and `chrono` are parameters: `Serde` has what the store calls, and
`Serde.Lawful` how far their output reads back. Without its `float_roundtrip` feature
`serde_json` may read a printed float as a neighbour of it.
-/

namespace Silo.Secrets

open Lib Rust

/-! ## Secrets and their disk form -/

variable {Value DateTime : Type}

structure OAuthSecret (DateTime : Type) where
  provider : Option Str
  (access_token refresh_token : List UInt8)
  expires_at : DateTime
  account_id : Option Str
  (created_at updated_at : Option DateTime)
  deriving DecidableEq

inductive Secret (DateTime : Type) where
  | Plain (value : List UInt8)
  | OAuth (o : OAuthSecret DateTime)
  deriving DecidableEq

inductive SecretKind where
  | Plain
  | OAuth
  deriving DecidableEq

def Secret.kind : Secret DateTime → SecretKind
  | .Plain _ => .Plain
  | .OAuth _ => .OAuth

def Secret.expires_at : Secret DateTime → Option DateTime
  | .Plain _ => none
  | .OAuth o => some o.expires_at

/-- The form with strings in place of bytes. -/
inductive DiskSecret (DateTime : Type) where
  | Plain (value : Str)
  | OAuth (provider : Option Str) (access_token refresh_token : Str) (expires_at : DateTime) (account_id : Option Str)
      (created_at updated_at : Option DateTime)
  deriving DecidableEq

abbrev Records (Value : Type) := Finmap fun _ : Str => Value

/-- What the store calls of `serde_json`; `reread` is the value that a printed value is read as. -/
structure Serde (Value DateTime : Type) where
  from_value : Value → Except SecretError (DiskSecret DateTime)
  to_value : DiskSecret DateTime → Except SecretError Value
  from_slice : List UInt8 → Except SecretError (Records Value)
  to_vec_pretty : Records Value → Except SecretError (List UInt8)
  reread : Value → Value

def is_ascii_whitespace (b : UInt8) : Bool := b = 0x20 || b = 0x09 || b = 0x0A || b = 0x0C || b = 0x0D

/-- `after` is what `before` reads as once it has been printed and read `n` times. -/
def Serde.Rereads (serde : Serde Value DateTime) (n : Nat) (before after : Records Value) : Prop :=
  ∀ name, after.lookup name = (before.lookup name).map serde.reread^[n]

/-- What was serialised reads back up to its floats, with the newline the store adds. A secret has none: its fields are
strings. -/
structure Serde.Lawful (serde : Serde Value DateTime) : Prop where
  value : ∀ disk v, serde.to_value disk = .ok v → serde.from_value v = .ok disk
  exact : ∀ disk v, serde.from_value v = .ok disk → serde.reread v = v
  slice : ∀ records body, serde.to_vec_pretty records = .ok body →
    (∃ read, serde.from_slice (body ++ [0x0A]) = .ok read ∧ serde.Rereads 1 records read) ∧
      body.all is_ascii_whitespace = false

def secret_str (bytes : List UInt8) : Except SecretError Str :=
  orFail (from_utf8 bytes) (.InvalidRequest "file store secrets must be UTF-8".toList)

namespace DiskSecret

def toSecret : DiskSecret DateTime → Secret DateTime
  | .Plain value => .Plain (as_bytes value)
  | .OAuth provider access_token refresh_token expires_at account_id created_at updated_at =>
    .OAuth ⟨provider, as_bytes access_token, as_bytes refresh_token, expires_at, account_id, created_at, updated_at⟩

def ofSecret : Secret DateTime → Except SecretError (DiskSecret DateTime)
  | .Plain value => do pure (.Plain (← secret_str value))
  | .OAuth o => do
    let access_token ← secret_str o.access_token
    let refresh_token ← secret_str o.refresh_token
    pure (.OAuth o.provider access_token refresh_token o.expires_at o.account_id o.created_at o.updated_at)

theorem toSecret_ofSecret {secret : Secret DateTime} {disk : DiskSecret DateTime} (h : ofSecret secret = .ok disk) :
    disk.toSecret = secret := by
  have hstr : ∀ {bytes s}, secret_str bytes = .ok s → as_bytes s = bytes := by
    intro bytes s hs
    simp only [secret_str, orFail_eq_ok] at hs
    exact as_bytes_of_from_utf8 hs
  cases secret with
  | Plain value =>
    simp only [ofSecret, bind_eq_ok, pure_eq_ok] at h
    obtain ⟨s, hs, rfl⟩ := h
    rw [toSecret, hstr hs]
  | OAuth o =>
    simp only [ofSecret, bind_eq_ok, pure_eq_ok] at h
    obtain ⟨access, haccess, refresh, hrefresh, rfl⟩ := h
    rw [toSecret, hstr haccess, hstr hrefresh]

def decode (serde : Serde Value DateTime) (value : Value) : Except SecretError (Secret DateTime) := do
  pure (← serde.from_value value).toSecret

def encode (serde : Serde Value DateTime) (secret : Secret DateTime) : Except SecretError Value := do
  serde.to_value (← ofSecret secret)

theorem decode_encode {serde : Serde Value DateTime} (hserde : serde.Lawful) {secret : Secret DateTime} {value : Value}
    (h : encode serde secret = .ok value) : decode serde value = .ok secret := by
  simp only [encode, bind_eq_ok] at h
  obtain ⟨disk, hdisk, hvalue⟩ := h
  simp only [decode, bind_eq_ok, pure_eq_ok]
  exact ⟨disk, hserde.value disk value hvalue, toSecret_ofSecret hdisk⟩

end DiskSecret

/-! ## Transactions -/

/-- How the file operations of one replacement end. The new file is in place once it has been renamed. -/
inductive WriteFault where
  | none
  | before_rename
  | after_rename
  deriving DecidableEq

inductive Update (DateTime : Type) where
  | put (name : Str) (secret : Secret DateTime)
  | remove (name : Str)
  | replaced
  deriving DecidableEq

/-- `file` is the content at `path`, `faults` how the coming replacements of it end, and `log` is the history of the
transaction. -/
structure ScopeTransaction (Value DateTime : Type) where
  records : Records Value
  dirty : Bool
  file : Option (List UInt8)
  faults : List WriteFault
  log : List (Update DateTime)

structure SecretEntry (DateTime : Type) where
  name : SecretName
  kind : SecretKind
  expires_at : Option DateTime

def read_records (serde : Serde Value DateTime) (file : Option (List UInt8)) : Except SecretError (Records Value) :=
  match file with
  | none => .ok ∅
  | some raw => if raw.all is_ascii_whitespace then .ok ∅ else serde.from_slice raw

def io_error : SecretError := .Internal "I/O error".toList

variable [DecidableEq DateTime]

namespace ScopeTransaction

variable (serde : Serde Value DateTime) (tx : ScopeTransaction Value DateTime)

/-- `write_records`, and what `persist` does after it. -/
def replace_file (body : List UInt8) : Except SecretError Unit × ScopeTransaction Value DateTime :=
  let replaced := { tx with file := some (body ++ [0x0A]), faults := tx.faults.tail, log := tx.log ++ [.replaced] }
  match tx.faults.head?.getD .none with
  | .none => (.ok (), { replaced with dirty := false })
  | .before_rename => (.error io_error, { tx with faults := tx.faults.tail })
  | .after_rename => (.error io_error, replaced)

def persist : Except SecretError Unit × ScopeTransaction Value DateTime :=
  if tx.dirty then
    match serde.to_vec_pretty tx.records with
    | .error e => (.error e, tx)
    | .ok body => tx.replace_file body
  else (.ok (), tx)

def get (name : SecretName) : Except SecretError (Option (Secret DateTime)) :=
  match tx.records.lookup name.as_str with
  | none => .ok none
  | some value => (DiskSecret.decode serde value).map some

def put (name : SecretName) (secret : Secret DateTime) : Except SecretError Unit × ScopeTransaction Value DateTime :=
  match SecretName.new name.as_str with
  | .error e => (.error e, tx)
  | .ok _ =>
    if tx.get serde name = .ok (some secret) then (.ok (), { tx with log := tx.log ++ [.put name.as_str secret] })
    else
      match DiskSecret.encode serde secret with
      | .error e => (.error e, tx)
      | .ok value =>
        (.ok (), { tx with records := tx.records.insert name.as_str value, dirty := true, log := tx.log ++ [.put name.as_str secret] })

def delete (name : SecretName) : Bool × ScopeTransaction Value DateTime :=
  if name.as_str ∈ tx.records then
    (true, { tx with records := tx.records.erase name.as_str, dirty := true, log := tx.log ++ [.remove name.as_str] })
  else (false, tx)

def list : Except SecretError (List (SecretEntry DateTime)) :=
  (tx.records.keys.sort (· ≤ ·)).mapM fun name => do
    let secret ← orFail (tx.records.lookup name) .NotFound >>= DiskSecret.decode serde
    pure ⟨.legacy name, secret.kind, secret.expires_at⟩

end ScopeTransaction

/-- The body of a transaction: any code that works on the transaction only, and on what it returns. -/
inductive Body (DateTime α : Type) where
  | done (result : Except SecretError α)
  | get (name : SecretName) (k : Except SecretError (Option (Secret DateTime)) → Body DateTime α)
  | put (name : SecretName) (secret : Secret DateTime) (k : Except SecretError Unit → Body DateTime α)
  | delete (name : SecretName) (k : Bool → Body DateTime α)
  | list (k : Except SecretError (List (SecretEntry DateTime)) → Body DateTime α)
  | persist (k : Except SecretError Unit → Body DateTime α)

def Body.run (serde : Serde Value DateTime) {α : Type} :
    Body DateTime α → ScopeTransaction Value DateTime → Except SecretError α × ScopeTransaction Value DateTime
  | .done result, tx => (result, tx)
  | .get name k, tx => (k (tx.get serde name)).run serde tx
  | .put name secret k, tx => (k (tx.put serde name secret).1).run serde (tx.put serde name secret).2
  | .delete name k, tx => (k (tx.delete name).1).run serde (tx.delete name).2
  | .list k, tx => (k (tx.list serde)).run serde tx
  | .persist k, tx => (k (tx.persist serde).1).run serde (tx.persist serde).2

end Silo.Secrets
