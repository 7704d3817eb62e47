import Silo.Secrets.Store
/-!
# Transactions settle

What a sequence of transactions leaves of a scope: every name reads as its last update
says, and every record without an update keeps its JSON value, up to the floats in it,
which are read anew with each replacement of the file. A transaction counts as as it got: all of it when it commits, and up to its last replacement of the file when it
returns an error.
-/

namespace Silo.Secrets

open List Lib Rust

variable {Value DateTime : Type}

/-! ## Histories -/

def Update.target : Update DateTime → Option Str
  | .put name _ => some name
  | .remove name => some name
  | .replaced => none

def lastUpdate (name : Str) (log : List (Update DateTime)) : Option (Update DateTime) :=
  log.reverse.find? fun u => u.target = some name

/-- The history up to the last replacement of the file. -/
def settled [DecidableEq DateTime] (log : List (Update DateTime)) : List (Update DateTime) :=
  (log.reverse.dropWhile (· ≠ .replaced)).reverse

theorem lastUpdate_append (name : Str) (l l' : List (Update DateTime)) :
    lastUpdate name (l ++ l') = (lastUpdate name l').or (lastUpdate name l) := by
  simp [lastUpdate, reverse_append, find?_append]

theorem lastUpdate_concat (name : Str) (log : List (Update DateTime)) (u : Update DateTime) :
    lastUpdate name (log ++ [u]) = if u.target = some name then some u else lastUpdate name log := by
  rw [lastUpdate_append]
  by_cases h : u.target = some name <;> simp [lastUpdate, h]

theorem settled_replaced [DecidableEq DateTime] (log : List (Update DateTime)) :
    settled (log ++ [.replaced]) = log ++ [.replaced] := by
  simp [settled]

variable {u : Update DateTime} {α : Type} {file : Option (List UInt8)}

theorem settled_concat [DecidableEq DateTime] (log : List (Update DateTime)) (h : u ≠ .replaced) :
    settled (log ++ [u]) = settled log := by
  simp [settled, h]

/-! ## What a history makes of the records -/

/-- What the last update of a name says about its record; without one it is the old record, printed and read some number
of times. -/
def Agrees (serde : Serde Value DateTime) (before after : Records Value) (name : Str) : Option (Update DateTime) → Prop
  | some (.put _ secret) => ∃ value, after.lookup name = some value ∧ DiskSecret.decode serde value = .ok secret
  | some (.remove _) => after.lookup name = none
  | _ => ∃ n, after.lookup name = (before.lookup name).map serde.reread^[n]

/-- `after` is `before` with the updates of the history. -/
def Settles (serde : Serde Value DateTime) (before after : Records Value) (log : List (Update DateTime)) : Prop :=
  ∀ name, Agrees serde before after name (lastUpdate name log)

variable {serde : Serde Value DateTime} {before after last : Records Value} {log log' : List (Update DateTime)}

theorem Settles.refl (records : Records Value) : Settles serde records records [] := fun _ => ⟨0, by simp⟩

theorem Agrees.congr {name : Str} {update : Option (Update DateTime)} (h : Agrees serde before after name update)
    (hsame : last.lookup name = after.lookup name) : Agrees serde before last name update := by
  unfold Agrees at h ⊢
  rw [hsame]
  exact h

theorem reread_of_decode (hserde : serde.Lawful) {value : Value} {secret : Secret DateTime}
    (h : DiskSecret.decode serde value = .ok secret) (n : Nat) : serde.reread^[n] value = value := by
  simp only [DiskSecret.decode, bind_eq_ok] at h
  obtain ⟨disk, hdisk, -⟩ := h
  exact Function.iterate_fixed (hserde.exact disk value hdisk) n

theorem Agrees.reread (hserde : serde.Lawful) {name : Str} {update : Option (Update DateTime)}
    (h : Agrees serde before after name update) {n : Nat}
    (hread : last.lookup name = (after.lookup name).map serde.reread^[n]) : Agrees serde before last name update := by
  have hold : (∃ k, after.lookup name = (before.lookup name).map serde.reread^[k]) →
      ∃ k, last.lookup name = (before.lookup name).map serde.reread^[k] := by
    rintro ⟨k, hk⟩
    exact ⟨n + k, by rw [hread, hk, Option.map_map, Function.iterate_add]⟩
  match update, h with
  | none, h => exact hold h
  | some .replaced, h => exact hold h
  | some (.remove _), h =>
    have h : after.lookup name = none := h
    exact hread.trans (by rw [h]; rfl)
  | some (.put _ secret), ⟨value, hvalue, hdecode⟩ =>
    refine ⟨value, ?_, hdecode⟩
    rw [hread, hvalue, Option.map_some, reread_of_decode hserde hdecode]

section
variable (h : Settles serde before after log)
include h

theorem Settles.reread (hserde : serde.Lawful) {n : Nat} (hread : serde.Rereads n after last) :
    Settles serde before last log := fun name => (h name).reread hserde (hread name)

theorem Settles.trans (hserde : serde.Lawful) (h' : Settles serde after last log') :
    Settles serde before last (log ++ log') := by
  intro name
  have hname := h' name
  rw [lastUpdate_append]
  -- the later history decides unless it says nothing about the name
  cases hu : lastUpdate name log' with
  | none =>
    rw [hu] at hname
    obtain ⟨n, hn⟩ := hname
    exact (h name).reread hserde hn
  | some u =>
    rw [hu] at hname
    cases u with
    | put | remove => exact hname
    | replaced =>
      have hfound := find?_some hu
      simp [Update.target] at hfound

theorem Settles.concat {name : Str} (hu : u.target = some name)
    (hname : Agrees serde before last name (some u)) (hother : ∀ n, n ≠ name → last.lookup n = after.lookup n) :
    Settles serde before last (log ++ [u]) := by
  intro n
  rw [lastUpdate_concat, hu]
  by_cases hn : n = name
  · subst hn
    simpa using hname
  · rw [if_neg (by simpa using Ne.symm hn)]
    exact (h n).congr (hother n hn)

theorem Settles.concat_replaced : Settles serde before after (log ++ [.replaced]) := by
  intro n
  rw [lastUpdate_concat]
  exact h n

end

/-! ## One transaction -/

variable {tx tx' : ScopeTransaction Value DateTime}

theorem get_eq_some {name : SecretName} {secret : Secret DateTime} : tx.get serde name = .ok (some secret) ↔
    ∃ value, tx.records.lookup name.as_str = some value ∧ DiskSecret.decode serde value = .ok secret := by
  unfold ScopeTransaction.get
  cases tx.records.lookup name.as_str with
  | none => simp
  | some value => cases hdecode : DiskSecret.decode serde value <;> simp [Except.map, hdecode]

theorem read_written (hserde : serde.Lawful) {records : Records Value} {body : List UInt8}
    (h : serde.to_vec_pretty records = .ok body) :
    ∃ read, read_records serde (some (body ++ [0x0A])) = .ok read ∧ serde.Rereads 1 records read := by
  obtain ⟨⟨read, hslice, hread⟩, hblank⟩ := hserde.slice records body h
  have hall : (body ++ [0x0A]).all is_ascii_whitespace = false := by rw [all_append, hblank, Bool.false_and]
  refine ⟨read, ?_, hread⟩
  rw [read_records, hall]
  exact hslice

variable [DecidableEq DateTime]

/-- While a transaction runs on records that were `before`: the records in memory follow its whole history, those in the
file follow it up to the last replacement. -/
structure TxInv (serde : Serde Value DateTime) (before : Records Value) (tx : ScopeTransaction Value DateTime) : Prop where
  memory : Settles serde before tx.records tx.log
  stored : ∃ stored, read_records serde tx.file = .ok stored ∧ Settles serde before stored (settled tx.log) ∧
    (tx.dirty = false → ∃ n, serde.Rereads n tx.records stored)

theorem TxInv.replace_file (hserde : serde.Lawful) (h : TxInv serde before tx) {body : List UInt8}
    (hbody : serde.to_vec_pretty tx.records = .ok body) : TxInv serde before (tx.replace_file body).2 := by
  obtain ⟨read, hfile, hread⟩ := read_written hserde hbody
  have hsettled : Settles serde before tx.records (tx.log ++ [.replaced]) := h.memory.concat_replaced
  unfold ScopeTransaction.replace_file
  cases tx.faults.head?.getD .none with
  | before_rename => exact ⟨h.memory, h.stored⟩
  | none | after_rename =>
    exact ⟨hsettled, read, hfile, by rw [settled_replaced]; exact hsettled.reread hserde hread, fun _ => ⟨1, hread⟩⟩

theorem TxInv.persist (hserde : serde.Lawful) (h : TxInv serde before tx) : TxInv serde before (tx.persist serde).2 := by
  unfold ScopeTransaction.persist
  split
  · split
    · exact h
    · exact h.replace_file hserde ‹_›
  · exact h

theorem TxInv.update (h : TxInv serde before tx) (hu : u ≠ .replaced) (hfile : tx'.file = tx.file)
    (hlog : tx'.log = tx.log ++ [u]) (hmemory : Settles serde before tx'.records (tx.log ++ [u]))
    (hdirty : tx'.dirty = false → tx.dirty = false ∧ tx'.records = tx.records) : TxInv serde before tx' := by
  obtain ⟨stored, hread, hsettled, hclean⟩ := h.stored
  refine ⟨by rw [hlog]; exact hmemory, stored, by rw [hfile]; exact hread, ?_, fun hd => ?_⟩
  · rw [hlog, settled_concat _ hu]
    exact hsettled
  · obtain ⟨hd, hrecords⟩ := hdirty hd
    rw [hrecords]
    exact hclean hd

theorem TxInv.put (hserde : serde.Lawful) (h : TxInv serde before tx) (name : SecretName) (secret : Secret DateTime) :
    TxInv serde before (tx.put serde name secret).2 := by
  unfold ScopeTransaction.put
  split
  · exact h
  · split
    · next hsame =>
      -- the record already says what is put
      refine h.update (u := .put name.as_str secret) (by simp) rfl rfl ?_ (fun hd => ⟨hd, rfl⟩)
      refine h.memory.concat rfl ?_ fun _ _ => rfl
      exact get_eq_some.1 hsame
    · split
      · exact h
      · next value hencode =>
        refine h.update (u := .put name.as_str secret) (by simp) rfl rfl ?_ nofun
        refine h.memory.concat rfl ⟨value, Finmap.lookup_insert _, DiskSecret.decode_encode hserde hencode⟩ ?_
        intro n hn
        exact Finmap.lookup_insert_of_ne _ hn

theorem TxInv.delete (h : TxInv serde before tx) (name : SecretName) : TxInv serde before (tx.delete name).2 := by
  unfold ScopeTransaction.delete
  split
  · refine h.update (u := .remove name.as_str) (by simp) rfl rfl ?_ nofun
    refine h.memory.concat rfl (Finmap.lookup_erase _ _) ?_
    intro n hn
    exact Finmap.lookup_erase_ne hn
  · exact h

theorem TxInv.run (hserde : serde.Lawful) (operation : Body DateTime α) (h : TxInv serde before tx) :
    TxInv serde before (operation.run serde tx).2 := by
  induction operation generalizing tx with
  | done result => exact h
  | get name k ih => exact ih _ h
  | put name secret k ih => exact ih _ (h.put hserde name secret)
  | delete name k ih => exact ih _ (h.delete name)
  | list k ih => exact ih _ h
  | persist k ih => exact ih _ (h.persist hserde)

end Silo.Secrets
