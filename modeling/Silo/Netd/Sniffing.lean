import Silo.Go.Conn
/-!
# Looking at the first bytes of a connection

The dispatcher tells TLS from plain HTTP by the first byte, and a TLS handler reads the
first record for the server name. Both hand on a connection from which what they read
can be read again. `peekClientHello` keeps nothing of a record header that comes
incomplete, so the guest's stream goes on whole unless it stops inside the header.
-/

namespace Silo.Netd

open Go List

/-- Why there is no server name. -/
inductive PeekError where
  | read (err : ReadError)
  | malformed (text : String)
  | missingSNI

def byteAt (bytes : List UInt8) (pos : Nat) : Nat := (bytes.getD pos 0).toNat

/-- Whether the stream starts with a TLS handshake record, and the connection to go on with. -/
structure Sniffed where
  isTLS : Bool
  replayed : Conn
  err : Option ReadError

def sniffTLSRecord (conn : Conn) : Sniffed :=
  let r := readFull true 1 conn
  let replayed := .replay r.conn r.bytes
  match r.err with
  | some err => ⟨false, replayed, some err⟩
  | none => ⟨byteAt r.bytes 0 = 0x16, replayed, none⟩

/-- The server name, and the connection to go on with. -/
structure Peeked where
  sni : Except PeekError String
  replayed : Conn

/-- `parseClientHelloSNI` only sees the body of the record. -/
def peekClientHello (parseClientHelloSNI : List UInt8 → Except PeekError String) (conn : Conn) : Peeked :=
  let header := readFull true 5 conn
  match header.err with
  | some err => ⟨.error (.read err), .replay header.conn []⟩
  | none =>
    let read := header.bytes
    if byteAt read 0 ≠ 0x16 then ⟨.error (.malformed "not a tls handshake record"), .replay header.conn read⟩
    else
      let length := byteAt read 3 * 256 + byteAt read 4
      if length = 0 ∨ length > 65535 then
        ⟨.error (.malformed ("invalid tls record length " ++ toString length)), .replay header.conn read⟩
      else
        let body := readFull true length header.conn
        let replayed := .replay body.conn (read ++ body.bytes)
        match body.err with
        | some err => ⟨.error (.read err), replayed⟩
        | none => ⟨parseClientHelloSNI body.bytes, replayed⟩

/-! ## What is read again -/

theorem sniffTLSRecord_replayed (conn : Conn) :
    (sniffTLSRecord conn).replayed = .replay (readFull true 1 conn).conn (readFull true 1 conn).bytes := by
  rw [sniffTLSRecord]
  split <;> rfl

/-- The first look takes nothing away from what the second can read at once, unless nothing came. -/
theorem sniffTLSRecord_ready (conn : Conn) : (sniffTLSRecord conn).replayed.ready true =
    if conn.ready true = [] then conn.silenced.ready true else conn.ready true := by
  have hread := readFull_fills true 1 conn
  rw [sniffTLSRecord_replayed, Conn.ready, hread.taken]
  split
  · next hnone =>
    have herr : (readFull true 1 conn).err ≠ none := fun he => by simpa [hnone] using hread.full.1 he
    rw [hnone, hread.silent rfl herr]
    rfl
  · next hsome =>
    rw [hread.ready (hread.full.2 (length_pos_of_ne_nil hsome)), take_append_drop]

variable {parse : List UInt8 → Except PeekError String}

/-- The second look loses what it read exactly when that is a part of a header. -/
theorem peekClientHello_ready_iff (conn : Conn) :
    (peekClientHello parse conn).replayed.ready false = conn.ready false ↔
      conn.ready true = [] ∨ 5 ≤ (conn.ready true).length := by
  have hheader := readFull_fills true 5 conn
  rw [peekClientHello]
  generalize readFull true 5 conn = header at *
  cases herr : header.err with
  | some err =>
    have hshort : ¬ 5 ≤ (conn.ready true).length := fun hle => by simp [hheader.full.2 hle] at herr
    have htaken : header.bytes = conn.ready true := by rw [hheader.taken, take_of_length_le (by omega)]
    rw [Conn.ready, nil_append, ← hheader.all, htaken, self_eq_append_left]
    simp [hshort]
  | none =>
    have hbody (length : Nat) : (Conn.replay (readFull true length header.conn).conn
        (header.bytes ++ (readFull true length header.conn).bytes)).ready false = conn.ready false := by
      rw [Conn.ready, append_assoc, (readFull_fills _ _ _).all, hheader.all]
    simp only [hheader.full.1 herr, or_true, iff_true]
    split
    · exact hheader.all
    · split
      · exact hheader.all
      · split <;> exact hbody _

/-- What the second look can read before the guest falls silent: the first stretch of bytes, or the one after a silence
that the first look waited out. -/
def seenByPeek (guest : List Arrival) : List UInt8 :=
  if arriving true guest = [] then arriving true (afterSilence guest) else arriving true guest

/-- Nothing of a record header comes, or all five bytes of it. -/
def HeaderWhole (guest : List Arrival) : Prop := seenByPeek guest = [] ∨ 5 ≤ (seenByPeek guest).length

/-- Whoever reads on after both looks gets the guest's stream, whatever they report, exactly when no record header
breaks off. -/
theorem sniffing_transparent_iff (parse : List UInt8 → Except PeekError String) (guest : List Arrival)
    (ending : ReadError) :
    ReadsBack (peekClientHello parse (sniffTLSRecord (.socket guest ending)).replayed).replayed (arriving false guest) ↔
      HeaderWhole guest := by
  have hsniffed : (sniffTLSRecord (.socket guest ending)).replayed.ready false = arriving false guest := by
    rw [sniffTLSRecord_replayed]
    exact (readFull_fills _ _ _).all
  have hready : (sniffTLSRecord (.socket guest ending)).replayed.ready true = seenByPeek guest := sniffTLSRecord_ready _
  rw [readsBack_iff, ← hsniffed, peekClientHello_ready_iff, hready]
  rfl

/-- A guest that sends the first two bytes of a record and waits for longer than the deadline. -/
def brokenHeader : List Arrival := [.data [0x16, 0x03], .silence, .data [0x01, 0x00]]

theorem broken_header_lost : ¬ ReadsBack (peekClientHello (fun _ => .error .missingSNI)
    (sniffTLSRecord (.socket brokenHeader .eof)).replayed).replayed (arriving false brokenHeader) := by
  rw [readsBack_iff]
  decide

end Silo.Netd
