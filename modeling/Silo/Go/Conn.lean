import Mathlib.Data.List.Basic
/-!
# Reading from a connection

A `net.Conn` as its reader sees it: what the peer sends, in the pieces it arrives in, the
silences that outlast a read deadline, and how the stream ends. A read without a deadline
waits until something comes. A connection may be wrapped with bytes that are read first.
-/

open List

namespace Silo.Go

inductive Arrival where
  | data (bytes : List UInt8)
  /-- Nothing comes for longer than a deadline. -/
  | silence

inductive ReadError where
  | eof
  | unexpectedEOF
  | deadlineExceeded
  | reset
  deriving DecidableEq

inductive Conn where
  | socket (arrivals : List Arrival) (ending : ReadError)
  /-- `replayConn`: the bytes of `reader` come before those of `inner`. -/
  | replay (inner : Conn) (reader : List UInt8)

/-- What a read returns, and the connection it leaves. -/
structure ReadResult where
  bytes : List UInt8
  err : Option ReadError
  conn : Conn

/-! ## Reads -/

/-- A read of at most `n` bytes from a socket. -/
def readSocket (deadline : Bool) (n : Nat) (ending : ReadError) : List Arrival → ReadResult
  | [] => ⟨[], some ending, .socket [] ending⟩
  | .data [] :: rest => readSocket deadline n ending rest
  | .data (b :: bs) :: rest => ⟨(b :: bs).take n, none, .socket (.data ((b :: bs).drop n) :: rest) ending⟩
  | .silence :: rest =>
    if deadline then ⟨[], some .deadlineExceeded, .socket rest ending⟩ else readSocket deadline n ending rest

/-- `Read` into a buffer of `n` bytes. -/
def Conn.read (deadline : Bool) (n : Nat) : Conn → ReadResult
  | .socket arrivals ending => readSocket deadline n ending arrivals
  | .replay inner reader =>
    if reader.length > 0 then ⟨reader.take n, none, .replay inner (reader.drop n)⟩
    else
      let r := inner.read deadline n
      ⟨r.bytes, r.err, .replay r.conn []⟩

/-- The loop of `io.ReadAtLeast`, with `left` bytes to go. A read without an error returns a byte at least, so `left`
rounds are enough. -/
def readAtLeast (deadline : Bool) : Nat → Nat → Conn → ReadResult
  | _, 0, conn => ⟨[], none, conn⟩
  | 0, _ + 1, conn => ⟨[], none, conn⟩
  | rounds + 1, left + 1, conn =>
    let r := conn.read deadline (left + 1)
    match r.err with
    | some e => ⟨r.bytes, some e, r.conn⟩
    | none =>
      let more := readAtLeast deadline rounds (left + 1 - r.bytes.length) r.conn
      ⟨r.bytes ++ more.bytes, more.err, more.conn⟩

/-- `io.ReadFull` into a buffer of `n` bytes, under a deadline or without one. -/
def readFull (deadline : Bool) (n : Nat) (conn : Conn) : ReadResult :=
  let r := readAtLeast deadline n n conn
  if r.bytes.length ≥ n then { r with err := none }
  else if r.bytes.length > 0 ∧ r.err = some .eof then { r with err := some .unexpectedEOF }
  else r

/-! ## What a connection holds -/

/-- What is sent, up to the first silence if there is a deadline. -/
def arriving (deadline : Bool) : List Arrival → List UInt8
  | [] => []
  | .data bytes :: rest => bytes ++ arriving deadline rest
  | .silence :: rest => if deadline then [] else arriving deadline rest

/-- What happens after the first silence. -/
def afterSilence : List Arrival → List Arrival
  | [] => []
  | .data _ :: rest => afterSilence rest
  | .silence :: rest => rest

namespace Conn

/-- The bytes that can be read, up to the next silence if there is a deadline. -/
def ready (deadline : Bool) : Conn → List UInt8
  | .socket arrivals _ => arriving deadline arrivals
  | .replay inner reader => reader ++ inner.ready deadline

/-- The connection after its next silence, with what came before it left out. -/
def silenced : Conn → Conn
  | .socket arrivals ending => .socket (afterSilence arrivals) ending
  | .replay inner _ => .replay inner.silenced []

end Conn

variable {deadline : Bool} {n : Nat} {conn : Conn} {bytes : List UInt8}

/-- One read takes from the front of what there is, and an error says that nothing was there to take. -/
structure Takes (deadline : Bool) (n : Nat) (conn : Conn) (r : ReadResult) : Prop where
  all : r.bytes ++ r.conn.ready false = conn.ready false
  some_read : r.err = none → 0 < r.bytes.length ∧ r.bytes.length ≤ n ∧ r.bytes ++ r.conn.ready deadline = conn.ready deadline
  none_read : r.err ≠ none → r.bytes = [] ∧ conn.ready deadline = []
  silenced : deadline → (if r.err = none then r.conn.silenced else r.conn) = conn.silenced

theorem takes_front {conn' : Conn} {front : List UInt8} (hn : 0 < n) (hfront : 0 < front.length)
    (hready : ∀ deadline, ∃ more, conn.ready deadline = front ++ more ∧ conn'.ready deadline = front.drop n ++ more)
    (hsilenced : conn'.silenced = conn.silenced) : Takes deadline n conn ⟨front.take n, none, conn'⟩ := by
  have hsplit (deadline : Bool) : front.take n ++ conn'.ready deadline = conn.ready deadline := by
    obtain ⟨more, h, h'⟩ := hready deadline
    rw [h, h', ← append_assoc, take_append_drop]
  refine ⟨hsplit false, fun _ => ⟨?_, length_take_le _ _, hsplit deadline⟩, fun h => absurd rfl h, fun _ => hsilenced⟩
  rw [length_take]
  omega

theorem readSocket_takes (hn : 0 < n) (ending : ReadError) (arrivals : List Arrival) :
    Takes deadline n (.socket arrivals ending) (readSocket deadline n ending arrivals) := by
  induction arrivals with
  | nil => exact ⟨rfl, nofun, fun _ => ⟨rfl, rfl⟩, fun _ => rfl⟩
  | cons arrival rest ih =>
    match arrival with
    | .data [] => exact ⟨ih.all, ih.some_read, ih.none_read, ih.silenced⟩
    | .data (b :: bs) => exact takes_front hn (Nat.succ_pos _) (fun d => ⟨arriving d rest, rfl, rfl⟩) rfl
    | .silence =>
      cases deadline with
      | true => exact ⟨rfl, nofun, fun _ => ⟨rfl, rfl⟩, fun _ => rfl⟩
      | false => exact ⟨ih.all, ih.some_read, ih.none_read, nofun⟩

theorem read_takes (deadline : Bool) (hn : 0 < n) (conn : Conn) : Takes deadline n conn (conn.read deadline n) := by
  induction conn with
  | socket arrivals ending => exact readSocket_takes hn ending arrivals
  | replay inner reader ih =>
    rw [Conn.read]
    split
    · next hpos => exact takes_front hn hpos (fun d => ⟨inner.ready d, rfl, rfl⟩) rfl
    · next hempty =>
      obtain rfl : reader = [] := eq_nil_of_length_eq_zero (by omega)
      refine ⟨ih.all, ih.some_read, ih.none_read, fun hd => ?_⟩
      have hsilenced := ih.silenced hd
      simp only [Conn.silenced, ← hsilenced]
      split <;> rfl

/-- A filled buffer: what was ready, as far as it goes. -/
structure Fills (deadline : Bool) (n : Nat) (conn : Conn) (r : ReadResult) : Prop where
  all : r.bytes ++ r.conn.ready false = conn.ready false
  taken : r.bytes = (conn.ready deadline).take n
  full : r.err = none ↔ n ≤ (conn.ready deadline).length
  ready : r.err = none → r.conn.ready deadline = (conn.ready deadline).drop n
  silent : deadline → r.err ≠ none → r.conn = conn.silenced

theorem fills_nothing : Fills deadline 0 conn ⟨[], none, conn⟩ :=
  ⟨rfl, rfl, by simp, fun _ => rfl, fun _ he => absurd rfl he⟩

theorem readAtLeast_fills (deadline : Bool) {rounds left : Nat} (h : left ≤ rounds) (conn : Conn) :
    Fills deadline left conn (readAtLeast deadline rounds left conn) := by
  induction rounds generalizing left conn with
  | zero =>
    obtain rfl : left = 0 := by omega
    exact fills_nothing
  | succ rounds ih =>
    match left, h with
    | 0, _ => exact fills_nothing
    | left + 1, h =>
      have htakes := read_takes deadline (Nat.succ_pos left) conn
      have hmore := @ih (left + 1 - (conn.read deadline (left + 1)).bytes.length)
      rw [readAtLeast]
      generalize conn.read deadline (left + 1) = r at *
      obtain ⟨bytes, err, rest⟩ := r
      cases err with
      | some e =>
        obtain ⟨hnone, hready⟩ := htakes.none_read nofun
        refine ⟨htakes.all, ?_, ?_, nofun, fun hd _ => htakes.silenced hd⟩
        · rw [hready, hnone]
          rfl
        · simp [hready]
      | none =>
        obtain ⟨hpos, hle, hready⟩ := htakes.some_read rfl
        have hmore := hmore (by omega) rest
        simp only at hmore hpos hle hready ⊢
        generalize readAtLeast deadline rounds (left + 1 - bytes.length) rest = more at *
        have hlen : (conn.ready deadline).length = bytes.length + (rest.ready deadline).length := by
          rw [← hready, length_append]
        refine ⟨?_, ?_, ?_, fun he => ?_, fun hd he => ?_⟩
        · rw [append_assoc, hmore.all]
          exact htakes.all
        · rw [hmore.taken, ← hready, take_append, take_of_length_le hle]
        · rw [hmore.full, hlen]
          omega
        · rw [hmore.ready he, ← hready, drop_append, drop_eq_nil_of_le hle, nil_append]
        · rw [hmore.silent hd he]
          exact htakes.silenced hd

theorem readFull_fills (deadline : Bool) (n : Nat) (conn : Conn) : Fills deadline n conn (readFull deadline n conn) := by
  have h := readAtLeast_fills deadline (Nat.le_refl n) conn
  rw [readFull]
  generalize readAtLeast deadline n n conn = r at *
  have hlen : r.bytes.length = min n (conn.ready deadline).length := by rw [h.taken, length_take]
  split
  · next hfull =>
    have hle : n ≤ (conn.ready deadline).length := by omega
    exact ⟨h.all, h.taken, by simp [hle], fun _ => h.ready (h.full.2 hle), fun _ he => absurd rfl he⟩
  · next hshort =>
    have herr : r.err ≠ none := fun he => by
      have := h.full.1 he
      omega
    split
    · exact ⟨h.all, h.taken, by simp; omega, nofun, fun hd _ => h.silent hd herr⟩
    · exact h

/-- Whoever reads on, without a deadline, gets these bytes: the first `n` of them, for any `n`. -/
def ReadsBack (conn : Conn) (bytes : List UInt8) : Prop := ∀ n, (readFull false n conn).bytes = bytes.take n

theorem readsBack_iff : ReadsBack conn bytes ↔ conn.ready false = bytes := by
  unfold ReadsBack
  constructor
  · intro h
    have hall := h ((conn.ready false).length + bytes.length)
    rw [(readFull_fills _ _ _).taken, take_of_length_le (by omega), take_of_length_le (by omega)] at hall
    exact hall
  · rintro rfl n
    exact (readFull_fills _ _ _).taken

end Silo.Go
