import Mathlib.Data.List.Basic
import Silo.Lib.Run
/-!
# The publication relay

The two pumps of a `Connection`. A round is what one `poll` reports and what the calls
on the sockets that follow it return.
-/

namespace Silo.Portd

open List
open Lib (Run)
open Lib.Run (Spec)

def BUFFER_SIZE : Nat := 16 * 1024

/-- `error` is `POLLERR` or `POLLNVAL`. -/
structure PollFlags where
  pollin : Bool := false
  pollout : Bool := false
  pollhup : Bool := false
  error : Bool := false

/-- What a call on a socket returns; `again` is `WouldBlock` or `Interrupted`. -/
inductive Io (α : Type) where
  | ok (value : α)
  | again
  | failed

/-- What the calls of one `Pump::step` return. -/
structure Calls where
  read : Io (List UInt8)
  write : Io Nat
  shutdown : Bool

/-- `buffer` is the buffer up to `end`. The last three are history: the bytes read and written, and how often the sink
was shut down. -/
structure Pump where
  buffer : List UInt8 := []
  start : Nat := 0
  eof : Bool := false
  finished : Bool := false
  received : List UInt8 := []
  sent : List UInt8 := []
  shutdowns : Nat := 0

namespace Pump

def read_interest (p : Pump) : Bool := !p.eof && p.buffer.length < BUFFER_SIZE

def write_interest (p : Pump) : Bool := p.start < p.buffer.length

/-- A read gives no more than there is room for. -/
def fill (calls : Calls) (read : PollFlags) : Run Unit Pump Unit := fun p =>
  if p.read_interest ∧ (read.pollin || read.pollhup) then
    match calls.read with
    | .ok bytes =>
      let bytes := bytes.take (BUFFER_SIZE - p.buffer.length)
      (.ok (), { p with buffer := p.buffer ++ bytes, eof := bytes.isEmpty, received := p.received ++ bytes })
    | .again => (.ok (), p)
    | .failed => (.error (), p)
  else (.ok (), p)

/-- A write takes no more than it is given. -/
def drain (calls : Calls) (write : PollFlags) : Run Unit Pump Unit := fun p =>
  if p.write_interest ∧ (write.pollout || write.pollhup) then
    match calls.write with
    | .ok 0 => (.error (), p)
    | .ok count =>
      let bytes := (p.buffer.drop p.start).take count
      (.ok (), { p with start := p.start + bytes.length, sent := p.sent ++ bytes })
    | .again => (.ok (), p)
    | .failed => (.error (), p)
  else (.ok (), p)

def settle (calls : Calls) : Run Unit Pump Unit := fun p =>
  if p.start ≠ p.buffer.length then (.ok (), p)
  else if p.eof = false ∨ p.finished then (.ok (), { p with buffer := [], start := 0 })
  else
    (if calls.shutdown then .ok () else .error (),
      { p with buffer := [], start := 0, shutdowns := p.shutdowns + 1, finished := calls.shutdown })

def step (calls : Calls) (read write : PollFlags) : Run Unit Pump Unit := do
  fill calls read
  drain calls write
  settle calls

end Pump

structure Connection where
  connecting : Bool
  to_target : Pump := {}
  to_client : Pump := {}

/-- `timed_out` and `take_error` are read while connecting. -/
structure Round where
  (client target : PollFlags)
  (timed_out take_error : Bool)
  (to_target to_client : Calls)

namespace Connection

def client_interest (c : Connection) : PollFlags :=
  if c.connecting then {} else { pollin := c.to_target.read_interest, pollout := c.to_client.write_interest }

def target_interest (c : Connection) : PollFlags :=
  if c.connecting then { pollout := true }
  else { pollin := c.to_client.read_interest, pollout := c.to_target.write_interest }

/-- `false` and an error drop the connection. -/
def step (r : Round) : Run Unit Connection Bool := fun c =>
  if r.client.error || r.target.error then (.ok false, c)
  else if c.connecting && r.timed_out then (.ok false, c)
  else if c.connecting && !(r.target.pollout || r.target.pollhup) then (.ok true, c)
  else if c.connecting && r.take_error then (.ok false, c)
  else
    match Pump.step r.to_target r.client r.target c.to_target with
    | (.error e, p) => (.error e, { c with connecting := false, to_target := p })
    | (.ok _, p) =>
      match Pump.step r.to_client r.target r.client c.to_client with
      | (.error e, q) => (.error e, ⟨false, p, q⟩)
      | (.ok _, q) => (.ok !(p.finished && q.finished), ⟨false, p, q⟩)

/-- The rounds until the connection is dropped. -/
def run : List Round → Run Unit Connection Bool
  | [] => pure true
  | r :: rounds => do if ← step r then run rounds else return false

end Connection

/-! ## What a pump keeps -/

namespace Pump

/-- What holds at every moment, also after a call that failed: the bytes written and those in the buffer are the bytes
read, and the sink was shut down at most once, after the end of file and the last byte. -/
structure Faithful (p : Pump) : Prop where
  carried : p.sent ++ p.buffer.drop p.start = p.received
  once : p.shutdowns ≤ 1
  closed : p.shutdowns = 1 → p.eof ∧ p.sent = p.received

/-- What holds where the next call is made. -/
structure Live (p : Pump) : Prop extends p.Faithful where
  start_le : p.start ≤ p.buffer.length
  finished : p.shutdowns = if p.finished then 1 else 0

/-- What holds between two steps. -/
structure Waits (p : Pump) : Prop extends p.Live where
  interest : p.finished = false → p.read_interest ∨ p.write_interest

variable {calls : Calls} {read write : PollFlags}

theorem fill_spec : Spec Live (fill calls read) (fun _ => Live) (fun _ => Faithful) := by
  intro p h
  unfold fill
  split_ifs with hread
  · cases calls.read with
    | ok bytes =>
      -- no read follows the shutdown, for the end of file came before it
      have hopen : p.shutdowns ≠ 1 := by
        intro hone
        simp [read_interest, (h.closed hone).1] at hread
      refine { h with carried := ?_, closed := fun hone => absurd hone hopen, start_le := ?_ }
      · rw [drop_append_of_le_length h.start_le, ← append_assoc, h.carried]
      · exact Nat.le_trans h.start_le (by simp)
    | again => exact h
    | failed => exact h.toFaithful
  · exact h

theorem drain_spec : Spec Live (drain calls write) (fun _ => Live) (fun _ => Faithful) := by
  intro p h
  unfold drain
  split_ifs with hwrite
  · rcases calls.write with (_ | count) | _ | _
    · exact h.toFaithful
    · -- no write follows it either, for the buffer is empty
      have hopen : p.shutdowns ≠ 1 := by
        intro hone
        have hnil : p.buffer.drop p.start = [] := by simpa [(h.closed hone).2] using h.carried
        exact Nat.not_le_of_lt (of_decide_eq_true hwrite.1) (drop_eq_nil_iff.1 hnil)
      have hpre := take_prefix (count + 1) (p.buffer.drop p.start)
      have hle := hpre.length_le
      rw [length_drop] at hle
      refine { h with carried := ?_, closed := fun hone => absurd hone hopen, start_le := ?_ }
      · rw [← drop_drop, append_assoc, prefix_iff_eq_append.1 hpre, h.carried]
      · exact Nat.add_le_of_le_sub' h.start_le hle
    · exact h
    · exact h.toFaithful
  · exact h

theorem settle_spec : Spec Live (settle calls) (fun _ => Waits) (fun _ => Faithful) := by
  intro p h
  unfold settle
  split_ifs with hsome hquiet hok
  · exact ⟨h, fun _ => .inr (decide_eq_true (Nat.lt_of_le_of_ne h.start_le hsome))⟩
  all_goals have hsent : p.sent ++ [] = p.received := by simpa [not_not.1 hsome] using h.carried
  · refine ⟨{ h with carried := hsent, start_le := Nat.le_refl _ }, fun hf => .inl ?_⟩
    simpa [read_interest, BUFFER_SIZE] using hquiet.resolve_right (by simp_all)
  all_goals
    rw [not_or, Bool.not_eq_false, Bool.not_eq_true] at hquiet
    have hzero : p.shutdowns = 0 := by simpa [hquiet.2] using h.finished
    have hclosed : p.eof ∧ p.sent = p.received := ⟨hquiet.1, by simpa using hsent⟩
  · exact ⟨⟨⟨hsent, by simp [hzero], fun _ => hclosed⟩, Nat.le_refl _, by simp [hzero, hok]⟩, by simp [hok]⟩
  · exact ⟨hsent, by simp [hzero], fun _ => hclosed⟩

theorem step_spec : Spec Live (step calls read write) (fun _ => Waits) (fun _ => Faithful) :=
  fill_spec.bind fun _ => drain_spec.bind fun _ => settle_spec

end Pump

namespace Connection

def Faithful (c : Connection) : Prop := c.to_target.Faithful ∧ c.to_client.Faithful

def Waits (c : Connection) : Prop := c.to_target.Waits ∧ c.to_client.Waits

theorem Waits.faithful {c : Connection} (h : c.Waits) : c.Faithful := ⟨h.1.toFaithful, h.2.toFaithful⟩

theorem step_spec (r : Round) :
    Spec Waits (step r) (fun kept c => c.Faithful ∧ (kept → c.Waits)) (fun _ => Faithful) := by
  intro c h
  unfold step
  split_ifs
  · exact ⟨h.faithful, nofun⟩
  · exact ⟨h.faithful, nofun⟩
  · exact ⟨h.faithful, fun _ => h⟩
  · exact ⟨h.faithful, nofun⟩
  · rcases hp : Pump.step r.to_target r.client r.target c.to_target with ⟨e | u, p⟩
    · exact ⟨Pump.step_spec.error h.1.toLive hp, h.2.toFaithful⟩
    · have hp := Pump.step_spec.ok h.1.toLive hp
      rcases hq : Pump.step r.to_client r.target r.client c.to_client with ⟨e | u, q⟩
      · exact ⟨hp.toFaithful, Pump.step_spec.error h.2.toLive hq⟩
      · have hq := Pump.step_spec.ok h.2.toLive hq
        exact ⟨⟨hp.toFaithful, hq.toFaithful⟩, fun _ => ⟨hp, hq⟩⟩

theorem run_spec (rounds : List Round) :
    Spec Waits (run rounds) (fun kept c => c.Faithful ∧ (kept → c.Waits)) (fun _ => Faithful) := by
  induction rounds with
  | nil => exact fun c h => ⟨h.faithful, fun _ => h⟩
  | cons r rounds ih =>
    refine (step_spec r).bind fun kept => ?_
    cases kept with
    | false => exact fun c h => ⟨h.1, nofun⟩
    | true => exact fun c h => ih c (h.2 rfl)

/-- The relay forwards faithfully: after any rounds both directions are faithful. While the connection is kept, each
unfinished direction has an interest registered, and a round drops it without an error only for a poll or a connect
that reports one, a connect that takes too long, or when both directions have finished. -/
theorem relays_faithfully (connecting : Bool) (rounds : List Round) :
    let (result, c) := run rounds { connecting }
    c.Faithful ∧
    (result = .ok true → c.connecting = false →
      (c.to_target.finished = false → c.client_interest.pollin = true ∨ c.target_interest.pollout = true) ∧
      (c.to_client.finished = false → c.target_interest.pollin = true ∨ c.client_interest.pollout = true)) ∧
    ∀ r c', step r c = (.ok false, c') → (r.client.error || r.target.error) = true ∨
      (c.connecting && (r.timed_out || r.take_error)) = true ∨ (c'.to_target.finished && c'.to_client.finished) = true := by
  have hnew : Pump.Waits {} := ⟨⟨⟨rfl, by decide, nofun⟩, Nat.le_refl _, rfl⟩, fun _ => .inl rfl⟩
  have hspec := run_spec rounds { connecting } ⟨hnew, hnew⟩
  rcases hrun : run rounds { connecting } with ⟨result, c⟩
  rw [hrun] at hspec
  refine ⟨?_, ?_, fun r c' hstep => ?_⟩
  · cases result with
    | error e => exact hspec
    | ok kept => exact hspec.1
  · rintro rfl hdone
    simp only [client_interest, target_interest, hdone]
    exact ⟨(hspec.2 rfl).1.interest, (hspec.2 rfl).2.interest⟩
  · unfold step at hstep
    grind

end Connection
end Silo.Portd
