import Mathlib.Data.List.DropRight
import Silo.Lib.Checks
/-!
# The tail of a machine log

`logs.rs`: a log is read as a snapshot of the files it is kept in, the archives before
the active one. `seek_snapshot_tail` positions the files at the last bytes of the whole,
and `send_snapshot` sends what is left of each. A log file is only appended to, so
everything up to the length seen when it was opened stays readable.
-/

namespace Silo.Libvm

open Lib List

inductive LogError where
  | UnexpectedEof (text : String)

/-- An open log file: `position` is where the next read starts. -/
structure OpenedLog where
  content : List UInt8
  snapshot_len : Nat
  position : Nat := 0
  intact : snapshot_len ≤ content.length

namespace OpenedLog

def seek (file : OpenedLog) (offset : Nat) : OpenedLog := { file with position := offset }

def read_exact (file : OpenedLog) : Except LogError (UInt8 × OpenedLog) :=
  match file.content[file.position]? with
  | some byte => .ok (byte, file.seek (file.position + 1))
  | none => .error (.UnexpectedEof "failed to fill whole buffer")

def snapshot (file : OpenedLog) : List UInt8 := file.content.take file.snapshot_len

def unread (file : OpenedLog) : List UInt8 := file.snapshot.drop file.position

@[simp] theorem length_snapshot (file : OpenedLog) : file.snapshot.length = file.snapshot_len := by
  rw [snapshot, length_take, Nat.min_eq_left file.intact]

@[simp] theorem snapshot_seek (file : OpenedLog) (offset : Nat) : (file.seek offset).snapshot = file.snapshot := rfl

@[simp] theorem unread_seek (file : OpenedLog) (offset : Nat) : (file.seek offset).unread = file.snapshot.drop offset := rfl

end OpenedLog

/-! ## Seeking -/

def newline : UInt8 := 10

/-- The loop, over the files from the last to the first. -/
def seek_files : List OpenedLog → Nat → Option Bool → Except LogError (Option Bool × List OpenedLog)
  | [], _, boundary => .ok (boundary, [])
  | file :: files, remaining, boundary => do
    let retained := min file.snapshot_len remaining
    let offset := file.snapshot_len - retained
    let boundary ←
      if offset > 0 ∧ boundary.isNone then do
        let (previous, _) ← (file.seek (offset - 1)).read_exact
        pure (some (decide (previous ≠ newline)))
      else pure boundary
    let (boundary, files) ← seek_files files (remaining - retained) boundary
    pure (boundary, file.seek offset :: files)

/-- Whether the tail starts in the middle of a line, and the files where they are left. -/
def seek_snapshot_tail (files : List OpenedLog) (remaining : Nat) : Except LogError (Bool × List OpenedLog) := do
  let (boundary, files) ← seek_files files.reverse remaining none
  pure (boundary.getD false, files.reverse)

/-- What the loop finds out about the byte before the last `k`. -/
def boundary_before (text : List UInt8) (k : Nat) : Option Bool :=
  (text.rdrop k).getLast?.map fun byte => decide (byte ≠ newline)

variable {a b : List UInt8} {k : Nat}

theorem rtake_append : (a ++ b).rtake k = a.rtake (k - b.length) ++ b.rtake k := by
  simp [rtake_eq_reverse_take_reverse, take_append]

theorem rdrop_append : (a ++ b).rdrop k = a.rdrop (k - b.length) ++ b.rdrop k := by
  simp [rdrop_eq_reverse_drop_reverse, drop_append]

theorem boundary_before_append :
    boundary_before (a ++ b) k = (boundary_before b k).or (boundary_before a (k - b.length)) := by
  rw [boundary_before, rdrop_append, getLast?_append, Option.map_or]
  rfl

open OpenedLog

/-- The byte before what a file has of the tail is read unless one has been found, and the loop goes on with it. -/
theorem boundary_before_read {α : Type} (file : OpenedLog) (remaining : Nat) (boundary : Option Bool)
    (k : Option Bool → Except LogError α) :
    (if file.snapshot_len - remaining > 0 ∧ boundary.isNone then do
        let (previous, _) ← (file.seek (file.snapshot_len - remaining - 1)).read_exact
        k (some (decide (previous ≠ newline)))
      else k boundary) = k (boundary.or (boundary_before file.snapshot remaining)) := by
  cases boundary with
  | some b => simp
  | none =>
    have hintact := file.intact
    rcases Nat.eq_zero_or_pos (file.snapshot_len - remaining) with hzero | hpos
    · simp [boundary_before, rdrop, hzero]
    · have hlt : file.snapshot_len - remaining - 1 < file.content.length := by omega
      have hlast : (file.snapshot.rdrop remaining).getLast? = some file.content[file.snapshot_len - remaining - 1] := by
        rw [rdrop, length_snapshot, snapshot, take_take, Nat.min_eq_left (Nat.sub_le _ _),
          getLast?_take, if_neg hpos.ne', getElem?_eq_getElem hlt]
        rfl
      simp [boundary_before, hlast, hpos, read_exact, seek, hlt, bind, Except.bind]

/-- The byte before the tail is found in the first file, from the end, that keeps a byte back. -/
theorem seek_files_spec (files : List OpenedLog) (remaining : Nat) (boundary : Option Bool) :
    ∃ left, seek_files files remaining boundary =
        .ok (boundary.or (boundary_before (files.reverse.flatMap snapshot) remaining), left) ∧
      left.map snapshot = files.map snapshot ∧
      left.reverse.flatMap unread = (files.reverse.flatMap snapshot).rtake remaining := by
  induction files generalizing remaining boundary with
  | nil => exact ⟨[], by simp [seek_files, boundary_before, rdrop], rfl, by simp [rtake]⟩
  | cons file files ih =>
    have htext : (file :: files).reverse.flatMap snapshot =
        files.reverse.flatMap snapshot ++ file.snapshot := by simp
    have hoffset : file.snapshot_len - min file.snapshot_len remaining = file.snapshot_len - remaining := by omega
    have hrest : remaining - min file.snapshot_len remaining = remaining - file.snapshot_len := by omega
    rw [htext, boundary_before_append, rtake_append, file.length_snapshot, ← Option.or_assoc]
    obtain ⟨left, hleft, hsame, hunread⟩ :=
      ih (remaining - file.snapshot_len) (boundary.or (boundary_before file.snapshot remaining))
    refine ⟨file.seek (file.snapshot_len - remaining) :: left, ?_, by simp [hsame], ?_⟩
    · rw [seek_files, hoffset, hrest]
      refine (boundary_before_read file remaining boundary fun boundary => do
        let (boundary, files) ← seek_files files (remaining - file.snapshot_len) boundary
        pure (boundary, file.seek (file.snapshot_len - remaining) :: files)).trans ?_
      exact bind_eq_ok.2 ⟨_, hleft, rfl⟩
    · rw [reverse_cons, flatMap_append, hunread]
      simp [rtake]

/-! ## Sending -/

def LOG_CHUNK_SIZE : Nat := 8 * 1024

def OpenedLog.read_chunk (file : OpenedLog) (limit : Nat) : List UInt8 × OpenedLog :=
  let read := (file.content.drop file.position).take (min limit LOG_CHUNK_SIZE)
  (read, file.seek (file.position + read.length))

/-- The loop of `send_snapshot`: the chunks it sends. -/
def send_remaining (file : OpenedLog) (remaining : Nat) : Except LogError (List (List UInt8)) :=
  if remaining = 0 then .ok []
  else
    let (read, file) := file.read_chunk remaining
    if read.length = 0 then .error (.UnexpectedEof "machine log shrank while reading its snapshot")
    else do
      let chunks ← send_remaining file (remaining - read.length)
      pure (read :: chunks)
termination_by remaining

def send_snapshot (file : OpenedLog) : Except LogError (List (List UInt8)) :=
  send_remaining file (file.snapshot_len - file.position)

/-- A snapshot is sent whole, from where the file is positioned. -/
theorem send_remaining_spec (file : OpenedLog) {remaining : Nat} (h : file.position + remaining ≤ file.content.length) :
    ∃ chunks, send_remaining file remaining = .ok chunks ∧
      chunks.flatten = (file.content.drop file.position).take remaining := by
  induction remaining using Nat.strong_induction_on generalizing file with
  | _ remaining ih =>
    rw [send_remaining]
    split
    · next hzero => exact ⟨[], rfl, by simp [hzero]⟩
    · have hread : (file.read_chunk remaining).1.length = min remaining LOG_CHUNK_SIZE := by
        simp only [read_chunk, length_take, length_drop]
        omega
      have hsize : 0 < min remaining LOG_CHUNK_SIZE := by
        rw [LOG_CHUNK_SIZE]
        omega
      obtain ⟨chunks, hchunks, hflat⟩ := ih (remaining - min remaining LOG_CHUNK_SIZE) (by omega)
        (file.read_chunk remaining).2 (by
          show file.position + (file.read_chunk remaining).1.length + _ ≤ file.content.length
          omega)
      refine ⟨(file.read_chunk remaining).1 :: chunks, ?_, ?_⟩
      · simp only [hread, hchunks, Nat.ne_of_gt hsize, if_false]
        rfl
      · have hnext : (file.read_chunk remaining).2.content.drop (file.read_chunk remaining).2.position =
            (file.content.drop file.position).drop (min remaining LOG_CHUNK_SIZE) := by
          rw [drop_drop, ← hread]
          rfl
        rw [flatten_cons, hflat, hnext, read_chunk, ← take_add]
        congr 1
        omega

theorem send_snapshot_spec (file : OpenedLog) : ∃ chunks, send_snapshot file = .ok chunks ∧ chunks.flatten = file.unread := by
  have hunread : file.unread = (file.content.drop file.position).take (file.snapshot_len - file.position) :=
    drop_take ..
  have hintact := file.intact
  rcases Nat.le_total file.snapshot_len file.position with hle | hle
  · refine ⟨[], ?_, by simp [hunread, Nat.sub_eq_zero_of_le hle]⟩
    rw [send_snapshot, Nat.sub_eq_zero_of_le hle, send_remaining]
    rfl
  · rw [hunread]
    exact send_remaining_spec file (by omega)

theorem send_snapshots_spec (files : List OpenedLog) :
    ∃ chunks, files.mapM send_snapshot = .ok chunks ∧ chunks.flatten.flatten = files.flatMap unread := by
  induction files with
  | nil => exact ⟨[], rfl, rfl⟩
  | cons file files ih =>
    obtain ⟨sent, hsent, hflat⟩ := send_snapshot_spec file
    obtain ⟨chunks, hchunks, hrest⟩ := ih
    refine ⟨sent :: chunks, ?_, by simp [hflat, hrest]⟩
    rw [mapM_cons, hsent, hchunks]
    rfl

/-! ## The tail -/

/-- The files are left at the last bytes of the log, which are what is sent next; the tail starts in the middle of a
line exactly when it leaves out something that does not end a line. -/
theorem log_tail_selected (files : List OpenedLog) (limit : Nat) :
    ∃ mid_line left, seek_snapshot_tail files limit = .ok (mid_line, left) ∧
      left.map OpenedLog.snapshot = files.map OpenedLog.snapshot ∧
      left.flatMap OpenedLog.unread = (files.flatMap OpenedLog.snapshot).rtake limit ∧
      (∃ chunks, left.mapM send_snapshot = .ok chunks ∧
        chunks.flatten.flatten = (files.flatMap OpenedLog.snapshot).rtake limit) ∧
      (mid_line = true ↔ ∃ before byte, byte ≠ newline ∧
        files.flatMap OpenedLog.snapshot = before ++ byte :: (files.flatMap OpenedLog.snapshot).rtake limit) := by
  obtain ⟨left, hseek, hsame, hunread⟩ := seek_files_spec files.reverse limit none
  rw [reverse_reverse, Option.none_or] at hseek
  rw [reverse_reverse] at hunread
  obtain ⟨chunks, hchunks, hflat⟩ := send_snapshots_spec left.reverse
  generalize htext : files.flatMap OpenedLog.snapshot = text at *
  refine ⟨(boundary_before text limit).getD false, left.reverse, ?_, ?_, hunread, ⟨chunks, hchunks, hflat.trans hunread⟩, ?_⟩
  · rw [seek_snapshot_tail, hseek]
    rfl
  · rw [map_reverse, hsame, map_reverse, reverse_reverse]
  · have hsplit : text.rdrop limit ++ text.rtake limit = text := take_append_drop ..
    have hiff : ∀ before byte, text = before ++ byte :: text.rtake limit ↔ text.rdrop limit = before ++ [byte] := by
      intro before byte
      rw [append_cons]
      nth_rewrite 1 [← hsplit]
      exact append_left_inj _
    simp only [hiff, boundary_before]
    cases hlast : (text.rdrop limit).getLast? with
    | none => simp [getLast?_eq_none_iff.1 hlast]
    | some byte =>
      obtain ⟨before, hbefore⟩ := getLast?_eq_some_iff.1 hlast
      simp [hbefore]

end Silo.Libvm
