import Mathlib.Data.List.Nodup
import Silo.Lib.Steps
import Silo.Rust.Str
/-!
# Layer downloads

`ensure_layer_blobs` polls the downloads of its buffered stream one at a time, in one
task. A download takes the lock file of its layer when it is first polled, with a call
that blocks the thread, and holds the lock until it returns or is dropped. Locks belong
to open file descriptions: the same file opened twice is locked by one of the two.

What the disk and the registry answer is part of the event that polls a download.
-/

namespace Silo.Oci

open Rust Lib List

structure ResolvedLayer where
  digest : Str
  size_bytes : Nat

def is_ascii_hexdigit (c : Char) : Bool := is_ascii_digit c || ('a' ≤ c && c ≤ 'f') || ('A' ≤ c && c ≤ 'F')

/-- `Sha256Digest::parse` and `hex`: the digest as it stands in paths. -/
def digest_path_components (digest : Str) : Option Str :=
  match strip_prefix_of digest "sha256:".toList with
  | none => none
  | some encoded =>
    if len encoded ≠ 64 ∨ !encoded.all is_ascii_hexdigit then none else some (to_ascii_lowercase encoded)

/-- The file name in the directory of temporary files. -/
def blob_lock_path (digest : Str) : Option Str :=
  (digest_path_components digest).map fun encoded => "sha256-".toList ++ encoded ++ ".download.lock".toList

/-! ## One download -/

/-- Answers of the disk, `none` where the call fails: whether a verified blob is there, whether the old one is out of
the way and the directories exist, how much of the part is there, whether it has the digest, whether it could be
promoted or removed. -/
structure Disk where
  verified : Option Bool := some false
  prepared : Option Unit := some ()
  offset : Option Nat := some 0
  part_matches : Option Bool := some false
  promoted : Option Unit := some ()
  removed : Option Unit := some ()

/-- Where a poll leaves a download. -/
inductive Poll where
  | pending
  | ready
  | failed

/-- `get_or_download_layer` from the lock to its first await or its return. -/
def get_or_download_layer (layer : ResolvedLayer) (disk : Disk) : Poll :=
  let result : Option Poll := do
    if ← disk.verified then return .ready
    disk.prepared
    let offset ← disk.offset
    if offset = layer.size_bytes then
      if ← disk.part_matches then
        disk.promoted
        return .ready
      disk.removed
    return .pending
  result.getD .failed

/-! ## The stream -/

inductive Download where
  | queued
  /-- Suspended in an await, with the lock of its layer. -/
  | locked
  | finished
  deriving DecidableEq

/-- A call of `ensure_layer_blobs`: the downloads that the stream has been asked for, in the order of the layers.
`blocked` is the one that waits for a lock file of another of them, and with it the thread. -/
structure Downloads where
  layers : List ResolvedLayer
  concurrency : Nat
  downloads : List Download := []
  blocked : Option Nat := none
  returned : Bool := false

def layer_download_concurrency (layer_count parallelism : Nat) : Nat :=
  if layer_count = 0 then 1 else min layer_count (max 4 (min 16 (parallelism * 2)))

def ensure_layer_blobs (layers : List ResolvedLayer) (parallelism : Nat) : Downloads :=
  { layers := layers, concurrency := layer_download_concurrency layers.length parallelism }

namespace Downloads

def lock_path (s : Downloads) (i : Nat) : Option Str := s.layers[i]?.bind fun layer => blob_lock_path layer.digest

def is_locked (s : Downloads) (path : Str) : Bool :=
  (List.range s.downloads.length).any fun j => s.downloads[j]? = some .locked && s.lock_path j = some path

/-- The first error ends the call, and drops the other downloads with their locks. -/
def polled (s : Downloads) (i : Nat) : Poll → Downloads
  | .pending => { s with downloads := s.downloads.set i .locked }
  | .ready => { s with downloads := s.downloads.set i .finished }
  | .failed => { s with downloads := [], returned := true }

end Downloads

inductive DownloadEvent where
  /-- The buffer has room for the next download. -/
  | next
  /-- The first poll; `opened` says that the lock file could be opened. -/
  | start (i : Nat) (opened : Bool) (disk : Disk)
  | resume (i : Nat) (poll : Poll)

def Downloads.step (s : Downloads) (event : DownloadEvent) : Option Downloads :=
  if s.returned ∨ s.blocked ≠ none then none
  else match event with
    | .next =>
      if s.downloads.countP (· ≠ .finished) < s.concurrency ∧ s.downloads.length < s.layers.length then
        some { s with downloads := s.downloads ++ [.queued] }
      else none
    | .start i opened disk =>
      match s.downloads[i]?, s.layers[i]? with
      | some .queued, some layer =>
        match blob_lock_path layer.digest with
        | none => some (s.polled i .failed)
        | some path =>
          if !opened then some (s.polled i .failed)
          else if s.is_locked path then some { s with blocked := some i }
          else some (s.polled i (get_or_download_layer layer disk))
      | _, _ => none
    | .resume i poll => if s.downloads[i]? = some .locked then some (s.polled i poll) else none

/-! ## Lock files of their own -/

variable {s s' : Downloads} {layers : List ResolvedLayer}

/-- No two layers of the image have the same lock file. -/
def OwnLocks (layers : List ResolvedLayer) : Prop :=
  layers.Pairwise fun a b => blob_lock_path a.digest ≠ none → blob_lock_path a.digest ≠ blob_lock_path b.digest

theorem OwnLocks.index_eq {i j : Nat} {a b : ResolvedLayer} {path : Str} (h : OwnLocks layers) (ha : layers[i]? = some a)
    (hb : layers[j]? = some b) (hpa : blob_lock_path a.digest = some path) (hpb : blob_lock_path b.digest = some path) :
    i = j := by
  obtain ⟨hi, rfl⟩ := List.getElem?_eq_some_iff.1 ha
  obtain ⟨hj, rfl⟩ := List.getElem?_eq_some_iff.1 hb
  have hpairs := pairwise_iff_getElem.1 h
  rcases Nat.lt_trichotomy i j with hlt | heq | hlt
  · exact absurd (hpa.trans hpb.symm) (hpairs i j hi hj hlt (by simp [hpa]))
  · exact heq
  · exact absurd (hpb.trans hpa.symm) (hpairs j i hj hi hlt (by simp [hpb]))

/-- The lock that a queued download is about to take is held by none of the others. -/
theorem OwnLocks.not_locked {i : Nat} {layer : ResolvedLayer} {path : Str} (h : OwnLocks s.layers)
    (hqueued : s.downloads[i]? = some .queued) (hlayer : s.layers[i]? = some layer)
    (hpath : blob_lock_path layer.digest = some path) : s.is_locked path = false := by
  by_contra hlocked
  simp only [Downloads.is_locked, Bool.not_eq_false, any_eq_true, Bool.and_eq_true, decide_eq_true_eq] at hlocked
  obtain ⟨j, -, hj, hjpath⟩ := hlocked
  obtain ⟨other, hother, hjpath⟩ := Option.bind_eq_some_iff.1 hjpath
  cases h.index_eq hlayer hother hpath hjpath
  cases hqueued.symm.trans hj

theorem polled_kept (i : Nat) (poll : Poll) : (s.polled i poll).layers = s.layers ∧ (s.polled i poll).blocked = s.blocked := by
  cases poll <;> exact ⟨rfl, rfl⟩

theorem step_unblocked {event : DownloadEvent} (h : OwnLocks s.layers) (hs : s.step event = some s') :
    s'.layers = s.layers ∧ s'.blocked = none := by
  unfold Downloads.step at hs
  split at hs
  · cases hs
  rename_i hover
  have hfree : s.blocked = none := by simpa using (not_or.1 hover).2
  rw [← hfree]
  cases event with
  | next =>
    simp only at hs
    split_ifs at hs
    cases hs
    exact ⟨rfl, rfl⟩
  | start i opened disk =>
    simp only at hs
    split at hs
    · rename_i layer hqueued hlayer
      split at hs
      · cases hs
        exact polled_kept i _
      · rename_i path hpath
        rw [h.not_locked hqueued hlayer hpath, if_neg Bool.false_ne_true] at hs
        split_ifs at hs <;> cases hs <;> exact polled_kept i _
    · cases hs
  | resume i poll =>
    simp only at hs
    split_ifs at hs
    cases hs
    exact polled_kept i poll

/-! ## Shared lock files -/

section Shared

variable {i j k : Nat} {first layer : ResolvedLayer} {path : Str}

/-- The first `k` downloads have been polled: the `i`-th waits for the registry, the others had their blobs. -/
def Downloads.waiting (s : Downloads) (i k : Nat) : Downloads :=
  { s with downloads := (range k).map fun n => if n = i then .locked else .finished }

/-- The next download is in the buffer as well. -/
def Downloads.asked (s : Downloads) (i k : Nat) : Downloads :=
  { s with downloads := (s.waiting i k).downloads ++ [.queued] }

open Downloads (asked waiting polled)

theorem get_or_download_layer_of_verified (layer : ResolvedLayer) (verified : Bool) :
    get_or_download_layer layer { verified := some verified } = if verified then .ready else .pending := by
  cases verified <;> by_cases h : 0 = layer.size_bytes <;> simp [get_or_download_layer, h]

theorem is_locked_asked (hik : i < k) (hfirst : s.layers[i]? = some first)
    (hpath : blob_lock_path first.digest = some path) : (s.asked i k).is_locked path := by
  have hlocked : (s.asked i k).downloads[i]? = some .locked := by
    simp [asked, waiting, getElem?_append, hik]
  have hfile : (s.asked i k).lock_path i = some path := by
    show (s.layers[i]?.bind _) = _
    rw [hfirst, Option.bind_some, hpath]
  refine any_eq_true.2 ⟨i, ?_, by rw [hlocked, hfile]; simp⟩
  simp [asked, waiting]
  omega

variable (hopen : ¬ (s.returned ∨ s.blocked ≠ none))

include hopen

theorem step_asked (hroom : 1 < s.concurrency) (hk : k < s.layers.length) :
    (s.waiting i k).step .next = some (s.asked i k) := by
  have hcount : (s.waiting i k).downloads.countP (· ≠ .finished) = (range k).count i := by
    rw [waiting, countP_map, count]
    refine countP_congr fun n _ => ?_
    by_cases h : n = i <;> simp [h]
  have hone := nodup_iff_count_le_one.1 (nodup_range (n := k)) i
  exact (if_neg hopen).trans (if_pos ⟨by rw [hcount]; exact Nat.lt_of_le_of_lt hone hroom, by simpa [waiting]⟩)

theorem step_polled (hlayer : s.layers[k]? = some layer) (hpath : blob_lock_path layer.digest = some path) :
    (s.asked i k).step (.start k true { verified := some (k ≠ i) }) =
      some (if (s.asked i k).is_locked path then { s.asked i k with blocked := some k } else s.waiting i (k + 1)) := by
  have hqueued : (s.asked i k).downloads[k]? = some .queued := by simp [asked, waiting]
  have hlayer' : (s.asked i k).layers[k]? = some layer := hlayer
  have hopen' : ¬ ((s.asked i k).returned ∨ (s.asked i k).blocked ≠ none) := hopen
  simp only [Downloads.step, if_neg hopen', hqueued, hlayer', hpath, get_or_download_layer_of_verified]
  rw [if_neg (by simp)]
  split_ifs <;> simp_all [polled, asked, waiting, range_succ]

/-- The downloads before the `j`-th come and go while the `i`-th keeps the lock that the `j`-th needs. -/
theorem shared_lock_blocks (hroom : 1 < s.concurrency) (hij : i < j) (hj : j < s.layers.length)
    (hpaths : ∀ layer ∈ s.layers, blob_lock_path layer.digest ≠ none)
    (hsame : blob_lock_path s.layers[i].digest = blob_lock_path s.layers[j].digest) (hempty : s.downloads = []) :
    ∃ t, Reaches Downloads.step s t ∧ t.blocked ≠ none := by
  by_contra hnone
  have hpolled : ∀ k, (hk : k < s.layers.length) → Reaches Downloads.step s (s.waiting i k) → ∃ path,
      blob_lock_path s.layers[k].digest = some path ∧ (s.asked i k).is_locked path = false ∧
        Reaches Downloads.step s (s.waiting i (k + 1)) := by
    intro k hk hr
    obtain ⟨path, hpath⟩ := Option.ne_none_iff_exists'.1 (hpaths _ (getElem_mem hk))
    have hstep := step_polled (i := i) hopen (getElem?_eq_getElem hk) hpath
    have hasked := hr.tail ⟨.next, trivial, step_asked hopen hroom hk⟩
    split_ifs at hstep with hlocked
    · exact absurd ⟨_, hasked.tail ⟨_, trivial, hstep⟩, nofun⟩ hnone
    · exact ⟨path, hpath, by simpa using hlocked, hasked.tail ⟨_, trivial, hstep⟩⟩
  have hreach : ∀ k ≤ j, Reaches Downloads.step s (s.waiting i k) := by
    intro k
    induction k with
    | zero => exact fun _ => by rw [waiting, range_zero, map_nil, ← hempty]; exact .refl
    | succ k ih => exact fun hk => (hpolled k (by omega) (ih (by omega))).choose_spec.2.2
  obtain ⟨path, hpath, hfree, -⟩ := hpolled j hj (hreach j (Nat.le_refl j))
  rw [is_locked_asked hij (getElem?_eq_getElem (by omega)) (hsame.trans hpath)] at hfree
  cases hfree

end Shared

/-- No download of a call waits for a lock file that another download of the call holds, in any order of polls, when
no two layers of the image have the same lock file; when two do, some order blocks unless a digest is malformed. -/
theorem layer_downloads_never_blocked (layers : List ResolvedLayer) (parallelism : Nat) :
    (OwnLocks layers → ∀ s, Reaches Downloads.step (ensure_layer_blobs layers parallelism) s → s.blocked = none) ∧
    ((∀ layer ∈ layers, blob_lock_path layer.digest ≠ none) → ¬ OwnLocks layers →
      ∃ s, Reaches Downloads.step (ensure_layer_blobs layers parallelism) s ∧ s.blocked ≠ none) := by
  constructor
  · intro h s hr
    have hkept : s.layers = layers ∧ s.blocked = none := by
      refine hr.invariant (P := fun s => s.layers = layers ∧ s.blocked = none) (fun t t' e ht he => ?_) ⟨rfl, rfl⟩
      obtain ⟨hlayers, hfree⟩ := step_unblocked (ht.1 ▸ h) he
      exact ⟨hlayers.trans ht.1, hfree⟩
    exact hkept.2
  · intro hpaths hown
    simp only [OwnLocks, pairwise_iff_getElem, not_forall, ne_eq, not_not] at hown
    obtain ⟨i, j, _, hj, hij, -, hsame⟩ := hown
    have hroom : 1 < layer_download_concurrency layers.length parallelism := by
      unfold layer_download_concurrency
      split_ifs <;> omega
    exact shared_lock_blocks (s := ensure_layer_blobs layers parallelism) (by simp [ensure_layer_blobs]) hroom hij hj hpaths
      hsame rfl

def layerOf (c : Char) : ResolvedLayer := ⟨"sha256:".toList ++ replicate 64 c, 10⟩

theorem distinct_layers_never_blocked : ∃ s, Reaches Downloads.step (ensure_layer_blobs [layerOf 'a', layerOf 'b'] 1) s ∧
    s.downloads = [.locked, .locked] ∧ s.blocked = none := by
  have hown : OwnLocks [layerOf 'a', layerOf 'b'] := by
    unfold OwnLocks
    decide
  have hr : Reaches Downloads.step (ensure_layer_blobs [layerOf 'a', layerOf 'b'] 1) _ :=
    reaches_runSteps [.next, .next, .start 0 true {}, .start 1 true {}] rfl
  exact ⟨_, hr, rfl, (layer_downloads_never_blocked _ 1).1 hown _ hr⟩

/-- An image that lists one layer twice: the first download waits for the registry with the lock, and the second
blocks the thread on it. -/
theorem repeated_layer_blocked : ∃ s,
    runSteps Downloads.step [.next, .next, .start 0 true {}, .start 1 true {}]
      (ensure_layer_blobs [layerOf 'a', layerOf 'a'] 1) = some s ∧ s.blocked = some 1 ∧ ∀ event, s.step event = none := by
  exact ⟨_, rfl, rfl, fun event => rfl⟩

end Silo.Oci
