import Silo.Vmm.Verification
/-!
# When the epochs run out

Every change of the advertised key takes two epochs, one to drop the old target and
one to issue the new. At the last epoch the drop fails after the new status has been
recorded, and the old verification stays. When the agent advertises the old key
again, that verification counts again.
-/

namespace Silo.Vmm

open Lib
open Rust (Str)

/-- The agent advertises `key` under a verification for a target with key `issued`. -/
structure Watching (s : State) (epoch : Nat) (key issued : Str) (outcome : SshVerificationOutcome) : Prop where
  enabled : s.agent_enabled
  running : s.vm_state = .Running
  serving : s.stopping = false
  connected : s.connection.state = some .Responsive
  identity : s.identity = some theAgent
  status : s.status = some ⟨0, 1, 1, readyReport key⟩
  at_epoch : s.ssh_epoch = epoch
  verification : s.ssh_verification = some ⟨targetOf epoch issued, outcome⟩

theorem validate_ready {key : Str} (hkey : key = keyA ∨ key = keyB) :
    validate_status twoKeys (readyStatus key) = .ok (theAgent, readyReport key) := by
  have hopen : twoKeys.from_openssh key := by simpa [twoKeys] using hkey
  have hssh : validate_ssh twoKeys ⟨"native".toList, 22, key, true, false⟩ = .ok () :=
    if_pos ⟨List.mem_cons_self, rfl, rfl, hopen⟩
  simp only [validate_status, readyStatus, readyReport, validate_status_report, hssh]
  rfl

section Watching

variable {s : State} {epoch : Nat} {key issued next : Str} {outcome : SshVerificationOutcome}

section

variable (h : Watching s epoch key issued outcome)

include h

theorem Watching.eligible :
    eligible_ssh s 0 = some ⟨"native".toList, 22, key, true, false⟩ := by
  simp [eligible_ssh, h.enabled, h.running, h.serving, h.connected, h.status, readyReport, AgentStatusState.as_i32]

theorem Watching.identified :
    identity_from_state twoKeys s = some theIdentity := by
  rw [identity_from_state, h.identity]
  rfl

theorem Watching.matches_iff (target : SshVerificationTarget) :
    ssh_target_matches twoKeys s target 0 ↔ target = targetOf epoch key := by
  rw [Vmm.matches_iff h.eligible h.identified, h.at_epoch]
  rfl

theorem Watching.record (next : Str) :
    ∃ s₁, record_status theAgent ⟨0, 1, 1, readyReport next⟩ origin s = (.ok (), s₁) ∧
      Watching s₁ epoch next issued outcome := by
  have hfresh : ¬ s.expired origin.instant := by
    rintro ⟨status, hs, hle⟩
    rw [h.status] at hs
    cases hs
    exact Nat.not_succ_le_zero 0 hle
  have hwhen : Run.when (s.expired origin.instant) invalidate_ssh_verification s = (.ok (), s) := by
    rw [Run.when, if_neg hfresh]
    rfl
  have hsupersede : supersede theAgent s = (.ok (), s) := by simp [supersede, h.identity]
  have hrun : record_status theAgent ⟨0, 1, 1, readyReport next⟩ origin s = (.ok (),
      { s with
        identity := some theAgent
        connection := { s.connection with state := some .Responsive, last_success_at := some 0, message := none }
        status := some ⟨0, 1, 1, readyReport next⟩ }) := by
    show (Run.when (s.expired origin.instant) invalidate_ssh_verification >>= _) s = _
    simp only [Bind.bind, hwhen, hsupersede, Run.modify]
  exact ⟨_, hrun, h.enabled, h.running, h.serving, rfl, rfl, rfl, h.at_epoch, h.verification⟩

end

theorem observe_ready (hnext : next = keyA ∨ next = keyB) {s₁ s₂ : State} {result : Except StoreError Unit}
    (hrecord : record_status theAgent ⟨0, 1, 1, readyReport next⟩ origin s = (.ok (), s₁))
    (hrefresh : refresh_ssh_verification twoKeys 0 s₁ = (result, s₂)) :
    (observe_status twoKeys (readyStatus next) 1 origin s).state = s₂ := by
  rw [observe_status_of_valid (validate_ready hnext) rfl]
  exact mutate_state hrecord hrefresh

theorem Watching.mismatch (h : Watching s epoch next key outcome) (hne : next ≠ key) :
    ssh_target_matches twoKeys s (targetOf epoch key) 0 = false := by
  rw [Bool.eq_false_iff, ne_eq, h.matches_iff]
  intro heq
  exact hne (congrArg SshVerificationTarget.host_public_key heq).symm

/-- Observing another key below the limit issues a target two epochs on. -/
theorem Watching.observe_other (h : Watching s epoch key key outcome) (hnext : next = keyA ∨ next = keyB)
    (hne : next ≠ key) (hmax : epoch + 2 ≤ u64_max) :
    Watching (observe_status twoKeys (readyStatus next) 1 origin s).state (epoch + 2) next next .Pending := by
  obtain ⟨s₁, hrecord, h₁⟩ := h.record next
  have hepoch : s₁.ssh_epoch + 1 ≤ u64_max := by
    rw [h₁.at_epoch]
    omega
  have hinv := invalidate_of_le (by rw [h₁.verification]; rfl) hepoch
  rw [h₁.at_epoch] at hinv
  have hissue := issue_of_eligible (s := { s₁ with ssh_epoch := epoch + 1, ssh_verification := none }) h₁.eligible
    h₁.identified hmax
  have hrefresh : refresh_ssh_verification twoKeys 0 s₁ = (.ok (),
      { s₁ with ssh_epoch := epoch + 2, ssh_verification := some ⟨targetOf (epoch + 2) next, .Pending⟩ }) := by
    rw [refresh_of_mismatch h₁.verification (h₁.mismatch hne)]
    exact Run.bind_run_ok.2 ⟨(), _, hinv, hissue⟩
  rw [observe_ready hnext hrecord hrefresh]
  exact ⟨h₁.enabled, h₁.running, h₁.serving, h₁.connected, h₁.identity, h₁.status, rfl, rfl⟩

/-- At the last epoch the status is recorded and the verification stays. -/
theorem Watching.observe_exhausted (h : Watching s u64_max key key outcome) (hnext : next = keyA ∨ next = keyB)
    (hne : next ≠ key) : Watching (observe_status twoKeys (readyStatus next) 1 origin s).state u64_max next key outcome := by
  obtain ⟨s₁, hrecord, h₁⟩ := h.record next
  have hfail : invalidate_ssh_verification s₁ = (.error .SshEpochExhausted, s₁) := by
    exact invalidate_at_limit (by rw [h₁.verification]; rfl) (Nat.le_of_eq h₁.at_epoch.symm)
  have hrefresh : refresh_ssh_verification twoKeys 0 s₁ = (.error .SshEpochExhausted, s₁) := by
    rw [refresh_of_mismatch h₁.verification (h₁.mismatch hne)]
    exact Run.bind_run_of_error hfail
  rw [observe_ready hnext hrecord hrefresh]
  exact h₁

/-- Observing the key the target was issued for keeps the verification. -/
theorem Watching.observe_issued (h : Watching s epoch key issued outcome) (hissued : issued = keyA ∨ issued = keyB) :
    Watching (observe_status twoKeys (readyStatus issued) 1 origin s).state epoch issued issued outcome := by
  obtain ⟨s₁, hrecord, h₁⟩ := h.record issued
  rw [observe_ready hissued hrecord (refresh_of_matches h₁.verification ((h₁.matches_iff _).2 rfl))]
  exact h₁

theorem Watching.complete (h : Watching s epoch key key .Pending) :
    Watching (complete_ssh_verification twoKeys (targetOf epoch key) (.ok ()) origin s).state epoch key key
      (.Verified SSH_VERIFICATION_VALIDITY) := by
  have hm : ssh_target_matches twoKeys s (targetOf epoch key) origin.instant := (h.matches_iff _).2 rfl
  have haw := awaits_of_matches h.verification hm
  have hout : verification_outcome (.ok ()) origin.instant = .ok (.Verified SSH_VERIFICATION_VALIDITY) := by decide
  have h₁ : Watching { s with ssh_verification := some ⟨targetOf epoch key, .Verified SSH_VERIFICATION_VALIDITY⟩ } epoch
      key key (.Verified SSH_VERIFICATION_VALIDITY) :=
    ⟨h.enabled, h.running, h.serving, h.connected, h.identity, h.status, h.at_epoch, rfl⟩
  have hrefresh := refresh_of_matches rfl ((h₁.matches_iff _).2 rfl)
  rw [(complete_of_awaits haw hout hrefresh).1]
  exact h₁

end Watching

/-! ## A run to the limit -/

/-- The key advertised by the `n`-th status. -/
def keyAt (n : Nat) : Str := if n % 2 = 0 then keyA else keyB

theorem keyAt_cases (n : Nat) : keyAt n = keyA ∨ keyAt n = keyB := by
  rw [keyAt]
  split
  · exact .inl rfl
  · exact .inr rfl

theorem keyAt_succ_ne (n : Nat) : keyAt (n + 1) ≠ keyAt n := by
  rw [keyAt, keyAt]
  have hne : keyA ≠ keyB := by simp [keyA, keyB]
  split <;> split
  · omega
  · exact hne
  · exact hne.symm
  · omega

/-- `n` changes of the key after the first status, all at one moment. -/
def changes : Nat → List (Clock × Call)
  | 0 => [(origin, .observe_status (readyStatus (keyAt 0)) 1), (origin, .set_vm_state .Running [])]
  | n + 1 => (origin, .observe_status (readyStatus (keyAt (n + 1))) 1) :: changes n

theorem changes_instant (n : Nat) : ∀ c ∈ changes n, c.1 = origin := by
  induction n with
  | zero => simp [changes]
  | succ n ih => simpa [changes] using ih

theorem changes_watching (n : Nat) (hmax : 2 * n + 1 ≤ u64_max) :
    Watching (after twoKeys (InstanceStore.new true origin) (changes n)) (2 * n + 1) (keyAt n) (keyAt n) .Pending := by
  induction n with
  | zero => exact ⟨rfl, rfl, rfl, rfl, rfl, rfl, rfl, rfl⟩
  | succ n ih =>
    have h := ih (by omega)
    exact h.observe_other (keyAt_cases _) (keyAt_succ_ne n) (by omega)

theorem Watching.reports {s : State} {epoch : Nat} {key : Str}
    (h : Watching s epoch key key (.Verified SSH_VERIFICATION_VALIDITY)) : ReportsSsh twoKeys s 0 := by
  have hcurrent : current_verification twoKeys s 0 = some ⟨targetOf epoch key, .Verified SSH_VERIFICATION_VALIDITY⟩ := by
    rw [current_verification, h.verification, Option.filter_some, (h.matches_iff _).2 rfl]
    rfl
  have hkex : (effective_status twoKeys s (readyReport key) 0).kex_verified := by
    rw [effective_status, hcurrent]
    rfl
  have hagent : (project_status twoKeys s 0).agent =
      some ⟨s.connection, s.identity, some (status_observation twoKeys s ⟨0, 1, 1, readyReport key⟩ 0),
        s.agent_services⟩ := by
    rw [project_status, h.enabled, h.status]
    rfl
  exact ⟨_, _, _, hagent, rfl, rfl, .inl hkex⟩

theorem VerifiedAt.matches {crates : Crates} {s₀ : State} {target : SshVerificationTarget} {t : Nat} {c : Clock × Call}
    {earlier : List (Clock × Call)} (h : VerifiedAt crates s₀ target t (c :: earlier)) :
    ssh_target_matches crates (after crates s₀ (c :: earlier)) target c.1.instant := by
  cases h with
  | complete _ ht _ _ hm => exact ht ▸ hm
  | keep _ hm => exact hm

/-- After `n` changes the key is verified, then another key is advertised, then the first one again. -/
def revival (n : Nat) : List (Clock × Call) :=
  (origin, .observe_status (readyStatus (keyAt n)) 1) :: (origin, .observe_status (readyStatus (keyAt (n + 1))) 1) ::
    (origin, .complete_ssh_verification (targetOf u64_max (keyAt n)) (.ok ())) :: changes n

/-- At the last epoch a verification for one key counts again after another key was advertised in between. -/
theorem last_epoch_revives_verification :
    ∃ history : List (Clock × Call),
      history.Pairwise (fun later earlier => earlier.1.instant ≤ later.1.instant) ∧ (∀ c ∈ history, c.1.instant ≤ 0) ∧
      ReportsSsh twoKeys (after twoKeys (InstanceStore.new true origin) history) 0 ∧
      ¬ ∃ target t, VerifiedAt twoKeys (InstanceStore.new true origin) target t history ∧
        0 < t + SSH_VERIFICATION_VALIDITY ∧
        target.epoch = (after twoKeys (InstanceStore.new true origin) history).ssh_epoch ∧
        ssh_target_matches twoKeys (after twoKeys (InstanceStore.new true origin) history) target 0 = true := by
  obtain ⟨n, hn⟩ : ∃ n, 2 * n + 1 = u64_max := ⟨9223372036854775807, by decide⟩
  have h₀ := changes_watching n (Nat.le_of_eq hn)
  rw [hn] at h₀
  have h₁ := h₀.complete
  have h₂ := h₁.observe_exhausted (keyAt_cases (n + 1)) (keyAt_succ_ne n)
  have h₃ := h₂.observe_issued (keyAt_cases n)
  have hall : ∀ c ∈ revival n, c.1 = origin := by simpa [revival] using changes_instant n
  refine ⟨revival n, ?_, ?_, h₃.reports, ?_⟩
  · refine List.pairwise_of_forall_mem_list fun a ha b hb => Nat.le_of_eq ?_
    rw [hall a ha, hall b hb]
  · intro c hc
    exact Nat.le_of_eq (congrArg Clock.instant (hall c hc))
  · rintro ⟨target, t, hver, -, -, -⟩
    -- The target has to match the key advertised last and the one before it.
    have hlast := (h₃.matches_iff target).1 hver.matches
    cases hver with
    | keep hver _ =>
      have hprev := (h₂.matches_iff target).1 hver.matches
      rw [hlast] at hprev
      exact keyAt_succ_ne n (congrArg SshVerificationTarget.host_public_key hprev).symm

end Silo.Vmm
