import Silo.Lib.Checks
import Silo.Vmm.State
/-!
# SSH readiness is backed by a verification

A history lists the calls of a run, latest first. `Issued` says that a target was
issued in a history and has matched the state after every call since; `VerifiedAt`
that it was moreover verified, and when. Epochs are odd while a target is out and
even otherwise, so a target that comes back is a new one, until the epochs run out.
-/

namespace Silo.Vmm

open List Option Lib AgentStatusState
open Rust (Str)

/-! ## Runs -/

/-- The state after the calls of a history, latest first. -/
def after (crates : Crates) (s₀ : State) : List (Clock × Call) → State
  | [] => s₀
  | c :: earlier => (c.2.apply crates c.1 (after crates s₀ earlier)).state

/-- `target` was issued in the history and has matched after every call since. -/
inductive Issued (crates : Crates) (s₀ : State) (target : SshVerificationTarget) : List (Clock × Call) → Prop where
  | issue {c : Clock × Call} {earlier : List (Clock × Call)} :
      (after crates s₀ earlier).ssh_verification.map (·.target) ≠ some target →
      (after crates s₀ (c :: earlier)).ssh_verification = some ⟨target, .Pending⟩ →
      ssh_target_matches crates (after crates s₀ (c :: earlier)) target c.1.instant = true →
      Issued crates s₀ target (c :: earlier)
  | keep {c : Clock × Call} {earlier : List (Clock × Call)} :
      Issued crates s₀ target earlier →
      ssh_target_matches crates (after crates s₀ (c :: earlier)) target c.1.instant = true →
      Issued crates s₀ target (c :: earlier)

/-- `target` was issued, then verified by a successful call at `t`, and has matched after every call since
it was issued. -/
inductive VerifiedAt (crates : Crates) (s₀ : State) (target : SshVerificationTarget) (t : Nat) :
    List (Clock × Call) → Prop where
  | complete {clock : Clock} {earlier : List (Clock × Call)} :
      Issued crates s₀ target earlier → clock.instant = t →
      (complete_ssh_verification crates target (.ok ()) clock (after crates s₀ earlier)).result = .ok () →
      (after crates s₀ ((clock, .complete_ssh_verification target (.ok ())) :: earlier)).ssh_verification =
        some ⟨target, .Verified (t + SSH_VERIFICATION_VALIDITY)⟩ →
      ssh_target_matches crates (after crates s₀ ((clock, .complete_ssh_verification target (.ok ())) :: earlier))
        target t = true →
      VerifiedAt crates s₀ target t ((clock, .complete_ssh_verification target (.ok ())) :: earlier)
  | keep {c : Clock × Call} {earlier : List (Clock × Call)} :
      VerifiedAt crates s₀ target t earlier →
      ssh_target_matches crates (after crates s₀ (c :: earlier)) target c.1.instant = true →
      VerifiedAt crates s₀ target t (c :: earlier)

/-! ## What a target depends on -/

/-- The part of the state that SSH verification reads. -/
def State.listener (s : State) :
    Bool × VmState × Bool × Option AgentConnectionState × Option AgentIdentity ×
      Option (Observation AgentStatusReport) × Nat × Option SshVerification :=
  (s.agent_enabled, s.vm_state, s.stopping, s.connection.state, s.identity, s.status, s.ssh_epoch, s.ssh_verification)

variable {s s₁ : State}

theorem matches_congr (crates : Crates) {s' : State} (h : s'.listener = s.listener) (target : SshVerificationTarget)
    (now : Nat) : ssh_target_matches crates s' target now = ssh_target_matches crates s target now := by
  simp only [State.listener, Prod.mk.injEq] at h
  obtain ⟨h₁, h₂, h₃, h₄, h₅, h₆, h₇, -⟩ := h
  have hid : identity_from_state crates s' = identity_from_state crates s := by rw [identity_from_state, h₅]; rfl
  have hssh : eligible_ssh s' now = eligible_ssh s now := by simp only [eligible_ssh, h₁, h₂, h₃, h₄, h₆]
  rw [ssh_target_matches, hid, hssh, h₇]
  rfl

variable {s : State} {crates : Crates} {now : Nat}

/-- The one target that matches an eligible listener. -/
theorem matches_iff {ssh : SshListenerReport} {identity : ReadyAgentIdentity}
    (hssh : eligible_ssh s now = some ssh) (hid : identity_from_state crates s = some identity)
    (target : SshVerificationTarget) :
    ssh_target_matches crates s target now ↔
      target = ⟨s.ssh_epoch, identity, ssh.backend, ssh.port, ssh.host_public_key⟩ := by
  obtain ⟨e, i, b, p, k⟩ := target
  simp only [ssh_target_matches, hssh, hid, Bool.and_eq_true, decide_eq_true_eq, some.injEq,
    SshVerificationTarget.mk.injEq]
  grind

variable {target : SshVerificationTarget}

theorem not_expired_of_matches (h : ssh_target_matches crates s target now) : ¬ s.expired now := by
  rintro ⟨status, hs, hle⟩
  simp [ssh_target_matches, eligible_ssh, hs, hle] at h

/-- A target stops matching an unchanged state only by the receipt running out. -/
theorem matches_later {t now : Nat} (h : ssh_target_matches crates s target t) (hexp : ¬ s.expired now) :
    ssh_target_matches crates s target now := by
  have hsame : eligible_ssh s now = eligible_ssh s t := by
    have ht := not_expired_of_matches h
    simp only [eligible_ssh]
    split
    · rfl
    · cases hs : s.status with
      | none => rfl
      | some status =>
        have h₁ : ¬ status.deadline ≤ t := fun hle => ht ⟨status, hs, hle⟩
        have h₂ : ¬ status.deadline ≤ now := fun hle => hexp ⟨status, hs, hle⟩
        simp only [h₁, h₂]
  rw [ssh_target_matches, hsame]
  exact h

theorem State.expired.mono {t now : Nat} (h : s.expired t) (hle : t ≤ now) : s.expired now := by
  obtain ⟨status, hs, hd⟩ := h
  exact ⟨status, hs, Nat.le_trans hd hle⟩

/-! ## Epochs -/

/-- The epoch is that of the target that is out, and odd exactly while one is. -/
structure Paired (s : State) : Prop where
  parity : s.ssh_epoch % 2 = if s.ssh_verification.isSome then 1 else 0
  epoch : ∀ v, s.ssh_verification = some v → v.target.epoch = s.ssh_epoch

theorem Paired.of_none (hnone : s.ssh_verification = none) (heven : s.ssh_epoch % 2 = 0) : Paired s := by
  constructor
  · simpa [hnone] using heven
  · simp [hnone]

theorem u64_max_eq : u64_max = 18446744073709551615 := by decide

theorem invalidate_of_le (hv : s.ssh_verification.isSome) (hle : s.ssh_epoch + 1 ≤ u64_max) :
    invalidate_ssh_verification s = (.ok (), { s with ssh_epoch := s.ssh_epoch + 1, ssh_verification := none }) := by
  rw [invalidate_ssh_verification, if_pos hv, if_pos hle]

theorem invalidate_at_limit (hv : s.ssh_verification.isSome) (hmax : u64_max ≤ s.ssh_epoch) :
    invalidate_ssh_verification s = (.error .SshEpochExhausted, s) := by
  rw [invalidate_ssh_verification, if_pos hv, if_neg (by omega)]

/-- An invalidation runs out of epochs, or below the limit leaves room for the next target. -/
theorem invalidate_spec (hp : Paired s) :
    (u64_max ≤ s.ssh_epoch ∧ invalidate_ssh_verification s = (.error .SshEpochExhausted, s)) ∨
    ∃ epoch, s.ssh_epoch ≤ epoch ∧ (s.ssh_epoch < u64_max → epoch < u64_max) ∧ epoch % 2 = 0 ∧
      invalidate_ssh_verification s = (.ok (), { s with ssh_epoch := epoch, ssh_verification := none }) := by
  have hpar := hp.parity
  have hu := u64_max_eq
  by_cases hv : s.ssh_verification.isSome
  · rw [if_pos hv] at hpar
    rcases Nat.lt_or_ge s.ssh_epoch u64_max with hlt | hge
    · exact .inr ⟨s.ssh_epoch + 1, by omega, by omega, by omega, invalidate_of_le hv hlt⟩
    · exact .inl ⟨hge, invalidate_at_limit hv hge⟩
  · rw [if_neg hv] at hpar
    refine .inr ⟨s.ssh_epoch, Nat.le_refl _, id, hpar, ?_⟩
    have hnone : s.ssh_verification = none := by simpa using hv
    rw [invalidate_ssh_verification, if_neg hv, ← hnone]

theorem issue_of_eligible {ssh : SshListenerReport}
    {identity : ReadyAgentIdentity} (hssh : eligible_ssh s now = some ssh)
    (hid : identity_from_state crates s = some identity) (hmax : s.ssh_epoch + 1 ≤ u64_max) :
    issue_ssh_target crates now s = (.ok (),
      { s with
        ssh_epoch := s.ssh_epoch + 1
        ssh_verification :=
          some ⟨⟨s.ssh_epoch + 1, identity, ssh.backend, ssh.port, ssh.host_public_key⟩, .Pending⟩ }) := by
  rw [issue_ssh_target, hssh, hid]
  exact if_pos hmax

/-- Without a target out, one is issued for the listener that is eligible, if there is one and an epoch for it. -/
theorem issue_spec (crates : Crates) (now : Nat) (heven : s.ssh_epoch % 2 = 0) (hnone : s.ssh_verification = none) :
    (u64_max ≤ s.ssh_epoch ∧ issue_ssh_target crates now s = (.error .SshEpochExhausted, s)) ∨
    ∃ s', issue_ssh_target crates now s = (.ok (), s') ∧ Paired s' ∧
      (s'.ssh_verification = none ∨
        ∃ target, s'.ssh_verification = some ⟨target, .Pending⟩ ∧ target.epoch = s.ssh_epoch + 1 ∧
          ssh_target_matches crates s' target now) := by
  cases hssh : eligible_ssh s now with
  | none =>
    exact .inr ⟨s, by rw [issue_ssh_target, hssh], .of_none hnone heven, .inl hnone⟩
  | some ssh =>
    cases hid : identity_from_state crates s with
    | none =>
      exact .inr ⟨s, by rw [issue_ssh_target, hssh, hid], .of_none hnone heven, .inl hnone⟩
    | some identity =>
      rcases Nat.lt_or_ge s.ssh_epoch u64_max with hmax | hge
      swap
      · rw [issue_ssh_target, hssh, hid]
        exact .inl ⟨hge, if_neg (by omega)⟩
      refine .inr ⟨_, issue_of_eligible hssh hid hmax, ⟨?_, ?_⟩, .inr ⟨_, rfl, rfl, (matches_iff ?_ ?_ _).2 rfl⟩⟩
      · simp only [isSome_some, if_true]
        omega
      · rintro v ⟨⟩
        rfl
      · exact hssh
      · exact hid

variable {v : SshVerification}

theorem refresh_of_matches (hv : s.ssh_verification = some v) (h : ssh_target_matches crates s v.target now) :
    refresh_ssh_verification crates now s = (.ok (), s) := by
  rw [refresh_ssh_verification, if_pos]
  rw [hv]
  exact h

theorem refresh_of_mismatch
    (hv : s.ssh_verification = some v) (h : ssh_target_matches crates s v.target now = false) :
    refresh_ssh_verification crates now s =
      (invalidate_ssh_verification >>= fun _ => issue_ssh_target crates now) s := by
  rw [refresh_ssh_verification, if_neg]
  rw [hv]
  simpa using h

/-- A refresh keeps the target that matches, or drops it and issues another, as long as there are epochs. -/
theorem refresh_spec (crates : Crates) (now : Nat) (hp : Paired s) :
    (u64_max ≤ s.ssh_epoch ∧ ∃ s', refresh_ssh_verification crates now s = (.error .SshEpochExhausted, s')) ∨
    ∃ s', refresh_ssh_verification crates now s = (.ok (), s') ∧ Paired s' ∧
      ((∃ v, s.ssh_verification = some v ∧ ssh_target_matches crates s v.target now ∧ s' = s) ∨
        s'.ssh_verification = none ∨
        ∃ target, s'.ssh_verification = some ⟨target, .Pending⟩ ∧ s.ssh_epoch < target.epoch ∧
          ssh_target_matches crates s' target now) := by
  rw [refresh_ssh_verification]
  split
  · next h =>
    cases hv : s.ssh_verification with
    | none => simp [hv] at h
    | some v =>
      rw [hv] at h
      exact .inr ⟨s, rfl, hp, .inl ⟨v, rfl, h, rfl⟩⟩
  · rcases invalidate_spec hp with ⟨hge, hinv⟩ | ⟨epoch, hle, hlt, heven, hinv⟩
    · exact .inl ⟨hge, s, Run.bind_run_of_error hinv⟩
    rcases issue_spec crates now (s := { s with ssh_epoch := epoch, ssh_verification := none }) heven rfl with
      ⟨hge, hrun⟩ | ⟨s', hrun, hp', hcases⟩
    · exact .inl ⟨Nat.not_lt.1 fun h => Nat.not_le.2 (hlt h) hge, _, (Run.bind_run_of_ok hinv).trans hrun⟩
    refine .inr ⟨s', Run.bind_run_ok.2 ⟨(), _, hinv, hrun⟩, hp', .inr ?_⟩
    rcases hcases with h | ⟨target, h, hepoch, hm⟩
    · exact .inl h
    · exact .inr ⟨target, h, by simp only [hepoch]; omega, hm⟩

/-! ## What one call can do -/

/-- What a call may do to the verification. -/
inductive SshStep (crates : Crates) (clock : Clock) (call : Call) (s s' : State) : Prop where
  | same : s'.listener = s.listener → SshStep crates clock call s s'
  | drop : s'.ssh_verification = none → SshStep crates clock call s s'
  | issue {target : SshVerificationTarget} :
      s'.ssh_verification = some ⟨target, .Pending⟩ → s.ssh_epoch < target.epoch →
      ssh_target_matches crates s' target clock.instant = true → SshStep crates clock call s s'
  | keep {v : SshVerification} :
      s.ssh_verification = some v → ¬ s.expired clock.instant → s'.ssh_verification = some v →
      ssh_target_matches crates s' v.target clock.instant = true → SshStep crates clock call s s'
  | complete {v : SshVerification} {result : Except Str Unit} {outcome : SshVerificationOutcome} :
      call = .complete_ssh_verification v.target result → (call.apply crates clock s).result = .ok () →
      s.ssh_verification = some v → ¬ s.expired clock.instant → s'.ssh_verification = some ⟨v.target, outcome⟩ →
      ssh_target_matches crates s' v.target clock.instant = true →
      (∀ deadline, outcome = .Verified deadline →
        result = .ok () ∧ deadline = clock.instant + SSH_VERIFICATION_VALIDITY) →
      SshStep crates clock call s s'

/-- Metrics of the current instance are recorded without a publication, and a status that changes only the
version is refused after an expired verification has been dropped. -/
def Unpublished (s : State) : Call → Prop
  | .observe_metrics metrics _ => ∃ current, s.identity = some current ∧ current.instance_id = metrics.agent_instance_id
  | .observe_status status _ => ∃ current next, s.identity = some current ∧ status.identity = some next ∧
      current.instance_id = next.instance_id ∧ current.boot_id = next.boot_id ∧ current.version ≠ next.version
  | _ => False

/-- What a call may do with the channel: publish the identity of the state it leaves, write nothing, or record
something that does not change the identity. -/
inductive PublishStep (crates : Crates) (now : Nat) (call : Call) (s : State) (outcome : Outcome) : Prop where
  | publishes : outcome.published = some (ready_agent_identity crates outcome.state now) →
      PublishStep crates now call s outcome
  | nothing : outcome.published = none → outcome.state = s → PublishStep crates now call s outcome
  | unpublished : outcome.published = none → Unpublished s call →
      ready_agent_identity crates outcome.state now = ready_agent_identity crates s now →
      PublishStep crates now call s outcome

/-- What a call does to the epochs, to the verification and to the channel. -/
structure CallStep (crates : Crates) (clock : Clock) (call : Call) (s : State) (outcome : Outcome) : Prop where
  paired : Paired outcome.state
  ssh : SshStep crates clock call s outcome.state
  channel : PublishStep crates clock.instant call s outcome

theorem ready_agent_identity_from_snapshot_eq (crates : Crates) (s : State) (now : Nat) :
    ready_agent_identity_from_snapshot crates (state_log_snapshot crates s now) = ready_agent_identity crates s now := by
  have hparts : (do
      let instance_id ← s.identity.bind (·.instance_id)
      let boot_id ← s.identity.bind (·.boot_id)
      let instance_id ← crates.parse_str instance_id
      let boot_id ← crates.parse_str boot_id
      some (⟨instance_id, boot_id⟩ : ReadyAgentIdentity)) = identity_from_state crates s := by
    rw [identity_from_state]
    cases s.identity with
    | none => rfl
    | some identity =>
      obtain ⟨i, v, b⟩ := identity
      cases i with
      | none => rfl
      | some i =>
        cases b with
        | none => cases hi : crates.parse_str i <;> simp [hi]
        | some b => rfl
  by_cases h : (readiness_detail crates s now).1
  · simp only [ready_agent_identity_from_snapshot, state_log_snapshot, ready_agent_identity, h, if_true, Bool.true_eq_false,
      if_false, ← hparts]
  · rw [Bool.not_eq_true] at h
    simp only [ready_agent_identity_from_snapshot, state_log_snapshot, ready_agent_identity, h, if_true, Bool.false_eq_true,
      if_false]

theorem ready_agent_identity_expired (crates : Crates) {now : Nat} (h : s.expired now) (epoch : Nat)
    (verification : Option SshVerification) :
    ready_agent_identity crates { s with ssh_epoch := epoch, ssh_verification := verification } now =
      ready_agent_identity crates s now := by
  obtain ⟨status, hs, hle⟩ := h
  simp only [ready_agent_identity, readiness_detail, hs, hle, or_true, if_true]
  rfl

/-- What an update leaves to the refresh that follows it: the verification as it was, under the receipt as it
was or one that replaced an unexpired receipt; or none. -/
structure Updated (now : Nat) (s s₁ : State) : Prop where
  paired : Paired s₁
  below : s.ssh_epoch < u64_max → s₁.ssh_epoch < u64_max
  grows : s.ssh_epoch ≤ s₁.ssh_epoch
  kept : s₁.ssh_verification = none ∨
    s₁.ssh_verification = s.ssh_verification ∧ (s₁.status = s.status ∨ ¬ s.expired now)

variable {clock : Clock}

theorem Updated.refresh (crates : Crates) (call : Call) (h : Updated clock.instant s s₁) :
    (u64_max ≤ s.ssh_epoch ∧ ∃ s', refresh_ssh_verification crates clock.instant s₁ = (.error .SshEpochExhausted, s')) ∨
    ∃ s', refresh_ssh_verification crates clock.instant s₁ = (.ok (), s') ∧ Paired s' ∧
      SshStep crates clock call s s' := by
  rcases refresh_spec crates clock.instant h.paired with ⟨hge, hrun⟩ | ⟨s', hrun, hp, hcases⟩
  · exact .inl ⟨Nat.not_lt.1 fun hlt => Nat.not_le.2 (h.below hlt) hge, hrun⟩
  refine .inr ⟨s', hrun, hp, ?_⟩
  rcases hcases with ⟨v, hv, hm, rfl⟩ | hnone | ⟨target, htarget, hlt, hm⟩
  · rcases h.kept with hnone | ⟨hsame, hstatus⟩
    · rw [hnone] at hv
      cases hv
    · refine .keep (hsame ▸ hv) ?_ hv hm
      rcases hstatus with hstatus | hfresh
      · rintro ⟨status, hs, hle⟩
        exact not_expired_of_matches hm ⟨status, hstatus.trans hs, hle⟩
      · exact hfresh
  · exact .drop hnone
  · exact .issue htarget (Nat.lt_of_le_of_lt h.grows hlt) hm

theorem Updated.of_modify (hp : Paired s) (hepoch : s₁.ssh_epoch = s.ssh_epoch) (hver : s₁.ssh_verification = s.ssh_verification)
    (hstatus : s₁.status = s.status) : Updated now s s₁ := by
  refine ⟨⟨?_, ?_⟩, hepoch ▸ id, Nat.le_of_eq hepoch.symm, .inr ⟨hver, .inl hstatus⟩⟩
  · rw [hepoch, hver]
    exact hp.parity
  · rw [hepoch, hver]
    exact hp.epoch

variable {update : Run StoreError State Unit}

theorem update_changes (hrun : update s = (.ok (), s₁)) :
    (update >>= fun _ => pure true : Run StoreError State Bool) s = (.ok true, s₁) :=
  Run.bind_run_ok.2 ⟨(), s₁, hrun, rfl⟩

theorem mutate_state {s₂ : State} {result : Except StoreError Unit} (hrun : update s = (.ok (), s₁))
    (hrefresh : refresh_ssh_verification crates clock.instant s₁ = (result, s₂)) :
    (mutate crates clock update s).state = s₂ := by
  simp only [mutate, mutate_if, update_changes hrun, hrefresh]
  cases result <;> rfl

variable {call : Call}

/-- The outcome of a call that found no epoch left. -/
def Exhausted (s : State) (outcome : Outcome) : Prop :=
  u64_max ≤ s.ssh_epoch ∧ outcome.result = .error .SshEpochExhausted

theorem mutate_step (hrun : update s = (.ok (), s₁)) (h : Updated clock.instant s s₁) :
    Exhausted s (mutate crates clock update s) ∨ CallStep crates clock call s (mutate crates clock update s) := by
  rcases h.refresh crates call with ⟨hge, s', hrefresh⟩ | ⟨s', hrefresh, hp, hstep⟩
  · exact .inl ⟨hge, by simp only [mutate, mutate_if, update_changes hrun, hrefresh]⟩
  · simp only [mutate, mutate_if, update_changes hrun, hrefresh, ready_agent_identity_from_snapshot_eq]
    exact .inr ⟨hp, hstep, .publishes rfl⟩

theorem mutate_modify_step {f : State → State} (hp : Paired s) (hepoch : (f s).ssh_epoch = s.ssh_epoch)
    (hver : (f s).ssh_verification = s.ssh_verification) (hstatus : (f s).status = s.status) :
    Exhausted s (mutate crates clock (Run.modify f) s) ∨
      CallStep crates clock call s (mutate crates clock (Run.modify f) s) :=
  mutate_step rfl (Updated.of_modify hp hepoch hver hstatus)

theorem CallStep.nothing (hp : Paired s) {result : Except StoreError Unit} :
    CallStep crates clock call s ⟨s, result, none⟩ := ⟨hp, .same rfl, .nothing rfl rfl⟩

/-- Superseding changes neither the epoch nor the verification; it fails without any change, when only the
version differs. -/
theorem supersede_spec (identity : AgentIdentity) (s : State) :
    (∃ e current, supersede identity s = (.error e, s) ∧ s.identity = some current ∧
      current.instance_id = identity.instance_id ∧ current.boot_id = identity.boot_id ∧
      current.version ≠ identity.version) ∨
      ∃ s', supersede identity s = (.ok (), s') ∧ s'.ssh_epoch = s.ssh_epoch ∧
        s'.ssh_verification = s.ssh_verification := by
  rw [supersede]
  split
  · exact .inr ⟨_, rfl, rfl, rfl⟩
  · next current hcurrent =>
    split
    · exact .inr ⟨_, rfl, rfl, rfl⟩
    · next hsame =>
      rw [not_or, not_not, not_not] at hsame
      split
      · next hversion => exact .inl ⟨_, current, rfl, hcurrent, hsame.1, hsame.2, hversion⟩
      · exact .inr ⟨_, rfl, rfl, rfl⟩

/-- The first step of `record_status`: an expired receipt takes its verification with it. -/
theorem expire_spec (hp : Paired s) (now : Nat) :
    (u64_max ≤ s.ssh_epoch ∧
      Run.when (s.expired now) invalidate_ssh_verification s = (.error .SshEpochExhausted, s)) ∨
    ∃ s₁, Run.when (s.expired now) invalidate_ssh_verification s = (.ok (), s₁) ∧ Paired s₁ ∧
      (s.ssh_epoch < u64_max → s₁.ssh_epoch < u64_max) ∧ s.ssh_epoch ≤ s₁.ssh_epoch ∧
      ((s.expired now ∧ ∃ epoch, s₁ = { s with ssh_epoch := epoch, ssh_verification := none }) ∨
        s₁ = s ∧ ¬ s.expired now) := by
  by_cases h : s.expired now
  · rw [Run.when, if_pos h]
    rcases invalidate_spec hp with hinv | ⟨epoch, hle, hlt, heven, hinv⟩
    · exact .inl hinv
    · exact .inr ⟨_, hinv, .of_none rfl heven, hlt, hle, .inl ⟨h, epoch, rfl⟩⟩
  · exact .inr ⟨s, by rw [Run.when, if_neg h]; rfl, hp, id, Nat.le_refl _, .inr ⟨rfl, h⟩⟩

theorem observe_status_of_valid {status : AgentStatus} {fresh_for : Nat}
    {identity : AgentIdentity} {report : AgentStatusReport} {observed : Observation AgentStatusReport}
    (hvalid : validate_status crates status = .ok (identity, report))
    (hobs : observation report fresh_for clock = .ok observed) (s : State) :
    observe_status crates status fresh_for clock s = mutate crates clock (record_status identity observed clock) s := by
  simp only [observe_status, hvalid, hobs]

/-- Recording a status: no epoch is left, or it is refused for its version, with an expired verification dropped, or
done. -/
theorem record_status_spec (identity : AgentIdentity) (observed : Observation AgentStatusReport) (clock : Clock)
    (hp : Paired s) :
    (u64_max ≤ s.ssh_epoch ∧ record_status identity observed clock s = (.error .SshEpochExhausted, s)) ∨
    (∃ e s₁ current, record_status identity observed clock s = (.error e, s₁) ∧ Paired s₁ ∧
      s.identity = some current ∧ current.instance_id = identity.instance_id ∧ current.boot_id = identity.boot_id ∧
      current.version ≠ identity.version ∧
      (s₁ = s ∨ s.expired clock.instant ∧ ∃ epoch, s₁ = { s with ssh_epoch := epoch, ssh_verification := none })) ∨
    ∃ s₁, record_status identity observed clock s = (.ok (), s₁) ∧ Updated clock.instant s s₁ := by
  rcases expire_spec hp clock.instant with ⟨hge, hexpire⟩ | ⟨s₁, hexpire, hp₁, hlt₁, hle₁, hcases⟩
  · refine .inl ⟨hge, ?_⟩
    show (Run.when (s.expired clock.instant) invalidate_ssh_verification >>= _) s = _
    exact Run.bind_run_of_error hexpire
  refine .inr ?_
  have hidentity : s₁.identity = s.identity := by
    rcases hcases with ⟨-, epoch, rfl⟩ | ⟨rfl, -⟩ <;> rfl
  rcases supersede_spec identity s₁ with ⟨e, current, hfail, hcurrent, hsame⟩ | ⟨s₂, hok, hepoch, hver⟩
  · refine .inl ⟨e, s₁, current, ?_, hp₁, hidentity ▸ hcurrent, hsame.1, hsame.2.1, hsame.2.2, ?_⟩
    · show (Run.when (s.expired clock.instant) invalidate_ssh_verification >>= _) s = _
      simp only [Bind.bind, hexpire, hfail]
    · rcases hcases with ⟨hexp, hdropped⟩ | ⟨rfl, -⟩
      · exact .inr ⟨hexp, hdropped⟩
      · exact .inl rfl
  · refine .inr ⟨{ s₂ with
        identity := some identity
        connection := { s₂.connection with
          state := some .Responsive, last_success_at := some observed.received_at, message := none }
        status := some observed }, ?_, ⟨?_, ?_⟩, ?_, ?_, ?_⟩
    · show (Run.when (s.expired clock.instant) invalidate_ssh_verification >>= _) s = _
      simp only [Bind.bind, hexpire, hok, Run.modify]
    · simpa only [hepoch, hver] using hp₁.parity
    · simpa only [hepoch, hver] using hp₁.epoch
    · simpa only [hepoch] using hlt₁
    · simpa only [hepoch] using hle₁
    · simp only [hver]
      rcases hcases with ⟨-, epoch, rfl⟩ | ⟨rfl, hfresh⟩
      · exact .inl rfl
      · exact .inr ⟨rfl, .inr hfresh⟩

theorem mutate_of_error
    {e : StoreError} (h : update s = (.error e, s₁)) : mutate crates clock update s = ⟨s₁, .error e, none⟩ := by
  have hupdate : (update >>= fun _ => pure true : Run StoreError State Bool) s = (.error e, s₁) :=
    Run.bind_run_of_error h
  simp only [mutate, mutate_if, hupdate]

theorem validate_status_identity {status : AgentStatus} {identity : AgentIdentity}
    {report : AgentStatusReport} (h : validate_status crates status = .ok (identity, report)) :
    status.identity = some identity := by
  rw [validate_status] at h
  split at h
  · cases h
  · next current hcurrent =>
    obtain ⟨-, -, h⟩ := bind_eq_ok.1 h
    split at h
    · cases h
    · obtain ⟨-, -, h⟩ := bind_eq_ok.1 h
      cases h
      exact hcurrent

theorem observe_status_step (crates : Crates) (status : AgentStatus) (fresh_for : Nat) (clock : Clock)
    (hp : Paired s) :
    Exhausted s (observe_status crates status fresh_for clock s) ∨
    CallStep crates clock (.observe_status status fresh_for) s (observe_status crates status fresh_for clock s) := by
  rw [observe_status]
  split
  · exact .inr (.nothing hp)
  · next identity report hvalid =>
    split
    · exact .inr (.nothing hp)
    · next observed _ =>
      rcases record_status_spec identity observed clock hp with
        ⟨hge, hrun⟩ | ⟨e, s₁, current, hrun, hp₁, hcurrent, hinst, hboot, hversion, hcases⟩ | ⟨s₁, hrun, hupdated⟩
      · exact .inl ⟨hge, by rw [mutate_of_error hrun]⟩
      · rw [mutate_of_error hrun]
        refine .inr ?_
        rcases hcases with rfl | ⟨hexp, epoch, rfl⟩
        · exact .nothing hp
        · exact ⟨hp₁, .drop rfl, .unpublished rfl
            ⟨current, identity, hcurrent, validate_status_identity hvalid, hinst, hboot, hversion⟩
            (ready_agent_identity_expired crates hexp epoch none)⟩
      · exact mutate_step hrun hupdated

theorem validate_metrics_id {metrics : AgentMetrics} {id : Str}
    (h : validate_metrics crates metrics = .ok id) : metrics.agent_instance_id = some id := by
  obtain ⟨value, hvalue, h⟩ := bind_eq_ok.1 h
  have hid : metrics.agent_instance_id = some value := by
    unfold required at hvalue
    split at hvalue
    · cases hvalue
    · next v hv =>
      obtain ⟨-, -, hvalue⟩ := bind_eq_ok.1 hvalue
      cases hvalue
      exact hv
  split at h
  · cases h
  · obtain ⟨-, -, h⟩ := bind_eq_ok.1 h
    cases h
    exact hid

theorem observe_metrics_step (crates : Crates) (metrics : AgentMetrics) (fresh_for : Nat) (clock : Clock)
    (hp : Paired s) :
    Exhausted s (observe_metrics crates metrics fresh_for clock s) ∨
    CallStep crates clock (.observe_metrics metrics fresh_for) s (observe_metrics crates metrics fresh_for clock s) := by
  rw [observe_metrics]
  split
  · exact .inr (.nothing hp)
  next id hvalid =>
  split
  · exact .inr (.nothing hp)
  split
  · exact .inr (.nothing hp)
  next current hcurrent =>
  split
  · have hcleared : Paired { s with identity := none, status := none, metrics := none, agent_services := [] } :=
      ⟨hp.parity, hp.epoch⟩
    rcases invalidate_spec hcleared with ⟨hge, hinv⟩ | ⟨epoch, -, -, heven, hinv⟩
    · exact .inl ⟨hge, by simp only [hinv]⟩
    simp only [hinv, ready_agent_identity_from_snapshot_eq]
    exact .inr ⟨.of_none rfl heven, .drop rfl, .publishes rfl⟩
  · next hid =>
    rw [not_not] at hid
    exact .inr ⟨⟨hp.parity, hp.epoch⟩, .same rfl,
      .unpublished rfl ⟨current, hcurrent, hid.trans (validate_metrics_id hvalid).symm⟩ rfl⟩

theorem checked_add_eq_some {time duration sum : Nat} (h : checked_add time duration = some sum) :
    sum = time + duration := by
  rw [checked_add] at h
  split at h
  · exact (some.inj h).symm
  · cases h

theorem verified_outcome {result : Except Str Unit} {now deadline : Nat}
    (h : verification_outcome result now = .ok (.Verified deadline)) :
    result = .ok () ∧ deadline = now + SSH_VERIFICATION_VALIDITY := by
  unfold verification_outcome at h
  -- The sum is kept folded: it is a large numeral plus a variable.
  generalize hadd : checked_add now SSH_VERIFICATION_VALIDITY = sum? at h
  cases result with
  | error message => simp at h
  | ok u =>
    cases sum? with
    | none => simp at h
    | some sum =>
      simp only [Except.ok.injEq, SshVerificationOutcome.Verified.injEq] at h
      exact ⟨rfl, h.symm.trans (checked_add_eq_some hadd)⟩

theorem awaits_of_matches (hv : s.ssh_verification = some v) (h : ssh_target_matches crates s v.target now) :
    awaits crates v.target now s := by
  simp [awaits, hv, h]

theorem complete_of_awaits {result : Except Str Unit}
    {outcome : SshVerificationOutcome} {s' : State} (haw : awaits crates target clock.instant s)
    (hout : verification_outcome result clock.instant = .ok outcome)
    (hrefresh : refresh_ssh_verification crates clock.instant { s with ssh_verification := some ⟨target, outcome⟩ } =
      (.ok (), s')) :
    (complete_ssh_verification crates target result clock s).state = s' ∧
      (complete_ssh_verification crates target result clock s).result = .ok () := by
  simp only [complete_ssh_verification, mutate_if, haw, if_true, hout, hrefresh, and_self]

theorem complete_step (crates : Crates) (target : SshVerificationTarget) (result : Except Str Unit) (clock : Clock)
    (hp : Paired s) :
    CallStep crates clock (.complete_ssh_verification target result) s
      (complete_ssh_verification crates target result clock s) := by
  by_cases hawaits : awaits crates target clock.instant s
  · simp only [awaits, Bool.and_eq_true, Option.any_eq_true, decide_eq_true_eq] at hawaits
    obtain ⟨⟨v, hv, rfl⟩, hm⟩ := hawaits
    have haw := awaits_of_matches hv hm
    cases hout : verification_outcome result clock.instant with
    | error e =>
      simp only [complete_ssh_verification, mutate_if, haw, if_true, hout]
      exact .nothing hp
    | ok outcome =>
      -- The refresh after a completion finds the target it has just seen.
      have hrefresh := refresh_of_matches (s := { s with ssh_verification := some ⟨v.target, outcome⟩ }) rfl hm
      have hdone : complete_ssh_verification crates v.target result clock s =
          ⟨{ s with ssh_verification := some ⟨v.target, outcome⟩ }, .ok (),
            some (ready_agent_identity crates { s with ssh_verification := some ⟨v.target, outcome⟩ } clock.instant)⟩ := by
        simp only [complete_ssh_verification, mutate_if, haw, if_true, hout, hrefresh,
          ready_agent_identity_from_snapshot_eq]
      have hres : ((Call.complete_ssh_verification v.target result).apply crates clock s).result = .ok () :=
        congrArg Outcome.result hdone
      rw [hdone]
      refine ⟨⟨?_, ?_⟩, .complete rfl hres hv (not_expired_of_matches hm) rfl hm ?_, .publishes rfl⟩
      · simpa [hv] using hp.parity
      · rintro _ ⟨⟩
        exact hp.epoch v hv
      · rintro deadline rfl
        exact verified_outcome hout
  · simp only [complete_ssh_verification, mutate_if, hawaits]
    exact .nothing hp

/-- Every call that does not run out of epochs does one of these things. -/
theorem apply_step (crates : Crates) (clock : Clock) (call : Call) (hp : Paired s) :
    Exhausted s (call.apply crates clock s) ∨ CallStep crates clock call s (call.apply crates clock s) := by
  cases call with
  | set_vm_state vm_state message =>
    rw [Call.apply, set_vm_state]
    exact mutate_modify_step hp rfl rfl rfl
  | set_host_memory_reclaim report =>
    rw [Call.apply, set_host_memory_reclaim]
    exact mutate_modify_step hp rfl rfl rfl
  | agent_connecting | agent_failure => refine mutate_modify_step hp ?_ ?_ ?_ <;> split <;> rfl
  | observe_status status fresh_for => exact observe_status_step crates status fresh_for clock hp
  | observe_metrics metrics fresh_for => exact observe_metrics_step crates metrics fresh_for clock hp
  | set_forward_service identity serving =>
    rw [Call.apply, set_forward_service]
    refine mutate_modify_step hp ?_ ?_ ?_ <;>
    · split
      · rfl
      · split <;> rfl
  | complete_ssh_verification target result => exact .inr (complete_step crates target result clock hp)

/-! ## Runs -/

/-- No call of the history has returned that the epochs have run out. -/
def NeverExhausted (crates : Crates) (s₀ : State) (history : List (Clock × Call)) : Prop :=
  ∀ c earlier, c :: earlier <:+ history →
    (c.2.apply crates c.1 (after crates s₀ earlier)).result ≠ .error .SshEpochExhausted

/-- What a stored verification says about the history: its receipt has run out, or its target was issued and
has matched since, and was verified when it says so. -/
def Accounted (crates : Crates) (s₀ : State) (history : List (Clock × Call)) (v : SshVerification) : Prop :=
  (∃ c ∈ history, (after crates s₀ history).expired c.1.instant) ∨
    (Issued crates s₀ v.target history ∧
      ∀ deadline, v.outcome = .Verified deadline →
        ∃ t, VerifiedAt crates s₀ v.target t history ∧ deadline = t + SSH_VERIFICATION_VALIDITY)

variable {s₀ : State}

theorem Issued.matches {history : List (Clock × Call)} (h : Issued crates s₀ target history) :
    ∃ t, ssh_target_matches crates (after crates s₀ history) target t := by
  cases h with
  | issue _ _ hm => exact ⟨_, hm⟩
  | keep _ hm => exact ⟨_, hm⟩

/-- A call carries the account of the verification on. -/
theorem accounted_step {c : Clock × Call} {earlier : List (Clock × Call)}
    (hclock : ∀ c' ∈ earlier, c'.1.instant ≤ c.1.instant) (hp : Paired (after crates s₀ earlier))
    (hacc : ∀ v, (after crates s₀ earlier).ssh_verification = some v → Accounted crates s₀ earlier v)
    (hstep : SshStep crates c.1 c.2 (after crates s₀ earlier) (after crates s₀ (c :: earlier)))
    (v : SshVerification) (hv : (after crates s₀ (c :: earlier)).ssh_verification = some v) :
    Accounted crates s₀ (c :: earlier) v := by
  -- A receipt that had run out earlier has run out now.
  have hfresh {v : SshVerification} (hv : (after crates s₀ earlier).ssh_verification = some v)
      (hexp : ¬ (after crates s₀ earlier).expired c.1.instant) :
      Issued crates s₀ v.target earlier ∧ ∀ deadline, v.outcome = .Verified deadline →
        ∃ t, VerifiedAt crates s₀ v.target t earlier ∧ deadline = t + SSH_VERIFICATION_VALIDITY := by
    rcases hacc v hv with ⟨c', hc', hexp'⟩ | h
    · exact absurd (hexp'.mono (hclock c' hc')) hexp
    · exact h
  have hkeep {v : SshVerification} (hv : (after crates s₀ earlier).ssh_verification = some v)
      (hexp : ¬ (after crates s₀ earlier).expired c.1.instant)
      (hm : ssh_target_matches crates (after crates s₀ (c :: earlier)) v.target c.1.instant) :
      Accounted crates s₀ (c :: earlier) v := by
    obtain ⟨hissued, hverified⟩ := hfresh hv hexp
    refine .inr ⟨.keep hissued hm, fun deadline hd => ?_⟩
    obtain ⟨t, ht, rfl⟩ := hverified deadline hd
    exact ⟨t, .keep ht hm, rfl⟩
  cases hstep with
  | same hsame =>
    have hver : (after crates s₀ earlier).ssh_verification = some v := by
      have := congrArg (fun l => l.2.2.2.2.2.2.2) hsame
      exact this.symm.trans hv
    have hstatus : (after crates s₀ (c :: earlier)).status = (after crates s₀ earlier).status :=
      congrArg (fun l => l.2.2.2.2.2.1) hsame
    by_cases hexp : (after crates s₀ earlier).expired c.1.instant
    · obtain ⟨status, hs, hle⟩ := hexp
      exact .inl ⟨c, mem_cons_self, status, hstatus.trans hs, hle⟩
    · obtain ⟨t, ht⟩ := (hfresh hver hexp).1.matches
      exact hkeep hver hexp ((matches_congr crates hsame _ _).trans (matches_later ht hexp))
  | drop hnone =>
    rw [hnone] at hv
    cases hv
  | issue htarget hlt hm =>
    rw [htarget] at hv
    cases hv
    refine .inr ⟨.issue ?_ htarget hm, by rintro d ⟨⟩⟩
    -- The epoch is new, so the target is.
    intro hold
    obtain ⟨v', hv', heq⟩ := map_eq_some_iff.1 hold
    have hepoch := hp.epoch v' hv'
    rw [heq] at hepoch
    exact Nat.ne_of_gt hlt hepoch
  | keep hold hexp hnew hm =>
    rw [hnew] at hv
    cases hv
    exact hkeep hold hexp hm
  | @complete old result outcome hcall hres hold hexp hnew hm hout =>
    rw [hnew] at hv
    cases hv
    obtain ⟨hissued, -⟩ := hfresh hold hexp
    refine .inr ⟨.keep hissued hm, fun deadline hd => ?_⟩
    obtain ⟨rfl, hdeadline⟩ := hout deadline hd
    obtain ⟨clock, call⟩ := c
    subst hcall
    refine ⟨clock.instant, .complete hissued rfl hres ?_ hm, hdeadline⟩
    rw [hnew, ← hdeadline]
    exact congrArg (fun o => some (SshVerification.mk old.target o)) hd

/-- As long as there are epochs every stored verification is accounted for. -/
theorem run_accounted (hs₀ : s₀.ssh_verification = none) (heven : s₀.ssh_epoch % 2 = 0)
    {history : List (Clock × Call)} (hclock : history.Pairwise (fun later earlier => earlier.1.instant ≤ later.1.instant))
    (hlasts : NeverExhausted crates s₀ history) :
    Paired (after crates s₀ history) ∧
      ∀ v, (after crates s₀ history).ssh_verification = some v → Accounted crates s₀ history v := by
  induction history with
  | nil =>
    refine ⟨.of_none hs₀ heven, ?_⟩
    simp [after, hs₀]
  | cons c earlier ih =>
    obtain ⟨hle, hclock⟩ := pairwise_cons.1 hclock
    obtain ⟨hp, hacc⟩ := ih hclock fun c' e h => hlasts c' e (h.trans (suffix_cons c earlier))
    obtain ⟨hp', hstep, -⟩ := (apply_step crates c.1 c.2 hp).resolve_left fun h => hlasts c earlier suffix_rfl h.2
    exact ⟨hp', accounted_step hle hp hacc hstep⟩

/-! ## Reports -/

/-- The store reports a verified key exchange, or a ready machine whose agent advertises an SSH listener. -/
def ReportsSsh (crates : Crates) (s : State) (now : Nat) : Prop :=
  ∃ agent observed ssh, (project_status crates s now).agent = some agent ∧ agent.status = some observed ∧
    observed.report.ssh = some ssh ∧ (ssh.kex_verified ∨ (project_status crates s now).ready)

theorem try_from_ready {value : Int} (h : try_from value = some .Ready) :
    value = Ready.as_i32 := by
  grind [try_from, as_i32]

/-- An agent that is ready with an SSH listener has its key exchange verified. -/
theorem kex_verified_of_ready {status : Observation AgentStatusReport}
    (hen : s.agent_enabled) (hs : s.status = some status) (hssh : status.value.ssh.isSome)
    (h : (readiness_detail crates s now).1) :
    (effective_status crates s status.value now).kex_verified := by
  by_contra hkex
  simp only [Bool.not_eq_true] at hkex
  have hstarting : (effective_status crates s status.value now).state ≠ some AgentStatusState.Ready.as_i32 := by
    simp only [effective_status] at hkex ⊢
    split
    · simp [as_i32]
    · next hcond =>
      rw [if_neg hcond] at hkex
      exact fun hready => hcond ⟨hready, hssh, hkex⟩
  cases hvm : s.vm_state with
  | Running =>
    simp only [readiness_detail, hvm, hen, hs, Bool.true_eq_false, if_false] at h
    split at h
    · cases h
    · cases hstate : (effective_status crates s status.value now).state with
      | none => simp [hstate] at h
      | some value =>
        rw [hstate] at h hstarting
        cases htry : try_from value with
        | none => simp [htry] at h
        | some state =>
          cases state with
          | Ready => exact hstarting (congrArg some (try_from_ready htry))
          | _ => simp [htry] at h
  | _ => simp [readiness_detail, hvm] at h

/-- What a report of SSH readiness rests on. -/
theorem reports_ssh (h : ReportsSsh crates s now) :
    ∃ v deadline, s.ssh_verification = some v ∧ ssh_target_matches crates s v.target now ∧
      v.outcome = .Verified deadline ∧ now < deadline := by
  obtain ⟨agent, observed, ssh, hagent, hobserved, hssh, hrep⟩ := h
  simp only [project_status] at hagent hrep
  split at hagent
  · next hen =>
    cases hagent
    obtain ⟨status, hs, rfl⟩ := map_eq_some_iff.1 hobserved
    obtain ⟨ssh₀, hssh₀, rfl⟩ := map_eq_some_iff.1 hssh
    have hkex : (effective_status crates s status.value now).kex_verified := by
      rcases hrep with hkex | hready
      · exact hkex
      · exact kex_verified_of_ready hen hs (by simp [hssh₀]) hready
    have hany : (current_verification crates s now).any (fun v => v.outcome.valid_at now) := by
      simp only [effective_status] at hkex
      split at hkex <;> exact hkex
    obtain ⟨v, hv, hvalid⟩ := (Option.any_eq_true _ _).1 hany
    obtain ⟨hv, hm⟩ := filter_eq_some_iff.1 hv
    cases hout : v.outcome with
    | Verified deadline =>
      rw [hout] at hvalid
      exact ⟨v, deadline, hv, hm, hout, by simpa [SshVerificationOutcome.valid_at] using hvalid⟩
    | _ => simp [hout, SshVerificationOutcome.valid_at] at hvalid
  · cases hagent

/-- In every run in which no call has returned that the epochs have run out: whenever the store reports a verified
key exchange, or a ready machine whose agent advertises an SSH listener, a target of the current epoch was
verified within the validity window, and it has matched after every call since it was issued and matches now. -/
theorem ssh_readiness_verified (crates : Crates) (agent_enabled : Bool) (start : Clock)
    (history : List (Clock × Call)) (hclock : history.Pairwise (fun later earlier => earlier.1.instant ≤ later.1.instant))
    (hlasts : NeverExhausted crates (InstanceStore.new agent_enabled start) history) (now : Nat)
    (hnow : ∀ c ∈ history, c.1.instant ≤ now)
    (h : ReportsSsh crates (after crates (InstanceStore.new agent_enabled start) history) now) :
    ∃ target t, VerifiedAt crates (InstanceStore.new agent_enabled start) target t history ∧
      now < t + SSH_VERIFICATION_VALIDITY ∧
      target.epoch = (after crates (InstanceStore.new agent_enabled start) history).ssh_epoch ∧
      ssh_target_matches crates (after crates (InstanceStore.new agent_enabled start) history) target now = true := by
  obtain ⟨v, deadline, hv, hm, hout, hlt⟩ := reports_ssh h
  obtain ⟨hp, hacc⟩ := run_accounted rfl rfl hclock hlasts
  rcases hacc v hv with ⟨c, hc, hexp⟩ | ⟨-, hverified⟩
  · exact absurd (hexp.mono (hnow c hc)) (not_expired_of_matches hm)
  · obtain ⟨t, ht, rfl⟩ := hverified deadline hout
    exact ⟨v.target, t, ht, hlt, hp.epoch v hv, hm⟩

/-! ## One agent, two host keys -/

def agentId : Str := "00000000-0000-4000-8000-000000000001".toList

def keyStem : Str := "ssh-ed25519 AAAAC3NzaC1lZDI1NTE5AAAAIAABAgMEBQYHCAkKCwwNDg8QERITFBUWFxgZGhscHR4".toList

def keyA : Str := keyStem ++ ['f']

def keyB : Str := keyStem ++ ['e']

def twoKeys : Crates where
  parse_str s := if s = agentId then some 0x00000000000040008000000000000001#128 else none
  hyphenated _ := agentId
  from_openssh s := s = keyA || s = keyB

def theAgent : AgentIdentity := ⟨some agentId, some "1".toList, some agentId⟩

def theIdentity : ReadyAgentIdentity := ⟨0x00000000000040008000000000000001#128, 0x00000000000040008000000000000001#128⟩

def readyReport (key : Str) : AgentStatusReport :=
  ⟨some ⟨1, 0⟩, some 2, none, none, some ⟨"native".toList, 22, key, true, false⟩, none⟩

def readyStatus (key : Str) : AgentStatus := ⟨some theAgent, some (readyReport key)⟩

def targetOf (epoch : Nat) (key : Str) : SshVerificationTarget := ⟨epoch, theIdentity, "native".toList, 22, key⟩

def origin : Clock := ⟨0, 0⟩

theorem neverExhausted_cons {c : Clock × Call} {earlier : List (Clock × Call)}
    (h : (c.2.apply crates c.1 (after crates s₀ earlier)).result ≠ .error .SshEpochExhausted)
    (hb : NeverExhausted crates s₀ earlier) : NeverExhausted crates s₀ (c :: earlier) := by
  intro c' e hsuffix
  rcases suffix_cons_iff.1 hsuffix with heq | hsuffix
  · cases heq
    exact h
  · exact hb c' e hsuffix

theorem neverExhausted_nil (crates : Crates) (s₀ : State) : NeverExhausted crates s₀ [] := by
  intro c e h
  simp at h

def verifiedRun : List (Clock × Call) :=
  [(origin, .complete_ssh_verification (targetOf 1 keyA) (.ok ())), (origin, .observe_status (readyStatus keyA) 1),
    (origin, .set_vm_state .Running [])]

theorem verified_run_backed :
    ∃ target t, VerifiedAt twoKeys (InstanceStore.new true origin) target t verifiedRun ∧
      0 < t + SSH_VERIFICATION_VALIDITY ∧
      target.epoch = (after twoKeys (InstanceStore.new true origin) verifiedRun).ssh_epoch ∧
      ssh_target_matches twoKeys (after twoKeys (InstanceStore.new true origin) verifiedRun) target 0 = true :=
  ssh_readiness_verified twoKeys true origin verifiedRun (by decide)
    (neverExhausted_cons nofun (neverExhausted_cons nofun (neverExhausted_cons nofun (neverExhausted_nil _ _)))) 0
    (by decide) ⟨_, _, _, rfl, rfl, rfl, .inl (by decide)⟩

end Silo.Vmm
