import OpenGsn.RelayHub.Solvency
import OpenGsn.StakeManager.Solvency

/-! The stake that a hub has verified stays in reach of the hub for the unstake delay. -/

namespace OpenGsn.RelayHub

open Solidity Runs
open StakeManager (StakeInfo Step step)

/-- Nothing becomes due before `deadline`, whatever is scheduled after `now`. -/
structure Locked (relayManager relayHub : Address) (now deadline : ℕ) (s : StakeManager.State) : Prop where
  unstakeDelay : deadline ≤ now + (s.stakes relayManager).unstakeDelay
  withdrawTime : (s.stakes relayManager).withdrawTime = 0 ∨ deadline ≤ (s.stakes relayManager).withdrawTime
  removalTime : (s.authorizedHubs relayManager relayHub).removalTime = uint256Max ∨
    deadline ≤ (s.authorizedHubs relayManager relayHub).removalTime

theorem locked_aged (relayManager relayHub : Address) (now later deadline : ℕ) (s : StakeManager.State)
    (ordered : now ≤ later) (locked : Locked relayManager relayHub now deadline s) :
    Locked relayManager relayHub later deadline s :=
  ⟨locked.unstakeDelay.trans (Nat.add_le_add_right ordered _), locked.withdrawTime, locked.removalTime⟩

theorem locked_not_withdrawn (this relayManager relayHub : Address) (deadline : ℕ) (env : Env)
    (sender : Address) (s next : StakeManager.State) (early : env.timestamp < deadline)
    (locked : Locked relayManager relayHub env.timestamp deadline s) :
    StakeManager.withdrawStake this env sender relayManager s ≠ .ok next := by
  intro withdrawn
  obtain ⟨_, scheduled, due, _⟩ := (StakeManager.withdrawStake_ok _ _ _ _ _ _).mp withdrawn
  rcases locked.withdrawTime with absent | far
  · omega
  · omega

theorem infoStep_locked (maxUnstakeDelay : ℕ) (config : StakeManager.AbandonedRelayServerConfig)
    (env : Env) (sender : Address) (call : StakeManager.Call) (info next : StakeInfo) (deadline : ℕ)
    (moved : StakeManager.InfoStep maxUnstakeDelay config env sender call info next)
    (delay : deadline ≤ env.timestamp + info.unstakeDelay)
    (withdrawTime : info.withdrawTime = 0 ∨ deadline ≤ info.withdrawTime) :
    deadline ≤ env.timestamp + next.unstakeDelay ∧
      (next.withdrawTime = 0 ∨ deadline ≤ next.withdrawTime) := by
  cases moved with
  | staked _ _ _ _ _ _ longer _ _ _ => exact ⟨by simp only; omega, withdrawTime⟩
  | unlocked => exact ⟨delay, .inr delay⟩
  | withdrawn => exact ⟨delay, .inl rfl⟩
  | escheated => exact ⟨delay, .inl rfl⟩
  | _ => exact ⟨delay, withdrawTime⟩

theorem step_locked (this relayManager relayHub : Address) (deadline : ℕ) (input : Step)
    (s next : StakeManager.State) (early : input.time < deadline)
    (locked : Locked relayManager relayHub input.time deadline s)
    (taken : step this input s = .ok next) :
    Locked relayManager relayHub input.time deadline next := by
  cases input with
  | call env sender call =>
      simp only [step, bind_ok] at taken
      obtain ⟨_, _, executed⟩ := taken
      have frame := StakeManager.execute_frame this env sender call s next executed
      have moved := StakeManager.execute_info this env sender call s next executed relayManager
      have entry : deadline ≤ env.timestamp + (next.stakes relayManager).unstakeDelay ∧
          ((next.stakes relayManager).withdrawTime = 0 ∨
            deadline ≤ (next.stakes relayManager).withdrawTime) := by
        split at moved
        · exact infoStep_locked _ _ env sender call _ _ deadline moved locked.unstakeDelay
            locked.withdrawTime
        · rw [moved]
          exact ⟨locked.unstakeDelay, locked.withdrawTime⟩
      refine ⟨entry.1, entry.2, ?_⟩
      rcases frame.removalTime relayManager relayHub with same | renewed | ⟨_, ended⟩
      · rw [same]
        exact locked.removalTime
      · exact .inl renewed
      · right
        rw [ended]
        exact locked.unstakeDelay
  | tokenActivity env token ledger =>
      simp only [step, bind_ok, Except.ok.injEq] at taken
      obtain ⟨_, _, rfl⟩ := taken
      exact ⟨locked.unstakeDelay, locked.withdrawTime, locked.removalTime⟩

theorem run_locked (this relayManager relayHub : Address) (deadline now : ℕ) (steps : List Step)
    (s : StakeManager.State) (timed : Timed Step.time now steps)
    (early : latest Step.time now steps < deadline) (locked : Locked relayManager relayHub now deadline s) :
    Locked relayManager relayHub (latest Step.time now steps) deadline (after (step this) steps s) := by
  refine timed_invariant (step this) Step.time
    (fun time state => time < deadline → Locked relayManager relayHub time deadline state) ?_ ?_
    steps now s timed (fun _ => locked) early
  · intro first later state ordered held soon
    exact locked_aged _ _ _ _ _ _ ordered (held (ordered.trans_lt soon))
  · intro input state next held taken soon
    exact step_locked this relayManager relayHub deadline input state next soon (held soon) taken

theorem verifyRelayManagerStaked_ok (addresses : Immutables) (relayManager : Address) (w : World) :
    verifyRelayManagerStaked addresses relayManager w = .ok () ↔
      let info := w.stakeManager.stakes relayManager
      let minimumStake := w.hub.minimumStakePerToken info.token
      info.token ≠ 0 ∧ minimumStake ≤ info.stake ∧ minimumStake ≠ 0 ∧
        w.hub.config.minimumUnstakeDelay.val ≤ info.unstakeDelay ∧ info.withdrawTime = 0 ∧
        (w.stakeManager.authorizedHubs relayManager addresses.this).removalTime = uint256Max := by
  simp only [verifyRelayManagerStaked, bind_ok, require_ok]
  simp [StakeManager.getStakeInfo]

theorem verified_locked (addresses : Immutables) (relayManager : Address) (now : ℕ) (w : World)
    (staked : verifyRelayManagerStaked addresses relayManager w = .ok ()) :
    let info := w.stakeManager.stakes relayManager
    info.token ≠ 0 ∧ 0 < info.stake ∧
      Locked relayManager addresses.this now (now + info.unstakeDelay) w.stakeManager := by
  obtain ⟨token, enough, positive, _, unscheduled, authorized⟩ :=
    (verifyRelayManagerStaked_ok addresses relayManager w).mp staked
  exact ⟨token, by omega, Nat.le_refl _, .inl unscheduled, .inl authorized⟩

theorem run_present (this token : Address) (steps : List Step) (s : StakeManager.State)
    (present : (s.tokens token).isSome) : ((after (step this) steps s).tokens token).isSome := by
  refine after_invariant (step this) (fun state => (state.tokens token).isSome) ?_ steps s present
  intro input state next held taken
  cases input with
  | call env sender call =>
      simp only [step, bind_ok] at taken
      obtain ⟨_, _, executed⟩ := taken
      exact (StakeManager.execute_frame this env sender call state next executed).tokens token held
  | tokenActivity env other ledger =>
      simp only [step, bind_ok, Except.ok.injEq] at taken
      obtain ⟨_, _, rfl⟩ := taken
      by_cases same : token = other
      · simp [same]
      · simpa [Function.update_of_ne same] using held

/-- The transfers of a token that accepts everything fail for want of balance only. -/
theorem safeTransfer_accepted (tokens : Tokens) (token source target : Address) (amount : ℕ)
    (ledger : Erc20) (present : tokens token = some ledger)
    (standard : ∀ source target amount, ledger.accepts source target amount = true)
    (covered : amount ≤ ledger.balances source) :
    ∃ next moved, safeTransfer tokens token source target amount = .ok next ∧
      next token = some moved ∧ (∀ source target amount, moved.accepts source target amount = true) ∧
      ledger.balances source ≤ moved.balances source + amount := by
  refine ⟨_, _, (safeTransfer_ok _ _ _ _ _ _).mpr ⟨ledger, _, present,
    (Erc20.transfer_ok _ _ _ _ _).mpr ⟨covered, standard source target amount, rfl⟩, rfl⟩,
    Function.update_self _ _ _, standard, ?_⟩
  exact Erc20.moved_from ledger.balances source target amount covered

/-- The steps that lower a stake are withdrawals, penalties and escheatments. -/
theorem stake_reduced (this : Address) (input : Step) (s next : StakeManager.State)
    (taken : step this input s = .ok next) (relayManager : Address)
    (reduced : (next.stakes relayManager).stake < (s.stakes relayManager).stake) :
    ∃ env sender call, input = .call env sender call ∧
      (call = .withdrawStake relayManager ∨
        (∃ beneficiary amount, call = .penalizeRelayManager relayManager beneficiary amount) ∨
        call = .escheatAbandonedRelayStake relayManager) := by
  cases input with
  | call env sender call =>
      simp only [step, bind_ok] at taken
      obtain ⟨_, _, executed⟩ := taken
      have moved := StakeManager.execute_info this env sender call s next executed relayManager
      refine ⟨env, sender, call, rfl, ?_⟩
      split at moved
      · rename_i about
        generalize s.stakes relayManager = info at *
        generalize next.stakes relayManager = after at *
        cases moved with
        | withdrawn target => exact .inl (congrArg _ (Option.some.inj about))
        | penalized target beneficiary amount =>
            exact .inr (.inl ⟨beneficiary, amount, by rw [Option.some.inj about]⟩)
        | escheated target => exact .inr (.inr (congrArg _ (Option.some.inj about)))
        | staked => simp only at reduced; omega
        | _ => exact absurd reduced (lt_irrefl _)
      · rw [moved] at reduced
        exact absurd reduced (lt_irrefl _)
  | tokenActivity env token ledger =>
      simp only [step, bind_ok, Except.ok.injEq] at taken
      obtain ⟨_, _, rfl⟩ := taken
      exact absurd reduced (lt_irrefl _)

theorem penalizeRelayManager_succeeds (this relayHub relayManager beneficiary : Address) (env : Env)
    (amount deadline : ℕ) (s : StakeManager.State) (ledger : Erc20) (early : env.timestamp < deadline)
    (locked : Locked relayManager relayHub env.timestamp deadline s)
    (covered : amount ≤ (s.stakes relayManager).stake)
    (present : s.tokens (s.stakes relayManager).token = some ledger)
    (standard : ∀ source target amount, ledger.accepts source target amount = true)
    (held : (s.stakes relayManager).stake ≤ ledger.balances this) :
    ∃ next, StakeManager.penalizeRelayManager this env relayHub relayManager beneficiary amount s =
      .ok next := by
  have unexpired : env.timestamp < (s.authorizedHubs relayManager relayHub).removalTime := by
    rcases locked.removalTime with authorized | far
    · rw [authorized]
      exact env.timestamp_lt
    · omega
  obtain ⟨burned, rest, burn, kept, accepting, lost⟩ := safeTransfer_accepted s.tokens
    (s.stakes relayManager).token this s.burnAddress (amount / 2) ledger present standard (by omega)
  obtain ⟨rewarded, _, reward, _⟩ := safeTransfer_accepted burned
    (s.stakes relayManager).token this beneficiary (amount - amount / 2) rest kept accepting (by omega)
  exact ⟨_, (StakeManager.penalizeRelayManager_ok _ _ _ _ _ _ _ _).mpr
    ⟨by omega, unexpired, covered, burned, rewarded, burn, reward, rfl⟩⟩

theorem stake_le_held (this : Address) (maxUnstakeDelay : ℕ) (s : StakeManager.State)
    (consistent : StakeManager.Consistent this maxUnstakeDelay s) (relayManager : Address) :
    (s.stakes relayManager).stake ≤
      StakeManager.held s.tokens (s.stakes relayManager).token this := by
  have covered := consistent.solvent.covered (s.stakes relayManager).token
  have entry := Ledger.entry_le_total (fun manager =>
    StakeManager.contribution (s.stakes relayManager).token (s.stakes manager)) relayManager
  simp only [StakeManager.contribution, if_true] at entry
  exact entry.trans ((Nat.le_add_right _ _).trans covered)

/-- From a successful check by the hub at `now` until the unstake delay has passed, no
withdrawal succeeds, and the hub can penalize up to all of the stake that is there. -/
theorem stake_locked_for_delay (addresses : Immutables) (deployer : Address)
    (maxUnstakeDelay abandonmentDelay escheatmentDelay : ℕ) (burnAddress devAddress : Address)
    (tokens : Tokens) (start : StakeManager.State)
    (deployed : StakeManager.deploy deployer maxUnstakeDelay abandonmentDelay escheatmentDelay
      burnAddress devAddress tokens = .ok start)
    (before : List Step) (relayManager : Address) (w : World)
    (run : w.stakeManager = after (step addresses.stakeManager) before start) (now : ℕ)
    (staked : verifyRelayManagerStaked addresses relayManager w = .ok ()) (later : List Step)
    (timed : Timed Step.time now later) (env : Env)
    (ordered : latest Step.time now later ≤ env.timestamp)
    (within : env.timestamp < now + (w.stakeManager.stakes relayManager).unstakeDelay) :
    let state := fun steps => after (step addresses.stakeManager) steps w.stakeManager
    (∀ front input back next, later = front ++ input :: back →
      step addresses.stakeManager input (state front) = .ok next →
      (∀ time owner, input ≠ .call time owner (.withdrawStake relayManager)) ∧
      ((next.stakes relayManager).stake < ((state front).stakes relayManager).stake →
        ∃ time sender call, input = .call time sender call ∧
          ((∃ beneficiary amount, call = .penalizeRelayManager relayManager beneficiary amount) ∨
            call = .escheatAbandonedRelayStake relayManager))) ∧
    ((∀ ledger, (state later).tokens ((state later).stakes relayManager).token = some ledger →
        ∀ source target amount, ledger.accepts source target amount = true) →
      ∀ beneficiary amount, amount ≤ ((state later).stakes relayManager).stake →
        ∃ next, StakeManager.penalizeRelayManager addresses.stakeManager env addresses.this relayManager
          beneficiary amount (state later) = .ok next) := by
  intro state
  obtain ⟨staking, funded, locked⟩ := verified_locked addresses relayManager now w staked
  constructor
  · intro front input back next split taken
    subst split
    obtain ⟨earlier, soon, rest⟩ := (timed_append Step.time now front (input :: back)).mp timed
    have reached := timed_le_latest Step.time input.time back rest
    rw [latest_append] at ordered
    have early : input.time < now + (w.stakeManager.stakes relayManager).unstakeDelay :=
      (reached.trans ordered).trans_lt within
    have held := locked_aged _ _ _ input.time _ _ soon
      (run_locked addresses.stakeManager relayManager addresses.this _ now front w.stakeManager earlier
        (soon.trans_lt early) locked)
    have notWithdrawn : ∀ time owner, input ≠ .call time owner (.withdrawStake relayManager) := by
      rintro time owner rfl
      simp only [step, bind_ok] at taken
      obtain ⟨_, _, withdrawn⟩ := taken
      exact locked_not_withdrawn _ relayManager addresses.this _ time owner _ next early held withdrawn
    refine ⟨notWithdrawn, fun reduced => ?_⟩
    obtain ⟨time, sender, call, rfl, cause⟩ := stake_reduced _ input _ next taken relayManager reduced
    rcases cause with rfl | rest
    · exact absurd rfl (notWithdrawn time sender)
    · exact ⟨time, sender, call, rfl, rest⟩
  · intro standard beneficiary amount covered
    have consistent : StakeManager.Consistent addresses.stakeManager maxUnstakeDelay w.stakeManager := by
      rw [run]
      exact StakeManager.run_consistent _ _ before start
        (StakeManager.deploy_consistent _ deployer _ _ _ _ _ _ _ deployed)
    have final := StakeManager.run_consistent _ _ later w.stakeManager consistent
    have grown := StakeManager.run_grows addresses.stakeManager later w.stakeManager relayManager
    have present : ((state later).tokens ((state later).stakes relayManager).token).isSome := by
      have backed := stake_le_held _ _ _ consistent relayManager
      rw [grown.token staking]
      apply run_present
      cases listed : w.stakeManager.tokens (w.stakeManager.stakes relayManager).token with
      | some ledger => rfl
      | none =>
          simp only [StakeManager.held, listed] at backed
          omega
    obtain ⟨ledger, present⟩ := Option.isSome_iff_exists.mp present
    have lockedNow := locked_aged _ _ _ env.timestamp _ _ ordered
      (run_locked addresses.stakeManager relayManager addresses.this _ now later w.stakeManager timed
        (ordered.trans_lt within) locked)
    have backed := stake_le_held _ _ _ final relayManager
    simp only [StakeManager.held] at backed
    rw [present] at backed
    exact penalizeRelayManager_succeeds _ addresses.this relayManager beneficiary env amount _ _ ledger within
      lockedNow covered present (standard ledger present) backed

def envAt (timestamp : ℕ) (early : timestamp < uint256Max) : Env :=
  { Solidity.sampleEnv with origin := 2, baseFee := 0, timestamp := timestamp, timestamp_lt := early }

def stakingSteps : List Step :=
  [.call (envAt 900 (by decide)) 31 (.setRelayManagerOwner 2),
    .call (envAt 900 (by decide)) 2 (.stakeForRelayManager 4 31 15 50),
    .call (envAt 900 (by decide)) 2 (.authorizeHubByOwner 31 100)]

def leavingSteps : List Step :=
  [.call (envAt 1001 (by decide)) 2 (.unlockStake 31),
    .call (envAt 1002 (by decide)) 2 (.unauthorizeHubByOwner 31 100)]

def stakedWorld : World where
  hub := { sampleDeployed with minimumStakePerToken := fun _ => 10 }
  ether := 0
  received := 0
  paidOut := 0
  stakeManager := after (step 101) stakingSteps StakeManager.sampleStart
  forwarders := fun _ => Forwarder.deploy sampleCrypto

theorem stake_locked_for_delay_leaving :
    ∃ next, StakeManager.penalizeRelayManager 101 (envAt 1014 (by decide)) 100 31 8 50
      (after (step 101) leavingSteps stakedWorld.stakeManager) = .ok next := by
  refine (stake_locked_for_delay sampleAddresses 1 100 500 500 9 11 StakeManager.sampleTokens
    StakeManager.sampleStart rfl stakingSteps 31 stakedWorld rfl 1000 (by decide +kernel) leavingSteps
    (by simp [leavingSteps, Timed, Step.time, StakeManager.Step.time, envAt])
    (envAt 1014 (by decide)) (by decide) (by decide +kernel)).2 ?_ 8 50 (by decide +kernel)
  intro ledger present source target amount
  have standard : ((after (step 101) leavingSteps stakedWorld.stakeManager).tokens 4).map
      (fun token => token.accepts source target amount) = some true := rfl
  have token : ((after (step 101) leavingSteps stakedWorld.stakeManager).stakes 31).token = 4 := by
    decide +kernel
  have found : (after (step 101) leavingSteps stakedWorld.stakeManager).tokens 4 = some ledger := by
    rw [← token]
    exact present
  simpa [found] using standard

end OpenGsn.RelayHub
