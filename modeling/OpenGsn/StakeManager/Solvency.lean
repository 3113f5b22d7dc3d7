import OpenGsn.StakeManager.Steps
import OpenGsn.Ledger
import Mathlib.Data.Fintype.Basic

/-! The stakes add up to the tokens pulled in and not yet paid out. -/

namespace OpenGsn.StakeManager

open Solidity Runs

def contribution (token : Address) (info : StakeInfo) : ℕ :=
  if info.token = token then info.stake else 0

noncomputable def stakedIn (s : State) (token : Address) : ℕ :=
  Ledger.total (fun relayManager => contribution token (s.stakes relayManager))

theorem stakedIn_setStake (s : State) (relayManager : Address) (info : StakeInfo) (token : Address) :
    stakedIn (s.setStake relayManager info) token + contribution token (s.stakes relayManager) =
      stakedIn s token + contribution token info := by
  have moved := Ledger.total_update (contribution token ∘ s.stakes) relayManager (contribution token info)
  rw [← Function.comp_update] at moved
  exact moved

def extra (token : Address) (slack : ℕ) (other : Address) : ℕ := if other = token then slack else 0

/-- The books in the middle of a call: `slack` of `token` has been pulled in without being
staked, or is no longer staked and not yet paid out. -/
structure Solvent (this token : Address) (slack : ℕ) (s : State) : Prop where
  balanced : ∀ other, stakedIn s other + s.paid other + extra token slack other = s.pulled other
  covered : ∀ other, stakedIn s other + extra token slack other ≤ held s.tokens other this

theorem held_update (tokens : Tokens) (token other holder : Address) (ledger : Erc20) :
    held (Function.update tokens token (some ledger)) other holder =
      if other = token then ledger.balances holder else held tokens other holder := by
  unfold held
  by_cases same : other = token
  · subst same
    simp
  · simp [same]

theorem safeTransfer_debits (tokens next : Tokens) (token source target : Address) (amount : ℕ)
    (taken : safeTransfer tokens token source target amount = .ok next) (other : Address) :
    held tokens other source ≤ held next other source + extra token amount other := by
  obtain ⟨ledger, moved, present, transferred, rfl⟩ := (safeTransfer_ok _ _ _ _ _ _).mp taken
  obtain ⟨covered, _, rfl⟩ := (Erc20.transfer_ok _ _ _ _ _).mp transferred
  rw [held_update]
  by_cases same : other = token
  · subst same
    have kept := Erc20.moved_from ledger.balances source target amount covered
    simpa [extra, held, present] using kept
  · simp [extra, same]

theorem safeTransfer_debited (tokens next : Tokens) (token source target : Address) (amount : ℕ)
    (distinct : source ≠ target)
    (taken : safeTransfer tokens token source target amount = .ok next) (other : Address) :
    held next other source + extra token amount other = held tokens other source := by
  obtain ⟨ledger, moved, present, transferred, rfl⟩ := (safeTransfer_ok _ _ _ _ _ _).mp taken
  obtain ⟨covered, _, rfl⟩ := (Erc20.transfer_ok _ _ _ _ _).mp transferred
  rw [held_update]
  by_cases same : other = token
  · subst same
    have left := Erc20.moved_out ledger.balances source target amount distinct
    simp only [extra, held, present, if_pos, left]
    omega
  · simp [extra, same]

theorem safeTransfer_credits (tokens next : Tokens) (token source target : Address) (amount : ℕ)
    (distinct : source ≠ target)
    (taken : safeTransfer tokens token source target amount = .ok next) (other : Address) :
    held next other target = held tokens other target + extra token amount other := by
  obtain ⟨ledger, moved, present, transferred, rfl⟩ := (safeTransfer_ok _ _ _ _ _ _).mp taken
  obtain ⟨_, _, rfl⟩ := (Erc20.transfer_ok _ _ _ _ _).mp transferred
  rw [held_update]
  by_cases same : other = token
  · subst same
    have gained := Erc20.moved_into ledger.balances source target amount distinct
    simpa [extra, held, present] using gained
  · simp [extra, same]

section Calls

variable {this token : Address} {slack : ℕ} {s next : State}

theorem solvent_pull (sender : Address) (amount : ℕ) (outside : sender ≠ this) (tokens : Tokens)
    (solvent : Solvent this token slack s)
    (taken : safeTransfer s.tokens token sender this amount = .ok tokens) :
    Solvent this token (slack + amount) (s.recordPull tokens token amount) := by
  constructor
  · intro other
    have before := solvent.balanced other
    simp only [State.recordPull_pulled, State.recordPull_paid, Function.update_apply]
    unfold extra at before ⊢
    split at before <;> (simp_all [stakedIn]; try omega)
  · intro other
    have before := solvent.covered other
    have gained := safeTransfer_credits _ _ _ _ _ _ outside taken other
    simp only [State.recordPull_tokens, gained]
    unfold extra at before ⊢
    split at before <;> (simp_all [stakedIn]; try omega)

theorem solvent_pay (receiver : Address) (amount : ℕ) (tokens : Tokens)
    (solvent : Solvent this token (slack + amount) s)
    (taken : safeTransfer s.tokens token this receiver amount = .ok tokens) :
    Solvent this token slack (s.recordPay tokens token amount) := by
  constructor
  · intro other
    have before := solvent.balanced other
    simp only [State.recordPay_pulled, State.recordPay_paid, Function.update_apply]
    unfold extra at before ⊢
    split at before <;> (simp_all [stakedIn]; try omega)
  · intro other
    have before := solvent.covered other
    have lost := safeTransfer_debits _ _ _ _ _ _ taken other
    simp only [State.recordPay_tokens]
    unfold extra at before lost ⊢
    split at before <;> (simp_all [stakedIn]; try omega)

theorem solvent_setStake (relayManager : Address) (info : StakeInfo) (rest : ℕ)
    (solvent : Solvent this token slack s)
    (shifted : ∀ other, contribution other (s.stakes relayManager) + extra token slack other =
      contribution other info + extra token rest other) :
    Solvent this token rest (s.setStake relayManager info) := by
  constructor
  · intro other
    have before := solvent.balanced other
    have moved := stakedIn_setStake s relayManager info other
    have shift := shifted other
    simp only [State.setStake_pulled, State.setStake_paid]
    omega
  · intro other
    have before := solvent.covered other
    have moved := stakedIn_setStake s relayManager info other
    have shift := shifted other
    simp only [State.setStake_tokens]
    omega

theorem solvent_emit (event : Event) (solvent : Solvent this token slack s) :
    Solvent this token slack (s.emit event) := ⟨solvent.balanced, solvent.covered⟩

theorem solvent_token (other : Address) (solvent : Solvent this token 0 s) :
    Solvent this other 0 s := by
  constructor
  · intro account
    simpa [extra] using solvent.balanced account
  · intro account
    simpa [extra] using solvent.covered account

theorem solvent_rewrite (relayManager : Address) (info : StakeInfo)
    (solvent : Solvent this token slack s) (sameStake : info.stake = (s.stakes relayManager).stake)
    (sameToken : info.token = (s.stakes relayManager).token) :
    Solvent this token slack (s.setStake relayManager info) :=
  solvent_setStake relayManager info slack solvent
    (fun other => by simp [contribution, sameStake, sameToken])

/-- Taking `amount` off an entry leaves it in the contract until it is paid out. -/
theorem solvent_release (relayManager : Address) (info : StakeInfo) (amount : ℕ)
    (solvent : Solvent this token 0 s)
    (taken : info.stake + amount = (s.stakes relayManager).stake)
    (sameToken : info.token = (s.stakes relayManager).token) :
    Solvent this info.token amount (s.setStake relayManager info) := by
  refine solvent_setStake relayManager info amount (solvent_token info.token solvent) ?_
  intro other
  by_cases same : other = info.token
  · subst same
    simp [contribution, extra, sameToken, taken]
  · have apart : info.token ≠ other := fun equal => same equal.symm
    simp [contribution, extra, same, apart, ← sameToken]

end Calls

def Sound (maxUnstakeDelay : ℕ) (info : StakeInfo) : Prop :=
  (info.token = 0 → info.stake = 0) ∧ info.unstakeDelay ≤ maxUnstakeDelay

theorem infoStep_sound (maxUnstakeDelay : ℕ) (config : AbandonedRelayServerConfig) (env : Env)
    (sender : Address) (call : Call) (info next : StakeInfo)
    (moved : InfoStep maxUnstakeDelay config env sender call info next)
    (sound : Sound maxUnstakeDelay info) : Sound maxUnstakeDelay next := by
  obtain ⟨tokenless, bounded⟩ := sound
  cases moved with
  | staked _ _ _ _ _ _ _ within given _ => exact ⟨fun absent => absurd absent given, within⟩
  | withdrawn => exact ⟨fun _ => rfl, bounded⟩
  | penalized => exact ⟨fun absent => by simp [tokenless absent], bounded⟩
  | escheated => exact ⟨fun _ => rfl, bounded⟩
  | _ => exact ⟨tokenless, bounded⟩

theorem funded_shift (info next : StakeInfo) (amount : ℕ) (stake : next.stake = info.stake + amount)
    (given : next.token ≠ 0) (kept : info.token = 0 ∨ info.token = next.token)
    (tokenless : info.token = 0 → info.stake = 0) (other : Address) :
    contribution other info + extra next.token (0 + amount) other =
      contribution other next + extra next.token 0 other := by
  by_cases same : other = next.token
  · subst same
    rcases kept with fresh | kept
    · simp [contribution, extra, fresh, tokenless fresh, Ne.symm given, stake]
    · simp [contribution, extra, kept, stake]
  · have apart : next.token ≠ other := fun equal => same equal.symm
    rcases kept with fresh | kept
    · simp [contribution, extra, same, apart, tokenless fresh]
    · simp [contribution, extra, same, apart, kept]

theorem execute_solvent (this : Address) (env : Env) (sender : Address) (call : Call) (s next : State)
    (outside : sender ≠ this) (sound : ∀ relayManager, Sound s.maxUnstakeDelay (s.stakes relayManager))
    (solvent : Solvent this 0 0 s) (taken : execute this env sender call s = .ok next) :
    Solvent this 0 0 next := by
  cases execute_effect this env sender call s next taken with
  | administered => exact ⟨solvent.balanced, solvent.covered⟩
  | authorized => exact ⟨solvent.balanced, solvent.covered⟩
  | unauthorized target relayHub next _ removed =>
      simp only [unauthorizeHub, bind_ok, Except.ok.injEq] at removed
      rcases removed with ⟨_, _, _, _, rfl⟩
      exact ⟨solvent.balanced, solvent.covered⟩
  | rewritten target info event _ _ stake token =>
      exact solvent_emit event (solvent_rewrite target info solvent stake token)
  | funded target info amount tokens event _ _ stake given kept pulled =>
      have paidIn := solvent_pull sender amount outside tokens (solvent_token info.token solvent) pulled
      apply solvent_emit
      apply solvent_token
      apply solvent_setStake target info 0 paidIn
      exact funded_shift (s.stakes target) info amount stake given kept (sound target).1
  | paidOut target receiver info amount tokens event _ _ stake token paid =>
      have released := solvent_release target info (0 + amount) solvent (by omega) token
      exact solvent_emit event (solvent_token 0 (solvent_pay receiver amount tokens released paid))
  | paidTwice target first second info amount rest halfway tokens event _ _ stake token paid paidRest =>
      have released := solvent_release target info (0 + rest + amount) solvent (by omega) token
      have halfPaid := solvent_pay first amount halfway released paid
      exact solvent_emit event (solvent_token 0 (solvent_pay second rest tokens halfPaid paidRest))

structure Consistent (this : Address) (maxUnstakeDelay : ℕ) (s : State) : Prop where
  delay : s.maxUnstakeDelay = maxUnstakeDelay
  sound : ∀ relayManager, Sound maxUnstakeDelay (s.stakes relayManager)
  solvent : Solvent this 0 0 s

theorem step_consistent (this : Address) (maxUnstakeDelay : ℕ) (input : Step) (s next : State)
    (consistent : Consistent this maxUnstakeDelay s) (taken : step this input s = .ok next) :
    Consistent this maxUnstakeDelay next := by
  obtain ⟨rfl, sound, solvent⟩ := consistent
  cases input with
  | call env sender call =>
      simp only [step, bind_ok, require_ok] at taken
      obtain ⟨_, outside, executed⟩ := taken
      refine ⟨(execute_frame _ _ _ _ _ _ executed).maxUnstakeDelay, ?_,
        execute_solvent this env sender call s next outside sound solvent executed⟩
      intro relayManager
      have moved := execute_info this env sender call s next executed relayManager
      split at moved
      · exact infoStep_sound _ _ _ _ _ _ _ moved (sound relayManager)
      · rw [moved]
        exact sound relayManager
  | tokenActivity env token ledger =>
      simp only [step, bind_ok, require_ok, Except.ok.injEq] at taken
      obtain ⟨_, kept, rfl⟩ := taken
      refine ⟨rfl, sound, solvent.balanced, ?_⟩
      intro other
      have before := solvent.covered other
      rw [held_update]
      split
      · rename_i same
        subst same
        exact Nat.le_trans before kept
      · exact before

theorem deploy_consistent (this sender : Address)
    (maxUnstakeDelay abandonmentDelay escheatmentDelay : ℕ) (burnAddress devAddress : Address)
    (tokens : Tokens) (start : State)
    (deployed : deploy sender maxUnstakeDelay abandonmentDelay escheatmentDelay burnAddress devAddress
      tokens = .ok start) : Consistent this maxUnstakeDelay start := by
  simp only [deploy, bind_ok, require_ok, Except.ok.injEq] at deployed
  obtain ⟨_, _, rfl⟩ := deployed
  have empty : ∀ other : Address, contribution other default = 0 := by
    intro other
    simp [contribution, default]
  refine ⟨rfl, fun _ => ⟨fun _ => rfl, Nat.zero_le _⟩, ?_, ?_⟩
  · intro other
    simp [stakedIn, empty, Ledger.total_zero, extra]
  · intro other
    simp [stakedIn, empty, Ledger.total_zero, extra]

theorem run_consistent (this : Address) (maxUnstakeDelay : ℕ) (steps : List Step) (s : State)
    (consistent : Consistent this maxUnstakeDelay s) :
    Consistent this maxUnstakeDelay (after (step this) steps s) :=
  after_invariant (step this) _ (fun input before next held taken =>
    step_consistent this maxUnstakeDelay input before next held taken) steps s consistent

structure Grows (first second : StakeInfo) : Prop where
  owner : first.owner ≠ 0 → second.owner = first.owner
  token : first.token ≠ 0 → second.token = first.token
  unstakeDelay : first.unstakeDelay ≤ second.unstakeDelay

theorem grows_refl (info : StakeInfo) : Grows info info :=
  ⟨fun _ => rfl, fun _ => rfl, Nat.le_refl _⟩

theorem grows_trans (first second third : StakeInfo) (early : Grows first second)
    (late : Grows second third) : Grows first third := by
  refine ⟨?_, ?_, Nat.le_trans early.unstakeDelay late.unstakeDelay⟩
  · intro owned
    have same := early.owner owned
    rw [late.owner (same ▸ owned), same]
  · intro staked
    have same := early.token staked
    rw [late.token (same ▸ staked), same]

theorem infoStep_grows (maxUnstakeDelay : ℕ) (config : AbandonedRelayServerConfig) (env : Env)
    (sender : Address) (call : Call) (info next : StakeInfo)
    (moved : InfoStep maxUnstakeDelay config env sender call info next) : Grows info next := by
  cases moved with
  | owned _ _ _ fresh => exact ⟨fun owned => absurd fresh owned, fun _ => rfl, Nat.le_refl _⟩
  | staked _ _ _ _ _ _ longer _ _ kept =>
      exact ⟨fun _ => rfl, fun staked => (kept.resolve_left staked).symm, longer⟩
  | _ => exact ⟨fun _ => rfl, fun _ => rfl, Nat.le_refl _⟩

theorem run_grows (this : Address) (steps : List Step) (s : State) (relayManager : Address) :
    Grows (s.stakes relayManager) ((after (step this) steps s).stakes relayManager) := by
  refine after_kept (step this) (fun first second => Grows (first.stakes relayManager)
    (second.stakes relayManager)) (fun _ => grows_refl _) (fun _ _ _ => grows_trans _ _ _) ?_ steps s
  intro input before next taken
  cases input with
  | call env sender call =>
      simp only [step, bind_ok, require_ok] at taken
      obtain ⟨_, _, executed⟩ := taken
      have moved := execute_info this env sender call before next executed relayManager
      split at moved
      · exact infoStep_grows _ _ _ _ _ _ _ moved
      · rw [moved]
        exact grows_refl _
  | tokenActivity env token ledger =>
      simp only [step, bind_ok, require_ok, Except.ok.injEq] at taken
      obtain ⟨_, _, rfl⟩ := taken
      exact grows_refl _

theorem update_extra (flows : Address → ℕ) (token other : Address) (amount : ℕ) :
    Function.update flows token (flows token + amount) other = flows other + extra token amount other := by
  by_cases same : other = token
  · subst same
    simp [extra]
  · simp [extra, same]

/-- The counters change by what the contract has more or less of a token, unless it is paid itself. -/
theorem execute_flows (this : Address) (env : Env) (sender : Address) (call : Call) (s next : State)
    (outside : sender ≠ this) (away : this ∉ call.receivers sender s)
    (taken : execute this env sender call s = .ok next) (token : Address) :
    held next.tokens token this + next.paid token + s.pulled token =
      held s.tokens token this + s.paid token + next.pulled token := by
  have other : ∀ receiver ∈ call.receivers sender s, this ≠ receiver := by
    rintro receiver known rfl
    exact away known
  cases execute_effect this env sender call s next taken with
  | administered => rfl
  | authorized => rfl
  | unauthorized target relayHub next about removed =>
      simp only [unauthorizeHub, bind_ok, Except.ok.injEq] at removed
      obtain ⟨_, _, _, _, rfl⟩ := removed
      rfl
  | rewritten => rfl
  | funded target info amount tokens event about moved stake given kept pulled =>
      have gained := safeTransfer_credits _ _ _ _ _ _ outside pulled token
      simp only [State.emit_tokens, State.emit_paid, State.emit_pulled, State.setStake_tokens, State.setStake_paid,
        State.setStake_pulled, State.recordPull_tokens, State.recordPull_paid, State.recordPull_pulled, gained,
        update_extra]
      omega
  | paidOut target receiver info amount tokens event about moved stake same paid known =>
      have lost := safeTransfer_debited _ _ _ _ _ _ (other receiver known) paid token
      simp only [State.emit_tokens, State.emit_paid, State.emit_pulled, State.setStake_paid, State.setStake_pulled,
        State.recordPay_tokens, State.recordPay_paid, State.recordPay_pulled, update_extra]
      omega
  | paidTwice target first second info amount rest halfway tokens event about moved stake same paid paidRest known =>
      have lost := safeTransfer_debited _ _ _ _ _ _ (other first known.1) paid token
      have lostRest := safeTransfer_debited _ _ _ _ _ _ (other second known.2) paidRest token
      have counted : (((s.setStake target info).recordPay halfway info.token amount).recordPay tokens
          info.token rest).paid token = s.paid token + extra info.token amount token + extra info.token rest token := by
        rw [State.recordPay_paid, update_extra, State.recordPay_paid, update_extra, State.setStake_paid]
      simp only [State.emit_tokens, State.emit_paid, State.emit_pulled, State.recordPay_tokens,
        State.recordPay_pulled, State.setStake_pulled, counted]
      omega

/-- In every reachable state the stakes made in a token are what calls of the contract pulled
in of it and did not pay out, and whatever happens later, an entry keeps its owner and its
token and never shortens its delay. What a call counts as pulled and paid is what it changes the
balance of the contract by, unless it pays the contract itself. -/
theorem stakes_balance_token_flows (this sender : Address)
    (maxUnstakeDelay abandonmentDelay escheatmentDelay : ℕ) (burnAddress devAddress : Address)
    (tokens : Tokens) (start : State)
    (deployed : deploy sender maxUnstakeDelay abandonmentDelay escheatmentDelay burnAddress devAddress
      tokens = .ok start) (steps : List Step) :
    let s := after (step this) steps start
    (∀ token, stakedIn s token + s.paid token = s.pulled token) ∧
    (∀ token, stakedIn s token ≤ held s.tokens token this) ∧
    (∀ relayManager, (s.stakes relayManager).unstakeDelay ≤ maxUnstakeDelay) ∧
    (∀ more relayManager,
      Grows (s.stakes relayManager) ((after (step this) more s).stakes relayManager)) ∧
    ∀ env sender call next, step this (.call env sender call) s = .ok next → this ∉ call.receivers sender s →
      ∀ token, held next.tokens token this + next.paid token + s.pulled token =
        held s.tokens token this + s.paid token + next.pulled token := by
  intro s
  have consistent := run_consistent this maxUnstakeDelay steps start
    (deploy_consistent this sender _ _ _ _ _ _ _ deployed)
  refine ⟨?_, ?_, fun relayManager => (consistent.sound relayManager).2,
    fun more relayManager => run_grows this more s relayManager, ?_⟩
  · intro token
    simpa [extra] using consistent.solvent.balanced token
  · intro token
    simpa [extra] using consistent.solvent.covered token
  · intro env sender call next taken away
    simp only [step, bind_ok, require_ok] at taken
    obtain ⟨_, outside, executed⟩ := taken
    exact execute_flows this env sender call s next outside away executed

def sampleToken : Erc20 := ⟨fun holder => if holder = 2 then 100 else 0, fun _ _ _ => true⟩

def sampleTokens : Tokens := fun token => if token = 4 then some sampleToken else none

def sampleEnv : Env := { Solidity.sampleEnv with origin := 2 }

def sampleSteps : List Step :=
  [.call sampleEnv 3 (.setRelayManagerOwner 2),
    .call sampleEnv 2 (.stakeForRelayManager 4 3 15 50),
    .call sampleEnv 2 (.authorizeHubByOwner 3 6),
    .call sampleEnv 6 (.penalizeRelayManager 3 8 21)]

def sampleStart : State where
  owner := 1
  maxUnstakeDelay := 100
  abandonedRelayServerConfig := ⟨11, 500, 500⟩
  burnAddress := 9
  stakes := fun _ => default
  authorizedHubs := fun _ _ => ⟨0⟩
  tokens := sampleTokens
  pulled := fun _ => 0
  paid := fun _ => 0
  events := [.burnAddressSet 9, .devAddressSet 11]

theorem stakes_balance_token_flows_penalized :
    let s := after (step 5) sampleSteps sampleStart
    s.pulled 4 = 50 ∧ s.paid 4 = 21 ∧ stakedIn s 4 + s.paid 4 = s.pulled 4 :=
  ⟨by decide +kernel, by decide +kernel,
    (stakes_balance_token_flows 5 1 100 500 500 9 11 sampleTokens sampleStart rfl sampleSteps).1 4⟩

end OpenGsn.StakeManager
