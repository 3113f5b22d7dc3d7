import OpenGsn.StakeManager.Model

/-! What a successful call does, said once for all invariants. -/

namespace OpenGsn.StakeManager

open Solidity

section Specs

variable (this : Address) (env : Env) (sender : Address) (s next : State)

@[simp] theorem pull_ok (token : Address) (amount : ℕ) :
    pull this token sender amount s = .ok next ↔ ∃ tokens,
      safeTransfer s.tokens token sender this amount = .ok tokens ∧
        s.recordPull tokens token amount = next := by
  simp [pull]

@[simp] theorem pay_ok (token receiver : Address) (amount : ℕ) :
    pay this token receiver amount s = .ok next ↔ ∃ tokens,
      safeTransfer s.tokens token this receiver amount = .ok tokens ∧
        s.recordPay tokens token amount = next := by
  simp [pay]

theorem stakeForRelayManager_ok (token relayManager : Address) (unstakeDelay amount : ℕ) :
    stakeForRelayManager this sender token relayManager unstakeDelay amount s = .ok next ↔
      let info := s.stakes relayManager
      info.owner = sender ∧ info.unstakeDelay ≤ unstakeDelay ∧ unstakeDelay ≤ s.maxUnstakeDelay ∧
        token ≠ 0 ∧ (info.token = 0 ∨ info.token = token) ∧ ∃ tokens,
          safeTransfer s.tokens token sender this amount = .ok tokens ∧
          info.stake + amount < 2 ^ 256 ∧
          (((s.recordPull tokens token amount).setStake relayManager
            { info with token, stake := info.stake + amount, unstakeDelay }).emit
              (.stakeAdded relayManager info.owner token (info.stake + amount) unstakeDelay)) = next := by
  simp [stakeForRelayManager, relayOwnerOnly]

theorem withdrawStake_ok (relayManager : Address) :
    withdrawStake this env sender relayManager s = .ok next ↔
      let info := s.stakes relayManager
      info.owner = sender ∧ 0 < info.withdrawTime ∧ info.withdrawTime ≤ env.timestamp ∧ ∃ tokens,
        safeTransfer s.tokens info.token this sender info.stake = .ok tokens ∧
        (((s.setStake relayManager { info with stake := 0, withdrawTime := 0 }).recordPay tokens
          info.token info.stake).emit
            (.stakeWithdrawn relayManager sender info.token info.stake)) = next := by
  simp [withdrawStake, relayOwnerOnly]

theorem penalizeRelayManager_ok (relayManager beneficiary : Address) (amount : ℕ) :
    penalizeRelayManager this env sender relayManager beneficiary amount s = .ok next ↔
      let info := s.stakes relayManager
      let removalTime := (s.authorizedHubs relayManager sender).removalTime
      removalTime ≠ 0 ∧ env.timestamp < removalTime ∧ amount ≤ info.stake ∧ ∃ burned rewarded,
        safeTransfer s.tokens info.token this s.burnAddress (amount / 2) = .ok burned ∧
        safeTransfer burned info.token this beneficiary (amount - amount / 2) = .ok rewarded ∧
        ((((s.setStake relayManager { info with stake := info.stake - amount }).recordPay burned
          info.token (amount / 2)).recordPay rewarded info.token (amount - amount / 2)).emit
            (.stakePenalized relayManager beneficiary info.token (amount - amount / 2))) = next := by
  simp [penalizeRelayManager]

theorem escheatAbandonedRelayStake_ok (relayManager : Address) :
    escheatAbandonedRelayStake this env sender relayManager s = .ok next ↔
      let info := s.stakes relayManager
      s.owner = sender ∧ isRelayEscheatable env relayManager s = .ok true ∧ ∃ tokens,
        safeTransfer s.tokens info.token this s.abandonedRelayServerConfig.devAddress info.stake =
          .ok tokens ∧
        (((s.setStake relayManager { info with stake := 0, withdrawTime := 0 }).recordPay tokens
          info.token info.stake).emit
            (.abandonedRelayManagerStakeEscheated relayManager sender info.token info.stake)) = next := by
  simp [escheatAbandonedRelayStake, onlyOwner]

end Specs

def Call.relayManager (sender : Address) : Call → Option Address
  | .setRelayManagerOwner _ => some sender
  | .stakeForRelayManager _ relayManager _ _ => some relayManager
  | .unlockStake relayManager => some relayManager
  | .withdrawStake relayManager => some relayManager
  | .penalizeRelayManager relayManager _ _ => some relayManager
  | .markRelayAbandoned relayManager => some relayManager
  | .escheatAbandonedRelayStake relayManager => some relayManager
  | .updateRelayKeepaliveTime relayManager => some relayManager
  | _ => none

inductive InfoStep (maxUnstakeDelay : ℕ) (config : AbandonedRelayServerConfig) (env : Env)
    (sender : Address) : Call → StakeInfo → StakeInfo → Prop
  | owned (owner : Address) (info : StakeInfo) (given : owner ≠ 0) (fresh : info.owner = 0) :
      InfoStep maxUnstakeDelay config env sender (.setRelayManagerOwner owner) info { info with owner }
  | staked (token relayManager : Address) (unstakeDelay amount : ℕ) (info : StakeInfo)
      (owner : info.owner = sender) (longer : info.unstakeDelay ≤ unstakeDelay)
      (bounded : unstakeDelay ≤ maxUnstakeDelay) (given : token ≠ 0)
      (kept : info.token = 0 ∨ info.token = token) :
      InfoStep maxUnstakeDelay config env sender
        (.stakeForRelayManager token relayManager unstakeDelay amount) info
        { info with token, stake := info.stake + amount, unstakeDelay }
  | unlocked (relayManager : Address) (info : StakeInfo) (owner : info.owner = sender)
      (locked : info.withdrawTime = 0) :
      InfoStep maxUnstakeDelay config env sender (.unlockStake relayManager) info
        { info with withdrawTime := env.timestamp + info.unstakeDelay }
  | withdrawn (relayManager : Address) (info : StakeInfo) (owner : info.owner = sender)
      (scheduled : 0 < info.withdrawTime) (due : info.withdrawTime ≤ env.timestamp) :
      InfoStep maxUnstakeDelay config env sender (.withdrawStake relayManager) info
        { info with stake := 0, withdrawTime := 0 }
  | penalized (relayManager beneficiary : Address) (amount : ℕ) (info : StakeInfo)
      (covered : amount ≤ info.stake) :
      InfoStep maxUnstakeDelay config env sender
        (.penalizeRelayManager relayManager beneficiary amount) info
        { info with stake := info.stake - amount }
  | abandoned (relayManager : Address) (info : StakeInfo) (funded : 0 < info.stake)
      (unmarked : info.abandonedTime = 0)
      (silent : info.keepaliveTime + config.abandonmentDelay < env.timestamp) :
      InfoStep maxUnstakeDelay config env sender (.markRelayAbandoned relayManager) info
        { info with abandonedTime := env.timestamp }
  | escheated (relayManager : Address) (info : StakeInfo) (marked : info.abandonedTime ≠ 0)
      (due : info.abandonedTime + config.escheatmentDelay < env.timestamp) :
      InfoStep maxUnstakeDelay config env sender (.escheatAbandonedRelayStake relayManager) info
        { info with stake := 0, withdrawTime := 0 }
  | keptAlive (relayManager : Address) (info : StakeInfo) :
      InfoStep maxUnstakeDelay config env sender (.updateRelayKeepaliveTime relayManager) info
        { info with abandonedTime := 0, keepaliveTime := env.timestamp }

theorem isRelayEscheatable_ok (env : Env) (relayManager : Address) (s : State) :
    isRelayEscheatable env relayManager s = .ok true ↔
      (s.stakes relayManager).abandonedTime ≠ 0 ∧
      (s.stakes relayManager).abandonedTime + s.abandonedRelayServerConfig.escheatmentDelay < 2 ^ 256 ∧
      (s.stakes relayManager).abandonedTime + s.abandonedRelayServerConfig.escheatmentDelay <
        env.timestamp := by
  unfold isRelayEscheatable
  by_cases unmarked : (s.stakes relayManager).abandonedTime = 0 <;> simp [unmarked]

def Call.receivers (sender : Address) (s : State) : Call → List Address
  | .withdrawStake _ => [sender]
  | .penalizeRelayManager _ beneficiary _ => [s.burnAddress, beneficiary]
  | .escheatAbandonedRelayStake _ => [s.abandonedRelayServerConfig.devAddress]
  | _ => []

inductive Effect (this : Address) (env : Env) (sender : Address) (call : Call) (s : State) :
    State → Prop
  | administered (owner devAddress burnAddress : Address) (events : List Event)
      (about : call.relayManager sender = none) :
      Effect this env sender call s
        { s with
          owner, burnAddress, events
          abandonedRelayServerConfig := { s.abandonedRelayServerConfig with devAddress } }
  | authorized (target relayHub : Address) (about : call.relayManager sender = none) :
      Effect this env sender call s (authorizeHub target relayHub s)
  | unauthorized (target relayHub : Address) (next : State) (about : call.relayManager sender = none)
      (removed : unauthorizeHub env target relayHub s = .ok next) : Effect this env sender call s next
  | rewritten (target : Address) (info : StakeInfo) (event : Event)
      (about : call.relayManager sender = some target)
      (moved : InfoStep s.maxUnstakeDelay s.abandonedRelayServerConfig env sender call
        (s.stakes target) info)
      (stake : info.stake = (s.stakes target).stake) (token : info.token = (s.stakes target).token) :
      Effect this env sender call s ((s.setStake target info).emit event)
  | funded (target : Address) (info : StakeInfo) (amount : ℕ) (tokens : Tokens) (event : Event)
      (about : call.relayManager sender = some target)
      (moved : InfoStep s.maxUnstakeDelay s.abandonedRelayServerConfig env sender call
        (s.stakes target) info)
      (stake : info.stake = (s.stakes target).stake + amount) (given : info.token ≠ 0)
      (kept : (s.stakes target).token = 0 ∨ (s.stakes target).token = info.token)
      (pulled : safeTransfer s.tokens info.token sender this amount = .ok tokens) :
      Effect this env sender call s
        (((s.recordPull tokens info.token amount).setStake target info).emit event)
  | paidOut (target receiver : Address) (info : StakeInfo) (amount : ℕ) (tokens : Tokens) (event : Event)
      (about : call.relayManager sender = some target)
      (moved : InfoStep s.maxUnstakeDelay s.abandonedRelayServerConfig env sender call
        (s.stakes target) info)
      (stake : info.stake + amount = (s.stakes target).stake)
      (token : info.token = (s.stakes target).token)
      (paid : safeTransfer s.tokens info.token this receiver amount = .ok tokens)
      (known : receiver ∈ call.receivers sender s) :
      Effect this env sender call s
        (((s.setStake target info).recordPay tokens info.token amount).emit event)
  | paidTwice (target first second : Address) (info : StakeInfo) (amount rest : ℕ)
      (halfway tokens : Tokens) (event : Event) (about : call.relayManager sender = some target)
      (moved : InfoStep s.maxUnstakeDelay s.abandonedRelayServerConfig env sender call
        (s.stakes target) info)
      (stake : info.stake + (amount + rest) = (s.stakes target).stake)
      (token : info.token = (s.stakes target).token)
      (paid : safeTransfer s.tokens info.token this first amount = .ok halfway)
      (paidRest : safeTransfer halfway info.token this second rest = .ok tokens)
      (known : first ∈ call.receivers sender s ∧ second ∈ call.receivers sender s) :
      Effect this env sender call s
        ((((s.setStake target info).recordPay halfway info.token amount).recordPay tokens
          info.token rest).emit event)

theorem execute_effect (this : Address) (env : Env) (sender : Address) (call : Call) (s next : State)
    (taken : execute this env sender call s = .ok next) : Effect this env sender call s next := by
  cases call with
  | setBurnAddress burnAddress =>
      simp only [execute, setBurnAddress, bind_ok, Except.ok.injEq] at taken
      rcases taken with ⟨_, _, rfl⟩
      exact .administered s.owner _ burnAddress _ rfl
  | setDevAddress devAddress =>
      simp only [execute, setDevAddress, bind_ok, Except.ok.injEq] at taken
      rcases taken with ⟨_, _, rfl⟩
      exact .administered s.owner devAddress s.burnAddress _ rfl
  | transferOwnership newOwner =>
      simp only [execute, bind_ok, Except.ok.injEq] at taken
      rcases taken with ⟨owner, _, rfl⟩
      exact .administered owner _ s.burnAddress s.events rfl
  | renounceOwnership =>
      simp only [execute, bind_ok, Except.ok.injEq] at taken
      rcases taken with ⟨owner, _, rfl⟩
      exact .administered owner _ s.burnAddress s.events rfl
  | setRelayManagerOwner owner =>
      simp only [execute, setRelayManagerOwner, bind_ok, require_ok, Except.ok.injEq] at taken
      rcases taken with ⟨_, given, _, fresh, rfl⟩
      exact .rewritten sender _ _ rfl (.owned _ _ given fresh) rfl rfl
  | stakeForRelayManager token target unstakeDelay amount =>
      rcases (stakeForRelayManager_ok _ _ _ _ _ _ _ _).mp taken with
        ⟨owner, longer, bounded, given, kept, tokens, pulled, _, rfl⟩
      exact .funded target _ amount tokens _ rfl (.staked _ _ _ _ _ owner longer bounded given kept) rfl
        given kept pulled
  | unlockStake target =>
      simp only [execute, unlockStake, relayOwnerOnly, bind_ok, require_ok, checkedAdd_ok,
        Except.ok.injEq] at taken
      rcases taken with ⟨_, owner, _, locked, _, ⟨_, rfl⟩, rfl⟩
      exact .rewritten target _ _ rfl (.unlocked _ _ owner locked) rfl rfl
  | withdrawStake target =>
      rcases (withdrawStake_ok _ _ _ _ _ _).mp taken with ⟨owner, scheduled, due, tokens, paid, rfl⟩
      exact .paidOut target sender _ _ tokens _ rfl (.withdrawn _ _ owner scheduled due)
        (Nat.zero_add _) rfl paid (List.mem_singleton_self _)
  | authorizeHubByOwner target relayHub =>
      simp only [execute, authorizeHubByOwner, bind_ok, Except.ok.injEq] at taken
      rcases taken with ⟨_, _, rfl⟩
      exact .authorized target relayHub rfl
  | authorizeHubByManager relayHub =>
      simp only [execute, authorizeHubByManager, bind_ok, Except.ok.injEq] at taken
      rcases taken with ⟨_, _, rfl⟩
      exact .authorized sender relayHub rfl
  | unauthorizeHubByOwner target relayHub =>
      simp only [execute, unauthorizeHubByOwner, bind_ok] at taken
      rcases taken with ⟨_, _, removed⟩
      exact .unauthorized target relayHub next rfl removed
  | unauthorizeHubByManager relayHub =>
      simp only [execute, unauthorizeHubByManager, bind_ok] at taken
      rcases taken with ⟨_, _, removed⟩
      exact .unauthorized sender relayHub next rfl removed
  | penalizeRelayManager target beneficiary amount =>
      rcases (penalizeRelayManager_ok _ _ _ _ _ _ _ _).mp taken with
        ⟨_, _, covered, burned, rewarded, burn, reward, rfl⟩
      refine .paidTwice target s.burnAddress beneficiary _ (amount / 2) (amount - amount / 2) burned
        rewarded _ rfl (.penalized _ _ _ _ covered) ?_ rfl burn reward
        ⟨List.mem_cons_self, List.mem_cons_of_mem _ (List.mem_singleton_self _)⟩
      simp only
      omega
  | markRelayAbandoned target =>
      simp only [execute, markRelayAbandoned, bind_ok, require_ok, checkedAdd_ok,
        Except.ok.injEq] at taken
      rcases taken with ⟨_, _, _, funded, _, unmarked, _, ⟨_, rfl⟩, _, silent, rfl⟩
      exact .rewritten target _ _ rfl (.abandoned _ _ funded unmarked silent) rfl rfl
  | escheatAbandonedRelayStake target =>
      rcases (escheatAbandonedRelayStake_ok _ _ _ _ _ _).mp taken with ⟨_, escheatable, tokens, paid, rfl⟩
      have marked := (isRelayEscheatable_ok _ _ _).mp escheatable
      exact .paidOut target _ _ _ tokens _ rfl (.escheated _ _ marked.1 marked.2.2) (Nat.zero_add _) rfl
        paid (List.mem_singleton_self _)
  | updateRelayKeepaliveTime target =>
      simp only [execute, updateRelayKeepaliveTime, bind_ok, Except.ok.injEq] at taken
      rcases taken with ⟨_, _, rfl⟩
      exact .rewritten target _ _ rfl (.keptAlive _ _) rfl rfl

/-- Writing the entry of `target` moves it by `InfoStep` and no other. -/
private theorem written_info (maxUnstakeDelay : ℕ) (config : AbandonedRelayServerConfig) (env : Env)
    (sender : Address) (call : Call) (stakes : Address → StakeInfo) (target : Address) (info : StakeInfo)
    (writes : call.relayManager sender = some target)
    (moved : InfoStep maxUnstakeDelay config env sender call (stakes target) info)
    (relayManager : Address) :
    if call.relayManager sender = some relayManager then
      InfoStep maxUnstakeDelay config env sender call (stakes relayManager)
        (Function.update stakes target info relayManager)
    else Function.update stakes target info relayManager = stakes relayManager := by
  by_cases same : relayManager = target
  · subst same
    simpa [writes] using moved
  · have other : ¬ call.relayManager sender = some relayManager := by
      rw [writes]
      exact fun equal => same (Option.some.inj equal).symm
    simp [other, Function.update_of_ne same]

/-- What one call can do to the stake entries: it moves the entry it is about, by one step of
its life, and no other. -/
theorem execute_info (this : Address) (env : Env) (sender : Address) (call : Call) (s next : State)
    (taken : execute this env sender call s = .ok next) (relayManager : Address) :
    if call.relayManager sender = some relayManager then
      InfoStep s.maxUnstakeDelay s.abandonedRelayServerConfig env sender call
        (s.stakes relayManager) (next.stakes relayManager)
    else next.stakes relayManager = s.stakes relayManager := by
  cases execute_effect this env sender call s next taken with
  | administered _ _ _ _ about => simp [about]
  | authorized _ _ about => simp [about, authorizeHub]
  | unauthorized target relayHub next about removed =>
      simp only [unauthorizeHub, bind_ok, Except.ok.injEq] at removed
      rcases removed with ⟨_, _, _, _, rfl⟩
      simp [about]
  | rewritten target info event about moved => exact written_info _ _ _ _ _ _ target info about moved _
  | funded target info _ _ _ about moved => exact written_info _ _ _ _ _ _ target info about moved _
  | paidOut target _ info _ _ _ about moved => exact written_info _ _ _ _ _ _ target info about moved _
  | paidTwice target _ _ info _ _ _ _ _ about moved =>
      exact written_info _ _ _ _ _ _ target info about moved _

/-- What one call can do to the rest: the delays are fixed, no token goes away, and an
authorization is either renewed or given its end. -/
structure Frame (env : Env) (s next : State) : Prop where
  maxUnstakeDelay : next.maxUnstakeDelay = s.maxUnstakeDelay
  abandonmentDelay : next.abandonedRelayServerConfig.abandonmentDelay =
    s.abandonedRelayServerConfig.abandonmentDelay
  escheatmentDelay : next.abandonedRelayServerConfig.escheatmentDelay =
    s.abandonedRelayServerConfig.escheatmentDelay
  removalTime : ∀ relayManager relayHub,
    let before := (s.authorizedHubs relayManager relayHub).removalTime
    let after := (next.authorizedHubs relayManager relayHub).removalTime
    after = before ∨ after = uint256Max ∨
      (before = uint256Max ∧ after = env.timestamp + (s.stakes relayManager).unstakeDelay)
  tokens : ∀ token, (s.tokens token).isSome → (next.tokens token).isSome

theorem safeTransfer_present (tokens next : Tokens) (token source target : Address) (amount : ℕ)
    (taken : safeTransfer tokens token source target amount = .ok next) (other : Address)
    (present : (tokens other).isSome) : (next other).isSome := by
  obtain ⟨_, moved, _, _, rfl⟩ := (safeTransfer_ok _ _ _ _ _ _).mp taken
  by_cases same : other = token
  · simp [same]
  · simpa [Function.update_of_ne same] using present

private theorem authorizeHub_frame (env : Env) (target relayHub : Address) (s : State) :
    Frame env s (authorizeHub target relayHub s) := by
  refine ⟨rfl, rfl, rfl, ?_, fun _ present => present⟩
  intro relayManager hub
  by_cases same : relayManager = target ∧ hub = relayHub
  · obtain ⟨rfl, rfl⟩ := same
    simp [authorizeHub]
  · left
    by_cases manager : relayManager = target
    · subst manager
      have other : hub ≠ relayHub := fun equal => same ⟨rfl, equal⟩
      simp [authorizeHub, Function.update_of_ne other]
    · simp [authorizeHub, Function.update_of_ne manager]

private theorem unauthorizeHub_frame (env : Env) (target relayHub : Address) (s next : State)
    (taken : unauthorizeHub env target relayHub s = .ok next) : Frame env s next := by
  simp only [unauthorizeHub, bind_ok, require_ok, checkedAdd_ok, Except.ok.injEq] at taken
  obtain ⟨_, authorized, _, ⟨_, rfl⟩, rfl⟩ := taken
  refine ⟨rfl, rfl, rfl, ?_, fun _ present => present⟩
  intro relayManager hub
  by_cases same : relayManager = target ∧ hub = relayHub
  · obtain ⟨rfl, rfl⟩ := same
    simp [authorized]
  · left
    by_cases manager : relayManager = target
    · subst manager
      have other : hub ≠ relayHub := fun equal => same ⟨rfl, equal⟩
      simp [Function.update_of_ne other]
    · simp [Function.update_of_ne manager]

theorem execute_frame (this : Address) (env : Env) (sender : Address) (call : Call) (s next : State)
    (taken : execute this env sender call s = .ok next) : Frame env s next := by
  cases execute_effect this env sender call s next taken with
  | administered => exact ⟨rfl, rfl, rfl, fun _ _ => .inl rfl, fun _ present => present⟩
  | authorized target relayHub => exact authorizeHub_frame env target relayHub s
  | unauthorized target relayHub next _ removed => exact unauthorizeHub_frame env target relayHub s next removed
  | rewritten => exact ⟨rfl, rfl, rfl, fun _ _ => .inl rfl, fun _ present => present⟩
  | funded _ _ _ _ _ _ _ _ _ _ pulled =>
      exact ⟨rfl, rfl, rfl, fun _ _ => .inl rfl, safeTransfer_present _ _ _ _ _ _ pulled⟩
  | paidOut _ _ _ _ _ _ _ _ _ _ paid =>
      exact ⟨rfl, rfl, rfl, fun _ _ => .inl rfl, safeTransfer_present _ _ _ _ _ _ paid⟩
  | paidTwice _ _ _ _ _ _ _ _ _ _ _ _ _ paid paidRest =>
      refine ⟨rfl, rfl, rfl, fun _ _ => .inl rfl, fun token present => ?_⟩
      exact safeTransfer_present _ _ _ _ _ _ paidRest token
        (safeTransfer_present _ _ _ _ _ _ paid token present)

/-- The entry of one manager is written, and an event tells of it. -/
structure Writes (s next : State) (target : Address) (info : StakeInfo) (event : Event) : Prop where
  logged : next.events = s.events ++ [event]
  stakes : next.stakes = Function.update s.stakes target info
  hubs : next.authorizedHubs = s.authorizedHubs

/-- What a successful call tells in the log, and what it is told about. -/
inductive Told (env : Env) (sender : Address) (s next : State) : Call → Prop
  | administered (call : Call) (events : List Event)
      (about : events = [] ∨ ∃ account, events = [.burnAddressSet account] ∨ events = [.devAddressSet account])
      (logged : next.events = s.events ++ events) (stakes : next.stakes = s.stakes)
      (hubs : next.authorizedHubs = s.authorizedHubs) : Told env sender s next call
  | authorizedByOwner (target relayHub : Address) (owner : (s.stakes target).owner = sender)
      (same : next = authorizeHub target relayHub s) :
      Told env sender s next (.authorizeHubByOwner target relayHub)
  | authorizedByManager (relayHub : Address) (same : next = authorizeHub sender relayHub s) :
      Told env sender s next (.authorizeHubByManager relayHub)
  | unauthorized (call : Call) (target relayHub : Address)
      (removed : unauthorizeHub env target relayHub s = .ok next) : Told env sender s next call
  | owned (owner : Address) (info : StakeInfo) (writes : Writes s next sender info (.ownerSet sender owner))
      (kept : info.withdrawTime = (s.stakes sender).withdrawTime) :
      Told env sender s next (.setRelayManagerOwner owner)
  | staked (token target owner : Address) (unstakeDelay amount stake : ℕ) (info : StakeInfo)
      (writes : Writes s next target info (.stakeAdded target owner token stake unstakeDelay))
      (kept : info.withdrawTime = (s.stakes target).withdrawTime) :
      Told env sender s next (.stakeForRelayManager token target unstakeDelay amount)
  | unlocked (target : Address) (info : StakeInfo)
      (writes : Writes s next target info (.stakeUnlocked target sender info.withdrawTime)) :
      Told env sender s next (.unlockStake target)
  | withdrawn (target token : Address) (amount : ℕ) (info : StakeInfo)
      (writes : Writes s next target info (.stakeWithdrawn target sender token amount))
      (scheduled : (s.stakes target).withdrawTime ≠ 0) (settled : info.withdrawTime = 0) :
      Told env sender s next (.withdrawStake target)
  | penalized (target beneficiary token : Address) (amount reward : ℕ) (info : StakeInfo)
      (writes : Writes s next target info (.stakePenalized target beneficiary token reward))
      (kept : info.withdrawTime = (s.stakes target).withdrawTime)
      (authorized : (s.authorizedHubs target sender).removalTime ≠ 0) :
      Told env sender s next (.penalizeRelayManager target beneficiary amount)
  | abandoned (target : Address) (info : StakeInfo)
      (writes : Writes s next target info (.relayServerAbandoned target env.timestamp))
      (kept : info.withdrawTime = (s.stakes target).withdrawTime) :
      Told env sender s next (.markRelayAbandoned target)
  | escheated (target token : Address) (amount : ℕ) (info : StakeInfo)
      (writes : Writes s next target info (.abandonedRelayManagerStakeEscheated target sender token amount))
      (settled : info.withdrawTime = 0) : Told env sender s next (.escheatAbandonedRelayStake target)
  | keptAlive (target : Address) (info : StakeInfo)
      (writes : Writes s next target info (.relayServerKeepalive target env.timestamp))
      (kept : info.withdrawTime = (s.stakes target).withdrawTime) :
      Told env sender s next (.updateRelayKeepaliveTime target)

theorem execute_told (this : Address) (env : Env) (sender : Address) (call : Call) (s next : State)
    (taken : execute this env sender call s = .ok next) : Told env sender s next call := by
  cases call with
  | setBurnAddress burnAddress =>
      simp only [execute, setBurnAddress, bind_ok, Except.ok.injEq] at taken
      rcases taken with ⟨_, _, rfl⟩
      exact .administered _ [_] (.inr ⟨burnAddress, .inl rfl⟩) rfl rfl rfl
  | setDevAddress devAddress =>
      simp only [execute, setDevAddress, bind_ok, Except.ok.injEq] at taken
      rcases taken with ⟨_, _, rfl⟩
      exact .administered _ [_] (.inr ⟨devAddress, .inr rfl⟩) rfl rfl rfl
  | transferOwnership newOwner =>
      simp only [execute, bind_ok, Except.ok.injEq] at taken
      rcases taken with ⟨_, _, rfl⟩
      exact .administered _ [] (.inl rfl) (List.append_nil _).symm rfl rfl
  | renounceOwnership =>
      simp only [execute, bind_ok, Except.ok.injEq] at taken
      rcases taken with ⟨_, _, rfl⟩
      exact .administered _ [] (.inl rfl) (List.append_nil _).symm rfl rfl
  | setRelayManagerOwner owner =>
      simp only [execute, setRelayManagerOwner, bind_ok, Except.ok.injEq] at taken
      rcases taken with ⟨_, _, _, _, rfl⟩
      exact .owned owner _ ⟨rfl, rfl, rfl⟩ rfl
  | stakeForRelayManager token target unstakeDelay amount =>
      rcases (stakeForRelayManager_ok _ _ _ _ _ _ _ _).mp taken with ⟨_, _, _, _, _, _, _, _, rfl⟩
      exact .staked token target _ unstakeDelay amount _ _ ⟨rfl, rfl, rfl⟩ rfl
  | unlockStake target =>
      simp only [execute, unlockStake, bind_ok, Except.ok.injEq] at taken
      rcases taken with ⟨_, _, _, _, _, _, rfl⟩
      exact .unlocked target _ ⟨rfl, rfl, rfl⟩
  | withdrawStake target =>
      rcases (withdrawStake_ok _ _ _ _ _ _).mp taken with ⟨_, scheduled, _, _, _, rfl⟩
      exact .withdrawn target _ _ _ ⟨rfl, rfl, rfl⟩ (Nat.ne_of_gt scheduled) rfl
  | authorizeHubByOwner target relayHub =>
      simp only [execute, authorizeHubByOwner, relayOwnerOnly, bind_ok, require_ok, Except.ok.injEq] at taken
      rcases taken with ⟨_, owner, rfl⟩
      exact .authorizedByOwner target relayHub owner rfl
  | authorizeHubByManager relayHub =>
      simp only [execute, authorizeHubByManager, bind_ok, Except.ok.injEq] at taken
      rcases taken with ⟨_, _, rfl⟩
      exact .authorizedByManager relayHub rfl
  | unauthorizeHubByOwner target relayHub =>
      simp only [execute, unauthorizeHubByOwner, bind_ok] at taken
      rcases taken with ⟨_, _, removed⟩
      exact .unauthorized _ target relayHub removed
  | unauthorizeHubByManager relayHub =>
      simp only [execute, unauthorizeHubByManager, bind_ok] at taken
      rcases taken with ⟨_, _, removed⟩
      exact .unauthorized _ sender relayHub removed
  | penalizeRelayManager target beneficiary amount =>
      rcases (penalizeRelayManager_ok _ _ _ _ _ _ _ _).mp taken with ⟨authorized, _, _, _, _, _, _, rfl⟩
      exact .penalized target beneficiary _ amount _ _ ⟨rfl, rfl, rfl⟩ rfl authorized
  | markRelayAbandoned target =>
      simp only [execute, markRelayAbandoned, bind_ok, Except.ok.injEq] at taken
      rcases taken with ⟨_, _, _, _, _, _, _, _, _, _, rfl⟩
      exact .abandoned target _ ⟨rfl, rfl, rfl⟩ rfl
  | escheatAbandonedRelayStake target =>
      rcases (escheatAbandonedRelayStake_ok _ _ _ _ _ _).mp taken with ⟨_, _, _, _, rfl⟩
      exact .escheated target _ _ _ ⟨rfl, rfl, rfl⟩ rfl
  | updateRelayKeepaliveTime target =>
      simp only [execute, updateRelayKeepaliveTime, bind_ok, Except.ok.injEq] at taken
      rcases taken with ⟨_, _, rfl⟩
      exact .keptAlive target _ ⟨rfl, rfl, rfl⟩ rfl

end OpenGsn.StakeManager
