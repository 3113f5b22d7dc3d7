import OpenGsn.Solidity.Contracts
import OpenGsn.Runs
import Mathlib.Tactic.Simps.Basic

/-! `StakeManager.sol`. -/

namespace OpenGsn.StakeManager

open Solidity

structure StakeInfo where
  stake : ℕ
  unstakeDelay : ℕ
  withdrawTime : ℕ
  abandonedTime : ℕ
  keepaliveTime : ℕ
  token : Address
  owner : Address
  deriving DecidableEq, Repr

instance : Inhabited StakeInfo := ⟨⟨0, 0, 0, 0, 0, 0, 0⟩⟩

structure RelayHubInfo where
  removalTime : ℕ
  deriving DecidableEq, Repr

structure AbandonedRelayServerConfig where
  devAddress : Address
  abandonmentDelay : ℕ
  escheatmentDelay : ℕ
  deriving DecidableEq, Repr

inductive Event : Type
  | stakeAdded (relayManager owner token : Address) (stake unstakeDelay : ℕ)
  | stakeUnlocked (relayManager owner : Address) (withdrawTime : ℕ)
  | stakeWithdrawn (relayManager owner token : Address) (amount : ℕ)
  | stakePenalized (relayManager beneficiary token : Address) (reward : ℕ)
  | hubAuthorized (relayManager relayHub : Address)
  | hubUnauthorized (relayManager relayHub : Address) (removalTime : ℕ)
  | ownerSet (relayManager owner : Address)
  | burnAddressSet (burnAddress : Address)
  | devAddressSet (devAddress : Address)
  | relayServerAbandoned (relayManager : Address) (abandonedTime : ℕ)
  | relayServerKeepalive (relayManager : Address) (keepaliveTime : ℕ)
  | abandonedRelayManagerStakeEscheated (relayManager owner token : Address) (amount : ℕ)
  deriving DecidableEq, Repr

/-- The storage, the tokens it calls and its log. `pulled` and `paid` are history variables:
the amounts of each token that calls of this contract have moved in and out. -/
structure State where
  owner : Address
  maxUnstakeDelay : ℕ
  abandonedRelayServerConfig : AbandonedRelayServerConfig
  burnAddress : Address
  stakes : Address → StakeInfo
  authorizedHubs : Address → Address → RelayHubInfo
  tokens : Tokens
  pulled : Address → ℕ
  paid : Address → ℕ
  events : List Event

namespace State

@[simps -fullyApplied]
def setStake (s : State) (relayManager : Address) (info : StakeInfo) : State :=
  { s with stakes := Function.update s.stakes relayManager info }

@[simps -fullyApplied]
def setRemovalTime (s : State) (relayManager relayHub : Address) (removalTime : ℕ) : State :=
  { s with
    authorizedHubs := Function.update s.authorizedHubs relayManager
      (Function.update (s.authorizedHubs relayManager) relayHub ⟨removalTime⟩) }

@[simps -fullyApplied]
def emit (s : State) (event : Event) : State := { s with events := s.events ++ [event] }

@[simps -fullyApplied]
def recordPull (s : State) (tokens : Tokens) (token : Address) (amount : ℕ) : State :=
  { s with tokens, pulled := Function.update s.pulled token (s.pulled token + amount) }

@[simps -fullyApplied]
def recordPay (s : State) (tokens : Tokens) (token : Address) (amount : ℕ) : State :=
  { s with tokens, paid := Function.update s.paid token (s.paid token + amount) }

end State

variable (this : Address)

/-- `token.safeTransferFrom(sender, address(this), amount)` -/
def pull (token sender : Address) (amount : ℕ) (s : State) : Except Revert State := do
  let tokens ← safeTransfer s.tokens token sender this amount
  .ok (s.recordPull tokens token amount)

/-- `token.safeTransfer(receiver, amount)` -/
def pay (token receiver : Address) (amount : ℕ) (s : State) : Except Revert State := do
  let tokens ← safeTransfer s.tokens token this receiver amount
  .ok (s.recordPay tokens token amount)

def relayOwnerOnly (sender relayManager : Address) (s : State) : Except Revert Unit :=
  require ((s.stakes relayManager).owner = sender) "not owner"

def managerOnly (sender : Address) (s : State) : Except Revert Unit :=
  require ((s.stakes sender).owner ≠ 0) "not manager"

def getStakeInfo (sender relayManager : Address) (s : State) : StakeInfo × Bool :=
  (s.stakes relayManager, (s.authorizedHubs relayManager sender).removalTime = uint256Max)

def setBurnAddress (sender burnAddress : Address) (s : State) : Except Revert State := do
  onlyOwner s.owner sender
  .ok ({ s with burnAddress }.emit (.burnAddressSet burnAddress))

def setDevAddress (sender devAddress : Address) (s : State) : Except Revert State := do
  onlyOwner s.owner sender
  let config := { s.abandonedRelayServerConfig with devAddress }
  .ok ({ s with abandonedRelayServerConfig := config }.emit (.devAddressSet devAddress))

def setRelayManagerOwner (sender owner : Address) (s : State) : Except Revert State := do
  require (owner ≠ 0) "invalid owner"
  require ((s.stakes sender).owner = 0) "already owned"
  .ok ((s.setStake sender { s.stakes sender with owner }).emit (.ownerSet sender owner))

def stakeForRelayManager (sender token relayManager : Address) (unstakeDelay amount : ℕ) (s : State) :
    Except Revert State := do
  relayOwnerOnly sender relayManager s
  let info := s.stakes relayManager
  require (info.unstakeDelay ≤ unstakeDelay) "unstakeDelay cannot be decreased"
  require (unstakeDelay ≤ s.maxUnstakeDelay) "unstakeDelay too big"
  require (token ≠ 0) "must specify stake token address"
  require (info.token = 0 ∨ info.token = token) "stake token address is incorrect"
  let s ← pull this token sender amount s
  let stake ← checkedAdd 256 info.stake amount
  .ok ((s.setStake relayManager { info with token, stake, unstakeDelay }).emit
    (.stakeAdded relayManager info.owner token stake unstakeDelay))

def unlockStake (env : Env) (sender relayManager : Address) (s : State) : Except Revert State := do
  relayOwnerOnly sender relayManager s
  let info := s.stakes relayManager
  require (info.withdrawTime = 0) "already pending"
  let withdrawTime ← checkedAdd 256 env.timestamp info.unstakeDelay
  .ok ((s.setStake relayManager { info with withdrawTime }).emit
    (.stakeUnlocked relayManager sender withdrawTime))

def withdrawStake (env : Env) (sender relayManager : Address) (s : State) : Except Revert State := do
  relayOwnerOnly sender relayManager s
  let info := s.stakes relayManager
  require (0 < info.withdrawTime) "Withdrawal is not scheduled"
  require (info.withdrawTime ≤ env.timestamp) "Withdrawal is not due"
  let s ← pay this info.token sender info.stake
    (s.setStake relayManager { info with stake := 0, withdrawTime := 0 })
  .ok (s.emit (.stakeWithdrawn relayManager sender info.token info.stake))

def authorizeHub (relayManager relayHub : Address) (s : State) : State :=
  (s.setRemovalTime relayManager relayHub uint256Max).emit (.hubAuthorized relayManager relayHub)

def authorizeHubByOwner (sender relayManager relayHub : Address) (s : State) : Except Revert State := do
  relayOwnerOnly sender relayManager s
  .ok (authorizeHub relayManager relayHub s)

def authorizeHubByManager (sender relayHub : Address) (s : State) : Except Revert State := do
  managerOnly sender s
  .ok (authorizeHub sender relayHub s)

def unauthorizeHub (env : Env) (relayManager relayHub : Address) (s : State) : Except Revert State := do
  require ((s.authorizedHubs relayManager relayHub).removalTime = uint256Max) "hub not authorized"
  let removalTime ← checkedAdd 256 env.timestamp (s.stakes relayManager).unstakeDelay
  .ok ((s.setRemovalTime relayManager relayHub removalTime).emit
    (.hubUnauthorized relayManager relayHub removalTime))

def unauthorizeHubByOwner (env : Env) (sender relayManager relayHub : Address) (s : State) :
    Except Revert State := do
  relayOwnerOnly sender relayManager s
  unauthorizeHub env relayManager relayHub s

def unauthorizeHubByManager (env : Env) (sender relayHub : Address) (s : State) :
    Except Revert State := do
  managerOnly sender s
  unauthorizeHub env sender relayHub s

def penalizeRelayManager (env : Env) (sender relayManager beneficiary : Address) (amount : ℕ)
    (s : State) : Except Revert State := do
  let removalTime := (s.authorizedHubs relayManager sender).removalTime
  require (removalTime ≠ 0) "hub not authorized"
  require (env.timestamp < removalTime) "hub authorization expired"
  let info := s.stakes relayManager
  require (amount ≤ info.stake) "penalty exceeds stake"
  let s := s.setStake relayManager { info with stake := info.stake - amount }
  -- half of it is burned, rounded down
  let toBurn := amount / 2
  let reward := amount - toBurn
  let s ← pay this info.token s.burnAddress toBurn s
  let s ← pay this info.token beneficiary reward s
  .ok (s.emit (.stakePenalized relayManager beneficiary info.token reward))

def isRelayEscheatable (env : Env) (relayManager : Address) (s : State) : Except Revert Bool := do
  let info := s.stakes relayManager
  if info.abandonedTime = 0 then
    .ok false
  else
    let due ← checkedAdd 256 info.abandonedTime s.abandonedRelayServerConfig.escheatmentDelay
    .ok (due < env.timestamp)

def markRelayAbandoned (env : Env) (sender relayManager : Address) (s : State) :
    Except Revert State := do
  onlyOwner s.owner sender
  let info := s.stakes relayManager
  require (0 < info.stake) "relay manager not staked"
  require (info.abandonedTime = 0) "relay manager already abandoned"
  let due ← checkedAdd 256 info.keepaliveTime s.abandonedRelayServerConfig.abandonmentDelay
  require (due < env.timestamp) "relay manager was alive recently"
  .ok ((s.setStake relayManager { info with abandonedTime := env.timestamp }).emit
    (.relayServerAbandoned relayManager env.timestamp))

def escheatAbandonedRelayStake (env : Env) (sender relayManager : Address) (s : State) :
    Except Revert State := do
  onlyOwner s.owner sender
  let info := s.stakes relayManager
  let escheatable ← isRelayEscheatable env relayManager s
  require escheatable "relay server not escheatable yet"
  let s ← pay this info.token s.abandonedRelayServerConfig.devAddress info.stake
    (s.setStake relayManager { info with stake := 0, withdrawTime := 0 })
  .ok (s.emit (.abandonedRelayManagerStakeEscheated relayManager sender info.token info.stake))

def updateRelayKeepaliveTime (env : Env) (sender relayManager : Address) (s : State) :
    Except Revert State := do
  let info := s.stakes relayManager
  let isHubAuthorized := (s.authorizedHubs relayManager sender).removalTime = uint256Max
  let isRelayOwner := info.owner = sender
  require (isHubAuthorized ∨ isRelayOwner) "must be called by owner or hub"
  .ok ((s.setStake relayManager { info with abandonedTime := 0, keepaliveTime := env.timestamp }).emit
    (.relayServerKeepalive relayManager env.timestamp))

inductive Call : Type
  | setBurnAddress (burnAddress : Address)
  | setDevAddress (devAddress : Address)
  | transferOwnership (newOwner : Address)
  | renounceOwnership
  | setRelayManagerOwner (owner : Address)
  | stakeForRelayManager (token relayManager : Address) (unstakeDelay amount : ℕ)
  | unlockStake (relayManager : Address)
  | withdrawStake (relayManager : Address)
  | authorizeHubByOwner (relayManager relayHub : Address)
  | authorizeHubByManager (relayHub : Address)
  | unauthorizeHubByOwner (relayManager relayHub : Address)
  | unauthorizeHubByManager (relayHub : Address)
  | penalizeRelayManager (relayManager beneficiary : Address) (amount : ℕ)
  | markRelayAbandoned (relayManager : Address)
  | escheatAbandonedRelayStake (relayManager : Address)
  | updateRelayKeepaliveTime (relayManager : Address)
  deriving DecidableEq, Repr

def execute (env : Env) (sender : Address) (call : Call) (s : State) : Except Revert State :=
  match call with
  | .setBurnAddress burnAddress => setBurnAddress sender burnAddress s
  | .setDevAddress devAddress => setDevAddress sender devAddress s
  | .transferOwnership newOwner => do .ok { s with owner := ← transferOwnership s.owner sender newOwner }
  | .renounceOwnership => do .ok { s with owner := ← renounceOwnership s.owner sender }
  | .setRelayManagerOwner owner => setRelayManagerOwner sender owner s
  | .stakeForRelayManager token relayManager unstakeDelay amount =>
      stakeForRelayManager this sender token relayManager unstakeDelay amount s
  | .unlockStake relayManager => unlockStake env sender relayManager s
  | .withdrawStake relayManager => withdrawStake this env sender relayManager s
  | .authorizeHubByOwner relayManager relayHub => authorizeHubByOwner sender relayManager relayHub s
  | .authorizeHubByManager relayHub => authorizeHubByManager sender relayHub s
  | .unauthorizeHubByOwner relayManager relayHub =>
      unauthorizeHubByOwner env sender relayManager relayHub s
  | .unauthorizeHubByManager relayHub => unauthorizeHubByManager env sender relayHub s
  | .penalizeRelayManager relayManager beneficiary amount =>
      penalizeRelayManager this env sender relayManager beneficiary amount s
  | .markRelayAbandoned relayManager => markRelayAbandoned env sender relayManager s
  | .escheatAbandonedRelayStake relayManager => escheatAbandonedRelayStake this env sender relayManager s
  | .updateRelayKeepaliveTime relayManager => updateRelayKeepaliveTime env sender relayManager s

def deploy (sender : Address) (maxUnstakeDelay abandonmentDelay escheatmentDelay : ℕ)
    (burnAddress devAddress : Address) (tokens : Tokens) : Except Revert State := do
  require (burnAddress ≠ 0) "transfers to address(0) may fail"
  .ok {
    owner := sender
    maxUnstakeDelay
    abandonedRelayServerConfig := ⟨devAddress, abandonmentDelay, escheatmentDelay⟩
    burnAddress
    stakes := fun _ => default
    authorizedHubs := fun _ _ => ⟨0⟩
    tokens
    pulled := fun _ => 0
    paid := fun _ => 0
    events := [.burnAddressSet burnAddress, .devAddressSet devAddress] }

/-- A call from outside, or anything that happens on a token contract without a call of this
one: nobody else moves the tokens it holds. -/
inductive Step : Type
  | call (env : Env) (sender : Address) (call : Call)
  | tokenActivity (env : Env) (token : Address) (ledger : Erc20)

def Step.time : Step → ℕ
  | .call env _ _ => env.timestamp
  | .tokenActivity env _ _ => env.timestamp

def held (tokens : Tokens) (token holder : Address) : ℕ :=
  match tokens token with
  | none => 0
  | some ledger => ledger.balances holder

def step : Step → State → Except Revert State
  | .call env sender call, s => do
      require (sender ≠ this) "this contract never calls itself"
      execute this env sender call s
  | .tokenActivity _ token ledger, s => do
      require (held s.tokens token this ≤ ledger.balances this) "not a standard token"
      .ok { s with tokens := Function.update s.tokens token (some ledger) }

end OpenGsn.StakeManager
