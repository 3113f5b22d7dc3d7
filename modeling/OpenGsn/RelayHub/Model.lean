import OpenGsn.RelayHub.Status
import OpenGsn.RelayHub.Charge
import OpenGsn.Forwarder.Model
import OpenGsn.StakeManager.Model

/-! `RelayHub.sol`, with `RelayHubValidator.sol`, in a world with its stake manager and with
forwarders. -/

namespace OpenGsn.RelayHub

open Solidity Reentry

inductive Event : Type
  | relayHubConfigured (config : RelayHubConfig)
  | stakingTokenDataChanged (token : Address) (minimumStake : ℕ)
  | relayWorkersAdded (relayManager : Address) (newRelayWorkers : List Address) (workersCount : ℕ)
  | deposited (paymaster sender : Address) (amount : ℕ)
  | withdrawn (account dest : Address) (amount : ℕ)
  | transactionRejectedByPaymaster (relayManager paymaster : Address) (relayRequestID : ℕ)
      (sender recipient relayWorker : Address) (selector : Bytes) (innerGasUsed : ℕ) (reason : Bytes)
  | transactionRelayed (relayManager relayWorker : Address) (relayRequestID : ℕ)
      (sender recipient paymaster : Address) (selector : Bytes) (status : RelayCallStatus) (charge : ℕ)
  | transactionResult (status : RelayCallStatus) (returnValue : Bytes)
  | hubDeprecated (deprecationTime : ℕ)
  | abandonedRelayManagerBalanceEscheated (relayManager : Address) (balance : ℕ)
  deriving DecidableEq, Repr

structure Hub where
  owner : Address
  config : RelayHubConfig
  minimumStakePerToken : Address → ℕ
  workerToManager : Address → Address
  workerCount : Address → ℕ
  balances : Address → ℕ
  deprecationTime : ℕ
  events : List Event

namespace Hub

@[simps -fullyApplied]
def setBalance (h : Hub) (account : Address) (balance : ℕ) : Hub :=
  { h with balances := Function.update h.balances account balance }

@[simps -fullyApplied]
def emit (h : Hub) (event : Event) : Hub := { h with events := h.events ++ [event] }

end Hub

/-- `ether` is what the hub holds. `received` and `paidOut` are history variables: the ether
that came in by `depositFor` and went out by `withdrawMultiple`. -/
structure World where
  hub : Hub
  ether : ℕ
  received : ℕ
  paidOut : ℕ
  stakeManager : StakeManager.State
  forwarders : Address → Forwarder.State

namespace World

@[simps -fullyApplied]
def setHub (hub : Hub) (w : World) : World := { w with hub }

@[simps -fullyApplied]
def setStakeManager (stakeManager : StakeManager.State) (w : World) : World := { w with stakeManager }

@[simps -fullyApplied]
def setForwarder (account : Address) (forwarder : Forwarder.State) (w : World) : World :=
  { w with forwarders := Function.update w.forwarders account forwarder }

/-- Ether sent along with a call of `depositFor`. -/
@[simps -fullyApplied]
def receive (value : ℕ) (w : World) : World :=
  { w with ether := w.ether + value, received := w.received + value }

/-- Ether sent from `withdrawMultiple`. -/
@[simps -fullyApplied]
def send (amount : ℕ) (w : World) : World :=
  { w with ether := w.ether - amount, paidOut := w.paidOut + amount }

end World

/-- The hub's own address and the addresses given to its constructor. -/
structure Immutables where
  this : Address
  stakeManager : Address
  penalizer : Address
  batchGateway : Address
  relayRegistrar : Address

structure GasAndDataLimits where
  acceptanceBudget : Uint256
  preRelayedCallGasLimit : Uint256
  postRelayedCallGasLimit : Uint256
  calldataSizeLimit : Uint256
  deriving DecidableEq, Repr

/-- The arguments of `relayCall`, and the length of the whole call data. -/
structure RelayCallArgs where
  domainSeparatorName : Bytes
  maxAcceptanceBudget : Uint256
  relayRequest : RelayRequest
  signature : Bytes
  approvalData : Bytes
  msgDataLength : ℕ
  deriving DecidableEq, Repr

structure RelayCallResult where
  paymasterAccepted : Bool
  charge : ℕ
  status : RelayCallStatus
  returnValue : Bytes
  deriving DecidableEq, Repr

/-- The outgoing calls, those of the forwarders included. -/
inductive Outgoing : Type
  | withdrawal (dest : Address) (amount : ℕ)
  | preRelayedCall (paymaster : Address) (gas : Uint256) (relayRequest : RelayRequest)
      (signature approvalData : Bytes) (maxPossibleGas : ℕ)
  | execute (forwarder : Address) (request : ForwardRequest)
      (domainSeparator requestTypeHash : Uint256) (suffixData signature : Bytes)
  | postRelayedCall (paymaster : Address) (gas : Uint256) (context : Bytes) (success : Bool)
      (gasUseWithoutPost : ℕ) (relayData : RelayData)
  | forwarder (account : Address) (call : Forwarder.Outgoing)
  deriving DecidableEq, Repr

abbrev HubCode := Code World Outgoing Bytes Revert

variable (crypto : Crypto) (addresses : Immutables) (env : Env)

def setConfiguration (sender : Address) (config : RelayHubConfig) (h : Hub) : Except Revert Hub := do
  onlyOwner h.owner sender
  require (config.devFee.val < 100) "dev fee too high"
  .ok ({ h with config }.emit (.relayHubConfigured config))

def deploy (sender : Address) (config : RelayHubConfig) : Except Revert Hub :=
  setConfiguration sender config {
    owner := sender
    config := ⟨0, 0, 0, 0, 0, 0, 0, 0, 0⟩
    minimumStakePerToken := fun _ => 0
    workerToManager := fun _ => 0
    workerCount := fun _ => 0
    balances := fun _ => 0
    deprecationTime := uint256Max
    events := [] }

def setMinimumStakesLoop : List (Address × ℕ) → Hub → Hub
  | [], h => h
  | (token, minimumStake) :: rest, h =>
      setMinimumStakesLoop rest
        ({ h with
          minimumStakePerToken := Function.update h.minimumStakePerToken token minimumStake }.emit
            (.stakingTokenDataChanged token minimumStake))

def setMinimumStakes (sender : Address) (token : List Address) (minimumStake : List ℕ) (h : Hub) :
    Except Revert Hub := do
  onlyOwner h.owner sender
  require (token.length = minimumStake.length) "setMinimumStakes: wrong length"
  .ok (setMinimumStakesLoop (token.zip minimumStake) h)

def isDeprecated (h : Hub) : Bool := h.deprecationTime ≤ env.timestamp

def deprecateHub (sender : Address) (deprecationTime : ℕ) (h : Hub) : Except Revert Hub := do
  onlyOwner h.owner sender
  require (isDeprecated env h = false) "Already deprecated"
  .ok ({ h with deprecationTime }.emit (.hubDeprecated deprecationTime))

def verifyRelayManagerStaked (relayManager : Address) (w : World) : Except Revert Unit := do
  let (info, isHubAuthorized) := StakeManager.getStakeInfo addresses.this relayManager w.stakeManager
  let minimumStake := w.hub.minimumStakePerToken info.token
  require (info.token ≠ 0) "relay manager not staked"
  require (minimumStake ≤ info.stake) "stake amount is too small"
  require (minimumStake ≠ 0) "staking this token is forbidden"
  require (w.hub.config.minimumUnstakeDelay.val ≤ info.unstakeDelay) "unstake delay is too small"
  require (info.withdrawTime = 0) "stake has been withdrawn"
  require isHubAuthorized "this hub is not authorized by SM"

def onRelayServerRegistered (sender relayManager : Address) (w : World) : Except Revert World := do
  require (sender = addresses.relayRegistrar) "caller is not relay registrar"
  verifyRelayManagerStaked addresses relayManager w
  require (0 < w.hub.workerCount relayManager) "no relay workers"
  let stakeManager ←
    StakeManager.updateRelayKeepaliveTime env addresses.this relayManager w.stakeManager
  .ok (w.setStakeManager stakeManager)

def addRelayWorkersLoop (relayManager : Address) : List Address → Hub → Except Revert Hub
  | [], h => .ok h
  | worker :: rest, h => do
      require (h.workerToManager worker = 0) "this worker has a manager"
      addRelayWorkersLoop relayManager rest
        { h with workerToManager := Function.update h.workerToManager worker relayManager }

def addRelayWorkers (sender : Address) (newRelayWorkers : List Address) (w : World) :
    Except Revert World := do
  let newWorkerCount ← checkedAdd 256 (w.hub.workerCount sender) newRelayWorkers.length
  let hub := { w.hub with workerCount := Function.update w.hub.workerCount sender newWorkerCount }
  require (newWorkerCount ≤ hub.config.maxWorkerCount.val) "too many workers"
  verifyRelayManagerStaked addresses sender (w.setHub hub)
  let hub ← addRelayWorkersLoop sender newRelayWorkers hub
  .ok (w.setHub (hub.emit (.relayWorkersAdded sender newRelayWorkers newWorkerCount)))

/-- `supportsInterface` is the answer of the target. -/
def depositFor (sender target : Address) (supportsInterface : Bool) (amount : ℕ) (h : Hub) :
    Except Revert Hub := do
  require supportsInterface "target is not a valid IPaymaster"
  let balance ← checkedAdd 256 (h.balances target) amount
  .ok ((h.setBalance target balance).emit (.deposited target sender amount))

/-- The loop over `amount`. The hub itself takes no plain ether, so a transfer to it fails, as
does one of more ether than the hub has. -/
def withdrawMultiple (account : Address) : List Address → List ℕ → World → HubCode Unit
  | _, [], w => .done w ()
  | dest, amount :: amounts, w =>
      let balance := w.hub.balances account
      .check (require (amount ≤ balance) "insufficient funds") fun _ =>
      match dest with
      -- the index is out of bounds
      | [] => .revert (.panic 0x32)
      | target :: dests =>
          let w := w.setHub (w.hub.setBalance account (balance - amount))
          if w.ether < amount ∨ target = addresses.this then
            .revert (.reason "Transfer failed.")
          else
            .call (.withdrawal target amount) w (w.send amount) fun w answer =>
              match answer with
              | .ok _ => withdrawMultiple account dests amounts
                  (w.setHub (w.hub.emit (.withdrawn account target amount)))
              | .error _ => .revert (.reason "Transfer failed.")

def withdraw (account dest : Address) (amount : ℕ) (w : World) : HubCode Unit :=
  withdrawMultiple addresses account [dest] [amount] w

def penalize (sender relayWorker beneficiary : Address) (w : World) : Except Revert World := do
  require (sender = addresses.penalizer) "Not penalizer"
  let relayManager := w.hub.workerToManager relayWorker
  require (relayManager ≠ 0) "Unknown relay worker"
  let (stakeInfo, _) := StakeManager.getStakeInfo addresses.this relayManager w.stakeManager
  require (0 < stakeInfo.stake) "relay manager not staked"
  let stakeManager ← StakeManager.penalizeRelayManager addresses.stakeManager env addresses.this
    relayManager beneficiary stakeInfo.stake w.stakeManager
  .ok (w.setStakeManager stakeManager)

def escheatAbandonedRelayBalance (sender relayManager : Address) (w : World) :
    Except Revert World := do
  onlyOwner w.hub.owner sender
  let escheatable ← StakeManager.isRelayEscheatable env relayManager w.stakeManager
  require escheatable "relay server not escheatable yet"
  let balance := w.hub.balances relayManager
  let hub := w.hub.setBalance relayManager 0
  let devBalance ← checkedAdd 256 (hub.balances hub.config.devAddress) balance
  .ok (w.setHub ((hub.setBalance hub.config.devAddress devBalance).emit
    (.abandonedRelayManagerBalanceEscheated relayManager balance)))

end OpenGsn.RelayHub
