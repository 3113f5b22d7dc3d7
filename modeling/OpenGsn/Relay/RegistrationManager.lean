import OpenGsn.Async.Alone
import OpenGsn.Relay.TransactionManager
import OpenGsn.RelayHub.LockWindow
import OpenGsn.Utils

/-! `RegistrationManager.ts`, which follows the stake of its relay manager by the events of the
stake manager. -/

namespace OpenGsn.Relay

open Solidity Async

structure AmountRequired where
  currentValue : ℕ
  requiredValue : ℕ
  deriving DecidableEq, Repr

def AmountRequired.isSatisfied (amount : AmountRequired) : Bool := amount.requiredValue ≤ amount.currentValue

/-- The fields. `currentRelayInfo` is the url in it. -/
structure RegistrationManager where
  balanceRequired : AmountRequired
  stakeRequired : AmountRequired
  isSetOwnerCalled : Bool
  isOwnerSetOnStakeManager : Bool
  isHubAuthorized : Bool
  isStakeLocked : Bool
  isInitialized : Bool
  ownerAddress : Option Address
  currentRelayInfo : Option String
  delayedEvents : List (ℕ × StakeManager.Event)
  deriving DecidableEq, Repr

structure RegistrationConfig where
  managerAddress : Address
  workerAddress : Address
  url : String
  ownerAddress : Address
  managerStakeTokenAddress : Address
  managerMinBalance : ℕ
  defaultGasLimit : ℕ

inductive ContractMethod : Type
  | setRelayManagerOwner (owner : Address)
  | authorizeHubByManager (relayHub : Address)
  | addRelayWorkers (newRelayWorkers : List Address)
  | registerRelayServer (relayHub : Address) (url : String)
  | withdraw (dest : Address) (amount : ℕ)
  deriving DecidableEq, Repr

/-- What is on chain: the contracts, and the url that the registrar has for the manager; the
fields; and, as a history variable, what was given to `sendTransaction`. -/
structure Registration where
  contracts : RelayHub.World
  relayUrl : Option String
  manager : RegistrationManager
  sent : List SendTransactionDetails

/-- What comes back from the node, the store or the transaction manager, as far as the chain does
not decide it. -/
structure RegistrationReply where
  error : Option String
  number : ℕ
  flag : Bool
  hash : Uint256
  deriving Inhabited

abbrev RegistrationPromise (α : Type) := Async.Promise Registration RegistrationReply String α

def RegistrationReply.result {α : Type} (value : α) (reply : RegistrationReply) : Except String α :=
  match reply.error with
  | some message => .error message
  | none => .ok value

def inquire {α : Type} (answer : RegistrationReply → Registration → α) : RegistrationPromise α :=
  Promise.serve fun reply s => (reply.result (answer reply s), s)

def field {α : Type} (read : RegistrationManager → α) : RegistrationPromise α :=
  Promise.sync fun s => (read s.manager, s)

def assign (change : RegistrationManager → RegistrationManager) : RegistrationPromise Unit :=
  Promise.sync fun s => ((), { s with manager := change s.manager })

def expect (condition : Prop) [Decidable condition] (message : String) : RegistrationPromise Unit :=
  Promise.ofExcept (if condition then .ok () else .error message)

namespace RegistrationManager

def isRegistrationCorrect (config : RegistrationConfig) (m : RegistrationManager) : Bool :=
  m.currentRelayInfo = some config.url

def isRegistered (config : RegistrationConfig) (m : RegistrationManager) : Bool :=
  m.stakeRequired.isSatisfied && m.isStakeLocked && m.isHubAuthorized && m.isRegistrationCorrect config

def restaked (stakeInfo : StakeManager.StakeInfo) (m : RegistrationManager) : RegistrationManager :=
  { m with
    isStakeLocked := stakeInfo.withdrawTime = 0
    stakeRequired := { m.stakeRequired with currentValue := stakeInfo.stake }
    ownerAddress := m.ownerAddress <|> some stakeInfo.owner }

/-- A new one. The amounts are not there before `init`. -/
def fresh : RegistrationManager := ⟨⟨0, 0⟩, ⟨0, 0⟩, false, false, false, false, false, none, none, []⟩

def watchingConfig : RegistrationConfig := ⟨31, 30, "https://relay.example", 2, 4, 0, 1000000⟩

variable (addresses : RelayHub.Immutables) (encodeABI : ContractMethod → Bytes) (config : RegistrationConfig)
  (currentBlock : ShortBlockInfo)

/-! What it asks for. -/

def getStakeInfo : RegistrationPromise StakeManager.StakeInfo :=
  inquire fun _ s => (StakeManager.getStakeInfo 0 config.managerAddress s.contracts.stakeManager).1

/-- An error of the node is an answer too, with no or any message. -/
def stakedOnHubStatus (reply : RegistrationReply) (verified : Except Revert Unit) : Except Revert Unit :=
  match reply.error with
  | some message => .error (.reason message)
  | none => verified

def isRelayManagerStakedOnHub : RegistrationPromise (Except Revert Unit) :=
  Promise.serve fun reply s =>
    (.ok (stakedOnHubStatus reply
      (RelayHub.verifyRelayManagerStaked addresses config.managerAddress s.contracts)), s)

def concerns (managerAddress : Address) : StakeManager.Event → Bool
  | .hubAuthorized relayManager _ => relayManager = managerAddress
  | .stakeAdded relayManager _ _ _ _ => relayManager = managerAddress
  | .hubUnauthorized relayManager _ _ => relayManager = managerAddress
  | .stakeUnlocked relayManager _ _ => relayManager = managerAddress
  | .stakeWithdrawn relayManager _ _ _ => relayManager = managerAddress
  | .ownerSet relayManager _ => relayManager = managerAddress
  | _ => false

def rereads : StakeManager.Event → Bool
  | .stakeAdded _ _ _ _ _ => true
  | .stakeUnlocked _ _ _ => true
  | .stakeWithdrawn _ _ _ _ => true
  | .ownerSet _ _ => true
  | _ => false

def eventsFrom (scanned : ℕ) (s : Registration) : List StakeManager.Event :=
  (s.contracts.stakeManager.events.drop scanned).filter (concerns config.managerAddress)

def getBalance : RegistrationPromise ℕ := inquire fun reply _ => reply.number

def getGasPrice : RegistrationPromise ℕ := inquire fun reply _ => reply.number

def isActionPendingOrRecentlyMined : RegistrationPromise Bool := inquire fun reply _ => reply.flag

/-- A failure may come after the transaction was made. -/
def sendTransaction (details : SendTransactionDetails) : RegistrationPromise Uint256 :=
  Promise.serve fun reply s => (reply.result reply.hash, { s with sent := s.sent ++ [details] })

def details (serverAction : ServerAction) (method : ContractMethod) (destination : Address) :
    SendTransactionDetails :=
  ⟨config.managerAddress, serverAction, some (encodeABI method), destination, none, none, none, none,
    currentBlock⟩

/-! Ether that goes back to the owner. -/

/-- `defaultEnvironment.mintxgascost` -/
def mintxgascost : ℕ := 21000

def transferDetails (signer destination : Address) (gasPrice value : ℕ) : SendTransactionDetails :=
  ⟨signer, .valueTransfer, none, destination, some value, some mintxgascost, some gasPrice, some gasPrice,
    currentBlock⟩

def sendManagerEthBalanceToOwner : RegistrationPromise (List Uint256) := do
  let gasPrice ← getGasPrice
  let txCost := mintxgascost * gasPrice
  let managerBalance ← getBalance
  let ownerAddress ← field RegistrationManager.ownerAddress
  if txCost ≤ managerBalance then do
    let transactionHash ← sendTransaction
      (transferDetails currentBlock config.managerAddress (ownerAddress.getD 0) gasPrice (managerBalance - txCost))
    pure [transactionHash]
  else pure []

/-- The cost is a product of JavaScript numbers here. -/
def sendWorkersEthBalancesToOwner : RegistrationPromise (List Uint256) := do
  let gasPrice ← getGasPrice
  let txCost ← Promise.ofExcept (numberToBN (number (mintxgascost * number gasPrice)))
  let workerBalance ← getBalance
  let ownerAddress ← field RegistrationManager.ownerAddress
  if txCost ≤ workerBalance then do
    let transactionHash ← sendTransaction
      (transferDetails currentBlock config.workerAddress (ownerAddress.getD 0) gasPrice (workerBalance - txCost))
    pure [transactionHash]
  else pure []

def sendManagerHubBalanceToOwner : RegistrationPromise (List Uint256) := do
  let ownerAddress ← field RegistrationManager.ownerAddress
  match ownerAddress with
  | none => throw "Owner address not initialized"
  | some ownerAddress => do
      let gasPrice ← getGasPrice
      let amount ← inquire fun _ s => s.contracts.hub.balances config.managerAddress
      let gasLimit ← inquire fun reply _ => reply.number
      if gasLimit * gasPrice ≤ amount then do
        let withdrawal := details encodeABI config currentBlock .depositWithdrawal
          (.withdraw ownerAddress amount) addresses.this
        let transactionHash ← sendTransaction { withdrawal with gasLimit := some gasLimit }
        pure [transactionHash]
      else pure []

def withdrawAllFunds (withdrawManager : Bool) : RegistrationPromise (List Uint256) := do
  let fromHub ← sendManagerHubBalanceToOwner addresses encodeABI config currentBlock
  let fromWorkers ← sendWorkersEthBalancesToOwner config currentBlock
  let fromManager ←
    if withdrawManager then sendManagerEthBalanceToOwner config currentBlock else pure []
  pure (fromHub ++ fromWorkers ++ fromManager)

/-! The state of the stake. -/

def refreshBalance : RegistrationPromise Unit := do
  let currentBalance ← getBalance
  assign fun m => { m with balanceRequired := { m.balanceRequired with currentValue := currentBalance } }

def refreshHubAuthorized (stakedOnHubStatus : Except Revert Unit) : RegistrationPromise (List Uint256) :=
  if stakedOnHubStatus = .ok () then do
    assign fun m => { m with isHubAuthorized := true }
    pure []
  else if stakedOnHubStatus = .error (.reason "this hub is not authorized by SM") then do
    let isAuthorizePending ← isActionPendingOrRecentlyMined
    if isAuthorizePending then pure []
    else do
      let transactionHash ← sendTransaction (details encodeABI config currentBlock .authorizeHub
        (.authorizeHubByManager addresses.this) addresses.stakeManager)
      pure [transactionHash]
  else pure []

def refreshFields (stakeInfo : StakeManager.StakeInfo) : RegistrationPromise Unit := do
  assign fun m => { m with isOwnerSetOnStakeManager := stakeInfo.owner ≠ 0 }
  expect (stakeInfo.owner = 0 ∨ stakeInfo.owner = config.ownerAddress)
    s!"This Relay Manager has set owner to already! On-chain: {stakeInfo.owner}, in config: {config.ownerAddress}"
  if stakeInfo.stake = 0 then pure () else assign (restaked stakeInfo)

def refreshStake : RegistrationPromise (List Uint256) := do
  let stakeInfo ← getStakeInfo config
  let stakedOnHubStatus ← isRelayManagerStakedOnHub addresses config
  let transactionHashes ← refreshHubAuthorized addresses encodeABI config currentBlock stakedOnHubStatus
  refreshFields config stakeInfo
  pure transactionHashes

/-! The registration. -/

def addRelayWorker : RegistrationPromise Uint256 :=
  sendTransaction (details encodeABI config currentBlock .addWorker
    (.addRelayWorkers [config.workerAddress]) addresses.this)

def isWorkerValid : RegistrationPromise Bool :=
  inquire fun _ s => s.contracts.hub.workerToManager config.workerAddress = config.managerAddress

/-- With its worker, if that is not there yet. Then the gas of the registration is not estimated. -/
def register : RegistrationPromise (List Uint256) := do
  let workersAdded ← isWorkerValid config
  let addWorkersPending ← isActionPendingOrRecentlyMined
  let registration := details encodeABI config currentBlock .registerServer
    (.registerRelayServer addresses.this config.url) addresses.relayRegistrar
  if workersAdded || addWorkersPending then do
    let transactionHash ← sendTransaction registration
    pure [transactionHash]
  else do
    let added ← addRelayWorker addresses encodeABI config currentBlock
    let transactionHash ← sendTransaction { registration with gasLimit := some config.defaultGasLimit }
    pure [added, transactionHash]

def attemptRegistration : RegistrationPromise (List Uint256) := do
  let stakeOnHubStatus ← isRelayManagerStakedOnHub addresses config
  let m ← field id
  let allPrerequisitesOk := m.isHubAuthorized && m.isStakeLocked && m.stakeRequired.isSatisfied &&
    m.balanceRequired.isSatisfied && (stakeOnHubStatus = .ok () : Bool)
  if allPrerequisitesOk then register addresses encodeABI config currentBlock
  else do
    let _ ← refreshStake addresses encodeABI config currentBlock
    refreshBalance
    pure []

def setOwnerInStakeManager : RegistrationPromise Uint256 :=
  sendTransaction (details encodeABI config currentBlock .setOwner
    (.setRelayManagerOwner config.ownerAddress) addresses.stakeManager)

def setOwnerOnce : RegistrationPromise (List Uint256) := do
  let m ← field id
  if !m.isOwnerSetOnStakeManager && m.balanceRequired.isSatisfied && !m.isSetOwnerCalled then do
    assign fun m => { m with isSetOwnerCalled := true }
    let transactionHash ← setOwnerInStakeManager addresses encodeABI config currentBlock
    pure [transactionHash]
  else pure []

/-- An error leaves no information. -/
def relayInfo (reply : RegistrationReply) (relayUrl : Option String) : Option String :=
  match reply.error with
  | some _ => none
  | none => relayUrl

def refreshRegistrarRelayInfo : RegistrationPromise Unit :=
  Promise.serve fun reply s =>
    (.ok (), { s with manager := { s.manager with currentRelayInfo := relayInfo reply s.relayUrl } })

/-! The events. -/

def handleHubUnauthorized (relayHub : Address) (removalTime : ℕ) (event : StakeManager.Event)
    (m : RegistrationManager) : RegistrationManager :=
  if relayHub = addresses.this then
    { m with isHubAuthorized := false, delayedEvents := m.delayedEvents ++ [(removalTime, event)] }
  else m

def handleHubAuthorizedEvent (relayHub : Address) (m : RegistrationManager) : RegistrationManager :=
  if relayHub = addresses.this then { m with isHubAuthorized := true } else m

def handleEvent (event : StakeManager.Event) : RegistrationPromise (List Uint256) :=
  match event with
  | .hubAuthorized _ relayHub => do
      assign (handleHubAuthorizedEvent addresses relayHub)
      pure []
  | .ownerSet _ _ => refreshStake addresses encodeABI config currentBlock
  | .stakeAdded _ _ _ _ _ => refreshStake addresses encodeABI config currentBlock
  | .hubUnauthorized _ relayHub removalTime => do
      assign (handleHubUnauthorized addresses relayHub removalTime event)
      pure []
  | .stakeUnlocked _ _ _ => refreshStake addresses encodeABI config currentBlock
  | .stakeWithdrawn _ _ _ _ => do
      let refreshed ← refreshStake addresses encodeABI config currentBlock
      let withdrawn ← withdrawAllFunds addresses encodeABI config currentBlock true
      pure (refreshed ++ withdrawn)
  | _ => pure []

def handleEvents : List StakeManager.Event → RegistrationPromise (List Uint256)
  | [] => pure []
  | event :: rest => do
      let first ← handleEvent addresses encodeABI config currentBlock event
      let others ← handleEvents rest
      pure (first ++ others)

def extractDuePendingEvents : RegistrationPromise (List StakeManager.Event) :=
  Promise.sync fun s =>
    let due := s.manager.delayedEvents.filter fun event => event.1 ≤ currentBlock.timestamp
    let later := s.manager.delayedEvents.filter fun event => currentBlock.timestamp < event.1
    (due.map Prod.snd, { s with manager := { s.manager with delayedEvents := later } })

/-- Only hubs that are no longer authorized are handled late. -/
def handleDueEvents : List StakeManager.Event → RegistrationPromise (List Uint256)
  | [] => pure []
  | _ :: rest => do
      let first ← withdrawAllFunds addresses encodeABI config currentBlock false
      let others ← handleDueEvents rest
      pure (first ++ others)

def registerAgain (forceRegistration : Bool) : RegistrationPromise (List Uint256) := do
  let isRegistrationCorrect ← field (isRegistrationCorrect config)
  let isRegistrationPending ← isActionPendingOrRecentlyMined
  if !(isRegistrationPending || isRegistrationCorrect) || forceRegistration then
    attemptRegistration addresses encodeABI config currentBlock
  else pure []

def concludeEvents (forceRegistration : Bool) : RegistrationPromise (List Uint256) := do
  let due ← extractDuePendingEvents currentBlock
  let handledLate ← handleDueEvents addresses encodeABI config currentBlock due
  refreshRegistrarRelayInfo
  let registered ← registerAgain addresses encodeABI config currentBlock forceRegistration
  pure (handledLate ++ registered)

/-- `scanned` is the position of the first event after the last scanned block. -/
def handlePastEvents (scanned : ℕ) (forceRegistration : Bool) : RegistrationPromise (List Uint256) := do
  let isInitialized ← field RegistrationManager.isInitialized
  expect (isInitialized = true) "RegistrationManager not initialized"
  let decodedEvents ← inquire fun _ s => eventsFrom config scanned s
  let ownerSet ← setOwnerOnce addresses encodeABI config currentBlock
  let handled ← handleEvents addresses encodeABI config currentBlock decodedEvents
  let concluded ← concludeEvents addresses encodeABI config currentBlock forceRegistration
  pure (ownerSet ++ handled ++ concluded)

def init (latestBlock : ShortBlockInfo) : RegistrationPromise (List Uint256) := do
  let _tokenMetadata ← inquire fun _ _ => ()
  let minimumStakePerToken ← inquire fun _ s =>
    s.contracts.hub.minimumStakePerToken config.managerStakeTokenAddress
  assign fun m => { m with
    balanceRequired := ⟨0, config.managerMinBalance⟩
    stakeRequired := ⟨0, minimumStakePerToken⟩ }
  refreshBalance
  let transactionHashes ← refreshStake addresses encodeABI config latestBlock
  assign fun m => { m with isInitialized := true }
  pure transactionHashes

end RegistrationManager

end OpenGsn.Relay
