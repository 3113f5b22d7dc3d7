import OpenGsn.Relay.RelayServer
import OpenGsn.Relay.TransactionManager

/-! `createRelayTransaction` of `RelayServer.ts`, cut at its awaits, and what else the server does with its
transaction manager. -/

namespace OpenGsn.Relay

open Solidity Async

/-- The places between which a request waits. -/
inductive Moment : Type
  | arrival
  | block
  | reputation
  | limits
  | viewCall
  deriving DecidableEq, Repr

/-- The fields of the server, which other tasks may change while a request waits, and what it is told. -/
structure Sight where
  server : RelayServer
  alerted : Bool
  node : NodeView

variable (config : Config) (hash : SignedTransaction → Uint256) (selector : Bytes) (relayHub : Address)

def awaited {α : Type} (result : Except String α) : Promise α := do
  ask Reply.ok
  Promise.ofExcept result

/-- The details of the transaction for a request, with its budget and its gas. The account that the hub's address
in the request stands for is `relayHub`: `validateInput` has compared the texts. -/
def relayCallDetails (req : RelayTransactionRequest) (currentBlock : ShortBlockInfo)
    (acceptanceBudget maxPossibleGas : ℕ) : SendTransactionDetails where
  signer := config.workerAddress
  serverAction := .relayCall
  method := some (encodeABI selector (req.call acceptanceBudget))
  destination := relayHub
  value := none
  gasLimit := some maxPossibleGas
  maxFeePerGas := some req.relayRequest.relayData.maxFeePerGas.val
  maxPriorityFeePerGas := some req.relayRequest.relayData.maxPriorityFeePerGas.val
  creationBlock := currentBlock

/-- The transactions with the nonces from `fromNonce` on and before `nonce`. -/
def getNonceGapFilled (signer : Address) (fromNonce nonce : ℕ) : Promise (List (ℕ × StoredTransaction)) :=
  readStore fun store =>
    match nonce with
    | 0 => []
    | toNonce + 1 => (store.getTxsInNonceRange signer fromNonce toNonce).map fun tx => (tx.nonce, tx)

def slowDown (alerted : Bool) : Promise Unit :=
  if alerted then ask Reply.ok else pure ()

/-- `createRelayTransaction` up to `onRelayRequestAccepted`: the block, the budget and the gas. -/
def validateRequest (seen : Moment → Sight) (req : RelayTransactionRequest) :
    Promise (ShortBlockInfo × ℕ × ℕ) := do
  check ((seen .arrival).server.ready = true) "relay not ready"
  Promise.ofExcept ((seen .arrival).server.validateRequestTxType req)
  slowDown (seen .arrival).alerted
  let currentBlock ← ask Reply.asBlock
  Promise.ofExcept ((seen .block).server.validateInput (seen .block).node req)
  validateMaxNonce config req.metadata.relayMaxNonce
  awaited ((seen .reputation).server.checkReputation (seen .reputation).node
    req.relayRequest.relayData.paymaster req.paymaster)
  let limits ← awaited ((seen .limits).server.validatePaymasterGasAndDataLimits selector (seen .limits).node req)
  awaited (RelayServer.validateViewCallSucceeds (seen .viewCall).node (encodeABI selector (req.call limits.1))
    limits.2)
  pure (currentBlock, limits)

/-- The money for it is sent to the worker by a task of its own. -/
def createRelayTransaction (task : ℕ) (seen : Moment → Sight) (req : RelayTransactionRequest) :
    Promise (SignedTransaction × List (ℕ × StoredTransaction)) := do
  let (currentBlock, acceptanceBudget, maxPossibleGas) ← validateRequest config selector seen req
  -- `onRelayRequestAccepted`
  ask Reply.ok
  let signed ← sendTransaction config hash task
    (relayCallDetails config selector relayHub req currentBlock acceptanceBudget maxPossibleGas)
  let nonceGapFilled ← getNonceGapFilled config.workerAddress req.metadata.relayLastKnownNonce signed.tx.nonce
  -- `replenishServer`
  ask Reply.ok
  pure (signed, nonceGapFilled)

/-- The transfer of `_sendWorkersEthBalancesToOwner`. -/
def drainDetails (owner : Address) (gasPrice value : ℕ) (currentBlock : ShortBlockInfo) :
    SendTransactionDetails :=
  ⟨config.workerAddress, .valueTransfer, none, owner, some value, some 21000, some gasPrice, some gasPrice,
    currentBlock⟩

/-- All that the server uses its transaction manager for. What the registration, the replenishing, the
withdrawals and the penalizer send is signed by the manager. -/
inductive Duty : Type
  | relay (seen : Moment → Sight) (req : RelayTransactionRequest)
  | manage (details : SendTransactionDetails)
  | drain (owner : Address) (gasPrice value : ℕ) (currentBlock : ShortBlockInfo)
  | boost (signer : Address) (currentBlock : ShortBlockInfo) (minMaxPriorityFee : ℕ)
  | archive (currentBlock : ShortBlockInfo)

def duty (task : ℕ) : Duty → Proc State Reply Unit
  | .relay seen req => ended (createRelayTransaction config hash selector relayHub task seen req)
  | .manage details =>
      ended (sendTransaction config hash task { details with signer := config.managerAddress })
  | .drain owner gasPrice value currentBlock =>
      ended (sendTransaction config hash task (drainDetails config owner gasPrice value currentBlock))
  | .boost signer currentBlock minMaxPriorityFee =>
      ended (boostUnderpricedPendingTransactionsForSigner config hash signer currentBlock minMaxPriorityFee)
  | .archive currentBlock => ended (do
      fillMinedBlockDetailsForTransactions config currentBlock
      removeArchivedTransactions config currentBlock)

abbrev DutyEvent := Async.Event Duty Reply (Address → ℕ) TransactionType

def serve (events : List DutyEvent) (w : World State Reply) : World State Reply :=
  World.run (duty config hash selector relayHub) mine restart events w

end OpenGsn.Relay
