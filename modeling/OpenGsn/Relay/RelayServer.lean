import OpenGsn.Relay.CalldataCost
import OpenGsn.Relay.ReputationManager
import OpenGsn.RelayHub.Model
import Mathlib

/-! How `RelayServer.ts` answers a ping and checks a request, and how `RelayClient.ts` builds one.
Answers of the node and the clock are inputs, and numbers are exact. -/

namespace OpenGsn.Relay

open Solidity
open RelayHub (GasAndDataLimits RelayHubConfig)

/-! Addresses as they are written -/

def hexDigit (digit : Char) : Option ℕ :=
  if digit.isDigit then some (digit.toNat - 48)
  else if 'a' ≤ digit ∧ digit ≤ 'f' then some (digit.toNat - 87)
  else if 'A' ≤ digit ∧ digit ≤ 'F' then some (digit.toNat - 55)
  else none

def mixedCase (digits : List Char) : Bool := digits.any Char.isLower && digits.any Char.isUpper

/-- The account that a text stands for. Letters of both cases have to be a checksum. -/
def parseAddress (checksummed : AddressText → Bool) : AddressText → Option Address
  | '0' :: 'x' :: digits =>
      if digits.length = 40 ∧ (mixedCase digits = true → checksummed ('0' :: 'x' :: digits) = true) then
        (digits.mapM hexDigit).map fun values =>
          Fin.ofNat (2 ^ 160) (values.foldl (fun n value => 16 * n + value) 0)
      else none
  | _ => none

/-! Trusted paymasters -/

theorem toLowerCase_toLowerCase (text : AddressText) : toLowerCase (toLowerCase text) = toLowerCase text := by
  simp [toLowerCase, Function.comp_def]

/-- `trustedPaymastersGasAndDataLimits`; its keys are in lower case. -/
structure TrustedPaymasters where
  entries : List (AddressText × GasAndDataLimits)
  lowerCase : ∀ entry ∈ entries, toLowerCase entry.1 = entry.1

namespace TrustedPaymasters

def empty : TrustedPaymasters := ⟨[], by simp⟩

def get (paymaster : AddressText) (trusted : TrustedPaymasters) : Option GasAndDataLimits :=
  trusted.entries.lookup paymaster

def set (paymaster : AddressText) (limits : GasAndDataLimits) (trusted : TrustedPaymasters) :
    TrustedPaymasters where
  entries := (toLowerCase paymaster, limits) :: trusted.entries
  lowerCase := by
    intro entry member
    rcases List.mem_cons.mp member with rfl | member
    · exact toLowerCase_toLowerCase paymaster
    · exact trusted.lowerCase entry member

theorem get_lowerCase (trusted : TrustedPaymasters) (paymaster : AddressText) (limits : GasAndDataLimits)
    (found : trusted.get paymaster = some limits) : toLowerCase paymaster = paymaster := by
  obtain ⟨front, back, entries, _⟩ := List.lookup_eq_some_iff.mp found
  exact trusted.lowerCase (paymaster, limits) (by simp [entries])

end TrustedPaymasters

inductive CallFailure : Type
  | outOfGas
  | noCode
  | other (message : String)
  deriving DecidableEq, Repr

namespace CallFailure

def message : CallFailure → String
  | outOfGas => "Returned values aren't valid, did it run Out of Gas?"
  | noCode => "no code at address"
  | other message => message

def describe (paymaster : AddressText) : CallFailure → String
  | outOfGas => "not a valid paymaster contract: " ++ String.ofList paymaster
  | noCode => "'non-existent paymaster contract: " ++ String.ofList paymaster
  | other message => "unknown paymaster error: " ++ message

end CallFailure

/-- The answers that a server gets while it looks at one request. -/
structure NodeView where
  env : Env
  relayHubConfig : RelayHubConfig
  getGasAndDataLimits : Address → Except CallFailure GasAndDataLimits
  balanceOf : Address → ℕ
  relayCall : Bytes → ℕ → Except String Bool
  pollNonce : ℕ
  getPaymasterStatus : Address → PaymasterStatus
  secondsNow : ℕ

/-- The configuration. Lists that are compared in lower case hold accounts. -/
structure ServerConfigParams where
  url : List Char
  maxAcceptanceBudget : ℕ
  maxMaxFeePerGas : ℕ
  requestMinValidSeconds : ℕ
  runPaymasterReputations : Bool
  blacklistedPaymasters : List Address
  blacklistedRecipients : List Address
  whitelistedPaymasters : List Address
  whitelistedRecipients : List Address

structure RelayServer where
  config : ServerConfigParams
  environment : Environment
  gasOverhead : ℕ
  relayHubAddress : AddressText
  workerAddress : Address
  ready : Bool
  legacyTransactions : Bool
  minMaxPriorityFeePerGas : ℕ
  minMaxFeePerGas : ℕ
  maxGasLimit : ℕ
  trustedPaymasters : TrustedPaymasters

structure RelayMetadata where
  domainSeparatorName : Bytes
  maxAcceptanceBudget : ℕ
  relayHubAddress : AddressText
  signature : Bytes
  approvalData : Bytes
  relayMaxNonce : ℕ
  relayLastKnownNonce : ℕ

/-- A request as it is posted, with its paymaster as it is written there. -/
structure RelayTransactionRequest where
  relayRequest : RelayRequest
  paymaster : AddressText
  metadata : RelayMetadata

def RelayTransactionRequest.call (req : RelayTransactionRequest) (maxAcceptanceBudget : ℕ) : RelayCallABI where
  domainSeparatorName := req.metadata.domainSeparatorName
  maxAcceptanceBudget := maxAcceptanceBudget
  relayRequest := req.relayRequest
  signature := req.metadata.signature
  approvalData := req.metadata.approvalData

def throwIf (condition : Prop) [Decidable condition] (message : String) : Except String Unit :=
  if condition then .error message else .ok ()

@[simp] theorem throwIf_ok (condition : Prop) [Decidable condition] (message : String) (value : Unit) :
    throwIf condition message = .ok value ↔ ¬ condition := by
  unfold throwIf
  split <;> simp_all

def initTrustedPaymasters (checksummed : AddressText → Bool)
    (getGasAndDataLimits : Address → Except CallFailure GasAndDataLimits) (paymasters : List AddressText) :
    Except String TrustedPaymasters :=
  paymasters.foldlM
    (fun trusted paymaster =>
      let invalid := "not a valid paymaster address in trustedPaymasters list: " ++ String.ofList paymaster
      match parseAddress checksummed paymaster with
      | none => .error invalid
      | some account =>
          match getGasAndDataLimits account with
          | .error failure => .error (invalid ++ ": " ++ failure.message)
          | .ok limits => .ok (trusted.set paymaster limits))
    .empty

namespace RelayServer

variable (selector : Bytes) (server : RelayServer) (node : NodeView)

def isTrustedPaymaster (paymaster : AddressText) : Bool :=
  (server.trustedPaymasters.get (toLowerCase paymaster)).isSome

def getPaymasterMaxAcceptanceBudget (paymaster : AddressText) : ℕ :=
  match server.trustedPaymasters.get (toLowerCase paymaster) with
  | some limits => limits.acceptanceBudget.val
  | none => server.config.maxAcceptanceBudget

def reputationMessage : PaymasterStatus → String
  | .good => ""
  | .abused => "This paymaster has failed a lot of transactions recently is temporarily blocked by this relay"
  | .throttled =>
      "This paymaster only had a small number of successful transactions and is therefore throttled by this relay"
  | .blocked =>
      "This paymaster had too many unsuccessful transactions and is now permanently blocked by this relay"

def validatePaymasterReputation (account : Address) (paymaster : AddressText) : Except String Unit :=
  if server.isTrustedPaymaster paymaster then .ok ()
  else
    let status := node.getPaymasterStatus account
    throwIf (status ≠ .good)
      ("Refusing to serve transactions for paymaster at " ++ String.ofList paymaster ++ ": " ++
        reputationMessage status)

/-- What a ping and a request are checked for first, unless it is switched off. -/
def checkReputation (account : Address) (paymaster : AddressText) : Except String Unit :=
  if server.config.runPaymasterReputations then server.validatePaymasterReputation node account paymaster
  else .ok ()

structure PingResponse where
  relayWorkerAddress : Address
  maxAcceptanceBudget : ℕ

def pingHandler (account : Address) (paymaster : AddressText) : Except String PingResponse := do
  server.checkReputation node account paymaster
  return ⟨server.workerAddress, server.getPaymasterMaxAcceptanceBudget paymaster⟩

def validateRequestTxType (req : RelayTransactionRequest) : Except String Unit :=
  let relayData := req.relayRequest.relayData
  throwIf (server.legacyTransactions = true ∧ relayData.maxFeePerGas ≠ relayData.maxPriorityFeePerGas)
    "Current network does not support EIP-1559 transactions."

def validateGasFees (relayRequest : RelayRequest) : Except String Unit := do
  let requestPriorityFee := relayRequest.relayData.maxPriorityFeePerGas.val
  let requestMaxFee := relayRequest.relayData.maxFeePerGas.val
  throwIf (requestPriorityFee < server.minMaxPriorityFeePerGas)
    ("priorityFee given " ++ toString requestPriorityFee ++
      " too low. Minimum maxPriorityFee server accepts: " ++ toString server.minMaxPriorityFeePerGas)
  throwIf (requestMaxFee < server.minMaxFeePerGas)
    ("maxFeePerGas given " ++ toString requestMaxFee ++
      " too low. Minimum maxFeePerGas server accepts: " ++ toString server.minMaxFeePerGas)
  throwIf (server.config.maxMaxFeePerGas < requestMaxFee)
    ("maxFee given " ++ toString requestMaxFee ++ " too high : " ++ toString server.config.maxMaxFeePerGas)
  throwIf (requestMaxFee < requestPriorityFee)
    ("maxFee " ++ toString requestMaxFee ++ " cannot be lower than priorityFee " ++
      toString requestPriorityFee)

def whitelisted (list : List Address) (account : Address) : Bool :=
  list.isEmpty || list.contains account

def validateWhitelistsAndBlacklists (relayRequest : RelayRequest) : Except String Unit := do
  let paymaster := relayRequest.relayData.paymaster
  let recipient := relayRequest.request.recipient
  throwIf (server.config.blacklistedPaymasters.contains paymaster = true) "Paymaster is blacklisted!"
  throwIf (server.config.blacklistedRecipients.contains recipient = true) "Recipient is blacklisted!"
  if server.config.url.length = 0 then
    throwIf (whitelisted server.config.whitelistedPaymasters paymaster = false) "Paymaster is not whitelisted!"
    throwIf (whitelisted server.config.whitelistedRecipients recipient = false) "Recipient is not whitelisted!"

def validateInput (req : RelayTransactionRequest) : Except String Unit := do
  throwIf (req.metadata.relayHubAddress ≠ server.relayHubAddress) "Wrong hub address."
  throwIf (req.relayRequest.relayData.relayWorker ≠ server.workerAddress) "Wrong worker address"
  server.validateGasFees req.relayRequest
  server.validateWhitelistsAndBlacklists req.relayRequest
  throwIf (req.relayRequest.request.validUntilTime.val < node.secondsNow + server.config.requestMinValidSeconds)
    ("Request expired (or too close), we expect it to be valid until " ++
      toString (node.secondsNow + server.config.requestMinValidSeconds))

def validateMaxNonce (relayMaxNonce : ℕ) : Except String Unit :=
  throwIf (relayMaxNonce < node.pollNonce)
    ("Unacceptable relayMaxNonce: " ++ toString relayMaxNonce ++ ". current nonce: " ++ toString node.pollNonce)

/-- `calculateTransactionMaxPossibleGas` of `ContractInteractor.ts` -/
def calculateTransactionMaxPossibleGas (msgData : Bytes) (limits : GasAndDataLimits) (relayCallGasLimit : ℕ) :
    Except String ℕ := do
  let preRelayedCallGasLimit ← toNumber limits.preRelayedCallGasLimit.val
  let postRelayedCallGasLimit ← toNumber limits.postRelayedCallGasLimit.val
  return server.gasOverhead + server.environment.dataOnChainHandlingGasCostPerByte * msgData.length +
    calculateCalldataCost server.environment msgData + relayCallGasLimit + preRelayedCallGasLimit +
    postRelayedCallGasLimit

def effectiveAcceptanceBudget (msgData : Bytes) (limits : GasAndDataLimits) : ℕ :=
  limits.acceptanceBudget.val + msgData.length * server.environment.dataOnChainHandlingGasCostPerByte +
    calculateCalldataCost server.environment msgData

/-- The limits of the paymaster, and the budget that the server signs for it. -/
def chooseAcceptanceBudget (req : RelayTransactionRequest) (msgData : Bytes) :
    Except String (GasAndDataLimits × ℕ) :=
  match server.trustedPaymasters.get req.paymaster with
  | some limits => do
      -- it is a trusted paymaster. just use its acceptance budget as-is
      let acceptanceBudget ← toNumber limits.acceptanceBudget.val
      return (limits, acceptanceBudget)
  | none =>
      match node.getGasAndDataLimits req.relayRequest.relayData.paymaster with
      | .error failure => .error (failure.describe req.paymaster)
      | .ok limits => do
          let paymasterAcceptanceBudget ← toNumber limits.acceptanceBudget.val
          if server.config.maxAcceptanceBudget < server.effectiveAcceptanceBudget msgData limits then
            throwIf (server.isTrustedPaymaster req.paymaster = false)
              ("paymaster acceptance budget + msg.data gas cost too high. given: " ++
                toString (server.effectiveAcceptanceBudget msgData limits) ++ " max allowed: " ++
                toString server.config.maxAcceptanceBudget)
            return (limits, paymasterAcceptanceBudget)
          else
            return (limits, server.config.maxAcceptanceBudget)

/-- `GAS_RESERVE` and `GAS_FACTOR` on top of what a call may take -/
def maxPossibleGas (tmpMaxPossibleGas : ℕ) : ℕ := 100000 + tmpMaxPossibleGas * 11 / 10

def validatePaymasterGasAndDataLimits (req : RelayTransactionRequest) : Except String (ℕ × ℕ) := do
  -- the coder refuses what does not fit into a word
  throwIf (2 ^ 256 ≤ server.config.maxAcceptanceBudget) "value out-of-bounds"
  let msgData := encodeABI selector (req.call server.config.maxAcceptanceBudget)
  throwIf (req.relayRequest.relayData.transactionCalldataGasUsed.val <
    calculateCalldataCost server.environment msgData) "Refusing to relay a transaction due to calldata cost."
  let (limits, acceptanceBudget) ← server.chooseAcceptanceBudget node req msgData
  let tmpMaxPossibleGas ←
    server.calculateTransactionMaxPossibleGas msgData limits req.relayRequest.request.gas.val
  let gas := maxPossibleGas tmpMaxPossibleGas
  throwIf (server.maxGasLimit < gas)
    ("maxPossibleGas (" ++ toString gas ++ ") exceeds maxGasLimit (" ++ toString server.maxGasLimit ++ ")")
  let relayData := req.relayRequest.relayData
  match RelayHub.calculateCharge { node.env with gasPrice := relayData.maxFeePerGas.val }
      node.relayHubConfig gas relayData with
  | .error _ => .error "calculateCharge reverted"
  | .ok maxCharge =>
      throwIf (node.balanceOf relayData.paymaster < maxCharge)
        ("paymaster balance too low: " ++ toString (node.balanceOf relayData.paymaster) ++
          ", maxCharge: " ++ toString maxCharge)
      return (acceptanceBudget, gas)

def validateViewCallSucceeds (msgData : Bytes) (gas : ℕ) : Except String Unit :=
  match node.relayCall msgData gas with
  | .error message => .error ("relayCall reverted in server: " ++ message)
  | .ok paymasterAccepted => throwIf (paymasterAccepted = false) "Paymaster rejected in server"

/-- `createRelayTransaction` up to the call of `sendTransaction`; the result is the call data
that is signed there. -/
def createRelayTransaction (req : RelayTransactionRequest) : Except String Bytes := do
  throwIf (server.ready = false) "relay not ready"
  server.validateRequestTxType req
  server.validateInput node req
  validateMaxNonce node req.metadata.relayMaxNonce
  server.checkReputation node req.relayRequest.relayData.paymaster req.paymaster
  let (acceptanceBudget, gas) ← server.validatePaymasterGasAndDataLimits selector node req
  let msgData := encodeABI selector (req.call acceptanceBudget)
  validateViewCallSucceeds node msgData gas
  return msgData

end RelayServer

end OpenGsn.Relay
