import OpenGsn.Solidity.Calldata
import OpenGsn.GsnEip712Library

/-! The calldata of `relayCall` and its cost, of `ContractInteractor.ts`. Numbers are exact. -/

namespace OpenGsn

open Solidity

/-- What `calculateCalldataCost` and its callers read of the environment. -/
structure Environment where
  gtxdatazero : ℕ
  gtxdatanonzero : ℕ
  dataOnChainHandlingGasCostPerByte : ℕ
  deriving DecidableEq, Repr

def ethereumMainnet : Environment := ⟨4, 16, 13⟩

structure RelayCallABI where
  domainSeparatorName : Bytes
  maxAcceptanceBudget : ℕ
  relayRequest : RelayRequest
  signature : Bytes
  approvalData : Bytes

def encodeForwardRequest (request : ForwardRequest) : Bytes :=
  encodeTuple [.static (word request.sender.val), .static (word request.recipient.val),
    .static (word request.value.val), .static (word request.gas.val), .static (word request.nonce.val),
    .dynamic (bytesTail request.data), .static (word request.validUntilTime.val)]

def encodeRelayData (relayData : RelayData) : Bytes :=
  encodeTuple [.static (word relayData.maxFeePerGas.val), .static (word relayData.maxPriorityFeePerGas.val),
    .static (word relayData.transactionCalldataGasUsed.val), .static (word relayData.relayWorker.val),
    .static (word relayData.paymaster.val), .static (word relayData.forwarder.val),
    .dynamic (bytesTail relayData.paymasterData), .static (word relayData.clientId.val)]

def encodeRelayRequest (relayRequest : RelayRequest) : Bytes :=
  encodeTuple [.dynamic (encodeForwardRequest relayRequest.request),
    .dynamic (encodeRelayData relayRequest.relayData)]

/-- The call data of `relayCall`, behind its selector. -/
def encodeABI (selector : Bytes) (call : RelayCallABI) : Bytes :=
  selector ++ encodeTuple [.dynamic (bytesTail call.domainSeparatorName),
    .static (word call.maxAcceptanceBudget), .dynamic (encodeRelayRequest call.relayRequest),
    .dynamic (bytesTail call.signature), .dynamic (bytesTail call.approvalData)]

variable (environment : Environment) (selector : Bytes)

def calculateCalldataCost (msgData : Bytes) : ℕ :=
  zeroBytes msgData * environment.gtxdatazero + nonzeroBytes msgData * environment.gtxdatanonzero

/-- The limits on the data that a client adds to its requests. -/
structure VariableFieldSizes where
  maxApprovalDataLength : ℕ
  maxPaymasterDataLength : ℕ
  deriving DecidableEq, Repr

def maximalRelayData (sizes : VariableFieldSizes) (relayData : RelayData) : RelayData :=
  { relayData with
    transactionCalldataGasUsed := 0xffffffffff
    paymasterData := List.replicate sizes.maxPaymasterDataLength 0xff }

/-- The largest call that the request can become, with `0xff` for all that is not known yet. -/
def maximalCall (domainSeparatorName : Bytes) (relayRequest : RelayRequest) (sizes : VariableFieldSizes) :
    RelayCallABI where
  domainSeparatorName := domainSeparatorName
  maxAcceptanceBudget := 0xffffffffff
  relayRequest := { relayRequest with relayData := maximalRelayData sizes relayRequest.relayData }
  signature := List.replicate 65 0xff
  approvalData := List.replicate sizes.maxApprovalDataLength 0xff

def estimateCalldataCostForRequest (domainSeparatorName : Bytes) (relayRequest : RelayRequest)
    (sizes : VariableFieldSizes) : ℕ :=
  calculateCalldataCost environment (encodeABI selector (maximalCall domainSeparatorName relayRequest sizes))

end OpenGsn
