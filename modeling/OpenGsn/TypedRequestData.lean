import OpenGsn.Eip712
import OpenGsn.Forwarder.Model

/-! `TypedRequestData.ts`, and the digest that the forwarder checks. -/

namespace OpenGsn

open Solidity Eip712

def eip712DomainMembers : List Member :=
  [⟨"name", "string"⟩, ⟨"version", "string"⟩, ⟨"chainId", "uint256"⟩, ⟨"verifyingContract", "address"⟩]

def relayDataMembers : List Member :=
  [⟨"maxFeePerGas", "uint256"⟩, ⟨"maxPriorityFeePerGas", "uint256"⟩,
    ⟨"transactionCalldataGasUsed", "uint256"⟩, ⟨"relayWorker", "address"⟩, ⟨"paymaster", "address"⟩,
    ⟨"forwarder", "address"⟩, ⟨"paymasterData", "bytes"⟩, ⟨"clientId", "uint256"⟩]

def forwardRequestMembers : List Member :=
  [⟨"from", "address"⟩, ⟨"to", "address"⟩, ⟨"value", "uint256"⟩, ⟨"gas", "uint256"⟩,
    ⟨"nonce", "uint256"⟩, ⟨"data", "bytes"⟩, ⟨"validUntilTime", "uint256"⟩]

def relayRequestMembers : List Member := forwardRequestMembers ++ [⟨"relayData", "RelayData"⟩]

def requestTypes : Types :=
  [("EIP712Domain", eip712DomainMembers), ("RelayRequest", relayRequestMembers),
    ("RelayData", relayDataMembers)]

def gsnDomainSeparatorVersion : String := "3"

/-- `getDomainSeparator` -/
def domainFields (name : String) (verifier : Address) (chainId : ℕ) : List (String × Value) :=
  [("name", .string name), ("version", .string gsnDomainSeparatorVersion), ("chainId", .uint256 chainId),
    ("verifyingContract", .address verifier)]

def getDomainSeparatorHash (crypto : Crypto) (name : String) (verifier : Address) (chainId : ℕ) :
    Option Bytes :=
  hashStruct crypto [("EIP712Domain", eip712DomainMembers)] "EIP712Domain"
    (domainFields name verifier chainId)

def forwardRequestFields (request : ForwardRequest) : List (String × Value) :=
  [("to", .address request.recipient), ("data", .bytes request.data), ("from", .address request.sender),
    ("value", .uint256 request.value.val), ("nonce", .uint256 request.nonce.val),
    ("gas", .uint256 request.gas.val), ("validUntilTime", .uint256 request.validUntilTime.val)]

def relayDataFields (relayData : RelayData) : List (String × Value) :=
  [("relayWorker", .address relayData.relayWorker),
    ("transactionCalldataGasUsed", .uint256 relayData.transactionCalldataGasUsed.val),
    ("paymasterData", .bytes relayData.paymasterData),
    ("maxFeePerGas", .uint256 relayData.maxFeePerGas.val),
    ("maxPriorityFeePerGas", .uint256 relayData.maxPriorityFeePerGas.val),
    ("paymaster", .address relayData.paymaster), ("clientId", .uint256 relayData.clientId.val),
    ("forwarder", .address relayData.forwarder)]

/-- The fields of the request stand at the top of the message. -/
def typedRequestData (name : String) (chainId : ℕ) (verifier : Address) (relayRequest : RelayRequest) :
    TypedMessage where
  types := requestTypes
  domain := domainFields name verifier chainId
  primaryType := "RelayRequest"
  message := forwardRequestFields relayRequest.request ++
    [("relayData", .struct (relayDataFields relayRequest.relayData))]

/-- `GsnRequestType`, with which the type of the requests is registered. -/
def gsnRequestTypeName : String := "RelayRequest"

def gsnRequestTypeSuffix : String :=
  "RelayData relayData)RelayData(uint256 maxFeePerGas,uint256 maxPriorityFeePerGas," ++
    "uint256 transactionCalldataGasUsed,address relayWorker,address paymaster,address forwarder," ++
    "bytes paymasterData,uint256 clientId)"

theorem encodeType_domain : encodeType requestTypes "EIP712Domain" = eip712DomainType := by
  decide +kernel

theorem encodeType_relayData : encodeType requestTypes "RelayData" = relayDataType := by
  decide +kernel

theorem encodeType_relayRequest : encodeType requestTypes "RelayRequest" = relayRequestType := by
  decide +kernel

theorem encodeType_domainOnly :
    encodeType [("EIP712Domain", eip712DomainMembers)] "EIP712Domain" = eip712DomainType := by
  decide +kernel

variable (crypto : Crypto)

theorem hashStruct_domain (types : Types) (name : String) (verifier : Address) (env : Env)
    (declared : types.lookup "EIP712Domain" = some eip712DomainMembers)
    (encoded : encodeType types "EIP712Domain" = eip712DomainType) :
    hashStruct crypto types "EIP712Domain" (domainFields name verifier env.chainId) =
      some (word (domainSeparator crypto env (utf8 name) verifier).val) := by
  have words : eip712DomainMembers.map (memberWord crypto types (domainFields name verifier env.chainId)) =
      [crypto.hashBytes (utf8 name), crypto.hashBytes (utf8 gsnDomainSeparatorVersion), word env.chainId,
        word verifier.val].map some := rfl
  rw [hashStruct_eq crypto types _ _ eip712DomainMembers _ declared words, encoded]
  simp [domainSeparator, hashDomain, Crypto.hashBytes, gsnDomainSeparatorVersion]

theorem hashStruct_relayData (relayData : RelayData) :
    hashStruct crypto requestTypes "RelayData" (relayDataFields relayData) =
      some (hashRelayData crypto relayData) := by
  have words : relayDataMembers.map (memberWord crypto requestTypes (relayDataFields relayData)) =
      [word relayData.maxFeePerGas.val, word relayData.maxPriorityFeePerGas.val,
        word relayData.transactionCalldataGasUsed.val, word relayData.relayWorker.val,
        word relayData.paymaster.val, word relayData.forwarder.val,
        crypto.hashBytes relayData.paymasterData, word relayData.clientId.val].map some := rfl
  rw [hashStruct_eq crypto requestTypes _ _ relayDataMembers _ rfl words, encodeType_relayData]
  simp [hashRelayData]

theorem hashStruct_relayRequest (relayRequest : RelayRequest) :
    hashStruct crypto requestTypes "RelayRequest"
        (forwardRequestFields relayRequest.request ++
          [("relayData", .struct (relayDataFields relayRequest.relayData))]) =
      some (crypto.hashBytes (Forwarder.getEncoded crypto relayRequest.request
        (relayRequestTypeHash crypto) (splitRequest crypto relayRequest))) := by
  have words : relayRequestMembers.map (memberWord crypto requestTypes
        (forwardRequestFields relayRequest.request ++
          [("relayData", .struct (relayDataFields relayRequest.relayData))])) =
      [word relayRequest.request.sender.val, word relayRequest.request.recipient.val,
        word relayRequest.request.value.val, word relayRequest.request.gas.val,
        word relayRequest.request.nonce.val, crypto.hashBytes relayRequest.request.data,
        word relayRequest.request.validUntilTime.val].map some ++
      [hashStruct crypto requestTypes "RelayData" (relayDataFields relayRequest.relayData)] := rfl
  rw [hashStruct_relayData] at words
  rw [hashStruct_eq crypto requestTypes _ _ relayRequestMembers
    (_ ++ [hashRelayData crypto relayRequest.relayData]) rfl (by rw [words, List.map_append]; rfl),
    encodeType_relayRequest]
  simp [Forwarder.getEncoded, splitRequest, relayRequestTypeHash, Crypto.hashBytes]

/-- The digest of the typed data that a client signs is the one that the forwarder recovers
the signer from. -/
theorem digest_typedRequestData (env : Env) (name : String) (forwarder : Address)
    (relayRequest : RelayRequest) :
    Eip712.digest crypto (typedRequestData name env.chainId forwarder relayRequest) =
      some (Forwarder.digest crypto relayRequest.request
        (domainSeparator crypto env (utf8 name) forwarder) (relayRequestTypeHash crypto)
        (splitRequest crypto relayRequest)) := by
  have domain := hashStruct_domain crypto requestTypes name forwarder env rfl encodeType_domain
  have message := hashStruct_relayRequest crypto relayRequest
  simp only [Eip712.digest, typedRequestData, domain, message, Option.bind_some, Option.map_some]
  rfl

/-- The domain and the type of the requests, registered as `GsnDomainSeparatorType` and
`GsnRequestType` say, are those that the digest is checked against. -/
theorem registered_typedRequestData (this : Address) (env : Env) (name : String) (s : Forwarder.State) :
    getDomainSeparatorHash crypto name this env.chainId =
      some (word (domainSeparator crypto env (utf8 name) this).val) ∧
    (Forwarder.registerDomainSeparator crypto this env (utf8 name) (utf8 gsnDomainSeparatorVersion)
      s).domains (domainSeparator crypto env (utf8 name) this) = true ∧
    ∃ next, Forwarder.registerRequestType crypto (utf8 gsnRequestTypeName) (utf8 gsnRequestTypeSuffix) s =
        .ok next ∧
      next.typeHashes (relayRequestTypeHash crypto) = true := by
  have domain := hashStruct_domain crypto [("EIP712Domain", eip712DomainMembers)] name this env rfl
    encodeType_domainOnly
  have requestType : utf8 gsnRequestTypeName ++ utf8 "(" ++ utf8 genericParams ++ utf8 "," ++
      utf8 gsnRequestTypeSuffix = utf8 relayRequestType := by decide +kernel
  have plain : (utf8 gsnRequestTypeName).all (fun c => c ≠ 0x28 ∧ c ≠ 0x29) = true := by decide +kernel
  refine ⟨domain, Function.update_self _ _ _, _, by rw [Forwarder.registerRequestType, require, if_pos plain]; rfl, ?_⟩
  rw [Forwarder.registerRequestTypeInternal, requestType]
  exact Function.update_self _ _ _

end OpenGsn
