import OpenGsn.GsnTypes

/-! `GsnEip712Library.sol`, and `GsnUtils.getRelayRequestID`. -/

namespace OpenGsn

open Solidity

def maxReturnSize : ℕ := 1024

def truncateInPlace (data : Bytes) : Bytes := data.take maxReturnSize

def genericParams : String :=
  "address from,address to,uint256 value,uint256 gas,uint256 nonce,bytes data,uint256 validUntilTime"

def relayDataType : String :=
  "RelayData(uint256 maxFeePerGas,uint256 maxPriorityFeePerGas," ++
    "uint256 transactionCalldataGasUsed,address relayWorker,address paymaster,address forwarder," ++
    "bytes paymasterData,uint256 clientId)"

def relayRequestName : String := "RelayRequest"

def relayRequestSuffix : String := "RelayData relayData)" ++ relayDataType

def relayRequestType : String :=
  relayRequestName ++ "(" ++ genericParams ++ "," ++ relayRequestSuffix

def eip712DomainType : String :=
  "EIP712Domain(string name,string version,uint256 chainId,address verifyingContract)"

variable (crypto : Crypto)

def relayRequestTypeHash : Uint256 := crypto.keccak256 (utf8 relayRequestType)

def hashDomain (name version : Bytes) (chainId : ℕ) (verifyingContract : Address) : Uint256 :=
  crypto.keccak256 (crypto.hashBytes (utf8 eip712DomainType) ++ crypto.hashBytes name ++
    crypto.hashBytes version ++ word chainId ++ word verifyingContract.val)

def domainSeparator (env : Env) (name : Bytes) (forwarder : Address) : Uint256 :=
  hashDomain crypto name (utf8 "3") env.chainId forwarder

def hashRelayData (req : RelayData) : Bytes :=
  crypto.hashBytes (crypto.hashBytes (utf8 relayDataType) ++ word req.maxFeePerGas.val ++
    word req.maxPriorityFeePerGas.val ++ word req.transactionCalldataGasUsed.val ++
    word req.relayWorker.val ++ word req.paymaster.val ++ word req.forwarder.val ++
    crypto.hashBytes req.paymasterData ++ word req.clientId.val)

/-- The suffix of the forward request: the encoding of one word. -/
def splitRequest (req : RelayRequest) : Bytes := hashRelayData crypto req.relayData

/-- The hash of sender, nonce and signature, with its first four bytes cleared. -/
def getRelayRequestID (req : RelayRequest) (signature : Bytes) : ℕ :=
  (crypto.keccak256 (word req.request.sender.val ++ word req.request.nonce.val ++ word 96 ++
    bytesTail signature)).val % 2 ^ 224

end OpenGsn
