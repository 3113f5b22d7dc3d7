import OpenGsn.Solidity.Abi

/-! `IForwarder.ForwardRequest` and `GsnTypes.sol`. The fields `from` and `to` of the source are
`sender` and `recipient` here, their names being keywords. -/

namespace OpenGsn

open Solidity

structure ForwardRequest where
  sender : Address
  recipient : Address
  value : Uint256
  gas : Uint256
  nonce : Uint256
  data : Bytes
  validUntilTime : Uint256
  deriving DecidableEq, Repr

structure RelayData where
  maxFeePerGas : Uint256
  maxPriorityFeePerGas : Uint256
  transactionCalldataGasUsed : Uint256
  relayWorker : Address
  paymaster : Address
  forwarder : Address
  paymasterData : Bytes
  clientId : Uint256
  deriving DecidableEq, Repr

structure RelayRequest where
  request : ForwardRequest
  relayData : RelayData
  deriving DecidableEq, Repr

end OpenGsn
