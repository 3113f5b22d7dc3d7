import OpenGsn.Relay.RelayServer
import OpenGsn.Transactions

/-! `RelayedTransactionValidator.ts`. Numbers are exact.

What `TransactionFactory` makes of the answer of a server is a parameter. -/

namespace OpenGsn.Provider

open Solidity
open Relay (RelayTransactionRequest)

/-! Objects, as they come out of JSON -/

/-- A key that is an array index. Such keys come first when an object is enumerated, in ascending order. -/
def arrayIndex (key : List Char) : Option ℕ :=
  let index := key.foldl (fun n digit => 10 * n + (digit.toNat - 48)) 0
  if key.all Char.isDigit ∧ key ≠ [] ∧ (key.head? = some '0' → key = ['0']) ∧ index < 2 ^ 32 - 1 then some index
  else none

/-- The entries in the order in which they were made. -/
structure ObjectMap (Value : Type) where
  entries : List (List Char × Value)
  distinct : (entries.map Prod.fst).Nodup

namespace ObjectMap

variable {Value : Type}

def enumerate (map : ObjectMap Value) : List (List Char × Value) :=
  (map.entries.filter fun entry => (arrayIndex entry.1).isSome).mergeSort
      (fun first second => (arrayIndex first.1).getD 0 ≤ (arrayIndex second.1).getD 0) ++
    map.entries.filter fun entry => !(arrayIndex entry.1).isSome

/-- `Object.keys` -/
def keys (map : ObjectMap Value) : List (List Char) := map.enumerate.map Prod.fst

/-- `Object.values` -/
def values (map : ObjectMap Value) : List Value := map.enumerate.map Prod.snd

theorem enumerate_perm (map : ObjectMap Value) : map.enumerate.Perm map.entries :=
  ((List.mergeSort_perm _ _).append_right _).trans (List.filter_append_perm _ _)

end ObjectMap

/-! Validation results -/

structure GasPriceValidationResult where
  isTransactionTypeValid : Bool
  isFeeMarket1559Transaction : Bool
  isLegacyGasPriceValid : Bool
  isMaxFeePerGasValid : Bool
  isMaxPriorityFeePerGasValid : Bool
  deriving DecidableEq, Repr

inductive TransactionValidationResult : Type
  | mk (gasPriceValidationResult : GasPriceValidationResult)
      (nonceGapFilledValidationResult : List TransactionValidationResult)
      (isNonceGapFilledSizeValid isTransactionTargetValid isTransactionSenderValid isTransactionContentValid
        isTransactionNonceValid : Bool)

def isGasPriceValid (result : GasPriceValidationResult) : Bool :=
  result.isTransactionTypeValid &&
    (result.isLegacyGasPriceValid ||
      (result.isFeeMarket1559Transaction && result.isMaxFeePerGasValid && result.isMaxPriorityFeePerGasValid))

def isTransactionValid : TransactionValidationResult → Bool
  | .mk gasPrice nonceGapFilled size target sender content nonce =>
      isGasPriceValid gasPrice && isNonceGapFilled nonceGapFilled && target && sender && content && size && nonce
where
  isNonceGapFilled : List TransactionValidationResult → Bool
    | [] => true
    | result :: rest => isTransactionValid result && isNonceGapFilled rest

/-- A transaction of the library. Its signer is recovered from the signature, which may fail. -/
structure TypedTransaction where
  tx : TxData
  envelope : Envelope
  getSenderAddress : Except String Address

/-- `fromSerializedData` stands for that of `TransactionFactory` after `toBuffer`, with the options of
the chain. -/
structure RelayedTransactionValidator (Raw : Type) where
  relayHubAddress : Option Address
  relayCallSignature : Bytes
  fromSerializedData : Raw → Except String TypedTransaction

namespace RelayedTransactionValidator

variable {Raw : Type} (validator : RelayedTransactionValidator Raw) (request : RelayTransactionRequest)

def validateTransactionTarget (transaction : TypedTransaction) : Bool :=
  match transaction.tx.recipient, validator.relayHubAddress with
  | some recipient, some relayHubAddress => recipient = relayHubAddress
  | _, _ => false

def validateTransactionSender (transaction : TypedTransaction) : Except String Bool := do
  let signer ← transaction.getSenderAddress
  .ok (request.relayRequest.relayData.relayWorker = signer)

def validateTransactionMethodSignature (transaction : TypedTransaction) : Bool :=
  validator.relayCallSignature.isPrefixOf transaction.tx.data

def validateTransactionContent (transaction : TypedTransaction) : Bool :=
  encodeABI validator.relayCallSignature (request.call request.metadata.maxAcceptanceBudget) = transaction.tx.data

def validateNonceGapGasPrice : GasPriceValidationResult := ⟨true, true, true, true, true⟩

def validateGasPrice (transaction : TypedTransaction) : GasPriceValidationResult :=
  match transaction.envelope with
  | .legacy gasPrice _ =>
      ⟨true, false, request.relayRequest.relayData.maxFeePerGas.val ≤ gasPrice, false, false⟩
  | .type2 _ maxPriorityFeePerGas maxFeePerGas _ =>
      ⟨true, true, false, request.relayRequest.relayData.maxFeePerGas.val ≤ maxFeePerGas,
        request.relayRequest.relayData.maxPriorityFeePerGas.val ≤ maxPriorityFeePerGas⟩
  | .type1 _ _ _ => ⟨false, false, false, false, false⟩

def validateTransactionInNonceGap (transaction : TypedTransaction) (expectedNonce : ℕ) :
    Except String TransactionValidationResult := do
  let isTransactionSenderValid ← validateTransactionSender request transaction
  .ok (.mk validateNonceGapGasPrice [] true (validator.validateTransactionTarget transaction)
    isTransactionSenderValid (validator.validateTransactionMethodSignature transaction)
    (transaction.tx.nonce = expectedNonce))

/-- The loop of `_validateNonceGapFilled` -/
def validateNonceGapFilled : ℕ → List Raw → Except String (List TransactionValidationResult)
  | _, [] => .ok []
  | expectedNonce, rawTransaction :: rest => do
      let transaction ← validator.fromSerializedData rawTransaction
      let validationResult ← validator.validateTransactionInNonceGap request transaction expectedNonce
      let results ← validateNonceGapFilled (expectedNonce + 1) rest
      .ok (validationResult :: results)

def validateRelayResponse (returnedTx : Raw) (nonceGapFilled : ObjectMap Raw) :
    Except String TransactionValidationResult := do
  let transaction ← validator.fromSerializedData returnedTx
  let expectedNonceGapLength := (transaction.tx.nonce : ℤ) - request.metadata.relayLastKnownNonce
  let isTransactionSenderValid ← validateTransactionSender request transaction
  let nonceGapFilledValidationResult ←
    validator.validateNonceGapFilled request request.metadata.relayLastKnownNonce nonceGapFilled.values
  .ok (.mk (validateGasPrice request transaction) nonceGapFilledValidationResult
    ((nonceGapFilled.keys.length : ℤ) = expectedNonceGapLength) (validator.validateTransactionTarget transaction)
    isTransactionSenderValid (validator.validateTransactionContent request transaction)
    (transaction.tx.nonce ≤ request.metadata.relayMaxNonce))

end RelayedTransactionValidator

end OpenGsn.Provider
