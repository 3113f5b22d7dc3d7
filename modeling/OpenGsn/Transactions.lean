import OpenGsn.Rlp

/-! Transactions of the chain, as they are hashed for their signatures. -/

namespace OpenGsn

open Solidity Rlp

/-- Without a recipient, the transaction creates a contract. -/
structure TxData where
  nonce : ℕ
  gasLimit : ℕ
  recipient : Option Address
  value : ℕ
  data : Bytes
  deriving DecidableEq, Repr

/-- What the types of transactions have besides. A legacy transaction has a chain id when it
is protected against replay on other chains. -/
inductive Envelope : Type
  | legacy (gasPrice : ℕ) (chainId : Option ℕ)
  | type1 (chainId gasPrice : ℕ) (accessList : List Item)
  | type2 (chainId maxPriorityFeePerGas maxFeePerGas : ℕ) (accessList : List Item)

def destination : Option Address → Item
  | none => .str []
  | some account => .str (addressBytes account)

def replayProtection : Option ℕ → List Item
  | none => []
  | some chainId => [scalar chainId, scalar 0, scalar 0]

def members (tx : TxData) : Envelope → List Item
  | .legacy gasPrice chainId =>
      [scalar tx.nonce, scalar gasPrice, scalar tx.gasLimit, destination tx.recipient,
        scalar tx.value, .str tx.data] ++ replayProtection chainId
  | .type1 chainId gasPrice accessList =>
      [scalar chainId, scalar tx.nonce, scalar gasPrice, scalar tx.gasLimit,
        destination tx.recipient, scalar tx.value, .str tx.data, .list accessList]
  | .type2 chainId maxPriorityFeePerGas maxFeePerGas accessList =>
      [scalar chainId, scalar tx.nonce, scalar maxPriorityFeePerGas, scalar maxFeePerGas,
        scalar tx.gasLimit, destination tx.recipient, scalar tx.value, .str tx.data, .list accessList]

def typePrefix : Envelope → Bytes
  | .legacy _ _ => []
  | .type1 _ _ _ => [1]
  | .type2 _ _ _ _ => [2]

def unsignedTx (tx : TxData) (envelope : Envelope) : Bytes :=
  typePrefix envelope ++ (Item.list (members tx envelope)).encode

/-- Words where words are expected, and lengths that can be encoded. The first byte 0xff is
reserved for later types. -/
structure WellFormed (tx : TxData) (envelope : Envelope) : Prop where
  nonce : tx.nonce < 2 ^ 256
  gasLimit : tx.gasLimit < 2 ^ 256
  value : tx.value < 2 ^ 256
  length : (Item.list (members tx envelope)).encode.length < 256 ^ 8
  reserved : (unsignedTx tx envelope).head? ≠ some 0xff

instance (tx : TxData) (envelope : Envelope) : Decidable (WellFormed tx envelope) :=
  decidable_of_iff
    (tx.nonce < 2 ^ 256 ∧ tx.gasLimit < 2 ^ 256 ∧ tx.value < 2 ^ 256 ∧
      (Item.list (members tx envelope)).encode.length < 256 ^ 8 ∧
      (unsignedTx tx envelope).head? ≠ some 0xff)
    ⟨fun ⟨nonce, gasLimit, value, length, reserved⟩ => ⟨nonce, gasLimit, value, length, reserved⟩,
      fun ⟨nonce, gasLimit, value, length, reserved⟩ => ⟨nonce, gasLimit, value, length, reserved⟩⟩

def PriorityCovered : Envelope → Prop
  | .type2 _ maxPriorityFeePerGas maxFeePerGas _ => maxPriorityFeePerGas ≤ maxFeePerGas
  | _ => True

instance (envelope : Envelope) : Decidable (PriorityCovered envelope) := by
  unfold PriorityCovered
  split <;> infer_instance

/-- Words where words are expected, and a list that has an encoding. -/
structure Encodable (tx : TxData) (envelope : Envelope) : Prop where
  nonce : tx.nonce < 2 ^ 256
  gasLimit : tx.gasLimit < 2 ^ 256
  value : tx.value < 2 ^ 256
  length : (encodeItems (members tx envelope)).length < 256 ^ 8

theorem WellFormed.encodable {tx : TxData} {envelope : Envelope} (wellFormed : WellFormed tx envelope) :
    Encodable tx envelope where
  nonce := wellFormed.nonce
  gasLimit := wellFormed.gasLimit
  value := wellFormed.value
  length := by
    have length := wellFormed.length
    rw [Item.encode, encodeList, List.length_append] at length
    omega

/-- A transaction with the account that signed it. -/
structure SignedTransaction where
  sender : Address
  tx : TxData
  envelope : Envelope

end OpenGsn
