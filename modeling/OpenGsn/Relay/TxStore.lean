import OpenGsn.Transactions
import Mathlib.Data.List.Sort

/-! `StoredTransaction.ts` and `TxStoreManager.ts`. -/

namespace OpenGsn.Relay

open Solidity

inductive ServerAction : Type
  | registerServer
  | addWorker
  | relayCall
  | valueTransfer
  | depositWithdrawal
  | penalization
  | setOwner
  | authorizeHub
  deriving DecidableEq, Repr

structure ShortBlockInfo where
  hash : Uint256
  number : ℕ
  timestamp : ℕ
  deriving DecidableEq, Repr

structure StoredTransactionMetadata where
  attempts : ℕ
  serverAction : ServerAction
  creationBlock : ShortBlockInfo
  boostBlock : Option ShortBlockInfo
  minedBlock : Option ShortBlockInfo
  deriving DecidableEq, Repr

structure StoredTransaction extends StoredTransactionMetadata where
  sender : Address
  recipient : Address
  gas : ℕ
  maxFeePerGas : ℕ
  maxPriorityFeePerGas : ℕ
  data : Bytes
  nonce : ℕ
  txId : Uint256
  value : ℕ
  deriving DecidableEq, Repr

namespace StoredTransaction

def nonceSigner (tx : StoredTransaction) : Address × ℕ := (tx.sender, tx.nonce)

/-- What a replacement is signed with again. -/
def txData (tx : StoredTransaction) : TxData :=
  ⟨tx.nonce, tx.gas, some tx.recipient, tx.value, tx.data⟩

end StoredTransaction

def gasPrices : Envelope → ℕ × ℕ
  | .legacy gasPrice _ => (gasPrice, gasPrice)
  | .type1 _ gasPrice _ => (gasPrice, gasPrice)
  | .type2 _ maxPriorityFeePerGas maxFeePerGas _ => (maxFeePerGas, maxPriorityFeePerGas)

def createStoredTransaction (hash : SignedTransaction → Uint256) (signed : SignedTransaction)
    (metadata : StoredTransactionMetadata) : Except String StoredTransaction :=
  match signed.tx.recipient with
  | none => .error "tx.to must be defined"
  | some recipient => .ok
      { metadata with
        sender := signed.sender
        recipient := recipient
        gas := signed.tx.gasLimit
        maxFeePerGas := (gasPrices signed.envelope).1
        maxPriorityFeePerGas := (gasPrices signed.envelope).2
        data := signed.tx.data
        nonce := signed.tx.nonce
        txId := hash signed
        value := signed.tx.value }

theorem createStoredTransaction_ok (hash : SignedTransaction → Uint256) (signed : SignedTransaction)
    (metadata : StoredTransactionMetadata) (storedTx : StoredTransaction)
    (created : createStoredTransaction hash signed metadata = .ok storedTx) :
    storedTx.sender = signed.sender ∧ storedTx.txData = signed.tx ∧
      storedTx.minedBlock = metadata.minedBlock := by
  unfold createStoredTransaction at created
  cases recipient : signed.tx.recipient with
  | none => simp [recipient] at created
  | some account =>
      simp only [recipient, Except.ok.injEq] at created
      subst created
      simp [StoredTransaction.txData, ← recipient]

/-- `written` is a history variable: all that was ever stored, in the order of the writes. -/
structure TxStore where
  transactions : List StoredTransaction
  written : List StoredTransaction
  deriving DecidableEq, Repr

namespace TxStore

/-- The indexes of `txId` and `nonceSigner` are unique. -/
def Conflict (tx other : StoredTransaction) : Prop :=
  other.txId = tx.txId ∨ other.nonceSigner = tx.nonceSigner

instance (tx other : StoredTransaction) : Decidable (Conflict tx other) :=
  inferInstanceAs (Decidable (_ ∨ _))

def findOne (store : TxStore) (nonceSigner : Address × ℕ) : Option StoredTransaction :=
  store.transactions.find? (fun tx => tx.nonceSigner = nonceSigner)

def insert (tx : StoredTransaction) (store : TxStore) : Except String TxStore :=
  if ∃ other ∈ store.transactions, Conflict tx other then
    .error "it violates the unique constraint"
  else
    .ok ⟨store.transactions ++ [tx], store.written ++ [tx]⟩

/-- `$set: tx`. The block of a boost is missing in a transaction that was not boosted, and is
not overwritten then. -/
def merged (tx current : StoredTransaction) : StoredTransaction :=
  { tx with boostBlock := tx.boostBlock.or current.boostBlock }

def update (txId : Uint256) (tx : StoredTransaction) (store : TxStore) : Except String TxStore :=
  match store.transactions.find? (fun current => current.txId = txId) with
  | none => .ok store
  | some current =>
      if ∃ other ∈ store.transactions, other.txId ≠ txId ∧ Conflict tx other then
        .error "it violates the unique constraint"
      else
        .ok ⟨store.transactions.map fun other => if other.txId = txId then merged tx current else other,
          store.written ++ [merged tx current]⟩

def getTxsInNonceRange (store : TxStore) (signer : Address) (fromNonce toNonce : ℕ) :
    List StoredTransaction :=
  (store.transactions.filter fun tx =>
    fromNonce ≤ tx.nonce ∧ tx.nonce ≤ toNonce ∧ tx.sender = signer).insertionSort
      (fun tx1 tx2 => tx1.nonce ≤ tx2.nonce)

def getAll (store : TxStore) : List StoredTransaction :=
  store.transactions.insertionSort fun tx1 tx2 => tx1.nonce ≤ tx2.nonce

def Archived (upToMinedBlockNumber upToMinedTimestamp : ℤ) (tx : StoredTransaction) : Prop :=
  ∃ minedBlock ∈ tx.minedBlock,
    minedBlock.number ≤ upToMinedBlockNumber ∧ minedBlock.timestamp ≤ upToMinedTimestamp

instance (upToMinedBlockNumber upToMinedTimestamp : ℤ) (tx : StoredTransaction) :
    Decidable (Archived upToMinedBlockNumber upToMinedTimestamp tx) :=
  inferInstanceAs (Decidable (∃ minedBlock ∈ tx.minedBlock, _))

def removeArchivedTransactions (upToMinedBlockNumber upToMinedTimestamp : ℤ) (store : TxStore) :
    TxStore :=
  { store with
    transactions := store.transactions.filter fun tx =>
      ¬ Archived upToMinedBlockNumber upToMinedTimestamp tx }

def Stored (store : TxStore) (nonceSigner : Address × ℕ) : Prop :=
  ∃ tx ∈ store.transactions, tx.nonceSigner = nonceSigner

instance (store : TxStore) (nonceSigner : Address × ℕ) : Decidable (store.Stored nonceSigner) :=
  inferInstanceAs (Decidable (∃ tx ∈ store.transactions, _))

end TxStore
end OpenGsn.Relay
