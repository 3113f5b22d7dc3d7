import OpenGsn.Relay.TxStore
import OpenGsn.Async.Pool
import OpenGsn.Async.Resume

/-! `TransactionManager.ts`, cut at its awaits. -/

namespace OpenGsn.Relay

open Solidity Async

inductive TransactionType : Type
  | legacy
  | typeTwo
  deriving DecidableEq, Repr

/-- `retried` is `Math.round` of a fee times `retryGasPriceFactor`. -/
structure Config where
  managerAddress : Address
  workerAddress : Address
  chainId : ℕ
  retried : ℕ → ℕ
  maxMaxFeePerGas : ℕ
  pendingTransactionTimeoutSeconds : ℕ
  dbPruneTxAfterBlocks : ℕ
  dbPruneTxAfterSeconds : ℕ

/-- The nonces that a call of `sendTransaction` may still take. -/
inductive Claim : Type
  | atLeast (signer : Address) (count : ℕ)
  | exactly (signer : Address) (nonce : ℕ)
  deriving DecidableEq, Repr

def Claim.Covers (nonceSigner : Address × ℕ) : Claim → Prop
  | .atLeast signer count => nonceSigner.1 = signer ∧ count ≤ nonceSigner.2
  | .exactly signer nonce => nonceSigner = (signer, nonce)

instance (nonceSigner : Address × ℕ) (claim : Claim) : Decidable (claim.Covers nonceSigner) :=
  match claim with
  | .atLeast _ _ => inferInstanceAs (Decidable (_ ∧ _))
  | .exactly _ _ => inferInstanceAs (Decidable (_ = _))

/-- The fields of the manager, the store, how many transactions of each account are mined, and
what was broadcast. `claims` is a history variable: what the running tasks that are about
to store a transaction know about its nonce. -/
structure State where
  nonces : Address → ℕ
  nonceMutex : Option ℕ
  transactionType : TransactionType
  txstore : TxStore
  mined : Address → ℕ
  broadcasts : List SignedTransaction
  claims : List (ℕ × Claim)

def State.unclaim (task : ℕ) (s : State) : State :=
  { s with claims := s.claims.filter fun claim => claim.1 ≠ task }

def State.claim (claimant : Option ℕ) (claim : Claim) (s : State) : State :=
  match claimant with
  | none => s
  | some task => { s with claims := (task, claim) :: (s.unclaim task).claims }

inductive Reply : Type
  | failed (message : String)
  | done
  | number (n : ℕ)
  | receipt (blockNumber : Option (Option ℕ))
  | block (info : ShortBlockInfo)

abbrev Promise (α : Type) := Async.Promise State Reply String α

def Reply.ok : Reply → Except String Unit
  | .failed message => .error message
  | _ => .ok ()

def Reply.asNumber : Reply → Except String ℕ
  | .number n => .ok n
  | .failed message => .error message
  | _ => .error "not a number"

def Reply.asReceipt : Reply → Except String (Option (Option ℕ))
  | .receipt blockNumber => .ok blockNumber
  | .failed message => .error message
  | _ => .error "not a transaction"

def Reply.asBlock : Reply → Except String ShortBlockInfo
  | .block info => .ok info
  | .failed message => .error message
  | _ => .error "not a block"

def ask {α : Type} (read : Reply → Except String α) : Promise α :=
  Promise.serve fun reply s => (read reply, s)

def orAsk (value : Option ℕ) : Promise ℕ :=
  match value with
  | some value => pure value
  | none => ask Reply.asNumber

def check (condition : Prop) [Decidable condition] (message : String) : Promise Unit :=
  Promise.ofExcept (if condition then .ok () else .error message)

variable (config : Config) (hash : SignedTransaction → Uint256)

/-! The store, as the manager awaits it. -/

/-- An operation of the store, which may also fail for reasons of its own. -/
def onStore {α : Type} (act : TxStore → Except String (α × TxStore)) : Promise α :=
  Promise.serve fun reply s =>
    match reply.ok with
    | .error message => (.error message, s)
    | .ok _ =>
        match act s.txstore with
        | .error message => (.error message, s)
        | .ok (value, txstore) => (.ok value, { s with txstore := txstore })

def readStore {α : Type} (read : TxStore → α) : Promise α :=
  onStore fun store => .ok (read store, store)

def writeStore (write : TxStore → Except String TxStore) : Promise Unit :=
  onStore fun store => (write store).map fun next => ((), next)

def putTx (tx : StoredTransaction) (updateExisting : Bool) : Promise Unit := do
  check (tx.attempts ≠ 0) "Invalid tx"
  let existing ← readStore fun store => store.findOne tx.nonceSigner
  match existing, updateExisting with
  | some existing, true => writeStore (TxStore.update existing.txId tx)
  | _, _ => writeStore (TxStore.insert tx)

theorem putTx_inserts (tx : StoredTransaction) :
    putTx tx false = check (tx.attempts ≠ 0) "Invalid tx" >>= fun _ =>
      readStore (fun store => store.findOne tx.nonceSigner) >>= fun _ => writeStore (TxStore.insert tx) := by
  unfold putTx
  congr 1
  funext _
  congr 1
  funext existing
  cases existing <;> rfl

/-! `sendTransaction` -/

structure SendTransactionDetails where
  signer : Address
  serverAction : ServerAction
  method : Option Bytes
  destination : Address
  value : Option ℕ
  gasLimit : Option ℕ
  maxFeePerGas : Option ℕ
  maxPriorityFeePerGas : Option ℕ
  creationBlock : ShortBlockInfo

def validateBalance (signer : Address) (maxFeePerGas gasLimit : ℕ) : Promise Unit := do
  let txCost := maxFeePerGas * gasLimit
  let signerBalance ← ask Reply.asNumber
  check (txCost ≤ signerBalance)
    s!"signer {signer} balance {signerBalance} too low: tx cost is {txCost}"

def envelope (transactionType : TransactionType) (maxFeePerGas maxPriorityFeePerGas : ℕ) : Envelope :=
  match transactionType with
  | .typeTwo => .type2 config.chainId maxPriorityFeePerGas maxFeePerGas []
  | .legacy => .legacy maxFeePerGas (some config.chainId)

/-- Makes the transaction, with the checks that this makes, and signs it. -/
def signTransaction (signer : Address) (tx : TxData) (envelope : Envelope) :
    Except String SignedTransaction :=
  if ¬ WellFormed tx envelope then
    .error "cannot exceed MAX_INTEGER"
  else if ¬ PriorityCovered envelope then
    .error ("maxFeePerGas cannot be less than maxPriorityFeePerGas" ++
      " (The total must be the larger of the two)")
  else if signer = config.managerAddress ∨ signer = config.workerAddress then
    .ok ⟨signer, tx, envelope⟩
  else
    .error s!"Can't sign: signer={signer} is not managed"

theorem signTransaction_iff (signer : Address) (tx : TxData) (envelope : Envelope) (signed : SignedTransaction) :
    signTransaction config signer tx envelope = .ok signed ↔ WellFormed tx envelope ∧ PriorityCovered envelope ∧
      (signer = config.managerAddress ∨ signer = config.workerAddress) ∧ ⟨signer, tx, envelope⟩ = signed := by
  unfold signTransaction
  split
  next malformed => simp [malformed]
  next wellFormed =>
    split
    next uncovered => simp [uncovered]
    next covered =>
      split
      next managed => simp [not_not.mp wellFormed, not_not.mp covered, managed]
      next unmanaged => simp [unmanaged]

theorem signTransaction_ok (signer : Address) (tx : TxData) (envelope : Envelope)
    (signed : SignedTransaction) (made : signTransaction config signer tx envelope = .ok signed) :
    WellFormed tx envelope ∧ ⟨signer, tx, envelope⟩ = signed := by
  obtain ⟨wellFormed, _, _, same⟩ := (signTransaction_iff config signer tx envelope signed).mp made
  exact ⟨wellFormed, same⟩

/-- The answer for the block `pending`: never less than what is mined. -/
def getPendingCount (claimant : Option ℕ) (signer : Address) : Promise ℕ :=
  Promise.serve fun reply s =>
    match reply.asNumber with
    | .error message => (.error message, s)
    | .ok n =>
        let count := max n (s.mined signer)
        (.ok count, s.claim claimant (.atLeast signer count))

def pollNonce (claimant : Option ℕ) (signer : Address) : Promise ℕ := do
  let nonce ← getPendingCount claimant signer
  Promise.sync fun s =>
    let nonces := if s.nonces signer < nonce then Function.update s.nonces signer nonce else s.nonces
    (nonces signer, { s with nonces := nonces }.claim claimant (.exactly signer (nonces signer)))

def acquireNonceMutex (task : ℕ) : Promise Unit :=
  Promise.waitUntil (fun s => s.nonceMutex.isNone) fun s => { s with nonceMutex := some task }

def releaseMutex (task : ℕ) (s : State) : State := { s.unclaim task with nonceMutex := none }

def signNew (details : SendTransactionDetails) (gasLimit maxFeePerGas maxPriorityFeePerGas nonce : ℕ) :
    Promise (SignedTransaction × StoredTransaction) :=
  Promise.serve fun reply s =>
    let tx : TxData :=
      ⟨nonce, gasLimit, some details.destination, details.value.getD 0, details.method.getD []⟩
    let made := do
      reply.ok
      let signed ← signTransaction config details.signer tx
        (envelope config s.transactionType maxFeePerGas maxPriorityFeePerGas)
      let storedTx ← createStoredTransaction hash signed
        ⟨1, details.serverAction, details.creationBlock, none, none⟩
      .ok (signed, storedTx)
    match made with
    | .error message => (.error message, s)
    | .ok made =>
        (.ok made,
          { s with nonces := Function.update s.nonces details.signer (s.nonces details.signer + 1) })

/-- What `sendTransaction` does while it holds the mutex. -/
def storeNew (task : ℕ) (details : SendTransactionDetails)
    (gasLimit maxFeePerGas maxPriorityFeePerGas : ℕ) : Promise SignedTransaction := do
  let nonce ← pollNonce (some task) details.signer
  let (signed, storedTx) ← signNew config hash details gasLimit maxFeePerGas maxPriorityFeePerGas nonce
  putTx storedTx false
  pure signed

/-- The network may have taken the transaction even where the answer is a failure. -/
def broadcastTransaction (signed : SignedTransaction) : Promise SignedTransaction :=
  Promise.serve fun reply s =>
    (reply.ok.map fun _ => signed, { s with broadcasts := s.broadcasts ++ [signed] })

def sendTransaction (task : ℕ) (details : SendTransactionDetails) : Promise SignedTransaction := do
  let maxFeePerGas ← orAsk details.maxFeePerGas
  let maxPriorityFeePerGas := details.maxPriorityFeePerGas.getD maxFeePerGas
  let gasLimit ← orAsk details.gasLimit
  validateBalance details.signer maxFeePerGas gasLimit
  check (details.destination ≠ 0)
    "Preventing to send transaction to address(0)! Validate your configuration!"
  acquireNonceMutex task
  let signed ← Promise.ensure
    (storeNew config hash task details gasLimit maxFeePerGas maxPriorityFeePerGas) (releaseMutex task)
  broadcastTransaction signed

/-- `validateMaxNonce` of the server, which takes no nonce. -/
def validateMaxNonce (relayMaxNonce : ℕ) : Promise Unit := do
  let nonce ← pollNonce none config.workerAddress
  check (nonce ≤ relayMaxNonce)
    s!"Unacceptable relayMaxNonce: {relayMaxNonce}. current nonce: {nonce}"

/-! Boosts. -/

def signAgain (tx : StoredTransaction) (newMaxFee newMaxPriorityFee : ℕ) : Promise SignedTransaction :=
  Promise.serve fun reply s =>
    (reply.ok.bind fun _ => signTransaction config tx.sender tx.txData
      (envelope config s.transactionType newMaxFee newMaxPriorityFee), s)

def updateTransactionWithAttempt (txToUpdate : SignedTransaction) (tx : StoredTransaction)
    (currentBlock : ShortBlockInfo) : Promise StoredTransaction := do
  let storedTx ← Promise.ofExcept (createStoredTransaction hash txToUpdate
    ⟨tx.attempts + 1, tx.serverAction, tx.creationBlock, some currentBlock, tx.minedBlock⟩)
  putTx storedTx true
  pure storedTx

def resendTransaction (tx : StoredTransaction) (currentBlock : ShortBlockInfo)
    (newMaxFee newMaxPriorityFee : ℕ) : Promise SignedTransaction := do
  validateBalance tx.sender newMaxFee tx.gas
  let signed ← signAgain config tx newMaxFee newMaxPriorityFee
  let _ ← updateTransactionWithAttempt hash signed tx currentBlock
  let _ ← ask Reply.asNumber
  broadcastTransaction signed

structure NewGasPrice where
  newMaxFee : ℕ
  newMaxPriorityFee : ℕ
  isMaxGasPriceReached : Bool
  deriving DecidableEq, Repr

def resolveNewGasPrice (oldMaxFee oldMaxPriorityFee minMaxPriorityFee minMaxFee : ℕ) : NewGasPrice :=
  let newMaxPriorityFee := max (config.retried oldMaxPriorityFee) minMaxPriorityFee
  let newMaxFee := max (config.retried oldMaxFee) minMaxFee
  let isMaxGasPriceReached := config.maxMaxFeePerGas < newMaxFee
  let newMaxFee := min newMaxFee config.maxMaxFeePerGas
  ⟨newMaxFee, min newMaxPriorityFee newMaxFee, isMaxGasPriceReached⟩

/-- Boosts the underpriced ones, and sends the others again as they are. -/
def boostTransactions (currentBlock : ShortBlockInfo) (newMaxFee newMaxPriorityFee : ℕ) :
    List StoredTransaction → Promise (List (Uint256 × SignedTransaction))
  | [] => pure []
  | transaction :: rest =>
      if transaction.maxFeePerGas < newMaxFee ∨ transaction.maxPriorityFeePerGas < newMaxPriorityFee then do
        let boosted ← resendTransaction config hash transaction currentBlock newMaxFee newMaxPriorityFee
        let others ← boostTransactions currentBlock newMaxFee newMaxPriorityFee rest
        pure ((transaction.txId, boosted) :: others)
      else do
        Promise.caught (resendTransaction config hash transaction currentBlock transaction.maxFeePerGas
          transaction.maxPriorityFeePerGas)
        boostTransactions currentBlock newMaxFee newMaxPriorityFee rest

def maxSafeInteger : ℕ := 2 ^ 53 - 1

def boostUnderpricedPendingTransactionsForSigner (signer : Address) (currentBlock : ShortBlockInfo)
    (minMaxPriorityFee : ℕ) : Promise (List (Uint256 × SignedTransaction)) := do
  let nonce ← ask Reply.asNumber
  let pendingTxs ← readStore fun store => store.getTxsInNonceRange signer nonce maxSafeInteger
  match pendingTxs with
  | [] => pure []
  | oldestPendingTx :: _ =>
      let lastSentAtBlock := oldestPendingTx.boostBlock.getD oldestPendingTx.creationBlock
      if oldestPendingTx.nonce < nonce then
        pure []
      else if nonce ≠ oldestPendingTx.nonce then
        throw s!"Boosting: missing nonce {nonce}. Lowest stored tx nonce: {oldestPendingTx.nonce}"
      else if (currentBlock.timestamp : ℤ) - lastSentAtBlock.timestamp <
          config.pendingTransactionTimeoutSeconds then
        pure []
      else do
        let baseFeePerGas ← ask Reply.asNumber
        let fees := resolveNewGasPrice config oldestPendingTx.maxFeePerGas
          oldestPendingTx.maxPriorityFeePerGas minMaxPriorityFee baseFeePerGas
        boostTransactions config hash currentBlock fees.newMaxFee fees.newMaxPriorityFee pendingTxs

/-! The archive. -/

def shouldRecheck (currentBlock : ShortBlockInfo) (tx : StoredTransaction) : Bool :=
  match tx.minedBlock with
  | none => true
  | some minedBlock =>
      (config.dbPruneTxAfterBlocks : ℤ) ≤ (currentBlock.number : ℤ) - minedBlock.number

def updateTransactionWithMinedBlock (tx : StoredTransaction) (minedBlock : ShortBlockInfo) :
    Promise Unit :=
  putTx { tx with minedBlock := some minedBlock } true

/-- The node names a block for transactions only that are mined. -/
def getTransaction (tx : StoredTransaction) : Promise (Option (Option ℕ)) :=
  Promise.serve fun reply s =>
    (reply.asReceipt.map fun receipt =>
      receipt.map fun blockNumber => if tx.nonce < s.mined tx.sender then blockNumber else none, s)

def fillMinedBlockDetails (currentBlock : ShortBlockInfo) : List StoredTransaction → Promise Unit
  | [] => pure ()
  | transaction :: rest =>
      if shouldRecheck config currentBlock transaction then do
        let receipt ← getTransaction transaction
        match receipt with
        | some (some blockNumber) =>
            if transaction.minedBlock.map ShortBlockInfo.number = some blockNumber then
              fillMinedBlockDetails currentBlock rest
            else do
              let minedBlock ← ask Reply.asBlock
              updateTransactionWithMinedBlock transaction minedBlock
              fillMinedBlockDetails currentBlock rest
        -- no receipt, or none with a block
        | _ => fillMinedBlockDetails currentBlock rest
      else
        fillMinedBlockDetails currentBlock rest

def fillMinedBlockDetailsForTransactions (currentBlock : ShortBlockInfo) : Promise Unit := do
  let sortedTxs ← readStore TxStore.getAll
  fillMinedBlockDetails config currentBlock sortedTxs

def removeArchivedTransactions (currentBlock : ShortBlockInfo) : Promise Unit :=
  writeStore fun store => .ok (store.removeArchivedTransactions
    (currentBlock.number - config.dbPruneTxAfterBlocks)
    (currentBlock.timestamp - config.dbPruneTxAfterSeconds))

/-! The server, as far as it uses the manager. -/

inductive Program : Type
  | sendTransaction (details : SendTransactionDetails)
  | validateMaxNonce (relayMaxNonce : ℕ)
  | boost (signer : Address) (currentBlock : ShortBlockInfo) (minMaxPriorityFee : ℕ)
  | archive (currentBlock : ShortBlockInfo)

def ended {α : Type} (promise : Promise α) : Proc State Reply Unit :=
  Proc.bind promise.run fun _ => .done ()

def program (task : ℕ) : Program → Proc State Reply Unit
  | .sendTransaction details => ended (sendTransaction config hash task details)
  | .validateMaxNonce relayMaxNonce => ended (validateMaxNonce config relayMaxNonce)
  | .boost signer currentBlock minMaxPriorityFee =>
      ended (boostUnderpricedPendingTransactionsForSigner config hash signer currentBlock minMaxPriorityFee)
  | .archive currentBlock => ended (do
      fillMinedBlockDetailsForTransactions config currentBlock
      removeArchivedTransactions config currentBlock)

/-! One step of code that starts with a question or with a write to the store. -/

variable {α β : Type}

def continued (rest : α → Promise β) : Except String α → Proc State Reply Unit
  | .error _ => .done ()
  | .ok value => ended (rest value)

theorem continued_eq (rest : α → Promise β) (result : Except String α) :
    continued rest result = Promise.onward rest result := by
  cases result with
  | error message => rfl
  | ok value => rfl

theorem resume_serve (act : Reply → State → Except String α × State) (rest : α → Promise β)
    (reply : Reply) (s : State) :
    (ended (Promise.serve act >>= rest)).resume reply s =
      ((act reply s).2, continued rest (act reply s).1) := by
  rw [continued_eq]
  exact Promise.resume_served act rest reply s

/-- The same within `try` and `finally`. -/
theorem resume_ensure (act : Reply → State → Except String α × State) (body : α → Promise β)
    (cleanup : State → State) (rest : β → Promise β) (reply : Reply) (s : State) :
    (ended (Promise.ensure (Promise.serve act >>= body) cleanup >>= rest)).resume reply s =
      ((act reply s).2, match (act reply s).1 with
        | .error message => ended (Promise.ensure (Promise.ofExcept (.error message)) cleanup >>= rest)
        | .ok value => ended (Promise.ensure (body value) cleanup >>= rest)) := by
  calc (ended (Promise.ensure (Promise.serve act >>= body) cleanup >>= rest)).resume reply s
      = ((act reply s).2, Proc.bind (Proc.bind (Proc.bind (ExceptT.bindCont body (act reply s).1)
          fun result => Proc.sync fun state => (result, cleanup state)) (ExceptT.bindCont rest))
            fun _ => .done ()) := rfl
    _ = _ := by
        cases (act reply s).1 with
        | error message => rfl
        | ok value => rfl

theorem resume_writeStore (write : TxStore → Except String TxStore) (rest : Unit → Promise β)
    (reply : Reply) (s : State) :
    (ended (writeStore write >>= rest)).resume reply s =
      match reply.ok, write s.txstore with
      | .ok _, .ok next => ({ s with txstore := next }, ended (rest ()))
      | _, _ => (s, .done ()) := by
  rw [writeStore, onStore, resume_serve]
  cases reply.ok with
  | error message => rfl
  | ok value =>
      cases write s.txstore with
      | error message => rfl
      | ok next => rfl

/-- The chain goes on, or a reorganization drops transactions from it. -/
def mine (mined : Address → ℕ) (s : State) : State := { s with mined }

/-- A new process, on the same store. -/
def restart (transactionType : TransactionType) (s : State) : State :=
  { s with
    nonces := fun _ => 0
    nonceMutex := none
    transactionType := transactionType
    claims := [] }

abbrev Event := Async.Event Program Reply (Address → ℕ) TransactionType

def initial (transactionType : TransactionType) (mined : Address → ℕ) : World State Reply where
  state := ⟨fun _ => 0, none, transactionType, ⟨[], []⟩, mined, [], []⟩
  tasks := fun _ => .done ()

def run (events : List Event) (w : World State Reply) : World State Reply :=
  World.run (program config hash) mine restart events w

end OpenGsn.Relay
