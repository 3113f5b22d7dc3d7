import OpenGsn.Relay.TransactionManager

/-! The passes of the worker loop over the store, one await after the other, and what the node
reported in them. -/

namespace OpenGsn.Relay

open Solidity Async

/-- What a pass waits for: all records, the receipt of a transaction, its block, the two steps of
`putTx` with the block written into the record, and the removal. -/
inductive Phase : Type
  | idle
  | loading (currentBlock : ShortBlockInfo)
  | asking (currentBlock : ShortBlockInfo) (transaction : StoredTransaction) (rest : List StoredTransaction)
  | fetching (currentBlock : ShortBlockInfo) (transaction : StoredTransaction) (blockNumber : ℕ)
      (rest : List StoredTransaction)
  | finding (currentBlock : ShortBlockInfo) (tx : StoredTransaction) (rest : List StoredTransaction)
  | writing (currentBlock : ShortBlockInfo) (tx : StoredTransaction) (existing : Option StoredTransaction)
      (rest : List StoredTransaction)
  | removing (currentBlock : ShortBlockInfo)
  deriving DecidableEq, Repr

/-- A record that was removed, in the pass at a block, after these reports. -/
structure Removal where
  currentBlock : ShortBlockInfo
  tx : StoredTransaction
  reports : List (Uint256 × ℕ)
  deriving DecidableEq, Repr

/-- `reports` and `removals` are history variables: the blocks that the node named in this pass,
and all that was removed. -/
structure Archive where
  txstore : TxStore
  phase : Phase
  reports : List (Uint256 × ℕ)
  removals : List Removal
  deriving DecidableEq, Repr

namespace Archive

variable (config : Config)

def advance (currentBlock : ShortBlockInfo) : List StoredTransaction → Phase
  | [] => .removing currentBlock
  | transaction :: rest =>
      if shouldRecheck config currentBlock transaction then .asking currentBlock transaction rest
      else advance currentBlock rest

def upToBlockNumber (currentBlock : ShortBlockInfo) : ℤ := currentBlock.number - config.dbPruneTxAfterBlocks

def upToTimestamp (currentBlock : ShortBlockInfo) : ℤ := currentBlock.timestamp - config.dbPruneTxAfterSeconds

def Due (currentBlock : ShortBlockInfo) (tx : StoredTransaction) : Prop :=
  TxStore.Archived (upToBlockNumber config currentBlock) (upToTimestamp config currentBlock) tx

instance (currentBlock : ShortBlockInfo) (tx : StoredTransaction) : Decidable (Due config currentBlock tx) :=
  inferInstanceAs (Decidable (TxStore.Archived _ _ tx))

def goTo (phase : Phase) (w : Archive) : Archive := { w with phase := phase }

def abandon (w : Archive) : Archive := w.goTo .idle

/-- What is not in the store any more was removed. -/
def remove (currentBlock : ShortBlockInfo) (w : Archive) : Archive :=
  let txstore := w.txstore.removeArchivedTransactions (upToBlockNumber config currentBlock)
    (upToTimestamp config currentBlock)
  let gone := w.txstore.transactions.filter fun tx => tx ∉ txstore.transactions
  ⟨txstore, .idle, w.reports, w.removals ++ gone.map fun tx => ⟨currentBlock, tx, w.reports⟩⟩

/-- The write of `putTx`, for a record that may exist. -/
def written (tx : StoredTransaction) (existing : Option StoredTransaction) (store : TxStore) :
    Except String TxStore :=
  match existing with
  | some existing => store.update existing.txId tx
  | none => store.insert tx

def resume (reply : Reply) (w : Archive) : Archive :=
  match w.phase with
  | .idle => w
  | .loading currentBlock =>
      match reply.ok with
      | .error _ => w.abandon
      | .ok _ => w.goTo (advance config currentBlock w.txstore.getAll)
  | .asking currentBlock transaction rest =>
      match reply.asReceipt with
      | .error _ => w.abandon
      | .ok (some (some blockNumber)) =>
          let reported := { w with reports := (transaction.txId, blockNumber) :: w.reports }
          if transaction.minedBlock.map ShortBlockInfo.number = some blockNumber then
            reported.goTo (advance config currentBlock rest)
          else
            reported.goTo (.fetching currentBlock transaction blockNumber rest)
      | .ok _ => w.goTo (advance config currentBlock rest)
  | .fetching currentBlock transaction _ rest =>
      match reply.asBlock with
      | .error _ => w.abandon
      | .ok minedBlock =>
          if transaction.attempts = 0 then w.abandon
          else w.goTo (.finding currentBlock { transaction with minedBlock := some minedBlock } rest)
  | .finding currentBlock tx rest =>
      match reply.ok with
      | .error _ => w.abandon
      | .ok _ => w.goTo (.writing currentBlock tx (w.txstore.findOne tx.nonceSigner) rest)
  | .writing currentBlock tx existing rest =>
      match reply.ok with
      | .error _ => w.abandon
      | .ok _ =>
          match written tx existing w.txstore with
          | .error _ => w.abandon
          | .ok txstore => { w with txstore := txstore }.goTo (advance config currentBlock rest)
  | .removing currentBlock =>
      match reply.ok with
      | .error _ => w.abandon
      | .ok _ => w.remove config currentBlock

/-- Between the awaits of a pass, calls of `sendTransaction` store what was not mined yet. Boosts
come after a pass and before the next one, and may find the block of an earlier record. -/
inductive Event : Type
  | begin (currentBlock : ShortBlockInfo)
  | resume (reply : Reply)
  | sent (tx : StoredTransaction)
  | boosted (tx : StoredTransaction)
  | restart

def next (w : Archive) : Event → Archive
  | .begin currentBlock =>
      match w.phase with
      | .idle => { w with phase := .loading currentBlock, reports := [] }
      | _ => w
  | .resume reply => w.resume config reply
  | .sent tx =>
      match w.txstore.insert { tx with minedBlock := none } with
      | .error _ => w
      | .ok txstore => { w with txstore := txstore }
  | .boosted tx =>
      match w.phase, written tx (w.txstore.findOne tx.nonceSigner) w.txstore with
      | .idle, .ok txstore => { w with txstore := txstore }
      | _, _ => w
  | .restart => w.abandon

def initial : Archive := ⟨⟨[], []⟩, .idle, [], []⟩

/-! The phases are the code of `fillMinedBlockDetailsForTransactions` and
`removeArchivedTransactions` at its awaits. -/

section Code

def remaining (currentBlock : ShortBlockInfo) (transactions : List StoredTransaction) : Promise Unit := do
  fillMinedBlockDetails config currentBlock transactions
  removeArchivedTransactions config currentBlock

def rewrite (tx : StoredTransaction) : Promise Unit := do
  let existing ← readStore fun store => store.findOne tx.nonceSigner
  writeStore (written tx existing)

theorem putTx_eq (tx : StoredTransaction) :
    putTx tx true = (do check (tx.attempts ≠ 0) "Invalid tx"; rewrite tx) := by
  rw [putTx, rewrite]
  congr 1
  funext _
  congr 1
  funext existing
  cases existing with
  | none => rfl
  | some existing => rfl

def code : Phase → Proc State Reply Unit
  | .idle => .done ()
  | .loading currentBlock => ended (do
      fillMinedBlockDetailsForTransactions config currentBlock
      removeArchivedTransactions config currentBlock)
  | .asking currentBlock transaction rest => ended (remaining config currentBlock (transaction :: rest))
  | .fetching currentBlock transaction _ rest => ended (do
      let minedBlock ← ask Reply.asBlock
      updateTransactionWithMinedBlock transaction minedBlock
      remaining config currentBlock rest)
  | .finding currentBlock tx rest => ended (do
      rewrite tx
      remaining config currentBlock rest)
  | .writing currentBlock tx existing rest => ended (do
      writeStore (written tx existing)
      remaining config currentBlock rest)
  | .removing currentBlock => ended (removeArchivedTransactions config currentBlock)

theorem code_advance (currentBlock : ShortBlockInfo) (transactions : List StoredTransaction) :
    code config (advance config currentBlock transactions) =
      ended (remaining config currentBlock transactions) := by
  induction transactions with
  | nil => rfl
  | cons transaction rest ih =>
      by_cases recheck : shouldRecheck config currentBlock transaction = true
      · simp only [advance, recheck, if_true, code]
      · simp only [advance, recheck, Bool.false_eq_true, if_false, remaining, fillMinedBlockDetails]
        exact ih

def afterReceipt (currentBlock : ShortBlockInfo) (transaction : StoredTransaction)
    (rest : List StoredTransaction) : Option (Option ℕ) → Phase
  | some (some blockNumber) =>
      if transaction.minedBlock.map ShortBlockInfo.number = some blockNumber then
        advance config currentBlock rest
      else .fetching currentBlock transaction blockNumber rest
  | _ => advance config currentBlock rest

def received (s : State) (phase : Phase) (reply : Reply) : Reply :=
  match phase, reply with
  | .asking _ transaction _, .receipt receipt =>
      .receipt (receipt.map fun blockNumber =>
        if transaction.nonce < s.mined transaction.sender then blockNumber else none)
  | _, reply => reply

theorem resume_asking (currentBlock : ShortBlockInfo) (transaction : StoredTransaction)
    (rest : List StoredTransaction) (reply : Reply) (s : State)
    (recheck : shouldRecheck config currentBlock transaction = true) :
    (code config (.asking currentBlock transaction rest)).resume reply s =
      (s, match (received s (.asking currentBlock transaction rest) reply).asReceipt with
        | .error _ => .done ()
        | .ok receipt => code config (afterReceipt config currentBlock transaction rest receipt)) := by
  rw [code, remaining, fillMinedBlockDetails, if_pos recheck, bind_assoc, getTransaction, resume_serve]
  cases reply with
  | receipt receipt =>
      rcases receipt with _ | blockNumber
      · exact Prod.ext rfl (code_advance config currentBlock rest).symm
      · simp only [received, Reply.asReceipt, Except.map, Option.map_some, continued]
        generalize (if transaction.nonce < s.mined transaction.sender then blockNumber else none) = found
        cases found with
        | none => exact Prod.ext rfl (code_advance config currentBlock rest).symm
        | some blockNumber =>
            by_cases same : transaction.minedBlock.map ShortBlockInfo.number = some blockNumber
            · simp only [afterReceipt, same, if_true, code_advance, remaining]
            · simp only [afterReceipt, same, if_false, code, remaining, bind_assoc]
  | _ => rfl

/-- The code waits once in each phase, and what it does with the reply is the next phase. -/
theorem code_resume (w : Archive) (s : State) (reply : Reply) (store : s.txstore = w.txstore)
    (recheck : ∀ currentBlock transaction rest, w.phase = .asking currentBlock transaction rest →
      shouldRecheck config currentBlock transaction = true) :
    (code config w.phase).resume reply s =
      ({ s with txstore := (w.resume config (received s w.phase reply)).txstore },
        code config (w.resume config (received s w.phase reply)).phase) := by
  obtain ⟨txstore, phase, reports, removals⟩ := w
  subst store
  cases phase with
  | idle => rfl
  | loading currentBlock =>
      cases reply with
      | failed message => rfl
      | _ => exact Prod.ext rfl (code_advance config currentBlock _).symm
  | asking currentBlock transaction rest =>
      rw [resume_asking config currentBlock transaction rest reply s (recheck _ _ _ rfl)]
      simp only [resume]
      cases (received s (.asking currentBlock transaction rest) reply).asReceipt with
      | error message => rfl
      | ok receipt =>
          rcases receipt with _ | _ | blockNumber
          · rfl
          · rfl
          · by_cases same : transaction.minedBlock.map ShortBlockInfo.number = some blockNumber
            · simp only [afterReceipt, if_pos same]
              rfl
            · simp only [afterReceipt, if_neg same]
              rfl
  | fetching currentBlock transaction blockNumber rest =>
      rw [code]
      simp only [updateTransactionWithMinedBlock, putTx_eq, bind_assoc]
      rw [ask, resume_serve]
      by_cases fresh : transaction.attempts = 0
      · cases reply with
        | block minedBlock =>
            simp only [received, resume, Reply.asBlock, continued, check, fresh, ne_eq, not_true_eq_false,
              if_true, if_false]
            rfl
        | _ => rfl
      · cases reply with
        | block minedBlock =>
            simp only [received, resume, Reply.asBlock, continued, check, fresh, ne_eq, not_false_eq_true,
              if_true, if_false]
            rfl
        | _ => rfl
  | finding currentBlock tx rest =>
      cases reply with
      | failed message => rfl
      | _ => rfl
  | writing currentBlock tx existing rest =>
      rw [code, resume_writeStore]
      simp only [received, resume]
      cases reply.ok with
      | error message => rfl
      | ok value =>
          cases write : written tx existing s.txstore with
          | error message => rfl
          | ok next => exact Prod.ext rfl (code_advance config currentBlock rest).symm
  | removing currentBlock =>
      cases reply with
      | failed message => rfl
      | _ => rfl

end Code

end Archive

end OpenGsn.Relay
