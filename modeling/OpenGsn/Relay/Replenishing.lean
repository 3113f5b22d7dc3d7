import OpenGsn.Relay.RegistrationManager

/-! `replenishServer` of `RelayServer.ts`: the manager's deposit in the hub goes to the manager, and
the manager's ether to the worker. -/

namespace OpenGsn.Relay

open Solidity Async

structure FundsConfig where
  managerAddress : Address
  workerAddress : Address
  relayHubAddress : Address
  workerMinBalance : ℕ
  workerTargetBalance : ℕ
  managerMinBalance : ℕ
  managerTargetBalance : ℕ
  recentActionAvoidRepeatDistanceBlocks : ℕ
  worker_le : workerMinBalance ≤ workerTargetBalance
  manager_le : managerMinBalance ≤ managerTargetBalance

def TxStore.isActionPendingOrRecentlyMined (serverAction : ServerAction) (currentBlock recencyBlockCount : ℕ)
    (destination : Option Address) (store : TxStore) : Bool :=
  let storedMatchingTxs := store.getAll.filter fun tx =>
    tx.serverAction = serverAction ∧ (destination = none ∨ destination = some tx.recipient)
  let pendingTxs := storedMatchingTxs.filter fun tx => tx.minedBlock = none
  let recentlyMinedTxs := storedMatchingTxs.filter fun tx =>
    ∃ minedBlock ∈ tx.minedBlock, (currentBlock : ℤ) - minedBlock.number ≤ recencyBlockCount
  pendingTxs.length ≠ 0 || recentlyMinedTxs.length ≠ 0

/-- The balances that the server last read, its store, and, as a history variable, what was given
to `sendTransaction`. -/
structure Funds where
  managerBalance : ℕ
  workerBalance : ℕ
  txstore : TxStore
  sent : List SendTransactionDetails

abbrev FundsPromise (α : Type) := Async.Promise Funds RegistrationReply String α

/-- What one call decides. Amounts may be negative. -/
structure Needs where
  mustReplenishManager : Bool
  mustReplenishWorker : Bool
  workerReplenishAmount : ℤ
  mustWithdrawHubDeposit : Bool

namespace Funds

variable (encodeABI : ContractMethod → Bytes) (config : FundsConfig) (currentBlock : ShortBlockInfo)

def workerBalanceRequired (s : Funds) : AmountRequired := ⟨s.workerBalance, config.workerMinBalance⟩

def balanceOf : FundsPromise ℕ := Promise.serve fun reply s => (reply.result reply.number, s)

def isPending (serverAction : ServerAction) (destination : Option Address) : FundsPromise Bool :=
  Promise.serve fun reply s =>
    (reply.result (s.txstore.isActionPendingOrRecentlyMined serverAction currentBlock.number
      config.recentActionAvoidRepeatDistanceBlocks destination), s)

/-- A failure may come after the transaction was made. -/
def sendTransaction (details : SendTransactionDetails) : FundsPromise Uint256 :=
  Promise.serve fun reply s => (reply.result reply.hash, { s with sent := s.sent ++ [details] })

def refreshBalance : FundsPromise Unit :=
  Promise.serve fun reply s =>
    match reply.result reply.number with
    | .ok currentBalance => (.ok (), { s with managerBalance := currentBalance })
    | .error message => (.error message, s)

def replenishDetails (workerReplenishAmount : ℤ) : SendTransactionDetails :=
  ⟨config.managerAddress, .valueTransfer, none, config.workerAddress, some workerReplenishAmount.toNat, none,
    none, none, currentBlock⟩

def withdrawDetails (managerHubBalance : ℕ) : SendTransactionDetails :=
  ⟨config.managerAddress, .depositWithdrawal,
    some (encodeABI (.withdraw config.managerAddress managerHubBalance)), config.relayHubAddress, none, none, none,
    none, currentBlock⟩

def needs (managerEthBalance managerHubBalance : ℕ) (isWithdrawalPending isReplenishPendingForWorker : Bool)
    (s : Funds) : Needs :=
  let mustReplenishWorker := !(s.workerBalanceRequired config).isSatisfied && !isReplenishPendingForWorker
  let mustReplenishManager := decide (config.managerMinBalance > managerEthBalance) && !isWithdrawalPending
  let workerReplenishAmount : ℤ := config.workerTargetBalance - (s.workerBalanceRequired config).currentValue
  let managerReplenishAmount : ℤ := config.managerTargetBalance - managerEthBalance
  let canReplenishManager := decide ((managerHubBalance : ℤ) ≥ managerReplenishAmount)
  let cantReplenishWorkerFromBalance :=
    decide ((managerEthBalance : ℤ) - config.managerMinBalance < workerReplenishAmount)
  let canReplenishWorkerFromHubAndBalance :=
    decide ((managerHubBalance : ℤ) + managerEthBalance - config.managerMinBalance ≥ workerReplenishAmount)
  let mustWithdrawHubDeposit := (mustReplenishManager && canReplenishManager) ||
    (mustReplenishWorker && cantReplenishWorkerFromBalance && canReplenishWorkerFromHubAndBalance)
  ⟨mustReplenishManager, mustReplenishWorker, workerReplenishAmount, mustWithdrawHubDeposit⟩

def withdrawHubDeposit (managerHubBalance : ℕ) : FundsPromise (List Uint256) := do
  let transactionHash ← sendTransaction (withdrawDetails encodeABI config currentBlock managerHubBalance)
  refreshBalance
  pure [transactionHash]

def replenishWorker (workerReplenishAmount : ℤ) (managerEthBalance : ℕ) : FundsPromise (List Uint256) :=
  if workerReplenishAmount < (managerEthBalance : ℤ) - config.managerMinBalance then do
    let transactionHash ← sendTransaction (replenishDetails config currentBlock workerReplenishAmount)
    pure [transactionHash]
  else pure []

def meet (managerEthBalance managerHubBalance : ℕ) (needs : Needs) : FundsPromise (List Uint256) :=
  if !needs.mustReplenishManager && !needs.mustReplenishWorker then pure []
  else if needs.mustWithdrawHubDeposit then do
    let withdrawn ← withdrawHubDeposit encodeABI config currentBlock managerHubBalance
    let managerEthBalance ← Promise.sync fun s => (s.managerBalance, s)
    if needs.mustReplenishWorker then do
      let replenished ← replenishWorker config currentBlock needs.workerReplenishAmount managerEthBalance
      pure (withdrawn ++ replenished)
    else pure withdrawn
  else if needs.mustReplenishWorker then
    replenishWorker config currentBlock needs.workerReplenishAmount managerEthBalance
  else pure []

def replenishServer : FundsPromise (List Uint256) := do
  let managerEthBalance ← Promise.sync fun s => (s.managerBalance, s)
  let managerHubBalance ← balanceOf
  let isWithdrawalPending ← isPending config currentBlock .depositWithdrawal none
  let isReplenishPendingForWorker ← isPending config currentBlock .valueTransfer (some config.workerAddress)
  let needs ← Promise.sync fun s =>
    (s.needs config managerEthBalance managerHubBalance isWithdrawalPending isReplenishPendingForWorker, s)
  meet encodeABI config currentBlock managerEthBalance managerHubBalance needs

/-! What is sent. -/

/-- The ways in which a call of `sendTransaction` ends. -/
theorem sendTransaction_sends (details : SendTransactionDetails) (s : Funds) :
    Proc.Alone (fun _ later => later = { s with sent := s.sent ++ [details] }) (sendTransaction details) s := by
  rw [sendTransaction, Promise.alone_serve]
  exact fun _ => rfl

/-- The worker is below its minimum, no transfer to it is pending, and the funds are enough. The
answers 1 to 3 are the deposit in the hub and what the store has. -/
structure Solvent (replies : ℕ → RegistrationReply) (s : Funds) : Prop where
  below : s.workerBalance < config.workerMinBalance
  notPending : s.txstore.isActionPendingOrRecentlyMined .valueTransfer currentBlock.number
    config.recentActionAvoidRepeatDistanceBlocks (some config.workerAddress) = false
  answered : ∀ i ∈ [1, 2, 3], (replies i).error = none
  enough : config.workerTargetBalance - s.workerBalance + config.managerMinBalance ≤
    (replies 1).number + s.managerBalance

end Funds

end OpenGsn.Relay
