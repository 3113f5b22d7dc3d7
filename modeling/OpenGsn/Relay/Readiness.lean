import OpenGsn.Relay.Replenishing
import OpenGsn.Runs

/-! When `RelayServer.ts` is ready: `_worker`, and the balances it was last told. -/

namespace OpenGsn.Relay

open Solidity Async Promise

structure WorkerConfig where
  registration : RegistrationConfig
  funds : FundsConfig
  refreshStateTimeoutBlocks : ℕ
  alertedDelaySeconds : ℕ
  oneManager : registration.managerAddress = funds.managerAddress
  oneWorker : registration.workerAddress = funds.workerAddress
  oneBalance : registration.managerMinBalance = funds.managerMinBalance

/-- The fields that a pass reads and writes, `workerBalance` being the current value in
`workerBalanceRequired`. History variables: what `_refreshAndCheckBalances` was last told. -/
structure Serving where
  registration : Registration
  txstore : TxStore
  workerBalance : ℕ
  initialized : Bool
  ready : Bool
  shouldRefreshBalances : Bool
  alerted : Bool
  alertedByTransactionBlockTimestamp : ℕ
  lastScannedBlock : ℕ
  lastRefreshBlock : ℕ
  managerRead : ℕ
  workerRead : ℕ

def Serving.managerBalance (s : Serving) : ℕ := s.registration.manager.balanceRequired.currentValue

/-- What comes back, and what has happened meanwhile: the `TransactionBroadcast` event, the store as
others leave it, and the time of the last block with a rejected transaction, if that is asked for. -/
structure ServingReply where
  registration : RegistrationReply
  broadcast : Bool
  txstore : TxStore
  rejected : Option ℕ

abbrev ServingPromise (α : Type) := Async.Promise Serving ServingReply String α

/-- What the node reports to the two requests of one check. -/
structure BalanceAnswers where
  manager : Except String ℕ
  worker : Except String ℕ

namespace Serving

variable (addresses : RelayHub.Immutables) (encodeABI : ContractMethod → Bytes) (config : WorkerConfig)
  (block : ShortBlockInfo)

def meanwhile (reply : ServingReply) (s : Serving) : Serving :=
  { s with
    shouldRefreshBalances := s.shouldRefreshBalances || reply.broadcast
    txstore := reply.txstore }

/-- A request that changes nothing that is modelled here. -/
def elsewhere : ServingPromise Unit :=
  Promise.serve fun reply s => (reply.registration.result (), s.meanwhile reply)

def look {α : Type} (read : Serving → α) : ServingPromise α := Promise.sync fun s => (read s, s)

def change (act : Serving → Serving) : ServingPromise Unit := Promise.sync fun s => ((), act s)

def demand (condition : Prop) [Decidable condition] (message : String) : ServingPromise Unit :=
  Promise.ofExcept (if condition then .ok () else .error message)

def setReadyState (isReady : Bool) (s : Serving) : Serving := { s with ready := isReady }

/-! What the manager and the funds are asked to do. -/

def setRegistration (reply : ServingReply) (registration : Registration) (s : Serving) : Serving :=
  { s.meanwhile reply with registration := registration }

def ofRegistration {α : Type} (promise : RegistrationPromise α) : ServingPromise α :=
  Promise.within registration setRegistration ServingReply.registration promise

def funds (s : Serving) : Funds :=
  ⟨s.managerBalance, s.workerBalance, s.txstore, s.registration.sent⟩

def setManagerBalance (balance : ℕ) (registration : Registration) : Registration :=
  { registration with
    manager := { registration.manager with
      balanceRequired := { registration.manager.balanceRequired with currentValue := balance } } }

def setFunds (reply : ServingReply) (funds : Funds) (s : Serving) : Serving :=
  { s.meanwhile reply with
    registration := { setManagerBalance funds.managerBalance s.registration with sent := funds.sent }
    workerBalance := funds.workerBalance }

def ofFunds {α : Type} (promise : FundsPromise α) : ServingPromise α :=
  Promise.within Serving.funds setFunds ServingReply.registration promise

/-! The check. -/

/-- `refreshBalance` -/
def readManagerBalance (answer : Except String ℕ) : ServingPromise Unit :=
  Promise.serve fun reply s =>
    match answer with
    | .error message => (.error message, s.meanwhile reply)
    | .ok balance =>
        (.ok (), { s.meanwhile reply with
          registration := setManagerBalance balance s.registration
          managerRead := balance })

/-- `getWorkerBalance` -/
def readWorkerBalance (answer : Except String ℕ) : ServingPromise Unit :=
  Promise.serve fun reply s =>
    match answer with
    | .error message => (.error message, s.meanwhile reply)
    | .ok balance => (.ok (), { s.meanwhile reply with workerBalance := balance, workerRead := balance })

def minBalanceToNotReadyFactor : ℕ := 2

def checkBalances (s : Serving) : Bool × Serving :=
  let isManagerBalanceReady := config.funds.managerMinBalance / minBalanceToNotReadyFactor ≤ s.managerBalance
  let isWorkerBalanceReady := config.funds.workerMinBalance / minBalanceToNotReadyFactor ≤ s.workerBalance
  let shouldReplenishManager := s.managerBalance < config.funds.managerMinBalance
  let shouldReplenishWorker := s.workerBalance < config.funds.workerMinBalance
  let checked := if isManagerBalanceReady ∧ isWorkerBalanceReady then s else s.setReadyState false
  (isManagerBalanceReady, { checked with
    shouldRefreshBalances := shouldReplenishManager ∨ shouldReplenishWorker })

def refreshAndCheckBalances (answers : BalanceAnswers) : ServingPromise Bool := do
  let shouldRefreshBalances ← look Serving.shouldRefreshBalances
  if shouldRefreshBalances then do
    readManagerBalance answers.manager
    readWorkerBalance answers.worker
    Promise.sync (checkBalances config)
  else pure true

/-! The pass. -/

def shouldRefreshState (s : Serving) : Bool :=
  (config.refreshStateTimeoutBlocks : ℤ) ≤ (block.number : ℤ) - s.lastRefreshBlock || !s.ready

def shouldRegisterAgain : ServingPromise Bool :=
  Promise.serve fun reply s => (reply.registration.result reply.registration.flag, s.meanwhile reply)

/-- The events that a transaction was rejected alert the server. -/
def handlePastHubEvents : ServingPromise Unit :=
  Promise.serve fun reply s =>
    let s := s.meanwhile reply
    (reply.registration.result (),
      match reply.rejected with
      | none => s
      | some timestamp => { s with alerted := true, alertedByTransactionBlockTimestamp := timestamp })

def exitAlerted (s : Serving) : Serving :=
  if s.alerted ∧ s.alertedByTransactionBlockTimestamp + config.alertedDelaySeconds < block.timestamp then
    { s with alerted := false }
  else s

/-- `_handleChanges` up to `replenishServer`. The pass may end there, with the manager not registered. -/
def handleEvents (scanned : ℕ) : ServingPromise (List Uint256 × Bool) := do
  let _hubEventsSinceLastScan ← elsewhere
  let forceRegistration ← shouldRegisterAgain
  let transactionHashes ← ofRegistration (RegistrationManager.handlePastEvents addresses encodeABI
    config.registration block scanned forceRegistration)
  let _filledMinedBlockDetails ← elsewhere
  let _removedArchivedTransactions ← elsewhere
  let _boostedTransactions ← elsewhere
  change fun s => { s with lastScannedBlock := block.number }
  let isRegistered ← look fun s => s.registration.manager.isRegistered config.registration
  if !isRegistered then do
    change (setReadyState false)
    pure (transactionHashes, false)
  else do
    handlePastHubEvents
    let replenished ← ofFunds (Funds.replenishServer encodeABI config.funds block)
    pure (transactionHashes ++ replenished, true)

def becomeReady : ServingPromise Unit := do
  change (setReadyState true)
  change (exitAlerted config block)

def concludeChanges (second : BalanceAnswers) (handled : List Uint256 × Bool) :
    ServingPromise (List Uint256) :=
  if handled.2 then do
    let _isManagerBalanceReady ← refreshAndCheckBalances config second
    becomeReady config block
    pure handled.1
  else pure handled.1

def handleChanges (scanned : ℕ) (second : BalanceAnswers) : ServingPromise (List Uint256) := do
  let handled ← handleEvents addresses encodeABI config block scanned
  concludeChanges config block second handled

/-- It catches its errors. -/
def withdrawToOwnerIfNeeded : ServingPromise Unit := Promise.caught elsewhere

/-- `_worker` up to `_handleChanges`, and whether it comes to that. -/
def prepare (first : BalanceAnswers) : ServingPromise Bool := do
  let s ← look id
  demand (s.initialized = true) "Please run init() first"
  demand (s.lastScannedBlock < block.number) "Attempt to scan older block, aborting"
  if !s.shouldRefreshState config block then pure false
  else do
    withdrawToOwnerIfNeeded
    change fun s => { s with lastRefreshBlock := block.number }
    let _refreshedGasFees ← elsewhere
    refreshAndCheckBalances config first

def worker (scanned : ℕ) (first second : BalanceAnswers) : ServingPromise (List Uint256) := do
  let isManagerBalanceReady ← prepare config block first
  if isManagerBalanceReady then handleChanges addresses encodeABI config block scanned second
  else pure []

def tryWorker (scanned : ℕ) (first second : BalanceAnswers) : ServingPromise (List Uint256) := do
  let _block ← elsewhere
  let lastScannedBlock ← look Serving.lastScannedBlock
  if lastScannedBlock < block.number then worker addresses encodeABI config block scanned first second
  else pure []

def untilSecondCheck (scanned : ℕ) (first : BalanceAnswers) : ServingPromise (List Uint256 × Bool) := do
  let _block ← elsewhere
  let lastScannedBlock ← look Serving.lastScannedBlock
  if lastScannedBlock < block.number then do
    let isManagerBalanceReady ← prepare config block first
    if isManagerBalanceReady then handleEvents addresses encodeABI config block scanned
    else pure ([], false)
  else pure ([], false)

theorem tryWorker_split (scanned : ℕ) (first second : BalanceAnswers) :
    tryWorker addresses encodeABI config block scanned first second =
      untilSecondCheck addresses encodeABI config block scanned first >>=
        concludeChanges config block second := by
  have skipped : (pure ([], false) : ServingPromise (List Uint256 × Bool)) >>=
      concludeChanges config block second = pure [] := rfl
  simp only [tryWorker, untilSecondCheck, bind_assoc]
  congr 1
  funext _
  congr 1
  funext lastScannedBlock
  split
  · simp only [worker, bind_assoc]
    congr 1
    funext isManagerBalanceReady
    split
    · rfl
    · exact skipped.symm
  · exact skipped.symm

/-! What the parts do to the readiness. -/

structure Rests (s t : Serving) : Prop where
  ready : t.ready = s.ready
  managerRead : t.managerRead = s.managerRead
  workerRead : t.workerRead = s.workerRead
  due : s.shouldRefreshBalances = true → t.shouldRefreshBalances = true

theorem rests_refl (s : Serving) : s.Rests s := ⟨rfl, rfl, rfl, id⟩

theorem rests_trans (s t u : Serving) (first : s.Rests t) (second : t.Rests u) : s.Rests u :=
  ⟨second.ready.trans first.ready, second.managerRead.trans first.managerRead,
    second.workerRead.trans first.workerRead, second.due ∘ first.due⟩

theorem meanwhile_rests (reply : ServingReply) (s : Serving) : s.Rests (s.meanwhile reply) := by
  refine ⟨rfl, rfl, rfl, fun due => ?_⟩
  rw [meanwhile, due, Bool.true_or]

abbrev KeepsReadiness {α : Type} (promise : ServingPromise α) : Prop := Keeps Rests promise

theorem demand_rests (condition : Prop) [Decidable condition] (message : String) :
    KeepsReadiness (demand condition message) :=
  fun s => rests_refl s

theorem look_rests {α : Type} (read : Serving → α) : KeepsReadiness (look read) :=
  fun s _ _ => rests_refl s

theorem elsewhere_rests : KeepsReadiness elsewhere :=
  fun s _ reply => meanwhile_rests reply s

theorem shouldRegisterAgain_rests : KeepsReadiness shouldRegisterAgain :=
  fun s _ reply => meanwhile_rests reply s

theorem handlePastHubEvents_rests : KeepsReadiness handlePastHubEvents := by
  intro s _ reply
  have one := meanwhile_rests reply s
  cases rejected : reply.rejected with
  | none =>
      simp only [Proc.Alone, rejected]
      exact one
  | some timestamp =>
      simp only [Proc.Alone, rejected]
      exact ⟨one.ready, one.managerRead, one.workerRead, one.due⟩

theorem ofRegistration_rests {α : Type} (promise : RegistrationPromise α) :
    KeepsReadiness (ofRegistration promise) := by
  apply keeps_within _ _ _ rests_refl rests_trans
  intro reply registration s
  have one := meanwhile_rests reply s
  exact ⟨one.ready, one.managerRead, one.workerRead, one.due⟩

theorem ofFunds_rests {α : Type} (promise : FundsPromise α) : KeepsReadiness (ofFunds promise) := by
  apply keeps_within _ _ _ rests_refl rests_trans
  intro reply funds s
  have one := meanwhile_rests reply s
  exact ⟨one.ready, one.managerRead, one.workerRead, one.due⟩

theorem scanned_rests : KeepsReadiness (change fun s => { s with lastScannedBlock := block.number }) :=
  fun _ _ _ => ⟨rfl, rfl, rfl, id⟩

theorem refreshed_rests : KeepsReadiness (change fun s => { s with lastRefreshBlock := block.number }) :=
  fun _ _ _ => ⟨rfl, rfl, rfl, id⟩

theorem withdrawToOwnerIfNeeded_rests : KeepsReadiness withdrawToOwnerIfNeeded :=
  fun s => alone_caught elsewhere s (elsewhere_rests s)

/-! What the check does. -/

/-- No refresh is due only where the balances were last enough. -/
def Rested (s : Serving) : Prop :=
  s.shouldRefreshBalances = false →
    config.funds.managerMinBalance ≤ s.managerRead ∧ config.funds.workerMinBalance ≤ s.workerRead

/-- The balances are at least half of what they should be. -/
def Halved (manager worker : ℕ) : Prop :=
  config.funds.managerMinBalance ≤ 2 * manager ∧ config.funds.workerMinBalance ≤ 2 * worker

def Funded (s : Serving) : Prop := Halved config s.managerRead s.workerRead

theorem rested_rests (s t : Serving) (rests : s.Rests t) (rested : s.Rested config) : t.Rested config := by
  intro none
  rw [rests.managerRead, rests.workerRead]
  apply rested
  cases due : s.shouldRefreshBalances with
  | false => rfl
  | true => exact absurd (rests.due due) (by rw [none]; decide)

theorem funded_rested (s : Serving) (rested : s.Rested config) (none : s.shouldRefreshBalances = false) :
    s.Funded config := by
  have enough := rested none
  constructor
  · omega
  · omega

structure Checked (answers : BalanceAnswers) (s : Serving) (result : Except String Bool) (t : Serving) :
    Prop where
  rested : t.Rested config
  skipped : s.shouldRefreshBalances = false → t = s ∧ result = .ok true
  read : s.shouldRefreshBalances = true → ∀ isManagerBalanceReady, result = .ok isManagerBalanceReady →
    answers.manager = .ok t.managerRead ∧ answers.worker = .ok t.workerRead
  unready : result = .ok false → t.ready = false

theorem checkBalances_checks (s : Serving) (manager : s.managerBalance = s.managerRead)
    (worker : s.workerBalance = s.workerRead) :
    (checkBalances config s).2.Rested config ∧
      (checkBalances config s).2.managerRead = s.managerRead ∧
      (checkBalances config s).2.workerRead = s.workerRead ∧
      ((checkBalances config s).1 = false → (checkBalances config s).2.ready = false) := by
  simp only [checkBalances, manager, worker]
  refine ⟨?_, ?_, ?_, ?_⟩
  · intro enough
    simp only [decide_eq_false_iff_not, not_or, not_lt] at enough
    split <;> exact enough
  · split <;> rfl
  · split <;> rfl
  · intro low
    rw [if_neg fun both => of_decide_eq_false low both.1]
    rfl

theorem checked_failed (answers : BalanceAnswers) (s t : Serving) (message : String)
    (due : s.shouldRefreshBalances = true) (still : t.shouldRefreshBalances = true) :
    Checked config answers s (.error message) t where
  rested none := by rw [still] at none; cases none
  skipped none := by rw [due] at none; cases none
  read _ _ made := by cases made
  unready made := by cases made

theorem readManagerBalance_reads (answer : Except String ℕ) (s : Serving)
    (due : s.shouldRefreshBalances = true) :
    Proc.Alone (fun result t => t.shouldRefreshBalances = true ∧
        (result = .ok () → answer = .ok t.managerRead ∧ t.managerBalance = t.managerRead))
      (readManagerBalance answer) s := by
  rw [readManagerBalance, alone_serve]
  intro reply
  have still := (meanwhile_rests reply s).due due
  cases answer with
  | error message => exact ⟨still, fun made => by cases made⟩
  | ok balance => exact ⟨still, fun _ => ⟨rfl, rfl⟩⟩

theorem readWorkerBalance_reads (answer : Except String ℕ) (s : Serving)
    (due : s.shouldRefreshBalances = true) :
    Proc.Alone (fun result t => t.shouldRefreshBalances = true ∧
        (result = .ok () → answer = .ok t.workerRead ∧ t.workerBalance = t.workerRead ∧
          t.managerRead = s.managerRead ∧ t.managerBalance = s.managerBalance))
      (readWorkerBalance answer) s := by
  rw [readWorkerBalance, alone_serve]
  intro reply
  have still := (meanwhile_rests reply s).due due
  cases answer with
  | error message => exact ⟨still, fun made => by cases made⟩
  | ok balance => exact ⟨still, fun _ => ⟨rfl, rfl, rfl, rfl⟩⟩

theorem refreshAndCheckBalances_checks (answers : BalanceAnswers) (s : Serving) (rested : s.Rested config) :
    Proc.Alone (Checked config answers s) (refreshAndCheckBalances config answers) s := by
  apply alone_sync_seq
  cases due : s.shouldRefreshBalances with
  | false =>
      exact
        { rested := rested
          skipped := fun _ => ⟨rfl, rfl⟩
          read := fun never => by rw [due] at never; cases never
          unready := fun never => by cases never }
  | true =>
      apply alone_seq _ _ s (readManagerBalance_reads answers.manager s due)
      · exact fun message t reached => checked_failed config answers s t message due reached.1
      intro _ t reached
      obtain ⟨managerTold, managerKnown⟩ := reached.2 rfl
      apply alone_seq _ _ t (readWorkerBalance_reads answers.worker t reached.1)
      · exact fun message u reached => checked_failed config answers s u message due reached.1
      intro _ u again
      obtain ⟨workerTold, workerKnown, sameRead, sameBalance⟩ := again.2 rfl
      have known : u.managerBalance = u.managerRead := by rw [sameBalance, managerKnown, sameRead]
      obtain ⟨rest, manager, worker, unready⟩ := checkBalances_checks config u known workerKnown
      intro _ _
      exact
        { rested := rest
          skipped := fun never => by rw [due] at never; cases never
          read := fun _ _ _ => ⟨by rw [manager, sameRead, managerTold], by rw [worker, workerTold]⟩
          unready := fun made => unready (Except.ok.inj made) }

/-! What a pass does. -/

/-- As far as the second check: a server that stops before is ready only with the balances it had. -/
structure Reached (result : Except String (List Uint256 × Bool)) (t : Serving) : Prop where
  rested : t.Rested config
  stopped : ∀ transactionHashes, result = .ok (transactionHashes, false) → t.ready = true → t.Funded config

theorem reached_error (t : Serving) (message : String) (rested : t.Rested config) :
    Reached config (.error message) t :=
  ⟨rested, fun _ made => by cases made⟩

theorem reached_seq {α : Type} (first : ServingPromise α) (rest : α → ServingPromise (List Uint256 × Bool))
    (s : Serving) (keeps : KeepsReadiness first) (rested : s.Rested config)
    (after : ∀ value t, t.Rested config → Proc.Alone (Reached config) (rest value) t) :
    Proc.Alone (Reached config) (first >>= rest : ServingPromise (List Uint256 × Bool)) s := by
  apply alone_seq first rest s (keeps s)
  · exact fun message t rests => reached_error config t message (rested_rests config s t rests rested)
  · exact fun value t rests => after value t (rested_rests config s t rests rested)

theorem handleEvents_reaches (scanned : ℕ) (s : Serving) (rested : s.Rested config) :
    Proc.Alone (Reached config) (handleEvents addresses encodeABI config block scanned) s := by
  apply reached_seq config _ _ s elsewhere_rests rested
  intro _ s rested
  apply reached_seq config _ _ s shouldRegisterAgain_rests rested
  intro forceRegistration s rested
  apply reached_seq config _ _ s (ofRegistration_rests _) rested
  intro transactionHashes s rested
  apply reached_seq config _ _ s elsewhere_rests rested
  intro _ s rested
  apply reached_seq config _ _ s elsewhere_rests rested
  intro _ s rested
  apply reached_seq config _ _ s elsewhere_rests rested
  intro _ s rested
  apply reached_seq config _ _ s (scanned_rests block) rested
  intro _ s rested
  apply reached_seq config _ _ s (look_rests _) rested
  intro isRegistered s rested
  split
  · apply alone_sync_seq
    exact ⟨rested, fun _ _ ready => by cases ready⟩
  · apply reached_seq config _ _ s handlePastHubEvents_rests rested
    intro _ s rested
    apply reached_seq config _ _ s (ofFunds_rests _) rested
    intro replenished s rested
    exact ⟨rested, fun _ made => by cases made⟩

structure Stands (s : Serving) : Prop where
  rested : s.Rested config
  funded : s.ready = true → s.Funded config

theorem stands_rests (s t : Serving) (rests : s.Rests t) (stands : s.Stands config) : t.Stands config := by
  refine ⟨rested_rests config s t rests stands.rested, fun ready => ?_⟩
  rw [Funded, rests.managerRead, rests.workerRead]
  exact stands.funded (rests.ready.symm.trans ready)

structure Prepared (result : Except String Bool) (t : Serving) : Prop where
  rested : t.Rested config
  stopped : result = .ok false → t.ready = true → t.Funded config

theorem prepared_seq {α : Type} (first : ServingPromise α) (rest : α → ServingPromise Bool) (s : Serving)
    (keeps : KeepsReadiness first) (stands : s.Stands config)
    (after : ∀ value t, s.Rests t → Proc.Alone (Prepared config) (rest value) t) :
    Proc.Alone (Prepared config) (first >>= rest : ServingPromise Bool) s := by
  apply alone_seq first rest s (keeps s)
  · intro message t rests
    exact ⟨(stands_rests config s t rests stands).rested, fun made => by cases made⟩
  · exact after

theorem prepare_prepares (first : BalanceAnswers) (s : Serving) (stands : s.Stands config) :
    Proc.Alone (Prepared config) (prepare config block first) s := by
  apply alone_sync_seq
  apply prepared_seq config _ _ s (demand_rests _ _) stands
  intro _ t rests
  have stands := stands_rests config s t rests stands
  apply prepared_seq config _ _ t (demand_rests _ _) stands
  intro _ u rests
  have stands := stands_rests config t u rests stands
  split
  · exact ⟨stands.rested, fun _ => stands.funded⟩
  · apply prepared_seq config _ _ u withdrawToOwnerIfNeeded_rests stands
    intro _ t rests
    have stands := stands_rests config u t rests stands
    apply prepared_seq config _ _ t (refreshed_rests block) stands
    intro _ u rests
    have stands := stands_rests config t u rests stands
    apply prepared_seq config _ _ u elsewhere_rests stands
    intro _ t rests
    have stands := stands_rests config u t rests stands
    have checks := refreshAndCheckBalances_checks config first t stands.rested
    apply Proc.alone_weaken _ _ _ ?_ checks
    intro result u checked
    exact ⟨checked.rested, fun made ready => by rw [checked.unready made] at ready; cases ready⟩

theorem untilSecondCheck_reaches (scanned : ℕ) (first : BalanceAnswers) (s : Serving)
    (stands : s.Stands config) :
    Proc.Alone (Reached config) (untilSecondCheck addresses encodeABI config block scanned first) s := by
  apply alone_seq _ _ s (elsewhere_rests s)
  · exact fun message t rests => reached_error config t message (stands_rests config s t rests stands).rested
  intro _ t rests
  have stands := stands_rests config s t rests stands
  apply alone_sync_seq
  split
  · apply alone_seq _ _ t (prepare_prepares config block first t stands)
    · exact fun message u prepared => reached_error config u message prepared.rested
    intro isManagerBalanceReady u prepared
    cases isManagerBalanceReady with
    | false => exact ⟨prepared.rested, fun _ _ => prepared.stopped rfl⟩
    | true => exact handleEvents_reaches addresses encodeABI config block scanned u prepared.rested
  · exact ⟨stands.rested, fun _ _ => stands.funded⟩

/-- The second check is made where the pass has come to, and the server becomes ready. -/
theorem concludeChanges_readies (second : BalanceAnswers) (transactionHashes : List Uint256) (s : Serving)
    (rested : s.Rested config) :
    Proc.Alone (fun result t => t.Rested config ∧ ∀ value, result = .ok value → t.ready = true ∧
        ∃ m, ∃ isManagerBalanceReady, Checked config second s (.ok isManagerBalanceReady) m ∧
          t.managerRead = m.managerRead ∧ t.workerRead = m.workerRead)
      (concludeChanges config block second (transactionHashes, true)) s := by
  apply alone_seq _ _ s (refreshAndCheckBalances_checks config second s rested)
  · exact fun message t checked => ⟨checked.rested, fun _ made => by cases made⟩
  intro isManagerBalanceReady t checked
  rw [becomeReady, bind_assoc]
  apply alone_sync_seq
  apply alone_sync_seq
  dsimp only
  rw [exitAlerted]
  split
  · exact ⟨checked.rested, fun _ _ => ⟨rfl, t, isManagerBalanceReady, checked, rfl, rfl⟩⟩
  · exact ⟨checked.rested, fun _ _ => ⟨rfl, t, isManagerBalanceReady, checked, rfl, rfl⟩⟩

end Serving

/-! Runs. -/

/-- One interval. What happens on chain and to the server since the last one, and all that the server is
told in it: by the first and the second check, and by the other requests. -/
structure Interval where
  contracts : RelayHub.World
  relayUrl : Option String
  broadcast : Bool
  block : ShortBlockInfo
  scanned : ℕ
  first : BalanceAnswers
  second : BalanceAnswers
  replies : ℕ → ServingReply

/-- The server, and if the last pass has completed. -/
structure Worker where
  server : Serving
  completed : Bool

namespace Worker

open Serving

variable (addresses : RelayHub.Immutables) (encodeABI : ContractMethod → Bytes) (config : WorkerConfig)

def start (interval : Interval) (s : Serving) : Serving :=
  { s with
    registration := { s.registration with contracts := interval.contracts, relayUrl := interval.relayUrl }
    shouldRefreshBalances := s.shouldRefreshBalances || interval.broadcast }

/-- `intervalHandler`. All errors are caught there. -/
def intervalHandler (s : Worker) (interval : Interval) : Worker :=
  match Proc.finish interval.replies 0
    (tryWorker addresses encodeABI config interval.block interval.scanned interval.first interval.second)
    (start interval s.server) with
  | some (.ok _, t) => ⟨t, true⟩
  | some (.error _, t) => ⟨t.setReadyState false, false⟩
  | none => ⟨s.server, false⟩

def secondCheck (s : Worker) (interval : Interval) : Option Serving :=
  match Proc.finish interval.replies 0
    (untilSecondCheck addresses encodeABI config interval.block interval.scanned interval.first)
    (start interval s.server) with
  | some (.ok (_, true), m) => some m
  | _ => none

def CanPay (s : Worker) : Prop :=
  s.completed = true → s.server.ready = true → s.server.Funded config

/-- Where a pass that completes comes to the second check with a refresh due, the node reports at
least half of both balances. -/
def ReportsHalf (s : Worker) (interval : Interval) : Prop :=
  (s.intervalHandler addresses encodeABI config interval).completed = true →
    ∀ m ∈ s.secondCheck addresses encodeABI config interval, m.shouldRefreshBalances = true →
      ∀ manager worker, interval.second.manager = .ok manager → interval.second.worker = .ok worker →
        Halved config manager worker

/-- The invariant, whatever the balances are. -/
structure Sane (s : Worker) : Prop where
  rested : s.server.Rested config
  failed : s.completed = false → s.server.ready = true → s.server.Funded config

theorem start_rests (interval : Interval) (s : Serving) : s.Rests (start interval s) := by
  refine ⟨rfl, rfl, rfl, fun due => ?_⟩
  rw [start, due, Bool.true_or]

theorem stands_started (s : Worker) (interval : Interval) (sane : s.Sane config) (pays : s.CanPay config) :
    (start interval s.server).Stands config := by
  apply stands_rests config s.server _ (start_rests interval s.server)
  refine ⟨sane.rested, fun ready => ?_⟩
  cases ended : s.completed with
  | false => exact sane.failed ended ready
  | true => exact pays ended ready

structure Passes (s : Worker) (interval : Interval) : Prop where
  sane : (s.intervalHandler addresses encodeABI config interval).Sane config
  stopped : s.secondCheck addresses encodeABI config interval = none →
    (s.intervalHandler addresses encodeABI config interval).CanPay config
  checked : ∀ m ∈ s.secondCheck addresses encodeABI config interval,
    (s.intervalHandler addresses encodeABI config interval).completed = true →
      (s.intervalHandler addresses encodeABI config interval).server.ready = true ∧
      m.Rested config ∧ ∃ isManagerBalanceReady u,
        Checked config interval.second m (.ok isManagerBalanceReady) u ∧
          (s.intervalHandler addresses encodeABI config interval).server.managerRead = u.managerRead ∧
          (s.intervalHandler addresses encodeABI config interval).server.workerRead = u.workerRead

theorem canPay_iff (s : Worker) (interval : Interval) (passes : s.Passes addresses encodeABI config interval) :
    (s.intervalHandler addresses encodeABI config interval).CanPay config ↔
      s.ReportsHalf addresses encodeABI config interval := by
  cases reached : s.secondCheck addresses encodeABI config interval with
  | none =>
      constructor
      · intro _ _ m found
        rw [reached] at found
        cases found
      · exact fun _ => passes.stopped reached
  | some m =>
      constructor
      · intro pays completed found same due manager worker managerTold workerTold
        rw [reached] at same
        cases same
        obtain ⟨ready, _, isManagerBalanceReady, u, checked, managerRead, workerRead⟩ :=
          passes.checked m reached completed
        have told := checked.read due isManagerBalanceReady rfl
        have funded := pays completed ready
        rw [Funded, managerRead, workerRead] at funded
        rw [managerTold, workerTold] at told
        cases told.1
        cases told.2
        exact funded
      · intro half completed _
        obtain ⟨_, rested, isManagerBalanceReady, u, checked, managerRead, workerRead⟩ :=
          passes.checked m reached completed
        rw [Funded, managerRead, workerRead]
        cases due : m.shouldRefreshBalances with
        | false =>
            rw [(checked.skipped due).1]
            exact funded_rested config m rested due
        | true =>
            have told := checked.read due isManagerBalanceReady rfl
            exact half completed m reached due _ _ told.1 told.2

/-- The end of a pass that has been `Reached` its second check, or has stopped before. -/
theorem passes_ended (s : Worker) (interval : Interval) (result : Except String (List Uint256)) (t m : Serving)
    (handled : Except String (List Uint256 × Bool))
    (ended : Proc.finish interval.replies 0 (tryWorker addresses encodeABI config interval.block
      interval.scanned interval.first interval.second) (start interval s.server) = some (result, t))
    (until_check : Proc.finish interval.replies 0 (untilSecondCheck addresses encodeABI config interval.block
      interval.scanned interval.first) (start interval s.server) = some (handled, m))
    (rested : t.Rested config)
    (stopped : ∀ value, result = .ok value → (∀ transactionHashes, handled ≠ .ok (transactionHashes, true)) →
      t.ready = true → t.Funded config)
    (checked : ∀ value transactionHashes, result = .ok value → handled = .ok (transactionHashes, true) →
      t.ready = true ∧ m.Rested config ∧ ∃ isManagerBalanceReady u,
        Checked config interval.second m (.ok isManagerBalanceReady) u ∧
          t.managerRead = u.managerRead ∧ t.workerRead = u.workerRead) :
    s.Passes addresses encodeABI config interval := by
  cases result with
  | error message =>
      have same : s.intervalHandler addresses encodeABI config interval = ⟨t.setReadyState false, false⟩ := by
        rw [intervalHandler, ended]
      refine ⟨?_, ?_, ?_⟩
      · rw [same]
        exact ⟨rested, fun _ ready => by cases ready⟩
      · rw [same]
        exact fun _ completed => by cases completed
      · rw [same]
        exact fun _ _ completed => by cases completed
  | ok value =>
      have same : s.intervalHandler addresses encodeABI config interval = ⟨t, true⟩ := by
        rw [intervalHandler, ended]
      refine ⟨?_, ?_, ?_⟩
      · rw [same]
        exact ⟨rested, fun failed => by cases failed⟩
      · intro none
        rw [same]
        refine fun _ => stopped value rfl fun transactionHashes made => ?_
        rw [secondCheck, until_check, made] at none
        cases none
      · intro found reached _
        rw [same]
        rw [secondCheck, until_check] at reached
        split at reached
        next transactionHashes last made =>
          cases made
          cases reached
          exact checked value transactionHashes rfl rfl
        next => cases reached

theorem intervalHandler_passes (s : Worker) (interval : Interval) (sane : s.Sane config)
    (pays : s.CanPay config) : s.Passes addresses encodeABI config interval := by
  have stands := stands_started config s interval sane pays
  cases ended : Proc.finish interval.replies 0 (tryWorker addresses encodeABI config interval.block
      interval.scanned interval.first interval.second) (start interval s.server) with
  | none =>
      have same : s.intervalHandler addresses encodeABI config interval = ⟨s.server, false⟩ := by
        rw [intervalHandler, ended]
      refine ⟨?_, ?_, ?_⟩
      · rw [same]
        exact ⟨sane.rested, fun _ => stands.funded⟩
      · rw [same]
        exact fun _ completed => by cases completed
      · rw [same]
        exact fun _ _ completed => by cases completed
  | some last =>
      obtain ⟨result, t⟩ := last
      have split := ended
      rw [tryWorker_split] at split
      obtain ⟨handled, m, first, rest⟩ := Proc.finish_bind _ _ _ _ _ _ split
      have reached := Proc.alone_finish _ _ _ _ _ _ _ (untilSecondCheck_reaches addresses encodeABI config
        interval.block interval.scanned interval.first _ stands) first
      cases handled with
      | error message =>
          cases rest
          exact passes_ended addresses encodeABI config s interval _ _ _ _ ended first reached.rested
            (fun _ made => by cases made) (fun _ _ made => by cases made)
      | ok handled =>
          obtain ⟨transactionHashes, registered⟩ := handled
          cases registered with
          | false =>
              cases rest
              exact passes_ended addresses encodeABI config s interval _ _ _ _ ended first reached.rested
                (fun _ _ _ => reached.stopped transactionHashes rfl) (fun _ _ _ made => by cases made)
          | true =>
              have readied := Proc.alone_finish _ _ _ _ _ _ _ (concludeChanges_readies config interval.block
                interval.second transactionHashes m reached.rested) rest
              apply passes_ended addresses encodeABI config s interval _ _ _ _ ended first readied.1
              · exact fun _ _ never => absurd rfl (never transactionHashes)
              · intro value others made _
                obtain ⟨ready, u, isManagerBalanceReady, checked, managerRead, workerRead⟩ := readied.2 value made
                exact ⟨ready, reached.rested, isManagerBalanceReady, u, checked, managerRead, workerRead⟩

def initial (registration : Registration) (txstore : TxStore) (initialized : Bool) (lastScannedBlock : ℕ) :
    Worker where
  server :=
    { registration := registration
      txstore := txstore
      workerBalance := 0
      initialized := initialized
      ready := false
      shouldRefreshBalances := true
      alerted := false
      alertedByTransactionBlockTimestamp := 0
      lastScannedBlock := lastScannedBlock
      lastRefreshBlock := 0
      managerRead := 0
      workerRead := 0 }
  completed := false

theorem ready_can_pay_iff (registration : Registration) (txstore : TxStore) (initialized : Bool)
    (lastScannedBlock : ℕ) (intervals : List Interval) :
    Runs.Always (intervalHandler addresses encodeABI config) (CanPay config) intervals
        (initial registration txstore initialized lastScannedBlock) ↔
      Runs.Along (intervalHandler addresses encodeABI config) (ReportsHalf addresses encodeABI config) intervals
        (initial registration txstore initialized lastScannedBlock) := by
  have begun : (initial registration txstore initialized lastScannedBlock).CanPay config :=
    fun never => by cases never
  have sane : (initial registration txstore initialized lastScannedBlock).Sane config :=
    ⟨fun never => (by cases never), fun _ never => (by cases never)⟩
  apply Runs.always_iff_along _ _ (Sane config) _ _ _ intervals _ sane begun
  · intro s interval before pays
    exact (intervalHandler_passes addresses encodeABI config s interval before pays).sane
  · intro s interval before pays
    exact canPay_iff addresses encodeABI config s interval
      (intervalHandler_passes addresses encodeABI config s interval before pays)

def halvesConfig : WorkerConfig where
  registration := ⟨31, 30, "https://relay.example", 2, 5, 4, 1000000⟩
  funds := ⟨31, 30, 100, 10, 20, 4, 8, 20, by decide, by decide⟩
  refreshStateTimeoutBlocks := 5
  alertedDelaySeconds := 0
  oneManager := rfl
  oneWorker := rfl
  oneBalance := rfl

def registeredServer : Registration where
  contracts := RelayHub.stakedWorld
  relayUrl := some "https://relay.example"
  manager := { RegistrationManager.fresh with
    isInitialized := true
    isOwnerSetOnStakeManager := true
    isHubAuthorized := true
    isStakeLocked := true
    ownerAddress := some 2 }
  sent := []

def emptyWorker : Interval where
  contracts := RelayHub.stakedWorld
  relayUrl := some "https://relay.example"
  broadcast := false
  block := ⟨0, 100, 1000⟩
  scanned := 100
  first := ⟨.ok 4, .ok 0⟩
  second := ⟨.ok 4, .ok 0⟩
  replies := fun _ => ⟨⟨none, 0, false, 0⟩, false, ⟨[], []⟩, none⟩

theorem empty_worker_ready :
    ¬∀ (registration : Registration) (intervals : List Interval),
      Runs.Always (intervalHandler RelayHub.sampleAddresses (fun _ => []) halvesConfig) (CanPay halvesConfig)
        intervals (initial registration ⟨[], []⟩ true 0) := by
  intro always
  have last := Runs.always_end _ _ _ _ (always registeredServer [emptyWorker])
  have funded := last (by decide +kernel) (by decide +kernel)
  exact absurd funded.2 (by decide +kernel)

end Worker

end OpenGsn.Relay
