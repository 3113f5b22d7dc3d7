import OpenGsn.Async.Alone
import OpenGsn.Penalizer.DataAndSignature
import OpenGsn.Relay.PenalizerService
import OpenGsn.Solidity.Calldata

/-! The audits of `PenalizerService.ts`: `penalizeRepeatedNonce` and `penalizeIllegalTransaction`. -/

namespace OpenGsn.Relay.Audit

open Solidity Async Penalizer

structure Web3Transaction where
  nonce : ℕ
  gas : ℕ
  gasPrice : ℕ
  recipient : Option Address
  value : ℕ
  input : Bytes
  v : Option ℕ
  r : Option ℕ
  s : Option ℕ

structure LegacyTxData where
  tx : TxData
  gasPrice : ℕ
  v : Option ℕ
  r : Option ℕ
  s : Option ℕ

/-- The class `Transaction` of `@ethereumjs/tx`, with the options of the chain. -/
structure EthereumJsTransaction where
  fromSerializedTx : String → Except String EthereumTransaction
  newTransaction : LegacyTxData → Except String EthereumTransaction
  verifySignature : EthereumTransaction → Bool
  getSenderAddress : EthereumTransaction → Except String Address

def createWeb3Transaction (library : EthereumJsTransaction) (transaction : Web3Transaction) :
    Except String EthereumTransaction :=
  library.newTransaction
    ⟨⟨transaction.nonce, transaction.gas, transaction.recipient, transaction.value, transaction.input⟩,
      transaction.gasPrice, transaction.v, transaction.r, transaction.s⟩

structure AuditConfig where
  initialized : Bool
  etherscanApiUrl : String
  chainId : ℕ
  relayHub : Address
  managerAddress : Address

structure AuditRequest where
  signedTx : String

inductive AuditResponse : Type
  | message (text : Option String)
  | commitTxHash (hash : Uint256)

/-- `{ valid, error }` -/
structure Validation where
  valid : Bool
  error : Option String

structure PenalizeMethod where
  type : PenalizationTypes
  methodArgs : List Bytes

/-- What the node, the explorer and the transaction manager answer to an audit, which asks
each question once. -/
structure Answers where
  getWorkerManager : Except String Address
  verifyRelayManagerStaked : Except String Unit
  getRequestTransaction : Except String (Option Web3Transaction)
  getTransactionCount : Except String ℕ
  getTransactionByNonce : Except String (Option Uint256)
  getMinedTransaction : Except String (Option Web3Transaction)
  viewCall : Except String Unit
  getBlockNumber : Except String ℕ
  getBlock : Except String Unit
  sendTransaction : Except String Uint256

inductive AuditEvent : Type
  | viewCall (sender : Address) (method : PenalizeMethod) (succeeded : Bool)
  | sendTransaction (commitHash : Uint256)

/-- `log` is a history variable. -/
structure AuditState where
  service : PenalizerService
  log : List AuditEvent

abbrev AuditFlow (α : Type) := Async.Promise AuditState Answers String α

def INVALID_SIGNATURE : String := "Transaction does not have a valid signature"
def UNKNOWN_WORKER : String := "Transaction is sent by an unknown worker"
def UNSTAKED_RELAY : String := "Transaction is sent by an unstaked relay"
def MINED_TRANSACTION : String :=
  "Transaction is the one mined on the current chain and no conflicting transaction is known to this server"
def NONCE_FORWARD : String :=
  "Transaction nonce is higher then current account nonce and no conflicting transaction is known to this server"

def addressText (account : Address) : String := "0x" ++ String.ofList (Text.toHex (addressBytes account))

def hashText (hash : Uint256) : String := "0x" ++ String.ofList (Text.toHex (word hash.val))

def ask {α : Type} (read : Answers → Except String α) : AuditFlow α :=
  Promise.serve fun answers s => (read answers, s)

def found {α : Type} (answer : Option α) (message : String) : Except String α :=
  answer.elim (.error message) .ok

section

variable (crypto : Crypto) (library : EthereumJsTransaction) (config : AuditConfig)

/-- `try await verifyRelayManagerStaked catch` -/
def staked : Except String Unit → Validation
  | .ok _ => ⟨true, none⟩
  | .error _ => ⟨false, some UNSTAKED_RELAY⟩

def validateTransaction (requestTx : EthereumTransaction) : AuditFlow Validation := do
  if library.verifySignature requestTx then
    let _ ← Promise.ofExcept (library.getSenderAddress requestTx)
    let relayManager ← ask Answers.getWorkerManager
    if relayManager = 0 then
      pure ⟨false, some UNKNOWN_WORKER⟩
    else
      ask fun answers => .ok (staked answers.verifyRelayManagerStaked)
  else
    pure ⟨false, some INVALID_SIGNATURE⟩

def isTransactionMined : AuditFlow Bool := do
  let txFromNode ← ask Answers.getRequestTransaction
  pure txFromNode.isSome

def penalizable : Except String Unit → Validation
  | .ok _ => ⟨true, none⟩
  | .error error => ⟨false, some error⟩

/-- The view call, from `constants.BURN_ADDRESS`. -/
def validatePenalization (method : PenalizeMethod) : AuditFlow Validation :=
  Promise.serve fun answers s =>
    (.ok (penalizable answers.viewCall),
      { s with log := s.log ++ [.viewCall viewSender method (penalizable answers.viewCall).valid] })

def reportedBytes (tx : EthereumTransaction) : Except String (List Bytes) := do
  let reported ← getDataAndSignature tx config.chainId
  .ok [reported.data, Text.fromHex reported.signature]

def getPenalizeIllegalTransactionArguments (requestTx : EthereumTransaction) (randomValue : Uint256) :
    Except String (List Bytes) := do
  let request ← reportedBytes config requestTx
  .ok (request ++ [addressBytes config.relayHub, word randomValue.val])

def getPenalizeRepeatedNonceArguments (minedTx requestTx : EthereumTransaction) (randomValue : Uint256) :
    Except String (List Bytes) := do
  let mined ← reportedBytes config minedTx
  let request ← reportedBytes config requestTx
  .ok (request ++ mined ++ [addressBytes config.relayHub, word randomValue.val])

def methodSignature : PenalizationTypes → String
  | .illegalTransaction => "penalizeIllegalTransaction(bytes,bytes,address,uint256)"
  | .repeatedNonce => "penalizeRepeatedNonce(bytes,bytes,bytes,bytes,address,uint256)"

/-- The last two arguments are static. -/
def argumentParts : List Bytes → List Part
  | [] => []
  | [last] => [.static (word (ofBigEndian last))]
  | [hub, randomValue] => [.static (word (ofBigEndian hub)), .static (word (ofBigEndian randomValue))]
  | bytes :: rest => .dynamic (bytesTail bytes) :: argumentParts rest

def encodeABI (method : PenalizeMethod) : Bytes :=
  (crypto.hashBytes (utf8 (methodSignature method.type))).take 4 ++ encodeTuple (argumentParts method.methodArgs)

def calculateCommitHash (method : PenalizeMethod) : Uint256 :=
  commitHash crypto (encodeABI crypto method) config.managerAddress

def broadcastTransaction (commitHash : Uint256) : AuditFlow Uint256 := do
  let _ ← ask Answers.getBlockNumber
  let _ ← ask Answers.getBlock
  Promise.serve fun answers s =>
    (answers.sendTransaction, { s with log := s.log ++ [.sendTransaction commitHash] })

def commitAndScheduleReveal (method : PenalizeMethod) : AuditFlow Uint256 := do
  let commitHash := calculateCommitHash crypto config method
  Promise.sync fun s =>
    ((), { s with service := s.service.commitAndScheduleReveal method.type commitHash method.methodArgs })
  broadcastTransaction commitHash

def penalizeIllegalTransaction (req : AuditRequest) (randomValue : Uint256) : AuditFlow AuditResponse := do
  let requestTx ← Promise.ofExcept (library.fromSerializedTx req.signedTx)
  let validationResult ← validateTransaction library requestTx
  if ¬ validationResult.valid then
    pure (.message validationResult.error)
  else
    let penalizationArguments ←
      Promise.ofExcept (getPenalizeIllegalTransactionArguments config requestTx randomValue)
    let method := ⟨.illegalTransaction, penalizationArguments⟩
    let isValidPenalization ← validatePenalization method
    if ¬ isValidPenalization.valid then
      pure (.message isValidPenalization.error)
    else
      let commitTxHash ← commitAndScheduleReveal crypto config method
      pure (.commitTxHash commitTxHash)

/-- `penalizeRepeatedNonce` up to its view call: an early response, or the validation of the
transaction and the method to call. -/
def repeatedNonceMethod (req : AuditRequest) (randomValue : Uint256) :
    AuditFlow (Except AuditResponse (Validation × PenalizeMethod)) := do
  if ¬ config.initialized then
    Promise.ofExcept (.error "PenalizerService is not initialized")
  else if config.etherscanApiUrl.length = 0 then
    pure (.error (.message (some "Etherscan API URL is not set on this server!")))
  else
    let requestTx ← Promise.ofExcept (library.fromSerializedTx req.signedTx)
    let validationResult ← validateTransaction library requestTx
    if ¬ validationResult.valid then
      pure (.error (.message validationResult.error))
    else
      let isMinedTx ← isTransactionMined
      if isMinedTx then
        pure (.error (.message (some MINED_TRANSACTION)))
      else
        let relayWorker ← Promise.ofExcept (library.getSenderAddress requestTx)
        let currentNonce ← ask Answers.getTransactionCount
        let transactionNonce ← Promise.ofExcept (toNumber requestTx.tx.nonce)
        if currentNonce < transactionNonce then
          pure (.error (.message (some NONCE_FORWARD)))
        else
          let minedTransactionData ← ask Answers.getTransactionByNonce
          let minedHash ← Promise.ofExcept (found minedTransactionData
            ("TxByNonce service failed to fetch tx with nonce " ++ toString transactionNonce ++
              " of relayer " ++ addressText relayWorker))
          let minedTx ← ask Answers.getMinedTransaction
          let minedTx ← Promise.ofExcept (found minedTx
            ("Failed to get transaction " ++ hashText minedHash ++ " from node"))
          let minedTxBuffers ← Promise.ofExcept (createWeb3Transaction library minedTx)
          let penalizationArguments ← Promise.ofExcept
            (getPenalizeRepeatedNonceArguments config minedTxBuffers requestTx randomValue)
          pure (.ok (validationResult, ⟨.repeatedNonce, penalizationArguments⟩))

def penalizeRepeatedNonce (req : AuditRequest) (randomValue : Uint256) : AuditFlow AuditResponse := do
  match ← repeatedNonceMethod library config req randomValue with
  | .error response => pure response
  | .ok (validationResult, method) =>
      let isValidPenalization ← validatePenalization method
      -- the validation of the transaction is asked for again, not this one
      if ¬ validationResult.valid then
        pure (.message isValidPenalization.error)
      else
        let commitTxHash ← commitAndScheduleReveal crypto config method
        pure (.commitTxHash commitTxHash)

def audit (req : AuditRequest) (randomValue : Uint256) : PenalizationTypes → AuditFlow AuditResponse
  | .illegalTransaction => penalizeIllegalTransaction crypto library config req randomValue
  | .repeatedNonce => penalizeRepeatedNonce crypto library config req randomValue

/-! Which audits reach the view call -/

structure ValidRequest (answers : Answers) (requestTx : EthereumTransaction) : Prop where
  signature : library.verifySignature requestTx = true
  worker : ∃ relayWorker, library.getSenderAddress requestTx = .ok relayWorker
  manager : ∃ relayManager, answers.getWorkerManager = .ok relayManager ∧ relayManager ≠ 0
  staked : answers.verifyRelayManagerStaked = .ok ()

/-- No early exit is taken by `penalizeRepeatedNonce`. -/
structure ReachesViewCall (answers : Answers) (req : AuditRequest) (randomValue : Uint256)
    (requestTx minedTxBuffers : EthereumTransaction) (method : PenalizeMethod) : Prop where
  initialized : config.initialized = true
  explorer : config.etherscanApiUrl.length ≠ 0
  deserialized : library.fromSerializedTx req.signedTx = .ok requestTx
  valid : ValidRequest library answers requestTx
  unmined : answers.getRequestTransaction = .ok none
  number : requestTx.tx.nonce < 2 ^ 53
  past : ∃ currentNonce, answers.getTransactionCount = .ok currentNonce ∧ requestTx.tx.nonce ≤ currentNonce
  found : ∃ minedHash, answers.getTransactionByNonce = .ok (some minedHash)
  mined : ∃ minedTx, answers.getMinedTransaction = .ok (some minedTx) ∧
    createWeb3Transaction library minedTx = .ok minedTxBuffers
  arguments : getPenalizeRepeatedNonceArguments config minedTxBuffers requestTx randomValue = .ok method.methodArgs
  type : method.type = .repeatedNonce

variable (answers : Answers)

theorem ask_reads {α : Type} (read : Answers → Except String α) :
    Promise.Reads answers (fun value => read answers = .ok value) (ask read) :=
  Promise.reads_serve _ (fun _ => rfl) fun _ _ answered => answered

theorem ofExcept_reads {α : Type} (result : Except String α) :
    Promise.Reads answers (fun value => result = .ok value) (Promise.ofExcept result : AuditFlow α) :=
  Promise.reads_ofExcept result fun _ same => same

theorem validateTransaction_reads (requestTx : EthereumTransaction) :
    Promise.Reads answers
      (fun validation => validation.valid = true → ValidRequest library answers requestTx)
      (validateTransaction library requestTx) := by
  unfold validateTransaction
  split
  · rename_i signature
    apply Promise.reads_bind _ _ (ofExcept_reads answers _)
    intro relayWorker worker
    apply Promise.reads_bind _ _ (ask_reads answers _)
    intro relayManager manager
    split
    · exact Promise.reads_pure _ fun valid => nomatch valid
    · rename_i known
      refine Promise.reads_serve _ (fun _ => rfl) fun _ validation judged valid => ?_
      cases judged
      cases verified : answers.verifyRelayManagerStaked with
      | ok _ => exact ⟨signature, ⟨relayWorker, worker⟩, ⟨relayManager, manager, known⟩, verified⟩
      | error _ => simp [staked, verified] at valid
  · exact Promise.reads_pure _ fun valid => nomatch valid

theorem found_ok {α : Type} (answer : Option α) (message : String) (value : α) :
    found answer message = .ok value ↔ answer = some value := by
  cases answer <;> simp [found]

theorem repeatedNonceMethod_reads (req : AuditRequest) (randomValue : Uint256) :
    Promise.Reads answers
      (fun outcome => ∀ validation method, outcome = .ok (validation, method) → validation.valid = true ∧
        ∃ requestTx minedTxBuffers,
          ReachesViewCall library config answers req randomValue requestTx minedTxBuffers method)
      (repeatedNonceMethod library config req randomValue) := by
  unfold repeatedNonceMethod
  split
  · exact Promise.reads_ofExcept _ fun _ failed => nomatch failed
  rename_i initialized
  split
  · exact Promise.reads_pure _ fun _ _ early => nomatch early
  rename_i explorer
  apply Promise.reads_bind _ _ (ofExcept_reads answers _)
  intro requestTx deserialized
  apply Promise.reads_bind _ _ (validateTransaction_reads library answers requestTx)
  intro validationResult validated
  split
  · exact Promise.reads_pure _ fun _ _ early => nomatch early
  rename_i valid
  have asked : Promise.Reads answers
      (fun isMinedTx => isMinedTx = false → answers.getRequestTransaction = .ok none) isTransactionMined := by
    apply Promise.reads_bind _ _ (ask_reads answers _)
    intro txFromNode answered
    refine Promise.reads_pure _ fun unknown => ?_
    rw [answered, Option.isSome_eq_false_iff.mp unknown |> Option.isNone_iff_eq_none.mp]
  apply Promise.reads_bind _ _ asked
  intro isMinedTx unmined
  split
  · exact Promise.reads_pure _ fun _ _ early => nomatch early
  rename_i fresh
  apply Promise.reads_bind _ _ (ofExcept_reads answers _)
  intro relayWorker worker
  apply Promise.reads_bind _ _ (ask_reads answers _)
  intro currentNonce count
  apply Promise.reads_bind _ _ (ofExcept_reads answers _)
  intro transactionNonce numbered
  obtain ⟨number, rfl⟩ := (toNumber_ok _ _).mp numbered
  split
  · exact Promise.reads_pure _ fun _ _ early => nomatch early
  rename_i past
  apply Promise.reads_bind _ _ (ask_reads answers _)
  intro minedTransactionData explored
  apply Promise.reads_bind _ _ (ofExcept_reads answers _)
  intro minedHash known
  apply Promise.reads_bind _ _ (ask_reads answers _)
  intro minedTx fetched
  apply Promise.reads_bind _ _ (ofExcept_reads answers _)
  intro minedTx present
  apply Promise.reads_bind _ _ (ofExcept_reads answers _)
  intro minedTxBuffers created
  apply Promise.reads_bind _ _ (ofExcept_reads answers _)
  intro penalizationArguments made
  refine Promise.reads_pure _ ?_
  rintro validation method ⟨⟩
  rw [found_ok] at known present
  subst known present
  have accepted : validationResult.valid = true := of_not_not valid
  exact ⟨accepted, requestTx, minedTxBuffers, {
    initialized := of_not_not initialized
    explorer := explorer
    deserialized := deserialized
    valid := validated accepted
    unmined := unmined (Bool.eq_false_iff.mpr fresh)
    number := number
    past := ⟨currentNonce, count, Nat.le_of_not_lt past⟩
    found := ⟨minedHash, explored⟩
    mined := ⟨minedTx, fetched, created⟩
    arguments := made
    type := rfl }⟩

theorem ask_atOnce {α : Type} (read : Answers → Except String α) (s : AuditState) :
    Proc.atOnce answers (ask read) s = some (read answers, s) := rfl

theorem validateTransaction_valid (requestTx : EthereumTransaction) (s : AuditState)
    (valid : ValidRequest library answers requestTx) :
    Proc.atOnce answers (validateTransaction library requestTx) s = some (.ok ⟨true, none⟩, s) := by
  obtain ⟨relayWorker, worker⟩ := valid.worker
  obtain ⟨relayManager, manager, known⟩ := valid.manager
  simp [validateTransaction, valid.signature, Promise.atOnce_bind, Promise.thenAtOnce, worker, ask_atOnce, manager,
    known, staked, valid.staked]

theorem repeatedNonceMethod_reached (req : AuditRequest) (randomValue : Uint256)
    (requestTx minedTxBuffers : EthereumTransaction) (method : PenalizeMethod) (s : AuditState)
    (reaches : ReachesViewCall library config answers req randomValue requestTx minedTxBuffers method) :
    Proc.atOnce answers (repeatedNonceMethod library config req randomValue) s =
      some (.ok (.ok (⟨true, none⟩, method)), s) := by
  obtain ⟨relayWorker, worker⟩ := reaches.valid.worker
  obtain ⟨currentNonce, count, past⟩ := reaches.past
  obtain ⟨minedHash, explored⟩ := reaches.found
  obtain ⟨minedTx, fetched, created⟩ := reaches.mined
  have validated := validateTransaction_valid library answers requestTx s reaches.valid
  have number := (toNumber_ok _ _).mpr ⟨reaches.number, rfl⟩
  have same : method = ⟨.repeatedNonce, method.methodArgs⟩ := by rw [← reaches.type]
  simp [-bind_pure_comp, repeatedNonceMethod, reaches.initialized, reaches.explorer, Promise.atOnce_bind,
    Promise.thenAtOnce, reaches.deserialized, validated, isTransactionMined, ask_atOnce, reaches.unmined, worker, count, number,
    Nat.not_lt.mpr past, explored, found, fetched, created, reaches.arguments, ← same]

/-! What an audit commits -/

/-- A penalization is committed after its view call has succeeded, or nothing is sent or
scheduled. -/
def CommitsApproved (type : PenalizationTypes) (before later : AuditState) : Prop :=
  ∃ made, later.log = before.log ++ made ∧
    ((later.service = before.service ∧ ∀ commitHash, .sendTransaction commitHash ∉ made) ∨
    ∃ method sends, method.type = type ∧ made = .viewCall viewSender method true :: sends ∧
      (∀ event ∈ sends, event = .sendTransaction (calculateCommitHash crypto config method)) ∧
      later.service = before.service.commitAndScheduleReveal type (calculateCommitHash crypto config method)
        method.methodArgs)

theorem commitsApproved_still (type : PenalizationTypes) (s : AuditState) :
    CommitsApproved crypto config type s s :=
  ⟨[], (List.append_nil _).symm, .inl ⟨rfl, fun _ => List.not_mem_nil⟩⟩

theorem commitsApproved_called (type : PenalizationTypes) (method : PenalizeMethod) (succeeded : Bool)
    (s : AuditState) :
    CommitsApproved crypto config type s
      { s with log := s.log ++ [.viewCall viewSender method succeeded] } :=
  ⟨_, rfl, .inl ⟨rfl, fun _ => by simp⟩⟩

theorem broadcastTransaction_sends (commitHash : Uint256) (s : AuditState) :
    ∃ result sends, Proc.atOnce answers (broadcastTransaction commitHash) s =
        some (result, { s with log := s.log ++ sends }) ∧
      ∀ event ∈ sends, event = .sendTransaction commitHash := by
  have silent : ∀ event ∈ ([] : List AuditEvent), event = .sendTransaction commitHash :=
    fun _ none => nomatch none
  cases numbered : answers.getBlockNumber with
  | error error =>
      refine ⟨.error error, [], ?_, silent⟩
      simp [broadcastTransaction, Promise.atOnce_bind, Promise.thenAtOnce, ask_atOnce, numbered]
  | ok number =>
      cases fetched : answers.getBlock with
      | error error =>
          refine ⟨.error error, [], ?_, silent⟩
          simp [broadcastTransaction, Promise.atOnce_bind, Promise.thenAtOnce, ask_atOnce, numbered, fetched]
      | ok block =>
          refine ⟨answers.sendTransaction, [.sendTransaction commitHash], ?_, fun _ => List.mem_singleton.mp⟩
          simp [broadcastTransaction, Promise.atOnce_bind, Promise.thenAtOnce, ask_atOnce, numbered, fetched]

def committed (method : PenalizeMethod) (sends : List AuditEvent) (s : AuditState) : AuditState :=
  ⟨s.service.commitAndScheduleReveal method.type (calculateCommitHash crypto config method) method.methodArgs,
    s.log ++ sends⟩

def commitAndRespond (method : PenalizeMethod) : AuditFlow AuditResponse := do
  let commitTxHash ← commitAndScheduleReveal crypto config method
  pure (.commitTxHash commitTxHash)

theorem commitAndRespond_commits (method : PenalizeMethod) (s : AuditState) :
    ∃ result sends, Proc.atOnce answers (commitAndRespond crypto config method) s =
        some (result, committed crypto config method sends s) ∧
      ∀ event ∈ sends, event = .sendTransaction (calculateCommitHash crypto config method) := by
  let scheduled : AuditState := { s with
    service := s.service.commitAndScheduleReveal method.type (calculateCommitHash crypto config method)
      method.methodArgs }
  obtain ⟨result, sends, broadcast, only⟩ :=
    broadcastTransaction_sends answers (calculateCommitHash crypto config method) scheduled
  have ended : Proc.atOnce answers (commitAndScheduleReveal crypto config method) s =
      some (result, committed crypto config method sends s) := by
    rw [commitAndScheduleReveal, Promise.atOnce_bind, Promise.atOnce_sync]
    exact broadcast
  refine ⟨result.map .commitTxHash, sends, ?_, only⟩
  rw [commitAndRespond, Promise.atOnce_bind, ended]
  cases result with
  | error error => rfl
  | ok hash => rfl

theorem commitsApproved_committed (method : PenalizeMethod) (succeeded : Bool) (sends : List AuditEvent)
    (s : AuditState)
    (only : ∀ event ∈ sends, event = .sendTransaction (calculateCommitHash crypto config method)) :
    CommitsApproved crypto config method.type s (committed crypto config method sends
      { s with log := s.log ++ [.viewCall viewSender method succeeded] }) ↔ succeeded = true := by
  constructor
  · rintro ⟨made, logged, quiet | approved⟩
    · have grown := congrArg (fun service => service.objects.length) quiet.1
      simp [committed, PenalizerService.commitAndScheduleReveal] at grown
    · obtain ⟨other, otherSends, _, rfl, _⟩ := approved
      simp only [committed, List.append_assoc] at logged
      have called := List.append_cancel_left logged
      rw [List.singleton_append, List.cons.injEq, AuditEvent.viewCall.injEq] at called
      exact called.1.2.2
  · rintro rfl
    refine ⟨.viewCall viewSender method true :: sends, ?_, .inr ⟨method, sends, rfl, rfl, only, rfl⟩⟩
    simp [committed]

theorem validatePenalization_calls (method : PenalizeMethod) (s : AuditState) :
    Proc.atOnce answers (validatePenalization method) s = some (.ok (penalizable answers.viewCall),
      { s with log := s.log ++ [.viewCall viewSender method (penalizable answers.viewCall).valid] }) := rfl

theorem penalizable_valid (viewCall : Except String Unit) :
    (penalizable viewCall).valid = true ↔ viewCall = .ok () := by
  cases viewCall with
  | error error => simp [penalizable]
  | ok _ => simp [penalizable]

/-- What follows a view call, with or without success, when its answer is not looked at. -/
theorem commitAndRespond_approved (method : PenalizeMethod) (succeeded : Bool) (s : AuditState) :
    ∃ result later, Proc.atOnce answers (commitAndRespond crypto config method)
        { s with log := s.log ++ [.viewCall viewSender method succeeded] } = some (result, later) ∧
      (CommitsApproved crypto config method.type s later ↔ succeeded = true) := by
  obtain ⟨result, sends, ended, only⟩ := commitAndRespond_commits crypto config answers method
    { s with log := s.log ++ [.viewCall viewSender method succeeded] }
  exact ⟨result, _, ended, commitsApproved_committed crypto config method succeeded sends s only⟩

/-- `penalizeIllegalTransaction` looks at the answer to its view call. -/
theorem illegalTransaction_approved (req : AuditRequest) (randomValue : Uint256) (s : AuditState) :
    ∃ result later, Proc.atOnce answers (penalizeIllegalTransaction crypto library config req randomValue) s =
        some (result, later) ∧ CommitsApproved crypto config .illegalTransaction s later := by
  have still := commitsApproved_still crypto config .illegalTransaction s
  rw [penalizeIllegalTransaction, Promise.atOnce_bind, Promise.atOnce_ofExcept]
  cases deserialized : library.fromSerializedTx req.signedTx with
  | error error => exact ⟨_, s, rfl, still⟩
  | ok requestTx =>
      obtain ⟨validation, validated, _⟩ := validateTransaction_reads library answers requestTx s
      rw [Option.bind_some, Promise.thenAtOnce, Promise.atOnce_bind, validated]
      cases validation with
      | error error => exact ⟨_, s, rfl, still⟩
      | ok validationResult =>
          rw [Option.bind_some, Promise.thenAtOnce]
          split
          · exact ⟨_, s, rfl, still⟩
          rw [Promise.atOnce_bind, Promise.atOnce_ofExcept]
          cases made : getPenalizeIllegalTransactionArguments config requestTx randomValue with
          | error error => exact ⟨_, s, rfl, still⟩
          | ok penalizationArguments =>
              rw [Option.bind_some, Promise.thenAtOnce, Promise.atOnce_bind, validatePenalization_calls,
                Option.bind_some, Promise.thenAtOnce]
              split
              · exact ⟨_, _, rfl, commitsApproved_called crypto config _ _ _ s⟩
              · rename_i valid
                have approved := commitAndRespond_approved crypto config answers
                  ⟨.illegalTransaction, penalizationArguments⟩ (penalizable answers.viewCall).valid s
                obtain ⟨result, later, ended, commits⟩ := approved
                exact ⟨result, later, ended, commits.mpr (of_not_not valid)⟩

/-- `penalizeRepeatedNonce` commits whatever the view call answers. -/
theorem repeatedNonce_approved_iff (req : AuditRequest) (randomValue : Uint256) (s : AuditState) :
    ∃ result later, Proc.atOnce answers (penalizeRepeatedNonce crypto library config req randomValue) s =
        some (result, later) ∧
      (CommitsApproved crypto config .repeatedNonce s later ↔
        ((∃ requestTx minedTxBuffers method,
          ReachesViewCall library config answers req randomValue requestTx minedTxBuffers method) →
          answers.viewCall = .ok ())) := by
  have still := commitsApproved_still crypto config .repeatedNonce s
  obtain ⟨outcome, ended, reached⟩ := repeatedNonceMethod_reads library config answers req randomValue s
  -- an early exit is taken unless the outcome is a method
  have early : (∀ validation method, outcome ≠ .ok (.ok (validation, method))) →
      ¬ ∃ requestTx minedTxBuffers method,
        ReachesViewCall library config answers req randomValue requestTx minedTxBuffers method := by
    rintro exits ⟨requestTx, minedTxBuffers, method, reaches⟩
    have arrives := repeatedNonceMethod_reached library config answers req randomValue _ _ method s reaches
    rw [ended, Option.some.injEq, Prod.mk.injEq] at arrives
    exact exits _ _ arrives.1
  rw [penalizeRepeatedNonce, Promise.atOnce_bind, ended, Option.bind_some]
  cases outcome with
  | error error =>
      exact ⟨_, s, rfl, fun _ reaches => absurd reaches (early fun _ _ failed => nomatch failed), fun _ => still⟩
  | ok outcome =>
      cases outcome with
      | error response =>
          have exits := early fun _ _ same => nomatch Except.ok.inj same
          exact ⟨_, s, rfl, fun _ reaches => absurd reaches exits, fun _ => still⟩
      | ok outcome =>
          obtain ⟨validationResult, method⟩ := outcome
          obtain ⟨valid, requestTx, minedTxBuffers, reaches⟩ := reached _ rfl validationResult method rfl
          rw [Promise.thenAtOnce]
          dsimp only
          rw [Promise.atOnce_bind, validatePenalization_calls, Option.bind_some, Promise.thenAtOnce,
            if_neg (not_not_intro valid)]
          obtain ⟨result, later, finished, commits⟩ := commitAndRespond_approved crypto config answers method
            (penalizable answers.viewCall).valid s
          refine ⟨result, later, finished, ?_⟩
          rw [← reaches.type, commits, penalizable_valid]
          exact ⟨fun answered _ => answered, fun answered => answered ⟨_, _, method, reaches⟩⟩

/-- An audit commits only what its view call approves, exactly if it is not an audit of a repeated
nonce that comes to its view call, and the view call fails. -/
theorem commits_approved_iff (req : AuditRequest) (randomValue : Uint256) (type : PenalizationTypes)
    (s : AuditState) :
    ∃ result later, Proc.atOnce answers (audit crypto library config req randomValue type) s =
        some (result, later) ∧
      (CommitsApproved crypto config type s later ↔
        ¬ (type = .repeatedNonce ∧ (∃ error, answers.viewCall = .error error) ∧
          ∃ requestTx minedTxBuffers method,
            ReachesViewCall library config answers req randomValue requestTx minedTxBuffers method)) := by
  cases type with
  | illegalTransaction =>
      obtain ⟨result, later, ended, approved⟩ :=
        illegalTransaction_approved crypto library config answers req randomValue s
      exact ⟨result, later, ended, ⟨fun _ repeated => (nomatch repeated.1), fun _ => approved⟩⟩
  | repeatedNonce =>
      obtain ⟨result, later, ended, approved_iff⟩ :=
        repeatedNonce_approved_iff crypto library config answers req randomValue s
      refine ⟨result, later, ended, approved_iff.trans ?_⟩
      cases answers.viewCall with
      | error error => simp
      | ok _ => simp

end

def sampleTransaction : EthereumTransaction := signed sampleTransfer (.legacy 30 (some 1)) 4 5 1

def sampleLibrary : EthereumJsTransaction where
  fromSerializedTx := fun _ => .ok sampleTransaction
  newTransaction := fun data => .ok ⟨data.tx, .legacy data.gasPrice (some 1), data.v, data.r, data.s⟩
  verifySignature := fun _ => true
  getSenderAddress := fun _ => .ok 9

def sampleConfig : AuditConfig := ⟨true, "https://api.etherscan.io", 1, 7, 8⟩

/-- The same transaction was mined with another gas price, for which nobody is penalized. -/
def sampleAnswers : Answers where
  getWorkerManager := .ok 8
  verifyRelayManagerStaked := .ok ()
  getRequestTransaction := .ok none
  getTransactionCount := .ok 4
  getTransactionByNonce := .ok (some 6)
  getMinedTransaction := .ok (some ⟨3, 100000, 40, some 7, 0, [0xca, 0xfe], some 37, some 4, some 6⟩)
  viewCall := .error "execution reverted: tx is equal"
  getBlockNumber := .ok 100
  getBlock := .ok ()
  sendTransaction := .ok 11

/-- The reveal is scheduled, and its commit sent, although the view call reverted. -/
theorem bogus_audit_committed :
    ¬ ∀ (crypto : Crypto) (library : EthereumJsTransaction) (config : AuditConfig) (answers : Answers)
      (req : AuditRequest) (randomValue : Uint256) (type : PenalizationTypes) (s later : AuditState)
      (result : Except String AuditResponse),
      Proc.atOnce answers (audit crypto library config req randomValue type) s = some (result, later) →
        CommitsApproved crypto config type s later := by
  intro approves
  obtain ⟨result, later, ended, approved_iff⟩ := repeatedNonce_approved_iff sampleCrypto sampleLibrary sampleConfig
    sampleAnswers ⟨"0xf8"⟩ 2 ⟨PenalizerService.initial, []⟩
  have approved := approves sampleCrypto sampleLibrary sampleConfig sampleAnswers ⟨"0xf8"⟩ 2 .repeatedNonce
    ⟨PenalizerService.initial, []⟩ later result ended
  have valid : ValidRequest sampleLibrary sampleAnswers sampleTransaction :=
    ⟨rfl, ⟨9, rfl⟩, ⟨8, rfl, by decide⟩, rfl⟩
  have reaches : ∃ method, ReachesViewCall sampleLibrary sampleConfig sampleAnswers ⟨"0xf8"⟩ 2 sampleTransaction
      ⟨sampleTransfer, .legacy 40 (some 1), some 37, some 4, some 6⟩ method :=
    ⟨⟨.repeatedNonce, _⟩, rfl, by decide, rfl, valid, rfl, by decide, ⟨4, rfl, by decide⟩, ⟨6, rfl⟩,
      ⟨_, rfl, rfl⟩, rfl, rfl⟩
  obtain ⟨method, reached⟩ := reaches
  have failed := approved_iff.mp approved ⟨_, _, method, reached⟩
  cases failed

end OpenGsn.Relay.Audit
