import OpenGsn.Relay.NonceInvariant
import OpenGsn.Penalizer.Decoding

/-! One nonce, one transaction. -/

namespace OpenGsn.Relay

open Solidity Async

variable (config : Config) (hash : SignedTransaction → Uint256) (task : ℕ)

def Sendable (signed : SignedTransaction) (s : State) : Prop :=
  WellFormed signed.tx signed.envelope ∧ Known s signed.sender signed.tx

theorem validateBalance_spec (post : Unit → State → Prop) (signer : Address) (maxFeePerGas gasLimit : ℕ)
    (s : State) (holds : ∀ later, Expected task s later → post () later) :
    Ok task post (validateBalance signer maxFeePerGas gasLimit) s := by
  apply ok_bind
  apply ok_ask
  intro later expected balance
  exact ok_check task post _ _ later (holds later expected)

theorem putTx_known (tx : StoredTransaction) (s : State) (known : Known s tx.sender tx.txData) :
    Ok task (fun _ _ => True) (putTx tx true) s := by
  have agrees : ∀ later, Expected task s later → ∀ old ∈ later.txstore.written,
      old.nonceSigner = tx.nonceSigner → old.txData = tx.txData := by
    intro later expected old present same
    exact known_agrees later expected.consistent tx old
      (known_grown s later _ _ expected.grown known) present same
  apply ok_bind
  apply ok_check
  apply ok_bind
  apply ok_readStore
  intro later first
  have chained : ∀ further, Expected task later further → Expected task s further :=
    fun further second => expected_trans task s later further first second
  cases found : later.txstore.findOne tx.nonceSigner with
  | none =>
      apply ok_writeStore
      intro further second next inserted settled
      exact ⟨guaranteed_insert task further tx next second.consistent settled
        (agrees further (chained further second)) inserted, trivial⟩
  | some existing =>
      apply ok_writeStore
      intro further second next updated settled
      exact ⟨guaranteed_update task further existing tx next second.consistent settled
        (agrees further (chained further second)) updated, trivial⟩

theorem putTx_claimed (tx : StoredTransaction) (s : State)
    (claimed : (task, .exactly tx.sender tx.nonce) ∈ s.claims) :
    Ok task (fun _ later => Known later tx.sender tx.txData) (putTx tx false) s := by
  have inserts : ∀ later, Expected task s later → ∀ next, later.txstore.insert tx = .ok next →
      Settled later { later with txstore := next } →
      Guaranteed task later { later with txstore := next } ∧
        Known { later with txstore := next } tx.sender tx.txData := by
    intro later expected next inserted settled
    obtain ⟨free, written⟩ := insert_written later.txstore next tx inserted
    have vacant : ∀ old ∈ later.txstore.written,
        old.nonceSigner = tx.nonceSigner → old.txData = tx.txData := by
      intro old present same
      obtain ⟨other, listed, key⟩ := expected.consistent.claimed _ (expected.own _ claimed) old present same
      exact absurd (key.trans same) (free other listed)
    refine ⟨guaranteed_insert task later tx next expected.consistent settled vacant inserted, ?_⟩
    subst written
    exact ⟨tx, by simp, rfl, rfl⟩
  apply ok_bind
  apply ok_check
  apply ok_bind
  apply ok_readStore
  intro later first
  have step : Ok task (fun _ further => Known further tx.sender tx.txData)
      (writeStore (TxStore.insert tx)) later := by
    apply ok_writeStore
    intro further second next inserted settled
    exact inserts further (expected_trans task s later further first second) next inserted settled
  cases later.txstore.findOne tx.nonceSigner with
  | none => exact step
  | some existing => exact step

theorem getPendingCount_spec (signer : Address) (s : State) :
    Ok task (fun count later => (task, .atLeast signer count) ∈ later.claims)
      (getPendingCount (some task) signer) s := by
  apply ok_serve
  intro later expected reply _
  cases reply.asNumber with
  | error message =>
      exact ⟨guaranteed_same task later later expected.consistent rfl rfl rfl rfl,
        fun _ impossible => nomatch impossible⟩
  | ok n =>
      refine ⟨guaranteed_claim task later _ expected.consistent ?_, ?_⟩
      · rintro tx present ⟨sender, covered⟩
        rcases expected.consistent.archived tx present with stored | mined
        · exact stored
        · unfold Mined at mined
          rw [show tx.sender = signer from sender] at mined
          exact absurd ((le_max_right n _).trans covered) (Nat.not_le_of_lt mined)
      · rintro count ⟨⟩
        exact List.mem_cons_self

theorem pollNonce_spec (signer : Address) (s : State) :
    Ok task (fun nonce later => (task, .exactly signer nonce) ∈ later.claims)
      (pollNonce (some task) signer) s := by
  apply ok_bind
  apply ok_weaken _ _ _ _ _ (getPendingCount_spec task signer s)
  intro count later claimed
  apply ok_serve
  intro further expected _ _
  set nonces := if further.nonces signer < count then Function.update further.nonces signer count
    else further.nonces with advanced
  have enough : count ≤ nonces signer := by
    rw [advanced]
    split
    · simp
    · omega
  have unchanged := guaranteed_same task further { further with nonces := nonces } expected.consistent
    rfl rfl rfl rfl
  have claims := guaranteed_claim task { further with nonces := nonces } (.exactly signer (nonces signer))
    unchanged.consistent (by
      intro tx present covered
      apply expected.consistent.claimed _ (expected.own _ claimed) tx present
      rw [show tx.nonceSigner = (signer, nonces signer) from covered]
      exact ⟨rfl, enough⟩)
  refine ⟨⟨claims.consistent, grown_same further _ rfl, claims.others⟩, ?_⟩
  rintro nonce ⟨⟩
  exact List.mem_cons_self

/-- What `sendTransaction` has signed is what it stores, under the nonce it has claimed. -/
structure Prepared (nonce : ℕ) (made : SignedTransaction × StoredTransaction) (s : State) : Prop where
  wellFormed : WellFormed made.1.tx made.1.envelope
  sender : made.2.sender = made.1.sender
  txData : made.2.txData = made.1.tx
  claimed : (task, .exactly made.2.sender made.2.nonce) ∈ s.claims

theorem signNew_spec (details : SendTransactionDetails)
    (gasLimit maxFeePerGas maxPriorityFeePerGas nonce : ℕ) (s : State)
    (claimed : (task, .exactly details.signer nonce) ∈ s.claims) :
    Ok task (Prepared task nonce)
      (signNew config hash details gasLimit maxFeePerGas maxPriorityFeePerGas nonce) s := by
  apply ok_serve
  intro later expected reply _
  set made := (do
    reply.ok
    let signed ← signTransaction config details.signer
      ⟨nonce, gasLimit, some details.destination, details.value.getD 0, details.method.getD []⟩
      (envelope config later.transactionType maxFeePerGas maxPriorityFeePerGas)
    let storedTx ← createStoredTransaction hash signed
      ⟨1, details.serverAction, details.creationBlock, none, none⟩
    Except.ok (signed, storedTx) : Except String (SignedTransaction × StoredTransaction)) with making
  cases result : made with
  | error message =>
      simp only [← making, result]
      exact ⟨guaranteed_same task later later expected.consistent rfl rfl rfl rfl,
        fun _ impossible => nomatch impossible⟩
  | ok prepared =>
      simp only [← making, result]
      refine ⟨guaranteed_same task later _ expected.consistent rfl rfl rfl rfl, ?_⟩
      rintro _ ⟨⟩
      rw [making] at result
      simp only [bind_ok, Except.ok.injEq] at result
      obtain ⟨_, _, signed, made, storedTx, created, rfl⟩ := result
      obtain ⟨wellFormed, rfl⟩ := signTransaction_ok config _ _ _ signed made
      obtain ⟨sender, data, _⟩ := createStoredTransaction_ok hash _ _ storedTx created
      have nonces : storedTx.nonce = nonce := congrArg TxData.nonce data
      refine ⟨wellFormed, sender, data, ?_⟩
      rw [sender, nonces]
      exact expected.own _ claimed

theorem storeNew_spec (details : SendTransactionDetails)
    (gasLimit maxFeePerGas maxPriorityFeePerGas : ℕ) (s : State) :
    Ok task Sendable (storeNew config hash task details gasLimit maxFeePerGas maxPriorityFeePerGas) s := by
  apply ok_bind
  apply ok_weaken _ _ _ _ _ (pollNonce_spec task details.signer s)
  intro nonce later claimed
  apply ok_bind
  apply ok_weaken _ _ _ _ _ (signNew_spec config hash task details gasLimit maxFeePerGas
    maxPriorityFeePerGas nonce later claimed)
  rintro ⟨signed, storedTx⟩ further ⟨wellFormed, sender, txData, held⟩
  apply ok_bind
  apply ok_weaken _ _ _ _ _ (putTx_claimed task storedTx further held)
  intro _ last known
  apply ok_pure
  rw [sender, txData] at known
  exact ⟨wellFormed, known⟩

theorem broadcastTransaction_spec (signed : SignedTransaction) (s : State) (sendable : Sendable signed s) :
    Ok task (fun _ _ => True) (broadcastTransaction signed) s := by
  apply ok_serve
  intro later expected reply _
  have known := known_grown s later _ _ expected.grown sendable.2
  exact ⟨guaranteed_broadcast task later signed expected.consistent sendable.1 known, fun _ _ => trivial⟩

theorem sendTransaction_spec (details : SendTransactionDetails) (s : State) :
    Ok task (fun _ _ => True) (sendTransaction config hash task details) s := by
  have orAsked : ∀ (value : Option ℕ) (post : ℕ → State → Prop) (s : State),
      (∀ answer later, post answer later) → Ok task post (orAsk value) s := by
    intro value post s holds
    cases value with
    | none => exact ok_ask task post _ s fun later _ answer => holds answer later
    | some value => exact ok_pure task post value s (holds value s)
  apply ok_bind
  apply orAsked
  intro maxFeePerGas afterPrice
  apply ok_bind
  apply orAsked
  intro gasLimit afterGas
  apply ok_bind
  apply validateBalance_spec
  intro afterBalance _
  apply ok_bind
  apply ok_check
  apply ok_bind
  apply ok_acquire
  intro acquired
  apply ok_bind
  apply ok_ensure
  · exact fun later => guaranteed_release task later
  · apply ok_weaken _ _ _ _ _ (storeNew_spec config hash task details gasLimit maxFeePerGas _ acquired)
    intro signed stored sendable later expected
    have known := known_grown stored later _ _ expected.grown sendable.2
    exact broadcastTransaction_spec task signed _ ⟨sendable.1, known⟩

theorem validateMaxNonce_spec (relayMaxNonce : ℕ) (s : State) :
    Ok task (fun _ _ => True) (validateMaxNonce config relayMaxNonce) s := by
  apply ok_bind
  apply ok_bind
  apply ok_serve
  intro later expected reply _
  have unchanged := guaranteed_same task later later expected.consistent rfl rfl rfl rfl
  cases reply.asNumber with
  | error message => exact ⟨unchanged, fun _ impossible => nomatch impossible⟩
  | ok n =>
      refine ⟨unchanged, fun count _ => ?_⟩
      apply ok_serve
      intro further moved _ _
      refine ⟨guaranteed_same task further _ moved.consistent rfl rfl rfl rfl, fun nonce _ => ?_⟩
      exact ok_check task _ _ _ _ trivial

/-! Boosts send again what is known. -/

theorem updateTransactionWithAttempt_spec (tx : StoredTransaction) (envelope : Envelope)
    (currentBlock : ShortBlockInfo) (s : State) (written : tx ∈ s.txstore.written) :
    Ok task (fun _ _ => True)
      (updateTransactionWithAttempt hash ⟨tx.sender, tx.txData, envelope⟩ tx currentBlock) s := by
  apply ok_bind
  apply ok_ofExcept
  intro storedTx created
  obtain ⟨sender, data, _⟩ := createStoredTransaction_ok hash _ _ storedTx created
  apply ok_bind
  apply ok_weaken _ _ _ _ _ (putTx_known task storedTx s ⟨tx, written, sender.symm, data.symm⟩)
  exact fun _ later _ => ok_pure task _ storedTx later trivial

theorem resendTransaction_spec (tx : StoredTransaction) (currentBlock : ShortBlockInfo)
    (newMaxFee newMaxPriorityFee : ℕ) (s : State) (written : tx ∈ s.txstore.written) :
    Ok task (fun _ _ => True)
      (resendTransaction config hash tx currentBlock newMaxFee newMaxPriorityFee) s := by
  apply ok_bind
  apply validateBalance_spec
  intro balanced first
  apply ok_bind
  apply ok_serve
  intro later second reply _
  refine ⟨guaranteed_same task later later second.consistent rfl rfl rfl rfl, fun signed made => ?_⟩
  have signing : ∃ fees, signTransaction config tx.sender tx.txData fees = .ok signed := by
    cases answered : reply.ok with
    | error message => simp [answered, Except.bind] at made
    | ok _ => exact ⟨_, by simpa [answered, Except.bind] using made⟩
  obtain ⟨fees, signing⟩ := signing
  obtain ⟨wellFormed, rfl⟩ := signTransaction_ok config _ _ _ signed signing
  have writtenNow : [tx] ⊆ later.txstore.written := by
    simpa using second.grown (first.grown written)
  apply ok_bind
  apply ok_weaken _ _ _ _ _ (ok_written task (fun _ _ => True) _ later [tx] writtenNow
    (updateTransactionWithAttempt_spec hash task tx fees currentBlock later (writtenNow List.mem_cons_self)))
  intro storedTx stored held
  apply ok_bind
  apply ok_ask
  intro asked third _
  have present := third.grown (held.2 List.mem_cons_self)
  exact broadcastTransaction_spec task _ asked ⟨wellFormed, tx, present, rfl, rfl⟩

theorem boostTransactions_spec (currentBlock : ShortBlockInfo) (newMaxFee newMaxPriorityFee : ℕ)
    (pendingTxs : List StoredTransaction) (s : State) (written : pendingTxs ⊆ s.txstore.written) :
    Ok task (fun _ _ => True)
      (boostTransactions config hash currentBlock newMaxFee newMaxPriorityFee pendingTxs) s := by
  induction pendingTxs generalizing s with
  | nil => exact ok_pure task _ _ s trivial
  | cons transaction rest ih =>
      obtain ⟨own, others⟩ := List.cons_subset.mp written
      have resent : ∀ fee priorityFee, Ok task (fun _ _ => True)
          (resendTransaction config hash transaction currentBlock fee priorityFee) s :=
        fun fee priorityFee =>
          resendTransaction_spec config hash task transaction currentBlock fee priorityFee s own
      rw [boostTransactions]
      split
      · apply ok_bind
        apply ok_weaken _ _ _ _ _ (ok_written task (fun _ _ => True) _ s rest others (resent _ _))
        intro boosted later held
        apply ok_bind
        apply ok_weaken _ _ _ _ _ (ih later held.2)
        exact fun _ last _ => ok_pure task _ _ last trivial
      · apply ok_bind
        apply ok_weaken _ _ _ _ _ (ok_written task (fun _ _ => True) _ s rest others
          (ok_caught task _ _ s (resent _ _) fun _ => trivial))
        exact fun _ later held => ih later held.2

theorem boost_spec (signer : Address) (currentBlock : ShortBlockInfo) (minMaxPriorityFee : ℕ) (s : State) :
    Ok task (fun _ _ => True)
      (boostUnderpricedPendingTransactionsForSigner config hash signer currentBlock minMaxPriorityFee) s := by
  apply ok_bind
  apply ok_ask
  intro asked _ nonce
  apply ok_bind
  apply ok_readStore
  intro later expected
  have written : later.txstore.getTxsInNonceRange signer nonce maxSafeInteger ⊆ later.txstore.written := by
    intro tx member
    have listed := (List.mem_insertionSort _).mp member
    exact expected.consistent.logged tx (List.mem_filter.mp listed).1
  cases pending : later.txstore.getTxsInNonceRange signer nonce maxSafeInteger with
  | nil => exact ok_pure task _ _ later trivial
  | cons oldestPendingTx others =>
      rw [pending] at written
      dsimp only
      split
      · exact ok_pure task _ _ later trivial
      · split
        · exact ok_throw task _ _ later
        · split
          · exact ok_pure task _ _ later trivial
          · apply ok_bind
            apply ok_ask
            intro priced moved baseFeePerGas
            apply boostTransactions_spec
            exact List.Subset.trans written moved.grown

/-! The archive writes known transactions only. -/

theorem getTransaction_spec (post : Option (Option ℕ) → State → Prop) (tx : StoredTransaction) (s : State)
    (answered : ∀ later, Expected task s later → ∀ receipt, post receipt later) :
    Ok task post (getTransaction tx) s := by
  apply ok_serve
  intro later expected reply _
  exact ⟨guaranteed_same task later later expected.consistent rfl rfl rfl rfl,
    fun receipt _ => answered later expected receipt⟩

theorem fillMinedBlockDetails_spec (currentBlock : ShortBlockInfo) (transactions : List StoredTransaction)
    (s : State) (written : transactions ⊆ s.txstore.written) :
    Ok task (fun _ _ => True) (fillMinedBlockDetails config currentBlock transactions) s := by
  induction transactions generalizing s with
  | nil => exact ok_pure task _ _ s trivial
  | cons transaction rest ih =>
      obtain ⟨own, others⟩ := List.cons_subset.mp written
      rw [fillMinedBlockDetails]
      split
      · apply ok_bind
        apply getTransaction_spec
        intro later first receipt
        have restWritten := List.Subset.trans others first.grown
        have skipped := ih later restWritten
        split
        · rename_i blockNumber
          split
          · exact skipped
          · apply ok_bind
            apply ok_ask
            intro further second minedBlock
            have present := second.grown (first.grown own)
            apply ok_bind
            apply ok_weaken _ _ _ _ _ (ok_written task (fun _ _ => True) _ further rest
              (List.Subset.trans restWritten second.grown)
              (putTx_known task { transaction with minedBlock := some minedBlock } further
                ⟨transaction, present, rfl, rfl⟩))
            exact fun _ last held => ih last held.2
        · exact skipped
      · exact ih s others

theorem archive_spec (currentBlock : ShortBlockInfo) (s : State) :
    Ok task (fun _ _ => True) (do
      fillMinedBlockDetailsForTransactions config currentBlock
      removeArchivedTransactions config currentBlock) s := by
  apply ok_bind
  apply ok_bind
  apply ok_readStore
  intro later expected
  have written : later.txstore.getAll ⊆ later.txstore.written := fun tx member =>
    expected.consistent.logged tx ((List.mem_insertionSort _).mp member)
  apply ok_weaken _ _ _ _ _ (fillMinedBlockDetails_spec config task currentBlock _ later written)
  intro _ filled _
  apply ok_writeStore
  rintro further moved next ⟨⟩ settled
  exact ⟨guaranteed_removal task further _ _ moved.consistent settled, trivial⟩

/-! Runs. -/

theorem ended_safe {α : Type} (promise : Promise α) (s : State) (ok : Ok task (fun _ _ => True) promise s) :
    (ended promise).Safe Settled (Expected task) (Guaranteed task) (fun _ _ => True) s := by
  apply Proc.safe_bind
  exact Proc.safe_weaken _ _ ok fun _ _ _ => trivial

theorem discipline : Discipline (program config hash) mine restart Settled Consistent Expected Guaranteed where
  reflexive := fun _ s consistent => ⟨consistent, grown_same s s rfl, fun _ member => member⟩
  chained := expected_trans
  compatible := fun task other _ _ apart moved =>
    ⟨moved.consistent, moved.grown, fun claim member => moved.others other claim (Ne.symm apart) member⟩
  kept := fun _ _ _ moved => moved.consistent
  started := by
    intro task code s _
    cases code with
    | sendTransaction details =>
        exact ended_safe task _ s (sendTransaction_spec config hash task details s)
    | validateMaxNonce relayMaxNonce =>
        exact ended_safe task _ s (validateMaxNonce_spec config task relayMaxNonce s)
    | boost signer currentBlock minMaxPriorityFee =>
        exact ended_safe task _ s (boost_spec config hash task signer currentBlock minMaxPriorityFee s)
    | archive currentBlock => exact ended_safe task _ s (archive_spec config task currentBlock s)
  outside := by
    intro mined s consistent settled
    have later := mine_consistent s mined consistent settled
    exact ⟨later, fun _ => ⟨later, grown_same s _ rfl, fun _ member => member⟩⟩
  restarted := by
    intro transactionType s consistent _
    exact consistent_same s _ consistent rfl rfl rfl (List.nil_subset _)

theorem run_consistent (transactionType : TransactionType) (mined : Address → ℕ) (events : List Event)
    (settled : World.Along (program config hash) mine restart Settled events
      (initial transactionType mined)) :
    Consistent (run config hash events (initial transactionType mined)).state := by
  have start : Consistent (initial transactionType mined).state :=
    ⟨by simp [initial], by simp [initial], by simp [initial], by simp [initial], by simp [initial]⟩
  exact (run_sound (discipline config hash) events _ ⟨start, fun _ => trivial⟩ settled).holds

/-- Two transactions that were broadcast with one nonce are the same but for their fees, so that
nobody is penalized for them. -/
theorem same_nonce_same_transaction (transactionType : TransactionType) (mined : Address → ℕ)
    (events : List Event)
    (settled : World.Along (program config hash) mine restart Settled events
      (initial transactionType mined)) :
    let s := (run config hash events (initial transactionType mined)).state
    ∀ first ∈ s.broadcasts, ∀ second ∈ s.broadcasts,
      first.sender = second.sender → first.tx.nonce = second.tx.nonce →
      first.tx = second.tx ∧
      ∀ (crypto : Crypto) (signature1 signature2 : Bytes) (beyond : Penalizer.Memory),
        let unsignedTx1 := unsignedTx first.tx first.envelope
        let unsignedTx2 := unsignedTx second.tx second.envelope
        first.sender ≠ 0 →
        crypto.recover (crypto.keccak256 unsignedTx1) signature1 = some first.sender →
        crypto.recover (crypto.keccak256 unsignedTx2) signature2 = some second.sender →
        Penalizer.repeatedNonceSigner crypto unsignedTx1 signature1 unsignedTx2 signature2 beyond =
          .error (.reason "tx is equal") := by
  intro s first one second two senders nonces
  have consistent := run_consistent config hash transactionType mined events settled
  obtain ⟨wellFormed1, old1, written1, sender1, data1⟩ := consistent.broadcast first one
  obtain ⟨wellFormed2, old2, written2, sender2, data2⟩ := consistent.broadcast second two
  have key : old1.nonceSigner = old2.nonceSigner := by
    have nonce1 : old1.nonce = first.tx.nonce := congrArg TxData.nonce data1
    have nonce2 : old2.nonce = second.tx.nonce := congrArg TxData.nonce data2
    simp [StoredTransaction.nonceSigner, sender1, sender2, nonce1, nonce2, senders, nonces]
  have same : first.tx = second.tx := by
    rw [← data1, ← data2]
    exact consistent.agreed old1 written1 old2 written2 key
  refine ⟨same, ?_⟩
  intro crypto signature1 signature2 beyond unsignedTx1 unsignedTx2 nonzero recovered1 recovered2
  rw [← senders] at recovered2
  exact Penalizer.equal_not_penalized crypto first.tx second.tx first.envelope second.envelope signature1
    signature2 first.sender beyond wellFormed1 wellFormed2 (congrArg Penalizer.decoded same) nonzero
    recovered1 recovered2

def sampleConfig : Config where
  managerAddress := 21
  workerAddress := 22
  chainId := 1
  retried := fun fee => fee + fee / 5
  maxMaxFeePerGas := 1000
  pendingTransactionTimeoutSeconds := 30
  dbPruneTxAfterBlocks := 12
  dbPruneTxAfterSeconds := 3600

def sampleHash (signed : SignedTransaction) : Uint256 :=
  sampleCrypto.keccak256 (unsignedTx signed.tx signed.envelope)

def blockAt (number : ℕ) : ShortBlockInfo := ⟨0, number, 15 * number⟩

def transfer (value : ℕ) : SendTransactionDetails :=
  ⟨22, .valueTransfer, none, 33, some value, some 21000, some 10, none, blockAt 100⟩

def replies (task : ℕ) (answers : List Reply) : List Event := answers.map (.resume task)

def sendBegins (task value count : ℕ) : List Event :=
  .start task (.sendTransaction (transfer value)) ::
    replies task [.number 1000000, .done, .number count]

def sendEnds (task : ℕ) : List Event := replies task [.done, .done, .done, .done, .done, .done]

def boostedEvents : List Event :=
  sendBegins 0 1 0 ++ sendEnds 0 ++ .start 1 (.boost 22 (blockAt 110) 1) ::
    replies 1 [.number 0, .done, .number 11, .number 1000000, .done, .done, .done, .number 0, .done]

theorem same_nonce_same_transaction_boosted :
    let s := (run sampleConfig sampleHash boostedEvents (initial .typeTwo fun _ => 0)).state
    s.broadcasts.length = 2 ∧ ∀ first ∈ s.broadcasts, ∀ second ∈ s.broadcasts,
      first.sender = second.sender → first.tx.nonce = second.tx.nonce → first.tx = second.tx :=
  ⟨by decide +kernel, fun first one second two senders nonces =>
    (same_nonce_same_transaction sampleConfig sampleHash .typeTwo (fun _ => 0) boostedEvents
      (by decide +kernel) first one second two senders nonces).1⟩

/-- The chain has the transaction of the first `sendTransaction` in block 101, and at block 1000
its record is pruned. -/
def prunes : List Event :=
  .outside (fun _ => 1) :: .start 7 (.archive (blockAt 1000)) ::
    replies 7 [.done, .receipt (some (some 101)), .block (blockAt 101), .done, .done, .done]

/-- The second `sendTransaction` was told its count in a new process, before all that. -/
def prunedEvents : List Event :=
  sendBegins 0 1 0 ++ sendEnds 0 ++ .restart .typeTwo :: sendBegins 1 2 0 ++ prunes ++ sendEnds 1

theorem pruned_nonce_used_twice :
    let s := (run sampleConfig sampleHash prunedEvents (initial .typeTwo fun _ => 0)).state
    ∃ first ∈ s.broadcasts, ∃ second ∈ s.broadcasts,
      first.sender = second.sender ∧ first.tx.nonce = second.tx.nonce ∧
      first.tx.value ≠ second.tx.value ∧
      Penalizer.repeatedNonceSigner sampleCrypto (unsignedTx first.tx first.envelope) [22]
        (unsignedTx second.tx second.envelope) [22] (fun _ => 0) = .ok first.sender := by
  decide +kernel

/-- The other way to that pair: the block is noted at 105, a reorganization drops the transaction, and at
block 1000 its record is pruned for the block that was noted. -/
def reorganizedEvents : List Event :=
  sendBegins 0 1 0 ++ sendEnds 0 ++ .outside (fun _ => 1) :: .start 7 (.archive (blockAt 105)) ::
    replies 7 [.done, .receipt (some (some 101)), .block (blockAt 101), .done, .done, .done] ++
    .outside (fun _ => 0) :: .restart .typeTwo :: .start 8 (.archive (blockAt 1000)) ::
    replies 8 [.done, .receipt none, .done] ++ sendBegins 1 2 0 ++ sendEnds 1

example :
    let s := (run sampleConfig sampleHash reorganizedEvents (initial .typeTwo fun _ => 0)).state
    s.broadcasts.map (fun signed => (signed.tx.nonce, signed.tx.value)) = [(0, 1), (0, 2)] := by
  decide +kernel

end OpenGsn.Relay
