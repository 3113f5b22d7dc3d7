import OpenGsn.Relay.Relaying
import OpenGsn.Relay.ArchiveSafety
import OpenGsn.Async.Maintains

/-! What the worker's key is used for. -/

namespace OpenGsn.Relay

open Solidity Async

variable (config : Config) (hash : SignedTransaction → Uint256) (selector : Bytes) (relayHub : Address)

/-- All that is stored or was sent out is admitted, with its sender and its maximal fee, and stored once. -/
structure Admits (admitted : Address → TxData → ℕ → Prop) (s : State) : Prop where
  unique : s.txstore.Unique
  stored : ∀ tx ∈ s.txstore.transactions, admitted tx.sender tx.txData tx.maxFeePerGas
  written : ∀ tx ∈ s.txstore.written, admitted tx.sender tx.txData tx.maxFeePerGas
  broadcast : ∀ signed ∈ s.broadcasts, admitted signed.sender signed.tx (gasPrices signed.envelope).1

/-- A signed transaction that may be stored and sent out, with the record of it. -/
structure Ready (admitted : Address → TxData → ℕ → Prop) (signed : SignedTransaction) (tx : StoredTransaction) :
    Prop where
  signed : admitted signed.sender signed.tx (gasPrices signed.envelope).1
  stored : admitted tx.sender tx.txData tx.maxFeePerGas

variable {admitted : Address → TxData → ℕ → Prop}

theorem ask_maintains {α : Type} (read : Reply → Except String α) :
    (ask read).Maintains (Admits admitted) fun _ => True :=
  Promise.maintains_serve _ fun _ _ held => ⟨held, fun _ _ => trivial⟩

theorem check_maintains {post : Unit → Prop} (condition : Prop) [Decidable condition] (message : String)
    (holds : condition → post ()) : (check condition message).Maintains (Admits admitted) post := by
  apply Promise.maintains_ofExcept
  intro _ passed
  split at passed
  · exact holds ‹_›
  · cases passed

theorem awaited_maintains {α : Type} (result : Except String α) :
    (awaited result).Maintains (Admits admitted) fun value => result = .ok value := by
  apply Promise.maintains_bind
  apply Promise.maintains_weaken _ (ask_maintains _)
  intro _ _
  exact Promise.maintains_ofExcept _ fun _ same => same

theorem onStore_maintains {α : Type} {post : α → Prop} (act : TxStore → Except String (α × TxStore))
    (acted : ∀ s, Admits admitted s → ∀ value next, act s.txstore = .ok (value, next) →
      Admits admitted { s with txstore := next } ∧ post value) :
    (onStore act).Maintains (Admits admitted) post := by
  apply Promise.maintains_serve
  intro reply s held
  cases reply.ok with
  | error message => exact ⟨held, fun _ impossible => nomatch impossible⟩
  | ok _ =>
      cases outcome : act s.txstore with
      | error message => exact ⟨held, fun _ impossible => nomatch impossible⟩
      | ok made =>
          obtain ⟨kept, holds⟩ := acted s held made.1 made.2 outcome
          refine ⟨kept, ?_⟩
          rintro _ ⟨⟩
          exact holds

theorem readStore_maintains {α : Type} {post : α → Prop} (read : TxStore → α)
    (holds : ∀ s, Admits admitted s → post (read s.txstore)) :
    (readStore read).Maintains (Admits admitted) post := by
  apply onStore_maintains
  rintro s held value next ⟨⟩
  exact ⟨held, holds s held⟩

theorem writeStore_maintains (write : TxStore → Except String TxStore)
    (written : ∀ s, Admits admitted s → ∀ next, write s.txstore = .ok next →
      Admits admitted { s with txstore := next }) :
    (writeStore write).Maintains (Admits admitted) fun _ => True := by
  apply onStore_maintains
  intro s held value next acted
  refine ⟨written s held next ?_, trivial⟩
  cases outcome : write s.txstore with
  | error message => simp [outcome, Except.map] at acted
  | ok other =>
      simp only [outcome, Except.map, Except.ok.injEq, Prod.mk.injEq] at acted
      rw [acted.2]

theorem insert_admits (tx : StoredTransaction) (s : State) (next : TxStore) (held : Admits admitted s)
    (fine : admitted tx.sender tx.txData tx.maxFeePerGas) (inserted : s.txstore.insert tx = .ok next) :
    Admits admitted { s with txstore := next } := by
  have unique := (TxStore.insert_unique _ _ tx held.unique inserted).2
  unfold TxStore.insert at inserted
  split at inserted
  · cases inserted
  · cases inserted
    refine ⟨unique, ?_, ?_, held.broadcast⟩
    · intro other member
      rcases List.mem_append.mp member with old | new
      · exact held.stored other old
      · rw [List.mem_singleton.mp new]
        exact fine
    · intro other member
      rcases List.mem_append.mp member with old | new
      · exact held.written other old
      · rw [List.mem_singleton.mp new]
        exact fine

theorem update_admits (txId : Uint256) (tx : StoredTransaction) (s : State) (next : TxStore)
    (held : Admits admitted s) (fine : admitted tx.sender tx.txData tx.maxFeePerGas)
    (updated : s.txstore.update txId tx = .ok next) : Admits admitted { s with txstore := next } := by
  have unique := TxStore.update_unique _ _ txId tx held.unique updated
  unfold TxStore.update at updated
  split at updated
  · cases updated
    exact held
  · rename_i current _
    split at updated
    · cases updated
    · cases updated
      refine ⟨unique, ?_, ?_, held.broadcast⟩
      · intro other member
        obtain ⟨old, listed, rfl⟩ := List.mem_map.mp member
        split
        · exact fine
        · exact held.stored old listed
      · intro other member
        rcases List.mem_append.mp member with old | new
        · exact held.written other old
        · rw [List.mem_singleton.mp new]
          exact fine

theorem putTx_maintains (tx : StoredTransaction) (updateExisting : Bool)
    (fine : admitted tx.sender tx.txData tx.maxFeePerGas) :
    (putTx tx updateExisting).Maintains (Admits admitted) fun _ => True := by
  have inserts : (writeStore (TxStore.insert tx)).Maintains (Admits admitted) fun _ => True :=
    writeStore_maintains _ fun s held next inserted => insert_admits tx s next held fine inserted
  have updates : ∀ existing : StoredTransaction,
      (writeStore (TxStore.update existing.txId tx)).Maintains (Admits admitted) fun _ => True :=
    fun existing => writeStore_maintains _ fun s held next updated =>
      update_admits existing.txId tx s next held fine updated
  apply Promise.maintains_bind
  apply check_maintains
  intro _
  apply Promise.maintains_bind
  apply readStore_maintains
  intro s _
  split
  · exact updates _
  · exact inserts

theorem validateBalance_maintains (signer : Address) (maxFeePerGas gasLimit : ℕ) :
    (validateBalance signer maxFeePerGas gasLimit).Maintains (Admits admitted) fun _ => True := by
  apply Promise.maintains_bind
  apply Promise.maintains_weaken _ (ask_maintains _)
  intro balance _
  exact check_maintains _ _ fun _ => trivial

theorem claim_admits (claimant : Option ℕ) (claim : Claim) (s : State) (held : Admits admitted s) :
    Admits admitted (s.claim claimant claim) := by
  cases claimant with
  | none => exact held
  | some task => exact ⟨held.unique, held.stored, held.written, held.broadcast⟩

theorem pollNonce_maintains (claimant : Option ℕ) (signer : Address) :
    (pollNonce claimant signer).Maintains (Admits admitted) fun _ => True := by
  apply Promise.maintains_bind
  apply Promise.maintains_serve
  intro reply s held
  cases reply.asNumber with
  | error message => exact ⟨held, fun _ impossible => nomatch impossible⟩
  | ok n =>
      refine ⟨claim_admits claimant _ s held, fun count _ => ?_⟩
      apply Promise.maintains_sync
      intro later still
      exact ⟨claim_admits claimant _ _ ⟨still.unique, still.stored, still.written, still.broadcast⟩, trivial⟩

theorem gasPrices_envelope (transactionType : TransactionType) (maxFeePerGas maxPriorityFeePerGas : ℕ) :
    (gasPrices (envelope config transactionType maxFeePerGas maxPriorityFeePerGas)).1 = maxFeePerGas := by
  cases transactionType with
  | legacy => rfl
  | typeTwo => rfl

theorem createStoredTransaction_fee (signed : SignedTransaction) (metadata : StoredTransactionMetadata)
    (storedTx : StoredTransaction) (created : createStoredTransaction hash signed metadata = .ok storedTx) :
    storedTx.maxFeePerGas = (gasPrices signed.envelope).1 := by
  unfold createStoredTransaction at created
  cases recipient : signed.tx.recipient with
  | none => simp [recipient] at created
  | some account =>
      simp only [recipient, Except.ok.injEq] at created
      rw [← created]

theorem created_ready (signed : SignedTransaction) (metadata : StoredTransactionMetadata)
    (storedTx : StoredTransaction) (fine : admitted signed.sender signed.tx (gasPrices signed.envelope).1)
    (created : createStoredTransaction hash signed metadata = .ok storedTx) : Ready admitted signed storedTx := by
  refine ⟨fine, ?_⟩
  obtain ⟨sender, txData, _⟩ := createStoredTransaction_ok hash signed metadata storedTx created
  rw [sender, txData, createStoredTransaction_fee hash signed metadata storedTx created]
  exact fine

def SendTransactionDetails.tx (details : SendTransactionDetails) (nonce gasLimit : ℕ) : TxData :=
  ⟨nonce, gasLimit, some details.destination, details.value.getD 0, details.method.getD []⟩

def MadeWith (details : SendTransactionDetails) (gasLimit maxFeePerGas maxPriorityFeePerGas : ℕ)
    (signed : SignedTransaction) : Prop :=
  WellFormed signed.tx signed.envelope ∧ ∃ nonce transactionType,
    signed = ⟨details.signer, details.tx nonce gasLimit,
      envelope config transactionType maxFeePerGas maxPriorityFeePerGas⟩

theorem signNew_maintains (details : SendTransactionDetails) (gasLimit maxFeePerGas maxPriorityFeePerGas nonce : ℕ)
    (fine : (∃ envelope, WellFormed (details.tx nonce gasLimit) envelope) →
      admitted details.signer (details.tx nonce gasLimit) maxFeePerGas) :
    (signNew config hash details gasLimit maxFeePerGas maxPriorityFeePerGas nonce).Maintains (Admits admitted)
      fun made => Ready admitted made.1 made.2 ∧
        MadeWith config details gasLimit maxFeePerGas maxPriorityFeePerGas made.1 := by
  apply Promise.maintains_serve
  intro reply s held
  dsimp only
  split
  · exact ⟨held, fun _ impossible => nomatch impossible⟩
  · rename_i made result
    refine ⟨⟨held.unique, held.stored, held.written, held.broadcast⟩, ?_⟩
    rintro _ ⟨⟩
    simp only [bind_ok, Except.ok.injEq] at result
    obtain ⟨_, _, signed, signature, storedTx, created, rfl⟩ := result
    obtain ⟨wellFormed, rfl⟩ := signTransaction_ok config _ _ _ signed signature
    refine ⟨created_ready hash _ _ storedTx ?_ created, wellFormed, nonce, s.transactionType, rfl⟩
    rw [gasPrices_envelope]
    exact fine ⟨_, wellFormed⟩

theorem broadcastTransaction_maintains (signed : SignedTransaction)
    (fine : admitted signed.sender signed.tx (gasPrices signed.envelope).1) :
    (broadcastTransaction signed).Maintains (Admits admitted) fun returned => returned = signed := by
  apply Promise.maintains_serve
  intro reply s held
  refine ⟨⟨held.unique, held.stored, held.written, ?_⟩, ?_⟩
  · intro other member
    rcases List.mem_append.mp member with old | new
    · exact held.broadcast other old
    · rw [List.mem_singleton.mp new]
      exact fine
  · intro returned answered
    cases outcome : reply.ok with
    | error message => simp [outcome, Except.map] at answered
    | ok _ => simpa [outcome, Except.map, eq_comm] using answered

theorem orAsk_maintains (value : Option ℕ) :
    (orAsk value).Maintains (Admits admitted) fun answer => ∀ given, value = some given → answer = given := by
  cases value with
  | none => exact Promise.maintains_weaken _ (ask_maintains _) fun _ _ _ impossible => nomatch impossible
  | some value => exact Promise.maintains_pure value fun _ same => Option.some.inj same

def Fine (admitted : Address → TxData → ℕ → Prop) (details : SendTransactionDetails) : Prop :=
  ∀ nonce gasLimit maxFeePerGas, (∀ given, details.gasLimit = some given → gasLimit = given) →
    (∀ given, details.maxFeePerGas = some given → maxFeePerGas = given) →
    (∃ envelope, WellFormed (details.tx nonce gasLimit) envelope) →
    admitted details.signer (details.tx nonce gasLimit) maxFeePerGas

theorem storeNew_maintains (task : ℕ) (details : SendTransactionDetails)
    (gasLimit maxFeePerGas maxPriorityFeePerGas : ℕ)
    (fine : ∀ nonce, (∃ envelope, WellFormed (details.tx nonce gasLimit) envelope) →
      admitted details.signer (details.tx nonce gasLimit) maxFeePerGas) :
    (storeNew config hash task details gasLimit maxFeePerGas maxPriorityFeePerGas).Maintains (Admits admitted)
      fun signed => admitted signed.sender signed.tx (gasPrices signed.envelope).1 ∧
        MadeWith config details gasLimit maxFeePerGas maxPriorityFeePerGas signed := by
  apply Promise.maintains_bind
  apply Promise.maintains_weaken _ (pollNonce_maintains _ _)
  intro nonce _
  apply Promise.maintains_bind
  apply Promise.maintains_weaken _ (signNew_maintains config hash details gasLimit maxFeePerGas _ nonce (fine nonce))
  intro signed made
  apply Promise.maintains_bind
  apply Promise.maintains_weaken _ (putTx_maintains signed.2 false made.1.stored)
  intro _ _
  exact Promise.maintains_pure _ ⟨made.1.signed, made.2⟩

def MadeFor (details : SendTransactionDetails) (signed : SignedTransaction) : Prop :=
  ∃ gasLimit maxFeePerGas maxPriorityFeePerGas,
    (∀ given, details.maxFeePerGas = some given → maxFeePerGas = given) ∧
    (∀ given, details.maxPriorityFeePerGas = some given → maxPriorityFeePerGas = given) ∧
    MadeWith config details gasLimit maxFeePerGas maxPriorityFeePerGas signed

theorem sendTransaction_maintains (task : ℕ) (details : SendTransactionDetails) (fine : Fine admitted details) :
    (sendTransaction config hash task details).Maintains (Admits admitted) (MadeFor config details) := by
  apply Promise.maintains_bind
  apply Promise.maintains_weaken _ (orAsk_maintains _)
  intro maxFeePerGas fee
  apply Promise.maintains_bind
  apply Promise.maintains_weaken _ (orAsk_maintains _)
  intro gasLimit gas
  apply Promise.maintains_bind
  apply Promise.maintains_weaken _ (validateBalance_maintains _ _ _)
  intro _ _
  apply Promise.maintains_bind
  apply check_maintains
  intro _
  apply Promise.maintains_bind
  apply Promise.maintains_weaken _ (Promise.maintains_waitUntil _ _ fun s held =>
    ⟨held.unique, held.stored, held.written, held.broadcast⟩)
  intro _ _
  apply Promise.maintains_bind
  apply Promise.maintains_weaken _ (Promise.maintains_ensure _ (releaseMutex task)
    (fun s held => ⟨held.unique, held.stored, held.written, held.broadcast⟩)
    (storeNew_maintains config hash task details gasLimit maxFeePerGas _
      fun nonce => fine nonce gasLimit maxFeePerGas gas fee))
  intro signed made
  apply Promise.maintains_weaken _ (broadcastTransaction_maintains signed made.1)
  rintro _ rfl
  refine ⟨gasLimit, maxFeePerGas, _, fee, ?_, made.2⟩
  intro given same
  rw [same, Option.getD_some]

theorem validateMaxNonce_maintains (relayMaxNonce : ℕ) :
    (validateMaxNonce config relayMaxNonce).Maintains (Admits admitted) fun _ => True := by
  apply Promise.maintains_bind
  apply Promise.maintains_weaken _ (pollNonce_maintains _ _)
  intro nonce _
  exact check_maintains _ _ fun _ => trivial

/-! Boosts, within the limit of the fees. -/

section Boosts

variable (lowered : ∀ sender tx fee newFee, admitted sender tx fee → newFee ≤ config.maxMaxFeePerGas →
  admitted sender tx newFee)

theorem resendTransaction_maintains (tx : StoredTransaction) (currentBlock : ShortBlockInfo)
    (newMaxFee newMaxPriorityFee : ℕ) (fine : admitted tx.sender tx.txData newMaxFee) :
    (resendTransaction config hash tx currentBlock newMaxFee newMaxPriorityFee).Maintains (Admits admitted)
      fun _ => True := by
  apply Promise.maintains_bind
  apply Promise.maintains_weaken _ (validateBalance_maintains _ _ _)
  intro _ _
  apply Promise.maintains_bind
  apply Promise.maintains_serve
  intro reply s held
  refine ⟨held, fun signed made => ?_⟩
  obtain ⟨transactionType, made⟩ : ∃ transactionType, signTransaction config tx.sender tx.txData
      (envelope config transactionType newMaxFee newMaxPriorityFee) = .ok signed := by
    cases answered : reply.ok with
    | error message => simp [answered, Except.bind] at made
    | ok _ => exact ⟨s.transactionType, by simpa [answered, Except.bind] using made⟩
  obtain ⟨_, rfl⟩ := signTransaction_ok config _ _ _ signed made
  have allowed : admitted tx.sender tx.txData
      (gasPrices (envelope config transactionType newMaxFee newMaxPriorityFee)).1 := by
    rw [gasPrices_envelope]
    exact fine
  apply Promise.maintains_bind
  apply Promise.maintains_bind
  apply Promise.maintains_ofExcept
  intro storedTx created
  have ready := created_ready hash _ _ storedTx allowed created
  apply Promise.maintains_bind
  apply Promise.maintains_weaken _ (putTx_maintains storedTx true ready.stored)
  intro _ _
  apply Promise.maintains_pure
  apply Promise.maintains_bind
  apply Promise.maintains_weaken _ (ask_maintains _)
  intro _ _
  exact Promise.maintains_weaken _ (broadcastTransaction_maintains _ allowed) fun _ _ => trivial

include lowered in
theorem boostTransactions_maintains (currentBlock : ShortBlockInfo) (newMaxFee newMaxPriorityFee : ℕ)
    (pendingTxs : List StoredTransaction) (capped : newMaxFee ≤ config.maxMaxFeePerGas)
    (fine : ∀ tx ∈ pendingTxs, admitted tx.sender tx.txData tx.maxFeePerGas) :
    (boostTransactions config hash currentBlock newMaxFee newMaxPriorityFee pendingTxs).Maintains (Admits admitted)
      fun _ => True := by
  induction pendingTxs with
  | nil => exact Promise.maintains_pure _ trivial
  | cons transaction rest ih =>
      have own := fine transaction List.mem_cons_self
      have others := ih fun tx member => fine tx (List.mem_cons_of_mem _ member)
      rw [boostTransactions]
      split
      · apply Promise.maintains_bind
        apply Promise.maintains_weaken _ (resendTransaction_maintains config hash transaction currentBlock newMaxFee
          newMaxPriorityFee (lowered _ _ _ _ own capped))
        intro _ _
        apply Promise.maintains_bind
        apply Promise.maintains_weaken _ others
        intro _ _
        exact Promise.maintains_pure _ trivial
      · apply Promise.maintains_bind
        apply Promise.maintains_weaken _ (Promise.maintains_caught _
          (resendTransaction_maintains config hash transaction currentBlock _ _ own))
        intro _ _
        exact others

theorem resolveNewGasPrice_capped (oldMaxFee oldMaxPriorityFee minMaxPriorityFee minMaxFee : ℕ) :
    (resolveNewGasPrice config oldMaxFee oldMaxPriorityFee minMaxPriorityFee minMaxFee).newMaxFee ≤
      config.maxMaxFeePerGas :=
  Nat.min_le_right _ _

include lowered in
theorem boost_maintains (signer : Address) (currentBlock : ShortBlockInfo) (minMaxPriorityFee : ℕ) :
    (boostUnderpricedPendingTransactionsForSigner config hash signer currentBlock minMaxPriorityFee).Maintains
      (Admits admitted) fun _ => True := by
  apply Promise.maintains_bind
  apply Promise.maintains_weaken _ (ask_maintains _)
  intro nonce _
  apply Promise.maintains_bind
  apply readStore_maintains
  intro s held
  have fine : ∀ tx ∈ s.txstore.getTxsInNonceRange signer nonce maxSafeInteger,
      admitted tx.sender tx.txData tx.maxFeePerGas := by
    intro tx member
    have listed := (List.mem_insertionSort _).mp member
    exact held.stored tx (List.mem_filter.mp listed).1
  cases pending : s.txstore.getTxsInNonceRange signer nonce maxSafeInteger with
  | nil => exact Promise.maintains_pure _ trivial
  | cons oldestPendingTx others =>
      rw [pending] at fine
      dsimp only
      split
      · exact Promise.maintains_pure _ trivial
      · split
        · exact Promise.maintains_throw _
        · split
          · exact Promise.maintains_pure _ trivial
          · apply Promise.maintains_bind
            apply Promise.maintains_weaken _ (ask_maintains _)
            intro baseFeePerGas _
            exact boostTransactions_maintains config hash lowered currentBlock _ _ _
              (resolveNewGasPrice_capped config _ _ _ _) fine

end Boosts

theorem fillMinedBlockDetails_maintains (currentBlock : ShortBlockInfo) (transactions : List StoredTransaction)
    (fine : ∀ tx ∈ transactions, admitted tx.sender tx.txData tx.maxFeePerGas) :
    (fillMinedBlockDetails config currentBlock transactions).Maintains (Admits admitted) fun _ => True := by
  induction transactions with
  | nil => exact Promise.maintains_pure _ trivial
  | cons transaction rest ih =>
      have own := fine transaction List.mem_cons_self
      have others := ih fun tx member => fine tx (List.mem_cons_of_mem _ member)
      rw [fillMinedBlockDetails]
      split
      · apply Promise.maintains_bind
        apply Promise.maintains_serve
        intro reply s held
        refine ⟨held, fun receipt _ => ?_⟩
        split
        · split
          · exact others
          · apply Promise.maintains_bind
            apply Promise.maintains_weaken _ (ask_maintains _)
            intro minedBlock _
            apply Promise.maintains_bind
            apply Promise.maintains_weaken _
              (putTx_maintains { transaction with minedBlock := some minedBlock } true own)
            intro _ _
            exact others
        · exact others
      · exact others

theorem archive_maintains (currentBlock : ShortBlockInfo) :
    Promise.Maintains (Admits admitted) (fun _ => True) (do
      fillMinedBlockDetailsForTransactions config currentBlock
      removeArchivedTransactions config currentBlock) := by
  apply Promise.maintains_bind
  apply Promise.maintains_bind
  apply readStore_maintains
  intro s held
  apply Promise.maintains_weaken _ (fillMinedBlockDetails_maintains config currentBlock _ fun tx member =>
    held.stored tx ((List.mem_insertionSort _).mp member))
  intro _ _
  apply writeStore_maintains
  rintro later still next ⟨⟩
  exact ⟨still.unique.filter _, fun tx member => still.stored tx (List.mem_filter.mp member).1, still.written,
    still.broadcast⟩

end OpenGsn.Relay
