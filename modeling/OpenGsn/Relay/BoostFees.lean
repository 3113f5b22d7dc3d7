import OpenGsn.Relay.TransactionManager
import OpenGsn.Async.Alone
import Mathlib.Data.List.Forall2

/-! The fees of the transactions that `boostUnderpricedPendingTransactionsForSigner` replaces. -/

namespace OpenGsn.Relay

open Solidity Async

variable (config : Config) (hash : SignedTransaction → Uint256)

structure Resent (transactionType : TransactionType) (newMaxFee newMaxPriorityFee : ℕ)
    (new old : StoredTransaction) : Prop where
  sender : new.sender = old.sender
  txData : new.txData = old.txData
  fees : (new.maxFeePerGas, new.maxPriorityFeePerGas) =
    gasPrices (envelope config transactionType newMaxFee newMaxPriorityFee)

def WritesOne (holds : StoredTransaction → Prop) (s later : State) : Prop :=
  later.transactionType = s.transactionType ∧
    (later.txstore.written = s.txstore.written ∨
      ∃ new, later.txstore.written = s.txstore.written ++ [new] ∧ holds new)

theorem writesOne_same (holds : StoredTransaction → Prop) (s : State) : WritesOne holds s s :=
  ⟨rfl, .inl rfl⟩

theorem ask_same {α : Type} (read : Reply → Except String α) (s : State) :
    Proc.Alone (fun _ later => s = later) (ask read) s := by
  rw [ask, Promise.alone_serve]
  exact fun _ => rfl

theorem validateBalance_same (signer : Address) (maxFeePerGas gasLimit : ℕ) (s : State) :
    Proc.Alone (fun _ later => s = later) (validateBalance signer maxFeePerGas gasLimit) s := by
  refine Promise.alone_seq _ _ s (ask_same _ s) (fun _ _ same => same) ?_
  rintro balance later rfl
  exact rfl

theorem onStore_alone {α : Type} (act : TxStore → Except String (α × TxStore))
    (post : Except String α → State → Prop) (s : State) (fails : ∀ message, post (.error message) s)
    (succeeds : ∀ value next, act s.txstore = .ok (value, next) →
      post (.ok value) { s with txstore := next }) :
    Proc.Alone post (onStore act) s := by
  rw [onStore, Promise.alone_serve]
  intro reply
  cases reply.ok with
  | error message => exact fails message
  | ok _ =>
      cases acted : act s.txstore with
      | error message => exact fails message
      | ok made => exact succeeds made.1 made.2 acted

theorem readStore_same {α : Type} (read : TxStore → α) (s : State) :
    Proc.Alone (fun result later => s = later ∧ ∀ value, result = .ok value → value = read s.txstore)
      (readStore read) s := by
  refine onStore_alone _ _ s (fun _ => ⟨rfl, fun _ failed => nomatch failed⟩) ?_
  rintro value next ⟨⟩
  exact ⟨rfl, fun _ same => (Except.ok.inj same).symm⟩

theorem writeStore_writes (write : TxStore → Except String TxStore) (holds : StoredTransaction → Prop)
    (s : State) (writes : ∀ next, write s.txstore = .ok next → next.written = s.txstore.written ∨
      ∃ new, next.written = s.txstore.written ++ [new] ∧ holds new) :
    Proc.Alone (fun _ later => WritesOne holds s later) (writeStore write) s := by
  refine onStore_alone _ _ s (fun _ => writesOne_same holds s) ?_
  intro value next acted
  refine ⟨rfl, writes next ?_⟩
  cases written : write s.txstore with
  | error message => simp [written, Except.map] at acted
  | ok other =>
      simp only [written, Except.map, Except.ok.injEq, Prod.mk.injEq] at acted
      rw [acted.2]

theorem putTx_writes (tx : StoredTransaction) (holds : StoredTransaction → Prop) (s : State)
    (written : ∀ boostBlock, holds { tx with boostBlock := boostBlock }) :
    Proc.Alone (fun _ later => WritesOne holds s later) (putTx tx true) s := by
  have silent := writesOne_same holds s
  have checked : Proc.Alone (fun _ later => s = later) (check (tx.attempts ≠ 0) "Invalid tx") s := rfl
  refine Promise.alone_seq _ _ s checked (fun _ _ same => same ▸ silent) ?_
  rintro _ later rfl
  refine Promise.alone_seq _ _ s (readStore_same _ s) (fun _ _ same => same.1 ▸ silent) ?_
  rintro found later ⟨rfl, _⟩
  cases found with
  | none =>
      apply writeStore_writes
      intro next inserted
      unfold TxStore.insert at inserted
      split at inserted
      · cases inserted
      · cases inserted
        exact .inr ⟨tx, rfl, written tx.boostBlock⟩
  | some existing =>
      apply writeStore_writes
      intro next updated
      unfold TxStore.update at updated
      split at updated
      · cases updated
        exact .inl rfl
      · split at updated
        · cases updated
        · cases updated
          exact .inr ⟨_, rfl, written _⟩

theorem signAgain_signs (tx : StoredTransaction) (newMaxFee newMaxPriorityFee : ℕ) (s : State) :
    Proc.Alone (fun result later => s = later ∧ ∀ signed, result = .ok signed →
        signed = ⟨tx.sender, tx.txData, envelope config s.transactionType newMaxFee newMaxPriorityFee⟩)
      (signAgain config tx newMaxFee newMaxPriorityFee) s := by
  rw [signAgain, Promise.alone_serve]
  intro reply
  refine ⟨rfl, fun signed made => ?_⟩
  cases answered : reply.ok with
  | error message => simp [answered, Except.bind] at made
  | ok _ =>
      simp only [answered, Except.bind] at made
      exact (signTransaction_ok config _ _ _ signed made).2.symm

theorem updateTransactionWithAttempt_writes (tx : StoredTransaction) (currentBlock : ShortBlockInfo)
    (newMaxFee newMaxPriorityFee : ℕ) (transactionType : TransactionType) (s : State) :
    Proc.Alone
      (fun _ later => WritesOne (Resent config transactionType newMaxFee newMaxPriorityFee · tx) s later)
      (updateTransactionWithAttempt hash
        ⟨tx.sender, tx.txData, envelope config transactionType newMaxFee newMaxPriorityFee⟩ tx currentBlock)
      s := by
  rw [updateTransactionWithAttempt, createStoredTransaction, Promise.alone_bind, Promise.alone_ofExcept]
  refine Promise.alone_seq _ _ s (putTx_writes _ _ s fun boostBlock => ?_) (fun _ _ wrote => wrote)
    (fun _ _ wrote => wrote)
  exact ⟨rfl, rfl, rfl⟩

/-- A transaction that is sent again is stored once at most, with the fees it was given. -/
theorem resendTransaction_writes (tx : StoredTransaction) (currentBlock : ShortBlockInfo)
    (newMaxFee newMaxPriorityFee : ℕ) (s : State) :
    Proc.Alone
      (fun _ later => WritesOne (Resent config s.transactionType newMaxFee newMaxPriorityFee · tx) s later)
      (resendTransaction config hash tx currentBlock newMaxFee newMaxPriorityFee) s := by
  have silent := writesOne_same (Resent config s.transactionType newMaxFee newMaxPriorityFee · tx) s
  refine Promise.alone_seq _ _ s (validateBalance_same _ _ _ s) (fun _ _ same => same ▸ silent) ?_
  rintro _ later rfl
  refine Promise.alone_seq _ _ s (signAgain_signs config tx newMaxFee newMaxPriorityFee s)
    (fun _ _ same => same.1 ▸ silent) ?_
  rintro signed later ⟨rfl, signature⟩
  obtain rfl := signature signed rfl
  refine Promise.alone_seq _ _ s (updateTransactionWithAttempt_writes config hash tx currentBlock newMaxFee
    newMaxPriorityFee s.transactionType s) (fun _ _ wrote => wrote) ?_
  intro _ stored wrote
  refine Promise.alone_seq _ _ stored (ask_same _ stored) (fun _ _ same => same ▸ wrote) ?_
  rintro _ later rfl
  rw [broadcastTransaction, Promise.alone_serve]
  exact fun _ => wrote

def Boosted (transactionType : TransactionType) (newMaxFee newMaxPriorityFee : ℕ)
    (new old : StoredTransaction) : Prop :=
  if old.maxFeePerGas < newMaxFee ∨ old.maxPriorityFeePerGas < newMaxPriorityFee then
    Resent config transactionType newMaxFee newMaxPriorityFee new old
  else
    Resent config transactionType old.maxFeePerGas old.maxPriorityFeePerGas new old

def Replaced (transactionType : TransactionType) (newMaxFee newMaxPriorityFee : ℕ)
    (pendingTxs : List StoredTransaction) (s later : State) : Prop :=
  later.transactionType = s.transactionType ∧
    ∃ made, later.txstore.written = s.txstore.written ++ made ∧
      List.SublistForall₂ (Boosted config transactionType newMaxFee newMaxPriorityFee) made pendingTxs

theorem replaced_none (transactionType : TransactionType) (newMaxFee newMaxPriorityFee : ℕ)
    (pendingTxs : List StoredTransaction) (s : State) :
    Replaced config transactionType newMaxFee newMaxPriorityFee pendingTxs s s :=
  ⟨rfl, [], (List.append_nil _).symm, .nil⟩

theorem replaced_cons (transactionType : TransactionType) (newMaxFee newMaxPriorityFee : ℕ)
    (transaction : StoredTransaction) (rest : List StoredTransaction) (s middle later : State)
    (first : WritesOne (Boosted config transactionType newMaxFee newMaxPriorityFee · transaction) s middle)
    (others : Replaced config transactionType newMaxFee newMaxPriorityFee rest middle later) :
    Replaced config transactionType newMaxFee newMaxPriorityFee (transaction :: rest) s later := by
  obtain ⟨type, made, written, replaced⟩ := others
  refine ⟨type.trans first.1, ?_⟩
  rcases first.2 with same | ⟨new, wrote, boosted⟩
  · exact ⟨made, by rw [written, same], .cons_right replaced⟩
  · exact ⟨new :: made, by rw [written, wrote, List.append_assoc]; rfl, .cons boosted replaced⟩

theorem boostTransactions_replaces (currentBlock : ShortBlockInfo) (newMaxFee newMaxPriorityFee : ℕ)
    (pendingTxs : List StoredTransaction) (s : State) :
    Proc.Alone
      (fun _ later => Replaced config s.transactionType newMaxFee newMaxPriorityFee pendingTxs s later)
      (boostTransactions config hash currentBlock newMaxFee newMaxPriorityFee pendingTxs) s := by
  induction pendingTxs generalizing s with
  | nil => exact replaced_none config _ newMaxFee newMaxPriorityFee [] s
  | cons transaction rest ih =>
      have alone : ∀ middle, WritesOne
          (Boosted config s.transactionType newMaxFee newMaxPriorityFee · transaction) s middle →
          Replaced config s.transactionType newMaxFee newMaxPriorityFee (transaction :: rest) s middle :=
        fun middle first => replaced_cons config _ newMaxFee newMaxPriorityFee transaction rest s middle middle
          first (replaced_none config _ newMaxFee newMaxPriorityFee rest middle)
      have onward : ∀ middle, WritesOne
          (Boosted config s.transactionType newMaxFee newMaxPriorityFee · transaction) s middle →
          Proc.Alone (fun _ later =>
            Replaced config s.transactionType newMaxFee newMaxPriorityFee (transaction :: rest) s later)
            (boostTransactions config hash currentBlock newMaxFee newMaxPriorityFee rest) middle := by
        intro middle first
        have others := ih middle
        rw [first.1] at others
        exact Proc.alone_weaken _ _ _ (fun _ later => replaced_cons config _ newMaxFee newMaxPriorityFee
          transaction rest s middle later first) others
      rw [boostTransactions]
      split
      · rename_i underpriced
        have first := resendTransaction_writes config hash transaction currentBlock newMaxFee
          newMaxPriorityFee s
        have boosted : (Boosted config s.transactionType newMaxFee newMaxPriorityFee · transaction) =
            (Resent config s.transactionType newMaxFee newMaxPriorityFee · transaction) :=
          funext fun new => if_pos underpriced
        rw [← boosted] at first
        refine Promise.alone_seq _ _ s first (fun _ middle wrote => alone middle wrote) ?_
        intro signed middle wrote
        exact Promise.alone_seq _ _ middle (onward middle wrote) (fun _ _ done => done) fun _ _ done => done
      · rename_i paid
        have first := resendTransaction_writes config hash transaction currentBlock transaction.maxFeePerGas
          transaction.maxPriorityFeePerGas s
        have boosted : (Boosted config s.transactionType newMaxFee newMaxPriorityFee · transaction) =
            (Resent config s.transactionType transaction.maxFeePerGas transaction.maxPriorityFeePerGas ·
              transaction) :=
          funext fun new => if_neg paid
        rw [← boosted] at first
        have again : Proc.Alone
            (fun _ middle => WritesOne
              (Boosted config s.transactionType newMaxFee newMaxPriorityFee · transaction) s middle)
            (Promise.caught (resendTransaction config hash transaction currentBlock transaction.maxFeePerGas
              transaction.maxPriorityFeePerGas)) s := Promise.alone_caught _ s first
        refine Promise.alone_seq _ _ s again (fun _ middle wrote => alone middle wrote) ?_
        exact fun _ middle wrote => onward middle wrote

/-! What the fees are in the terms of the inputs. -/

def Reply.count (reply : Reply) : ℕ :=
  match reply.asNumber with
  | .ok n => n
  | .error _ => 0

def boostedMaxFee (baseFeePerGas : ℕ) (oldest : StoredTransaction) : ℕ :=
  min (max (config.retried oldest.maxFeePerGas) baseFeePerGas) config.maxMaxFeePerGas

def boostedMaxPriorityFee (minMaxPriorityFee baseFeePerGas : ℕ) (oldest : StoredTransaction) : ℕ :=
  min (max (config.retried oldest.maxPriorityFeePerGas) minMaxPriorityFee)
    (boostedMaxFee config baseFeePerGas oldest)

/-- Neither of the fees is below the other pair's while the other is above. A legacy transaction
has one price for both. -/
def Comparable (transactionType : TransactionType) (newMaxFee newMaxPriorityFee : ℕ)
    (old : StoredTransaction) : Prop :=
  match transactionType with
  | .typeTwo =>
      (newMaxFee ≤ old.maxFeePerGas ∧ newMaxPriorityFee ≤ old.maxPriorityFeePerGas) ∨
        (old.maxFeePerGas ≤ newMaxFee ∧ old.maxPriorityFeePerGas ≤ newMaxPriorityFee)
  | .legacy =>
      if newMaxFee ≤ old.maxFeePerGas ∧ newMaxPriorityFee ≤ old.maxPriorityFeePerGas then
        old.maxPriorityFeePerGas ≤ old.maxFeePerGas
      else
        old.maxFeePerGas ≤ newMaxFee ∧ old.maxPriorityFeePerGas ≤ newMaxFee

def NotLowered (new old : StoredTransaction) : Prop :=
  old.maxFeePerGas ≤ new.maxFeePerGas ∧ old.maxPriorityFeePerGas ≤ new.maxPriorityFeePerGas

def Replaces (new old : StoredTransaction) : Prop := new.sender = old.sender ∧ new.txData = old.txData

theorem boosted_notLowered_iff (transactionType : TransactionType) (newMaxFee newMaxPriorityFee : ℕ)
    (new old : StoredTransaction)
    (boosted : Boosted config transactionType newMaxFee newMaxPriorityFee new old) :
    Replaces new old ∧
      (NotLowered new old ↔ Comparable transactionType newMaxFee newMaxPriorityFee old) := by
  unfold Boosted at boosted
  split at boosted
  · rename_i underpriced
    obtain ⟨sender, txData, fees⟩ := boosted
    have prices := Prod.mk.inj fees
    refine ⟨⟨sender, txData⟩, ?_⟩
    cases transactionType with
    | legacy =>
        have below : ¬ (newMaxFee ≤ old.maxFeePerGas ∧ newMaxPriorityFee ≤ old.maxPriorityFeePerGas) := by
          omega
        rw [NotLowered, prices.1, prices.2, Comparable, if_neg below]
        rfl
    | typeTwo =>
        rw [NotLowered, prices.1, prices.2, Comparable]
        simp only [envelope]
        omega
  · rename_i paid
    obtain ⟨sender, txData, fees⟩ := boosted
    have prices := Prod.mk.inj fees
    refine ⟨⟨sender, txData⟩, ?_⟩
    cases transactionType with
    | legacy =>
        have above : newMaxFee ≤ old.maxFeePerGas ∧ newMaxPriorityFee ≤ old.maxPriorityFeePerGas := by
          omega
        rw [NotLowered, prices.1, prices.2, Comparable, if_pos above]
        simp [envelope]
    | typeTwo =>
        rw [NotLowered, prices.1, prices.2, Comparable]
        simp only [envelope]
        omega

theorem sublistForall₂_imp {α β : Type} {stronger weaker : α → β → Prop}
    (implied : ∀ new old, stronger new old → weaker new old) (news : List α) (olds : List β)
    (related : List.SublistForall₂ stronger news olds) : List.SublistForall₂ weaker news olds := by
  induction related with
  | nil => exact .nil
  | cons head _ ih => exact .cons (implied _ _ head) ih
  | cons_right _ ih => exact .cons_right ih

def pendingOf (s : State) (signer : Address) (replies : ℕ → Reply) : List StoredTransaction :=
  s.txstore.getTxsInNonceRange signer (replies 0).count maxSafeInteger

theorem boost_replaces (signer : Address) (currentBlock : ShortBlockInfo) (minMaxPriorityFee : ℕ)
    (s final : State) (replies : ℕ → Reply) (result : Except String (List (Uint256 × SignedTransaction)))
    (ran : Proc.finish replies 0
      (boostUnderpricedPendingTransactionsForSigner config hash signer currentBlock minMaxPriorityFee) s =
        some (result, final)) :
    final.txstore.written = s.txstore.written ∨
      ∃ oldest ∈ (pendingOf s signer replies).head?,
        Replaced config s.transactionType (boostedMaxFee config (replies 2).count oldest)
          (boostedMaxPriorityFee config minMaxPriorityFee (replies 2).count oldest)
          (pendingOf s signer replies) s final := by
  rw [boostUnderpricedPendingTransactionsForSigner, ask, Promise.finish_serve] at ran
  cases counted : (replies 0).asNumber with
  | error message =>
      rw [counted] at ran
      cases ran
      exact .inl rfl
  | ok nonce =>
      have pending : pendingOf s signer replies =
          s.txstore.getTxsInNonceRange signer nonce maxSafeInteger := by
        rw [pendingOf, Reply.count, counted]
      rw [counted, Promise.thenFinish, readStore, onStore, Promise.finish_serve] at ran
      rw [pending]
      cases read : (replies 1).ok with
      | error message =>
          simp only [read, Promise.thenFinish] at ran
          cases ran
          exact .inl rfl
      | ok _ =>
          simp only [read, Promise.thenFinish] at ran
          cases listed : s.txstore.getTxsInNonceRange signer nonce maxSafeInteger with
          | nil =>
              rw [listed] at ran
              cases ran
              exact .inl rfl
          | cons oldest rest =>
              rw [listed] at ran
              dsimp only at ran
              by_cases used : oldest.nonce < nonce
              · rw [if_pos used] at ran
                cases ran
                exact .inl rfl
              rw [if_neg used] at ran
              by_cases missing : nonce ≠ oldest.nonce
              · rw [if_pos missing] at ran
                cases ran
                exact .inl rfl
              rw [if_neg missing] at ran
              by_cases recent : (currentBlock.timestamp : ℤ) -
                  (oldest.boostBlock.getD oldest.creationBlock).timestamp < config.pendingTransactionTimeoutSeconds
              · rw [if_pos recent] at ran
                cases ran
                exact .inl rfl
              rw [if_neg recent, Promise.finish_serve] at ran
              cases based : (replies 2).asNumber with
              | error message =>
                  rw [based] at ran
                  cases ran
                  exact .inl rfl
              | ok baseFeePerGas =>
                  rw [based] at ran
                  have boosts := boostTransactions_replaces config hash currentBlock
                    (boostedMaxFee config baseFeePerGas oldest)
                    (boostedMaxPriorityFee config minMaxPriorityFee baseFeePerGas oldest) (oldest :: rest) s
                  have count : (replies 2).count = baseFeePerGas := by rw [Reply.count, based]
                  rw [count]
                  exact .inr ⟨oldest, rfl, Proc.alone_finish _ replies _ 3 s final result boosts ran⟩

/-- A replacement is at least as attractive as the transaction in the mempool exactly when the new
fees can be compared with the old ones. -/
theorem boost_never_lowers_iff (signer : Address) (currentBlock : ShortBlockInfo) (minMaxPriorityFee : ℕ)
    (s final : State) (replies : ℕ → Reply) (result : Except String (List (Uint256 × SignedTransaction)))
    (ran : Proc.finish replies 0
      (boostUnderpricedPendingTransactionsForSigner config hash signer currentBlock minMaxPriorityFee) s =
        some (result, final)) :
    ∃ made, final.txstore.written = s.txstore.written ++ made ∧
      List.SublistForall₂ (fun new old => Replaces new old ∧
        (NotLowered new old ↔ ∀ oldest ∈ (pendingOf s signer replies).head?,
          Comparable s.transactionType (boostedMaxFee config (replies 2).count oldest)
            (boostedMaxPriorityFee config minMaxPriorityFee (replies 2).count oldest) old))
        made (pendingOf s signer replies) := by
  rcases boost_replaces config hash signer currentBlock minMaxPriorityFee s final replies result ran with
    same | ⟨oldest, first, -, made, written, replaced⟩
  · exact ⟨[], by rw [same, List.append_nil], .nil⟩
  · refine ⟨made, written, sublistForall₂_imp ?_ made _ replaced⟩
    intro new old boosted
    have compared := boosted_notLowered_iff config s.transactionType _ _ new old boosted
    refine ⟨compared.1, compared.2.trans ⟨fun comparable other found => ?_, fun all => all oldest first⟩⟩
    obtain rfl := Option.mem_unique first found
    exact comparable

/-! The oldest transaction pays a large tip and the next one a large fee. -/

def boostConfig : Config where
  managerAddress := 21
  workerAddress := 22
  chainId := 1
  retried := fun fee => (fee * 12 + 5) / 10
  maxMaxFeePerGas := 1000
  pendingTransactionTimeoutSeconds := 30
  dbPruneTxAfterBlocks := 12
  dbPruneTxAfterSeconds := 3600

def boostHash (signed : SignedTransaction) : Uint256 :=
  Fin.ofNat _ (signed.tx.nonce * 2 ^ 64 + (gasPrices signed.envelope).1 * 2 ^ 32 +
    (gasPrices signed.envelope).2)

def pendingTx (nonce : ℕ) (maxFeePerGas maxPriorityFeePerGas : ℕ) : StoredTransaction where
  attempts := 1
  serverAction := .relayCall
  creationBlock := ⟨0, 10, 150⟩
  boostBlock := none
  minedBlock := none
  sender := 22
  recipient := 23
  gas := 100000
  maxFeePerGas := maxFeePerGas
  maxPriorityFeePerGas := maxPriorityFeePerGas
  data := []
  nonce := nonce
  txId := Fin.ofNat _ nonce
  value := 0

def boostStart : State where
  nonces := fun _ => 2
  nonceMutex := none
  transactionType := .typeTwo
  txstore := ⟨[pendingTx 0 100 2, pendingTx 1 200 1], []⟩
  mined := fun _ => 0
  broadcasts := []
  claims := []

def boostReplies : ℕ → Reply
  | 0 => .number 0
  | 2 => .number 10
  | _ => .number (10 ^ 12)

def boostRun : Option (Except String (List (Uint256 × SignedTransaction)) × State) :=
  Proc.finish boostReplies 0
    (boostUnderpricedPendingTransactionsForSigner boostConfig boostHash 22 ⟨0, 20, 300⟩ 1) boostStart

theorem boost_never_lowers_iff_run :
    ∃ result final, boostRun = some (result, final) ∧
      ∃ made, final.txstore.written = boostStart.txstore.written ++ made ∧
        List.SublistForall₂ (fun new old => Replaces new old ∧
          (NotLowered new old ↔ ∀ oldest ∈ (pendingOf boostStart 22 boostReplies).head?,
            Comparable boostStart.transactionType
              (boostedMaxFee boostConfig (boostReplies 2).count oldest)
              (boostedMaxPriorityFee boostConfig 1 (boostReplies 2).count oldest) old))
          made (pendingOf boostStart 22 boostReplies) := by
  have ended : boostRun.isSome = true := by decide +kernel
  cases ran : boostRun with
  | none =>
      rw [ran] at ended
      cases ended
  | some ended =>
      exact ⟨ended.1, ended.2, rfl, boost_never_lowers_iff boostConfig boostHash 22 ⟨0, 20, 300⟩ 1 boostStart
        ended.2 boostReplies ended.1 ran⟩

instance (new old : StoredTransaction) : Decidable (NotLowered new old) := inferInstanceAs (Decidable (_ ∧ _))

instance (new old : StoredTransaction) : Decidable (Replaces new old) := inferInstanceAs (Decidable (_ ∧ _))

/-- The second transaction pays 200 per gas, and 120 once it is boosted. -/
theorem boost_lowers_fee :
    ∃ ended ∈ boostRun, ∃ new ∈ ended.2.txstore.written, ∃ old ∈ pendingOf boostStart 22 boostReplies,
      Replaces new old ∧ (old.maxFeePerGas, new.maxFeePerGas) = (200, 120) ∧ ¬ NotLowered new old := by
  decide +kernel

end OpenGsn.Relay
