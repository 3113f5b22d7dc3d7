import OpenGsn.Relay.Archive
import OpenGsn.Relay.NonceSafety
import OpenGsn.Runs
import Mathlib.Data.List.Pairwise

/-! Which transactions are forgotten. -/

namespace OpenGsn.Relay

open Solidity

/-! The indexes of the store -/

namespace TxStore

def Unique (store : TxStore) : Prop := store.transactions.Pairwise fun tx other => ¬ Conflict tx other

theorem unique_eq (store : TxStore) (unique : store.Unique) (tx other : StoredTransaction)
    (first : tx ∈ store.transactions) (second : other ∈ store.transactions) (conflict : Conflict tx other) :
    tx = other := by
  by_contra apart
  have symmetric : Std.Symm fun tx other : StoredTransaction => ¬ Conflict tx other :=
    ⟨fun tx other free conflict => free (conflict.imp Eq.symm Eq.symm)⟩
  exact unique.forall first second apart conflict

theorem insert_unique (store next : TxStore) (tx : StoredTransaction) (unique : store.Unique)
    (inserted : store.insert tx = .ok next) :
    next.transactions = store.transactions ++ [tx] ∧ next.Unique := by
  unfold insert at inserted
  split at inserted
  · cases inserted
  · rename_i free
    obtain rfl := Except.ok.inj inserted
    refine ⟨rfl, List.pairwise_append.mpr ⟨unique, List.pairwise_singleton _ _, ?_⟩⟩
    intro other member new same conflict
    rw [List.mem_singleton.mp same] at conflict
    exact free ⟨other, member, conflict.imp Eq.symm Eq.symm⟩

theorem update_cases (store next : TxStore) (txId : Uint256) (tx : StoredTransaction)
    (updated : store.update txId tx = .ok next) :
    (next = store ∧ ∀ other ∈ store.transactions, other.txId ≠ txId) ∨
      ∃ current, (∀ other ∈ store.transactions, other.txId ≠ txId → ¬ Conflict tx other) ∧
        next.transactions =
          store.transactions.map fun other => if other.txId = txId then merged tx current else other := by
  unfold update at updated
  cases found : store.transactions.find? (fun current => current.txId = txId) with
  | none =>
      simp only [found, Except.ok.injEq] at updated
      exact .inl ⟨updated.symm, by simpa using List.find?_eq_none.mp found⟩
  | some current =>
      simp only [found] at updated
      split at updated
      · cases updated
      · rename_i free
        obtain rfl := Except.ok.inj updated
        exact .inr ⟨current, fun other member apart conflict => free ⟨other, member, apart, conflict⟩, rfl⟩

theorem update_unique (store next : TxStore) (txId : Uint256) (tx : StoredTransaction) (unique : store.Unique)
    (updated : store.update txId tx = .ok next) : next.Unique := by
  rcases update_cases store next txId tx updated with ⟨rfl, _⟩ | ⟨current, free, transactions⟩
  · exact unique
  · rw [Unique, transactions, List.pairwise_map]
    refine List.Pairwise.imp_of_mem ?_ unique
    intro first second firstMember secondMember apart
    by_cases one : first.txId = txId <;> by_cases two : second.txId = txId
    · exact absurd (.inl (two.trans one.symm)) apart
    · rw [if_pos one, if_neg two]
      exact free second secondMember two
    · rw [if_neg one, if_pos two]
      exact fun conflict => free first firstMember one (conflict.imp Eq.symm Eq.symm)
    · rw [if_neg one, if_neg two]
      exact apart

theorem update_mem (store next : TxStore) (txId : Uint256) (tx other : StoredTransaction)
    (updated : store.update txId tx = .ok next) (member : other ∈ next.transactions) :
    other ∈ store.transactions ∧ other.txId ≠ txId ∨ other.txId = tx.txId ∧ other.minedBlock = tx.minedBlock := by
  rcases update_cases store next txId tx updated with ⟨rfl, absent⟩ | ⟨current, _, transactions⟩
  · exact .inl ⟨member, absent other member⟩
  · rw [transactions] at member
    obtain ⟨old, listed, rfl⟩ := List.mem_map.mp member
    by_cases same : old.txId = txId
    · rw [if_pos same]
      exact .inr ⟨rfl, rfl⟩
    · rw [if_neg same]
      exact .inl ⟨listed, same⟩

theorem update_kept (store next : TxStore) (txId : Uint256) (tx other : StoredTransaction)
    (updated : store.update txId tx = .ok next) (member : other ∈ store.transactions)
    (apart : other.txId ≠ txId) : other ∈ next.transactions := by
  rcases update_cases store next txId tx updated with ⟨rfl, _⟩ | ⟨current, _, transactions⟩
  · exact member
  · rw [transactions]
    exact List.mem_map.mpr ⟨other, member, if_neg apart⟩

theorem findOne_eq (store : TxStore) (unique : store.Unique) (tx : StoredTransaction) (key : Address × ℕ)
    (member : tx ∈ store.transactions) (same : tx.nonceSigner = key) : store.findOne key = some tx := by
  cases found : store.findOne key with
  | none =>
      have absent := List.find?_eq_none.mp found tx member
      exact absurd same (by simpa using absent)
  | some other =>
      have listed := List.mem_of_find?_eq_some found
      have matched : other.nonceSigner = key := by simpa using List.find?_some found
      exact congrArg some (unique_eq store unique other tx listed member (.inr (same.trans matched.symm)))

end TxStore

namespace Archive

variable (config : Config)

/-- The node named a block for the transaction, old enough at the current one. -/
def Confirmed (currentBlock : ShortBlockInfo) (reports : List (Uint256 × ℕ)) (tx : StoredTransaction) : Prop :=
  ∃ report ∈ reports, report.1 = tx.txId ∧ (report.2 : ℤ) ≤ upToBlockNumber config currentBlock

instance (currentBlock : ShortBlockInfo) (reports : List (Uint256 × ℕ)) (tx : StoredTransaction) :
    Decidable (Confirmed config currentBlock reports tx) :=
  inferInstanceAs (Decidable (∃ report ∈ reports, _))

def OnlyConfirmedRemoved (w : Archive) : Prop :=
  ∀ removal ∈ w.removals, Confirmed config removal.currentBlock removal.reports removal.tx

instance (w : Archive) : Decidable (OnlyConfirmedRemoved config w) :=
  inferInstanceAs (Decidable (∀ removal ∈ w.removals, _))

/-- A transaction that is due for removal has a block in the answer of the node. -/
def DueNamed (w : Archive) (event : Event) : Prop :=
  match w.phase, event with
  | .asking currentBlock transaction _, .resume (.receipt receipt) =>
      Due config currentBlock transaction → receipt.join.isSome = true
  | _, _ => True

instance (w : Archive) (event : Event) : Decidable (DueNamed config w event) := by
  unfold DueNamed
  split <;> infer_instance

def BlockAsked (w : Archive) (event : Event) : Prop :=
  match w.phase, event with
  | .fetching _ _ blockNumber _, .resume (.block minedBlock) => minedBlock.number = blockNumber
  | _, _ => True

instance (w : Archive) (event : Event) : Decidable (BlockAsked w event) := by
  unfold BlockAsked
  split <;> infer_instance

/-! What holds while a pass goes through the records -/

structure Pending (currentBlock : ShortBlockInfo) (todo : List StoredTransaction) (store : TxStore)
    (reports : List (Uint256 × ℕ)) : Prop where
  listed : ∀ tx ∈ todo, tx ∈ store.transactions
  distinct : todo.Nodup
  covered : ∀ tx ∈ store.transactions, Due config currentBlock tx →
    tx ∈ todo ∨ Confirmed config currentBlock reports tx

structure Rewritten (transaction tx : StoredTransaction) (reports : List (Uint256 × ℕ)) : Prop where
  txId : tx.txId = transaction.txId
  key : transaction.nonceSigner = tx.nonceSigner
  reported : ∃ minedBlock, tx.minedBlock = some minedBlock ∧ (tx.txId, minedBlock.number) ∈ reports

def Waiting (store : TxStore) (reports : List (Uint256 × ℕ)) : Phase → Prop
  | .idle => True
  | .loading _ => True
  | .asking currentBlock transaction rest =>
      shouldRecheck config currentBlock transaction = true ∧
        Pending config currentBlock (transaction :: rest) store reports
  | .fetching currentBlock transaction blockNumber rest =>
      (transaction.txId, blockNumber) ∈ reports ∧
        Pending config currentBlock (transaction :: rest) store reports
  | .finding currentBlock tx rest =>
      ∃ transaction, Rewritten transaction tx reports ∧
        Pending config currentBlock (transaction :: rest) store reports
  | .writing currentBlock tx existing rest =>
      ∃ transaction, existing = some transaction ∧ Rewritten transaction tx reports ∧
        Pending config currentBlock (transaction :: rest) store reports
  | .removing currentBlock => Pending config currentBlock [] store reports

structure Kept (w : Archive) : Prop where
  unique : w.txstore.Unique
  waiting : Waiting config w.txstore w.reports w.phase
  removed : OnlyConfirmedRemoved config w

theorem due_recheck (currentBlock : ShortBlockInfo) (tx : StoredTransaction) (due : Due config currentBlock tx) :
    shouldRecheck config currentBlock tx = true := by
  obtain ⟨minedBlock, mined, old, _⟩ := due
  rw [Option.mem_def] at mined
  rw [upToBlockNumber] at old
  simp only [shouldRecheck, mined, decide_eq_true_eq]
  omega

theorem pending_tail (currentBlock : ShortBlockInfo) (transaction : StoredTransaction)
    (rest : List StoredTransaction) (store : TxStore) (reports : List (Uint256 × ℕ))
    (pending : Pending config currentBlock (transaction :: rest) store reports)
    (confirmed : Due config currentBlock transaction → Confirmed config currentBlock reports transaction) :
    Pending config currentBlock rest store reports := by
  obtain ⟨listed, distinct, covered⟩ := pending
  refine ⟨fun tx member => listed tx (List.mem_cons_of_mem _ member), (List.nodup_cons.mp distinct).2, ?_⟩
  intro tx member due
  rcases covered tx member due with todo | done
  · rcases List.mem_cons.mp todo with rfl | later
    · exact .inr (confirmed due)
    · exact .inl later
  · exact .inr done

theorem pending_reported (currentBlock : ShortBlockInfo) (todo : List StoredTransaction) (store : TxStore)
    (reports : List (Uint256 × ℕ)) (report : Uint256 × ℕ)
    (pending : Pending config currentBlock todo store reports) :
    Pending config currentBlock todo store (report :: reports) := by
  obtain ⟨listed, distinct, covered⟩ := pending
  refine ⟨listed, distinct, ?_⟩
  intro tx member due
  rcases covered tx member due with todo | ⟨old, known, names⟩
  · exact .inl todo
  · exact .inr ⟨old, List.mem_cons_of_mem _ known, names⟩

theorem waiting_advance (currentBlock : ShortBlockInfo) (todo : List StoredTransaction) (store : TxStore)
    (reports : List (Uint256 × ℕ)) (pending : Pending config currentBlock todo store reports) :
    Waiting config store reports (advance config currentBlock todo) := by
  induction todo with
  | nil => exact pending
  | cons transaction rest ih =>
      by_cases recheck : shouldRecheck config currentBlock transaction = true
      · rw [advance, if_pos recheck]
        exact ⟨recheck, pending⟩
      · rw [advance, if_neg recheck]
        exact ih (pending_tail config currentBlock transaction rest store reports pending
          fun due => absurd (due_recheck config currentBlock transaction due) recheck)

theorem pending_all (currentBlock : ShortBlockInfo) (store : TxStore) (reports : List (Uint256 × ℕ))
    (unique : store.Unique) : Pending config currentBlock store.getAll store reports := by
  have same := List.perm_insertionSort (fun tx1 tx2 : StoredTransaction => tx1.nonce ≤ tx2.nonce)
    store.transactions
  refine ⟨fun tx member => same.mem_iff.mp member, same.nodup_iff.mpr ?_,
    fun tx member _ => .inl (same.mem_iff.mpr member)⟩
  refine unique.imp ?_
  rintro tx other free rfl
  exact free (.inl rfl)

theorem pending_sent (currentBlock : ShortBlockInfo) (todo : List StoredTransaction) (store next : TxStore)
    (reports : List (Uint256 × ℕ)) (tx : StoredTransaction) (unmined : tx.minedBlock = none)
    (transactions : next.transactions = store.transactions ++ [tx])
    (pending : Pending config currentBlock todo store reports) :
    Pending config currentBlock todo next reports := by
  obtain ⟨listed, distinct, covered⟩ := pending
  refine ⟨?_, distinct, ?_⟩
  · intro other member
    simp [transactions, listed other member]
  · intro other member due
    simp only [transactions, List.mem_append, List.mem_singleton] at member
    rcases member with old | rfl
    · exact covered other old due
    · obtain ⟨minedBlock, mined, _⟩ := due
      rw [unmined] at mined
      cases mined

theorem waiting_sent (phase : Phase) (store next : TxStore) (reports : List (Uint256 × ℕ))
    (tx : StoredTransaction) (unmined : tx.minedBlock = none)
    (transactions : next.transactions = store.transactions ++ [tx])
    (waiting : Waiting config store reports phase) : Waiting config next reports phase := by
  have stays : ∀ currentBlock todo, Pending config currentBlock todo store reports →
      Pending config currentBlock todo next reports := fun currentBlock todo =>
    pending_sent config currentBlock todo store next reports tx unmined transactions
  cases phase with
  | idle => trivial
  | loading currentBlock => trivial
  | asking currentBlock transaction rest => exact ⟨waiting.1, stays _ _ waiting.2⟩
  | fetching currentBlock transaction blockNumber rest => exact ⟨waiting.1, stays _ _ waiting.2⟩
  | finding currentBlock tx rest =>
      obtain ⟨transaction, rewritten, pending⟩ := waiting
      exact ⟨transaction, rewritten, stays _ _ pending⟩
  | writing currentBlock tx existing rest =>
      obtain ⟨transaction, same, rewritten, pending⟩ := waiting
      exact ⟨transaction, same, rewritten, stays _ _ pending⟩
  | removing currentBlock => exact stays _ _ waiting

theorem pending_written (currentBlock : ShortBlockInfo) (transaction tx : StoredTransaction)
    (rest : List StoredTransaction) (store next : TxStore) (reports : List (Uint256 × ℕ))
    (unique : store.Unique) (rewritten : Rewritten transaction tx reports)
    (pending : Pending config currentBlock (transaction :: rest) store reports)
    (updated : store.update transaction.txId tx = .ok next) :
    Pending config currentBlock rest next reports := by
  obtain ⟨listed, distinct, covered⟩ := pending
  obtain ⟨fresh, nodup⟩ := List.nodup_cons.mp distinct
  refine ⟨?_, nodup, ?_⟩
  · intro other member
    have old := listed other (List.mem_cons_of_mem _ member)
    apply TxStore.update_kept store next transaction.txId tx other updated old
    intro same
    have one := TxStore.unique_eq store unique transaction other (listed transaction List.mem_cons_self) old
      (.inl same)
    exact fresh (one ▸ member)
  · intro other member due
    rcases TxStore.update_mem store next transaction.txId tx other updated member with
      ⟨old, apart⟩ | ⟨txId, block⟩
    · rcases covered other old due with todo | done
      · rcases List.mem_cons.mp todo with rfl | later
        · exact absurd rfl apart
        · exact .inl later
      · exact .inr done
    · obtain ⟨minedBlock, mined, reported⟩ := rewritten.reported
      obtain ⟨dueBlock, dueMined, old, _⟩ := due
      rw [block, mined, Option.mem_some_iff] at dueMined
      subst dueMined
      exact .inr ⟨(tx.txId, minedBlock.number), reported, txId.symm, old⟩

theorem kept_abandon (w : Archive) (kept : Kept config w) : Kept config w.abandon :=
  ⟨kept.unique, trivial, kept.removed⟩

theorem kept_advance (currentBlock : ShortBlockInfo) (todo : List StoredTransaction) (w : Archive)
    (unique : w.txstore.Unique) (pending : Pending config currentBlock todo w.txstore w.reports)
    (removed : OnlyConfirmedRemoved config w) : Kept config (w.goTo (advance config currentBlock todo)) :=
  ⟨unique, waiting_advance config currentBlock todo w.txstore w.reports pending, removed⟩

theorem kept_remove (currentBlock : ShortBlockInfo) (w : Archive) (unique : w.txstore.Unique)
    (pending : Pending config currentBlock [] w.txstore w.reports) (removed : OnlyConfirmedRemoved config w) :
    Kept config (w.remove config currentBlock) := by
  refine ⟨unique.filter _, trivial, ?_⟩
  intro removal member
  rcases List.mem_append.mp member with earlier | new
  · exact removed removal earlier
  · obtain ⟨tx, gone, rfl⟩ := List.mem_map.mp new
    obtain ⟨present, absent⟩ := List.mem_filter.mp gone
    have old : Due config currentBlock tx := by
      by_contra young
      have stays : decide (¬ TxStore.Archived _ _ tx) = true := decide_eq_true young
      exact of_decide_eq_true absent (List.mem_filter.mpr ⟨present, stays⟩)
    rcases pending.covered tx present old with todo | done
    · cases todo
    · exact done

theorem kept_receipt (currentBlock : ShortBlockInfo) (transaction : StoredTransaction)
    (rest : List StoredTransaction) (w : Archive) (receipt : Option (Option ℕ)) (kept : Kept config w)
    (phase : w.phase = .asking currentBlock transaction rest)
    (named : Due config currentBlock transaction → receipt.join.isSome = true) :
    Kept config (w.resume config (.receipt receipt)) := by
  obtain ⟨unique, waiting, removed⟩ := kept
  rw [phase] at waiting
  obtain ⟨_, pending⟩ := waiting
  simp only [resume, phase, Reply.asReceipt]
  rcases receipt with _ | _ | blockNumber
  · apply kept_advance config currentBlock rest w unique _ removed
    exact pending_tail config currentBlock transaction rest _ _ pending fun due => absurd (named due) (by decide)
  · apply kept_advance config currentBlock rest w unique _ removed
    exact pending_tail config currentBlock transaction rest _ _ pending fun due => absurd (named due) (by decide)
  · have reported := pending_reported config currentBlock _ _ _ (transaction.txId, blockNumber) pending
    by_cases same : transaction.minedBlock.map ShortBlockInfo.number = some blockNumber
    · simp only [if_pos same]
      refine kept_advance config currentBlock rest _ unique ?_ removed
      apply pending_tail config currentBlock transaction rest _ _ reported
      rintro ⟨minedBlock, mined, old, _⟩
      rw [Option.mem_def.mp mined, Option.map_some, Option.some.injEq] at same
      exact ⟨(transaction.txId, blockNumber), List.mem_cons_self, rfl, same ▸ old⟩
    · simp only [if_neg same]
      exact ⟨unique, ⟨List.mem_cons_self, reported⟩, removed⟩

theorem kept_block (currentBlock : ShortBlockInfo) (transaction : StoredTransaction) (blockNumber : ℕ)
    (rest : List StoredTransaction) (w : Archive) (minedBlock : ShortBlockInfo) (kept : Kept config w)
    (phase : w.phase = .fetching currentBlock transaction blockNumber rest)
    (asked : minedBlock.number = blockNumber) : Kept config (w.resume config (.block minedBlock)) := by
  obtain ⟨unique, waiting, removed⟩ := kept
  rw [phase] at waiting
  obtain ⟨reported, pending⟩ := waiting
  simp only [resume, phase, Reply.asBlock]
  split
  · exact ⟨unique, trivial, removed⟩
  · rw [← asked] at reported
    exact ⟨unique, ⟨transaction, ⟨rfl, rfl, minedBlock, rfl, reported⟩, pending⟩, removed⟩

theorem kept_written (currentBlock : ShortBlockInfo) (tx : StoredTransaction)
    (existing : Option StoredTransaction) (rest : List StoredTransaction) (w : Archive) (next : TxStore)
    (kept : Kept config w) (phase : w.phase = .writing currentBlock tx existing rest)
    (write : written tx existing w.txstore = .ok next) :
    Kept config ({ w with txstore := next }.goTo (advance config currentBlock rest)) := by
  obtain ⟨unique, waiting, removed⟩ := kept
  rw [phase] at waiting
  obtain ⟨transaction, rfl, rewritten, pending⟩ := waiting
  exact kept_advance config currentBlock rest _
    (TxStore.update_unique w.txstore next transaction.txId tx unique write)
    (pending_written config currentBlock transaction tx rest _ next _ unique rewritten pending write) removed

theorem resume_kept (reply : Reply) (w : Archive) (kept : Kept config w)
    (named : DueNamed config w (.resume reply)) (asked : BlockAsked w (.resume reply)) :
    Kept config (w.resume config reply) := by
  have waiting := kept.waiting
  cases phase : w.phase with
  | idle =>
      simp only [resume, phase]
      exact kept
  | loading currentBlock =>
      simp only [resume, phase]
      cases reply.ok with
      | error message => exact kept_abandon config w kept
      | ok value =>
          exact kept_advance config currentBlock _ w kept.unique
            (pending_all config currentBlock w.txstore w.reports kept.unique) kept.removed
  | asking currentBlock transaction rest =>
      cases reply with
      | receipt receipt =>
          simp only [DueNamed, phase] at named
          exact kept_receipt config currentBlock transaction rest w receipt kept phase named
      | _ =>
          simp only [resume, phase, Reply.asReceipt]
          exact kept_abandon config w kept
  | fetching currentBlock transaction blockNumber rest =>
      cases reply with
      | block minedBlock =>
          simp only [BlockAsked, phase] at asked
          exact kept_block config currentBlock transaction blockNumber rest w minedBlock kept phase asked
      | _ =>
          simp only [resume, phase, Reply.asBlock]
          exact kept_abandon config w kept
  | finding currentBlock tx rest =>
      simp only [resume, phase]
      cases reply.ok with
      | error message => exact kept_abandon config w kept
      | ok value =>
          rw [phase] at waiting
          obtain ⟨transaction, rewritten, pending⟩ := waiting
          have found := TxStore.findOne_eq w.txstore kept.unique transaction tx.nonceSigner
            (pending.listed transaction List.mem_cons_self) rewritten.key
          exact ⟨kept.unique, ⟨transaction, found, rewritten, pending⟩, kept.removed⟩
  | writing currentBlock tx existing rest =>
      simp only [resume, phase]
      cases reply.ok with
      | error message => exact kept_abandon config w kept
      | ok value =>
          cases write : written tx existing w.txstore with
          | error message => exact kept_abandon config w kept
          | ok next => exact kept_written config currentBlock tx existing rest w next kept phase write
  | removing currentBlock =>
      simp only [resume, phase]
      rw [phase] at waiting
      cases reply.ok with
      | error message => exact kept_abandon config w kept
      | ok value => exact kept_remove config currentBlock w kept.unique waiting kept.removed

theorem written_unique (store next : TxStore) (tx : StoredTransaction) (existing : Option StoredTransaction)
    (unique : store.Unique) (write : written tx existing store = .ok next) : next.Unique := by
  cases existing with
  | none => exact (TxStore.insert_unique store next tx unique write).2
  | some existing => exact TxStore.update_unique store next existing.txId tx unique write

theorem next_kept (w : Archive) (event : Event) (kept : Kept config w)
    (named : DueNamed config w event) (asked : BlockAsked w event) : Kept config (w.next config event) := by
  cases event with
  | begin currentBlock =>
      simp only [next]
      split
      · exact ⟨kept.unique, trivial, kept.removed⟩
      · exact kept
  | resume reply => exact resume_kept config reply w kept named asked
  | sent tx =>
      simp only [next]
      split
      · exact kept
      · rename_i txstore inserted
        obtain ⟨transactions, unique⟩ := TxStore.insert_unique w.txstore txstore _ kept.unique inserted
        exact ⟨unique, waiting_sent config w.phase _ txstore _ _ rfl transactions kept.waiting, kept.removed⟩
  | boosted tx =>
      simp only [next]
      split
      · rename_i txstore phase write
        refine ⟨written_unique _ _ _ _ kept.unique write, ?_, kept.removed⟩
        simp only [phase]
        trivial
      · exact kept
  | restart => exact kept_abandon config w kept

theorem initial_kept : Kept config initial :=
  ⟨List.Pairwise.nil, trivial, fun _ member => absurd member List.not_mem_nil⟩

/-- If the node names a block for every transaction that is due, only those are forgotten that it
has just confirmed. -/
theorem only_confirmed_removed (events : List Event)
    (named : Runs.Along (next config) (DueNamed config) events initial)
    (asked : Runs.Along (next config) BlockAsked events initial) :
    OnlyConfirmedRemoved config (events.foldl (next config) initial) := by
  have kept : Kept config (events.foldl (next config) initial) :=
    Runs.along_invariant (next config) _ (Kept config)
      (fun w event kept permitted => next_kept config w event kept permitted.1 permitted.2) events initial
      (initial_kept config) (Runs.along_and (next config) _ _ events initial named asked)
  exact kept.removed

def sentTransaction : StoredTransaction where
  attempts := 1
  serverAction := .valueTransfer
  creationBlock := blockAt 100
  boostBlock := none
  minedBlock := none
  sender := 22
  recipient := 33
  gas := 21000
  maxFeePerGas := 10
  maxPriorityFeePerGas := 10
  data := []
  nonce := 0
  txId := 77
  value := 1

/-- The node finds the transaction in block 101. At block 1000 it is asked again. -/
def askedAgain (receipt : Option (Option ℕ)) : List Event :=
  .sent sentTransaction :: .begin (blockAt 110) ::
    [.done, .receipt (some (some 101)), .block (blockAt 101), .done, .done, .done].map .resume ++
  .begin (blockAt 1000) :: [.done, .receipt receipt, .done].map .resume

theorem only_confirmed_removed_sample :
    OnlyConfirmedRemoved sampleConfig
      ((askedAgain (some (some 101))).foldl (next sampleConfig) initial) :=
  only_confirmed_removed sampleConfig (askedAgain (some (some 101))) (by decide +kernel) (by decide +kernel)

/-- A reorganization has dropped the transaction, and the node does not know it any more. -/
theorem reorganized_transaction_removed :
    Runs.Along (next sampleConfig) BlockAsked (askedAgain none) initial ∧
      ((askedAgain none).foldl (next sampleConfig) initial).txstore.transactions = [] ∧
      ¬ OnlyConfirmedRemoved sampleConfig ((askedAgain none).foldl (next sampleConfig) initial) := by
  decide +kernel

end Archive

end OpenGsn.Relay
