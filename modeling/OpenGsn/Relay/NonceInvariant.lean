import OpenGsn.Relay.TransactionManager

/-! What is kept about the nonces, and the rules for code that keeps it. -/

namespace OpenGsn.Relay

open Solidity Async

def Known (s : State) (sender : Address) (tx : TxData) : Prop :=
  ∃ old ∈ s.txstore.written, old.sender = sender ∧ old.txData = tx

def Mined (s : State) (tx : StoredTransaction) : Prop := tx.nonce < s.mined tx.sender

instance (s : State) (tx : StoredTransaction) : Decidable (Mined s tx) :=
  inferInstanceAs (Decidable (tx.nonce < s.mined tx.sender))

/-- All that was ever stored under a nonce is one transaction. As long as its record is gone, the nonce
is mined, and nobody is about to take it. -/
structure Consistent (s : State) : Prop where
  agreed : ∀ first ∈ s.txstore.written, ∀ second ∈ s.txstore.written,
    first.nonceSigner = second.nonceSigner → first.txData = second.txData
  logged : ∀ tx ∈ s.txstore.transactions, tx ∈ s.txstore.written
  broadcast : ∀ signed ∈ s.broadcasts,
    WellFormed signed.tx signed.envelope ∧ Known s signed.sender signed.tx
  archived : ∀ tx ∈ s.txstore.written, s.txstore.Stored tx.nonceSigner ∨ Mined s tx
  claimed : ∀ claim ∈ s.claims, ∀ tx ∈ s.txstore.written,
    claim.2.Covers tx.nonceSigner → s.txstore.Stored tx.nonceSigner

/-- No record is removed while a running `sendTransaction` may still take its nonce, or after a
reorganization dropped its transaction; and no reorganization drops a transaction whose record was removed. -/
structure Settled (s later : State) : Prop where
  unclaimed : ∀ tx ∈ s.txstore.transactions, ¬ later.txstore.Stored tx.nonceSigner →
    ∀ claim ∈ s.claims, ¬ claim.2.Covers tx.nonceSigner
  removed : ∀ tx ∈ s.txstore.transactions, ¬ later.txstore.Stored tx.nonceSigner → Mined s tx
  confirmed : ∀ tx ∈ s.txstore.written, ¬ s.txstore.Stored tx.nonceSigner → Mined s tx → Mined later tx

instance (s later : State) : Decidable (Settled s later) :=
  decidable_of_iff
    ((∀ tx ∈ s.txstore.transactions, ¬ later.txstore.Stored tx.nonceSigner →
      ∀ claim ∈ s.claims, ¬ claim.2.Covers tx.nonceSigner) ∧
      (∀ tx ∈ s.txstore.transactions, ¬ later.txstore.Stored tx.nonceSigner → Mined s tx) ∧
      ∀ tx ∈ s.txstore.written, ¬ s.txstore.Stored tx.nonceSigner → Mined s tx → Mined later tx)
    ⟨fun ⟨unclaimed, removed, confirmed⟩ => ⟨unclaimed, removed, confirmed⟩,
      fun ⟨unclaimed, removed, confirmed⟩ => ⟨unclaimed, removed, confirmed⟩⟩

def Grown (s later : State) : Prop := s.txstore.written ⊆ later.txstore.written

theorem grown_same (s later : State) (written : later.txstore.written = s.txstore.written) : Grown s later := by
  rw [Grown, written]
  exact List.Subset.refl _

theorem grown_trans (first second third : State) (one : Grown first second) (two : Grown second third) :
    Grown first third :=
  List.Subset.trans one two

structure Expected (task : ℕ) (s later : State) : Prop where
  consistent : Consistent later
  grown : Grown s later
  own : ∀ claim, (task, claim) ∈ s.claims → (task, claim) ∈ later.claims

theorem expected_trans (task : ℕ) (first second third : State) (one : Expected task first second)
    (two : Expected task second third) : Expected task first third :=
  ⟨two.consistent, grown_trans _ _ _ one.grown two.grown,
    fun claim member => two.own claim (one.own claim member)⟩

structure Guaranteed (task : ℕ) (s later : State) : Prop where
  consistent : Consistent later
  grown : Grown s later
  others : ∀ other claim, other ≠ task → (other, claim) ∈ s.claims → (other, claim) ∈ later.claims

theorem known_grown (s later : State) (sender : Address) (tx : TxData)
    (grown : Grown s later) (known : Known s sender tx) : Known later sender tx := by
  obtain ⟨old, present, same⟩ := known
  exact ⟨old, grown present, same⟩

theorem known_agrees (s : State) (consistent : Consistent s) (tx old : StoredTransaction)
    (known : Known s tx.sender tx.txData) (present : old ∈ s.txstore.written)
    (same : old.nonceSigner = tx.nonceSigner) : old.txData = tx.txData := by
  obtain ⟨first, listed, sender, data⟩ := known
  have nonce : first.nonce = tx.nonce := congrArg TxData.nonce data
  have key : first.nonceSigner = tx.nonceSigner := by
    simp [StoredTransaction.nonceSigner, sender, nonce]
  rw [consistent.agreed old present first listed (same.trans key.symm), data]

/-! What the steps do to the invariant. -/

theorem consistent_same (s later : State) (consistent : Consistent s)
    (txstore : later.txstore = s.txstore) (mined : later.mined = s.mined)
    (broadcasts : later.broadcasts = s.broadcasts) (claims : later.claims ⊆ s.claims) :
    Consistent later := by
  obtain ⟨agreed, logged, broadcast, archived, claimed⟩ := consistent
  refine ⟨?_, ?_, ?_, ?_, ?_⟩
  · rwa [txstore]
  · rwa [txstore]
  · rw [broadcasts]
    simpa only [Known, txstore] using broadcast
  · simpa only [Mined, txstore, mined] using archived
  · rw [txstore]
    exact fun claim member => claimed claim (claims member)

theorem consistent_claim (s : State) (claimant : Option ℕ) (claim : Claim) (consistent : Consistent s)
    (valid : ∀ tx ∈ s.txstore.written, claim.Covers tx.nonceSigner →
      s.txstore.Stored tx.nonceSigner) : Consistent (s.claim claimant claim) := by
  cases claimant with
  | none => exact consistent
  | some task =>
      obtain ⟨agreed, logged, broadcast, archived, claimed⟩ := consistent
      refine ⟨agreed, logged, broadcast, archived, ?_⟩
      intro other member
      rcases List.mem_cons.mp member with rfl | earlier
      · exact valid
      · exact claimed other (List.mem_filter.mp earlier).1

/-- A reorganization leaves those transactions mined whose records are gone. -/
theorem mine_consistent (s : State) (mined : Address → ℕ) (consistent : Consistent s)
    (settled : Settled s (mine mined s)) : Consistent (mine mined s) := by
  obtain ⟨agreed, logged, broadcast, archived, claimed⟩ := consistent
  refine ⟨agreed, logged, broadcast, ?_, claimed⟩
  intro tx member
  by_cases stored : s.txstore.Stored tx.nonceSigner
  · exact .inl stored
  · exact .inr (settled.confirmed tx member stored ((archived tx member).resolve_left stored))

/-- A step that writes at most one record, of a transaction that is the nonce's own. -/
theorem consistent_store (s : State) (next : TxStore) (new : Option StoredTransaction)
    (consistent : Consistent s) (settled : Settled s { s with txstore := next })
    (written : next.written = s.txstore.written ++ new.toList)
    (listed : ∀ tx ∈ next.transactions, tx ∈ s.txstore.transactions ∨ tx ∈ new)
    (stored : ∀ tx ∈ new, next.Stored tx.nonceSigner)
    (agrees : ∀ tx ∈ new, ∀ old ∈ s.txstore.written,
      old.nonceSigner = tx.nonceSigner → old.txData = tx.txData) :
    Consistent { s with txstore := next } := by
  have sources : ∀ tx ∈ next.written, tx ∈ s.txstore.written ∨ tx ∈ new := by
    intro tx member
    rw [written] at member
    exact (List.mem_append.mp member).imp_right Option.mem_toList.mp
  have grown : Grown s { s with txstore := next } := by simp [Grown, written]
  refine ⟨?_, ?_, ?_, ?_, ?_⟩
  · intro first one second two same
    rcases sources first one with old | fresh
    · rcases sources second two with alsoOld | alsoFresh
      · exact consistent.agreed first old second alsoOld same
      · exact agrees second alsoFresh first old same
    · rcases sources second two with alsoOld | alsoFresh
      · exact (agrees first fresh second alsoOld same.symm).symm
      · rw [Option.mem_unique fresh alsoFresh]
  · intro tx member
    rcases listed tx member with earlier | fresh
    · exact grown (consistent.logged tx earlier)
    · change tx ∈ next.written
      rw [written]
      exact List.mem_append_right _ (Option.mem_toList.mpr fresh)
  · intro signed member
    obtain ⟨wellFormed, known⟩ := consistent.broadcast signed member
    exact ⟨wellFormed, known_grown s _ _ _ grown known⟩
  · intro tx member
    rcases sources tx member with old | fresh
    · rcases consistent.archived tx old with ⟨record, present, same⟩ | mined
      · by_cases still : next.Stored record.nonceSigner
        · exact .inl (same ▸ still)
        · have mined := settled.removed record present still
          obtain ⟨sender, nonce⟩ := Prod.mk.inj same
          refine .inr ?_
          unfold Mined at mined ⊢
          rwa [← sender, ← nonce]
      · exact .inr mined
    · exact .inl (stored tx fresh)
  · intro claim member tx present covered
    rcases sources tx present with old | fresh
    · obtain ⟨record, listed, same⟩ := consistent.claimed claim member tx old covered
      by_contra gone
      rw [← same] at covered gone
      exact settled.unclaimed record listed gone claim member covered
    · exact stored tx fresh

theorem consistent_broadcast (s : State) (signed : SignedTransaction) (consistent : Consistent s)
    (wellFormed : WellFormed signed.tx signed.envelope) (known : Known s signed.sender signed.tx) :
    Consistent { s with broadcasts := s.broadcasts ++ [signed] } := by
  obtain ⟨agreed, logged, broadcast, archived, claimed⟩ := consistent
  refine ⟨agreed, logged, ?_, archived, claimed⟩
  intro other member
  rcases List.mem_append.mp member with earlier | last
  · exact broadcast other earlier
  · rw [List.mem_singleton.mp last]
    exact ⟨wellFormed, known⟩

theorem guaranteed_same (task : ℕ) (s later : State) (consistent : Consistent s)
    (txstore : later.txstore = s.txstore) (mined : later.mined = s.mined)
    (broadcasts : later.broadcasts = s.broadcasts) (claims : later.claims = s.claims) :
    Guaranteed task s later := by
  refine ⟨consistent_same s later consistent txstore mined broadcasts ?_, ?_, ?_⟩
  · rw [claims]
    exact List.Subset.refl _
  · exact grown_same s later (congrArg TxStore.written txstore)
  · intro other claim _ member
    rwa [claims]

theorem guaranteed_claim (task : ℕ) (s : State) (claim : Claim) (consistent : Consistent s)
    (valid : ∀ tx ∈ s.txstore.written, claim.Covers tx.nonceSigner →
      s.txstore.Stored tx.nonceSigner) : Guaranteed task s (s.claim (some task) claim) := by
  refine ⟨consistent_claim s (some task) claim consistent valid, grown_same s _ rfl, ?_⟩
  intro other earlier apart member
  exact List.mem_cons_of_mem _ (List.mem_filter.mpr ⟨member, by simpa using apart⟩)

theorem guaranteed_release (task : ℕ) (s : State) (consistent : Consistent s) :
    Guaranteed task s (releaseMutex task s) := by
  refine ⟨consistent_same s _ consistent rfl rfl rfl (List.filter_subset_self _), grown_same s _ rfl, ?_⟩
  intro other claim apart member
  exact List.mem_filter.mpr ⟨member, by simpa using apart⟩

theorem insert_written (store next : TxStore) (tx : StoredTransaction)
    (inserted : store.insert tx = .ok next) :
    (∀ other ∈ store.transactions, other.nonceSigner ≠ tx.nonceSigner) ∧
      next = ⟨store.transactions ++ [tx], store.written ++ [tx]⟩ := by
  unfold TxStore.insert at inserted
  split at inserted
  · exact nomatch inserted
  · rename_i free
    refine ⟨fun other member same => free ⟨other, member, .inr same⟩, (Except.ok.inj inserted).symm⟩

theorem guaranteed_insert (task : ℕ) (s : State) (tx : StoredTransaction) (next : TxStore)
    (consistent : Consistent s) (settled : Settled s { s with txstore := next })
    (agrees : ∀ old ∈ s.txstore.written, old.nonceSigner = tx.nonceSigner → old.txData = tx.txData)
    (inserted : s.txstore.insert tx = .ok next) :
    Guaranteed task s { s with txstore := next } := by
  obtain ⟨_, rfl⟩ := insert_written s.txstore next tx inserted
  refine ⟨consistent_store s _ (some tx) consistent settled rfl ?_ ?_ ?_,
    List.subset_append_left _ _, fun _ _ _ member => member⟩
  · intro other member
    simpa [eq_comm] using member
  · rintro other ⟨⟩
    exact ⟨tx, by simp, rfl⟩
  · rintro other ⟨⟩
    exact agrees

theorem guaranteed_update (task : ℕ) (s : State) (existing tx : StoredTransaction) (next : TxStore)
    (consistent : Consistent s) (settled : Settled s { s with txstore := next })
    (agrees : ∀ old ∈ s.txstore.written, old.nonceSigner = tx.nonceSigner → old.txData = tx.txData)
    (updated : s.txstore.update existing.txId tx = .ok next) :
    Guaranteed task s { s with txstore := next } := by
  unfold TxStore.update at updated
  cases found : s.txstore.transactions.find? (fun current => current.txId = existing.txId) with
  | none =>
      simp only [found, Except.ok.injEq] at updated
      subst updated
      exact ⟨consistent, grown_same s _ rfl, fun _ _ _ member => member⟩
  | some current =>
      simp only [found] at updated
      split at updated
      · exact nomatch updated
      · obtain rfl := Except.ok.inj updated
        have present := List.mem_of_find?_eq_some found
        have matched : current.txId = existing.txId := by simpa using List.find?_some found
        have place : TxStore.merged tx current ∈ s.txstore.transactions.map fun other =>
            if other.txId = existing.txId then TxStore.merged tx current else other :=
          List.mem_map.mpr ⟨current, present, if_pos matched⟩
        refine ⟨consistent_store s _ (some (TxStore.merged tx current)) consistent settled rfl ?_ ?_ ?_,
          List.subset_append_left _ _, fun _ _ _ member => member⟩
        · intro other member
          obtain ⟨old, listed, rfl⟩ := List.mem_map.mp member
          split
          · exact .inr rfl
          · exact .inl listed
        · rintro other ⟨⟩
          exact ⟨_, place, rfl⟩
        · rintro other ⟨⟩
          exact agrees

theorem guaranteed_removal (task : ℕ) (s : State) (upToBlock upToTimestamp : ℤ) (consistent : Consistent s)
    (settled : Settled s
      { s with txstore := s.txstore.removeArchivedTransactions upToBlock upToTimestamp }) :
    Guaranteed task s
      { s with txstore := s.txstore.removeArchivedTransactions upToBlock upToTimestamp } := by
  refine ⟨consistent_store s _ none consistent settled ?_ ?_ ?_ ?_, grown_same s _ rfl,
    fun _ _ _ member => member⟩
  · simp [TxStore.removeArchivedTransactions]
  · intro tx member
    exact .inl (List.mem_filter.mp member).1
  · exact fun _ impossible => nomatch impossible
  · exact fun _ impossible => nomatch impossible

theorem guaranteed_broadcast (task : ℕ) (s : State) (signed : SignedTransaction) (consistent : Consistent s)
    (wellFormed : WellFormed signed.tx signed.envelope) (known : Known s signed.sender signed.tx) :
    Guaranteed task s { s with broadcasts := s.broadcasts ++ [signed] } :=
  ⟨consistent_broadcast s signed consistent wellFormed known, grown_same s _ rfl, fun _ _ _ member => member⟩

/-! The promises. -/

def Ok {α : Type} (task : ℕ) (post : α → State → Prop) (promise : Promise α) (s : State) : Prop :=
  Proc.Safe Settled (Expected task) (Guaranteed task)
    (fun result later => ∀ value, result = .ok value → post value later) promise s

section Rules

variable {α β : Type} (task : ℕ)

theorem ok_bind (post : β → State → Prop) (first : Promise α) (rest : α → Promise β) (s : State)
    (ok : Ok task (fun value later => Ok task post (rest value) later) first s) :
    Ok task post (first >>= rest) s := by
  apply Promise.safe_bind
  apply Proc.safe_weaken _ _ ok
  intro result later implied
  cases result with
  | ok value => exact implied value rfl
  | error error => exact fun _ impossible => nomatch impossible

theorem ok_pure (post : α → State → Prop) (value : α) (s : State) (holds : post value s) :
    Ok task post (pure value) s := by
  rintro _ ⟨⟩
  exact holds

theorem ok_throw (post : α → State → Prop) (message : String) (s : State) :
    Ok task post (throw message) s :=
  fun _ impossible => nomatch impossible

theorem ok_weaken (stronger post : α → State → Prop) (promise : Promise α) (s : State)
    (ok : Ok task stronger promise s) (implied : ∀ value later, stronger value later → post value later) :
    Ok task post promise s :=
  Proc.safe_weaken _ _ ok fun _ later holds value same => implied value later (holds value same)

theorem ok_serve (post : α → State → Prop) (act : Reply → State → Except String α × State) (s : State)
    (served : ∀ later, Expected task s later → ∀ reply, Settled later (act reply later).2 →
      Guaranteed task later (act reply later).2 ∧
        ∀ value, (act reply later).1 = .ok value → post value (act reply later).2) :
    Ok task post (Promise.serve act) s :=
  Proc.safe_serve _ _ served

theorem ok_written (post : α → State → Prop) (promise : Promise α) (s : State)
    (transactions : List StoredTransaction) (known : transactions ⊆ s.txstore.written)
    (ok : Ok task post promise s) :
    Ok task (fun value later => post value later ∧ transactions ⊆ later.txstore.written) promise s := by
  have framed := Proc.safe_frame (fun later => transactions ⊆ later.txstore.written) _ _
    (fun _ _ moved held => List.Subset.trans held moved.grown)
    (fun _ _ moved held => List.Subset.trans held moved.grown) known ok
  apply Proc.safe_weaken _ _ framed
  intro result later holds value same
  exact ⟨holds.1 value same, holds.2⟩

theorem ok_ask (post : α → State → Prop) (read : Reply → Except String α) (s : State)
    (asked : ∀ later, Expected task s later → ∀ value, post value later) :
    Ok task post (ask read) s := by
  apply ok_serve
  intro later expected reply _
  exact ⟨guaranteed_same task later later expected.consistent rfl rfl rfl rfl,
    fun value _ => asked later expected value⟩

theorem ok_ofExcept (post : α → State → Prop) (result : Except String α) (s : State)
    (holds : ∀ value, result = .ok value → post value s) :
    Ok task post (Promise.ofExcept result) s := holds

theorem ok_check (post : Unit → State → Prop) (condition : Prop) [Decidable condition]
    (message : String) (s : State) (holds : post () s) : Ok task post (check condition message) s :=
  fun _ _ => holds

theorem ok_acquire (post : Unit → State → Prop) (s : State) (holds : ∀ later, post () later) :
    Ok task post (acquireNonceMutex task) s := by
  apply Proc.safe_bind
  intro later expected _ _ _
  refine ⟨guaranteed_same task later _ expected.consistent rfl rfl rfl rfl, ?_⟩
  rintro _ ⟨⟩
  exact holds _

theorem ok_ensure (post : α → State → Prop) (body : Promise α) (cleanup : State → State) (s : State)
    (cleaned : ∀ later, Consistent later → Guaranteed task later (cleanup later))
    (ok : Ok task (fun value later => ∀ further, Expected task later further →
      post value (cleanup further)) body s) :
    Ok task post (Promise.ensure body cleanup) s := by
  apply Promise.safe_ensure
  apply Proc.safe_weaken _ _ ok
  intro result later holds further expected _
  exact ⟨cleaned further expected.consistent, fun value same => holds value same further expected⟩

theorem ok_caught (post : Unit → State → Prop) (body : Promise α) (s : State)
    (ok : Ok task (fun _ _ => True) body s) (holds : ∀ later, post () later) :
    Ok task post (Promise.caught body) s := by
  apply Proc.safe_bind
  apply Proc.safe_weaken _ _ ok
  intro result later _
  rintro _ ⟨⟩
  exact holds later

theorem ok_onStore (post : α → State → Prop) (act : TxStore → Except String (α × TxStore)) (s : State)
    (acted : ∀ later, Expected task s later → ∀ value next, act later.txstore = .ok (value, next) →
      Settled later { later with txstore := next } →
      Guaranteed task later { later with txstore := next } ∧
        post value { later with txstore := next }) :
    Ok task post (onStore act) s := by
  apply ok_serve
  intro later expected reply settled
  have unchanged := guaranteed_same task later later expected.consistent rfl rfl rfl rfl
  cases answered : reply.ok with
  | error message => simpa [answered] using unchanged
  | ok _ =>
      cases result : act later.txstore with
      | error message => simpa [answered, result] using unchanged
      | ok outcome =>
          obtain ⟨value, next⟩ := outcome
          simp only [answered, result] at settled ⊢
          obtain ⟨kept, holds⟩ := acted later expected value next result settled
          refine ⟨kept, ?_⟩
          rintro _ ⟨⟩
          exact holds

theorem ok_readStore (post : α → State → Prop) (read : TxStore → α) (s : State)
    (done : ∀ later, Expected task s later → post (read later.txstore) later) :
    Ok task post (readStore read) s := by
  apply ok_onStore
  rintro later expected value next ⟨⟩ _
  exact ⟨guaranteed_same task later later expected.consistent rfl rfl rfl rfl, done later expected⟩

theorem ok_writeStore (post : Unit → State → Prop) (write : TxStore → Except String TxStore) (s : State)
    (written : ∀ later, Expected task s later → ∀ next, write later.txstore = .ok next →
      Settled later { later with txstore := next } →
      Guaranteed task later { later with txstore := next } ∧
        post () { later with txstore := next }) :
    Ok task post (writeStore write) s := by
  apply ok_onStore
  intro later expected value next result settled
  cases outcome : write later.txstore with
  | error message => simp [outcome, Except.map] at result
  | ok stored =>
      simp only [outcome, Except.map, Except.ok.injEq, Prod.mk.injEq, true_and] at result
      subst result
      exact written later expected stored outcome settled

end Rules

end OpenGsn.Relay
