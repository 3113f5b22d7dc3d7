import OpenGsn.Async.Alone
import OpenGsn.Relay.TransactionManager

/-! What `sendTransaction` of `TransactionManager.ts` stores, and the answers that it needs for it. -/

namespace OpenGsn.Relay

open Solidity Async Promise

variable (config : Config) (hash : SignedTransaction → Uint256) (task : ℕ) (details : SendTransactionDetails)

/-! The steps, as they are answered. -/

section Steps

variable {α : Type} (replies : ℕ → Reply) (count : ℕ) (t : State)

theorem finish_ask {β : Type} (read : Reply → Except String β) (rest : β → Promise α) :
    Proc.finish replies count (ask read >>= rest : Promise α) t =
      match read (replies count) with
      | .error message => some (.error message, t)
      | .ok value => Proc.finish replies (count + 1) (rest value) t := by
  rw [ask, finish_serve]
  cases read (replies count) <;> rfl

theorem finish_check (condition : Prop) [Decidable condition] (message : String) (rest : Unit → Promise α) :
    Proc.finish replies count (check condition message >>= rest : Promise α) t =
      if condition then Proc.finish replies count (rest ()) t else some (.error message, t) := by
  unfold check
  split <;> rfl

theorem finish_acquire (rest : Unit → Promise α) :
    Proc.finish replies count (acquireNonceMutex task >>= rest : Promise α) t =
      if t.nonceMutex.isNone then
        Proc.finish replies (count + 1) (rest ()) { t with nonceMutex := some task }
      else none := rfl

end Steps

/-! The transaction that is made. -/

/-- With the nonce that the node or the manager has counted up to. -/
def newTxData (t : State) (gasLimit pending : ℕ) : TxData :=
  ⟨max (t.nonces details.signer) (max pending (t.mined details.signer)), gasLimit, some details.destination,
    details.value.getD 0, details.method.getD []⟩

def newEnvelope (t : State) (maxFeePerGas : ℕ) : Envelope :=
  envelope config t.transactionType maxFeePerGas (details.maxPriorityFeePerGas.getD maxFeePerGas)

def newSigned (t : State) (maxFeePerGas gasLimit pending : ℕ) : SignedTransaction :=
  ⟨details.signer, newTxData details t gasLimit pending, newEnvelope config details t maxFeePerGas⟩

def newStoredTx (t : State) (maxFeePerGas gasLimit pending : ℕ) : StoredTransaction where
  attempts := 1
  serverAction := details.serverAction
  creationBlock := details.creationBlock
  boostBlock := none
  minedBlock := none
  sender := details.signer
  recipient := details.destination
  gas := gasLimit
  maxFeePerGas := (gasPrices (newEnvelope config details t maxFeePerGas)).1
  maxPriorityFeePerGas := (gasPrices (newEnvelope config details t maxFeePerGas)).2
  data := details.method.getD []
  nonce := max (t.nonces details.signer) (max pending (t.mined details.signer))
  txId := hash (newSigned config details t maxFeePerGas gasLimit pending)
  value := details.value.getD 0

/-- One transaction is stored if the answers are such. Otherwise nothing is, and there is an error. -/
inductive Writes {α : Type} (serverAction : ServerAction) (answered : Prop) (store next : TxStore)
    (result : Except String α) : Prop
  | stored (given : answered) (tx : StoredTransaction) (about : tx.serverAction = serverAction)
      (written : next.written = store.written ++ [tx])
  | unstored (lacking : ¬ answered) (same : next = store) (message : String) (failed : result = .error message)

theorem writes_congr {α : Type} {serverAction : ServerAction} {answered given : Prop} {store next : TxStore}
    {result : Except String α} (same : answered ↔ given) (writes : Writes serverAction answered store next result) :
    Writes serverAction given store next result :=
  propext same ▸ writes

section Sequence

variable {α β : Type} {serverAction : ServerAction} {replies : ℕ → Reply} {count : ℕ} {t last : State}
  {result : Except String α}

theorem writes_before {answered : Prop} {next : TxStore} {first : Except String β}
    (writes : Writes serverAction answered t.txstore next first) (same : last.txstore = next)
    (fails : ∀ message, first = .error message → result = .error message) :
    Writes serverAction answered t.txstore last.txstore result := by
  rw [same]
  cases writes with
  | stored given tx about written => exact .stored given tx about written
  | unstored lacking kept message failed => exact .unstored lacking kept message (fails message failed)

theorem writes_ask (read : Reply → Except String β) (rest : β → Promise α) (answered : β → Prop)
    (later : ∀ value, Proc.finish replies (count + 1) (rest value) t = some (result, last) →
      Writes serverAction (answered value) t.txstore last.txstore result)
    (finished : Proc.finish replies count (ask read >>= rest : Promise α) t = some (result, last)) :
    Writes serverAction (∃ value, read (replies count) = .ok value ∧ answered value)
      t.txstore last.txstore result := by
  rw [finish_ask] at finished
  cases reading : read (replies count) with
  | error message =>
      rw [reading] at finished
      cases finished
      refine .unstored ?_ rfl message rfl
      rintro ⟨value, succeeded, _⟩
      cases succeeded
  | ok value =>
      rw [reading] at finished
      refine writes_congr ⟨fun given => ⟨value, rfl, given⟩, ?_⟩ (later value finished)
      rintro ⟨_, ⟨⟩, given⟩
      exact given

theorem writes_check (condition : Prop) [Decidable condition] (message : String) (rest : Unit → Promise α)
    (answered : Prop) (later : Proc.finish replies count (rest ()) t = some (result, last) →
      Writes serverAction answered t.txstore last.txstore result)
    (finished : Proc.finish replies count (check condition message >>= rest : Promise α) t = some (result, last)) :
    Writes serverAction (condition ∧ answered) t.txstore last.txstore result := by
  rw [finish_check] at finished
  by_cases held : condition
  · rw [if_pos held] at finished
    exact writes_congr (and_iff_right held).symm (later finished)
  · rw [if_neg held] at finished
    cases finished
    exact .unstored (fun given => held given.1) rfl message rfl

end Sequence

section Store

variable (replies : ℕ → Reply) (count : ℕ) (t : State) (maxFeePerGas gasLimit : ℕ)

/-- The transaction can be made, and the signer signs it. -/
structure Signable (pending : ℕ) : Prop where
  answered : (replies count).ok = .ok ()
  wellFormed : WellFormed (newTxData details t gasLimit pending) (newEnvelope config details t maxFeePerGas)
  covered : PriorityCovered (newEnvelope config details t maxFeePerGas)
  managed : details.signer = config.managerAddress ∨ details.signer = config.workerAddress

/-- The answers that lead to the store, once the mutex is held: of the node, of the signer, and two
of the store. -/
structure Storable (pending : ℕ) : Prop where
  nonce : (replies count).asNumber = .ok pending
  signable : Signable config details replies (count + 2) t maxFeePerGas gasLimit pending
  searching : (replies (count + 3)).ok = .ok ()
  writing : (replies (count + 4)).ok = .ok ()
  unique : ∀ other ∈ t.txstore.transactions,
    ¬ TxStore.Conflict (newStoredTx config hash details t maxFeePerGas gasLimit pending) other

theorem finish_onStore {α β : Type} (act : TxStore → Except String (β × TxStore)) (rest : β → Promise α) :
    Proc.finish replies count (onStore act >>= rest : Promise α) t =
      match (replies count).ok with
      | .error message => some (.error message, t)
      | .ok _ =>
          match act t.txstore with
          | .error message => some (.error message, t)
          | .ok (value, txstore) =>
              Proc.finish replies (count + 1) (rest value) { t with txstore := txstore } := by
  rw [onStore, finish_serve]
  cases (replies count).ok with
  | error message => rfl
  | ok _ =>
      cases act t.txstore with
      | error message => rfl
      | ok made => rfl

theorem putTx_stores (tx : StoredTransaction) (attempted : tx.attempts ≠ 0) (last : State)
    (result : Except String Unit)
    (finished : Proc.finish replies count (putTx tx false) t = some (result, last)) :
    Writes tx.serverAction ((replies count).ok = .ok () ∧ (replies (count + 1)).ok = .ok () ∧
      ∀ other ∈ t.txstore.transactions, ¬ TxStore.Conflict tx other) t.txstore last.txstore result := by
  rw [putTx_inserts, finish_check, if_pos attempted, readStore, finish_onStore] at finished
  cases searched : (replies count).ok with
  | error message =>
      rw [searched] at finished
      cases finished
      exact .unstored (fun given => by cases given.1) rfl message rfl
  | ok _ =>
      rw [searched] at finished
      simp only at finished
      rw [← bind_pure (writeStore _), writeStore, finish_onStore] at finished
      cases wrote : (replies (count + 1)).ok with
      | error message =>
          rw [wrote] at finished
          cases finished
          exact .unstored (fun given => by cases given.2.1) rfl message rfl
      | ok _ =>
          simp only [wrote, TxStore.insert] at finished
          by_cases conflict : ∃ other ∈ t.txstore.transactions, TxStore.Conflict tx other
          · rw [if_pos conflict] at finished
            cases finished
            obtain ⟨other, member, conflicts⟩ := conflict
            exact .unstored (fun given => given.2.2 other member conflicts) rfl _ rfl
          · rw [if_neg conflict] at finished
            cases finished
            exact .stored ⟨rfl, rfl, fun other member conflicts => conflict ⟨other, member, conflicts⟩⟩ tx rfl rfl

def polled (signer : Address) (pending : ℕ) : State :=
  let nonce := max pending (t.mined signer)
  let asked := t.claim (some task) (.atLeast signer nonce)
  let nonces := if asked.nonces signer < nonce then Function.update asked.nonces signer nonce else asked.nonces
  { asked with nonces := nonces }.claim (some task) (.exactly signer (nonces signer))

theorem raised_nonce (nonces : Address → ℕ) (signer : Address) (nonce : ℕ) :
    (if nonces signer < nonce then Function.update nonces signer nonce else nonces) signer =
      max (nonces signer) nonce := by
  split
  next less => rw [Function.update_self, max_eq_right less.le]
  next reached => exact (max_eq_left (not_lt.mp reached)).symm

theorem polled_nonces (signer : Address) (pending : ℕ) :
    (polled task t signer pending).nonces signer = max (t.nonces signer) (max pending (t.mined signer)) :=
  raised_nonce t.nonces signer (max pending (t.mined signer))

theorem finish_pollNonce {α : Type} (signer : Address) (rest : ℕ → Promise α) :
    Proc.finish replies count (pollNonce (some task) signer >>= rest : Promise α) t =
      match (replies count).asNumber with
      | .error message => some (.error message, t)
      | .ok pending =>
          Proc.finish replies (count + 2) (rest (max (t.nonces signer) (max pending (t.mined signer))))
            (polled task t signer pending) := by
  rw [pollNonce, bind_assoc, getPendingCount, finish_serve]
  cases (replies count).asNumber with
  | error message => rfl
  | ok pending =>
      simp only [← polled_nonces task]
      rfl

@[simp] theorem polled_transactionType (signer : Address) (pending : ℕ) :
    (polled task t signer pending).transactionType = t.transactionType := rfl

@[simp] theorem polled_txstore (signer : Address) (pending : ℕ) :
    (polled task t signer pending).txstore = t.txstore := rfl

section Sign

variable {α : Type} (pending : ℕ) (later : State)

theorem finish_signNew (sameType : later.transactionType = t.transactionType)
    (signable : Signable config details replies count t maxFeePerGas gasLimit pending)
    (rest : SignedTransaction × StoredTransaction → Promise α) :
    Proc.finish replies count (signNew config hash details gasLimit maxFeePerGas
        (details.maxPriorityFeePerGas.getD maxFeePerGas)
        (max (t.nonces details.signer) (max pending (t.mined details.signer))) >>= rest : Promise α) later =
      Proc.finish replies (count + 1)
        (rest (newSigned config details t maxFeePerGas gasLimit pending,
          newStoredTx config hash details t maxFeePerGas gasLimit pending))
        { later with
          nonces := Function.update later.nonces details.signer (later.nonces details.signer + 1) } := by
  have signed := (signTransaction_iff config details.signer (newTxData details t gasLimit pending)
    (newEnvelope config details t maxFeePerGas) _).mpr ⟨signable.wellFormed, signable.covered, signable.managed, rfl⟩
  rw [newTxData, newEnvelope] at signed
  rw [signNew, finish_serve, sameType]
  simp only [signable.answered, signed]
  rfl

theorem finish_signNew_error (sameType : later.transactionType = t.transactionType)
    (lacking : ¬ Signable config details replies count t maxFeePerGas gasLimit pending)
    (rest : SignedTransaction × StoredTransaction → Promise α) :
    ∃ message, Proc.finish replies count (signNew config hash details gasLimit maxFeePerGas
        (details.maxPriorityFeePerGas.getD maxFeePerGas)
        (max (t.nonces details.signer) (max pending (t.mined details.signer))) >>= rest : Promise α) later =
      some (.error message, later) := by
  rw [signNew, finish_serve, sameType]
  cases answered : (replies count).ok with
  | error message => exact ⟨message, rfl⟩
  | ok _ =>
      cases signed : signTransaction config details.signer (newTxData details t gasLimit pending)
        (newEnvelope config details t maxFeePerGas) with
      | error message =>
          rw [newTxData, newEnvelope] at signed
          refine ⟨message, ?_⟩
          simp only [signed]
          rfl
      | ok made =>
          have ⟨wellFormed, covered, managed, _⟩ := (signTransaction_iff config _ _ _ made).mp signed
          exact absurd ⟨answered, wellFormed, covered, managed⟩ lacking

def signAndPut (gasLimit maxFeePerGas nonce : ℕ) : Promise SignedTransaction :=
  signNew config hash details gasLimit maxFeePerGas (details.maxPriorityFeePerGas.getD maxFeePerGas) nonce >>=
    fun made => putTx made.2 false >>= fun _ => pure made.1

theorem signAndPut_writes (sameType : later.transactionType = t.transactionType)
    (sameStore : later.txstore = t.txstore) (last : State) (result : Except String SignedTransaction)
    (finished : Proc.finish replies count (signAndPut config hash details gasLimit maxFeePerGas
      (max (t.nonces details.signer) (max pending (t.mined details.signer)))) later = some (result, last)) :
    Writes details.serverAction
      (Signable config details replies count t maxFeePerGas gasLimit pending ∧
        (replies (count + 1)).ok = .ok () ∧ (replies (count + 2)).ok = .ok () ∧
        ∀ other ∈ t.txstore.transactions,
          ¬ TxStore.Conflict (newStoredTx config hash details t maxFeePerGas gasLimit pending) other)
      t.txstore last.txstore result := by
  by_cases signable : Signable config details replies count t maxFeePerGas gasLimit pending
  · rw [signAndPut, finish_signNew config hash details replies count t maxFeePerGas gasLimit pending later
      sameType signable] at finished
    have ⟨value, middle, first, rest⟩ := Proc.finish_bind _ _ _ _ _ _ finished
    have wrote := putTx_stores replies _ _ _ Nat.one_ne_zero middle value first
    simp only [sameStore] at wrote
    refine writes_congr (and_iff_right signable).symm (writes_before wrote ?_ ?_)
    · cases value with
      | ok _ => cases rest; rfl
      | error message => cases rest; rfl
    · rintro message rfl
      cases rest
      rfl
  · have ⟨message, failed⟩ := finish_signNew_error config hash details replies count t maxFeePerGas gasLimit
      pending later sameType signable fun made => putTx made.2 false >>= fun _ => pure made.1
    cases failed.symm.trans finished
    rw [sameStore]
    exact .unstored (fun given => signable given.1) rfl message rfl

end Sign

theorem storeNew_writes (last : State) (result : Except String SignedTransaction)
    (finished : Proc.finish replies count (storeNew config hash task details gasLimit maxFeePerGas
      (details.maxPriorityFeePerGas.getD maxFeePerGas)) t = some (result, last)) :
    Writes details.serverAction
      (∃ pending, Storable config hash details replies count t maxFeePerGas gasLimit pending)
      t.txstore last.txstore result := by
  rw [storeNew, finish_pollNonce] at finished
  cases counted : (replies count).asNumber with
  | error message =>
      rw [counted] at finished
      cases finished
      refine .unstored ?_ rfl message rfl
      rintro ⟨pending, storable⟩
      cases counted.symm.trans storable.nonce
  | ok pending =>
      rw [counted] at finished
      have writes := signAndPut_writes config hash details replies (count + 2) t maxFeePerGas gasLimit pending
        (polled task t details.signer pending) rfl rfl last result finished
      refine writes_congr ⟨?_, ?_⟩ writes
      · rintro ⟨signable, searching, writing, unique⟩
        exact ⟨pending, counted, signable, searching, writing, unique⟩
      · rintro ⟨other, nonce, signable, searching, writing, unique⟩
        cases counted.symm.trans nonce
        exact ⟨signable, searching, writing, unique⟩

end Store

/-! The whole of it, for details that leave the gas and its price open. -/

section Whole

variable (replies : ℕ → Reply) (count : ℕ) (t : State)

/-- The price and the estimate of the gas, a balance that is enough for them, and the answers to
`storeNew`. -/
def Answered : Prop :=
  ∃ maxFeePerGas, (replies count).asNumber = .ok maxFeePerGas ∧
  ∃ gasLimit, (replies (count + 1)).asNumber = .ok gasLimit ∧
  ∃ balance, (replies (count + 2)).asNumber = .ok balance ∧
    maxFeePerGas * gasLimit ≤ balance ∧ details.destination ≠ 0 ∧
  ∃ pending, Storable config hash details replies (count + 4) t maxFeePerGas gasLimit pending

theorem storable_locked (start maxFeePerGas gasLimit pending : ℕ) (mutex : Option ℕ) :
    Storable config hash details replies start { t with nonceMutex := mutex } maxFeePerGas gasLimit pending ↔
      Storable config hash details replies start t maxFeePerGas gasLimit pending :=
  ⟨fun ⟨nonce, ⟨answered, wellFormed, covered, managed⟩, searching, writing, unique⟩ =>
      ⟨nonce, ⟨answered, wellFormed, covered, managed⟩, searching, writing, unique⟩,
    fun ⟨nonce, ⟨answered, wellFormed, covered, managed⟩, searching, writing, unique⟩ =>
      ⟨nonce, ⟨answered, wellFormed, covered, managed⟩, searching, writing, unique⟩⟩

theorem broadcastTransaction_txstore (signed : SignedTransaction) (start : ℕ) (last : State)
    (result : Except String SignedTransaction)
    (finished : Proc.finish replies start (broadcastTransaction signed) t = some (result, last)) :
    last.txstore = t.txstore := by
  cases finished
  rfl

/-- Once the mutex is held, the broadcast and the release of the mutex leave the store as it is. -/
theorem storeAndBroadcast_writes (maxFeePerGas gasLimit : ℕ) (last : State)
    (result : Except String SignedTransaction)
    (finished : Proc.finish replies count (Promise.ensure (storeNew config hash task details gasLimit
        maxFeePerGas (details.maxPriorityFeePerGas.getD maxFeePerGas)) (releaseMutex task) >>=
      broadcastTransaction : Promise SignedTransaction) t = some (result, last)) :
    Writes details.serverAction
      (∃ pending, Storable config hash details replies count t maxFeePerGas gasLimit pending)
      t.txstore last.txstore result := by
  obtain ⟨signed, released, ensured, broadcast⟩ := Proc.finish_bind _ _ _ _ _ _ finished
  have ⟨middle, stored, cleaned⟩ := finish_ensure _ _ _ _ _ _ _ ensured
  have wrote := storeNew_writes config hash task details replies count t maxFeePerGas gasLimit middle signed stored
  refine writes_before wrote ?_ ?_
  · cases signed with
    | error message =>
        cases broadcast
        rw [cleaned]
        rfl
    | ok signed =>
        rw [broadcastTransaction_txstore replies released signed _ last result broadcast, cleaned]
        rfl
  · rintro message rfl
    cases broadcast
    rfl

theorem sendTransaction_writes (openLimit : details.gasLimit = none) (openFee : details.maxFeePerGas = none)
    (last : State) (result : Except String SignedTransaction)
    (finished : Proc.finish replies count (sendTransaction config hash task details) t = some (result, last)) :
    Writes details.serverAction (Answered config hash details replies count t) t.txstore last.txstore result := by
  rw [sendTransaction, openLimit, openFee] at finished
  refine writes_ask _ _ _ (fun maxFeePerGas priced => ?_) finished
  refine writes_ask _ _ _ (fun gasLimit estimated => ?_) priced
  rw [validateBalance, bind_assoc] at estimated
  refine writes_ask _ _ _ (fun balance read => ?_) estimated
  refine writes_check _ _ _ _ (fun enough => ?_) read
  refine writes_check _ _ _ _ (fun known => ?_) enough
  rw [finish_acquire] at known
  by_cases free : t.nonceMutex.isNone = true
  · rw [if_pos free] at known
    have writes := storeAndBroadcast_writes config hash task details replies (count + 4)
      { t with nonceMutex := some task } maxFeePerGas gasLimit last result known
    exact writes_congr (exists_congr fun pending => storable_locked config hash details replies t (count + 4)
      maxFeePerGas gasLimit pending (some task)) writes
  · rw [if_neg free] at known
    cases known

end Whole

/-! A manager with a free mutex sends without waiting, and then it is free again. -/

abbrev KeepsMutex {α : Type} (promise : Promise α) : Prop :=
  Settles (fun s t : State => t.nonceMutex = s.nonceMutex) promise

section Mutex

variable {α β : Type}

theorem then_mutex {first : Promise α} {rest : α → Promise β} (one : KeepsMutex first)
    (two : ∀ value, KeepsMutex (rest value)) : KeepsMutex (first >>= rest) :=
  settles_bind (fun _ _ _ before after => after.trans before) first rest one two

theorem ask_mutex (read : Reply → Except String α) : KeepsMutex (ask read) :=
  settles_serve _ fun _ _ => rfl

theorem orAsk_mutex (value : Option ℕ) : KeepsMutex (orAsk value) := by
  cases value with
  | none => exact ask_mutex _
  | some value => exact fun _ => rfl

theorem check_mutex (condition : Prop) [Decidable condition] (message : String) :
    KeepsMutex (check condition message) :=
  fun _ => rfl

theorem onStore_mutex (act : TxStore → Except String (α × TxStore)) : KeepsMutex (onStore act) := by
  apply settles_serve
  intro reply s
  cases reply.ok with
  | error message => rfl
  | ok _ =>
      dsimp only
      cases act s.txstore with
      | error message => rfl
      | ok made => rfl

theorem pollNonce_mutex (signer : Address) : KeepsMutex (pollNonce (some task) signer) := by
  apply then_mutex
  · apply settles_serve
    intro reply s
    cases reply.asNumber with
    | error message => rfl
    | ok pending => rfl
  · exact fun nonce => settles_sync _ fun _ => rfl

theorem signNew_mutex (gasLimit maxFeePerGas maxPriorityFeePerGas nonce : ℕ) :
    KeepsMutex (signNew config hash details gasLimit maxFeePerGas maxPriorityFeePerGas nonce) := by
  apply settles_serve
  intro reply s
  dsimp only
  split
  · rfl
  · rfl

theorem putTx_mutex (tx : StoredTransaction) : KeepsMutex (putTx tx false) := by
  rw [putTx_inserts]
  apply then_mutex (check_mutex _ _)
  intro _
  apply then_mutex (onStore_mutex _)
  exact fun _ => onStore_mutex _

theorem storeNew_mutex (gasLimit maxFeePerGas maxPriorityFeePerGas : ℕ) :
    KeepsMutex (storeNew config hash task details gasLimit maxFeePerGas maxPriorityFeePerGas) := by
  apply then_mutex (pollNonce_mutex task details.signer)
  intro nonce
  apply then_mutex (signNew_mutex config hash details _ _ _ nonce)
  rintro ⟨signed, storedTx⟩
  exact then_mutex (putTx_mutex storedTx) fun _ _ => rfl

theorem broadcastTransaction_mutex (signed : SignedTransaction) :
    KeepsMutex (broadcastTransaction signed) :=
  settles_serve _ fun _ _ => rfl

theorem then_free {first : Promise α} {rest : α → Promise β} (t : State) (free : t.nonceMutex = none)
    (one : KeepsMutex first)
    (two : ∀ value (later : State), later.nonceMutex = none →
      Proc.Ends (fun _ (last : State) => last.nonceMutex = none) (rest value) later) :
    Proc.Ends (fun _ (last : State) => last.nonceMutex = none) (first >>= rest : Promise β) t :=
  ends_seq first rest t (one t) (fun _ _ same => same.trans free)
    fun value later same => two value later (same.trans free)

theorem acquire_free (rest : Unit → Promise α) (t : State) (free : t.nonceMutex = none)
    (held : Proc.Ends (fun _ (last : State) => last.nonceMutex = none) (rest ())
      { t with nonceMutex := some task }) :
    Proc.Ends (fun _ (last : State) => last.nonceMutex = none) (acquireNonceMutex task >>= rest : Promise α) t :=
  ⟨Option.isNone_iff_eq_none.mpr free, fun _ => held⟩

theorem ensure_free (body : Promise α) (t : State) (one : KeepsMutex body) :
    Proc.Ends (fun _ (last : State) => last.nonceMutex = none) (Promise.ensure body (releaseMutex task)) t := by
  apply Proc.ends_bind
  exact Proc.ends_weaken _ _ _ (fun _ _ _ => ⟨rfl, fun _ => rfl⟩) (one t)

theorem sendTransaction_free (t : State) (free : t.nonceMutex = none) :
    Proc.Ends (fun _ (last : State) => last.nonceMutex = none) (sendTransaction config hash task details) t := by
  apply then_free t free (orAsk_mutex _)
  intro maxFeePerGas t free
  apply then_free t free (orAsk_mutex _)
  intro gasLimit t free
  apply then_free t free
  · exact then_mutex (ask_mutex _) fun _ => check_mutex _ _
  intro _ t free
  apply then_free t free (check_mutex _ _)
  intro _ t free
  apply acquire_free task _ t free
  apply ends_seq _ _ _ (ensure_free task _ _ (storeNew_mutex config hash task details _ _ _))
  · exact fun _ _ released => released
  · exact fun signed t free => Proc.ends_weaken _ _ _ (fun _ _ same => same.trans free)
      (broadcastTransaction_mutex signed t)

end Mutex

end OpenGsn.Relay
