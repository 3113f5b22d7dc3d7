import OpenGsn.Relay.Allocation
import OpenGsn.Relay.NonceSafety
import OpenGsn.Runs

/-! Which nonces are stored. -/

namespace OpenGsn.Relay.Allocation

open Solidity

variable (config : Config) (hash : SignedTransaction → Uint256) (base : Address → ℕ)

/-- The transaction whose nonce is counted, while it is not stored yet. -/
def carried : CallPhase → Option StoredTransaction
  | .finding _ storedTx => some storedTx
  | .inserting _ storedTx => some storedTx
  | _ => none

def inFlight (c : Calls) (signer : Address) : ℕ :=
  match c.state.nonceMutex with
  | none => 0
  | some task => if (carried (c.phases task)).map StoredTransaction.sender = some signer then 1 else 0

def storedNonces (store : TxStore) (signer : Address) : List ℕ :=
  (store.transactions.filter fun tx => tx.sender = signer).map StoredTransaction.nonce

/-- The stored nonces of the signer are those from its first one up to the counter, each once. -/
def Gapless (c : Calls) (signer : Address) : Prop :=
  storedNonces c.state.txstore signer =
    List.range' (base signer) (c.state.nonces signer - inFlight c signer - base signer)

instance (c : Calls) (signer : Address) : Decidable (Gapless base c signer) :=
  inferInstanceAs (Decidable (_ = _))

/-- The count of the account, or at most one more than a nonce that was stored, and so may have been
broadcast. -/
def Plausible (s : State) (signer : Address) (count : ℕ) : Prop :=
  count = base signer ∨ ∃ tx ∈ s.txstore.transactions, tx.sender = signer ∧ count ≤ tx.nonce + 1

instance (s : State) (signer : Address) (count : ℕ) : Decidable (Plausible base s signer count) :=
  inferInstanceAs (Decidable (_ ∨ ∃ tx ∈ s.txstore.transactions, _))

def Counted (c : Calls) : CallEvent → Prop
  | .resume task reply =>
      match c.phases task, reply with
      | .counting priced, .number n =>
          Plausible base c.state priced.details.signer (max n (c.state.mined priced.details.signer))
      | .polling signer _, .number n => Plausible base c.state signer (max n (c.state.mined signer))
      | _, _ => True
  | _ => True

instance (c : Calls) (event : CallEvent) : Decidable (Counted base c event) := by
  unfold Counted
  split
  · split <;> infer_instance
  · infer_instance

/-- No `putTx` fails: neither of its operations, and no hash is taken. -/
def Stores (c : Calls) : CallEvent → Prop
  | .resume task reply =>
      match c.phases task with
      | .finding _ _ => reply.ok = .ok ()
      | .inserting _ storedTx =>
          reply.ok = .ok () ∧ ∀ other ∈ c.state.txstore.transactions, other.txId ≠ storedTx.txId
      | _ => True
  | _ => True

instance (c : Calls) (event : CallEvent) : Decidable (Stores c event) := by
  unfold Stores
  split
  · split <;> infer_instance
  · infer_instance

/-! What holds at each await -/

def Modest (s : State) (signer : Address) (count : ℕ) : Prop :=
  count = base signer ∨ base signer ≤ s.nonces signer ∧ count ≤ s.nonces signer

def PhaseFacts (s : State) (task : ℕ) : CallPhase → Prop
  | .counting _ => s.nonceMutex = some task
  | .raising priced count => s.nonceMutex = some task ∧ Modest base s priced.details.signer count
  | .signing priced nonce =>
      s.nonceMutex = some task ∧ nonce = s.nonces priced.details.signer ∧ base priced.details.signer ≤ nonce
  | .finding _ storedTx =>
      s.nonceMutex = some task ∧ base storedTx.sender ≤ storedTx.nonce ∧
        storedTx.nonce + 1 = s.nonces storedTx.sender
  | .inserting _ storedTx =>
      s.nonceMutex = some task ∧ base storedTx.sender ≤ storedTx.nonce ∧
        storedTx.nonce + 1 = s.nonces storedTx.sender
  | .releasing _ => s.nonceMutex = some task
  | .pollRaising signer _ count => Modest base s signer count
  | _ => True

structure Numbered (c : Calls) : Prop where
  facts : ∀ task, PhaseFacts base c.state task (c.phases task)
  gapless : ∀ signer, Gapless base c signer

theorem modest_mono (s later : State) (signer : Address) (count : ℕ) (modest : Modest base s signer count)
    (grown : s.nonces signer ≤ later.nonces signer) : Modest base later signer count := by
  rcases modest with first | ⟨started, small⟩
  · exact .inl first
  · exact .inr ⟨started.trans grown, small.trans grown⟩

structure Steady (s later : State) : Prop where
  mutex : later.nonceMutex = s.nonceMutex
  counted : ∀ signer, later.nonces signer = max (s.nonces signer) (base signer) ∨
    later.nonces signer = s.nonces signer

theorem facts_steady (s later : State) (task : ℕ) (phase : CallPhase) (steady : Steady base s later)
    (facts : PhaseFacts base s task phase) : PhaseFacts base later task phase := by
  have grown : ∀ signer, s.nonces signer ≤ later.nonces signer := by
    intro signer
    rcases steady.counted signer with raised | same
    · rw [raised]
      exact le_max_left _ _
    · exact same.ge
  have stays : ∀ signer, base signer ≤ s.nonces signer → later.nonces signer = s.nonces signer := by
    intro signer started
    rcases steady.counted signer with raised | same
    · rw [raised, max_eq_left started]
    · exact same
  cases phase with
  | counting priced => exact steady.mutex.trans facts
  | raising priced count => exact ⟨steady.mutex.trans facts.1, modest_mono base s later _ count facts.2 (grown _)⟩
  | signing priced nonce =>
      obtain ⟨mutex, rfl, started⟩ := facts
      exact ⟨steady.mutex.trans mutex, (stays _ started).symm, started⟩
  | finding signed storedTx =>
      obtain ⟨mutex, started, counted⟩ := facts
      exact ⟨steady.mutex.trans mutex, started, by rw [stays storedTx.sender (by omega)]; exact counted⟩
  | inserting signed storedTx =>
      obtain ⟨mutex, started, counted⟩ := facts
      exact ⟨steady.mutex.trans mutex, started, by rw [stays storedTx.sender (by omega)]; exact counted⟩
  | releasing result => exact steady.mutex.trans facts
  | pollRaising signer relayMaxNonce count => exact modest_mono base s later signer count facts (grown _)
  | _ => trivial

/-- Who does not hold the mutex does not mind what its holder does. -/
theorem facts_bystander (s later : State) (task : ℕ) (phase : CallPhase)
    (free : s.nonceMutex ≠ some task) (grown : ∀ signer, s.nonces signer ≤ later.nonces signer)
    (facts : PhaseFacts base s task phase) : PhaseFacts base later task phase := by
  cases phase with
  | counting priced => exact absurd facts free
  | raising priced count => exact absurd facts.1 free
  | signing priced nonce => exact absurd facts.1 free
  | finding signed storedTx => exact absurd facts.1 free
  | inserting signed storedTx => exact absurd facts.1 free
  | releasing result => exact absurd facts free
  | pollRaising signer relayMaxNonce count => exact modest_mono base s later signer count facts (grown _)
  | _ => trivial

theorem raise_nonces (s : State) (signer : Address) (count : ℕ) (modest : Modest base s signer count) :
    (raise signer count s).nonces signer = max (s.nonces signer) (base signer) := by
  unfold raise
  by_cases larger : s.nonces signer < count
  · simp only [if_pos larger, Function.update_self]
    rcases modest with rfl | ⟨_, small⟩ <;> omega
  · simp only [if_neg larger]
    rcases modest with rfl | ⟨started, _⟩ <;> omega

theorem raise_other (s : State) (signer other : Address) (count : ℕ) (apart : other ≠ signer) :
    (raise signer count s).nonces other = s.nonces other := by
  unfold raise
  by_cases larger : s.nonces signer < count
  · simp only [if_pos larger, Function.update_of_ne apart]
  · simp only [if_neg larger]

theorem raise_steady (s : State) (signer : Address) (count : ℕ) (modest : Modest base s signer count) :
    Steady base s (raise signer count s) := by
  refine ⟨rfl, fun other => ?_⟩
  by_cases same : other = signer
  · subst same
    exact .inl (raise_nonces base s other count modest)
  · exact .inr (raise_other s signer other count same)

theorem plausible_modest (c : Calls) (signer : Address) (count : ℕ) (gapless : Gapless base c signer)
    (answered : Plausible base c.state signer count) : Modest base c.state signer count := by
  rcases answered with first | ⟨tx, present, rfl, next⟩
  · exact .inl first
  · have stored : tx.nonce ∈ storedNonces c.state.txstore tx.sender :=
      List.mem_map.mpr ⟨tx, List.mem_filter.mpr ⟨present, by simp⟩, rfl⟩
    rw [gapless, List.mem_range'_1] at stored
    exact .inr ⟨by omega, by omega⟩

/-! What one step keeps -/

theorem numbered_move (c : Calls) (task : ℕ) (later : State) (phase : CallPhase) (numbered : Numbered base c)
    (steady : Steady base c.state later) (store : later.txstore = c.state.txstore)
    (same : carried phase = carried (c.phases task)) (facts : PhaseFacts base later task phase) :
    Numbered base ⟨later, Function.update c.phases task phase⟩ := by
  constructor
  · intro other
    by_cases own : other = task
    · subst own
      simpa only [Function.update_self] using facts
    · simp only [Function.update_of_ne own]
      exact facts_steady base c.state later other _ steady (numbered.facts other)
  · intro signer
    have waiting : inFlight ⟨later, Function.update c.phases task phase⟩ signer = inFlight c signer := by
      simp only [inFlight, steady.mutex]
      cases c.state.nonceMutex with
      | none => rfl
      | some holder =>
          by_cases own : holder = task
          · subst own
            simp only [Function.update_self, same]
          · simp only [Function.update_of_ne own]
    rw [Gapless, waiting, store, numbered.gapless signer]
    rcases steady.counted signer with raised | unchanged
    · congr 1
      simp only [raised]
      omega
    · rw [unchanged]

theorem numbered_holder (c : Calls) (task : ℕ) (later : State) (phase : CallPhase) (numbered : Numbered base c)
    (alone : ∀ other, other ≠ task → c.state.nonceMutex ≠ some other)
    (grown : ∀ signer, c.state.nonces signer ≤ later.nonces signer)
    (facts : PhaseFacts base later task phase)
    (gapless : ∀ signer, Gapless base ⟨later, Function.update c.phases task phase⟩ signer) :
    Numbered base ⟨later, Function.update c.phases task phase⟩ := by
  refine ⟨fun other => ?_, gapless⟩
  by_cases own : other = task
  · subst own
    simpa only [Function.update_self] using facts
  · simp only [Function.update_of_ne own]
    exact facts_bystander base c.state later other _ (alone other own) grown (numbered.facts other)

theorem alone_of_mutex (s : State) (task : ℕ) (mutex : s.nonceMutex = some task) :
    ∀ other, other ≠ task → s.nonceMutex ≠ some other := by
  intro other apart same
  exact apart (Option.some.inj (same.symm.trans mutex))

theorem inFlight_holder (later : State) (phases : ℕ → CallPhase) (task : ℕ) (phase : CallPhase)
    (signer : Address) (mutex : later.nonceMutex = some task) :
    inFlight ⟨later, Function.update phases task phase⟩ signer =
      if (carried phase).map StoredTransaction.sender = some signer then 1 else 0 := by
  simp only [inFlight, mutex, Function.update_self]

theorem inFlight_own (c : Calls) (task : ℕ) (signer : Address) (mutex : c.state.nonceMutex = some task) :
    inFlight c signer = if (carried (c.phases task)).map StoredTransaction.sender = some signer then 1 else 0 := by
  simp only [inFlight, mutex]

theorem inFlight_free (c : Calls) (signer : Address) (mutex : c.state.nonceMutex = none) :
    inFlight c signer = 0 := by
  simp only [inFlight, mutex]

theorem numbered_acquired (c : Calls) (task : ℕ) (priced : Priced) (numbered : Numbered base c)
    (free : c.state.nonceMutex = none) :
    Numbered base ⟨{ c.state with nonceMutex := some task },
      Function.update c.phases task (.counting priced)⟩ := by
  apply numbered_holder base c task _ _ numbered
  · intro other _ held
    rw [free] at held
    cases held
  · exact fun signer => le_rfl
  · exact rfl
  · intro signer
    rw [Gapless, inFlight_holder _ _ task _ signer rfl, if_neg (by simp [carried])]
    have before := numbered.gapless signer
    rwa [Gapless, inFlight_free c signer free] at before

theorem numbered_released (c : Calls) (task : ℕ) (result : Except String SignedTransaction) (phase : CallPhase)
    (numbered : Numbered base c) (running : c.phases task = .releasing result)
    (facts : PhaseFacts base (releaseMutex task c.state) task phase) :
    Numbered base ⟨releaseMutex task c.state, Function.update c.phases task phase⟩ := by
  have mutex := numbered.facts task
  rw [running] at mutex
  apply numbered_holder base c task (releaseMutex task c.state) phase numbered
    (alone_of_mutex c.state task mutex) (fun _ => le_rfl) facts
  intro signer
  rw [Gapless, inFlight_free _ signer rfl]
  have before := numbered.gapless signer
  rwa [Gapless, inFlight_own c task signer mutex, running, if_neg (by simp [carried])] at before

theorem numbered_signed (c : Calls) (task : ℕ) (priced : Priced) (nonce : ℕ) (signed : SignedTransaction)
    (storedTx : StoredTransaction) (numbered : Numbered base c)
    (running : c.phases task = .signing priced nonce) (sender : storedTx.sender = priced.details.signer)
    (number : storedTx.nonce = nonce) :
    Numbered base ⟨countNonce priced.details.signer c.state,
      Function.update c.phases task (.finding signed storedTx)⟩ := by
  have facts := numbered.facts task
  rw [running] at facts
  obtain ⟨mutex, rfl, started⟩ := facts
  have counted : (countNonce priced.details.signer c.state).nonces priced.details.signer =
      c.state.nonces priced.details.signer + 1 := Function.update_self ..
  have others : ∀ signer, signer ≠ priced.details.signer →
      (countNonce priced.details.signer c.state).nonces signer = c.state.nonces signer :=
    fun signer apart => Function.update_of_ne apart ..
  apply numbered_holder base c task (countNonce priced.details.signer c.state) (.finding signed storedTx)
    numbered (alone_of_mutex c.state task mutex)
  · intro signer
    by_cases same : signer = priced.details.signer
    · rw [same, counted]
      exact Nat.le_succ _
    · exact (others signer same).ge
  · refine ⟨mutex, ?_, ?_⟩
    · rw [sender, number]
      exact started
    · rw [sender, number, counted]
  · intro signer
    have before := numbered.gapless signer
    rw [Gapless, inFlight_own c task signer mutex, running, if_neg (by simp [carried])] at before
    rw [Gapless, inFlight_holder (countNonce priced.details.signer c.state) _ task _ signer mutex]
    by_cases same : signer = priced.details.signer
    · subst same
      simp only [carried, Option.map_some, sender, if_true, counted]
      exact before
    · rw [if_neg (by simpa [carried, sender] using Ne.symm same), others signer same]
      exact before

theorem insert_free (store : TxStore) (tx : StoredTransaction)
    (free : ∀ other ∈ store.transactions, ¬ TxStore.Conflict tx other) :
    store.insert tx = .ok ⟨store.transactions ++ [tx], store.written ++ [tx]⟩ := by
  rw [TxStore.insert, if_neg]
  rintro ⟨other, present, conflict⟩
  exact free other present conflict

theorem numbered_inserted (c : Calls) (task : ℕ) (signed : SignedTransaction) (storedTx : StoredTransaction)
    (numbered : Numbered base c) (running : c.phases task = .inserting signed storedTx)
    (fresh : ∀ other ∈ c.state.txstore.transactions, other.txId ≠ storedTx.txId) :
    ∃ next, c.state.txstore.insert storedTx = .ok next ∧
      Numbered base ⟨withStore next c.state,
        Function.update c.phases task (.releasing (.ok signed))⟩ := by
  have facts := numbered.facts task
  rw [running] at facts
  obtain ⟨mutex, started, counted⟩ := facts
  have before : ∀ signer, storedNonces c.state.txstore signer = List.range' (base signer)
      (c.state.nonces signer - (if storedTx.sender = signer then 1 else 0) - base signer) := by
    intro signer
    have own := numbered.gapless signer
    simpa only [Gapless, inFlight_own c task signer mutex, running, carried, Option.map_some,
      Option.some.injEq] using own
  refine ⟨_, insert_free c.state.txstore storedTx ?_, ?_⟩
  · rintro other present (same | same)
    · exact fresh other present same
    · -- the nonces up to this one are stored, and it is the next
      have senders : other.sender = storedTx.sender := congrArg Prod.fst same
      have nonces : other.nonce = storedTx.nonce := congrArg Prod.snd same
      have stored : other.nonce ∈ storedNonces c.state.txstore storedTx.sender :=
        List.mem_map.mpr ⟨other, List.mem_filter.mpr ⟨present, by simp [senders]⟩, rfl⟩
      rw [before, if_pos rfl, List.mem_range'_1] at stored
      omega
  · refine numbered_holder base c task (withStore _ c.state) _ numbered
      (alone_of_mutex c.state task mutex) (fun _ => le_rfl) mutex ?_
    intro signer
    have here : (withStore ⟨c.state.txstore.transactions ++ [storedTx],
        c.state.txstore.written ++ [storedTx]⟩ c.state).nonceMutex = some task := mutex
    rw [Gapless, inFlight_holder _ _ task _ signer here, if_neg (by simp [carried])]
    have added : storedNonces ⟨c.state.txstore.transactions ++ [storedTx],
        c.state.txstore.written ++ [storedTx]⟩ signer =
          storedNonces c.state.txstore signer ++ if storedTx.sender = signer then [storedTx.nonce] else [] := by
      simp only [storedNonces, List.filter_append, List.map_append]
      by_cases same : storedTx.sender = signer
      · simp [same]
      · simp [same]
    simp only [withStore]
    rw [added, before signer]
    by_cases same : storedTx.sender = signer
    · subst same
      have length : c.state.nonces storedTx.sender - 0 - base storedTx.sender =
          (c.state.nonces storedTx.sender - 1 - base storedTx.sender) + 1 := by omega
      have last : storedTx.nonce =
          base storedTx.sender + (c.state.nonces storedTx.sender - 1 - base storedTx.sender) := by omega
      rw [if_pos rfl, if_pos rfl, length, List.range'_1_concat, ← last]
    · rw [if_neg same, if_neg same, List.append_nil]

/-! Runs -/

theorem start_numbered (c : Calls) (task : ℕ) (call : Call) (numbered : Numbered base c)
    (idle : c.phases task = .done) :
    Numbered base { c with phases := Function.update c.phases task call.first } := by
  have steady : Steady base c.state c.state := ⟨rfl, fun _ => .inr rfl⟩
  have quiet : carried call.first = none ∧ PhaseFacts base c.state task call.first := by
    cases call with
    | poll signer relayMaxNonce => exact ⟨rfl, trivial⟩
    | send details =>
        simp only [Call.first, begin]
        cases details.maxFeePerGas with
        | none => exact ⟨rfl, trivial⟩
        | some maxFeePerGas =>
            simp only [afterPrice]
            cases details.gasLimit with
            | none => exact ⟨rfl, trivial⟩
            | some gasLimit => exact ⟨rfl, trivial⟩
  exact numbered_move base c task c.state call.first numbered steady rfl (by rw [idle, quiet.1]; rfl) quiet.2

theorem resume_numbered (c : Calls) (task : ℕ) (reply : Reply) (numbered : Numbered base c)
    (counted : Counted base c (.resume task reply)) (stores : Stores c (.resume task reply)) :
    Numbered base (next config hash c (.resume task reply)) := by
  have facts := numbered.facts task
  have steady : Steady base c.state c.state := ⟨rfl, fun _ => .inr rfl⟩
  simp only [next]
  -- a step that leaves the counters, the mutex and the store alone
  have quiet : ∀ phase, carried phase = carried (c.phases task) → PhaseFacts base c.state task phase →
      Numbered base ⟨c.state, Function.update c.phases task phase⟩ := fun phase same holds =>
    numbered_move base c task c.state phase numbered steady rfl same holds
  cases running : c.phases task with
  | done => exact quiet .done (by rw [running]) trivial
  | pricing details =>
      simp only [resume]
      cases reply.asNumber with
      | error message => exact quiet .done (by rw [running]; rfl) trivial
      | ok maxFeePerGas =>
          simp only [afterPrice]
          cases details.gasLimit with
          | none => exact quiet _ (by rw [running]; rfl) trivial
          | some gasLimit => exact quiet _ (by rw [running]; rfl) trivial
  | estimating details maxFeePerGas =>
      simp only [resume]
      cases reply.asNumber with
      | error message => exact quiet .done (by rw [running]; rfl) trivial
      | ok gasLimit => exact quiet _ (by rw [running]; rfl) trivial
  | balancing priced =>
      simp only [resume]
      cases reply.asNumber with
      | error message => exact quiet .done (by rw [running]; rfl) trivial
      | ok signerBalance =>
          simp only []
          split
          · exact quiet _ (by rw [running]; rfl) trivial
          · exact quiet .done (by rw [running]; rfl) trivial
  | acquiring priced =>
      simp only [resume]
      split
      next free => exact numbered_acquired base c task priced numbered (Option.isNone_iff_eq_none.mp free)
      next => exact quiet _ (by rw [running]) trivial
  | counting priced =>
      rw [running] at facts
      simp only [resume]
      cases reply with
      | number n =>
          simp only [Counted, running] at counted
          have modest := plausible_modest base c _ _ (numbered.gapless _) counted
          exact numbered_move base c task (c.state.claim (some task) _) _ numbered ⟨rfl, fun _ => .inr rfl⟩ rfl
            (by rw [running]; rfl) ⟨facts, modest⟩
      | _ => exact quiet _ (by rw [running]; rfl) facts
  | raising priced count =>
      rw [running] at facts
      obtain ⟨mutex, modest⟩ := facts
      have raised := raise_steady base c.state priced.details.signer count modest
      have counter := raise_nonces base c.state priced.details.signer count modest
      have settled : base priced.details.signer ≤ (raise priced.details.signer count c.state).nonces
          priced.details.signer := counter.ge.trans' (le_max_right _ _)
      simp only [resume]
      exact numbered_move base c task ((raise priced.details.signer count c.state).claim (some task) _) _ numbered
        ⟨raised.mutex, raised.counted⟩ rfl (by rw [running]; rfl) ⟨mutex, rfl, settled⟩
  | signing priced nonce =>
      rw [running] at facts
      simp only [resume]
      cases made : sign config hash priced nonce reply c.state with
      | error message => exact quiet _ (by rw [running]; rfl) facts.1
      | ok pair =>
          obtain ⟨_, sender, number⟩ := sign_ok config hash priced nonce reply c.state pair.1 pair.2 made
          exact numbered_signed base c task priced nonce pair.1 pair.2 numbered running sender number
  | finding signed storedTx =>
      rw [running] at facts
      simp only [Stores, running] at stores
      simp only [resume, stores]
      exact quiet _ (by rw [running]; rfl) facts
  | inserting signed storedTx =>
      simp only [Stores, running] at stores
      obtain ⟨inserted, write, kept⟩ :=
        numbered_inserted base c task signed storedTx numbered running stores.2
      simp only [resume, stores.1, write]
      exact kept
  | releasing result =>
      cases result with
      | error message => exact numbered_released base c task _ .done numbered running trivial
      | ok signed => exact numbered_released base c task _ (.broadcasting signed) numbered running trivial
  | broadcasting signed =>
      exact numbered_move base c task { c.state with broadcasts := c.state.broadcasts ++ [signed] } .done numbered
        ⟨rfl, fun _ => .inr rfl⟩ rfl (by rw [running]; rfl) trivial
  | polling signer relayMaxNonce =>
      simp only [resume]
      cases reply with
      | number n =>
          simp only [Counted, running] at counted
          exact quiet _ (by rw [running]; rfl)
            (plausible_modest base c signer _ (numbered.gapless signer) counted)
      | _ => exact quiet .done (by rw [running]; rfl) trivial
  | pollRaising signer relayMaxNonce count =>
      rw [running] at facts
      exact numbered_move base c task (raise signer count c.state) .done numbered
        (raise_steady base c.state signer count facts) rfl (by rw [running]; rfl) trivial

theorem next_numbered (c : Calls) (event : CallEvent) (numbered : Numbered base c)
    (counted : Counted base c event) (stores : Stores c event) : Numbered base (next config hash c event) := by
  cases event with
  | start task call =>
      simp only [next]
      split
      next idle => exact start_numbered base c task call numbered idle
      next => exact numbered
  | resume task reply => exact resume_numbered config hash base c task reply numbered counted stores
  | outside mined => exact ⟨numbered.facts, numbered.gapless⟩

theorem initial_numbered (transactionType : TransactionType) (mined : Address → ℕ) :
    Numbered base (initial transactionType mined) := by
  refine ⟨fun _ => trivial, fun signer => ?_⟩
  simp [Gapless, storedNonces, initial, Relay.initial, inFlight]

/-- In all that calls of `sendTransaction` and `pollNonce` can do at the same time, no nonce is
left out, as long as `putTx` does not fail. -/
theorem stored_nonces_gapless (transactionType : TransactionType) (mined : Address → ℕ)
    (events : List CallEvent)
    (counted : Runs.Along (next config hash) (Counted base) events (initial transactionType mined))
    (stores : Runs.Along (next config hash) Stores events (initial transactionType mined))
    (signer : Address) :
    Gapless base (events.foldl (next config hash) (initial transactionType mined)) signer := by
  have numbered : Numbered base (events.foldl (next config hash) (initial transactionType mined)) :=
    Runs.along_invariant (next config hash) _ (Numbered base)
      (fun c event numbered permitted =>
        next_numbered config hash base c event numbered permitted.1 permitted.2) events _
      (initial_numbered base transactionType mined) (Runs.along_and (next config hash) _ _ events _ counted stores)
  exact numbered.gapless signer

/-- A `sendTransaction`: its balance, the mutex, its count, and all that follows. -/
def sends (task value count : ℕ) (lookup : Reply) : List CallEvent :=
  .start task (.send (transfer value)) ::
    [.number 1000000, .done, .number count, .done, .done, lookup].map (.resume task)

def fourDone (task : ℕ) : List CallEvent := [.done, .done, .done, .done].map (.resume task)

def polledEvents : List CallEvent :=
  sends 0 1 0 .done ++ .start 1 (.poll 22 5) :: .resume 1 (.number 0) :: fourDone 0 ++
    .resume 1 .done :: sends 2 2 1 .done ++ fourDone 2

theorem stored_nonces_gapless_polled :
    Gapless (fun _ => 0)
      (polledEvents.foldl (next sampleConfig sampleHash) (initial .typeTwo fun _ => 0)) 22 :=
  stored_nonces_gapless sampleConfig sampleHash (fun _ => 0) .typeTwo (fun _ => 0) polledEvents
    (by decide +kernel) (by decide +kernel) 22

def failedStore : List CallEvent :=
  sends 0 1 0 (.failed "disk full") ++ fourDone 0 ++ sends 1 2 0 .done ++ fourDone 1

theorem failed_store_leaves_gap :
    let c := failedStore.foldl (next sampleConfig sampleHash) (initial .typeTwo fun _ => 0)
    Runs.Along (next sampleConfig sampleHash) (Counted fun _ => 0) failedStore (initial .typeTwo fun _ => 0) ∧
      c.state.nonceMutex = none ∧ storedNonces c.state.txstore 22 = [1] ∧ c.state.nonces 22 = 2 ∧
      ¬ Gapless (fun _ => 0) c 22 := by
  decide +kernel

end OpenGsn.Relay.Allocation
