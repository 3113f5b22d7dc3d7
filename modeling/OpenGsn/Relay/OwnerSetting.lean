import OpenGsn.Relay.SendTransaction
import OpenGsn.Relay.SparedFields
import OpenGsn.Runs

/-! Whether `RegistrationManager.ts` comes to set the owner, of which `_isSetOwnerCalled` is to tell. -/

namespace OpenGsn.Relay

open Solidity Async Promise RegistrationManager

/-- The manager with the transactions that it shares with the rest of the server. -/
structure Owning where
  registration : Registration
  transactions : State

def OwnerStored (t : State) : Prop := ∃ tx ∈ t.txstore.written, tx.serverAction = .setOwner

/-- What the rest of the server does to the transactions while the manager waits. -/
structure Others where
  act : State → State
  written : ∀ t, t.txstore.written ⊆ (act t).txstore.written
  free : ∀ t, t.nonceMutex = none → (act t).nonceMutex = none

/-- What comes back to the manager, or to its transaction. -/
structure OwningReply where
  registration : RegistrationReply
  transaction : Reply
  others : Others

abbrev OwningPromise (α : Type) := Async.Promise Owning OwningReply String α

structure OwningConfig where
  registration : RegistrationConfig
  transactions : Config
  oneManager : registration.managerAddress = transactions.managerAddress
  oneWorker : registration.workerAddress = transactions.workerAddress

namespace Owning

variable (addresses : RelayHub.Immutables) (encodeABI : ContractMethod → Bytes)
  (hash : SignedTransaction → Uint256) (config : OwningConfig) (task : ℕ) (currentBlock : ShortBlockInfo)

def isSetOwnerCalled (s : Owning) : Bool := s.registration.manager.isSetOwnerCalled

def setRegistration (reply : OwningReply) (registration : Registration) (s : Owning) : Owning :=
  ⟨registration, reply.others.act s.transactions⟩

def setTransactions (transactions : State) (s : Owning) : Owning := { s with transactions := transactions }

def ofRegistration {α : Type} (promise : RegistrationPromise α) : OwningPromise α :=
  Promise.within registration setRegistration OwningReply.registration promise

def atOnce {α : Type} (promise : RegistrationPromise α) : OwningPromise α :=
  Promise.within registration (fun _ registration s => { s with registration := registration })
    OwningReply.registration promise

def ofTransactions {α : Type} (promise : Promise α) : OwningPromise α :=
  Promise.within transactions (fun _ => setTransactions) OwningReply.transaction promise

def ownerDetails : SendTransactionDetails :=
  details encodeABI config.registration currentBlock .setOwner
    (.setRelayManagerOwner config.registration.ownerAddress) addresses.stakeManager

def setOwnerInStakeManager : OwningPromise Uint256 := do
  let _setRelayManagerMethod ← atOnce (inquire fun _ _ => ())
  let signed ← ofTransactions (sendTransaction config.transactions hash task
    (ownerDetails addresses encodeABI config currentBlock))
  pure (hash signed)

def mustSetOwner (m : RegistrationManager) : Bool :=
  !m.isOwnerSetOnStakeManager && m.balanceRequired.isSatisfied && !m.isSetOwnerCalled

def setOwnerOnce : OwningPromise (List Uint256) := do
  let m ← atOnce (field id)
  if mustSetOwner m then do
    atOnce (assign fun m => { m with isSetOwnerCalled := true })
    let transactionHash ← setOwnerInStakeManager addresses encodeABI hash config task currentBlock
    pure [transactionHash]
  else pure []

/-- With the transaction manager that sets the owner. The other transactions are made by the rest
of the server here. -/
def handlePastEvents (scanned : ℕ) (forceRegistration : Bool) : OwningPromise (List Uint256) := do
  let isInitialized ← atOnce (field RegistrationManager.isInitialized)
  atOnce (expect (isInitialized = true) "RegistrationManager not initialized")
  let decodedEvents ← ofRegistration (inquire fun _ s => eventsFrom config.registration scanned s)
  let ownerSet ← setOwnerOnce addresses encodeABI hash config task currentBlock
  let handled ← ofRegistration
    (handleEvents addresses encodeABI config.registration currentBlock decodedEvents)
  let concluded ← ofRegistration
    (concludeEvents addresses encodeABI config.registration currentBlock forceRegistration)
  pure (ownerSet ++ handled ++ concluded)

/-! The parts that neither call nor lose a transaction. -/

structure Quiet (s t : Owning) : Prop where
  called : t.isSetOwnerCalled = s.isSetOwnerCalled
  written : s.transactions.txstore.written ⊆ t.transactions.txstore.written
  free : s.transactions.nonceMutex = none → t.transactions.nonceMutex = none

theorem quiet_refl (s : Owning) : Quiet s s :=
  ⟨rfl, List.Subset.refl _, fun free => free⟩

theorem quiet_trans (s t u : Owning) (first : Quiet s t) (second : Quiet t u) : Quiet s u :=
  ⟨second.called.trans first.called, List.Subset.trans first.written second.written,
    fun free => second.free (first.free free)⟩

theorem isSetOwnerCalled_spared : Spared RegistrationManager.isSetOwnerCalled :=
  ⟨fun _ _ => rfl, fun _ _ => rfl, fun _ _ => rfl, fun _ _ => rfl, fun _ _ => rfl⟩

theorem ofRegistration_quiet {α : Type} (promise : RegistrationPromise α)
    (spares : Spares RegistrationManager.isSetOwnerCalled promise) : Settles Quiet (ofRegistration promise) := by
  intro s
  have part := Proc.ends_within registration setRegistration OwningReply.registration (fun _ _ _ => rfl) _
    promise.run s (spares s.registration)
  have beside := Proc.alone_within registration setRegistration OwningReply.registration
    (fun s t : Owning => s.transactions.txstore.written ⊆ t.transactions.txstore.written ∧
      (s.transactions.nonceMutex = none → t.transactions.nonceMutex = none))
    (fun _ _ _ first second => ⟨List.Subset.trans first.1 second.1, fun free => second.2 (first.2 free)⟩)
    (fun answer _ state => ⟨answer.others.written state.transactions, answer.others.free state.transactions⟩)
    promise.run s s ⟨List.Subset.refl _, fun free => free⟩
  refine Proc.ends_weaken _ _ _ ?_ (Proc.ends_and _ s part beside)
  exact fun _ t kept => ⟨kept.1, kept.2.1, kept.2.2⟩

theorem handleEvent_called (event : StakeManager.Event) :
    Spares RegistrationManager.isSetOwnerCalled
      (handleEvent addresses encodeABI config.registration currentBlock event) := by
  have read := refreshStake_spares addresses encodeABI config.registration currentBlock isSetOwnerCalled_spared
  cases event with
  | ownerSet => exact read
  | stakeAdded => exact read
  | stakeUnlocked => exact read
  | stakeWithdrawn relayManager owner token amount =>
      apply then_spares read
      intro refreshed
      apply then_spares (sends_spares (withdrawAllFunds_sends addresses encodeABI _ currentBlock true))
      exact fun withdrawn => pure_spares _
  | hubAuthorized relayManager relayHub =>
      refine then_spares (assign_spares _ fun m => ?_) fun _ => pure_spares _
      unfold handleHubAuthorizedEvent
      split <;> rfl
  | hubUnauthorized relayManager relayHub removalTime =>
      refine then_spares (assign_spares _ fun m => ?_) fun _ => pure_spares _
      unfold handleHubUnauthorized
      split <;> rfl
  | _ => exact pure_spares _

theorem handleEvents_called (events : List StakeManager.Event) :
    Spares RegistrationManager.isSetOwnerCalled
      (handleEvents addresses encodeABI config.registration currentBlock events) := by
  induction events with
  | nil => exact pure_spares _
  | cons event rest ih =>
      apply then_spares (handleEvent_called addresses encodeABI config currentBlock event)
      intro first
      exact then_spares ih fun _ => pure_spares _

theorem concludeEvents_called (forceRegistration : Bool) :
    Spares RegistrationManager.isSetOwnerCalled
      (concludeEvents addresses encodeABI config.registration currentBlock forceRegistration) := by
  apply then_spares (settles_sync _ fun _ => rfl)
  intro due
  apply then_spares (sends_spares (handleDueEvents_sends addresses encodeABI _ currentBlock due))
  intro handledLate
  apply then_spares (refreshRegistrarRelayInfo_spares isSetOwnerCalled_spared)
  intro _
  exact then_spares (registerAgain_spares addresses encodeABI config.registration currentBlock
    isSetOwnerCalled_spared forceRegistration) fun _ => pure_spares _

def handleOnceSet (forceRegistration : Bool) (decodedEvents : List StakeManager.Event) (ownerSet : List Uint256) :
    OwningPromise (List Uint256) := do
  let handled ← ofRegistration
    (handleEvents addresses encodeABI config.registration currentBlock decodedEvents)
  let concluded ← ofRegistration
    (concludeEvents addresses encodeABI config.registration currentBlock forceRegistration)
  pure (ownerSet ++ handled ++ concluded)

theorem handleOnceSet_quiet (forceRegistration : Bool) (decodedEvents : List StakeManager.Event)
    (ownerSet : List Uint256) :
    Settles Quiet (handleOnceSet addresses encodeABI config currentBlock forceRegistration decodedEvents ownerSet) := by
  apply settles_bind quiet_trans
  · exact ofRegistration_quiet _ (handleEvents_called addresses encodeABI config currentBlock decodedEvents)
  intro handled
  apply settles_bind quiet_trans
  · exact ofRegistration_quiet _ (concludeEvents_called addresses encodeABI config currentBlock forceRegistration)
  exact fun concluded s => quiet_refl s

/-! The transaction. -/

section Steps

variable {α : Type} (replies : ℕ → OwningReply) (count : ℕ) (s : Owning)

theorem finish_field {β : Type} (read : RegistrationManager → β) (rest : β → OwningPromise α) :
    Proc.finish replies count (atOnce (field read) >>= rest : OwningPromise α) s =
      Proc.finish replies (count + 1) (rest (read s.registration.manager)) s := rfl

theorem finish_assign (change : RegistrationManager → RegistrationManager) (rest : Unit → OwningPromise α) :
    Proc.finish replies count (atOnce (assign change) >>= rest : OwningPromise α) s =
      Proc.finish replies (count + 1) (rest ())
        { s with registration := { s.registration with manager := change s.registration.manager } } := rfl

theorem finish_expect (condition : Prop) [Decidable condition] (message : String) (rest : Unit → OwningPromise α) :
    Proc.finish replies count (atOnce (expect condition message) >>= rest : OwningPromise α) s =
      if condition then Proc.finish replies count (rest ()) s else some (.error message, s) := by
  unfold expect
  split <;> rfl

theorem finish_demand (rest : Unit → OwningPromise α) :
    Proc.finish replies count (atOnce (inquire fun _ _ => ()) >>= rest : OwningPromise α) s =
      match (replies count).registration.error with
      | some message => some (.error message, s)
      | none => Proc.finish replies (count + 1) (rest ()) s := by
  have served : Proc.finish replies count (atOnce (inquire fun _ _ => ()) >>= rest : OwningPromise α) s =
      Proc.finish replies (count + 1) (ExceptT.bindCont rest ((replies count).registration.result ())) s := rfl
  rw [served, RegistrationReply.result]
  cases (replies count).registration.error with
  | some message => rfl
  | none => rfl

theorem finish_inquire {β : Type} (answer : Registration → β) (rest : β → OwningPromise α) :
    Proc.finish replies count (ofRegistration (inquire fun _ => answer) >>= rest : OwningPromise α) s =
      match (replies count).registration.error with
      | some message => some (.error message, setRegistration (replies count) s.registration s)
      | none => Proc.finish replies (count + 1) (rest (answer s.registration))
          (setRegistration (replies count) s.registration s) := by
  have served : Proc.finish replies count (ofRegistration (inquire fun _ => answer) >>= rest : OwningPromise α) s =
      Proc.finish replies (count + 1)
        (ExceptT.bindCont rest ((replies count).registration.result (answer s.registration)))
        (setRegistration (replies count) s.registration s) := rfl
  rw [served, RegistrationReply.result]
  cases (replies count).registration.error with
  | some message => rfl
  | none => rfl

end Steps

/-- The answers that the transaction needs, from the one with the method on. -/
def Replied (replies : ℕ → OwningReply) (count : ℕ) (s : Owning) : Prop :=
  (replies count).registration.error = none ∧
    Answered config.transactions hash (ownerDetails addresses encodeABI config currentBlock)
      (fun position => (replies position).transaction) (count + 1) s.transactions

theorem setOwner_writes (replies : ℕ → OwningReply) (count : ℕ) (s last : Owning) (result : Except String Uint256)
    (finished : Proc.finish replies count
      (setOwnerInStakeManager addresses encodeABI hash config task currentBlock) s = some (result, last)) :
    last.registration = s.registration ∧
      Writes .setOwner (Replied addresses encodeABI hash config currentBlock replies count s)
        s.transactions.txstore last.transactions.txstore result := by
  rw [setOwnerInStakeManager, finish_demand] at finished
  cases made : (replies count).registration.error with
  | some message =>
      rw [made] at finished
      cases finished
      refine ⟨rfl, .unstored ?_ rfl message rfl⟩
      intro replied
      cases made.symm.trans replied.1
  | none =>
      rw [made] at finished
      have ⟨value, middle, sent, rest⟩ := Proc.finish_bind _ _ _ _ _ _ finished
      have alone := Proc.finish_within transactions setTransactions OwningReply.transaction (fun _ => rfl)
        (fun _ _ => rfl) (fun _ _ _ => rfl) replies (sendTransaction config.transactions hash task
          (ownerDetails addresses encodeABI config currentBlock)).run (count + 1) s
      have ⟨⟨ended, t⟩, transacted, same⟩ := Option.map_eq_some_iff.mp (alone.symm.trans sent)
      cases same
      have writes := sendTransaction_writes config.transactions hash task _ _ _ s.transactions rfl rfl t ended
        transacted
      have kept : last = setTransactions t s := by
        cases ended with
        | ok signed => cases rest; rfl
        | error message => cases rest; rfl
      rw [kept]
      refine ⟨rfl, writes_congr (and_iff_right made).symm (writes_before writes rfl ?_)⟩
      rintro message rfl
      cases rest
      rfl

/-! With a free mutex, a pass does not wait for the rest of the server. -/

abbrev Free (s : Owning) : Prop := s.transactions.nonceMutex = none

theorem then_frees {α β : Type} {first : OwningPromise α} {rest : α → OwningPromise β} {s : Owning}
    (one : Proc.Ends (fun _ (t : Owning) => t.Free) first s)
    (two : ∀ value (t : Owning), t.Free → Proc.Ends (fun _ (u : Owning) => u.Free) (rest value) t) :
    Proc.Ends (fun _ (t : Owning) => t.Free) (first >>= rest : OwningPromise β) s :=
  ends_seq first rest s one (fun _ _ free => free) two

theorem setOwner_frees (s : Owning) (free : s.Free) :
    Proc.Ends (fun _ (t : Owning) => t.Free)
      (setOwnerInStakeManager addresses encodeABI hash config task currentBlock) s := by
  apply then_frees
  · exact ⟨rfl, fun _ => free⟩
  intro _ t free
  apply then_frees
  · exact Proc.ends_within transactions (fun _ => setTransactions) OwningReply.transaction (fun _ _ _ => rfl) _ _ t
      (sendTransaction_free config.transactions hash task _ t.transactions free)
  · exact fun signed u free => free

theorem setOwnerOnce_frees (s : Owning) (free : s.Free) :
    Proc.Ends (fun _ (t : Owning) => t.Free)
      (setOwnerOnce addresses encodeABI hash config task currentBlock) s := by
  apply then_frees
  · exact ⟨rfl, fun _ => free⟩
  intro m t free
  split
  · apply then_frees
    · exact ⟨rfl, fun _ => free⟩
    intro _ u free
    apply then_frees (setOwner_frees addresses encodeABI hash config task currentBlock u free)
    exact fun _ v free => free
  · exact free

theorem handlePastEvents_frees (scanned : ℕ) (forceRegistration : Bool) (s : Owning) (free : s.Free) :
    Proc.Ends (fun _ (t : Owning) => t.Free)
      (handlePastEvents addresses encodeABI hash config task currentBlock scanned forceRegistration) s := by
  apply then_frees
  · exact ⟨rfl, fun _ => free⟩
  intro isInitialized t free
  apply then_frees
  · exact free
  intro _ t free
  apply then_frees
  · exact ⟨rfl, fun reply => reply.others.free t.transactions free⟩
  intro decodedEvents t free
  apply then_frees (setOwnerOnce_frees addresses encodeABI hash config task currentBlock t free)
  intro ownerSet t free
  exact Proc.ends_weaken _ _ t (fun _ _ quiet => quiet.free free)
    (handleOnceSet_quiet addresses encodeABI config currentBlock forceRegistration decodedEvents ownerSet t)

end Owning

/-! Runs. -/

/-- One call of `handlePastEvents`, with the chain as it is then. -/
structure OwningPass where
  contracts : RelayHub.World
  relayUrl : Option String
  currentBlock : ShortBlockInfo
  scanned : ℕ
  forceRegistration : Bool
  task : ℕ
  replies : ℕ → OwningReply

namespace Owning

variable (addresses : RelayHub.Immutables) (encodeABI : ContractMethod → Bytes)
  (hash : SignedTransaction → Uint256) (config : OwningConfig) (s : Owning) (pass : OwningPass)

def start : Owning :=
  { s with registration := { s.registration with contracts := pass.contracts, relayUrl := pass.relayUrl } }

def next : Owning :=
  match Proc.finish pass.replies 0 (handlePastEvents addresses encodeABI hash config pass.task
    pass.currentBlock pass.scanned pass.forceRegistration) (s.start pass) with
  | none => s
  | some (_, t) => t

structure Calls : Prop where
  initialized : s.registration.manager.isInitialized = true
  decoded : (pass.replies 1).registration.error = none
  must : mustSetOwner s.registration.manager = true

def calling : Owning :=
  let t := s.start pass
  { registration := { t.registration with manager := { t.registration.manager with isSetOwnerCalled := true } }
    transactions := (pass.replies 1).others.act t.transactions }

def ownerCall : Option (Except String Uint256 × Owning) :=
  Proc.finish pass.replies 4 (setOwnerInStakeManager addresses encodeABI hash config pass.task pass.currentBlock)
    (s.calling pass)

theorem start_manager : (s.start pass).registration.manager = s.registration.manager := rfl

theorem next_finished (free : s.Free) :
    ∃ result last, Proc.finish pass.replies 0 (handlePastEvents addresses encodeABI hash config pass.task
        pass.currentBlock pass.scanned pass.forceRegistration) (s.start pass) = some (result, last) ∧
      s.next addresses encodeABI hash config pass = last ∧ last.Free := by
  have ⟨result, last, finished, freed⟩ := Proc.ends_finish _ pass.replies _ 0 (s.start pass)
    (handlePastEvents_frees addresses encodeABI hash config pass.task pass.currentBlock pass.scanned
      pass.forceRegistration (s.start pass) free)
  refine ⟨result, last, finished, ?_, freed⟩
  rw [next, finished]

theorem setOwnerOnce_calls (replies : ℕ → OwningReply) (task : ℕ) (currentBlock : ShortBlockInfo) (count : ℕ)
    (t last : Owning) (result : Except String (List Uint256)) (must : mustSetOwner t.registration.manager = true)
    (finished : Proc.finish replies count (setOwnerOnce addresses encodeABI hash config task currentBlock) t =
      some (result, last)) :
    ∃ value, Proc.finish replies (count + 2)
      (setOwnerInStakeManager addresses encodeABI hash config task currentBlock)
      { t with registration := { t.registration with
        manager := { t.registration.manager with isSetOwnerCalled := true } } } = some (value, last) := by
  rw [setOwnerOnce, finish_field, id, if_pos must, finish_assign] at finished
  have ⟨value, middle, called, same⟩ := finish_then Eq (fun _ => rfl) _ _ _
    (fun value => keeps_pure (fun _ => rfl) [value]) _ _ _ _ finished
  cases same
  exact ⟨value, called⟩

theorem setOwnerOnce_still (replies : ℕ → OwningReply) (task : ℕ) (currentBlock : ShortBlockInfo) (count : ℕ)
    (t last : Owning) (result : Except String (List Uint256))
    (mustNot : ¬ mustSetOwner t.registration.manager = true)
    (finished : Proc.finish replies count (setOwnerOnce addresses encodeABI hash config task currentBlock) t =
      some (result, last)) :
    last = t := by
  rw [setOwnerOnce, finish_field, id, if_neg mustNot] at finished
  cases finished
  rfl

def decoding : Owning :=
  setRegistration (pass.replies 1) (s.start pass).registration (s.start pass)

theorem decoding_quiet : Quiet s (s.decoding pass) :=
  ⟨rfl, (pass.replies 1).others.written s.transactions, (pass.replies 1).others.free s.transactions⟩

theorem next_decoded (free : s.Free) (initialized : s.registration.manager.isInitialized = true)
    (decoded : (pass.replies 1).registration.error = none) :
    ∃ value middle, Proc.finish pass.replies 2
        (setOwnerOnce addresses encodeABI hash config pass.task pass.currentBlock) (s.decoding pass) =
        some (value, middle) ∧
      Quiet middle (s.next addresses encodeABI hash config pass) := by
  have ⟨result, last, finished, same, _⟩ := next_finished addresses encodeABI hash config s pass free
  rw [handlePastEvents, finish_field, finish_expect, start_manager, if_pos initialized, finish_inquire] at finished
  simp only [decoded] at finished
  rw [same]
  exact finish_then Quiet quiet_refl _ _ _ (fun ownerSet => settles_keeps _ (handleOnceSet_quiet addresses encodeABI
    config pass.currentBlock pass.forceRegistration _ ownerSet)) _ _ _ _ finished

theorem next_calls (free : s.Free) (calls : s.Calls pass) :
    ∃ value middle, s.ownerCall addresses encodeABI hash config pass = some (value, middle) ∧
      Quiet middle (s.next addresses encodeABI hash config pass) := by
  have ⟨value, middle, finished, quiet⟩ :=
    next_decoded addresses encodeABI hash config s pass free calls.initialized calls.decoded
  have ⟨result, called⟩ :=
    setOwnerOnce_calls addresses encodeABI hash config _ _ _ _ (s.decoding pass) _ _ calls.must finished
  exact ⟨result, middle, called, quiet⟩

theorem next_quiet (free : s.Free) (callsNot : ¬ s.Calls pass) :
    Quiet s (s.next addresses encodeABI hash config pass) := by
  have ⟨result, last, finished, same, _⟩ := next_finished addresses encodeABI hash config s pass free
  by_cases initialized : s.registration.manager.isInitialized = true
  · cases decoded : (pass.replies 1).registration.error with
    | none =>
        have ⟨value, middle, ended, quiet⟩ :=
          next_decoded addresses encodeABI hash config s pass free initialized decoded
        have still := setOwnerOnce_still addresses encodeABI hash config _ _ _ _ (s.decoding pass) _ _
          (fun must => callsNot ⟨initialized, decoded, must⟩) ended
        rw [still] at quiet
        exact quiet_trans _ _ _ (decoding_quiet s pass) quiet
    | some message =>
        rw [handlePastEvents, finish_field, finish_expect, start_manager, if_pos initialized, finish_inquire]
          at finished
        simp only [decoded] at finished
        cases finished
        rw [same]
        exact decoding_quiet s pass
  · rw [handlePastEvents, finish_field, finish_expect, start_manager, if_neg initialized] at finished
    cases finished
    rw [same]
    exact ⟨rfl, List.Subset.refl _, fun free => free⟩

/-- If `_isSetOwnerCalled`, the transaction was stored. -/
def OwnerSent : Prop := s.isSetOwnerCalled = true → OwnerStored s.transactions

/-- A call that fails before it has stored anything does not set `_isSetOwnerCalled`. -/
def Retries : Prop :=
  s.Calls pass → ∀ message t, s.ownerCall addresses encodeABI hash config pass = some (.error message, t) →
    t.transactions.txstore.written = (s.calling pass).transactions.txstore.written →
      (s.next addresses encodeABI hash config pass).isSetOwnerCalled = false

/-- The answers to the pass are such that its transaction is stored, if it makes one. -/
def Allowed : Prop :=
  s.Calls pass → Replied addresses encodeABI hash config pass.currentBlock pass.replies 4 (s.calling pass)

theorem next_free (free : s.Free) : (s.next addresses encodeABI hash config pass).Free := by
  have ⟨result, last, finished, same, freed⟩ := next_finished addresses encodeABI hash config s pass free
  rw [same]
  exact freed

theorem next_called (free : s.Free) (calls : s.Calls pass) :
    (s.next addresses encodeABI hash config pass).isSetOwnerCalled = true := by
  have ⟨value, middle, called, quiet⟩ := next_calls addresses encodeABI hash config s pass free calls
  have ⟨kept, _⟩ := setOwner_writes addresses encodeABI hash config _ _ _ _ _ _ _ called
  rw [quiet.called, isSetOwnerCalled, kept]
  rfl

theorem retries_iff (free : s.Free) :
    s.Retries addresses encodeABI hash config pass ↔ s.Allowed addresses encodeABI hash config pass := by
  refine forall_congr' fun calls => ?_
  have ⟨value, middle, called, quiet⟩ := next_calls addresses encodeABI hash config s pass free calls
  have ⟨_, writes⟩ := setOwner_writes addresses encodeABI hash config _ _ _ _ _ _ _ called
  have raised := next_called addresses encodeABI hash config s pass free calls
  constructor
  · intro retries
    cases writes with
    | stored given tx about written => exact given
    | unstored lacking same message failed =>
        have lowered := retries message middle (by rw [called, failed]) (by rw [same])
        cases raised.symm.trans lowered
  · intro replied message t failed same
    cases called.symm.trans failed
    cases writes with
    | stored given tx about written =>
        rw [written] at same
        have longer := congrArg List.length same
        rw [List.length_append] at longer
        exact absurd longer (Nat.succ_ne_self _)
    | unstored lacking => exact absurd replied lacking

theorem next_sent (free : s.Free) (sent : s.OwnerSent) (allowed : s.Allowed addresses encodeABI hash config pass) :
    (s.next addresses encodeABI hash config pass).OwnerSent := by
  intro raised
  by_cases calls : s.Calls pass
  · have ⟨value, middle, called, quiet⟩ := next_calls addresses encodeABI hash config s pass free calls
    have ⟨_, writes⟩ := setOwner_writes addresses encodeABI hash config _ _ _ _ _ _ _ called
    cases writes with
    | stored given tx about written =>
        refine ⟨tx, quiet.written ?_, about⟩
        rw [written]
        exact List.mem_append_right _ List.mem_cons_self
    | unstored lacking => exact absurd (allowed calls) lacking
  · have quiet := next_quiet addresses encodeABI hash config s pass free calls
    rw [quiet.called] at raised
    have ⟨tx, member, about⟩ := sent raised
    exact ⟨tx, quiet.written member, about⟩

/-- Both hold in a run exactly if every call is answered so that its transaction is stored. -/
theorem ownerSent_iff_allowed (passes : List OwningPass) (free : s.Free) (new : s.isSetOwnerCalled = false) :
    (Runs.Always (next addresses encodeABI hash config) OwnerSent passes s ∧
        Runs.Along (next addresses encodeABI hash config) (Retries addresses encodeABI hash config) passes s) ↔
      Runs.Along (next addresses encodeABI hash config) (Allowed addresses encodeABI hash config) passes s := by
  have frees : ∀ (t : Owning) (pass : OwningPass), t.Free → (t.next addresses encodeABI hash config pass).Free :=
    fun t pass => next_free addresses encodeABI hash config t pass
  constructor
  · rintro ⟨_, retries⟩
    exact Runs.along_implied _ _ _ Free (fun t pass free _ => frees t pass free)
      (fun t pass free => (retries_iff addresses encodeABI hash config t pass free).mp) passes s free retries
  · intro allowed
    constructor
    · refine Runs.along_always _ _ (fun t => t.Free ∧ t.OwnerSent) OwnerSent ?_ (fun _ both => both.2) passes s
        ⟨free, fun called => ?_⟩ allowed
      · exact fun t pass both given => ⟨frees t pass both.1,
          next_sent addresses encodeABI hash config t pass both.1 both.2 given⟩
      · cases new.symm.trans called
    · exact Runs.along_implied _ _ _ Free (fun t pass free _ => frees t pass free)
        (fun t pass free => (retries_iff addresses encodeABI hash config t pass free).mpr) passes s free allowed

def unownedConfig : OwningConfig where
  registration := ⟨31, 30, "https://relay.example", 2, 4, 0, 1000000⟩
  transactions := ⟨31, 30, 1, id, 100, 0, 0, 0⟩
  oneManager := rfl
  oneWorker := rfl

def unownedWorld : RelayHub.World :=
  RelayHub.stakedWorld.setStakeManager StakeManager.sampleStart

def unowned : Owning where
  registration := ⟨unownedWorld, none, { fresh with isInitialized := true }, []⟩
  transactions := ⟨fun _ => 0, none, .legacy, ⟨[], []⟩, fun _ => 0, [], []⟩

def quietOthers : Others := ⟨id, fun _ => List.Subset.refl _, fun _ free => free⟩

def passWith (transaction : ℕ → Reply) : OwningPass where
  contracts := unownedWorld
  relayUrl := some "https://relay.example"
  currentBlock := ⟨0, 1, 1⟩
  scanned := 0
  forceRegistration := false
  task := 0
  replies := fun position => ⟨default, transaction position, quietOthers⟩

def answeredPass : OwningPass := passWith fun _ => .number 1

def estimateFailsPass : OwningPass :=
  passWith fun position => if position = 6 then .failed "execution reverted" else .number 1

abbrev nextUnowned : Owning → OwningPass → Owning :=
  next RelayHub.sampleAddresses (fun _ => []) (fun _ => 7) unownedConfig

theorem ownerSent_iff_allowed_once :
    Runs.Always nextUnowned OwnerSent [answeredPass] unowned ∧
      Runs.Along nextUnowned (Retries RelayHub.sampleAddresses (fun _ => []) (fun _ => 7) unownedConfig)
        [answeredPass] unowned := by
  refine (ownerSent_iff_allowed RelayHub.sampleAddresses (fun _ => []) (fun _ => 7) unownedConfig unowned
    [answeredPass] rfl rfl).mpr ⟨fun _ => ?_, trivial⟩
  have signable : Signable unownedConfig.transactions (ownerDetails RelayHub.sampleAddresses (fun _ => [])
      unownedConfig ⟨0, 1, 1⟩) (fun _ => .number 1) 11 (unowned.calling answeredPass).transactions 1 1 1 :=
    ⟨rfl, by decide +kernel, by decide +kernel, .inl rfl⟩
  exact ⟨rfl, 1, rfl, 1, rfl, 1, rfl, by decide, by decide +kernel, 1,
    ⟨rfl, signable, rfl, rfl, fun other member => (nomatch member)⟩⟩

/-- The estimate fails once, and the next pass, where it would not, does not set the owner. -/
theorem owner_forgotten :
    ¬∀ (s : Owning) (passes : List OwningPass), s.Free → s.isSetOwnerCalled = false →
      Runs.Always nextUnowned OwnerSent passes s ∧
        Runs.Along nextUnowned (Retries RelayHub.sampleAddresses (fun _ => []) (fun _ => 7) unownedConfig)
          passes s := by
  intro retried
  have last := Runs.always_end _ _ _ _ (retried unowned [estimateFailsPass, answeredPass] rfl rfl).1
  have ⟨tx, member, _⟩ := last (by decide +kernel)
  rw [show (List.foldl nextUnowned unowned [estimateFailsPass, answeredPass]).transactions.txstore.written = []
    by decide +kernel] at member
  cases member

end Owning

end OpenGsn.Relay
