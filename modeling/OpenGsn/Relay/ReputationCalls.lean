import OpenGsn.Async.Resume
import OpenGsn.Relay.ReputationManager

/-! The calls for one paymaster that run at the same time, each at one of its awaits. -/

namespace OpenGsn.Relay.Reputation

open Async

/-- What an update of the entry is for. A change comes with the entry that it was computed from, an
accepted request with its number in the order of the calls. -/
inductive UpdatePurpose : Type
  | accepted (number now : ℕ)
  | clearing (entry : ReputationEntry)
  | flagging (change : ℤ) (eventBlockNumber : ℕ)
  | changing (base : ReputationEntry) (change : ℤ) (eventBlockNumber : ℕ)

/-- Where a call is. The phases up to `releasing` are those of `getPaymasterStatus`; `finding` and
`writing` are the two awaits of `updateEntry`, whoever calls it. -/
inductive Phase : Type
  | done
  | acquiring (currentBlockNumber : ℕ)
  | looking (currentBlockNumber : ℕ)
  | adding (currentBlockNumber : ℕ)
  | judging (entry : ReputationEntry)
  | releasing (result : Except String PaymasterStatus)
  | reading (change : ℤ) (eventBlockNumber : ℕ)
  | creating (change : ℤ) (eventBlockNumber : ℕ)
  | merging (change : ℤ) (eventBlockNumber : ℕ)
  | finding (purpose : UpdatePurpose)
  | writing (purpose : UpdatePurpose) (existing : ReputationEntry)

variable (config : ReputationManagerConfiguration) (paymaster : AddressText)

def UpdatePurpose.update : UpdatePurpose → ReputationUpdate
  | .accepted _ now => acceptedUpdate now
  | .clearing _ => clearUpdate config.abuseTimeoutReputation
  | .flagging _ eventBlockNumber => flagUpdate eventBlockNumber
  | .changing base change eventBlockNumber =>
      changesUpdate base change (oldChangesExpirationBlock config eventBlockNumber) eventBlockNumber

/-- `updatePaymasterReputation` up to its first await -/
def mergePhase (change : ℤ) (eventBlockNumber : ℕ) : Phase :=
  match checkExpiration (oldChangesExpirationBlock config eventBlockNumber) eventBlockNumber with
  | .ok _ => .merging change eventBlockNumber
  | .error _ => .done

def recordPhase (change : ℤ) (eventBlockNumber : ℕ) (entry : ReputationEntry) : Phase :=
  if config.maximumReputation < entry.reputation + change then .done
  else if tooFast config entry eventBlockNumber then .finding (.flagging change eventBlockNumber)
  else mergePhase config change eventBlockNumber

def statusPhase (currentBlockNumber : ℕ) (entry : ReputationEntry) : Phase :=
  if entry.reputation ≤ config.blockReputation then .releasing (.ok .blocked)
  else if clears config entry currentBlockNumber then .finding (.clearing entry)
  else if entry.abuseStartedBlock ≠ 0 then .releasing (.ok .abused)
  else .judging entry

def UpdatePurpose.written : UpdatePurpose → Phase
  | .accepted _ _ => .done
  | .clearing entry => .judging entry
  | .flagging change eventBlockNumber => mergePhase config change eventBlockNumber
  | .changing _ _ _ => .done

def UpdatePurpose.missing : UpdatePurpose → Phase
  | .clearing _ => .releasing (.error "Cannot read properties of null")
  | _ => .done

def withStore (store : ReputationStore) (s : ReputationState) : ReputationState := { s with store := store }

def resume (task now : ℕ) (s : ReputationState) : Phase → ReputationState × Phase
  | .done => (s, .done)
  | .acquiring currentBlockNumber =>
      if s.mutex.isNone then ({ s with mutex := some task }, .looking currentBlockNumber)
      else (s, .acquiring currentBlockNumber)
  | .looking currentBlockNumber =>
      (s, match s.store.findOne paymaster with
        | some entry => statusPhase config currentBlockNumber entry
        | none => .adding currentBlockNumber)
  | .adding currentBlockNumber =>
      match insertEntry (newEntry paymaster config.initialReputation) s.store with
      | (.ok entry, store) => (withStore store s, statusPhase config currentBlockNumber entry)
      | (.error message, store) => (withStore store s, .releasing (.error message))
  | .judging entry => (s, .releasing (.ok (throttled config entry now)))
  | .releasing _ => (releaseMutex s, .done)
  | .reading change eventBlockNumber =>
      (s, match s.store.findOne paymaster with
        | some entry => recordPhase config change eventBlockNumber entry
        | none => .creating change eventBlockNumber)
  | .creating change eventBlockNumber =>
      match insertEntry (newEntry paymaster config.initialReputation) s.store with
      | (.ok entry, store) => (withStore store s, recordPhase config change eventBlockNumber entry)
      | (.error _, store) => (withStore store s, .done)
  | .merging change eventBlockNumber =>
      (s, match s.store.findOne paymaster with
        | some base => .finding (.changing base change eventBlockNumber)
        | none => .done)
  | .finding purpose =>
      (s, match s.store.findOne paymaster with
        | some existing => .writing purpose existing
        | none => purpose.missing)
  | .writing purpose existing =>
      (withStore (s.store.update ((purpose.update config).assign existing)) s,
        purpose.written config)

/-! The phases are the code at its awaits. -/

section Code

/-- What is left of `getPaymasterStatus` while `body` is left of its `try`. -/
def locked (body : Promise PaymasterStatus) : Promise PaymasterStatus := Promise.ensure body releaseMutex

def codeAfterWrite (write : Promise Unit) : UpdatePurpose → Proc ReputationState ℕ Unit
  | .accepted _ _ => Promise.settled write
  | .clearing entry => Promise.settled (locked (do
      write
      judge config entry))
  | .flagging change eventBlockNumber => Promise.settled (do
      write
      updatePaymasterReputation paymaster change (oldChangesExpirationBlock config eventBlockNumber) eventBlockNumber)
  | .changing _ _ _ => Promise.settled write

def code (task : ℕ) : Phase → Proc ReputationState ℕ Unit
  | .done => .done ()
  | .acquiring currentBlockNumber => Promise.settled (getPaymasterStatus config task paymaster currentBlockNumber)
  | .looking currentBlockNumber => Promise.settled (locked (do
      let existing ← getEntry paymaster
      let entry ← orCreate config paymaster existing
      statusOf config paymaster currentBlockNumber entry))
  | .adding currentBlockNumber => Promise.settled (locked (do
      let entry ← createEntry paymaster config.initialReputation
      statusOf config paymaster currentBlockNumber entry))
  | .judging entry => Promise.settled (locked (judge config entry))
  | .releasing result => Promise.settled (locked (Promise.ofExcept result))
  | .reading change eventBlockNumber => Promise.settled (do
      let existing ← getEntry paymaster
      let entry ← orCreate config paymaster existing
      recordChange config paymaster change eventBlockNumber entry)
  | .creating change eventBlockNumber => Promise.settled (do
      let entry ← createEntry paymaster config.initialReputation
      recordChange config paymaster change eventBlockNumber entry)
  | .merging change eventBlockNumber => Promise.settled (do
      let found ← findOne paymaster
      let base ← Promise.ofExcept (orTypeError found)
      updateEntry paymaster
        (changesUpdate base change (oldChangesExpirationBlock config eventBlockNumber) eventBlockNumber))
  | .finding purpose =>
      codeAfterWrite config paymaster (updateEntry paymaster (purpose.update config)) purpose
  | .writing purpose existing =>
      codeAfterWrite config paymaster (writeEntry ((purpose.update config).assign existing)) purpose

theorem code_mergePhase (task : ℕ) (change : ℤ) (eventBlockNumber : ℕ) :
    code config paymaster task (mergePhase config change eventBlockNumber) =
      Promise.settled (updatePaymasterReputation paymaster change
        (oldChangesExpirationBlock config eventBlockNumber) eventBlockNumber) := by
  unfold mergePhase updatePaymasterReputation
  cases checkExpiration (oldChangesExpirationBlock config eventBlockNumber) eventBlockNumber with
  | error message => rfl
  | ok value => rfl

theorem code_recordPhase (task : ℕ) (change : ℤ) (eventBlockNumber : ℕ) (entry : ReputationEntry) :
    code config paymaster task (recordPhase config change eventBlockNumber entry) =
      Promise.settled (recordChange config paymaster change eventBlockNumber entry) := by
  unfold recordPhase recordChange
  split
  · rfl
  · split
    · rfl
    · exact code_mergePhase config paymaster task change eventBlockNumber

theorem code_statusPhase (task currentBlockNumber : ℕ) (entry : ReputationEntry) :
    code config paymaster task (statusPhase config currentBlockNumber entry) =
      Promise.settled (locked (statusOf config paymaster currentBlockNumber entry)) := by
  unfold statusPhase statusOf
  split
  · rfl
  · split
    · rfl
    · split
      · rfl
      · rfl

/-- Each phase waits once, and what the code does then is the next phase. -/
theorem code_resume (task now : ℕ) (s : ReputationState) (phase : Phase) :
    (code config paymaster task phase).resume now s =
      ((resume config paymaster task now s phase).1,
        code config paymaster task (resume config paymaster task now s phase).2) := by
  cases phase with
  | done => rfl
  | acquiring currentBlockNumber =>
      calc (code config paymaster task (.acquiring currentBlockNumber)).resume now s
          = if s.mutex.isNone = true then
              ({ s with mutex := some task }, code config paymaster task (.looking currentBlockNumber))
            else (s, code config paymaster task (.acquiring currentBlockNumber)) := rfl
        _ = _ := by
            simp only [resume]
            split
            · rfl
            · rfl
  | looking currentBlockNumber =>
      rw [code, locked, getEntry, findOne, onStore, Promise.resume_ensured]
      simp only [resume]
      cases s.store.findOne paymaster with
      | none => rfl
      | some entry => exact Prod.ext rfl (code_statusPhase config paymaster task currentBlockNumber entry).symm
  | adding currentBlockNumber =>
      rw [code, locked, createEntry, onStore, Promise.resume_ensured]
      simp only [resume]
      cases insertEntry (newEntry paymaster config.initialReputation) s.store with
      | mk result store =>
          cases result with
          | error message => rfl
          | ok entry => exact Prod.ext rfl (code_statusPhase config paymaster task currentBlockNumber entry).symm
  | judging entry => rfl
  | releasing result =>
      cases result with
      | error message => rfl
      | ok status => rfl
  | reading change eventBlockNumber =>
      rw [code, getEntry, findOne, onStore, Promise.resume_served]
      simp only [resume]
      cases s.store.findOne paymaster with
      | none => rfl
      | some entry => exact Prod.ext rfl (code_recordPhase config paymaster task change eventBlockNumber entry).symm
  | creating change eventBlockNumber =>
      rw [code, createEntry, onStore, Promise.resume_served]
      simp only [resume]
      cases insertEntry (newEntry paymaster config.initialReputation) s.store with
      | mk result store =>
          cases result with
          | error message => rfl
          | ok entry => exact Prod.ext rfl (code_recordPhase config paymaster task change eventBlockNumber entry).symm
  | merging change eventBlockNumber =>
      rw [code, findOne, onStore, Promise.resume_served]
      simp only [resume]
      cases s.store.findOne paymaster with
      | none => rfl
      | some base => rfl
  | finding purpose =>
      cases purpose with
      | clearing entry =>
          rw [code, codeAfterWrite, updateEntry, locked, findOne, onStore, bind_assoc, Promise.resume_ensured]
          simp only [resume]
          cases s.store.findOne paymaster with
          | none => rfl
          | some existing => rfl
      | flagging change eventBlockNumber =>
          rw [code, codeAfterWrite, updateEntry, findOne, onStore, bind_assoc, Promise.resume_served]
          simp only [resume]
          cases s.store.findOne paymaster with
          | none => rfl
          | some existing => rfl
      | accepted number now =>
          rw [code, codeAfterWrite, updateEntry, findOne, onStore, Promise.resume_served]
          simp only [resume]
          cases s.store.findOne paymaster with
          | none => rfl
          | some existing => rfl
      | changing base change eventBlockNumber =>
          rw [code, codeAfterWrite, updateEntry, findOne, onStore, Promise.resume_served]
          simp only [resume]
          cases s.store.findOne paymaster with
          | none => rfl
          | some existing => rfl
  | writing purpose existing =>
      cases purpose with
      | accepted number now => rfl
      | clearing entry => rfl
      | flagging change eventBlockNumber =>
          exact Prod.ext rfl (code_mergePhase config paymaster task change eventBlockNumber).symm
      | changing base change eventBlockNumber => rfl

end Code

/-! Any number of calls -/

inductive Call : Type
  | getPaymasterStatus (currentBlockNumber : ℕ)
  | onRelayRequestAccepted (now : ℕ)
  | updatePaymasterStatus (transactionSuccess : Bool) (eventBlockNumber : ℕ)
  deriving DecidableEq, Repr

def Call.program (task : ℕ) : Call → Proc ReputationState ℕ Unit
  | .getPaymasterStatus currentBlockNumber =>
      Promise.settled (Reputation.getPaymasterStatus config task paymaster currentBlockNumber)
  | .onRelayRequestAccepted now => Promise.settled (Reputation.onRelayRequestAccepted paymaster now)
  | .updatePaymasterStatus transactionSuccess eventBlockNumber =>
      Promise.settled (Reputation.updatePaymasterStatus config paymaster transactionSuccess eventBlockNumber)

def Call.first (number : ℕ) : Call → Phase
  | .getPaymasterStatus currentBlockNumber => .acquiring currentBlockNumber
  | .onRelayRequestAccepted now => .finding (.accepted number now)
  | .updatePaymasterStatus transactionSuccess eventBlockNumber =>
      .reading (changeOf transactionSuccess) eventBlockNumber

theorem code_first (task number : ℕ) (call : Call) :
    code config paymaster task (call.first number) = call.program config paymaster task := by
  cases call with
  | getPaymasterStatus currentBlockNumber => rfl
  | onRelayRequestAccepted now => rfl
  | updatePaymasterStatus transactionSuccess eventBlockNumber => rfl

/-- The change that a call has still to record, unless the check of its expiration block refuses it. -/
def unlessRefused (change : ℤ) (eventBlockNumber : ℕ) : Option ℤ :=
  match checkExpiration (oldChangesExpirationBlock config eventBlockNumber) eventBlockNumber with
  | .ok _ => some change
  | .error _ => none

def UpdatePurpose.owed : UpdatePurpose → Option ℤ
  | .flagging change eventBlockNumber => unlessRefused config change eventBlockNumber
  | .changing _ change _ => some change
  | _ => none

def owed : Phase → Option ℤ
  | .reading change eventBlockNumber => unlessRefused config change eventBlockNumber
  | .creating change eventBlockNumber => unlessRefused config change eventBlockNumber
  | .merging change _ => some change
  | .finding purpose => purpose.owed config
  | .writing purpose _ => purpose.owed config
  | _ => none

def settledChange (before later : Option ℤ) : List ℤ :=
  match before, later with
  | some change, none => [change]
  | _, _ => []

/-- `ended`, `accepted` and `written` are history variables: the changes of the calls of
`updatePaymasterStatus` that have ended, the timestamp at the start and those of the calls of
`onRelayRequestAccepted`, in the order of the calls, and which of them was written last. -/
structure Calls where
  state : ReputationState
  phases : ℕ → Phase
  ended : List ℤ
  accepted : List ℕ
  written : ℕ

inductive Event : Type
  | start (task : ℕ) (call : Call)
  | resume (task now : ℕ)
  deriving DecidableEq, Repr

def Call.acceptedAt : Call → List ℕ
  | .onRelayRequestAccepted now => [now]
  | _ => []

def lastWritten (written : ℕ) : Phase → ℕ
  | .writing (.accepted number _) _ => number
  | _ => written

def Calls.begin (task : ℕ) (call : Call) (c : Calls) : Calls :=
  { c with
    phases := Function.update c.phases task (call.first c.accepted.length)
    accepted := c.accepted ++ call.acceptedAt }

def next (c : Calls) : Event → Calls
  | .start task call =>
      match c.phases task with
      | .done => c.begin task call
      | _ => c
  | .resume task now =>
      let moved := resume config paymaster task now c.state (c.phases task)
      { state := moved.1
        phases := Function.update c.phases task moved.2
        ended := c.ended ++ settledChange (owed config (c.phases task)) (owed config moved.2)
        accepted := c.accepted
        written := lastWritten c.written (c.phases task) }

/-- The reputation of a paymaster without an entry is the one that it will start with. -/
def reputationOf (entry : Option ReputationEntry) : ℤ :=
  (entry.map ReputationEntry.reputation).getD config.initialReputation

def timestampOf (entry : Option ReputationEntry) : ℕ :=
  (entry.map ReputationEntry.lastAcceptedRelayRequestTs).getD 0

def initial (store : ReputationStore) : Calls :=
  ⟨⟨store, none⟩, fun _ => .done, [], [timestampOf (store.findOne paymaster)], 0⟩

end OpenGsn.Relay.Reputation
