import OpenGsn.Async.Proc
import OpenGsn.Utils
import Mathlib

/-! `ReputationEntry.ts`, `ReputationStoreManager.ts` and `ReputationManager.ts`, cut at their awaits.

An operation of the database is one step and does not fail for reasons of its own. -/

namespace OpenGsn.Relay

structure ReputationChange where
  blockNumber : ℕ
  change : ℤ
  deriving DecidableEq, Repr

structure ReputationEntry where
  paymaster : AddressText
  reputation : ℤ
  lastAcceptedRelayRequestTs : ℕ
  abuseStartedBlock : ℕ
  changes : List ReputationChange
  deriving DecidableEq, Repr

/-- `Partial<ReputationEntry>`, in which no update names the paymaster. -/
structure ReputationUpdate where
  reputation : Option ℤ
  lastAcceptedRelayRequestTs : Option ℕ
  abuseStartedBlock : Option ℕ
  changes : Option (List ReputationChange)
  deriving DecidableEq, Repr

/-- `Object.assign({}, existing, update)` -/
def ReputationUpdate.assign (update : ReputationUpdate) (existing : ReputationEntry) : ReputationEntry :=
  { paymaster := existing.paymaster
    reputation := update.reputation.getD existing.reputation
    lastAcceptedRelayRequestTs := update.lastAcceptedRelayRequestTs.getD existing.lastAcceptedRelayRequestTs
    abuseStartedBlock := update.abuseStartedBlock.getD existing.abuseStartedBlock
    changes := update.changes.getD existing.changes }

/-- The index on `paymaster` is unique: every entry is found under its own paymaster. -/
structure ReputationStore where
  entries : AddressText → Option ReputationEntry
  indexed : ∀ key entry, entries key = some entry → entry.paymaster = key

namespace ReputationStore

def put (entry : ReputationEntry) (store : ReputationStore) : ReputationStore where
  entries := Function.update store.entries entry.paymaster (some entry)
  indexed := by
    intro key other found
    by_cases same : key = entry.paymaster
    · subst same
      rw [Function.update_self] at found
      rw [← Option.some.inj found]
    · rw [Function.update_of_ne same] at found
      exact store.indexed key other found

def findOne (paymaster : AddressText) (store : ReputationStore) : Option ReputationEntry :=
  store.entries (toLowerCase paymaster)

def insert (entry : ReputationEntry) (store : ReputationStore) : Except String ReputationStore :=
  match store.entries entry.paymaster with
  | some _ => .error "Can't insert key, it violates the unique constraint"
  | none => .ok (store.put entry)

/-- `updateAsync({ paymaster: existing.paymaster }, { $set: entry })` -/
def update (entry : ReputationEntry) (store : ReputationStore) : ReputationStore :=
  match store.entries entry.paymaster with
  | some _ => store.put entry
  | none => store

def empty : ReputationStore := ⟨fun _ => none, nofun⟩

end ReputationStore

structure ReputationManagerConfiguration where
  initialReputation : ℤ
  maximumReputation : ℤ
  throttleReputation : ℤ
  throttleDelayMs : ℤ
  blockReputation : ℤ
  abuseReputationChange : ℤ
  abuseTimeWindowBlocks : ℤ
  abuseBlacklistDurationBlocks : ℤ
  abuseTimeoutReputation : ℤ
  deriving DecidableEq, Repr

def defaultReputationConfig : ReputationManagerConfiguration where
  initialReputation := 6
  maximumReputation := 100
  throttleReputation := 5
  throttleDelayMs := 60000
  blockReputation := 0
  abuseTimeoutReputation := 1
  abuseReputationChange := 20
  abuseTimeWindowBlocks := 240
  abuseBlacklistDurationBlocks := 6000

inductive PaymasterStatus : Type
  | good
  | throttled
  | abused
  | blocked
  deriving DecidableEq, Repr

/-- The database and the mutex of the manager. -/
structure ReputationState where
  store : ReputationStore
  mutex : Option ℕ

namespace Reputation

open Async

/-- A reply is what `Date.now()` says. -/
abbrev Promise (α : Type) := Async.Promise ReputationState ℕ String α

/-! `ReputationStoreManager.ts` -/

def onStore {α : Type} (act : ReputationStore → Except String α × ReputationStore) : Promise α :=
  Promise.serve fun _ s => ((act s.store).1, { s with store := (act s.store).2 })

def dateNow : Promise ℕ := Promise.serve fun now s => (.ok now, s)

def findOne (paymaster : AddressText) : Promise (Option ReputationEntry) :=
  onStore fun store => (.ok (store.findOne paymaster), store)

def getEntry (paymaster : AddressText) : Promise (Option ReputationEntry) := findOne paymaster

def newEntry (paymaster : AddressText) (reputation : ℤ) : ReputationEntry :=
  ⟨toLowerCase paymaster, reputation, 0, 0, []⟩

def insertEntry (entry : ReputationEntry) (store : ReputationStore) : Except String ReputationEntry × ReputationStore :=
  match store.insert entry with
  | .ok inserted => (.ok entry, inserted)
  | .error message => (.error message, store)

def createEntry (paymaster : AddressText) (reputation : ℤ) : Promise ReputationEntry :=
  onStore (insertEntry (newEntry paymaster reputation))

/-- A property of `null` is read. -/
def orTypeError : Option ReputationEntry → Except String ReputationEntry
  | some existing => .ok existing
  | none => .error "Cannot read properties of null"

def writeEntry (entry : ReputationEntry) : Promise Unit := onStore fun store => (.ok (), store.update entry)

def updateEntry (paymaster : AddressText) (update : ReputationUpdate) : Promise Unit := do
  let found ← findOne paymaster
  let existing ← Promise.ofExcept (orTypeError found)
  writeEntry (update.assign existing)

def clearUpdate (reputation : ℤ) : ReputationUpdate := ⟨some reputation, none, some 0, none⟩

def clearAbuseFlag (paymaster : AddressText) (reputation : ℤ) : Promise Unit :=
  updateEntry paymaster (clearUpdate reputation)

def flagUpdate (eventBlockNumber : ℕ) : ReputationUpdate := ⟨none, none, some eventBlockNumber, none⟩

def setAbuseFlag (paymaster : AddressText) (eventBlockNumber : ℕ) : Promise Unit :=
  updateEntry paymaster (flagUpdate eventBlockNumber)

def acceptedUpdate (now : ℕ) : ReputationUpdate := ⟨none, some now, none, none⟩

/-- `Date.now()` is read when it is called. -/
def updateLastAcceptedTimestamp (paymaster : AddressText) (now : ℕ) : Promise Unit :=
  updateEntry paymaster (acceptedUpdate now)

def changesUpdate (existing : ReputationEntry) (change : ℤ) (oldChangesExpirationBlock : ℤ)
    (eventBlockNumber : ℕ) : ReputationUpdate :=
  { reputation := some (existing.reputation + change)
    lastAcceptedRelayRequestTs := none
    abuseStartedBlock := none
    changes := some ((existing.changes ++ [ReputationChange.mk eventBlockNumber change]).filter fun it =>
      oldChangesExpirationBlock < it.blockNumber) }

def checkExpiration (oldChangesExpirationBlock : ℤ) (eventBlockNumber : ℕ) : Except String Unit :=
  if (eventBlockNumber : ℤ) ≤ oldChangesExpirationBlock then
    .error (s!"Invalid change expiration parameter! Passed {oldChangesExpirationBlock}, but event was " ++
      s!"emitted at block height {eventBlockNumber}")
  else .ok ()

def updatePaymasterReputation (paymaster : AddressText) (change : ℤ) (oldChangesExpirationBlock : ℤ)
    (eventBlockNumber : ℕ) : Promise Unit := do
  Promise.ofExcept (checkExpiration oldChangesExpirationBlock eventBlockNumber)
  let found ← findOne paymaster
  let existing ← Promise.ofExcept (orTypeError found)
  updateEntry paymaster (changesUpdate existing change oldChangesExpirationBlock eventBlockNumber)

/-! `ReputationManager.ts` -/

variable (config : ReputationManagerConfiguration)

/-- `getEntry(paymaster) ?? createEntry(paymaster, initialReputation)` -/
def orCreate (paymaster : AddressText) : Option ReputationEntry → Promise ReputationEntry
  | some entry => pure entry
  | none => createEntry paymaster config.initialReputation

def acquire (task : ℕ) : Promise Unit :=
  Promise.waitUntil (fun s => s.mutex.isNone) fun s => { s with mutex := some task }

def releaseMutex (s : ReputationState) : ReputationState := { s with mutex := none }

def throttled (entry : ReputationEntry) (now : ℕ) : PaymasterStatus :=
  if entry.reputation < config.throttleReputation ∧
      (now : ℤ) - entry.lastAcceptedRelayRequestTs ≤ config.throttleDelayMs then .throttled
  else .good

def clears (entry : ReputationEntry) (currentBlockNumber : ℕ) : Prop :=
  entry.abuseStartedBlock ≠ 0 ∧
    config.abuseTimeWindowBlocks < (currentBlockNumber : ℤ) - entry.abuseStartedBlock

instance (entry : ReputationEntry) (currentBlockNumber : ℕ) :
    Decidable (clears config entry currentBlockNumber) :=
  inferInstanceAs (Decidable (_ ∧ _))

def judge (entry : ReputationEntry) : Promise PaymasterStatus := do
  let now ← dateNow
  pure (throttled config entry now)

def statusOf (paymaster : AddressText) (currentBlockNumber : ℕ) (entry : ReputationEntry) :
    Promise PaymasterStatus :=
  if entry.reputation ≤ config.blockReputation then pure .blocked
  else if clears config entry currentBlockNumber then do
    clearAbuseFlag paymaster config.abuseTimeoutReputation
    judge config entry
  else if entry.abuseStartedBlock ≠ 0 then pure .abused
  else judge config entry

def getPaymasterStatus (task : ℕ) (paymaster : AddressText) (currentBlockNumber : ℕ) : Promise PaymasterStatus := do
  acquire task
  Promise.ensure (do
    let existing ← getEntry paymaster
    let entry ← orCreate config paymaster existing
    statusOf config paymaster currentBlockNumber entry) releaseMutex

def onRelayRequestAccepted (paymaster : AddressText) (now : ℕ) : Promise Unit :=
  updateLastAcceptedTimestamp paymaster now

def changeOf (transactionSuccess : Bool) : ℤ := if transactionSuccess then 1 else -1

def changeInAbuseWindow (entry : ReputationEntry) (eventBlockNumber : ℕ) : ℤ :=
  ((entry.changes.filter fun it => (eventBlockNumber : ℤ) - it.blockNumber < config.abuseTimeWindowBlocks).map
    ReputationChange.change).sum

def tooFast (entry : ReputationEntry) (eventBlockNumber : ℕ) : Prop :=
  config.abuseReputationChange ≤ -changeInAbuseWindow config entry eventBlockNumber

instance (entry : ReputationEntry) (eventBlockNumber : ℕ) : Decidable (tooFast config entry eventBlockNumber) :=
  inferInstanceAs (Decidable (_ ≤ _))

def oldChangesExpirationBlock (eventBlockNumber : ℕ) : ℤ := eventBlockNumber - config.abuseTimeWindowBlocks

/-- What is left of `updatePaymasterStatus` when the entry is there. -/
def recordChange (paymaster : AddressText) (change : ℤ) (eventBlockNumber : ℕ) (entry : ReputationEntry) :
    Promise Unit :=
  if config.maximumReputation < entry.reputation + change then pure ()
  else if tooFast config entry eventBlockNumber then do
    setAbuseFlag paymaster eventBlockNumber
    updatePaymasterReputation paymaster change (oldChangesExpirationBlock config eventBlockNumber) eventBlockNumber
  else
    updatePaymasterReputation paymaster change (oldChangesExpirationBlock config eventBlockNumber) eventBlockNumber

/-- The entry that `createEntry` returns is never null. -/
def updatePaymasterStatus (paymaster : AddressText) (transactionSuccess : Bool) (eventBlockNumber : ℕ) :
    Promise Unit := do
  let existing ← getEntry paymaster
  let entry ← orCreate config paymaster existing
  recordChange config paymaster (changeOf transactionSuccess) eventBlockNumber entry

end Reputation

end OpenGsn.Relay
