import OpenGsn.Async.Alone
import OpenGsn.Relay.ReputationUpdates

/-! What the calls for a paymaster do to its entry when they do not overlap. -/

namespace OpenGsn.Relay.Reputation

open Async

variable (config : ReputationManagerConfiguration) (paymaster : AddressText) (now : ℕ)

def entryOf (s : ReputationState) : ReputationEntry :=
  (s.store.findOne paymaster).getD (newEntry paymaster config.initialReputation)

def Leaves {α : Type} (s : ReputationState) (result : α) (entry : ReputationEntry)
    (ended : Option (α × ReputationState)) : Prop :=
  ∃ later, ended = some (result, later) ∧ later.store.findOne paymaster = some entry ∧ later.mutex = s.mutex

theorem getEntry_atOnce (s : ReputationState) :
    Proc.atOnce now (getEntry paymaster) s = some (.ok (s.store.findOne paymaster), s) := rfl

theorem updateEntry_atOnce (update : ReputationUpdate) (s : ReputationState) (existing : ReputationEntry)
    (found : s.store.findOne paymaster = some existing) :
    Leaves paymaster s (.ok ()) (update.assign existing) (Proc.atOnce now (updateEntry paymaster update) s) := by
  have own := ReputationStore.findOne_indexed s.store paymaster existing found
  have stored := ReputationStore.findOne_update s.store paymaster (update.assign existing) own
    (Option.ne_none_iff_exists'.mpr ⟨existing, found⟩)
  refine ⟨withStore (s.store.update (update.assign existing)) s, ?_, stored, rfl⟩
  rw [updateEntry, Promise.atOnce_bind, show Proc.atOnce now (findOne paymaster) s = some (.ok (some existing), s) by
    rw [← found]; rfl]
  rfl

def withChange (change : ℤ) (eventBlockNumber : ℕ) (entry : ReputationEntry) : ReputationEntry :=
  (changesUpdate entry change (oldChangesExpirationBlock config eventBlockNumber) eventBlockNumber).assign entry

/-- With an empty window every change is refused. -/
def changed (change : ℤ) (eventBlockNumber : ℕ) (entry : ReputationEntry) : ReputationEntry :=
  if 0 < config.abuseTimeWindowBlocks then withChange config change eventBlockNumber entry else entry

theorem updatePaymasterReputation_atOnce (change : ℤ) (eventBlockNumber : ℕ) (s : ReputationState)
    (existing : ReputationEntry) (found : s.store.findOne paymaster = some existing) :
    Leaves paymaster s (checkExpiration (oldChangesExpirationBlock config eventBlockNumber) eventBlockNumber)
      (changed config change eventBlockNumber existing)
      (Proc.atOnce now (updatePaymasterReputation paymaster change (oldChangesExpirationBlock config eventBlockNumber)
        eventBlockNumber) s) := by
  rw [updatePaymasterReputation, Promise.atOnce_bind, Promise.atOnce_ofExcept, changed]
  by_cases positive : 0 < config.abuseTimeWindowBlocks
  · have passed : checkExpiration (oldChangesExpirationBlock config eventBlockNumber) eventBlockNumber = .ok () := by
      rw [checkExpiration, if_neg]
      unfold oldChangesExpirationBlock
      omega
    have written := updateEntry_atOnce paymaster now
      (changesUpdate existing change (oldChangesExpirationBlock config eventBlockNumber) eventBlockNumber) s existing
      found
    have read : Proc.atOnce now (findOne paymaster) s = some (.ok (some existing), s) := by
      rw [← found]
      rfl
    rw [if_pos positive, passed, Option.bind_some, Promise.thenAtOnce, Promise.atOnce_bind, read]
    exact written
  · have refused : (eventBlockNumber : ℤ) ≤ oldChangesExpirationBlock config eventBlockNumber := by
      unfold oldChangesExpirationBlock
      omega
    rw [if_neg positive, checkExpiration, if_pos refused]
    exact ⟨s, rfl, found, rfl⟩

theorem leaves_seq {α β : Type} (first : Promise α) (rest : α → Promise β) (s : ReputationState) (value : α)
    (entry last : ReputationEntry) (result : Except String β)
    (one : Leaves paymaster s (.ok value) entry (Proc.atOnce now first s))
    (two : ∀ later, later.store.findOne paymaster = some entry →
      Leaves paymaster later result last (Proc.atOnce now (rest value) later)) :
    Leaves paymaster s result last (Proc.atOnce now (first >>= rest : Promise β) s) := by
  obtain ⟨later, ended, found, mutex⟩ := one
  obtain ⟨final, finished, stored, kept⟩ := two later found
  refine ⟨final, ?_, stored, kept.trans mutex⟩
  rw [Promise.atOnce_bind, ended]
  exact finished

theorem orCreate_atOnce (s : ReputationState) :
    Leaves paymaster s (.ok (entryOf config paymaster s)) (entryOf config paymaster s)
      (Proc.atOnce now (getEntry paymaster >>= orCreate config paymaster : Promise ReputationEntry) s) := by
  rw [Promise.atOnce_bind, getEntry_atOnce]
  unfold entryOf
  cases found : s.store.findOne paymaster with
  | some entry => exact ⟨s, rfl, found, rfl⟩
  | none =>
      have created := insertEntry_missing paymaster config.initialReputation s.store found
      refine ⟨withStore (s.store.put (newEntry paymaster config.initialReputation)) s, ?_,
        ReputationStore.findOne_put _ _ _ rfl, rfl⟩
      calc Proc.atOnce now (createEntry paymaster config.initialReputation) s
          = some ((insertEntry (newEntry paymaster config.initialReputation) s.store).1,
              withStore (insertEntry (newEntry paymaster config.initialReputation) s.store).2 s) := rfl
        _ = _ := by
            rw [created]
            rfl

/-! `updatePaymasterStatus` -/

def Records (change : ℤ) (entry : ReputationEntry) : Prop :=
  entry.reputation + change ≤ config.maximumReputation ∧ 0 < config.abuseTimeWindowBlocks

instance (change : ℤ) (entry : ReputationEntry) : Decidable (Records config change entry) :=
  inferInstanceAs (Decidable (_ ∧ _))

def flagged (eventBlockNumber : ℕ) (entry : ReputationEntry) : ReputationEntry :=
  if tooFast config entry eventBlockNumber then (flagUpdate eventBlockNumber).assign entry else entry

def afterEvent (change : ℤ) (eventBlockNumber : ℕ) (entry : ReputationEntry) : ReputationEntry :=
  if config.maximumReputation < entry.reputation + change then entry
  else changed config change eventBlockNumber (flagged config eventBlockNumber entry)

theorem recordChange_atOnce (change : ℤ) (eventBlockNumber : ℕ) (s : ReputationState) (entry : ReputationEntry)
    (found : s.store.findOne paymaster = some entry) :
    ∃ result, Leaves paymaster s result (afterEvent config change eventBlockNumber entry)
      (Proc.atOnce now (recordChange config paymaster change eventBlockNumber entry) s) := by
  unfold recordChange afterEvent flagged
  split
  · exact ⟨.ok (), s, rfl, found, rfl⟩
  · split
    · refine ⟨checkExpiration (oldChangesExpirationBlock config eventBlockNumber) eventBlockNumber,
        leaves_seq paymaster now _ _ s () _ _ _ (updateEntry_atOnce paymaster now (flagUpdate eventBlockNumber) s entry
          found) ?_⟩
      intro later stored
      exact updatePaymasterReputation_atOnce config paymaster now change eventBlockNumber later _ stored
    · exact ⟨_, updatePaymasterReputation_atOnce config paymaster now change eventBlockNumber s entry found⟩

theorem updatePaymasterStatus_atOnce (transactionSuccess : Bool) (eventBlockNumber : ℕ) (s : ReputationState) :
    ∃ result, Leaves paymaster s result
      (afterEvent config (changeOf transactionSuccess) eventBlockNumber (entryOf config paymaster s))
      (Proc.atOnce now (updatePaymasterStatus config paymaster transactionSuccess eventBlockNumber) s) := by
  obtain ⟨later, created, found, mutex⟩ := orCreate_atOnce config paymaster now s
  obtain ⟨result, final, ended, stored, kept⟩ :=
    recordChange_atOnce config paymaster now (changeOf transactionSuccess) eventBlockNumber later _ found
  refine ⟨result, final, ?_, stored, kept.trans mutex⟩
  calc Proc.atOnce now (updatePaymasterStatus config paymaster transactionSuccess eventBlockNumber) s
      = Proc.atOnce now ((getEntry paymaster >>= orCreate config paymaster) >>=
          recordChange config paymaster (changeOf transactionSuccess) eventBlockNumber : Promise Unit) s := by
        rw [bind_assoc]
        rfl
    _ = some (result, final) := by
        rw [Promise.atOnce_bind, created]
        exact ended

/-! `getPaymasterStatus` -/

def statusAt (currentBlockNumber : ℕ) (entry : ReputationEntry) : PaymasterStatus :=
  if entry.reputation ≤ config.blockReputation then .blocked
  else if clears config entry currentBlockNumber then throttled config entry now
  else if entry.abuseStartedBlock ≠ 0 then .abused
  else throttled config entry now

def afterQuery (currentBlockNumber : ℕ) (entry : ReputationEntry) : ReputationEntry :=
  if entry.reputation ≤ config.blockReputation then entry
  else if clears config entry currentBlockNumber then (clearUpdate config.abuseTimeoutReputation).assign entry
  else entry

theorem statusOf_atOnce (currentBlockNumber : ℕ) (s : ReputationState) (entry : ReputationEntry)
    (found : s.store.findOne paymaster = some entry) :
    Leaves paymaster s (.ok (statusAt config now currentBlockNumber entry)) (afterQuery config currentBlockNumber entry)
      (Proc.atOnce now (statusOf config paymaster currentBlockNumber entry) s) := by
  unfold statusOf statusAt afterQuery
  split
  · exact ⟨s, rfl, found, rfl⟩
  · split
    · apply leaves_seq paymaster now _ _ s () _ _ _
        (updateEntry_atOnce paymaster now (clearUpdate config.abuseTimeoutReputation) s entry found)
      intro later stored
      exact ⟨later, rfl, stored, rfl⟩
    · split
      · exact ⟨s, rfl, found, rfl⟩
      · exact ⟨s, rfl, found, rfl⟩

theorem getPaymasterStatus_atOnce (task currentBlockNumber : ℕ) (s : ReputationState) (free : s.mutex = none) :
    Leaves paymaster s (.ok (statusAt config now currentBlockNumber (entryOf config paymaster s)))
      (afterQuery config currentBlockNumber (entryOf config paymaster s))
      (Proc.atOnce now (getPaymasterStatus config task paymaster currentBlockNumber) s) := by
  let held : ReputationState := { s with mutex := some task }
  obtain ⟨later, created, found, _⟩ := orCreate_atOnce config paymaster now held
  obtain ⟨final, ended, stored, _⟩ := statusOf_atOnce config paymaster now currentBlockNumber later _ found
  refine ⟨releaseMutex final, ?_, stored, free.symm⟩
  let body : Promise PaymasterStatus :=
    (getEntry paymaster >>= orCreate config paymaster) >>= statusOf config paymaster currentBlockNumber
  have run : Proc.atOnce now body held =
      some (.ok (statusAt config now currentBlockNumber (entryOf config paymaster s)), final) := by
    rw [Promise.atOnce_bind, created]
    exact ended
  calc Proc.atOnce now (getPaymasterStatus config task paymaster currentBlockNumber) s
      = if s.mutex.isNone = true then Proc.atOnce now (Promise.ensure body releaseMutex) held else none := by
        simp only [body, bind_assoc]
        rfl
    _ = some (.ok (statusAt config now currentBlockNumber (entryOf config paymaster s)), releaseMutex final) := by
        rw [free, Promise.atOnce_ensure, run]
        rfl

end OpenGsn.Relay.Reputation
