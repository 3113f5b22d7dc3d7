import OpenGsn.Relay.ReputationEvents

/-! When a paymaster is flagged as abused. -/

namespace OpenGsn.Relay.Reputation

open Async

variable (config : ReputationManagerConfiguration) (paymaster : AddressText)

/-- `recorded` is a history variable: all the changes that were ever recorded. -/
structure Recording where
  state : ReputationState
  recorded : List ReputationChange

def newChanges (transactionSuccess : Bool) (eventBlockNumber : ℕ) (s : Recording) : List ReputationChange :=
  if Records config (changeOf transactionSuccess) (entryOf config paymaster s.state) then
    [⟨eventBlockNumber, changeOf transactionSuccess⟩]
  else []

def event (s : Recording) (call : Bool × ℕ) : Recording :=
  match Proc.atOnce 0 (updatePaymasterStatus config paymaster call.1 call.2) s.state with
  | some (_, later) => ⟨later, s.recorded ++ newChanges config paymaster call.1 call.2 s⟩
  | none => s

/-- The sum of the changes in the last `abuseTimeWindowBlocks` blocks. -/
def windowTotal (eventBlockNumber : ℕ) (recorded : List ReputationChange) : ℤ :=
  ((recorded.filter fun it => oldChangesExpirationBlock config eventBlockNumber < it.blockNumber).map
    ReputationChange.change).sum

def FlaggedAt (eventBlockNumber : ℕ) (entry : ReputationEntry) : Prop :=
  entry.abuseStartedBlock ≠ 0 ∧ entry.abuseStartedBlock = eventBlockNumber

instance (eventBlockNumber : ℕ) (entry : ReputationEntry) : Decidable (FlaggedAt eventBlockNumber entry) :=
  inferInstanceAs (Decidable (_ ∧ _))

/-- The event does not take the total to the threshold, or back from it; in a block that is flagged
already, the total is still there. Block 0 stands for no flag. -/
def Foreseen (transactionSuccess : Bool) (eventBlockNumber : ℕ) (s : Recording) : Prop :=
  if eventBlockNumber = 0 then
    -config.abuseReputationChange < windowTotal config eventBlockNumber s.recorded + changeOf transactionSuccess
  else if (entryOf config paymaster s.state).abuseStartedBlock = eventBlockNumber then
    windowTotal config eventBlockNumber s.recorded + changeOf transactionSuccess ≤ -config.abuseReputationChange
  else if transactionSuccess then windowTotal config eventBlockNumber s.recorded ≠ -config.abuseReputationChange
  else windowTotal config eventBlockNumber s.recorded ≠ 1 - config.abuseReputationChange

instance (transactionSuccess : Bool) (eventBlockNumber : ℕ) (s : Recording) :
    Decidable (Foreseen config paymaster transactionSuccess eventBlockNumber s) := by
  unfold Foreseen
  infer_instance

def Windowed (now : ℕ) (s : Recording) : Prop :=
  ∃ last ≤ now, (entryOf config paymaster s.state).changes =
    s.recorded.filter fun it => oldChangesExpirationBlock config last < it.blockNumber

theorem event_entry (s : Recording) (transactionSuccess : Bool) (eventBlockNumber : ℕ) :
    entryOf config paymaster (event config paymaster s (transactionSuccess, eventBlockNumber)).state =
      afterEvent config (changeOf transactionSuccess) eventBlockNumber (entryOf config paymaster s.state) := by
  obtain ⟨result, later, ended, stored, _⟩ :=
    updatePaymasterStatus_atOnce config paymaster 0 transactionSuccess eventBlockNumber s.state
  rw [event, ended, entryOf, stored, Option.getD_some]

theorem event_recorded (s : Recording) (transactionSuccess : Bool) (eventBlockNumber : ℕ) :
    (event config paymaster s (transactionSuccess, eventBlockNumber)).recorded =
      s.recorded ++ newChanges config paymaster transactionSuccess eventBlockNumber s := by
  obtain ⟨result, later, ended, _, _⟩ :=
    updatePaymasterStatus_atOnce config paymaster 0 transactionSuccess eventBlockNumber s.state
  rw [event, ended]

theorem filter_window (last eventBlockNumber : ℕ) (ordered : last ≤ eventBlockNumber)
    (changes : List ReputationChange) :
    (changes.filter fun it => oldChangesExpirationBlock config last < it.blockNumber).filter
        (fun it => oldChangesExpirationBlock config eventBlockNumber < it.blockNumber) =
      changes.filter fun it => oldChangesExpirationBlock config eventBlockNumber < it.blockNumber := by
  rw [List.filter_filter]
  congr 1
  funext it
  unfold oldChangesExpirationBlock
  by_cases inside : (eventBlockNumber : ℤ) - config.abuseTimeWindowBlocks < it.blockNumber
  · have before : (last : ℤ) - config.abuseTimeWindowBlocks < it.blockNumber := by omega
    simp [inside, before]
  · simp [inside]

theorem flagged_changes (eventBlockNumber : ℕ) (entry : ReputationEntry) :
    (flagged config eventBlockNumber entry).changes = entry.changes := by
  unfold flagged
  split
  · rfl
  · rfl

theorem afterEvent_records (change : ℤ) (eventBlockNumber : ℕ) (entry : ReputationEntry)
    (records : Records config change entry) :
    afterEvent config change eventBlockNumber entry =
      withChange config change eventBlockNumber (flagged config eventBlockNumber entry) := by
  rw [afterEvent, if_neg (not_lt.mpr records.1), changed, if_pos records.2]

theorem afterEvent_ignores (change : ℤ) (eventBlockNumber : ℕ) (entry : ReputationEntry)
    (ignored : ¬ Records config change entry) :
    (afterEvent config change eventBlockNumber entry).changes = entry.changes := by
  unfold afterEvent
  split
  next => rfl
  next bounded =>
    have closed : ¬ 0 < config.abuseTimeWindowBlocks := fun positive => ignored ⟨not_lt.mp bounded, positive⟩
    rw [changed, if_neg closed]
    exact flagged_changes config eventBlockNumber entry

theorem event_windowed (call : Bool × ℕ) (now : ℕ) (s : Recording) (ordered : now ≤ call.2)
    (windowed : Windowed config paymaster now s) :
    Windowed config paymaster call.2 (event config paymaster s call) := by
  obtain ⟨transactionSuccess, eventBlockNumber⟩ := call
  obtain ⟨last, earlier, changes⟩ := windowed
  unfold Windowed
  rw [event_entry, event_recorded, newChanges]
  split
  next records =>
    refine ⟨eventBlockNumber, le_rfl, ?_⟩
    rw [afterEvent_records config _ _ _ records]
    calc (withChange config (changeOf transactionSuccess) eventBlockNumber
            (flagged config eventBlockNumber (entryOf config paymaster s.state))).changes
        = ((flagged config eventBlockNumber (entryOf config paymaster s.state)).changes ++
            [ReputationChange.mk eventBlockNumber (changeOf transactionSuccess)]).filter fun it =>
              oldChangesExpirationBlock config eventBlockNumber < it.blockNumber := rfl
      _ = _ := by
          rw [flagged_changes, changes, List.filter_append, List.filter_append,
            filter_window config last eventBlockNumber (by omega)]
  next ignored =>
    refine ⟨last, by simp only at ordered; omega, ?_⟩
    rw [afterEvent_ignores config _ _ _ ignored, List.append_nil]
    exact changes

theorem tooFast_iff (s : Recording) (now eventBlockNumber : ℕ) (ordered : now ≤ eventBlockNumber)
    (windowed : Windowed config paymaster now s) :
    tooFast config (entryOf config paymaster s.state) eventBlockNumber ↔
      windowTotal config eventBlockNumber s.recorded ≤ -config.abuseReputationChange := by
  obtain ⟨last, earlier, changes⟩ := windowed
  have total : changeInAbuseWindow config (entryOf config paymaster s.state) eventBlockNumber =
      windowTotal config eventBlockNumber s.recorded := by
    calc changeInAbuseWindow config (entryOf config paymaster s.state) eventBlockNumber
        = windowTotal config eventBlockNumber (entryOf config paymaster s.state).changes := by
          unfold changeInAbuseWindow windowTotal oldChangesExpirationBlock
          congr 3
          funext it
          exact decide_eq_decide.mpr (by omega)
      _ = windowTotal config eventBlockNumber s.recorded := by
          rw [changes, windowTotal, filter_window config last eventBlockNumber (by omega)]
          rfl
  unfold tooFast
  rw [total]
  omega

theorem windowTotal_new (eventBlockNumber : ℕ) (change : ℤ) (recorded : List ReputationChange)
    (positive : 0 < config.abuseTimeWindowBlocks) :
    windowTotal config eventBlockNumber (recorded ++ [⟨eventBlockNumber, change⟩]) =
      windowTotal config eventBlockNumber recorded + change := by
  have inside : oldChangesExpirationBlock config eventBlockNumber < eventBlockNumber := by
    unfold oldChangesExpirationBlock
    omega
  simp [windowTotal, List.filter_append, inside]

theorem flaggedAt_afterEvent (change : ℤ) (eventBlockNumber : ℕ) (entry : ReputationEntry)
    (records : Records config change entry) :
    FlaggedAt eventBlockNumber (afterEvent config change eventBlockNumber entry) ↔
      eventBlockNumber ≠ 0 ∧ (tooFast config entry eventBlockNumber ∨ entry.abuseStartedBlock = eventBlockNumber) := by
  have started : (afterEvent config change eventBlockNumber entry).abuseStartedBlock =
      if tooFast config entry eventBlockNumber then eventBlockNumber else entry.abuseStartedBlock := by
    rw [afterEvent_records config change eventBlockNumber entry records]
    unfold flagged
    split
    · rfl
    · rfl
  unfold FlaggedAt
  rw [started]
  split
  next fast => simp [fast]
  next slow =>
    constructor
    · rintro ⟨nonzero, rfl⟩
      exact ⟨nonzero, .inr rfl⟩
    · rintro ⟨nonzero, fast | same⟩
      · exact absurd fast slow
      · exact ⟨same ▸ nonzero, same⟩

def Recording.initial (store : ReputationStore) : Recording := ⟨⟨store, none⟩, []⟩

def eventsFrom (store : ReputationStore) (calls : List (Bool × ℕ)) : Recording :=
  calls.foldl (event config paymaster) (Recording.initial store)

theorem eventsFrom_windowed (store : ReputationStore) (fresh : ∀ entry ∈ store.findOne paymaster, entry.changes = [])
    (calls : List (Bool × ℕ)) (ordered : Runs.Timed Prod.snd 0 calls) :
    Windowed config paymaster (Runs.latest Prod.snd 0 calls) (eventsFrom config paymaster store calls) := by
  apply Runs.timed_foldl Prod.snd (event config paymaster) (Windowed config paymaster)
    (fun call now s => event_windowed config paymaster call now s) calls 0 _ ordered
  refine ⟨0, le_rfl, ?_⟩
  unfold entryOf Recording.initial
  cases found : store.findOne paymaster with
  | none => rfl
  | some entry => exact fresh entry found

/-- The flag is set by the total before the event, and the claim speaks of the total with it. -/
theorem foreseen_iff (transactionSuccess : Bool) (eventBlockNumber : ℕ) (s : Recording) :
    (eventBlockNumber ≠ 0 ∧
        (windowTotal config eventBlockNumber s.recorded ≤ -config.abuseReputationChange ∨
          (entryOf config paymaster s.state).abuseStartedBlock = eventBlockNumber) ↔
      windowTotal config eventBlockNumber s.recorded + changeOf transactionSuccess ≤ -config.abuseReputationChange) ↔
    Foreseen config paymaster transactionSuccess eventBlockNumber s := by
  unfold Foreseen
  by_cases zero : eventBlockNumber = 0
  · simp [zero]
  · rw [if_neg zero]
    by_cases already : (entryOf config paymaster s.state).abuseStartedBlock = eventBlockNumber
    · simp [zero, already]
    · rw [if_neg already]
      cases transactionSuccess with
      | true =>
          simp only [zero, already, changeOf, ne_eq, not_false_eq_true, true_and, or_false, if_true]
          omega
      | false =>
          simp only [zero, already, changeOf, ne_eq, not_false_eq_true, true_and, or_false, Bool.false_eq_true,
            if_false]
          omega

/-- The decision is made before the event is counted. It is right exactly if the event does not matter
for it. -/
theorem abuse_flagged_iff (store : ReputationStore) (fresh : ∀ entry ∈ store.findOne paymaster, entry.changes = [])
    (calls : List (Bool × ℕ)) (transactionSuccess : Bool) (eventBlockNumber : ℕ)
    (ordered : Runs.Timed Prod.snd 0 (calls ++ [(transactionSuccess, eventBlockNumber)]))
    (records : Records config (changeOf transactionSuccess)
      (entryOf config paymaster (eventsFrom config paymaster store calls).state)) :
    (FlaggedAt eventBlockNumber (entryOf config paymaster
          (eventsFrom config paymaster store (calls ++ [(transactionSuccess, eventBlockNumber)])).state) ↔
        windowTotal config eventBlockNumber
          (eventsFrom config paymaster store (calls ++ [(transactionSuccess, eventBlockNumber)])).recorded ≤
            -config.abuseReputationChange) ↔
      Foreseen config paymaster transactionSuccess eventBlockNumber (eventsFrom config paymaster store calls) := by
  have timed := (Runs.timed_append Prod.snd 0 calls _).mp ordered
  have windowed := eventsFrom_windowed config paymaster store fresh calls timed.1
  have last : eventsFrom config paymaster store (calls ++ [(transactionSuccess, eventBlockNumber)]) =
      event config paymaster (eventsFrom config paymaster store calls) (transactionSuccess, eventBlockNumber) := by
    simp only [eventsFrom, List.foldl_append, List.foldl_cons, List.foldl_nil]
  have fast := tooFast_iff config paymaster _ _ eventBlockNumber timed.2.1 windowed
  rw [last, event_entry, flaggedAt_afterEvent config _ _ _ records, fast, event_recorded, newChanges, if_pos records,
    windowTotal_new config eventBlockNumber _ _ records.2]
  exact foreseen_iff config paymaster transactionSuccess eventBlockNumber _

def richStore : ReputationStore := ReputationStore.empty.put ⟨somePaymaster, 100, 0, 0, []⟩

/-- The twenty-first loss in a block finds the twenty before it. -/
theorem abuse_flagged_iff_sample :
    FlaggedAt 5 (entryOf defaultReputationConfig somePaymaster
        (eventsFrom defaultReputationConfig somePaymaster richStore
          (List.replicate 20 (false, 5) ++ [(false, 5)])).state) ↔
      windowTotal defaultReputationConfig 5
        (eventsFrom defaultReputationConfig somePaymaster richStore
          (List.replicate 20 (false, 5) ++ [(false, 5)])).recorded ≤
          -defaultReputationConfig.abuseReputationChange :=
  (abuse_flagged_iff defaultReputationConfig somePaymaster richStore (by decide) (List.replicate 20 (false, 5)) false 5
    (by decide +kernel) (by decide +kernel)).mpr (by decide +kernel)

/-- Twenty points are lost in one block, and the paymaster is not flagged. -/
theorem threshold_loss_not_flagged :
    windowTotal defaultReputationConfig 5
      (eventsFrom defaultReputationConfig somePaymaster richStore (List.replicate 20 (false, 5))).recorded =
        -defaultReputationConfig.abuseReputationChange ∧
    ¬ FlaggedAt 5 (entryOf defaultReputationConfig somePaymaster
      (eventsFrom defaultReputationConfig somePaymaster richStore (List.replicate 20 (false, 5))).state) := by
  decide +kernel

end OpenGsn.Relay.Reputation
