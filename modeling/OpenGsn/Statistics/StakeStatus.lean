import OpenGsn.StakeManager.Solvency
import OpenGsn.StakeManager.StakeLog
import OpenGsn.Statistics.AuthorizedHubs
import Mathlib.Data.List.Count

/-! `StatisticsManager.getRelaysStakeStatus`, held against the stakes that the log comes with. -/

namespace OpenGsn.Statistics

open Solidity StakeManager Runs

inductive RelayServerStakeStatus : Type
  | stakeLocked
  | stakeUnlocked
  | stakeWithdrawn
  | stakePenalized
  deriving DecidableEq, Repr

/-- A set that is filled in the order of the list, as an array. -/
def unique (addresses : List Address) : List Address := addresses.foldl (fun set address => add address set) []

def extractTransactionInfos (change : StakeChange) (allEvents : List Event) : List Address :=
  allEvents.filterMap fun event =>
    match event.stakeChange with
    | some (name, relayManager) => if name = change then some relayManager else none
    | none => none

def extractUnique (change : StakeChange) (allEvents : List Event) : List Address :=
  unique (extractTransactionInfos change allEvents)

structure RelayStakeStatus where
  address : Address
  status : RelayServerStakeStatus
  deriving DecidableEq, Repr

def withStatus (status : RelayServerStakeStatus) (addresses : List Address) : List RelayStakeStatus :=
  addresses.map fun address => ⟨address, status⟩

def getRelaysStakeStatus (allEvents : List Event) : List RelayStakeStatus :=
  let allEverStakedRelays := extractUnique .stakeAdded allEvents
  let allEverUnlockedRelays := extractUnique .stakeUnlocked allEvents
  let allCurrentlyWithdrawnRelays := extractUnique .stakeWithdrawn allEvents
  let allCurrentlyPenalizedRelays := extractUnique .stakePenalized allEvents
  let allCurrentlyUnlockedRelays := unique ((allEverUnlockedRelays.filter fun it =>
    !allCurrentlyWithdrawnRelays.contains it).filter fun it => !allCurrentlyPenalizedRelays.contains it)
  let allCurrentlyStakedRelays := unique ((allEverStakedRelays.filter fun it =>
    !allEverUnlockedRelays.contains it).filter fun it => !allCurrentlyPenalizedRelays.contains it)
  withStatus .stakeLocked allCurrentlyStakedRelays ++ withStatus .stakeUnlocked allCurrentlyUnlockedRelays ++
    withStatus .stakeWithdrawn allCurrentlyWithdrawnRelays ++ withStatus .stakePenalized allCurrentlyPenalizedRelays

/-! ## What is listed of one manager -/

theorem add_nodup (address : Address) (set : List Address) (nodup : set.Nodup) : (add address set).Nodup := by
  unfold add
  split
  next => exact nodup
  next new =>
    have apart : address ∉ set := fun member => new (List.contains_iff_mem.mpr member)
    exact List.nodup_append.mpr ⟨nodup, List.nodup_singleton address, fun other member same equal =>
      fun given => apart (List.mem_singleton.mp equal ▸ given ▸ member)⟩

theorem foldl_add_nodup (addresses set : List Address) (nodup : set.Nodup) :
    (addresses.foldl (fun set address => add address set) set).Nodup := by
  induction addresses generalizing set with
  | nil => exact nodup
  | cons address rest ih => exact ih _ (add_nodup address set nodup)

theorem mem_foldl_add (addresses set : List Address) (address : Address) :
    address ∈ addresses.foldl (fun set address => add address set) set ↔ address ∈ addresses ∨ address ∈ set := by
  induction addresses generalizing set with
  | nil => simp
  | cons head rest ih => rw [List.foldl_cons, ih, mem_add, List.mem_cons, or_left_comm, or_assoc]

theorem unique_nodup (addresses : List Address) : (unique addresses).Nodup :=
  foldl_add_nodup addresses [] List.nodup_nil

theorem mem_unique (addresses : List Address) (address : Address) :
    address ∈ unique addresses ↔ address ∈ addresses := by
  rw [unique, mem_foldl_add]
  simp

theorem mem_extractUnique (change : StakeChange) (allEvents : List Event) (relayManager : Address) :
    relayManager ∈ extractUnique change allEvents ↔ Ever change relayManager allEvents := by
  rw [extractUnique, mem_unique, extractTransactionInfos, List.mem_filterMap, Ever]
  refine exists_congr fun event => and_congr_right fun _ => ?_
  cases event.stakeChange with
  | none => simp
  | some named =>
      obtain ⟨name, manager⟩ := named
      by_cases same : name = change <;> simp [same]

def statusesOf (relayManager : Address) (report : List RelayStakeStatus) : List RelayServerStakeStatus :=
  (report.filter fun it => it.address = relayManager).map RelayStakeStatus.status

theorem statusesOf_append (relayManager : Address) (first second : List RelayStakeStatus) :
    statusesOf relayManager (first ++ second) = statusesOf relayManager first ++ statusesOf relayManager second := by
  simp [statusesOf]

theorem statusesOf_withStatus_count (relayManager : Address) (status : RelayServerStakeStatus)
    (addresses : List Address) :
    statusesOf relayManager (withStatus status addresses) =
      List.replicate (addresses.count relayManager) status := by
  induction addresses with
  | nil => rfl
  | cons address rest ih =>
      by_cases same : address = relayManager <;>
        simp_all [statusesOf, withStatus, List.replicate_succ]

theorem statusesOf_withStatus (relayManager : Address) (status : RelayServerStakeStatus) (addresses : List Address)
    (nodup : addresses.Nodup) :
    statusesOf relayManager (withStatus status addresses) = if relayManager ∈ addresses then [status] else [] := by
  rw [statusesOf_withStatus_count]
  split
  next member => rw [List.count_eq_one_of_mem nodup member, List.replicate_one]
  next absent => rw [List.count_eq_zero_of_not_mem absent, List.replicate_zero]

theorem statusesOf_getRelaysStakeStatus (relayManager : Address) (allEvents : List Event) :
    statusesOf relayManager (getRelaysStakeStatus allEvents) =
      (if Ever .stakeAdded relayManager allEvents ∧ ¬ Ever .stakeUnlocked relayManager allEvents ∧
          ¬ Ever .stakePenalized relayManager allEvents then [.stakeLocked] else []) ++
        (if Ever .stakeUnlocked relayManager allEvents ∧ ¬ Ever .stakeWithdrawn relayManager allEvents ∧
          ¬ Ever .stakePenalized relayManager allEvents then [.stakeUnlocked] else []) ++
        (if Ever .stakeWithdrawn relayManager allEvents then [.stakeWithdrawn] else []) ++
        (if Ever .stakePenalized relayManager allEvents then [.stakePenalized] else []) := by
  simp only [getRelaysStakeStatus, statusesOf_append]
  rw [statusesOf_withStatus _ _ _ (unique_nodup _), statusesOf_withStatus _ _ _ (unique_nodup _),
    statusesOf_withStatus _ _ (extractUnique _ _) (unique_nodup _),
    statusesOf_withStatus _ _ (extractUnique _ _) (unique_nodup _)]
  simp only [mem_unique, List.mem_filter, List.contains_eq_mem, Bool.not_eq_true', decide_eq_false_iff_not,
    mem_extractUnique, and_assoc]

/-! ## The stakes behind the log -/

variable (this relayManager : Address)

/-- The stake has been zero ever since the step with this event. -/
def EmptiedBy (event : Event) (steps : List Step) (start : State) : Prop :=
  ∃ front input back, steps = front ++ input :: back ∧
    0 < ((after (step this) front start).stakes relayManager).stake ∧
    (after (step this) (front ++ [input]) start).events = (after (step this) front start).events ++ [event] ∧
    Always (advance (step this)) (fun s => (s.stakes relayManager).stake = 0) back
      (after (step this) (front ++ [input]) start)

/-- One status for the manager, the one of its stake as it is after the steps. -/
structure CurrentStatus (statuses : List RelayServerStakeStatus) (steps : List Step) (start : State) : Prop where
  once : statuses.length = 1
  locked : 0 < ((after (step this) steps start).stakes relayManager).stake →
    ((after (step this) steps start).stakes relayManager).withdrawTime = 0 → statuses = [.stakeLocked]
  unlocked : 0 < ((after (step this) steps start).stakes relayManager).stake →
    ((after (step this) steps start).stakes relayManager).withdrawTime ≠ 0 → statuses = [.stakeUnlocked]
  withdrawn : ∀ owner token amount,
    EmptiedBy this relayManager (.stakeWithdrawn relayManager owner token amount) steps start →
      statuses = [.stakeWithdrawn]
  penalized : ∀ beneficiary token reward,
    EmptiedBy this relayManager (.stakePenalized relayManager beneficiary token reward) steps start →
      statuses = [.stakePenalized]

/-- A manager for which what ever happened is what holds now: it was not both withdrawn and
penalized, has nothing at stake if it was either, and was not escheated after its last unlock if
it was neither and has a stake. -/
structure NothingStale (stake : ℕ) (allEvents : List Event) : Prop where
  notBoth : ¬ (Ever .stakeWithdrawn relayManager allEvents ∧ Ever .stakePenalized relayManager allEvents)
  notWithdrawn : Ever .stakeWithdrawn relayManager allEvents → stake = 0
  notPenalized : Ever .stakePenalized relayManager allEvents → stake = 0
  notEscheated : Ever .stakeUnlocked relayManager allEvents → ¬ Ever .stakeWithdrawn relayManager allEvents →
    ¬ Ever .stakePenalized relayManager allEvents → 0 < stake → withdrawTimeAfter relayManager 0 allEvents ≠ 0

theorem emptiedBy_logged (event : Event) (steps : List Step) (start : State)
    (emptied : EmptiedBy this relayManager event steps start) : event ∈ (after (step this) steps start).events := by
  obtain ⟨front, input, back, rfl, _, logged, _⟩ := emptied
  obtain ⟨later, grown⟩ := run_events this back (after (step this) (front ++ [input]) start)
  have split : front ++ input :: back = (front ++ [input]) ++ back := by simp
  rw [split, after_append, grown, logged]
  simp

/-- A manager that has staked is listed once, unless it was both withdrawn and penalized. -/
theorem statusesOf_staked (allEvents : List Event) (staked : Ever .stakeAdded relayManager allEvents)
    (ordered : Ever .stakeWithdrawn relayManager allEvents → Ever .stakeUnlocked relayManager allEvents) :
    statusesOf relayManager (getRelaysStakeStatus allEvents) =
      if Ever .stakeWithdrawn relayManager allEvents then
        .stakeWithdrawn :: if Ever .stakePenalized relayManager allEvents then [.stakePenalized] else []
      else if Ever .stakePenalized relayManager allEvents then [.stakePenalized]
      else if Ever .stakeUnlocked relayManager allEvents then [.stakeUnlocked]
      else [.stakeLocked] := by
  rw [statusesOf_getRelaysStakeStatus]
  by_cases withdrawn : Ever .stakeWithdrawn relayManager allEvents
  · have unlocked := ordered withdrawn
    by_cases penalized : Ever .stakePenalized relayManager allEvents <;> simp [withdrawn, unlocked, penalized]
  · by_cases penalized : Ever .stakePenalized relayManager allEvents <;>
      by_cases unlocked : Ever .stakeUnlocked relayManager allEvents <;>
      simp [staked, withdrawn, penalized, unlocked]

section Current

variable (steps : List Step) (start : State) (replayed : Replayed relayManager (after (step this) steps start))
  (staked : Ever .stakeAdded relayManager (after (step this) steps start).events)

include replayed staked

theorem nothingStale_of_currentStatus
    (current : CurrentStatus this relayManager
      (statusesOf relayManager (getRelaysStakeStatus (after (step this) steps start).events)) steps start) :
    NothingStale relayManager ((after (step this) steps start).stakes relayManager).stake
      (after (step this) steps start).events := by
  have listed := statusesOf_staked relayManager _ staked replayed.unlocked
  have funded : 0 < ((after (step this) steps start).stakes relayManager).stake →
      statusesOf relayManager (getRelaysStakeStatus (after (step this) steps start).events) = [.stakeLocked] ∨
        statusesOf relayManager (getRelaysStakeStatus (after (step this) steps start).events) = [.stakeUnlocked] := by
    intro stake
    by_cases pending : ((after (step this) steps start).stakes relayManager).withdrawTime = 0
    · exact .inl (current.locked stake pending)
    · exact .inr (current.unlocked stake pending)
  constructor
  · rintro ⟨withdrawn, penalized⟩
    have once := current.once
    rw [listed, if_pos withdrawn, if_pos penalized] at once
    cases once
  · intro withdrawn
    by_contra stake
    have either := funded (Nat.pos_of_ne_zero stake)
    rw [listed, if_pos withdrawn] at either
    simp at either
  · intro penalized
    by_contra stake
    have either := funded (Nat.pos_of_ne_zero stake)
    rw [listed, if_pos penalized, if_pos penalized] at either
    split at either <;> simp at either
  · intro unlocked notWithdrawn notPenalized stake none
    have locked := current.locked stake (replayed.withdrawTime.trans none)
    rw [listed, if_neg notWithdrawn, if_neg notPenalized, if_pos unlocked] at locked
    cases locked

theorem currentStatus_of_nothingStale
    (fresh : NothingStale relayManager ((after (step this) steps start).stakes relayManager).stake
      (after (step this) steps start).events) :
    CurrentStatus this relayManager
      (statusesOf relayManager (getRelaysStakeStatus (after (step this) steps start).events)) steps start := by
  have listed := statusesOf_staked relayManager _ staked replayed.unlocked
  have apart := not_and.mp fresh.notBoth
  have neither (stake : 0 < ((after (step this) steps start).stakes relayManager).stake) :
      statusesOf relayManager (getRelaysStakeStatus (after (step this) steps start).events) =
        if Ever .stakeUnlocked relayManager (after (step this) steps start).events then [.stakeUnlocked]
        else [.stakeLocked] := by
    have notWithdrawn := mt fresh.notWithdrawn stake.ne'
    have notPenalized := mt fresh.notPenalized stake.ne'
    rw [listed, if_neg notWithdrawn, if_neg notPenalized]
  constructor
  · rw [listed]
    split
    next withdrawn => rw [if_neg (apart withdrawn), List.length_singleton]
    next => split_ifs <;> rfl
  · intro stake settled
    rw [neither stake, if_neg]
    intro unlocked
    exact fresh.notEscheated unlocked (mt fresh.notWithdrawn stake.ne') (mt fresh.notPenalized stake.ne') stake
      (replayed.withdrawTime.symm.trans settled)
  · intro stake pending
    rw [replayed.withdrawTime] at pending
    have unlocked := (unlocked_of_withdrawTimeAfter relayManager 0 _ pending).resolve_left fun none => none rfl
    rw [neither stake, if_pos unlocked]
  · intro owner token amount emptied
    have withdrawn : Ever .stakeWithdrawn relayManager (after (step this) steps start).events :=
      ⟨_, emptiedBy_logged this relayManager _ steps start emptied, rfl⟩
    rw [listed, if_pos withdrawn, if_neg (apart withdrawn)]
  · intro beneficiary token reward emptied
    have penalized : Ever .stakePenalized relayManager (after (step this) steps start).events :=
      ⟨_, emptiedBy_logged this relayManager _ steps start emptied, rfl⟩
    rw [listed, if_neg fun withdrawn => apart withdrawn penalized, if_pos penalized]

end Current

/-- After every run, the statuses of all managers that ever staked are current exactly where
nothing that ever happened to them is stale. -/
theorem getRelaysStakeStatus_current_iff (sender : Address)
    (maxUnstakeDelay abandonmentDelay escheatmentDelay : ℕ) (burnAddress devAddress : Address) (tokens : Tokens)
    (start : State)
    (deployed : deploy sender maxUnstakeDelay abandonmentDelay escheatmentDelay burnAddress devAddress tokens =
      .ok start) (steps : List Step) :
    let s := after (step this) steps start
    (∀ relayManager, Ever .stakeAdded relayManager s.events →
      CurrentStatus this relayManager (statusesOf relayManager (getRelaysStakeStatus s.events)) steps start) ↔
    ∀ relayManager, Ever .stakeAdded relayManager s.events →
      NothingStale relayManager (s.stakes relayManager).stake s.events := by
  intro s
  have replayed (relayManager : Address) := run_replayed relayManager this steps start
    (deploy_replayed relayManager sender _ _ _ _ _ _ _ deployed)
  refine forall_congr' fun relayManager => forall_congr' fun staked => ?_
  constructor
  · exact nothingStale_of_currentStatus this relayManager steps start (replayed relayManager) staked
  · exact currentStatus_of_nothingStale this relayManager steps start (replayed relayManager) staked

theorem getRelaysStakeStatus_current_iff_deployed :
    let s := after (step 5) (sampleSteps.take 2) sampleStart
    (∀ relayManager, Ever .stakeAdded relayManager s.events →
      CurrentStatus 5 relayManager (statusesOf relayManager (getRelaysStakeStatus s.events)) (sampleSteps.take 2)
        sampleStart) ↔
    ∀ relayManager, Ever .stakeAdded relayManager s.events →
      NothingStale relayManager (s.stakes relayManager).stake s.events :=
  getRelaysStakeStatus_current_iff 5 1 100 500 500 9 11 sampleTokens sampleStart rfl (sampleSteps.take 2)

def dueEnv : Env :=
  { StakeManager.sampleEnv with timestamp := StakeManager.sampleEnv.timestamp + 15, timestamp_lt := by decide }

def restakedSteps : List Step :=
  [.call StakeManager.sampleEnv 3 (.setRelayManagerOwner 2),
    .call StakeManager.sampleEnv 2 (.stakeForRelayManager 4 3 15 50),
    .call StakeManager.sampleEnv 2 (.unlockStake 3),
    .call dueEnv 2 (.withdrawStake 3),
    .call dueEnv 2 (.stakeForRelayManager 4 3 15 50)]

theorem restaked_listed_withdrawn :
    deploy 1 100 500 500 9 11 sampleTokens = .ok sampleStart ∧
      Ever .stakeAdded 3 (after (step 5) restakedSteps sampleStart).events ∧
      getRelaysStakeStatus (after (step 5) restakedSteps sampleStart).events = [⟨3, .stakeWithdrawn⟩] ∧
      ¬ CurrentStatus 5 3 (statusesOf 3 (getRelaysStakeStatus (after (step 5) restakedSteps sampleStart).events))
        restakedSteps sampleStart := by
  have listed : getRelaysStakeStatus (after (step 5) restakedSteps sampleStart).events = [⟨3, .stakeWithdrawn⟩] := by
    decide +kernel
  refine ⟨rfl, by decide +kernel, listed, fun current => ?_⟩
  have locked := current.locked (by decide +kernel) (by decide +kernel)
  rw [listed] at locked
  cases locked

end OpenGsn.Statistics
