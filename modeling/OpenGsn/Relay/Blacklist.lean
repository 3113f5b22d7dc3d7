import OpenGsn.Relay.AbuseWindow

/-! How long a paymaster that was flagged as abused is not served. -/

namespace OpenGsn.Relay.Reputation

open Async

variable (config : ReputationManagerConfiguration) (paymaster : AddressText)

/-- `lastFlagged` and `passed` are history variables: the block of the last flag, and whether a query
has come after the end of its blacklisting. -/
structure Blacklisting where
  state : ReputationState
  lastFlagged : Option ℕ
  passed : Bool

inductive BlacklistEvent : Type
  | query (now currentBlockNumber : ℕ)
  | update (transactionSuccess : Bool) (eventBlockNumber : ℕ)
  deriving DecidableEq, Repr

namespace Blacklisting

def entry (s : Blacklisting) : ReputationEntry := entryOf config paymaster s.state

def Flags (transactionSuccess : Bool) (eventBlockNumber : ℕ) (s : Blacklisting) : Prop :=
  (s.entry config paymaster).reputation + changeOf transactionSuccess ≤ config.maximumReputation ∧
    tooFast config (s.entry config paymaster) eventBlockNumber

instance (transactionSuccess : Bool) (eventBlockNumber : ℕ) (s : Blacklisting) :
    Decidable (Flags config paymaster transactionSuccess eventBlockNumber s) :=
  inferInstanceAs (Decidable (_ ∧ _))

def blacklistEnd (flaggedBlock : ℕ) : ℤ := flaggedBlock + config.abuseBlacklistDurationBlocks

def passes (currentBlockNumber : ℕ) (s : Blacklisting) : Bool :=
  s.lastFlagged.any fun flaggedBlock => blacklistEnd config flaggedBlock < currentBlockNumber

def status (now currentBlockNumber : ℕ) (s : Blacklisting) : Option (Except String PaymasterStatus) :=
  (Proc.atOnce now (getPaymasterStatus config 0 paymaster currentBlockNumber) s.state).map Prod.fst

def next (s : Blacklisting) : BlacklistEvent → Blacklisting
  | .query now currentBlockNumber =>
      match Proc.atOnce now (getPaymasterStatus config 0 paymaster currentBlockNumber) s.state with
      | some (_, later) => { s with state := later, passed := s.passed || s.passes config currentBlockNumber }
      | none => s
  | .update transactionSuccess eventBlockNumber =>
      match Proc.atOnce 0 (updatePaymasterStatus config paymaster transactionSuccess eventBlockNumber) s.state with
      | some (_, later) =>
          if Flags config paymaster transactionSuccess eventBlockNumber s then ⟨later, some eventBlockNumber, false⟩
          else { s with state := later }
      | none => s

def initial (store : ReputationStore) : Blacklisting := ⟨⟨store, none⟩, none, false⟩

/-- What the query answers while the paymaster is blacklisted, and what the first one after that does. -/
structure Enforced (s : Blacklisting) (now currentBlockNumber flaggedBlock : ℕ) : Prop where
  during : flaggedBlock ≤ currentBlockNumber → (currentBlockNumber : ℤ) ≤ blacklistEnd config flaggedBlock →
    s.status config paymaster now currentBlockNumber ≠ some (.ok .good) ∧
    s.status config paymaster now currentBlockNumber ≠ some (.ok .throttled)
  cleared : s.passed = false → blacklistEnd config flaggedBlock < currentBlockNumber →
    s.status config paymaster now currentBlockNumber ≠ some (.ok .blocked) →
    ((s.next config paymaster (.query now currentBlockNumber)).entry config paymaster).abuseStartedBlock = 0 ∧
    ((s.next config paymaster (.query now currentBlockNumber)).entry config paymaster).reputation =
      config.abuseTimeoutReputation

def Blacklists (s : Blacklisting) : BlacklistEvent → Prop
  | .query now currentBlockNumber =>
      ∀ flaggedBlock, s.lastFlagged = some flaggedBlock →
        Enforced config paymaster s now currentBlockNumber flaggedBlock
  | .update _ _ => True

/-- At the block of the query, the window of `abuseTimeWindowBlocks` blocks after the flag agrees with
that of `abuseBlacklistDurationBlocks`, and a query that is later than both is not followed by an earlier
one. -/
def Agrees (s : Blacklisting) (currentBlockNumber flaggedBlock : ℕ) : Prop :=
  if (s.entry config paymaster).abuseStartedBlock = 0 then
    flaggedBlock ≤ currentBlockNumber → blacklistEnd config flaggedBlock < currentBlockNumber
  else
    ((currentBlockNumber : ℤ) ≤ blacklistEnd config flaggedBlock →
      (currentBlockNumber : ℤ) ≤ flaggedBlock + config.abuseTimeWindowBlocks) ∧
    (s.passed = false → blacklistEnd config flaggedBlock < currentBlockNumber →
      flaggedBlock + config.abuseTimeWindowBlocks < (currentBlockNumber : ℤ))

instance (s : Blacklisting) (currentBlockNumber flaggedBlock : ℕ) :
    Decidable (Agrees config paymaster s currentBlockNumber flaggedBlock) := by
  unfold Agrees
  infer_instance

/-- The flag of block 0 would be none. -/
def Consistent (s : Blacklisting) : BlacklistEvent → Prop
  | .query _ currentBlockNumber =>
      config.blockReputation < (s.entry config paymaster).reputation →
        ∀ flaggedBlock ∈ s.lastFlagged, Agrees config paymaster s currentBlockNumber flaggedBlock
  | .update transactionSuccess eventBlockNumber =>
      Flags config paymaster transactionSuccess eventBlockNumber s → eventBlockNumber ≠ 0

instance (s : Blacklisting) (event : BlacklistEvent) : Decidable (Consistent config paymaster s event) := by
  unfold Consistent
  split <;> infer_instance

/-- The flag of the last flagged block is there, or was cleared by a query after the end. -/
structure Following (s : Blacklisting) : Prop where
  free : s.state.mutex = none
  unflagged : s.lastFlagged = none → (s.entry config paymaster).abuseStartedBlock = 0
  block : ∀ flaggedBlock, s.lastFlagged = some flaggedBlock → flaggedBlock ≠ 0
  flag : ∀ flaggedBlock, s.lastFlagged = some flaggedBlock →
    (s.entry config paymaster).abuseStartedBlock = flaggedBlock ∨
      (s.entry config paymaster).abuseStartedBlock = 0 ∧ s.passed = true

/-! What the calls do -/

theorem query_next (s : Blacklisting) (now currentBlockNumber : ℕ) (free : s.state.mutex = none) :
    ∃ later, later.mutex = none ∧
      entryOf config paymaster later = afterQuery config currentBlockNumber (s.entry config paymaster) ∧
      s.status config paymaster now currentBlockNumber =
        some (.ok (statusAt config now currentBlockNumber (s.entry config paymaster))) ∧
      s.next config paymaster (.query now currentBlockNumber) =
        ⟨later, s.lastFlagged, s.passed || s.passes config currentBlockNumber⟩ := by
  obtain ⟨later, ended, stored, kept⟩ :=
    getPaymasterStatus_atOnce config paymaster now 0 currentBlockNumber s.state free
  refine ⟨later, kept.trans free, ?_, ?_, ?_⟩
  · rw [entryOf, stored]
    rfl
  · rw [status, ended]
    rfl
  · rw [next, ended]

theorem update_next (s : Blacklisting) (transactionSuccess : Bool) (eventBlockNumber : ℕ) :
    ∃ later, later.mutex = s.state.mutex ∧
      entryOf config paymaster later =
        afterEvent config (changeOf transactionSuccess) eventBlockNumber (s.entry config paymaster) ∧
      s.next config paymaster (.update transactionSuccess eventBlockNumber) =
        if Flags config paymaster transactionSuccess eventBlockNumber s then ⟨later, some eventBlockNumber, false⟩
        else ⟨later, s.lastFlagged, s.passed⟩ := by
  obtain ⟨result, later, ended, stored, kept⟩ :=
    updatePaymasterStatus_atOnce config paymaster 0 transactionSuccess eventBlockNumber s.state
  refine ⟨later, kept, ?_, ?_⟩
  · rw [entryOf, stored]
    rfl
  · rw [next, ended]

theorem afterEvent_flag (change : ℤ) (eventBlockNumber : ℕ) (entry : ReputationEntry) :
    (afterEvent config change eventBlockNumber entry).abuseStartedBlock =
      if entry.reputation + change ≤ config.maximumReputation ∧ tooFast config entry eventBlockNumber then
        eventBlockNumber
      else entry.abuseStartedBlock := by
  have kept : ∀ other, (changed config change eventBlockNumber other).abuseStartedBlock = other.abuseStartedBlock := by
    intro other
    unfold changed
    split
    · rfl
    · rfl
  unfold afterEvent
  by_cases bounded : entry.reputation + change ≤ config.maximumReputation
  · rw [if_neg (not_lt.mpr bounded), kept, flagged]
    by_cases fast : tooFast config entry eventBlockNumber
    · rw [if_pos fast, if_pos ⟨bounded, fast⟩]
      rfl
    · rw [if_neg fast, if_neg fun both => fast both.2]
  · rw [if_pos (not_le.mp bounded), if_neg fun both => bounded both.1]

theorem afterQuery_cases (currentBlockNumber : ℕ) (entry : ReputationEntry) :
    afterQuery config currentBlockNumber entry = entry ∨
      config.blockReputation < entry.reputation ∧ clears config entry currentBlockNumber ∧
        afterQuery config currentBlockNumber entry = (clearUpdate config.abuseTimeoutReputation).assign entry := by
  unfold afterQuery
  split
  next => exact .inl rfl
  next unblocked =>
    split
    next clearing => exact .inr ⟨not_le.mp unblocked, clearing, rfl⟩
    next => exact .inl rfl

theorem update_following (s : Blacklisting) (transactionSuccess : Bool) (eventBlockNumber : ℕ)
    (following : Following config paymaster s)
    (consistent : Consistent config paymaster s (.update transactionSuccess eventBlockNumber)) :
    Following config paymaster (s.next config paymaster (.update transactionSuccess eventBlockNumber)) := by
  obtain ⟨later, free, entry, moved⟩ := update_next config paymaster s transactionSuccess eventBlockNumber
  have flag : (entryOf config paymaster later).abuseStartedBlock =
      if Flags config paymaster transactionSuccess eventBlockNumber s then eventBlockNumber
      else (s.entry config paymaster).abuseStartedBlock := by
    rw [entry]
    exact afterEvent_flag config (changeOf transactionSuccess) eventBlockNumber (s.entry config paymaster)
  rw [moved]
  by_cases flags : Flags config paymaster transactionSuccess eventBlockNumber s
  · rw [if_pos flags] at flag ⊢
    refine ⟨free.trans following.free, nofun, ?_, ?_⟩
    · intro flaggedBlock last
      cases last
      exact consistent flags
    · intro flaggedBlock last
      cases last
      exact .inl flag
  · rw [if_neg flags] at flag ⊢
    refine ⟨free.trans following.free, ?_, following.block, ?_⟩
    · intro never
      exact flag.trans (following.unflagged never)
    · intro flaggedBlock last
      rcases following.flag flaggedBlock last with set | ⟨unset, passed⟩
      · exact .inl (flag.trans set)
      · exact .inr ⟨flag.trans unset, passed⟩

theorem clearing_passes (s : Blacklisting) (now currentBlockNumber flaggedBlock : ℕ)
    (last : s.lastFlagged = some flaggedBlock)
    (flag : (s.entry config paymaster).abuseStartedBlock = flaggedBlock)
    (unblocked : config.blockReputation < (s.entry config paymaster).reputation)
    (clearing : clears config (s.entry config paymaster) currentBlockNumber)
    (consistent : Consistent config paymaster s (.query now currentBlockNumber)) :
    blacklistEnd config flaggedBlock < currentBlockNumber := by
  have agrees := consistent unblocked flaggedBlock last
  rw [Agrees, if_neg clearing.1] at agrees
  have late := clearing.2
  rw [flag] at late
  by_contra within
  have inside := agrees.1 (not_lt.mp within)
  omega

theorem query_following (s : Blacklisting) (now currentBlockNumber : ℕ) (following : Following config paymaster s)
    (consistent : Consistent config paymaster s (.query now currentBlockNumber)) :
    Following config paymaster (s.next config paymaster (.query now currentBlockNumber)) := by
  obtain ⟨later, free, entry, _, moved⟩ := query_next config paymaster s now currentBlockNumber following.free
  rw [moved]
  rcases afterQuery_cases config currentBlockNumber (s.entry config paymaster) with
    same | ⟨unblocked, clearing, cleared⟩
  · rw [same] at entry
    refine ⟨free, ?_, following.block, ?_⟩
    · intro never
      exact (congrArg ReputationEntry.abuseStartedBlock entry).trans (following.unflagged never)
    · intro flaggedBlock last
      rcases following.flag flaggedBlock last with flag | ⟨unset, passed⟩
      · exact .inl ((congrArg ReputationEntry.abuseStartedBlock entry).trans flag)
      · refine .inr ⟨(congrArg ReputationEntry.abuseStartedBlock entry).trans unset, ?_⟩
        change (s.passed || s.passes config currentBlockNumber) = true
        rw [passed, Bool.true_or]
  · rw [cleared] at entry
    have unset := congrArg ReputationEntry.abuseStartedBlock entry
    refine ⟨free, fun _ => unset, following.block, ?_⟩
    intro flaggedBlock last
    refine .inr ⟨unset, ?_⟩
    have flag : (s.entry config paymaster).abuseStartedBlock = flaggedBlock := by
      rcases following.flag flaggedBlock last with flag | ⟨none, _⟩
      · exact flag
      · exact absurd none clearing.1
    have after := clearing_passes config paymaster s now currentBlockNumber flaggedBlock last flag unblocked clearing
      consistent
    have passes : s.passes config currentBlockNumber = true := by
      have last' : s.lastFlagged = some flaggedBlock := last
      rw [Blacklisting.passes, last', Option.any_some]
      exact decide_eq_true after
    change (s.passed || s.passes config currentBlockNumber) = true
    rw [passes, Bool.or_true]

theorem following_next (s : Blacklisting) (event : BlacklistEvent) (following : Following config paymaster s)
    (consistent : Consistent config paymaster s event) :
    Following config paymaster (s.next config paymaster event) := by
  cases event with
  | query now currentBlockNumber => exact query_following config paymaster s now currentBlockNumber following consistent
  | update transactionSuccess eventBlockNumber =>
      exact update_following config paymaster s transactionSuccess eventBlockNumber following consistent

theorem following_blacklists (s : Blacklisting) (event : BlacklistEvent) (following : Following config paymaster s)
    (consistent : Consistent config paymaster s event) : Blacklists config paymaster s event := by
  cases event with
  | update transactionSuccess eventBlockNumber => trivial
  | query now currentBlockNumber =>
      intro flaggedBlock last
      obtain ⟨later, _, entry, status, moved⟩ := query_next config paymaster s now currentBlockNumber following.free
      have next : (s.next config paymaster (.query now currentBlockNumber)).entry config paymaster =
          afterQuery config currentBlockNumber (s.entry config paymaster) := by
        rw [moved]
        exact entry
      have nonzero := following.block flaggedBlock last
      by_cases blocked : (s.entry config paymaster).reputation ≤ config.blockReputation
      · have answer : s.status config paymaster now currentBlockNumber = some (.ok .blocked) := by
          rw [status, statusAt, if_pos blocked]
        refine ⟨fun _ _ => ?_, fun _ _ unblocked => absurd answer unblocked⟩
        rw [answer]
        exact ⟨nofun, nofun⟩
      · have agrees := consistent (not_le.mp blocked) flaggedBlock last
        rcases following.flag flaggedBlock last with flag | ⟨unset, passed⟩
        · rw [Agrees, flag, if_neg nonzero] at agrees
          refine ⟨fun _ within => ?_, fun first after _ => ?_⟩
          · have still : ¬ clears config (s.entry config paymaster) currentBlockNumber := by
              intro clearing
              have late := clearing.2
              rw [flag] at late
              have inside := agrees.1 within
              omega
            have answer : s.status config paymaster now currentBlockNumber = some (.ok .abused) := by
              rw [status, statusAt, if_neg blocked, if_neg still, if_pos (by rw [flag]; exact nonzero)]
            rw [answer]
            exact ⟨nofun, nofun⟩
          · have clearing : clears config (s.entry config paymaster) currentBlockNumber := by
              have late := agrees.2 first after
              refine ⟨by rw [flag]; exact nonzero, ?_⟩
              rw [flag]
              omega
            rw [next, afterQuery, if_neg blocked, if_pos clearing]
            exact ⟨rfl, rfl⟩
        · rw [Agrees, if_pos unset] at agrees
          refine ⟨fun begun within => absurd (agrees begun) (not_lt.mpr within), fun first => ?_⟩
          rw [passed] at first
          cases first

/-! Runs -/

theorem initial_following (store : ReputationStore)
    (unflagged : ∀ entry ∈ store.findOne paymaster, entry.abuseStartedBlock = 0) :
    Following config paymaster (initial store) := by
  refine ⟨rfl, fun _ => ?_, nofun, nofun⟩
  unfold entry entryOf initial
  cases found : store.findOne paymaster with
  | none => rfl
  | some entry => exact unflagged entry found

/-- The blacklisting lasts for `abuseTimeWindowBlocks` blocks, where the configuration says
`abuseBlacklistDurationBlocks`. It is as configured in runs that do not tell the two apart. -/
theorem blacklist_lasts (store : ReputationStore)
    (unflagged : ∀ entry ∈ store.findOne paymaster, entry.abuseStartedBlock = 0) (events : List BlacklistEvent)
    (consistent : Runs.Along (next config paymaster) (Consistent config paymaster) events (initial store)) :
    Runs.Along (next config paymaster) (Blacklists config paymaster) events (initial store) :=
  Runs.along_implied (next config paymaster) _ _ (Following config paymaster) (following_next config paymaster)
    (following_blacklists config paymaster) events (initial store) (initial_following config paymaster store unflagged)
    consistent

/-- Twenty-one losses in block 5 set the flag. -/
def losses : List BlacklistEvent := List.replicate 21 (.update false 5)

/-- The paymaster is asked for on the way, and after the end at block 6005. -/
theorem blacklist_lasts_sample :
    Runs.Along (next defaultReputationConfig somePaymaster) (Blacklists defaultReputationConfig somePaymaster)
      (losses ++ [.query 0 200, .query 0 6006]) (initial richStore) :=
  blacklist_lasts defaultReputationConfig somePaymaster richStore (by decide) _ (by decide +kernel)

def afterLosses : Blacklisting := losses.foldl (next defaultReputationConfig somePaymaster) (initial richStore)

/-- The paymaster is served again in block 246, and blacklisted until block 6005. -/
theorem blacklist_ends_early :
    afterLosses.lastFlagged = some 5 ∧ blacklistEnd defaultReputationConfig 5 = 6005 ∧
    afterLosses.status defaultReputationConfig somePaymaster 0 246 = some (.ok .good) ∧
    ¬ Runs.Along (next defaultReputationConfig somePaymaster) (Blacklists defaultReputationConfig somePaymaster)
      (losses ++ [.query 0 246]) (initial richStore) := by
  have last : afterLosses.lastFlagged = some 5 := by decide +kernel
  have served : afterLosses.status defaultReputationConfig somePaymaster 0 246 = some (.ok .good) := by
    decide +kernel
  refine ⟨last, by decide, served, fun along => ?_⟩
  have blacklists := ((Runs.along_append _ _ losses _ _).mp along).2.1
  exact ((blacklists 5 last).during (by decide) (by decide)).1 served

end Blacklisting

end OpenGsn.Relay.Reputation
