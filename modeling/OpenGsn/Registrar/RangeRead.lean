import OpenGsn.Registrar.Index

/-! `readRelayInfosInRange` with its array, and what it returns in the states that are reached. -/

namespace OpenGsn.RelayRegistrar

open Solidity Reentry

variable (hub : Option (Address → Bool)) (relayHub : Address)
  (oldestBlockNumber oldestBlockTimestamp maxCount : ℕ)

/-- The loop over the items, with the array and the number of its places that are filled. -/
def fillLoop (s : State) :
    List Address → List RelayInfo → ℕ → Except Revert (List RelayInfo × ℕ)
  | [], info, filled => .ok (info, filled)
  | relayManager :: items, info, filled => do
      let relayInfo ← getRelayInfo relayHub relayManager s
      if relayInfo.lastSeenBlockNumber < oldestBlockNumber ∨ relayInfo.lastSeenTimestamp < oldestBlockTimestamp then
        fillLoop s items info filled
      else
        match verifyRelayManagerStaked hub relayManager with
        | .noCode => .error (.data [])
        | .failed => fillLoop s items info filled
        | .returned =>
            if info.length ≤ filled then
              .error (.panic 0x32)
            else if maxCount ≤ filled + 1 then
              .ok (info.set filled relayInfo, filled + 1)
            else
              fillLoop s items (info.set filled relayInfo) (filled + 1)

/-- The length of an array is overwritten. -/
def mstoreLength (result : List RelayInfo × ℕ) : List RelayInfo := result.1.take result.2

def readIntoArray (s : State) : Except Revert (List RelayInfo) := do
  let items := s.indexedValues relayHub
  let info := List.replicate (if items.length < maxCount then items.length else maxCount) default
  let result ← fillLoop hub relayHub oldestBlockNumber oldestBlockTimestamp maxCount s items info 0
  .ok (mstoreLength result)

theorem take_set_next (info : List RelayInfo) (filled : ℕ) (relayInfo : RelayInfo)
    (place : filled < info.length) :
    (info.set filled relayInfo).take (filled + 1) = info.take filled ++ [relayInfo] := by
  rw [List.take_succ_eq_append_getElem (by rwa [List.length_set]), List.getElem_set_self, List.take_set,
    List.set_eq_of_length_le (by rw [List.length_take]; omega)]

/-- The array has room for the items that are left, or for what is left of the count. -/
structure Room (info : List RelayInfo) (filled items : ℕ) : Prop where
  few : filled < maxCount ∨ maxCount = 0
  bound : info.length ≤ maxCount
  long : filled + items ≤ info.length ∨ maxCount ≤ info.length

theorem room_skip (info : List RelayInfo) (filled items : ℕ) (room : Room maxCount info filled (items + 1)) :
    Room maxCount info filled items := by
  obtain ⟨few, bound, long⟩ := room
  exact ⟨few, bound, by omega⟩

theorem room_next (info : List RelayInfo) (filled items : ℕ) (relayInfo : RelayInfo)
    (room : Room maxCount info filled (items + 1)) (more : ¬ maxCount ≤ filled + 1) :
    Room maxCount (info.set filled relayInfo) (filled + 1) items := by
  obtain ⟨few, bound, long⟩ := room
  constructor
  · omega
  · rwa [List.length_set]
  · rw [List.length_set]
    omega

theorem room_start (items : ℕ) :
    Room maxCount (List.replicate (if items < maxCount then items else maxCount) default) 0 items := by
  constructor
  · omega
  · rw [List.length_replicate]
    split <;> omega
  · rw [List.length_replicate]
    split <;> omega

theorem fillLoop_eq (s : State) (items : List Address) (info : List RelayInfo) (filled : ℕ)
    (room : Room maxCount info filled items.length) :
    (fillLoop hub relayHub oldestBlockNumber oldestBlockTimestamp maxCount s items info filled).map
        mstoreLength =
      (readRelayInfosLoop hub relayHub oldestBlockNumber oldestBlockTimestamp s items
        (maxCount - filled)).map (info.take filled ++ ·) := by
  induction items generalizing info filled with
  | nil => simp [fillLoop, readRelayInfosLoop, mstoreLength, Except.map]
  | cons relayManager items ih =>
      have skipped := ih info filled (room_skip maxCount info filled items.length room)
      cases read : getRelayInfo relayHub relayManager s with
      | error error => simp [fillLoop, readRelayInfosLoop, read, bind, Except.bind, Except.map]
      | ok relayInfo =>
          simp only [fillLoop, readRelayInfosLoop, read, bind, Except.bind]
          by_cases old : relayInfo.lastSeenBlockNumber < oldestBlockNumber ∨
              relayInfo.lastSeenTimestamp < oldestBlockTimestamp
          · rw [if_pos old, if_pos old]
            exact skipped
          · rw [if_neg old, if_neg old]
            cases verifyRelayManagerStaked hub relayManager with
            | noCode => rfl
            | failed => exact skipped
            | returned =>
                obtain ⟨few, bound, long⟩ := room
                rw [List.length_cons] at long
                by_cases full : info.length ≤ filled
                · obtain rfl : maxCount = 0 := by omega
                  dsimp only
                  rw [if_pos full, Nat.zero_sub]
                  rfl
                · dsimp only
                  rw [if_neg full]
                  by_cases last : maxCount ≤ filled + 1
                  · have one : maxCount - filled = 1 := by omega
                    rw [if_pos last, one]
                    exact congrArg Except.ok (take_set_next info filled relayInfo (by omega))
                  · obtain ⟨rest, more⟩ : ∃ rest, maxCount - filled = rest + 2 :=
                      ⟨maxCount - filled - 2, by omega⟩
                    have next := ih (info.set filled relayInfo) (filled + 1)
                      (room_next maxCount info filled items.length relayInfo ⟨few, bound, long⟩ last)
                    rw [show maxCount - (filled + 1) = rest + 1 by omega,
                      take_set_next info filled relayInfo (by omega)] at next
                    rw [if_neg last, more, next]
                    dsimp only
                    cases readRelayInfosLoop hub relayHub oldestBlockNumber oldestBlockTimestamp s items
                      (rest + 1) with
                    | error error => rfl
                    | ok infos => simp [Except.map]

theorem readIntoArray_eq (s : State) :
    readIntoArray hub relayHub oldestBlockNumber oldestBlockTimestamp maxCount s =
      readRelayInfosInRange hub relayHub oldestBlockNumber oldestBlockTimestamp maxCount s := by
  have filled := fillLoop_eq hub relayHub oldestBlockNumber oldestBlockTimestamp maxCount s
    (s.indexedValues relayHub) _ 0 (room_start maxCount (s.indexedValues relayHub).length)
  rw [readRelayInfosInRange]
  calc readIntoArray hub relayHub oldestBlockNumber oldestBlockTimestamp maxCount s
      = (fillLoop hub relayHub oldestBlockNumber oldestBlockTimestamp maxCount s
          (s.indexedValues relayHub) _ 0).map mstoreLength := by
        rw [readIntoArray]
        cases fillLoop hub relayHub oldestBlockNumber oldestBlockTimestamp maxCount s
          (s.indexedValues relayHub) _ 0 <;> rfl
    _ = (readRelayInfosLoop hub relayHub oldestBlockNumber oldestBlockTimestamp s
          (s.indexedValues relayHub) maxCount).map id := filled
    _ = readRelayInfosLoop hub relayHub oldestBlockNumber oldestBlockTimestamp s
          (s.indexedValues relayHub) maxCount := by
        cases readRelayInfosLoop hub relayHub oldestBlockNumber oldestBlockTimestamp s
          (s.indexedValues relayHub) maxCount <;> rfl

def Recent (s : State) (relayManager : Address) : Prop :=
  oldestBlockNumber ≤ (s.values relayHub relayManager).lastSeenBlockNumber ∧
    oldestBlockTimestamp ≤ (s.values relayHub relayManager).lastSeenTimestamp

instance (s : State) (relayManager : Address) :
    Decidable (Recent relayHub oldestBlockNumber oldestBlockTimestamp s relayManager) :=
  inferInstanceAs (Decidable (_ ∧ _))

theorem recent_iff (s : State) (relayManager : Address) :
    Recent relayHub oldestBlockNumber oldestBlockTimestamp s relayManager ↔
      ¬ ((s.values relayHub relayManager).lastSeenBlockNumber < oldestBlockNumber ∨
        (s.values relayHub relayManager).lastSeenTimestamp < oldestBlockTimestamp) := by
  rw [not_or, Nat.not_lt, Nat.not_lt]
  exact Iff.rfl

def recent (s : State) (items : List Address) : List Address :=
  items.filter fun relayManager => Recent relayHub oldestBlockNumber oldestBlockTimestamp s relayManager

/-- Of these, the staked ones, whose infos are to be returned. -/
def matching (s : State) (items : List Address) : List Address :=
  (recent relayHub oldestBlockNumber oldestBlockTimestamp s items).filter fun relayManager =>
    verifyRelayManagerStaked hub relayManager = .returned

/-- Nobody has to ask a hub that has no code. -/
def Answered (s : State) (items : List Address) : Prop :=
  hub.isSome ∨ recent relayHub oldestBlockNumber oldestBlockTimestamp s items = []

instance (s : State) (items : List Address) :
    Decidable (Answered hub relayHub oldestBlockNumber oldestBlockTimestamp s items) :=
  inferInstanceAs (Decidable (_ ∨ _))

/-- The loop on managers that were seen: it returns the infos of the first matching ones. Without a hub it
fails on the first one that it asks for, and without a place on the first matching one. -/
theorem readRelayInfosLoop_matching (s : State) (items : List Address) (room : ℕ)
    (seen : ∀ relayManager ∈ items, (s.values relayHub relayManager).lastSeenBlockNumber ≠ 0) :
    readRelayInfosLoop hub relayHub oldestBlockNumber oldestBlockTimestamp s items room =
      if ¬ Answered hub relayHub oldestBlockNumber oldestBlockTimestamp s items then .error (.data [])
      else if room = 0 ∧ matching hub relayHub oldestBlockNumber oldestBlockTimestamp s items ≠ [] then
        .error (.panic 0x32)
      else .ok (((matching hub relayHub oldestBlockNumber oldestBlockTimestamp s items).take room).map
        (s.values relayHub)) := by
  induction items generalizing room with
  | nil => simp [readRelayInfosLoop, matching, recent, Answered]
  | cons relayManager items ih =>
      have later := fun room => ih room fun other member => seen other (List.mem_cons_of_mem _ member)
      have known : getRelayInfo relayHub relayManager s = .ok (s.values relayHub relayManager) := by
        simp [getRelayInfo, seen relayManager List.mem_cons_self]
      rw [readRelayInfosLoop, known]
      simp only [bind, Except.bind]
      by_cases late : Recent relayHub oldestBlockNumber oldestBlockTimestamp s relayManager
      · have kept : recent relayHub oldestBlockNumber oldestBlockTimestamp s (relayManager :: items) =
            relayManager :: recent relayHub oldestBlockNumber oldestBlockTimestamp s items :=
          List.filter_cons_of_pos (by simpa using late)
        rw [if_neg ((recent_iff relayHub oldestBlockNumber oldestBlockTimestamp s relayManager).mp late)]
        cases hub with
        | none => simp [verifyRelayManagerStaked, Answered, kept]
        | some verified =>
            cases staked : verified relayManager with
            | false =>
                simp only [verifyRelayManagerStaked, staked, Bool.false_eq_true, if_false, later room]
                simp [Answered, matching, kept, verifyRelayManagerStaked, staked]
            | true =>
                simp only [verifyRelayManagerStaked, staked, if_true]
                rcases room with _ | _ | room
                · simp [Answered, matching, kept, verifyRelayManagerStaked, staked]
                · simp [Answered, matching, kept, verifyRelayManagerStaked, staked]
                · simp [Answered, matching, kept, verifyRelayManagerStaked, staked, later]
      · have skipped := late
        rw [recent_iff, not_not] at skipped
        have same : recent relayHub oldestBlockNumber oldestBlockTimestamp s (relayManager :: items) =
            recent relayHub oldestBlockNumber oldestBlockTimestamp s items :=
          List.filter_cons_of_neg (by simpa using late)
        have answered : Answered hub relayHub oldestBlockNumber oldestBlockTimestamp s (relayManager :: items) ↔
            Answered hub relayHub oldestBlockNumber oldestBlockTimestamp s items := by
          rw [Answered, Answered, same]
        have matched : matching hub relayHub oldestBlockNumber oldestBlockTimestamp s (relayManager :: items) =
            matching hub relayHub oldestBlockNumber oldestBlockTimestamp s items := by
          rw [matching, matching, same]
        rw [if_pos skipped, later, matched]
        simp only [answered]

/-- The block number is not lost in the cast to 32 bits. -/
def Counted (env : Env) : Prop := env.number % 2 ^ 32 ≠ 0

/-- The index lists who registered, and these are the managers that were seen. -/
structure Listed (s : State) : Prop where
  index : ∀ relayHub, s.indexedValues relayHub = (registrants relayHub s.log).eraseDups
  seen : ∀ relayHub relayManager, (s.values relayHub relayManager).lastSeenBlockNumber ≠ 0 ↔
    relayManager ∈ registrants relayHub s.log

theorem registered_listed (env : Env) (relayManager relayHub : Address) (url : Url) (s : State)
    (counted : Counted env) (listed : Listed s) : Listed (registered env relayManager relayHub url s) := by
  constructor
  · intro hub
    rw [registered_index, registered_log, registrants_registration, listed.index]
    by_cases same : hub = relayHub
    · subst same
      have seen := listed.seen hub relayManager
      rw [if_pos rfl, eraseDups_snoc]
      by_cases known : relayManager ∈ registrants hub s.log
      · rw [if_neg fun both => seen.mpr known both.2, if_pos known, List.append_nil]
      · have unseen : (s.values hub relayManager).lastSeenBlockNumber = 0 := by
          by_contra positive
          exact known (seen.mp positive)
        rw [if_pos ⟨rfl, unseen⟩, if_neg known]
    · simp [same, Ne.symm same]
  · intro hub manager
    rw [registered_values, registered_log, registrants_registration, List.mem_append]
    by_cases same : hub = relayHub ∧ manager = relayManager
    · obtain ⟨rfl, rfl⟩ := same
      rw [if_pos ⟨rfl, rfl⟩, if_pos rfl]
      exact iff_of_true counted (.inr (List.mem_singleton.mpr rfl))
    · have other : manager ∉ (if relayHub = hub then [relayManager] else []) := by
        split <;> simp_all
      rw [if_neg same, listed.seen]
      simp [other]

theorem listed_guarantee (env : Env) :
    Guarantee (entry env)
      (fun first second => Counted env ∧ Listed first → Counted env ∧ Listed second) := by
  apply guarantee_invariant
  rintro ⟨sender, call⟩ s ⟨counted, listed⟩
  have same : ∀ owner relayRegistrationMaxAge,
      Counted env ∧ Listed { s with owner, relayRegistrationMaxAge } :=
    fun _ _ => ⟨counted, listed.index, listed.seen⟩
  cases call with
  | registerRelayServer relayHub url =>
      refine ⟨⟨counted, listed⟩, fun after _ moved => ?_, fun _ => trivial⟩
      exact ⟨counted, registered_listed env sender relayHub url after counted (moved ⟨counted, listed⟩).2⟩
  | setRelayRegistrationMaxAge relayRegistrationMaxAge =>
      apply ofState_meets
      intro next taken
      simp only [setRelayRegistrationMaxAge, bind_ok, Except.ok.injEq] at taken
      obtain ⟨_, _, rfl⟩ := taken
      exact same s.owner relayRegistrationMaxAge
  | transferOwnership newOwner =>
      apply ofState_meets
      intro next taken
      simp only [bind_ok, Except.ok.injEq] at taken
      obtain ⟨owner, _, rfl⟩ := taken
      exact same owner s.relayRegistrationMaxAge
  | renounceOwnership =>
      apply ofState_meets
      intro next taken
      simp only [bind_ok, Except.ok.injEq] at taken
      obtain ⟨owner, _, rfl⟩ := taken
      exact same owner s.relayRegistrationMaxAge

theorem ordered_counted (now : Env) (history : List (Env × Moves Input Bytes Revert))
    (counted : ∀ transaction ∈ history, Counted transaction.1) :
    Ordered (fun _ env => Counted env) now history := by
  induction history generalizing now with
  | nil => trivial
  | cons head rest ih =>
      exact ⟨counted head List.mem_cons_self,
        ih head.1 fun later member => counted later (List.mem_cons_of_mem _ member)⟩

theorem reachable_listed (deployer : Address) (relayRegistrationMaxAge : ℕ)
    (history : List (Env × Moves Input Bytes Revert))
    (counted : ∀ transaction ∈ history, Counted transaction.1) (env : Env) (s : State)
    (reached : (env, s) ∈ historyVisits entry history (deploy deployer relayRegistrationMaxAge)) :
    Listed s := by
  have start : Counted sampleEnv ∧ Listed (deploy deployer relayRegistrationMaxAge) := by
    refine ⟨by unfold Counted; decide, fun _ => rfl, ?_⟩
    simp [deploy, registrants, default]
  exact (history_invariant entry (fun _ env => Counted env) (fun env s => Counted env ∧ Listed s)
    (fun _ _ _ counted listed => ⟨counted, listed.2⟩) listed_guarantee history sampleEnv _
    (ordered_counted sampleEnv history counted) start (env, s) reached).2

/-- In every state in which anyone has control, a range read returns the infos of the first
matching managers, in the order of their first registrations, exactly when it may return one or
none matches, and the hub has code or no manager was seen late enough. -/
theorem range_read_iff (deployer : Address) (relayRegistrationMaxAge : ℕ)
    (history : List (Env × Moves Input Bytes Revert))
    (counted : ∀ transaction ∈ history, Counted transaction.1) (env : Env) (s : State)
    (reached : (env, s) ∈ historyVisits entry history (deploy deployer relayRegistrationMaxAge)) :
    readIntoArray hub relayHub oldestBlockNumber oldestBlockTimestamp maxCount s =
        .ok (((matching hub relayHub oldestBlockNumber oldestBlockTimestamp s
          (registrants relayHub s.log).eraseDups).take maxCount).map (s.values relayHub)) ↔
      (maxCount ≠ 0 ∨ matching hub relayHub oldestBlockNumber oldestBlockTimestamp s
        (registrants relayHub s.log).eraseDups = []) ∧
      Answered hub relayHub oldestBlockNumber oldestBlockTimestamp s (registrants relayHub s.log).eraseDups := by
  have listed := reachable_listed deployer relayRegistrationMaxAge history counted env s reached
  have seen : ∀ relayManager ∈ (registrants relayHub s.log).eraseDups,
      (s.values relayHub relayManager).lastSeenBlockNumber ≠ 0 := by
    intro relayManager member
    exact (listed.seen relayHub relayManager).mpr (List.mem_eraseDups.mp member)
  rw [readIntoArray_eq, readRelayInfosInRange, listed.index,
    readRelayInfosLoop_matching hub relayHub oldestBlockNumber oldestBlockTimestamp s _ _ seen]
  by_cases answered : Answered hub relayHub oldestBlockNumber oldestBlockTimestamp s
      (registrants relayHub s.log).eraseDups
  · rw [if_neg (not_not.mpr answered)]
    split
    · rename_i stuck
      simp [stuck]
    · rename_i free
      simp only [true_iff]
      tauto
  · rw [if_pos answered]
    simp [answered]

def sampleHistory : List (Env × Moves Input Bytes Revert) := [(sampleEnv, firstMoves)] ++ [(laterEnv, secondMoves)]

theorem sampleHistory_counted : ∀ transaction ∈ sampleHistory, Counted transaction.1 := by
  have first : Counted sampleEnv := by unfold Counted; decide
  have second : Counted laterEnv := by unfold Counted; decide
  simp [sampleHistory, first, second]

def agreeing : Option (Address → Bool) := some fun _ => true

/-- A read of at most five infos finds the one manager. -/
theorem range_read_iff_five :
    readIntoArray agreeing 50 0 0 5 sampleRegistrar = .ok [sampleRegistrar.values 50 31] := by
  have read := (range_read_iff agreeing 50 0 0 5 1 100 sampleHistory sampleHistory_counted laterEnv
    sampleRegistrar (historyFinal_visited entry _ laterEnv secondMoves (deploy 1 100))).mpr
      ⟨.inl (by decide), .inl rfl⟩
  have one : matching agreeing 50 0 0 sampleRegistrar (registrants 50 sampleRegistrar.log).eraseDups = [31] := by
    decide +kernel
  rw [one] at read
  exact read

/-- A read of no info at all fails, and so does any read for a hub that has lost its code. -/
theorem range_read_of_none_fails :
    (laterEnv, sampleRegistrar) ∈ historyVisits entry sampleHistory (deploy 1 100) ∧
    matching agreeing 50 0 0 sampleRegistrar (registrants 50 sampleRegistrar.log).eraseDups = [31] ∧
    readIntoArray agreeing 50 0 0 0 sampleRegistrar = .error (.panic 0x32) ∧
    matching none 50 0 0 sampleRegistrar (registrants 50 sampleRegistrar.log).eraseDups = [] ∧
    readIntoArray none 50 0 0 5 sampleRegistrar = .error (.data []) :=
  ⟨historyFinal_visited entry _ laterEnv secondMoves (deploy 1 100), by decide +kernel, by decide +kernel,
    by decide +kernel, by decide +kernel⟩

end OpenGsn.RelayRegistrar
