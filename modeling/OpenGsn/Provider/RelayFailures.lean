import OpenGsn.Provider.KnownRelaysManager
import Mathlib.Data.List.Infix
import Mathlib.Tactic.NormNum

/-! How `KnownRelaysManager.ts` records the failures of relays and forgets them. -/

namespace OpenGsn.Provider


structure KnownRelaysConfig where
  preferredRelays : List (List Char)
  blacklistedRelays : List (List Char)
  relayTimeoutGrace : ℚ
  relayFilter : RegistrarRelayInfo → Bool
  validateRelayUrl : List Char → Bool

/-- A refresh is in two parts: the second one has the answer of the node. -/
inductive KnownRelaysEvent : Type
  | saveRelayFailure (now : ℕ) (failure : RelayFailureInfo)
  | refresh (now : ℕ)
  | registeredRelays (relayInfos : List RegistrarRelayInfo)

/-- Times are in milliseconds, the grace is in seconds. -/
def IsYoung (relayTimeoutGrace : ℚ) (now : ℕ) (failure : RelayFailureInfo) : Prop :=
  ((now : ℚ) - failure.lastErrorTime) / 1000 < relayTimeoutGrace

instance (relayTimeoutGrace : ℚ) (now : ℕ) (failure : RelayFailureInfo) :
    Decidable (IsYoung relayTimeoutGrace now failure) := inferInstanceAs (Decidable (_ < _))

variable (config : KnownRelaysConfig)

def isBlacklisted (info : RegistrarRelayInfo) : Bool :=
  (config.blacklistedRelays.any fun relay => decide (toLowerCase relay <:+: toLowerCase info.relayUrl)) ||
    config.blacklistedRelays.any fun relay => isSameAddress info.relayManager relay

namespace KnownRelaysManager

def initial : KnownRelaysManager := ⟨.empty, [], []⟩

def saveRelayFailure (failure : RelayFailureInfo) (known : KnownRelaysManager) : KnownRelaysManager :=
  match known.relayFailures.get failure.relayUrl with
  | none => { known with relayFailures := known.relayFailures.set failure.relayUrl [failure] }
  | some relayFailures =>
      { known with relayFailures := known.relayFailures.set failure.relayUrl (relayFailures ++ [failure]) }

def refreshFailures (now : ℕ) (known : KnownRelaysManager) : KnownRelaysManager :=
  { known with
    relayFailures := known.relayFailures.mapValues fun failures =>
      failures.filter fun failure => IsYoung config.relayTimeoutGrace now failure }

def refresh (now : ℕ) (known : KnownRelaysManager) : KnownRelaysManager :=
  { refreshFailures config now known with preferredRelayers := config.preferredRelays.map .url }

def getRelayInfoForManagers (relayInfos : List RegistrarRelayInfo) : List RegistrarRelayInfo :=
  (relayInfos.filter fun info => !isBlacklisted config info).filter config.relayFilter

def next (known : KnownRelaysManager) : KnownRelaysEvent → KnownRelaysManager
  | .saveRelayFailure _ failure => known.saveRelayFailure failure
  | .refresh now => known.refresh config now
  | .registeredRelays relayInfos => { known with allRelayers := getRelayInfoForManagers config relayInfos }

/-- The state after a log, whose last event comes first. -/
def after : List KnownRelaysEvent → KnownRelaysManager
  | [] => initial
  | event :: log => (after log).next config event

end KnownRelaysManager

open KnownRelaysManager

/-! What the log says of a relay. -/

def IsRecorded (failure : RelayFailureInfo) (log : List KnownRelaysEvent) : Prop :=
  ∃ now, .saveRelayFailure now failure ∈ log

def HasFailed (relayUrl : List Char) (log : List KnownRelaysEvent) : Prop :=
  ∃ failure, IsRecorded failure log ∧ failure.relayUrl = relayUrl

/-- At the last refresh or later, there was a failure of the relay within the grace. -/
def RecentlyFailed (relayUrl : List Char) : List KnownRelaysEvent → Prop
  | [] => False
  | .saveRelayFailure now failure :: log =>
      (failure.relayUrl = relayUrl ∧ IsYoung config.relayTimeoutGrace now failure) ∨ RecentlyFailed relayUrl log
  | .refresh now :: log =>
      ∃ failure, IsRecorded failure log ∧ failure.relayUrl = relayUrl ∧
        IsYoung config.relayTimeoutGrace now failure
  | .registeredRelays _ :: log => RecentlyFailed relayUrl log

theorem isRecorded_cons (failure : RelayFailureInfo) (event : KnownRelaysEvent) (log : List KnownRelaysEvent)
    (recorded : IsRecorded failure log) : IsRecorded failure (event :: log) :=
  recorded.imp fun _ => List.mem_cons_of_mem event

theorem hasFailed_cons (relayUrl : List Char) (event : KnownRelaysEvent) (log : List KnownRelaysEvent)
    (failed : HasFailed relayUrl log) : HasFailed relayUrl (event :: log) :=
  failed.imp fun _ recorded => ⟨isRecorded_cons _ event log recorded.1, recorded.2⟩

theorem recentlyFailed_hasFailed (relayUrl : List Char) (log : List KnownRelaysEvent)
    (recently : RecentlyFailed config relayUrl log) : HasFailed relayUrl log := by
  induction log with
  | nil => exact absurd recently id
  | cons event log ih =>
      cases event with
      | saveRelayFailure now failure =>
          rcases recently with ⟨sameUrl, _⟩ | earlier
          · exact ⟨failure, ⟨now, List.mem_cons_self⟩, sameUrl⟩
          · exact hasFailed_cons relayUrl _ log (ih earlier)
      | refresh now =>
          obtain ⟨failure, recorded, sameUrl, _⟩ := recently
          exact hasFailed_cons relayUrl _ log ⟨failure, recorded, sameUrl⟩
      | registeredRelays relayInfos => exact hasFailed_cons relayUrl _ log (ih recently)

/-! The keys of the map. -/

theorem mem_keys_saveRelayFailure (known : KnownRelaysManager) (failure : RelayFailureInfo)
    (relayUrl : List Char) : relayUrl ∈ (known.saveRelayFailure failure).relayFailures.keys ↔
      relayUrl ∈ known.relayFailures.keys ∨ relayUrl = failure.relayUrl := by
  unfold saveRelayFailure
  cases known.relayFailures.get failure.relayUrl with
  | none => exact InsertionMap.mem_keys_set _ _ _ _
  | some failures => exact InsertionMap.mem_keys_set _ _ _ _

theorem hasFailed_save (relayUrl : List Char) (now : ℕ) (failure : RelayFailureInfo)
    (log : List KnownRelaysEvent) : HasFailed relayUrl (.saveRelayFailure now failure :: log) ↔
      HasFailed relayUrl log ∨ relayUrl = failure.relayUrl := by
  constructor
  · rintro ⟨other, ⟨time, recorded⟩, sameUrl⟩
    rcases List.mem_cons.mp recorded with last | earlier
    · cases last
      exact .inr sameUrl.symm
    · exact .inl ⟨other, ⟨time, earlier⟩, sameUrl⟩
  · rintro (failed | sameUrl)
    · exact hasFailed_cons relayUrl _ log failed
    · exact ⟨failure, ⟨now, List.mem_cons_self⟩, sameUrl.symm⟩

theorem hasFailed_other (relayUrl : List Char) (event : KnownRelaysEvent) (log : List KnownRelaysEvent)
    (other : ∀ now failure, event ≠ .saveRelayFailure now failure) :
    HasFailed relayUrl (event :: log) ↔ HasFailed relayUrl log := by
  refine ⟨?_, hasFailed_cons relayUrl event log⟩
  rintro ⟨failure, ⟨time, recorded⟩, sameUrl⟩
  rcases List.mem_cons.mp recorded with last | earlier
  · exact absurd last.symm (other time failure)
  · exact ⟨failure, ⟨time, earlier⟩, sameUrl⟩

/-- A URL with a failure stays a key: `refresh` empties its list only. -/
theorem mem_keys_after (log : List KnownRelaysEvent) (relayUrl : List Char) :
    relayUrl ∈ (after config log).relayFailures.keys ↔ HasFailed relayUrl log := by
  induction log with
  | nil =>
      refine iff_of_false List.not_mem_nil ?_
      rintro ⟨_, ⟨_, recorded⟩, _⟩
      exact absurd recorded List.not_mem_nil
  | cons event log ih =>
      cases event with
      | saveRelayFailure now failure =>
          rw [hasFailed_save, ← ih]
          exact mem_keys_saveRelayFailure _ failure relayUrl
      | refresh now =>
          rw [hasFailed_other relayUrl _ log (by simp), ← ih, after, next, refresh,
            refreshFailures, InsertionMap.keys_mapValues]
      | registeredRelays relayInfos =>
          rw [hasFailed_other relayUrl _ log (by simp), ← ih]
          rfl

/-! The groups. -/

variable (random : Bool → ℕ → Random)

def relaysWithoutFailures (known : KnownRelaysManager) : List RelayInfoUrl :=
  (known.getRelaysShuffledForTransaction config.validateRelayUrl random).getD 1 []

def relaysWithFailures (known : KnownRelaysManager) : List RelayInfoUrl :=
  (known.getRelaysShuffledForTransaction config.validateRelayUrl random).getD 2 []

theorem mem_shuffled (draws : ℕ → Random) (relays : List RegistrarRelayInfo) (relay : RegistrarRelayInfo) :
    .event relay ∈ ((shuffle draws relays).map RelayInfoUrl.event).filter
        (fun relay => config.validateRelayUrl relay.relayUrl) ↔
      relay ∈ relays ∧ config.validateRelayUrl relay.relayUrl = true := by
  rw [List.mem_filter, List.mem_map_of_injective fun _ _ same => RelayInfoUrl.event.inj same,
    (shuffle_perm draws relays).mem_iff]
  rfl

theorem mem_relaysWithFailures (known : KnownRelaysManager) (relay : RegistrarRelayInfo) :
    .event relay ∈ relaysWithFailures config random known ↔
      (relay ∈ known.allRelayers ∧ known.hasFailure relay = true) ∧
        config.validateRelayUrl relay.relayUrl = true := by
  have shuffled := mem_shuffled config (random true) (known.allRelayers.filter known.hasFailure) relay
  exact shuffled.trans (and_congr_left fun _ => List.mem_filter)

theorem mem_relaysWithoutFailures (known : KnownRelaysManager) (relay : RegistrarRelayInfo) :
    .event relay ∈ relaysWithoutFailures config random known ↔
      (relay ∈ known.allRelayers ∧ (!known.hasFailure relay) = true) ∧
        config.validateRelayUrl relay.relayUrl = true := by
  have shuffled := mem_shuffled config (random false)
    (known.allRelayers.filter fun relay => !known.hasFailure relay) relay
  exact shuffled.trans (and_congr_left fun _ => List.mem_filter)

theorem groups_perm (known : KnownRelaysManager) :
    (relaysWithoutFailures config random known ++ relaysWithFailures config random known).Perm
      ((known.allRelayers.filter fun relay => config.validateRelayUrl relay.relayUrl).map .event) := by
  have valid := ((known.shuffled_perm random).map RelayInfoUrl.event).filter fun relay =>
    config.validateRelayUrl relay.relayUrl
  have offered : (known.allRelayers.filter fun relay => config.validateRelayUrl relay.relayUrl).map .event =
      (known.allRelayers.map RelayInfoUrl.event).filter fun relay => config.validateRelayUrl relay.relayUrl := by
    rw [List.filter_map]
    rfl
  rw [offered]
  rw [List.map_append, List.filter_append] at valid
  exact valid

/-- How the registered relays with a valid URL are offered. -/
structure Grouped (log : List KnownRelaysEvent) : Prop where
  once : (relaysWithoutFailures config random (after config log) ++
    relaysWithFailures config random (after config log)).Perm
      (((after config log).allRelayers.filter fun relay => config.validateRelayUrl relay.relayUrl).map .event)
  failing : ∀ relay ∈ (after config log).allRelayers, config.validateRelayUrl relay.relayUrl = true →
    (.event relay ∈ relaysWithFailures config random (after config log) ↔
      RecentlyFailed config relay.relayUrl log)
  rehabilitated : ∀ relay ∈ (after config log).allRelayers, config.validateRelayUrl relay.relayUrl = true →
    ¬ RecentlyFailed config relay.relayUrl log →
      .event relay ∈ relaysWithoutFailures config random (after config log)

/-- The relays are grouped so exactly when none of them has failed in the past only. -/
theorem relays_grouped_iff (log : List KnownRelaysEvent) : Grouped config random log ↔
    ∀ relay ∈ (after config log).allRelayers, config.validateRelayUrl relay.relayUrl = true →
      HasFailed relay.relayUrl log → RecentlyFailed config relay.relayUrl log := by
  have failure : ∀ relay, (after config log).hasFailure relay = true ↔ HasFailed relay.relayUrl log := by
    intro relay
    exact (InsertionMap.has_iff _ _).trans (mem_keys_after config log relay.relayUrl)
  constructor
  · intro grouped relay listed valid failed
    rw [← grouped.failing relay listed valid, mem_relaysWithFailures]
    exact ⟨⟨listed, (failure relay).mpr failed⟩, valid⟩
  · intro none
    refine ⟨groups_perm config random _, ?_, ?_⟩
    · intro relay listed valid
      rw [mem_relaysWithFailures, failure]
      exact ⟨fun grouped => none relay listed valid grouped.1.2,
        fun recently => ⟨⟨listed, recentlyFailed_hasFailed config _ log recently⟩, valid⟩⟩
    · intro relay listed valid long
      rw [mem_relaysWithoutFailures]
      refine ⟨⟨listed, ?_⟩, valid⟩
      rw [Bool.not_eq_true', ← Bool.not_eq_true, failure]
      exact fun failed => long (none relay listed valid failed)

/-! One failure, which is forgotten after half an hour. -/

def sampleKnownRelays : KnownRelaysConfig where
  preferredRelays := []
  blacklistedRelays := []
  relayTimeoutGrace := 1800
  relayFilter := fun _ => true
  validateRelayUrl := fun _ => true

def failedRelay : RegistrarRelayInfo := ⟨5, 100, 2, 40, ['r'], ['0', 'x', '1']⟩

def rehabilitation : List KnownRelaysEvent :=
  [.registeredRelays [failedRelay], .refresh 5000000, .saveRelayFailure 1000000 ⟨1000000, ['0', 'x', '1'], ['r']⟩,
    .registeredRelays [failedRelay], .refresh 0]

def lowestDraw : Random := ⟨0, Rat.le_refl, by decide⟩

theorem not_recently_failed : ¬ RecentlyFailed sampleKnownRelays ['r'] rehabilitation := by
  rintro ⟨failure, ⟨now, recorded⟩, _, young⟩
  simp only [List.mem_cons, List.not_mem_nil, KnownRelaysEvent.saveRelayFailure.injEq, reduceCtorEq,
    or_false] at recorded
  rw [recorded.2, IsYoung] at young
  norm_num [sampleKnownRelays] at young

theorem expired_failure_grouped :
    .event failedRelay ∈ relaysWithFailures sampleKnownRelays (fun _ _ => lowestDraw)
        (after sampleKnownRelays rehabilitation) ∧
      ¬ RecentlyFailed sampleKnownRelays failedRelay.relayUrl rehabilitation := by
  refine ⟨?_, not_recently_failed⟩
  rw [mem_relaysWithFailures]
  decide

end OpenGsn.Provider
