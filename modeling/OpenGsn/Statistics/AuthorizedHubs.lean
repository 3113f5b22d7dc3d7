import OpenGsn.InsertionMap
import OpenGsn.StakeManager.Model
import Mathlib.Data.List.Induction
import Mathlib.Data.List.Sort
import Mathlib.Data.Prod.Lex
import Mathlib.Order.Fin.Basic

/-! `StatisticsManager.getAuthorizedHubsAndVersions` and the comparator of `Utils.ts`. -/

namespace OpenGsn.Statistics

open Solidity StakeManager

/-! ## The last one of a descending list -/

section Descending

variable {α β ι : Type} [LinearOrder ι] (position : α → ι) (said : α → Option β)

/-- Of those that say anything, the one with the lowest position tells this. -/
def LowestTells (items : List α) (value : β) : Prop :=
  ∃ item ∈ items, said item = some value ∧
    ∀ other ∈ items, (said other).isSome → position item ≤ position other

instance decidableLowestTells [DecidableEq β] (items : List α) (value : β) :
    Decidable (LowestTells position said items value) :=
  inferInstanceAs (Decidable (∃ item ∈ items, said item = some value ∧
    ∀ other ∈ items, (said other).isSome → position item ≤ position other))

theorem lowestTells_mono (items others : List α) (same : ∀ item, (said item).isSome → (item ∈ items ↔ item ∈ others))
    (value : β) (told : LowestTells position said items value) : LowestTells position said others value := by
  obtain ⟨item, member, tells, lowest⟩ := told
  refine ⟨item, (same item (by rw [tells]; rfl)).mp member, tells, fun other listed speaks => ?_⟩
  exact lowest other ((same other speaks).mpr listed) speaks

theorem lowestTells_congr (items others : List α)
    (same : ∀ item, (said item).isSome → (item ∈ items ↔ item ∈ others)) (value : β) :
    LowestTells position said items value ↔ LowestTells position said others value :=
  ⟨lowestTells_mono position said items others same value,
    lowestTells_mono position said others items (fun item speaks => (same item speaks).symm) value⟩

theorem lowestTells_silent (items : List α) (last : α) (silent : said last = none) (value : β) :
    LowestTells position said (items ++ [last]) value ↔ LowestTells position said items value := by
  have mute : ∀ item, item ∈ items ++ [last] → (said item).isSome → item ∈ items := by
    intro item member tells
    cases List.mem_append.mp member with
    | inl earlier => exact earlier
    | inr same =>
        rw [List.mem_singleton.mp same, silent] at tells
        cases tells
  constructor
  · rintro ⟨item, member, tells, lowest⟩
    exact ⟨item, mute item member (by rw [tells]; rfl), tells, fun other listed =>
      lowest other (List.mem_append_left _ listed)⟩
  · rintro ⟨item, member, tells, lowest⟩
    exact ⟨item, List.mem_append_left _ member, tells, fun other listed told =>
      lowest other (mute other listed told) told⟩

theorem lowestTells_last (items : List α) (last : α) (below : ∀ item ∈ items, position last < position item)
    (told : β) (tells : said last = some told) (value : β) :
    LowestTells position said (items ++ [last]) value ↔ told = value := by
  have listed : last ∈ items ++ [last] := List.mem_append_right _ (List.mem_singleton_self last)
  constructor
  · rintro ⟨item, member, itemTells, lowest⟩
    have under := lowest last listed (by rw [tells]; rfl)
    cases List.mem_append.mp member with
    | inl earlier => exact absurd under (not_le.mpr (below item earlier))
    | inr same =>
        rw [List.mem_singleton.mp same, tells] at itemTells
        exact Option.some.inj itemTells
  · rintro rfl
    have lowest : ∀ other ∈ items ++ [last], position last ≤ position other := by
      intro other member
      cases List.mem_append.mp member with
      | inl earlier => exact (below other earlier).le
      | inr same => rw [List.mem_singleton.mp same]
    exact ⟨last, listed, tells, fun other member _ => lowest other member⟩

theorem getLast_filterMap_iff (items : List α)
    (descending : items.Pairwise fun first second => position second < position first) (value : β) :
    (items.filterMap said).getLast? = some value ↔ LowestTells position said items value := by
  induction items using List.reverseRecOn with
  | nil => simp [LowestTells]
  | append_singleton items last ih =>
      have split := List.pairwise_append.mp descending
      have below : ∀ item ∈ items, position last < position item := fun item member =>
        split.2.2 item member last (List.mem_singleton_self last)
      rw [List.filterMap_append]
      cases tells : said last with
      | none =>
          rw [lowestTells_silent position said items last tells, ← ih split.1]
          simp [tells]
      | some told =>
          rw [lowestTells_last position said items last below told tells]
          simp [tells]

end Descending

/-! ## The events as the node returns them -/

structure EventData where
  event : Event
  blockNumber : ℕ
  transactionIndex : ℕ
  deriving DecidableEq, Repr

def eventsComparator (a b : EventData) : ℤ :=
  if a.blockNumber = b.blockNumber then (b.transactionIndex : ℤ) - a.transactionIndex
  else (b.blockNumber : ℤ) - a.blockNumber

/-- `Array.prototype.sort`, which is stable. -/
def sort (events : List EventData) : List EventData :=
  events.insertionSort fun a b => eventsComparator a b ≤ 0

def getLatestEventData (events : List EventData) : Option EventData := (sort events).head?

namespace EventData

def position (eventData : EventData) : ℕ ×ₗ ℕ := toLex (eventData.blockNumber, eventData.transactionIndex)

def authorizes (relayHub : Address) (eventData : EventData) : Option Bool :=
  match eventData.event with
  | .hubAuthorized _ hub => if hub = relayHub then some true else none
  | .hubUnauthorized _ hub _ => if hub = relayHub then some false else none
  | _ => none

def isHubEvent (eventData : EventData) : Bool :=
  match eventData.event with
  | .hubAuthorized _ _ => true
  | .hubUnauthorized _ _ _ => true
  | _ => false

end EventData

theorem eventsComparator_nonpos_iff (a b : EventData) : eventsComparator a b ≤ 0 ↔ b.position ≤ a.position := by
  rw [EventData.position, EventData.position, Prod.Lex.toLex_le_toLex]
  unfold eventsComparator
  split <;> omega

instance eventsComparator_total : Std.Total fun a b : EventData => eventsComparator a b ≤ 0 where
  total a b := by
    rw [eventsComparator_nonpos_iff, eventsComparator_nonpos_iff]
    exact le_total b.position a.position

instance eventsComparator_trans : IsTrans EventData fun a b => eventsComparator a b ≤ 0 where
  trans a b c := by
    rw [eventsComparator_nonpos_iff, eventsComparator_nonpos_iff, eventsComparator_nonpos_iff]
    exact fun second first => first.trans second

theorem sort_newestFirst (events : List EventData) :
    (sort events).Pairwise fun a b => b.position ≤ a.position :=
  (List.pairwise_insertionSort (fun a b : EventData => eventsComparator a b ≤ 0) events).imp fun ordered =>
    (eventsComparator_nonpos_iff _ _).mp ordered

theorem mem_sort (events : List EventData) (eventData : EventData) : eventData ∈ sort events ↔ eventData ∈ events :=
  List.mem_insertionSort _

theorem sort_strict (events : List EventData) (distinct : (events.map EventData.position).Nodup) :
    (sort events).Pairwise fun a b => b.position < a.position := by
  have permuted : (sort events).map EventData.position |>.Perm (events.map EventData.position) :=
    (List.perm_insertionSort (fun a b : EventData => eventsComparator a b ≤ 0) events).map EventData.position
  have apart := List.pairwise_map.mp (permuted.nodup_iff.mpr distinct)
  exact (sort_newestFirst events).imp₂ (fun _ _ ordered different => lt_of_le_of_ne ordered different.symm) apart

/-- The newest event first is what `getLatestEventData` sorts for. -/
theorem getLatestEventData_latest (events : List EventData) (latest : EventData)
    (found : getLatestEventData events = some latest) :
    latest ∈ events ∧ ∀ eventData ∈ events, eventData.position ≤ latest.position := by
  obtain ⟨rest, sorted⟩ : ∃ rest, sort events = latest :: rest := by
    unfold getLatestEventData at found
    cases sorted : sort events with
    | nil =>
        rw [sorted] at found
        cases found
    | cons head rest =>
        rw [sorted] at found
        exact ⟨rest, by rw [Option.some.inj found]⟩
  have newest := sort_newestFirst events
  rw [sorted] at newest
  have listed : ∀ eventData, eventData ∈ events ↔ eventData ∈ latest :: rest := fun eventData => by
    rw [← mem_sort, sorted]
  refine ⟨(listed latest).mpr List.mem_cons_self, fun eventData member => ?_⟩
  cases List.mem_cons.mp ((listed eventData).mp member) with
  | inl same => rw [same]
  | inr later => exact (List.pairwise_cons.mp newest).1 eventData later

/-! ## The hubs that are listed -/

def add (hub : Address) (hubs : List Address) : List Address := if hubs.contains hub then hubs else hubs ++ [hub]

def delete (hub : Address) (hubs : List Address) : List Address := hubs.filter (· ≠ hub)

@[simp] theorem mem_add (hub other : Address) (hubs : List Address) :
    other ∈ add hub hubs ↔ other = hub ∨ other ∈ hubs := by
  unfold add
  split
  next present =>
    have listed : hub ∈ hubs := List.contains_iff_mem.mp present
    exact ⟨Or.inr, fun found => found.elim (fun same => same ▸ listed) id⟩
  next => rw [List.mem_append, List.mem_singleton, or_comm]

@[simp] theorem mem_delete (hub other : Address) (hubs : List Address) :
    other ∈ delete hub hubs ↔ other ∈ hubs ∧ other ≠ hub := by
  simp [delete]

def applyEvent (authorizedHubs : List Address) (eventData : EventData) : List Address :=
  match eventData.event with
  | .hubAuthorized _ relayHub => add relayHub authorizedHubs
  | .hubUnauthorized _ relayHub _ => delete relayHub authorizedHubs
  | _ => authorizedHubs

def orderedEvents (allEvents : List EventData) : List EventData := sort (allEvents.filter EventData.isHubEvent)

def authorizedHubs (allEvents : List EventData) : List Address := (orderedEvents allEvents).foldl applyEvent []

/-- `versionHub` is the call of the hub's view, `none` where the instance or the call fails. -/
def getAuthorizedHubsAndVersions (versionHub : Address → Option String) (allEvents : List EventData) :
    InsertionMap Address String :=
  InsertionMap.empty.merge ((authorizedHubs allEvents).map fun hub => (hub, (versionHub hub).getD "Failed to query"))

theorem getAuthorizedHubsAndVersions_keys (versionHub : Address → Option String) (allEvents : List EventData)
    (hub : Address) :
    hub ∈ (getAuthorizedHubsAndVersions versionHub allEvents).keys ↔ hub ∈ authorizedHubs allEvents := by
  rw [getAuthorizedHubsAndVersions, InsertionMap.mem_keys_merge]
  simp

theorem mem_applyEvent (hub : Address) (hubs : List Address) (eventData : EventData) :
    hub ∈ applyEvent hubs eventData ↔ (eventData.authorizes hub).getD (hub ∈ hubs) = true := by
  unfold applyEvent EventData.authorizes
  cases eventData.event with
  | hubAuthorized manager relayHub => by_cases same : relayHub = hub <;> simp [same, Ne.symm]
  | hubUnauthorized manager relayHub removalTime => by_cases same : relayHub = hub <;> simp [same, Ne.symm]
  | _ => simp

theorem mem_foldl_applyEvent (hub : Address) (events : List EventData) (hubs : List Address) :
    hub ∈ events.foldl applyEvent hubs ↔
      ((events.filterMap (EventData.authorizes hub)).getLast?).getD (hub ∈ hubs) = true := by
  induction events generalizing hubs with
  | nil => simp
  | cons eventData rest ih =>
      rw [List.foldl_cons, ih]
      cases tells : eventData.authorizes hub with
      | none => simp [tells, mem_applyEvent]
      | some authorized => simp [tells, mem_applyEvent, List.getLast?_cons]

def FirstTells (hub : Address) (allEvents : List EventData) (authorized : Bool) : Prop :=
  LowestTells EventData.position (EventData.authorizes hub) allEvents authorized

def LastTells (hub : Address) (allEvents : List EventData) (authorized : Bool) : Prop :=
  LowestTells (fun eventData => OrderDual.toDual eventData.position) (EventData.authorizes hub) allEvents authorized

instance decidableFirstTells (hub : Address) (allEvents : List EventData) (authorized : Bool) :
    Decidable (FirstTells hub allEvents authorized) :=
  decidableLowestTells _ _ _ _

instance decidableLastTells (hub : Address) (allEvents : List EventData) (authorized : Bool) :
    Decidable (LastTells hub allEvents authorized) :=
  decidableLowestTells _ _ _ _

theorem isHubEvent_of_authorizes (hub : Address) (eventData : EventData) (tells : (eventData.authorizes hub).isSome) :
    eventData.isHubEvent = true := by
  unfold EventData.authorizes at tells
  unfold EventData.isHubEvent
  cases event : eventData.event with
  | hubAuthorized => rfl
  | hubUnauthorized => rfl
  | _ =>
      rw [event] at tells
      cases tells

theorem mem_orderedEvents (hub : Address) (allEvents : List EventData) (eventData : EventData)
    (tells : (eventData.authorizes hub).isSome) : eventData ∈ orderedEvents allEvents ↔ eventData ∈ allEvents := by
  rw [orderedEvents, mem_sort, List.mem_filter, and_iff_left (isHubEvent_of_authorizes hub eventData tells)]

/-- The sort puts the newest event first, so the oldest one is applied last. -/
theorem mem_authorizedHubs (allEvents : List EventData)
    (distinct : ((allEvents.filter EventData.isHubEvent).map EventData.position).Nodup) (hub : Address) :
    hub ∈ authorizedHubs allEvents ↔ FirstTells hub allEvents true := by
  have applied := getLast_filterMap_iff EventData.position (EventData.authorizes hub) (orderedEvents allEvents)
    (sort_strict _ distinct) true
  have listed := lowestTells_congr EventData.position (EventData.authorizes hub) (orderedEvents allEvents) allEvents
    (mem_orderedEvents hub allEvents) true
  calc
    hub ∈ authorizedHubs allEvents ↔
        ((orderedEvents allEvents).filterMap (EventData.authorizes hub)).getLast? = some true := by
      rw [authorizedHubs, mem_foldl_applyEvent]
      cases ((orderedEvents allEvents).filterMap (EventData.authorizes hub)).getLast? <;> simp
    _ ↔ FirstTells hub allEvents true := applied.trans listed

theorem getAuthorizedHubsAndVersions_current_iff (versionHub : Address → Option String) (allEvents : List EventData)
    (distinct : ((allEvents.filter EventData.isHubEvent).map EventData.position).Nodup) :
    (∀ hub, hub ∈ (getAuthorizedHubsAndVersions versionHub allEvents).keys ↔ LastTells hub allEvents true) ↔
      ∀ hub, FirstTells hub allEvents true ↔ LastTells hub allEvents true := by
  have listed : ∀ hub, hub ∈ (getAuthorizedHubsAndVersions versionHub allEvents).keys ↔
      FirstTells hub allEvents true := by
    intro hub
    rw [getAuthorizedHubsAndVersions_keys]
    exact mem_authorizedHubs allEvents distinct hub
  constructor
  · intro current hub
    exact (listed hub).symm.trans (current hub)
  · intro unchanged hub
    exact (listed hub).trans (unchanged hub)

/-- Of four hubs, as a node may return them: two that were authorized again, one authorized once, and one whose
authorization is older than the log. -/
def interleaved : List EventData :=
  [⟨.hubAuthorized 5 8, 6, 0⟩, ⟨.hubUnauthorized 5 9 95, 7, 0⟩, ⟨.hubAuthorized 5 7, 3, 0⟩,
    ⟨.hubUnauthorized 5 8 90, 3, 1⟩, ⟨.hubAuthorized 5 9, 8, 2⟩, ⟨.hubUnauthorized 5 10 60, 4, 0⟩,
    ⟨.hubAuthorized 5 9, 2, 4⟩, ⟨.hubAuthorized 5 8, 1, 0⟩]

theorem interleaved_silent (hub : Address) (unmentioned : hub ∉ [7, 8, 9, 10]) (eventData : EventData)
    (member : eventData ∈ interleaved) : eventData.authorizes hub = none := by
  simp only [List.mem_cons, List.not_mem_nil, or_false, not_or] at unmentioned
  simp only [interleaved, List.mem_cons, List.not_mem_nil, or_false] at member
  rcases member with rfl | rfl | rfl | rfl | rfl | rfl | rfl | rfl <;>
    simp [EventData.authorizes, unmentioned, Ne.symm]

theorem getAuthorizedHubsAndVersions_current_iff_interleaved :
    (∀ hub, hub ∈ (getAuthorizedHubsAndVersions (fun _ => some "2.2.3") interleaved).keys ↔
      LastTells hub interleaved true) ∧
    (getAuthorizedHubsAndVersions (fun _ => some "2.2.3") interleaved).keys = [7, 9, 8] := by
  refine ⟨(getAuthorizedHubsAndVersions_current_iff _ interleaved (by decide)).mpr fun hub => ?_, by decide⟩
  by_cases mentioned : hub ∈ [7, 8, 9, 10]
  · simp only [List.mem_cons, List.not_mem_nil, or_false] at mentioned
    rcases mentioned with rfl | rfl | rfl | rfl <;> decide
  · have silent := interleaved_silent hub mentioned
    constructor
    · rintro ⟨eventData, member, tells, _⟩
      rw [silent eventData member] at tells
      cases tells
    · rintro ⟨eventData, member, tells, _⟩
      rw [silent eventData member] at tells
      cases tells

def authorizedThenNot : List EventData := [⟨.hubAuthorized 5 7, 1, 0⟩, ⟨.hubUnauthorized 5 7 90, 2, 0⟩]

theorem unauthorizedHub_listed :
    ((authorizedThenNot.filter EventData.isHubEvent).map EventData.position).Nodup ∧
      7 ∈ (getAuthorizedHubsAndVersions (fun _ => some "2.2.3") authorizedThenNot).keys ∧
      LastTells 7 authorizedThenNot false ∧ ¬ LastTells 7 authorizedThenNot true := by
  decide

end OpenGsn.Statistics
