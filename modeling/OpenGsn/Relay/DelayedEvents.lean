import OpenGsn.Relay.SparedFields
import OpenGsn.Runs
import Mathlib.Data.List.Perm.Subperm

/-! When `RegistrationManager.ts` withdraws the funds from a hub that is no longer authorized. -/

namespace OpenGsn.Relay

open Solidity Async Promise RegistrationManager

variable (addresses : RelayHub.Immutables) (encodeABI : ContractMethod → Bytes) (config : RegistrationConfig)
  (currentBlock : ShortBlockInfo)

namespace RegistrationManager

/-- `handlePastEvents` up to `decodedEvents`. -/
def fetchEvents (scanned : ℕ) : RegistrationPromise (List StakeManager.Event) := do
  let isInitialized ← field RegistrationManager.isInitialized
  expect (isInitialized = true) "RegistrationManager not initialized"
  inquire fun _ s => eventsFrom config scanned s

/-- From there up to `_extractDuePendingEvents`, with what that returns. -/
def handleFetched (decodedEvents : List StakeManager.Event) :
    RegistrationPromise (List Uint256 × List StakeManager.Event) := do
  let ownerSet ← setOwnerOnce addresses encodeABI config currentBlock
  let handled ← handleEvents addresses encodeABI config currentBlock decodedEvents
  let due ← extractDuePendingEvents currentBlock
  pure (ownerSet ++ handled, due)

def handleUntilDue (scanned : ℕ) : RegistrationPromise (List Uint256 × List StakeManager.Event) := do
  let decodedEvents ← fetchEvents config scanned
  handleFetched addresses encodeABI config currentBlock decodedEvents

/-- The rest of it: the late handler for each of the events, and the registration. -/
def handleOnceDue (forceRegistration : Bool) (due : List StakeManager.Event) :
    RegistrationPromise (List Uint256) := do
  let handledLate ← handleDueEvents addresses encodeABI config currentBlock due
  refreshRegistrarRelayInfo
  let registered ← registerAgain addresses encodeABI config currentBlock forceRegistration
  pure (handledLate ++ registered)

theorem handlePastEvents_split (scanned : ℕ) (forceRegistration : Bool) :
    handlePastEvents addresses encodeABI config currentBlock scanned forceRegistration =
      handleUntilDue addresses encodeABI config currentBlock scanned >>= fun ended =>
        handleOnceDue addresses encodeABI config currentBlock forceRegistration ended.2 >>= fun concluded =>
          pure (ended.1 ++ concluded) := by
  simp only [handlePastEvents, concludeEvents, handleUntilDue, fetchEvents, handleFetched, handleOnceDue,
    bind_assoc, pure_bind]

/-- The events that `withdrawAllFunds` is run for, one after the other until it fails. -/
def handledLate (replies : ℕ → RegistrationReply) :
    ℕ → List StakeManager.Event → Registration → List StakeManager.Event
  | _, [], _ => []
  | count, event :: rest, s =>
      let handler := withdrawAllFunds addresses encodeABI config currentBlock false
      event :: match Proc.finish replies count handler s with
        | some (.ok _, t) => handledLate replies (Proc.taken replies count handler s) rest t
        | _ => []

theorem handledLate_due (replies : ℕ → RegistrationReply) (due : List StakeManager.Event) (count : ℕ)
    (s : Registration) : handledLate addresses encodeABI config currentBlock replies count due s <+: due := by
  induction due generalizing count s with
  | nil => exact List.prefix_rfl
  | cons event rest ih =>
      rw [handledLate, List.cons_prefix_cons]
      refine ⟨rfl, ?_⟩
      split
      · exact ih _ _
      · exact List.nil_prefix

theorem handledLate_all (replies : ℕ → RegistrationReply) (due : List StakeManager.Event) (count : ℕ)
    (s t : Registration) (value : List Uint256)
    (finished : Proc.finish replies count (handleDueEvents addresses encodeABI config currentBlock due) s =
      some (.ok value, t)) :
    handledLate addresses encodeABI config currentBlock replies count due s = due := by
  induction due generalizing count s value with
  | nil => rfl
  | cons event rest ih =>
      rw [handleDueEvents] at finished
      obtain ⟨first, middle, withdrawn, others⟩ := Proc.finish_bind _ _ _ _ _ _ finished
      rw [handledLate, withdrawn]
      cases first with
      | error message => cases others
      | ok first =>
          obtain ⟨last, later, handled, ended⟩ := Proc.finish_bind _ _ _ _ _ _ others
          cases last with
          | error message => cases ended
          | ok last =>
              cases ended
              exact congrArg _ (ih _ middle last handled)

end RegistrationManager

/-! The parts that leave the delayed events alone. -/

theorem delayedEvents_spared : Spared RegistrationManager.delayedEvents :=
  ⟨fun _ _ => rfl, fun _ _ => rfl, fun _ _ => rfl, fun _ _ => rfl, fun _ _ => rfl⟩

abbrev KeepsDelayed {α : Type} (promise : RegistrationPromise α) : Prop :=
  Spares RegistrationManager.delayedEvents promise

theorem setOwnerOnce_delayed : KeepsDelayed (setOwnerOnce addresses encodeABI config currentBlock) := by
  apply then_spares (sends_spares (field_sends _))
  intro m
  split
  · exact then_spares (assign_spares _ fun _ => rfl) fun _ => sends_spares (sendOne_sends _)
  · exact pure_spares _

theorem refreshStake_delayed : KeepsDelayed (refreshStake addresses encodeABI config currentBlock) :=
  refreshStake_spares addresses encodeABI config currentBlock delayedEvents_spared

theorem handleOnceDue_delayed (forceRegistration : Bool) (due : List StakeManager.Event) :
    KeepsDelayed (handleOnceDue addresses encodeABI config currentBlock forceRegistration due) := by
  apply then_spares (sends_spares (handleDueEvents_sends addresses encodeABI config currentBlock due))
  intro handledLate
  apply then_spares (refreshRegistrarRelayInfo_spares delayedEvents_spared)
  intro _
  exact then_spares (registerAgain_spares addresses encodeABI config currentBlock delayedEvents_spared
    forceRegistration) fun _ => pure_spares _

/-! The events. -/

def delayed : StakeManager.Event → Option (ℕ × StakeManager.Event)
  | .hubUnauthorized relayManager relayHub removalTime =>
      if relayHub = addresses.this then
        some (removalTime, .hubUnauthorized relayManager relayHub removalTime)
      else none
  | _ => none

theorem delayed_eq (event : StakeManager.Event) (entry : ℕ × StakeManager.Event)
    (put : delayed addresses event = some entry) :
    entry.2 = event ∧ ∃ relayManager, event = .hubUnauthorized relayManager addresses.this entry.1 := by
  cases event with
  | hubUnauthorized relayManager relayHub removalTime =>
      rw [delayed] at put
      split_ifs at put with same
      cases put
      exact ⟨rfl, relayManager, by rw [same]⟩
  | _ => cases put

theorem handleEvent_delays (event : StakeManager.Event) (s : Registration) :
    Proc.Alone (fun _ t => t.manager.delayedEvents =
        s.manager.delayedEvents ++ (delayed addresses event).toList)
      (handleEvent addresses encodeABI config currentBlock event) s := by
  have read : ∀ same : delayed addresses event = none,
      Proc.Alone (fun _ t => t.manager.delayedEvents =
          s.manager.delayedEvents ++ (delayed addresses event).toList)
        (refreshStake addresses encodeABI config currentBlock) s := by
    intro same
    rw [same, Option.toList_none, List.append_nil]
    exact settles_keeps _ (refreshStake_delayed addresses encodeABI config currentBlock) s
  cases event with
  | ownerSet => exact read rfl
  | stakeAdded => exact read rfl
  | stakeUnlocked => exact read rfl
  | stakeWithdrawn relayManager owner token amount =>
      refine Proc.alone_weaken _ _ _ ?_ (settles_keeps _ (then_spares
        (refreshStake_delayed addresses encodeABI config currentBlock)
        (fun refreshed => then_spares
          (sends_spares (withdrawAllFunds_sends addresses encodeABI config currentBlock true))
          fun withdrawn => pure_spares (refreshed ++ withdrawn))) s)
      intro _ t same
      exact same.trans (List.append_nil _).symm
  | hubAuthorized relayManager relayHub =>
      unfold handleEvent handleHubAuthorizedEvent
      intro _ _
      dsimp only
      split <;> exact (List.append_nil _).symm
  | hubUnauthorized relayManager relayHub removalTime =>
      unfold handleEvent handleHubUnauthorized delayed
      intro _ _
      dsimp only
      split
      · rfl
      · exact (List.append_nil _).symm
  | _ => exact (List.append_nil _).symm

/-- Where an event fails, those after it are not handled. -/
structure Delays (events : List StakeManager.Event) (s : Registration)
    (result : Except String (List Uint256)) (t : Registration) : Prop where
  atMost : t.manager.delayedEvents.Sublist
    (s.manager.delayedEvents ++ events.filterMap (delayed addresses))
  all : ∀ value, result = .ok value →
    t.manager.delayedEvents = s.manager.delayedEvents ++ events.filterMap (delayed addresses)

theorem delays_cons (event : StakeManager.Event) (rest : List StakeManager.Event) (s t u : Registration)
    (result ended : Except String (List Uint256))
    (first : t.manager.delayedEvents = s.manager.delayedEvents ++ (delayed addresses event).toList)
    (others : Delays addresses rest t result u)
    (ends : ∀ value, ended = .ok value → ∃ value, result = .ok value) :
    Delays addresses (event :: rest) s ended u := by
  have joined : t.manager.delayedEvents ++ rest.filterMap (delayed addresses) =
      s.manager.delayedEvents ++ (event :: rest).filterMap (delayed addresses) := by
    rw [first, List.append_assoc]
    cases put : delayed addresses event with
    | none => rw [List.filterMap_cons_none put, Option.toList_none, List.nil_append]
    | some entry => rw [List.filterMap_cons_some put, Option.toList_some, List.singleton_append]
  constructor
  · rw [← joined]
    exact others.atMost
  · intro value made
    have ⟨last, same⟩ := ends value made
    rw [← joined]
    exact others.all last same

theorem handleEvents_delays (events : List StakeManager.Event) (s : Registration) :
    Proc.Alone (Delays addresses events s)
      (handleEvents addresses encodeABI config currentBlock events) s := by
  induction events generalizing s with
  | nil =>
      have same : s.manager.delayedEvents =
          s.manager.delayedEvents ++ [].filterMap (delayed addresses) := (List.append_nil _).symm
      exact ⟨same ▸ List.Sublist.refl _, fun _ _ => same⟩
  | cons event rest ih =>
      apply alone_seq _ _ s (handleEvent_delays addresses encodeABI config currentBlock event s)
      · intro error t first
        have most : Delays addresses rest t (.error error) t :=
          ⟨List.sublist_append_left _ _, fun _ made => nomatch made⟩
        exact delays_cons addresses event rest s t t _ _ first most fun _ made => nomatch made
      · intro value t first
        apply alone_seq _ _ t (ih t)
        · exact fun error u others =>
            delays_cons addresses event rest s t u _ _ first others fun _ made => nomatch made
        · exact fun last u others =>
            delays_cons addresses event rest s t u _ _ first others fun _ _ => ⟨last, rfl⟩

def putOff (events : List StakeManager.Event) (s : Registration) : List (ℕ × StakeManager.Event) :=
  s.manager.delayedEvents ++ events.filterMap (delayed addresses)

def Extracted (events : List StakeManager.Event) (s : Registration) :
    Except String (List Uint256 × List StakeManager.Event) → Registration → Prop
  | .error _, t => t.manager.delayedEvents.Sublist (putOff addresses events s)
  | .ok (_, due), t =>
      due = ((putOff addresses events s).filter fun event =>
        event.1 ≤ currentBlock.timestamp).map Prod.snd ∧
      t.manager.delayedEvents = (putOff addresses events s).filter fun event =>
        currentBlock.timestamp < event.1

/-- As far as the events were handled, beginning with those that were put off before. -/
theorem extract_extracts (events : List StakeManager.Event) (s t : Registration)
    (ownerSet handled : List Uint256) (put : t.manager.delayedEvents = putOff addresses events s) :
    Proc.Alone (Extracted addresses currentBlock events s)
      (extractDuePendingEvents currentBlock >>= fun due => pure (ownerSet ++ handled, due) :
        RegistrationPromise (List Uint256 × List StakeManager.Event)) t := by
  apply alone_sync_seq
  simp only [alone_pure, Extracted, put, and_self]

theorem handleFetched_extracts (events : List StakeManager.Event) (s : Registration) :
    Proc.Alone (Extracted addresses currentBlock events s)
      (handleFetched addresses encodeABI config currentBlock events) s := by
  apply alone_seq _ _ s (settles_keeps _ (setOwnerOnce_delayed addresses encodeABI config currentBlock) s)
  · intro error t same
    rw [Extracted, same]
    exact List.sublist_append_left _ _
  intro ownerSet t same
  apply alone_seq _ _ t (handleEvents_delays addresses encodeABI config currentBlock events t)
  · intro error u delays
    have most := delays.atMost
    rwa [same] at most
  · intro handled u delays
    have every := delays.all handled rfl
    rw [same] at every
    exact extract_extracts addresses currentBlock events s u ownerSet handled every

/-- The events are fetched by a request that changes nothing. -/
theorem fetchEvents_same (scanned : ℕ) (s : Registration) :
    Proc.Alone (fun _ t => t = s) (fetchEvents config scanned) s := by
  have initialized : ∀ (condition : Prop) [Decidable condition] (message : String),
      Proc.Alone (fun _ t => t = s) (expect condition message) s := fun _ _ _ => rfl
  apply alone_sync_seq
  apply alone_seq _ _ s (initialized _ _)
  · exact fun error t same => same
  rintro _ t rfl
  exact fun _ _ => rfl

/-! Runs. -/

/-- One call of `handlePastEvents`, with the chain as it is then. -/
structure Pass where
  contracts : RelayHub.World
  relayUrl : Option String
  currentBlock : ShortBlockInfo
  scanned : ℕ
  forceRegistration : Bool
  replies : ℕ → RegistrationReply

def Pass.start (pass : Pass) (s : Registration) : Registration :=
  { s with contracts := pass.contracts, relayUrl := pass.relayUrl }

/-- The events that the pass is given, if it comes to ask for them and is answered. -/
def Pass.events (pass : Pass) (s : Registration) : List StakeManager.Event :=
  match Proc.finish pass.replies 0 (fetchEvents config pass.scanned) (pass.start s) with
  | some (.ok events, _) => events
  | _ => []

/-- The events that the late handler is run for in the pass, unless it fails for one before. -/
def Pass.due (pass : Pass) (s : Registration) : List StakeManager.Event :=
  match Proc.finish pass.replies 0
    (handleUntilDue addresses encodeABI config pass.currentBlock pass.scanned) (pass.start s) with
  | some (.ok (_, due), _) => due
  | _ => []

/-- Those of them that it is run for. -/
def Pass.withdrawn (pass : Pass) (s : Registration) : List StakeManager.Event :=
  let untilDue := handleUntilDue addresses encodeABI config pass.currentBlock pass.scanned
  match Proc.finish pass.replies 0 untilDue (pass.start s) with
  | some (.ok (_, due), t) =>
      handledLate addresses encodeABI config pass.currentBlock pass.replies
        (Proc.taken pass.replies 0 untilDue (pass.start s)) due t
  | _ => []

theorem withdrawn_due (pass : Pass) (s : Registration) :
    pass.withdrawn addresses encodeABI config s <+: pass.due addresses encodeABI config s := by
  unfold Pass.withdrawn Pass.due
  dsimp only
  split
  · exact handledLate_due addresses encodeABI config pass.currentBlock pass.replies _ _ _
  · exact List.prefix_rfl

/-- The manager with the history of its passes: all events that they were given, those that were due,
of these, those of the last pass, and of these, those that `withdrawAllFunds` was run for. -/
structure Withdrawing where
  registration : Registration
  delivered : List StakeManager.Event
  triggered : List StakeManager.Event
  latest : List StakeManager.Event
  withdrawn : List StakeManager.Event
  timestamp : ℕ

namespace Withdrawing

def next (s : Withdrawing) (pass : Pass) : Withdrawing :=
  match Proc.finish pass.replies 0 (handlePastEvents addresses encodeABI config pass.currentBlock
    pass.scanned pass.forceRegistration) (pass.start s.registration) with
  | none => s
  | some (_, t) =>
      let due := pass.due addresses encodeABI config s.registration
      ⟨t, s.delivered ++ pass.events config s.registration, s.triggered ++ due, due,
        pass.withdrawn addresses encodeABI config s.registration, pass.currentBlock.timestamp⟩

def initial (registration : Registration) : Withdrawing := ⟨registration, [], [], [], [], 0⟩

def Stands (delivered : List StakeManager.Event) (event : StakeManager.Event) : Prop :=
  ∃ before after, delivered = before ++ event :: after ∧
    ∀ relayManager, .hubAuthorized relayManager addresses.this ∉ after

/-- The hub is not authorized since an event that is due, the funds are withdrawn for such events only,
and no event is handled twice. -/
structure Warranted (s : Withdrawing) : Prop where
  withdrawn : s.withdrawn <+: s.latest
  unauthorized : ∀ event ∈ s.latest, Stands addresses s.delivered event ∧
    ∃ relayManager removalTime, event = .hubUnauthorized relayManager addresses.this removalTime ∧
      removalTime ≤ s.timestamp
  once : s.triggered.Subperm s.delivered

/-- No event authorizes the hub while another one, before it, is put off. -/
def Undisturbed (s : Withdrawing) (pass : Pass) : Prop :=
  ∀ before after relayManager,
    pass.events config s.registration = before ++ .hubAuthorized relayManager addresses.this :: after →
      s.registration.manager.delayedEvents ++ before.filterMap (delayed addresses) = []

/-- The invariant: what is put off has been delivered and not been handled, and stands. -/
structure Waiting (s : Withdrawing) : Prop where
  warranted : s.Warranted addresses
  stands : ∀ entry ∈ s.registration.manager.delayedEvents, Stands addresses s.delivered entry.2 ∧
    ∃ relayManager, entry.2 = .hubUnauthorized relayManager addresses.this entry.1
  once : (s.triggered ++ s.registration.manager.delayedEvents.map Prod.snd).Subperm s.delivered

theorem stands_append (delivered later : List StakeManager.Event) (event : StakeManager.Event)
    (stands : Stands addresses delivered event)
    (silent : ∀ relayManager, .hubAuthorized relayManager addresses.this ∉ later) :
    Stands addresses (delivered ++ later) event := by
  obtain ⟨before, after, rfl, quiet⟩ := stands
  refine ⟨before, after ++ later, by rw [List.append_assoc, List.cons_append], fun relayManager => ?_⟩
  rw [List.mem_append, not_or]
  exact ⟨quiet relayManager, silent relayManager⟩

theorem putOff_stands (s : Withdrawing) (pass : Pass) (waiting : s.Waiting addresses)
    (undisturbed : s.Undisturbed addresses config pass) (entry : ℕ × StakeManager.Event)
    (put : entry ∈ putOff addresses (pass.events config s.registration) (pass.start s.registration)) :
    Stands addresses (s.delivered ++ pass.events config s.registration) entry.2 ∧
      ∃ relayManager, entry.2 = .hubUnauthorized relayManager addresses.this entry.1 := by
  rcases List.mem_append.mp put with old | new
  · have stood := waiting.stands entry old
    refine ⟨stands_append addresses _ _ _ stood.1 fun relayManager authorized => ?_, stood.2⟩
    have ⟨before, after, split⟩ := List.append_of_mem authorized
    have none := undisturbed before after relayManager split
    rw [List.append_eq_nil_iff] at none
    exact absurd none.1 (List.ne_nil_of_mem old)
  · have ⟨event, member, made⟩ := List.mem_filterMap.mp new
    have ⟨same, relayManager, unauthorized⟩ := delayed_eq addresses event entry made
    have ⟨front, back, split⟩ := List.append_of_mem member
    rw [same]
    refine ⟨⟨s.delivered ++ front, back, ?_, fun other authorized => ?_⟩, relayManager, unauthorized⟩
    · rw [split, List.append_assoc]
    · have ⟨middle, after, rest⟩ := List.append_of_mem authorized
      have none := undisturbed (front ++ event :: middle) after other (by
        rw [split, rest, List.append_assoc, List.cons_append])
      rw [List.filterMap_append, List.filterMap_cons_some made, List.append_eq_nil_iff,
        List.append_eq_nil_iff] at none
      exact absurd none.2.2 (List.cons_ne_nil _ _)

theorem delayed_sublist (events : List StakeManager.Event) :
    ((events.filterMap (delayed addresses)).map Prod.snd).Sublist events := by
  induction events with
  | nil => exact List.Sublist.refl _
  | cons event rest ih =>
      cases put : delayed addresses event with
      | none =>
          rw [List.filterMap_cons_none put]
          exact ih.cons event
      | some entry =>
          rw [List.filterMap_cons_some put, List.map_cons, (delayed_eq addresses event entry put).1]
          exact ih.cons_cons event

theorem putOff_once (s : Withdrawing) (pass : Pass) (waiting : s.Waiting addresses) :
    (s.triggered ++ (putOff addresses (pass.events config s.registration) (pass.start s.registration)).map
      Prod.snd).Subperm (s.delivered ++ pass.events config s.registration) := by
  rw [putOff, List.map_append, ← List.append_assoc]
  exact waiting.once.append (delayed_sublist addresses _).subperm

/-- What becomes of what was put off: it is handled, put off still, or lost with an error. -/
structure Ended (put : List (ℕ × StakeManager.Event)) (timestamp : ℕ) (due : List StakeManager.Event)
    (t : Registration) : Prop where
  handled : ∀ event ∈ due, ∃ entry ∈ put, entry.1 ≤ timestamp ∧ entry.2 = event
  left : ∀ entry ∈ t.manager.delayedEvents, entry ∈ put
  apart : (due ++ t.manager.delayedEvents.map Prod.snd).Subperm (put.map Prod.snd)

theorem ended_filter (put : List (ℕ × StakeManager.Event)) (timestamp : ℕ) (t : Registration)
    (left : t.manager.delayedEvents = put.filter fun event => timestamp < event.1) :
    Ended put timestamp ((put.filter fun event => event.1 ≤ timestamp).map Prod.snd) t := by
  refine ⟨?_, ?_, ?_⟩
  · intro event member
    have ⟨entry, kept, same⟩ := List.mem_map.mp member
    have ⟨from_put, due⟩ := List.mem_filter.mp kept
    exact ⟨entry, from_put, of_decide_eq_true due, same⟩
  · intro entry member
    rw [left] at member
    exact List.mem_of_mem_filter member
  · rw [left, ← List.map_append]
    apply List.Perm.subperm
    apply List.Perm.map
    have opposite : (fun event : ℕ × StakeManager.Event => decide (timestamp < event.1)) =
        fun event => !decide (event.1 ≤ timestamp) := by
      funext event
      simp only [← not_le, decide_not]
    rw [opposite]
    exact List.filter_append_perm _ put

theorem ended_sublist (put : List (ℕ × StakeManager.Event)) (timestamp : ℕ) (t : Registration)
    (left : t.manager.delayedEvents.Sublist put) : Ended put timestamp [] t :=
  ⟨fun _ member => (nomatch member), fun _ member => left.subset member, (left.map Prod.snd).subperm⟩

theorem pass_ended (pass : Pass) (s t : Registration) (result : Except String (List Uint256))
    (finished : Proc.finish pass.replies 0 (handlePastEvents addresses encodeABI config
      pass.currentBlock pass.scanned pass.forceRegistration) (pass.start s) = some (result, t)) :
    Ended (putOff addresses (pass.events config s) (pass.start s)) pass.currentBlock.timestamp
      (pass.due addresses encodeABI config s) t := by
  rw [handlePastEvents_split] at finished
  obtain ⟨until_due, middle, first, rest⟩ := Proc.finish_bind _ _ _ _ _ _ finished
  have begun := first
  rw [handleUntilDue] at begun
  obtain ⟨fetched, began, asked, handling⟩ := Proc.finish_bind _ _ _ _ _ _ begun
  have same := Proc.alone_finish _ _ _ _ _ _ _ (fetchEvents_same config pass.scanned (pass.start s)) asked
  rw [Pass.due, Pass.events, first, asked]
  cases fetched with
  | error error =>
      cases handling
      cases rest
      rw [same]
      exact ended_sublist _ _ _ (List.sublist_append_left _ _)
  | ok events =>
      rw [same] at handling
      have extracted := Proc.alone_finish _ _ _ _ _ _ _
        (handleFetched_extracts addresses encodeABI config pass.currentBlock events (pass.start s)) handling
      cases until_due with
      | error error =>
          cases rest
          exact ended_sublist _ _ _ extracted
      | ok ended =>
          obtain ⟨transactionHashes, due⟩ := ended
          obtain ⟨rfl, left⟩ := extracted
          have kept := Proc.alone_finish _ _ _ _ _ _ _ (settles_keeps _ (then_spares
            (handleOnceDue_delayed addresses encodeABI config pass.currentBlock pass.forceRegistration _)
            fun concluded => pure_spares (transactionHashes ++ concluded)) middle) rest
          exact ended_filter _ _ t (kept.trans left)

theorem next_waiting (s : Withdrawing) (pass : Pass) (waiting : s.Waiting addresses)
    (undisturbed : s.Undisturbed addresses config pass) :
    (s.next addresses encodeABI config pass).Waiting addresses := by
  rw [next]
  split
  next => exact waiting
  next result t finished =>
    have ended := pass_ended addresses encodeABI config pass s.registration t result finished
    have stands := putOff_stands addresses config s pass waiting undisturbed
    have once : ((s.triggered ++ pass.due addresses encodeABI config s.registration) ++
        t.manager.delayedEvents.map Prod.snd).Subperm (s.delivered ++ pass.events config s.registration) := by
      rw [List.append_assoc]
      exact (List.Subperm.refl s.triggered |>.append ended.apart).trans
        (putOff_once addresses config s pass waiting)
    refine ⟨⟨withdrawn_due addresses encodeABI config pass s.registration, ?_, ?_⟩, ?_, once⟩
    · intro event member
      have ⟨entry, put, due, same⟩ := ended.handled event member
      have ⟨stood, relayManager, unauthorized⟩ := stands entry put
      rw [← same]
      exact ⟨stood, relayManager, entry.1, unauthorized, due⟩
    · exact (List.sublist_append_left _ _).subperm.trans once
    · exact fun entry member => stands entry (ended.left entry member)

/-- Along a run in which no hub is authorized while an event about it is put off. -/
theorem withdrawals_warranted (registration : Registration) (passes : List Pass)
    (empty : registration.manager.delayedEvents = [])
    (undisturbed : Runs.Along (next addresses encodeABI config) (Undisturbed addresses config) passes
      (initial registration)) :
    Runs.Always (next addresses encodeABI config) (Warranted addresses) passes (initial registration) := by
  have start : (initial registration).Waiting addresses := by
    refine ⟨⟨List.prefix_rfl, fun _ member => (nomatch member), List.Subperm.refl _⟩, ?_, ?_⟩
    · intro entry member
      rw [initial, empty] at member
      cases member
    · rw [initial, empty]
      exact List.Subperm.refl _
  exact Runs.along_always _ _ (Waiting addresses) _
    (fun s pass waiting calm => next_waiting addresses encodeABI config s pass waiting calm)
    (fun _ waiting => waiting.warranted) passes _ start undisturbed

theorem undisturbed_silent (s : Withdrawing) (pass : Pass)
    (silent : ∀ relayManager, .hubAuthorized relayManager addresses.this ∉ pass.events config s.registration) :
    s.Undisturbed addresses config pass := by
  intro before after relayManager split
  refine absurd ?_ (silent relayManager)
  rw [split]
  exact List.mem_append_right _ List.mem_cons_self

def watching : Registration where
  contracts := RelayHub.stakedWorld
  relayUrl := some "https://relay.example"
  manager := { fresh with
    isInitialized := true
    isOwnerSetOnStakeManager := true
    isHubAuthorized := true
    ownerAddress := some 2 }
  sent := []

def unauthorizedUntil (removalTime : ℕ) : StakeManager.Event :=
  .hubUnauthorized 31 RelayHub.sampleAddresses.this removalTime

def authorizedAgain : StakeManager.Event := .hubAuthorized 31 RelayHub.sampleAddresses.this

def passAt (timestamp scanned : ℕ) (events : List StakeManager.Event) : Pass where
  contracts := RelayHub.stakedWorld.setStakeManager
    { RelayHub.stakedWorld.stakeManager with events := events }
  relayUrl := some "https://relay.example"
  currentBlock := ⟨0, 1, timestamp⟩
  scanned := scanned
  forceRegistration := false
  replies := default

def unauthorizedPasses : List Pass :=
  [passAt 50 0 [unauthorizedUntil 100], passAt 100 1 [unauthorizedUntil 100]]

def unauthorizedEnd : Withdrawing :=
  unauthorizedPasses.foldl (next RelayHub.sampleAddresses (fun _ => []) watchingConfig) (initial watching)

theorem withdrawals_warranted_once :
    (unauthorizedEnd.triggered = [unauthorizedUntil 100] ∧ unauthorizedEnd.withdrawn = [unauthorizedUntil 100]) ∧
    Runs.Always (next RelayHub.sampleAddresses (fun _ => []) watchingConfig)
      (Warranted RelayHub.sampleAddresses) unauthorizedPasses (initial watching) := by
  constructor
  · decide +kernel
  · apply withdrawals_warranted RelayHub.sampleAddresses (fun _ => []) watchingConfig watching _ rfl
    refine ⟨undisturbed_silent _ _ _ _ ?_, undisturbed_silent _ _ _ _ ?_, trivial⟩
    · intro relayManager authorized
      rw [show Pass.events watchingConfig _ _ = [unauthorizedUntil 100] by decide +kernel] at authorized
      cases List.mem_singleton.mp authorized
    · intro relayManager authorized
      rw [show Pass.events watchingConfig _ _ = [] by decide +kernel] at authorized
      cases authorized

/-- The hub is authorized again before the removal time, and the funds are withdrawn all the same. -/
theorem withdrawn_from_authorized :
    ¬∀ (registration : Registration) (passes : List Pass), registration.manager.delayedEvents = [] →
      Runs.Always (next RelayHub.sampleAddresses (fun _ => []) watchingConfig)
        (Warranted RelayHub.sampleAddresses) passes (initial registration) := by
  intro always
  have last := Runs.always_end _ _ _ _ (always watching [passAt 50 0 [unauthorizedUntil 100],
    passAt 100 1 [unauthorizedUntil 100, authorizedAgain]] rfl)
  have stood := (last.unauthorized (unauthorizedUntil 100) (by decide +kernel)).1
  rw [Stands, show (List.foldl _ _ _ : Withdrawing).delivered =
    [unauthorizedUntil 100, authorizedAgain] by decide +kernel] at stood
  obtain ⟨before, after, split, silent⟩ := stood
  rcases before with _ | ⟨first, _ | ⟨second, rest⟩⟩
  · cases split
    exact silent 31 List.mem_cons_self
  · cases split
  · have tooLong := congrArg List.length split
    simp only [List.length_append, List.length_cons, List.length_nil] at tooLong
    omega

end Withdrawing

end OpenGsn.Relay
