import OpenGsn.Registrar.Model
import Mathlib.Data.List.Induction

/-! The index of the registrar and its entries, as functions of the registrations made so far. -/

namespace OpenGsn.RelayRegistrar

open Solidity Reentry

theorem eraseDups_snoc {α : Type} [DecidableEq α] (items : List α) (last : α) :
    (items ++ [last]).eraseDups = if last ∈ items then items.eraseDups else items.eraseDups ++ [last] := by
  rw [List.eraseDups_append, List.cons_removeAll]
  by_cases member : last ∈ items
  · simp [member, List.removeAll]
  · simp [member, List.removeAll, List.eraseDups_cons]

theorem nodup_eraseDups {α : Type} [DecidableEq α] (items : List α) : items.eraseDups.Nodup := by
  induction items using List.reverseRecOn with
  | nil => exact List.nodup_nil
  | append_singleton front last ih =>
      rw [eraseDups_snoc]
      by_cases member : last ∈ front
      · rw [if_pos member]
        exact ih
      · rw [if_neg member]
        refine List.nodup_append.mpr ⟨ih, List.pairwise_singleton _ last, ?_⟩
        rintro other listed same one rfl
        rw [List.mem_singleton] at one
        exact member (one ▸ List.mem_eraseDups.mp listed)

def registrants (relayHub : Address) (log : List (Env × Entry)) : List Address :=
  log.filterMap fun record =>
    match record.2 with
    | .relayServerRegistered manager hub _ => if hub = relayHub then some manager else none
    | .returned _ _ => none

def registrations (relayHub relayManager : Address) (log : List (Env × Entry)) : List (Env × Url) :=
  log.filterMap fun record =>
    match record.2 with
    | .relayServerRegistered manager hub url =>
        if hub = relayHub ∧ manager = relayManager then some (record.1, url) else none
    | .returned _ _ => none

def infoAfter (relayManager : Address) : List (Env × Url) → RelayInfo
  | [] => default
  | first :: rest =>
      let last := rest.getLastD first
      ⟨last.1.number, last.1.timestamp, first.1.number, first.1.timestamp, last.2, relayManager⟩

def registration (env : Env) (relayManager relayHub : Address) (url : Url) : List (Env × Entry) :=
  [(env, .returned relayHub relayManager), (env, .relayServerRegistered relayManager relayHub url)]

theorem registrants_registration (relayHub : Address) (log : List (Env × Entry)) (env : Env)
    (relayManager hub : Address) (url : Url) :
    registrants relayHub (log ++ registration env relayManager hub url) =
      registrants relayHub log ++ if hub = relayHub then [relayManager] else [] := by
  unfold registrants registration
  rw [List.filterMap_append]
  by_cases same : hub = relayHub <;> simp [same]

theorem registrations_registration (relayHub relayManager : Address) (log : List (Env × Entry)) (env : Env)
    (manager hub : Address) (url : Url) :
    registrations relayHub relayManager (log ++ registration env manager hub url) =
      registrations relayHub relayManager log ++
        if hub = relayHub ∧ manager = relayManager then [(env, url)] else [] := by
  unfold registrations registration
  rw [List.filterMap_append]
  by_cases same : hub = relayHub ∧ manager = relayManager <;> simp [same]

theorem mem_registrants (relayHub relayManager : Address) (log : List (Env × Entry)) :
    relayManager ∈ registrants relayHub log ↔ registrations relayHub relayManager log ≠ [] := by
  induction log with
  | nil => simp [registrants, registrations]
  | cons record rest ih =>
      obtain ⟨env, entry⟩ := record
      cases entry with
      | returned hub manager => simpa [registrants, registrations] using ih
      | relayServerRegistered manager hub url =>
          by_cases sameHub : hub = relayHub
          · by_cases same : manager = relayManager
            · simp [registrants, registrations, sameHub, same]
            · simpa [registrants, registrations, sameHub, same, Ne.symm same] using ih
          · simpa [registrants, registrations, sameHub] using ih

theorem infoAfter_unseen (relayManager : Address) (made : List (Env × Url)) :
    (infoAfter relayManager made).lastSeenBlockNumber = 0 ↔ made = [] := by
  cases made with
  | nil => exact ⟨fun _ => rfl, fun _ => rfl⟩
  | cons first rest =>
      have positive := (rest.getLastD first).1.number_pos
      constructor
      · intro unseen
        exact absurd unseen positive.ne'
      · intro none
        cases none

theorem infoAfter_snoc (relayManager : Address) (made : List (Env × Url)) (env : Env) (url : Url)
    (number : env.number < 2 ^ 32) (timestamp : env.timestamp < 2 ^ 40) :
    { firstSeen env (infoAfter relayManager made) with
      lastSeenBlockNumber := env.number % 2 ^ 32
      lastSeenTimestamp := env.timestamp % 2 ^ 40
      relayManager
      urlParts := url } = infoAfter relayManager (made ++ [(env, url)]) := by
  have wholeNumber := Nat.mod_eq_of_lt number
  have wholeTimestamp := Nat.mod_eq_of_lt timestamp
  simp only [firstSeen, wholeNumber, wholeTimestamp]
  cases made with
  | nil => simp [infoAfter, default]
  | cons first rest =>
      have seen : first.1.number ≠ 0 := first.1.number_pos.ne'
      simp [infoAfter, seen]

theorem infoAfter_first (relayManager : Address) (made more : List (Env × Url)) (registered : made ≠ []) :
    (infoAfter relayManager (made ++ more)).firstSeenBlockNumber =
      (infoAfter relayManager made).firstSeenBlockNumber ∧
    (infoAfter relayManager (made ++ more)).firstSeenTimestamp =
      (infoAfter relayManager made).firstSeenTimestamp := by
  cases made with
  | nil => exact absurd rfl registered
  | cons first rest => exact ⟨rfl, rfl⟩

def Earlier (first second : Env) : Prop := first.number ≤ second.number ∧ first.timestamp ≤ second.timestamp

def Small (env : Env) : Prop := env.number < 2 ^ 32 ∧ env.timestamp < 2 ^ 40

theorem infoAfter_ordered (relayManager : Address) (made : List (Env × Url))
    (ordered : made.Pairwise fun first second => Earlier first.1 second.1) :
    (infoAfter relayManager made).firstSeenBlockNumber ≤ (infoAfter relayManager made).lastSeenBlockNumber ∧
    (infoAfter relayManager made).firstSeenTimestamp ≤ (infoAfter relayManager made).lastSeenTimestamp := by
  cases made with
  | nil => exact ⟨Nat.le_refl _, Nat.le_refl _⟩
  | cons first rest =>
      cases rest using List.reverseRecOn with
      | nil => exact ⟨Nat.le_refl _, Nat.le_refl _⟩
      | append_singleton front last _ =>
          have before := (List.pairwise_cons.mp ordered).1 last (List.mem_append_right _ (List.mem_singleton.mpr rfl))
          simpa [infoAfter, Earlier] using before

/-- The last registration is made in the transaction in which the hub agreed to it, right after that. -/
def Agreed (s : State) (relayHub relayManager : Address) : Prop :=
  ∃ front last url back, s.log = front ++ registration last relayManager relayHub url ++ back ∧
    registrations relayHub relayManager back = [] ∧
    (s.values relayHub relayManager).lastSeenBlockNumber = last.number ∧
    (s.values relayHub relayManager).lastSeenTimestamp = last.timestamp

/-- The storage is a function of the log, which goes on from an old one. -/
structure Indexed (old : List (Env × Entry)) (env : Env) (s : State) : Prop where
  small : Small env
  grown : old <+: s.log
  ordered : s.log.Pairwise fun first second => Earlier first.1 second.1
  past : ∀ record ∈ s.log, Earlier record.1 env
  index : ∀ relayHub, s.indexedValues relayHub = (registrants relayHub s.log).eraseDups
  entries : ∀ relayHub relayManager,
    s.values relayHub relayManager = infoAfter relayManager (registrations relayHub relayManager s.log)
  agreed : ∀ relayHub relayManager, registrations relayHub relayManager s.log ≠ [] →
    Agreed s relayHub relayManager

theorem addItem_values (relayHub relayManager : Address) (s : State) :
    (addItem relayHub relayManager s).values = s.values := by
  unfold addItem
  split <;> rfl

theorem addItem_log (relayHub relayManager : Address) (s : State) :
    (addItem relayHub relayManager s).log = s.log := by
  unfold addItem
  split <;> rfl

theorem addItem_index (relayHub relayManager hub : Address) (s : State) :
    (addItem relayHub relayManager s).indexedValues hub =
      s.indexedValues hub ++ if hub = relayHub ∧ (s.values relayHub relayManager).lastSeenBlockNumber = 0 then
        [relayManager] else [] := by
  unfold addItem
  by_cases unseen : (s.values relayHub relayManager).lastSeenBlockNumber = 0
  · by_cases same : hub = relayHub
    · subst same
      simp [unseen]
    · simp [unseen, same]
  · simp [unseen]

theorem store_values (env : Env) (relayManager relayHub : Address) (url : Url) (s : State) (hub manager : Address) :
    (storeRelayServerRegistration env relayManager relayHub url s).values hub manager =
      if hub = relayHub ∧ manager = relayManager then
        { firstSeen env (s.values relayHub relayManager) with
          lastSeenBlockNumber := env.number % 2 ^ 32
          lastSeenTimestamp := env.timestamp % 2 ^ 40
          relayManager
          urlParts := url }
      else s.values hub manager := by
  unfold storeRelayServerRegistration
  rw [State.setValue_values, addItem_values]
  by_cases sameHub : hub = relayHub
  · subst sameHub
    by_cases same : manager = relayManager
    · simp [same]
    · simp [same]
  · simp [sameHub]

def registered (env : Env) (relayManager relayHub : Address) (url : Url) (s : State) : State :=
  storeRelayServerRegistration env relayManager relayHub url
    ((s.record env (.returned relayHub relayManager)).record env (.relayServerRegistered relayManager relayHub url))

theorem registered_log (env : Env) (relayManager relayHub : Address) (url : Url) (s : State) :
    (registered env relayManager relayHub url s).log = s.log ++ registration env relayManager relayHub url := by
  unfold registered storeRelayServerRegistration
  rw [State.setValue_log, addItem_log]
  exact List.append_assoc s.log _ _

theorem registered_index (env : Env) (relayManager relayHub : Address) (url : Url) (s : State) (hub : Address) :
    (registered env relayManager relayHub url s).indexedValues hub =
      s.indexedValues hub ++ if hub = relayHub ∧ (s.values relayHub relayManager).lastSeenBlockNumber = 0 then
        [relayManager] else [] := by
  unfold registered storeRelayServerRegistration
  rw [State.setValue_indexedValues, addItem_index]
  rfl

theorem registered_values (env : Env) (relayManager relayHub : Address) (url : Url) (s : State)
    (hub manager : Address) :
    (registered env relayManager relayHub url s).values hub manager =
      if hub = relayHub ∧ manager = relayManager then
        { firstSeen env (s.values relayHub relayManager) with
          lastSeenBlockNumber := env.number % 2 ^ 32
          lastSeenTimestamp := env.timestamp % 2 ^ 40
          relayManager
          urlParts := url }
      else s.values hub manager :=
  store_values env relayManager relayHub url _ hub manager

theorem registered_indexed (old : List (Env × Entry)) (env : Env) (relayManager relayHub : Address) (url : Url)
    (s : State) (indexed : Indexed old env s) : Indexed old env (registered env relayManager relayHub url s) := by
  have entry := indexed.entries relayHub relayManager
  constructor
  · exact indexed.small
  · rw [registered_log]
    exact indexed.grown.trans (List.prefix_append _ _)
  · rw [registered_log]
    refine List.pairwise_append.mpr ⟨indexed.ordered, ?_, ?_⟩
    · simp [registration, Earlier]
    · intro first before second added
      have same : second.1 = env := by
        simp only [registration, List.mem_cons, List.not_mem_nil, or_false] at added
        rcases added with rfl | rfl <;> rfl
      rw [same]
      exact indexed.past first before
  · rw [registered_log]
    intro record member
    rcases List.mem_append.mp member with before | added
    · exact indexed.past record before
    · simp only [registration, List.mem_cons, List.not_mem_nil, or_false] at added
      rcases added with rfl | rfl <;> exact ⟨Nat.le_refl _, Nat.le_refl _⟩
  · intro hub
    rw [registered_index, registered_log, registrants_registration, indexed.index]
    by_cases same : hub = relayHub
    · subst same
      have listed := mem_registrants hub relayManager s.log
      have unseen : (s.values hub relayManager).lastSeenBlockNumber = 0 ↔
          registrations hub relayManager s.log = [] := by
        rw [entry]
        exact infoAfter_unseen relayManager _
      rw [if_pos rfl, eraseDups_snoc]
      by_cases fresh : registrations hub relayManager s.log = []
      · rw [if_pos ⟨rfl, unseen.mpr fresh⟩, if_neg fun member => listed.mp member fresh]
      · rw [if_neg fun both => fresh (unseen.mp both.2), if_pos (listed.mpr fresh), List.append_nil]
    · simp [same, Ne.symm same]
  · intro hub manager
    rw [registered_values, registered_log, registrations_registration]
    by_cases same : hub = relayHub ∧ manager = relayManager
    · obtain ⟨rfl, rfl⟩ := same
      rw [if_pos ⟨rfl, rfl⟩, if_pos ⟨rfl, rfl⟩, entry]
      exact infoAfter_snoc manager _ env url indexed.small.1 indexed.small.2
    · have other : ¬ (relayHub = hub ∧ relayManager = manager) := fun equal => same ⟨equal.1.symm, equal.2.symm⟩
      rw [if_neg same, if_neg other, List.append_nil]
      exact indexed.entries hub manager
  · intro hub manager made
    by_cases same : hub = relayHub ∧ manager = relayManager
    · obtain ⟨rfl, rfl⟩ := same
      refine ⟨s.log, env, url, [], ?_, rfl, ?_, ?_⟩
      · rw [registered_log, List.append_nil]
      · rw [registered_values, if_pos ⟨rfl, rfl⟩]
        exact Nat.mod_eq_of_lt indexed.small.1
      · rw [registered_values, if_pos ⟨rfl, rfl⟩]
        exact Nat.mod_eq_of_lt indexed.small.2
    · have other : ¬ (relayHub = hub ∧ relayManager = manager) := fun equal => same ⟨equal.1.symm, equal.2.symm⟩
      rw [registered_log, registrations_registration, if_neg other, List.append_nil] at made
      obtain ⟨front, last, lastUrl, back, split, none, number, timestamp⟩ := indexed.agreed hub manager made
      refine ⟨front, last, lastUrl, back ++ registration env relayManager relayHub url, ?_, ?_, ?_, ?_⟩
      · rw [registered_log, split, List.append_assoc]
      · rw [registrations_registration, none, if_neg other, List.append_nil]
      · rw [registered_values, if_neg same]
        exact number
      · rw [registered_values, if_neg same]
        exact timestamp

theorem ofState_meets (kept : State → State → Prop) (visit : State → Prop) (post : State → Prop)
    (result : Except Revert State) (ends : ∀ s, result = .ok s → post s) :
    (ofState result).Meets kept visit (fun final _ => post final) :=
  Code.meets_check _ _ fun s taken => ends s taken

theorem indexed_guarantee (old : List (Env × Entry)) (env : Env) :
    Guarantee (entry env) (fun first second => Indexed old env first → Indexed old env second) := by
  apply guarantee_invariant
  rintro ⟨sender, call⟩ s indexed
  have same : ∀ owner relayRegistrationMaxAge, Indexed old env { s with owner, relayRegistrationMaxAge } :=
    fun _ _ => ⟨indexed.small, indexed.grown, indexed.ordered, indexed.past, indexed.index, indexed.entries,
      indexed.agreed⟩
  cases call with
  | registerRelayServer relayHub url =>
      refine ⟨indexed, fun after _ moved => ?_, fun _ => trivial⟩
      exact registered_indexed old env sender relayHub url after (moved indexed)
  | setRelayRegistrationMaxAge relayRegistrationMaxAge =>
      apply ofState_meets
      intro next taken
      simp only [setRelayRegistrationMaxAge, bind_ok, Except.ok.injEq] at taken
      obtain ⟨_, _, rfl⟩ := taken
      exact same s.owner relayRegistrationMaxAge
  | transferOwnership newOwner =>
      apply ofState_meets
      intro next taken
      simp only [bind_ok, Except.ok.injEq] at taken
      obtain ⟨owner, _, rfl⟩ := taken
      exact same owner s.relayRegistrationMaxAge
  | renounceOwnership =>
      apply ofState_meets
      intro next taken
      simp only [bind_ok, Except.ok.injEq] at taken
      obtain ⟨owner, _, rfl⟩ := taken
      exact same owner s.relayRegistrationMaxAge

/-- The block numbers and timestamps do not go down, and fit the fields they are cast to. -/
def Follows (now env : Env) : Prop := Earlier now env ∧ Small env

theorem indexed_aged (old : List (Env × Entry)) (now later : Env) (s : State) (follows : Follows now later)
    (indexed : Indexed old now s) : Indexed old later s := by
  refine ⟨follows.2, indexed.grown, indexed.ordered, ?_, indexed.index, indexed.entries, indexed.agreed⟩
  intro record member
  have before := indexed.past record member
  exact ⟨before.1.trans follows.1.1, before.2.trans follows.1.2⟩

theorem run_indexed (old : List (Env × Entry)) (now : Env) (s : State) (indexed : Indexed old now s)
    (history : List (Env × Moves Input Bytes Revert)) (ordered : Ordered Follows now history) :
    ∀ visit ∈ historyVisits entry history s, Indexed old visit.1 visit.2 :=
  history_invariant entry Follows (Indexed old) (indexed_aged old) (indexed_guarantee old) history now s ordered
    indexed

abbrev Elsewhere (relayHub : Address) := { input : Input // input.call.relayHub ≠ some relayHub }

def entryElsewhere (relayHub : Address) (env : Env) (input : Elsewhere relayHub) (s : State) : RegistrarCode Unit :=
  entry env input.val s

structure SameHub (relayHub : Address) (first second : State) : Prop where
  values : second.values relayHub = first.values relayHub
  index : second.indexedValues relayHub = first.indexedValues relayHub

theorem elsewhere_guarantee (relayHub : Address) (env : Env) :
    Guarantee (entryElsewhere relayHub env) (SameHub relayHub) := by
  refine ⟨fun _ => ⟨rfl, rfl⟩, fun _ _ _ early late =>
    ⟨late.values.trans early.values, late.index.trans early.index⟩, ?_⟩
  rintro ⟨⟨sender, call⟩, elsewhere⟩ s
  cases call with
  | registerRelayServer other url =>
      have different : relayHub ≠ other := fun same => elsewhere (congrArg some same.symm)
      refine ⟨⟨rfl, rfl⟩, fun after _ moved => ?_, fun _ => trivial⟩
      constructor
      · rw [← moved.values]
        funext manager
        exact (registered_values env sender other url after relayHub manager).trans
          (if_neg fun both => different both.1)
      · rw [← moved.index]
        refine (registered_index env sender other url after relayHub).trans ?_
        rw [if_neg fun both => different both.1, List.append_nil]
  | setRelayRegistrationMaxAge relayRegistrationMaxAge =>
      apply ofState_meets
      intro next taken
      simp only [setRelayRegistrationMaxAge, bind_ok, Except.ok.injEq] at taken
      obtain ⟨_, _, rfl⟩ := taken
      exact ⟨rfl, rfl⟩
  | transferOwnership newOwner =>
      apply ofState_meets
      intro next taken
      simp only [bind_ok, Except.ok.injEq] at taken
      obtain ⟨_, _, rfl⟩ := taken
      exact ⟨rfl, rfl⟩
  | renounceOwnership =>
      apply ofState_meets
      intro next taken
      simp only [bind_ok, Except.ok.injEq] at taken
      obtain ⟨_, _, rfl⟩ := taken
      exact ⟨rfl, rfl⟩

structure Coherent (s : State) (relayHub : Address) : Prop where
  nodup : (s.indexedValues relayHub).Nodup
  members : ∀ relayManager, relayManager ∈ s.indexedValues relayHub ↔
    (s.values relayHub relayManager).lastSeenBlockNumber ≠ 0
  order : s.indexedValues relayHub = (registrants relayHub s.log).eraseDups
  managers : ∀ relayManager ∈ s.indexedValues relayHub,
    (s.values relayHub relayManager).relayManager = relayManager
  numbers : ∀ relayManager ∈ s.indexedValues relayHub,
    (s.values relayHub relayManager).firstSeenBlockNumber ≤ (s.values relayHub relayManager).lastSeenBlockNumber
  timestamps : ∀ relayManager ∈ s.indexedValues relayHub,
    (s.values relayHub relayManager).firstSeenTimestamp ≤ (s.values relayHub relayManager).lastSeenTimestamp
  agreed : ∀ relayManager ∈ s.indexedValues relayHub, Agreed s relayHub relayManager

theorem indexed_registered (old : List (Env × Entry)) (env : Env) (s : State) (indexed : Indexed old env s)
    (relayHub relayManager : Address) : relayManager ∈ s.indexedValues relayHub ↔
      registrations relayHub relayManager s.log ≠ [] := by
  rw [indexed.index, List.mem_eraseDups, mem_registrants]

theorem indexed_coherent (old : List (Env × Entry)) (env : Env) (s : State) (indexed : Indexed old env s)
    (relayHub : Address) : Coherent s relayHub := by
  have listed := indexed_registered old env s indexed relayHub
  have ordered : ∀ relayManager, (registrations relayHub relayManager s.log).Pairwise
      fun first second => Earlier first.1 second.1 := by
    intro relayManager
    refine indexed.ordered.filterMap _ ?_
    intro first second earlier one made other madeToo
    have firstEnv : one.1 = first.1 := by
      split at made
      · split at made <;> cases made
        rfl
      · cases made
    have secondEnv : other.1 = second.1 := by
      split at madeToo
      · split at madeToo <;> cases madeToo
        rfl
      · cases madeToo
    rw [firstEnv, secondEnv]
    exact earlier
  constructor
  · rw [indexed.index]
    exact nodup_eraseDups _
  · intro relayManager
    rw [listed, indexed.entries, ne_eq, ne_eq, infoAfter_unseen]
  · exact indexed.index relayHub
  · intro relayManager member
    rw [indexed.entries]
    cases made : registrations relayHub relayManager s.log with
    | nil => exact absurd made ((listed relayManager).mp member)
    | cons first rest => rfl
  · intro relayManager _
    rw [indexed.entries]
    exact (infoAfter_ordered relayManager _ (ordered relayManager)).1
  · intro relayManager _
    rw [indexed.entries]
    exact (infoAfter_ordered relayManager _ (ordered relayManager)).2
  · intro relayManager member
    exact indexed.agreed relayHub relayManager ((listed relayManager).mp member)

theorem firstSeen_stays (env later : Env) (s next : State) (indexed : Indexed [] env s)
    (grown : Indexed s.log later next) (relayHub relayManager : Address)
    (member : relayManager ∈ s.indexedValues relayHub) :
    (next.values relayHub relayManager).firstSeenBlockNumber =
      (s.values relayHub relayManager).firstSeenBlockNumber ∧
    (next.values relayHub relayManager).firstSeenTimestamp =
      (s.values relayHub relayManager).firstSeenTimestamp := by
  obtain ⟨more, split⟩ := grown.grown
  have continued : registrations relayHub relayManager next.log =
      registrations relayHub relayManager s.log ++ registrations relayHub relayManager more := by
    rw [← split]
    exact List.filterMap_append
  rw [grown.entries, indexed.entries, continued]
  exact infoAfter_first relayManager _ _ ((indexed_registered [] env s indexed relayHub relayManager).mp member)

/-- A registration ends when the hub has returned, and is put down behind what happened in the meantime. -/
theorem registerRelayServer_returned (env : Env) (sender relayHub : Address) (url : Url) (s final : State)
    (conducts : List (Conduct State Bytes Revert))
    (returned : (registerRelayServer env sender relayHub url s).run conducts = .ok (final, ())) :
    (registerRelayServer env sender relayHub url s).calls conducts = [.onRelayServerRegistered relayHub sender] ∧
      ∃ conduct ∈ conducts, (∃ ret, conduct.answer = .ok ret) ∧
        final.log = (conduct.effect s).log ++ registration env sender relayHub url := by
  cases conducts with
  | nil => cases returned
  | cons conduct rest =>
      unfold registerRelayServer at returned ⊢
      rw [Code.run] at returned
      rw [Code.calls]
      cases answered : conduct.answer with
      | error error =>
          rw [answered] at returned
          cases returned
      | ok ret =>
          rw [answered] at returned
          refine ⟨rfl, conduct, List.mem_cons_self, ⟨ret, answered⟩, ?_⟩
          rw [← (Prod.mk.inj (Except.ok.inj returned)).1]
          exact registered_log env sender relayHub url (conduct.effect s)

/-- In every state in which anyone has control, for every hub: its index lists, without duplicates and in the
order of their first registrations, the managers that were seen; each has its own entry, whose first sight is
not after its last one and stays as it is, and its last registration was agreed to by the hub, which is told of
a registration and returns before it is put down; and what happens under other hubs changes nothing. -/
theorem registrar_index (deployer : Address) (relayRegistrationMaxAge : ℕ) (begun : Env) (small : Small begun)
    (history : List (Env × Moves Input Bytes Revert)) (ordered : Ordered Follows begun history) (env : Env)
    (s : State)
    (reached : (env, s) ∈ historyVisits entry history (deploy deployer relayRegistrationMaxAge))
    (relayHub : Address) :
    Coherent s relayHub ∧
    (∀ relayManager ∈ s.indexedValues relayHub, ∀ future, Ordered Follows env future →
      ∀ visit ∈ historyVisits entry future s,
        (visit.2.values relayHub relayManager).firstSeenBlockNumber =
          (s.values relayHub relayManager).firstSeenBlockNumber ∧
        (visit.2.values relayHub relayManager).firstSeenTimestamp =
          (s.values relayHub relayManager).firstSeenTimestamp) ∧
    (∀ future, ∀ later ∈ historySeen (entryElsewhere relayHub) future s, SameHub relayHub s later) ∧
    ∀ now sender url conducts final,
      (registerRelayServer now sender relayHub url s).run conducts = .ok (final, ()) →
        (registerRelayServer now sender relayHub url s).calls conducts =
            [.onRelayServerRegistered relayHub sender] ∧
          ∃ conduct ∈ conducts, (∃ ret, conduct.answer = .ok ret) ∧
            final.log = (conduct.effect s).log ++ registration now sender relayHub url := by
  have start : Indexed [] begun (deploy deployer relayRegistrationMaxAge) := by
    refine ⟨small, List.prefix_rfl, List.Pairwise.nil, ?_, fun _ => rfl, fun _ _ => rfl, ?_⟩
    · intro record member
      exact absurd member List.not_mem_nil
    · intro _ _ made
      exact absurd rfl made
  have indexed := run_indexed [] begun _ start history ordered (env, s) reached
  have here : Indexed s.log env s :=
    ⟨indexed.small, List.prefix_rfl, indexed.ordered, indexed.past, indexed.index, indexed.entries, indexed.agreed⟩
  refine ⟨indexed_coherent [] env s indexed relayHub, ?_, ?_, ?_⟩
  · intro relayManager member future later visit seen
    exact firstSeen_stays env visit.1 s visit.2 indexed (run_indexed s.log env s here future later visit seen)
      relayHub relayManager member
  · intro future later seen
    exact history_seen_kept (entryElsewhere relayHub) (SameHub relayHub) (fun _ => ⟨rfl, rfl⟩)
      (elsewhere_guarantee relayHub) future s later seen
  · intro now sender url conducts final returned
    exact registerRelayServer_returned now sender relayHub url s final conducts returned

def laterEnv : Env :=
  { sampleEnv with number := 12, timestamp := 1020, number_pos := by decide, timestamp_lt := by decide }

/-- Manager 31 registers with hub 50, which registers itself with hub 51 in the meantime. -/
def firstMoves : Moves Input Bytes Revert :=
  .enter ⟨31, .registerRelayServer 50 (1, 2, 3)⟩
    (.reply (.enter ⟨50, .registerRelayServer 51 (4, 5, 6)⟩ (.reply .stop (.ok []) .none) .stop) (.ok []) .none) .stop

def secondMoves : Moves Input Bytes Revert :=
  .enter ⟨31, .registerRelayServer 50 (1, 2, 7)⟩ (.reply .stop (.ok []) .none) .stop

def sampleRegistrar : State :=
  historyFinal entry ([(sampleEnv, firstMoves)] ++ [(laterEnv, secondMoves)]) (deploy 1 100)

theorem registrar_index_sample :
    sampleRegistrar.indexedValues 50 = [31] ∧ sampleRegistrar.indexedValues 51 = [50] ∧
    (sampleRegistrar.values 50 31).firstSeenBlockNumber = 10 ∧
    (sampleRegistrar.values 50 31).lastSeenBlockNumber = 12 ∧ Coherent sampleRegistrar 50 := by
  have small : Small sampleEnv := ⟨by decide, by decide⟩
  have ordered : Ordered Follows sampleEnv ([(sampleEnv, firstMoves)] ++ [(laterEnv, secondMoves)]) :=
    ⟨⟨⟨by decide, by decide⟩, by decide, by decide⟩, ⟨⟨by decide, by decide⟩, by decide, by decide⟩, trivial⟩
  refine ⟨by decide +kernel, by decide +kernel, by decide +kernel, by decide +kernel, ?_⟩
  exact (registrar_index 1 100 sampleEnv small _ ordered laterEnv sampleRegistrar
    (historyFinal_visited entry _ laterEnv secondMoves (deploy 1 100)) 50).1

end OpenGsn.RelayRegistrar
