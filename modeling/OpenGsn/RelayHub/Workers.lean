import OpenGsn.RelayHub.Writes
import OpenGsn.RelayHub.Solvency
import Mathlib.Data.Set.Card

/-! The registry of relay workers: the counter of a manager and the map from workers to managers. -/

namespace OpenGsn.RelayHub

open Solidity Reentry

def workersOf (h : Hub) (relayManager : Address) : Set Address :=
  {worker | h.workerToManager worker = relayManager}

/-- A worker without a manager has the zero address in its place. -/
def Counted (h : Hub) : Prop :=
  ∀ relayManager, relayManager ≠ 0 → h.workerCount relayManager = (workersOf h relayManager).ncard

def Unaddable (sender : Address) (newRelayWorkers : List Address) (h : Hub) : Prop :=
  ¬ newRelayWorkers.Nodup ∨ (∃ worker ∈ newRelayWorkers, h.workerToManager worker ≠ 0) ∨
    h.config.maxWorkerCount.val < h.workerCount sender + newRelayWorkers.length

def assigned (workerToManager : Address → Address) (relayManager : Address) (workers : List Address) :
    Address → Address :=
  fun worker => if workers.contains worker then relayManager else workerToManager worker

theorem assigned_apply (workerToManager : Address → Address) (relayManager : Address) (workers : List Address)
    (worker : Address) : assigned workerToManager relayManager workers worker =
      if worker ∈ workers then relayManager else workerToManager worker := by
  simp only [assigned, List.contains_iff_mem]

theorem assigned_nil (workerToManager : Address → Address) (relayManager : Address) :
    assigned workerToManager relayManager [] = workerToManager := by
  funext worker
  rfl

theorem assigned_cons (workerToManager : Address → Address) (relayManager worker : Address)
    (rest : List Address) :
    assigned (Function.update workerToManager worker relayManager) relayManager rest =
      assigned workerToManager relayManager (worker :: rest) := by
  funext other
  by_cases same : other = worker
  · subst same
    simp [assigned]
  · simp [assigned, same]

theorem addRelayWorkersLoop_ok (relayManager : Address) (workers : List Address) (h next : Hub)
    (taken : addRelayWorkersLoop relayManager workers h = .ok next) :
    (∀ worker ∈ workers, h.workerToManager worker = 0) ∧ (relayManager ≠ 0 → workers.Nodup) ∧
      next = { h with workerToManager := assigned h.workerToManager relayManager workers } := by
  induction workers generalizing h with
  | nil =>
      obtain rfl := Except.ok.inj taken
      exact ⟨by simp, fun _ => List.nodup_nil, by rw [assigned_nil]⟩
  | cons worker rest ih =>
      simp only [addRelayWorkersLoop, bind_ok, require_ok] at taken
      obtain ⟨_, free, added⟩ := taken
      obtain ⟨freeRest, nodup, rfl⟩ := ih _ added
      have freeRest : ∀ other ∈ rest,
          Function.update h.workerToManager worker relayManager other = 0 := freeRest
      -- an entry that is zero after the update was zero before it
      have freeBefore : ∀ other ∈ rest, h.workerToManager other = 0 := by
        intro other member
        by_cases same : other = worker
        · rw [same]
          exact free
        · rw [← freeRest other member, Function.update_of_ne same]
      refine ⟨?_, ?_, ?_⟩
      · intro other member
        rcases List.mem_cons.mp member with rfl | later
        · exact free
        · exact freeBefore other later
      · intro someone
        refine List.nodup_cons.mpr ⟨fun member => someone ?_, nodup someone⟩
        rw [← freeRest worker member, Function.update_self]
      · rw [assigned_cons]

theorem addRelayWorkers_ok (addresses : Immutables) (sender : Address) (newRelayWorkers : List Address)
    (w next : World) (taken : addRelayWorkers addresses sender newRelayWorkers w = .ok next) :
    w.hub.workerCount sender + newRelayWorkers.length ≤ w.hub.config.maxWorkerCount.val ∧
    (∀ worker ∈ newRelayWorkers, w.hub.workerToManager worker = 0) ∧
    (sender ≠ 0 → newRelayWorkers.Nodup) ∧
    next.hub.workerToManager = assigned w.hub.workerToManager sender newRelayWorkers ∧
    next.hub.workerCount = Function.update w.hub.workerCount sender
      (w.hub.workerCount sender + newRelayWorkers.length) := by
  simp only [addRelayWorkers, bind_ok, checkedAdd_ok, require_ok, Except.ok.injEq] at taken
  obtain ⟨_, ⟨_, rfl⟩, _, bounded, _, _, hub, added, rfl⟩ := taken
  obtain ⟨free, nodup, rfl⟩ := addRelayWorkersLoop_ok sender newRelayWorkers _ hub added
  exact ⟨bounded, free, nodup, rfl, rfl⟩

theorem workersOf_assigned (h next : Hub) (sender relayManager : Address) (workers : List Address)
    (someone : relayManager ≠ 0) (free : ∀ worker ∈ workers, h.workerToManager worker = 0)
    (written : next.workerToManager = assigned h.workerToManager sender workers) :
    workersOf next relayManager =
      if relayManager = sender then {worker | worker ∈ workers} ∪ workersOf h relayManager
      else workersOf h relayManager := by
  ext worker
  have unfolded : worker ∈ workersOf next relayManager ↔
      (if worker ∈ workers then sender else h.workerToManager worker) = relayManager := by
    change next.workerToManager worker = relayManager ↔ _
    rw [written, assigned_apply]
  rw [unfolded]
  by_cases listed : worker ∈ workers
  · have absent : worker ∉ workersOf h relayManager := by
      intro old
      exact someone (old.symm.trans (free worker listed))
    by_cases own : relayManager = sender
    · simp [listed, own]
    · simp [listed, own, absent, Ne.symm own]
  · by_cases own : relayManager = sender
    · simp [listed, own, workersOf]
    · simp [listed, own, workersOf]

theorem addRelayWorkers_counted (addresses : Immutables) (sender : Address) (newRelayWorkers : List Address)
    (w next : World) (taken : addRelayWorkers addresses sender newRelayWorkers w = .ok next)
    (counted : Counted w.hub) : Counted next.hub := by
  obtain ⟨_, free, nodup, written, counts⟩ := addRelayWorkers_ok addresses sender newRelayWorkers w next taken
  intro relayManager someone
  rw [counts, workersOf_assigned w.hub next.hub sender relayManager newRelayWorkers someone free written]
  by_cases own : relayManager = sender
  · subst own
    have separate : Disjoint {worker | worker ∈ newRelayWorkers} (workersOf w.hub relayManager) := by
      rw [Set.disjoint_left]
      intro worker listed old
      exact someone (old.symm.trans (free worker listed))
    have added : {worker | worker ∈ newRelayWorkers}.ncard = newRelayWorkers.length := by
      rw [← List.coe_toFinset, Set.ncard_coe_finset, List.toFinset_card_of_nodup (nodup someone)]
    calc
      _ = w.hub.workerCount relayManager + newRelayWorkers.length := Function.update_self ..
      _ = newRelayWorkers.length + (workersOf w.hub relayManager).ncard := by
        rw [counted relayManager someone, Nat.add_comm]
      _ = ({worker | worker ∈ newRelayWorkers} ∪ workersOf w.hub relayManager).ncard := by
        rw [Set.ncard_union_eq separate (Set.toFinite _) (Set.toFinite _), added]
      _ = _ := by rw [if_pos rfl]
  · rw [if_neg own, Function.update_of_ne own]
    exact counted relayManager someone

structure RegistryKept (first second : World) : Prop where
  counted : Counted first.hub → Counted second.hub
  managers : ∀ worker, first.hub.workerToManager worker ≠ 0 →
    second.hub.workerToManager worker = first.hub.workerToManager worker

theorem registryKept_refl (w : World) : RegistryKept w w := ⟨fun counted => counted, fun _ _ => rfl⟩

theorem registryKept_trans (first second third : World) (early : RegistryKept first second)
    (late : RegistryKept second third) : RegistryKept first third := by
  refine ⟨fun counted => late.counted (early.counted counted), fun worker managed => ?_⟩
  have same := early.managers worker managed
  calc
    third.hub.workerToManager worker = second.hub.workerToManager worker :=
      late.managers worker (same ▸ managed)
    _ = first.hub.workerToManager worker := same

theorem registryKept_same (first second : World)
    (workers : second.hub.workerToManager = first.hub.workerToManager)
    (counts : second.hub.workerCount = first.hub.workerCount) : RegistryKept first second := by
  refine ⟨fun counted relayManager someone => ?_, fun worker _ => congrFun workers worker⟩
  rw [workersOf, counts, workers]
  exact counted relayManager someone

theorem writes_registryKept (addresses : Immutables) (env : Env) (first second : World)
    (writes : Writes addresses env first second) : RegistryKept first second := by
  cases writes with
  | hub hub workers counts => exact registryKept_same first _ workers counts
  | workers sender newRelayWorkers next added =>
      obtain ⟨_, free, _, written, _⟩ := addRelayWorkers_ok addresses sender newRelayWorkers first second added
      refine ⟨addRelayWorkers_counted addresses sender newRelayWorkers first second added, ?_⟩
      intro worker managed
      rw [written, assigned_apply, if_neg fun listed => managed (free worker listed)]
  | stakes | tokens | ether | forwarder => exact registryKept_same first _ rfl rfl

theorem registry_guarantee (crypto : Crypto) (addresses : Immutables) (env : Env) :
    Guarantee (entry crypto addresses env) RegistryKept :=
  writes_guarantee addresses env RegistryKept crypto registryKept_refl registryKept_trans
    (writes_registryKept addresses env)

/-- How a call of `addRelayWorkers` from outside ends. -/
theorem addRelayWorkers_run (crypto : Crypto) (addresses : Immutables) (env : Env) (sender : Address) (value : ℕ)
    (newRelayWorkers : List Address) (w final : World) (conducts : List (Conduct World Bytes Revert))
    (returned : (entry crypto addresses env (.hub sender value (.addRelayWorkers newRelayWorkers)) w).run conducts =
      .ok (final, ())) : addRelayWorkers addresses sender newRelayWorkers w = .ok final := by
  have meets : (entry crypto addresses env (.hub sender value (.addRelayWorkers newRelayWorkers)) w).Meets
      (fun _ _ => True) (fun _ => True)
      (fun next _ => addRelayWorkers addresses sender newRelayWorkers w = .ok next) :=
    Code.meets_check _ _ fun _ _ => Code.meets_check _ _ fun _ _ => Code.meets_check _ _ fun _ taken => taken
  exact Code.run_meets _ conducts meets (fun _ _ _ => trivial) final () returned

/-- In every state in which anyone has control, in the middle of a call too: the count of a manager is the
number of its workers, whatever happens later a worker keeps its manager, a list with a duplicate, with a
worker that has a manager or beyond the limit changes nothing, and a list that is added counts for its
sender. No call comes from the zero address. -/
theorem worker_registry (crypto : Crypto) (addresses : Immutables) (deployer : Address)
    (config : RelayHubConfig) (hub : Hub) (deployed : deploy deployer config = .ok hub) (ether : ℕ)
    (stakeManager : StakeManager.State) (forwarders : Address → Forwarder.State)
    (history : List (Env × Moves Input Bytes Revert)) (w : World)
    (reached : w ∈ historySeen (entry crypto addresses) history
      ⟨hub, ether, 0, 0, stakeManager, forwarders⟩) :
    (∀ relayManager, relayManager ≠ 0 →
      w.hub.workerCount relayManager = {worker | w.hub.workerToManager worker = relayManager}.ncard) ∧
    (∀ future, ∀ later ∈ historySeen (entry crypto addresses) future w, ∀ worker,
      w.hub.workerToManager worker ≠ 0 → later.hub.workerToManager worker = w.hub.workerToManager worker) ∧
    ∀ env sender value newRelayWorkers conducts,
      let code := entry crypto addresses env (.hub sender value (.addRelayWorkers newRelayWorkers)) w
      (sender ≠ 0 → Unaddable sender newRelayWorkers w.hub → code.commit w conducts = w) ∧
      ∀ final, code.run conducts = .ok (final, ()) →
        final.hub.workerCount = Function.update w.hub.workerCount sender
          (w.hub.workerCount sender + newRelayWorkers.length) := by
  have start : Counted hub := by
    simp only [deploy, setConfiguration, bind_ok, Except.ok.injEq] at deployed
    obtain ⟨_, _, _, _, rfl⟩ := deployed
    intro relayManager someone
    have none : {_worker : Address | (0 : Address) = relayManager} = ∅ :=
      Set.eq_empty_of_forall_notMem fun _ own => someone own.symm
    exact ((congrArg Set.ncard none).trans (Set.ncard_empty Address)).symm
  have kept := history_seen_kept (entry crypto addresses) RegistryKept registryKept_refl
    (registry_guarantee crypto addresses)
  refine ⟨(kept history _ w reached).counted start, fun future later seen => (kept future w later seen).managers, ?_⟩
  intro env sender value newRelayWorkers conducts code
  constructor
  · intro someone unaddable
    cases returned : code.run conducts with
    | error error => rw [Code.commit, returned]
    | ok outcome =>
        have added := addRelayWorkers_run crypto addresses env sender value newRelayWorkers w outcome.1 conducts
          returned
        obtain ⟨bounded, free, nodup, _, _⟩ := addRelayWorkers_ok addresses sender newRelayWorkers w _ added
        rcases unaddable with repeated | ⟨worker, listed, managed⟩ | many
        · exact absurd (nodup someone) repeated
        · exact absurd (free worker listed) managed
        · omega
  · intro final returned
    have added := addRelayWorkers_run crypto addresses env sender value newRelayWorkers w final conducts returned
    exact (addRelayWorkers_ok addresses sender newRelayWorkers w final added).2.2.2.2

def workersHistory : List (Env × Moves Input Bytes Revert) :=
  [(sampleEnv, .enter (.hub 1 0 (.setMinimumStakes [4] [10])) .none
    (.enter (.hub 31 0 (.addRelayWorkers [41, 42])) .none .stop))]

def workersWorld : World :=
  historyFinal (entry sampleCrypto sampleAddresses) workersHistory
    ⟨sampleDeployed, 0, 0, 0, sampleStakeManager, fun _ => Forwarder.deploy sampleCrypto⟩

theorem worker_registry_sample :
    {worker | workersWorld.hub.workerToManager worker = 31}.ncard = 2 ∧
    (entry sampleCrypto sampleAddresses sampleEnv (.hub 31 0 (.addRelayWorkers [43, 43])) workersWorld).commit
      workersWorld [] = workersWorld := by
  have registry := worker_registry sampleCrypto sampleAddresses 1 sampleConfig sampleDeployed rfl 0
    sampleStakeManager _ workersHistory workersWorld (historyFinal_seen _ _ _)
  have counted : workersWorld.hub.workerCount 31 = 2 := by decide +kernel
  constructor
  · rw [← registry.1 31 (by decide), counted]
  · exact (registry.2.2 sampleEnv 31 0 [43, 43] []).1 (by decide) (.inl (by decide))

end OpenGsn.RelayHub
