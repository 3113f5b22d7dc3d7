import OpenGsn.RelayHub.Writes
import OpenGsn.RelayHub.LockWindow
import OpenGsn.StakeManager.Abandonment

/-! A relay manager that is kept alive does not lose its stake or its balance. -/

namespace OpenGsn.RelayHub

open Solidity Reentry
open Runs hiding Along
open StakeManager (Step step succeeds times MarkedSince)

def Escheats (addresses : Immutables) (env : Env) (relayManager : Address) (s : StakeManager.State) : Prop :=
  (∃ sender next, StakeManager.escheatAbandonedRelayStake addresses.stakeManager env sender relayManager s =
    .ok next) ∨
  ∃ w sender next, w.stakeManager = s ∧ escheatAbandonedRelayBalance env sender relayManager w = .ok next

theorem escheats_escheatable (addresses : Immutables) (env : Env) (relayManager : Address)
    (s : StakeManager.State) (escheats : Escheats addresses env relayManager s) :
    StakeManager.isRelayEscheatable env relayManager s = .ok true := by
  rcases escheats with ⟨sender, next, taken⟩ | ⟨w, sender, next, rfl, taken⟩
  · exact ((StakeManager.escheatAbandonedRelayStake_ok _ _ _ _ _ _).mp taken).2.1
  · simp only [escheatAbandonedRelayBalance, bind_ok, require_ok] at taken
    obtain ⟨_, _, escheatable, asked, _, due, _⟩ := taken
    rw [asked, due]

theorem unmarked_not_escheatable (env : Env) (relayManager : Address) (s : StakeManager.State)
    (unmarked : (s.stakes relayManager).abandonedTime = 0) :
    StakeManager.isRelayEscheatable env relayManager s = .ok false := by
  rw [StakeManager.isRelayEscheatable, unmarked, if_pos rfl]

/-- In every reachable state a manager is marked abandoned after it was silent for the delay, and not in the
future. So when its stake or its balance is taken, it was not kept alive since it was marked, nor within both
delays; and a manager that is kept alive loses neither until it is marked again. -/
theorem responsive_relay_not_escheated (addresses : Immutables) (deployer : Address)
    (maxUnstakeDelay abandonmentDelay escheatmentDelay : ℕ) (burnAddress devAddress : Address)
    (tokens : Tokens) (start : StakeManager.State)
    (deployed : StakeManager.deploy deployer maxUnstakeDelay abandonmentDelay escheatmentDelay
      burnAddress devAddress tokens = .ok start)
    (steps : List Step) (begun : ℕ) (timed : Timed Step.time begun steps) (relayManager : Address) :
    let state := fun steps => after (step addresses.stakeManager) steps start
    let now := latest Step.time begun steps
    let info := (state steps).stakes relayManager
    (info.abandonedTime ≠ 0 →
      info.keepaliveTime + abandonmentDelay < info.abandonedTime ∧ info.abandonedTime ≤ now) ∧
    (∀ env : Env, Escheats addresses env relayManager (state steps) →
      MarkedSince addresses.stakeManager relayManager start steps ∧
      ∀ time ∈ times addresses.stakeManager (.updateRelayKeepaliveTime relayManager) steps start,
        time + abandonmentDelay + escheatmentDelay < env.timestamp) ∧
    ∀ front update back, steps = front ++ update :: back →
      succeeds addresses.stakeManager (.updateRelayKeepaliveTime relayManager) update (state front) = true →
      times addresses.stakeManager (.markRelayAbandoned relayManager) back (state (front ++ [update])) = [] →
      ∀ env, StakeManager.isRelayEscheatable env relayManager (state steps) = .ok false ∧
        ¬ Escheats addresses env relayManager (state steps) := by
  intro state now info
  obtain ⟨fresh, abandonment, escheatment⟩ : start.stakes relayManager = default ∧
      start.abandonedRelayServerConfig.abandonmentDelay = abandonmentDelay ∧
      start.abandonedRelayServerConfig.escheatmentDelay = escheatmentDelay := by
    simp only [StakeManager.deploy, bind_ok, Except.ok.injEq] at deployed
    obtain ⟨_, _, rfl⟩ := deployed
    exact ⟨rfl, rfl, rfl⟩
  have trail := StakeManager.run_trail addresses.stakeManager relayManager start begun fresh steps timed
  have silent : info.abandonedTime ≠ 0 → info.keepaliveTime + abandonmentDelay < info.abandonedTime :=
    abandonment ▸ trail.silent
  refine ⟨fun marked => ⟨silent marked, trail.past⟩, ?_, ?_⟩
  · intro env escheats
    obtain ⟨marked, _, due⟩ := (StakeManager.isRelayEscheatable_ok env relayManager (state steps)).mp
      (escheats_escheatable addresses env relayManager (state steps) escheats)
    rw [(StakeManager.run_delays addresses.stakeManager steps start).2, escheatment] at due
    refine ⟨trail.marked marked, fun time member => ?_⟩
    calc
      time + abandonmentDelay + escheatmentDelay ≤ info.keepaliveTime + abandonmentDelay + escheatmentDelay :=
        Nat.add_le_add_right (Nat.add_le_add_right (trail.latest time member) _) _
      _ ≤ info.abandonedTime + escheatmentDelay := Nat.add_le_add_right (silent marked).le _
      _ < env.timestamp := due
  · intro front update back split taken none env
    have alive := StakeManager.succeeds_keepalive addresses.stakeManager relayManager (state front) update taken
    have unmarked := StakeManager.unmarked_run addresses.stakeManager relayManager (state (front ++ [update])) back
      ((congrArg (fun s => (StakeManager.State.stakes s relayManager).abandonedTime)
        (StakeManager.after_snoc addresses.stakeManager front update start)).trans alive) none
    have joined : state steps = after (step addresses.stakeManager) back (state (front ++ [update])) := by
      change after _ steps start = _
      rw [split, ← after_append, List.append_assoc]
      rfl
    have notDue := unmarked_not_escheatable env relayManager (state steps) (joined ▸ unmarked)
    refine ⟨notDue, fun escheats => ?_⟩
    have due := escheats_escheatable addresses env relayManager (state steps) escheats
    rw [notDue] at due
    cases due

/-- In a world with the hub, the stake manager is in the state that a run of its own leads to. -/
theorem stakeManager_runs (crypto : Crypto) (addresses : Immutables)
    (separate : addresses.this ≠ addresses.stakeManager) (start : World)
    (history : List (Env × Moves Input Bytes Revert)) (begun : Env)
    (ordered : Ordered (fun now env => now.timestamp ≤ env.timestamp) begun history) :
    ∀ visit ∈ historyVisits (entry crypto addresses) history start, ∃ steps,
      Timed Step.time begun.timestamp steps ∧ latest Step.time begun.timestamp steps ≤ visit.1.timestamp ∧
        visit.2.stakeManager = after (step addresses.stakeManager) steps start.stakeManager := by
  let holds (env : Env) (w : World) : Prop := ∃ steps, Timed Step.time begun.timestamp steps ∧
    latest Step.time begun.timestamp steps ≤ env.timestamp ∧
      w.stakeManager = after (step addresses.stakeManager) steps start.stakeManager
  have extended : ∀ (env : Env) (w : World) (input : Step) (stakeManager : StakeManager.State),
      input.time = env.timestamp → step addresses.stakeManager input w.stakeManager = .ok stakeManager →
        holds env w → holds env (w.setStakeManager stakeManager) := by
    intro env w input stakeManager at_time taken held
    obtain ⟨steps, timed, past, same⟩ := held
    refine ⟨steps ++ [input], ?_, ?_, ?_⟩
    · exact (timed_append Step.time _ steps [input]).mpr ⟨timed, past.trans at_time.ge, trivial⟩
    · rw [latest_append]
      exact at_time.le
    · rw [StakeManager.after_snoc, ← same, advance, taken]
      rfl
  have guarantee : ∀ env, Guarantee (entry crypto addresses env)
      (fun first second => holds env first → holds env second) := by
    intro env
    apply writes_guarantee addresses env _ crypto (fun _ same => same)
      (fun _ _ _ early late held => late (early held))
    intro first second writes held
    cases writes with
    | stakes sender call stakeManager outside executed =>
        refine extended env first (.call env sender call) stakeManager rfl ?_ held
        have other : sender ≠ addresses.stakeManager := by
          rcases outside with rfl | other
          · exact separate
          · exact other
        rw [step, require, if_pos other]
        exact executed
    | tokens token ledger stakeManager taken =>
        exact extended env first (.tokenActivity env token ledger) stakeManager rfl taken held
    | workers sender newRelayWorkers next added =>
        simp only [addRelayWorkers, bind_ok, Except.ok.injEq] at added
        obtain ⟨_, _, _, _, _, _, _, _, rfl⟩ := added
        exact held
    | hub | ether | forwarder => exact held
  apply history_invariant (entry crypto addresses) _ holds _ guarantee history begun start ordered
  · exact ⟨[], trivial, Nat.le_refl _, rfl⟩
  · rintro now later w aged ⟨steps, timed, past, same⟩
    exact ⟨steps, timed, past.trans aged, same⟩

/-- Whatever is done with the hub, a manager it knows was silent for the abandonment delay when it
was marked, and is escheated no sooner than the escheatment delay after that. -/
theorem visits_escheat_after_delays (crypto : Crypto) (addresses : Immutables)
    (separate : addresses.this ≠ addresses.stakeManager) (start : World)
    (history : List (Env × Moves Input Bytes Revert)) (begun : Env)
    (ordered : Ordered (fun now env => now.timestamp ≤ env.timestamp) begun history)
    (relayManager : Address) (fresh : start.stakeManager.stakes relayManager = default) :
    let delays := start.stakeManager.abandonedRelayServerConfig
    ∀ visit ∈ historyVisits (entry crypto addresses) history start,
      let info := visit.2.stakeManager.stakes relayManager
      (info.abandonedTime ≠ 0 → info.keepaliveTime + delays.abandonmentDelay < info.abandonedTime) ∧
      ∀ env : Env, Escheats addresses env relayManager visit.2.stakeManager →
        info.keepaliveTime + delays.abandonmentDelay + delays.escheatmentDelay < env.timestamp := by
  intro delays visit visited info
  obtain ⟨steps, timed, _, same⟩ :=
    stakeManager_runs crypto addresses separate start history begun ordered visit visited
  have trail := StakeManager.run_trail addresses.stakeManager relayManager start.stakeManager
    begun.timestamp fresh steps timed
  rw [← same] at trail
  refine ⟨trail.silent, fun env escheats => ?_⟩
  obtain ⟨marked, _, due⟩ := (StakeManager.isRelayEscheatable_ok env relayManager _).mp
    (escheats_escheatable addresses env relayManager _ escheats)
  have kept := (StakeManager.run_delays addresses.stakeManager steps start.stakeManager).2
  rw [← same] at kept
  rw [kept] at due
  calc
    info.keepaliveTime + delays.abandonmentDelay + delays.escheatmentDelay ≤
        info.abandonedTime + delays.escheatmentDelay := Nat.add_le_add_right (trail.silent marked).le _
    _ < env.timestamp := due

def abandonmentSteps : List Step :=
  stakingSteps ++ [.call (envAt 950 (by decide)) 2 (.updateRelayKeepaliveTime 31),
    .call (envAt 1500 (by decide)) 1 (.markRelayAbandoned 31)]

theorem responsive_relay_not_escheated_sample :
    Escheats sampleAddresses (envAt 2001 (by decide)) 31
      (after (step 101) abandonmentSteps StakeManager.sampleStart) ∧
    times 101 (.updateRelayKeepaliveTime 31) abandonmentSteps StakeManager.sampleStart = [950] ∧
    MarkedSince 101 31 StakeManager.sampleStart abandonmentSteps := by
  have due : (StakeManager.escheatAbandonedRelayStake 101 (envAt 2001 (by decide)) 1 31
      (after (step 101) abandonmentSteps StakeManager.sampleStart)).toBool = true := by decide +kernel
  have escheats : Escheats sampleAddresses (envAt 2001 (by decide)) 31
      (after (step 101) abandonmentSteps StakeManager.sampleStart) := by
    cases taken : StakeManager.escheatAbandonedRelayStake 101 (envAt 2001 (by decide)) 1 31
        (after (step 101) abandonmentSteps StakeManager.sampleStart) with
    | ok next => exact .inl ⟨1, next, taken⟩
    | error error =>
        rw [taken] at due
        cases due
  refine ⟨escheats, by decide +kernel, ?_⟩
  exact ((responsive_relay_not_escheated sampleAddresses 1 100 500 500 9 11 StakeManager.sampleTokens
    StakeManager.sampleStart rfl abandonmentSteps 0 (by decide) 31).2.1 (envAt 2001 (by decide))
    escheats).1

end OpenGsn.RelayHub
