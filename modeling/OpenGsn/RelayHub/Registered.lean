import OpenGsn.RelayHub.Writes

/-! What only few of the hub's functions touch: the managers of the workers and the stake manager. -/

namespace OpenGsn.RelayHub

open Solidity Reentry

def Call.registers : Call → Prop
  | .onRelayServerRegistered _ | .addRelayWorkers _ | .penalize _ _ => True
  | _ => False

def Holds (holds : (Address → Address) → StakeManager.State → Prop) (w : World) : Prop :=
  holds w.hub.workerToManager w.stakeManager

variable (holds : (Address → Address) → StakeManager.State → Prop)

theorem withdrawMultiple_holds (addresses : Immutables) (account : Address) (dest : List Address)
    (amounts : List ℕ) (w : World) (held : Holds holds w) :
    (withdrawMultiple addresses account dest amounts w).Meets
      (fun first second => Holds holds first → Holds holds second) (Holds holds)
      (fun final _ => Holds holds final) := by
  induction amounts generalizing dest w with
  | nil =>
      cases dest with
      | nil => exact held
      | cons target dests => exact held
  | cons amount amounts ih =>
      unfold withdrawMultiple
      apply Code.meets_check
      intro _ _
      cases dest with
      | nil => exact trivial
      | cons target dests =>
          dsimp only
          split
          · exact trivial
          · refine ⟨held, ?_, fun _ => trivial⟩
            intro after _ moved
            exact ih dests _ (moved held)

theorem finished_holds (env : Env) (inner : InnerCall) (relayData : RelayData) (gas : GasReadings)
    (w final : World) (answer : Except Revert (RelayCallStatus × Bytes)) (result : RelayCallResult)
    (finished : Finished env inner relayData gas w answer final result) (held : Holds holds w) :
    Holds holds final := by
  cases finished with
  | rejected error events status ret failed decoded => exact held
  | charged before after hub charge status ret taken =>
      obtain ⟨_, _, _, rfl⟩ := settle_ok env inner.relayManager relayData gas { w.hub with events := before } hub
        charge taken
      exact held

/-- A function that registers nothing keeps every invariant of the registry, whatever the code it calls
does. -/
theorem hubCode_holds (crypto : Crypto) (addresses : Immutables) (env : Env) (sender : Address) (value : ℕ)
    (call : Call) (w : World) (apart : ¬ call.registers) (held : Holds holds w) :
    (hubCode crypto addresses env sender value call w).Meets
      (fun first second => Holds holds first → Holds holds second) (Holds holds)
      (fun final _ => Holds holds final) := by
  have reflexive : ∀ w, Holds holds w → Holds holds w := fun _ same => same
  have chained : ∀ first second third : World, (Holds holds first → Holds holds second) →
      (Holds holds second → Holds holds third) → Holds holds first → Holds holds third :=
    fun _ _ _ early late start => late (early start)
  have unwritten : ∀ result : Except Revert Hub,
      (∀ hub, result = .ok hub → hub.workerToManager = w.hub.workerToManager) →
      (ofHub w result).Meets (fun first second => Holds holds first → Holds holds second) (Holds holds)
        (fun final _ => Holds holds final) := by
    intro result same
    apply Code.meets_check
    intro hub taken
    change holds hub.workerToManager w.stakeManager
    rw [same hub taken]
    exact held
  cases call with
  | setConfiguration config =>
      apply unwritten
      intro hub taken
      simp only [setConfiguration, bind_ok, Except.ok.injEq] at taken
      obtain ⟨_, _, _, _, rfl⟩ := taken
      rfl
  | setMinimumStakes token minimumStake =>
      apply unwritten
      intro hub taken
      simp only [setMinimumStakes, bind_ok, Except.ok.injEq] at taken
      obtain ⟨_, _, _, _, rfl⟩ := taken
      exact (setMinimumStakesLoop_workers _ w.hub).1
  | deprecateHub deprecationTime =>
      apply unwritten
      intro hub taken
      simp only [deprecateHub, bind_ok, Except.ok.injEq] at taken
      obtain ⟨_, _, _, _, rfl⟩ := taken
      rfl
  | transferOwnership newOwner =>
      apply unwritten
      intro hub taken
      simp only [bind_ok, Except.ok.injEq] at taken
      obtain ⟨_, _, rfl⟩ := taken
      rfl
  | renounceOwnership =>
      apply unwritten
      intro hub taken
      simp only [bind_ok, Except.ok.injEq] at taken
      obtain ⟨_, _, rfl⟩ := taken
      rfl
  | onRelayServerRegistered relayManager => exact absurd trivial apart
  | addRelayWorkers newRelayWorkers => exact absurd trivial apart
  | depositFor target supportsInterface =>
      apply Code.meets_check
      intro hub taken
      simp only [depositFor, bind_ok, Except.ok.injEq] at taken
      obtain ⟨_, _, _, _, rfl⟩ := taken
      exact held
  | withdraw dest amount => exact withdrawMultiple_holds holds addresses sender [dest] [amount] w held
  | withdrawMultiple dest amount => exact withdrawMultiple_holds holds addresses sender dest amount w held
  | relayCall args limits gas =>
      apply Code.meets_silent
      refine Code.meets_weaken _ (relayCall_meets (fun first second => Holds holds first → Holds holds second)
        reflexive chained crypto addresses env sender args limits gas w) (fun _ visited => visited held) ?_
      rintro final result ⟨inner, middle, answer, _, reached, _, _, finished⟩
      exact finished_holds holds env inner _ gas middle final answer result finished (reached held)
  | innerRelayCall args limits totalInitialGas maxPossibleGas gas =>
      apply Code.meets_silent
      exact Code.meets_weaken _ (innerRelayCall_meets (fun first second => Holds holds first → Holds holds second)
        reflexive chained crypto addresses env sender args limits totalInitialGas maxPossibleGas gas w)
        (fun _ visited => visited held) fun _ _ ended => ended.1 held
  | penalize relayWorker beneficiary => exact absurd trivial apart
  | escheatAbandonedRelayBalance relayManager =>
      apply Code.meets_check
      intro next taken
      simp only [escheatAbandonedRelayBalance, bind_ok, Except.ok.injEq] at taken
      obtain ⟨_, _, _, _, _, _, _, _, rfl⟩ := taken
      exact held

end OpenGsn.RelayHub
