import OpenGsn.RelayHub.Steps
import OpenGsn.Reentry.Moves

/-! What the functions of the world write between two outgoing calls, said once for the
invariants that do not speak of balances. -/

namespace OpenGsn.RelayHub

open Solidity Reentry

inductive Writes (addresses : Immutables) (env : Env) (w : World) : World → Prop
  | hub (hub : Hub) (workers : hub.workerToManager = w.hub.workerToManager)
      (counts : hub.workerCount = w.hub.workerCount) : Writes addresses env w (w.setHub hub)
  | workers (sender : Address) (newRelayWorkers : List Address) (next : World)
      (added : addRelayWorkers addresses sender newRelayWorkers w = .ok next) :
      Writes addresses env w next
  | stakes (sender : Address) (call : StakeManager.Call) (stakeManager : StakeManager.State)
      (outside : sender = addresses.this ∨ sender ≠ addresses.stakeManager)
      (executed : StakeManager.execute addresses.stakeManager env sender call w.stakeManager =
        .ok stakeManager) : Writes addresses env w (w.setStakeManager stakeManager)
  | tokens (token : Address) (ledger : Erc20) (stakeManager : StakeManager.State)
      (taken : StakeManager.step addresses.stakeManager (.tokenActivity env token ledger) w.stakeManager =
        .ok stakeManager) : Writes addresses env w (w.setStakeManager stakeManager)
  | ether (ether received paidOut : ℕ) : Writes addresses env w { w with ether, received, paidOut }
  | forwarder (account : Address) (forwarder : Forwarder.State) :
      Writes addresses env w (w.setForwarder account forwarder)

theorem setMinimumStakesLoop_workers (stakes : List (Address × ℕ)) (h : Hub) :
    (setMinimumStakesLoop stakes h).workerToManager = h.workerToManager ∧
      (setMinimumStakesLoop stakes h).workerCount = h.workerCount := by
  induction stakes generalizing h with
  | nil => exact ⟨rfl, rfl⟩
  | cons head rest ih => exact ih _

theorem onRelayServerRegistered_ok (addresses : Immutables) (env : Env) (sender relayManager : Address)
    (w next : World) (taken : onRelayServerRegistered addresses env sender relayManager w = .ok next) :
    ∃ stakeManager, next = w.setStakeManager stakeManager ∧
      StakeManager.execute addresses.stakeManager env addresses.this
        (.updateRelayKeepaliveTime relayManager) w.stakeManager = .ok stakeManager := by
  simp only [onRelayServerRegistered, bind_ok, Except.ok.injEq] at taken
  obtain ⟨_, _, _, _, _, _, stakeManager, updated, rfl⟩ := taken
  exact ⟨stakeManager, rfl, updated⟩

section Writes

variable (addresses : Immutables) (env : Env) (kept : World → World → Prop) (reflexive : ∀ w, kept w w)
  (chained : ∀ first second third, kept first second → kept second third → kept first third)
  (written : ∀ first second, Writes addresses env first second → kept first second)

include written in
theorem ofHub_writes (w : World) (result : Except Revert Hub)
    (same : ∀ hub, result = .ok hub →
      hub.workerToManager = w.hub.workerToManager ∧ hub.workerCount = w.hub.workerCount) :
    (ofHub w result).Meets kept (kept w) (fun final _ => kept w final) :=
  Code.meets_check _ _ fun hub taken => written _ _ (.hub hub (same hub taken).1 (same hub taken).2)

include written in
theorem ofWorld_writes (w : World) (result : Except Revert World)
    (writes : ∀ next, result = .ok next → Writes addresses env w next) :
    (ofWorld result).Meets kept (kept w) (fun final _ => kept w final) :=
  Code.meets_check _ _ fun next taken => written _ _ (writes next taken)

include chained written in
theorem withdrawMultiple_writes (account : Address) (dest : List Address) (amounts : List ℕ)
    (start w : World) (reached : kept start w) :
    (withdrawMultiple addresses account dest amounts w).Meets kept (kept start)
      (fun final _ => kept start final) := by
  induction amounts generalizing dest w with
  | nil =>
      cases dest with
      | nil => exact reached
      | cons target dests => exact reached
  | cons amount amounts ih =>
      unfold withdrawMultiple
      apply Code.meets_check
      intro _ _
      cases dest with
      | nil => exact trivial
      | cons target dests =>
          dsimp only
          split
          · exact trivial
          · have debited := chained _ _ _ reached (written w
              (w.setHub (w.hub.setBalance account (w.hub.balances account - amount))) (.hub _ rfl rfl))
            have inside := chained _ _ _ debited (written _
              (World.send amount (w.setHub (w.hub.setBalance account (w.hub.balances account - amount))))
              (.ether _ _ _))
            refine ⟨inside, ?_, fun _ => trivial⟩
            intro after _ moved
            have logged := written after (after.setHub (after.hub.emit (.withdrawn account target amount)))
              (.hub _ rfl rfl)
            exact ih dests _ (chained _ _ _ (chained _ _ _ inside moved) logged)

include reflexive chained written in
theorem relayCall_writes (crypto : Crypto) (sender : Address) (args : RelayCallArgs)
    (limits : Except Revert GasAndDataLimits) (gas : GasReadings) (w : World) :
    (relayCall crypto addresses env sender args limits gas w).Meets kept (kept w)
      (fun final _ => kept w final) := by
  apply Code.meets_weaken _ (relayCall_meets kept reflexive chained crypto addresses env sender args limits gas w)
    (fun _ visited => visited)
  rintro final result ⟨inner, middle, answer, _, reached, _, _, finished⟩
  cases finished with
  | rejected error events status ret failed decoded =>
      exact chained _ _ _ reached (written _ _ (.hub _ rfl rfl))
  | charged before after hub charge status ret taken =>
      obtain ⟨_, _, _, rfl⟩ := settle_ok env inner.relayManager args.relayRequest.relayData gas
        { middle.hub with events := before } hub charge taken
      exact chained _ _ _ reached (written _ _ (.hub _ rfl rfl))

include reflexive chained written in
theorem hubCode_writes (crypto : Crypto) (sender : Address) (value : ℕ) (call : Call) (w : World) :
    (hubCode crypto addresses env sender value call w).Meets kept (kept w) (fun final _ => kept w final) := by
  cases call with
  | setConfiguration config =>
      apply ofHub_writes addresses env kept written
      intro hub taken
      simp only [setConfiguration, bind_ok, Except.ok.injEq] at taken
      obtain ⟨_, _, _, _, rfl⟩ := taken
      exact ⟨rfl, rfl⟩
  | setMinimumStakes token minimumStake =>
      apply ofHub_writes addresses env kept written
      intro hub taken
      simp only [setMinimumStakes, bind_ok, Except.ok.injEq] at taken
      obtain ⟨_, _, _, _, rfl⟩ := taken
      exact setMinimumStakesLoop_workers _ w.hub
  | deprecateHub deprecationTime =>
      apply ofHub_writes addresses env kept written
      intro hub taken
      simp only [deprecateHub, bind_ok, Except.ok.injEq] at taken
      obtain ⟨_, _, _, _, rfl⟩ := taken
      exact ⟨rfl, rfl⟩
  | transferOwnership newOwner =>
      apply ofHub_writes addresses env kept written
      intro hub taken
      simp only [bind_ok, Except.ok.injEq] at taken
      obtain ⟨_, _, rfl⟩ := taken
      exact ⟨rfl, rfl⟩
  | renounceOwnership =>
      apply ofHub_writes addresses env kept written
      intro hub taken
      simp only [bind_ok, Except.ok.injEq] at taken
      obtain ⟨_, _, rfl⟩ := taken
      exact ⟨rfl, rfl⟩
  | onRelayServerRegistered relayManager =>
      apply ofWorld_writes addresses env kept written
      intro next taken
      obtain ⟨stakeManager, rfl, updated⟩ := onRelayServerRegistered_ok addresses env sender relayManager w next taken
      exact .stakes _ _ stakeManager (.inl rfl) updated
  | addRelayWorkers newRelayWorkers =>
      apply ofWorld_writes addresses env kept written
      intro next taken
      exact .workers sender newRelayWorkers next taken
  | depositFor target supportsInterface =>
      apply Code.meets_check
      intro hub taken
      simp only [depositFor, bind_ok, Except.ok.injEq] at taken
      obtain ⟨_, _, _, _, rfl⟩ := taken
      have received := written w (w.receive value) (.ether _ _ _)
      exact chained _ _ _ received (written (w.receive value) _ (.hub _ rfl rfl))
  | withdraw dest amount =>
      exact withdrawMultiple_writes addresses env kept chained written sender [dest] [amount] w w (reflexive w)
  | withdrawMultiple dest amount =>
      exact withdrawMultiple_writes addresses env kept chained written sender dest amount w w (reflexive w)
  | relayCall args limits gas =>
      exact Code.meets_silent _
        (relayCall_writes addresses env kept reflexive chained written crypto sender args limits gas w)
  | innerRelayCall args limits totalInitialGas maxPossibleGas gas =>
      apply Code.meets_silent
      exact Code.meets_weaken _ (innerRelayCall_meets kept reflexive chained crypto addresses env sender args
        limits totalInitialGas maxPossibleGas gas w) (fun _ visited => visited) fun _ _ ended => ended.1
  | penalize relayWorker beneficiary =>
      apply ofWorld_writes addresses env kept written
      intro next taken
      simp only [penalize, bind_ok, Except.ok.injEq] at taken
      obtain ⟨_, _, _, _, _, _, stakeManager, penalized, rfl⟩ := taken
      exact .stakes addresses.this (.penalizeRelayManager _ beneficiary _) stakeManager (.inl rfl) penalized
  | escheatAbandonedRelayBalance relayManager =>
      apply ofWorld_writes addresses env kept written
      intro next taken
      simp only [escheatAbandonedRelayBalance, bind_ok, Except.ok.injEq] at taken
      obtain ⟨_, _, _, _, _, _, _, _, rfl⟩ := taken
      exact .hub _ rfl rfl

theorem writes_guarantee (crypto : Crypto) (reflexive : ∀ w, kept w w)
    (chained : ∀ first second third, kept first second → kept second third → kept first third)
    (written : ∀ first second, Writes addresses env first second → kept first second) :
    Guarantee (entry crypto addresses env) kept := by
  refine ⟨reflexive, chained, ?_⟩
  intro input w
  cases input with
  | hub sender value call =>
      exact Code.meets_check _ _ fun _ _ => Code.meets_check _ _ fun _ _ =>
        hubCode_writes addresses env kept reflexive chained written crypto sender value call w
  | stakeManager sender call =>
      apply Code.meets_check
      intro _ _
      apply ofWorld_writes addresses env kept written
      intro next taken
      simp only [StakeManager.step, bind_ok, require_ok, Except.ok.injEq] at taken
      obtain ⟨stakeManager, ⟨_, outside, executed⟩, rfl⟩ := taken
      exact .stakes sender call stakeManager (.inr outside) executed
  | forwarder account call =>
      exact Code.meets_zoom _ _ _ (fun s whole => written whole _ (.forwarder account s)) chained _ w w (reflexive w)
  | forceEther amount => exact written w _ (.ether _ _ _)
  | tokenActivity token ledger =>
      apply ofWorld_writes addresses env kept written
      intro next taken
      simp only [bind_ok, Except.ok.injEq] at taken
      obtain ⟨stakeManager, taken, rfl⟩ := taken
      exact .tokens token ledger stakeManager taken

end Writes

end OpenGsn.RelayHub
