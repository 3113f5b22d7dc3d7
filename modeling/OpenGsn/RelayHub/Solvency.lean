import OpenGsn.RelayHub.Steps
import OpenGsn.Reentry.Moves

/-! The balances add up to the ether received and not paid out, whoever re-enters the hub. -/

namespace OpenGsn.RelayHub

open Solidity Reentry

structure Solvent (w : World) : Prop where
  balanced : Ledger.total w.hub.balances + w.paidOut = w.received
  held : Ledger.total w.hub.balances ≤ w.ether

theorem solvent_same (first second : World)
    (total : Ledger.total second.hub.balances = Ledger.total first.hub.balances)
    (paidOut : second.paidOut = first.paidOut) (received : second.received = first.received)
    (ether : first.ether ≤ second.ether) (solvent : Solvent first) : Solvent second := by
  refine ⟨?_, ?_⟩
  · rw [total, paidOut, received]
    exact solvent.balanced
  · rw [total]
    exact solvent.held.trans ether

theorem settle_total (env : Env) (relayManager : Address) (relayData : RelayData) (gas : GasReadings)
    (h next : Hub) (charge : ℕ)
    (taken : settle env relayManager relayData gas h = .ok (next, charge)) :
    Ledger.total next.balances = Ledger.total h.balances := by
  obtain ⟨_, covered, share, rfl⟩ := settle_ok env relayManager relayData gas h next charge taken
  exact total_charged _ _ _ _ _ _ covered share

theorem escheat_total (env : Env) (sender relayManager : Address) (w next : World)
    (taken : escheatAbandonedRelayBalance env sender relayManager w = .ok next) :
    ∃ hub, next = w.setHub hub ∧ Ledger.total hub.balances = Ledger.total w.hub.balances := by
  simp only [escheatAbandonedRelayBalance, bind_ok, checkedAdd_ok, Except.ok.injEq] at taken
  obtain ⟨_, _, _, _, _, _, _, ⟨_, rfl⟩, rfl⟩ := taken
  exact ⟨_, rfl, Ledger.total_sweep w.hub.balances relayManager w.hub.config.devAddress⟩

theorem depositFor_total (sender target : Address) (supported : Bool) (amount : ℕ) (h next : Hub)
    (taken : depositFor sender target supported amount h = .ok next) :
    Ledger.total next.balances = Ledger.total h.balances + amount := by
  simp only [depositFor, bind_ok, checkedAdd_ok, Except.ok.injEq] at taken
  obtain ⟨_, _, _, ⟨_, rfl⟩, rfl⟩ := taken
  exact Ledger.total_credit h.balances target amount

theorem setMinimumStakesLoop_balances (stakes : List (Address × ℕ)) (h : Hub) :
    (setMinimumStakesLoop stakes h).balances = h.balances := by
  induction stakes generalizing h with
  | nil => rfl
  | cons head rest ih => exact ih _

theorem addRelayWorkersLoop_balances (relayManager : Address) (workers : List Address) (h next : Hub)
    (taken : addRelayWorkersLoop relayManager workers h = .ok next) : next.balances = h.balances := by
  induction workers generalizing h with
  | nil =>
      simp only [addRelayWorkersLoop, Except.ok.injEq] at taken
      rw [taken]
  | cons worker rest ih =>
      simp only [addRelayWorkersLoop, bind_ok] at taken
      obtain ⟨_, _, registered⟩ := taken
      rw [ih _ registered]

theorem solvent_setHub (w : World) (hub : Hub)
    (total : Ledger.total hub.balances = Ledger.total w.hub.balances) (solvent : Solvent w) :
    Solvent (w.setHub hub) :=
  solvent_same w (w.setHub hub) total rfl rfl (Nat.le_refl _) solvent

theorem solvent_send (account : Address) (amount : ℕ) (w : World)
    (funded : amount ≤ w.hub.balances account) (solvent : Solvent w) :
    Solvent ((w.setHub (w.hub.setBalance account (w.hub.balances account - amount))).send amount) := by
  have debit := Ledger.total_debit w.hub.balances account amount funded
  have balanced := solvent.balanced
  have held := solvent.held
  refine ⟨?_, ?_⟩
  · calc
      _ = Ledger.total (Function.update w.hub.balances account (w.hub.balances account - amount)) +
          (w.paidOut + amount) := rfl
      _ = w.received := by rw [← balanced, ← debit]; ring
  · calc
      _ = Ledger.total (Function.update w.hub.balances account (w.hub.balances account - amount)) := rfl
      _ = Ledger.total w.hub.balances - amount := Nat.eq_sub_of_add_eq debit
      _ ≤ w.ether - amount := Nat.sub_le_sub_right held amount

abbrev Keeps (first second : World) : Prop := Solvent first → Solvent second

theorem keeps_refl (w : World) : Keeps w w := fun solvent => solvent

theorem keeps_trans (first second third : World) (early : Keeps first second)
    (late : Keeps second third) : Keeps first third :=
  fun solvent => late (early solvent)

theorem withdrawMultiple_meets (addresses : Immutables) (account : Address) (dest : List Address)
    (amounts : List ℕ) (w : World) (solvent : Solvent w) :
    (withdrawMultiple addresses account dest amounts w).Meets Keeps Solvent
      (fun final _ => Solvent final) := by
  induction amounts generalizing dest w with
  | nil =>
      cases dest with
      | nil => exact solvent
      | cons target dests => exact solvent
  | cons amount amounts ih =>
      unfold withdrawMultiple
      refine Code.meets_check _ _ fun _ funded => ?_
      have funded : amount ≤ w.hub.balances account := (require_ok _ _ _).mp funded
      cases dest with
      | nil => exact trivial
      | cons target dests =>
          dsimp only
          split
          · exact trivial
          · have inside := solvent_send account amount w funded solvent
            refine ⟨inside, ?_, fun _ => trivial⟩
            intro after _ moved
            exact ih dests _ (solvent_setHub after _ rfl (moved inside))

theorem ofHub_meets (w : World) (result : Except Revert Hub)
    (solvent : ∀ hub, result = .ok hub → Solvent (w.setHub hub)) :
    (ofHub w result).Meets Keeps Solvent (fun final _ => Solvent final) :=
  Code.meets_check _ _ fun hub taken => solvent hub taken

theorem ofWorld_meets (result : Except Revert World)
    (solvent : ∀ next, result = .ok next → Solvent next) :
    (ofWorld result).Meets Keeps Solvent (fun final _ => Solvent final) :=
  Code.meets_check _ _ fun next taken => solvent next taken

theorem relayCall_solvent (crypto : Crypto) (addresses : Immutables) (env : Env) (sender : Address)
    (args : RelayCallArgs) (limits : Except Revert GasAndDataLimits) (gas : GasReadings) (w : World)
    (solvent : Solvent w) :
    (relayCall crypto addresses env sender args limits gas w).Meets Keeps Solvent
      (fun final _ => Solvent final) := by
  refine Code.meets_weaken _ (relayCall_meets Keeps keeps_refl keeps_trans crypto addresses env sender args
    limits gas w) (fun _ visited => visited solvent) ?_
  rintro final result ⟨inner, middle, answer, _, reached, _, _, finished⟩
  have settled := reached solvent
  cases finished with
  | rejected error events status ret failed decoded => exact solvent_setHub middle _ rfl settled
  | charged before after hub charge status ret taken =>
      have same := settle_total env inner.relayManager args.relayRequest.relayData gas
        { middle.hub with events := before } hub charge taken
      exact solvent_setHub middle { hub with events := after } same settled

theorem hubCode_meets (crypto : Crypto) (addresses : Immutables) (env : Env) (sender : Address)
    (value : ℕ) (call : Call) (w : World) (solvent : Solvent w) :
    (hubCode crypto addresses env sender value call w).Meets Keeps Solvent
      (fun final _ => Solvent final) := by
  cases call with
  | setConfiguration config =>
      refine ofHub_meets w _ fun hub taken => ?_
      simp only [setConfiguration, bind_ok, Except.ok.injEq] at taken
      obtain ⟨_, _, _, _, rfl⟩ := taken
      exact solvent_setHub w _ rfl solvent
  | setMinimumStakes token minimumStake =>
      refine ofHub_meets w _ fun hub taken => ?_
      simp only [setMinimumStakes, bind_ok, Except.ok.injEq] at taken
      obtain ⟨_, _, _, _, rfl⟩ := taken
      exact solvent_setHub w _ (by rw [setMinimumStakesLoop_balances]) solvent
  | deprecateHub deprecationTime =>
      refine ofHub_meets w _ fun hub taken => ?_
      simp only [deprecateHub, bind_ok, Except.ok.injEq] at taken
      obtain ⟨_, _, _, _, rfl⟩ := taken
      exact solvent_setHub w _ rfl solvent
  | transferOwnership newOwner =>
      refine ofHub_meets w _ fun hub taken => ?_
      simp only [bind_ok, Except.ok.injEq] at taken
      obtain ⟨_, _, rfl⟩ := taken
      exact solvent_setHub w _ rfl solvent
  | renounceOwnership =>
      refine ofHub_meets w _ fun hub taken => ?_
      simp only [bind_ok, Except.ok.injEq] at taken
      obtain ⟨_, _, rfl⟩ := taken
      exact solvent_setHub w _ rfl solvent
  | onRelayServerRegistered relayManager =>
      refine ofWorld_meets _ fun next taken => ?_
      simp only [onRelayServerRegistered, bind_ok, Except.ok.injEq] at taken
      obtain ⟨_, _, _, _, _, _, _, _, rfl⟩ := taken
      exact solvent_same w _ rfl rfl rfl (Nat.le_refl _) solvent
  | addRelayWorkers newRelayWorkers =>
      refine ofWorld_meets _ fun next taken => ?_
      simp only [addRelayWorkers, bind_ok, Except.ok.injEq] at taken
      obtain ⟨_, _, _, _, _, _, hub, registered, rfl⟩ := taken
      have same := addRelayWorkersLoop_balances _ _ _ hub registered
      exact solvent_setHub w _ (congrArg Ledger.total same) solvent
  | depositFor target supportsInterface =>
      refine ofHub_meets _ _ fun hub taken => ?_
      have deposited := depositFor_total _ _ _ _ _ _ taken
      have balanced := solvent.balanced
      have held := solvent.held
      refine ⟨?_, ?_⟩
      · simp only [World.setHub_hub, World.setHub_paidOut, World.setHub_received,
          World.receive_paidOut, World.receive_received]
        omega
      · simp only [World.setHub_hub, World.setHub_ether, World.receive_ether]
        omega
  | withdraw dest amount => exact withdrawMultiple_meets addresses sender [dest] [amount] w solvent
  | withdrawMultiple dest amount => exact withdrawMultiple_meets addresses sender dest amount w solvent
  | relayCall args limits gas =>
      exact Code.meets_silent _ (relayCall_solvent crypto addresses env sender args limits gas w solvent)
  | innerRelayCall args limits totalInitialGas maxPossibleGas gas =>
      refine Code.meets_silent _ ?_
      exact Code.meets_weaken _ (innerRelayCall_meets Keeps keeps_refl keeps_trans crypto addresses env sender
        args limits totalInitialGas maxPossibleGas gas w) (fun _ visited => visited solvent)
        fun _ _ ended => ended.1 solvent
  | penalize relayWorker beneficiary =>
      refine ofWorld_meets _ fun next taken => ?_
      simp only [penalize, bind_ok, Except.ok.injEq] at taken
      obtain ⟨_, _, _, _, _, _, _, _, rfl⟩ := taken
      exact solvent_same w _ rfl rfl rfl (Nat.le_refl _) solvent
  | escheatAbandonedRelayBalance relayManager =>
      refine ofWorld_meets _ fun next taken => ?_
      obtain ⟨hub, rfl, same⟩ := escheat_total env sender relayManager w next taken
      exact solvent_setHub w hub same solvent

theorem entry_guarantee (crypto : Crypto) (addresses : Immutables) (env : Env) :
    Guarantee (entry crypto addresses env) Keeps := by
  refine guarantee_invariant _ Solvent fun input w solvent => ?_
  cases input with
  | hub sender value call =>
      exact Code.meets_check _ _ fun _ _ => Code.meets_check _ _ fun _ _ =>
        hubCode_meets crypto addresses env sender value call w solvent
  | stakeManager sender call =>
      refine Code.meets_check _ _ fun _ _ => ofWorld_meets _ fun next taken => ?_
      simp only [bind_ok, Except.ok.injEq] at taken
      obtain ⟨_, _, rfl⟩ := taken
      exact solvent_same w _ rfl rfl rfl (Nat.le_refl _) solvent
  | forwarder account call =>
      have writes : ∀ s whole, Keeps whole (whole.setForwarder account s) := fun s whole held =>
        solvent_same whole _ rfl rfl rfl (Nat.le_refl _) held
      exact Code.meets_weaken _ (Code.meets_zoom _ _ _ writes keeps_trans _ w w (keeps_refl w))
        (fun _ visited => visited solvent) fun _ _ ended => ended solvent
  | forceEther amount => exact solvent_same w _ rfl rfl rfl (Nat.le_add_right _ _) solvent
  | tokenActivity token ledger =>
      refine ofWorld_meets _ fun next taken => ?_
      simp only [bind_ok, Except.ok.injEq] at taken
      obtain ⟨_, _, rfl⟩ := taken
      exact solvent_same w _ rfl rfl rfl (Nat.le_refl _) solvent

/-- In every state in which anyone has control, in the middle of a call too, the balances add
up to the ether received and not paid out, and the hub has that much; and the charge of a
relayed call and an escheatment do not change the sum, whichever of their accounts are the
same. -/
theorem balances_conserved (crypto : Crypto) (addresses : Immutables) (deployer : Address)
    (config : RelayHubConfig) (hub : Hub) (deployed : deploy deployer config = .ok hub) (ether : ℕ)
    (stakeManager : StakeManager.State) (forwarders : Address → Forwarder.State)
    (history : List (Env × Moves Input Bytes Revert)) (w : World)
    (reached : w ∈ historySeen (entry crypto addresses) history
      ⟨hub, ether, 0, 0, stakeManager, forwarders⟩) :
    Ledger.total w.hub.balances + w.paidOut = w.received ∧
    Ledger.total w.hub.balances ≤ w.ether ∧
    (∀ env relayManager relayData gas h next charge,
      settle env relayManager relayData gas h = .ok (next, charge) →
      Ledger.total next.balances = Ledger.total h.balances) ∧
    ∀ env sender relayManager before next,
      escheatAbandonedRelayBalance env sender relayManager before = .ok next →
      Ledger.total next.hub.balances = Ledger.total before.hub.balances := by
  have start : Solvent ⟨hub, ether, 0, 0, stakeManager, forwarders⟩ := by
    simp only [deploy, setConfiguration, bind_ok, Except.ok.injEq] at deployed
    obtain ⟨_, _, _, _, rfl⟩ := deployed
    exact ⟨Ledger.total_zero, Ledger.total_zero.le.trans (Nat.zero_le ether)⟩
  have solvent := history_seen_kept (entry crypto addresses) Keeps keeps_refl
    (entry_guarantee crypto addresses) history _ w reached start
  refine ⟨solvent.balanced, solvent.held, ?_, ?_⟩
  · intro env relayManager relayData gas h next charge taken
    exact settle_total env relayManager relayData gas h next charge taken
  · intro env sender relayManager before next taken
    obtain ⟨_, rfl, same⟩ := escheat_total env sender relayManager before next taken
    exact same

def sampleAddresses : Immutables := ⟨100, 101, 102, 103, 104⟩

def sampleConfig : RelayHubConfig := ⟨10, 1000, 100, 500, 5, 40, 10, 0, 0⟩

def sampleEnv : Env := { Solidity.sampleEnv with origin := 30, baseFee := 0 }

def sampleStakeManager : StakeManager.State where
  owner := 1
  maxUnstakeDelay := 100
  abandonedRelayServerConfig := ⟨11, 500, 500⟩
  burnAddress := 9
  stakes := fun relayManager => if relayManager = 31 then ⟨50, 15, 0, 0, 0, 4, 2⟩ else default
  authorizedHubs := fun _ _ => ⟨uint256Max⟩
  tokens := fun _ => none
  pulled := fun _ => 0
  paid := fun _ => 0
  events := []

def sampleDeployed : Hub where
  owner := 1
  config := sampleConfig
  minimumStakePerToken := fun _ => 0
  workerToManager := fun _ => 0
  workerCount := fun _ => 0
  balances := fun _ => 0
  deprecationTime := uint256Max
  events := [.relayHubConfigured sampleConfig]

/-- A withdrawal whose receiver deposits part of it again. -/
def sampleHistory : List (Env × Moves Input Bytes Revert) :=
  [(sampleEnv, .enter (.hub 2 100 (.depositFor 32 true)) .none .stop),
    (sampleEnv, .enter (.hub 32 0 (.withdraw 21 30))
      (.reply (.enter (.hub 21 5 (.depositFor 32 true)) .none .stop) (.ok []) .none) .stop)]

theorem balances_conserved_reentered :
    let w := historyFinal (entry sampleCrypto sampleAddresses) sampleHistory
      ⟨sampleDeployed, 7, 0, 0, sampleStakeManager, fun _ => Forwarder.deploy sampleCrypto⟩
    w.received = 105 ∧ w.paidOut = 30 ∧ Ledger.total w.hub.balances + w.paidOut = w.received :=
  ⟨by decide +kernel, by decide +kernel,
    (balances_conserved sampleCrypto sampleAddresses 1 sampleConfig sampleDeployed rfl 7
      sampleStakeManager _ sampleHistory _ (historyFinal_seen _ _ _)).1⟩

end OpenGsn.RelayHub
