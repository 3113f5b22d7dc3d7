import OpenGsn.RelayHub.Solvency

/-! What a relayed call can cost a paymaster. -/

namespace OpenGsn.RelayHub

open Solidity Reentry

structure Untouched (first second : World) : Prop where
  balances : second.hub.balances = first.hub.balances
  workerToManager : second.hub.workerToManager = first.hub.workerToManager
  workerCount : second.hub.workerCount = first.hub.workerCount
  nonces : ∀ account, (second.forwarders account).nonces = (first.forwarders account).nonces

/-- Whatever the code called by `relayCall` does, and in particular when it re-enters the hub,
the paymaster loses the returned charge at most, and nothing happened when it rejects. -/
theorem paymaster_loses_charge_at_most (crypto : Crypto) (addresses : Immutables) (env : Env)
    (sender : Address) (args : RelayCallArgs) (limits : Except Revert GasAndDataLimits)
    (gas : GasReadings) (w final : World) (result : RelayCallResult)
    (conducts : List (Conduct World Bytes Revert))
    (returned : (relayCall crypto addresses env sender args limits gas w).run conducts =
      .ok (final, result)) :
    let paymaster := args.relayRequest.relayData.paymaster
    w.hub.balances paymaster ≤ final.hub.balances paymaster + result.charge ∧
    (result.paymasterAccepted = false → result.charge = 0 ∧ Untouched w final) := by
  have ends := Code.run_meets _ conducts
    (relayCall_meets (fun _ _ => True) (fun _ => trivial) (fun _ _ _ _ _ => trivial) crypto
      addresses env sender args limits gas w) (fun _ _ _ => trivial) final result returned
  obtain ⟨inner, middle, answer, _, _, grown, failed, finished⟩ := ends
  intro paymaster
  cases finished with
  | rejected error events status ret reverted decoded =>
      obtain rfl := failed error reverted
      exact ⟨Nat.le_refl _, fun _ => ⟨rfl, rfl, rfl, rfl, fun _ => rfl⟩⟩
  | charged before after hub charge status ret settled =>
      obtain ⟨_, _, _, rfl⟩ := settle_ok _ _ _ _ _ _ _ settled
      refine ⟨grown.trans ?_, fun accepted => nomatch accepted⟩
      exact charged_paymaster middle.hub.balances paymaster inner.relayManager
        middle.hub.config.devAddress charge _

def sampleRelayData : RelayData := ⟨1, 1, 50, 30, 32, 33, [], 0⟩

def sampleArgs : RelayCallArgs := ⟨[1], 1000, ⟨⟨34, 35, 0, 10, 0, [], 0⟩, sampleRelayData⟩, [1], [], 932⟩

def sampleLimits : GasAndDataLimits := ⟨1000, 500, 500, 10000⟩

def sampleGas : GasReadings where
  initial := 100000
  beforeLimit := 90000
  beforeInner := 89000
  atInner := 88000
  innerInitial := 80000
  innerLeft := 79000
  innerBeforePost := 50000
  afterInner := 60000
  final := 55000
  initial_lt := by decide
  beforeLimit_le := by decide
  beforeInner_le := by decide
  atInner_le := by decide
  afterInner_le := by decide
  final_le := by decide

def sampleWorld : World where
  hub := { sampleDeployed with
    minimumStakePerToken := fun _ => 10
    workerToManager := fun _ => 31
    balances := fun account => if account = 32 then 100050 else 0 }
  ether := 100050
  received := 100050
  paidOut := 0
  stakeManager := sampleStakeManager
  forwarders := fun _ => Forwarder.deploy sampleCrypto

def quiet (answer : Except Revert Bytes) : Conduct World Bytes Revert := ⟨fun w => w, fun w => [w], answer⟩

/-- An accepting paymaster, a request that goes through, and a given end of `postRelayedCall`. -/
def sampleConducts (post : Except Revert Bytes) : List (Conduct World Bytes Revert) :=
  [quiet (.ok (word 64 ++ word 0 ++ bytesTail [])), quiet (.ok (word 1 ++ word 64 ++ bytesTail [])),
    quiet post]

def sampleRelayCall : HubCode RelayCallResult :=
  relayCall sampleCrypto sampleAddresses sampleEnv 30 sampleArgs (.ok sampleLimits) sampleGas sampleWorld

theorem paymaster_loses_charge_at_most_sample :
    match sampleRelayCall.run (sampleConducts (.ok [])) with
    | .ok (final, result) => result.charge = 45550 ∧ 100050 ≤ final.hub.balances 32 + result.charge
    | .error _ => False := by
  have charge : (match sampleRelayCall.run (sampleConducts (.ok [])) with
    | .ok (_, result) => result.charge
    | .error _ => 0) = 45550 := by decide +kernel
  cases returned : sampleRelayCall.run (sampleConducts (.ok [])) with
  | ok outcome =>
      rw [returned] at charge
      exact ⟨charge, (paymaster_loses_charge_at_most _ _ _ _ _ _ _ _ outcome.1 outcome.2 _ returned).1⟩
  | error error =>
      rw [returned] at charge
      simp at charge

theorem finishRelayCall_undecodable (crypto : Crypto) (env : Env) (sender : Address)
    (args : RelayCallArgs) (inner : InnerCall) (gas : GasReadings) (w : World)
    (answer : Except Revert (RelayCallStatus × Bytes))
    (unknown : ∃ error, decodeStatus (returnData answer) = .error error) :
    ∃ error, finishRelayCall crypto env sender args inner gas w answer = .error error := by
  obtain ⟨error, unknown⟩ := unknown
  cases taken : finishRelayCall crypto env sender args inner gas w answer with
  | error error => exact ⟨error, rfl⟩
  | ok outcome =>
      simp only [finishRelayCall, bind_ok, unknown] at taken
      obtain ⟨_, _, _, decoded, _⟩ := taken
      exact nomatch decoded

/-- The hub understands a failed inner frame if and only if at most 928 bytes come with its
status, 928 bytes being the room left in 1024 beside three words; with more, `relayCall` itself
reverts and charges nothing. -/
theorem inner_outcome_understood_iff (status : RelayCallStatus) (ret : Bytes)
    (fits : ret.length < 2 ^ 256) :
    ((∃ data, decodeStatus (revertWithStatus status ret) = .ok (status, data)) ↔ ret.length ≤ 928) ∧
    (928 < ret.length → ∀ crypto env sender args inner gas w, ∃ error,
      finishRelayCall crypto env sender args inner gas w
        (.error (.data (revertWithStatus status ret))) = .error error) := by
  obtain ⟨short, long⟩ := decodeStatus_revertWithStatus status ret fits
  refine ⟨⟨?_, fun small => ⟨ret, short small⟩⟩, ?_⟩
  · rintro ⟨data, decoded⟩
    by_contra large
    obtain ⟨error, failed⟩ := long (Nat.lt_of_not_le large)
    rw [failed] at decoded
    exact nomatch decoded
  · intro large crypto env sender args inner gas w
    exact finishRelayCall_undecodable crypto env sender args inner gas w _ (long large)

theorem inner_outcome_understood_iff_short :
    (∃ data, decodeStatus (revertWithStatus .postRelayedFailed (List.replicate 928 7)) =
      .ok (.postRelayedFailed, data)) :=
  (inner_outcome_understood_iff .postRelayedFailed (List.replicate 928 7)
    (by rw [List.length_replicate]; decide)).1.mpr (by rw [List.length_replicate])

/-- With 928 bytes of revert data the paymaster is charged for its failed `postRelayedCall`;
with 929 bytes the hub does not understand the outcome, and `relayCall` reverts. -/
theorem postRelayedCall_escapes_charge :
    (sampleRelayCall.run (sampleConducts (.error (.data (List.replicate 928 7))))).toBool = true ∧
    (sampleRelayCall.run (sampleConducts (.error (.data (List.replicate 929 7))))).toBool = false ∧
    ¬ ∃ data, decodeStatus (revertWithStatus .postRelayedFailed (List.replicate 929 7)) =
      .ok (.postRelayedFailed, data) := by
  refine ⟨by decide +kernel, by decide +kernel, ?_⟩
  rintro ⟨data, decoded⟩
  obtain ⟨error, failed⟩ := (decodeStatus_revertWithStatus .postRelayedFailed (List.replicate 929 7)
    (by rw [List.length_replicate]; decide)).2 (by rw [List.length_replicate]; decide)
  rw [failed] at decoded
  exact nomatch decoded

def innerOutcome (crypto : Crypto) (addresses : Immutables) (env : Env) (args : RelayCallArgs)
    (inner : InnerCall) (gas : GasReadings) (w : World) (conducts : List (Conduct World Bytes Revert)) :
    World :=
  (innerRelayCall crypto addresses env addresses.this args inner.limits inner.totalInitialGas
    inner.maxPossibleGas gas w).commit w conducts

/-- The charge is computed, is within the charge that was compared with the balance and within
the balance that is there by then, and is split without loss. -/
def ChargeCovered (env : Env) (relayData : RelayData) (gas : GasReadings) (w middle : World) : Prop :=
  ∃ maxPossibleCharge used charge,
    calculateCharge env w.hub.config (relayData.transactionCalldataGasUsed.val + gas.initial) relayData =
      .ok maxPossibleCharge ∧
    maxPossibleCharge ≤ w.hub.balances relayData.paymaster ∧
    measuredGas middle.hub.config relayData gas = .ok used ∧
    calculateCharge env middle.hub.config used relayData = .ok charge ∧
    charge ≤ maxPossibleCharge ∧
    charge ≤ middle.hub.balances relayData.paymaster ∧
    calculateDevCharge middle.hub.config charge ≤ charge ∧
    (charge - calculateDevCharge middle.hub.config charge) +
      calculateDevCharge middle.hub.config charge = charge

theorem verifyGasAndDataLimits_ok (env : Env) (limits : Except Revert GasAndDataLimits)
    (args : RelayCallArgs) (initialGasLeft : ℕ) (h : Hub) (checked : GasAndDataLimits × ℕ)
    (taken : verifyGasAndDataLimits env limits args initialGasLeft h = .ok checked) :
    let relayData := args.relayRequest.relayData
    relayData.transactionCalldataGasUsed.val + initialGasLeft < 2 ^ 256 ∧ ∃ maxPossibleCharge,
      calculateCharge env h.config (relayData.transactionCalldataGasUsed.val + initialGasLeft)
        relayData = .ok maxPossibleCharge ∧
      maxPossibleCharge ≤ h.balances relayData.paymaster := by
  simp only [verifyGasAndDataLimits, bind_ok, require_ok, checkedAdd_ok] at taken
  obtain ⟨_, _, _, _, _, _, _, _, _, ⟨fits, rfl⟩, charge, covered, _, funded, _⟩ := taken
  exact ⟨fits, charge, covered, funded⟩

theorem prepareRelayCall_verified (addresses : Immutables) (env : Env) (sender : Address)
    (args : RelayCallArgs) (limits : Except Revert GasAndDataLimits) (gas : GasReadings) (w : World)
    (inner : InnerCall)
    (prepared : prepareRelayCall addresses env sender args limits gas w = .ok inner) :
    ∃ checked, verifyGasAndDataLimits env limits args gas.initial w.hub = .ok checked := by
  simp only [prepareRelayCall, bind_ok] at prepared
  obtain ⟨_, _, _, _, _, _, checked, verified, _⟩ := prepared
  exact ⟨checked, verified⟩

theorem innerOutcome_kept (crypto : Crypto) (addresses : Immutables) (env : Env) (args : RelayCallArgs)
    (inner : InnerCall) (gas : GasReadings) (w : World) (conducts : List (Conduct World Bytes Revert))
    (unchanged : ∀ conduct ∈ conducts, ∀ state, (conduct.effect state).hub.config = state.hub.config) :
    let middle := innerOutcome crypto addresses env args inner gas w conducts
    middle.hub.config = w.hub.config ∧
    w.hub.balances args.relayRequest.relayData.paymaster ≤
      middle.hub.balances args.relayRequest.relayData.paymaster := by
  unfold innerOutcome Code.commit
  cases returned : (innerRelayCall crypto addresses env addresses.this args inner.limits
      inner.totalInitialGas inner.maxPossibleGas gas w).run conducts with
  | error error => exact ⟨rfl, Nat.le_refl _⟩
  | ok outcome =>
      exact Code.run_meets _ conducts
        (innerRelayCall_meets (fun first second => second.hub.config = first.hub.config)
          (fun _ => rfl) (fun _ _ _ early late => late.trans early) crypto addresses env addresses.this
          args inner.limits inner.totalInitialGas inner.maxPossibleGas gas w)
        unchanged outcome.1 outcome.2 returned

/-- The charge is covered by the check made before the gas is spent if and only if, when it is
computed, there is still as much gas as the configured overhead that it adds, or gas is free. -/
theorem charge_covered_iff (crypto : Crypto) (addresses : Immutables) (env : Env) (sender owner : Address)
    (args : RelayCallArgs) (limits : Except Revert GasAndDataLimits) (gas : GasReadings)
    (configured before : Hub) (w : World) (inner : InnerCall)
    (conducts : List (Conduct World Bytes Revert))
    (accepted : setConfiguration owner w.hub.config before = .ok configured)
    (prepared : prepareRelayCall addresses env sender args limits gas w = .ok inner)
    (unchanged : ∀ conduct ∈ conducts, ∀ state, (conduct.effect state).hub.config = state.hub.config) :
    let relayData := args.relayRequest.relayData
    ChargeCovered env relayData gas w (innerOutcome crypto addresses env args inner gas w conducts) ↔
      w.hub.config.gasOverhead.val ≤ gas.final ∨
      chargeableGasPrice env relayData = 0 ∧
        relayData.transactionCalldataGasUsed.val + (gas.initial - gas.final) +
          w.hub.config.gasOverhead.val < 2 ^ 256 := by
  intro relayData
  obtain ⟨checked, verified⟩ :=
    prepareRelayCall_verified addresses env sender args limits gas w inner prepared
  obtain ⟨fits, limit, covered, funded⟩ :=
    verifyGasAndDataLimits_ok env limits args gas.initial w.hub checked verified
  obtain ⟨sameConfig, grown⟩ :=
    innerOutcome_kept crypto addresses env args inner gas w conducts unchanged
  have legal : w.hub.config.devFee.val < 100 := by
    simp only [setConfiguration, bind_ok, require_ok] at accepted
    obtain ⟨_, _, _, legal, _⟩ := accepted
    exact legal
  rw [← measured_charge_covered_iff env w.hub.config relayData gas limit fits covered]
  unfold ChargeCovered
  rw [sameConfig]
  constructor
  · rintro ⟨other, used, charge, checkedCharge, _, measured, charged, within, _⟩
    rw [covered] at checkedCharge
    obtain rfl := Except.ok.inj checkedCharge
    exact ⟨used, charge, measured, charged, within⟩
  · rintro ⟨used, charge, measured, charged, within⟩
    have share := calculateDevCharge_le w.hub.config charge legal
    exact ⟨limit, used, charge, covered, funded, measured, charged, within,
      within.trans (funded.trans grown), share, Nat.sub_add_cancel share⟩

theorem charge_covered_iff_sample :
    ChargeCovered sampleEnv sampleRelayData sampleGas sampleWorld
      (innerOutcome sampleCrypto sampleAddresses sampleEnv sampleArgs ⟨31, sampleLimits, 100050, 87593, 100243⟩
        sampleGas sampleWorld (sampleConducts (.ok []))) :=
  (charge_covered_iff sampleCrypto sampleAddresses sampleEnv 30 1 sampleArgs (.ok sampleLimits) sampleGas
    _ sampleDeployed sampleWorld ⟨31, sampleLimits, 100050, 87593, 100243⟩ (sampleConducts (.ok [])) rfl rfl
    (by simp [sampleConducts, quiet])).mpr (.inl (by decide))

def expensiveConfig : RelayHubConfig := { sampleConfig with gasOverhead := 60000 }

def expensiveWorld : World := { sampleWorld with hub := { sampleWorld.hub with config := expensiveConfig } }

def expensiveInner : InnerCall := ⟨31, sampleLimits, 100050, 87593, 159743⟩

/-- With an overhead of 60000 gas, the gas that is used comes to more than all the gas there
was: the charge of a request that went through is more than what was checked, and the paymaster
does not have it. -/
theorem overhead_escapes_check :
    (setConfiguration 1 expensiveConfig sampleDeployed).toBool = true ∧
    prepareRelayCall sampleAddresses sampleEnv 30 sampleArgs (.ok sampleLimits) sampleGas
      expensiveWorld = .ok expensiveInner ∧
    ¬ ChargeCovered sampleEnv sampleRelayData sampleGas expensiveWorld
      (innerOutcome sampleCrypto sampleAddresses sampleEnv sampleArgs expensiveInner sampleGas
        expensiveWorld (sampleConducts (.ok []))) ∧
    ((relayCall sampleCrypto sampleAddresses sampleEnv 30 sampleArgs (.ok sampleLimits) sampleGas
      expensiveWorld).run (sampleConducts (.ok []))).toBool = false := by
  refine ⟨by decide +kernel, rfl, ?_, by decide +kernel⟩
  have sameConfig := (innerOutcome_kept sampleCrypto sampleAddresses sampleEnv sampleArgs expensiveInner
    sampleGas expensiveWorld (sampleConducts (.ok [])) (by simp [sampleConducts, quiet])).1
  unfold ChargeCovered
  rw [sameConfig]
  rintro ⟨limit, used, charge, checkedCharge, _, measured, charged, within, _⟩
  have usedGas : measuredGas expensiveConfig sampleRelayData sampleGas = .ok 105050 := rfl
  have fullCharge : calculateCharge sampleEnv expensiveConfig 105050 sampleRelayData = .ok 105050 := rfl
  have maxCharge : calculateCharge sampleEnv expensiveConfig 100050 sampleRelayData = .ok 100050 := rfl
  obtain rfl := Except.ok.inj (usedGas.symm.trans measured)
  obtain rfl := Except.ok.inj (fullCharge.symm.trans charged)
  obtain rfl := Except.ok.inj (maxCharge.symm.trans checkedCharge)
  omega

end OpenGsn.RelayHub
