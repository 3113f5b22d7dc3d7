import OpenGsn.GsnTypes

/-! What a relayed call is charged. -/

namespace OpenGsn.RelayHub

open Solidity

structure RelayHubConfig where
  maxWorkerCount : Uint256
  gasReserve : Uint256
  postOverhead : Uint256
  gasOverhead : Uint256
  minimumUnstakeDelay : Uint256
  devAddress : Address
  devFee : Fin (2 ^ 8)
  baseRelayFee : Fin (2 ^ 80)
  pctRelayFee : Fin (2 ^ 16)
  deriving DecidableEq, Repr

/-- The readings of `gasleft()` in one `relayCall`. Those of the outer frame go down. -/
structure GasReadings where
  initial : ℕ
  beforeLimit : ℕ
  beforeInner : ℕ
  atInner : ℕ
  innerInitial : ℕ
  innerLeft : ℕ
  innerBeforePost : ℕ
  afterInner : ℕ
  final : ℕ
  initial_lt : initial < 2 ^ 256
  beforeLimit_le : beforeLimit ≤ initial
  beforeInner_le : beforeInner ≤ beforeLimit
  atInner_le : atInner ≤ beforeInner
  afterInner_le : afterInner ≤ atInner
  final_le : final ≤ afterInner

theorem GasReadings.final_le_initial (gas : GasReadings) : gas.final ≤ gas.initial :=
  gas.final_le.trans (gas.afterInner_le.trans (gas.atInner_le.trans
    (gas.beforeInner_le.trans gas.beforeLimit_le)))

def basefee (env : Env) (relayData : RelayData) : ℕ :=
  if relayData.maxFeePerGas = relayData.maxPriorityFeePerGas then 0 else env.baseFee

def chargeableGasPrice (env : Env) (relayData : RelayData) : ℕ :=
  min relayData.maxFeePerGas.val
    (min env.gasPrice (basefee env relayData + relayData.maxPriorityFeePerGas.val))

def calculateCharge (env : Env) (config : RelayHubConfig) (gasUsed : ℕ) (relayData : RelayData) :
    Except Revert ℕ := do
  let _ ← checkedAdd 256 (basefee env relayData) relayData.maxPriorityFeePerGas.val
  let price ← checkedMul 256 gasUsed (chargeableGasPrice env relayData)
  let percent ← checkedAdd 16 config.pctRelayFee.val 100
  let scaled ← checkedMul 256 price percent
  checkedAdd 256 config.baseRelayFee.val (scaled / 100)

/-- The multiplication is unchecked. -/
def calculateDevCharge (config : RelayHubConfig) (charge : ℕ) : ℕ :=
  if config.devFee = 0 then 0 else charge * config.devFee.val % 2 ^ 256 / 100

def measuredGas (config : RelayHubConfig) (relayData : RelayData) (gas : GasReadings) :
    Except Revert ℕ := do
  let spent ← checkedSub gas.initial gas.final
  let used ← checkedAdd 256 relayData.transactionCalldataGasUsed.val spent
  checkedAdd 256 used config.gasOverhead.val

theorem calculateCharge_ok (env : Env) (config : RelayHubConfig) (gasUsed charge : ℕ)
    (relayData : RelayData) :
    calculateCharge env config gasUsed relayData = .ok charge ↔
      let scaled := gasUsed * chargeableGasPrice env relayData * (config.pctRelayFee.val + 100)
      basefee env relayData + relayData.maxPriorityFeePerGas.val < 2 ^ 256 ∧
      gasUsed * chargeableGasPrice env relayData < 2 ^ 256 ∧
      config.pctRelayFee.val + 100 < 2 ^ 16 ∧ scaled < 2 ^ 256 ∧
      config.baseRelayFee.val + scaled / 100 < 2 ^ 256 ∧
      config.baseRelayFee.val + scaled / 100 = charge := by
  simp [calculateCharge]

theorem calculateDevCharge_le (config : RelayHubConfig) (charge : ℕ) (legal : config.devFee.val < 100) :
    calculateDevCharge config charge ≤ charge := by
  unfold calculateDevCharge
  split
  · exact Nat.zero_le charge
  · have wrapped : charge * config.devFee.val % 2 ^ 256 ≤ charge * config.devFee.val := Nat.mod_le _ _
    have scaled : charge * config.devFee.val ≤ charge * 100 := Nat.mul_le_mul_left charge legal.le
    omega

theorem calculateCharge_mono (env : Env) (config : RelayHubConfig) (less more limit : ℕ)
    (relayData : RelayData) (ordered : less ≤ more)
    (covered : calculateCharge env config more relayData = .ok limit) :
    ∃ charge, calculateCharge env config less relayData = .ok charge ∧ charge ≤ limit := by
  obtain ⟨fee, priced, percent, scaled, total, rfl⟩ :=
    (calculateCharge_ok env config more limit relayData).mp covered
  have cheaper := Nat.mul_le_mul_right (chargeableGasPrice env relayData) ordered
  have smaller := Nat.mul_le_mul_right (config.pctRelayFee.val + 100) cheaper
  have divided := Nat.div_le_div_right (c := 100) smaller
  refine ⟨_, (calculateCharge_ok env config less _ relayData).mpr
    ⟨fee, by omega, percent, by omega, by omega, rfl⟩, by omega⟩

theorem calculateCharge_strict (env : Env) (config : RelayHubConfig) (less more charge limit : ℕ)
    (relayData : RelayData) (priced : chargeableGasPrice env relayData ≠ 0) (ordered : less < more)
    (small : calculateCharge env config less relayData = .ok limit)
    (large : calculateCharge env config more relayData = .ok charge) : limit < charge := by
  obtain ⟨_, _, _, _, _, rfl⟩ := (calculateCharge_ok env config less limit relayData).mp small
  obtain ⟨_, _, _, _, _, rfl⟩ := (calculateCharge_ok env config more charge relayData).mp large
  obtain ⟨extra, rfl⟩ := Nat.exists_eq_add_of_lt ordered
  have unit : 1 * 100 ≤ chargeableGasPrice env relayData * (config.pctRelayFee.val + 100) :=
    Nat.mul_le_mul (Nat.one_le_iff_ne_zero.mpr priced) (Nat.le_add_left 100 _)
  have split : (less + extra + 1) * chargeableGasPrice env relayData * (config.pctRelayFee.val + 100) =
      less * chargeableGasPrice env relayData * (config.pctRelayFee.val + 100) +
        extra * (chargeableGasPrice env relayData * (config.pctRelayFee.val + 100)) +
        chargeableGasPrice env relayData * (config.pctRelayFee.val + 100) := by ring
  have step : less * chargeableGasPrice env relayData * (config.pctRelayFee.val + 100) + 100 ≤
      (less + extra + 1) * chargeableGasPrice env relayData * (config.pctRelayFee.val + 100) := by
    omega
  omega

theorem calculateCharge_free (env : Env) (config : RelayHubConfig) (some other limit : ℕ)
    (relayData : RelayData) (free : chargeableGasPrice env relayData = 0)
    (covered : calculateCharge env config some relayData = .ok limit) :
    calculateCharge env config other relayData = .ok limit := by
  obtain ⟨fee, _, percent, _, total, rfl⟩ :=
    (calculateCharge_ok env config some limit relayData).mp covered
  refine (calculateCharge_ok env config other _ relayData).mpr ?_
  simp only [free, Nat.mul_zero, Nat.zero_mul] at fee total ⊢
  exact ⟨fee, by decide, percent, by decide, total, trivial⟩

theorem measuredGas_ok (config : RelayHubConfig) (relayData : RelayData) (gas : GasReadings)
    (used : ℕ) :
    measuredGas config relayData gas = .ok used ↔
      let sum := relayData.transactionCalldataGasUsed.val + (gas.initial - gas.final)
      sum + config.gasOverhead.val < 2 ^ 256 ∧ sum + config.gasOverhead.val = used := by
  have ordered := gas.final_le_initial
  simp only [measuredGas, bind_ok, checkedSub_ok, checkedAdd_ok]
  constructor
  · rintro ⟨_, ⟨_, rfl⟩, _, ⟨_, rfl⟩, bound, rfl⟩
    exact ⟨bound, rfl⟩
  · rintro ⟨bound, rfl⟩
    exact ⟨_, ⟨ordered, rfl⟩, _, ⟨by omega, rfl⟩, bound, rfl⟩

/-- The measured charge stays within the charge for all the gas there was at the start, when
the configured overhead does. -/
theorem measured_charge_covered_iff (env : Env) (config : RelayHubConfig) (relayData : RelayData)
    (gas : GasReadings) (limit : ℕ)
    (fits : relayData.transactionCalldataGasUsed.val + gas.initial < 2 ^ 256)
    (covered : calculateCharge env config
      (relayData.transactionCalldataGasUsed.val + gas.initial) relayData = .ok limit) :
    (∃ used charge, measuredGas config relayData gas = .ok used ∧
      calculateCharge env config used relayData = .ok charge ∧ charge ≤ limit) ↔
    config.gasOverhead.val ≤ gas.final ∨ chargeableGasPrice env relayData = 0 ∧
      relayData.transactionCalldataGasUsed.val + (gas.initial - gas.final) + config.gasOverhead.val <
        2 ^ 256 := by
  constructor
  · rintro ⟨used, charge, measured, charged, within⟩
    obtain ⟨bound, rfl⟩ := (measuredGas_ok config relayData gas used).mp measured
    by_contra outside
    rw [not_or] at outside
    obtain ⟨more, priced⟩ := outside
    have priced : chargeableGasPrice env relayData ≠ 0 := fun free => priced ⟨free, bound⟩
    have larger := calculateCharge_strict env config _ _ charge limit relayData priced
      (by omega) covered charged
    omega
  · rintro (less | ⟨free, bound⟩)
    · have ordered : relayData.transactionCalldataGasUsed.val + (gas.initial - gas.final) +
          config.gasOverhead.val ≤ relayData.transactionCalldataGasUsed.val + gas.initial := by
        have down := gas.final_le_initial
        omega
      obtain ⟨charge, charged, within⟩ :=
        calculateCharge_mono env config _ _ limit relayData ordered covered
      exact ⟨_, charge, (measuredGas_ok config relayData gas _).mpr ⟨by omega, rfl⟩, charged, within⟩
    · exact ⟨_, limit, (measuredGas_ok config relayData gas _).mpr ⟨bound, rfl⟩,
        calculateCharge_free env config _ _ limit relayData free covered, Nat.le_refl limit⟩

end OpenGsn.RelayHub
