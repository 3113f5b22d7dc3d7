import OpenGsn.GsnTypes
import Mathlib.Data.Nat.Bitwise

/-! `HashcashPaymaster.sol` and the search of `HashCashApproval.ts` for an approval it takes. -/

namespace OpenGsn.Paymasters.Hashcash

open Solidity

/-! ## The client -/

inductive AbiValue : Type
  | address (account : Address)
  | uint256 (number : ℕ)
  | bytes32 (hash : Uint256)
  deriving DecidableEq, Repr

def AbiValue.number : AbiValue → ℕ
  | .address account => account.val
  | .uint256 number => number
  | .bytes32 hash => hash.val

def abiEncode (values : List AbiValue) : Bytes := (values.map fun value => word value.number).flatten

/-- `web3-eth-abi`, which throws on a number it cannot represent. -/
structure AbiCoder where
  encodeParameters : List AbiValue → Except String Bytes

/-- What it returns is the ABI encoding of values that fit their types. -/
def AbiCoder.Standard (abi : AbiCoder) : Prop :=
  ∀ values encoded, abi.encodeParameters values = .ok encoded →
    encoded = abiEncode values ∧ ∀ value ∈ values, value.number < 2 ^ 256

/-- The answers to the calls after each `hashNonce`: `found` signals that the search is done, and
`progress` goes on if it is answered `true`. -/
structure Callback where
  found : ℕ → Except String Unit
  progress : ℕ → Except String Bool

variable (abi : AbiCoder) (crypto : Crypto)

section Search

variable (senderAddress : Address) (senderNonce : Uint256) (difficulty : Fin (2 ^ 8)) (interval : Option ℕ)
  (callback : Option Callback)

def diffMax : ℕ := 2 ^ (256 - difficulty.val)

/-- `hashNonce++` on a double. -/
def increment (hashNonce : ℕ) : ℕ := if hashNonce < 2 ^ 53 then hashNonce + 1 else hashNonce

def signalDone (hashNonce : ℕ) : Except String Unit :=
  match callback with
  | none => .ok ()
  | some callback => callback.found hashNonce

def attempt (hashNonce : ℕ) : Except String (Option Bytes) := do
  let params ← abi.encodeParameters [.address senderAddress, .uint256 senderNonce.val, .uint256 hashNonce]
  let hash := crypto.keccak256 params
  if hash.val < diffMax difficulty then
    let _ ← signalDone callback hashNonce
    let approvalData ← abi.encodeParameters [.bytes32 hash, .uint256 hashNonce]
    .ok (some approvalData)
  else
    .ok none

/-- The next `intervalCount`, or `none` to abort. -/
def report (hashNonce intervalCount : ℕ) : Except String (Option ℕ) :=
  match interval with
  | none => .ok (some intervalCount)
  | some interval =>
      if interval < intervalCount then
        match callback with
        | none => .error "callback is not a function"
        | some callback => (callback.progress hashNonce).map fun goOn => if goOn then some 0 else none
      else
        .ok (some (intervalCount + 1))

/-- The loop, `none` if it is still running after so many rounds. -/
def search : ℕ → ℕ → ℕ → Option (Except String Bytes)
  | 0, _, _ => none
  | rounds + 1, hashNonce, intervalCount =>
      match attempt abi crypto senderAddress senderNonce difficulty callback hashNonce with
      | .error thrown => some (.error thrown)
      | .ok (some approvalData) => some (.ok approvalData)
      | .ok none =>
          match report interval callback (increment hashNonce) intervalCount with
          | .error thrown => some (.error thrown)
          | .ok none => some (.ok [])
          | .ok (some intervalCount) => search rounds (increment hashNonce) intervalCount

def calculateHashcash (rounds : ℕ) : Option (Except String Bytes) :=
  search abi crypto senderAddress senderNonce difficulty interval callback rounds 0 0

end Search

/-! ## The paymaster -/

def verifyApprovalData (approvalData : Bytes) : Except Revert Unit :=
  require (approvalData.length = 64) "approvalData: invalid length for hash and nonce"

/-- `abi.decode(approvalData, (bytes32, uint256))` -/
def decodeApproval (approvalData : Bytes) : Except Revert (ℕ × ℕ) :=
  if approvalData.length < 64 then .error (.data [])
  else .ok (readWord approvalData 0, readWord approvalData 32)

/-- `uint256(1) << bits` -/
def shiftedOne (bits : ℕ) : ℕ := 2 ^ bits % 2 ^ 256

def calcHash (request : ForwardRequest) (hashNonce : ℕ) : Uint256 :=
  crypto.keccak256 (abiEncode [.address request.sender, .uint256 request.nonce.val, .uint256 hashNonce])

def preRelayedCall (difficulty : Fin (2 ^ 8)) (relayRequest : RelayRequest) (approvalData : Bytes) :
    Except Revert (Bytes × Bool) := do
  let (hash, hashNonce) ← decodeApproval approvalData
  require (hash = (calcHash crypto relayRequest.request hashNonce).val) "wrong hash"
  require (hash < shiftedOne (256 - difficulty.val)) "difficulty not met"
  .ok ([], false)

def Accepted (difficulty : Fin (2 ^ 8)) (relayRequest : RelayRequest) (approvalData : Bytes) : Prop :=
  verifyApprovalData approvalData = .ok () ∧
    preRelayedCall crypto difficulty relayRequest approvalData = .ok ([], false)

/-! ## One threshold -/

def LeadingZeroBits (count hash : ℕ) : Prop := hash < 2 ^ 256 ∧ ∀ bit < count, hash.testBit (255 - bit) = false

theorem leadingZeroBits_of_lt (count hash : ℕ) (few : count ≤ 256) (low : hash < 2 ^ (256 - count)) :
    LeadingZeroBits count hash := by
  refine ⟨low.trans_le (Nat.pow_le_pow_right (by decide) (Nat.sub_le _ _)), fun bit high => ?_⟩
  apply Nat.testBit_eq_false_of_lt
  exact low.trans_le (Nat.pow_le_pow_right (by decide) (by omega))

/-- The shift agrees with the power, except that it leaves nothing of `1 << 256`. -/
theorem shiftedOne_eq (difficulty : Fin (2 ^ 8)) :
    shiftedOne (256 - difficulty.val) = if difficulty.val = 0 then 0 else diffMax difficulty := by
  unfold shiftedOne diffMax
  split
  next zero => rw [zero, Nat.sub_zero, Nat.mod_self]
  next positive => exact Nat.mod_eq_of_lt (Nat.pow_lt_pow_right (by decide) (by omega))

theorem shiftedOne_le (difficulty : Fin (2 ^ 8)) : shiftedOne (256 - difficulty.val) ≤ 2 ^ (256 - difficulty.val) :=
  Nat.mod_le _ _

theorem preRelayedCall_ok (difficulty : Fin (2 ^ 8)) (relayRequest : RelayRequest) (approvalData : Bytes) :
    preRelayedCall crypto difficulty relayRequest approvalData = .ok ([], false) ↔
      64 ≤ approvalData.length ∧
      readWord approvalData 0 = (calcHash crypto relayRequest.request (readWord approvalData 32)).val ∧
      readWord approvalData 0 < shiftedOne (256 - difficulty.val) := by
  simp only [preRelayedCall, decodeApproval]
  by_cases short : approvalData.length < 64
  · simp [short]
  · simp [short, Nat.le_of_not_lt short]

theorem accepted_leadingZeroBits (difficulty : Fin (2 ^ 8)) (relayRequest : RelayRequest) (approvalData : Bytes)
    (accepted : Accepted crypto difficulty relayRequest approvalData) :
    LeadingZeroBits difficulty.val (calcHash crypto relayRequest.request (readWord approvalData 32)).val := by
  obtain ⟨_, same, low⟩ := (preRelayedCall_ok crypto difficulty relayRequest approvalData).mp accepted.2
  rw [same] at low
  exact leadingZeroBits_of_lt _ _ (by omega) (low.trans_le (shiftedOne_le difficulty))

/-! ## What the search returns -/

section Returned

variable (senderAddress : Address) (senderNonce : Uint256) (difficulty : Fin (2 ^ 8)) (interval : Option ℕ)
  (callback : Option Callback)

def approvalOf (hash : Uint256) (hashNonce : ℕ) : Bytes := word hash.val ++ word hashNonce

theorem readWord_approvalOf (hash : Uint256) (hashNonce : ℕ) (small : hashNonce < 2 ^ 256) :
    readWord (approvalOf hash hashNonce) 0 = hash.val ∧ readWord (approvalOf hash hashNonce) 32 = hashNonce := by
  constructor
  · simpa [approvalOf] using readWord_word [] (word hashNonce) hash.val hash.isLt
  · simpa [approvalOf] using readWord_word (word hash.val) [] hashNonce small

theorem attempt_ok (standard : abi.Standard) (hashNonce : ℕ) (approvalData : Bytes)
    (found : attempt abi crypto senderAddress senderNonce difficulty callback hashNonce = .ok (some approvalData)) :
    hashNonce < 2 ^ 256 ∧ ∃ hash : Uint256, approvalData = approvalOf hash hashNonce ∧
      hash = crypto.keccak256 (abiEncode [.address senderAddress, .uint256 senderNonce.val, .uint256 hashNonce]) ∧
      hash.val < diffMax difficulty := by
  simp only [attempt, bind_ok] at found
  obtain ⟨params, encoded, found⟩ := found
  obtain ⟨packed, fits⟩ := standard _ _ encoded
  have small : hashNonce < 2 ^ 256 := fits (.uint256 hashNonce) (by simp)
  by_cases low : (crypto.keccak256 params).val < diffMax difficulty
  · rw [if_pos low] at found
    simp only [bind_ok, Except.ok.injEq, Option.some.injEq] at found
    obtain ⟨_, _, approval, made, rfl⟩ := found
    refine ⟨small, crypto.keccak256 params, ?_, by rw [packed], low⟩
    rw [(standard _ _ made).1]
    exact congrArg (word _ ++ ·) (List.append_nil _)
  · rw [if_neg low] at found
    cases found

theorem search_ok (rounds hashNonce intervalCount : ℕ) (output : Bytes)
    (returned : search abi crypto senderAddress senderNonce difficulty interval callback rounds hashNonce
      intervalCount = some (.ok output)) :
    output = [] ∨ ∃ tried,
      attempt abi crypto senderAddress senderNonce difficulty callback tried = .ok (some output) := by
  induction rounds generalizing hashNonce intervalCount with
  | zero => cases returned
  | succ rounds ih =>
      unfold search at returned
      split at returned
      next => cases returned
      next found =>
        cases returned
        exact .inr ⟨hashNonce, found⟩
      next =>
        split at returned
        next => cases returned
        next =>
          cases returned
          exact .inl rfl
        next => exact ih _ _ returned

end Returned

theorem accepted_approvalOf (difficulty : Fin (2 ^ 8)) (relayRequest : RelayRequest) (hash : Uint256) (hashNonce : ℕ)
    (small : hashNonce < 2 ^ 256) (hashed : hash = calcHash crypto relayRequest.request hashNonce) :
    Accepted crypto difficulty relayRequest (approvalOf hash hashNonce) ↔
      hash.val < shiftedOne (256 - difficulty.val) := by
  have length : (approvalOf hash hashNonce).length = 64 := by simp [approvalOf]
  have read := readWord_approvalOf hash hashNonce small
  rw [Accepted, verifyApprovalData, require_ok, preRelayedCall_ok, read.1, read.2, length, ← hashed]
  simp

/-- An approval made for a difficulty of at least the paymaster's passes, unless the paymaster asks
for none. -/
theorem accepted_iff_of_low (client paymaster : Fin (2 ^ 8)) (harder : paymaster ≤ client) (relayRequest : RelayRequest)
    (hash : Uint256) (hashNonce : ℕ) (small : hashNonce < 2 ^ 256)
    (hashed : hash = calcHash crypto relayRequest.request hashNonce) (low : hash.val < diffMax client) :
    Accepted crypto paymaster relayRequest (approvalOf hash hashNonce) ↔ 1 ≤ paymaster.val := by
  rw [accepted_approvalOf crypto paymaster relayRequest hash hashNonce small hashed, shiftedOne_eq]
  by_cases zero : paymaster.val = 0
  · simp [zero]
  · have lower : diffMax client ≤ diffMax paymaster := by
      have exponent : 256 - client.val ≤ 256 - paymaster.val := Nat.sub_le_sub_left harder 256
      exact Nat.pow_le_pow_right (by decide) exponent
    rw [if_neg zero]
    exact ⟨fun _ => Nat.one_le_iff_ne_zero.mpr zero, fun _ => low.trans_le lower⟩

theorem calculateHashcash_accepted_iff (standard : abi.Standard) (client paymaster : Fin (2 ^ 8))
    (harder : paymaster ≤ client) (relayRequest : RelayRequest) (interval : Option ℕ) (callback : Option Callback)
    (rounds : ℕ) (output : Bytes)
    (returned : calculateHashcash abi crypto relayRequest.request.sender relayRequest.request.nonce client interval
      callback rounds = some (.ok output)) (completed : output ≠ []) :
    (Accepted crypto paymaster relayRequest output ↔ 1 ≤ paymaster.val) ∧
      ∀ (other : RelayRequest) (approvalData : Bytes), Accepted crypto paymaster other approvalData →
        LeadingZeroBits paymaster.val (calcHash crypto other.request (readWord approvalData 32)).val := by
  refine ⟨?_, fun other approvalData => accepted_leadingZeroBits crypto paymaster other approvalData⟩
  obtain ⟨tried, found⟩ := (search_ok abi crypto _ _ client interval callback rounds 0 0 output returned).resolve_left
    completed
  obtain ⟨small, hash, approval, hashed, low⟩ := attempt_ok abi crypto _ _ client callback standard tried output found
  rw [approval]
  exact accepted_iff_of_low crypto client paymaster harder relayRequest hash tried small hashed low

def sampleCoder : AbiCoder where
  encodeParameters values :=
    if values.all fun value => value.number < 2 ^ 256 then .ok (abiEncode values) else .error "value out-of-bounds"

theorem sampleCoder_standard : sampleCoder.Standard := by
  intro values encoded made
  simp only [sampleCoder] at made
  split at made
  next fits =>
    exact ⟨(Except.ok.inj made).symm, fun value member =>
      of_decide_eq_true (List.all_eq_true.mp fits value member)⟩
  next => cases made

def sampleRelayRequest : RelayRequest := ⟨⟨7, 8, 0, 1, 5, [], 0⟩, ⟨1, 1, 1, 2, 3, 4, [], 1⟩⟩

def fourthCrypto : Crypto :=
  { sampleCrypto with keccak256 := fun bytes => Fin.ofNat (2 ^ 256) ((ofBigEndian bytes + 1) * 2 ^ 254) }

def goingOn : Callback := ⟨fun _ => .ok (), fun _ => .ok true⟩

theorem calculateHashcash_accepted_iff_fourth :
    calculateHashcash sampleCoder fourthCrypto 7 5 8 (some 1) (some goingOn) 3 = none ∧
    (Accepted fourthCrypto 3 sampleRelayRequest (word 0 ++ word 3) ↔ 1 ≤ (3 : Fin (2 ^ 8)).val) ∧
      ∀ (other : RelayRequest) (approvalData : Bytes), Accepted fourthCrypto 3 other approvalData →
        LeadingZeroBits (3 : Fin (2 ^ 8)).val
          (calcHash fourthCrypto other.request (readWord approvalData 32)).val :=
  ⟨by decide +kernel,
    calculateHashcash_accepted_iff sampleCoder fourthCrypto sampleCoder_standard 8 3 (by decide) sampleRelayRequest
      (some 1) (some goingOn) 4 (word 0 ++ word 3) (by decide +kernel) (by decide)⟩

theorem zeroDifficulty_rejects :
    calculateHashcash sampleCoder sampleCrypto sampleRelayRequest.request.sender sampleRelayRequest.request.nonce 0 none
        none 1 = some (.ok (word 0 ++ word 0)) ∧
      verifyApprovalData (word 0 ++ word 0) = .ok () ∧
      preRelayedCall sampleCrypto 0 sampleRelayRequest (word 0 ++ word 0) = .error (.reason "difficulty not met") := by
  refine ⟨?_, ?_, ?_⟩
  · decide +kernel
  · decide +kernel
  · decide +kernel

end OpenGsn.Paymasters.Hashcash
