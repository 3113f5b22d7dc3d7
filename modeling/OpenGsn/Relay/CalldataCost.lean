import OpenGsn.ContractInteractor

/-! The gas that a client signs for call data, and what a server computes for the same call. -/

namespace OpenGsn.Relay

open Solidity

variable (environment : Environment) (selector : Bytes)

def assignWorker (relayWorkerAddress : Address) (relayRequest : RelayRequest) : RelayRequest :=
  { relayRequest with relayData := { relayRequest.relayData with relayWorker := relayWorkerAddress } }

/-- `fillRelayInfo` of `RelayClient.ts` -/
def fillRelayInfo (domainSeparatorName : Bytes) (sizes : VariableFieldSizes) (relayWorkerAddress : Address)
    (relayRequest : RelayRequest) : RelayRequest :=
  let assigned := assignWorker relayWorkerAddress relayRequest
  { assigned with
    relayData := { assigned.relayData with
      transactionCalldataGasUsed := Fin.ofNat (2 ^ 256)
        (estimateCalldataCostForRequest environment selector domainSeparatorName assigned sizes) } }

theorem calculateCalldataCost_eq (msgData : Bytes)
    (ratio : environment.gtxdatanonzero = 4 * environment.gtxdatazero) :
    calculateCalldataCost environment msgData = environment.gtxdatazero * weight msgData := by
  rw [calculateCalldataCost, ratio, weight]
  ring

/-- A word below `2 ^ 40` weighs no more than the one that stands for it. -/
theorem weight_word_placeholder (n : ℕ) (small : n < 2 ^ 40) : weight (word n) ≤ weight (word 0xffffffffff) := by
  have light := weight_word_le n 5 (by norm_num at small ⊢; exact small)
  have full : weight (word 0xffffffffff) = 47 := by decide +kernel
  omega

theorem weight_offset_word (offset saved : ℕ) (small : offset < 2 ^ 40) (positive : 0 < offset + saved)
    (fits : offset + saved < 2 ^ 40) : weight (word offset) ≤ weight (word (offset + saved)) + 12 := by
  have light := weight_word_le offset 5 (by norm_num at small ⊢; exact small)
  have heavy := weight_word_pos (offset + saved) positive (by norm_num at fits ⊢; omega)
  omega

def savedRoom (sizes : VariableFieldSizes) (relayData : RelayData) : ℕ :=
  padded sizes.maxPaymasterDataLength - padded relayData.paymasterData.length

theorem weight_encodeForwardRequest (request : ForwardRequest) :
    weight (encodeForwardRequest request) =
      weight (word request.sender.val) + weight (word request.recipient.val) +
        weight (word request.value.val) + weight (word request.gas.val) + weight (word request.nonce.val) +
        weight (word 224) + weight (word request.validUntilTime.val) + weight (bytesTail request.data) := by
  simp only [encodeForwardRequest, encodeTuple, encodeHeads, Part.headLength, Part.tail, weight_append,
    List.map_cons, List.map_nil, List.flatten_cons, List.flatten_nil, weight_nil, List.sum_cons,
    List.sum_nil, word_length, Nat.reduceAdd]
  omega

theorem encodeForwardRequest_length (request : ForwardRequest) :
    (encodeForwardRequest request).length = 256 + padded request.data.length := by
  simp [encodeForwardRequest, encodeTuple, encodeHeads, Part.headLength, Part.tail]
  omega

theorem weight_encodeRelayData (relayData : RelayData) :
    weight (encodeRelayData relayData) =
      weight (word relayData.maxFeePerGas.val) + weight (word relayData.maxPriorityFeePerGas.val) +
        weight (word relayData.transactionCalldataGasUsed.val) + weight (word relayData.relayWorker.val) +
        weight (word relayData.paymaster.val) + weight (word relayData.forwarder.val) + weight (word 256) +
        weight (word relayData.clientId.val) + weight (bytesTail relayData.paymasterData) := by
  simp only [encodeRelayData, encodeTuple, encodeHeads, Part.headLength, Part.tail, weight_append,
    List.map_cons, List.map_nil, List.flatten_cons, List.flatten_nil, weight_nil, List.sum_cons,
    List.sum_nil, word_length, Nat.reduceAdd]
  omega

theorem encodeRelayData_length (relayData : RelayData) :
    (encodeRelayData relayData).length = 288 + padded relayData.paymasterData.length := by
  simp [encodeRelayData, encodeTuple, encodeHeads, Part.headLength, Part.tail]
  omega

theorem weight_encodeRelayRequest (relayRequest : RelayRequest) :
    weight (encodeRelayRequest relayRequest) =
      weight (word 64) + weight (word (64 + (encodeForwardRequest relayRequest.request).length)) +
        weight (encodeForwardRequest relayRequest.request) + weight (encodeRelayData relayRequest.relayData) := by
  simp only [encodeRelayRequest, encodeTuple, encodeHeads, Part.headLength, Part.tail, weight_append,
    List.map_cons, List.map_nil, List.flatten_cons, List.flatten_nil, weight_nil, List.sum_cons,
    List.sum_nil, Nat.reduceAdd]
  omega

theorem encodeRelayRequest_length (relayRequest : RelayRequest) :
    (encodeRelayRequest relayRequest).length =
      64 + (encodeForwardRequest relayRequest.request).length +
        (encodeRelayData relayRequest.relayData).length := by
  simp [encodeRelayRequest, encodeTuple, encodeHeads, Part.headLength, Part.tail]
  omega

/-- The largest relay data are longer by the room saved, and weigh at least that much more. -/
theorem maximalRelayData_heavier (sizes : VariableFieldSizes) (relayData : RelayData)
    (inside : relayData.paymasterData.length ≤ sizes.maxPaymasterDataLength)
    (bounded : sizes.maxPaymasterDataLength ≤ 65536)
    (small : relayData.transactionCalldataGasUsed.val < 2 ^ 40) :
    (encodeRelayData (maximalRelayData sizes relayData)).length =
      (encodeRelayData relayData).length + savedRoom sizes relayData ∧
    weight (encodeRelayData relayData) + savedRoom sizes relayData ≤
      weight (encodeRelayData (maximalRelayData sizes relayData)) := by
  have grown := padded_mono _ _ inside
  have used := weight_word_placeholder _ small
  have data := weight_bytesTail_le relayData.paymasterData _ 0xff (by decide) inside bounded
  have placeholder : (0xffffffffff : Uint256).val = 0xffffffffff := rfl
  rw [encodeRelayData_length, encodeRelayData_length, weight_encodeRelayData, weight_encodeRelayData]
  simp only [maximalRelayData, savedRoom, placeholder, List.length_replicate]
  omega

def signatureOffset (call : RelayCallABI) : ℕ :=
  160 + (bytesTail call.domainSeparatorName).length + (encodeRelayRequest call.relayRequest).length

theorem weight_encodeABI (call : RelayCallABI) :
    weight (encodeABI selector call) =
      weight selector + weight (word 160) + weight (word call.maxAcceptanceBudget) +
        weight (word (160 + (bytesTail call.domainSeparatorName).length)) +
        weight (word (signatureOffset call)) +
        weight (word (signatureOffset call + (bytesTail call.signature).length)) +
        weight (bytesTail call.domainSeparatorName) + weight (encodeRelayRequest call.relayRequest) +
        weight (bytesTail call.signature) + weight (bytesTail call.approvalData) := by
  simp only [encodeABI, encodeTuple, encodeHeads, Part.headLength, Part.tail, weight_append, List.map_cons,
    List.map_nil, List.flatten_cons, List.flatten_nil, weight_nil, List.sum_cons, List.sum_nil, word_length,
    signatureOffset, Nat.reduceAdd]
  omega

theorem signature_inside (call : RelayCallABI) :
    signatureOffset call + (bytesTail call.signature).length < weight (encodeABI selector call) := by
  have name := length_le_weight (bytesTail call.domainSeparatorName)
  have request := length_le_weight (encodeRelayRequest call.relayRequest)
  have signature := length_le_weight (bytesTail call.signature)
  have heads : ∀ n, 32 ≤ weight (word n) := by
    intro n
    have long := length_le_weight (word n)
    rwa [word_length] at long
  have head0 := heads 160
  have head1 := heads call.maxAcceptanceBudget
  have head2 := heads (160 + (bytesTail call.domainSeparatorName).length)
  have head3 := heads (signatureOffset call)
  have head4 := heads (signatureOffset call + (bytesTail call.signature).length)
  have approval := length_le_weight (bytesTail call.approvalData)
  rw [bytesTail_length] at approval
  rw [weight_encodeABI]
  rw [signatureOffset] at *
  omega

theorem weight_maximalCall (sizes : VariableFieldSizes) (call : RelayCallABI)
    (paymasterInside : call.relayRequest.relayData.paymasterData.length ≤ sizes.maxPaymasterDataLength)
    (approvalInside : call.approvalData.length ≤ sizes.maxApprovalDataLength)
    (paymasterBounded : sizes.maxPaymasterDataLength ≤ 65536)
    (approvalBounded : sizes.maxApprovalDataLength ≤ 65536)
    (signed : call.signature.length = 65) (budget : call.maxAcceptanceBudget < 2 ^ 40)
    (used : call.relayRequest.relayData.transactionCalldataGasUsed.val < 2 ^ 40)
    (small : weight (encodeABI selector (maximalCall call.domainSeparatorName call.relayRequest sizes)) < 2 ^ 40) :
    weight (encodeABI selector call) ≤
      weight (encodeABI selector (maximalCall call.domainSeparatorName call.relayRequest sizes)) := by
  have budgetWord := weight_word_placeholder call.maxAcceptanceBudget budget
  obtain ⟨longer, heavier⟩ := maximalRelayData_heavier sizes call.relayRequest.relayData paymasterInside
    paymasterBounded used
  have approval := weight_bytesTail_le call.approvalData _ 0xff (by decide) approvalInside approvalBounded
  have signature := weight_bytesTail_le call.signature 65 0xff (by decide) (by omega) (by decide)
  have signatureLength : (bytesTail call.signature).length = (bytesTail (List.replicate 65 0xff)).length := by
    simp [signed]
  have offset : signatureOffset (maximalCall call.domainSeparatorName call.relayRequest sizes) =
      signatureOffset call + savedRoom sizes call.relayRequest.relayData := by
    simp only [signatureOffset, maximalCall, encodeRelayRequest_length, longer]
    omega
  have aligned : 32 ∣ savedRoom sizes call.relayRequest.relayData :=
    Nat.dvd_sub (padded_aligned _) (padded_aligned _)
  have positive : 160 ≤ signatureOffset call := by
    rw [signatureOffset]
    omega
  have last : signatureOffset call + savedRoom sizes call.relayRequest.relayData +
      (bytesTail call.signature).length < 2 ^ 40 := by
    have inside := signature_inside selector (maximalCall call.domainSeparatorName call.relayRequest sizes)
    rw [offset] at inside
    rw [signatureLength]
    exact Nat.lt_trans inside small
  rw [weight_encodeABI, weight_encodeABI, offset, weight_encodeRelayRequest, weight_encodeRelayRequest]
  simp only [maximalCall]
  rw [← signatureLength]
  rcases Nat.eq_zero_or_pos (savedRoom sizes call.relayRequest.relayData) with none | some
  · rw [none] at heavier ⊢
    simp only [Nat.add_zero]
    omega
  · -- two offsets may gain twelve each, and at least 32 are saved
    have saved := Nat.le_of_dvd some aligned
    have signatureWord := weight_offset_word (signatureOffset call) (savedRoom sizes call.relayRequest.relayData)
      (by omega) (by omega) (by omega)
    have approvalWord := weight_offset_word (signatureOffset call + (bytesTail call.signature).length)
      (savedRoom sizes call.relayRequest.relayData) (by omega) (by omega) (by omega)
    rw [Nat.add_right_comm (signatureOffset call) (savedRoom sizes call.relayRequest.relayData)]
    omega

/-- An estimate that fits into the bytes put for it in the largest call covers every call that
the request can become. -/
theorem calldata_cost_covered (domainSeparatorName signature approvalData : Bytes)
    (sizes : VariableFieldSizes) (relayWorkerAddress : Address) (relayRequest : RelayRequest)
    (maxAcceptanceBudget : ℕ)
    (ratio : environment.gtxdatanonzero = 4 * environment.gtxdatazero)
    (paymasterInside : relayRequest.relayData.paymasterData.length ≤ sizes.maxPaymasterDataLength)
    (approvalInside : approvalData.length ≤ sizes.maxApprovalDataLength)
    (paymasterBounded : sizes.maxPaymasterDataLength ≤ 65536)
    (approvalBounded : sizes.maxApprovalDataLength ≤ 65536)
    (signed : signature.length = 65) (budget : maxAcceptanceBudget < 2 ^ 40)
    (small : estimateCalldataCostForRequest environment selector domainSeparatorName
      (assignWorker relayWorkerAddress relayRequest) sizes < 2 ^ 40) :
    let filled := fillRelayInfo environment selector domainSeparatorName sizes relayWorkerAddress relayRequest
    calculateCalldataCost environment (encodeABI selector
        ⟨domainSeparatorName, maxAcceptanceBudget, filled, signature, approvalData⟩) ≤
      filled.relayData.transactionCalldataGasUsed.val := by
  intro filled
  have used : filled.relayData.transactionCalldataGasUsed.val =
      estimateCalldataCostForRequest environment selector domainSeparatorName
        (assignWorker relayWorkerAddress relayRequest) sizes :=
    Nat.mod_eq_of_lt (Nat.lt_trans small (by decide))
  have same : maximalCall domainSeparatorName filled sizes =
      maximalCall domainSeparatorName (assignWorker relayWorkerAddress relayRequest) sizes := rfl
  rw [used]
  rw [estimateCalldataCostForRequest, calculateCalldataCost_eq environment _ ratio] at *
  rw [calculateCalldataCost_eq environment _ ratio]
  rcases Nat.eq_zero_or_pos environment.gtxdatazero with free | priced
  · rw [free, Nat.zero_mul]
    exact Nat.zero_le _
  · apply Nat.mul_le_mul_left
    have bound : weight (encodeABI selector (maximalCall domainSeparatorName filled sizes)) < 2 ^ 40 :=
      Nat.lt_of_le_of_lt (Nat.le_mul_of_pos_left _ priced) (same ▸ small)
    have usedSmall : filled.relayData.transactionCalldataGasUsed.val < 2 ^ 40 := by
      rw [used]
      exact small
    rw [← same]
    exact weight_maximalCall selector sizes
      ⟨domainSeparatorName, maxAcceptanceBudget, filled, signature, approvalData⟩ paymasterInside
      approvalInside paymasterBounded approvalBounded signed budget usedSmall bound

def fullRequest (length : ℕ) : RelayRequest :=
  ⟨⟨2, 3, 0, 100000, 0, List.replicate length 0xff, 0⟩, ⟨30, 2, 0, 0, 5, 6, [], 1⟩⟩

def fullSignature : Bytes := List.replicate 65 0xff

theorem calldata_cost_covered_sample :
    let filled := fillRelayInfo ethereumMainnet [1, 2, 3, 4] [0x47] ⟨32, 0⟩ 7 (fullRequest 3)
    calculateCalldataCost ethereumMainnet (encodeABI [1, 2, 3, 4]
        ⟨[0x47], 285252, filled, fullSignature, [1, 2]⟩) ≤
      filled.relayData.transactionCalldataGasUsed.val :=
  calldata_cost_covered ethereumMainnet [1, 2, 3, 4] [0x47] fullSignature [1, 2] ⟨32, 0⟩ 7 (fullRequest 3)
    285252 rfl (by decide) (by decide) (by decide) (by decide) (by decide) (by decide) (by decide +kernel)

def fineGrained : Environment := ⟨3999999999, 15999999996, 13⟩

/-- The estimate takes six bytes, where the largest call has five. -/
theorem fine_grained_request_refused :
    let filled := fillRelayInfo fineGrained [1, 2, 3, 4] [0x47] ⟨0, 0⟩ 7 (fullRequest 3)
    fineGrained.gtxdatanonzero = 4 * fineGrained.gtxdatazero ∧
    filled.relayData.transactionCalldataGasUsed.val <
      calculateCalldataCost fineGrained (encodeABI [1, 2, 3, 4]
        ⟨[0x47], 0xffffffffff, filled, fullSignature, []⟩) := by
  decide +kernel

end OpenGsn.Relay
