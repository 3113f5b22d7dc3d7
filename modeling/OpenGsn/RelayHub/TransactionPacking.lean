import OpenGsn.RelayHub.RelayCall
import OpenGsn.Relay.CalldataCost
import OpenGsn.Solidity.CalldataDecoder

/-! `RelayHubValidator.sol` on the call data of `relayCall`, decoded as the contract decodes it. -/

namespace OpenGsn.RelayHub

open Solidity Relay

section Decoder

variable (data : Bytes) (base : ℕ)

def decodeForwardRequest : Except Revert ForwardRequest := do
  let sender ← calldataAddress data base
  let recipient ← calldataAddress data (base + 32)
  let body ← accessBytes data base 160
  .ok {
    sender
    recipient
    value := calldataUint256 data (base + 64)
    gas := calldataUint256 data (base + 96)
    nonce := calldataUint256 data (base + 128)
    data := body
    validUntilTime := calldataUint256 data (base + 192) }

def decodeRelayData : Except Revert RelayData := do
  let relayWorker ← calldataAddress data (base + 96)
  let paymaster ← calldataAddress data (base + 128)
  let forwarder ← calldataAddress data (base + 160)
  let paymasterData ← accessBytes data base 192
  .ok {
    maxFeePerGas := calldataUint256 data base
    maxPriorityFeePerGas := calldataUint256 data (base + 32)
    transactionCalldataGasUsed := calldataUint256 data (base + 64)
    relayWorker
    paymaster
    forwarder
    paymasterData
    clientId := calldataUint256 data (base + 224) }

def decodeRelayRequest : Except Revert RelayRequest := do
  let request ← accessTail data base 0 224
  let request ← decodeForwardRequest data request
  let relayData ← accessTail data base 32 256
  let relayData ← decodeRelayData data relayData
  .ok ⟨request, relayData⟩

def decodeRelayCall : Except Revert RelayCallArgs := do
  if data.length < 4 + 160 then
    .error (.data [])
  else
    let domainSeparatorName ← argumentBytes data 4 0
    let relayRequest ← argumentStruct data 4 64 64
    let signature ← argumentBytes data 4 96
    let approvalData ← argumentBytes data 4 128
    let relayRequest ← decodeRelayRequest data relayRequest
    .ok {
      domainSeparatorName
      maxAcceptanceBudget := calldataUint256 data (4 + 32)
      relayRequest
      signature
      approvalData
      msgDataLength := data.length }

end Decoder

/-- The sum of the sizes is rounded with a mask in the source. -/
theorem dynamicParamSize_masked (buf : Bytes) (short : buf.length + 31 < 2 ^ 256) :
    dynamicParamSize buf = 32 + ((buf.length + 31) &&& (uint256Max - 31)) := by
  have mask : ∀ bit, (uint256Max - 31).testBit bit = (decide (5 ≤ bit) && decide (bit < 256)) := by
    intro bit
    have shape : uint256Max - 31 = (2 ^ 251 - 1) * 2 ^ 5 := by decide
    rw [shape, Nat.testBit_mul_two_pow, Nat.testBit_two_pow_sub_one]
    by_cases high : 5 ≤ bit
    · have range : bit - 5 < 251 ↔ bit < 256 := by omega
      simp [high, range]
    · simp [high]
  have rounded : (buf.length + 31) / 32 * 32 = (buf.length + 31) &&& (uint256Max - 31) := by
    apply Nat.eq_of_testBit_eq
    intro bit
    rw [Nat.testBit_and, mask, show 32 = 2 ^ 5 from rfl, Nat.testBit_mul_two_pow, Nat.testBit_div_two_pow]
    by_cases high : 5 ≤ bit
    · by_cases inside : bit < 256
      · simp [high, inside, Nat.sub_add_cancel high]
      · have beyond : (buf.length + 31).testBit bit = false := by
          apply Nat.testBit_lt_two_pow
          calc buf.length + 31 < 2 ^ 256 := short
            _ ≤ 2 ^ bit := Nat.pow_le_pow_right (by decide) (by omega)
        simp [high, inside, Nat.sub_add_cancel high, beyond]
    · simp [high]
  rw [dynamicParamSize, rounded]

theorem dynamicParamSize_bytesTail (buf : Bytes) : dynamicParamSize buf = (bytesTail buf).length := by
  simp only [dynamicParamSize, bytesTail_length, padded, padding]
  omega

def RelayCallArgs.call (args : RelayCallArgs) : RelayCallABI :=
  ⟨args.domainSeparatorName, args.maxAcceptanceBudget.val, args.relayRequest, args.signature,
    args.approvalData⟩

variable (selector : Bytes)

theorem encodeABI_length (call : RelayCallABI) :
    (encodeABI selector call).length =
      selector.length + 160 + (bytesTail call.domainSeparatorName).length +
        (encodeRelayRequest call.relayRequest).length + (bytesTail call.signature).length +
        (bytesTail call.approvalData).length := by
  simp [encodeABI, encodeTuple, encodeHeads, Part.headLength, Part.tail]
  omega

/-- The check compares the length of the call data with that of the encoding. -/
theorem verifyTransactionPacking_ok (four : selector.length = 4) (args : RelayCallArgs) :
    verifyTransactionPacking args = .ok () ↔
      args.signature.length ≤ 65 ∧ args.msgDataLength = (encodeABI selector args.call).length := by
  have expected : 4 + 22 * 32 + dynamicParamSize args.domainSeparatorName +
      dynamicParamSize args.signature + dynamicParamSize args.approvalData +
      dynamicParamSize args.relayRequest.request.data +
      dynamicParamSize args.relayRequest.relayData.paymasterData = (encodeABI selector args.call).length := by
    simp only [dynamicParamSize_bytesTail, encodeABI_length, encodeRelayRequest_length,
      encodeForwardRequest_length, encodeRelayData_length, four, RelayCallArgs.call, bytesTail_length]
    omega
  rw [@eq_comm _ args.msgDataLength]
  simp [verifyTransactionPacking, expected]

theorem decodeForwardRequest_encoded (data : Bytes) (base : ℕ) (request : ForwardRequest)
    (small : data.length < 2 ^ 64) (stands : Stands data base (encodeForwardRequest request)) :
    decodeForwardRequest data base = .ok request := by
  simp only [encodeForwardRequest, encodeTuple, encodeHeads, Part.headLength, Part.tail, stands_append,
    List.map_cons, List.map_nil, List.sum_cons, List.sum_nil, List.flatten_cons, List.flatten_nil,
    List.nil_append, List.append_nil, List.length_append, word_length, Nat.add_assoc,
    Nat.reduceAdd] at stands
  obtain ⟨⟨sender, recipient, value, gas, nonce, offset, validUntilTime⟩, contents⟩ := stands
  have body := accessBytes_stands data small base 160 224 _ request.data rfl offset contents
  simp only [decodeForwardRequest, calldataAddress_word data _ _ sender,
    calldataAddress_word data _ _ recipient, calldataUint256_word data _ _ value,
    calldataUint256_word data _ _ gas, calldataUint256_word data _ _ nonce,
    calldataUint256_word data _ _ validUntilTime, body, bind, Except.bind]

theorem decodeRelayData_encoded (data : Bytes) (base : ℕ) (relayData : RelayData)
    (small : data.length < 2 ^ 64) (stands : Stands data base (encodeRelayData relayData)) :
    decodeRelayData data base = .ok relayData := by
  simp only [encodeRelayData, encodeTuple, encodeHeads, Part.headLength, Part.tail, stands_append,
    List.map_cons, List.map_nil, List.sum_cons, List.sum_nil, List.flatten_cons, List.flatten_nil,
    List.nil_append, List.append_nil, List.length_append, word_length, Nat.add_assoc,
    Nat.reduceAdd] at stands
  obtain ⟨⟨maxFeePerGas, maxPriorityFeePerGas, used, relayWorker, paymaster, forwarder, offset,
    clientId⟩, contents⟩ := stands
  have body := accessBytes_stands data small base 192 256 _ relayData.paymasterData rfl offset contents
  simp only [decodeRelayData, calldataAddress_word data _ _ relayWorker,
    calldataAddress_word data _ _ paymaster, calldataAddress_word data _ _ forwarder,
    calldataUint256_word data _ _ maxFeePerGas, calldataUint256_word data _ _ maxPriorityFeePerGas,
    calldataUint256_word data _ _ used, calldataUint256_word data _ _ clientId, body, bind, Except.bind]

theorem decodeRelayRequest_encoded (data : Bytes) (base : ℕ) (relayRequest : RelayRequest)
    (small : data.length < 2 ^ 64) (stands : Stands data base (encodeRelayRequest relayRequest)) :
    decodeRelayRequest data base = .ok relayRequest := by
  have requestLength := encodeForwardRequest_length relayRequest.request
  have relayDataLength := encodeRelayData_length relayRequest.relayData
  simp only [encodeRelayRequest, encodeTuple, encodeHeads, Part.headLength, Part.tail, stands_append,
    List.map_cons, List.map_nil, List.sum_cons, List.sum_nil, List.flatten_cons, List.flatten_nil,
    List.append_nil, List.length_append, word_length, Nat.add_assoc,
    Nat.reduceAdd] at stands
  obtain ⟨⟨requestOffset, relayDataOffset⟩, request, relayData⟩ := stands
  have requestPlace := accessTail_stands data small base 0 224 64 _ _ (by omega) (by omega) rfl
    requestOffset request
  have relayDataPlace := accessTail_stands data small base 32 256 _ _ _ (by omega) (by omega) (by omega)
    relayDataOffset relayData
  simp only [decodeRelayRequest, requestPlace, relayDataPlace,
    decodeForwardRequest_encoded data _ _ small request, decodeRelayData_encoded data _ _ small relayData,
    bind, Except.bind]

theorem decodeRelayCall_encodeABI (four : selector.length = 4) (args : RelayCallArgs)
    (length : args.msgDataLength = (encodeABI selector args.call).length)
    (small : args.msgDataLength < 2 ^ 64) :
    decodeRelayCall (encodeABI selector args.call) = .ok args := by
  have requestLength := encodeRelayRequest_length args.relayRequest
  obtain ⟨data, same⟩ : ∃ data, data = encodeABI selector args.call := ⟨_, rfl⟩
  have stands : Stands data 0 (encodeABI selector args.call) := by
    rw [same]
    exact List.prefix_refl _
  rw [← same] at length ⊢
  rw [length] at small
  have inside := stands_inside data 0 _ (by simp [encodeABI, four]) stands
  rw [encodeABI_length, four] at inside
  simp only [encodeABI, encodeTuple, encodeHeads, Part.headLength, Part.tail, stands_append,
    List.map_cons, List.map_nil, List.sum_cons, List.sum_nil, List.flatten_cons, List.flatten_nil,
    List.nil_append, List.append_nil, List.length_append, word_length, Nat.add_assoc,
    Nat.reduceAdd, four, Nat.zero_add, RelayCallArgs.call] at stands
  obtain ⟨_, ⟨nameOffset, budget, requestOffset, signatureOffset, approvalOffset⟩, name, request,
    signature, approval⟩ := stands
  have long : ¬ args.msgDataLength < 4 + 160 := by omega
  have nameRead := argumentBytes_stands data small 4 0 _ _ _ rfl nameOffset name
  have requestPlace := argumentStruct_stands data small 4 64 64 _ _ _ (by omega) (by omega) (by omega)
    requestOffset request
  have signatureRead := argumentBytes_stands data small 4 96 _ _ _ (by omega) signatureOffset signature
  have approvalRead := argumentBytes_stands data small 4 128 _ _ _ (by omega) approvalOffset approval
  have requestRead := decodeRelayRequest_encoded data _ args.relayRequest small request
  simp only [decodeRelayCall, ← length, if_neg long, nameRead, requestPlace, signatureRead, approvalRead,
    requestRead, calldataUint256_word data _ _ budget, bind, Except.bind]

theorem decodeRelayCall_length (msgData : Bytes) (args : RelayCallArgs)
    (decoded : decodeRelayCall msgData = .ok args) : args.msgDataLength = msgData.length := by
  rw [decodeRelayCall] at decoded
  split at decoded
  · exact nomatch decoded
  · simp only [bind_ok, Except.ok.injEq] at decoded
    obtain ⟨_, _, _, _, _, _, _, _, _, _, rfl⟩ := decoded
    rfl

/-- The encoding of the arguments passes the check, and whatever call data the arguments were
read from, in whatever order and however often used, it passes only at the length of that
encoding. -/
theorem packing_exact (four : selector.length = 4) :
    (∀ args : RelayCallArgs, args.signature.length ≤ 65 →
      args.msgDataLength = (encodeABI selector args.call).length →
      verifyTransactionPacking args = .ok () ∧
      (args.msgDataLength < 2 ^ 64 → decodeRelayCall (encodeABI selector args.call) = .ok args)) ∧
    ∀ msgData args, decodeRelayCall msgData = .ok args → verifyTransactionPacking args = .ok () →
      msgData.length = (encodeABI selector args.call).length := by
  constructor
  · intro args short length
    exact ⟨(verifyTransactionPacking_ok selector four args).mpr ⟨short, length⟩,
      decodeRelayCall_encodeABI selector four args length⟩
  · intro msgData args decoded passed
    have counted : args.msgDataLength = msgData.length := decodeRelayCall_length msgData args decoded
    rw [← counted]
    exact ((verifyTransactionPacking_ok selector four args).mp passed).2

def samplePacked : RelayCallArgs where
  domainSeparatorName := [0x41]
  maxAcceptanceBudget := 5
  relayRequest := ⟨⟨7, 8, 0, 1, 0, [3], 0⟩, ⟨1, 2, 3, 4, 5, 6, [], 7⟩⟩
  signature := List.replicate 65 1
  approvalData := []
  msgDataLength := 1028

theorem packing_exact_sample :
    verifyTransactionPacking samplePacked = .ok () ∧
    decodeRelayCall (encodeABI [1, 2, 3, 4] samplePacked.call) = .ok samplePacked ∧
    (encodeABI [1, 2, 3, 4] samplePacked.call).length = 1028 := by
  have exact := packing_exact [1, 2, 3, 4] rfl
  have length : samplePacked.msgDataLength = (encodeABI [1, 2, 3, 4] samplePacked.call).length := by
    decide +kernel
  have passed := exact.1 samplePacked (by decide) length
  exact ⟨passed.1, passed.2 (by decide), length.symm⟩

end OpenGsn.RelayHub
