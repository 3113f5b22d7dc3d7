import OpenGsn.GsnTypes
import OpenGsn.Solidity.PrefixFree

/-! `VerifyingPaymaster.sol`: what the signer approves. -/

namespace OpenGsn.Paymasters

open Solidity

variable (crypto : Crypto)

def memberBytes (contents : Bytes) : Except Revert Bytes :=
  if 2 ^ 64 ≤ contents.length then .error (.data []) else .ok contents

def forwardRequestParts (req : ForwardRequest) : List Part :=
  [.static (word req.sender.val), .static (word req.recipient.val), .static (word req.value.val),
    .static (word req.gas.val), .static (word req.nonce.val), .dynamic (bytesTail req.data)]

def packForwardRequest (req : ForwardRequest) : Except Revert Bytes := do
  let _ ← memberBytes req.data
  .ok (encodeTuple (forwardRequestParts req))

def relayDataParts (d : RelayData) : List Part :=
  [.static (word d.maxFeePerGas.val), .static (word d.maxPriorityFeePerGas.val),
    .static (word d.relayWorker.val), .static (word d.paymaster.val), .dynamic (bytesTail d.paymasterData),
    .static (word d.clientId.val)]

def packRelayData (d : RelayData) : Except Revert Bytes := do
  let _ ← memberBytes d.paymasterData
  .ok (encodeTuple (relayDataParts d))

def packRequest (relayRequest : RelayRequest) : Except Revert Bytes := do
  let request ← packForwardRequest relayRequest.request
  let relayData ← packRelayData relayRequest.relayData
  .ok (request ++ relayData)

def getRequestHash (relayRequest : RelayRequest) : Except Revert Uint256 :=
  (packRequest relayRequest).map crypto.keccak256

def verifyApprovalData (approvalData : Bytes) : Except Revert Unit :=
  require (approvalData.length = 65) "approvalData: invalid length for signature"

def verifySigner (signer : Address) (relayRequest : RelayRequest) (approvalData : Bytes) :
    Except Revert Unit := do
  verifyApprovalData approvalData
  let requestHash ← getRequestHash crypto relayRequest
  let recovered ← crypto.recoverSigner requestHash approvalData
  require (signer = recovered) "approvalData: wrong signature"

/-- The fields that are part of the hash. -/
structure ForwardRequest.SameApproved (first second : ForwardRequest) : Prop where
  sender : first.sender = second.sender
  recipient : first.recipient = second.recipient
  value : first.value = second.value
  gas : first.gas = second.gas
  nonce : first.nonce = second.nonce
  data : first.data = second.data

structure RelayData.SameApproved (first second : RelayData) : Prop where
  maxFeePerGas : first.maxFeePerGas = second.maxFeePerGas
  maxPriorityFeePerGas : first.maxPriorityFeePerGas = second.maxPriorityFeePerGas
  relayWorker : first.relayWorker = second.relayWorker
  paymaster : first.paymaster = second.paymaster
  paymasterData : first.paymasterData = second.paymasterData
  clientId : first.clientId = second.clientId

structure RelayRequest.SameApproved (first second : RelayRequest) : Prop where
  request : ForwardRequest.SameApproved first.request second.request
  relayData : RelayData.SameApproved first.relayData second.relayData

theorem memberBytes_ok (contents made : Bytes) :
    memberBytes contents = .ok made ↔ contents.length < 2 ^ 64 ∧ contents = made := by
  unfold memberBytes
  split
  · rename_i long
    exact ⟨fun failed => (nomatch failed), fun made => absurd made.1 (Nat.not_lt.mpr long)⟩
  · rename_i short
    exact ⟨fun made => ⟨Nat.lt_of_not_le short, Except.ok.inj made⟩, fun made => congrArg Except.ok made.2⟩

theorem packRequest_ok (relayRequest : RelayRequest) (packed : Bytes)
    (made : packRequest relayRequest = .ok packed) :
    relayRequest.request.data.length < 2 ^ 64 ∧ relayRequest.relayData.paymasterData.length < 2 ^ 64 ∧
      packed = encodeTuple (forwardRequestParts relayRequest.request) ++
        encodeTuple (relayDataParts relayRequest.relayData) := by
  simp only [packRequest, packForwardRequest, packRelayData, bind_ok, memberBytes_ok, Except.ok.injEq] at made
  obtain ⟨_, ⟨_, ⟨data, _⟩, rfl⟩, _, ⟨_, ⟨paymasterData, _⟩, rfl⟩, rfl⟩ := made
  exact ⟨data, paymasterData, rfl⟩

theorem forwardRequestParts_alike (first second : ForwardRequest) (short : first.data.length < 2 ^ 256)
    (brief : second.data.length < 2 ^ 256) :
    List.Forall₂ Part.Alike (forwardRequestParts first) (forwardRequestParts second) := by
  have words : ∀ n m, Part.Alike (.static (word n)) (.static (word m)) := fun n m => .static _ _ (by simp)
  exact .cons (words _ _) (.cons (words _ _) (.cons (words _ _) (.cons (words _ _) (.cons (words _ _)
    (.cons (.bytes _ _ short brief) .nil)))))

theorem relayDataParts_alike (first second : RelayData) (short : first.paymasterData.length < 2 ^ 256)
    (brief : second.paymasterData.length < 2 ^ 256) :
    List.Forall₂ Part.Alike (relayDataParts first) (relayDataParts second) := by
  have words : ∀ n m, Part.Alike (.static (word n)) (.static (word m)) := fun n m => .static _ _ (by simp)
  exact .cons (words _ _) (.cons (words _ _) (.cons (words _ _) (.cons (words _ _)
    (.cons (.bytes _ _ short brief) (.cons (words _ _) .nil)))))

theorem uint256_word_injective (a b : Uint256) (same : word a.val = word b.val) : a = b :=
  Fin.ext (word_injective a.val b.val a.isLt b.isLt same)

theorem address_word_injective (a b : Address) (same : word a.val = word b.val) : a = b :=
  Fin.ext (word_injective a.val b.val (address_lt_word a) (address_lt_word b) same)

theorem bytesTail_injective (contents other : Bytes) (short : contents.length < 2 ^ 256)
    (brief : other.length < 2 ^ 256) (same : bytesTail contents = bytesTail other) : contents = other :=
  (bytesTail_append_injective contents other [] [] short brief (by rw [same])).1

theorem forwardRequestParts_injective (first second : ForwardRequest) (short : first.data.length < 2 ^ 256)
    (brief : second.data.length < 2 ^ 256) (same : forwardRequestParts first = forwardRequestParts second) :
    ForwardRequest.SameApproved first second := by
  simp only [forwardRequestParts, List.cons.injEq, Part.static.injEq, Part.dynamic.injEq, and_true] at same
  obtain ⟨sender, recipient, value, gas, nonce, data⟩ := same
  exact ⟨address_word_injective _ _ sender, address_word_injective _ _ recipient,
    uint256_word_injective _ _ value, uint256_word_injective _ _ gas, uint256_word_injective _ _ nonce,
    bytesTail_injective _ _ short brief data⟩

theorem relayDataParts_injective (first second : RelayData) (short : first.paymasterData.length < 2 ^ 256)
    (brief : second.paymasterData.length < 2 ^ 256) (same : relayDataParts first = relayDataParts second) :
    RelayData.SameApproved first second := by
  simp only [relayDataParts, List.cons.injEq, Part.static.injEq, Part.dynamic.injEq, and_true] at same
  obtain ⟨maxFeePerGas, maxPriorityFeePerGas, relayWorker, paymaster, paymasterData, clientId⟩ := same
  exact ⟨uint256_word_injective _ _ maxFeePerGas, uint256_word_injective _ _ maxPriorityFeePerGas,
    address_word_injective _ _ relayWorker, address_word_injective _ _ paymaster,
    bytesTail_injective _ _ short brief paymasterData, uint256_word_injective _ _ clientId⟩

theorem short_member (length : ℕ) (short : length < 2 ^ 64) : length < 2 ^ 256 :=
  Nat.lt_of_lt_of_le short (Nat.pow_le_pow_right (by decide) (by decide))

theorem packRequest_injective (first second : RelayRequest) (packed : Bytes)
    (one : packRequest first = .ok packed) (two : packRequest second = .ok packed) :
    RelayRequest.SameApproved first second := by
  obtain ⟨data, paymasterData, whole⟩ := packRequest_ok first packed one
  obtain ⟨data', paymasterData', same⟩ := packRequest_ok second packed two
  have short := short_member _ data
  have short' := short_member _ data'
  have brief := short_member _ paymasterData
  have brief' := short_member _ paymasterData'
  have requests := encodeTuple_append_injective _ _
    (forwardRequestParts_alike first.request second.request short short') _ _ (whole.symm.trans same)
  have relayData := encodeTuple_injective _ _
    (relayDataParts_alike first.relayData second.relayData brief brief') requests.2
  exact ⟨forwardRequestParts_injective _ _ short short' requests.1,
    relayDataParts_injective _ _ brief brief' relayData⟩

def packedRequests (relayRequests : Set RelayRequest) : Set Bytes :=
  { packed | ∃ relayRequest ∈ relayRequests, packRequest relayRequest = .ok packed }

theorem hashed_sameApproved (relayRequests : Set RelayRequest)
    (collisionFree : crypto.CollisionFree (packedRequests relayRequests)) (first second : RelayRequest)
    (one : first ∈ relayRequests) (two : second ∈ relayRequests) (digest : Uint256)
    (firstHash : getRequestHash crypto first = .ok digest)
    (secondHash : getRequestHash crypto second = .ok digest) : RelayRequest.SameApproved first second := by
  unfold getRequestHash at firstHash secondHash
  cases packedFirst : packRequest first with
  | error failure => simp [packedFirst, Except.map] at firstHash
  | ok packed =>
      cases packedSecond : packRequest second with
      | error failure => simp [packedSecond, Except.map] at secondHash
      | ok other =>
          simp only [packedFirst, packedSecond, Except.map, Except.ok.injEq] at firstHash secondHash
          have same : packed = other := collisionFree ⟨first, one, packedFirst⟩ ⟨second, two, packedSecond⟩
            (firstHash.trans secondHash.symm)
          exact packRequest_injective first second packed packedFirst (by rw [packedSecond, same])

/-- What the paymaster accepts is what the signer signed, in the approved fields. -/
theorem accepted_was_approved (signer : Address) (approved : Set RelayRequest)
    (signedOnly : ∀ digest approvalData, crypto.recover digest approvalData = some signer →
      ∃ relayRequest ∈ approved, getRequestHash crypto relayRequest = .ok digest)
    (relayRequest : RelayRequest) (approvalData : Bytes)
    (collisionFree : crypto.CollisionFree (packedRequests (insert relayRequest approved)))
    (accepted : verifySigner crypto signer relayRequest approvalData = .ok ()) :
    ∃ signed ∈ approved, RelayRequest.SameApproved relayRequest signed := by
  simp only [verifySigner, bind_ok, require_ok, recoverSigner_ok] at accepted
  obtain ⟨_, _, digest, hashed, recovered, signature, rfl⟩ := accepted
  obtain ⟨signed, known, signedHash⟩ := signedOnly digest approvalData signature
  exact ⟨signed, known, hashed_sameApproved crypto _ collisionFree relayRequest signed
    (Set.mem_insert _ _) (Set.mem_insert_of_mem _ known) digest hashed signedHash⟩

/-- Two requests with one hash agree in what is packed. -/
theorem request_hash_binds (first second : RelayRequest) (digest : Uint256)
    (collisionFree : crypto.CollisionFree (packedRequests {first, second}))
    (firstHash : getRequestHash crypto first = .ok digest)
    (secondHash : getRequestHash crypto second = .ok digest) : RelayRequest.SameApproved first second :=
  hashed_sameApproved crypto {first, second} collisionFree first second (Set.mem_insert _ _)
    (Set.mem_insert_of_mem _ rfl) digest firstHash secondHash

def approvedRequest : RelayRequest :=
  ⟨⟨2, 3, 0, 100000, 0, [1, 2, 3, 4], 2000⟩, ⟨30, 2, 21000, 5, 6, 7, [], 1⟩⟩

def executedRequest : RelayRequest :=
  ⟨⟨2, 3, 0, 100000, 0, [1, 2, 3, 4], 9000⟩, ⟨30, 2, 90000, 5, 6, 8, [], 1⟩⟩

theorem samples_collisionFree :
    sampleCrypto.CollisionFree (packedRequests {approvedRequest, executedRequest}) := by
  have known : ∀ relayRequest ∈ ({approvedRequest, executedRequest} : Set RelayRequest),
      packRequest relayRequest = packRequest approvedRequest := by
    rintro relayRequest (rfl | rfl)
    · rfl
    · rfl
  rintro packed ⟨first, one, made⟩ other ⟨second, two, done⟩ _
  rw [known first one] at made
  rw [known second two, made] at done
  exact Except.ok.inj done

theorem samples_hashed : ∃ digest, getRequestHash sampleCrypto approvedRequest = .ok digest ∧
    getRequestHash sampleCrypto executedRequest = .ok digest := by
  have hashed : (getRequestHash sampleCrypto approvedRequest).isOk = true := by decide +kernel
  cases digest : getRequestHash sampleCrypto approvedRequest with
  | error failure =>
      rw [digest] at hashed
      cases hashed
  | ok value => exact ⟨value, rfl, by rw [← digest]; rfl⟩

theorem request_hash_binds_sample : RelayRequest.SameApproved approvedRequest executedRequest := by
  obtain ⟨digest, one, two⟩ := samples_hashed
  exact request_hash_binds sampleCrypto approvedRequest executedRequest digest samples_collisionFree one two

/-- The time, the gas of the call data and the forwarder are not approved. -/
theorem validity_not_approved :
    sampleCrypto.CollisionFree (packedRequests {approvedRequest, executedRequest}) ∧
      (∃ digest, getRequestHash sampleCrypto approvedRequest = .ok digest ∧
        getRequestHash sampleCrypto executedRequest = .ok digest) ∧
      approvedRequest.request.validUntilTime ≠ executedRequest.request.validUntilTime ∧
      approvedRequest.relayData.transactionCalldataGasUsed ≠
        executedRequest.relayData.transactionCalldataGasUsed ∧
      approvedRequest.relayData.forwarder ≠ executedRequest.relayData.forwarder :=
  ⟨samples_collisionFree, samples_hashed, by decide, by decide, by decide⟩

end OpenGsn.Paymasters
