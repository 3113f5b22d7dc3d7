import OpenGsn.Penalizer.IllegalTransactions

/-! Which pairs of transactions of a worker `penalizeRepeatedNonce` takes to the hub. -/

namespace OpenGsn.Penalizer

open Solidity Rlp Reentry

variable (crypto : Crypto)

def Repeated (first second : TxData) : Prop :=
  first.nonce = second.nonce ∧
    (first.data ≠ second.data ∨ first.gasLimit ≠ second.gasLimit ∨
      first.recipient ≠ second.recipient ∨ first.value ≠ second.value)

/-- One of them creates a contract and the other calls the address zero. -/
def CreationAndZero (first second : TxData) : Prop :=
  (first.recipient = none ∧ second.recipient = some 0) ∨
    (first.recipient = some 0 ∧ second.recipient = none)

theorem creationAndZero_iff (first second : TxData) :
    CreationAndZero first second ↔
      first.recipient ≠ second.recipient ∧ first.recipient.getD 0 = second.recipient.getD 0 := by
  unfold CreationAndZero
  cases first.recipient with
  | none =>
      cases second.recipient with
      | none => simp
      | some account => simp [eq_comm]
  | some account =>
      cases second.recipient with
      | none => simp
      | some other => simp

theorem dataToCheck_injective (first second : Transaction) (gasLimit1 : first.gasLimit < 2 ^ 256)
    (gasLimit2 : second.gasLimit < 2 ^ 256) (value1 : first.value < 2 ^ 256)
    (value2 : second.value < 2 ^ 256) (same : dataToCheck first = dataToCheck second) :
    first.data = second.data ∧ first.gasLimit = second.gasLimit ∧
      first.recipient = second.recipient ∧ first.value = second.value := by
  have values := append_word_injective _ _ _ _ value1 value2 same
  have recipients := List.append_inj' values.1 (by simp)
  have gasLimits := append_word_injective _ _ _ _ gasLimit1 gasLimit2 recipients.1
  exact ⟨gasLimits.1, gasLimits.2, addressBytes_injective _ _ recipients.2, values.2⟩

/-- The hashes tell the transactions apart, up to the destination of a contract creation. -/
theorem dataToCheck_differs (first second : TxData) (envelope1 envelope2 : Envelope)
    (encodable1 : Encodable first envelope1) (encodable2 : Encodable second envelope2)
    (free : crypto.CollisionFree {dataToCheck (decoded first), dataToCheck (decoded second)}) :
    crypto.keccak256 (dataToCheck (decoded first)) ≠ crypto.keccak256 (dataToCheck (decoded second)) ↔
      (first.data ≠ second.data ∨ first.gasLimit ≠ second.gasLimit ∨
        first.recipient.getD 0 ≠ second.recipient.getD 0 ∨ first.value ≠ second.value) := by
  have hashed : crypto.keccak256 (dataToCheck (decoded first)) =
      crypto.keccak256 (dataToCheck (decoded second)) ↔
        dataToCheck (decoded first) = dataToCheck (decoded second) :=
    free.eq_iff (Set.mem_insert _ _) (Set.mem_insert_of_mem _ (Set.mem_singleton _))
  rw [ne_eq, hashed, ← not_and_or, ← not_and_or, ← not_and_or, not_iff_not]
  constructor
  · intro same
    exact dataToCheck_injective _ _ encodable1.gasLimit encodable2.gasLimit encodable1.value
      encodable2.value same
  · rintro ⟨data, gasLimit, recipient, value⟩
    simp only [dataToCheck, decoded, data, gasLimit, recipient, value]

theorem repeatedNonceSigner_ok (first second : TxData) (envelope1 envelope2 : Envelope)
    (signature1 signature2 : Bytes) (signer found : Address) (beyond : Memory)
    (encodable1 : Encodable first envelope1) (encodable2 : Encodable second envelope2)
    (nonzero : signer ≠ 0)
    (signed1 : crypto.recover (crypto.keccak256 (unsignedTx first envelope1)) signature1 = some signer)
    (signed2 : crypto.recover (crypto.keccak256 (unsignedTx second envelope2)) signature2 = some signer) :
    repeatedNonceSigner crypto (unsignedTx first envelope1) signature1 (unsignedTx second envelope2)
      signature2 beyond = .ok found ↔
      first.nonce = second.nonce ∧
        crypto.keccak256 (dataToCheck (decoded first)) ≠ crypto.keccak256 (dataToCheck (decoded second)) ∧
        signer = found := by
  have signer1 := (recoverSigner_ok crypto _ signature1 signer).mpr signed1
  have signer2 := (recoverSigner_ok crypto _ signature2 signer).mpr signed2
  have decoded1 := decodeTransaction_encodable first envelope1 beyond encodable1
  have decoded2 := decodeTransaction_encodable second envelope2 beyond encodable2
  simp [repeatedNonceSigner, signer1, signer2, decoded1, decoded2, nonzero]

/-- The report is taken to the hub, with the signer and the reporter, when it shows an offence,
and reverts when it does not. -/
def Judged (offence : Prop) (hub signer sender : Address)
    (code : Code State PenalizeCall Bytes Revert Unit) : Prop :=
  (offence → ∃ before inside resume, code = .call ⟨hub, signer, sender⟩ before inside resume) ∧
  (¬ offence → ∃ error, code = .revert error)

variable (delays : Delays)

theorem judged_reveal (env : Env) (sender hub signer : Address) (msgData : Bytes) (s opened : State)
    (offence : Prop) (judged : Except Revert Address)
    (committed : commitRevealOnly crypto delays env sender msgData s = .ok opened)
    (alone : ∀ found, judged = .ok found → signer = found) :
    Judged offence hub signer sender (reveal crypto delays env sender msgData hub judged s) ↔
      (offence ↔ judged = .ok signer) := by
  rw [reveal, committed]
  cases judged with
  | error error => simp [Judged, Code.check]
  | ok found =>
      obtain rfl := alone found rfl
      simp [Judged, Code.check]

/-- Two judgements that differ in what they take for the same recipient. -/
theorem judgement_iff {nonce data gasLimit recipient padded value : Prop} (implied : recipient → padded) :
    ((nonce ∧ (¬ data ∨ ¬ gasLimit ∨ ¬ recipient ∨ ¬ value)) ↔
      nonce ∧ (¬ data ∨ ¬ gasLimit ∨ ¬ padded ∨ ¬ value)) ↔
      ¬ ((¬ recipient ∧ padded) ∧ nonce ∧ data ∧ gasLimit ∧ value) := by
  tauto

/-- Within the commit window, a report of two transactions that a worker signed is judged
right unless one is the creation of a contract and the other the same call of the address
zero. -/
theorem repeated_nonce_judged_iff (env : Env) (sender hub signer : Address)
    (msgData signature1 signature2 : Bytes) (first second : TxData) (envelope1 envelope2 : Envelope)
    (beyond : Memory) (s opened : State)
    (recovers : ∀ digest signature, crypto.recover digest signature ≠ some 0)
    (free : crypto.CollisionFree {dataToCheck (decoded first), dataToCheck (decoded second)})
    (encodable1 : Encodable first envelope1) (encodable2 : Encodable second envelope2)
    (signed1 : crypto.recover (crypto.keccak256 (unsignedTx first envelope1)) signature1 = some signer)
    (signed2 : crypto.recover (crypto.keccak256 (unsignedTx second envelope2)) signature2 = some signer)
    (committed : commitRevealOnly crypto delays env sender msgData s = .ok opened) :
    Judged (Repeated first second) hub signer sender
      (penalizeRepeatedNonce crypto delays env sender msgData (unsignedTx first envelope1) signature1
        (unsignedTx second envelope2) signature2 hub beyond s) ↔
      ¬ (CreationAndZero first second ∧ first.nonce = second.nonce ∧ first.data = second.data ∧
        first.gasLimit = second.gasLimit ∧ first.value = second.value) := by
  have nonzero : signer ≠ 0 := fun zero => recovers _ signature1 (zero ▸ signed1)
  have signers := fun found => repeatedNonceSigner_ok crypto first second envelope1 envelope2 signature1
    signature2 signer found beyond encodable1 encodable2 nonzero signed1 signed2
  have differs := dataToCheck_differs crypto first second envelope1 envelope2 encodable1 encodable2 free
  rw [penalizeRepeatedNonce, judged_reveal crypto delays env sender hub signer msgData s opened _ _
    committed fun found accepted => ((signers found).mp accepted).2.2, signers signer, differs,
    creationAndZero_iff, Repeated, and_iff_left rfl]
  exact judgement_iff (congrArg (Option.getD · 0))

/-- The same payment as a dynamic fee transaction, with one more wei. -/
theorem repeated_nonce_judged_iff_payments :
    Repeated plainTransfer { plainTransfer with value := 2 } ∧
    Judged (Repeated plainTransfer { plainTransfer with value := 2 }) 9 7 3
      (penalizeRepeatedNonce workerCrypto ⟨5, 100⟩ sampleEnv 3 [] (unsignedTx plainTransfer (.legacy 30 none))
        [7] (unsignedTx { plainTransfer with value := 2 } sampleEnvelope) [7] 9 (fun _ => 0)
        committedState) := by
  have wellFormed1 : WellFormed plainTransfer (.legacy 30 none) := by decide +kernel
  have wellFormed2 : WellFormed { plainTransfer with value := 2 } sampleEnvelope := by decide +kernel
  have free : workerCrypto.CollisionFree {dataToCheck (decoded plainTransfer),
      dataToCheck (decoded { plainTransfer with value := 2 })} := by
    have apart : workerCrypto.keccak256 (dataToCheck (decoded plainTransfer)) ≠
        workerCrypto.keccak256 (dataToCheck (decoded { plainTransfer with value := 2 })) := by
      decide +kernel
    exact Set.injOn_pair.mpr fun same => absurd same apart
  refine ⟨by simp [Repeated, plainTransfer], ?_⟩
  exact (repeated_nonce_judged_iff workerCrypto ⟨5, 100⟩ sampleEnv 3 9 7 [] [7] [7] plainTransfer
    { plainTransfer with value := 2 } (.legacy 30 none) sampleEnvelope (fun _ => 0) committedState _
    workerCrypto_recovers free wellFormed1.encodable wellFormed2.encodable rfl rfl rfl).mpr
    (by simp [CreationAndZero, plainTransfer])

def zeroCall : TxData := { sampleCreation with recipient := some 0 }

/-- A worker that signs the creation of a contract and, with the same nonce, the same call of
the address zero, is not penalized. -/
theorem creation_and_zero_not_penalized :
    WellFormed sampleCreation sampleEnvelope ∧ WellFormed zeroCall sampleEnvelope ∧
    workerCrypto.recover (workerCrypto.keccak256 (unsignedTx sampleCreation sampleEnvelope)) [7] = some 7 ∧
    workerCrypto.recover (workerCrypto.keccak256 (unsignedTx zeroCall sampleEnvelope)) [7] = some 7 ∧
    (∃ opened, commitRevealOnly workerCrypto ⟨5, 100⟩ sampleEnv 3 [] committedState = .ok opened) ∧
    Repeated sampleCreation zeroCall ∧
    penalizeRepeatedNonce workerCrypto ⟨5, 100⟩ sampleEnv 3 [] (unsignedTx sampleCreation sampleEnvelope)
      [7] (unsignedTx zeroCall sampleEnvelope) [7] 9 (fun _ => 0) committedState =
      .revert (.reason "tx is equal") := by
  have wellFormed1 : WellFormed sampleCreation sampleEnvelope := by decide +kernel
  have wellFormed2 : WellFormed zeroCall sampleEnvelope := by decide +kernel
  have equal := equal_not_penalized workerCrypto sampleCreation zeroCall sampleEnvelope sampleEnvelope [7] [7] 7
    (fun _ => 0) wellFormed1 wellFormed2 (by decide) (by decide) rfl rfl
  refine ⟨wellFormed1, wellFormed2, rfl, rfl, ⟨_, rfl⟩, by simp [Repeated, zeroCall, sampleCreation], ?_⟩
  rw [penalizeRepeatedNonce, equal]
  rfl

end OpenGsn.Penalizer
