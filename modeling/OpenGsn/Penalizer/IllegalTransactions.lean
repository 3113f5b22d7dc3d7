import OpenGsn.Penalizer.Decoding

/-! Which transactions of a worker `penalizeIllegalTransaction` takes to the hub. -/

namespace OpenGsn.Penalizer

open Solidity Rlp Reentry

variable (crypto : Crypto)

@[simp] theorem relayCallSelector_length : (relayCallSelector crypto).length = 4 := by
  simp [relayCallSelector, Crypto.hashBytes]

/-- A call of `relayCall` on the hub. A transaction without a recipient calls nobody. -/
def IsRelayCall (hub : Address) (tx : TxData) : Prop :=
  tx.recipient = some hub ∧ relayCallSelector crypto <+: tx.data

/-- What the selector of a call of the hub is read from has four bytes. The destination of a
contract creation is read as the address zero, where no hub is. -/
def SelectorRead (hub : Address) (tx : TxData) : Prop :=
  (tx.recipient = some hub → 4 ≤ tx.data.length) ∧
  (tx.recipient = none → hub = 0 → 4 ≤ tx.data.length ∧ ¬ relayCallSelector crypto <+: tx.data)

theorem getMethodSig_short (data : Bytes) (short : data.length < 4) :
    getMethodSig data = .error (.reason "readBytes4: data too short") := by
  rw [getMethodSig, require, if_neg (by omega)]
  rfl

theorem getMethodSig_prefix (data : Bytes) (long : 4 ≤ data.length) :
    ∃ selector, getMethodSig data = .ok selector ∧
      (selector = relayCallSelector crypto ↔ relayCallSelector crypto <+: data) := by
  refine ⟨data.take 4, ?_, ?_⟩
  · rw [getMethodSig, require, if_pos long]
    rfl
  · rw [List.prefix_iff_eq_take, relayCallSelector_length]
    exact eq_comm

theorem isTransactionTypeValid_unsignedTx (tx : TxData) (envelope : Envelope)
    (wellFormed : WellFormed tx envelope) :
    isTransactionTypeValid (unsignedTx tx envelope) = .ok true := by
  obtain ⟨valid, judged, recognized⟩ := isTransactionTypeValid_encodable tx envelope wellFormed.encodable
  rw [judged, recognized.mpr (recognized_of_wellFormed tx envelope wellFormed)]

/-- Whom the checks penalize for a transaction that `signer` signed. -/
theorem illegalTransactionSigner_unsignedTx (tx : TxData) (envelope : Envelope) (signature : Bytes)
    (hub signer : Address) (beyond : Memory) (wellFormed : WellFormed tx envelope)
    (nonzero : signer ≠ 0)
    (signed : crypto.recover (crypto.keccak256 (unsignedTx tx envelope)) signature = some signer) :
    illegalTransactionSigner crypto (unsignedTx tx envelope) signature hub beyond =
      if tx.recipient.getD 0 = hub then do
        let selector ← getMethodSig tx.data
        require (selector ≠ relayCallSelector crypto) "Legal relay transaction"
        .ok signer
      else .ok signer := by
  have recovered := (recoverSigner_ok crypto _ signature signer).mpr signed
  have valid := isTransactionTypeValid_unsignedTx tx envelope wellFormed
  have decodedTx := decodeTransaction_unsignedTx tx envelope beyond wellFormed
  have accepted : require (signer ≠ 0) "ecrecover failed" = .ok () := if_pos nonzero
  rw [illegalTransactionSigner, valid]
  by_cases same : tx.recipient.getD 0 = hub
  · cases read : getMethodSig tx.data with
    | error error => simp [bind, Except.bind, decodedTx, decoded, same, read]
    | ok selector =>
        by_cases legal : selector = relayCallSelector crypto
        · simp [bind, Except.bind, decodedTx, decoded, same, read, legal, require]
        · simp [bind, Except.bind, decodedTx, decoded, same, read, legal, recovered, require, nonzero]
  · simp [bind, Except.bind, decodedTx, decoded, same, recovered, accepted]

/-- The judgement on a report: an illegal transaction is taken to the hub, with its signer
and the reporter, and the report of a legal one reverts. -/
def JudgedRight (hub signer sender : Address) (tx : TxData)
    (code : Code State PenalizeCall Bytes Revert Unit) : Prop :=
  (IsRelayCall crypto hub tx → ∃ error, code = .revert error) ∧
  (¬ IsRelayCall crypto hub tx →
    ∃ before inside resume, code = .call ⟨hub, signer, sender⟩ before inside resume)

theorem judgedRight_revert (hub signer sender : Address) (tx : TxData) (error : Revert) :
    JudgedRight crypto hub signer sender tx (.revert error) ↔ IsRelayCall crypto hub tx := by
  constructor
  · intro judged
    by_contra illegal
    obtain ⟨_, _, _, called⟩ := judged.2 illegal
    cases called
  · intro legal
    exact ⟨fun _ => ⟨error, rfl⟩, fun illegal => absurd legal illegal⟩

theorem judgedRight_call (hub signer sender : Address) (tx : TxData) (before inside : State)
    (resume : State → Except Revert Bytes → Code State PenalizeCall Bytes Revert Unit) :
    JudgedRight crypto hub signer sender tx (.call ⟨hub, signer, sender⟩ before inside resume) ↔
      ¬ IsRelayCall crypto hub tx := by
  constructor
  · intro judged legal
    obtain ⟨_, reverted⟩ := judged.1 legal
    cases reverted
  · intro illegal
    exact ⟨fun legal => absurd legal illegal, fun _ => ⟨before, inside, resume, rfl⟩⟩

theorem not_relayCall_short (hub : Address) (tx : TxData) (short : tx.data.length < 4) :
    ¬ IsRelayCall crypto hub tx := by
  intro legal
  have long := legal.2.length_le
  rw [relayCallSelector_length] at long
  omega

variable (delays : Delays)

/-- Within the commit window, a report of an unsigned transaction with the signature of a
worker is judged right exactly when there is a selector to read wherever one is read. -/
theorem illegal_transaction_judged_iff (env : Env) (sender hub signer : Address)
    (msgData signature : Bytes) (tx : TxData) (envelope : Envelope) (beyond : Memory) (s opened : State)
    (recovers : ∀ digest signature, crypto.recover digest signature ≠ some 0)
    (wellFormed : WellFormed tx envelope)
    (signed : crypto.recover (crypto.keccak256 (unsignedTx tx envelope)) signature = some signer)
    (committed : commitRevealOnly crypto delays env sender msgData s = .ok opened) :
    JudgedRight crypto hub signer sender tx
      (penalizeIllegalTransaction crypto delays env sender msgData (unsignedTx tx envelope) signature
        hub beyond s) ↔
      SelectorRead crypto hub tx := by
  have nonzero : signer ≠ 0 := fun zero => recovers _ signature (zero ▸ signed)
  have judgement := illegalTransactionSigner_unsignedTx crypto tx envelope signature hub signer beyond
    wellFormed nonzero signed
  rw [penalizeIllegalTransaction, reveal, committed, judgement]
  by_cases same : tx.recipient.getD 0 = hub
  · rw [if_pos same]
    by_cases long : 4 ≤ tx.data.length
    · obtain ⟨selector, read, legal⟩ := getMethodSig_prefix crypto tx.data long
      by_cases relayed : selector = relayCallSelector crypto
      · have started := legal.mp relayed
        simp only [read, bind, Except.bind, require, relayed, ne_eq, not_true_eq_false, if_false,
          Code.check]
        rw [judgedRight_revert]
        -- the selector of a contract creation is read as if it were a call
        cases recipient : tx.recipient with
        | none => simp_all [IsRelayCall, SelectorRead]
        | some account => simp_all [IsRelayCall, SelectorRead]
      · have other : ¬ relayCallSelector crypto <+: tx.data := fun started => relayed (legal.mpr started)
        simp only [read, bind, Except.bind, require, relayed, ne_eq, not_false_eq_true, if_true,
          Code.check]
        rw [judgedRight_call]
        simp [IsRelayCall, SelectorRead, other, long]
    · have short : tx.data.length < 4 := by omega
      simp only [getMethodSig_short tx.data short, bind, Except.bind, Code.check]
      rw [judgedRight_revert]
      have illegal := not_relayCall_short crypto hub tx short
      cases recipient : tx.recipient with
      | none => simp_all [SelectorRead]
      | some account => simp_all [SelectorRead]
  · rw [if_neg same]
    simp only [Code.check]
    rw [judgedRight_call]
    have elsewhere : tx.recipient ≠ some hub := by
      intro toHub
      rw [toHub] at same
      exact same rfl
    have creation : tx.recipient = none → hub ≠ 0 := by
      intro none zero
      rw [none, zero] at same
      exact same rfl
    have illegal : ¬ IsRelayCall crypto hub tx := fun legal => elsewhere legal.1
    have unread : SelectorRead crypto hub tx :=
      ⟨fun toHub => absurd toHub elsewhere, fun none zero => absurd zero (creation none)⟩
    exact iff_of_true illegal unread

def workerCrypto : Crypto :=
  { sampleCrypto with recover := fun _ signature => if signature = [7] then some 7 else none }

theorem workerCrypto_recovers (digest : Uint256) (signature : Bytes) :
    workerCrypto.recover digest signature ≠ some 0 := by
  simp only [workerCrypto]
  split <;> decide

def otherCall : TxData := ⟨3, 100000, some 9, 0, [1, 2, 3, 4]⟩

def plainTransfer : TxData := ⟨3, 21000, some 9, 1, []⟩

def sampleEnvelope : Envelope := .type2 1 2 30 []

def committedState : State := ⟨fun _ => 9, []⟩

theorem illegal_transaction_judged_iff_sample :
    SelectorRead workerCrypto 9 otherCall ∧
    JudgedRight workerCrypto 9 7 3 otherCall
      (penalizeIllegalTransaction workerCrypto ⟨5, 100⟩ sampleEnv 3 [] (unsignedTx otherCall sampleEnvelope)
        [7] 9 (fun _ => 0) committedState) := by
  have read : SelectorRead workerCrypto 9 otherCall :=
    ⟨fun _ => by decide, fun none => absurd none (by decide)⟩
  exact ⟨read, (illegal_transaction_judged_iff workerCrypto ⟨5, 100⟩ sampleEnv 3 9 7 [] [7] otherCall
    sampleEnvelope (fun _ => 0) committedState _ workerCrypto_recovers (by decide +kernel) rfl rfl).mpr read⟩

/-- A worker that sends its hub ether without data cannot be penalized for it. -/
theorem plain_transfer_not_penalized :
    WellFormed plainTransfer sampleEnvelope ∧
    workerCrypto.recover (workerCrypto.keccak256 (unsignedTx plainTransfer sampleEnvelope)) [7] = some 7 ∧
    (∃ opened, commitRevealOnly workerCrypto ⟨5, 100⟩ sampleEnv 3 [] committedState = .ok opened) ∧
    ¬ IsRelayCall workerCrypto 9 plainTransfer ∧
    penalizeIllegalTransaction workerCrypto ⟨5, 100⟩ sampleEnv 3 [] (unsignedTx plainTransfer sampleEnvelope)
      [7] 9 (fun _ => 0) committedState = .revert (.reason "readBytes4: data too short") ∧
    ¬ JudgedRight workerCrypto 9 7 3 plainTransfer
      (penalizeIllegalTransaction workerCrypto ⟨5, 100⟩ sampleEnv 3 []
        (unsignedTx plainTransfer sampleEnvelope) [7] 9 (fun _ => 0) committedState) := by
  have wellFormed : WellFormed plainTransfer sampleEnvelope := by decide +kernel
  have illegal := not_relayCall_short workerCrypto 9 plainTransfer (by decide)
  have reverted : penalizeIllegalTransaction workerCrypto ⟨5, 100⟩ sampleEnv 3 []
      (unsignedTx plainTransfer sampleEnvelope) [7] 9 (fun _ => 0) committedState =
      .revert (.reason "readBytes4: data too short") := by
    rw [penalizeIllegalTransaction, illegalTransactionSigner_unsignedTx workerCrypto plainTransfer
      sampleEnvelope [7] 9 7 _ wellFormed (by decide) rfl]
    rfl
  refine ⟨wellFormed, rfl, ⟨_, rfl⟩, illegal, reverted, ?_⟩
  rw [reverted, judgedRight_revert]
  exact illegal

end OpenGsn.Penalizer
