import OpenGsn.Provider.RelayedTransactionValidator
import OpenGsn.Solidity.Base

/-! What a client knows of a response that it accepts. -/

namespace OpenGsn.Provider

open Solidity
open Relay (RelayTransactionRequest)

namespace RelayedTransactionValidator

variable {Raw : Type} (validator : RelayedTransactionValidator Raw) (request : RelayTransactionRequest)

/-- The fees are not below those of the request. A legacy transaction has one fee. -/
def CoversFees (relayData : RelayData) : Envelope → Prop
  | .legacy gasPrice _ => relayData.maxFeePerGas.val ≤ gasPrice
  | .type2 _ maxPriorityFeePerGas maxFeePerGas _ =>
      relayData.maxFeePerGas.val ≤ maxFeePerGas ∧ relayData.maxPriorityFeePerGas.val ≤ maxPriorityFeePerGas
  | .type1 _ _ _ => False

structure FromWorker (transaction : TypedTransaction) : Prop where
  signed : transaction.getSenderAddress = .ok request.relayRequest.relayData.relayWorker
  target : transaction.tx.recipient ≠ none ∧ transaction.tx.recipient = validator.relayHubAddress

structure Answers (transaction : TypedTransaction) : Prop extends FromWorker validator request transaction where
  content : transaction.tx.data =
    encodeABI validator.relayCallSignature (request.call request.metadata.maxAcceptanceBudget)
  known : request.metadata.relayLastKnownNonce ≤ transaction.tx.nonce
  permitted : transaction.tx.nonce ≤ request.metadata.relayMaxNonce
  fees : CoversFees request.relayRequest.relayData transaction.envelope

def HasNonce (nonce : ℕ) (entry : List Char × Raw) : Prop :=
  ∃ transaction, validator.fromSerializedData entry.2 = .ok transaction ∧ transaction.tx.nonce = nonce

/-- One `relayCall` of the worker for each nonce up to the given one, and nothing else. -/
structure FillsGap (nonceGapFilled : ObjectMap Raw) (nonce : ℕ) : Prop where
  each : ∀ missing, request.metadata.relayLastKnownNonce ≤ missing → missing < nonce →
    ∃! entry, entry ∈ nonceGapFilled.entries ∧ validator.HasNonce missing entry
  only : ∀ entry ∈ nonceGapFilled.entries, ∃ transaction, validator.fromSerializedData entry.2 = .ok transaction ∧
    FromWorker validator request transaction ∧ validator.relayCallSignature <+: transaction.tx.data ∧
    request.metadata.relayLastKnownNonce ≤ transaction.tx.nonce ∧ transaction.tx.nonce < nonce

theorem isNonceGapFilled_cons (result : TransactionValidationResult) (rest : List TransactionValidationResult) :
    isTransactionValid.isNonceGapFilled (result :: rest) = true ↔
      isTransactionValid result = true ∧ isTransactionValid.isNonceGapFilled rest = true :=
  Bool.and_eq_true_iff

theorem validateTransactionTarget_iff (transaction : TypedTransaction) :
    validator.validateTransactionTarget transaction = true ↔
      transaction.tx.recipient ≠ none ∧ transaction.tx.recipient = validator.relayHubAddress := by
  unfold validateTransactionTarget
  cases transaction.tx.recipient with
  | none => simp
  | some recipient =>
      cases validator.relayHubAddress with
      | none => simp
      | some hub => simp

theorem validateTransactionSender_ok (transaction : TypedTransaction)
    (checked : validateTransactionSender request transaction = .ok true) :
    transaction.getSenderAddress = .ok request.relayRequest.relayData.relayWorker := by
  unfold validateTransactionSender at checked
  rw [bind_ok] at checked
  obtain ⟨signer, recovered, same⟩ := checked
  rw [recovered, of_decide_eq_true (Except.ok.inj same)]

theorem isGasPriceValid_covers (transaction : TypedTransaction)
    (valid : isGasPriceValid (validateGasPrice request transaction) = true) :
    CoversFees request.relayRequest.relayData transaction.envelope := by
  unfold validateGasPrice at valid
  cases envelope : transaction.envelope with
  | legacy gasPrice chainId =>
      rw [envelope] at valid
      simpa [isGasPriceValid, CoversFees] using valid
  | type1 chainId gasPrice accessList =>
      rw [envelope] at valid
      simp [isGasPriceValid] at valid
  | type2 chainId maxPriorityFeePerGas maxFeePerGas accessList =>
      rw [envelope] at valid
      simpa [isGasPriceValid, CoversFees] using valid

def Expected (transaction : TypedTransaction) (nonce : ℕ) : Prop :=
  FromWorker validator request transaction ∧ validator.relayCallSignature <+: transaction.tx.data ∧
    transaction.tx.nonce = nonce

theorem validateTransactionInNonceGap_expected (transaction : TypedTransaction) (expectedNonce : ℕ)
    (result : TransactionValidationResult)
    (checked : validator.validateTransactionInNonceGap request transaction expectedNonce = .ok result)
    (valid : isTransactionValid result = true) : Expected validator request transaction expectedNonce := by
  unfold validateTransactionInNonceGap at checked
  rw [bind_ok] at checked
  obtain ⟨sender, recovered, made⟩ := checked
  cases made
  simp only [isTransactionValid, Bool.and_eq_true, decide_eq_true_eq] at valid
  obtain ⟨⟨⟨⟨⟨_, target⟩, signed⟩, method⟩, _⟩, nonce⟩ := valid
  rw [signed] at recovered
  exact ⟨⟨validateTransactionSender_ok request transaction recovered,
    (validateTransactionTarget_iff validator transaction).mp target⟩, List.isPrefixOf_iff_prefix.mp method, nonce⟩

/-- The transactions of the gap have consecutive nonces, in the order of their enumeration. -/
theorem validateNonceGapFilled_expected (values : List Raw) (expectedNonce : ℕ)
    (results : List TransactionValidationResult)
    (checked : validator.validateNonceGapFilled request expectedNonce values = .ok results)
    (valid : isTransactionValid.isNonceGapFilled results = true) :
    ∀ position, ∀ (inside : position < values.length), ∃ transaction,
      validator.fromSerializedData (values[position]) = .ok transaction ∧
        Expected validator request transaction (expectedNonce + position) := by
  induction values generalizing expectedNonce results with
  | nil => exact fun _ inside => absurd inside (Nat.not_lt_zero _)
  | cons rawTransaction rest ih =>
      rw [validateNonceGapFilled] at checked
      simp only [bind_ok] at checked
      obtain ⟨transaction, parsed, result, judged, later, looped, made⟩ := checked
      cases made
      have both := (isNonceGapFilled_cons result later).mp valid
      intro position inside
      cases position with
      | zero =>
          exact ⟨transaction, parsed,
            validateTransactionInNonceGap_expected validator request transaction expectedNonce result judged both.1⟩
      | succ position =>
          obtain ⟨other, found, expected⟩ := ih (expectedNonce + 1) later looped both.2 position
            (Nat.lt_of_succ_lt_succ inside)
          refine ⟨other, found, ?_⟩
          rw [show expectedNonce + (position + 1) = expectedNonce + 1 + position by omega]
          exact expected

theorem fillsGap_of_expected (nonceGapFilled : ObjectMap Raw) (nonce : ℕ)
    (size : nonce = request.metadata.relayLastKnownNonce + nonceGapFilled.enumerate.length)
    (expected : ∀ position, ∀ (inside : position < nonceGapFilled.enumerate.length), ∃ transaction,
      validator.fromSerializedData (nonceGapFilled.enumerate[position]).2 = .ok transaction ∧
        Expected validator request transaction (request.metadata.relayLastKnownNonce + position)) :
    FillsGap validator request nonceGapFilled nonce where
  each := by
    intro missing known below
    have inside : missing - request.metadata.relayLastKnownNonce < nonceGapFilled.enumerate.length := by omega
    obtain ⟨transaction, parsed, fits⟩ := expected _ inside
    refine ⟨_, ⟨nonceGapFilled.enumerate_perm.mem_iff.mp (List.getElem_mem inside), transaction, parsed, ?_⟩, ?_⟩
    · rw [fits.2.2]
      omega
    · intro other present
      obtain ⟨position, within, rfl⟩ :=
        List.mem_iff_getElem.mp (nonceGapFilled.enumerate_perm.mem_iff.mpr present.1)
      obtain ⟨second, found, same⟩ := present.2
      obtain ⟨third, again, placed⟩ := expected position within
      rw [found] at again
      cases again
      have position_eq : position = missing - request.metadata.relayLastKnownNonce := by
        have nonce := placed.2.2
        omega
      subst position_eq
      rfl
  only := by
    intro entry present
    obtain ⟨position, within, rfl⟩ := List.mem_iff_getElem.mp (nonceGapFilled.enumerate_perm.mem_iff.mpr present)
    obtain ⟨transaction, parsed, fits⟩ := expected position within
    refine ⟨transaction, parsed, fits.1, fits.2.1, ?_, ?_⟩
    · rw [fits.2.2]
      omega
    · rw [fits.2.2]
      omega

/-- A response that passes the checks, with the transaction that the client has parsed itself. -/
theorem validated_sound (returnedTx : Raw) (nonceGapFilled : ObjectMap Raw) (result : TransactionValidationResult)
    (validated : validator.validateRelayResponse request returnedTx nonceGapFilled = .ok result)
    (valid : isTransactionValid result = true) (transaction : TypedTransaction)
    (parsed : validator.fromSerializedData returnedTx = .ok transaction) :
    Answers validator request transaction ∧ FillsGap validator request nonceGapFilled transaction.tx.nonce := by
  unfold validateRelayResponse at validated
  simp only [bind_ok] at validated
  obtain ⟨found, again, sender, recovered, results, looped, made⟩ := validated
  obtain rfl := Except.ok.inj (parsed.symm.trans again)
  cases made
  simp only [isTransactionValid, Bool.and_eq_true, decide_eq_true_eq] at valid
  obtain ⟨⟨⟨⟨⟨⟨gasPrice, gap⟩, target⟩, signed⟩, content⟩, size⟩, permitted⟩ := valid
  rw [signed] at recovered
  have length : transaction.tx.nonce = request.metadata.relayLastKnownNonce + nonceGapFilled.enumerate.length := by
    rw [ObjectMap.keys, List.length_map] at size
    omega
  constructor
  · have fromWorker : FromWorker validator request transaction :=
      ⟨validateTransactionSender_ok request transaction recovered,
        (validateTransactionTarget_iff validator transaction).mp target⟩
    exact ⟨fromWorker, (of_decide_eq_true content).symm, by omega, permitted,
      isGasPriceValid_covers request transaction gasPrice⟩
  · apply fillsGap_of_expected validator request nonceGapFilled transaction.tx.nonce length
    intro position inside
    have bound : position < nonceGapFilled.values.length := by
      rw [ObjectMap.values, List.length_map]
      exact inside
    have expected := validateNonceGapFilled_expected validator request nonceGapFilled.values _ results looped gap
      position bound
    simp only [ObjectMap.values, List.getElem_map] at expected
    exact expected

/-- A response that passes the validation is the transaction of the request, behind a gap that is filled. -/
theorem accepted_response_sound (returnedTx : Raw) (nonceGapFilled : ObjectMap Raw)
    (result : TransactionValidationResult)
    (validated : validator.validateRelayResponse request returnedTx nonceGapFilled = .ok result)
    (valid : isTransactionValid result = true) :
    ∃ transaction, validator.fromSerializedData returnedTx = .ok transaction ∧
      Answers validator request transaction ∧
      FillsGap validator request nonceGapFilled transaction.tx.nonce := by
  obtain ⟨transaction, parsed⟩ : ∃ transaction, validator.fromSerializedData returnedTx = .ok transaction := by
    unfold validateRelayResponse at validated
    simp only [bind_ok] at validated
    obtain ⟨transaction, parsed, _⟩ := validated
    exact ⟨transaction, parsed⟩
  exact ⟨transaction, parsed,
    validated_sound validator request returnedTx nonceGapFilled result validated valid transaction parsed⟩

def someRequest : RelayTransactionRequest where
  relayRequest := ⟨⟨5, 6, 0, 100000, 0, [], 0⟩, ⟨20, 2, 1000, 7, 8, 9, [], 1⟩⟩
  paymaster := ['0', 'x', '8']
  metadata := ⟨[71], 285252, ['0', 'x', '9'], [1, 2], [], 10, 3⟩

def someValidator : RelayedTransactionValidator ℕ where
  relayHubAddress := some 9
  relayCallSignature := [1, 2, 3, 4]
  fromSerializedData
    | 0 => .ok ⟨⟨4, 500000, some 9, 0, encodeABI [1, 2, 3, 4] (someRequest.call 285252)⟩, .type2 1 2 20 [], .ok 7⟩
    | 1 => .ok ⟨⟨3, 500000, some 9, 0, [1, 2, 3, 4, 5]⟩, .legacy 1 none, .ok 7⟩
    | _ => .error "invalid"

theorem singleKey : ([(['3'], 1)].map Prod.fst : List (List Char)).Nodup := by decide

def someGap : ObjectMap ℕ := ⟨[(['3'], 1)], singleKey⟩

theorem accepted_response_sound_sample :
    ∃ transaction, someValidator.fromSerializedData 0 = .ok transaction ∧
      Answers someValidator someRequest transaction ∧
      FillsGap someValidator someRequest someGap transaction.tx.nonce := by
  have valid :
      (someValidator.validateRelayResponse someRequest 0 someGap).toOption.map isTransactionValid = some true := by
    decide +kernel
  cases validated : someValidator.validateRelayResponse someRequest 0 someGap with
  | error message =>
      rw [validated] at valid
      cases valid
  | ok result =>
      rw [validated] at valid
      exact accepted_response_sound someValidator someRequest 0 someGap result validated (Option.some.inj valid)

end RelayedTransactionValidator

end OpenGsn.Provider
