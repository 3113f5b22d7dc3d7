import OpenGsn.GsnEip712Library

/-! `RelayCallStatus`, and how `innerRelayCall` hands it to `relayCall`. -/

namespace OpenGsn.RelayHub

open Solidity

inductive RelayCallStatus : Type
  | ok
  | relayedCallFailed
  | rejectedByPreRelayed
  | rejectedByForwarder
  | rejectedByRecipientRevert
  | postRelayedFailed
  | paymasterBalanceChanged
  deriving DecidableEq, Repr

namespace RelayCallStatus

def code : RelayCallStatus → ℕ
  | ok => 0
  | relayedCallFailed => 1
  | rejectedByPreRelayed => 2
  | rejectedByForwarder => 3
  | rejectedByRecipientRevert => 4
  | postRelayedFailed => 5
  | paymasterBalanceChanged => 6

def ofCode : ℕ → Option RelayCallStatus
  | 0 => some ok
  | 1 => some relayedCallFailed
  | 2 => some rejectedByPreRelayed
  | 3 => some rejectedByForwarder
  | 4 => some rejectedByRecipientRevert
  | 5 => some postRelayedFailed
  | 6 => some paymasterBalanceChanged
  | _ => none

@[simp] theorem ofCode_code (status : RelayCallStatus) : ofCode status.code = some status := by
  cases status <;> rfl

theorem code_lt (status : RelayCallStatus) : status.code < 2 ^ 256 := by
  cases status <;> decide

end RelayCallStatus

/-- `abi.encode(status, ret)` -/
def encodeStatus (status : RelayCallStatus) (ret : Bytes) : Bytes :=
  word status.code ++ word 64 ++ bytesTail ret

/-- `abi.decode(data, (RelayCallStatus, bytes))` -/
def decodeStatus (data : Bytes) : Except Revert (RelayCallStatus × Bytes) :=
  if data.length < 64 then
    .error (.data [])
  else
    match RelayCallStatus.ofCode (readWord data 0) with
    | none => .error (.data [])
    | some status => do
        let ret ← decodeBytes data 32
        .ok (status, ret)

/-- The revert data of the inner frame. -/
def revertWithStatus (status : RelayCallStatus) (ret : Bytes) : Bytes :=
  truncateInPlace (encodeStatus status ret)

theorem take_encodeStatus (status : RelayCallStatus) (ret : Bytes) (size : ℕ) (head : 96 ≤ size) :
    (encodeStatus status ret).take size = word status.code ++ word 64 ++ word ret.length ++
      (ret ++ List.replicate (padding ret.length) 0).take (size - 96) := by
  have words : encodeStatus status ret = (word status.code ++ word 64 ++ word ret.length) ++
      (ret ++ List.replicate (padding ret.length) 0) := by
    simp [encodeStatus, bytesTail]
  have length : (word status.code ++ word 64 ++ word ret.length).length = 96 := by simp
  rw [words, List.take_append, length, List.take_of_length_le (by omega)]

theorem decodeStatus_prefix (status : RelayCallStatus) (ret tail : Bytes) (fits : ret.length < 2 ^ 256) :
    decodeStatus (word status.code ++ word 64 ++ word ret.length ++ tail) =
      if ret.length ≥ 2 ^ 64 then .error (.panic 0x41)
      else if tail.length < ret.length then .error (.data [])
      else .ok (status, tail.take ret.length) := by
  have first := readWord_word [] (word 64 ++ word ret.length ++ tail) status.code status.code_lt
  have second := readWord_word (word status.code) (word ret.length ++ tail) 64 (by decide)
  have third := readWord_word (word status.code ++ word 64) tail ret.length fits
  have contents : (word status.code ++ word 64 ++ word ret.length ++ tail).drop 96 = tail :=
    List.drop_left' (by simp)
  have length : (word status.code ++ word 64 ++ word ret.length ++ tail).length = 96 + tail.length := by
    simp only [List.length_append, word_length]
  simp only [List.nil_append, ← List.append_assoc, List.length_nil, List.length_append,
    word_length, Nat.reduceAdd] at first second third
  generalize word status.code ++ word 64 ++ word ret.length ++ tail = data at *
  have whole : ¬ data.length < 64 := by omega
  have inside : ¬ (64 ≥ 2 ^ 64 ∨ data.length ≤ 64 + 31) := by omega
  simp only [decodeStatus, decodeBytes, if_neg whole, first, RelayCallStatus.ofCode_code, second,
    if_neg inside, third]
  by_cases huge : ret.length ≥ 2 ^ 64
  · simp only [if_pos huge]
    rfl
  · by_cases short : tail.length < ret.length
    · have cut : data.length < 64 + 32 + ret.length := by omega
      simp only [if_neg huge, if_pos cut, if_pos short]
      rfl
    · have complete : ¬ data.length < 64 + 32 + ret.length := by omega
      simp only [if_neg huge, if_neg complete, if_neg short, contents]
      rfl

theorem decodeStatus_revertWithStatus (status : RelayCallStatus) (ret : Bytes)
    (fits : ret.length < 2 ^ 256) :
    (ret.length ≤ 928 → decodeStatus (revertWithStatus status ret) = .ok (status, ret)) ∧
    (928 < ret.length → ∃ error, decodeStatus (revertWithStatus status ret) = .error error) := by
  have kept := take_encodeStatus status ret maxReturnSize (by decide)
  unfold revertWithStatus truncateInPlace
  rw [kept, decodeStatus_prefix status ret _ fits]
  have tail : ((ret ++ List.replicate (padding ret.length) 0).take (maxReturnSize - 96)).length =
      min 928 (ret.length + padding ret.length) := by
    simp [maxReturnSize]
  rw [tail]
  constructor
  · intro short
    have small : ¬ ret.length ≥ 2 ^ 64 := by omega
    have whole : ¬ min 928 (ret.length + padding ret.length) < ret.length := by omega
    rw [if_neg small, if_neg whole, List.take_take]
    simp only [maxReturnSize, Nat.min_eq_left short, List.take_left', Nat.reduceSub]
  · intro long
    have cut : min 928 (ret.length + padding ret.length) < ret.length := by omega
    rw [if_pos cut]
    split
    · exact ⟨_, rfl⟩
    · exact ⟨_, rfl⟩

end OpenGsn.RelayHub
