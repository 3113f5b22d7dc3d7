import OpenGsn.Forwarder.Replay
import OpenGsn.Paymasters.ProxyIdentity
import OpenGsn.Solidity.CalldataDecoder

/-! `ERC2771Recipient.sol`, and what a recipient sees of a request that its forwarder executes. -/

namespace OpenGsn.Forwarder

open Solidity Reentry

namespace Recipient

structure Storage where
  trustedForwarder : Address
  deriving DecidableEq, Repr

variable (storage : Storage)

def isTrustedForwarder (forwarder : Address) : Bool := forwarder = storage.trustedForwarder

def msgSender (sender : Address) (data : Bytes) : Address :=
  if 20 ≤ data.length ∧ isTrustedForwarder storage sender then
    Fin.ofNat (2 ^ 160) (calldataload data (data.length - 20) / 2 ^ 96)
  else
    sender

def msgData (sender : Address) (data : Bytes) : Bytes :=
  if 20 ≤ data.length ∧ isTrustedForwarder storage sender then
    data.take (data.length - 20)
  else
    data

end Recipient

open Recipient

theorem ofBigEndian_zeros (length : ℕ) : ofBigEndian (List.replicate length 0) = 0 := by
  induction length with
  | zero => rfl
  | succ length ih => rw [List.replicate_succ', ofBigEndian_concat, ih]; rfl

/-- The first 20 bytes of the word 20 bytes before the end are the last bytes of the data. -/
theorem calldataload_last (data : Bytes) (long : 20 ≤ data.length) :
    calldataload data (data.length - 20) / 2 ^ 96 = ofBigEndian (data.drop (data.length - 20)) := by
  have width : (data.drop (data.length - 20)).length = 20 := by
    rw [List.length_drop]
    omega
  have loaded : (data.drop (data.length - 20) ++ List.replicate 32 0).take 32 =
      data.drop (data.length - 20) ++ List.replicate 12 0 := by
    rw [List.take_append, width, List.take_of_length_le (by omega), List.take_replicate]
    rfl
  calc calldataload data (data.length - 20) / 2 ^ 96
      = (ofBigEndian (data.drop (data.length - 20)) * 256 ^ 12 + 0) / 2 ^ 96 := by
        rw [calldataload, loaded, ofBigEndian_append, List.length_replicate, ofBigEndian_zeros]
    _ = ofBigEndian (data.drop (data.length - 20)) := by
        rw [Nat.add_zero, show (256 : ℕ) ^ 12 = 2 ^ 96 by norm_num, Nat.mul_div_cancel _ (by norm_num)]

theorem identity_msgSender (message : Proxies.Message) (identity : Proxies.Identity) :
    Proxies.msgSender message identity = msgSender ⟨identity.trustedForwarder⟩ message.sender message.data := by
  have trusted : isTrustedForwarder ⟨identity.trustedForwarder⟩ message.sender = true ↔
      Proxies.isTrustedForwarder message.sender identity := by
    simp [isTrustedForwarder, Proxies.isTrustedForwarder]
  simp only [Proxies.msgSender, msgSender, trusted]
  by_cases long : 20 ≤ message.data.length
  · rw [calldataload_last _ long]
    rfl
  · rw [if_neg (fun both => long both.1), if_neg (fun both => long both.1)]

variable (storage : Storage)

theorem msgSender_relayed (sender : Address) (data : Bytes) :
    msgSender storage storage.trustedForwarder (data ++ addressBytes sender) = sender := by
  have long : 20 ≤ (data ++ addressBytes sender).length := by simp
  have last : (data ++ addressBytes sender).drop ((data ++ addressBytes sender).length - 20) =
      addressBytes sender := by
    simp
  rw [msgSender, if_pos ⟨long, decide_eq_true rfl⟩, calldataload_last _ long, last,
    ofBigEndian_addressBytes]
  exact Fin.ofNat_val_eq_self sender

theorem msgData_relayed (sender : Address) (data : Bytes) :
    msgData storage storage.trustedForwarder (data ++ addressBytes sender) = data := by
  have long : 20 ≤ (data ++ addressBytes sender).length := by simp
  rw [msgData, if_pos ⟨long, decide_eq_true rfl⟩]
  simp

theorem seen_direct (sender : Address) (data : Bytes)
    (direct : sender ≠ storage.trustedForwarder ∨ data.length < 20) :
    msgSender storage sender data = sender ∧ msgData storage sender data = data := by
  have plain : ¬ (20 ≤ data.length ∧ isTrustedForwarder storage sender = true) := by
    rintro ⟨long, trusted⟩
    rcases direct with other | short
    · exact other (of_decide_eq_true trusted)
    · omega
  rw [msgSender, msgData, if_neg plain, if_neg plain]
  exact ⟨rfl, rfl⟩

variable (crypto : Crypto)

/-- The calls of an `execute` are the requested one and a payment without data. -/
theorem execute_makes (env : Env) (value : ℕ) (req : ForwardRequest)
    (domainSeparator requestTypeHash : Uint256) (suffixData sig : Bytes) (gasleft : ℕ) (s : State)
    (conducts : List (Conduct State Bytes Revert)) (call : TargetCall)
    (made : .target call ∈ (execute crypto env value req domainSeparator requestTypeHash suffixData sig
      gasleft s).calls conducts) :
    call = targetCall req := by
  obtain ⟨signed, refund, calls, requested, paid⟩ :=
    execute_calls crypto env value req domainSeparator requestTypeHash suffixData sig gasleft s conducts
  rw [calls] at made
  rcases List.mem_append.mp made with inside | later
  · rcases requested with rfl | ⟨rfl, _⟩
    · exact absurd inside List.not_mem_nil
    · exact Outgoing.target.inj (List.mem_singleton.mp inside)
  · rcases paid with rfl | ⟨amount, rfl⟩
    · exact absurd later List.not_mem_nil
    · exact nomatch List.mem_singleton.mp later

/-- In the call that its forwarder makes for a request, a recipient sees the sender and the data
of the request, as in a direct call; and nobody else can appear to be another sender. -/
theorem relayed_call_seen_as_direct (env : Env) (value : ℕ) (req : ForwardRequest)
    (domainSeparator requestTypeHash : Uint256) (suffixData sig : Bytes) (gasleft : ℕ) (s : State)
    (conducts : List (Conduct State Bytes Revert)) :
    (∀ call, .target call ∈ (execute crypto env value req domainSeparator requestTypeHash suffixData sig
        gasleft s).calls conducts →
      call.recipient = req.recipient ∧
      msgSender storage storage.trustedForwarder call.data = req.sender ∧
      msgData storage storage.trustedForwarder call.data = req.data ∧
      (req.sender ≠ storage.trustedForwarder ∨ req.data.length < 20 →
        msgSender storage storage.trustedForwarder call.data = msgSender storage req.sender req.data ∧
        msgData storage storage.trustedForwarder call.data = msgData storage req.sender req.data)) ∧
    ∀ sender data, sender ≠ storage.trustedForwarder →
      msgSender storage sender data = sender ∧ msgData storage sender data = data := by
  refine ⟨fun call made => ?_, fun sender data other => seen_direct storage sender data (.inl other)⟩
  obtain rfl := execute_makes crypto env value req domainSeparator requestTypeHash suffixData sig gasleft s
    conducts call made
  have sender := msgSender_relayed storage req.sender req.data
  have data := msgData_relayed storage req.sender req.data
  refine ⟨rfl, sender, data, fun direct => ?_⟩
  have seen := seen_direct storage req.sender req.data direct
  exact ⟨sender.trans seen.1.symm, data.trans seen.2.symm⟩

def registeredState : State :=
  registerDomainSeparator sampleCrypto 9 sampleEnv [1] [2] (deploy sampleCrypto)

theorem relayed_call_seen_as_direct_sample :
    Outgoing.target ⟨8, [3] ++ addressBytes 7, 0, 1⟩ ∈
      (execute sampleCrypto sampleEnv 0 ⟨7, 8, 0, 1, 0, [3], 0⟩ sampleDomain sampleType [] [7] 100
        registeredState).calls [] ∧
    msgSender ⟨9⟩ 9 ([3] ++ addressBytes 7) = 7 ∧ msgData ⟨9⟩ 9 ([3] ++ addressBytes 7) = [3] := by
  have made : Outgoing.target ⟨8, [3] ++ addressBytes 7, 0, 1⟩ ∈
      (execute sampleCrypto sampleEnv 0 ⟨7, 8, 0, 1, 0, [3], 0⟩ sampleDomain sampleType [] [7] 100
        registeredState).calls [] := by decide +kernel
  have seen := (relayed_call_seen_as_direct ⟨9⟩ sampleCrypto sampleEnv 0 ⟨7, 8, 0, 1, 0, [3], 0⟩
    sampleDomain sampleType [] [7] 100 registeredState []).1 _ made
  exact ⟨made, seen.2.1, seen.2.2.1⟩

end OpenGsn.Forwarder
