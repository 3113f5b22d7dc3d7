import OpenGsn.Relay.Relaying
import OpenGsn.Relay.NonceSafety

/-! One nonce, one transaction, also of a server that relays. -/

namespace OpenGsn.Relay

open Solidity Async

variable (config : Config) (hash : SignedTransaction → Uint256) (selector : Bytes) (relayHub : Address) (task : ℕ)

theorem slowDown_spec (alerted : Bool) (s : State) : Ok task (fun _ _ => True) (slowDown alerted) s := by
  unfold slowDown
  split
  · exact ok_ask task _ _ s fun _ _ _ => trivial
  · exact ok_pure task _ _ s trivial

theorem awaited_spec {α : Type} (result : Except String α) (s : State) :
    Ok task (fun _ _ => True) (awaited result) s := by
  apply ok_bind
  apply ok_ask
  intro later _ _
  exact ok_ofExcept task _ _ later fun _ _ => trivial

theorem validateRequest_spec (seen : Moment → Sight) (req : RelayTransactionRequest) (s : State) :
    Ok task (fun _ _ => True) (validateRequest config selector seen req) s := by
  apply ok_bind
  apply ok_check
  apply ok_bind
  apply ok_ofExcept
  intro _ _
  apply ok_bind
  apply ok_weaken _ _ _ _ _ (slowDown_spec task _ s)
  intro _ slowed _
  apply ok_bind
  apply ok_ask
  intro asked _ currentBlock
  apply ok_bind
  apply ok_ofExcept
  intro _ _
  apply ok_bind
  apply ok_weaken _ _ _ _ _ (validateMaxNonce_spec config task _ asked)
  intro _ counted _
  apply ok_bind
  apply ok_weaken _ _ _ _ _ (awaited_spec task _ counted)
  intro _ reputed _
  apply ok_bind
  apply ok_weaken _ _ _ _ _ (awaited_spec task _ reputed)
  intro limits limited _
  apply ok_bind
  apply ok_weaken _ _ _ _ _ (awaited_spec task _ limited)
  intro _ viewed _
  exact ok_pure task _ _ viewed trivial

theorem createRelayTransaction_spec (seen : Moment → Sight) (req : RelayTransactionRequest) (s : State) :
    Ok task (fun _ _ => True) (createRelayTransaction config hash selector relayHub task seen req) s := by
  apply ok_bind
  apply ok_weaken _ _ _ _ _ (validateRequest_spec config selector task seen req s)
  intro passed validated _
  apply ok_bind
  apply ok_ask
  intro accepted _ _
  apply ok_bind
  apply ok_weaken _ _ _ _ _ (sendTransaction_spec config hash task _ accepted)
  intro signed sent _
  apply ok_bind
  apply ok_readStore
  intro filled _
  apply ok_bind
  apply ok_ask
  intro replenished _ _
  exact ok_pure task _ _ replenished trivial

theorem duty_discipline :
    Discipline (duty config hash selector relayHub) mine restart Settled Consistent Expected Guaranteed where
  reflexive := (discipline config hash).reflexive
  chained := expected_trans
  compatible := (discipline config hash).compatible
  kept := (discipline config hash).kept
  started := by
    intro task code s _
    cases code with
    | relay seen req =>
        exact ended_safe task _ s (createRelayTransaction_spec config hash selector relayHub task seen req s)
    | manage details => exact ended_safe task _ s (sendTransaction_spec config hash task _ s)
    | drain owner gasPrice value currentBlock =>
        exact ended_safe task _ s (sendTransaction_spec config hash task _ s)
    | boost signer currentBlock minMaxPriorityFee =>
        exact ended_safe task _ s (boost_spec config hash task signer currentBlock minMaxPriorityFee s)
    | archive currentBlock => exact ended_safe task _ s (archive_spec config task currentBlock s)
  outside := (discipline config hash).outside
  restarted := (discipline config hash).restarted

theorem serve_consistent (transactionType : TransactionType) (mined : Address → ℕ) (events : List DutyEvent)
    (settled : World.Along (duty config hash selector relayHub) mine restart Settled events
      (initial transactionType mined)) :
    Consistent (serve config hash selector relayHub events (initial transactionType mined)).state := by
  have start : Consistent (initial transactionType mined).state :=
    ⟨by simp [initial], by simp [initial], by simp [initial], by simp [initial], by simp [initial]⟩
  exact (run_sound (duty_discipline config hash selector relayHub) events _ ⟨start, fun _ => trivial⟩ settled).holds

theorem consistent_same_tx (s : State) (consistent : Consistent s) (first second : SignedTransaction)
    (one : first ∈ s.broadcasts) (two : second ∈ s.broadcasts) (senders : first.sender = second.sender)
    (nonces : first.tx.nonce = second.tx.nonce) : first.tx = second.tx := by
  obtain ⟨_, old1, written1, sender1, data1⟩ := consistent.broadcast first one
  obtain ⟨_, old2, written2, sender2, data2⟩ := consistent.broadcast second two
  have nonce1 : old1.nonce = first.tx.nonce := congrArg TxData.nonce data1
  have nonce2 : old2.nonce = second.tx.nonce := congrArg TxData.nonce data2
  have key : old1.nonceSigner = old2.nonceSigner := by
    simp [StoredTransaction.nonceSigner, sender1, sender2, nonce1, nonce2, senders, nonces]
  rw [← data1, ← data2]
  exact consistent.agreed old1 written1 old2 written2 key

end OpenGsn.Relay
