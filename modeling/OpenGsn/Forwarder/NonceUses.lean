import OpenGsn.Forwarder.Replay

/-! What sent transactions have executed under one nonce of a sender. -/

namespace OpenGsn.Forwarder

open Solidity Reentry

variable (crypto : Crypto)

/-- Somebody has sent the transactions: they are no view calls. -/
abbrev Sent : Type := { env : Env // env.origin ≠ 0 }

def Lasting (s : State) : Prop := ∀ use ∈ s.executed, use.origin ≠ 0

theorem sendBack_lasting (req : ForwardRequest) (result : Bool × Bytes) (s : State) (held : Lasting s) :
    (sendBack req result s).Meets (fun first second => Lasting first → Lasting second) Lasting
      (fun final _ => Lasting final) := by
  unfold sendBack
  split
  · exact ⟨held, fun _ _ moved => moved held, fun _ => trivial⟩
  · exact held

theorem executeVerified_lasting (env : Env) (use : Executed) (gasleft : ℕ) (s : State) (sent : use.origin ≠ 0)
    (held : Lasting s) :
    (executeVerified env use gasleft s).Meets (fun first second => Lasting first → Lasting second) Lasting
      (fun final _ => Lasting final) := by
  apply Code.meets_check
  intro next used
  have kept : Lasting next := by
    obtain ⟨_, _, rfl⟩ := (verifyAndUpdateNonce_ok use s next).mp used
    intro other member
    rcases List.mem_append.mp member with before | now
    · exact held other before
    · rw [List.mem_singleton.mp now]
      exact sent
  refine Code.meets_check _ _ fun _ _ => ?_
  refine Code.meets_check _ _ fun _ _ => ?_
  refine Code.meets_check _ _ fun _ _ => ?_
  refine Code.meets_check _ _ fun _ _ => ?_
  split
  · exact sendBack_lasting _ _ next kept
  · exact ⟨kept, fun after _ moved => sendBack_lasting _ _ after (moved kept), fun _ => sendBack_lasting _ _ next kept⟩

theorem entry_lasting (this : Address) (env : Sent) :
    Guarantee (entry crypto this env.1) (fun first second => Lasting first → Lasting second) := by
  apply guarantee_invariant
  intro call s held
  cases call with
  | receive value => exact held
  | verify req domainSeparator requestTypeHash suffixData sig => exact Code.meets_check _ _ fun _ _ => held
  | execute value req domainSeparator requestTypeHash suffixData sig gasleft =>
      exact Code.meets_check _ _ fun _ _ => executeVerified_lasting env.1 _ gasleft _ env.2 held
  | registerRequestType typeName typeSuffix =>
      refine Code.meets_check _ _ fun next registered => ?_
      simp only [registerRequestType, bind_ok, Except.ok.injEq] at registered
      obtain ⟨_, _, rfl⟩ := registered
      exact held
  | registerDomainSeparator name version => exact held

theorem sent_lasting (this : Address) (history : List (Sent × Moves Call Bytes Revert)) (s : State)
    (reached : s ∈ historySeen (fun env : Sent => entry crypto this env.1) history (deploy crypto)) : Lasting s := by
  have kept := history_seen_kept (fun env : Sent => entry crypto this env.1)
    (fun first second => Lasting first → Lasting second) (fun _ held => held) (entry_lasting crypto this) history
    (deploy crypto) s reached
  exact kept fun use impossible => absurd impossible List.not_mem_nil

theorem sent_consistent (this : Address) (history : List (Sent × Moves Call Bytes Revert)) (s : State)
    (reached : s ∈ historySeen (fun env : Sent => entry crypto this env.1) history (deploy crypto)) :
    Consistent crypto s :=
  (history_seen_kept (fun env : Sent => entry crypto this env.1) (Keeps crypto) (keeps_refl crypto)
    (fun env => entry_guarantee crypto this env.1) history (deploy crypto) s reached).consistent
    (deploy_consistent crypto)

def usesOf (s : State) (sender : Address) (nonce : Uint256) : List Executed :=
  (s.executed.filter fun use => use.request.sender = sender).filter fun use => use.request.nonce.val = nonce.val

theorem usesOf_length (s : State) (consistent : Consistent crypto s) (sender : Address) (nonce : Uint256) :
    (usesOf s sender nonce).length ≤ 1 := by
  have counted : (noncesOf s.executed sender).count nonce.val = (usesOf s sender nonce).length := by
    rw [noncesOf, usesOf, List.count_eq_countP, List.countP_map, List.countP_eq_length_filter]
    rfl
  rw [← counted, consistent.counted sender]
  exact List.nodup_iff_count_le_one.mp List.nodup_range nonce.val

end OpenGsn.Forwarder
