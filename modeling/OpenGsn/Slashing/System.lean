import OpenGsn.RelayHub.LockWindow
import OpenGsn.RelayHub.Writes
import OpenGsn.RelayHub.Within
import OpenGsn.Penalizer.RepeatedNonce
import OpenGsn.Reentry.Entered

/-! `Penalizer.sol`, `RelayHub.sol` and `StakeManager.sol` together: the hub's penalizer calls the hub, which
calls the stake manager. -/

namespace OpenGsn.Slashing

open Solidity Reentry RelayHub Penalizer

structure System where
  penalizer : Penalizer.State
  world : World

namespace System

def setPenalizer (penalizer : Penalizer.State) (s : System) : System := { s with penalizer }

def setWorld (world : World) (s : System) : System := { s with world }

end System

inductive Input : Type
  | penalizer (input : Penalizer.Input)
  | world (input : RelayHub.Input)

/-- What leaves the system. The penalizer takes the hub that it calls from the report. -/
inductive Outgoing : Type
  | otherHub (call : PenalizeCall)
  | world (call : RelayHub.Outgoing)

variable (crypto : Crypto) (addresses : Immutables) (delays : Delays) (env : Env)

def hubAnswers : Outgoing → System → Option (Except Revert (System × Bytes))
  | .otherHub call, s =>
      if call.hub = addresses.this then
        some ((RelayHub.penalize addresses env addresses.penalizer call.relayWorker call.beneficiary s.world).map
          fun world => (s.setWorld world, []))
      else
        none
  | .world _, _ => none

/-- The penalizer calls `penalize` only. -/
def Input.calls : Input → Address → Prop
  | .world (.hub sender _ _), account => sender = account
  | _, _ => False

instance (input : Input) (account : Address) : Decidable (input.calls account) := by
  unfold Input.calls
  split <;> infer_instance

def entry (input : Input) (s : System) : Code System Outgoing Bytes Revert Unit :=
  match input with
  | .penalizer input =>
      ((Penalizer.entry crypto delays env input s.penalizer).zoom System.penalizer System.setPenalizer
        Outgoing.otherHub s).link (hubAnswers addresses env)
  | .world input =>
      .check (require (¬ (Input.world input).calls addresses.penalizer) "the penalizer makes no other calls") fun _ =>
      entryWithin System.world System.setWorld Outgoing.world crypto addresses env input s

section Meets

variable (rely : System → System → Prop) (visit : System → Prop) (post : System → Prop)

/-- A report writes the commits, and the hub's penalty for the worker that the checks found guilty. -/
theorem reveal_meets (sender : Address) (msgData : Bytes) (hub : Address) (judged : Except Revert Address)
    (s : System)
    (visited : ∀ opened, commitRevealOnly crypto delays env sender msgData s.penalizer = .ok opened →
      visit (s.setPenalizer opened))
    (returned : ∀ opened after, commitRevealOnly crypto delays env sender msgData s.penalizer = .ok opened →
      rely (s.setPenalizer opened) after → post after)
    (penalized : ∀ opened worker world, commitRevealOnly crypto delays env sender msgData s.penalizer = .ok opened →
      judged = .ok worker → hub = addresses.this →
      RelayHub.penalize addresses env addresses.penalizer worker sender s.world = .ok world →
      post ((s.setPenalizer opened).setWorld world)) :
    (((reveal crypto delays env sender msgData hub judged s.penalizer).zoom System.penalizer System.setPenalizer
      Outgoing.otherHub s).link (hubAnswers addresses env)).Meets rely visit (fun final _ => post final) := by
  rw [reveal, Code.zoom_check, Code.link_check]
  apply Code.meets_check
  intro opened taken
  rw [Code.zoom_check, Code.link_check]
  apply Code.meets_check
  intro worker found
  by_cases own : hub = addresses.this
  · cases paid : RelayHub.penalize addresses env addresses.penalizer worker sender s.world with
    | error error =>
        simp only [Code.zoom, Code.link, hubAnswers, if_pos own]
        rw [show (s.setPenalizer opened).world = s.world from rfl, paid]
        trivial
    | ok world =>
        simp only [Code.zoom, Code.link, hubAnswers, if_pos own]
        rw [show (s.setPenalizer opened).world = s.world from rfl, paid]
        exact penalized opened worker world taken found own paid
  · simp only [Code.zoom, Code.link, hubAnswers, if_neg own]
    refine ⟨visited opened taken, ?_, fun _ => trivial⟩
    intro after value moved
    exact returned opened after taken moved

theorem commit_meets (sender : Address) (commitHash : Uint256) (s : System)
    (written : ∀ opened, post (s.setPenalizer opened)) :
    (entry crypto addresses delays env (.penalizer (.commit sender commitHash)) s).Meets rely visit
      (fun final _ => post final) := by
  change (((Code.check _ _).zoom _ _ _ s).link _).Meets _ _ _
  rw [Code.zoom_check, Code.link_check]
  apply Code.meets_check
  intro opened _
  exact written opened

end Meets

def registeredWorld : World :=
  { stakedWorld with hub := { stakedWorld.hub with
      workerToManager := fun worker => if worker = 7 then 31 else 0
      workerCount := fun relayManager => if relayManager = 31 then 1 else 0 } }

theorem registeredWorld_worker (worker : Address) (own : registeredWorld.hub.workerToManager worker = 31) :
    worker = 7 := by
  by_contra other
  have unregistered : registeredWorld.hub.workerToManager worker = 0 := if_neg other
  rw [unregistered] at own
  exact absurd own (by decide)

theorem registeredWorld_authorized (hub : Address) (other : hub ≠ 100) :
    (registeredWorld.stakeManager.authorizedHubs 31 hub).removalTime = 0 := by
  have removals : registeredWorld.stakeManager.authorizedHubs 31 =
      Function.update (fun _ => ⟨0⟩) 100 ⟨uint256Max⟩ := rfl
  rw [removals, Function.update_of_ne other]

end OpenGsn.Slashing
