import OpenGsn.Relay.RegistrationSteps
import OpenGsn.StakeManager.Solvency

/-! A server that follows the chain, and when the hub accepts a manager that it reports as registered. -/

namespace OpenGsn.Relay

open Solidity Async RegistrationManager Runs

/-- What can happen on chain. Of a transaction of the hub, the calls of the stake manager are steps of
that, and what it does to the storage of the hub is another step. -/
inductive ChainStep : Type
  | stakeManager (input : StakeManager.Step)
  | hub (hub : RelayHub.Hub)
  | registrar (relayUrl : Option String)

/-- A new server may start at any time. The chain waits while `handlePastEvents` runs. Afterwards the
caller may keep its last scanned block or have another, `scanned` being the part of the log up to it. -/
inductive RegistrationInput : Type
  | chain (step : ChainStep)
  | init (latestBlock : ShortBlockInfo) (scanned : ℕ) (replies : ℕ → RegistrationReply)
  | handlePastEvents (currentBlock : ShortBlockInfo) (forceRegistration : Bool) (scanned : ℕ)
      (replies : ℕ → RegistrationReply)

/-- `completed` is a history variable: `handlePastEvents` has come to its end, with all events there are. -/
structure Follower where
  registration : Registration
  scanned : ℕ
  completed : Bool

variable (addresses : RelayHub.Immutables) (encodeABI : ContractMethod → Bytes) (config : RegistrationConfig)

def Registration.chainStep (s : Registration) : ChainStep → Registration
  | .stakeManager input =>
      let stakeManager := advance (StakeManager.step addresses.stakeManager) s.contracts.stakeManager input
      { s with contracts := s.contracts.setStakeManager stakeManager }
  | .hub hub => { s with contracts := s.contracts.setHub hub }
  | .registrar relayUrl => { s with relayUrl := relayUrl }

namespace Follower

def logLength (s : Registration) : ℕ := s.contracts.stakeManager.events.length

def started (s : Registration) (scanned : ℕ) (ended : Option (Except String (List Uint256) × Registration)) :
    Follower :=
  match ended with
  | some (_, t) => ⟨t, min scanned (logLength t), false⟩
  | none => ⟨s, min scanned (logLength s), false⟩

def passed (s : Follower) (scanned : ℕ) (ended : Option (Except String (List Uint256) × Registration)) : Follower :=
  match ended with
  | some (.ok _, t) => ⟨t, min scanned (logLength t), true⟩
  | some (.error _, t) => ⟨t, s.scanned, false⟩
  | none => ⟨s.registration, s.scanned, false⟩

def next (s : Follower) : RegistrationInput → Follower
  | .chain step => ⟨s.registration.chainStep addresses step, s.scanned, false⟩
  | .init latestBlock scanned replies =>
      let server := { s.registration with manager := fresh }
      started server scanned
        (Proc.finish replies 0 (RegistrationManager.init addresses encodeABI config latestBlock) server)
  | .handlePastEvents currentBlock forceRegistration scanned replies =>
      s.passed scanned (Proc.finish replies 0
        (RegistrationManager.handlePastEvents addresses encodeABI config currentBlock s.scanned forceRegistration)
        s.registration)

def initial (contracts : RelayHub.World) : Follower := ⟨⟨contracts, none, fresh, []⟩, 0, false⟩

def Accepted (s : Follower) : Prop :=
  s.completed = true → s.registration.manager.isRegistered config = true → s.registration.Verified addresses config

/-- The server relies on a stake that it has read before. -/
def Relying (m : RegistrationManager) : Prop := m.isStakeLocked = true ∧ m.stakeRequired.isSatisfied = true

/-- A stake that the server relies on is still there when it is read again, and still large enough when
it is not. -/
def Noticed (forceRegistration : Bool) (s : Follower) : Prop :=
  Relying s.registration.manager →
    if forceRegistration = true ∨ ∃ event ∈ eventsFrom config s.scanned s.registration, rereads event = true then
      (s.registration.stakeInfo config).stake ≠ 0
    else s.registration.manager.stakeRequired.requiredValue ≤ (s.registration.stakeInfo config).stake

def Accepts (hub : RelayHub.Hub) (info : StakeManager.StakeInfo) : Prop :=
  hub.minimumStakePerToken info.token ≠ 0 ∧ hub.minimumStakePerToken info.token ≤ info.stake ∧
    hub.config.minimumUnstakeDelay.val ≤ info.unstakeDelay

/-- A locked stake that the server takes for enough suits the hub, where all else is as it should be. -/
def Suited (s : Follower) : Prop :=
  s.registration.Authorized addresses config → s.registration.relayUrl = some config.url →
    (s.registration.stakeInfo config).withdrawTime = 0 →
      s.registration.manager.stakeRequired.requiredValue ≤ (s.registration.stakeInfo config).stake →
        Accepts s.registration.contracts.hub (s.registration.stakeInfo config)

def Sound (s : Follower) : RegistrationInput → Prop
  | .handlePastEvents _ forceRegistration _ _ => Noticed config forceRegistration s ∧ Suited addresses config s
  | _ => True

instance (s : Registration) : Decidable (s.Authorized addresses config) :=
  inferInstanceAs (Decidable (_ = _))

instance (s : Registration) : Decidable (s.Verified addresses config) := by
  unfold Registration.Verified
  infer_instance

instance (hub : RelayHub.Hub) (info : StakeManager.StakeInfo) : Decidable (Accepts hub info) :=
  inferInstanceAs (Decidable (_ ∧ _))

instance (s : Follower) (input : RegistrationInput) : Decidable (Sound addresses config s input) := by
  unfold Sound Noticed Suited Relying
  split <;> infer_instance

end Follower

end OpenGsn.Relay
