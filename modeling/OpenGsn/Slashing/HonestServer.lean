import OpenGsn.Relay.RelayingSafety
import OpenGsn.Relay.RelayingNonces
import OpenGsn.Slashing.HonestManagers

/-! The keys that the server signs with, before the penalizer. -/

namespace OpenGsn.Slashing

open Solidity Reentry Penalizer
open StakeManager (penaltiesOf)
open Relay (Config Duty DutyEvent TransactionType Settled)

/-- The server does not send the ether of its worker away. -/
def Staying : Duty → Prop
  | .drain _ _ _ _ => False
  | _ => True

def servedBy (worker : Address) (s : Relay.State) : Set (TxData × Envelope) :=
  fun tx => ∃ signed ∈ s.broadcasts, signed.sender = worker ∧ (signed.tx, signed.envelope) = tx

variable (crypto : Crypto) (addresses : RelayHub.Immutables) (delays : Delays)
  (config : Config) (hash : SignedTransaction → Uint256)

section Served

variable (transactionType : TransactionType) (mined : Address → ℕ) (events : List DutyEvent)

abbrev served : Relay.State :=
  (Relay.serve config hash (relayCallSelector crypto) addresses.this events
    (Relay.initial transactionType mined)).state

theorem served_honest (distinct : config.managerAddress ≠ config.workerAddress)
    (staying : ∀ task code, Async.Event.start task code ∈ events → Staying code)
    (configured : ∀ task code, Async.Event.start task code ∈ events → code.Configured config)
    (settled : Async.World.Along (Relay.duty config hash (relayCallSelector crypto) addresses.this) Relay.mine
      Relay.restart Settled events (Relay.initial transactionType mined)) :
    Honest crypto addresses.this
      (servedBy config.workerAddress (served crypto addresses config hash transactionType mined events)) := by
  have consistent := Relay.serve_consistent config hash (relayCallSelector crypto) addresses.this transactionType
    mined events settled
  have admitted := Relay.serve_admits config hash (relayCallSelector crypto) addresses.this distinct transactionType
    mined events configured
  refine ⟨?_, ?_, ?_⟩
  · rintro _ ⟨signed, sent, _, rfl⟩
    exact (consistent.broadcast signed sent).1
  · rintro _ ⟨signed, sent, worker, rfl⟩
    rcases admitted.broadcast signed sent worker with ⟨_, _, _, _, _, relays⟩ | ⟨task, owner, _, _, _, drained, _⟩
    · obtain ⟨acceptanceBudget, _, data⟩ := relays.data
      refine ⟨relays.recipient, ?_⟩
      rw [data]
      exact List.prefix_append _ _
    · exact (staying task _ drained).elim
  · rintro _ ⟨first, one, firstWorker, rfl⟩ _ ⟨second, two, secondWorker, rfl⟩ ⟨nonces, differ⟩
    have same := Relay.consistent_same_tx _ consistent first second one two (firstWorker.trans secondWorker.symm)
      nonces
    simp [same] at differ

/-- The operator of a server that relays for anyone, and boosts, and restarts, never loses stake: as long as
the worker's ether is not withdrawn and the worker's key is used by this server only, in any history of
reports and calls of the contracts, re-entrant ones included, the manager's stake is reduced by no penalty. -/
theorem server_manager_never_penalized (distinct : config.managerAddress ≠ config.workerAddress)
    (staying : ∀ task code, Async.Event.start task code ∈ events → Staying code)
    (configured : ∀ task code, Async.Event.start task code ∈ events → code.Configured config)
    (settled : Async.World.Along (Relay.duty config hash (relayCallSelector crypto) addresses.this) Relay.mine
      Relay.restart Settled events (Relay.initial transactionType mined)) (s : System)
    (registered : ∀ worker, s.world.hub.workerToManager worker = config.managerAddress →
      worker = config.workerAddress)
    (authorized : ∀ hub, hub ≠ addresses.this →
      (s.world.stakeManager.authorizedHubs config.managerAddress hub).removalTime = 0)
    (history : List (Env × Moves Input Bytes Revert))
    (prudent : ∀ turn ∈ historyEntered (entry crypto addresses delays) history s,
      Prudent crypto addresses config.managerAddress {config.workerAddress}
        (fun worker => servedBy worker (served crypto addresses config hash transactionType mined events))
        turn.1 turn.2) :
    ∀ next ∈ historySeen (entry crypto addresses delays) history s,
      penaltiesOf config.managerAddress next.world.stakeManager.events =
        penaltiesOf config.managerAddress s.world.stakeManager.events := by
  intro next seen
  set signed := fun worker => servedBy worker (served crypto addresses config hash transactionType mined events)
  have honest : ∀ worker ∈ ({config.workerAddress} : Set Address), Honest crypto addresses.this (signed worker) := by
    rintro worker rfl
    exact served_honest crypto addresses config hash transactionType mined events distinct staying configured settled
  have start : spared addresses config.managerAddress {config.workerAddress}
      (penaltiesOf config.managerAddress s.world.stakeManager.events) s :=
    ⟨registered, rfl, authorized⟩
  refine (history_allowed (entry crypto addresses delays)
    (Prudent crypto addresses config.managerAddress {config.workerAddress} signed) ?_ history s prudent start next
    seen).unpenalized.penalties
  intro env input state permitted held
  cases input with
  | penalizer input =>
      exact penalizer_spared crypto addresses delays config.managerAddress {config.workerAddress} signed _ honest env
        input state permitted held
  | world input =>
      exact world_spared crypto addresses delays config.managerAddress {config.workerAddress} signed _ env input
        state permitted held

end Served

def operatorConfig : Config := { Relay.servingConfig with managerAddress := 31 }

abbrev operatedServer : Relay.State :=
  served workerCrypto RelayHub.sampleAddresses operatorConfig Relay.sampleHash .typeTwo (fun _ => 0)
    Relay.servedEvents

/-- Account 8 commits to a report, and then reports the transaction and its boost, as illegal and as two. -/
def accusations : List (Env × Moves Input Bytes Revert) :=
  match operatedServer.broadcasts with
  | [first, second] =>
      [(block 9, .enter (.penalizer (.commit 8 (commitHash workerCrypto [1] 8))) .none .stop),
        (block 17, .enter (.penalizer (.penalizeIllegalTransaction 8 [1] (unsignedTx first.tx first.envelope) [7]
          100 (fun _ => 0))) .none .stop),
        (block 18, .enter (.penalizer (.penalizeRepeatedNonce 8 [1] (unsignedTx first.tx first.envelope) [7]
          (unsignedTx second.tx second.envelope) [7] 100 (fun _ => 0))) .none .stop)]
  | _ => []

theorem server_manager_never_penalized_accused :
    accusations.length = 3 ∧
    ∀ next ∈ historySeen (entry workerCrypto RelayHub.sampleAddresses sampleDelays) accusations
      ⟨Penalizer.deploy, registeredWorld⟩,
      penaltiesOf 31 next.world.stakeManager.events = [] := by
  have unpenalized : penaltiesOf 31 registeredWorld.stakeManager.events = [] := by decide +kernel
  refine ⟨by decide +kernel, ?_⟩
  rw [← unpenalized]
  refine server_manager_never_penalized workerCrypto RelayHub.sampleAddresses sampleDelays operatorConfig
    Relay.sampleHash .typeTwo (fun _ => 0) Relay.servedEvents (by decide) ?_ ?_ (by decide +kernel)
    ⟨Penalizer.deploy, registeredWorld⟩ ?_ ?_ accusations ?_
  · intro task code started
    rcases Relay.served_duties task code started with rfl | rfl
    · trivial
    · trivial
  · intro task code started
    rcases Relay.served_duties task code started with rfl | rfl
    · exact rfl
    · trivial
  · exact registeredWorld_worker
  · exact registeredWorld_authorized
  · intro turn member
    unfold accusations at member
    split at member
    · rename_i first second sent
      have senders : ∀ signed ∈ operatedServer.broadcasts, signed.sender = 7 := by decide +kernel
      have own : ∀ signed ∈ operatedServer.broadcasts,
          Authentic workerCrypto (servedBy 7 operatedServer) 7 (unsignedTx signed.tx signed.envelope) [7] :=
        fun signed member _ => ⟨_, ⟨signed, member, senders signed member, rfl⟩, rfl⟩
      rw [sent] at own
      simp only [historyEntered, Moves.entered, Replies.entered, List.append_nil, List.mem_append,
        List.mem_singleton] at member
      rcases member with rfl | rfl | rfl
      · exact fun _ _ => trivial
      · rintro _ rfl
        exact own first List.mem_cons_self
      · rintro _ rfl
        exact ⟨own first List.mem_cons_self, own second (List.mem_cons_of_mem _ List.mem_cons_self)⟩
    · cases member

end OpenGsn.Slashing
