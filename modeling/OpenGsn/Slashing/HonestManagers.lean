import OpenGsn.Slashing.System
import OpenGsn.StakeManager.Penalties
import OpenGsn.RelayHub.Registered
import OpenGsn.RelayHub.Workers
import OpenGsn.Penalizer.CommitReveal
import OpenGsn.Penalizer.IllegalTransactions

/-! A relay manager whose workers are honest is never penalized. -/

namespace OpenGsn.Slashing

open Solidity Reentry RelayHub Penalizer
open StakeManager (Unpenalized Trusting penaltiesOf)

variable (crypto : Crypto) (addresses : Immutables) (delays : Delays)

/-- What the key of a worker signs: calls of `relayCall` on the hub, with one nonce no two that differ in more
than type and fees. -/
structure Honest (hub : Address) (signed : Set (TxData × Envelope)) : Prop where
  wellFormed : ∀ tx ∈ signed, WellFormed tx.1 tx.2
  legal : ∀ tx ∈ signed, IsRelayCall crypto hub tx.1
  once : ∀ first ∈ signed, ∀ second ∈ signed, ¬ Repeated first.1 second.1

def Authentic (signed : Set (TxData × Envelope)) (worker : Address) (raw signature : Bytes) : Prop :=
  crypto.recover (crypto.keccak256 raw) signature = some worker → ∃ tx ∈ signed, unsignedTx tx.1 tx.2 = raw

def Unforged (signed : Set (TxData × Envelope)) (worker : Address) : Penalizer.Input → Prop
  | .commit _ _ => True
  | .penalizeRepeatedNonce _ _ unsignedTx1 signature1 unsignedTx2 signature2 _ _ =>
      Authentic crypto signed worker unsignedTx1 signature1 ∧ Authentic crypto signed worker unsignedTx2 signature2
  | .penalizeIllegalTransaction _ _ unsignedTx signature _ _ => Authentic crypto signed worker unsignedTx signature

theorem illegalTransactionSigner_recovered (unsignedTx signature : Bytes) (hub worker : Address) (beyond : Memory)
    (judged : illegalTransactionSigner crypto unsignedTx signature hub beyond = .ok worker) :
    crypto.recover (crypto.keccak256 unsignedTx) signature = some worker ∧ worker ≠ 0 := by
  simp only [illegalTransactionSigner, bind_ok] at judged
  obtain ⟨valid, _, judged⟩ := judged
  -- every branch ends with the recovery of the signer
  have ended : ∃ signer, crypto.recoverSigner (crypto.keccak256 unsignedTx) signature = .ok signer ∧
      ∃ _ : Unit, signer ≠ 0 ∧ Except.ok (ε := Revert) signer = .ok worker := by
    split at judged
    · simp only [bind_ok] at judged
      obtain ⟨decodedTx, _, judged⟩ := judged
      split at judged
      · simp only [bind_ok, require_ok] at judged
        obtain ⟨_, _, _, _, judged⟩ := judged
        exact judged
      · simpa only [bind_ok, require_ok] using judged
    · simpa only [bind_ok, require_ok] using judged
  obtain ⟨signer, recovered, _, nonzero, same⟩ := ended
  obtain rfl := Except.ok.inj same
  exact ⟨(recoverSigner_ok crypto _ signature signer).mp recovered, nonzero⟩

theorem repeatedNonceSigner_recovered (unsignedTx1 signature1 unsignedTx2 signature2 : Bytes) (worker : Address)
    (beyond : Memory)
    (judged : repeatedNonceSigner crypto unsignedTx1 signature1 unsignedTx2 signature2 beyond = .ok worker) :
    crypto.recover (crypto.keccak256 unsignedTx1) signature1 = some worker ∧
      crypto.recover (crypto.keccak256 unsignedTx2) signature2 = some worker ∧ worker ≠ 0 := by
  simp only [repeatedNonceSigner, bind_ok, require_ok] at judged
  obtain ⟨first, recovered, second, recoveredToo, _, rfl, _, nonzero, _, _, _, _, _, _, _, _, same⟩ := judged
  obtain rfl := Except.ok.inj same
  exact ⟨(recoverSigner_ok crypto _ signature1 first).mp recovered,
    (recoverSigner_ok crypto _ signature2 first).mp recoveredToo, nonzero⟩

theorem honest_not_repeated (hub worker : Address) (signed : Set (TxData × Envelope))
    (honest : Honest crypto hub signed) (unsignedTx1 signature1 unsignedTx2 signature2 : Bytes) (beyond : Memory)
    (authentic : Authentic crypto signed worker unsignedTx1 signature1)
    (authenticToo : Authentic crypto signed worker unsignedTx2 signature2) :
    repeatedNonceSigner crypto unsignedTx1 signature1 unsignedTx2 signature2 beyond ≠ .ok worker := by
  intro judged
  obtain ⟨recovered, recoveredToo, nonzero⟩ := repeatedNonceSigner_recovered crypto _ _ _ _ worker beyond judged
  obtain ⟨first, member, rfl⟩ := authentic recovered
  obtain ⟨second, memberToo, rfl⟩ := authenticToo recoveredToo
  obtain ⟨nonce, differs, _⟩ := (repeatedNonceSigner_ok crypto first.1 second.1 first.2 second.2 signature1
    signature2 worker worker beyond (honest.wellFormed first member).encodable
    (honest.wellFormed second memberToo).encodable nonzero recovered recoveredToo).mp judged
  have once := honest.once first member second memberToo
  rw [Repeated, not_and] at once
  have same := once nonce
  simp only [not_or, not_not] at same
  obtain ⟨data, gasLimit, recipient, value⟩ := same
  apply differs
  simp only [dataToCheck, decoded]
  rw [data, gasLimit, recipient, value]

theorem honest_not_illegal (hub worker : Address) (signed : Set (TxData × Envelope))
    (honest : Honest crypto hub signed) (raw signature : Bytes) (beyond : Memory)
    (authentic : Authentic crypto signed worker raw signature) :
    illegalTransactionSigner crypto raw signature hub beyond ≠ .ok worker := by
  intro judged
  obtain ⟨recovered, nonzero⟩ := illegalTransactionSigner_recovered crypto raw signature hub worker beyond judged
  obtain ⟨tx, member, rfl⟩ := authentic recovered
  obtain ⟨toHub, selected⟩ := honest.legal tx member
  rw [illegalTransactionSigner_unsignedTx crypto tx.1 tx.2 signature hub worker beyond
    (honest.wellFormed tx member) nonzero recovered, if_pos (by rw [toHub]; rfl)] at judged
  have long := selected.length_le
  rw [relayCallSelector_length] at long
  obtain ⟨selector, read, legal⟩ := getMethodSig_prefix crypto tx.1.data long
  rw [read, legal.mpr selected] at judged
  simp [bind, Except.bind, require] at judged

section Manager

variable (relayManager : Address) (workers : Set Address) (signed : Address → Set (TxData × Envelope))
  (penalties : List StakeManager.Event)

/-- The manager answers for honest workers only, and to one hub only. -/
structure Spared (workerToManager : Address → Address) (stakeManager : StakeManager.State) : Prop where
  workers : ∀ worker, workerToManager worker = relayManager → worker ∈ workers
  unpenalized : Unpenalized relayManager addresses.this penalties stakeManager

/-- The manager adds no other workers, it and its owner authorize no other hub, and nobody forges the
signatures of the workers. -/
def Prudent : Input → System → Prop
  | .penalizer input, _ => ∀ worker ∈ workers, Unforged crypto (signed worker) worker input
  | .world (.hub sender _ (.addRelayWorkers newRelayWorkers)), _ =>
      sender = relayManager → ∀ worker ∈ newRelayWorkers, worker ∈ workers
  | .world (.stakeManager sender call), s =>
      Trusting relayManager addresses.this sender s.world.stakeManager call
  | _, _ => True

abbrev spared : System → Prop :=
  fun s => Holds (Spared addresses relayManager workers penalties) s.world

theorem penalize_spared (env : Env) (sender worker beneficiary : Address) (w next : World)
    (guilty : worker ∉ workers)
    (taken : RelayHub.penalize addresses env sender worker beneficiary w = .ok next)
    (held : Holds (Spared addresses relayManager workers penalties) w) :
    Holds (Spared addresses relayManager workers penalties) next := by
  simp only [RelayHub.penalize, bind_ok, Except.ok.injEq] at taken
  obtain ⟨_, _, _, _, _, _, stakeManager, penalized, rfl⟩ := taken
  refine ⟨held.workers, ?_⟩
  refine StakeManager.execute_unpenalized relayManager addresses.stakeManager addresses.this penalties env
    addresses.this (.penalizeRelayManager (w.hub.workerToManager worker) beneficiary _) w.stakeManager stakeManager
    trivial ?_ penalized held.unpenalized
  rintro _ _ own
  obtain ⟨own, _, _⟩ := StakeManager.Call.penalizeRelayManager.inj own
  exact absurd (held.workers worker own) guilty

theorem penalizer_spared (honest : ∀ worker ∈ workers, Honest crypto addresses.this (signed worker)) (env : Env)
    (input : Penalizer.Input) (s : System)
    (unforged : ∀ worker ∈ workers, Unforged crypto (signed worker) worker input)
    (held : spared addresses relayManager workers penalties s) :
    (entry crypto addresses delays env (.penalizer input) s).Meets
      (fun first second => spared addresses relayManager workers penalties first →
        spared addresses relayManager workers penalties second)
      (spared addresses relayManager workers penalties)
      (fun final _ => spared addresses relayManager workers penalties final) := by
  cases input with
  | commit sender commitHash => exact commit_meets crypto addresses delays env _ _ _ sender commitHash s fun _ => held
  | penalizeRepeatedNonce sender msgData unsignedTx1 signature1 unsignedTx2 signature2 hub beyond =>
      apply reveal_meets
      · exact fun _ _ => held
      · exact fun _ _ _ moved => moved held
      · rintro _ worker next _ judged rfl penalized
        refine penalize_spared addresses relayManager workers penalties env _ worker sender s.world next ?_
          penalized held
        intro member
        obtain ⟨first, second⟩ := unforged worker member
        exact honest_not_repeated crypto _ worker _ (honest worker member) _ _ _ _ beyond first second judged
  | penalizeIllegalTransaction sender msgData unsignedTx signature hub beyond =>
      apply reveal_meets
      · exact fun _ _ => held
      · exact fun _ _ _ moved => moved held
      · rintro _ worker next _ judged rfl penalized
        refine penalize_spared addresses relayManager workers penalties env _ worker sender s.world next ?_
          penalized held
        intro member
        exact honest_not_illegal crypto _ worker _ (honest worker member) _ _ beyond (unforged worker member) judged

theorem addRelayWorkers_spared (sender : Address) (newRelayWorkers : List Address) (w next : World)
    (prudent : sender = relayManager → ∀ worker ∈ newRelayWorkers, worker ∈ workers)
    (added : addRelayWorkers addresses sender newRelayWorkers w = .ok next)
    (held : Holds (Spared addresses relayManager workers penalties) w) :
    Holds (Spared addresses relayManager workers penalties) next := by
  obtain ⟨_, _, _, written, _⟩ := addRelayWorkers_ok addresses sender newRelayWorkers w next added
  simp only [addRelayWorkers, bind_ok, Except.ok.injEq] at added
  obtain ⟨_, _, _, _, _, _, hub, _, rfl⟩ := added
  refine ⟨?_, held.unpenalized⟩
  intro worker own
  rw [written, assigned_apply] at own
  split at own
  · exact prudent own worker ‹_›
  · exact held.workers worker own

theorem hub_spared (env : Env) (sender : Address) (value : ℕ) (call : RelayHub.Call) (w : World)
    (outside : sender ≠ addresses.penalizer)
    (prudent : ∀ newRelayWorkers, call = .addRelayWorkers newRelayWorkers → sender = relayManager →
      ∀ worker ∈ newRelayWorkers, worker ∈ workers)
    (held : Holds (Spared addresses relayManager workers penalties) w) :
    (hubCode crypto addresses env sender value call w).Meets
      (fun first second => Holds (Spared addresses relayManager workers penalties) first →
        Holds (Spared addresses relayManager workers penalties) second)
      (Holds (Spared addresses relayManager workers penalties))
      (fun final _ => Holds (Spared addresses relayManager workers penalties) final) := by
  by_cases apart : call.registers
  · cases call with
    | onRelayServerRegistered manager =>
        apply Code.meets_check
        intro next taken
        obtain ⟨stakeManager, rfl, updated⟩ := onRelayServerRegistered_ok addresses env sender manager w next taken
        refine ⟨held.workers, ?_⟩
        exact StakeManager.execute_unpenalized relayManager addresses.stakeManager addresses.this penalties env
          addresses.this (.updateRelayKeepaliveTime manager) w.stakeManager stakeManager trivial
          (fun _ _ other => nomatch other) updated held.unpenalized
    | addRelayWorkers newRelayWorkers =>
        apply Code.meets_check
        intro next added
        exact addRelayWorkers_spared addresses relayManager workers penalties sender newRelayWorkers w next
          (prudent newRelayWorkers rfl) added held
    | penalize relayWorker beneficiary =>
        apply Code.meets_check
        intro next taken
        simp only [RelayHub.penalize, bind_ok, require_ok] at taken
        obtain ⟨_, own, _⟩ := taken
        exact absurd own outside
    | _ => exact absurd apart id
  · exact hubCode_holds _ crypto addresses env sender value call w apart held

theorem world_spared (env : Env) (input : RelayHub.Input) (s : System)
    (prudent : Prudent crypto addresses relayManager workers signed (.world input) s)
    (held : spared addresses relayManager workers penalties s) :
    (entry crypto addresses delays env (.world input) s).Meets
      (fun first second => spared addresses relayManager workers penalties first →
        spared addresses relayManager workers penalties second)
      (spared addresses relayManager workers penalties)
      (fun final _ => spared addresses relayManager workers penalties final) := by
  apply Code.meets_check
  intro _ outside
  rw [require_ok] at outside
  suffices met : (RelayHub.entry crypto addresses env input s.world).Meets
      (fun first second => Holds (Spared addresses relayManager workers penalties) first →
        Holds (Spared addresses relayManager workers penalties) second)
      (Holds (Spared addresses relayManager workers penalties))
      (fun final _ => Holds (Spared addresses relayManager workers penalties) final) from
    entryWithin_meets System.world System.setWorld Outgoing.world crypto addresses env (fun _ _ => rfl) input s met
  cases input with
  | hub sender value call =>
      apply Code.meets_check
      intro _ _
      apply Code.meets_check
      intro _ _
      refine hub_spared crypto addresses relayManager workers penalties env sender value call s.world outside ?_ held
      rintro newRelayWorkers rfl
      exact prudent
  | stakeManager sender call =>
      apply Code.meets_check
      intro _ elsewhere
      rw [require_ok] at elsewhere
      apply Code.meets_check
      intro next taken
      simp only [StakeManager.step, bind_ok, Except.ok.injEq] at taken
      obtain ⟨stakeManager, ⟨_, _, executed⟩, rfl⟩ := taken
      refine ⟨held.workers, ?_⟩
      exact StakeManager.execute_unpenalized relayManager addresses.stakeManager addresses.this penalties env sender
        call s.world.stakeManager stakeManager prudent (fun _ _ _ => elsewhere) executed held.unpenalized
  | forwarder account call =>
      refine Code.meets_weaken _ (Code.meets_zoom _ _ _ ?_ ?_ _ s.world s.world ?_) (fun _ seen => seen held)
        fun _ _ ended => ended held
      · exact fun _ _ same => same
      · exact fun _ _ _ early late start => late (early start)
      · exact fun same => same
  | forceEther amount => exact held
  | tokenActivity token ledger =>
      apply Code.meets_check
      intro next taken
      simp only [StakeManager.step, bind_ok, Except.ok.injEq] at taken
      obtain ⟨stakeManager, ⟨_, _, rfl⟩, rfl⟩ := taken
      exact ⟨held.workers, held.unpenalized.penalties, held.unpenalized.alone⟩

end Manager

/-- As long as a relay manager adds only workers whose keys sign honestly, and trusts no other hub, nobody
ever penalizes it: whatever reports, re-entrant calls and calls of the three contracts anyone makes, in
every state in which anyone has control, its stake was reduced by no penalty. -/
theorem honest_manager_never_penalized (relayManager : Address) (workers : Set Address)
    (signed : Address → Set (TxData × Envelope))
    (honest : ∀ worker ∈ workers, Honest crypto addresses.this (signed worker)) (s : System)
    (registered : ∀ worker, s.world.hub.workerToManager worker = relayManager → worker ∈ workers)
    (authorized : ∀ hub, hub ≠ addresses.this →
      (s.world.stakeManager.authorizedHubs relayManager hub).removalTime = 0)
    (history : List (Env × Moves Input Bytes Revert))
    (prudent : ∀ turn ∈ historyEntered (entry crypto addresses delays) history s,
      Prudent crypto addresses relayManager workers signed turn.1 turn.2) :
    ∀ next ∈ historySeen (entry crypto addresses delays) history s,
      penaltiesOf relayManager next.world.stakeManager.events =
        penaltiesOf relayManager s.world.stakeManager.events := by
  intro next seen
  have start : spared addresses relayManager workers (penaltiesOf relayManager s.world.stakeManager.events) s :=
    ⟨registered, rfl, authorized⟩
  refine (history_allowed (entry crypto addresses delays)
    (Prudent crypto addresses relayManager workers signed) ?_ history s prudent start next
    seen).unpenalized.penalties
  intro env input state permitted held
  cases input with
  | penalizer input =>
      exact penalizer_spared crypto addresses delays relayManager workers signed _ honest env input state permitted
        held
  | world input =>
      exact world_spared crypto addresses delays relayManager workers signed _ env input state permitted held

def relayedCall : TxData := ⟨3, 100000, some 100, 0, relayCallSelector workerCrypto⟩

def slanderHistory : List (Env × Moves Input Bytes Revert) :=
  [(block 9, .enter (.penalizer (.commit 8 (commitHash workerCrypto [1] 8))) .none .stop),
    (block 17, .enter (.penalizer (.penalizeIllegalTransaction 8 [1] (unsignedTx relayedCall sampleEnvelope) [7]
      100 (fun _ => 0))) .none .stop)]

theorem honest_manager_never_penalized_slandered :
    registeredWorld.hub.workerToManager 7 = 31 ∧
    ∀ next ∈ historySeen (entry workerCrypto RelayHub.sampleAddresses sampleDelays) slanderHistory
      ⟨Penalizer.deploy, registeredWorld⟩,
      penaltiesOf 31 next.world.stakeManager.events = [] := by
  have unpenalized : penaltiesOf 31 registeredWorld.stakeManager.events = [] := by decide +kernel
  rw [← unpenalized]
  refine ⟨rfl, ?_⟩
  refine honest_manager_never_penalized workerCrypto RelayHub.sampleAddresses sampleDelays 31 {7}
    (fun _ => {(relayedCall, sampleEnvelope)}) ?_ ⟨Penalizer.deploy, registeredWorld⟩ ?_ ?_ slanderHistory ?_
  · intro worker _
    refine ⟨?_, ?_, ?_⟩
    · rintro _ rfl
      decide +kernel
    · rintro _ rfl
      exact ⟨rfl, List.prefix_refl _⟩
    · rintro _ rfl _ rfl ⟨_, differs⟩
      simp at differs
  · exact registeredWorld_worker
  · exact registeredWorld_authorized
  · intro turn member
    simp only [slanderHistory, historyEntered, Moves.entered, Replies.entered, List.append_nil,
      List.mem_append, List.mem_singleton] at member
    rcases member with rfl | rfl
    · exact fun _ _ => trivial
    · exact fun _ _ _ => ⟨_, rfl, rfl⟩

end OpenGsn.Slashing
