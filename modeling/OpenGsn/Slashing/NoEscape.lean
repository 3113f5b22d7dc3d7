import OpenGsn.Slashing.System
import OpenGsn.RelayHub.Workers
import OpenGsn.StakeManager.StakeLog
import OpenGsn.Penalizer.CommitReveal
import OpenGsn.Penalizer.IllegalTransactions

/-! A relay manager that the hub found staked cannot save its stake from a report that is right. -/

namespace OpenGsn.StakeManager

open Solidity

/-- What an event takes of the stake at most: a penalty burns no more than it rewards. -/
def Event.forfeits (relayManager : Address) : Event → ℕ
  | .stakePenalized manager _ _ reward => if manager = relayManager then 2 * reward else 0
  | .abandonedRelayManagerStakeEscheated manager _ _ amount => if manager = relayManager then amount else 0
  | _ => 0

def forfeited (relayManager : Address) (events : List Event) : ℕ :=
  (events.map (Event.forfeits relayManager)).sum

theorem forfeited_append (relayManager : Address) (first second : List Event) :
    forfeited relayManager (first ++ second) = forfeited relayManager first + forfeited relayManager second := by
  rw [forfeited, List.map_append, List.sum_append]
  rfl

theorem forfeited_penalized (relayManager beneficiary token : Address) (amount : ℕ) :
    amount ≤ forfeited relayManager [.stakePenalized relayManager beneficiary token (amount - amount / 2)] := by
  simp only [forfeited, List.map_cons, List.map_nil, List.sum_cons, List.sum_nil, Event.forfeits, if_pos]
  omega

theorem forfeited_escheated (relayManager owner token : Address) (amount : ℕ) :
    forfeited relayManager [.abandonedRelayManagerStakeEscheated relayManager owner token amount] = amount := by
  simp [forfeited, Event.forfeits]

end OpenGsn.StakeManager

namespace OpenGsn.Slashing

open Solidity Reentry RelayHub Penalizer
open StakeManager (Consistent Step step)

section Stake

variable (this relayHub relayManager token : Address) (maxUnstakeDelay deadline stake : ℕ)
  (log : List StakeManager.Event)

/-- Since the stake was `stake` and the log was `log`, it was lowered only by what the log tells. -/
def Remaining (s : StakeManager.State) : Prop :=
  ∃ events, s.events = log ++ events ∧
    stake ≤ (s.stakes relayManager).stake + StakeManager.forfeited relayManager events

/-- Until the deadline only penalties and escheatments take stake from the manager. -/
structure Cornered (now : ℕ) (s : StakeManager.State) : Prop where
  consistent : Consistent this maxUnstakeDelay s
  present : (s.tokens token).isSome
  staked : (s.stakes relayManager).token = token
  locked : now < deadline → Locked relayManager relayHub now deadline s
  remaining : now < deadline → Remaining relayManager stake log s

theorem cornered_aged (now later : ℕ) (s : StakeManager.State) (ordered : now ≤ later)
    (cornered : Cornered this relayHub relayManager token maxUnstakeDelay deadline stake log now s) :
    Cornered this relayHub relayManager token maxUnstakeDelay deadline stake log later s := by
  refine ⟨cornered.consistent, cornered.present, cornered.staked, fun early => ?_, fun early => ?_⟩
  · exact locked_aged _ _ _ _ _ _ ordered (cornered.locked (ordered.trans_lt early))
  · exact cornered.remaining (ordered.trans_lt early)

theorem step_forfeits (input : Step) (s next : StakeManager.State) (early : input.time < deadline)
    (locked : Locked relayManager relayHub input.time deadline s) (taken : step this input s = .ok next) :
    ∃ events, next.events = s.events ++ events ∧ (s.stakes relayManager).stake ≤
      (next.stakes relayManager).stake + StakeManager.forfeited relayManager events := by
  by_cases reduced : (next.stakes relayManager).stake < (s.stakes relayManager).stake
  · obtain ⟨env, sender, call, rfl, cause⟩ := stake_reduced this input s next taken relayManager reduced
    simp only [step, bind_ok] at taken
    obtain ⟨_, _, executed⟩ := taken
    rcases cause with rfl | ⟨beneficiary, amount, rfl⟩ | rfl
    · have kept := locked_not_withdrawn this relayManager relayHub deadline env sender s next early locked
      exact absurd executed kept
    · obtain ⟨_, _, covered, _, _, _, _, rfl⟩ :=
        (StakeManager.penalizeRelayManager_ok _ _ _ _ _ _ _ _).mp executed
      have told := StakeManager.forfeited_penalized relayManager beneficiary (s.stakes relayManager).token amount
      refine ⟨_, rfl, ?_⟩
      simp only [StakeManager.State.emit_stakes, StakeManager.State.recordPay_stakes,
        StakeManager.State.setStake_stakes, Function.update_self]
      omega
    · obtain ⟨_, _, _, _, rfl⟩ := (StakeManager.escheatAbandonedRelayStake_ok _ _ _ _ _ _).mp executed
      refine ⟨_, rfl, ?_⟩
      rw [StakeManager.forfeited_escheated]
      exact Nat.le_add_left _ _
  · obtain ⟨events, recorded⟩ := StakeManager.step_recorded relayManager this input s next taken
    exact ⟨events, recorded.logged, (Nat.le_of_not_lt reduced).trans (Nat.le_add_right _ _)⟩

theorem step_remaining (input : Step) (s next : StakeManager.State) (early : input.time < deadline)
    (locked : Locked relayManager relayHub input.time deadline s) (taken : step this input s = .ok next)
    (remaining : Remaining relayManager stake log s) : Remaining relayManager stake log next := by
  obtain ⟨events, logged, kept⟩ := remaining
  obtain ⟨more, appended, lowered⟩ :=
    step_forfeits this relayHub relayManager deadline input s next early locked taken
  refine ⟨events ++ more, by rw [appended, logged, List.append_assoc], ?_⟩
  rw [StakeManager.forfeited_append]
  omega

theorem step_cornered (staking : token ≠ 0) (input : Step) (s next : StakeManager.State)
    (taken : step this input s = .ok next)
    (cornered : Cornered this relayHub relayManager token maxUnstakeDelay deadline stake log input.time s) :
    Cornered this relayHub relayManager token maxUnstakeDelay deadline stake log input.time next := by
  have run : Runs.after (step this) [input] s = next := by
    rw [Runs.after_cons, Runs.after_nil, Runs.advance, taken]
  have grown := StakeManager.run_grows this [input] s relayManager
  have present := run_present this token [input] s cornered.present
  rw [run] at grown present
  refine ⟨StakeManager.step_consistent this maxUnstakeDelay input s next cornered.consistent taken, present, ?_,
    fun early => ?_, fun early => ?_⟩
  · have before : (s.stakes relayManager).token ≠ 0 := by
      rw [cornered.staked]
      exact staking
    rw [grown.token before, cornered.staked]
  · exact step_locked this relayManager relayHub deadline input s next early (cornered.locked early) taken
  · exact step_remaining this relayHub relayManager deadline stake log input s next early (cornered.locked early)
      taken (cornered.remaining early)

end Stake

variable (crypto : Crypto) (addresses : Immutables) (delays : Delays)

theorem writes_step (apart : addresses.this ≠ addresses.stakeManager) (env : Env) (first second : World)
    (writes : Writes addresses env first second) :
    second.stakeManager = first.stakeManager ∨ ∃ input : Step, input.time = env.timestamp ∧
      step addresses.stakeManager input first.stakeManager = .ok second.stakeManager := by
  cases writes with
  | hub hub workers counts => exact .inl rfl
  | workers sender newRelayWorkers next added =>
      simp only [addRelayWorkers, bind_ok, Except.ok.injEq] at added
      obtain ⟨_, _, _, _, _, _, hub, _, rfl⟩ := added
      exact .inl rfl
  | stakes sender call stakeManager outside executed =>
      refine .inr ⟨.call env sender call, rfl, ?_⟩
      have other : sender ≠ addresses.stakeManager := by
        rcases outside with rfl | other
        · exact apart
        · exact other
      simp only [step, require, if_pos other]
      exact executed
  | tokens token ledger stakeManager taken => exact .inr ⟨.tokenActivity env token ledger, rfl, taken⟩
  | ether => exact .inl rfl
  | forwarder => exact .inl rfl

/-- A relation that the writes of the world keep is kept by all that anyone can do to the three contracts. -/
theorem system_guarantee (env : Env) (kept : World → World → Prop) (reflexive : ∀ w, kept w w)
    (chained : ∀ first second third, kept first second → kept second third → kept first third)
    (written : ∀ first second, Writes addresses env first second → kept first second) :
    Guarantee (entry crypto addresses delays env) fun first second => kept first.world second.world := by
  refine ⟨fun s => reflexive s.world, fun first second third => chained _ _ _, ?_⟩
  intro input s
  have penalized : ∀ worker beneficiary world,
      RelayHub.penalize addresses env addresses.penalizer worker beneficiary s.world = .ok world →
      kept s.world world := by
    intro worker beneficiary world taken
    simp only [RelayHub.penalize, bind_ok, Except.ok.injEq] at taken
    obtain ⟨_, _, _, _, _, _, stakeManager, executed, rfl⟩ := taken
    exact written _ _ (.stakes addresses.this (.penalizeRelayManager _ beneficiary _) stakeManager (.inl rfl) executed)
  cases input with
  | penalizer input =>
      cases input with
      | commit sender commitHash =>
          apply commit_meets
          exact fun _ => reflexive s.world
      | penalizeRepeatedNonce sender msgData unsignedTx1 signature1 unsignedTx2 signature2 hub beyond =>
          apply reveal_meets
          · exact fun _ _ => reflexive s.world
          · exact fun _ _ _ moved => moved
          · exact fun _ worker world _ _ _ taken => penalized worker sender world taken
      | penalizeIllegalTransaction sender msgData unsignedTx signature hub beyond =>
          apply reveal_meets
          · exact fun _ _ => reflexive s.world
          · exact fun _ _ _ moved => moved
          · exact fun _ worker world _ _ _ taken => penalized worker sender world taken
  | world input =>
      apply Code.meets_check
      intro _ _
      have met := (writes_guarantee addresses env kept crypto reflexive chained written).keeps input s.world
      exact entryWithin_meets System.world System.setWorld Outgoing.world crypto addresses env (fun _ _ => rfl)
        input s met

/-- The manager answers for the worker, with the stake that is left. -/
structure Answerable (relayManager worker token : Address) (maxUnstakeDelay deadline stake : ℕ)
    (log : List StakeManager.Event) (env : Env) (w : World) : Prop where
  manager : w.hub.workerToManager worker = relayManager
  cornered : Cornered addresses.stakeManager addresses.this relayManager token maxUnstakeDelay deadline stake log
    env.timestamp w.stakeManager

theorem writes_answerable (apart : addresses.this ≠ addresses.stakeManager) (relayManager worker token : Address)
    (someone : relayManager ≠ 0) (staking : token ≠ 0) (maxUnstakeDelay deadline stake : ℕ)
    (log : List StakeManager.Event) (env : Env) (first second : World) (writes : Writes addresses env first second)
    (held : Answerable addresses relayManager worker token maxUnstakeDelay deadline stake log env first) :
    Answerable addresses relayManager worker token maxUnstakeDelay deadline stake log env second := by
  have registered := (writes_registryKept addresses env first second writes).managers worker
  rw [held.manager] at registered
  refine ⟨registered someone, ?_⟩
  rcases writes_step addresses apart env first second writes with same | ⟨input, time, taken⟩
  · rw [same]
    exact held.cornered
  · have before := held.cornered
    rw [← time] at before ⊢
    exact step_cornered _ _ relayManager token _ deadline stake log staking input _ _ taken before

/-- A report that shows the guilt of the worker: two transactions with one nonce that differ in more than type
and fees, or one that does not call `relayCall` on the hub. -/
inductive Proves (hub worker reporter : Address) (msgData : Bytes) : Penalizer.Input → Prop
  | repeated (first second : TxData) (envelope1 envelope2 : Envelope) (signature1 signature2 : Bytes)
      (beyond : Memory) (encodable1 : Encodable first envelope1) (encodable2 : Encodable second envelope2)
      (signed1 : crypto.recover (crypto.keccak256 (unsignedTx first envelope1)) signature1 = some worker)
      (signed2 : crypto.recover (crypto.keccak256 (unsignedTx second envelope2)) signature2 = some worker)
      (free : crypto.CollisionFree {dataToCheck (decoded first), dataToCheck (decoded second)})
      (repeats : Repeated first second) (apart : ¬ CreationAndZero first second) :
      Proves hub worker reporter msgData (.penalizeRepeatedNonce reporter msgData (unsignedTx first envelope1)
        signature1 (unsignedTx second envelope2) signature2 hub beyond)
  | illegal (tx : TxData) (envelope : Envelope) (signature : Bytes) (beyond : Memory)
      (wellFormed : WellFormed tx envelope)
      (signs : crypto.recover (crypto.keccak256 (unsignedTx tx envelope)) signature = some worker)
      (illegal : ¬ IsRelayCall crypto hub tx) (read : SelectorRead crypto hub tx) :
      Proves hub worker reporter msgData (.penalizeIllegalTransaction reporter msgData (unsignedTx tx envelope)
        signature hub beyond)

theorem illegal_judged (hub worker : Address) (tx : TxData) (envelope : Envelope) (signature : Bytes)
    (beyond : Memory) (nonzero : worker ≠ 0) (wellFormed : WellFormed tx envelope)
    (signs : crypto.recover (crypto.keccak256 (unsignedTx tx envelope)) signature = some worker)
    (illegal : ¬ IsRelayCall crypto hub tx) (read : SelectorRead crypto hub tx) :
    illegalTransactionSigner crypto (unsignedTx tx envelope) signature hub beyond = .ok worker := by
  rw [illegalTransactionSigner_unsignedTx crypto tx envelope signature hub worker beyond wellFormed nonzero signs]
  by_cases toHub : tx.recipient.getD 0 = hub
  · rw [if_pos toHub]
    -- the selector is read, and it is not that of `relayCall`
    have other : 4 ≤ tx.data.length ∧ ¬ relayCallSelector crypto <+: tx.data := by
      cases recipient : tx.recipient with
      | none =>
          rw [recipient] at toHub
          exact read.2 recipient toHub.symm
      | some account =>
          rw [recipient] at toHub
          obtain rfl : account = hub := toHub
          exact ⟨read.1 recipient, fun selected => illegal ⟨recipient, selected⟩⟩
    obtain ⟨selector, got, legal⟩ := getMethodSig_prefix crypto tx.data other.1
    have differs : selector ≠ relayCallSelector crypto := fun same => other.2 (legal.mp same)
    simp only [got, bind, Except.bind, require, if_pos differs]
  · rw [if_neg toHub]

theorem repeated_judged (worker : Address) (first second : TxData) (envelope1 envelope2 : Envelope)
    (signature1 signature2 : Bytes) (beyond : Memory) (nonzero : worker ≠ 0)
    (encodable1 : Encodable first envelope1) (encodable2 : Encodable second envelope2)
    (signed1 : crypto.recover (crypto.keccak256 (unsignedTx first envelope1)) signature1 = some worker)
    (signed2 : crypto.recover (crypto.keccak256 (unsignedTx second envelope2)) signature2 = some worker)
    (free : crypto.CollisionFree {dataToCheck (decoded first), dataToCheck (decoded second)})
    (repeats : Repeated first second) (apart : ¬ CreationAndZero first second) :
    repeatedNonceSigner crypto (unsignedTx first envelope1) signature1 (unsignedTx second envelope2) signature2
      beyond = .ok worker := by
  refine (repeatedNonceSigner_ok crypto first second envelope1 envelope2 signature1 signature2 worker worker beyond
    encodable1 encodable2 nonzero signed1 signed2).mpr ⟨repeats.1, ?_, rfl⟩
  rw [dataToCheck_differs crypto first second envelope1 envelope2 encodable1 encodable2 free]
  rw [creationAndZero_iff, not_and] at apart
  exact repeats.2.imp_right (.imp_right (.imp_left apart))

/-- A report that is accepted, on the hub of the system, ends with the hub's penalty. -/
theorem reveal_done (env : Env) (reporter worker : Address) (msgData : Bytes) (judged : Except Revert Address)
    (s : System) (opened : Penalizer.State) (world : World)
    (committed : commitRevealOnly crypto delays env reporter msgData s.penalizer = .ok opened)
    (guilty : judged = .ok worker)
    (penalized : RelayHub.penalize addresses env addresses.penalizer worker reporter s.world = .ok world) :
    ((reveal crypto delays env reporter msgData addresses.this judged s.penalizer).zoom System.penalizer
      System.setPenalizer Outgoing.otherHub s).link (hubAnswers addresses env) =
        .done ((s.setPenalizer opened).setWorld world) () := by
  rw [reveal, committed, guilty]
  simp only [Code.check, Code.zoom, Code.link, hubAnswers, if_pos]
  rw [show (s.setPenalizer opened).world = s.world from rfl, penalized]
  rfl

theorem report_done (env : Env) (reporter worker : Address) (msgData : Bytes) (report : Penalizer.Input)
    (s : System) (opened : Penalizer.State) (world : World) (nonzero : worker ≠ 0)
    (proves : Proves crypto addresses.this worker reporter msgData report)
    (committed : commitRevealOnly crypto delays env reporter msgData s.penalizer = .ok opened)
    (penalized : RelayHub.penalize addresses env addresses.penalizer worker reporter s.world = .ok world) :
    entry crypto addresses delays env (.penalizer report) s =
      .done ((s.setPenalizer opened).setWorld world) () := by
  cases proves with
  | repeated first second envelope1 envelope2 signature1 signature2 beyond encodable1 encodable2 signed1 signed2 free
      repeats apart =>
      have judged := repeated_judged crypto worker first second envelope1 envelope2 signature1 signature2 beyond
        nonzero encodable1 encodable2 signed1 signed2 free repeats apart
      exact reveal_done crypto addresses delays env reporter worker msgData _ s opened world committed judged penalized
  | illegal tx envelope signature beyond wellFormed signs illegal read =>
      have judged := illegal_judged crypto addresses.this worker tx envelope signature beyond nonzero wellFormed signs
        illegal read
      exact reveal_done crypto addresses delays env reporter worker msgData _ s opened world committed judged penalized

theorem penalize_takes_all (relayManager worker beneficiary token : Address) (someone : relayManager ≠ 0)
    (maxUnstakeDelay deadline stake : ℕ) (log : List StakeManager.Event) (env : Env) (w : World)
    (early : env.timestamp < deadline)
    (held : Answerable addresses relayManager worker token maxUnstakeDelay deadline stake log env w)
    (standard : ∀ ledger, w.stakeManager.tokens token = some ledger →
      ∀ source target amount, ledger.accepts source target amount = true)
    (left : 0 < (w.stakeManager.stakes relayManager).stake) :
    ∃ next, RelayHub.penalize addresses env addresses.penalizer worker beneficiary w =
        .ok (w.setStakeManager next) ∧
      (next.stakes relayManager).stake = 0 ∧
      next.events = w.stakeManager.events ++ [.stakePenalized relayManager beneficiary token
        ((w.stakeManager.stakes relayManager).stake - (w.stakeManager.stakes relayManager).stake / 2)] := by
  obtain ⟨ledger, present⟩ := Option.isSome_iff_exists.mp held.cornered.present
  have backed := stake_le_held _ _ _ held.cornered.consistent relayManager
  rw [held.cornered.staked, StakeManager.held, present] at backed
  obtain ⟨next, taken⟩ := penalizeRelayManager_succeeds addresses.stakeManager addresses.this relayManager
    beneficiary env _ deadline w.stakeManager ledger early (held.cornered.locked early) le_rfl
    (by rw [held.cornered.staked]; exact present) (standard ledger present) backed
  refine ⟨next, ?_, ?_⟩
  · simp only [RelayHub.penalize, held.manager, StakeManager.getStakeInfo, require, if_pos someone, if_pos left,
      if_pos, taken, bind, Except.bind]
  · obtain ⟨_, _, _, burned, rewarded, _, _, rfl⟩ := (StakeManager.penalizeRelayManager_ok _ _ _ _ _ _ _ _).mp taken
    rw [← held.cornered.staked]
    exact ⟨by simp, rfl⟩

def InTime (now later : Env) : Prop := now.timestamp ≤ later.timestamp

/-- Once the hub found the stake of a manager in order, and until the unstake delay is over, whatever the
manager, its owner and everybody else do in between: only penalties and escheatments take of the stake, and
whoever reports an offence of a worker of the manager in the time of a commit takes all of the rest, one half
to be burned and the other one for the reporter. -/
theorem offence_costs_stake (apart : addresses.this ≠ addresses.stakeManager) (deployer : Address)
    (maxUnstakeDelay abandonmentDelay escheatmentDelay : ℕ) (burnAddress devAddress : Address) (tokens : Tokens)
    (deployed : StakeManager.State)
    (constructed : StakeManager.deploy deployer maxUnstakeDelay abandonmentDelay escheatmentDelay burnAddress
      devAddress tokens = .ok deployed)
    (past : List Step) (start : System)
    (run : start.world.stakeManager = Runs.after (step addresses.stakeManager) past deployed)
    (relayManager worker : Address) (someone : relayManager ≠ 0) (nonzero : worker ≠ 0)
    (registered : start.world.hub.workerToManager worker = relayManager)
    (staked : verifyRelayManagerStaked addresses relayManager start.world = .ok ())
    (now : Env) (history : List (Env × Moves Input Bytes Revert)) (ordered : Ordered InTime now history)
    (env : Env) (s : System) (visited : (env, s) ∈ historyVisits (entry crypto addresses delays) history start)
    (within : env.timestamp < now.timestamp + (start.world.stakeManager.stakes relayManager).unstakeDelay) :
    let old := start.world.stakeManager
    let info := s.world.stakeManager.stakes relayManager
    Remaining relayManager (old.stakes relayManager).stake old.events s.world.stakeManager ∧
    ∀ reporter msgData report opened conducts, Proves crypto addresses.this worker reporter msgData report →
      commitRevealOnly crypto delays env reporter msgData s.penalizer = .ok opened → 0 < info.stake →
      (∀ ledger, s.world.stakeManager.tokens info.token = some ledger →
        ∀ source target amount, ledger.accepts source target amount = true) →
      ∃ final, (entry crypto addresses delays env (.penalizer report) s).run conducts = .ok (final, ()) ∧
        (final.world.stakeManager.stakes relayManager).stake = 0 ∧
        final.world.stakeManager.events = s.world.stakeManager.events ++
          [.stakePenalized relayManager reporter info.token (info.stake - info.stake / 2)] := by
  intro old info
  obtain ⟨staking, funded, locked⟩ := verified_locked addresses relayManager now.timestamp start.world staked
  have consistent : Consistent addresses.stakeManager maxUnstakeDelay old := by
    change Consistent _ _ start.world.stakeManager
    rw [run]
    exact StakeManager.run_consistent _ _ past deployed
      (StakeManager.deploy_consistent _ deployer _ _ _ _ _ _ _ constructed)
  have present : (old.tokens (old.stakes relayManager).token).isSome := by
    have backed := stake_le_held _ _ _ consistent relayManager
    cases listed : old.tokens (old.stakes relayManager).token with
    | some ledger => rfl
    | none =>
        simp only [StakeManager.held, listed] at backed
        exact absurd backed (Nat.not_le_of_gt funded)
  have begun : Answerable addresses relayManager worker (old.stakes relayManager).token maxUnstakeDelay
      (now.timestamp + (old.stakes relayManager).unstakeDelay) (old.stakes relayManager).stake old.events now
      start.world :=
    ⟨registered, consistent, present, rfl, fun _ => locked,
      fun _ => ⟨[], (List.append_nil _).symm, Nat.le_add_right _ _⟩⟩
  have reached := history_invariant (entry crypto addresses delays) InTime
    (fun env s => Answerable addresses relayManager worker (old.stakes relayManager).token maxUnstakeDelay
      (now.timestamp + (old.stakes relayManager).unstakeDelay) (old.stakes relayManager).stake old.events env s.world)
    (fun now later s earlier held => ⟨held.manager, cornered_aged _ _ _ _ _ _ _ _ _ _ _ earlier held.cornered⟩)
    (fun env => system_guarantee crypto addresses delays env
      (fun first second => Answerable addresses relayManager worker _ maxUnstakeDelay _ _ _ env first →
        Answerable addresses relayManager worker _ maxUnstakeDelay _ _ _ env second)
      (fun _ same => same) (fun _ _ _ early late start => late (early start))
      (fun first second writes => writes_answerable addresses apart relayManager worker _ someone staking
        maxUnstakeDelay _ _ _ env first second writes))
    history now start ordered begun (env, s) visited
  refine ⟨reached.cornered.remaining within, ?_⟩
  intro reporter msgData report opened conducts proves committed left standard
  have token : info.token = (old.stakes relayManager).token := reached.cornered.staked
  rw [token] at standard ⊢
  obtain ⟨next, penalized, taken, logged⟩ := penalize_takes_all addresses relayManager worker reporter _ someone
    maxUnstakeDelay _ _ _ env s.world within reached standard left
  refine ⟨(s.setPenalizer opened).setWorld (s.world.setStakeManager next), ?_, taken, logged⟩
  rw [report_done crypto addresses delays env reporter worker msgData report s opened _ nonzero proves committed
    penalized]
  rfl

/-- The block after `parent`, `later` seconds after the worker's manager was found staked. -/
def moment (parent : ℕ) (later : Fin 1000) : Env :=
  { envAt (1000 + later) (lt_trans (Nat.add_lt_add_left later.isLt 1000) (by decide)) with
    number := parent + 1, number_pos := Nat.succ_pos parent }

/-- Account 8 commits to a report, and the owner of manager 31 does all it can to get away. -/
def flightHistory : List (Env × Moves Input Bytes Revert) :=
  [(moment 8 1, .enter (.penalizer (.commit 8 (commitHash workerCrypto [1] 8))) .none .stop),
    (moment 9 2, .enter (.world (.stakeManager 2 (.unlockStake 31))) .none .stop),
    (moment 10 3, .enter (.world (.stakeManager 2 (.unauthorizeHubByOwner 31 100))) .none .stop)]

def flightSystem : System :=
  historyFinal (entry workerCrypto RelayHub.sampleAddresses sampleDelays) flightHistory
    ⟨Penalizer.deploy, registeredWorld⟩

def caught : Env := moment 16 14

theorem offence_costs_stake_flight :
    ∃ final, (entry workerCrypto RelayHub.sampleAddresses sampleDelays caught
      (.penalizer (.penalizeIllegalTransaction 8 [1] (unsignedTx otherCall sampleEnvelope) [7] 100 (fun _ => 0)))
      flightSystem).run [] = .ok (final, ()) ∧ (final.world.stakeManager.stakes 31).stake = 0 := by
  have ordered : Ordered InTime (moment 7 0)
      (flightHistory ++ [(caught, (.stop : Moves Input Bytes Revert))]) := by
    simp [flightHistory, Ordered, InTime, moment, caught, envAt]
  have visited := historyFinal_visited (entry workerCrypto RelayHub.sampleAddresses sampleDelays) flightHistory
    caught .stop ⟨Penalizer.deploy, registeredWorld⟩
  have within : caught.timestamp < 1000 + (registeredWorld.stakeManager.stakes 31).unstakeDelay := by
    decide +kernel
  have final : historyFinal (entry workerCrypto RelayHub.sampleAddresses sampleDelays)
      (flightHistory ++ [(caught, .stop)]) ⟨Penalizer.deploy, registeredWorld⟩ = flightSystem := rfl
  rw [final] at visited
  have punished := (offence_costs_stake workerCrypto RelayHub.sampleAddresses sampleDelays (by decide) 1 100 500 500
    9 11 StakeManager.sampleTokens StakeManager.sampleStart rfl stakingSteps ⟨Penalizer.deploy, registeredWorld⟩ rfl
    31 7 (by decide) (by decide) rfl (by decide +kernel) _ _ ordered caught flightSystem visited within).2
  have proves : Proves workerCrypto 100 7 8 [1]
      (.penalizeIllegalTransaction 8 [1] (unsignedTx otherCall sampleEnvelope) [7] 100 (fun _ => 0)) :=
    .illegal otherCall sampleEnvelope [7] _ (by decide +kernel) rfl (fun relayed => absurd relayed.1 (by decide))
      ⟨fun _ => by decide, fun none => absurd none (by decide)⟩
  obtain ⟨opened, committed⟩ : ∃ opened, commitRevealOnly workerCrypto sampleDelays caught 8 [1]
      flightSystem.penalizer = .ok opened :=
    ⟨_, (commitRevealOnly_ok workerCrypto sampleDelays caught 8 [1] _ _).mpr ⟨fun _ => by decide +kernel, rfl⟩⟩
  have standard : ∀ ledger, flightSystem.world.stakeManager.tokens
      (flightSystem.world.stakeManager.stakes 31).token = some ledger →
        ∀ source target amount, ledger.accepts source target amount = true := by
    intro ledger present source target amount
    have token : (flightSystem.world.stakeManager.stakes 31).token = 4 := by decide +kernel
    have accepted : (flightSystem.world.stakeManager.tokens 4).map
        (fun ledger => ledger.accepts source target amount) = some true := rfl
    rw [token] at present
    simpa [present] using accepted
  obtain ⟨final, returned, lost, _⟩ := punished 8 [1] _ opened [] proves committed (by decide +kernel) standard
  exact ⟨final, returned, lost⟩

end OpenGsn.Slashing
