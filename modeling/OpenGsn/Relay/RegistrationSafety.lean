import OpenGsn.Relay.Registrations

/-! A manager that is reported as registered is accepted by the hub. -/

namespace OpenGsn.Relay.Follower

open Solidity Async RegistrationManager Runs
open StakeManager (authorizedAfter authorizedAfter_mono authorizedAfter_append)

variable (addresses : RelayHub.Immutables) (encodeABI : ContractMethod → Bytes) (config : RegistrationConfig)
  (maxUnstakeDelay : ℕ)

def logged (s : Follower) : List StakeManager.Event := s.registration.contracts.stakeManager.events

/-- What the server believes about the hub and a locked stake is so, or an event that it has yet to
handle says otherwise. -/
structure Following (s : Follower) : Prop where
  scanned : s.scanned ≤ s.logged.length
  consistent : StakeManager.Consistent addresses.stakeManager maxUnstakeDelay s.registration.contracts.stakeManager
  log : authorizedAfter config.managerAddress addresses.this false s.logged = true →
    s.registration.Authorized addresses config
  hub : authorizedAfter config.managerAddress addresses.this s.registration.manager.isHubAuthorized
    (s.logged.drop s.scanned) = true → s.registration.Authorized addresses config
  stake : Relying s.registration.manager → (s.registration.stakeInfo config).withdrawTime = 0 ∨
    ∃ event ∈ s.logged.drop s.scanned, event.unlocks config.managerAddress = true

/-! The log. -/

theorem authorizedAfter_drop (events : List StakeManager.Event) (scanned : ℕ)
    (after : authorizedAfter config.managerAddress addresses.this false (events.drop scanned) = true) :
    authorizedAfter config.managerAddress addresses.this false events = true := by
  rw [← List.take_append_drop scanned events, authorizedAfter_append]
  exact authorizedAfter_mono _ _ _ _ _ (fun never => by cases never) after

theorem authorizedAfter_concerns (known : Bool) (events : List StakeManager.Event) :
    authorizedAfter config.managerAddress addresses.this known (events.filter (concerns config.managerAddress)) =
      authorizedAfter config.managerAddress addresses.this known events := by
  induction events generalizing known with
  | nil => rfl
  | cons event rest ih =>
      cases concerned : concerns config.managerAddress event with
      | true =>
          rw [List.filter_cons_of_pos concerned]
          exact ih _
      | false =>
          have silent : event.authorizes config.managerAddress addresses.this known = known := by
            cases event with
            | hubAuthorized manager hub =>
                exact if_neg fun same => of_decide_eq_false concerned same.1
            | hubUnauthorized manager hub removalTime =>
                exact if_neg fun same => of_decide_eq_false concerned same.1
            | _ => rfl
          rw [List.filter_cons_of_neg (by rw [concerned]; exact Bool.false_ne_true), ih]
          change _ = authorizedAfter _ _ (event.authorizes config.managerAddress addresses.this known) rest
          rw [silent]

theorem unlocks_read (event : StakeManager.Event) (unlocks : event.unlocks config.managerAddress = true) :
    concerns config.managerAddress event = true ∧ rereads event = true := by
  cases event with
  | stakeUnlocked => exact ⟨unlocks, rfl⟩
  | _ => cases unlocks

/-! The chain. -/

theorem following_logged (s : Follower) (stakeManager : StakeManager.State) (events : List StakeManager.Event)
    (following : Following addresses config maxUnstakeDelay s)
    (consistent : StakeManager.Consistent addresses.stakeManager maxUnstakeDelay stakeManager)
    (step : StakeManager.Logged config.managerAddress addresses.this s.registration.contracts.stakeManager
      stakeManager events) :
    Following addresses config maxUnstakeDelay
      ⟨{ s.registration with contracts := s.registration.contracts.setStakeManager stakeManager }, s.scanned,
        false⟩ := by
  have length : s.scanned ≤ s.logged.length := following.scanned
  have rest : stakeManager.events.drop s.scanned = s.logged.drop s.scanned ++ events := by
    rw [step.logged]
    exact List.drop_append_of_le_length length
  refine ⟨?_, consistent, fun after => ?_, fun after => ?_, fun relying => ?_⟩
  · change s.scanned ≤ stakeManager.events.length
    rw [step.logged, List.length_append]
    exact Nat.le_add_right_of_le length
  · change authorizedAfter _ _ false stakeManager.events = true at after
    rw [step.logged, authorizedAfter_append] at after
    exact step.authorized _ following.log after
  · change authorizedAfter _ _ _ (stakeManager.events.drop s.scanned) = true at after
    rw [rest, authorizedAfter_append] at after
    exact step.authorized _ following.hub after
  · change (stakeManager.stakes config.managerAddress).withdrawTime = 0 ∨
      ∃ event ∈ stakeManager.events.drop s.scanned, event.unlocks config.managerAddress = true
    rw [rest]
    rcases step.withdrawTime with same | zero | unlocked
    · rw [same]
      refine (following.stake relying).imp_right fun waiting => ?_
      obtain ⟨event, member, unlocks⟩ := waiting
      exact ⟨event, List.mem_append_left events member, unlocks⟩
    · exact .inl zero
    · obtain ⟨event, member, unlocks⟩ := unlocked
      exact .inr ⟨event, List.mem_append_right _ member, unlocks⟩

theorem following_chain (s : Follower) (step : ChainStep) (following : Following addresses config maxUnstakeDelay s) :
    Following addresses config maxUnstakeDelay ⟨s.registration.chainStep addresses step, s.scanned, false⟩ := by
  obtain ⟨scanned, consistent, log, hub, stake⟩ := following
  cases step with
  | hub other => exact ⟨scanned, consistent, log, hub, stake⟩
  | registrar relayUrl => exact ⟨scanned, consistent, log, hub, stake⟩
  | stakeManager input =>
      simp only [Registration.chainStep, advance]
      split
      next stakeManager taken =>
        obtain ⟨events, logged⟩ := StakeManager.step_logged config.managerAddress addresses.this _ input _ _ taken
        exact following_logged addresses config maxUnstakeDelay s stakeManager events
          ⟨scanned, consistent, log, hub, stake⟩
          (StakeManager.step_consistent _ maxUnstakeDelay input _ _ consistent taken) logged
      next => exact ⟨scanned, consistent, log, hub, stake⟩

/-! The server. -/

theorem following_server (s : Follower) (t : Registration) (scanned : ℕ) (completed : Bool)
    (following : Following addresses config maxUnstakeDelay s) (contracts : t.contracts = s.registration.contracts)
    (within : scanned ≤ s.logged.length)
    (hub : t.manager.isHubAuthorized = true → authorizedAfter config.managerAddress addresses.this true
      (s.logged.drop scanned) = true → s.registration.Authorized addresses config)
    (stake : Relying t.manager → (s.registration.stakeInfo config).withdrawTime = 0 ∨
      ∃ event ∈ s.logged.drop scanned, event.unlocks config.managerAddress = true) :
    Following addresses config maxUnstakeDelay ⟨t, scanned, completed⟩ := by
  have authorized : s.registration.Authorized addresses config → t.Authorized addresses config := by
    unfold Registration.Authorized
    rw [contracts]
    exact id
  have events : t.contracts.stakeManager.events = s.logged := by
    rw [contracts]
    rfl
  refine ⟨?_, ?_, ?_, ?_, ?_⟩
  all_goals simp only [logged, Registration.stakeInfo, events]
  · exact within
  · rw [contracts]
    exact following.consistent
  · exact fun after => authorized (following.log after)
  · intro after
    apply authorized
    cases flag : t.manager.isHubAuthorized with
    | true =>
        rw [flag] at after
        exact hub flag after
    | false =>
        rw [flag] at after
        exact following.log (authorizedAfter_drop addresses config _ _ after)
  · rw [contracts]
    exact stake

theorem reread_locked (s : Registration) (reread : s.Reread config) (relying : Relying s.manager) :
    (s.stakeInfo config).withdrawTime = 0 := by
  have locked := reread.locked
  rw [relying.1] at locked
  exact of_decide_eq_true locked.symm

theorem following_started (s : Follower) (scanned : ℕ)
    (ended : Option (Except String (List Uint256) × Registration))
    (following : Following addresses config maxUnstakeDelay s)
    (begun : ∀ result t, ended = some (result, t) → Begun addresses config { s.registration with manager := fresh } t) :
    Following addresses config maxUnstakeDelay (started { s.registration with manager := fresh } scanned ended) := by
  cases ended with
  | none =>
      refine following_server addresses config maxUnstakeDelay s _ _ _ following rfl (Nat.min_le_right _ _) ?_ ?_
      · exact fun never => by cases never
      · exact fun never => by cases never.1
  | some ended =>
      obtain ⟨result, t⟩ := ended
      have new := begun result t rfl
      have same : t.stakeInfo config = s.registration.stakeInfo config := by
        unfold Registration.stakeInfo
        rw [new.contracts]
      have within : min scanned (logLength t) ≤ s.logged.length := by
        refine Nat.le_trans (Nat.min_le_right _ _) (Nat.le_of_eq ?_)
        unfold logLength
        rw [new.contracts]
        rfl
      refine following_server addresses config maxUnstakeDelay s t _ _ following new.contracts within ?_ ?_
      · exact fun authorized _ => new.hub authorized
      · intro relying
        rw [← same]
        exact .inl (reread_locked config t (new.locked relying.1) relying)

/-- A lock that is no longer on chain is read again with the event that says so. -/
theorem passed_locked (s : Follower) (forceRegistration : Bool) (t : Registration) (value : List Uint256)
    (following : Following addresses config maxUnstakeDelay s) (noticed : Noticed config forceRegistration s)
    (passed : Passed addresses config forceRegistration (eventsFrom config s.scanned s.registration) s.registration
      (.ok value) t) (relying : Relying t.manager) : (s.registration.stakeInfo config).withdrawTime = 0 := by
  have same := stakeInfo_kept config s.registration t passed.all.kept
  rcases passed.all.kept.stake with ⟨locked, current⟩ | reread
  · have before : Relying s.registration.manager := by
      refine ⟨locked ▸ relying.1, ?_⟩
      have satisfied := relying.2
      simp only [AmountRequired.isSatisfied, passed.all.kept.required, current] at satisfied
      exact satisfied
    rcases following.stake before with unscheduled | ⟨event, member, unlocks⟩
    · exact unscheduled
    · have read := unlocks_read config event unlocks
      have found : ∃ event ∈ eventsFrom config s.scanned s.registration, rereads event = true :=
        ⟨event, List.mem_filter.mpr ⟨member, read.1⟩, read.2⟩
      have staked := noticed before
      rw [if_pos (.inr found)] at staked
      rw [← same]
      exact reread_locked config t (passed.all.reread value rfl found staked) relying
  · rw [← same]
    exact reread_locked config t reread relying

theorem passed_enough (s : Follower) (forceRegistration : Bool) (t : Registration) (value : List Uint256)
    (noticed : Noticed config forceRegistration s)
    (passed : Passed addresses config forceRegistration (eventsFrom config s.scanned s.registration) s.registration
      (.ok value) t) (relying : Relying t.manager) :
    s.registration.Verified addresses config ∨
      s.registration.manager.stakeRequired.requiredValue ≤ (s.registration.stakeInfo config).stake := by
  have same := stakeInfo_kept config s.registration t passed.all.kept
  have enough := of_decide_eq_true relying.2
  rw [passed.all.kept.required] at enough
  have counted : t.Reread config →
      s.registration.manager.stakeRequired.requiredValue ≤ (s.registration.stakeInfo config).stake := by
    intro reread
    rw [← same, ← reread.current]
    exact enough
  rcases passed.all.kept.stake with ⟨locked, current⟩ | reread
  · rw [current] at enough
    have before : Relying s.registration.manager := ⟨locked ▸ relying.1, decide_eq_true enough⟩
    have staked := noticed before
    split at staked
    next reads =>
      rcases reads with forced | found
      · rcases passed.forced value rfl forced with verified | reread
        · exact .inl verified
        · exact .inr (counted (reread staked))
      · exact .inr (counted (passed.all.reread value rfl found staked))
    next => exact .inr staked
  · exact .inr (counted reread)

theorem passed_accepted (s : Follower) (forceRegistration : Bool) (t : Registration) (value : List Uint256)
    (following : Following addresses config maxUnstakeDelay s) (noticed : Noticed config forceRegistration s)
    (suited : Suited addresses config s)
    (passed : Passed addresses config forceRegistration (eventsFrom config s.scanned s.registration) s.registration
      (.ok value) t) (registered : t.manager.isRegistered config = true) : t.Verified addresses config := by
  simp only [isRegistered, isRegistrationCorrect, Bool.and_eq_true, decide_eq_true_eq] at registered
  obtain ⟨⟨⟨satisfied, locked⟩, hub⟩, info⟩ := registered
  have relying : Relying t.manager := ⟨locked, satisfied⟩
  have verified : s.registration.Verified addresses config := by
    rcases passed_enough addresses config s forceRegistration t value noticed passed relying with verified | enough
    · exact verified
    have unscheduled := passed_locked addresses config maxUnstakeDelay s forceRegistration t value following noticed
      passed relying
    have authorized : s.registration.Authorized addresses config := by
      obtain ⟨rest, _, done, after⟩ := passed.all.hub
      rw [done value rfl] at after
      exact after hub
    have url : s.registration.relayUrl = some config.url := by
      rw [← passed.all.kept.relayUrl]
      exact passed.told value rfl config.url info
    obtain ⟨minimum, covered, delay⟩ := suited authorized url unscheduled enough
    refine (RelayHub.verifyRelayManagerStaked_ok addresses config.managerAddress s.registration.contracts).mpr
      ⟨fun untouched => ?_, covered, minimum, delay, unscheduled, authorized⟩
    have empty := (following.consistent.sound config.managerAddress).1 untouched
    have positive := Nat.lt_of_lt_of_le (Nat.pos_of_ne_zero minimum) covered
    exact Nat.ne_of_gt positive empty
  unfold Registration.Verified
  rw [passed.all.kept.contracts]
  exact verified

theorem lost_stake_unnoticed (s : Follower) (forceRegistration : Bool) (t : Registration) (value : List Uint256)
    (passed : Passed addresses config forceRegistration (eventsFrom config s.scanned s.registration) s.registration
      (.ok value) t) (relying : Relying s.registration.manager)
    (lost : (s.registration.stakeInfo config).stake = 0)
    (known : authorizedAfter config.managerAddress addresses.this s.registration.manager.isHubAuthorized
      (eventsFrom config s.scanned s.registration) = true) :
    t.manager.isRegistered config = t.manager.isRegistrationCorrect config ∧ ¬ t.Verified addresses config := by
  have same := stakeInfo_kept config s.registration t passed.all.kept
  constructor
  · have stays : ¬ t.Reread config := fun reread => reread.staked (same ▸ lost)
    obtain ⟨locked, current⟩ := passed.all.kept.stake.resolve_right stays
    have satisfied : t.manager.stakeRequired.isSatisfied = true := by
      simp only [AmountRequired.isSatisfied, passed.all.kept.required, current]
      exact relying.2
    simp only [isRegistered, satisfied, locked, relying.1, passed.all.known value rfl known, Bool.true_and]
  · intro verified
    have accepted := (RelayHub.verifyRelayManagerStaked_ok addresses config.managerAddress t.contracts).mp verified
    have none : (t.contracts.stakeManager.stakes config.managerAddress).stake = 0 := by
      change (t.stakeInfo config).stake = 0
      rw [same]
      exact lost
    exact accepted.2.2.1 (Nat.le_zero.mp (none ▸ accepted.2.1))

theorem following_passed (s : Follower) (forceRegistration : Bool) (scanned : ℕ)
    (ended : Option (Except String (List Uint256) × Registration))
    (following : Following addresses config maxUnstakeDelay s) (noticed : Noticed config forceRegistration s)
    (passed : ∀ result t, ended = some (result, t) →
      Passed addresses config forceRegistration (eventsFrom config s.scanned s.registration) s.registration result t) :
    Following addresses config maxUnstakeDelay (s.passed scanned ended) := by
  cases ended with
  | none => exact ⟨following.scanned, following.consistent, following.log, following.hub, following.stake⟩
  | some ended =>
      obtain ⟨result, t⟩ := ended
      have new := passed result t rfl
      have contracts := new.all.kept.contracts
      have same := stakeInfo_kept config s.registration t new.all.kept
      obtain ⟨rest, suffix, done, after⟩ := new.all.hub
      cases result with
      | ok value =>
          have within : min scanned (logLength t) ≤ s.logged.length := by
            refine Nat.le_trans (Nat.min_le_right _ _) (Nat.le_of_eq ?_)
            unfold logLength
            rw [contracts]
            rfl
          refine following_server addresses config maxUnstakeDelay s t _ _ following contracts within ?_ ?_
          · intro authorized _
            rw [done value rfl] at after
            exact after authorized
          · exact fun relying => .inl (passed_locked addresses config maxUnstakeDelay s forceRegistration t value
              following noticed new relying)
      | error error =>
          refine following_server addresses config maxUnstakeDelay s t _ _ following contracts following.scanned ?_ ?_
          · intro authorized told
            apply after
            rw [authorized]
            obtain ⟨front, split⟩ := suffix
            rw [← authorizedAfter_concerns addresses config] at told
            change authorizedAfter _ _ true (eventsFrom config s.scanned s.registration) = true at told
            rw [← split, authorizedAfter_append] at told
            exact authorizedAfter_mono _ _ rest _ _ (fun _ => rfl) told
          · intro relying
            rcases new.all.kept.stake with ⟨locked, current⟩ | reread
            · refine following.stake ⟨locked ▸ relying.1, ?_⟩
              have satisfied := relying.2
              simp only [AmountRequired.isSatisfied, new.all.kept.required, current] at satisfied
              exact satisfied
            · rw [← same]
              exact .inl (reread_locked config t reread relying)

theorem accepted_passed (s : Follower) (forceRegistration : Bool) (scanned : ℕ)
    (ended : Option (Except String (List Uint256) × Registration))
    (following : Following addresses config maxUnstakeDelay s) (noticed : Noticed config forceRegistration s)
    (suited : Suited addresses config s)
    (passed : ∀ result t, ended = some (result, t) →
      Passed addresses config forceRegistration (eventsFrom config s.scanned s.registration) s.registration result t) :
    Accepted addresses config (s.passed scanned ended) := by
  intro completed registered
  cases ended with
  | none => cases completed
  | some ended =>
      obtain ⟨result, t⟩ := ended
      cases result with
      | error error => cases completed
      | ok value =>
          exact passed_accepted addresses config maxUnstakeDelay s forceRegistration t value following noticed suited
            (passed _ t rfl) registered

theorem pass_passes (s : Follower) (currentBlock : ShortBlockInfo) (forceRegistration : Bool)
    (replies : ℕ → RegistrationReply) (following : Following addresses config maxUnstakeDelay s)
    (result : Except String (List Uint256)) (t : Registration)
    (ended : Proc.finish replies 0 (RegistrationManager.handlePastEvents addresses encodeABI config currentBlock
      s.scanned forceRegistration) s.registration = some (result, t)) :
    Passed addresses config forceRegistration (eventsFrom config s.scanned s.registration) s.registration result t := by
  refine Proc.alone_finish _ replies _ 0 _ t result (handlePastEvents_passes addresses encodeABI config
    currentBlock s.scanned forceRegistration s.registration fun after => ?_) ended
  unfold eventsFrom at after
  rw [authorizedAfter_concerns] at after
  exact following.hub after

theorem next_following (s : Follower) (input : RegistrationInput)
    (following : Following addresses config maxUnstakeDelay s) (sound : Sound addresses config s input) :
    Following addresses config maxUnstakeDelay (s.next addresses encodeABI config input) ∧
      Accepted addresses config (s.next addresses encodeABI config input) := by
  cases input with
  | chain step =>
      exact ⟨following_chain addresses config maxUnstakeDelay s step following, fun never => by cases never⟩
  | init latestBlock scanned replies =>
      refine ⟨following_started addresses config maxUnstakeDelay s scanned _ following fun result t ended => ?_, ?_⟩
      · exact Proc.alone_finish _ replies _ 0 _ t result
          (init_begins addresses encodeABI config latestBlock _ rfl rfl) ended
      · intro completed
        simp only [next, started] at completed
        split at completed <;> cases completed
  | handlePastEvents currentBlock forceRegistration scanned replies =>
      obtain ⟨noticed, suited⟩ := sound
      have passes := pass_passes addresses encodeABI config maxUnstakeDelay s currentBlock forceRegistration replies
        following
      exact ⟨following_passed addresses config maxUnstakeDelay s forceRegistration scanned _ following noticed passes,
        accepted_passed addresses config maxUnstakeDelay s forceRegistration scanned _ following noticed suited passes⟩

/-- A pass that comes to its end with the manager in the registrar, after the whole stake is gone. -/
theorem lost_stake_reported (s : Follower) (currentBlock : ShortBlockInfo) (forceRegistration : Bool) (scanned : ℕ)
    (replies : ℕ → RegistrationReply) (following : Following addresses config maxUnstakeDelay s)
    (relying : Relying s.registration.manager) (lost : (s.registration.stakeInfo config).stake = 0)
    (known : authorizedAfter config.managerAddress addresses.this s.registration.manager.isHubAuthorized
      (eventsFrom config s.scanned s.registration) = true)
    (completed : (s.next addresses encodeABI config
      (.handlePastEvents currentBlock forceRegistration scanned replies)).completed = true)
    (correct : (s.next addresses encodeABI config (.handlePastEvents currentBlock forceRegistration scanned
      replies)).registration.manager.isRegistrationCorrect config = true) :
    ¬ Accepted addresses config
      (s.next addresses encodeABI config (.handlePastEvents currentBlock forceRegistration scanned replies)) := by
  have passes := pass_passes addresses encodeABI config maxUnstakeDelay s currentBlock forceRegistration replies
    following
  simp only [next] at completed correct ⊢
  generalize Proc.finish replies 0 (RegistrationManager.handlePastEvents addresses encodeABI config currentBlock
    s.scanned forceRegistration) s.registration = ended at passes completed correct
  cases ended with
  | none => cases completed
  | some ended =>
      obtain ⟨result, t⟩ := ended
      cases result with
      | error error => cases completed
      | ok value =>
          obtain ⟨registered, refused⟩ := lost_stake_unnoticed addresses config s forceRegistration t value
            (passes _ t rfl) relying lost known
          exact fun accepted => refused (accepted rfl (registered.trans correct))

/-- Whatever has happened on chain since the contracts were deployed, a manager that the server
reports as registered once `handlePastEvents` has come to its end is accepted by the hub, as long as
each such pass was `Sound`: a stake that the server relied on was still there when it was read again, and
large enough when it was not, and what the server took for enough was enough for the hub. Where the
stake is gone, the server reports the manager as registered all the same. -/
theorem registered_accepted (deployer : Address) (abandonmentDelay escheatmentDelay : ℕ)
    (burnAddress devAddress : Address) (tokens : Tokens) (contracts : RelayHub.World)
    (deployed : StakeManager.deploy deployer maxUnstakeDelay abandonmentDelay escheatmentDelay burnAddress
      devAddress tokens = .ok contracts.stakeManager)
    (inputs : List RegistrationInput)
    (along : Along (next addresses encodeABI config) (Sound addresses config) inputs (initial contracts)) :
    Always (next addresses encodeABI config) (Accepted addresses config) inputs (initial contracts) ∧
    (∀ currentBlock forceRegistration scanned replies,
      let s := inputs.foldl (next addresses encodeABI config) (initial contracts)
      let t := s.next addresses encodeABI config (.handlePastEvents currentBlock forceRegistration scanned replies)
      Relying s.registration.manager → (s.registration.stakeInfo config).stake = 0 →
      authorizedAfter config.managerAddress addresses.this s.registration.manager.isHubAuthorized
        (eventsFrom config s.scanned s.registration) = true →
      t.completed = true → t.registration.manager.isRegistrationCorrect config = true →
        ¬ Accepted addresses config t) := by
  have silent : authorizedAfter config.managerAddress addresses.this false contracts.stakeManager.events = false := by
    simp only [StakeManager.deploy, bind_ok, Except.ok.injEq] at deployed
    obtain ⟨_, _, made⟩ := deployed
    rw [← made]
    rfl
  have following : Following addresses config maxUnstakeDelay (initial contracts) := by
    refine ⟨Nat.zero_le _, StakeManager.deploy_consistent _ _ _ _ _ _ _ _ _ deployed, ?_, ?_, ?_⟩
    · exact fun after => by cases silent.symm.trans after
    · exact fun after => by cases silent.symm.trans after
    · exact fun relying => by cases relying.1
  have one : ∀ s input, Following addresses config maxUnstakeDelay s ∧ Accepted addresses config s →
      Sound addresses config s input →
        Following addresses config maxUnstakeDelay (s.next addresses encodeABI config input) ∧
          Accepted addresses config (s.next addresses encodeABI config input) :=
    fun s input both sound => next_following addresses encodeABI config maxUnstakeDelay s input both.1 sound
  have begin : Following addresses config maxUnstakeDelay (initial contracts) ∧
      Accepted addresses config (initial contracts) := ⟨following, fun never => by cases never⟩
  constructor
  · exact along_always _ (Sound addresses config) _ (Accepted addresses config) one (fun _ both => both.2) inputs _
      begin along
  · intro currentBlock forceRegistration scanned replies s t relying lost known completed correct
    have reached := along_invariant _ (Sound addresses config) _ one inputs _ begin along
    exact lost_stake_reported addresses encodeABI config maxUnstakeDelay s currentBlock forceRegistration scanned
      replies reached.1 relying lost known completed correct

def deployedWorld : RelayHub.World := { RelayHub.stakedWorld with stakeManager := StakeManager.sampleStart }

def encodeNothing : ContractMethod → Bytes := fun _ => []

theorem soon (delay : Fin 100) : 1000 + delay.val < uint256Max :=
  Nat.lt_trans (Nat.add_lt_add_left delay.isLt 1000) (by decide)

def onChain (delay : Fin 100) (sender : Address) (call : StakeManager.Call) : RegistrationInput :=
  .chain (.stakeManager (.call (RelayHub.envAt (1000 + delay.val) (soon delay)) sender call))

def pass : RegistrationInput := .handlePastEvents ⟨0, 1, 1000⟩ false 100 default

def registeredHistory : List RegistrationInput :=
  RelayHub.stakingSteps.map (fun input => .chain (.stakeManager input)) ++
    [.init ⟨0, 1, 1000⟩ 100 default, .chain (.registrar (some "https://relay.example")), pass]

theorem registered_accepted_sample :
    let s := registeredHistory.foldl (next RelayHub.sampleAddresses encodeNothing watchingConfig) (initial deployedWorld)
    s.completed = true ∧ s.registration.manager.isRegistered watchingConfig = true ∧
      Always (next RelayHub.sampleAddresses encodeNothing watchingConfig)
        (Accepted RelayHub.sampleAddresses watchingConfig) registeredHistory (initial deployedWorld) :=
  ⟨by decide +kernel, by decide +kernel,
    (registered_accepted RelayHub.sampleAddresses encodeNothing watchingConfig 100 1 500 500 9 11
      StakeManager.sampleTokens deployedWorld rfl registeredHistory (by decide +kernel)).1⟩

def penalizedHistory : List RegistrationInput :=
  registeredHistory ++ [onChain 1 100 (.penalizeRelayManager 31 8 50), pass]

def withdrawnHistory : List RegistrationInput :=
  registeredHistory ++ [onChain 1 2 (.unlockStake 31), onChain 16 2 (.withdrawStake 31),
    pass]

theorem lost_stake_registered :
    ¬ Always (next RelayHub.sampleAddresses encodeNothing watchingConfig)
      (Accepted RelayHub.sampleAddresses watchingConfig) penalizedHistory (initial deployedWorld) ∧
    ¬ Always (next RelayHub.sampleAddresses encodeNothing watchingConfig)
      (Accepted RelayHub.sampleAddresses watchingConfig) withdrawnHistory (initial deployedWorld) := by
  constructor
  · intro always
    have last := always_end _ _ _ _ always (by decide +kernel) (by decide +kernel)
    exact absurd last (by decide +kernel)
  · intro always
    have last := always_end _ _ _ _ always (by decide +kernel) (by decide +kernel)
    exact absurd last (by decide +kernel)

end OpenGsn.Relay.Follower
