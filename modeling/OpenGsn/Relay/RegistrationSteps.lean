import OpenGsn.Relay.SparedFields
import OpenGsn.StakeManager.Logs

/-! What the parts of `handlePastEvents` do to the fields that `isRegistered` reads, however they
are answered. -/

namespace OpenGsn.Relay

open Solidity Async Promise RegistrationManager

variable (addresses : RelayHub.Immutables) (encodeABI : ContractMethod → Bytes) (config : RegistrationConfig)
  (currentBlock : ShortBlockInfo)

namespace Registration

def stakeInfo (s : Registration) : StakeManager.StakeInfo :=
  s.contracts.stakeManager.stakes config.managerAddress

def Authorized (s : Registration) : Prop :=
  StakeManager.Authorized config.managerAddress addresses.this s.contracts.stakeManager

structure Reread (s : Registration) : Prop where
  staked : (s.stakeInfo config).stake ≠ 0
  locked : s.manager.isStakeLocked = decide ((s.stakeInfo config).withdrawTime = 0)
  current : s.manager.stakeRequired.currentValue = (s.stakeInfo config).stake

def Told (s : Registration) : Prop := ∀ url, s.manager.currentRelayInfo = some url → s.relayUrl = some url

structure Kept (s t : Registration) : Prop where
  contracts : t.contracts = s.contracts
  relayUrl : t.relayUrl = s.relayUrl
  required : t.manager.stakeRequired.requiredValue = s.manager.stakeRequired.requiredValue
  stake : (t.manager.isStakeLocked = s.manager.isStakeLocked ∧
    t.manager.stakeRequired.currentValue = s.manager.stakeRequired.currentValue) ∨ t.Reread config
  told : t.manager.currentRelayInfo = s.manager.currentRelayInfo ∨ t.Told

/-- As `Kept`, with no authorization but what is on chain. -/
structure Steady (s t : Registration) : Prop where
  kept : s.Kept config t
  hub : t.manager.isHubAuthorized = true → s.manager.isHubAuthorized = true ∨ s.Authorized addresses config
  known : s.manager.isHubAuthorized = true → t.manager.isHubAuthorized = true

theorem reread_moved (s t : Registration) (contracts : t.contracts = s.contracts)
    (locked : t.manager.isStakeLocked = s.manager.isStakeLocked)
    (current : t.manager.stakeRequired.currentValue = s.manager.stakeRequired.currentValue)
    (reread : s.Reread config) : t.Reread config := by
  have same : t.stakeInfo config = s.stakeInfo config := by
    unfold stakeInfo
    rw [contracts]
  exact ⟨same ▸ reread.staked, by rw [locked, same, reread.locked], by rw [current, same, reread.current]⟩

theorem kept_reread (s t : Registration) (kept : s.Kept config t) (reread : s.Reread config) : t.Reread config := by
  rcases kept.stake with ⟨locked, current⟩ | again
  · exact reread_moved config s t kept.contracts locked current reread
  · exact again

theorem kept_told (s t : Registration) (kept : s.Kept config t) (told : s.Told) : t.Told := by
  rcases kept.told with same | fresh
  · intro url remembered
    rw [kept.relayUrl]
    exact told url (same ▸ remembered)
  · exact fresh

theorem kept_refl (s : Registration) : s.Kept config s := ⟨rfl, rfl, rfl, .inl ⟨rfl, rfl⟩, .inl rfl⟩

theorem kept_trans (s t u : Registration) (first : s.Kept config t) (second : t.Kept config u) : s.Kept config u := by
  refine ⟨second.contracts.trans first.contracts, second.relayUrl.trans first.relayUrl,
    second.required.trans first.required, ?_, ?_⟩
  · rcases first.stake with ⟨locked, current⟩ | reread
    · exact second.stake.imp_left fun same => ⟨same.1.trans locked, same.2.trans current⟩
    · exact .inr (kept_reread config t u second reread)
  · rcases first.told with same | told
    · exact second.told.imp_left fun again => again.trans same
    · exact .inr (kept_told config t u second told)

theorem steady_refl (s : Registration) : s.Steady addresses config s := ⟨kept_refl config s, .inl, id⟩

theorem steady_trans (s t u : Registration) (first : s.Steady addresses config t)
    (second : t.Steady addresses config u) : s.Steady addresses config u := by
  refine ⟨kept_trans config s t u first.kept second.kept, fun authorized => ?_, second.known ∘ first.known⟩
  rcases second.hub authorized with before | onChain
  · exact first.hub before
  · right
    unfold Authorized at onChain ⊢
    rw [first.kept.contracts] at onChain
    exact onChain

theorem steady_same (s t : Registration) (contracts : t.contracts = s.contracts) (relayUrl : t.relayUrl = s.relayUrl)
    (required : t.manager.stakeRequired = s.manager.stakeRequired)
    (locked : t.manager.isStakeLocked = s.manager.isStakeLocked)
    (hub : t.manager.isHubAuthorized = s.manager.isHubAuthorized)
    (info : t.manager.currentRelayInfo = s.manager.currentRelayInfo) : s.Steady addresses config t :=
  ⟨⟨contracts, relayUrl, by rw [required], .inl ⟨locked, by rw [required]⟩, .inl info⟩,
    fun authorized => .inl (hub ▸ authorized), hub.trans⟩

end Registration

open Registration

/-! The parts that leave all of it as it is. -/

abbrev KeepsSteady {α : Type} (promise : RegistrationPromise α) : Prop :=
  Keeps (Steady addresses config) promise

variable {addresses config} in
theorem then_steady {α β : Type} {first : RegistrationPromise α} {rest : α → RegistrationPromise β}
    (one : KeepsSteady addresses config first) (two : ∀ value, KeepsSteady addresses config (rest value)) :
    KeepsSteady addresses config (first >>= rest) :=
  keeps_bind (steady_trans addresses config) first rest one two

theorem sends_steady {α : Type} (promise : RegistrationPromise α) (sends : OnlySends promise) :
    KeepsSteady addresses config promise := by
  intro s
  refine Proc.alone_weaken _ _ _ ?_ (Proc.ends_alone _ _ s (sends s))
  intro _ t sent
  exact steady_same addresses config s t sent.contracts sent.relayUrl (by rw [sent.manager]) (by rw [sent.manager])
    (by rw [sent.manager]) (by rw [sent.manager])

theorem pure_steady {α : Type} (value : α) :
    KeepsSteady addresses config (pure value : RegistrationPromise α) :=
  sends_steady addresses config _ (pure_sends value)

theorem inquire_steady {α : Type} (answer : RegistrationReply → Registration → α) :
    KeepsSteady addresses config (inquire answer) :=
  sends_steady addresses config _ (inquire_sends answer)

theorem field_steady {α : Type} (read : RegistrationManager → α) :
    KeepsSteady addresses config (field read) :=
  sends_steady addresses config _ (field_sends read)

theorem expect_steady (condition : Prop) [Decidable condition] (message : String) :
    KeepsSteady addresses config (expect condition message) :=
  sends_steady addresses config _ (expect_sends condition message)

theorem field_alone {α : Type} (read : RegistrationManager → α) (post : Except String α → Registration → Prop)
    (s : Registration) : Proc.Alone post (field read) s ↔ post (.ok (read s.manager)) s := by
  unfold field
  rw [alone_sync]

theorem assign_alone (change : RegistrationManager → RegistrationManager)
    (post : Except String Unit → Registration → Prop) (s : Registration) :
    Proc.Alone post (assign change) s ↔ post (.ok ()) { s with manager := change s.manager } := by
  unfold assign
  rw [alone_sync]

theorem assign_steady (change : RegistrationManager → RegistrationManager)
    (unread : ∀ m, (change m).stakeRequired = m.stakeRequired ∧ (change m).isStakeLocked = m.isStakeLocked ∧
      (change m).isHubAuthorized = m.isHubAuthorized ∧ (change m).currentRelayInfo = m.currentRelayInfo) :
    KeepsSteady addresses config (assign change) := by
  intro s
  rw [assign_alone]
  obtain ⟨required, locked, hub, info⟩ := unread s.manager
  exact steady_same addresses config s _ rfl rfl required locked hub info

theorem sendOne_steady (transaction : SendTransactionDetails) :
    KeepsSteady addresses config (do
      let transactionHash ← RegistrationManager.sendTransaction transaction
      pure [transactionHash]) :=
  sends_steady addresses config _ (sendOne_sends transaction)

theorem withdrawAllFunds_steady (withdrawManager : Bool) :
    KeepsSteady addresses config (withdrawAllFunds addresses encodeABI config currentBlock withdrawManager) :=
  sends_steady addresses config _ (withdrawAllFunds_sends addresses encodeABI config currentBlock withdrawManager)

theorem refreshBalance_steady : KeepsSteady addresses config refreshBalance :=
  then_steady (inquire_steady addresses config _) fun _ =>
    assign_steady addresses config _ fun _ => ⟨rfl, rfl, rfl, rfl⟩

theorem setOwnerOnce_steady :
    KeepsSteady addresses config (setOwnerOnce addresses encodeABI config currentBlock) := by
  refine then_steady (field_steady addresses config _) fun m => ?_
  split
  · refine then_steady (assign_steady addresses config _ fun _ => ⟨rfl, rfl, rfl, rfl⟩) fun _ => ?_
    exact sendOne_steady addresses config _
  · exact pure_steady addresses config _

theorem register_steady : KeepsSteady addresses config (register addresses encodeABI config currentBlock) :=
  sends_steady addresses config _ (register_sends addresses encodeABI config currentBlock)

theorem extractDuePendingEvents_steady : KeepsSteady addresses config (extractDuePendingEvents currentBlock) := by
  intro s
  unfold extractDuePendingEvents
  rw [alone_sync]
  exact steady_same addresses config s _ rfl rfl rfl rfl rfl rfl

theorem handleDueEvents_steady (events : List StakeManager.Event) :
    KeepsSteady addresses config (handleDueEvents addresses encodeABI config currentBlock events) :=
  sends_steady addresses config _ (handleDueEvents_sends addresses encodeABI config currentBlock events)

/-! The parts that follow the chain. -/

theorem inquire_alone {α : Type} (answer : RegistrationReply → Registration → α) (s : Registration) :
    Proc.Alone (fun result t => t = s ∧ ∀ value, result = .ok value → ∃ reply, value = answer reply s)
      (inquire answer) s := by
  unfold inquire
  rw [alone_serve]
  intro reply
  refine ⟨rfl, fun value answered => ⟨reply, ?_⟩⟩
  unfold RegistrationReply.result at answered
  split at answered
  · cases answered
  · cases answered
    rfl

theorem isRelayManagerStakedOnHub_alone (s : Registration) :
    Proc.Alone (fun result t => t = s ∧ ∀ status, result = .ok status → status = .ok () →
        RelayHub.verifyRelayManagerStaked addresses config.managerAddress s.contracts = .ok ())
      (isRelayManagerStakedOnHub addresses config) s := by
  unfold isRelayManagerStakedOnHub
  rw [alone_serve]
  intro reply
  refine ⟨rfl, fun status answered staked => ?_⟩
  cases answered
  unfold stakedOnHubStatus at staked
  split at staked
  · cases staked
  · exact staked

theorem verified_authorized (s : Registration)
    (staked : RelayHub.verifyRelayManagerStaked addresses config.managerAddress s.contracts = .ok ()) :
    s.Authorized addresses config :=
  ((RelayHub.verifyRelayManagerStaked_ok addresses config.managerAddress s.contracts).mp staked).2.2.2.2.2

theorem refreshHubAuthorized_steady (stakedOnHubStatus : Except Revert Unit) (s : Registration)
    (sound : stakedOnHubStatus = .ok () → s.Authorized addresses config) :
    Proc.Alone (fun _ t => s.Steady addresses config t)
      (refreshHubAuthorized addresses encodeABI config currentBlock stakedOnHubStatus) s := by
  unfold refreshHubAuthorized
  split
  next staked =>
    rw [alone_bind, assign_alone]
    exact ⟨⟨rfl, rfl, rfl, .inl ⟨rfl, rfl⟩, .inl rfl⟩, fun _ => .inr (sound staked), fun _ => rfl⟩
  next =>
    split
    · refine then_steady (inquire_steady addresses config _) (fun isAuthorizePending => ?_) s
      split
      · exact pure_steady addresses config _
      · exact sendOne_steady addresses config _
    · exact pure_steady addresses config _ s

theorem refreshFields_reads (s : Registration) :
    Proc.Alone (fun result t => s.Steady addresses config t ∧
      ∀ value, result = .ok value → (s.stakeInfo config).stake ≠ 0 → t.Reread config)
      (refreshFields config (s.stakeInfo config)) s := by
  refine alone_seq _ _ s (assign_steady addresses config _ ?_ s) ?_ ?_
  · exact fun _ => ⟨rfl, rfl, rfl, rfl⟩
  · exact fun _ t steady => ⟨steady, fun _ made => by cases made⟩
  intro _ t first
  refine alone_seq _ _ t (expect_steady addresses config _ _ t) ?_ ?_
  · exact fun _ u second => ⟨steady_trans addresses config _ _ _ first second, fun _ made => by cases made⟩
  intro _ u second
  have reached := steady_trans addresses config _ _ _ first second
  split
  next none => exact ⟨reached, fun _ _ staked => absurd none staked⟩
  next staked =>
    have same : u.stakeInfo config = s.stakeInfo config := by
      unfold stakeInfo
      rw [reached.kept.contracts]
    have reread : Registration.Reread config { u with manager := restaked (s.stakeInfo config) u.manager } := by
      rw [← same] at staked ⊢
      exact ⟨staked, rfl, rfl⟩
    have written : u.Steady addresses config { u with manager := restaked (s.stakeInfo config) u.manager } :=
      ⟨⟨rfl, rfl, rfl, .inr reread, .inl rfl⟩, .inl, id⟩
    rw [assign_alone]
    exact ⟨steady_trans addresses config _ _ _ reached written, fun _ _ _ => reread⟩

theorem refreshStake_reads (s : Registration) :
    Proc.Alone (fun result t => s.Steady addresses config t ∧
      ∀ value, result = .ok value → (s.stakeInfo config).stake ≠ 0 → t.Reread config)
      (refreshStake addresses encodeABI config currentBlock) s := by
  refine alone_seq _ _ s (inquire_alone _ s) ?_ ?_
  · exact fun _ t asked => ⟨asked.1 ▸ steady_refl addresses config s, fun _ made => by cases made⟩
  intro stakeInfo t asked
  obtain ⟨rfl, answered⟩ := asked
  obtain ⟨_, rfl⟩ := answered stakeInfo rfl
  refine alone_seq _ _ t (isRelayManagerStakedOnHub_alone addresses config t) ?_ ?_
  · exact fun _ u asked => ⟨asked.1 ▸ steady_refl addresses config t, fun _ made => by cases made⟩
  intro status u asked
  obtain ⟨rfl, answered⟩ := asked
  refine alone_seq _ _ u (refreshHubAuthorized_steady addresses encodeABI config currentBlock _ u
    fun staked => verified_authorized addresses config u (answered status rfl staked)) ?_ ?_
  · exact fun _ t steady => ⟨steady, fun _ made => by cases made⟩
  intro transactionHashes t refreshed
  have same : t.stakeInfo config = u.stakeInfo config := by
    unfold stakeInfo
    rw [refreshed.kept.contracts]
  have fields := refreshFields_reads addresses config t
  rw [same] at fields
  refine alone_seq _ _ t fields ?_ ?_
  · exact fun _ v written => ⟨steady_trans addresses config _ _ _ refreshed written.1, fun _ made => by cases made⟩
  intro _ v written
  exact ⟨steady_trans addresses config _ _ _ refreshed written.1, fun _ _ staked => written.2 () rfl staked⟩

/-! The events. -/

theorem stakeInfo_kept (s t : Registration) (kept : s.Kept config t) : t.stakeInfo config = s.stakeInfo config := by
  unfold stakeInfo
  rw [kept.contracts]

theorem authorized_kept (s t : Registration) (kept : s.Kept config t) (authorized : t.Authorized addresses config) :
    s.Authorized addresses config := by
  unfold Registration.Authorized at authorized ⊢
  rw [kept.contracts] at authorized
  exact authorized

/-- What an event tells of the hub, or the chain itself, and what it makes the server read. -/
structure Handled (event : StakeManager.Event) (s t : Registration) : Prop where
  kept : s.Kept config t
  hub : t.manager.isHubAuthorized = true →
    event.authorizes config.managerAddress addresses.this s.manager.isHubAuthorized = true ∨
      s.Authorized addresses config
  known : event.authorizes config.managerAddress addresses.this s.manager.isHubAuthorized = true →
    t.manager.isHubAuthorized = true

theorem assigned_handled (event : StakeManager.Event) (change : RegistrationManager → RegistrationManager)
    (s : Registration)
    (unread : (change s.manager).stakeRequired = s.manager.stakeRequired ∧
      (change s.manager).isStakeLocked = s.manager.isStakeLocked ∧
      (change s.manager).currentRelayInfo = s.manager.currentRelayInfo)
    (hub : (change s.manager).isHubAuthorized =
      event.authorizes config.managerAddress addresses.this s.manager.isHubAuthorized) :
    Handled addresses config event s { s with manager := change s.manager } := by
  obtain ⟨required, locked, info⟩ := unread
  refine ⟨⟨rfl, rfl, congrArg _ required, .inl ⟨locked, congrArg _ required⟩, .inl info⟩, ?_, hub.trans⟩
  exact fun authorized => .inl (hub ▸ authorized)

theorem handleEvent_handles (event : StakeManager.Event) (s : Registration)
    (concerned : concerns config.managerAddress event = true) :
    Proc.Alone (fun result t => Handled addresses config event s t ∧ ∀ value, result = .ok value →
      rereads event = true → (s.stakeInfo config).stake ≠ 0 → t.Reread config)
      (handleEvent addresses encodeABI config currentBlock event) s := by
  have refreshed : (∀ known, event.authorizes config.managerAddress addresses.this known = known) →
      Proc.Alone (fun result t => Handled addresses config event s t ∧ ∀ value, result = .ok value →
        rereads event = true → (s.stakeInfo config).stake ≠ 0 → t.Reread config)
        (refreshStake addresses encodeABI config currentBlock) s := by
    intro silent
    refine Proc.alone_weaken _ _ _ ?_ (refreshStake_reads addresses encodeABI config currentBlock s)
    intro result t read
    refine ⟨⟨read.1.kept, ?_, ?_⟩, fun value made _ => read.2 value made⟩
    · rw [silent]
      exact read.1.hub
    · rw [silent]
      exact read.1.known
  cases event with
  | ownerSet => exact refreshed fun _ => rfl
  | stakeAdded => exact refreshed fun _ => rfl
  | stakeUnlocked => exact refreshed fun _ => rfl
  | stakeWithdrawn relayManager owner token amount =>
      refine alone_seq _ _ s (refreshed fun _ => rfl) ?_ ?_
      · exact fun _ t read => ⟨read.1, fun _ made => by cases made⟩
      intro value t read
      refine Proc.alone_weaken _ _ _ ?_ (then_steady
        (withdrawAllFunds_steady addresses encodeABI config currentBlock true)
        (fun withdrawn => pure_steady addresses config (value ++ withdrawn)) t)
      intro result u steady
      refine ⟨⟨kept_trans config s t u read.1.kept steady.kept, fun authorized => ?_, steady.known ∘ read.1.known⟩,
        fun _ _ rereading staked => ?_⟩
      · rcases steady.hub authorized with before | onChain
        · exact read.1.hub before
        · exact .inr (authorized_kept addresses config s t read.1.kept onChain)
      · exact kept_reread config t u steady.kept (read.2 value rfl rereading staked)
  | hubAuthorized relayManager relayHub =>
      unfold handleEvent
      rw [alone_bind, assign_alone]
      have manager : relayManager = config.managerAddress := of_decide_eq_true concerned
      refine ⟨assigned_handled addresses config _ (handleHubAuthorizedEvent addresses relayHub) s ?_ ?_, ?_⟩
      · unfold handleHubAuthorizedEvent
        split <;> exact ⟨rfl, rfl, rfl⟩
      · simp only [handleHubAuthorizedEvent, StakeManager.Event.authorizes, manager, true_and]
        split <;> rfl
      · exact fun _ _ rereading => by cases rereading
  | hubUnauthorized relayManager relayHub removalTime =>
      unfold handleEvent
      rw [alone_bind, assign_alone]
      have manager : relayManager = config.managerAddress := of_decide_eq_true concerned
      refine ⟨assigned_handled addresses config _ (handleHubUnauthorized addresses relayHub removalTime _) s ?_ ?_, ?_⟩
      · unfold handleHubUnauthorized
        split <;> exact ⟨rfl, rfl, rfl⟩
      · simp only [handleHubUnauthorized, StakeManager.Event.authorizes, manager, true_and]
        split <;> rfl
      · exact fun _ _ rereading => by cases rereading
  | _ => cases concerned

/-- As far as the events were handled, what is left of them leads from the flag to the chain. -/
structure HandledAll (events : List StakeManager.Event) (s : Registration) (result : Except String (List Uint256))
    (t : Registration) : Prop where
  kept : s.Kept config t
  hub : ∃ rest, rest <:+ events ∧ (∀ value, result = .ok value → rest = []) ∧
    (StakeManager.authorizedAfter config.managerAddress addresses.this t.manager.isHubAuthorized rest = true →
      s.Authorized addresses config)
  known : ∀ value, result = .ok value → StakeManager.authorizedAfter config.managerAddress addresses.this
    s.manager.isHubAuthorized events = true → t.manager.isHubAuthorized = true
  reread : ∀ value, result = .ok value → (∃ event ∈ events, rereads event = true) →
    (s.stakeInfo config).stake ≠ 0 → t.Reread config

theorem handleEvents_handles (events : List StakeManager.Event) (s : Registration)
    (concerned : ∀ event ∈ events, concerns config.managerAddress event = true)
    (sound : StakeManager.authorizedAfter config.managerAddress addresses.this s.manager.isHubAuthorized events = true →
      s.Authorized addresses config) :
    Proc.Alone (HandledAll addresses config events s)
      (handleEvents addresses encodeABI config currentBlock events) s := by
  induction events generalizing s with
  | nil =>
      refine ⟨kept_refl config s, ⟨[], List.suffix_refl [], fun _ _ => rfl, sound⟩, fun _ _ => id, fun _ _ found => ?_⟩
      obtain ⟨event, member, _⟩ := found
      cases member
  | cons event rest ih =>
      have remains : ∀ t, Handled addresses config event s t →
          StakeManager.authorizedAfter config.managerAddress addresses.this t.manager.isHubAuthorized rest = true →
            s.Authorized addresses config := by
        intro t handled after
        by_cases onChain : s.Authorized addresses config
        · exact onChain
        · refine sound (StakeManager.authorizedAfter_mono _ _ rest _ _ ?_ after)
          exact fun authorized => (handled.hub authorized).resolve_right onChain
      refine alone_seq _ _ s (handleEvent_handles addresses encodeABI config currentBlock event s
        (concerned event List.mem_cons_self)) ?_ ?_
      · intro error t handled
        refine ⟨handled.1.kept, ⟨rest, List.suffix_cons event rest, ?_, remains t handled.1⟩, ?_, ?_⟩
        all_goals exact fun _ made => by cases made
      intro first t handled
      have onward := ih t (fun later member => concerned later (List.mem_cons_of_mem event member)) fun after => by
        unfold Registration.Authorized
        rw [handled.1.kept.contracts]
        exact remains t handled.1 after
      have closes : ∀ result u, HandledAll addresses config rest t result u →
          ∀ ended, (∀ value, ended = .ok value → ∃ others, result = .ok others) →
            HandledAll addresses config (event :: rest) s ended u := by
        intro result u all ended ends
        obtain ⟨left, suffix, done, after⟩ := all.hub
        refine ⟨kept_trans config s t u handled.1.kept all.kept,
          ⟨left, suffix.trans (List.suffix_cons event rest), ?_, ?_⟩, ?_, ?_⟩
        · intro value made
          obtain ⟨others, same⟩ := ends value made
          exact done others same
        · exact fun authorized => authorized_kept addresses config s t handled.1.kept (after authorized)
        · intro value made told
          obtain ⟨others, same⟩ := ends value made
          exact all.known others same (StakeManager.authorizedAfter_mono _ _ rest _ _ handled.1.known told)
        · intro value made found staked
          obtain ⟨others, same⟩ := ends value made
          obtain ⟨source, member, rereading⟩ := found
          rcases List.mem_cons.mp member with rfl | later
          · exact kept_reread config t u all.kept (handled.2 first rfl rereading staked)
          · rw [← stakeInfo_kept config s t handled.1.kept] at staked
            exact all.reread others same ⟨source, later, rereading⟩ staked
      refine alone_seq _ _ t onward ?_ ?_
      · exact fun error u all => closes _ u all _ fun _ made => by cases made
      · exact fun others u all => closes _ u all _ fun _ _ => ⟨others, rfl⟩

theorem steady_handledAll (events : List StakeManager.Event) (s t u : Registration)
    (result : Except String (List Uint256)) (before : s.Steady addresses config t)
    (all : HandledAll addresses config events t result u) : HandledAll addresses config events s result u := by
  obtain ⟨rest, suffix, done, after⟩ := all.hub
  refine ⟨kept_trans config s t u before.kept all.kept, ⟨rest, suffix, done, fun authorized => ?_⟩, ?_, ?_⟩
  · exact authorized_kept addresses config s t before.kept (after authorized)
  · intro value made told
    exact all.known value made (StakeManager.authorizedAfter_mono _ _ events _ _ before.known told)
  · rw [← stakeInfo_kept config s t before.kept]
    exact all.reread

theorem handledAll_steady (events : List StakeManager.Event) (s t u : Registration) (value : List Uint256)
    (result : Except String (List Uint256)) (all : HandledAll addresses config events s (.ok value) t)
    (later : t.Steady addresses config u) : HandledAll addresses config events s result u := by
  obtain ⟨rest, suffix, done, after⟩ := all.hub
  have none := done value rfl
  subst none
  refine ⟨kept_trans config s t u all.kept later.kept, ⟨[], suffix, fun _ _ => rfl, fun authorized => ?_⟩,
    fun _ _ => later.known ∘ all.known value rfl, ?_⟩
  · rcases later.hub authorized with before | onChain
    · exact after before
    · exact authorized_kept addresses config s t all.kept onChain
  · exact fun _ _ found staked => kept_reread config t u later.kept (all.reread value rfl found staked)

/-! The registration. -/

theorem refreshRegistrarRelayInfo_tells (s : Registration) :
    Proc.Alone (fun _ t => s.Steady addresses config t ∧ t.Told) refreshRegistrarRelayInfo s := by
  unfold refreshRegistrarRelayInfo
  rw [alone_serve]
  intro reply
  have told : Registration.Told
      { s with manager := { s.manager with currentRelayInfo := relayInfo reply s.relayUrl } } := by
    intro url remembered
    simp only [relayInfo] at remembered
    split at remembered
    · cases remembered
    · exact remembered
  exact ⟨⟨⟨rfl, rfl, rfl, .inl ⟨rfl, rfl⟩, .inr told⟩, .inl, id⟩, told⟩

def Registration.Verified (s : Registration) : Prop :=
  RelayHub.verifyRelayManagerStaked addresses config.managerAddress s.contracts = .ok ()

theorem attemptRegistration_reads (s : Registration) :
    Proc.Alone (fun result t => s.Steady addresses config t ∧
      ∀ value, result = .ok value → s.Verified addresses config ∨ ((s.stakeInfo config).stake ≠ 0 → t.Reread config))
      (attemptRegistration addresses encodeABI config currentBlock) s := by
  refine alone_seq _ _ s (isRelayManagerStakedOnHub_alone addresses config s) ?_ ?_
  · exact fun _ t asked => ⟨asked.1 ▸ steady_refl addresses config s, fun _ made => by cases made⟩
  intro stakeOnHubStatus t asked
  obtain ⟨rfl, answered⟩ := asked
  rw [alone_bind, field_alone]
  simp only
  split
  next allPrerequisitesOk =>
    have verified : t.Verified addresses config := by
      simp only [Bool.and_eq_true, decide_eq_true_eq] at allPrerequisitesOk
      exact answered stakeOnHubStatus rfl allPrerequisitesOk.2
    refine Proc.alone_weaken _ _ _ ?_ (register_steady addresses encodeABI config currentBlock t)
    exact fun _ u steady => ⟨steady, fun _ _ => .inl verified⟩
  next =>
    refine alone_seq _ _ t (refreshStake_reads addresses encodeABI config currentBlock t) ?_ ?_
    · exact fun _ u read => ⟨read.1, fun _ made => by cases made⟩
    intro transactionHashes u read
    refine Proc.alone_weaken _ _ _ ?_ (then_steady (refreshBalance_steady addresses config)
      (fun _ => pure_steady addresses config []) u)
    intro result v steady
    refine ⟨steady_trans addresses config _ _ _ read.1 steady, fun _ _ => .inr fun staked => ?_⟩
    exact kept_reread config u v steady.kept (read.2 transactionHashes rfl staked)

theorem registerAgain_reads (forceRegistration : Bool) (s : Registration) :
    Proc.Alone (fun result t => s.Steady addresses config t ∧ ∀ value, result = .ok value →
      forceRegistration = true →
        s.Verified addresses config ∨ ((s.stakeInfo config).stake ≠ 0 → t.Reread config))
      (registerAgain addresses encodeABI config currentBlock forceRegistration) s := by
  refine alone_seq _ _ s (field_steady addresses config _ s) ?_ ?_
  · exact fun _ t steady => ⟨steady, fun _ made => by cases made⟩
  intro isRegistrationCorrect t first
  refine alone_seq _ _ t (inquire_steady addresses config _ t) ?_ ?_
  · exact fun _ u second => ⟨steady_trans addresses config _ _ _ first second, fun _ made => by cases made⟩
  intro isRegistrationPending u second
  have reached := steady_trans addresses config _ _ _ first second
  split
  next =>
    refine Proc.alone_weaken _ _ _ ?_ (attemptRegistration_reads addresses encodeABI config currentBlock u)
    intro result v read
    refine ⟨steady_trans addresses config _ _ _ reached read.1, fun value made _ => ?_⟩
    have ended := read.2 value made
    unfold Registration.Verified at ended ⊢
    rw [reached.kept.contracts, stakeInfo_kept config s u reached.kept] at ended
    exact ended
  next ignored =>
    refine ⟨reached, fun _ _ forced => ?_⟩
    rw [forced, Bool.or_true] at ignored
    exact absurd rfl ignored

theorem concludeEvents_reads (forceRegistration : Bool) (s : Registration) :
    Proc.Alone (fun result t => s.Steady addresses config t ∧ ∀ value, result = .ok value →
      t.Told ∧ (forceRegistration = true →
        s.Verified addresses config ∨ ((s.stakeInfo config).stake ≠ 0 → t.Reread config)))
      (concludeEvents addresses encodeABI config currentBlock forceRegistration) s := by
  refine alone_seq _ _ s (extractDuePendingEvents_steady addresses config currentBlock s) ?_ ?_
  · exact fun _ t steady => ⟨steady, fun _ made => by cases made⟩
  intro due t first
  refine alone_seq _ _ t (handleDueEvents_steady addresses encodeABI config currentBlock due t) ?_ ?_
  · exact fun _ u second => ⟨steady_trans addresses config _ _ _ first second, fun _ made => by cases made⟩
  intro handledLate u second
  have early := steady_trans addresses config _ _ _ first second
  refine alone_seq _ _ u (refreshRegistrarRelayInfo_tells addresses config u) ?_ ?_
  · exact fun _ v third => ⟨steady_trans addresses config _ _ _ early third.1, fun _ made => by cases made⟩
  intro _ v third
  have reached := steady_trans addresses config _ _ _ early third.1
  refine alone_seq _ _ v (registerAgain_reads addresses encodeABI config currentBlock forceRegistration v) ?_ ?_
  · exact fun _ w read => ⟨steady_trans addresses config _ _ _ reached read.1, fun _ made => by cases made⟩
  intro registered w read
  refine ⟨steady_trans addresses config _ _ _ reached read.1, fun _ _ => ⟨?_, fun forced => ?_⟩⟩
  · exact kept_told config v w read.1.kept third.2
  · have ended := read.2 registered rfl forced
    unfold Registration.Verified at ended ⊢
    rw [reached.kept.contracts, stakeInfo_kept config s v reached.kept] at ended
    exact ended

structure Passed (forceRegistration : Bool) (events : List StakeManager.Event) (s : Registration)
    (result : Except String (List Uint256)) (t : Registration) : Prop where
  all : HandledAll addresses config events s result t
  told : ∀ value, result = .ok value → t.Told
  forced : ∀ value, result = .ok value → forceRegistration = true →
    s.Verified addresses config ∨ ((s.stakeInfo config).stake ≠ 0 → t.Reread config)

theorem passed_fails (forceRegistration : Bool) (events : List StakeManager.Event) (s t : Registration)
    (error : String) (all : HandledAll addresses config events s (.error error) t) :
    Passed addresses config forceRegistration events s (.error error) t := by
  refine ⟨all, ?_, ?_⟩
  all_goals exact fun _ made => by cases made

theorem passed_unstarted (forceRegistration : Bool) (events : List StakeManager.Event) (s t : Registration)
    (error : String) (steady : s.Steady addresses config t)
    (sound : StakeManager.authorizedAfter config.managerAddress addresses.this t.manager.isHubAuthorized events = true →
      s.Authorized addresses config) :
    Passed addresses config forceRegistration events s (.error error) t := by
  refine passed_fails addresses config forceRegistration events s t error
    ⟨steady.kept, ⟨events, List.suffix_refl events, ?_, sound⟩, ?_, ?_⟩
  all_goals exact fun _ made => by cases made

theorem handlePastEvents_passes (scanned : ℕ) (forceRegistration : Bool) (s : Registration)
    (sound : StakeManager.authorizedAfter config.managerAddress addresses.this s.manager.isHubAuthorized
      (eventsFrom config scanned s) = true → s.Authorized addresses config) :
    Proc.Alone (Passed addresses config forceRegistration (eventsFrom config scanned s) s)
      (handlePastEvents addresses encodeABI config currentBlock scanned forceRegistration) s := by
  have leads : ∀ t, s.Steady addresses config t → StakeManager.authorizedAfter config.managerAddress addresses.this
      t.manager.isHubAuthorized (eventsFrom config scanned s) = true → s.Authorized addresses config := by
    intro t steady after
    by_cases onChain : s.Authorized addresses config
    · exact onChain
    · exact sound (StakeManager.authorizedAfter_mono _ _ _ _ _
        (fun authorized => (steady.hub authorized).resolve_right onChain) after)
  have stops : ∀ (error : String) (t : Registration), s.Steady addresses config t →
      Passed addresses config forceRegistration (eventsFrom config scanned s) s (.error error) t :=
    fun error t steady => passed_unstarted addresses config _ _ s t error steady (leads t steady)
  refine alone_seq _ _ s (field_steady addresses config _ s) stops ?_
  intro isInitialized t first
  refine alone_seq _ _ t (expect_steady addresses config _ _ t) ?_ ?_
  · exact fun error u second => stops error u (steady_trans addresses config _ _ _ first second)
  intro _ u second
  have early := steady_trans addresses config _ _ _ first second
  refine alone_seq _ _ u (inquire_alone _ u) ?_ ?_
  · exact fun error v asked => stops error v (asked.1 ▸ early)
  intro decodedEvents v asked
  obtain ⟨rfl, answered⟩ := asked
  obtain ⟨_, rfl⟩ := answered decodedEvents rfl
  have found : eventsFrom config scanned v = eventsFrom config scanned s := by
    unfold eventsFrom
    rw [early.kept.contracts]
  rw [found]
  refine alone_seq _ _ v (setOwnerOnce_steady addresses encodeABI config currentBlock v) ?_ ?_
  · exact fun error w third => stops error w (steady_trans addresses config _ _ _ early third)
  intro ownerSet w third
  have reached := steady_trans addresses config _ _ _ early third
  refine alone_seq _ _ w (handleEvents_handles addresses encodeABI config currentBlock _ w
    (fun event member => (List.mem_filter.mp member).2) ?_) ?_ ?_
  · intro after
    unfold Registration.Authorized
    rw [reached.kept.contracts]
    exact leads w reached after
  · exact fun error x all => passed_fails addresses config _ _ s x error
      (steady_handledAll addresses config _ s w x _ reached all)
  intro handled x all
  have done := steady_handledAll addresses config _ s w x _ reached all
  refine alone_seq _ _ x (concludeEvents_reads addresses encodeABI config currentBlock forceRegistration x) ?_ ?_
  · exact fun error y concluded => passed_fails addresses config _ _ s y error
      (handledAll_steady addresses config _ s x y handled _ done concluded.1)
  intro concluded y last
  refine ⟨handledAll_steady addresses config _ s x y handled _ done last.1, fun _ _ => (last.2 concluded rfl).1, ?_⟩
  intro _ _ forced
  have ended := (last.2 concluded rfl).2 forced
  unfold Registration.Verified at ended ⊢
  rw [done.kept.contracts, stakeInfo_kept config s x done.kept] at ended
  exact ended

/-- A new server knows nothing but what `refreshStake` has read. -/
structure Begun (s t : Registration) : Prop where
  contracts : t.contracts = s.contracts
  relayUrl : t.relayUrl = s.relayUrl
  hub : t.manager.isHubAuthorized = true → s.Authorized addresses config
  locked : t.manager.isStakeLocked = true → t.Reread config

theorem steady_begun (s t : Registration) (hub : s.manager.isHubAuthorized = false)
    (locked : s.manager.isStakeLocked = false) (steady : s.Steady addresses config t) :
    Begun addresses config s t := by
  refine ⟨steady.kept.contracts, steady.kept.relayUrl, fun authorized => ?_, fun stillLocked => ?_⟩
  · refine (steady.hub authorized).resolve_left ?_
    rw [hub]
    exact Bool.false_ne_true
  · refine steady.kept.stake.resolve_left fun same => ?_
    rw [same.1, locked] at stillLocked
    cases stillLocked

theorem init_begins (latestBlock : ShortBlockInfo) (s : Registration) (hub : s.manager.isHubAuthorized = false)
    (locked : s.manager.isStakeLocked = false) :
    Proc.Alone (fun _ t => Begun addresses config s t) (init addresses encodeABI config latestBlock) s := by
  have unchanged := steady_begun addresses config s s hub locked (steady_refl addresses config s)
  refine alone_seq _ _ s (inquire_alone _ s) (fun _ t asked => asked.1 ▸ unchanged) ?_
  intro _ t asked
  obtain ⟨rfl, _⟩ := asked
  refine alone_seq _ _ t (inquire_alone _ t) (fun _ u asked => asked.1 ▸ unchanged) ?_
  intro minimumStakePerToken u asked
  obtain ⟨rfl, _⟩ := asked
  rw [alone_bind, assign_alone]
  refine Proc.alone_weaken _ _ _ ?_ (then_steady (refreshBalance_steady addresses config) (fun _ => ?_) _)
  · intro _ t steady
    have begun := steady_begun addresses config _ t (by exact hub) (by exact locked) steady
    exact ⟨begun.contracts, begun.relayUrl, begun.hub, begun.locked⟩
  · refine then_steady (fun v => Proc.alone_weaken _ _ _ (fun _ _ read => read.1)
      (refreshStake_reads addresses encodeABI config latestBlock v)) fun transactionHashes => ?_
    refine then_steady (assign_steady addresses config _ ?_) fun _ => pure_steady addresses config _
    exact fun _ => ⟨rfl, rfl, rfl, rfl⟩

end OpenGsn.Relay
