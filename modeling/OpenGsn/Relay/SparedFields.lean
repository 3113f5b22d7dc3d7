import OpenGsn.Relay.RegistrationManager

/-! What the parts of `RegistrationManager.ts` leave alone. -/

namespace OpenGsn.Relay

open Solidity Async Promise RegistrationManager

variable (addresses : RelayHub.Immutables) (encodeABI : ContractMethod → Bytes) (config : RegistrationConfig)
  (currentBlock : ShortBlockInfo)

/-! The parts that at most send transactions. They never wait for others. -/

structure OnlySent (s t : Registration) : Prop where
  contracts : t.contracts = s.contracts
  relayUrl : t.relayUrl = s.relayUrl
  manager : t.manager = s.manager

abbrev OnlySends {α : Type} (promise : RegistrationPromise α) : Prop := Settles OnlySent promise

section OnlySends

variable {α β : Type}

theorem onlySent_refl (s : Registration) : OnlySent s s := ⟨rfl, rfl, rfl⟩

theorem onlySent_trans (s t u : Registration) (first : OnlySent s t) (second : OnlySent t u) : OnlySent s u :=
  ⟨second.contracts.trans first.contracts, second.relayUrl.trans first.relayUrl,
    second.manager.trans first.manager⟩

theorem then_sends {first : RegistrationPromise α} {rest : α → RegistrationPromise β} (one : OnlySends first)
    (two : ∀ value, OnlySends (rest value)) : OnlySends (first >>= rest) :=
  settles_bind onlySent_trans first rest one two

theorem pure_sends (value : α) : OnlySends (pure value : RegistrationPromise α) :=
  fun s => onlySent_refl s

theorem expect_sends (condition : Prop) [Decidable condition] (message : String) :
    OnlySends (expect condition message) :=
  fun s => onlySent_refl s

theorem inquire_sends (answer : RegistrationReply → Registration → α) : OnlySends (inquire answer) :=
  settles_serve _ fun _ s => onlySent_refl s

theorem field_sends (look : RegistrationManager → α) : OnlySends (field look) :=
  settles_sync _ fun s => onlySent_refl s

theorem sendTransaction_sends (transaction : SendTransactionDetails) :
    OnlySends (RegistrationManager.sendTransaction transaction) :=
  settles_serve _ fun _ _ => ⟨rfl, rfl, rfl⟩

theorem sendOne_sends (transaction : SendTransactionDetails) :
    OnlySends (do
      let transactionHash ← RegistrationManager.sendTransaction transaction
      pure [transactionHash]) :=
  then_sends (sendTransaction_sends transaction) fun _ => pure_sends _

theorem isRelayManagerStakedOnHub_sends : OnlySends (isRelayManagerStakedOnHub addresses config) :=
  settles_serve _ fun _ s => onlySent_refl s

theorem ofExcept_sends (result : Except String α) :
    OnlySends (Promise.ofExcept result : RegistrationPromise α) :=
  fun s => onlySent_refl s

theorem sendManagerEthBalanceToOwner_sends : OnlySends (sendManagerEthBalanceToOwner config currentBlock) := by
  apply then_sends (inquire_sends _)
  intro gasPrice
  apply then_sends (inquire_sends _)
  intro managerBalance
  apply then_sends (field_sends _)
  intro ownerAddress
  split
  · exact sendOne_sends _
  · exact pure_sends _

theorem sendWorkersEthBalancesToOwner_sends : OnlySends (sendWorkersEthBalancesToOwner config currentBlock) := by
  apply then_sends (inquire_sends _)
  intro gasPrice
  apply then_sends (ofExcept_sends _)
  intro txCost
  apply then_sends (inquire_sends _)
  intro workerBalance
  apply then_sends (field_sends _)
  intro ownerAddress
  split
  · exact sendOne_sends _
  · exact pure_sends _

theorem sendManagerHubBalanceToOwner_sends :
    OnlySends (sendManagerHubBalanceToOwner addresses encodeABI config currentBlock) := by
  apply then_sends (field_sends _)
  intro ownerAddress
  split
  · exact fun s => onlySent_refl s
  · apply then_sends (inquire_sends _)
    intro gasPrice
    apply then_sends (inquire_sends _)
    intro amount
    apply then_sends (inquire_sends _)
    intro gasLimit
    split
    · exact sendOne_sends _
    · exact pure_sends _

theorem withdrawAllFunds_sends (withdrawManager : Bool) :
    OnlySends (withdrawAllFunds addresses encodeABI config currentBlock withdrawManager) := by
  apply then_sends (sendManagerHubBalanceToOwner_sends addresses encodeABI config currentBlock)
  intro fromHub
  apply then_sends (sendWorkersEthBalancesToOwner_sends config currentBlock)
  intro fromWorkers
  split
  · exact then_sends (sendManagerEthBalanceToOwner_sends config currentBlock) fun _ => pure_sends _
  · exact then_sends (pure_sends _) fun _ => pure_sends _

theorem register_sends : OnlySends (register addresses encodeABI config currentBlock) := by
  apply then_sends (inquire_sends _)
  intro workersAdded
  apply then_sends (inquire_sends _)
  intro addWorkersPending
  split
  · exact sendOne_sends _
  · apply then_sends (sendTransaction_sends _)
    intro added
    exact then_sends (sendTransaction_sends _) fun _ => pure_sends _

theorem handleDueEvents_sends (events : List StakeManager.Event) :
    OnlySends (handleDueEvents addresses encodeABI config currentBlock events) := by
  induction events with
  | nil => exact pure_sends _
  | cons event rest ih =>
      apply then_sends (withdrawAllFunds_sends addresses encodeABI config currentBlock false)
      intro first
      exact then_sends ih fun _ => pure_sends _

end OnlySends

/-! The parts that change fields of the manager. -/

/-- A field that is assigned by nothing that the parts below do. -/
structure Spared {γ : Type} (read : RegistrationManager → γ) : Prop where
  balanceRequired : ∀ m amount, read { m with balanceRequired := amount } = read m
  isHubAuthorized : ∀ m known, read { m with isHubAuthorized := known } = read m
  isOwnerSetOnStakeManager : ∀ m owned, read { m with isOwnerSetOnStakeManager := owned } = read m
  restaked : ∀ m stakeInfo, read (restaked stakeInfo m) = read m
  currentRelayInfo : ∀ m info, read { m with currentRelayInfo := info } = read m

abbrev Spares {α γ : Type} (read : RegistrationManager → γ) (promise : RegistrationPromise α) : Prop :=
  Settles (fun s t : Registration => read t.manager = read s.manager) promise

section Spares

variable {α β γ : Type} {read : RegistrationManager → γ}

theorem then_spares {first : RegistrationPromise α} {rest : α → RegistrationPromise β}
    (one : Spares read first) (two : ∀ value, Spares read (rest value)) :
    Spares read (first >>= rest) :=
  settles_bind (fun _ _ _ before after => after.trans before) first rest one two

theorem sends_spares {promise : RegistrationPromise α} (sends : OnlySends promise) : Spares read promise :=
  fun s => Proc.ends_weaken _ _ s (fun _ _ sent => congrArg read sent.manager) (sends s)

theorem pure_spares (value : α) : Spares read (pure value) :=
  fun _ => rfl

theorem assign_spares (change : RegistrationManager → RegistrationManager)
    (kept : ∀ m, read (change m) = read m) : Spares read (assign change) :=
  settles_sync _ fun s => kept s.manager

section Spared

variable (spared : Spared read)

include spared

theorem refreshHubAuthorized_spares (stakedOnHubStatus : Except Revert Unit) :
    Spares read (refreshHubAuthorized addresses encodeABI config currentBlock stakedOnHubStatus) := by
  unfold refreshHubAuthorized
  split
  · exact then_spares (assign_spares _ fun m => spared.isHubAuthorized m true) fun _ => pure_spares _
  · split
    · apply then_spares (sends_spares (inquire_sends _))
      intro isAuthorizePending
      split
      · exact pure_spares _
      · exact sends_spares (sendOne_sends _)
    · exact pure_spares _

theorem refreshFields_spares (stakeInfo : StakeManager.StakeInfo) :
    Spares read (refreshFields config stakeInfo) := by
  apply then_spares
  · exact assign_spares _ fun m => spared.isOwnerSetOnStakeManager m _
  intro _
  apply then_spares (sends_spares (expect_sends _ _))
  intro _
  split
  · exact pure_spares _
  · exact assign_spares _ fun m => spared.restaked m stakeInfo

theorem refreshStake_spares : Spares read (refreshStake addresses encodeABI config currentBlock) := by
  apply then_spares (sends_spares (inquire_sends _))
  intro stakeInfo
  apply then_spares (sends_spares (isRelayManagerStakedOnHub_sends addresses config))
  intro stakedOnHubStatus
  apply then_spares (refreshHubAuthorized_spares addresses encodeABI config currentBlock spared _)
  intro transactionHashes
  exact then_spares (refreshFields_spares config spared stakeInfo) fun _ => pure_spares _

theorem attemptRegistration_spares :
    Spares read (attemptRegistration addresses encodeABI config currentBlock) := by
  apply then_spares (sends_spares (isRelayManagerStakedOnHub_sends addresses config))
  intro stakeOnHubStatus
  apply then_spares (sends_spares (field_sends _))
  intro m
  dsimp only
  split
  · exact sends_spares (register_sends addresses encodeABI config currentBlock)
  · apply then_spares (refreshStake_spares addresses encodeABI config currentBlock spared)
    intro transactionHashes
    apply then_spares
    · exact then_spares (sends_spares (inquire_sends _)) fun _ => assign_spares _ fun m => spared.balanceRequired m _
    · exact fun _ => pure_spares _

theorem registerAgain_spares (forceRegistration : Bool) :
    Spares read (registerAgain addresses encodeABI config currentBlock forceRegistration) := by
  apply then_spares (sends_spares (field_sends _))
  intro isRegistrationCorrect
  apply then_spares (sends_spares (inquire_sends _))
  intro isRegistrationPending
  split
  · exact attemptRegistration_spares addresses encodeABI config currentBlock spared
  · exact pure_spares _

theorem refreshRegistrarRelayInfo_spares : Spares read refreshRegistrarRelayInfo :=
  settles_serve _ fun _ s => spared.currentRelayInfo s.manager _

end Spared

end Spares

end OpenGsn.Relay
