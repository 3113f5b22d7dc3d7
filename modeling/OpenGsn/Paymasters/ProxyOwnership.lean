import OpenGsn.Paymasters.ProxyDeployingPaymaster
import OpenGsn.Reentry.Entered

/-! Who a proxy obeys. -/

namespace OpenGsn.Proxies

open Solidity Reentry

variable (calculateAddress : CalculateAddress) (paymaster : Paymaster)

/-- The call comes from the owner, or through the forwarder of the paymaster on behalf of the owner. -/
def Authorized (owner : Address) (message : Message) : Prop :=
  message.sender = owner ∨
    message.sender = paymaster.trustedForwarder ∧ appendedSender message.data = owner

structure Secure (s : State) (proxy : Address) (identity : Identity) : Prop where
  address : proxy = calculateAddress identity.owner
  forwarder : ∀ account, isTrustedForwarder account identity ↔ account = paymaster.trustedForwarder
  allowances : ∀ token spender amount, .approve proxy token spender amount ∈ s.log → spender = paymaster.this
  executed : ∀ message target value data, .executeCall proxy message target value data ∈ s.log →
    Authorized paymaster identity.owner message
  execute : ∀ message operationType target value data (conducts : List (Conduct State Bytes Revert)),
    let code := execute proxy message operationType target value data s
    (code.calls conducts ≠ [] ∨ ∃ final, code.run conducts = .ok (final, ())) →
    Authorized paymaster identity.owner message

def Unhijacked (s : State) : Prop :=
  ∀ proxy identity, s.identities proxy = some identity → identity.initialized = true →
    Secure calculateAddress paymaster s proxy identity

/-- The forwarder and the tokens that the first call of `initialize` on a deployed proxy names. -/
def firstInitialization (input : Input) (s : State) : Option (Address × List Address) :=
  match input.call with
  | .initializeIdentity proxy trustedForwarder tokens =>
      match s.identities proxy with
      | some ⟨_, _, false⟩ => some (trustedForwarder, tokens)
      | _ => none
  | _ => none

/-- Whoever is the first to initialize a deployed proxy, instead of the paymaster, names its forwarder and no
tokens. -/
def Rightful (input : Input) (s : State) : Prop :=
  ∀ named ∈ firstInitialization input s, named.1 = paymaster.trustedForwarder ∧ named.2 = []

instance (input : Input) (s : State) : Decidable (Rightful paymaster input s) :=
  inferInstanceAs (Decidable (∀ named ∈ firstInitialization input s, _))

theorem rightful_named (message : Message) (proxy trustedForwarder : Address) (tokens : List Address) (s : State)
    (identity : Identity) (rightful : Rightful paymaster ⟨message, .initializeIdentity proxy trustedForwarder tokens⟩ s)
    (found : s.identities proxy = some identity) (fresh : identity.initialized = false) :
    trustedForwarder = paymaster.trustedForwarder ∧ tokens = [] := by
  obtain ⟨owner, forwarder, initialized⟩ := identity
  obtain rfl : initialized = false := fresh
  apply rightful (trustedForwarder, tokens)
  simp [firstInitialization, found]

structure IdentitySound (proxy : Address) (identity : Identity) : Prop where
  address : proxy = calculateAddress identity.owner
  forwarder : identity.trustedForwarder = if identity.initialized then paymaster.trustedForwarder else 0

def EntrySound (s : State) : Entry → Prop
  | .proxyDeployed _ => True
  | .approve _ _ spender _ => spender = paymaster.this
  | .executeCall proxy message _ _ _ =>
      ∃ identity, s.identities proxy = some identity ∧ Authorized paymaster identity.owner message

structure Sound (s : State) : Prop where
  identities : ∀ proxy identity, s.identities proxy = some identity →
    IdentitySound calculateAddress paymaster proxy identity
  entries : ∀ entry ∈ s.log, EntrySound paymaster s entry

theorem onlyOwner_authorized (proxy : Address) (message : Message) (identity : Identity) (passed : Unit)
    (sound : IdentitySound calculateAddress paymaster proxy identity)
    (checked : onlyOwner message identity = .ok passed) : Authorized paymaster identity.owner message := by
  have own : msgSender message identity = identity.owner := (require_ok _ _ _).mp checked
  unfold msgSender at own
  split at own
  next through =>
    -- a proxy that is not initialized trusts the zero address only, and no call comes from there
    have forwarder := sound.forwarder
    split at forwarder
    next => exact .inr ⟨through.2.trans forwarder, own⟩
    next => exact absurd (through.2.trans forwarder) message.sender_ne_zero
  next => exact .inl own

theorem entrySound_written (s : State) (proxy : Address) (identity : Identity) (entry : Entry)
    (owner : ∀ before, s.identities proxy = some before → identity.owner = before.owner)
    (sound : EntrySound paymaster s entry) : EntrySound paymaster (s.setIdentity proxy identity) entry := by
  cases entry with
  | proxyDeployed | approve => exact sound
  | executeCall other message target value data =>
      obtain ⟨before, found, authorized⟩ := sound
      by_cases same : other = proxy
      · subst same
        refine ⟨identity, Function.update_self .., ?_⟩
        rw [owner before found]
        exact authorized
      · exact ⟨before, (Function.update_of_ne same ..).trans found, authorized⟩

theorem sound_record (s : State) (entry : Entry) (fair : EntrySound paymaster s entry)
    (sound : Sound calculateAddress paymaster s) : Sound calculateAddress paymaster (s.record entry) := by
  refine ⟨sound.identities, fun other member => ?_⟩
  have same : EntrySound paymaster s other := by
    rcases List.mem_append.mp member with before | last
    · exact sound.entries other before
    · exact List.mem_singleton.mp last ▸ fair
  cases other with
  | proxyDeployed | approve | executeCall => exact same

theorem sound_written (s : State) (proxy : Address) (identity : Identity)
    (owner : ∀ before, s.identities proxy = some before → identity.owner = before.owner)
    (own : IdentitySound calculateAddress paymaster proxy identity)
    (sound : Sound calculateAddress paymaster s) :
    Sound calculateAddress paymaster (s.setIdentity proxy identity) := by
  constructor
  · intro other found present
    by_cases same : other = proxy
    · subst same
      rw [State.setIdentity_identities, Function.update_self] at present
      cases present
      exact own
    · rw [State.setIdentity_identities, Function.update_of_ne same] at present
      exact sound.identities other found present
  · intro entry member
    exact entrySound_written paymaster s proxy identity entry owner (sound.entries entry member)

theorem sound_deployProxy (owner : Address) (s : State) (sound : Sound calculateAddress paymaster s) :
    Sound calculateAddress paymaster (deployProxy calculateAddress owner s) := by
  unfold deployProxy
  dsimp only
  split
  next => exact sound
  next absent =>
    apply sound_record calculateAddress paymaster _ (.proxyDeployed (calculateAddress owner)) trivial
    apply sound_written calculateAddress paymaster s (calculateAddress owner) ⟨owner, 0, false⟩ _ ⟨rfl, rfl⟩ sound
    intro before present
    exact absurd (by rw [isProxy, present]; rfl) absent

section Meets

abbrev Ends {α : Type} (code : ProxyCode α) : Prop :=
  code.Meets (fun first second => Sound calculateAddress paymaster first → Sound calculateAddress paymaster second)
    (Sound calculateAddress paymaster) (fun final _ => Sound calculateAddress paymaster final)

theorem approveLoop_ends (proxy spender : Address) (tokens : List Address) (s : State)
    (right : spender = paymaster.this ∨ tokens = []) (sound : Sound calculateAddress paymaster s) :
    Ends calculateAddress paymaster (approveLoop proxy spender tokens s) := by
  induction tokens generalizing s with
  | nil => exact sound
  | cons token tokens ih =>
      obtain rfl : spender = paymaster.this := right.resolve_right (List.cons_ne_nil _ _)
      have granted := sound_record calculateAddress paymaster s (.approve proxy token paymaster.this uint256Max) rfl
        sound
      refine ⟨granted, fun after returned moved => ?_, fun _ => trivial⟩
      exact Code.meets_check _ _ fun _ _ => ih after (.inl rfl) (moved granted)

theorem initializeIdentity_ends (proxy sender trustedForwarder : Address) (tokens : List Address) (s : State)
    (right : ∀ identity, s.identities proxy = some identity → identity.initialized = false →
      trustedForwarder = paymaster.trustedForwarder ∧ (sender = paymaster.this ∨ tokens = []))
    (sound : Sound calculateAddress paymaster s) :
    Ends calculateAddress paymaster (initializeIdentity proxy sender trustedForwarder tokens s) := by
  unfold initializeIdentity
  split
  next => exact trivial
  next identity found =>
    apply Code.meets_check
    intro _ fresh
    obtain ⟨rfl, spender⟩ := right identity found ((require_ok _ _ _).mp fresh)
    apply approveLoop_ends calculateAddress paymaster proxy sender tokens _ spender
    apply sound_written calculateAddress paymaster s proxy _ _ _ sound
    · intro before present
      rw [found] at present
      cases present
      rfl
    · exact ⟨(sound.identities proxy identity found).address, rfl⟩

theorem execute_ends (proxy : Address) (message : Message) (operationType : ℕ) (target : Address) (value : ℕ)
    (data : Bytes) (s : State) (sound : Sound calculateAddress paymaster s) :
    Ends calculateAddress paymaster (execute proxy message operationType target value data s) := by
  unfold execute
  split
  next => exact trivial
  next identity found =>
    apply Code.meets_check
    intro passed checked
    split
    next =>
      have authorized := onlyOwner_authorized calculateAddress paymaster proxy message identity passed
        (sound.identities proxy identity found) checked
      have asked := sound_record calculateAddress paymaster s (.executeCall proxy message target value data)
        ⟨identity, found, authorized⟩ sound
      exact ⟨asked, fun after _ moved => moved asked, fun _ => trivial⟩
    next => exact trivial

theorem deployAndInitialize_ends (owner : Address) (s : State) (sound : Sound calculateAddress paymaster s) :
    Ends calculateAddress paymaster (deployAndInitialize calculateAddress paymaster owner s) :=
  initializeIdentity_ends calculateAddress paymaster _ _ _ _ _ (fun _ _ _ => ⟨rfl, .inl rfl⟩)
    (sound_deployProxy calculateAddress paymaster owner s sound)

section Ask

variable {α : Type} (call : Outgoing) (s : State) (sound : Sound calculateAddress paymaster s)

include sound

theorem askAddress_ends (rest : State → Address → ProxyCode α)
    (ends : ∀ after value, Sound calculateAddress paymaster after →
      Ends calculateAddress paymaster (rest after value)) :
    Ends calculateAddress paymaster (askAddress call s rest) :=
  ⟨sound, fun after _ moved => Code.meets_check _ _ fun _ _ => Code.meets_check _ _ fun value _ =>
    ends after value (moved sound), fun _ => trivial⟩

theorem askUint_ends (rest : State → ℕ → ProxyCode α)
    (ends : ∀ after value, Sound calculateAddress paymaster after →
      Ends calculateAddress paymaster (rest after value)) :
    Ends calculateAddress paymaster (askUint call s rest) :=
  ⟨sound, fun after _ moved => Code.meets_check _ _ fun _ _ => ends after _ (moved sound), fun _ => trivial⟩

theorem askFlag_ends (rest : State → Bool → ProxyCode α)
    (ends : ∀ after value, Sound calculateAddress paymaster after →
      Ends calculateAddress paymaster (rest after value)) :
    Ends calculateAddress paymaster (askFlag call s rest) :=
  ⟨sound, fun after _ moved => Code.meets_check _ _ fun value _ => ends after value (moved sound), fun _ => trivial⟩

theorem tell_ends (rest : State → ProxyCode α)
    (ends : ∀ after, Sound calculateAddress paymaster after → Ends calculateAddress paymaster (rest after)) :
    Ends calculateAddress paymaster (tell call s rest) :=
  ⟨sound, fun after _ moved => ends after (moved sound), fun _ => trivial⟩

theorem verifyForwarder_ends (relayRequest : RelayRequest) (contracts : Address → Bool) (rest : State → ProxyCode α)
    (ends : ∀ after, Sound calculateAddress paymaster after → Ends calculateAddress paymaster (rest after)) :
    Ends calculateAddress paymaster (verifyForwarder paymaster relayRequest contracts s rest) := by
  apply Code.meets_check
  intro _ _
  split
  next =>
    refine ⟨sound, fun after _ moved => ?_, fun _ => trivial⟩
    exact Code.meets_check _ _ fun _ _ => Code.meets_check _ _ fun _ _ => Code.meets_check _ _ fun _ _ =>
      ends after (moved sound)
  next => exact ends s sound

theorem deployPayer_ends (payer owner : Address) (rest : State → ProxyCode α)
    (ends : ∀ after, Sound calculateAddress paymaster after → Ends calculateAddress paymaster (rest after)) :
    Ends calculateAddress paymaster (deployPayer calculateAddress paymaster payer owner s rest) := by
  unfold deployPayer
  split
  next => exact ends s sound
  next =>
    apply Code.meets_attempt
    · exact Code.meets_weaken _ (deployAndInitialize_ends calculateAddress paymaster owner s sound)
        (fun _ same => same) fun after _ final => ends after final
    · exact fun _ => trivial

theorem getToken_ends (paymasterData : Bytes) (rest : State → Address → Address → ProxyCode α)
    (ends : ∀ after token uniswap, Sound calculateAddress paymaster after →
      Ends calculateAddress paymaster (rest after token uniswap)) :
    Ends calculateAddress paymaster (getToken paymaster paymasterData s rest) := by
  apply Code.meets_check
  intro uniswap _
  apply Code.meets_check
  intro _ _
  apply askAddress_ends calculateAddress paymaster _ s sound
  intro after token sound
  exact ends after token uniswap sound

theorem calculatePreCharge_ends (uniswap : Address) (relayRequest : RelayRequest) (maxPossibleGas : ℕ)
    (rest : State → Address → ℕ → ProxyCode α)
    (ends : ∀ after payer tokenPreCharge, Sound calculateAddress paymaster after →
      Ends calculateAddress paymaster (rest after payer tokenPreCharge)) :
    Ends calculateAddress paymaster
      (calculatePreCharge calculateAddress paymaster uniswap relayRequest maxPossibleGas s rest) := by
  unfold calculatePreCharge
  apply askUint_ends calculateAddress paymaster _ s sound
  intro s charge sound
  apply Code.meets_check
  intro ethMaxCharge _
  apply askUint_ends calculateAddress paymaster _ s sound
  intro s tokenPreCharge sound
  exact ends s _ tokenPreCharge sound

theorem takePreCharge_ends (env : Env) (relayRequest : RelayRequest) (token uniswap payer : Address)
    (tokenPrecharge : ℕ) :
    Ends calculateAddress paymaster
      (takePreCharge paymaster env relayRequest token uniswap payer tokenPrecharge s) := by
  unfold takePreCharge
  apply askFlag_ends calculateAddress paymaster _ s sound
  intro s _ sound
  refine Code.meets_check _ _ fun deadline _ => ?_
  apply askUint_ends calculateAddress paymaster _ s sound
  intro s _ sound
  apply tell_ends calculateAddress paymaster _ s sound
  intro s sound
  exact sound

theorem depositProceedsToHub_ends (env : Env) (ethActualCharge : ℕ) (uniswap : Address) :
    Ends calculateAddress paymaster (depositProceedsToHub paymaster env ethActualCharge uniswap s) := by
  unfold depositProceedsToHub
  refine Code.meets_check _ _ fun deadline _ => ?_
  apply askUint_ends calculateAddress paymaster _ s sound
  intro s _ sound
  apply tell_ends calculateAddress paymaster _ s sound
  intro s sound
  exact sound

end Ask

theorem preRelayedCall_ends (env : Env) (sender : Address) (relayRequest : RelayRequest) (approvalData : Bytes)
    (maxPossibleGas : ℕ) (contracts : Address → Bool) (s : State) (sound : Sound calculateAddress paymaster s) :
    Ends calculateAddress paymaster
      (preRelayedCall calculateAddress paymaster env sender relayRequest approvalData maxPossibleGas contracts s) := by
  apply Code.meets_check
  intro _ _
  apply verifyForwarder_ends calculateAddress paymaster s sound
  intro s sound
  apply Code.meets_check
  intro _ _
  apply Code.meets_check
  intro _ _
  apply getToken_ends calculateAddress paymaster s sound
  intro s token uniswap sound
  apply calculatePreCharge_ends calculateAddress paymaster s sound
  intro s payer tokenPrecharge sound
  apply deployPayer_ends calculateAddress paymaster s sound
  intro s sound
  exact takePreCharge_ends calculateAddress paymaster s sound env relayRequest token uniswap payer tokenPrecharge

theorem postRelayedCall_ends (env : Env) (sender : Address) (context : Bytes) (gasUseWithoutPost : ℕ)
    (relayData : RelayData) (s : State) (sound : Sound calculateAddress paymaster s) :
    Ends calculateAddress paymaster
      (postRelayedCall paymaster env sender context gasUseWithoutPost relayData s) := by
  apply Code.meets_check
  intro _ _
  apply Code.meets_check
  intro c _
  apply Code.meets_check
  intro gasUsed _
  apply askUint_ends calculateAddress paymaster _ s sound
  intro s ethActualCharge sound
  apply Code.meets_check
  intro ethBought _
  apply askUint_ends calculateAddress paymaster _ s sound
  intro s tokenActualCharge sound
  apply Code.meets_check
  intro tokenRefund _
  apply askFlag_ends calculateAddress paymaster _ s sound
  intro s refunded sound
  apply Code.meets_check
  intro _ _
  exact depositProceedsToHub_ends calculateAddress paymaster s sound env ethActualCharge c.uniswap

end Meets

theorem entry_keeps (env : Env) :
    KeepsAllowed (entry calculateAddress paymaster env) (Rightful paymaster) (Sound calculateAddress paymaster) := by
  rintro ⟨message, call⟩ s rightful sound
  cases call with
  | deployProxy owner => exact sound_deployProxy calculateAddress paymaster owner s sound
  | initializeIdentity proxy trustedForwarder tokens =>
      apply initializeIdentity_ends calculateAddress paymaster _ _ _ _ s _ sound
      intro identity found fresh
      obtain ⟨forwarder, none⟩ := rightful_named paymaster message proxy trustedForwarder tokens s identity rightful
        found fresh
      exact ⟨forwarder, .inr none⟩
  | execute proxy operationType target value data =>
      exact execute_ends calculateAddress paymaster proxy message operationType target value data s sound
  | deployAndInitialize owner => exact deployAndInitialize_ends calculateAddress paymaster owner s sound
  | preRelayedCall relayRequest approvalData maxPossibleGas contracts =>
      apply Code.meets_silent
      exact preRelayedCall_ends calculateAddress paymaster env message.sender relayRequest approvalData
        maxPossibleGas contracts s sound
  | postRelayedCall context gasUseWithoutPost relayData =>
      exact postRelayedCall_ends calculateAddress paymaster env message.sender context gasUseWithoutPost relayData s
        sound

theorem sound_unhijacked (s : State) (sound : Sound calculateAddress paymaster s) :
    Unhijacked calculateAddress paymaster s := by
  intro proxy identity found initialized
  have own := sound.identities proxy identity found
  constructor
  · exact own.address
  · intro account
    rw [isTrustedForwarder, own.forwarder, initialized, if_pos rfl]
  · intro token spender amount member
    exact sound.entries _ member
  · intro message target value data member
    obtain ⟨same, present, authorized⟩ := sound.entries _ member
    rw [found] at present
    cases present
    exact authorized
  · intro message operationType target value data conducts code done
    cases checked : onlyOwner message identity with
    | ok passed => exact onlyOwner_authorized calculateAddress paymaster proxy message identity passed own checked
    | error error =>
        have reverts : code = .revert error := by
          simp only [code, execute, found, checked, Code.check]
        rw [reverts] at done
        rcases done with calls | ⟨final, returned⟩
        · exact absurd rfl calls
        · cases returned

def noProxies : State := ⟨fun _ => none, []⟩

/-- In a run in which no one but the paymaster is the first to initialize a proxy, save with the right forwarder
and no tokens, the proxies obey their owners. -/
theorem proxies_not_hijacked (history : List (Env × Moves Input Bytes Revert))
    (rightful : ∀ turn ∈ historyEntered (entry calculateAddress paymaster) history noProxies,
      Rightful paymaster turn.1 turn.2)
    (s : State) (reached : s ∈ historySeen (entry calculateAddress paymaster) history noProxies) :
    Unhijacked calculateAddress paymaster s := by
  have start : Sound calculateAddress paymaster noProxies := by
    constructor
    · intro proxy identity found
      cases found
    · intro entry member
      cases member
  exact sound_unhijacked calculateAddress paymaster s
    (history_allowed (entry calculateAddress paymaster) (Rightful paymaster) (entry_keeps calculateAddress paymaster)
      history noProxies rightful start s reached)

def someAddress : CalculateAddress := fun owner => owner + 1000

def somePaymaster : Paymaster := ⟨32, 33, 60, [70], [4], 100⟩

theorem seven_ne_zero : (7 : Address) ≠ 0 := by decide

theorem intruder_ne_zero : (66 : Address) ≠ 0 := by decide

def ownerCall (call : Call) : Input := ⟨⟨7, [], seven_ne_zero⟩, call⟩

def intruderCall (call : Call) : Input := ⟨⟨66, [], intruder_ne_zero⟩, call⟩

/-- The proxy is deployed by the paymaster, executes a call of its owner, and withstands the intruder. -/
def properMoves : Moves Input Bytes Revert :=
  .enter (ownerCall (.deployAndInitialize 7)) (.reply .stop (.ok (word 1)) .none)
    (.enter (ownerCall (.execute 1007 0 8 0 [3])) (.reply .stop (.ok []) .none)
      (.enter (intruderCall (.initializeIdentity 1007 66 [])) .none .stop))

def properHistory : List (Env × Moves Input Bytes Revert) := [(sampleEnv, properMoves)]

theorem proxies_not_hijacked_sample :
    let s := historyFinal (entry someAddress somePaymaster) properHistory noProxies
    s.identities 1007 = some ⟨7, 60, true⟩ ∧ s.log.length = 3 ∧ Unhijacked someAddress somePaymaster s := by
  refine ⟨by decide +kernel, by decide +kernel, ?_⟩
  exact proxies_not_hijacked someAddress somePaymaster properHistory (by decide +kernel) _ (historyFinal_seen _ _ _)

def hijack : List (Env × Moves Input Bytes Revert) :=
  [(sampleEnv, .enter (intruderCall (.deployProxy 7)) .none
    (.enter (intruderCall (.initializeIdentity 1007 66 [4])) (.reply .stop (.ok (word 1)) .none) .stop))]

def hijackedState : State := historyFinal (entry someAddress somePaymaster) hijack noProxies

/-- A call of the intruder with the address of the owner at its end. -/
def forged : Message := ⟨66, addressBytes 7, intruder_ne_zero⟩

/-- The proxy trusts the intruder, has given it an allowance, and executes its calls. -/
theorem anyone_hijacks_proxy :
    hijackedState.identities 1007 = some ⟨7, 66, true⟩ ∧
    (execute 1007 forged 0 8 0 [3] hijackedState).calls [] = [.executeCall 1007 8 0 [3]] ∧
    ¬ Authorized somePaymaster 7 forged ∧ ¬ Unhijacked someAddress somePaymaster hijackedState := by
  have taken : hijackedState.identities 1007 = some ⟨7, 66, true⟩ := by decide +kernel
  have executed : (execute 1007 forged 0 8 0 [3] hijackedState).calls [] = [.executeCall 1007 8 0 [3]] := by
    decide +kernel
  have foreign : ¬ Authorized somePaymaster 7 forged := by
    rintro (own | ⟨through, _⟩)
    · exact absurd own (by decide)
    · exact absurd through (by decide)
  refine ⟨taken, executed, foreign, fun unhijacked => foreign ?_⟩
  apply (unhijacked 1007 ⟨7, 66, true⟩ taken rfl).execute forged 0 8 0 [3] []
  apply Or.inl
  rw [executed]
  exact List.cons_ne_nil _ _

end OpenGsn.Proxies
