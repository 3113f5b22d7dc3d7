import OpenGsn.Paymasters.BasePaymaster
import OpenGsn.RelayHub.Withdrawals
import OpenGsn.RelayHub.PaymasterSafety

/-! What the deposit of a paymaster is spent on. -/

namespace OpenGsn.Sponsors

open Solidity Reentry RelayHub

variable {P C : Type} (choice : Choice P C) (crypto : Crypto) (addresses : Immutables) (this : Address)
  (around : Surroundings P)

/-- With this forwarder and these settings the paymaster pays for the request. -/
structure Sponsored (setting : Address × P) (relayRequest : RelayRequest) : Prop where
  forwarder : relayRequest.relayData.forwarder = setting.1
  value : relayRequest.request.value = 0
  paymasterData : relayRequest.relayData.paymasterData = []
  accepted : ∃ signature maxPossibleGas outcome,
    choice.preRelayedCall setting.2 relayRequest signature [] maxPossibleGas = .ok outcome

/-- What leaves the deposit goes to requests that were paid for under settings of the owner, or where the owner
had it sent. -/
def Granted (p : BasePaymaster P) : Event → Prop
  | .transactionRelayed relayManager relayWorker relayRequestID sender recipient paymaster selector status charge =>
      paymaster = this → ∃ setting ∈ p.inForce, ∃ relayRequest, Sponsored choice setting relayRequest ∧
        Event.relays relayRequest
          (.transactionRelayed relayManager relayWorker relayRequestID sender recipient paymaster selector status charge)
  | .withdrawn account dest amount => account = this → (dest, amount) ∈ p.withdrawals
  | _ => True

structure Grown (p later : BasePaymaster P) : Prop where
  inForce : p.inForce ⊆ later.inForce
  withdrawals : p.withdrawals ⊆ later.withdrawals

theorem grown_refl (p : BasePaymaster P) : Grown p p := ⟨List.Subset.refl _, List.Subset.refl _⟩

theorem grown_trans (first second third : BasePaymaster P) (one : Grown first second) (two : Grown second third) :
    Grown first third :=
  ⟨List.Subset.trans one.inForce two.inForce, List.Subset.trans one.withdrawals two.withdrawals⟩

theorem granted_grown (p later : BasePaymaster P) (grown : Grown p later) (event : Event)
    (granted : Granted choice this p event) : Granted choice this later event := by
  cases event with
  | transactionRelayed relayManager relayWorker relayRequestID sender recipient paymaster selector status charge =>
      intro own
      obtain ⟨setting, member, sponsored⟩ := granted own
      exact ⟨setting, grown.inForce member, sponsored⟩
  | withdrawn account dest amount => exact fun own => grown.withdrawals (granted own)
  | _ => trivial

/-! Which events are granted -/

theorem granted_settles (p : BasePaymaster P) (sender : Address) (outside : sender ≠ this) (event : Event)
    (settled : event.settles sender) : Granted choice this p event := by
  cases event with
  | transactionRelayed => exact absurd settled Bool.false_ne_true
  | withdrawn account dest amount => exact fun own => absurd (settled.symm.trans own) outside
  | _ => trivial

theorem granted_relays (p : BasePaymaster P) (relayRequest : RelayRequest)
    (fine : relayRequest.relayData.paymaster = this → ∃ setting ∈ p.inForce, Sponsored choice setting relayRequest)
    (event : Event) (logged : event.reports ∨ event.relays relayRequest) : Granted choice this p event := by
  cases event with
  | transactionRelayed relayManager relayWorker relayRequestID sender recipient paymaster selector status charge =>
      intro own
      have relayed := logged.resolve_left id
      obtain ⟨setting, member, sponsored⟩ := fine (relayed.2.2.1.symm.trans own)
      exact ⟨setting, member, relayRequest, sponsored, relayed⟩
  | withdrawn account dest amount => exact (logged.elim id id).elim
  | _ => trivial

theorem preRelayedCall_sponsored (sender : Address) (relayRequest : RelayRequest) (signature approvalData : Bytes)
    (maxPossibleGas : ℕ) (s : System P) (outcome : Bytes × Bool)
    (paid : preRelayedCall choice around sender relayRequest signature approvalData maxPossibleGas s = .ok outcome) :
    Sponsored choice (s.paymaster.trustedForwarder, s.paymaster.settings) relayRequest := by
  simp only [preRelayedCall, verifyForwarder, bind_ok, require_ok, List.length_eq_zero_iff] at paid
  obtain ⟨_, _, _, ⟨_, trusted, _⟩, _, value, _, paymasterData, _, rfl, accepted⟩ := paid
  exact ⟨trusted.symm, value, paymasterData, signature, maxPossibleGas, outcome, accepted⟩

/-! What the settings ask of a request that is paid for -/

theorem acceptEverything_sponsored (setting : Address × Unit) (relayRequest : RelayRequest) :
    Sponsored acceptEverythingPaymaster setting relayRequest ↔ relayRequest.relayData.forwarder = setting.1 ∧
      relayRequest.request.value = 0 ∧ relayRequest.relayData.paymasterData = [] := by
  constructor
  · intro sponsored
    exact ⟨sponsored.forwarder, sponsored.value, sponsored.paymasterData⟩
  · intro fine
    exact ⟨fine.1, fine.2.1, fine.2.2, [], 0, ([], false), rfl⟩

theorem singleRecipient_accepted (target : Address) (relayRequest : RelayRequest) (signature approvalData : Bytes)
    (maxPossibleGas : ℕ) (outcome : Bytes × Bool)
    (accepted : singleRecipientPaymaster.preRelayedCall target relayRequest signature approvalData maxPossibleGas =
      .ok outcome) : relayRequest.request.recipient = target := by
  obtain ⟨_, right, _⟩ := (bind_ok _ _ _).mp accepted
  exact (require_ok _ _ _).mp right

/-- The lists that are in use let the call through. -/
structure Whitelists.LetThrough (lists : Whitelists) (sender recipient : Address) (selector : Bytes) : Prop where
  sender : lists.useSenderWhitelist = true → lists.senderWhitelist sender = true
  target : lists.useTargetWhitelist = true → lists.targetWhitelist recipient = true
  method : lists.useMethodWhitelist = true → lists.methodWhitelist recipient selector = true

theorem guarded_ok {α : Type} (configured condition : Prop) [Decidable configured] [Decidable condition]
    (message : String) (rest : Except Revert α) (value : α) :
    (if configured then require condition message >>= fun _ => rest else rest) = .ok value ↔
      (configured → condition) ∧ rest = .ok value := by
  by_cases used : configured
  · simp [used]
  · simp [used]

theorem whitelist_accepted (lists : Whitelists) (relayRequest : RelayRequest) (signature approvalData : Bytes)
    (maxPossibleGas : ℕ) (outcome : Bytes × Bool)
    (accepted : lists.preRelayedCall relayRequest signature approvalData maxPossibleGas = .ok outcome) :
    lists.LetThrough relayRequest.request.sender relayRequest.request.recipient
      (functionSelector relayRequest.request.data) := by
  simp only [Whitelists.preRelayedCall, bind_ok, require_ok, guarded_ok] at accepted
  obtain ⟨_, _, _, _, sender, target, listed⟩ := accepted
  refine ⟨sender, target, fun used => ?_⟩
  rw [if_pos used] at listed
  simp only [Penalizer.getMethodSig, bind_ok, require_ok] at listed
  obtain ⟨method, ⟨_, long, read⟩, _, allowed, _⟩ := listed
  rw [functionSelector, if_pos long, Except.ok.inj read]
  exact allowed

/-- What the hub logs as charged to the paymaster of one recipient went to this recipient. -/
theorem singleRecipient_granted (p : BasePaymaster Address)
    (relayManager relayWorker : Address) (relayRequestID : ℕ)
    (sender recipient : Address) (selector : Bytes) (status : RelayCallStatus) (charge : ℕ)
    (granted : Granted singleRecipientPaymaster this p
      (.transactionRelayed relayManager relayWorker relayRequestID sender recipient this selector status charge)) :
    ∃ setting ∈ p.inForce, recipient = setting.2 := by
  obtain ⟨setting, member, relayRequest, sponsored, _, called, _⟩ := granted rfl
  obtain ⟨signature, maxPossibleGas, outcome, accepted⟩ := sponsored.accepted
  exact ⟨setting, member, called.trans (singleRecipient_accepted _ _ _ _ _ outcome accepted)⟩

theorem whitelist_granted (p : BasePaymaster Whitelists)
    (relayManager relayWorker : Address) (relayRequestID : ℕ)
    (sender recipient : Address) (selector : Bytes) (status : RelayCallStatus) (charge : ℕ)
    (granted : Granted whitelistPaymaster this p
      (.transactionRelayed relayManager relayWorker relayRequestID sender recipient this selector status charge)) :
    ∃ setting ∈ p.inForce, setting.2.LetThrough sender recipient selector := by
  obtain ⟨setting, member, relayRequest, sponsored, sent, called, _, method⟩ := granted rfl
  obtain ⟨signature, maxPossibleGas, outcome, accepted⟩ := sponsored.accepted
  rw [sent, called, method]
  exact ⟨setting, member, whitelist_accepted setting.2 relayRequest signature [] maxPossibleGas outcome accepted⟩

/-! The paymaster at work -/

theorem answers_same (target : Outgoing) (s after : System P) (value : Bytes)
    (answered : answers choice addresses this around target s = some (.ok (after, value))) : after = s := by
  have looked : ∀ {α : Type} (enough : Bool) (result : Except Revert α) (returned : α → Bytes),
      (if enough then result.map fun outcome => (s, returned outcome) else .error (.data [])) = .ok (after, value) →
        after = s := by
    intro α enough result returned same
    cases enough with
    | false => simp at same
    | true =>
        cases result with
        | error error => simp [Except.map] at same
        | ok outcome => simpa [Except.map, eq_comm] using congrArg (Except.map Prod.fst) same
  unfold answers at answered
  split at answered
  · split at answered
    · exact looked _ _ _ (Option.some.inj answered)
    · cases answered
  · split at answered
    · exact looked _ _ (fun _ => []) (Option.some.inj answered)
    · cases answered
  · cases answered

theorem answers_sponsored (paymaster : Address) (gas : Uint256) (relayRequest : RelayRequest)
    (signature approvalData : Bytes) (maxPossibleGas : ℕ) (s after : System P) (value : Bytes)
    (answered : answers choice addresses this around
      (.world (.preRelayedCall paymaster gas relayRequest signature approvalData maxPossibleGas)) s =
        some (.ok (after, value))) :
    Sponsored choice (s.paymaster.trustedForwarder, s.paymaster.settings) relayRequest := by
  rw [answers] at answered
  split at answered
  · split at answered
    · cases paid : preRelayedCall choice around addresses.this relayRequest signature approvalData maxPossibleGas s with
      | error error => simp [paid, Except.map] at answered
      | ok outcome => exact preRelayedCall_sponsored choice around _ _ _ _ _ s outcome paid
    · cases answered
  · cases answered

section Meets

variable (admitted : Event → Prop)

/-- As long as all that is granted is admitted, the log tells everything in admitted events. -/
def Kept (first second : System P) : Prop :=
  Grown first.paymaster second.paymaster ∧
    ((∀ event, Granted choice this second.paymaster event → admitted event) →
      Logged admitted first.world second.world)

def Shown (first second : System P) : Prop :=
  Grown first.paymaster second.paymaster ∧
    ((∀ event, Granted choice this second.paymaster event → admitted event) →
      Owing admitted first.world second.world)

theorem kept_refl (s : System P) : Kept choice this admitted s s :=
  ⟨grown_refl _, fun _ => logged_refl _ _⟩

theorem conforms_earlier (p later : BasePaymaster P) (grown : Grown p later)
    (conforms : ∀ event, Granted choice this later event → admitted event) :
    ∀ event, Granted choice this p event → admitted event :=
  fun event granted => conforms event (granted_grown choice this p later grown event granted)

theorem kept_trans (first second third : System P) (early : Kept choice this admitted first second)
    (late : Kept choice this admitted second third) : Kept choice this admitted first third := by
  refine ⟨grown_trans _ _ _ early.1 late.1, fun conforms => ?_⟩
  have before := conforms_earlier choice this admitted _ _ late.1 conforms
  exact logged_trans _ _ _ _ (early.2 before) (late.2 conforms)

theorem kept_shown (first second : System P) (kept : Kept choice this admitted first second) :
    Shown choice this admitted first second :=
  ⟨kept.1, fun conforms => owing_logged _ _ _ (kept.2 conforms)⟩

theorem shown_trans (first second third : System P) (early : Shown choice this admitted first second)
    (late : Shown choice this admitted second third) : Shown choice this admitted first third := by
  refine ⟨grown_trans _ _ _ early.1 late.1, fun conforms => ?_⟩
  have before := conforms_earlier choice this admitted _ _ late.1 conforms
  exact owing_trans _ _ _ _ (early.2 before) (late.2 conforms)

theorem kept_paymaster (s : System P) (p : BasePaymaster P) (grown : Grown s.paymaster p) :
    Kept choice this admitted s (s.setPaymaster p) :=
  ⟨grown, fun _ => logged_refl _ _⟩

theorem zoom_kept {α : Type} (start s : System P) (reached : Kept choice this admitted start s) (code : HubCode α)
    (met : (∀ event, Granted choice this s.paymaster event → admitted event) →
      code.Meets (Logged admitted) (Owing admitted s.world) (fun final _ => Logged admitted s.world final)) :
    (code.zoom System.world System.setWorld Outgoing.world s).Meets (Kept choice this admitted)
      (Shown choice this admitted start) (fun final _ => Kept choice this admitted start final) := by
  apply Code.meets_weaken _ (Code.meets_zoom_while System.world System.setWorld Outgoing.world System.paymaster
    Grown (fun p => ∀ event, Granted choice this p event → admitted event) (fun _ _ => rfl) (fun _ _ => rfl)
    grown_trans (conforms_earlier choice this admitted) code s s (grown_refl _) met)
  · intro state visited
    exact shown_trans choice this admitted _ _ _ (kept_shown choice this admitted _ _ reached) visited
  · intro state _ ended
    exact kept_trans choice this admitted _ _ _ reached ended

theorem linked_kept (s : System P) (code : PaymasterCode P Unit)
    (met : code.Meets (Kept choice this admitted) (Shown choice this admitted s)
      (fun final _ => Kept choice this admitted s final)) :
    (code.link (answers choice addresses this around)).Meets (Kept choice this admitted)
      (Shown choice this admitted s) (fun final _ => Kept choice this admitted s final) := by
  apply Code.meets_link _ _ _ met
  intro target inside after value answered
  rw [answers_same choice addresses this around target inside after value answered]
  exact kept_refl choice this admitted inside

/-! The hub's functions -/

theorem truncateInPlace_short (bytes : Bytes) : (truncateInPlace bytes).length < 2 ^ 256 := by
  have short : (truncateInPlace bytes).length ≤ 1024 := List.length_take_le _ _
  exact lt_of_le_of_lt short (by decide)

theorem refused_logged (reported : ∀ event, Event.reports event → admitted event) (env : Env) (sender : Address)
    (args : RelayCallArgs) (inner : InnerCall) (gas : GasReadings) (w final : World) (ret : Bytes)
    (result : RelayCallResult)
    (taken : finishRelayCall crypto env sender args inner gas w
      (.error (.data (revertWithStatus .rejectedByPreRelayed (truncateInPlace ret)))) = .ok (final, result)) :
    Logged admitted w final := by
  refine finishRelayCall_told admitted crypto env sender args inner gas w final _ result reported ?_ taken
  intro accepted
  simp only [finishRelayCall, bind_ok, returnData, Revert.bytes] at taken
  obtain ⟨_, _, ⟨status, returned⟩, decoded, rejected, decided, taken⟩ := taken
  have understood : status = .rejectedByPreRelayed := by
    by_cases short : (truncateInPlace ret).length ≤ 928
    · rw [(decodeStatus_revertWithStatus _ _ (truncateInPlace_short ret)).1 short] at decoded
      exact (Prod.mk.inj (Except.ok.inj decoded)).1.symm
    · obtain ⟨error, failed⟩ :=
        (decodeStatus_revertWithStatus .rejectedByPreRelayed _ (truncateInPlace_short ret)).2 (Nat.lt_of_not_le short)
      rw [failed] at decoded
      cases decoded
  subst understood
  simp only [rejects, Except.toBool, Bool.false_eq_true, if_false, if_true, Except.ok.injEq] at decided
  subst decided
  simp only [if_true, Except.ok.injEq, Prod.mk.injEq] at taken
  obtain ⟨_, rfl⟩ := taken
  cases accepted

theorem finish_kept (sender : Address) (args : RelayCallArgs) (inner : InnerCall) (gas : GasReadings)
    (answer : Except Revert (RelayCallStatus × Bytes)) (start s : System P) (reached : Kept choice this admitted start s)
    (told : (∀ event, Granted choice this s.paymaster event → admitted event) → ∀ final result,
      finishRelayCall crypto around.env sender args inner gas s.world answer = .ok (final, result) →
        Logged admitted s.world final) :
    ((Code.ofExcept (finishRelayCall crypto around.env sender args inner gas s.world answer) fun w result =>
      .done w result : HubCode RelayCallResult).zoom System.world System.setWorld Outgoing.world s).Meets
        (Kept choice this admitted) (Shown choice this admitted start)
        (fun final _ => Kept choice this admitted start final) := by
  apply zoom_kept choice this admitted start s reached
  intro conforms
  exact Code.meets_ofExcept _ _ (told conforms)

/-- The frame of a call whose charge is granted, and what `relayCall` does after it. -/
theorem attempt_kept (sender : Address) (args : RelayCallArgs) (inner : InnerCall) (gas : GasReadings) (s : System P)
    (relayed : ∀ event, event.reports ∨ event.relays args.relayRequest → Granted choice this s.paymaster event)
    (code : HubCode (RelayCallStatus × Bytes))
    (met : code.Meets (Logged admitted) (Logged admitted s.world) fun middle _ => Logged admitted s.world middle) :
    (code.attemptWithin System.world System.setWorld Outgoing.world s fun w answer =>
      .ofExcept (finishRelayCall crypto around.env sender args inner gas w answer) fun w result => .done w result).Meets
        (Kept choice this admitted) (Shown choice this admitted s)
        (fun final _ => Kept choice this admitted s final) := by
  have finished : ∀ (middle : System P) answer, Kept choice this admitted s middle → _ := fun middle answer reached =>
    finish_kept choice crypto this around admitted sender args inner gas answer s middle reached
      fun conforms final result taken => by
        have allowed : ∀ event, event.reports ∨ event.relays args.relayRequest → admitted event := fun event logged =>
          conforms event (granted_grown choice this _ _ reached.1 event (relayed event logged))
        exact finishRelayCall_told admitted crypto around.env sender args inner gas middle.world final answer result
          (fun event reported => allowed event (.inl reported)) (fun _ event relays => allowed event (.inr relays))
          taken
  have same := kept_refl choice this admitted s
  refine Code.meets_attempt s _ _ ?_ fun error => finished s (.error error) same
  have framed := zoom_kept choice this admitted s s same code fun _ =>
    Code.meets_weaken _ met (fun _ visited => owing_logged _ _ _ visited) fun _ _ ended => ended
  exact Code.meets_weaken _ framed (fun _ visited => visited) fun middle value reached =>
    finished middle (.ok value) reached

theorem reports_granted (p : BasePaymaster P) (event : Event) (reports : event.reports) :
    Granted choice this p event := by
  cases event with
  | transactionRelayed => exact reports.elim
  | withdrawn => exact reports.elim
  | _ => trivial

theorem relayCall_kept (sender : Address) (args : RelayCallArgs) (limits : Except Revert GasAndDataLimits)
    (gas : GasReadings) (s : System P) (own : args.relayRequest.relayData.paymaster = this) :
    ((relayCallWithin System.world System.setWorld Outgoing.world crypto addresses around.env sender args limits gas
      s).silent.link (answers choice addresses this around)).Meets (Kept choice this admitted)
        (Shown choice this admitted s) (fun final _ => Kept choice this admitted s final) := by
  rw [relayCallWithin]
  cases prepareRelayCall addresses around.env sender args limits gas s.world with
  | error error => exact trivial
  | ok inner =>
      simp only [Code.check, innerRelayCall, Code.attemptWithin]
      cases spent : checkedSub inner.totalInitialGas gas.innerLeft with
      | error error =>
          have panicked : decodeStatus (returnData (.error error)) = .error (.data []) := by
            unfold checkedSub at spent
            split at spent
            · cases spent
            · rw [← Except.error.inj spent]
              rfl
          obtain ⟨_, failed⟩ := finishRelayCall_undecodable crypto around.env sender args inner gas s.world
            (.error error) ⟨_, panicked⟩
          change Code.Meets _ _ _ (((Code.ofExcept (finishRelayCall crypto around.env sender args inner gas s.world
            (.error error)) fun w result => .done w result).zoom _ _ _ s).silent.link _)
          rw [failed]
          exact trivial
      | ok gasUsedToCallInner =>
          change Code.Meets _ _ _ (Code.link _ (Code.call _ s s _))
          rw [Code.link]
          split
          · rename_i after returned answered
            obtain rfl := answers_same choice addresses this around _ s after returned answered
            apply linked_kept
            refine Code.meets_silent _ (attempt_kept choice crypto this around admitted sender args inner gas after ?_
              (Code.check (decodeBytesBool returned) fun decoded => innerExecute crypto around.env args inner.limits
                gas gasUsedToCallInner (after.world.hub.balances args.relayRequest.relayData.paymaster) decoded.1
                decoded.2 after.world) ?_)
            · intro event logged
              refine granted_relays choice this _ _ (fun _ => ?_) event logged
              exact ⟨_, List.mem_cons_self, answers_sponsored choice addresses this around _ _ _ _ _ _ _ _ _ answered⟩
            · apply Code.meets_check
              intro decoded _
              exact Code.meets_weaken _ (innerExecute_meets (Logged admitted) (logged_trans admitted) crypto around.env
                args inner.limits gas _ _ _ _ after.world after.world (logged_refl admitted after.world))
                (fun _ visited => visited) fun _ _ ended => ended.1
          · rename_i error answered
            apply linked_kept
            refine Code.meets_silent _ (finish_kept choice crypto this around admitted sender args inner gas
              (.error (.data (revertWithStatus .rejectedByPreRelayed (truncateInPlace error.bytes)))) s s
              (kept_refl choice this admitted s) ?_)
            intro conforms final result finished
            exact refused_logged crypto admitted (fun event reports => conforms event
              (reports_granted choice this _ event reports)) around.env sender args inner gas s.world final _ result
              finished
          · rename_i answered
            rw [answers, if_pos own] at answered
            cases answered

def asks : RelayHub.Input → Prop
  | .hub _ _ (.relayCall args _ _) => args.relayRequest.relayData.paymaster = this
  | _ => False

theorem granted_input (p : BasePaymaster P) (input : RelayHub.Input) (other : ¬ asks this input) (event : Event)
    (logged : input.relays event) : Granted choice this p event := by
  cases input with
  | hub sender value call =>
      cases call with
      | relayCall args limits gas =>
          exact granted_relays choice this p args.relayRequest (fun own => absurd own other) event logged
      | deprecateHub deprecationTime =>
          cases event with
          | hubDeprecated => trivial
          | _ => exact False.elim logged
      | _ => exact False.elim logged
  | _ => exact False.elim logged

theorem world_kept (input : RelayHub.Input) (s : System P) (outside : ¬ calledBy input this) :
    ((entryWithin System.world System.setWorld Outgoing.world crypto addresses around.env input s).link
      (answers choice addresses this around)).Meets (Kept choice this admitted) (Shown choice this admitted s)
        (fun final _ => Kept choice this admitted s final) := by
  by_cases own : asks this input
  · unfold asks at own
    split at own
    · change Code.Meets _ _ _ (Code.link _ (Code.check _ fun _ => Code.check _ fun _ =>
        (relayCallWithin System.world System.setWorld Outgoing.world crypto addresses around.env _ _ _ _ s).silent))
      rw [Code.link_check]
      refine Code.meets_check _ _ fun _ _ => ?_
      rw [Code.link_check]
      refine Code.meets_check _ _ fun _ _ => ?_
      exact relayCall_kept choice crypto addresses this around admitted _ _ _ _ s own
    · exact own.elim
  · apply linked_kept
    unfold entryWithin
    split
    · rename_i sender value args limits gas
      refine Code.meets_check _ _ fun _ _ => Code.meets_check _ _ fun _ _ => Code.meets_silent _ ?_
      refine Code.meets_check _ _ fun inner _ => ?_
      apply attempt_kept
      · exact fun event logged => granted_relays choice this _ _ (fun paid => absurd paid own) event logged
      · exact Code.meets_weaken _ (innerRelayCall_meets (Logged admitted) (logged_refl admitted) (logged_trans admitted)
          crypto addresses around.env _ _ _ _ _ _ _) (fun _ visited => visited) fun _ _ ended => ended.1
    · apply zoom_kept choice this admitted s s (kept_refl choice this admitted s)
      intro conforms
      apply entry_meets_logged
      · intro event settled
        cases input with
        | hub sender value call => exact conforms event (granted_settles choice this _ sender outside event settled)
        | _ => exact settled.elim
      · exact fun _ event logged => conforms event (granted_input choice this _ input own event logged)

/-! The paymaster's functions -/

theorem callHub_kept (value : ℕ) (call : RelayHub.Call) (other : Outgoing) (start s : System P)
    (reached : Kept choice this admitted start s)
    (met : (∀ event, Granted choice this s.paymaster event → admitted event) →
      (hubCode crypto addresses around.env this value call s.world).Meets (Logged admitted)
        (Owing admitted s.world) (fun final _ => Logged admitted s.world final)) :
    (callHub crypto addresses this around value call other s).Meets (Kept choice this admitted)
      (Shown choice this admitted start) (fun final _ => Kept choice this admitted start final) := by
  unfold callHub
  split
  · exact zoom_kept choice this admitted start s reached _ met
  · refine ⟨kept_shown choice this admitted _ _ reached, ?_, fun _ => trivial⟩
    intro after _ moved
    exact kept_trans choice this admitted _ _ _ reached moved

theorem owned_kept (sender : Address) (result : Except Revert Unit) (write : BasePaymaster P → BasePaymaster P)
    (s : System P) (grown : Grown s.paymaster (write s.paymaster)) :
    (owned sender result write s).Meets (Kept choice this admitted) (Shown choice this admitted s)
      (fun final _ => Kept choice this admitted s final) :=
  Code.meets_check _ _ fun _ _ => Code.meets_check _ _ fun _ _ => kept_paymaster choice this admitted s _ grown

theorem enforce_grown (trustedForwarder : Address) (settings : P) (p : BasePaymaster P) :
    Grown p (p.enforce trustedForwarder settings) :=
  ⟨List.subset_cons_self _ _, List.Subset.refl _⟩

theorem paymasterCode_kept (sender : Address) (call : PaymasterCall C) (s : System P) :
    (paymasterCode choice crypto addresses this around sender call s).Meets (Kept choice this admitted)
      (Shown choice this admitted s) (fun final _ => Kept choice this admitted s final) := by
  have same := grown_refl s.paymaster
  cases call with
  | setRelayHub hub supportsInterface =>
      exact owned_kept choice this admitted _ _ (fun p => { p with relayHub := hub }) s
        ⟨same.inForce, same.withdrawals⟩
  | setTrustedForwarder forwarder supportsInterface =>
      exact owned_kept choice this admitted _ _ _ s (enforce_grown _ _ s.paymaster)
  | transferOwnership newOwner =>
      exact Code.meets_check _ _ fun owner _ =>
        kept_paymaster choice this admitted s _ ⟨same.inForce, same.withdrawals⟩
  | renounceOwnership =>
      exact Code.meets_check _ _ fun owner _ =>
        kept_paymaster choice this admitted s _ ⟨same.inForce, same.withdrawals⟩
  | write call => exact owned_kept choice this admitted _ _ _ s (enforce_grown _ _ s.paymaster)
  | receive value =>
      refine Code.meets_check _ _ fun _ _ => ?_
      apply callHub_kept choice crypto addresses this around admitted _ _ _ s s (kept_refl choice this admitted s)
      intro conforms
      apply Code.meets_check
      intro hub taken
      obtain ⟨appended, told⟩ := depositFor_told this this true value s.world.hub hub taken
      exact logged_event admitted s.world hub (.deposited this this value) (conforms _ trivial) appended told
  | withdrawRelayHubDepositTo amount target =>
      refine Code.meets_check _ _ fun _ _ => ?_
      have ordered : Grown s.paymaster (s.paymaster.order target amount) :=
        ⟨List.Subset.refl _, List.subset_append_left _ _⟩
      apply callHub_kept choice crypto addresses this around admitted _ _ _ s _
        (kept_paymaster choice this admitted s _ ordered)
      intro conforms
      apply withdrawMultiple_logged admitted addresses this [target] [amount] s.world s.world ?_ (logged_refl _ _)
      intro turn member
      obtain rfl := List.mem_singleton.mp member
      exact conforms (.withdrawn this target amount) fun _ => List.mem_append_right _ (List.mem_singleton.mpr rfl)
  | preRelayedCall relayRequest signature approvalData maxPossibleGas =>
      exact Code.meets_check _ _ fun _ _ => kept_refl choice this admitted s
  | postRelayedCall => exact Code.meets_check _ _ fun _ _ => kept_refl choice this admitted s

theorem entry_settles :
    Settles (entry choice crypto addresses this around) (Kept choice this admitted) (Shown choice this admitted) where
  reflexive := kept_refl choice this admitted
  chained := kept_trans choice this admitted
  shown := kept_shown choice this admitted
  onward := shown_trans choice this admitted
  keeps := by
    intro input s
    cases input with
    | world input =>
        refine Code.meets_check _ _ fun _ outside => Code.meets_check _ _ fun _ _ => ?_
        exact world_kept choice crypto addresses this around admitted input s ((require_ok _ _ _).mp outside)
    | paymaster sender call => exact paymasterCode_kept choice crypto addresses this around admitted sender call s

end Meets

/-! The withdrawals -/

/-- Each withdrawal in the log was ordered, and no order was carried out twice. -/
def AsOrdered (first second : System P) : Prop :=
  ∃ orders events, second.paymaster.withdrawals = first.paymaster.withdrawals ++ orders ∧
    second.world.hub.events = first.world.hub.events ++ events ∧
    (events.filterMap (Event.withdrawalOf this)).Subperm orders

theorem ordered_world (s : System P) (world : World) (unwithdrawn : Unwithdrawn this s.world world) :
    AsOrdered this s (s.setWorld world) := by
  obtain ⟨events, appended, others⟩ := unwithdrawn
  have none : events.filterMap (Event.withdrawalOf this) = [] := List.filterMap_eq_nil_iff.mpr others
  exact ⟨[], events, (List.append_nil _).symm, appended, none ▸ List.Subperm.refl []⟩

theorem ordered_paymaster (s : System P) (p : BasePaymaster P) (orders : List (Address × ℕ))
    (appended : p.withdrawals = s.paymaster.withdrawals ++ orders) : AsOrdered this s (s.setPaymaster p) :=
  ⟨orders, [], appended, (List.append_nil _).symm, List.nil_subperm⟩

theorem ordered_refl (s : System P) : AsOrdered this s s :=
  ordered_world this s s.world (unwithdrawn_same this _ _ rfl)

theorem ordered_trans (first second third : System P) (early : AsOrdered this first second)
    (late : AsOrdered this second third) : AsOrdered this first third := by
  obtain ⟨orders, events, ordered, appended, paid⟩ := early
  obtain ⟨later, others, orderedLater, appendedLater, paidLater⟩ := late
  refine ⟨orders ++ later, events ++ others, ?_, ?_, ?_⟩
  · rw [orderedLater, ordered, List.append_assoc]
  · rw [appendedLater, appended, List.append_assoc]
  · rw [List.filterMap_append]
    exact paid.append paidLater

theorem owned_ordered (sender : Address) (result : Except Revert Unit) (write : BasePaymaster P → BasePaymaster P)
    (s : System P) (same : (write s.paymaster).withdrawals = s.paymaster.withdrawals) :
    (owned sender result write s).Meets (AsOrdered this) (AsOrdered this s) (fun final _ => AsOrdered this s final) :=
  Code.meets_check _ _ fun _ _ => Code.meets_check _ _ fun _ _ =>
    ordered_paymaster this s _ [] (same.trans (List.append_nil _).symm)

theorem callHub_ordered (value : ℕ) (call : RelayHub.Call) (other : Outgoing) (start s : System P)
    (reached : AsOrdered this start s)
    (met : ((hubCode crypto addresses around.env this value call s.world).zoom System.world System.setWorld
      Outgoing.world s).Meets (AsOrdered this) (AsOrdered this start) (fun final _ => AsOrdered this start final)) :
    (callHub crypto addresses this around value call other s).Meets (AsOrdered this) (AsOrdered this start)
      (fun final _ => AsOrdered this start final) := by
  unfold callHub
  split
  · exact met
  · exact ⟨reached, fun after _ moved => ordered_trans this _ _ _ reached moved, fun _ => trivial⟩

/-- The order is given before the hub pays, and the withdrawal is logged after that. -/
theorem withdraw_ordered (amount : ℕ) (target : Address) (s : System P) :
    ((hubCode crypto addresses around.env this 0 (.withdraw target amount) s.world).zoom System.world System.setWorld
      Outgoing.world (s.setPaymaster (s.paymaster.order target amount))).Meets (AsOrdered this) (AsOrdered this s)
        (fun final _ => AsOrdered this s final) := by
  change ((withdrawMultiple addresses this [target] [amount] s.world).zoom _ _ _ _).Meets _ _ _
  unfold withdrawMultiple
  rw [Code.zoom_check]
  apply Code.meets_check
  intro _ _
  dsimp only
  split
  · exact trivial
  · refine ⟨⟨[(target, amount)], [], rfl, (List.append_nil _).symm, List.nil_subperm⟩, ?_, fun _ => trivial⟩
    intro after _ moved
    obtain ⟨orders, events, ordered, appended, paid⟩ := moved
    refine ⟨(target, amount) :: orders, events ++ [.withdrawn this target amount], ?_, ?_, ?_⟩
    · exact ordered.trans (List.append_assoc _ _ _)
    · change after.world.hub.events ++ _ = _
      rw [appended, List.append_assoc]
      rfl
    · have own : (Event.withdrawn this target amount).withdrawalOf this = some (target, amount) := if_pos rfl
      rw [List.filterMap_append, List.filterMap_cons_some own, List.filterMap_nil]
      exact (List.perm_append_singleton _ _).subperm.trans (List.subperm_cons _ |>.mpr paid)

theorem paymasterCode_ordered (sender : Address) (call : PaymasterCall C) (s : System P) :
    (paymasterCode choice crypto addresses this around sender call s).Meets (AsOrdered this) (AsOrdered this s)
      (fun final _ => AsOrdered this s final) := by
  have unordered : ∀ p : BasePaymaster P, p.withdrawals = s.paymaster.withdrawals →
      AsOrdered this s (s.setPaymaster p) := fun p same =>
    ordered_paymaster this s p [] (same.trans (List.append_nil _).symm)
  cases call with
  | setRelayHub hub supportsInterface => exact owned_ordered this _ _ (fun p => { p with relayHub := hub }) s rfl
  | setTrustedForwarder forwarder supportsInterface => exact owned_ordered this _ _ _ s rfl
  | transferOwnership newOwner => exact Code.meets_check _ _ fun owner _ => unordered _ rfl
  | renounceOwnership => exact Code.meets_check _ _ fun owner _ => unordered _ rfl
  | write call => exact owned_ordered this _ _ _ s rfl
  | receive value =>
      refine Code.meets_check _ _ fun _ _ => ?_
      apply callHub_ordered crypto addresses this around value _ _ s s (ordered_refl this s)
      change ((ofHub (s.world.receive value) (depositFor this this true value s.world.hub)).zoom _ _ _ s).Meets _ _ _
      rw [ofHub, Code.zoom_check]
      apply Code.meets_check
      intro hub taken
      obtain ⟨appended, _⟩ := depositFor_told this this true value s.world.hub hub taken
      refine ordered_world this s _ ⟨_, appended, fun event member => ?_⟩
      rw [List.mem_singleton.mp member]
      rfl
  | withdrawRelayHubDepositTo amount target =>
      refine Code.meets_check _ _ fun _ _ => ?_
      exact callHub_ordered crypto addresses this around 0 _ _ s _ (ordered_paymaster this s _ [(target, amount)] rfl)
        (withdraw_ordered crypto addresses this around amount target s)
  | preRelayedCall relayRequest signature approvalData maxPossibleGas =>
      exact Code.meets_check _ _ fun _ _ => ordered_refl this s
  | postRelayedCall => exact Code.meets_check _ _ fun _ _ => ordered_refl this s

theorem entry_ordered : Guarantee (entry choice crypto addresses this around) (AsOrdered this) where
  reflexive := ordered_refl this
  chained := ordered_trans this
  keeps := by
    intro input s
    cases input with
    | world input =>
        refine Code.meets_check _ _ fun _ outside => Code.meets_check _ _ fun _ _ => ?_
        refine Code.meets_link _ ?_ _ (entryWithin_unwithdrawn System.world System.setWorld Outgoing.world
          (fun _ _ => rfl) (AsOrdered this) this (ordered_refl this) (ordered_trans this)
          (fun world s => ordered_world this s world) crypto addresses around.env input ?_ s)
        · intro target inside after value answered
          rw [answers_same choice addresses this around target inside after value answered]
          exact ordered_refl this inside
        · rintro sender value call rfl
          exact (require_ok _ _ _).mp outside
    | paymaster sender call => exact paymasterCode_ordered choice crypto addresses this around sender call s

/-- Whoever calls the hub and the paymaster, in whatever order and in the middle of other calls too: the deposit is
what the hub's log tells, and what the log takes of it went to calls for requests that the paymaster agreed to pay
for, under a forwarder and settings that its owner had put in force, and to where its owner had it sent, once for
each order. -/
theorem deposit_spent_as_set (history : List (Surroundings P × Moves (Input C) Bytes Revert)) (s : System P) :
    let final := historyFinal (entry choice crypto addresses this) history s
    (∃ events, final.world.hub.events = s.world.hub.events ++ events ∧
      (∀ event ∈ events, Granted choice this final.paymaster event) ∧
      (∃ orders, final.paymaster.withdrawals = s.paymaster.withdrawals ++ orders ∧
        (events.filterMap (Event.withdrawalOf this)).Subperm orders) ∧
      final.world.hub.books = s.world.hub.books.readAll events) ∧
    ∀ next ∈ historySeen (entry choice crypto addresses this) history s,
      ∃ events, next.world.hub.events = s.world.hub.events ++ events ∧
        (∀ event ∈ events, Granted choice this next.paymaster event) ∧
        ∃ orders, next.paymaster.withdrawals = s.paymaster.withdrawals ++ orders ∧
          (events.filterMap (Event.withdrawalOf this)).Subperm orders := by
  intro final
  constructor
  · have kept := historyFinal_settled (entry choice crypto addresses this) _ _
      (kept_refl choice this (Granted choice this final.paymaster)) history s
      fun turn _ => entry_settles choice crypto addresses this turn.1 _
    obtain ⟨events, granted, appended, told⟩ := kept.2 fun _ granted => granted
    have ordered := historyFinal_settled (entry choice crypto addresses this) _ _ (ordered_refl this) history s
      fun turn _ => (entry_ordered choice crypto addresses this turn.1).settles
    obtain ⟨orders, others, put, same, paid⟩ := ordered
    obtain rfl := List.append_cancel_left (same.symm.trans appended)
    exact ⟨others, appended, granted, ⟨orders, put, paid⟩, told⟩
  · intro next reached
    have shown := historySeen_visible (entry choice crypto addresses this) _ _
      (fun start => kept_shown choice this _ start start
        (kept_refl choice this (Granted choice this next.paymaster) start))
      history s (fun turn _ => entry_settles choice crypto addresses this turn.1 _) next reached
    obtain ⟨events, _, granted, appended, _⟩ := shown.2 fun _ granted => granted
    have ordered := historySeen_visible (entry choice crypto addresses this) _ _ (ordered_refl this) history s
      (fun turn _ => (entry_ordered choice crypto addresses this turn.1).settles) next reached
    obtain ⟨orders, others, put, same, paid⟩ := ordered
    obtain rfl := List.append_cancel_left (same.symm.trans appended)
    exact ⟨others, appended, granted, orders, put, paid⟩

def sponsoringSystem : System Whitelists :=
  ⟨sampleWorld,
    { BasePaymaster.deploy 1 Whitelists.deployed with relayHub := sampleAddresses.this, trustedForwarder := 33 }⟩

def trusting : Surroundings Whitelists := ⟨RelayHub.sampleEnv, fun _ _ _ => .ok (word 1), fun _ _ => true⟩

def sponsoringHistory : List (Surroundings Whitelists × Moves (Input WhitelistCall) Bytes Revert) :=
  [(trusting, .enter (.paymaster 1 (.write (.setConfiguration true false false false))) .none
      (.enter (.paymaster 1 (.write (.whitelistSender 34 true))) .none .stop)),
    (trusting, .enter (.world (.hub 30 0 (.relayCall { sampleArgs with maxAcceptanceBudget := 200000 }
        (.ok getGasAndDataLimits) sampleGas)))
      (.reply .stop (.ok (word 1 ++ word 64 ++ bytesTail [])) .none) .stop),
    (trusting, .enter (.paymaster 1 (.withdrawRelayHubDepositTo 50 36)) (.reply .stop (.ok []) .none) .stop)]

theorem deposit_spent_as_set_listed :
    let final := historyFinal (entry whitelistPaymaster sampleCrypto sampleAddresses 32) sponsoringHistory
      sponsoringSystem
    sponsoringSystem.world.hub.balances 32 = 100050 ∧ final.world.hub.balances 32 = 54450 ∧
    final.world.hub.events.length = sponsoringSystem.world.hub.events.length + 2 ∧
    ∃ events, final.world.hub.events = sponsoringSystem.world.hub.events ++ events ∧
      (∀ event ∈ events, Granted whitelistPaymaster 32 final.paymaster event) ∧
      (∃ orders, final.paymaster.withdrawals = sponsoringSystem.paymaster.withdrawals ++ orders ∧
        (events.filterMap (Event.withdrawalOf 32)).Subperm orders) ∧
      final.world.hub.books = sponsoringSystem.world.hub.books.readAll events :=
  ⟨by decide +kernel, by decide +kernel, by decide +kernel,
    (deposit_spent_as_set whitelistPaymaster sampleCrypto sampleAddresses 32 sponsoringHistory sponsoringSystem).1⟩

end OpenGsn.Sponsors
