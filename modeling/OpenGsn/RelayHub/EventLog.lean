import OpenGsn.RelayHub.Workers

/-! The storage of the hub, its owner apart, read back from the hub's log. -/

namespace OpenGsn.RelayHub

open Solidity Reentry

@[ext]
structure Books where
  config : RelayHubConfig
  minimumStakePerToken : Address → ℕ
  workerToManager : Address → Address
  workerCount : Address → ℕ
  balances : Address → ℤ
  deprecationTime : ℕ

namespace Books

def blank : Books := ⟨⟨0, 0, 0, 0, 0, 0, 0, 0, 0⟩, fun _ => 0, fun _ => 0, fun _ => 0, fun _ => 0, uint256Max⟩

def shift (amounts : Address → ℤ) (b : Books) : Books := { b with balances := b.balances + amounts }

def credit (account : Address) (amount : ℤ) (b : Books) : Books := b.shift (Pi.single account amount)

/-- What an event tells. The share of the developers follows from the configuration. -/
def read (b : Books) : Event → Books
  | .relayHubConfigured config => { b with config }
  | .stakingTokenDataChanged token minimumStake =>
      { b with minimumStakePerToken := Function.update b.minimumStakePerToken token minimumStake }
  | .relayWorkersAdded relayManager newRelayWorkers workersCount =>
      { b with
        workerToManager := assigned b.workerToManager relayManager newRelayWorkers
        workerCount := Function.update b.workerCount relayManager workersCount }
  | .deposited paymaster _ amount => b.credit paymaster amount
  | .withdrawn account _ amount => b.credit account (-amount)
  | .transactionRelayed relayManager _ _ _ _ paymaster _ _ charge =>
      let devCharge := calculateDevCharge b.config charge
      ((b.credit paymaster (-charge)).credit relayManager (charge - devCharge)).credit b.config.devAddress devCharge
  | .hubDeprecated deprecationTime => { b with deprecationTime }
  | .abandonedRelayManagerBalanceEscheated relayManager balance =>
      (b.credit relayManager (-balance)).credit b.config.devAddress balance
  | .transactionRejectedByPaymaster .. => b
  | .transactionResult .. => b

def readAll (b : Books) (events : List Event) : Books := events.foldl read b

@[simp] theorem readAll_nil (b : Books) : b.readAll [] = b := rfl

@[simp] theorem readAll_append (b : Books) (first second : List Event) :
    b.readAll (first ++ second) = (b.readAll first).readAll second := List.foldl_append

@[simp] theorem readAll_singleton (b : Books) (event : Event) : b.readAll [event] = b.read event := rfl

theorem shift_zero (b : Books) : b.shift 0 = b := by
  rw [shift, add_zero]

theorem shift_shift (first second : Address → ℤ) (b : Books) :
    (b.shift first).shift second = b.shift (first + second) := by
  simp only [shift, add_assoc]

theorem shift_credit (amounts : Address → ℤ) (account : Address) (amount : ℤ) (b : Books) :
    (b.shift amounts).credit account amount = (b.credit account amount).shift amounts := by
  rw [credit, credit, shift_shift, shift_shift, add_comm]

theorem read_shift (amounts : Address → ℤ) (b : Books) (event : Event) :
    (b.shift amounts).read event = (b.read event).shift amounts := by
  cases event with
  | deposited paymaster sender amount => exact shift_credit amounts _ _ b
  | withdrawn account dest amount => exact shift_credit amounts _ _ b
  | transactionRelayed relayManager relayWorker relayRequestID sender recipient paymaster selector status charge =>
      simp only [read, shift_credit]
      rfl
  | abandonedRelayManagerBalanceEscheated relayManager balance =>
      simp only [read, shift_credit]
      rfl
  | _ => rfl

theorem readAll_shift (amounts : Address → ℤ) (b : Books) (events : List Event) :
    (b.shift amounts).readAll events = (b.readAll events).shift amounts := by
  induction events generalizing b with
  | nil => rfl
  | cons event rest ih =>
      change ((b.shift amounts).read event).readAll rest = _
      rw [read_shift, ih]
      rfl

end Books

def Hub.books (h : Hub) : Books :=
  ⟨h.config, h.minimumStakePerToken, h.workerToManager, h.workerCount, fun account => h.balances account,
    h.deprecationTime⟩

/-- What can still be logged when no more calls are relayed. -/
def Event.settling : Event → Bool
  | .transactionRelayed .. => false
  | .transactionRejectedByPaymaster .. => false
  | .transactionResult .. => false
  | .hubDeprecated _ => false
  | _ => true

/-- What a call of an account can log at any time. -/
def Event.settles (sender : Address) : Event → Prop
  | .withdrawn account _ _ => account = sender
  | event => event.settling = true

theorem settling_of_settles (sender : Address) (event : Event) (settled : event.settles sender) :
    event.settling = true := by
  cases event with
  | withdrawn account dest amount => rfl
  | _ => exact settled

def Event.relays (relayRequest : RelayRequest) : Event → Prop
  | .transactionRelayed _ _ _ sender recipient paymaster selector _ _ =>
      sender = relayRequest.request.sender ∧ recipient = relayRequest.request.recipient ∧
        paymaster = relayRequest.relayData.paymaster ∧ selector = functionSelector relayRequest.request.data
  | _ => False

/-- What comes of a relayed call without a charge. -/
def Event.reports : Event → Prop
  | .transactionRejectedByPaymaster .. => True
  | .transactionResult .. => True
  | _ => False

/-- What a call can log while the hub is not deprecated. -/
def Call.relays : Call → Event → Prop
  | .relayCall args _ _, event => event.reports ∨ event.relays args.relayRequest
  | .deprecateHub _, .hubDeprecated _ => True
  | _, _ => False

def Input.settles : Input → Event → Prop
  | .hub sender _ _, event => event.settles sender
  | _, _ => False

def Input.relays : Input → Event → Prop
  | .hub _ _ call, event => call.relays event
  | _, _ => False

theorem settling_of_input (input : Input) (event : Event) (settled : input.settles event) :
    event.settling = true := by
  cases input with
  | hub sender value call => exact settling_of_settles sender event settled
  | _ => exact absurd settled not_false

section Logged

variable (admitted : Event → Prop)

/-- The log tells everything that changed from `first` to `second`, in admitted events. -/
def Logged (first second : World) : Prop :=
  ∃ events, (∀ event ∈ events, admitted event) ∧ second.hub.events = first.hub.events ++ events ∧
    second.hub.books = first.hub.books.readAll events

/-- The log tells everything but `debts`, which are still to be logged. -/
def Owing (first second : World) : Prop :=
  ∃ (events : List Event) (debts : Address → ℕ), (∀ event ∈ events, admitted event) ∧
    second.hub.events = first.hub.events ++ events ∧
    second.hub.books.shift (fun account => debts account) = first.hub.books.readAll events

theorem logged_refl (w : World) : Logged admitted w w :=
  ⟨[], by simp, (List.append_nil _).symm, rfl⟩

theorem logged_trans (first second third : World) (early : Logged admitted first second)
    (late : Logged admitted second third) : Logged admitted first third := by
  obtain ⟨before, allowed, logged, told⟩ := early
  obtain ⟨after, allowedLater, loggedLater, toldLater⟩ := late
  refine ⟨before ++ after, List.forall_mem_append.mpr ⟨allowed, allowedLater⟩, ?_, ?_⟩
  · rw [loggedLater, logged, List.append_assoc]
  · rw [toldLater, told, Books.readAll_append]

theorem owing_logged (first second : World) (logged : Logged admitted first second) :
    Owing admitted first second := by
  obtain ⟨events, allowed, appended, told⟩ := logged
  exact ⟨events, fun _ => 0, allowed, appended, told ▸ Books.shift_zero _⟩

theorem owing_trans (first second third : World) (early : Owing admitted first second)
    (late : Owing admitted second third) : Owing admitted first third := by
  obtain ⟨before, debts, allowed, logged, told⟩ := early
  obtain ⟨after, more, allowedLater, loggedLater, toldLater⟩ := late
  refine ⟨before ++ after, fun account => debts account + more account,
    List.forall_mem_append.mpr ⟨allowed, allowedLater⟩, ?_, ?_⟩
  · rw [loggedLater, logged, List.append_assoc]
  · rw [Books.readAll_append, ← told, Books.readAll_shift, ← toldLater, Books.shift_shift]
    congr 1
    funext account
    simp only [Pi.add_apply, Nat.cast_add]
    exact add_comm _ _

theorem logged_same (first second : World) (same : second.hub = first.hub) : Logged admitted first second :=
  ⟨[], by simp, by rw [same, List.append_nil], by rw [same]; rfl⟩

theorem logged_event (w : World) (hub : Hub) (event : Event) (allowed : admitted event)
    (appended : hub.events = w.hub.events ++ [event]) (told : hub.books = w.hub.books.read event) :
    Logged admitted w (w.setHub hub) :=
  ⟨[event], by simpa using allowed, appended, told⟩

end Logged

/-! What the functions log -/

theorem books_update (h : Hub) (account : Address) (balance : ℕ) :
    (h.setBalance account balance).books = h.books.credit account (balance - h.balances account) := by
  refine Books.ext rfl rfl rfl rfl ?_ rfl
  funext other
  by_cases same : other = account
  · subst same
    simp [Hub.books, Books.credit, Books.shift]
  · simp [Hub.books, Books.credit, Books.shift, same]

theorem books_credit (h : Hub) (account : Address) (amount : ℕ) :
    (h.setBalance account (h.balances account + amount)).books = h.books.credit account amount := by
  rw [books_update, Nat.cast_add, add_sub_cancel_left]

theorem books_debit (h : Hub) (account : Address) (amount : ℕ) (covered : amount ≤ h.balances account) :
    (h.setBalance account (h.balances account - amount)).books = h.books.credit account (-amount) := by
  rw [books_update, Nat.cast_sub covered, sub_sub_cancel_left]

theorem setMinimumStakesLoop_told (sender : Address) (stakes : List (Address × ℕ)) (h : Hub) :
    ∃ events, (∀ event ∈ events, event.settles sender) ∧
      (setMinimumStakesLoop stakes h).events = h.events ++ events ∧
      (setMinimumStakesLoop stakes h).books = h.books.readAll events := by
  induction stakes generalizing h with
  | nil => exact ⟨[], by simp, (List.append_nil _).symm, rfl⟩
  | cons head rest ih =>
      obtain ⟨token, minimumStake⟩ := head
      obtain ⟨events, allowed, appended, told⟩ := ih ({ h with
        minimumStakePerToken := Function.update h.minimumStakePerToken token minimumStake }.emit
          (.stakingTokenDataChanged token minimumStake))
      refine ⟨.stakingTokenDataChanged token minimumStake :: events, ?_, ?_, told⟩
      · exact List.forall_mem_cons.mpr ⟨rfl, allowed⟩
      · rw [setMinimumStakesLoop, appended, Hub.emit_events, List.append_assoc, List.singleton_append]

theorem depositFor_told (sender target : Address) (supportsInterface : Bool) (amount : ℕ) (h next : Hub)
    (taken : depositFor sender target supportsInterface amount h = .ok next) :
    next.events = h.events ++ [.deposited target sender amount] ∧
      next.books = h.books.read (.deposited target sender amount) := by
  simp only [depositFor, bind_ok, checkedAdd_ok, Except.ok.injEq] at taken
  obtain ⟨_, _, _, ⟨_, rfl⟩, rfl⟩ := taken
  exact ⟨rfl, books_credit h target amount⟩

/-- The balances of the three accounts of a charge, which need not be different. -/
theorem settle_told (env : Env) (relayManager : Address) (relayData : RelayData) (gas : GasReadings)
    (h next : Hub) (charge : ℕ) (taken : settle env relayManager relayData gas h = .ok (next, charge)) :
    next.events = h.events ∧
      let devCharge := calculateDevCharge h.config charge
      next.books = ((h.books.credit relayData.paymaster (-charge)).credit relayManager
        (charge - devCharge)).credit h.config.devAddress devCharge := by
  obtain ⟨_, covered, share, rfl⟩ := settle_ok env relayManager relayData gas h next charge taken
  refine ⟨rfl, ?_⟩
  let debited := h.setBalance relayData.paymaster (h.balances relayData.paymaster - charge)
  let paid := debited.setBalance relayManager
    (debited.balances relayManager + (charge - calculateDevCharge h.config charge))
  calc
    _ = (paid.setBalance h.config.devAddress
          (paid.balances h.config.devAddress + calculateDevCharge h.config charge)).books := rfl
    _ = _ := by rw [books_credit, books_credit, books_debit h _ charge covered, Nat.cast_sub share]

section Meets

variable (admitted : Event → Prop)

theorem finishRelayCall_told (crypto : Crypto) (env : Env) (sender : Address) (args : RelayCallArgs)
    (inner : InnerCall) (gas : GasReadings) (w final : World)
    (answer : Except Revert (RelayCallStatus × Bytes)) (result : RelayCallResult)
    (reported : ∀ event, event.reports → admitted event)
    (relayed : result.paymasterAccepted = true → ∀ event, event.relays args.relayRequest → admitted event)
    (taken : finishRelayCall crypto env sender args inner gas w answer = .ok (final, result)) :
    Logged admitted w final := by
  simp only [finishRelayCall, bind_ok, checkedSub_ok] at taken
  obtain ⟨_, _, ⟨status, ret⟩, _, rejected, _, taken⟩ := taken
  have opened : ∃ events, (if ret.length = 0 then w.hub else
      w.hub.emit (.transactionResult status ret)) = { w.hub with events := w.hub.events ++ events } ∧
        w.hub.books.readAll events = w.hub.books ∧ ∀ event ∈ events, admitted event := by
    split
    · exact ⟨[], by rw [List.append_nil], rfl, by simp⟩
    · exact ⟨[.transactionResult status ret], rfl, rfl, by simpa using reported (.transactionResult status ret) trivial⟩
  obtain ⟨events, opened, silent, allowed⟩ := opened
  rw [opened] at taken
  cases rejected with
  | true =>
      simp only [if_true, Except.ok.injEq, Prod.mk.injEq] at taken
      obtain ⟨rfl, rfl⟩ := taken
      refine ⟨_, List.forall_mem_append.mpr ⟨allowed, ?_⟩, List.append_assoc _ _ _, ?_⟩
      · rintro _ ⟨⟩
        · exact reported _ trivial
        · contradiction
      · rw [Books.readAll_append, silent]
        rfl
  | false =>
      simp only [Bool.false_eq_true, if_false, bind_ok, Except.ok.injEq, Prod.mk.injEq] at taken
      obtain ⟨⟨hub, charge⟩, settled, rfl, rfl⟩ := taken
      obtain ⟨same, told⟩ := settle_told env inner.relayManager args.relayRequest.relayData gas _ hub charge settled
      refine ⟨_, List.forall_mem_append.mpr ⟨allowed, ?_⟩,
        Eq.trans (congrArg (· ++ _) same) (List.append_assoc _ _ _), ?_⟩
      · rintro _ ⟨⟩
        · exact relayed rfl _ ⟨rfl, rfl, rfl, rfl⟩
        · contradiction
      · rw [Books.readAll_append, silent]
        exact told

variable {sender : Address} (settling : ∀ event, event.settles sender → admitted event)

include settling in
theorem addRelayWorkers_told (addresses : Immutables) (newRelayWorkers : List Address) (w next : World)
    (taken : addRelayWorkers addresses sender newRelayWorkers w = .ok next) :
    Logged admitted w next := by
  simp only [addRelayWorkers, bind_ok, checkedAdd_ok, require_ok, Except.ok.injEq] at taken
  obtain ⟨_, ⟨_, rfl⟩, _, _, _, _, hub, added, rfl⟩ := taken
  obtain ⟨_, _, rfl⟩ := addRelayWorkersLoop_ok sender newRelayWorkers _ hub added
  exact logged_event admitted w _ _ (settling (.relayWorkersAdded _ _ _) rfl) rfl rfl

include settling in
theorem escheatAbandonedRelayBalance_told (env : Env) (relayManager : Address) (w next : World)
    (taken : escheatAbandonedRelayBalance env sender relayManager w = .ok next) : Logged admitted w next := by
  simp only [escheatAbandonedRelayBalance, bind_ok, checkedAdd_ok, Except.ok.injEq] at taken
  obtain ⟨_, _, _, _, _, _, _, ⟨_, rfl⟩, rfl⟩ := taken
  have emptied : (w.hub.setBalance relayManager 0).books =
      w.hub.books.credit relayManager (-w.hub.balances relayManager) := by
    rw [books_update, Nat.cast_zero, zero_sub]
  have swept := books_credit (w.hub.setBalance relayManager 0) w.hub.config.devAddress
    (w.hub.balances relayManager)
  rw [emptied] at swept
  exact logged_event admitted w _
    (.abandonedRelayManagerBalanceEscheated relayManager (w.hub.balances relayManager)) (settling _ rfl) rfl swept

theorem ofHub_logged (w : World) (result : Except Revert Hub)
    (told : ∀ hub, result = .ok hub → Logged admitted w (w.setHub hub)) :
    (ofHub w result).Meets (Logged admitted) (Owing admitted w) (fun final _ => Logged admitted w final) :=
  Code.meets_check _ _ told

theorem ofWorld_logged (w : World) (result : Except Revert World)
    (told : ∀ next, result = .ok next → Logged admitted w next) :
    (ofWorld result).Meets (Logged admitted) (Owing admitted w) (fun final _ => Logged admitted w final) :=
  Code.meets_check _ _ told

/-- What is paid out is owed to the log until the payment has returned. -/
theorem owing_debit (account : Address) (amount : ℕ) (w : World) (funded : amount ≤ w.hub.balances account) :
    Owing admitted w ((w.setHub (w.hub.setBalance account (w.hub.balances account - amount))).send amount) := by
  refine ⟨[], Pi.single account amount, by simp, (List.append_nil _).symm, ?_⟩
  have debited := books_debit w.hub account amount funded
  have cancelled : Pi.single account (-(amount : ℤ)) +
      (fun other => ((Pi.single account amount : Address → ℕ) other : ℤ)) = 0 := by
    funext other
    by_cases own : other = account
    · subst own
      simp
    · simp [own]
  change ((w.hub.setBalance account (w.hub.balances account - amount)).books).shift _ = w.hub.books
  rw [debited, Books.credit, Books.shift_shift, cancelled, Books.shift_zero]

theorem withdrawMultiple_logged (addresses : Immutables) (sender : Address) (dest : List Address) (amounts : List ℕ)
    (start w : World) (fine : ∀ turn ∈ dest.zip amounts, admitted (.withdrawn sender turn.1 turn.2))
    (reached : Logged admitted start w) :
    (withdrawMultiple addresses sender dest amounts w).Meets (Logged admitted) (Owing admitted start)
      (fun final _ => Logged admitted start final) := by
  induction amounts generalizing dest w with
  | nil =>
      cases dest with
      | nil => exact reached
      | cons target dests => exact reached
  | cons amount amounts ih =>
      unfold withdrawMultiple
      apply Code.meets_check
      intro _ funded
      have funded : amount ≤ w.hub.balances sender := (require_ok _ _ _).mp funded
      cases dest with
      | nil => exact trivial
      | cons target dests =>
          dsimp only
          split
          · exact trivial
          have owed := owing_debit admitted sender amount w funded
          refine ⟨owing_trans _ _ _ _ (owing_logged _ _ _ reached) owed, ?_, fun _ => trivial⟩
          intro after _ moved
          apply ih dests _ fun turn member => fine turn (List.mem_cons_of_mem _ member)
          refine logged_trans _ _ _ _ reached ?_
          obtain ⟨events, allowed, appended, told⟩ := moved
          refine ⟨events ++ [.withdrawn sender target amount], ?_, ?_, ?_⟩
          · exact List.forall_mem_append.mpr ⟨allowed, by simpa using fine (target, amount) List.mem_cons_self⟩
          · rw [World.setHub_hub, Hub.emit_events, appended, List.append_assoc]
            rfl
          · have debited := books_debit w.hub sender amount funded
            calc
              _ = after.hub.books := rfl
              _ = (w.hub.setBalance sender (w.hub.balances sender - amount)).books.readAll events := told
              _ = (w.hub.books.readAll events).credit sender (-amount) := by
                rw [debited, Books.credit, Books.readAll_shift]
                rfl
              _ = w.hub.books.readAll (events ++ [.withdrawn sender target amount]) := by
                rw [Books.readAll_append]
                rfl

theorem innerRelayCall_logged (crypto : Crypto) (addresses : Immutables) (env : Env) (sender : Address)
    (args : RelayCallArgs) (limits : GasAndDataLimits) (totalInitialGas maxPossibleGas : ℕ)
    (gas : GasReadings) (w : World) :
    (innerRelayCall crypto addresses env sender args limits totalInitialGas maxPossibleGas gas w).Meets
      (Logged admitted) (Owing admitted w) (fun final _ => Logged admitted w final) :=
  Code.meets_weaken _ (innerRelayCall_meets (Logged admitted) (logged_refl admitted) (logged_trans admitted) crypto
    addresses env sender args limits totalInitialGas maxPossibleGas gas w)
    (fun _ visited => owing_logged _ _ _ visited) fun _ _ ended => ended.1

/-- `relayCall` from somewhere in its inner frame on. -/
theorem attempt_logged (crypto : Crypto) (env : Env) (sender : Address) (args : RelayCallArgs) (inner : InnerCall)
    (gas : GasReadings) (w : World) (code : HubCode (RelayCallStatus × Bytes))
    (relayed : ∀ event, event.reports ∨ event.relays args.relayRequest → admitted event)
    (met : code.Meets (Logged admitted) (Owing admitted w) (fun final _ => Logged admitted w final)) :
    (code.attempt w fun w answer => .ofExcept (finishRelayCall crypto env sender args inner gas w answer)
      fun w result => .done w result).Meets (Logged admitted) (Owing admitted w)
        (fun final _ => Logged admitted w final) := by
  have ends : ∀ middle answer final result,
      finishRelayCall crypto env sender args inner gas middle answer = .ok (final, result) →
        Logged admitted middle final := fun middle answer final result finished =>
    finishRelayCall_told admitted crypto env sender args inner gas middle final answer result
      (fun event reports => relayed event (.inl reports)) (fun _ event relays => relayed event (.inr relays)) finished
  apply Code.meets_attempt
  · apply Code.meets_weaken _ met (fun _ visited => visited)
    intro middle value reached
    apply Code.meets_ofExcept
    intro final result finished
    exact logged_trans _ _ _ _ reached (ends middle _ final result finished)
  · intro error
    apply Code.meets_ofExcept
    intro final result finished
    exact ends w _ final result finished

theorem relayCall_logged (crypto : Crypto) (addresses : Immutables) (env : Env) (sender : Address)
    (args : RelayCallArgs) (limits : Except Revert GasAndDataLimits) (gas : GasReadings) (w : World)
    (relaying : isDeprecated env w.hub = false →
      ∀ event, event.reports ∨ event.relays args.relayRequest → admitted event) :
    (relayCall crypto addresses env sender args limits gas w).Meets (Logged admitted) (Owing admitted w)
      (fun final _ => Logged admitted w final) := by
  apply Code.meets_check
  intro inner prepared
  simp only [prepareRelayCall, bind_ok, require_ok] at prepared
  obtain ⟨_, active, _⟩ := prepared
  exact attempt_logged admitted crypto env sender args inner gas w _ (relaying active)
    (innerRelayCall_logged admitted crypto addresses env addresses.this args inner.limits inner.totalInitialGas
      inner.maxPossibleGas gas w)

include settling in
theorem hubCode_logged (crypto : Crypto) (addresses : Immutables) (env : Env) (value : ℕ) (call : Call) (w : World)
    (relaying : isDeprecated env w.hub = false → ∀ event, call.relays event → admitted event) :
    (hubCode crypto addresses env sender value call w).Meets (Logged admitted) (Owing admitted w)
      (fun final _ => Logged admitted w final) := by
  cases call with
  | setConfiguration config =>
      apply ofHub_logged
      intro hub taken
      simp only [setConfiguration, bind_ok, Except.ok.injEq] at taken
      obtain ⟨_, _, _, _, rfl⟩ := taken
      exact logged_event admitted w _ _ (settling (.relayHubConfigured config) rfl) rfl rfl
  | setMinimumStakes token minimumStake =>
      apply ofHub_logged
      intro hub taken
      simp only [setMinimumStakes, bind_ok, Except.ok.injEq] at taken
      obtain ⟨_, _, _, _, rfl⟩ := taken
      obtain ⟨events, allowed, told⟩ := setMinimumStakesLoop_told sender (token.zip minimumStake) w.hub
      exact ⟨events, fun event member => settling event (allowed event member), told⟩
  | deprecateHub deprecationTime =>
      apply ofHub_logged
      intro hub taken
      simp only [deprecateHub, bind_ok, require_ok, Except.ok.injEq] at taken
      obtain ⟨_, _, _, active, rfl⟩ := taken
      exact logged_event admitted w _ _ (relaying active (.hubDeprecated deprecationTime) trivial) rfl rfl
  | transferOwnership newOwner =>
      apply ofHub_logged
      intro hub taken
      simp only [bind_ok, Except.ok.injEq] at taken
      obtain ⟨_, _, rfl⟩ := taken
      exact ⟨[], by simp, (List.append_nil _).symm, rfl⟩
  | renounceOwnership =>
      apply ofHub_logged
      intro hub taken
      simp only [bind_ok, Except.ok.injEq] at taken
      obtain ⟨_, _, rfl⟩ := taken
      exact ⟨[], by simp, (List.append_nil _).symm, rfl⟩
  | onRelayServerRegistered relayManager =>
      apply ofWorld_logged
      intro next taken
      obtain ⟨stakeManager, rfl, _⟩ := onRelayServerRegistered_ok addresses env sender relayManager w next taken
      exact logged_same admitted w _ rfl
  | addRelayWorkers newRelayWorkers =>
      apply ofWorld_logged
      intro next taken
      exact addRelayWorkers_told admitted settling addresses newRelayWorkers w next taken
  | depositFor target supportsInterface =>
      apply Code.meets_check
      intro hub taken
      obtain ⟨appended, told⟩ := depositFor_told sender target supportsInterface value w.hub hub taken
      exact logged_event admitted w hub _ (settling (.deposited target sender value) rfl) appended told
  | withdraw dest amount =>
      exact withdrawMultiple_logged admitted addresses sender [dest] [amount] w w
        (fun turn _ => settling (.withdrawn sender turn.1 turn.2) rfl) (logged_refl admitted w)
  | withdrawMultiple dest amount =>
      exact withdrawMultiple_logged admitted addresses sender dest amount w w
        (fun turn _ => settling (.withdrawn sender turn.1 turn.2) rfl) (logged_refl admitted w)
  | relayCall args limits gas =>
      exact Code.meets_silent _ (relayCall_logged admitted crypto addresses env sender args limits gas w relaying)
  | innerRelayCall args limits totalInitialGas maxPossibleGas gas =>
      exact Code.meets_silent _ (innerRelayCall_logged admitted crypto addresses env sender args limits
        totalInitialGas maxPossibleGas gas w)
  | penalize relayWorker beneficiary =>
      apply ofWorld_logged
      intro next taken
      simp only [penalize, bind_ok, Except.ok.injEq] at taken
      obtain ⟨_, _, _, _, _, _, stakeManager, _, rfl⟩ := taken
      exact logged_same admitted w _ rfl
  | escheatAbandonedRelayBalance relayManager =>
      apply ofWorld_logged
      intro next taken
      exact escheatAbandonedRelayBalance_told admitted settling env relayManager w next taken

theorem entry_meets_logged (crypto : Crypto) (addresses : Immutables) (env : Env) (input : Input) (w : World)
    (settling : ∀ event, input.settles event → admitted event)
    (relaying : isDeprecated env w.hub = false → ∀ event, input.relays event → admitted event) :
    (entry crypto addresses env input w).Meets (Logged admitted) (Owing admitted w)
      (fun final _ => Logged admitted w final) := by
  cases input with
  | hub sender value call =>
      exact Code.meets_check _ _ fun _ _ => Code.meets_check _ _ fun _ _ =>
        hubCode_logged admitted settling crypto addresses env value call w relaying
  | stakeManager sender call =>
      apply Code.meets_check
      intro _ _
      apply ofWorld_logged
      intro next taken
      simp only [bind_ok, Except.ok.injEq] at taken
      obtain ⟨_, _, rfl⟩ := taken
      exact logged_same admitted w _ rfl
  | forwarder account call =>
      have writes : ∀ s whole, Logged admitted whole (whole.setForwarder account s) := fun s whole =>
        logged_same admitted whole _ rfl
      exact Code.meets_weaken _ (Code.meets_zoom _ _ _ writes (logged_trans admitted) _ w w (logged_refl admitted w))
        (fun _ visited => owing_logged _ _ _ visited) fun _ _ ended => ended
  | forceEther amount => exact logged_same admitted w _ rfl
  | tokenActivity token ledger =>
      apply ofWorld_logged
      intro next taken
      simp only [bind_ok, Except.ok.injEq] at taken
      obtain ⟨_, _, rfl⟩ := taken
      exact logged_same admitted w _ rfl

end Meets

/-! A hub at work -/

abbrev Told : World → World → Prop := Logged fun _ => True

abbrev Untold : World → World → Prop := Owing fun _ => True

theorem entry_told (crypto : Crypto) (addresses : Immutables) (env : Env) :
    Settles (entry crypto addresses env) Told Untold where
  reflexive := logged_refl _
  chained := logged_trans _
  shown := owing_logged _
  onward := owing_trans _
  keeps := fun input w =>
    entry_meets_logged _ crypto addresses env input w (fun _ _ => trivial) fun _ _ _ => trivial

/-- Between two transactions the log tells the whole storage of the hub but its owner: the configuration,
the minimum stakes, the workers, the time of deprecation and every balance. In the middle of one, when
foreign code has control, it tells as much, except that balances may already be lower. -/
theorem storage_replayed (crypto : Crypto) (addresses : Immutables) (deployer : Address)
    (config : RelayHubConfig) (hub : Hub) (deployed : deploy deployer config = .ok hub)
    (ether received paidOut : ℕ) (stakeManager : StakeManager.State) (forwarders : Address → Forwarder.State)
    (history : List (Env × Moves Input Bytes Revert)) :
    let start : World := ⟨hub, ether, received, paidOut, stakeManager, forwarders⟩
    let final := historyFinal (entry crypto addresses) history start
    final.hub.books = Books.blank.readAll final.hub.events ∧
    ∀ w ∈ historySeen (entry crypto addresses) history start,
      ∃ debts : Address → ℕ, w.hub.books.shift (fun account => debts account) =
        Books.blank.readAll w.hub.events := by
  intro start final
  have opened : start.hub.books = Books.blank.readAll start.hub.events := by
    simp only [deploy, setConfiguration, bind_ok, Except.ok.injEq] at deployed
    obtain ⟨_, _, _, _, rfl⟩ := deployed
    rfl
  constructor
  · obtain ⟨events, _, appended, told⟩ := historyFinal_settled (entry crypto addresses) Told Untold
      (logged_refl _) history start fun turn _ => entry_told crypto addresses turn.1
    rw [told, opened, appended, Books.readAll_append]
  · intro w reached
    obtain ⟨events, debts, _, appended, told⟩ := historySeen_visible (entry crypto addresses) Told Untold
      (fun w => owing_logged _ w w (logged_refl _ w)) history start
      (fun turn _ => entry_told crypto addresses turn.1) w reached
    exact ⟨debts, by rw [told, opened, appended, Books.readAll_append]⟩

theorem storage_replayed_reentered :
    let final := historyFinal (entry sampleCrypto sampleAddresses) sampleHistory
      ⟨sampleDeployed, 7, 0, 0, sampleStakeManager, fun _ => Forwarder.deploy sampleCrypto⟩
    final.hub.events.length = 4 ∧ final.hub.balances 32 = 75 ∧
      final.hub.books = Books.blank.readAll final.hub.events :=
  ⟨by decide +kernel, by decide +kernel,
    (storage_replayed sampleCrypto sampleAddresses 1 sampleConfig sampleDeployed rfl 7 0 0 sampleStakeManager
      (fun _ => Forwarder.deploy sampleCrypto) sampleHistory).1⟩

/-! A hub that is deprecated -/

theorem readAll_deprecationTime (events : List Event) (b : Books)
    (settled : ∀ event ∈ events, event.settling = true) :
    (b.readAll events).deprecationTime = b.deprecationTime := by
  induction events generalizing b with
  | nil => rfl
  | cons event rest ih =>
      obtain ⟨first, later⟩ := List.forall_mem_cons.mp settled
      refine (ih (b.read event) later).trans ?_
      cases event with
      | hubDeprecated deprecationTime => cases first
      | _ => rfl

abbrev Settling : World → World → Prop := Logged fun event => event.settling = true

abbrev Unsettled : World → World → Prop := Owing fun event => event.settling = true

theorem unsettled_deprecationTime (first second : World) (owing : Unsettled first second) :
    second.hub.deprecationTime = first.hub.deprecationTime := by
  obtain ⟨events, debts, settled, _, told⟩ := owing
  have same := congrArg Books.deprecationTime told
  rw [readAll_deprecationTime events _ settled] at same
  exact same

theorem entry_settling (crypto : Crypto) (addresses : Immutables) (env : Env) (now : ℕ)
    (later : now ≤ env.timestamp) :
    Settles (entry crypto addresses env)
      (fun first second => first.hub.deprecationTime ≤ now → Settling first second)
      (fun first second => first.hub.deprecationTime ≤ now → Unsettled first second) := by
  apply settles_while _ _ _ _ (logged_refl _) (logged_trans _) (owing_logged _) (owing_trans _)
  · intro first second owing passed
    rw [unsettled_deprecationTime first second owing]
    exact passed
  · intro input w passed
    apply entry_meets_logged _ crypto addresses env input w (settling_of_input input)
    intro active
    have deprecated : isDeprecated env w.hub = true := decide_eq_true (passed.trans later)
    rw [deprecated] at active
    cases active

/-- From its deprecation on a hub relays no call, and its deprecation is not put off: whatever is called, in
the middle of other calls too, logs neither a relayed nor a rejected call nor another time of deprecation,
and the balances are those before, with the deposits, withdrawals and escheatments in the log. -/
theorem deprecated_hub_only_settles (crypto : Crypto) (addresses : Immutables) (now : ℕ) (start : World)
    (deprecated : start.hub.deprecationTime ≤ now) (history : List (Env × Moves Input Bytes Revert))
    (later : ∀ turn ∈ history, now ≤ turn.1.timestamp) :
    let final := historyFinal (entry crypto addresses) history start
    (∃ events, (∀ event ∈ events, event.settling = true) ∧ final.hub.events = start.hub.events ++ events ∧
      final.hub.books = start.hub.books.readAll events) ∧
    ∀ w ∈ historySeen (entry crypto addresses) history start,
      w.hub.deprecationTime = start.hub.deprecationTime ∧
      ∃ events, w.hub.events = start.hub.events ++ events ∧ ∀ event ∈ events, event.settling = true := by
  intro final
  have settles := fun turn member => entry_settling crypto addresses (Prod.fst turn) now (later turn member)
  constructor
  · exact historyFinal_settled (entry crypto addresses) _ _ (fun w _ => logged_refl _ w) history start settles
      deprecated
  · intro w reached
    have owing := historySeen_visible (entry crypto addresses) _ _
      (fun w _ => owing_logged _ w w (logged_refl _ w)) history start settles w reached deprecated
    refine ⟨unsettled_deprecationTime start w owing, ?_⟩
    obtain ⟨events, _, settled, appended, _⟩ := owing
    exact ⟨events, appended, settled⟩

def deprecatedWorld : World :=
  ⟨{ sampleDeployed with deprecationTime := 5 }, 7, 0, 0, sampleStakeManager, fun _ => Forwarder.deploy sampleCrypto⟩

theorem deprecated_hub_only_settles_reentered :
    (historyFinal (entry sampleCrypto sampleAddresses) sampleHistory deprecatedWorld).hub.deprecationTime = 5 :=
  ((deprecated_hub_only_settles sampleCrypto sampleAddresses 5 deprecatedWorld (by decide) sampleHistory
    (by decide)).2 _ (historyFinal_seen _ _ _)).1

end OpenGsn.RelayHub
