import OpenGsn.RelayHub.EventLog
import OpenGsn.RelayHub.Within

/-! Nobody withdraws the balance of another account. -/

namespace OpenGsn.RelayHub

open Solidity Reentry

def Event.withdrawalOf (account : Address) : Event → Option (Address × ℕ)
  | .withdrawn source dest amount => if source = account then some (dest, amount) else none
  | _ => none

/-- The log goes on without a withdrawal of the account. -/
def Unwithdrawn (account : Address) (first second : World) : Prop :=
  ∃ events, second.hub.events = first.hub.events ++ events ∧ ∀ event ∈ events, event.withdrawalOf account = none

section Account

variable (account : Address)

theorem unwithdrawn_same (first second : World) (same : second.hub.events = first.hub.events) :
    Unwithdrawn account first second :=
  ⟨[], by rw [same, List.append_nil], fun _ member => nomatch member⟩

theorem unwithdrawn_logged (first second : World)
    (logged : Logged (fun event => event.withdrawalOf account = none) first second) :
    Unwithdrawn account first second := by
  obtain ⟨events, others, appended, _⟩ := logged
  exact ⟨events, appended, others⟩

theorem settles_unwithdrawn (sender : Address) (other : sender ≠ account) (event : Event)
    (settled : event.settles sender) : event.withdrawalOf account = none := by
  cases event with
  | withdrawn source dest amount =>
      obtain rfl : source = sender := settled
      exact if_neg other
  | _ => rfl

theorem reports_unwithdrawn (relayRequest : RelayRequest) (event : Event)
    (logged : event.reports ∨ event.relays relayRequest) : event.withdrawalOf account = none := by
  cases event with
  | withdrawn source dest amount => exact (logged.elim id id).elim
  | _ => rfl

theorem relays_unwithdrawn (call : Call) (event : Event) (logged : call.relays event) :
    event.withdrawalOf account = none := by
  cases call with
  | relayCall args limits gas => exact reports_unwithdrawn account args.relayRequest event logged
  | deprecateHub deprecationTime =>
      cases event with
      | withdrawn source dest amount => exact logged.elim
      | _ => rfl
  | _ => exact logged.elim

theorem withdrawMultiple_unwithdrawn (addresses : Immutables) (sender : Address) (other : sender ≠ account)
    (dest : List Address) (amounts : List ℕ) (start w : World) (reached : Unwithdrawn account start w) :
    (withdrawMultiple addresses sender dest amounts w).Own (Unwithdrawn account) start := by
  induction amounts generalizing dest start w with
  | nil =>
      cases dest with
      | nil => exact reached
      | cons target dests => exact reached
  | cons amount amounts ih =>
      unfold withdrawMultiple
      apply Code.own_check
      intro _ _
      cases dest with
      | nil => exact trivial
      | cons target dests =>
          dsimp only
          split
          · exact trivial
          · refine ⟨reached, reached, ?_, fun _ => trivial⟩
            intro after _
            apply ih
            refine ⟨[.withdrawn sender target amount], rfl, fun event member => ?_⟩
            rw [List.mem_singleton.mp member]
            exact if_neg other

theorem innerExecute_own (step : World → World → Prop) (reflexive : ∀ w, step w w) (crypto : Crypto) (env : Env)
    (args : RelayCallArgs) (limits : GasAndDataLimits) (gas : GasReadings) (gasUsedToCallInner balanceBefore : ℕ)
    (context : Bytes) (rejectOnRecipientRevert : Bool) (w : World) :
    (innerExecute crypto env args limits gas gasUsedToCallInner balanceBefore context rejectOnRecipientRevert w).Own
      step w := by
  refine ⟨reflexive w, reflexive w, ?_, fun _ => trivial⟩
  intro after returned
  refine Code.own_check _ _ _ _ fun decoded _ => ?_
  obtain ⟨callSuccess, data⟩ := decoded
  dsimp only
  split
  · exact trivial
  · refine Code.own_check _ _ _ _ fun _ _ => Code.own_check _ _ _ _ fun _ _ => ?_
    refine ⟨reflexive after, reflexive after, ?_, fun _ => trivial⟩
    intro last _
    change (finishInner _ _ _ _ last).Own step last
    unfold finishInner
    split
    · exact trivial
    · exact reflexive last

/-- The inner frame of `relayCall` leaves all writing to the code that it calls. -/
theorem innerRelayCall_own (step : World → World → Prop) (reflexive : ∀ w, step w w) (crypto : Crypto)
    (addresses : Immutables) (env : Env) (sender : Address) (args : RelayCallArgs) (limits : GasAndDataLimits)
    (totalInitialGas maxPossibleGas : ℕ) (gas : GasReadings) (w : World) :
    (innerRelayCall crypto addresses env sender args limits totalInitialGas maxPossibleGas gas w).Own step w := by
  refine Code.own_check _ _ _ _ fun _ _ => Code.own_check _ _ _ _ fun _ _ => ?_
  refine ⟨reflexive w, reflexive w, ?_, fun _ => trivial⟩
  intro after returned
  exact Code.own_check _ _ _ _ fun decoded _ => innerExecute_own step reflexive crypto env args limits gas _ _ _ _ after

theorem hubCode_unwithdrawn (crypto : Crypto) (addresses : Immutables) (env : Env) (sender : Address)
    (other : sender ≠ account) (value : ℕ) (call : Call) (unframed : ∀ args limits gas, call ≠ .relayCall args limits gas)
    (w : World) : (hubCode crypto addresses env sender value call w).Own (Unwithdrawn account) w := by
  have told := hubCode_logged (fun event => event.withdrawalOf account = none)
    (settles_unwithdrawn account sender other) crypto addresses env value call w
    fun _ => relays_unwithdrawn account call
  cases call with
  | withdraw dest amount =>
      exact withdrawMultiple_unwithdrawn account addresses sender other [dest] [amount] w w
        (unwithdrawn_same account w w rfl)
  | withdrawMultiple dest amount =>
      exact withdrawMultiple_unwithdrawn account addresses sender other dest amount w w
        (unwithdrawn_same account w w rfl)
  | relayCall args limits gas => exact absurd rfl (unframed args limits gas)
  | innerRelayCall args limits totalInitialGas maxPossibleGas gas =>
      exact Code.own_silent _ _ _ (innerRelayCall_own _ (fun w => unwithdrawn_same account w w rfl) crypto addresses
        env sender args limits totalInitialGas maxPossibleGas gas w)
  | _ => exact Code.own_weaken (unwithdrawn_logged account) _ _ (Code.own_result _ _ _ _ _ told)

theorem entry_unwithdrawn (crypto : Crypto) (addresses : Immutables) (env : Env) (input : Input)
    (outside : ∀ sender value call, input = .hub sender value call →
      sender ≠ account ∧ ∀ args limits gas, call ≠ .relayCall args limits gas) (w : World) :
    (entry crypto addresses env input w).Own (Unwithdrawn account) w := by
  cases input with
  | hub sender value call =>
      have ⟨other, unframed⟩ := outside sender value call rfl
      exact Code.own_check _ _ _ _ fun _ _ => Code.own_check _ _ _ _ fun _ _ =>
        hubCode_unwithdrawn account crypto addresses env sender other value call unframed w
  | stakeManager sender call =>
      refine Code.own_check _ _ _ _ fun _ _ => Code.own_check _ _ _ _ fun next taken => ?_
      simp only [bind_ok, Except.ok.injEq] at taken
      obtain ⟨_, _, rfl⟩ := taken
      exact unwithdrawn_same account _ _ rfl
  | forwarder target call =>
      have writes : ∀ s whole, Unwithdrawn account whole (whole.setForwarder target s) := fun s whole =>
        unwithdrawn_same account whole _ rfl
      exact Code.own_zoom _ _ _ _ writes _ w
  | forceEther amount => exact unwithdrawn_same account _ _ rfl
  | tokenActivity token ledger =>
      refine Code.own_check _ _ _ _ fun next taken => ?_
      simp only [bind_ok, Except.ok.injEq] at taken
      obtain ⟨_, _, rfl⟩ := taken
      exact unwithdrawn_same account _ _ rfl

end Account

section Within

variable {ω κ : Type} (get : ω → World) (set : World → ω → ω) (wrap : Outgoing → κ)
  (written : ∀ state whole, get (set state whole) = state) (kept : ω → ω → Prop) (account : Address)
  (reflexive : ∀ whole, kept whole whole)
  (chained : ∀ first second third, kept first second → kept second third → kept first third)
  (writes : ∀ state whole, Unwithdrawn account (get whole) state → kept whole (set state whole))

include written reflexive chained writes

theorem relayCallWithin_unwithdrawn (crypto : Crypto) (addresses : Immutables) (env : Env) (sender : Address)
    (args : RelayCallArgs) (limits : Except Revert GasAndDataLimits) (gas : GasReadings) (whole : ω) :
    (relayCallWithin get set wrap crypto addresses env sender args limits gas whole).Meets kept (kept whole)
      fun final _ => kept whole final := by
  refine Code.meets_check _ _ fun inner prepared => ?_
  have finished : ∀ middle answer, kept whole middle →
      ((Code.ofExcept (finishRelayCall crypto env sender args inner gas (get middle) answer) fun w result =>
        .done w result : HubCode RelayCallResult).zoom get set wrap middle).Meets kept (kept whole)
          fun final _ => kept whole final := by
    intro middle answer reached
    cases taken : finishRelayCall crypto env sender args inner gas (get middle) answer with
    | error error => exact trivial
    | ok ended =>
        have told := finishRelayCall_told (fun event => event.withdrawalOf account = none) crypto env sender args inner
          gas _ ended.1 answer ended.2 (fun event reported => reports_unwithdrawn account args.relayRequest event
            (.inl reported)) (fun _ event relayed => reports_unwithdrawn account args.relayRequest event
            (.inr relayed)) taken
        exact chained _ _ _ reached (writes _ _ (unwithdrawn_logged account _ _ told))
  refine Code.meets_attempt whole _ _ ?_ fun error => finished whole (.error error) (reflexive whole)
  have own := innerRelayCall_own (Unwithdrawn account) (fun w => unwithdrawn_same account w w rfl) crypto addresses
    env addresses.this args inner.limits inner.totalInitialGas inner.maxPossibleGas gas (get whole)
  exact Code.meets_weaken _ (Code.meets_own _ get set wrap written writes chained _ whole whole (reflexive whole) own)
    (fun _ visited => visited) fun middle value reached => finished middle (.ok value) reached

/-- A relation that allows all but withdrawals of the account is kept by what everybody else does. -/
theorem entryWithin_unwithdrawn (crypto : Crypto) (addresses : Immutables) (env : Env) (input : Input)
    (outside : ∀ sender value call, input = .hub sender value call → sender ≠ account) (whole : ω) :
    (entryWithin get set wrap crypto addresses env input whole).Meets kept (kept whole)
      fun final _ => kept whole final := by
  unfold entryWithin
  split
  · refine Code.meets_check _ _ fun _ _ => Code.meets_check _ _ fun _ _ => ?_
    exact Code.meets_silent _ (relayCallWithin_unwithdrawn get set wrap written kept account reflexive chained writes
      crypto addresses env _ _ _ _ whole)
  · rename_i unframed
    refine Code.meets_own _ get set wrap written writes chained _ whole whole (reflexive whole)
      (entry_unwithdrawn account crypto addresses env input ?_ (get whole))
    rintro sender value call rfl
    exact ⟨outside sender value call rfl, fun args limits gas same => unframed sender value args limits gas (by rw [same])⟩

end Within

end OpenGsn.RelayHub
