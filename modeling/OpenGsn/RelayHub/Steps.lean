import OpenGsn.RelayHub.RelayCall
import OpenGsn.Ledger

/-! What the parts of `relayCall` do, whatever the code they call does. -/

namespace OpenGsn.RelayHub

open Solidity Reentry

def chargedBalances (balances : Address → ℕ) (paymaster relayManager devAddress : Address)
    (charge devCharge : ℕ) : Address → ℕ :=
  let debited := Function.update balances paymaster (balances paymaster - charge)
  let paid := Function.update debited relayManager (debited relayManager + (charge - devCharge))
  Function.update paid devAddress (paid devAddress + devCharge)

theorem total_charged (balances : Address → ℕ) (paymaster relayManager devAddress : Address)
    (charge devCharge : ℕ) (covered : charge ≤ balances paymaster) (share : devCharge ≤ charge) :
    Ledger.total (chargedBalances balances paymaster relayManager devAddress charge devCharge) =
      Ledger.total balances := by
  have debit := Ledger.total_debit balances paymaster charge covered
  unfold chargedBalances
  simp only
  rw [Ledger.total_credit, Ledger.total_credit]
  omega

theorem charged_paymaster (balances : Address → ℕ) (paymaster relayManager devAddress : Address)
    (charge devCharge : ℕ) :
    balances paymaster ≤
      chargedBalances balances paymaster relayManager devAddress charge devCharge paymaster + charge := by
  unfold chargedBalances
  by_cases manager : paymaster = relayManager <;> by_cases dev : paymaster = devAddress
  · subst manager dev
    simp
    omega
  · subst manager
    simp [Function.update_of_ne dev]
    omega
  · subst dev
    simp [Function.update_of_ne manager]
    omega
  · simp [Function.update_of_ne manager, Function.update_of_ne dev]
    omega

theorem settle_ok (env : Env) (relayManager : Address) (relayData : RelayData) (gas : GasReadings)
    (h next : Hub) (charge : ℕ)
    (taken : settle env relayManager relayData gas h = .ok (next, charge)) :
    let devCharge := calculateDevCharge h.config charge
    (∃ used, measuredGas h.config relayData gas = .ok used ∧
      calculateCharge env h.config used relayData = .ok charge) ∧
    charge ≤ h.balances relayData.paymaster ∧ devCharge ≤ charge ∧
    next = { h with
      balances := chargedBalances h.balances relayData.paymaster relayManager h.config.devAddress
        charge devCharge } := by
  simp only [settle, bind_ok, checkedSub_ok, checkedAdd_ok] at taken
  obtain ⟨used, measured, _, charged, _, ⟨covered, rfl⟩, _, ⟨share, rfl⟩, _, ⟨_, rfl⟩, settled⟩ := taken
  split at settled
  · simp only [bind_ok, checkedAdd_ok, Except.ok.injEq, Prod.mk.injEq] at settled
    obtain ⟨_, ⟨_, rfl⟩, rfl, rfl⟩ := settled
    exact ⟨⟨used, measured, charged⟩, covered, share, rfl⟩
  · rename_i none
    simp only [Except.ok.injEq, Prod.mk.injEq] at settled
    obtain ⟨rfl, rfl⟩ := settled
    refine ⟨⟨used, measured, charged⟩, covered, share, ?_⟩
    have free : calculateDevCharge h.config _ = 0 := Nat.eq_zero_of_not_pos none
    simp [chargedBalances, free, Hub.setBalance]

/-- The outcome of `relayCall`: a rejection or a charge, in the state the inner frame left. -/
inductive Finished (env : Env) (inner : InnerCall) (relayData : RelayData) (gas : GasReadings)
    (w : World) (answer : Except Revert (RelayCallStatus × Bytes)) : World → RelayCallResult → Prop
  | rejected (error : Revert) (events : List Event) (status : RelayCallStatus) (ret : Bytes)
      (failed : answer = .error error) (decoded : decodeStatus error.bytes = .ok (status, ret)) :
      Finished env inner relayData gas w answer (w.setHub { w.hub with events })
        ⟨false, 0, status, ret⟩
  | charged (before after : List Event) (hub : Hub) (charge : ℕ) (status : RelayCallStatus) (ret : Bytes)
      (settled : settle env inner.relayManager relayData gas { w.hub with events := before } =
        .ok (hub, charge)) :
      Finished env inner relayData gas w answer (w.setHub { hub with events := after })
        ⟨true, charge, status, ret⟩

theorem finishRelayCall_finished (crypto : Crypto) (env : Env) (sender : Address) (args : RelayCallArgs)
    (inner : InnerCall) (gas : GasReadings) (w final : World)
    (answer : Except Revert (RelayCallStatus × Bytes)) (result : RelayCallResult)
    (taken : finishRelayCall crypto env sender args inner gas w answer = .ok (final, result)) :
    Finished env inner args.relayRequest.relayData gas w answer final result := by
  simp only [finishRelayCall, bind_ok, checkedSub_ok] at taken
  obtain ⟨_, _, ⟨status, ret⟩, decoded, rejected, decided, taken⟩ := taken
  have logged : ∃ events, (if ret.length = 0 then w.hub else
      w.hub.emit (.transactionResult status ret)) = { w.hub with events } := by
    split
    · exact ⟨w.hub.events, rfl⟩
    · exact ⟨_, rfl⟩
  obtain ⟨events, logged⟩ := logged
  rw [logged] at taken
  cases rejected with
  | true =>
      cases answer with
      | ok returned => simp [rejects, Except.toBool] at decided
      | error error =>
          simp only [if_true, Except.ok.injEq, Prod.mk.injEq] at taken
          obtain ⟨rfl, rfl⟩ := taken
          exact .rejected error _ status ret rfl decoded
  | false =>
      simp only [Bool.false_eq_true, if_false, bind_ok, Except.ok.injEq, Prod.mk.injEq] at taken
      obtain ⟨⟨hub, charge⟩, settled, rfl, rfl⟩ := taken
      exact .charged events _ hub charge status _ settled

section Meets

variable (kept : World → World → Prop) (reflexive : ∀ w, kept w w)
  (chained : ∀ first second third, kept first second → kept second third → kept first third)

theorem finishInner_meets (paymaster : Address) (balanceBefore : ℕ) (success : Bool) (ret : Bytes)
    (start w : World) (reached : kept start w) :
    (finishInner paymaster balanceBefore success ret w).Meets kept (kept start)
      (fun final _ => kept start final ∧ balanceBefore ≤ final.hub.balances paymaster) := by
  by_cases taken : w.hub.balances paymaster < balanceBefore
  · rw [finishInner, if_pos taken]
    exact trivial
  · rw [finishInner, if_neg taken]
    exact ⟨reached, Nat.le_of_not_lt taken⟩

include chained in
theorem innerPostRelayedCall_meets (relayData : RelayData) (limits : GasAndDataLimits)
    (gas : GasReadings) (gasUsedToCallInner balanceBefore : ℕ) (context : Bytes) (success : Bool)
    (ret : Bytes) (start w : World) (reached : kept start w) :
    (innerPostRelayedCall relayData limits gas gasUsedToCallInner balanceBefore context success ret
      w).Meets kept (kept start)
      (fun final _ => kept start final ∧ balanceBefore ≤ final.hub.balances relayData.paymaster) := by
  refine Code.meets_check _ _ fun _ _ => Code.meets_check _ _ fun _ _ => ?_
  refine ⟨reached, ?_, fun _ => trivial⟩
  intro after returned moved
  exact finishInner_meets kept _ _ _ _ start after (chained _ _ _ reached moved)

include chained in
theorem innerExecute_meets (crypto : Crypto) (env : Env) (args : RelayCallArgs)
    (limits : GasAndDataLimits) (gas : GasReadings) (gasUsedToCallInner balanceBefore : ℕ)
    (context : Bytes) (rejectOnRecipientRevert : Bool) (start w : World) (reached : kept start w) :
    (innerExecute crypto env args limits gas gasUsedToCallInner balanceBefore context
      rejectOnRecipientRevert w).Meets kept (kept start)
      (fun final _ => kept start final ∧
        balanceBefore ≤ final.hub.balances args.relayRequest.relayData.paymaster) := by
  refine ⟨reached, ?_, fun _ => trivial⟩
  intro after returned moved
  refine Code.meets_check _ _ fun decoded _ => ?_
  obtain ⟨callSuccess, data⟩ := decoded
  dsimp only
  split
  · exact trivial
  · exact innerPostRelayedCall_meets kept chained _ _ _ _ _ _ _ _ start after
      (chained _ _ _ reached moved)

include reflexive chained in
/-- The inner frame ends with no less in the paymaster's balance, unless it reverts. -/
theorem innerRelayCall_meets (crypto : Crypto) (addresses : Immutables) (env : Env) (sender : Address)
    (args : RelayCallArgs) (limits : GasAndDataLimits) (totalInitialGas maxPossibleGas : ℕ)
    (gas : GasReadings) (w : World) :
    (innerRelayCall crypto addresses env sender args limits totalInitialGas maxPossibleGas gas w).Meets
      kept (kept w)
      (fun final _ => kept w final ∧
        w.hub.balances args.relayRequest.relayData.paymaster ≤
          final.hub.balances args.relayRequest.relayData.paymaster) := by
  refine Code.meets_check _ _ fun _ _ => Code.meets_check _ _ fun _ _ => ?_
  refine ⟨reflexive w, ?_, fun _ => trivial⟩
  intro after returned moved
  exact Code.meets_check _ _ fun decoded _ =>
    innerExecute_meets kept chained crypto env args limits gas _ _ _ _ w after moved

def RelayCallEnds (kept : World → World → Prop) (addresses : Immutables) (env : Env) (sender : Address)
    (args : RelayCallArgs) (limits : Except Revert GasAndDataLimits) (gas : GasReadings) (w final : World)
    (result : RelayCallResult) : Prop :=
  ∃ inner middle answer,
    prepareRelayCall addresses env sender args limits gas w = .ok inner ∧
    kept w middle ∧
    w.hub.balances args.relayRequest.relayData.paymaster ≤
      middle.hub.balances args.relayRequest.relayData.paymaster ∧
    (∀ error, answer = .error error → middle = w) ∧
    Finished env inner args.relayRequest.relayData gas middle answer final result

include reflexive chained in
theorem relayCall_meets (crypto : Crypto) (addresses : Immutables) (env : Env) (sender : Address)
    (args : RelayCallArgs) (limits : Except Revert GasAndDataLimits) (gas : GasReadings) (w : World) :
    (relayCall crypto addresses env sender args limits gas w).Meets kept (kept w)
      (RelayCallEnds kept addresses env sender args limits gas w) := by
  refine Code.meets_check _ _ fun inner prepared => ?_
  refine Code.meets_attempt w _ _ ?_ ?_
  · refine Code.meets_weaken _ (innerRelayCall_meets kept reflexive chained crypto addresses env
      addresses.this args inner.limits inner.totalInitialGas inner.maxPossibleGas gas w)
      (fun _ visited => visited) ?_
    rintro middle value ⟨reached, untouched⟩
    refine Code.meets_ofExcept _ _ fun final result finished => ?_
    have succeeded : ∀ error, (.ok value : Except Revert _) = .error error → middle = w :=
      fun _ failed => nomatch failed
    exact ⟨inner, middle, .ok value, prepared, reached, untouched, succeeded,
      finishRelayCall_finished crypto env sender args inner gas middle final _ result finished⟩
  · intro error
    refine Code.meets_ofExcept _ _ fun final result finished => ?_
    exact ⟨inner, w, .error error, prepared, reflexive w, Nat.le_refl _, fun _ _ => rfl,
      finishRelayCall_finished crypto env sender args inner gas w final _ result finished⟩

end Meets

end OpenGsn.RelayHub
