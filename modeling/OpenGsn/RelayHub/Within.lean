import OpenGsn.RelayHub.RelayCall
import OpenGsn.Reentry.Frames

/-! The hub's world as a part of a larger system. The system is put back with the world when the inner frame of
`relayCall` reverts. -/

namespace OpenGsn.RelayHub

open Solidity Reentry

variable {ω κ : Type} (get : ω → World) (set : World → ω → ω) (wrap : Outgoing → κ)
  (crypto : Crypto) (addresses : Immutables) (env : Env)

def relayCallWithin (sender : Address) (args : RelayCallArgs) (limits : Except Revert GasAndDataLimits)
    (gas : GasReadings) (whole : ω) : Code ω κ Bytes Revert RelayCallResult :=
  .check (prepareRelayCall addresses env sender args limits gas (get whole)) fun inner =>
  (innerRelayCall crypto addresses env addresses.this args inner.limits inner.totalInitialGas
      inner.maxPossibleGas gas (get whole)).attemptWithin get set wrap whole fun w answer =>
    .ofExcept (finishRelayCall crypto env sender args inner gas w answer) fun w result => .done w result

def entryWithin (input : Input) (whole : ω) : Code ω κ Bytes Revert Unit :=
  match input with
  | .hub sender value (.relayCall args limits gas) =>
      .check (require (sender ≠ addresses.this) "the hub does not call itself") fun _ =>
      .check (require ((Call.relayCall args limits gas).accepts value) "not payable") fun _ =>
      (relayCallWithin get set wrap crypto addresses env sender args limits gas whole).silent
  | input => (entry crypto addresses env input (get whole)).zoom get set wrap whole

theorem relayCallWithin_self (sender : Address) (args : RelayCallArgs) (limits : Except Revert GasAndDataLimits)
    (gas : GasReadings) (w : World) :
    relayCallWithin id (fun w _ => w) id crypto addresses env sender args limits gas w =
      relayCall crypto addresses env sender args limits gas w := by
  simp only [relayCallWithin, Code.attemptWithin_self]
  rfl

/-- Where the world is all there is, the entries are the same. -/
theorem entryWithin_self (input : Input) (w : World) :
    entryWithin id (fun w _ => w) id crypto addresses env input w = entry crypto addresses env input w := by
  unfold entryWithin
  split
  · rw [relayCallWithin_self]
    rfl
  · exact Code.zoom_self _ w

variable {rely : World → World → Prop} {visit post : World → Prop}
  (written : ∀ state whole, get (set state whole) = state)

include written in
/-- What the world keeps is kept by the system. -/
theorem entryWithin_meets (input : Input) (whole : ω)
    (met : (entry crypto addresses env input (get whole)).Meets rely visit fun final _ => post final) :
    (entryWithin get set wrap crypto addresses env input whole).Meets
      (fun first second => rely (get first) (get second)) (fun state => visit (get state))
      fun final _ => post (get final) := by
  unfold entryWithin
  split
  · rename_i sender value args limits gas
    refine Code.meets_check _ _ fun outside allowed => Code.meets_check _ _ fun payable accepted => ?_
    simp only [entry, hubCode, allowed, accepted, Code.check] at met
    apply Code.meets_silent
    refine Code.meets_check _ _ fun inner prepared => ?_
    have relayed := Code.meets_of_silent _ met
    rw [relayCall, prepared] at relayed
    exact Code.meets_attemptWithin get set wrap written _ _ whole whole relayed
  · exact Code.meets_zoom_invariant get set wrap written _ whole met

end OpenGsn.RelayHub
