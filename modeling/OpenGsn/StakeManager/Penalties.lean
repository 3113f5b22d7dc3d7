import OpenGsn.StakeManager.StakeLog

/-! Who penalizes a relay manager. -/

namespace OpenGsn.StakeManager

open Solidity

variable (relayManager : Address)

def penaltiesOf (events : List Event) : List Event :=
  events.filter fun event => event.stakeChange = some (.stakePenalized, relayManager)

theorem penaltiesOf_append (first second : List Event) :
    penaltiesOf relayManager (first ++ second) = penaltiesOf relayManager first ++ penaltiesOf relayManager second :=
  List.filter_append ..

/-- No hub but one can penalize the manager, and what it did is in the log. -/
structure Unpenalized (relayHub : Address) (penalties : List Event) (s : State) : Prop where
  penalties : penaltiesOf relayManager s.events = penalties
  alone : ∀ hub, hub ≠ relayHub → (s.authorizedHubs relayManager hub).removalTime = 0

/-- Neither the manager nor its owner authorizes a hub but `relayHub`. -/
def Trusting (relayHub sender : Address) (s : State) : Call → Prop
  | .authorizeHubByOwner manager hub =>
      manager = relayManager → (s.stakes relayManager).owner = sender → hub = relayHub
  | .authorizeHubByManager hub => sender = relayManager → hub = relayHub
  | _ => True

theorem unpenalized_written (relayHub : Address) (penalties : List Event) (s next : State) (events : List Event)
    (logged : next.events = s.events ++ events) (hubs : next.authorizedHubs = s.authorizedHubs)
    (silent : ∀ event ∈ events, event.stakeChange ≠ some (.stakePenalized, relayManager))
    (spared : Unpenalized relayManager relayHub penalties s) :
    Unpenalized relayManager relayHub penalties next := by
  refine ⟨?_, fun hub other => by rw [hubs]; exact spared.alone hub other⟩
  have none : penaltiesOf relayManager events = [] :=
    List.filter_eq_nil_iff.mpr fun event member => by simpa using silent event member
  rw [logged, penaltiesOf_append, spared.penalties, none, List.append_nil]

theorem unpenalized_removalTime (relayHub : Address) (penalties : List Event) (s next : State)
    (event : Event) (manager hub : Address) (removalTime : ℕ) (logged : next.events = s.events ++ [event])
    (hubs : next.authorizedHubs = (s.setRemovalTime manager hub removalTime).authorizedHubs)
    (silent : event.stakeChange = none) (trusted : manager = relayManager → hub = relayHub)
    (spared : Unpenalized relayManager relayHub penalties s) :
    Unpenalized relayManager relayHub penalties next := by
  refine ⟨?_, fun other apart => ?_⟩
  · rw [logged, penaltiesOf_append, spared.penalties, penaltiesOf, List.filter_singleton]
    simp [silent]
  · have kept := spared.alone other apart
    rw [hubs]
    by_cases own : relayManager = manager
    · subst own
      have elsewhere : other ≠ hub := fun same => apart (same.trans (trusted rfl))
      simpa [State.setRemovalTime, Function.update_of_ne elsewhere] using kept
    · simpa [State.setRemovalTime, Function.update_of_ne own] using kept

theorem unpenalized_authorized (relayHub hub : Address) (penalties : List Event) (s : State)
    (spared : Unpenalized relayManager relayHub penalties s)
    (authorized : (s.authorizedHubs relayManager hub).removalTime = uint256Max) : hub = relayHub := by
  by_contra other
  rw [spared.alone hub other] at authorized
  exact absurd authorized (by decide)

theorem execute_unpenalized (this relayHub : Address) (penalties : List Event) (env : Env) (sender : Address)
    (call : Call) (s next : State) (trusting : Trusting relayManager relayHub sender s call)
    (other : ∀ beneficiary amount, call = .penalizeRelayManager relayManager beneficiary amount → sender ≠ relayHub)
    (taken : execute this env sender call s = .ok next) (spared : Unpenalized relayManager relayHub penalties s) :
    Unpenalized relayManager relayHub penalties next := by
  have written : ∀ (target : Address) (info : StakeInfo) (event : Event), Writes s next target info event →
      event.stakeChange ≠ some (.stakePenalized, relayManager) → Unpenalized relayManager relayHub penalties next := by
    intro target info event writes silent
    apply unpenalized_written relayManager relayHub penalties s next [event] writes.logged writes.hubs _ spared
    intro other member
    rwa [List.mem_singleton.mp member]
  have hubs := unpenalized_removalTime relayManager relayHub penalties s next
  cases execute_told this env sender call s next taken with
  | administered _ events about logged stakes unmoved =>
      apply unpenalized_written relayManager relayHub penalties s next events logged unmoved _ spared
      rcases about with rfl | ⟨account, rfl | rfl⟩ <;> simp [Event.stakeChange]
  | authorizedByOwner target hub owner same =>
      subst same
      refine hubs _ target hub uint256Max rfl rfl rfl ?_ spared
      rintro rfl
      exact trusting rfl owner
  | authorizedByManager hub same =>
      subst same
      exact hubs _ sender hub uint256Max rfl rfl rfl trusting spared
  | unauthorized _ target hub removed =>
      simp only [unauthorizeHub, bind_ok, require_ok, Except.ok.injEq] at removed
      obtain ⟨_, authorized, removalTime, _, rfl⟩ := removed
      refine hubs _ target hub removalTime rfl rfl rfl ?_ spared
      rintro rfl
      exact unpenalized_authorized target relayHub hub penalties s spared authorized
  | owned owner info writes kept => exact written _ info _ writes (by simp [Event.stakeChange])
  | staked token target owner unstakeDelay amount stake info writes kept =>
      exact written target info _ writes (by simp [Event.stakeChange])
  | unlocked target info writes => exact written target info _ writes (by simp [Event.stakeChange])
  | withdrawn target token amount info writes scheduled settled =>
      exact written target info _ writes (by simp [Event.stakeChange])
  | penalized target beneficiary token amount reward info writes kept authorized =>
      apply written target info _ writes
      intro penalized
      obtain rfl : target = relayManager := congrArg Prod.snd (Option.some.inj penalized)
      exact authorized (spared.alone sender (other beneficiary amount rfl))
  | abandoned target info writes kept => exact written target info _ writes (by simp [Event.stakeChange])
  | escheated target token amount info writes settled =>
      exact written target info _ writes (by simp [Event.stakeChange])
  | keptAlive target info writes kept => exact written target info _ writes (by simp [Event.stakeChange])

end OpenGsn.StakeManager
