import OpenGsn.StakeManager.Steps

/-! What the log tells about a relay manager and a hub. -/

namespace OpenGsn.StakeManager

open Solidity

variable (relayManager relayHub : Address)

def Authorized (s : State) : Prop := (s.authorizedHubs relayManager relayHub).removalTime = uint256Max

/-- If the hub is authorized after the event, as far as one can tell. -/
def Event.authorizes (known : Bool) : Event → Bool
  | .hubAuthorized manager hub => if manager = relayManager ∧ hub = relayHub then true else known
  | .hubUnauthorized manager hub _ => if manager = relayManager ∧ hub = relayHub then false else known
  | _ => known

def Event.unlocks : Event → Bool
  | .stakeUnlocked manager _ _ => manager = relayManager
  | _ => false

def authorizedAfter (known : Bool) (events : List Event) : Bool :=
  events.foldl (Event.authorizes relayManager relayHub) known

theorem authorizes_mono (event : Event) (first second : Bool) (implied : first = true → second = true)
    (told : event.authorizes relayManager relayHub first = true) :
    event.authorizes relayManager relayHub second = true := by
  cases event with
  | hubAuthorized manager hub =>
      simp only [Event.authorizes] at told ⊢
      split at told
      next same => rw [if_pos same]
      next other =>
        rw [if_neg other]
        exact implied told
  | hubUnauthorized manager hub removalTime =>
      simp only [Event.authorizes] at told ⊢
      split at told
      next => cases told
      next other =>
        rw [if_neg other]
        exact implied told
  | _ => exact implied told

theorem authorizedAfter_mono (events : List Event) (first second : Bool) (implied : first = true → second = true)
    (after : authorizedAfter relayManager relayHub first events = true) :
    authorizedAfter relayManager relayHub second events = true := by
  induction events generalizing first second with
  | nil => exact implied after
  | cons event rest ih => exact ih _ _ (authorizes_mono relayManager relayHub event first second implied) after

theorem authorizedAfter_append (known : Bool) (first second : List Event) :
    authorizedAfter relayManager relayHub known (first ++ second) =
      authorizedAfter relayManager relayHub (authorizedAfter relayManager relayHub known first) second :=
  List.foldl_append

/-- The log tells of a change of the authorization, and of a stake that is unlocked. -/
structure Logged (s next : State) (events : List Event) : Prop where
  logged : next.events = s.events ++ events
  authorized : ∀ known, (known = true → Authorized relayManager relayHub s) →
    authorizedAfter relayManager relayHub known events = true → Authorized relayManager relayHub next
  withdrawTime : (next.stakes relayManager).withdrawTime = (s.stakes relayManager).withdrawTime ∨
    (next.stakes relayManager).withdrawTime = 0 ∨ ∃ event ∈ events, event.unlocks relayManager = true

theorem logged_silent (s next : State) (events : List Event) (logged : next.events = s.events ++ events)
    (silent : ∀ known, authorizedAfter relayManager relayHub known events = known)
    (hubs : next.authorizedHubs relayManager relayHub = s.authorizedHubs relayManager relayHub)
    (withdrawTime : (next.stakes relayManager).withdrawTime = (s.stakes relayManager).withdrawTime ∨
      (next.stakes relayManager).withdrawTime = 0 ∨ ∃ event ∈ events, event.unlocks relayManager = true) :
    Logged relayManager relayHub s next events := by
  refine ⟨logged, fun known authorized after => ?_, withdrawTime⟩
  rw [silent] at after
  unfold Authorized
  rw [hubs]
  exact authorized after

theorem logged_written (s next : State) (event : Event) (target : Address) (info : StakeInfo)
    (writes : Writes s next target info event)
    (silent : ∀ known, event.authorizes relayManager relayHub known = known)
    (withdrawTime : info.withdrawTime = (s.stakes target).withdrawTime ∨ info.withdrawTime = 0) :
    Logged relayManager relayHub s next [event] := by
  refine logged_silent _ _ _ _ _ writes.logged silent (by rw [writes.hubs]) ?_
  rw [writes.stakes]
  by_cases same : relayManager = target
  · subst same
    rw [Function.update_self]
    exact withdrawTime.imp_right .inl
  · exact .inl (by rw [Function.update_of_ne same])

theorem authorizeHub_logged (target hub : Address) (s : State) :
    Logged relayManager relayHub s (authorizeHub target hub s) [.hubAuthorized target hub] := by
  by_cases same : target = relayManager ∧ hub = relayHub
  · obtain ⟨rfl, rfl⟩ := same
    refine ⟨rfl, fun _ _ _ => ?_, .inl rfl⟩
    simp [Authorized, authorizeHub]
  · refine logged_silent _ _ _ _ _ rfl (fun known => if_neg same) ?_ (.inl rfl)
    by_cases manager : relayManager = target
    · subst manager
      have apart : relayHub ≠ hub := fun equal => same ⟨rfl, equal.symm⟩
      simp [authorizeHub, Function.update_of_ne apart]
    · simp [authorizeHub, Function.update_of_ne manager]

theorem unauthorizeHub_logged (env : Env) (target hub : Address) (s next : State)
    (taken : unauthorizeHub env target hub s = .ok next) :
    ∃ removalTime, Logged relayManager relayHub s next [.hubUnauthorized target hub removalTime] := by
  simp only [unauthorizeHub, bind_ok, checkedAdd_ok, Except.ok.injEq] at taken
  obtain ⟨_, _, removalTime, _, rfl⟩ := taken
  refine ⟨removalTime, ?_⟩
  by_cases same : target = relayManager ∧ hub = relayHub
  · refine ⟨rfl, fun known _ after => ?_, .inl rfl⟩
    have never : authorizedAfter relayManager relayHub known [.hubUnauthorized target hub removalTime] = false :=
      if_pos same
    rw [never] at after
    cases after
  · refine logged_silent _ _ _ _ _ rfl (fun known => if_neg same) ?_ (.inl rfl)
    by_cases manager : relayManager = target
    · subst manager
      have apart : relayHub ≠ hub := fun equal => same ⟨rfl, equal.symm⟩
      simp [Function.update_of_ne apart]
    · simp [Function.update_of_ne manager]

theorem unlocked_logged (s next : State) (sender target : Address) (info : StakeInfo)
    (writes : Writes s next target info (.stakeUnlocked target sender info.withdrawTime)) :
    Logged relayManager relayHub s next [.stakeUnlocked target sender info.withdrawTime] := by
  refine logged_silent _ _ _ _ _ writes.logged (fun _ => rfl) (by rw [writes.hubs]) ?_
  by_cases same : relayManager = target
  · exact .inr (.inr ⟨_, List.mem_singleton_self _, by simp [Event.unlocks, same]⟩)
  · exact .inl (by rw [writes.stakes, Function.update_of_ne same])

theorem execute_logged (this : Address) (env : Env) (sender : Address) (call : Call) (s next : State)
    (taken : execute this env sender call s = .ok next) :
    ∃ events, Logged relayManager relayHub s next events := by
  have written := logged_written relayManager relayHub s next
  cases execute_told this env sender call s next taken with
  | administered _ events about logged stakes hubs =>
      refine ⟨events, logged_silent _ _ _ _ _ logged (fun _ => ?_) (by rw [hubs]) (.inl (by rw [stakes]))⟩
      rcases about with rfl | ⟨account, rfl | rfl⟩ <;> rfl
  | authorizedByOwner target hub owner same => exact ⟨_, same ▸ authorizeHub_logged relayManager relayHub target hub s⟩
  | authorizedByManager hub same => exact ⟨_, same ▸ authorizeHub_logged relayManager relayHub sender hub s⟩
  | unauthorized _ target hub removed =>
      obtain ⟨_, logged⟩ := unauthorizeHub_logged relayManager relayHub env target hub s next removed
      exact ⟨_, logged⟩
  | owned owner info writes kept => exact ⟨_, written _ _ info writes (fun _ => rfl) (.inl kept)⟩
  | staked token target owner unstakeDelay amount stake info writes kept =>
      exact ⟨_, written _ target info writes (fun _ => rfl) (.inl kept)⟩
  | unlocked target info writes => exact ⟨_, unlocked_logged relayManager relayHub s next sender target info writes⟩
  | withdrawn target token amount info writes scheduled settled =>
      exact ⟨_, written _ target info writes (fun _ => rfl) (.inr settled)⟩
  | penalized target beneficiary token amount reward info writes kept authorized =>
      exact ⟨_, written _ target info writes (fun _ => rfl) (.inl kept)⟩
  | abandoned target info writes kept => exact ⟨_, written _ target info writes (fun _ => rfl) (.inl kept)⟩
  | escheated target token amount info writes settled =>
      exact ⟨_, written _ target info writes (fun _ => rfl) (.inr settled)⟩
  | keptAlive target info writes kept => exact ⟨_, written _ target info writes (fun _ => rfl) (.inl kept)⟩

theorem step_logged (this : Address) (input : Step) (s next : State) (taken : step this input s = .ok next) :
    ∃ events, Logged relayManager relayHub s next events := by
  cases input with
  | call env sender call =>
      simp only [step, bind_ok] at taken
      obtain ⟨_, _, executed⟩ := taken
      exact execute_logged relayManager relayHub this env sender call s next executed
  | tokenActivity env token ledger =>
      simp only [step, bind_ok, Except.ok.injEq] at taken
      obtain ⟨_, _, rfl⟩ := taken
      exact ⟨[], logged_silent _ _ _ _ _ (List.append_nil _).symm (fun _ => rfl) rfl (.inl rfl)⟩

end OpenGsn.StakeManager
