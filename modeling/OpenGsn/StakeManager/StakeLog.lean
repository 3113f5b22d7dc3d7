import OpenGsn.StakeManager.Steps

/-! What the log tells about the stake of a relay manager. -/

namespace OpenGsn.StakeManager

open Solidity Runs

inductive StakeChange : Type
  | stakeAdded
  | stakeUnlocked
  | stakeWithdrawn
  | stakePenalized
  deriving DecidableEq, Repr

def Event.stakeChange : Event → Option (StakeChange × Address)
  | .stakeAdded manager _ _ _ _ => some (.stakeAdded, manager)
  | .stakeUnlocked manager _ _ => some (.stakeUnlocked, manager)
  | .stakeWithdrawn manager _ _ _ => some (.stakeWithdrawn, manager)
  | .stakePenalized manager _ _ _ => some (.stakePenalized, manager)
  | _ => none

def Ever (change : StakeChange) (relayManager : Address) (events : List Event) : Prop :=
  ∃ event ∈ events, event.stakeChange = some (change, relayManager)

instance decidableEver (change : StakeChange) (relayManager : Address) (events : List Event) :
    Decidable (Ever change relayManager events) :=
  inferInstanceAs (Decidable (∃ event ∈ events, event.stakeChange = some (change, relayManager)))

theorem ever_append (change : StakeChange) (relayManager : Address) (first second : List Event) :
    Ever change relayManager (first ++ second) ↔
      Ever change relayManager first ∨ Ever change relayManager second := by
  simp only [Ever, List.mem_append, or_and_right, exists_or]

variable (relayManager : Address)

/-- The time from which on the stake can be withdrawn, as far as one can tell. -/
def Event.withdrawTime (known : ℕ) : Event → ℕ
  | .stakeUnlocked manager _ withdrawTime => if manager = relayManager then withdrawTime else known
  | .stakeWithdrawn manager _ _ _ => if manager = relayManager then 0 else known
  | .abandonedRelayManagerStakeEscheated manager _ _ _ => if manager = relayManager then 0 else known
  | _ => known

def withdrawTimeAfter (known : ℕ) (events : List Event) : ℕ :=
  events.foldl (Event.withdrawTime relayManager) known

theorem withdrawTimeAfter_append (known : ℕ) (first second : List Event) :
    withdrawTimeAfter relayManager known (first ++ second) =
      withdrawTimeAfter relayManager (withdrawTimeAfter relayManager known first) second :=
  List.foldl_append

theorem unlocked_of_withdrawTimeAfter (known : ℕ) (events : List Event)
    (pending : withdrawTimeAfter relayManager known events ≠ 0) :
    known ≠ 0 ∨ Ever .stakeUnlocked relayManager events := by
  induction events generalizing known with
  | nil => exact .inl pending
  | cons event rest ih =>
      have one : event.withdrawTime relayManager known ≠ 0 →
          known ≠ 0 ∨ event.stakeChange = some (.stakeUnlocked, relayManager) := by
        intro told
        cases event with
        | stakeUnlocked manager owner withdrawTime =>
            by_cases same : manager = relayManager
            · exact .inr (by rw [Event.stakeChange, same])
            · exact .inl (by simpa [Event.withdrawTime, same] using told)
        | stakeWithdrawn manager owner token amount =>
            by_cases same : manager = relayManager <;> simp_all [Event.withdrawTime]
        | abandonedRelayManagerStakeEscheated manager owner token amount =>
            by_cases same : manager = relayManager <;> simp_all [Event.withdrawTime]
        | _ => exact .inl told
      cases ih _ pending with
      | inl told =>
          exact (one told).imp_right fun unlocks => ⟨event, List.mem_cons_self, unlocks⟩
      | inr later =>
          obtain ⟨unlock, member, unlocks⟩ := later
          exact .inr ⟨unlock, List.mem_cons_of_mem event member, unlocks⟩

/-- The log grows by these events, and they tell what becomes of the time of withdrawal. -/
structure Recorded (s next : State) (events : List Event) : Prop where
  logged : next.events = s.events ++ events
  withdrawTime : (next.stakes relayManager).withdrawTime =
    withdrawTimeAfter relayManager (s.stakes relayManager).withdrawTime events
  scheduled : Ever .stakeWithdrawn relayManager events → (s.stakes relayManager).withdrawTime ≠ 0

theorem recorded_administered (s next : State) (events : List Event) (logged : next.events = s.events ++ events)
    (silent : ∀ event ∈ events, event.stakeChange = none ∧
      ∀ known, event.withdrawTime relayManager known = known)
    (stakes : next.stakes = s.stakes) : Recorded relayManager s next events := by
  have unmoved : ∀ known, withdrawTimeAfter relayManager known events = known := by
    clear logged
    induction events with
    | nil => exact fun _ => rfl
    | cons event rest ih =>
        intro known
        have first := (silent event List.mem_cons_self).2 known
        have others := ih (fun other member => silent other (List.mem_cons_of_mem event member)) known
        rw [withdrawTimeAfter, List.foldl_cons, first]
        exact others
  refine ⟨logged, by rw [stakes, unmoved], ?_⟩
  rintro ⟨event, member, withdraws⟩
  rw [(silent event member).1] at withdraws
  cases withdraws

theorem recorded_written (s next : State) (event : Event) (target : Address) (info : StakeInfo)
    (writes : Writes s next target info event)
    (told : info.withdrawTime = event.withdrawTime target (s.stakes target).withdrawTime)
    (others : relayManager ≠ target → ∀ known, event.withdrawTime relayManager known = known)
    (scheduled : event.stakeChange = some (.stakeWithdrawn, relayManager) →
      (s.stakes relayManager).withdrawTime ≠ 0) : Recorded relayManager s next [event] := by
  refine ⟨writes.logged, ?_, ?_⟩
  · rw [writes.stakes]
    by_cases same : relayManager = target
    · subst same
      rw [Function.update_self]
      exact told
    · rw [Function.update_of_ne same]
      exact (others same _).symm
  · rintro ⟨other, member, withdraws⟩
    rw [List.mem_singleton.mp member] at withdraws
    exact scheduled withdraws

theorem execute_recorded (this : Address) (env : Env) (sender : Address) (call : Call) (s next : State)
    (taken : execute this env sender call s = .ok next) : ∃ events, Recorded relayManager s next events := by
  have written := recorded_written relayManager s next
  have hubChanged : ∀ event, next.events = s.events ++ [event] → next.stakes = s.stakes →
      event.stakeChange = none → (∀ known, event.withdrawTime relayManager known = known) →
        ∃ events, Recorded relayManager s next events := by
    intro event logged stakes silent unmoved
    refine ⟨[event], recorded_administered relayManager s next [event] logged ?_ stakes⟩
    intro other member
    rw [List.mem_singleton.mp member]
    exact ⟨silent, unmoved⟩
  cases execute_told this env sender call s next taken with
  | administered _ events about logged stakes hubs =>
      refine ⟨events, recorded_administered relayManager s next events logged ?_ stakes⟩
      rcases about with rfl | ⟨account, rfl | rfl⟩ <;> simp [Event.stakeChange, Event.withdrawTime]
  | authorizedByOwner target relayHub owner same =>
      subst same
      exact hubChanged _ rfl rfl rfl fun _ => rfl
  | authorizedByManager relayHub same =>
      subst same
      exact hubChanged _ rfl rfl rfl fun _ => rfl
  | unauthorized _ target relayHub removed =>
      simp only [unauthorizeHub, bind_ok, Except.ok.injEq] at removed
      obtain ⟨_, _, _, _, rfl⟩ := removed
      exact hubChanged _ rfl rfl rfl fun _ => rfl
  | owned owner info writes kept =>
      exact ⟨_, written _ _ info writes kept (fun _ _ => rfl) (by simp [Event.stakeChange])⟩
  | staked token target owner unstakeDelay amount stake info writes kept =>
      exact ⟨_, written _ target info writes kept (fun _ _ => rfl) (by simp [Event.stakeChange])⟩
  | unlocked target info writes =>
      exact ⟨_, written _ target info writes (if_pos rfl).symm (fun other _ => if_neg (Ne.symm other))
        (by simp [Event.stakeChange])⟩
  | withdrawn target token amount info writes scheduled settled =>
      refine ⟨_, written _ target info writes (settled.trans (if_pos rfl).symm)
        (fun other _ => if_neg (Ne.symm other)) ?_⟩
      intro withdraws
      obtain rfl : target = relayManager := congrArg Prod.snd (Option.some.inj withdraws)
      exact scheduled
  | penalized target beneficiary token amount reward info writes kept authorized =>
      exact ⟨_, written _ target info writes kept (fun _ _ => rfl) (by simp [Event.stakeChange])⟩
  | abandoned target info writes kept =>
      exact ⟨_, written _ target info writes kept (fun _ _ => rfl) (by simp [Event.stakeChange])⟩
  | escheated target token amount info writes settled =>
      exact ⟨_, written _ target info writes (settled.trans (if_pos rfl).symm)
        (fun other _ => if_neg (Ne.symm other)) (by simp [Event.stakeChange])⟩
  | keptAlive target info writes kept =>
      exact ⟨_, written _ target info writes kept (fun _ _ => rfl) (by simp [Event.stakeChange])⟩

theorem step_recorded (this : Address) (input : Step) (s next : State) (taken : step this input s = .ok next) :
    ∃ events, Recorded relayManager s next events := by
  cases input with
  | call env sender call =>
      simp only [step, bind_ok] at taken
      obtain ⟨_, _, executed⟩ := taken
      exact execute_recorded relayManager this env sender call s next executed
  | tokenActivity env token ledger =>
      simp only [step, bind_ok, Except.ok.injEq] at taken
      obtain ⟨_, _, rfl⟩ := taken
      exact ⟨[], recorded_administered relayManager _ _ [] (List.append_nil _).symm (by simp) rfl⟩

theorem run_events (this : Address) (steps : List Step) (s : State) :
    ∃ events, (after (step this) steps s).events = s.events ++ events := by
  refine after_kept (step this) (fun first second => ∃ events, second.events = first.events ++ events)
    (fun _ => ⟨[], (List.append_nil _).symm⟩) ?_ ?_ steps s
  · rintro first second third ⟨early, one⟩ ⟨late, two⟩
    exact ⟨early ++ late, by rw [two, one, List.append_assoc]⟩
  · intro input state next taken
    obtain ⟨events, recorded⟩ := step_recorded 0 this input state next taken
    exact ⟨events, recorded.logged⟩

structure Replayed (s : State) : Prop where
  withdrawTime : (s.stakes relayManager).withdrawTime = withdrawTimeAfter relayManager 0 s.events
  unlocked : Ever .stakeWithdrawn relayManager s.events → Ever .stakeUnlocked relayManager s.events

theorem step_replayed (this : Address) (input : Step) (s next : State) (replayed : Replayed relayManager s)
    (taken : step this input s = .ok next) : Replayed relayManager next := by
  obtain ⟨events, recorded⟩ := step_recorded relayManager this input s next taken
  constructor
  · rw [recorded.withdrawTime, recorded.logged, withdrawTimeAfter_append, replayed.withdrawTime]
  · rw [recorded.logged, ever_append, ever_append]
    rintro (before | now)
    · exact .inl (replayed.unlocked before)
    · have pending := recorded.scheduled now
      rw [replayed.withdrawTime] at pending
      exact .inl ((unlocked_of_withdrawTimeAfter relayManager 0 s.events pending).resolve_left fun fresh => fresh rfl)

theorem run_replayed (this : Address) (steps : List Step) (s : State) (start : Replayed relayManager s) :
    Replayed relayManager (after (step this) steps s) :=
  after_invariant (step this) (Replayed relayManager)
    (fun input state next replayed taken => step_replayed relayManager this input state next replayed taken)
    steps s start

theorem deploy_replayed (sender : Address) (maxUnstakeDelay abandonmentDelay escheatmentDelay : ℕ)
    (burnAddress devAddress : Address) (tokens : Tokens) (start : State)
    (deployed : deploy sender maxUnstakeDelay abandonmentDelay escheatmentDelay burnAddress devAddress tokens =
      .ok start) : Replayed relayManager start := by
  simp only [deploy, bind_ok, Except.ok.injEq] at deployed
  obtain ⟨_, _, rfl⟩ := deployed
  refine ⟨rfl, ?_⟩
  simp [Ever, Event.stakeChange]

end OpenGsn.StakeManager
