import OpenGsn.StakeManager.Steps
import Mathlib.Data.List.Induction

/-! When a relay manager is marked abandoned, and what keeps it alive. -/

namespace OpenGsn.StakeManager

open Solidity Runs

variable (this : Address)

def succeeds (call : Call) (input : Step) (s : State) : Bool :=
  match input with
  | .call _ _ other => other = call ∧ (step this input s).toBool
  | .tokenActivity _ _ _ => false

def times (call : Call) : List Step → State → List ℕ
  | [], _ => []
  | input :: rest, s =>
      (if succeeds this call input s then [input.time] else []) ++ times call rest (advance (step this) s input)

theorem times_append (call : Call) (front back : List Step) (s : State) :
    times this call (front ++ back) s =
      times this call front s ++ times this call back (after (step this) front s) := by
  induction front generalizing s with
  | nil => rfl
  | cons input rest ih => simp [times, ih]

theorem succeeds_false (call : Call) (input : Step) (s : State) (error : Revert)
    (failed : step this input s = .error error) : succeeds this call input s = false := by
  cases input with
  | call env sender other => simp [succeeds, failed, Except.toBool]
  | tokenActivity env token ledger => rfl

theorem succeeds_call (call other : Call) (env : Env) (sender : Address) (s next : State)
    (taken : step this (.call env sender other) s = .ok next) :
    succeeds this call (.call env sender other) s = decide (other = call) := by
  simp [succeeds, taken, Except.toBool]

variable (relayManager : Address)

inductive Watched (s : State) (input : Step) (next : State) : Prop
  | marked (taken : succeeds this (.markRelayAbandoned relayManager) input s = true)
      (others : succeeds this (.updateRelayKeepaliveTime relayManager) input s = false)
      (silent : (s.stakes relayManager).keepaliveTime + s.abandonedRelayServerConfig.abandonmentDelay < input.time)
      (abandonedTime : (next.stakes relayManager).abandonedTime = input.time)
      (keepaliveTime : (next.stakes relayManager).keepaliveTime = (s.stakes relayManager).keepaliveTime) :
      Watched s input next
  | keptAlive (taken : succeeds this (.updateRelayKeepaliveTime relayManager) input s = true)
      (others : succeeds this (.markRelayAbandoned relayManager) input s = false)
      (abandonedTime : (next.stakes relayManager).abandonedTime = 0)
      (keepaliveTime : (next.stakes relayManager).keepaliveTime = input.time) : Watched s input next
  | unmoved (unmarked : succeeds this (.markRelayAbandoned relayManager) input s = false)
      (others : succeeds this (.updateRelayKeepaliveTime relayManager) input s = false)
      (abandonedTime : (next.stakes relayManager).abandonedTime = (s.stakes relayManager).abandonedTime)
      (keepaliveTime : (next.stakes relayManager).keepaliveTime = (s.stakes relayManager).keepaliveTime) :
      Watched s input next

theorem execute_watched (env : Env) (sender : Address) (call : Call) (s next : State)
    (taken : step this (.call env sender call) s = .ok next) :
    Watched this relayManager s (.call env sender call) next := by
  have executed : execute this env sender call s = .ok next := by
    simp only [step, bind_ok] at taken
    obtain ⟨_, _, executed⟩ := taken
    exact executed
  have marks := succeeds_call this (.markRelayAbandoned relayManager) call env sender s next taken
  have keeps := succeeds_call this (.updateRelayKeepaliveTime relayManager) call env sender s next taken
  have moved := execute_info this env sender call s next executed relayManager
  split at moved
  next about =>
    generalize entered : s.stakes relayManager = info at moved
    generalize left : next.stakes relayManager = final at moved
    cases moved with
    | abandoned target info funded unmarked silent =>
        obtain rfl : target = relayManager := Option.some.inj about
        refine .marked (marks.trans (decide_eq_true rfl)) (keeps.trans (decide_eq_false Call.noConfusion)) ?_ ?_ ?_
        · rw [entered]
          exact silent
        · rw [left]
          rfl
        · rw [left, entered]
    | keptAlive target info =>
        obtain rfl : target = relayManager := Option.some.inj about
        refine .keptAlive (keeps.trans (decide_eq_true rfl)) (marks.trans (decide_eq_false Call.noConfusion)) ?_ ?_
        · rw [left]
        · rw [left]
          rfl
    | _ =>
        refine .unmoved (marks.trans (decide_eq_false Call.noConfusion))
          (keeps.trans (decide_eq_false Call.noConfusion)) ?_ ?_
        · rw [left, entered]
        · rw [left, entered]
  next elsewhere =>
    refine .unmoved (marks.trans (decide_eq_false ?_)) (keeps.trans (decide_eq_false ?_)) ?_ ?_
    · rintro rfl
      exact elsewhere rfl
    · rintro rfl
      exact elsewhere rfl
    · rw [moved]
    · rw [moved]

theorem advance_watched (s : State) (input : Step) :
    Watched this relayManager s input (advance (step this) s input) := by
  unfold advance
  cases taken : step this input s with
  | error error =>
      exact .unmoved (succeeds_false this _ input s error taken) (succeeds_false this _ input s error taken) rfl rfl
  | ok next =>
      cases input with
      | call env sender call => exact execute_watched this relayManager env sender call s next taken
      | tokenActivity env token ledger =>
          simp only [step, bind_ok, Except.ok.injEq] at taken
          obtain ⟨_, _, rfl⟩ := taken
          exact .unmoved rfl rfl rfl rfl

theorem run_delays (steps : List Step) (s : State) :
    (after (step this) steps s).abandonedRelayServerConfig.abandonmentDelay =
      s.abandonedRelayServerConfig.abandonmentDelay ∧
    (after (step this) steps s).abandonedRelayServerConfig.escheatmentDelay =
      s.abandonedRelayServerConfig.escheatmentDelay := by
  apply after_kept (step this) (fun first second =>
    second.abandonedRelayServerConfig.abandonmentDelay = first.abandonedRelayServerConfig.abandonmentDelay ∧
    second.abandonedRelayServerConfig.escheatmentDelay = first.abandonedRelayServerConfig.escheatmentDelay)
  · exact fun _ => ⟨rfl, rfl⟩
  · exact fun _ _ _ early late => ⟨late.1.trans early.1, late.2.trans early.2⟩
  · intro input before next taken
    cases input with
    | call env sender call =>
        simp only [step, bind_ok] at taken
        obtain ⟨_, _, executed⟩ := taken
        have frame := execute_frame this env sender call before next executed
        exact ⟨frame.abandonmentDelay, frame.escheatmentDelay⟩
    | tokenActivity env token ledger =>
        simp only [step, bind_ok, Except.ok.injEq] at taken
        obtain ⟨_, _, rfl⟩ := taken
        exact ⟨rfl, rfl⟩

theorem after_snoc (front : List Step) (input : Step) (s : State) :
    after (step this) (front ++ [input]) s = advance (step this) (after (step this) front s) input :=
  after_append (step this) front [input] s

theorem times_snoc (call : Call) (front : List Step) (input : Step) (s : State) :
    times this call (front ++ [input]) s = times this call front s ++
      if succeeds this call input (after (step this) front s) then [input.time] else [] := by
  rw [times_append]
  simp [times]

/-- Marked in the run, and not kept alive since. -/
def MarkedSince (start : State) (steps : List Step) : Prop :=
  ∃ front mark back, steps = front ++ mark :: back ∧
    succeeds this (.markRelayAbandoned relayManager) mark (after (step this) front start) = true ∧
    times this (.updateRelayKeepaliveTime relayManager) back (after (step this) (front ++ [mark]) start) = []

theorem markedSince_snoc (start : State) (front : List Step) (input : Step)
    (others : succeeds this (.updateRelayKeepaliveTime relayManager) input (after (step this) front start) = false)
    (marked : MarkedSince this relayManager start front) :
    MarkedSince this relayManager start (front ++ [input]) := by
  obtain ⟨before, mark, back, rfl, taken, quiet⟩ := marked
  refine ⟨before, mark, back ++ [input], by simp, taken, ?_⟩
  have reached : after (step this) back (after (step this) (before ++ [mark]) start) =
      after (step this) (before ++ mark :: back) start := by
    rw [← after_append, List.append_assoc]
    rfl
  rw [times_snoc, quiet, reached, others]
  rfl

/-- What the times of an entry tell about the run that led to it. -/
structure Trail (start : State) (steps : List Step) (now : ℕ) (info : StakeInfo) : Prop where
  present : info.keepaliveTime ≤ now
  latest : ∀ time ∈ times this (.updateRelayKeepaliveTime relayManager) steps start, time ≤ info.keepaliveTime
  silent : info.abandonedTime ≠ 0 →
    info.keepaliveTime + start.abandonedRelayServerConfig.abandonmentDelay < info.abandonedTime
  past : info.abandonedTime ≤ now
  marked : info.abandonedTime ≠ 0 → MarkedSince this relayManager start steps

theorem run_trail (start : State) (begun : ℕ) (fresh : start.stakes relayManager = default) (steps : List Step)
    (timed : Timed Step.time begun steps) :
    Trail this relayManager start steps (latest Step.time begun steps)
      ((after (step this) steps start).stakes relayManager) := by
  induction steps using List.reverseRecOn with
  | nil =>
      rw [after_nil, fresh]
      exact ⟨Nat.zero_le _, by simp [times], fun marked => absurd rfl marked, Nat.zero_le _,
        fun marked => absurd rfl marked⟩
  | append_singleton front input ih =>
      obtain ⟨earlier, later⟩ := (timed_append Step.time begun front [input]).mp timed
      have trail := ih earlier
      have moved : latest Step.time begun front ≤ input.time := later.1
      have now : latest Step.time begun (front ++ [input]) = input.time := by
        rw [latest_append]
        rfl
      rw [after_snoc, now]
      cases advance_watched this relayManager (after (step this) front start) input with
      | marked taken others silent abandonedTime keepaliveTime =>
          rw [(run_delays this front start).1] at silent
          constructor
          · rw [keepaliveTime]
            exact trail.present.trans moved
          · rw [times_snoc, others, keepaliveTime]
            simpa using trail.latest
          · rw [keepaliveTime, abandonedTime]
            exact fun _ => silent
          · exact abandonedTime.le
          · exact fun _ => ⟨front, input, [], rfl, taken, rfl⟩
      | keptAlive taken others abandonedTime keepaliveTime =>
          constructor
          · exact keepaliveTime.le
          · intro time member
            rw [times_snoc, taken, if_pos rfl] at member
            rw [keepaliveTime]
            rcases List.mem_append.mp member with before | last
            · exact ((trail.latest time before).trans trail.present).trans moved
            · exact (List.mem_singleton.mp last).le
          · exact fun marked => absurd abandonedTime marked
          · rw [abandonedTime]
            exact Nat.zero_le _
          · exact fun marked => absurd abandonedTime marked
      | unmoved unmarked others abandonedTime keepaliveTime =>
          constructor
          · rw [keepaliveTime]
            exact trail.present.trans moved
          · rw [times_snoc, others, keepaliveTime]
            simpa using trail.latest
          · rw [keepaliveTime, abandonedTime]
            exact trail.silent
          · rw [abandonedTime]
            exact trail.past.trans moved
          · rw [abandonedTime]
            exact fun marked => markedSince_snoc this relayManager start front input others (trail.marked marked)

theorem unmarked_run (s : State) (steps : List Step) (unmarked : (s.stakes relayManager).abandonedTime = 0)
    (none : times this (.markRelayAbandoned relayManager) steps s = []) :
    ((after (step this) steps s).stakes relayManager).abandonedTime = 0 := by
  induction steps generalizing s with
  | nil => exact unmarked
  | cons input rest ih =>
      simp only [times, List.append_eq_nil_iff] at none
      apply ih _ _ none.2
      cases advance_watched this relayManager s input with
      | marked taken => simp [taken] at none
      | keptAlive _ _ abandonedTime => exact abandonedTime
      | unmoved _ _ abandonedTime => exact abandonedTime.trans unmarked

theorem succeeds_keepalive (s : State) (input : Step)
    (taken : succeeds this (.updateRelayKeepaliveTime relayManager) input s = true) :
    ((advance (step this) s input).stakes relayManager).abandonedTime = 0 := by
  cases advance_watched this relayManager s input with
  | marked _ others => exact absurd (others.symm.trans taken) (by decide)
  | keptAlive _ _ abandonedTime => exact abandonedTime
  | unmoved _ others => exact absurd (others.symm.trans taken) (by decide)

end OpenGsn.StakeManager
