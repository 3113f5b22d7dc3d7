import OpenGsn.Relay.PenalizerService
import OpenGsn.Runs
import Mathlib.Data.List.Nodup

/-! Which penalizations are kept, and which are revealed. -/

namespace OpenGsn.Relay.PenalizerService

def OnlyOwnRemoved (s : PenalizerService) : Prop := ∀ removal ∈ s.removals, removal.2 = removal.1

instance (s : PenalizerService) : Decidable (OnlyOwnRemoved s) :=
  inferInstanceAs (Decidable (∀ removal ∈ s.removals, _))

/-- Every penalization is scheduled until its reveal is broadcast, which happens once. -/
structure Kept (s : PenalizerService) : Prop where
  listed : ∀ penalization < s.objects.length, penalization ∈ s.scheduledPenalizations ∨ penalization ∈ s.revealed
  once : s.revealed.Nodup
  own : OnlyOwnRemoved s

def revealing (s : PenalizerService) (handler : ℕ) : Option ℕ :=
  match s.handlers handler with
  | .broadcasting penalization _ => some penalization
  | _ => none

def taken (s : PenalizerService) : ServiceEvent → Option ℕ
  | .blockNumber handler (some currentBlockNumber) =>
      match s.handlers handler with
      | .counting => (s.readyPenalizations currentBlockNumber).head?
      | _ => none
  | .broadcast handler true =>
      match s.handlers handler with
      | .broadcasting _ rest => rest.head?
      | _ => none
  | _ => none

def TakesNone (s : PenalizerService) (event : ServiceEvent) : Prop := s.taken event = none

/-- No other handler has taken it out before. -/
def TakesListed (s : PenalizerService) (event : ServiceEvent) : Prop :=
  ∀ penalization ∈ s.taken event, penalization ∈ s.scheduledPenalizations

instance (s : PenalizerService) (event : ServiceEvent) : Decidable (s.TakesListed event) :=
  inferInstanceAs (Decidable (∀ penalization ∈ s.taken event, _))

def Succeeds (s : PenalizerService) : ServiceEvent → Prop
  | .broadcast handler success => s.revealing handler ≠ none → success = true
  | _ => True

instance (s : PenalizerService) (event : ServiceEvent) : Decidable (s.Succeeds event) := by
  unfold Succeeds
  split <;> infer_instance

/-! As long as nothing is taken out -/

structure Untouched (s : PenalizerService) : Prop where
  listed : s.scheduledPenalizations = List.range s.objects.length
  waiting : ∀ handler penalization rest, s.handlers handler ≠ .broadcasting penalization rest
  revealed : s.revealed = []
  removals : s.removals = []

theorem untouched_kept (s : PenalizerService) (untouched : Untouched s) : Kept s := by
  constructor
  · intro penalization made
    rw [untouched.listed]
    exact .inl (List.mem_range.mpr made)
  · rw [untouched.revealed]
    exact List.nodup_nil
  · intro removal member
    rw [untouched.removals] at member
    cases member

theorem untouched_setPhase (s : PenalizerService) (handler : ℕ) (phase : HandlerPhase)
    (quiet : ∀ penalization rest, phase ≠ .broadcasting penalization rest) (untouched : Untouched s) :
    Untouched (s.setPhase handler phase) := by
  refine ⟨untouched.listed, fun other => ?_, untouched.revealed, untouched.removals⟩
  by_cases own : other = handler
  · subst own
    simpa only [setPhase, Function.update_self] using quiet
  · simpa only [setPhase, Function.update_of_ne own] using untouched.waiting other

theorem untouched_schedule (s : PenalizerService) (type : PenalizationTypes) (commitHash : Solidity.Uint256)
    (methodArgs : List Solidity.Bytes) (untouched : Untouched s) :
    Untouched (s.commitAndScheduleReveal type commitHash methodArgs) := by
  refine ⟨?_, untouched.waiting, untouched.revealed, untouched.removals⟩
  simp only [commitAndScheduleReveal, untouched.listed, List.length_append, List.length_singleton,
    List.range_succ]

theorem untouched_tick (s : PenalizerService) (handler : ℕ) (untouched : Untouched s) :
    Untouched (s.next (.tick handler)) := by
  simp only [next]
  split
  · unfold intervalHandler
    split
    · exact untouched
    · split
      · exact untouched_setPhase s handler .counting (fun _ _ => nofun) untouched
      · exact untouched_setPhase s handler (.querying _) (fun _ _ => nofun) untouched
  · exact untouched

theorem untouched_confirmAll (s : PenalizerService) (commitments : List CommitAdded) (unconfirmed : List ℕ)
    (untouched : Untouched s) : Untouched (s.confirmAll commitments unconfirmed) := by
  refine ⟨?_, untouched.waiting, untouched.revealed, untouched.removals⟩
  simp only [confirmAll, List.length_mapIdx, untouched.listed]

theorem untouched_next (s : PenalizerService) (event : ServiceEvent) (untouched : Untouched s)
    (quiet : s.TakesNone event) : Untouched (s.next event) := by
  cases event with
  | tick handler => exact untouched_tick s handler untouched
  | schedule type commitHash methodArgs => exact untouched_schedule s type commitHash methodArgs untouched
  | commitments handler answer =>
      simp only [next]
      split
      · exact untouched_setPhase _ handler .counting (fun _ _ => nofun) (untouched_confirmAll s _ _ untouched)
      · exact untouched_setPhase s handler .idle (fun _ _ => nofun) untouched
      · exact untouched
  | blockNumber handler answer =>
      simp only [next]
      split
      next currentBlockNumber counting =>
        simp only [TakesNone, taken, counting, List.head?_eq_none_iff] at quiet
        rw [quiet]
        exact untouched_setPhase s handler .idle (fun _ _ => nofun) untouched
      next => exact untouched_setPhase s handler .idle (fun _ _ => nofun) untouched
      next => exact untouched
  | broadcast handler success =>
      simp only [next]
      split
      next penalization rest running => exact absurd running (untouched.waiting handler penalization rest)
      next penalization rest running => exact absurd running (untouched.waiting handler penalization rest)
      next => exact untouched

/-- What is taken out is neither listed nor revealed until its broadcast comes back. -/
theorem taken_not_kept (s : PenalizerService) (event : ServiceEvent) (penalization : ℕ)
    (untouched : Untouched s) (takes : s.taken event = some penalization) : ¬ Kept (s.next event) := by
  intro kept
  cases event with
  | tick handler => cases takes
  | schedule type commitHash methodArgs => cases takes
  | commitments handler answer => cases takes
  | blockNumber handler answer =>
      cases answer with
      | none => cases takes
      | some currentBlockNumber =>
          cases running : s.handlers handler with
          | counting =>
              simp only [taken, running] at takes
              obtain ⟨rest, ready⟩ := List.head?_eq_some_iff.mp takes
              have listed : penalization ∈ s.scheduledPenalizations := by
                apply List.mem_of_mem_filter
                rw [← readyPenalizations, ready]
                exact List.mem_cons_self
              have made : penalization < s.objects.length := by
                rwa [untouched.listed, List.mem_range] at listed
              have result : s.next (.blockNumber handler (some currentBlockNumber)) =
                  s.advance handler (penalization :: rest) := by
                simp only [next, running, ready]
              rw [result] at kept
              rcases kept.listed penalization made with stays | done
              · simp only [advance, spliced, if_pos listed] at stays
                rw [untouched.listed] at stays
                exact List.nodup_range.not_mem_erase stays
              · simp only [advance, untouched.revealed] at done
                cases done
          | _ =>
              simp only [taken, running] at takes
              cases takes
  | broadcast handler success =>
      cases success with
      | false => cases takes
      | true =>
          cases running : s.handlers handler with
          | broadcasting other rest => exact untouched.waiting handler other rest running
          | _ =>
              simp only [taken, running] at takes
              cases takes

theorem always_kept_iff (events : List ServiceEvent) (s : PenalizerService) (untouched : Untouched s) :
    Runs.Always next Kept events s ↔ Runs.Along next TakesNone events s := by
  induction events generalizing s with
  | nil => exact iff_of_true (untouched_kept s untouched) trivial
  | cons event rest ih =>
      cases takes : s.taken event with
      | none =>
          have later := ih (s.next event) (untouched_next s event untouched takes)
          constructor
          · intro always
            exact ⟨takes, later.mp always.2⟩
          · intro along
            exact ⟨untouched_kept s untouched, later.mpr along.2⟩
      | some penalization =>
          apply iff_of_false
          · intro always
            exact taken_not_kept s event penalization untouched takes (Runs.always_start _ _ rest _ always.2)
          · intro along
            rw [along.1] at takes
            cases takes

/-! As long as handlers take out what is listed -/

/-- A penalization is listed, or one handler reveals it, or it was revealed. -/
structure Orderly (s : PenalizerService) : Prop where
  known : ∀ penalization ∈ s.scheduledPenalizations, penalization < s.objects.length
  distinct : s.scheduledPenalizations.Nodup
  once : s.revealed.Nodup
  past : ∀ penalization ∈ s.revealed,
    penalization < s.objects.length ∧ penalization ∉ s.scheduledPenalizations
  busy : ∀ handler penalization, s.revealing handler = some penalization →
    penalization < s.objects.length ∧ penalization ∉ s.scheduledPenalizations ∧ penalization ∉ s.revealed
  alone : ∀ handler other penalization, s.revealing handler = some penalization →
    s.revealing other = some penalization → handler = other
  own : OnlyOwnRemoved s

def NoneLost (s : PenalizerService) : Prop :=
  ∀ penalization < s.objects.length, penalization ∈ s.scheduledPenalizations ∨ penalization ∈ s.revealed ∨
    ∃ handler, s.revealing handler = some penalization

theorem revealing_setPhase (s : PenalizerService) (handler other : ℕ) (phase : HandlerPhase)
    (quiet : ∀ penalization rest, phase ≠ .broadcasting penalization rest) :
    (s.setPhase handler phase).revealing other = if other = handler then none else s.revealing other := by
  by_cases own : other = handler
  · subst own
    rw [if_pos rfl]
    cases phase with
    | broadcasting penalization rest => exact absurd rfl (quiet penalization rest)
    | _ => simp only [revealing, setPhase, Function.update_self]
  · rw [if_neg own]
    simp only [revealing, setPhase, Function.update_of_ne own]

theorem orderly_setPhase (s : PenalizerService) (handler : ℕ) (phase : HandlerPhase)
    (quiet : ∀ penalization rest, phase ≠ .broadcasting penalization rest) (orderly : Orderly s) :
    Orderly (s.setPhase handler phase) := by
  have earlier : ∀ other penalization, (s.setPhase handler phase).revealing other = some penalization →
      s.revealing other = some penalization := by
    intro other penalization
    rw [revealing_setPhase s handler other phase quiet]
    split
    · exact nofun
    · exact id
  exact ⟨orderly.known, orderly.distinct, orderly.once, orderly.past,
    fun other penalization running => orderly.busy other penalization (earlier other penalization running),
    fun first second penalization one two =>
      orderly.alone first second penalization (earlier first _ one) (earlier second _ two), orderly.own⟩

theorem orderly_schedule (s : PenalizerService) (type : PenalizationTypes) (commitHash : Solidity.Uint256)
    (methodArgs : List Solidity.Bytes) (orderly : Orderly s) :
    Orderly (s.commitAndScheduleReveal type commitHash methodArgs) := by
  have longer : (s.commitAndScheduleReveal type commitHash methodArgs).objects.length = s.objects.length + 1 :=
    List.length_append ..
  have listed : ∀ penalization,
      penalization ∈ (s.commitAndScheduleReveal type commitHash methodArgs).scheduledPenalizations ↔
        penalization ∈ s.scheduledPenalizations ∨ penalization = s.objects.length := by
    intro penalization
    simp [commitAndScheduleReveal]
  have fresh : s.objects.length ∉ s.scheduledPenalizations :=
    fun member => Nat.lt_irrefl _ (orderly.known _ member)
  constructor
  · intro penalization member
    rcases (listed penalization).mp member with old | rfl
    · have made := orderly.known penalization old
      omega
    · omega
  · exact List.Nodup.append orderly.distinct (List.nodup_singleton _) (by simpa using fresh)
  · exact orderly.once
  · intro penalization done
    obtain ⟨made, absent⟩ := orderly.past penalization done
    refine ⟨by omega, fun member => ?_⟩
    rcases (listed penalization).mp member with old | rfl
    · exact absent old
    · exact Nat.lt_irrefl _ made
  · intro handler penalization running
    obtain ⟨made, absent, unrevealed⟩ := orderly.busy handler penalization running
    refine ⟨by omega, fun member => ?_, unrevealed⟩
    rcases (listed penalization).mp member with old | rfl
    · exact absent old
    · exact Nat.lt_irrefl _ made
  · exact orderly.alone
  · exact orderly.own

theorem orderly_confirmAll (s : PenalizerService) (commitments : List CommitAdded) (unconfirmed : List ℕ)
    (orderly : Orderly s) : Orderly (s.confirmAll commitments unconfirmed) := by
  have same : (s.confirmAll commitments unconfirmed).objects.length = s.objects.length := List.length_mapIdx
  refine ⟨?_, orderly.distinct, orderly.once, ?_, ?_, orderly.alone, orderly.own⟩
  · rw [same]
    exact orderly.known
  · rw [same]
    exact orderly.past
  · rw [same]
    exact orderly.busy

theorem orderly_advance (s : PenalizerService) (handler : ℕ) (ready : List ℕ) (orderly : Orderly s)
    (free : s.revealing handler = none)
    (listed : ∀ penalization ∈ ready.head?, penalization ∈ s.scheduledPenalizations) :
    Orderly (s.advance handler ready) := by
  cases ready with
  | nil => exact orderly_setPhase s handler .idle (fun _ _ => nofun) orderly
  | cons penalization rest =>
      have present : penalization ∈ s.scheduledPenalizations := listed penalization rfl
      have left : ∀ other, other ∈ (s.advance handler (penalization :: rest)).scheduledPenalizations ↔
          other ≠ penalization ∧ other ∈ s.scheduledPenalizations := by
        intro other
        simp only [advance, spliced, if_pos present]
        exact orderly.distinct.mem_erase_iff
      have phases : ∀ other, (s.advance handler (penalization :: rest)).revealing other =
          if other = handler then some penalization else s.revealing other := by
        intro other
        by_cases own : other = handler
        · subst own
          simp only [revealing, advance, Function.update_self, if_true]
        · simp only [revealing, advance, Function.update_of_ne own, if_neg own]
      have unrevealed : penalization ∉ s.revealed := fun done => (orderly.past penalization done).2 present
      constructor
      · intro other member
        exact orderly.known other ((left other).mp member).2
      · simp only [advance, spliced, if_pos present]
        exact orderly.distinct.erase penalization
      · exact orderly.once
      · intro other done
        obtain ⟨made, absent⟩ := orderly.past other done
        exact ⟨made, fun member => absent ((left other).mp member).2⟩
      · intro other taken running
        rw [phases] at running
        split at running
        · cases running
          exact ⟨orderly.known penalization present, fun member => ((left penalization).mp member).1 rfl, unrevealed⟩
        · obtain ⟨made, absent, fresh⟩ := orderly.busy other taken running
          exact ⟨made, fun member => absent ((left taken).mp member).2, fresh⟩
      · intro first second taken one two
        rw [phases] at one two
        split at one
        next =>
          split at two
          next => omega
          next =>
            cases one
            exact absurd present (orderly.busy second penalization two).2.1
        next =>
          split at two
          next =>
            cases two
            exact absurd present (orderly.busy first penalization one).2.1
          next => exact orderly.alone first second taken one two
      · intro removal member
        simp only [advance, splicedOut, if_pos present, Option.map_some, Option.toList_some,
          List.mem_append, List.mem_singleton] at member
        rcases member with earlier | rfl
        · exact orderly.own removal earlier
        · rfl

theorem orderly_reveal (s : PenalizerService) (handler penalization : ℕ) (orderly : Orderly s)
    (running : s.revealing handler = some penalization) : Orderly (s.reveal handler penalization) := by
  obtain ⟨made, absent, fresh⟩ := orderly.busy handler penalization running
  have phases : ∀ other, (s.reveal handler penalization).revealing other =
      if other = handler then none else s.revealing other :=
    fun other => revealing_setPhase s handler other .idle (fun _ _ => nofun)
  constructor
  · exact orderly.known
  · exact orderly.distinct
  · exact List.Nodup.append orderly.once (List.nodup_singleton _) (by simpa using fresh)
  · intro other done
    rcases List.mem_append.mp done with earlier | new
    · exact orderly.past other earlier
    · rw [List.mem_singleton.mp new]
      exact ⟨made, absent⟩
  · intro other taken still
    rw [phases] at still
    split at still
    next => cases still
    next apart =>
      obtain ⟨known, unlisted, unrevealed⟩ := orderly.busy other taken still
      refine ⟨known, unlisted, fun done => ?_⟩
      rcases List.mem_append.mp done with earlier | new
      · exact unrevealed earlier
      · rw [List.mem_singleton.mp new] at still
        exact apart (orderly.alone other handler penalization still running)
  · intro first second taken one two
    rw [phases] at one two
    split at one
    next => cases one
    next =>
      split at two
      next => cases two
      next => exact orderly.alone first second taken one two
  · exact orderly.own

theorem revealing_broadcasting (s : PenalizerService) (handler penalization : ℕ) (rest : List ℕ)
    (running : s.handlers handler = .broadcasting penalization rest) :
    s.revealing handler = some penalization := by
  simp only [revealing, running]

theorem reveal_free (s : PenalizerService) (handler penalization : ℕ) :
    (s.reveal handler penalization).revealing handler = none :=
  (revealing_setPhase s handler handler .idle (fun _ _ => nofun)).trans (if_pos rfl)

theorem orderly_next (s : PenalizerService) (event : ServiceEvent) (orderly : Orderly s)
    (listed : s.TakesListed event) : Orderly (s.next event) := by
  cases event with
  | tick handler =>
      simp only [next]
      split
      · unfold intervalHandler
        split
        · exact orderly
        · split
          · exact orderly_setPhase s handler .counting (fun _ _ => nofun) orderly
          · exact orderly_setPhase s handler (.querying _) (fun _ _ => nofun) orderly
      · exact orderly
  | schedule type commitHash methodArgs => exact orderly_schedule s type commitHash methodArgs orderly
  | commitments handler answer =>
      simp only [next]
      split
      · exact orderly_setPhase _ handler .counting (fun _ _ => nofun) (orderly_confirmAll s _ _ orderly)
      · exact orderly_setPhase s handler .idle (fun _ _ => nofun) orderly
      · exact orderly
  | blockNumber handler answer =>
      simp only [next]
      split
      next currentBlockNumber counting =>
        simp only [TakesListed, taken, counting] at listed
        exact orderly_advance s handler _ orderly (by simp only [revealing, counting]) listed
      next => exact orderly_setPhase s handler .idle (fun _ _ => nofun) orderly
      next => exact orderly
  | broadcast handler success =>
      simp only [next]
      split
      next penalization rest running =>
        simp only [TakesListed, taken, running] at listed
        have done := orderly_reveal s handler penalization orderly
          (revealing_broadcasting s handler penalization rest running)
        exact orderly_advance _ handler rest done (reveal_free s handler penalization) listed
      next => exact orderly_setPhase s handler .idle (fun _ _ => nofun) orderly
      next => exact orderly

/-! Nothing is lost -/

theorem noneLost_setPhase (s : PenalizerService) (handler : ℕ) (phase : HandlerPhase)
    (quiet : ∀ penalization rest, phase ≠ .broadcasting penalization rest)
    (free : s.revealing handler = none) (complete : NoneLost s) : NoneLost (s.setPhase handler phase) := by
  intro penalization made
  rcases complete penalization made with listed | revealed | ⟨other, running⟩
  · exact .inl listed
  · exact .inr (.inl revealed)
  · refine .inr (.inr ⟨other, ?_⟩)
    rw [revealing_setPhase s handler other phase quiet, if_neg]
    · exact running
    · rintro rfl
      rw [free] at running
      cases running

theorem noneLost_advance (s : PenalizerService) (handler : ℕ) (ready : List ℕ)
    (free : s.revealing handler = none)
    (listed : ∀ penalization ∈ ready.head?, penalization ∈ s.scheduledPenalizations)
    (complete : NoneLost s) : NoneLost (s.advance handler ready) := by
  cases ready with
  | nil => exact noneLost_setPhase s handler .idle (fun _ _ => nofun) free complete
  | cons penalization rest =>
      have present : penalization ∈ s.scheduledPenalizations := listed penalization rfl
      intro other made
      by_cases same : other = penalization
      · subst same
        exact .inr (.inr ⟨handler, by simp only [revealing, advance, Function.update_self]⟩)
      · rcases complete other made with stays | revealed | ⟨holder, running⟩
        · left
          simp only [advance, spliced, if_pos present]
          exact (List.mem_erase_of_ne same).mpr stays
        · exact .inr (.inl revealed)
        · have apart : holder ≠ handler := by
            rintro rfl
            rw [free] at running
            cases running
          refine .inr (.inr ⟨holder, ?_⟩)
          simpa only [revealing, advance, Function.update_of_ne apart] using running

theorem noneLost_reveal (s : PenalizerService) (handler penalization : ℕ) (complete : NoneLost s)
    (running : s.revealing handler = some penalization) : NoneLost (s.reveal handler penalization) := by
  intro other made
  rcases complete other made with listed | revealed | ⟨holder, taken⟩
  · exact .inl listed
  · exact .inr (.inl (List.mem_append_left _ revealed))
  · by_cases own : holder = handler
    · subst own
      rw [running] at taken
      cases taken
      exact .inr (.inl (List.mem_append_right _ List.mem_cons_self))
    · refine .inr (.inr ⟨holder, ?_⟩)
      exact (revealing_setPhase s handler holder .idle (fun _ _ => nofun)).trans ((if_neg own).trans taken)

theorem noneLost_next (s : PenalizerService) (event : ServiceEvent) (complete : NoneLost s)
    (listed : s.TakesListed event) (succeeds : s.Succeeds event) : NoneLost (s.next event) := by
  cases event with
  | tick handler =>
      simp only [next]
      split
      next idle =>
        have free : s.revealing handler = none := by simp only [revealing, idle]
        unfold intervalHandler
        split
        · exact complete
        · split
          · exact noneLost_setPhase s handler .counting (fun _ _ => nofun) free complete
          · exact noneLost_setPhase s handler (.querying _) (fun _ _ => nofun) free complete
      next => exact complete
  | schedule type commitHash methodArgs =>
      intro penalization made
      have longer : (s.commitAndScheduleReveal type commitHash methodArgs).objects.length =
          s.objects.length + 1 := List.length_append ..
      by_cases old : penalization < s.objects.length
      · rcases complete penalization old with stays | others
        · exact .inl (List.mem_append_left _ stays)
        · exact .inr others
      · have new : penalization = s.objects.length := by
          simp only [next] at made
          omega
        exact .inl (List.mem_append_right _ (List.mem_singleton.mpr new))
  | commitments handler answer =>
      simp only [next]
      split
      next unconfirmed commitments querying =>
        have same : NoneLost (s.confirmAll commitments unconfirmed) := by
          intro penalization made
          rw [confirmAll, List.length_mapIdx] at made
          exact complete penalization made
        exact noneLost_setPhase _ handler .counting (fun _ _ => nofun)
          (by simp only [revealing, confirmAll, querying]) same
      next unconfirmed querying =>
        exact noneLost_setPhase s handler .idle (fun _ _ => nofun) (by simp only [revealing, querying]) complete
      next => exact complete
  | blockNumber handler answer =>
      simp only [next]
      split
      next currentBlockNumber counting =>
        simp only [TakesListed, taken, counting] at listed
        exact noneLost_advance s handler _ (by simp only [revealing, counting]) listed complete
      next counting =>
        exact noneLost_setPhase s handler .idle (fun _ _ => nofun) (by simp only [revealing, counting]) complete
      next => exact complete
  | broadcast handler success =>
      cases running : s.handlers handler with
      | broadcasting penalization rest =>
          have busy := revealing_broadcasting s handler penalization rest running
          have sent : success = true := succeeds (by simp only [busy, ne_eq, reduceCtorEq, not_false_eq_true])
          subst sent
          simp only [TakesListed, taken, running] at listed
          simp only [next, running]
          have done := noneLost_reveal s handler penalization complete busy
          exact noneLost_advance _ handler rest (reveal_free s handler penalization) listed done
      | idle => simpa only [next, running] using complete
      | querying unconfirmed => simpa only [next, running] using complete
      | counting => simpa only [next, running] using complete

theorem failure_loses (s : PenalizerService) (handler : ℕ) (orderly : Orderly s)
    (busy : s.revealing handler ≠ none) : ¬ NoneLost (s.next (.broadcast handler false)) := by
  intro complete
  cases running : s.handlers handler with
  | broadcasting penalization rest =>
      have mine := revealing_broadcasting s handler penalization rest running
      obtain ⟨made, absent, unrevealed⟩ := orderly.busy handler penalization mine
      have result : s.next (.broadcast handler false) = s.setPhase handler .idle := by
        simp only [next, running]
      rw [result] at complete
      rcases complete penalization made with listed | revealed | ⟨other, taken⟩
      · exact absent listed
      · exact unrevealed revealed
      · rw [revealing_setPhase s handler other .idle (fun _ _ => nofun)] at taken
        split at taken
        next => cases taken
        next apart => exact apart (orderly.alone other handler penalization taken mine)
  | _ =>
      apply busy
      simp only [revealing, running]

theorem always_noneLost_iff (events : List ServiceEvent) (s : PenalizerService) (orderly : Orderly s)
    (complete : NoneLost s) (listed : Runs.Along next TakesListed events s) :
    Runs.Always next NoneLost events s ↔ Runs.Along next Succeeds events s := by
  induction events generalizing s with
  | nil => exact iff_of_true complete trivial
  | cons event rest ih =>
      have ordered := orderly_next s event orderly listed.1
      constructor
      · intro always
        have kept := Runs.always_start next NoneLost rest (s.next event) always.2
        refine ⟨?_, (ih (s.next event) ordered kept listed.2).mp always.2⟩
        cases event with
        | broadcast handler success =>
            intro busy
            cases success with
            | true => rfl
            | false => exact absurd kept (failure_loses s handler orderly busy)
        | _ => trivial
      · intro along
        have kept := noneLost_next s event complete listed.1 along.1
        exact ⟨complete, (ih (s.next event) ordered kept listed.2).mpr along.2⟩

/-! Runs -/

theorem initial_untouched : Untouched initial := ⟨rfl, fun _ _ _ => nofun, rfl, rfl⟩

theorem initial_orderly : Orderly initial :=
  ⟨nofun, List.nodup_nil, List.nodup_nil, nofun, nofun, nofun, nofun⟩

/-- The schedule keeps every penalization exactly in the runs that take none out. If none is taken out
twice, reveals are not doubled and no other penalization is removed; and then none is lost exactly
if no broadcast fails. -/
theorem penalizations_kept_iff (events : List ServiceEvent) :
    (Runs.Always next Kept events initial ↔ Runs.Along next TakesNone events initial) ∧
    (Runs.Along next TakesListed events initial →
      ((events.foldl next initial).revealed.Nodup ∧ OnlyOwnRemoved (events.foldl next initial)) ∧
      (Runs.Always next NoneLost events initial ↔ Runs.Along next Succeeds events initial)) := by
  refine ⟨always_kept_iff events initial initial_untouched, fun listed => ?_⟩
  have orderly := Runs.along_invariant next TakesListed Orderly orderly_next events initial initial_orderly listed
  constructor
  · exact ⟨orderly.once, orderly.own⟩
  · exact always_noneLost_iff events initial initial_orderly nofun listed

def twoTicks : List ServiceEvent :=
  [.schedule .illegalTransaction 7 [], .schedule .repeatedNonce 8 [], .tick 0,
    .commitments 0 (some [⟨7, 10⟩, ⟨8, 12⟩]), .blockNumber 0 (some 10), .tick 1, .blockNumber 1 (some 12),
    .schedule .illegalTransaction 9 [], .broadcast 1 true, .broadcast 0 true]

theorem penalizations_kept_sample :
    (twoTicks.foldl next initial).revealed = [1, 0] ∧ Runs.Always next NoneLost twoTicks initial :=
  ⟨by decide, ((penalizations_kept_iff twoTicks).2 (by decide)).2.mpr (by decide)⟩

/-- The first tick finds two penalizations ready and the third one not. While it broadcasts the first,
another tick takes out the second, which the first tick then reveals once more; it removes the third
one, which nobody reveals. -/
def overlapping : List ServiceEvent :=
  [.schedule .illegalTransaction 6 [], .schedule .illegalTransaction 7 [], .tick 0,
    .commitments 0 (some [⟨6, 10⟩, ⟨7, 10⟩]), .schedule .repeatedNonce 8 [], .blockNumber 0 (some 10),
    .tick 1, .commitments 1 (some []), .blockNumber 1 (some 10), .broadcast 0 true, .broadcast 1 true,
    .broadcast 0 true]

theorem overlapping_ticks_double :
    (overlapping.foldl next initial).revealed = [0, 1, 1] ∧
    (overlapping.foldl next initial).removals = [(0, 0), (1, 1), (1, 2)] ∧
    (overlapping.foldl next initial).scheduledPenalizations = [] ∧
    ¬ Runs.Always next Kept overlapping initial := by
  refine ⟨by decide, by decide, by decide, fun kept => ?_⟩
  have quiet := (always_kept_iff overlapping initial initial_untouched).mp kept
  have takes : ((overlapping.take 5).foldl next initial).taken (.blockNumber 0 (some 10)) = none :=
    quiet.2.2.2.2.2.1
  exact absurd takes (by decide)

end OpenGsn.Relay.PenalizerService
