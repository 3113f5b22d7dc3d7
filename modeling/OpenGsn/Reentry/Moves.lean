import OpenGsn.Reentry.Code

/-! Everything that foreign code can do to a system of re-entrant functions.

`Moves` is what happens while foreign code has control, `Replies` how it reacts to the
successive calls of one function. Both are data, so a run is a computation, and a theorem
about all of them is a theorem about every adversary. -/

namespace OpenGsn.Reentry

mutual
inductive Moves (ι ρ ε : Type) : Type
  | stop
  | enter (input : ι) (replies : Replies ι ρ ε) (next : Moves ι ρ ε)
  | undone (inner next : Moves ι ρ ε)
inductive Replies (ι ρ ε : Type) : Type
  | none
  | reply (moves : Moves ι ρ ε) (answer : Except ε ρ) (rest : Replies ι ρ ε)
end

variable {η ι σ κ ρ ε α : Type}

/-- Every function of the system keeps `kept`, also at its outgoing calls, as long as the
foreign code does. -/
structure Guarantee (entry : ι → σ → Code σ κ ρ ε α) (kept : σ → σ → Prop) : Prop where
  reflexive : ∀ state, kept state state
  chained : ∀ first second third, kept first second → kept second third → kept first third
  keeps : ∀ input state,
    (entry input state).Meets kept (kept state) (fun final _ => kept state final)

theorem guarantee_invariant (entry : ι → σ → Code σ κ ρ ε α) (holds : σ → Prop)
    (keeps : ∀ input state, holds state →
      (entry input state).Meets (fun first second => holds first → holds second) holds
        (fun final _ => holds final)) :
    Guarantee entry (fun first second => holds first → holds second) where
  reflexive := fun _ same => same
  chained := fun _ _ _ first second start => second (first start)
  keeps := by
    intro input state
    by_cases start : holds state
    · simpa [start] using keeps input state start
    · exact Code.meets_trivial _ (fun _ absent => absurd absent start)
        (fun _ _ absent => absurd absent start)

/-- Every function of the system ends with `kept`, though it may break it while it waits for an outgoing
call, and shows the foreign code `visible` states only. -/
structure Settles (entry : ι → σ → Code σ κ ρ ε α) (kept visible : σ → σ → Prop) : Prop where
  reflexive : ∀ state, kept state state
  chained : ∀ first second third, kept first second → kept second third → kept first third
  shown : ∀ first second, kept first second → visible first second
  onward : ∀ first second third, visible first second → visible second third → visible first third
  keeps : ∀ input state, (entry input state).Meets kept (visible state) (fun final _ => kept state final)

/-- A relation that holds at the outgoing calls too. -/
theorem Guarantee.settles {entry : ι → σ → Code σ κ ρ ε α} {kept : σ → σ → Prop} (guarantee : Guarantee entry kept) :
    Settles entry kept kept where
  reflexive := guarantee.reflexive
  chained := guarantee.chained
  shown := fun _ _ moved => moved
  onward := guarantee.chained
  keeps := guarantee.keeps

/-- Foreign code that is trusted with more, where it only sees states in which that is no more. -/
theorem Code.meets_rely {rely wider : σ → σ → Prop} {visit : σ → Prop} {post : σ → α → Prop}
    (code : Code σ κ ρ ε α) (met : code.Meets rely visit post)
    (relied : ∀ inside after, visit inside → wider inside after → rely inside after) :
    code.Meets wider visit post := by
  induction code with
  | done state value => exact met
  | revert error => trivial
  | call target before inside resume ih =>
      exact ⟨met.1, fun after value moved => ih after (.ok value) (met.2.1 after value (relied _ _ met.1 moved)),
        fun error => ih before (.error error) (met.2.2 error)⟩

/-- Relations that are kept as long as a condition holds, which they keep themselves. -/
theorem settles_while (entry : ι → σ → Code σ κ ρ ε α) (holds : σ → Prop) (kept visible : σ → σ → Prop)
    (reflexive : ∀ state, kept state state)
    (chained : ∀ first second third, kept first second → kept second third → kept first third)
    (shown : ∀ first second, kept first second → visible first second)
    (onward : ∀ first second third, visible first second → visible second third → visible first third)
    (remains : ∀ first second, visible first second → holds first → holds second)
    (keeps : ∀ input state, holds state →
      (entry input state).Meets kept (visible state) (fun final _ => kept state final)) :
    Settles entry (fun first second => holds first → kept first second)
      (fun first second => holds first → visible first second) where
  reflexive := fun state _ => reflexive state
  chained := fun first second third early late start =>
    chained first second third (early start) (late (remains first second (shown _ _ (early start)) start))
  shown := fun first second moved start => shown first second (moved start)
  onward := fun first second third early late start =>
    onward first second third (early start) (late (remains first second (early start) start))
  keeps := by
    intro input state
    by_cases start : holds state
    · have met : (entry input state).Meets (fun first second => holds first → kept first second)
          (visible state) (fun final _ => kept state final) :=
        Code.meets_rely _ (keeps input state start) fun inside after visited moved =>
          moved (remains state inside visited start)
      exact Code.meets_weaken _ met (fun _ visited _ => visited) fun _ _ ended _ => ended
    · exact Code.meets_trivial _ (fun _ holding => absurd holding start) fun _ _ holding => absurd holding start

variable [Inhabited ε]

mutual
def Moves.final (entry : ι → σ → Code σ κ ρ ε α) : Moves ι ρ ε → σ → σ
  | .stop, state => state
  | .enter input replies next, state =>
      next.final entry ((entry input state).commit state (replies.conducts entry))
  -- a frame of the foreign code's own that reverts
  | .undone _ next, state => next.final entry state
def Moves.seen (entry : ι → σ → Code σ κ ρ ε α) : Moves ι ρ ε → σ → List σ
  | .stop, state => [state]
  | .enter input replies next, state =>
      state :: ((entry input state).seen (replies.conducts entry) ++
        next.seen entry ((entry input state).commit state (replies.conducts entry)))
  | .undone inner next, state => inner.seen entry state ++ next.seen entry state
def Replies.conducts (entry : ι → σ → Code σ κ ρ ε α) : Replies ι ρ ε → List (Conduct σ ρ ε)
  | .none => []
  | .reply moves answer rest =>
      ⟨moves.final entry, moves.seen entry, answer⟩ :: rest.conducts entry
end

section Settled

variable {entry : ι → σ → Code σ κ ρ ε α} {kept visible : σ → σ → Prop}

theorem commit_settled (settles : Settles entry kept visible) (input : ι) (state : σ)
    (conducts : List (Conduct σ ρ ε))
    (conform : ∀ conduct ∈ conducts, ∀ state, kept state (conduct.effect state)) :
    kept state ((entry input state).commit state conducts) := by
  unfold Code.commit
  cases returned : (entry input state).run conducts with
  | ok result => exact Code.run_meets _ conducts (settles.keeps input state) conform _ result.2 returned
  | error error => exact settles.reflexive state

mutual
theorem moves_final_settled (settles : Settles entry kept visible) :
    ∀ (moves : Moves ι ρ ε) (state : σ), kept state (moves.final entry state)
  | .stop, state => settles.reflexive state
  | .enter input replies next, state => by
      have entered := commit_settled settles input state (replies.conducts entry) (replies_settled settles replies)
      exact settles.chained _ _ _ entered (moves_final_settled settles next _)
  | .undone _ next, state => moves_final_settled settles next state
theorem replies_settled (settles : Settles entry kept visible) :
    ∀ (replies : Replies ι ρ ε), ∀ conduct ∈ replies.conducts entry, ∀ state, kept state (conduct.effect state)
  | .none => by simp [Replies.conducts]
  | .reply moves answer rest => by
      intro conduct member state
      simp only [Replies.conducts, List.mem_cons] at member
      rcases member with rfl | member
      · exact moves_final_settled settles moves state
      · exact replies_settled settles rest conduct member state
end

mutual
theorem moves_seen_visible (settles : Settles entry kept visible) :
    ∀ (moves : Moves ι ρ ε) (state : σ), ∀ next ∈ moves.seen entry state, visible state next
  | .stop, state => by
      intro next member
      rw [List.mem_singleton.mp member]
      exact settles.shown _ _ (settles.reflexive state)
  | .enter input replies after, state => by
      intro next member
      have conform := replies_settled settles replies
      have entered := commit_settled settles input state (replies.conducts entry) conform
      simp only [Moves.seen, List.mem_cons, List.mem_append] at member
      rcases member with rfl | inside | later
      · exact settles.shown _ _ (settles.reflexive _)
      · refine Code.seen_meets (visible state) (entry input state) (replies.conducts entry)
          (settles.keeps input state) conform ?_ next inside
        intro conduct present atCall visited shown listed
        exact settles.onward _ _ _ visited (replies_seen_visible settles replies conduct present atCall shown listed)
      · exact settles.onward _ _ _ (settles.shown _ _ entered) (moves_seen_visible settles after _ next later)
  | .undone inner after, state => by
      intro next member
      simp only [Moves.seen, List.mem_append] at member
      rcases member with inside | later
      · exact moves_seen_visible settles inner state next inside
      · exact moves_seen_visible settles after state next later
theorem replies_seen_visible (settles : Settles entry kept visible) :
    ∀ (replies : Replies ι ρ ε), ∀ conduct ∈ replies.conducts entry,
      ∀ state, ∀ next ∈ conduct.seen state, visible state next
  | .none => by simp [Replies.conducts]
  | .reply moves answer rest => by
      intro conduct member state next shown
      simp only [Replies.conducts, List.mem_cons] at member
      rcases member with rfl | member
      · exact moves_seen_visible settles moves state next shown
      · exact replies_seen_visible settles rest conduct member state next shown
end

end Settled

section Rely

variable {entry : ι → σ → Code σ κ ρ ε α} {kept : σ → σ → Prop}

theorem moves_final_kept (guarantee : Guarantee entry kept) (moves : Moves ι ρ ε) (state : σ) :
    kept state (moves.final entry state) :=
  moves_final_settled guarantee.settles moves state

theorem replies_kept (guarantee : Guarantee entry kept) (replies : Replies ι ρ ε) :
    ∀ conduct ∈ replies.conducts entry, ∀ state, kept state (conduct.effect state) :=
  replies_settled guarantee.settles replies

theorem moves_seen_kept (guarantee : Guarantee entry kept) (moves : Moves ι ρ ε) (state : σ) :
    ∀ next ∈ moves.seen entry state, kept state next :=
  moves_seen_visible guarantee.settles moves state

end Rely

/-! Transactions, each in an environment of its own. -/

def historyFinal (entry : η → ι → σ → Code σ κ ρ ε α) : List (η × Moves ι ρ ε) → σ → σ
  | [], state => state
  | (env, moves) :: rest, state => historyFinal entry rest (moves.final (entry env) state)

def historySeen (entry : η → ι → σ → Code σ κ ρ ε α) : List (η × Moves ι ρ ε) → σ → List σ
  | [], state => [state]
  | (env, moves) :: rest, state =>
      moves.seen (entry env) state ++ historySeen entry rest (moves.final (entry env) state)

def Ordered (before : η → η → Prop) (now : η) : List (η × Moves ι ρ ε) → Prop
  | [] => True
  | (env, _) :: rest => before now env ∧ Ordered before env rest

def historyVisits (entry : η → ι → σ → Code σ κ ρ ε α) : List (η × Moves ι ρ ε) → σ → List (η × σ)
  | [], _ => []
  | (env, moves) :: rest, state =>
      (moves.seen (entry env) state).map (fun seen => (env, seen)) ++
        historyVisits entry rest (moves.final (entry env) state)

/-- An invariant that speaks of the environment, and keeps as the environment moves on. -/
theorem history_invariant (entry : η → ι → σ → Code σ κ ρ ε α) (before : η → η → Prop)
    (holds : η → σ → Prop)
    (aged : ∀ now later state, before now later → holds now state → holds later state)
    (guarantee : ∀ env, Guarantee (entry env) (fun state next => holds env state → holds env next))
    (history : List (η × Moves ι ρ ε)) (now : η) (state : σ)
    (ordered : Ordered before now history) (start : holds now state) :
    ∀ visit ∈ historyVisits entry history state, holds visit.1 visit.2 := by
  induction history generalizing now state with
  | nil => simp [historyVisits]
  | cons head rest ih =>
      obtain ⟨env, moves⟩ := head
      have opened := aged now env state ordered.1 start
      intro visit member
      rcases List.mem_append.mp member with inside | later
      · obtain ⟨seen, shown, rfl⟩ := List.mem_map.mp inside
        exact moves_seen_kept (guarantee env) moves state seen shown opened
      · have closed := moves_final_kept (guarantee env) moves state opened
        exact ih env _ ordered.2 closed visit later

theorem historyFinal_settled (entry : η → ι → σ → Code σ κ ρ ε α) (kept visible : σ → σ → Prop)
    (reflexive : ∀ state, kept state state) (history : List (η × Moves ι ρ ε)) (state : σ)
    (settles : ∀ turn ∈ history, Settles (entry turn.1) kept visible) :
    kept state (historyFinal entry history state) := by
  induction history generalizing state with
  | nil => exact reflexive state
  | cons head rest ih =>
      obtain ⟨env, moves⟩ := head
      have first := settles (env, moves) List.mem_cons_self
      exact first.chained _ _ _ (moves_final_settled first moves state)
        (ih _ fun turn later => settles turn (List.mem_cons_of_mem _ later))

theorem historySeen_visible (entry : η → ι → σ → Code σ κ ρ ε α) (kept visible : σ → σ → Prop)
    (reflexive : ∀ state, visible state state) (history : List (η × Moves ι ρ ε)) (state : σ)
    (settles : ∀ turn ∈ history, Settles (entry turn.1) kept visible) :
    ∀ next ∈ historySeen entry history state, visible state next := by
  induction history generalizing state with
  | nil =>
      intro next member
      rw [List.mem_singleton.mp member]
      exact reflexive state
  | cons head rest ih =>
      obtain ⟨env, moves⟩ := head
      have first := settles (env, moves) List.mem_cons_self
      intro next member
      rcases List.mem_append.mp member with inside | later
      · exact moves_seen_visible first moves state next inside
      · have ended := first.shown _ _ (moves_final_settled first moves state)
        exact first.onward _ _ _ ended (ih _ (fun turn after => settles turn (List.mem_cons_of_mem _ after)) next later)

theorem history_seen_kept (entry : η → ι → σ → Code σ κ ρ ε α) (kept : σ → σ → Prop)
    (reflexive : ∀ state, kept state state) (guarantee : ∀ env, Guarantee (entry env) kept)
    (history : List (η × Moves ι ρ ε)) (state : σ) :
    ∀ next ∈ historySeen entry history state, kept state next :=
  historySeen_visible entry kept kept reflexive history state fun turn _ => (guarantee turn.1).settles

theorem historyFinal_seen (entry : η → ι → σ → Code σ κ ρ ε α) (history : List (η × Moves ι ρ ε))
    (state : σ) : historyFinal entry history state ∈ historySeen entry history state := by
  induction history generalizing state with
  | nil => exact List.mem_singleton.mpr rfl
  | cons head rest ih => exact List.mem_append.mpr (.inr (ih _))

theorem moves_final_seen (entry : ι → σ → Code σ κ ρ ε α) :
    ∀ (moves : Moves ι ρ ε) (state : σ), moves.final entry state ∈ moves.seen entry state
  | .stop, _ => List.mem_singleton.mpr rfl
  | .enter _ _ next, _ =>
      List.mem_cons_of_mem _ (List.mem_append_right _ (moves_final_seen entry next _))
  | .undone _ next, state => List.mem_append_right _ (moves_final_seen entry next state)

theorem historyFinal_visited (entry : η → ι → σ → Code σ κ ρ ε α) (history : List (η × Moves ι ρ ε))
    (env : η) (moves : Moves ι ρ ε) (state : σ) :
    (env, historyFinal entry (history ++ [(env, moves)]) state) ∈
      historyVisits entry (history ++ [(env, moves)]) state := by
  induction history generalizing state with
  | nil =>
      apply List.mem_append_left
      exact List.mem_map.mpr ⟨_, moves_final_seen (entry env) moves state, rfl⟩
  | cons head rest ih => exact List.mem_append_right _ (ih _)

end OpenGsn.Reentry
