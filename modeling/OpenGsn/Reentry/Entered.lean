import OpenGsn.Reentry.Moves

/-! Conditions on the calls of a run, each in the state in which it is made.

A `Guarantee` speaks of every call. Here an invariant is kept by the calls that meet a condition, and so
by the runs in which all calls meet it. -/

namespace OpenGsn.Reentry

variable {η ι σ κ ρ ε α : Type} [Inhabited ε]

def Code.handed : Code σ κ ρ ε α → List (Conduct σ ρ ε) → List σ
  | .done _ _, _ => []
  | .revert _, _ => []
  | .call _ _ _ _, [] => []
  | .call _ before inside resume, conduct :: rest =>
      inside :: match conduct.answer with
        | .ok value => handed (resume (conduct.effect inside) (.ok value)) rest
        | .error error => handed (resume before (.error error)) rest

mutual
def Moves.entered (entry : ι → σ → Code σ κ ρ ε α) : Moves ι ρ ε → σ → List (ι × σ)
  | .stop, _ => []
  | .enter input replies next, state =>
      (input, state) :: (replies.entered entry ((entry input state).handed (replies.conducts entry)) ++
        next.entered entry ((entry input state).commit state (replies.conducts entry)))
  | .undone inner next, state => inner.entered entry state ++ next.entered entry state
/-- The calls made by the replies, when control is handed over in those states. -/
def Replies.entered (entry : ι → σ → Code σ κ ρ ε α) : Replies ι ρ ε → List σ → List (ι × σ)
  | .none, _ => []
  | .reply _ _ _, [] => []
  | .reply moves _ rest, state :: states => moves.entered entry state ++ rest.entered entry states
end

def historyEntered (entry : η → ι → σ → Code σ κ ρ ε α) : List (η × Moves ι ρ ε) → σ → List (ι × σ)
  | [], _ => []
  | (env, moves) :: rest, state =>
      moves.entered (entry env) state ++ historyEntered entry rest (moves.final (entry env) state)

variable {holds : σ → Prop}

/-- What a conduct keeps of the invariant where it gets control. -/
structure KeepsAt (holds : σ → Prop) (conduct : Conduct σ ρ ε) (state : σ) : Prop where
  effect : holds state → holds (conduct.effect state)
  seen : holds state → ∀ next ∈ conduct.seen state, holds next

namespace Code

theorem run_handed {post : σ → α → Prop} (code : Code σ κ ρ ε α) (conducts : List (Conduct σ ρ ε))
    (met : code.Meets (fun first second => holds first → holds second) holds post)
    (conform : ∀ turn ∈ conducts.zip (code.handed conducts), KeepsAt holds turn.1 turn.2)
    (state : σ) (value : α) (returned : code.run conducts = .ok (state, value)) : post state value := by
  induction code generalizing conducts with
  | done final result =>
      obtain ⟨rfl, rfl⟩ : final = state ∧ result = value := by simpa [run] using returned
      exact met
  | revert error => simp [run] at returned
  | call target before inside resume ih =>
      cases conducts with
      | nil => exact ih _ _ [] (met.2.2 default) (by simp) returned
      | cons conduct rest =>
          rw [handed, List.zip_cons_cons] at conform
          have here := conform (conduct, inside) List.mem_cons_self
          cases answered : conduct.answer with
          | ok reply =>
              rw [run, answered] at returned
              rw [answered] at conform
              exact ih _ _ rest (met.2.1 _ reply here.effect)
                (fun turn member => conform turn (List.mem_cons_of_mem _ member)) returned
          | error error =>
              rw [run, answered] at returned
              rw [answered] at conform
              exact ih _ _ rest (met.2.2 error)
                (fun turn member => conform turn (List.mem_cons_of_mem _ member)) returned

theorem seen_handed {post : σ → α → Prop} (code : Code σ κ ρ ε α) (conducts : List (Conduct σ ρ ε))
    (met : code.Meets (fun first second => holds first → holds second) holds post)
    (conform : ∀ turn ∈ conducts.zip (code.handed conducts), KeepsAt holds turn.1 turn.2)
    (state : σ) (member : state ∈ code.seen conducts) : holds state := by
  induction code generalizing conducts with
  | done final result => simp [seen] at member
  | revert error => simp [seen] at member
  | call target before inside resume ih =>
      cases conducts with
      | nil => exact ih _ _ [] (met.2.2 default) (by simp) member
      | cons conduct rest =>
          rw [handed, List.zip_cons_cons] at conform
          have here := conform (conduct, inside) List.mem_cons_self
          rw [seen] at member
          rcases List.mem_append.mp member with now | after
          · exact here.seen met.1 state now
          · cases answered : conduct.answer with
            | ok reply =>
                rw [answered] at after conform
                exact ih _ _ rest (met.2.1 _ reply here.effect)
                  (fun turn later => conform turn (List.mem_cons_of_mem _ later)) after
            | error error =>
                rw [answered] at after conform
                exact ih _ _ rest (met.2.2 error)
                  (fun turn later => conform turn (List.mem_cons_of_mem _ later)) after

end Code

section Allowed

variable {entry : ι → σ → Code σ κ ρ ε α} {allowed : ι → σ → Prop}

def KeepsAllowed (entry : ι → σ → Code σ κ ρ ε α) (allowed : ι → σ → Prop) (holds : σ → Prop) : Prop :=
  ∀ input state, allowed input state → holds state →
    (entry input state).Meets (fun first second => holds first → holds second) holds (fun final _ => holds final)

theorem commit_allowed (keeps : KeepsAllowed entry allowed holds) (input : ι) (state : σ)
    (conducts : List (Conduct σ ρ ε)) (permitted : allowed input state)
    (conform : ∀ turn ∈ conducts.zip ((entry input state).handed conducts), KeepsAt holds turn.1 turn.2)
    (start : holds state) : holds ((entry input state).commit state conducts) := by
  unfold Code.commit
  cases returned : (entry input state).run conducts with
  | ok result =>
      exact Code.run_handed _ conducts (keeps input state permitted start) conform _ result.2 returned
  | error error => exact start

mutual
theorem moves_final_allowed (keeps : KeepsAllowed entry allowed holds) :
    ∀ (moves : Moves ι ρ ε) (state : σ), (∀ turn ∈ moves.entered entry state, allowed turn.1 turn.2) →
      holds state → holds (moves.final entry state)
  | .stop, _, _, start => start
  | .enter input replies next, state, permitted, start => by
      rw [Moves.entered] at permitted
      have conform := replies_allowed keeps replies ((entry input state).handed (replies.conducts entry))
        fun turn member => permitted turn (List.mem_cons_of_mem _ (List.mem_append_left _ member))
      have entered := commit_allowed keeps input state (replies.conducts entry)
        (permitted (input, state) List.mem_cons_self) conform start
      exact moves_final_allowed keeps next _
        (fun turn member => permitted turn (List.mem_cons_of_mem _ (List.mem_append_right _ member))) entered
  | .undone _ next, state, permitted, start => by
      rw [Moves.entered] at permitted
      exact moves_final_allowed keeps next state (fun turn member => permitted turn (List.mem_append_right _ member))
        start
theorem moves_seen_allowed (keeps : KeepsAllowed entry allowed holds) :
    ∀ (moves : Moves ι ρ ε) (state : σ), (∀ turn ∈ moves.entered entry state, allowed turn.1 turn.2) →
      holds state → ∀ next ∈ moves.seen entry state, holds next
  | .stop, state, _, start => by
      intro next member
      rw [List.mem_singleton.mp member]
      exact start
  | .enter input replies after, state, permitted, start => by
      rw [Moves.entered] at permitted
      have conform := replies_allowed keeps replies ((entry input state).handed (replies.conducts entry))
        fun turn member => permitted turn (List.mem_cons_of_mem _ (List.mem_append_left _ member))
      have first := permitted (input, state) List.mem_cons_self
      have entered := commit_allowed keeps input state (replies.conducts entry) first conform start
      intro next member
      simp only [Moves.seen, List.mem_cons, List.mem_append] at member
      rcases member with rfl | inside | later
      · exact start
      · exact Code.seen_handed _ _ (keeps input state first start) conform next inside
      · exact moves_seen_allowed keeps after _
          (fun turn member => permitted turn (List.mem_cons_of_mem _ (List.mem_append_right _ member))) entered
          next later
  | .undone inner after, state, permitted, start => by
      rw [Moves.entered] at permitted
      intro next member
      simp only [Moves.seen, List.mem_append] at member
      rcases member with inside | later
      · exact moves_seen_allowed keeps inner state
          (fun turn member => permitted turn (List.mem_append_left _ member)) start next inside
      · exact moves_seen_allowed keeps after state
          (fun turn member => permitted turn (List.mem_append_right _ member)) start next later
theorem replies_allowed (keeps : KeepsAllowed entry allowed holds) :
    ∀ (replies : Replies ι ρ ε) (states : List σ),
      (∀ turn ∈ replies.entered entry states, allowed turn.1 turn.2) →
      ∀ turn ∈ (replies.conducts entry).zip states, KeepsAt holds turn.1 turn.2
  | .none, states, _ => by
      intro turn member
      simp [Replies.conducts] at member
  | .reply moves answer rest, [], _ => by
      intro turn member
      simp at member
  | .reply moves answer rest, state :: states, permitted => by
      rw [Replies.entered] at permitted
      intro turn member
      rw [Replies.conducts, List.zip_cons_cons] at member
      rcases List.mem_cons.mp member with rfl | later
      · have now : ∀ turn ∈ moves.entered entry state, allowed turn.1 turn.2 :=
          fun turn member => permitted turn (List.mem_append_left _ member)
        exact ⟨moves_final_allowed keeps moves state now, moves_seen_allowed keeps moves state now⟩
      · exact replies_allowed keeps rest states
          (fun turn member => permitted turn (List.mem_append_right _ member)) turn later
end

end Allowed

/-- The invariant holds wherever anyone has control, in a history whose calls are all allowed. -/
theorem history_allowed (entry : η → ι → σ → Code σ κ ρ ε α) (allowed : ι → σ → Prop)
    (keeps : ∀ env, KeepsAllowed (entry env) allowed holds) (history : List (η × Moves ι ρ ε)) (state : σ)
    (permitted : ∀ turn ∈ historyEntered entry history state, allowed turn.1 turn.2) (start : holds state) :
    ∀ next ∈ historySeen entry history state, holds next := by
  induction history generalizing state with
  | nil =>
      intro next member
      rw [List.mem_singleton.mp member]
      exact start
  | cons head rest ih =>
      obtain ⟨env, moves⟩ := head
      rw [historyEntered] at permitted
      have now : ∀ turn ∈ moves.entered (entry env) state, allowed turn.1 turn.2 :=
        fun turn member => permitted turn (List.mem_append_left _ member)
      intro next member
      rcases List.mem_append.mp member with inside | later
      · exact moves_seen_allowed (keeps env) moves state now start next inside
      · exact ih _ (fun turn member => permitted turn (List.mem_append_right _ member))
          (moves_final_allowed (keeps env) moves state now start) next later

end OpenGsn.Reentry
