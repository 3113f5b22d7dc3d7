import OpenGsn.Reentry.Moves

/-! Components that call each other, run together as one. -/

namespace OpenGsn.Reentry

variable {σ ω τ κ κ' ρ ε α β : Type}

namespace Code

/-- Runs the code together with a component that answers some of its calls at once; the others remain
calls of foreign code. -/
def link (answers : κ → σ → Option (Except ε (σ × ρ))) : Code σ κ ρ ε α → Code σ κ ρ ε α
  | .done state value => .done state value
  | .revert error => .revert error
  | .call target before inside resume =>
      match answers target inside with
      | some (.ok (after, value)) => link answers (resume after (.ok value))
      | some (.error error) => link answers (resume before (.error error))
      | none => .call target before inside fun after answer => link answers (resume after answer)

@[simp] theorem link_check (answers : κ → σ → Option (Except ε (σ × ρ))) (result : Except ε β)
    (rest : β → Code σ κ ρ ε α) :
    (check result rest).link answers = check result fun value => (rest value).link answers := by
  cases result with
  | ok value => rfl
  | error error => rfl

@[simp] theorem zoom_check (get : ω → σ) (set : σ → ω → ω) (wrap : κ → κ') (whole : ω) (result : Except ε β)
    (rest : β → Code σ κ ρ ε α) :
    (check result rest).zoom get set wrap whole =
      check result fun value => (rest value).zoom get set wrap whole := by
  cases result with
  | ok value => rfl
  | error error => rfl

/-- An invariant of a component is one of the whole. -/
theorem meets_zoom_invariant {rely : σ → σ → Prop} {visit : σ → Prop} {post : σ → α → Prop} (get : ω → σ)
    (set : σ → ω → ω) (wrap : κ → κ') (written : ∀ state whole, get (set state whole) = state)
    (code : Code σ κ ρ ε α) (whole : ω) (met : code.Meets rely visit post) :
    (code.zoom get set wrap whole).Meets (fun first second => rely (get first) (get second))
      (fun state => visit (get state)) (fun final value => post (get final) value) := by
  induction code generalizing whole with
  | done state value =>
      change post (get (set state whole)) value
      rw [written]
      exact met
  | revert error => trivial
  | call target before inside resume ih =>
      refine ⟨?_, ?_, ?_⟩
      · dsimp only
        rw [written]
        exact met.1
      · intro after value moved
        rw [written] at moved
        exact ih _ _ _ (met.2.1 _ value moved)
      · intro error
        dsimp only
        rw [written]
        exact ih _ _ _ (met.2.2 error)

/-- A component that answers as foreign code may keeps what is kept with foreign code in its place. -/
theorem meets_link {rely : σ → σ → Prop} {visit : σ → Prop} {post : σ → α → Prop}
    (answers : κ → σ → Option (Except ε (σ × ρ)))
    (conform : ∀ target inside after value, answers target inside = some (.ok (after, value)) → rely inside after)
    (code : Code σ κ ρ ε α) (met : code.Meets rely visit post) : (code.link answers).Meets rely visit post := by
  induction code with
  | done state value => exact met
  | revert error => trivial
  | call target before inside resume ih =>
      rw [link]
      split
      · exact ih _ _ (met.2.1 _ _ (conform _ _ _ _ ‹_›))
      · exact ih _ _ (met.2.2 _)
      · exact ⟨met.1, fun after value moved => ih _ _ (met.2.1 after value moved), fun error => ih _ _ (met.2.2 error)⟩

/-- An invariant of a component that holds as long as another part of the whole, which grows only, has not
grown too far. -/
theorem meets_zoom_while {rely : σ → σ → Prop} {visit : σ → Prop} {post : σ → α → Prop} (get : ω → σ)
    (set : σ → ω → ω) (wrap : κ → κ') (other : ω → τ) (grown : τ → τ → Prop) (holds : τ → Prop)
    (written : ∀ state whole, get (set state whole) = state)
    (apart : ∀ state whole, other (set state whole) = other whole)
    (chained : ∀ first second third, grown first second → grown second third → grown first third)
    (early : ∀ first second, grown first second → holds second → holds first) (code : Code σ κ ρ ε α)
    (start whole : ω) (reached : grown (other start) (other whole))
    (met : holds (other whole) → code.Meets rely visit post) :
    (code.zoom get set wrap whole).Meets
      (fun first second => grown (other first) (other second) ∧ (holds (other second) → rely (get first) (get second)))
      (fun state => grown (other start) (other state) ∧ (holds (other state) → visit (get state)))
      (fun final value => grown (other start) (other final) ∧ (holds (other final) → post (get final) value)) := by
  induction code generalizing whole with
  | done state value =>
      change grown (other start) (other (set state whole)) ∧ (_ → post (get (set state whole)) value)
      rw [apart, written]
      exact ⟨reached, met⟩
  | revert error => trivial
  | call target before inside resume ih =>
      refine ⟨?_, ?_, ?_⟩
      · dsimp only
        rw [apart, written]
        exact ⟨reached, fun still => (met still).1⟩
      · intro after value moved
        rw [apart, written] at moved
        refine ih _ _ _ (chained _ _ _ reached moved.1) fun still => ?_
        exact (met (early _ _ moved.1 still)).2.1 _ value (moved.2 still)
      · intro error
        dsimp only
        rw [written]
        refine ih _ _ _ ?_ fun still => ?_
        · rw [apart]
          exact reached
        · rw [apart] at still
          exact (met still).2.2 error

end Code

end OpenGsn.Reentry
