import OpenGsn.Reentry.Link

/-! Frames of a component that revert as a whole, and what a component does by itself. -/

namespace OpenGsn.Reentry

variable {σ ω κ κ' ρ ε α β : Type}

namespace Code

/-- `attempt` for a component of a larger state, all of which is put back when the frame reverts. -/
def attemptWithin (get : ω → σ) (set : σ → ω → ω) (wrap : κ → κ') (whole : ω)
    (rest : σ → Except ε α → Code σ κ ρ ε β) (code : Code σ κ ρ ε α) : Code ω κ' ρ ε β :=
  (code.zoom get set wrap whole).attempt whole fun whole answer =>
    (rest (get whole) answer).zoom get set wrap whole

theorem zoom_self (code : Code σ κ ρ ε α) (whole : σ) :
    code.zoom id (fun state _ => state) id whole = code := by
  induction code generalizing whole with
  | done state value => rfl
  | revert error => rfl
  | call target before inside resume ih => simp only [zoom, id_eq, ih]

theorem attemptWithin_self (whole : σ) (rest : σ → Except ε α → Code σ κ ρ ε β) (code : Code σ κ ρ ε α) :
    code.attemptWithin id (fun state _ => state) id whole rest = code.attempt whole rest := by
  rw [attemptWithin, zoom_self]
  congr 1
  exact funext fun state => funext fun answer => zoom_self _ _

theorem link_attempt (answers : κ → σ → Option (Except ε (σ × ρ))) (opened : σ)
    (rest : σ → Except ε α → Code σ κ ρ ε β) (code : Code σ κ ρ ε α) :
    (code.attempt opened rest).link answers =
      (code.link answers).attempt opened fun state answer => (rest state answer).link answers := by
  induction code with
  | done state value => rfl
  | revert error => rfl
  | call target before inside resume ih =>
      simp only [attempt, link]
      split
      · exact ih _ _
      · exact ih _ _
      · simp only [attempt, ih]

theorem meets_of_silent {rely : σ → σ → Prop} {visit post : σ → Prop} (code : Code σ κ ρ ε α)
    (met : code.silent.Meets rely visit fun state _ => post state) :
    code.Meets rely visit fun state _ => post state := by
  induction code with
  | done state value => exact met
  | revert error => trivial
  | call target before inside resume ih =>
      exact ⟨met.1, fun after value moved => ih after (.ok value) (met.2.1 after value moved),
        fun error => ih before (.error error) (met.2.2 error)⟩

/-- An invariant of a component is one of the whole, where frames revert too. -/
theorem meets_attemptWithin {rely : σ → σ → Prop} {visit : σ → Prop} {post : σ → β → Prop} (get : ω → σ)
    (set : σ → ω → ω) (wrap : κ → κ') (written : ∀ state whole, get (set state whole) = state)
    (rest : σ → Except ε α → Code σ κ ρ ε β) (code : Code σ κ ρ ε α) (opened whole : ω)
    (met : (code.attempt (get opened) rest).Meets rely visit post) :
    ((code.zoom get set wrap whole).attempt opened fun whole answer =>
      (rest (get whole) answer).zoom get set wrap whole).Meets (fun first second => rely (get first) (get second))
      (fun state => visit (get state)) (fun final value => post (get final) value) := by
  induction code generalizing whole with
  | done state value =>
      apply meets_zoom_invariant get set wrap written
      rw [written]
      exact met
  | revert error => exact meets_zoom_invariant get set wrap written _ _ met
  | call target before inside resume ih =>
      refine ⟨?_, ?_, ?_⟩
      · dsimp only
        rw [written]
        exact met.1
      · intro after value moved
        rw [written] at moved
        exact ih _ _ _ (met.2.1 _ value moved)
      · intro error
        dsimp only
        rw [written]
        exact ih _ _ _ (met.2.2 error)

/-- What the code does itself, from where it has got control to where it hands it over or ends. -/
def Own (step : σ → σ → Prop) : σ → Code σ κ ρ ε α → Prop
  | current, .done state _ => step current state
  | _, .revert _ => True
  | current, .call _ before inside resume =>
      step current before ∧ step current inside ∧ (∀ after value, Own step after (resume after (.ok value))) ∧
        ∀ error, Own step before (resume before (.error error))

theorem own_check (step : σ → σ → Prop) (current : σ) (result : Except ε β) (rest : β → Code σ κ ρ ε α)
    (own : ∀ value, result = .ok value → (rest value).Own step current) : (check result rest).Own step current := by
  cases result with
  | ok value => exact own value rfl
  | error error => trivial

/-- All of what code without calls does is its own. -/
theorem own_result {rely : σ → σ → Prop} {visit : σ → Prop} (step : σ → σ → Prop) (current : σ)
    (result : Except ε β) (write : β → σ) (returned : α)
    (met : (check result fun value => done (write value) returned : Code σ κ ρ ε α).Meets rely visit
      fun final _ => step current final) :
    (check result fun value => done (write value) returned : Code σ κ ρ ε α).Own step current := by
  cases result with
  | ok value => exact met
  | error error => trivial

theorem own_weaken {stronger step : σ → σ → Prop} (implied : ∀ first second, stronger first second → step first second)
    (code : Code σ κ ρ ε α) (current : σ) (own : code.Own stronger current) : code.Own step current := by
  induction code generalizing current with
  | done state value => exact implied _ _ own
  | revert error => trivial
  | call target before inside resume ih =>
      exact ⟨implied _ _ own.1, implied _ _ own.2.1, fun after value => ih after _ after (own.2.2.1 after value),
        fun error => ih before _ before (own.2.2.2 error)⟩

theorem own_silent (step : σ → σ → Prop) (code : Code σ κ ρ ε α) (current : σ) (own : code.Own step current) :
    code.silent.Own step current := by
  induction code generalizing current with
  | done state value => exact own
  | revert error => trivial
  | call target before inside resume ih =>
      exact ⟨own.1, own.2.1, fun after value => ih after _ after (own.2.2.1 after value),
        fun error => ih before _ before (own.2.2.2 error)⟩

/-- A component writes its own part. -/
theorem own_zoom (step : ω → ω → Prop) (get : ω → σ) (set : σ → ω → ω) (wrap : κ → κ')
    (writes : ∀ state whole, step whole (set state whole)) (code : Code σ κ ρ ε α) (whole : ω) :
    (code.zoom get set wrap whole).Own step whole := by
  induction code generalizing whole with
  | done state value => exact writes state whole
  | revert error => trivial
  | call target before inside resume ih =>
      exact ⟨writes before whole, writes inside whole, fun after value => ih _ _ after,
        fun error => ih _ _ (set before whole)⟩

/-- A relation that is kept by what a component does itself, and by foreign code, is kept by its code. -/
theorem meets_own {kept : ω → ω → Prop} (step : σ → σ → Prop) (get : ω → σ) (set : σ → ω → ω) (wrap : κ → κ')
    (written : ∀ state whole, get (set state whole) = state)
    (writes : ∀ state whole, step (get whole) state → kept whole (set state whole))
    (chained : ∀ first second third, kept first second → kept second third → kept first third)
    (code : Code σ κ ρ ε α) (start whole : ω) (reached : kept start whole) (own : code.Own step (get whole)) :
    (code.zoom get set wrap whole).Meets kept (kept start) (fun final _ => kept start final) := by
  induction code generalizing whole with
  | done state value => exact chained _ _ _ reached (writes state whole own)
  | revert error => trivial
  | call target before inside resume ih =>
      have entered := chained _ _ _ reached (writes inside whole own.2.1)
      refine ⟨entered, ?_, ?_⟩
      · intro after value moved
        exact ih _ _ after (chained _ _ _ entered moved) (own.2.2.1 _ value)
      · intro error
        refine ih _ _ _ (chained _ _ _ reached (writes before whole own.1)) ?_
        rw [written]
        exact own.2.2.2 error

end Code

end OpenGsn.Reentry
