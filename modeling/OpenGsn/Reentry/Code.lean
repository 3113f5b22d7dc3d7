import Mathlib.Logic.Basic
import Mathlib.Data.List.Basic

/-! Functions that hand control to foreign code in the middle of their work.

A function is cut at its outgoing calls. While one of them runs, the foreign
code may change the state by re-entering the function's owner; when it fails,
the state is put back to what it was at the call. -/

namespace OpenGsn.Reentry

variable {σ ω κ κ' ρ ε α β : Type}

inductive Code (σ κ ρ ε α : Type) : Type
  | done (state : σ) (value : α)
  | revert (error : ε)
  | call (target : κ) (before inside : σ) (resume : σ → Except ε ρ → Code σ κ ρ ε α)

/-- What foreign code does with the control it gets from one call. -/
structure Conduct (σ ρ ε : Type) where
  effect : σ → σ
  seen : σ → List σ
  answer : Except ε ρ

namespace Code

def ofExcept (result : Except ε (σ × α)) (rest : σ → α → Code σ κ ρ ε β) : Code σ κ ρ ε β :=
  match result with
  | .ok (state, value) => rest state value
  | .error error => .revert error

def check (result : Except ε α) (rest : α → Code σ κ ρ ε β) : Code σ κ ρ ε β :=
  match result with
  | .ok value => rest value
  | .error error => .revert error

/-- Runs a frame of its own: when it reverts, its effects are dropped and `rest` goes on
from the state in which the frame was opened. -/
def attempt (opened : σ) (rest : σ → Except ε α → Code σ κ ρ ε β) :
    Code σ κ ρ ε α → Code σ κ ρ ε β
  | .done state value => rest state (.ok value)
  | .revert error => rest opened (.error error)
  | .call target before inside resume =>
      .call target before inside (fun state answer => attempt opened rest (resume state answer))

/-- The code of a component, run on the component's part of a larger state. -/
def zoom (get : ω → σ) (set : σ → ω → ω) (wrap : κ → κ') (whole : ω) :
    Code σ κ ρ ε α → Code ω κ' ρ ε α
  | .done state value => .done (set state whole) value
  | .revert error => .revert error
  | .call target before inside resume =>
      .call (wrap target) (set before whole) (set inside whole)
        (fun after answer => zoom get set wrap after (resume (get after) answer))

def silent : Code σ κ ρ ε α → Code σ κ ρ ε Unit
  | .done state _ => .done state ()
  | .revert error => .revert error
  | .call target before inside resume =>
      .call target before inside (fun after answer => silent (resume after answer))

/-- A call for which no conduct is given fails. -/
def run [Inhabited ε] : Code σ κ ρ ε α → List (Conduct σ ρ ε) → Except ε (σ × α)
  | .done state value, _ => .ok (state, value)
  | .revert error, _ => .error error
  | .call _ before _ resume, [] => run (resume before (.error default)) []
  | .call _ before inside resume, conduct :: rest =>
      match conduct.answer with
      | .ok value => run (resume (conduct.effect inside) (.ok value)) rest
      | .error error => run (resume before (.error error)) rest

def seen [Inhabited ε] : Code σ κ ρ ε α → List (Conduct σ ρ ε) → List σ
  | .done _ _, _ => []
  | .revert _, _ => []
  | .call _ before _ resume, [] => seen (resume before (.error default)) []
  | .call _ before inside resume, conduct :: rest =>
      conduct.seen inside ++
        match conduct.answer with
        | .ok value => seen (resume (conduct.effect inside) (.ok value)) rest
        | .error error => seen (resume before (.error error)) rest

def calls [Inhabited ε] : Code σ κ ρ ε α → List (Conduct σ ρ ε) → List κ
  | .done _ _, _ => []
  | .revert _, _ => []
  | .call target before _ resume, [] => target :: calls (resume before (.error default)) []
  | .call target before inside resume, conduct :: rest =>
      target :: match conduct.answer with
        | .ok value => calls (resume (conduct.effect inside) (.ok value)) rest
        | .error error => calls (resume before (.error error)) rest

/-- A call that reverts leaves the state as it was. -/
def commit [Inhabited ε] (code : Code σ κ ρ ε α) (state : σ)
    (conducts : List (Conduct σ ρ ε)) : σ :=
  match code.run conducts with
  | .ok (next, _) => next
  | .error _ => state

def drive (handler : κ → σ → Except ε (σ × ρ)) : Code σ κ ρ ε α → Except ε (σ × α)
  | .done state value => .ok (state, value)
  | .revert error => .error error
  | .call target before inside resume =>
      match handler target inside with
      | .ok (after, value) => drive handler (resume after (.ok value))
      | .error error => drive handler (resume before (.error error))

/-- Whatever the foreign code does within `rely`, it gets control in states with `visit`
only, and the code ends with `post` unless it reverts. -/
def Meets (rely : σ → σ → Prop) (visit : σ → Prop) (post : σ → α → Prop) :
    Code σ κ ρ ε α → Prop
  | .done state value => post state value
  | .revert _ => True
  | .call _ before inside resume =>
      visit inside ∧
      (∀ after value, rely inside after → Meets rely visit post (resume after (.ok value))) ∧
      ∀ error, Meets rely visit post (resume before (.error error))

variable {rely : σ → σ → Prop} {visit : σ → Prop}

theorem meets_weaken {post wider : σ → α → Prop} {broader : σ → Prop} (code : Code σ κ ρ ε α)
    (met : code.Meets rely visit post) (visited : ∀ state, visit state → broader state)
    (implied : ∀ state value, post state value → wider state value) :
    code.Meets rely broader wider := by
  induction code with
  | done state value => exact implied state value met
  | revert error => trivial
  | call target before inside resume ih =>
      exact ⟨visited inside met.1, fun after value moved => ih after (.ok value) (met.2.1 after value moved),
        fun error => ih before (.error error) (met.2.2 error)⟩

theorem meets_trivial {post : σ → α → Prop} (code : Code σ κ ρ ε α)
    (visits : ∀ state, visit state) (posts : ∀ state value, post state value) :
    code.Meets rely visit post := by
  induction code with
  | done state value => exact posts state value
  | revert error => trivial
  | call target before inside resume ih =>
      exact ⟨visits inside, fun after value _ => ih after (.ok value), fun error => ih before (.error error)⟩

theorem meets_ofExcept {post : σ → β → Prop} (result : Except ε (σ × α))
    (rest : σ → α → Code σ κ ρ ε β)
    (met : ∀ state value, result = .ok (state, value) → (rest state value).Meets rely visit post) :
    (ofExcept result rest).Meets rely visit post := by
  match result with
  | .ok (state, value) => exact met state value rfl
  | .error error => trivial

theorem meets_check {post : σ → β → Prop} (result : Except ε α) (rest : α → Code σ κ ρ ε β)
    (met : ∀ value, result = .ok value → (rest value).Meets rely visit post) :
    (check result rest).Meets rely visit post := by
  match result with
  | .ok value => exact met value rfl
  | .error error => trivial

theorem meets_attempt {post : σ → β → Prop} (opened : σ)
    (rest : σ → Except ε α → Code σ κ ρ ε β) (code : Code σ κ ρ ε α)
    (inner : code.Meets rely visit
      (fun state value => (rest state (.ok value)).Meets rely visit post))
    (failed : ∀ error, (rest opened (.error error)).Meets rely visit post) :
    (code.attempt opened rest).Meets rely visit post := by
  induction code with
  | done state value => exact inner
  | revert error => exact failed error
  | call target before inside resume ih =>
      exact ⟨inner.1, fun after value moved => ih after (.ok value) (inner.2.1 after value moved),
        fun error => ih before (.error error) (inner.2.2 error)⟩

/-- The code of a component keeps every relation that writing the component keeps. -/
theorem meets_zoom {kept : ω → ω → Prop} (get : ω → σ) (set : σ → ω → ω) (wrap : κ → κ')
    (writes : ∀ state whole, kept whole (set state whole))
    (chained : ∀ first second third, kept first second → kept second third → kept first third)
    (code : Code σ κ ρ ε α) (start whole : ω) (reached : kept start whole) :
    (code.zoom get set wrap whole).Meets kept (kept start) (fun final _ => kept start final) := by
  induction code generalizing whole with
  | done state value => exact chained _ _ _ reached (writes state whole)
  | revert error => trivial
  | call target before inside resume ih =>
      have entered := chained _ _ _ reached (writes inside whole)
      refine ⟨entered, ?_, ?_⟩
      · intro after value moved
        exact ih _ _ _ (chained _ _ _ entered moved)
      · intro error
        exact ih _ _ _ (chained _ _ _ reached (writes before whole))

theorem meets_silent {post : σ → Prop} (code : Code σ κ ρ ε α)
    (met : code.Meets rely visit (fun state _ => post state)) :
    code.silent.Meets rely visit (fun state _ => post state) := by
  induction code with
  | done state value => exact met
  | revert error => trivial
  | call target before inside resume ih =>
      exact ⟨met.1, fun after value moved => ih after (.ok value) (met.2.1 after value moved),
        fun error => ih before (.error error) (met.2.2 error)⟩

variable [Inhabited ε]

theorem calls_check (holds : List κ → Prop) (result : Except ε α) (rest : α → Code σ κ ρ ε β)
    (conducts : List (Conduct σ ρ ε)) (silent : holds [])
    (made : ∀ value, result = .ok value → holds ((rest value).calls conducts)) :
    holds ((check result rest).calls conducts) := by
  match result with
  | .ok value => exact made value rfl
  | .error error => exact silent

/-- The same for a run that does not revert. -/
theorem calls_check_returned (holds : List κ → Prop) (result : Except ε α) (rest : α → Code σ κ ρ ε β)
    (conducts : List (Conduct σ ρ ε)) (last : σ × β) (returned : (check result rest).run conducts = .ok last)
    (made : ∀ value, result = .ok value → (rest value).run conducts = .ok last →
      holds ((rest value).calls conducts)) :
    holds ((check result rest).calls conducts) := by
  match result with
  | .ok value => exact made value rfl returned
  | .error error => cases returned

theorem run_meets {post : σ → α → Prop} (code : Code σ κ ρ ε α)
    (conducts : List (Conduct σ ρ ε)) (met : code.Meets rely visit post)
    (conform : ∀ conduct ∈ conducts, ∀ state, rely state (conduct.effect state))
    (state : σ) (value : α) (returned : code.run conducts = .ok (state, value)) :
    post state value := by
  induction code generalizing conducts with
  | done final result =>
      obtain ⟨rfl, rfl⟩ : final = state ∧ result = value := by simpa [run] using returned
      exact met
  | revert error => simp [run] at returned
  | call target before inside resume ih =>
      cases conducts with
      | nil => exact ih _ _ [] (met.2.2 default) (by simp) returned
      | cons conduct rest =>
          have later : ∀ next ∈ rest, ∀ state, rely state (next.effect state) :=
            fun next member => conform next (List.mem_cons_of_mem _ member)
          cases answered : conduct.answer with
          | ok reply =>
              rw [run, answered] at returned
              have moved := conform conduct List.mem_cons_self inside
              exact ih _ _ rest (met.2.1 _ reply moved) later returned
          | error error =>
              rw [run, answered] at returned
              exact ih _ _ rest (met.2.2 error) later returned

theorem seen_meets {post : σ → α → Prop} (good : σ → Prop) (code : Code σ κ ρ ε α)
    (conducts : List (Conduct σ ρ ε)) (met : code.Meets rely visit post)
    (conform : ∀ conduct ∈ conducts, ∀ state, rely state (conduct.effect state))
    (shown : ∀ conduct ∈ conducts, ∀ state, visit state → ∀ next ∈ conduct.seen state, good next)
    (state : σ) (member : state ∈ code.seen conducts) : good state := by
  induction code generalizing conducts with
  | done final result => simp [seen] at member
  | revert error => simp [seen] at member
  | call target before inside resume ih =>
      cases conducts with
      | nil => exact ih _ _ [] (met.2.2 default) (by simp) (by simp) member
      | cons conduct rest =>
          have later : ∀ next ∈ rest, ∀ state, rely state (next.effect state) :=
            fun next inside => conform next (List.mem_cons_of_mem _ inside)
          have shownLater : ∀ next ∈ rest, ∀ state, visit state → ∀ s ∈ next.seen state, good s :=
            fun next inside => shown next (List.mem_cons_of_mem _ inside)
          rw [seen] at member
          rcases List.mem_append.mp member with now | after
          · exact shown conduct List.mem_cons_self inside met.1 state now
          · cases answered : conduct.answer with
            | ok reply =>
                rw [answered] at after
                have moved := conform conduct List.mem_cons_self inside
                exact ih _ _ rest (met.2.1 _ reply moved) later shownLater after
            | error error =>
                rw [answered] at after
                exact ih _ _ rest (met.2.2 error) later shownLater after

end Code
end OpenGsn.Reentry
