import Mathlib.Data.Nat.Notation
import Mathlib.Data.List.Basic

/-! Runs of a machine whose steps may fail without effect, and runs of one that always moves, as
far as its steps are allowed. -/

namespace OpenGsn.Runs

variable {σ ι ε : Type} (step : ι → σ → Except ε σ)

def advance (state : σ) (input : ι) : σ :=
  match step input state with
  | .ok next => next
  | .error _ => state

def after (inputs : List ι) (state : σ) : σ := inputs.foldl (advance step) state

@[simp] theorem after_nil (state : σ) : after step [] state = state := rfl

@[simp] theorem after_cons (input : ι) (rest : List ι) (state : σ) :
    after step (input :: rest) state = after step rest (advance step state input) := rfl

theorem after_append (front back : List ι) (state : σ) :
    after step (front ++ back) state = after step back (after step front state) :=
  List.foldl_append

/-- A relation kept by each step that succeeds is kept by runs. -/
theorem after_kept (kept : σ → σ → Prop) (reflexive : ∀ state, kept state state)
    (chained : ∀ first second third, kept first second → kept second third → kept first third)
    (keeps : ∀ input state next, step input state = .ok next → kept state next)
    (inputs : List ι) (state : σ) : kept state (after step inputs state) := by
  induction inputs generalizing state with
  | nil => exact reflexive state
  | cons input rest ih =>
      refine chained _ _ _ ?_ (ih (advance step state input))
      unfold advance
      cases taken : step input state with
      | ok next => exact keeps input state next taken
      | error error => exact reflexive state

theorem after_invariant (holds : σ → Prop)
    (keeps : ∀ input state next, holds state → step input state = .ok next → holds next)
    (inputs : List ι) (state : σ) (start : holds state) : holds (after step inputs state) :=
  after_kept step (fun first second => holds first → holds second) (fun _ same => same)
    (fun _ _ _ first second begin => second (first begin))
    (fun input state next taken held => keeps input state next held taken) inputs state start

section Timed

variable (time : ι → ℕ)

def Timed (now : ℕ) : List ι → Prop
  | [] => True
  | input :: rest => now ≤ time input ∧ Timed (time input) rest

instance decidableTimed (now : ℕ) : (inputs : List ι) → Decidable (Timed time now inputs)
  | [] => .isTrue trivial
  | input :: rest =>
      have := decidableTimed (time input) rest
      inferInstanceAs (Decidable (now ≤ time input ∧ Timed time (time input) rest))

def latest (now : ℕ) : List ι → ℕ
  | [] => now
  | input :: rest => latest (time input) rest

theorem latest_append (now : ℕ) (front back : List ι) :
    latest time now (front ++ back) = latest time (latest time now front) back := by
  induction front generalizing now with
  | nil => rfl
  | cons input rest ih => exact ih (time input)

theorem timed_append (now : ℕ) (front back : List ι) :
    Timed time now (front ++ back) ↔ Timed time now front ∧ Timed time (latest time now front) back := by
  induction front generalizing now with
  | nil => simp [Timed, latest]
  | cons input rest ih => simp [Timed, latest, ih, and_assoc]

theorem timed_le_latest (now : ℕ) (inputs : List ι) (timed : Timed time now inputs) :
    now ≤ latest time now inputs := by
  induction inputs generalizing now with
  | nil => exact Nat.le_refl now
  | cons input rest ih => exact Nat.le_trans timed.1 (ih (time input) timed.2)

/-- An invariant that speaks of the time of the last step. -/
theorem timed_invariant (holds : ℕ → σ → Prop)
    (aged : ∀ now later state, now ≤ later → holds now state → holds later state)
    (keeps : ∀ input state next, holds (time input) state → step input state = .ok next →
      holds (time input) next)
    (inputs : List ι) (now : ℕ) (state : σ) (timed : Timed time now inputs) (start : holds now state) :
    holds (latest time now inputs) (after step inputs state) := by
  induction inputs generalizing now state with
  | nil => exact start
  | cons input rest ih =>
      have moved := aged now (time input) state timed.1 start
      refine ih (time input) _ timed.2 ?_
      unfold advance
      cases taken : step input state with
      | ok next => exact keeps input state next moved taken
      | error error => exact moved

/-- The same for steps that cannot fail. -/
theorem timed_foldl (next : σ → ι → σ) (holds : ℕ → σ → Prop)
    (keeps : ∀ input now state, now ≤ time input → holds now state → holds (time input) (next state input))
    (inputs : List ι) (now : ℕ) (state : σ) (timed : Timed time now inputs) (start : holds now state) :
    holds (latest time now inputs) (inputs.foldl next state) := by
  induction inputs generalizing now state with
  | nil => exact start
  | cons input rest ih => exact ih (time input) _ timed.2 (keeps input now state timed.1 start)

end Timed

section Guarded

variable (next : σ → ι → σ)

def Along (allowed : σ → ι → Prop) : List ι → σ → Prop
  | [], _ => True
  | input :: rest, state => allowed state input ∧ Along allowed rest (next state input)

instance decidableAlong (allowed : σ → ι → Prop) [decidable : ∀ state input, Decidable (allowed state input)] :
    ∀ (inputs : List ι) (state : σ), Decidable (Along next allowed inputs state)
  | [], _ => .isTrue trivial
  | input :: rest, state =>
      have := decidableAlong allowed rest (next state input)
      inferInstanceAs (Decidable (allowed state input ∧ Along next allowed rest (next state input)))

def Always (holds : σ → Prop) : List ι → σ → Prop
  | [], state => holds state
  | input :: rest, state => holds state ∧ Always holds rest (next state input)

theorem always_start (holds : σ → Prop) (inputs : List ι) (state : σ) (always : Always next holds inputs state) :
    holds state := by
  cases inputs with
  | nil => exact always
  | cons input rest => exact always.1

theorem always_end (holds : σ → Prop) (inputs : List ι) (state : σ) (always : Always next holds inputs state) :
    holds (inputs.foldl next state) := by
  induction inputs generalizing state with
  | nil => exact always
  | cons input rest ih => exact ih (next state input) always.2

theorem along_append (allowed : σ → ι → Prop) (front back : List ι) (state : σ) :
    Along next allowed (front ++ back) state ↔
      Along next allowed front state ∧ Along next allowed back (front.foldl next state) := by
  induction front generalizing state with
  | nil => simp [Along]
  | cons input rest ih => simp [Along, ih, and_assoc]

theorem along_and (first second : σ → ι → Prop) (inputs : List ι) (state : σ)
    (one : Along next first inputs state) (two : Along next second inputs state) :
    Along next (fun state input => first state input ∧ second state input) inputs state := by
  induction inputs generalizing state with
  | nil => trivial
  | cons input rest ih => exact ⟨⟨one.1, two.1⟩, ih (next state input) one.2 two.2⟩

theorem along_invariant (allowed : σ → ι → Prop) (holds : σ → Prop)
    (keeps : ∀ state input, holds state → allowed state input → holds (next state input))
    (inputs : List ι) (state : σ) (start : holds state) (along : Along next allowed inputs state) :
    holds (inputs.foldl next state) := by
  induction inputs generalizing state with
  | nil => exact start
  | cons input rest ih => exact ih (next state input) (keeps state input start along.1) along.2

theorem along_always (allowed : σ → ι → Prop) (invariant holds : σ → Prop)
    (keeps : ∀ state input, invariant state → allowed state input → invariant (next state input))
    (implied : ∀ state, invariant state → holds state) (inputs : List ι) (state : σ) (start : invariant state)
    (along : Along next allowed inputs state) : Always next holds inputs state := by
  induction inputs generalizing state with
  | nil => exact implied state start
  | cons input rest ih => exact ⟨implied state start, ih _ (keeps state input start along.1) along.2⟩

/-- Where a step keeps a property exactly when it is allowed, so does a run. -/
theorem always_iff_along (allowed : σ → ι → Prop) (invariant holds : σ → Prop)
    (keeps : ∀ state input, invariant state → holds state → invariant (next state input))
    (exactly : ∀ state input, invariant state → holds state → (holds (next state input) ↔ allowed state input))
    (inputs : List ι) (state : σ) (start : invariant state) (begun : holds state) :
    Always next holds inputs state ↔ Along next allowed inputs state := by
  induction inputs generalizing state with
  | nil => exact ⟨fun _ => trivial, fun _ => begun⟩
  | cons input rest ih =>
      have one := exactly state input start begun
      constructor
      · rintro ⟨_, always⟩
        have held := always_start next holds rest _ always
        exact ⟨one.mp held, (ih _ (keeps state input start begun) held).mp always⟩
      · rintro ⟨permitted, along⟩
        exact ⟨begun, (ih _ (keeps state input start begun) (one.mpr permitted)).mpr along⟩

/-- What an invariant says about the next step. -/
theorem along_implied (allowed promised : σ → ι → Prop) (invariant : σ → Prop)
    (keeps : ∀ state input, invariant state → allowed state input → invariant (next state input))
    (implied : ∀ state input, invariant state → allowed state input → promised state input) (inputs : List ι)
    (state : σ) (start : invariant state) (along : Along next allowed inputs state) :
    Along next promised inputs state := by
  induction inputs generalizing state with
  | nil => trivial
  | cons input rest ih =>
      exact ⟨implied state input start along.1, ih _ (keeps state input start along.1) along.2⟩

end Guarded

end OpenGsn.Runs
