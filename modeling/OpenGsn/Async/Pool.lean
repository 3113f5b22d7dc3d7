import OpenGsn.Async.Proc
import Mathlib.Data.Nat.Notation

/-! Any number of tasks on one shared state, in any interleaving. -/

namespace OpenGsn.Async

structure World (σ ρ : Type) where
  state : σ
  tasks : ℕ → Proc σ ρ Unit

/-- What happens next. A restart ends all tasks. -/
inductive Event (π ρ χ τ : Type) : Type
  | start (task : ℕ) (program : π)
  | resume (task : ℕ) (reply : ρ)
  | outside (change : χ)
  | restart (reset : τ)

variable {σ ρ π χ τ : Type} (program : ℕ → π → Proc σ ρ Unit) (change : χ → σ → σ)
  (reset : τ → σ → σ)

def World.setTask (w : World σ ρ) (task : ℕ) (proc : Proc σ ρ Unit) : World σ ρ :=
  { w with tasks := Function.update w.tasks task proc }

def World.next (event : Event π ρ χ τ) (w : World σ ρ) : World σ ρ :=
  match event with
  | .start task code =>
      match w.tasks task with
      | .done _ => w.setTask task (program task code)
      | .step _ _ _ => w
  | .resume task reply =>
      match w.tasks task with
      | .done _ => w
      | .step ready effect next =>
          if ready w.state then
            { state := effect reply w.state
              tasks := Function.update w.tasks task (next reply w.state) }
          else w
  | .outside outer => { w with state := change outer w.state }
  | .restart fresh => { state := reset fresh w.state, tasks := fun _ => .done () }

def World.run : List (Event π ρ χ τ) → World σ ρ → World σ ρ
  | [], w => w
  | event :: rest, w => World.run rest (w.next program change reset event)

/-- Every step of a run is as the relation says. -/
def World.Along (allowed : σ → σ → Prop) : List (Event π ρ χ τ) → World σ ρ → Prop
  | [], _ => True
  | event :: rest, w =>
      allowed w.state (w.next program change reset event).state ∧
        World.Along allowed rest (w.next program change reset event)

instance World.decidableAlong (allowed : σ → σ → Prop)
    [decidable : ∀ state later, Decidable (allowed state later)] :
    ∀ (events : List (Event π ρ χ τ)) (w : World σ ρ),
      Decidable (World.Along program change reset allowed events w)
  | [], _ => .isTrue trivial
  | event :: rest, w =>
      have := World.decidableAlong allowed rest (w.next program change reset event)
      inferInstanceAs (Decidable (allowed _ _ ∧ World.Along program change reset allowed rest _))

/-- How the tasks get along: what one does is what the others expect of it. -/
structure Discipline (allowed : σ → σ → Prop) (inv : σ → Prop) (rely guarantee : ℕ → σ → σ → Prop) :
    Prop where
  reflexive : ∀ task state, inv state → rely task state state
  chained : ∀ task first second third,
    rely task first second → rely task second third → rely task first third
  compatible : ∀ task other state later,
    task ≠ other → guarantee task state later → rely other state later
  kept : ∀ task state later, guarantee task state later → inv later
  started : ∀ task code state, inv state →
    (program task code).Safe allowed (rely task) (guarantee task) (fun _ _ => True) state
  outside : ∀ outer state, inv state → allowed state (change outer state) →
    inv (change outer state) ∧ ∀ task, rely task state (change outer state)
  restarted : ∀ fresh state, inv state → allowed state (reset fresh state) → inv (reset fresh state)

variable {program change reset} {allowed : σ → σ → Prop} {inv : σ → Prop} {rely guarantee : ℕ → σ → σ → Prop}

structure World.Sound (allowed : σ → σ → Prop) (inv : σ → Prop) (rely guarantee : ℕ → σ → σ → Prop)
    (w : World σ ρ) : Prop where
  holds : inv w.state
  safe : ∀ task, (w.tasks task).Safe allowed (rely task) (guarantee task) (fun _ _ => True) w.state

theorem next_sound (discipline : Discipline program change reset allowed inv rely guarantee)
    (event : Event π ρ χ τ) (w : World σ ρ) (sound : w.Sound allowed inv rely guarantee)
    (permitted : allowed w.state (w.next program change reset event).state) :
    (w.next program change reset event).Sound allowed inv rely guarantee := by
  obtain ⟨holds, safe⟩ := sound
  cases event with
  | start task code =>
      simp only [World.next]
      cases running : w.tasks task with
      | step ready effect next => exact ⟨holds, safe⟩
      | done value =>
          refine ⟨holds, fun other => ?_⟩
          by_cases same : other = task
          · subst same
            simpa [World.setTask] using discipline.started other code w.state holds
          · simpa [World.setTask, Function.update_of_ne same] using safe other
  | resume task reply =>
      cases running : w.tasks task with
      | done value => simpa only [World.next, running] using ⟨holds, safe⟩
      | step ready effect next =>
          by_cases enabled : ready w.state = true
          · simp only [World.next, running, if_pos enabled] at permitted ⊢
            have own := safe task
            rw [running] at own
            have stepped := own w.state (discipline.reflexive task w.state holds) enabled reply permitted
            refine ⟨discipline.kept task _ _ stepped.1, fun other => ?_⟩
            by_cases same : other = task
            · subst same
              simpa using stepped.2
            · simp only [Function.update_of_ne same]
              have moved := discipline.compatible task other _ _ (Ne.symm same) stepped.1
              exact Proc.safe_rely _ _ _ (discipline.chained other) (fun _ _ => trivial) moved (safe other)
          · simpa only [World.next, running, if_neg enabled] using ⟨holds, safe⟩
  | outside outer =>
      obtain ⟨later, moved⟩ := discipline.outside outer w.state holds permitted
      exact ⟨later, fun task =>
        Proc.safe_rely _ _ _ (discipline.chained task) (fun _ _ => trivial) (moved task) (safe task)⟩
  | restart fresh => exact ⟨discipline.restarted fresh w.state holds permitted, fun _ => trivial⟩

theorem run_sound (discipline : Discipline program change reset allowed inv rely guarantee)
    (events : List (Event π ρ χ τ)) (w : World σ ρ) (sound : w.Sound allowed inv rely guarantee)
    (permitted : World.Along program change reset allowed events w) :
    (World.run program change reset events w).Sound allowed inv rely guarantee := by
  induction events generalizing w with
  | nil => exact sound
  | cons event rest ih => exact ih _ (next_sound discipline event w sound permitted.1) permitted.2

end OpenGsn.Async
