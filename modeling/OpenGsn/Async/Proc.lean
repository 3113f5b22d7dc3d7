import Mathlib.Logic.Basic
import Mathlib.Logic.Function.Basic

/-! Asynchronous code, cut at the points where it waits.

Between two such points the code has the shared state for itself. What it waited for comes as
a reply from outside. -/

namespace OpenGsn.Async

variable {σ ρ ε α β γ : Type}

inductive Proc (σ ρ α : Type) : Type
  | done (value : α)
  | step (ready : σ → Bool) (effect : ρ → σ → σ) (next : ρ → σ → Proc σ ρ α)

namespace Proc

def bind (first : Proc σ ρ α) (rest : α → Proc σ ρ β) : Proc σ ρ β :=
  match first with
  | .done value => rest value
  | .step ready effect next => .step ready effect fun reply state => bind (next reply state) rest

instance : Monad (Proc σ ρ) where
  pure := .done
  bind := bind

theorem bind_done (proc : Proc σ ρ α) : bind proc .done = proc := by
  induction proc with
  | done value => rfl
  | step ready effect next ih => simp only [bind, ih]

theorem bind_bind (proc : Proc σ ρ α) (first : α → Proc σ ρ β) (second : β → Proc σ ρ γ) :
    bind (bind proc first) second = bind proc fun value => bind (first value) second := by
  induction proc with
  | done value => rfl
  | step ready effect next ih => simp only [bind, ih]

instance : LawfulMonad (Proc σ ρ) :=
  LawfulMonad.mk' (Proc σ ρ) (fun proc => bind_done proc) (fun _ _ => rfl) bind_bind

/-- One step that a reply is needed for. -/
def serve (act : ρ → σ → α × σ) : Proc σ ρ α :=
  .step (fun _ => true) (fun reply state => (act reply state).2) fun reply state =>
    .done (act reply state).1

/-- One step on the shared state. -/
def sync (act : σ → α × σ) : Proc σ ρ α := serve fun _ state => act state

def waitUntil (ready : σ → Bool) (act : σ → σ) : Proc σ ρ Unit :=
  .step ready (fun _ state => act state) fun _ _ => .done ()

/-- The next step of the code, when the reply has come. -/
def resume (reply : ρ) (state : σ) : Proc σ ρ α → σ × Proc σ ρ α
  | .done value => (state, .done value)
  | .step ready effect next =>
      if ready state then (effect reply state, next reply state) else (state, .step ready effect next)

/-- Whatever others do within `rely`, the steps of the code are within `guarantee`, as far as
they are `allowed`, and it ends with `post`. -/
def Safe (allowed rely guarantee : σ → σ → Prop) (post : α → σ → Prop) : Proc σ ρ α → σ → Prop
  | .done value, state => post value state
  | .step ready effect next, state =>
      ∀ later, rely state later → ready later = true →
        ∀ reply, allowed later (effect reply later) →
          guarantee later (effect reply later) ∧
          (next reply later).Safe allowed rely guarantee post (effect reply later)

section Rules

variable {allowed rely guarantee : σ → σ → Prop} {post : β → σ → Prop}

theorem safe_bind (first : Proc σ ρ α) (rest : α → Proc σ ρ β) (state : σ)
    (safe : first.Safe allowed rely guarantee
      (fun value later => (rest value).Safe allowed rely guarantee post later) state) :
    (first.bind rest).Safe allowed rely guarantee post state := by
  induction first generalizing state with
  | done value => exact safe
  | step ready effect next ih =>
      intro later moved enabled reply permitted
      have stepped := safe later moved enabled reply permitted
      exact ⟨stepped.1, ih reply later _ stepped.2⟩

theorem safe_serve (act : ρ → σ → β × σ) (state : σ)
    (served : ∀ later, rely state later → ∀ reply, allowed later (act reply later).2 →
      guarantee later (act reply later).2 ∧ post (act reply later).1 (act reply later).2) :
    (serve act).Safe allowed rely guarantee post state :=
  fun later moved _ reply permitted => served later moved reply permitted

theorem safe_sync (act : σ → β × σ) (state : σ)
    (acted : ∀ later, rely state later → allowed later (act later).2 →
      guarantee later (act later).2 ∧ post (act later).1 (act later).2) :
    (sync act : Proc σ ρ β).Safe allowed rely guarantee post state :=
  fun later moved _ _ permitted => acted later moved permitted

theorem safe_weaken {stronger : β → σ → Prop} (proc : Proc σ ρ β) (state : σ)
    (safe : proc.Safe allowed rely guarantee stronger state)
    (implied : ∀ value later, stronger value later → post value later) :
    proc.Safe allowed rely guarantee post state := by
  induction proc generalizing state with
  | done value => exact implied value state safe
  | step ready effect next ih =>
      intro later moved enabled reply permitted
      have stepped := safe later moved enabled reply permitted
      exact ⟨stepped.1, ih reply later _ stepped.2⟩

/-- What neither the others nor the steps of the code make false still holds at the end. -/
theorem safe_frame (stays : σ → Prop) (proc : Proc σ ρ β) (state : σ)
    (relied : ∀ first second, rely first second → stays first → stays second)
    (guaranteed : ∀ first second, guarantee first second → stays first → stays second)
    (held : stays state) (safe : proc.Safe allowed rely guarantee post state) :
    proc.Safe allowed rely guarantee (fun value later => post value later ∧ stays later) state := by
  induction proc generalizing state with
  | done value => exact ⟨safe, held⟩
  | step ready effect next ih =>
      intro later moved enabled reply permitted
      have stepped := safe later moved enabled reply permitted
      have kept := guaranteed _ _ stepped.1 (relied _ _ moved held)
      exact ⟨stepped.1, ih reply later _ kept stepped.2⟩

/-- What others do in between does not matter. -/
theorem safe_rely (proc : Proc σ ρ β) (state later : σ)
    (chained : ∀ first second third, rely first second → rely second third → rely first third)
    (stable : ∀ value, post value state → post value later) (moved : rely state later)
    (safe : proc.Safe allowed rely guarantee post state) :
    proc.Safe allowed rely guarantee post later := by
  cases proc with
  | done value => exact stable value safe
  | step ready effect next =>
      intro further again enabled reply permitted
      exact safe further (chained _ _ _ moved again) enabled reply permitted

end Rules

end Proc

/-! Code that may fail. -/

abbrev Promise (σ ρ ε α : Type) := ExceptT ε (Proc σ ρ) α

namespace Promise

def serve (act : ρ → σ → Except ε α × σ) : Promise σ ρ ε α := ExceptT.mk (Proc.serve act)

def sync (act : σ → α × σ) : Promise σ ρ ε α :=
  ExceptT.mk (Proc.sync fun state => (.ok (act state).1, (act state).2))

def waitUntil (ready : σ → Bool) (act : σ → σ) : Promise σ ρ ε Unit :=
  ExceptT.mk ((Proc.waitUntil ready act).bind fun _ => .done (.ok ()))

/-- `try body finally cleanup` -/
def ensure (body : Promise σ ρ ε α) (cleanup : σ → σ) : Promise σ ρ ε α :=
  ExceptT.mk (Proc.bind body.run fun result => Proc.sync fun state => (result, cleanup state))

def ofExcept (result : Except ε α) : Promise σ ρ ε α := ExceptT.mk (.done result)

/-- `try body catch` -/
def caught (body : Promise σ ρ ε α) : Promise σ ρ ε Unit :=
  ExceptT.mk (Proc.bind body.run fun _ => .done (.ok ()))

variable {allowed rely guarantee : σ → σ → Prop} {post : Except ε β → σ → Prop}

theorem safe_bind (first : Promise σ ρ ε α) (rest : α → Promise σ ρ ε β) (state : σ)
    (safe : Proc.Safe allowed rely guarantee
      (fun result later =>
        match result with
        | .ok value => Proc.Safe allowed rely guarantee post (rest value) later
        | .error error => post (.error error) later) first state) :
    Proc.Safe allowed rely guarantee post (first >>= rest : Promise σ ρ ε β) state := by
  apply Proc.safe_bind
  apply Proc.safe_weaken _ _ safe
  intro result later implied
  cases result with
  | ok value => exact implied
  | error error => exact implied

theorem safe_ensure (body : Promise σ ρ ε β) (cleanup : σ → σ) (state : σ)
    (safe : Proc.Safe allowed rely guarantee
      (fun result later => ∀ further, rely later further → allowed further (cleanup further) →
        guarantee further (cleanup further) ∧ post result (cleanup further)) body state) :
    Proc.Safe allowed rely guarantee post (ensure body cleanup) state := by
  apply Proc.safe_bind
  apply Proc.safe_weaken _ _ safe
  intro result later closes
  exact Proc.safe_sync _ _ closes

end Promise

end OpenGsn.Async
