import OpenGsn.Async.Proc

/-! One step of code that begins with a question, and what is left of it. -/

namespace OpenGsn.Async.Promise

variable {σ ρ ε α β : Type}

/-- A task is done with its result, or its failure. -/
def settled (promise : Promise σ ρ ε α) : Proc σ ρ Unit := Proc.bind promise.run fun _ => .done ()

/-- Where the code goes on with a result. -/
def onward (rest : α → Promise σ ρ ε β) : Except ε α → Proc σ ρ Unit
  | .error _ => .done ()
  | .ok value => settled (rest value)

theorem resume_served (act : ρ → σ → Except ε α × σ) (rest : α → Promise σ ρ ε β) (reply : ρ) (state : σ) :
    (settled (serve act >>= rest)).resume reply state =
      ((act reply state).2, onward rest (act reply state).1) := by
  calc (settled (serve act >>= rest)).resume reply state
      = ((act reply state).2, Proc.bind (ExceptT.bindCont rest (act reply state).1) fun _ => .done ()) := rfl
    _ = ((act reply state).2, onward rest (act reply state).1) := by
        cases (act reply state).1 with
        | error error => rfl
        | ok value => rfl

/-- Where a `try` goes on with a result of its first step. -/
def closing (body : α → Promise σ ρ ε β) (cleanup : σ → σ) : Except ε α → Proc σ ρ Unit
  | .error error => settled (ensure (ofExcept (.error error) : Promise σ ρ ε β) cleanup)
  | .ok value => settled (ensure (body value) cleanup)

theorem resume_ensured (act : ρ → σ → Except ε α × σ) (body : α → Promise σ ρ ε β) (cleanup : σ → σ)
    (reply : ρ) (state : σ) :
    (settled (ensure (serve act >>= body) cleanup)).resume reply state =
      ((act reply state).2, closing body cleanup (act reply state).1) := by
  calc (settled (ensure (serve act >>= body) cleanup)).resume reply state
      = ((act reply state).2, Proc.bind (Proc.bind (ExceptT.bindCont body (act reply state).1)
          fun result => Proc.sync fun later => (result, cleanup later)) fun _ => .done ()) := rfl
    _ = ((act reply state).2, closing body cleanup (act reply state).1) := by
        cases (act reply state).1 with
        | error error => rfl
        | ok value => rfl

end OpenGsn.Async.Promise
