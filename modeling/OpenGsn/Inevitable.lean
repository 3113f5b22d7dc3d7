import OpenGsn.Runs
import Mathlib.Order.WellFounded

/-! What comes about in every run that goes on as long as it can. -/

namespace OpenGsn.Runs

variable {σ ι ε : Type} (step : ι → σ → Except ε σ)

/-- Until the goal is reached, some step is possible, and each that is leads on to the goal. -/
inductive Inevitable (goal : σ → Prop) : σ → Prop
  | now {state : σ} (reached : goal state) : Inevitable goal state
  | later {state : σ} (possible : ∃ input next, step input state = .ok next)
      (every : ∀ input next, step input state = .ok next → Inevitable goal next) : Inevitable goal state

/-- An invariant under which steps are possible and lower a rank until the goal is reached. -/
theorem inevitable_of_rank {α : Type} [LT α] [WellFoundedLT α] (rank : σ → α) (holds goal : σ → Prop)
    (possible : ∀ state, holds state → ¬goal state → ∃ input next, step input state = .ok next)
    (keeps : ∀ input state next, holds state → step input state = .ok next → holds next)
    (lowers : ∀ input state next, holds state → ¬goal state → step input state = .ok next → rank next < rank state)
    (state : σ) (start : holds state) : Inevitable step goal state := by
  induction state using (InvImage.wf rank wellFounded_lt).induction with
  | _ state ih =>
      by_cases reached : goal state
      · exact .now reached
      · exact .later (possible state start reached) fun input next taken =>
          ih next (lowers input state next start reached taken) (keeps input state next start taken)

end OpenGsn.Runs
