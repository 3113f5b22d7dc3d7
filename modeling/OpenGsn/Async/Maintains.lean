import OpenGsn.Async.Pool

/-! Invariants of tasks that read what they need again after every wait. -/

namespace OpenGsn.Async

variable {σ ρ ε α β : Type}

/-- Every step of the code maintains the invariant, and what it returns is as `post` says. -/
def Proc.Holds (inv : σ → Prop) (post : α → Prop) : Proc σ ρ α → Prop
  | .done value => post value
  | .step ready effect next =>
      ∀ state reply, inv state → ready state = true →
        inv (effect reply state) ∧ (next reply state).Holds inv post

namespace Proc

variable {inv : σ → Prop}

theorem holds_bind {post : β → Prop} (first : Proc σ ρ α) (rest : α → Proc σ ρ β)
    (holds : first.Holds inv fun value => (rest value).Holds inv post) : (first.bind rest).Holds inv post := by
  induction first with
  | done value => exact holds
  | step ready effect next ih =>
      intro state reply held enabled
      obtain ⟨kept, later⟩ := holds state reply held enabled
      exact ⟨kept, ih reply state later⟩

theorem holds_weaken {stronger post : α → Prop} (proc : Proc σ ρ α) (holds : proc.Holds inv stronger)
    (implied : ∀ value, stronger value → post value) : proc.Holds inv post := by
  induction proc with
  | done value => exact implied value holds
  | step ready effect next ih =>
      intro state reply held enabled
      obtain ⟨kept, later⟩ := holds state reply held enabled
      exact ⟨kept, ih reply state later⟩

end Proc

namespace Promise

/-- The same of code that may fail, which says nothing of the failures. -/
def Maintains (inv : σ → Prop) (post : α → Prop) (promise : Promise σ ρ ε α) : Prop :=
  Proc.Holds inv (fun result : Except ε α => ∀ value, result = .ok value → post value) promise

variable {inv : σ → Prop}

theorem maintains_pure {post : α → Prop} (value : α) (holds : post value) :
    (pure value : Promise σ ρ ε α).Maintains inv post := by
  rintro _ ⟨⟩
  exact holds

theorem maintains_bind {post : β → Prop} (first : Promise σ ρ ε α) (rest : α → Promise σ ρ ε β)
    (maintains : first.Maintains inv fun value => (rest value).Maintains inv post) :
    (first >>= rest : Promise σ ρ ε β).Maintains inv post := by
  apply Proc.holds_bind
  apply Proc.holds_weaken _ maintains
  intro result implied
  cases result with
  | ok value => exact implied value rfl
  | error error => exact fun _ impossible => nomatch impossible

theorem maintains_weaken {stronger post : α → Prop} (promise : Promise σ ρ ε α)
    (maintains : promise.Maintains inv stronger)
    (implied : ∀ value, stronger value → post value) : promise.Maintains inv post :=
  Proc.holds_weaken _ maintains fun _ holds value same => implied value (holds value same)

theorem maintains_throw {post : α → Prop} (error : ε) : (throw error : Promise σ ρ ε α).Maintains inv post :=
  fun _ impossible => nomatch impossible

theorem maintains_ofExcept {post : α → Prop} (result : Except ε α)
    (holds : ∀ value, result = .ok value → post value) :
    (ofExcept result : Promise σ ρ ε α).Maintains inv post := holds

theorem maintains_serve {post : α → Prop} (act : ρ → σ → Except ε α × σ)
    (served : ∀ reply state, inv state →
      inv (act reply state).2 ∧ ∀ value, (act reply state).1 = .ok value → post value) :
    (serve act).Maintains inv post :=
  fun state reply held _ => served reply state held

theorem maintains_sync {post : α → Prop} (act : σ → α × σ)
    (acted : ∀ state, inv state → inv (act state).2 ∧ post (act state).1) :
    (sync act : Promise σ ρ ε α).Maintains inv post := by
  intro state reply held _
  obtain ⟨kept, holds⟩ := acted state held
  refine ⟨kept, ?_⟩
  rintro _ ⟨⟩
  exact holds

theorem maintains_waitUntil (ready : σ → Bool) (act : σ → σ) (kept : ∀ state, inv state → inv (act state)) :
    (waitUntil ready act : Promise σ ρ ε Unit).Maintains inv fun _ => True :=
  fun state _ held _ => ⟨kept state held, fun _ _ => trivial⟩

theorem maintains_ensure {post : α → Prop} (body : Promise σ ρ ε α) (cleanup : σ → σ)
    (cleaned : ∀ state, inv state → inv (cleanup state)) (maintains : body.Maintains inv post) :
    (ensure body cleanup).Maintains inv post := by
  apply Proc.holds_bind
  apply Proc.holds_weaken _ maintains
  intro result holds state reply held _
  exact ⟨cleaned state held, holds⟩

theorem maintains_caught (body : Promise σ ρ ε α) (maintains : body.Maintains inv fun _ => True) :
    (caught body).Maintains inv fun _ => True := by
  apply Proc.holds_bind
  apply Proc.holds_weaken _ maintains
  exact fun _ _ _ _ => trivial

end Promise

section Runs

variable {π χ τ : Type} {program : ℕ → π → Proc σ ρ Unit} {change : χ → σ → σ} {reset : τ → σ → σ}
  {inv : σ → Prop}

/-- An invariant that every program started in the run maintains holds at its end. -/
theorem run_holds (events : List (Event π ρ χ τ)) (w : World σ ρ)
    (started : ∀ task code, .start task code ∈ events → (program task code).Holds inv fun _ => True)
    (outside : ∀ outer state, inv state → inv (change outer state))
    (restarted : ∀ fresh state, inv state → inv (reset fresh state)) (holds : inv w.state)
    (running : ∀ task, (w.tasks task).Holds inv fun _ => True) :
    inv (World.run program change reset events w).state := by
  induction events generalizing w with
  | nil => exact holds
  | cons event rest ih =>
      have later : ∀ task code, .start task code ∈ rest → (program task code).Holds inv fun _ => True :=
        fun task code member => started task code (List.mem_cons_of_mem _ member)
      rw [World.run]
      cases event with
      | start task code =>
          cases current : w.tasks task with
          | step ready effect next =>
              simp only [World.next, current]
              exact ih w later holds running
          | done value =>
              simp only [World.next, current]
              refine ih _ later holds fun other => ?_
              by_cases same : other = task
              · subst same
                simpa [World.setTask] using started other code List.mem_cons_self
              · simpa [World.setTask, Function.update_of_ne same] using running other
      | resume task reply =>
          cases current : w.tasks task with
          | done value =>
              simp only [World.next, current]
              exact ih w later holds running
          | step ready effect next =>
              have own := running task
              rw [current] at own
              simp only [World.next, current]
              split
              · obtain ⟨kept, rest⟩ := own w.state reply holds ‹_›
                refine ih _ later kept fun other => ?_
                by_cases same : other = task
                · subst same
                  simpa using rest
                · simpa [Function.update_of_ne same] using running other
              · exact ih w later holds running
      | outside outer => exact ih _ later (outside outer w.state holds) running
      | restart fresh => exact ih _ later (restarted fresh w.state holds) fun _ => trivial

end Runs

end OpenGsn.Async
