import OpenGsn.Async.Maintains

/-! What the tasks return. -/

namespace OpenGsn.Async

variable {σ ρ π χ τ α : Type}

/-- A world that keeps what its tasks return, with the programs that returned it. -/
structure Results (σ ρ π α : Type) where
  state : σ
  tasks : ℕ → Option (π × Proc σ ρ α)
  returned : List (ℕ × π × α)

namespace Results

def settle (w : Results σ ρ π α) (task : ℕ) (code : π) : Proc σ ρ α → Results σ ρ π α
  | .done value =>
      { w with tasks := Function.update w.tasks task none, returned := w.returned ++ [(task, code, value)] }
  | .step ready effect next =>
      { w with tasks := Function.update w.tasks task (some (code, .step ready effect next)) }

variable (program : ℕ → π → Proc σ ρ α) (change : χ → σ → σ) (reset : τ → σ → σ)

def next (event : Event π ρ χ τ) (w : Results σ ρ π α) : Results σ ρ π α :=
  match event with
  | .start task code =>
      match w.tasks task with
      | none => w.settle task code (program task code)
      | some _ => w
  | .resume task reply =>
      match w.tasks task with
      | none => w
      | some (code, proc) =>
          { w with state := (proc.resume reply w.state).1 }.settle task code (proc.resume reply w.state).2
  | .outside outer => { w with state := change outer w.state }
  | .restart fresh => { w with state := reset fresh w.state, tasks := fun _ => none }

def run : List (Event π ρ χ τ) → Results σ ρ π α → Results σ ρ π α
  | [], w => w
  | event :: rest, w => run rest (w.next program change reset event)

/-! The results left out -/

def silent (proc : Proc σ ρ α) : Proc σ ρ Unit := proc.bind fun _ => .done ()

def forget (w : Results σ ρ π α) : World σ ρ where
  state := w.state
  tasks task :=
    match w.tasks task with
    | none => .done ()
    | some (_, proc) => silent proc

/-- Code that is over is no task. -/
def Live (w : Results σ ρ π α) : Prop := ∀ task code value, w.tasks task ≠ some (code, .done value)

theorem settle_live (w : Results σ ρ π α) (task : ℕ) (code : π) (proc : Proc σ ρ α) (live : w.Live) :
    (w.settle task code proc).Live := by
  intro other
  cases proc with
  | done value =>
      by_cases same : other = task
      · subst same
        simp [settle]
      · simpa [settle, Function.update_of_ne same] using live other
  | step ready effect next =>
      by_cases same : other = task
      · subst same
        simp [settle]
      · simpa [settle, Function.update_of_ne same] using live other

theorem next_live (event : Event π ρ χ τ) (w : Results σ ρ π α) (live : w.Live) :
    (w.next program change reset event).Live := by
  cases event with
  | start task code =>
      simp only [next]
      split
      · exact settle_live w task code _ live
      · exact live
  | resume task reply =>
      simp only [next]
      split
      · exact live
      · exact settle_live _ task _ _ live
  | outside outer => exact live
  | restart fresh => exact fun _ _ _ impossible => nomatch impossible

theorem forget_settle (w : Results σ ρ π α) (task : ℕ) (code : π) (proc : Proc σ ρ α) :
    (w.settle task code proc).forget = w.forget.setTask task (silent proc) := by
  cases proc with
  | done value =>
      simp only [settle, forget, World.setTask, World.mk.injEq, true_and]
      funext other
      by_cases same : other = task
      · subst same
        simp [silent, Proc.bind]
      · simp [Function.update_of_ne same]
  | step ready effect next =>
      simp only [settle, forget, World.setTask, World.mk.injEq, true_and]
      funext other
      by_cases same : other = task
      · subst same
        simp
      · simp [Function.update_of_ne same]

theorem next_forget (event : Event π ρ χ τ) (w : Results σ ρ π α) (live : w.Live) :
    (w.next program change reset event).forget =
      w.forget.next (fun task code => silent (program task code)) change reset event := by
  cases event with
  | start task code =>
      cases running : w.tasks task with
      | none =>
          have idle : w.forget.tasks task = .done () := by simp [forget, running]
          simp only [next, World.next, running, idle, forget_settle]
      | some current =>
          obtain ⟨former, proc⟩ := current
          cases proc with
          | done value => exact absurd running (live task former value)
          | step ready effect next => simp [Results.next, World.next, running, forget, silent, Proc.bind]
  | resume task reply =>
      cases running : w.tasks task with
      | none => simp [next, World.next, running, forget]
      | some current =>
          obtain ⟨code, proc⟩ := current
          cases proc with
          | done value => exact absurd running (live task code value)
          | step ready effect next =>
              have own : w.forget.tasks task = silent (.step ready effect next) := by
                simp [forget, running]
              simp only [Results.next, World.next, running, own, forget_settle, silent, Proc.bind, Proc.resume]
              by_cases enabled : ready w.state = true
              · simp [forget, World.setTask, enabled]
              · have still : Function.update w.forget.tasks task (silent (.step ready effect next)) =
                    w.forget.tasks := by
                  rw [← own, Function.update_eq_self]
                simp only [silent, Proc.bind] at still
                simp [forget, World.setTask, enabled] at still ⊢
                exact still
  | outside outer => rfl
  | restart fresh => rfl

/-- The run is the one without the results. -/
theorem run_forget (events : List (Event π ρ χ τ)) (w : Results σ ρ π α) (live : w.Live) :
    (run program change reset events w).forget =
      World.run (fun task code => silent (program task code)) change reset events w.forget := by
  induction events generalizing w with
  | nil => rfl
  | cons event rest ih =>
      rw [run, ih _ (next_live program change reset event w live), next_forget program change reset event w live,
        World.run]

/-! What is known of the results -/

section Holds

variable {program change reset} {inv : σ → Prop} {post : ℕ → π → α → Prop}

structure Sound (inv : σ → Prop) (post : ℕ → π → α → Prop) (w : Results σ ρ π α) : Prop where
  holds : inv w.state
  running : ∀ task code proc, w.tasks task = some (code, proc) → proc.Holds inv (post task code)
  returned : ∀ entry ∈ w.returned, post entry.1 entry.2.1 entry.2.2

theorem settle_sound (w : Results σ ρ π α) (task : ℕ) (code : π) (proc : Proc σ ρ α) (sound : w.Sound inv post)
    (own : proc.Holds inv (post task code)) : (w.settle task code proc).Sound inv post := by
  have others : ∀ (current : Option (π × Proc σ ρ α)),
      (∀ former rest, current = some (former, rest) → rest.Holds inv (post task former)) →
      ∀ other former rest, Function.update w.tasks task current other = some (former, rest) →
        rest.Holds inv (post other former) := by
    intro current mine other former rest
    by_cases same : other = task
    · subst same
      simpa using mine former rest
    · simpa [Function.update_of_ne same] using sound.running other former rest
  cases proc with
  | done value =>
      refine ⟨sound.holds, others none (fun _ _ impossible => nomatch impossible), ?_⟩
      intro entry member
      rcases List.mem_append.mp member with old | new
      · exact sound.returned entry old
      · rw [List.mem_singleton.mp new]
        exact own
  | step ready effect next =>
      refine ⟨sound.holds, others _ ?_, sound.returned⟩
      rintro former rest ⟨⟩
      exact own

theorem resume_holds {post : α → Prop} (proc : Proc σ ρ α) (reply : ρ) (state : σ) (held : inv state)
    (holds : proc.Holds inv post) :
    inv (proc.resume reply state).1 ∧ (proc.resume reply state).2.Holds inv post := by
  cases proc with
  | done value => exact ⟨held, holds⟩
  | step ready effect next =>
      rw [Proc.resume]
      split
      · exact holds state reply held ‹_›
      · exact ⟨held, holds⟩

theorem run_sound (events : List (Event π ρ χ τ)) (w : Results σ ρ π α) (sound : w.Sound inv post)
    (started : ∀ task code, .start task code ∈ events → (program task code).Holds inv (post task code))
    (outside : ∀ outer state, inv state → inv (change outer state))
    (restarted : ∀ fresh state, inv state → inv (reset fresh state)) :
    (run program change reset events w).Sound inv post := by
  induction events generalizing w with
  | nil => exact sound
  | cons event rest ih =>
      have later : ∀ task code, .start task code ∈ rest → (program task code).Holds inv (post task code) :=
        fun task code member => started task code (List.mem_cons_of_mem _ member)
      refine ih _ ?_ later
      cases event with
      | start task code =>
          simp only [next]
          split
          · exact settle_sound w task code _ sound (started task code List.mem_cons_self)
          · exact sound
      | resume task reply =>
          simp only [next]
          split
          · exact sound
          · rename_i code proc running
            obtain ⟨held, goes⟩ := resume_holds proc reply w.state sound.holds (sound.running task code proc running)
            exact settle_sound _ task code _ ⟨held, sound.running, sound.returned⟩ goes
      | outside outer => exact ⟨outside outer w.state sound.holds, sound.running, sound.returned⟩
      | restart fresh =>
          have idle : ∀ task code proc, (fun _ => none : ℕ → Option (π × Proc σ ρ α)) task = some (code, proc) →
              proc.Holds inv (post task code) := fun _ _ _ impossible => nomatch impossible
          exact ⟨restarted fresh w.state sound.holds, idle, sound.returned⟩

end Holds

end Results

end OpenGsn.Async
