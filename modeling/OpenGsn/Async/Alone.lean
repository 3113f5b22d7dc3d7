import OpenGsn.Async.Proc
import Mathlib.Data.Nat.Notation

/-! Code that has the shared state for itself from its start to its end. -/

namespace OpenGsn.Async

variable {σ ρ ε α β : Type}

namespace Proc

/-- The last state with the result, unless the code waits for others. -/
def finish (replies : ℕ → ρ) : ℕ → Proc σ ρ α → σ → Option (α × σ)
  | _, .done value, state => some (value, state)
  | count, .step ready effect next, state =>
      if ready state then
        finish replies (count + 1) (next (replies count) state) (effect (replies count) state)
      else none

/-- How many replies there were by then. -/
def taken (replies : ℕ → ρ) : ℕ → Proc σ ρ α → σ → ℕ
  | count, .done _, _ => count
  | count, .step ready effect next, state =>
      if ready state then
        taken replies (count + 1) (next (replies count) state) (effect (replies count) state)
      else count

/-- A part of the code is finished before what comes after it. -/
theorem finish_bind (replies : ℕ → ρ) (first : Proc σ ρ α) (rest : α → Proc σ ρ β) (count : ℕ)
    (state : σ) (ended : β × σ) (finished : finish replies count (first.bind rest) state = some ended) :
    ∃ value middle, finish replies count first state = some (value, middle) ∧
      finish replies (taken replies count first state) (rest value) middle = some ended := by
  induction first generalizing count state with
  | done value => exact ⟨value, state, rfl, finished⟩
  | step ready effect next ih =>
      simp only [bind, finish, taken] at finished ⊢
      by_cases enabled : ready state = true
      · simp only [if_pos enabled] at finished ⊢
        exact ih (replies count) state (count + 1) _ finished
      · rw [if_neg enabled] at finished
        cases finished

/-- The last state with the result, while the clock stands still. -/
def atOnce (reply : ρ) : Proc σ ρ α → σ → Option (α × σ)
  | .done value, state => some (value, state)
  | .step ready effect next, state =>
      if ready state then (next reply state).atOnce reply (effect reply state) else none

theorem atOnce_bind (reply : ρ) (first : Proc σ ρ α) (rest : α → Proc σ ρ β) (state : σ) :
    (first.bind rest).atOnce reply state =
      (first.atOnce reply state).bind fun ended => (rest ended.1).atOnce reply ended.2 := by
  induction first generalizing state with
  | done value => rfl
  | step ready effect next ih =>
      simp only [bind, atOnce]
      split
      · exact ih reply state _
      · rfl

/-- However it is answered, the code ends with `post`. -/
def Alone (post : α → σ → Prop) : Proc σ ρ α → σ → Prop
  | .done value, state => post value state
  | .step ready effect next, state =>
      ready state = true → ∀ reply, (next reply state).Alone post (effect reply state)

theorem alone_finish (post : α → σ → Prop) (replies : ℕ → ρ) (proc : Proc σ ρ α) (count : ℕ) (state last : σ)
    (value : α) (alone : proc.Alone post state) (finished : finish replies count proc state = some (value, last)) :
    post value last := by
  induction proc generalizing count state with
  | done result =>
      cases finished
      exact alone
  | step ready effect next ih =>
      unfold finish at finished
      by_cases enabled : ready state = true
      · rw [if_pos enabled] at finished
        exact ih (replies count) state (count + 1) _ (alone enabled (replies count)) finished
      · rw [if_neg enabled] at finished
        cases finished

theorem alone_bind (post : β → σ → Prop) (first : Proc σ ρ α) (rest : α → Proc σ ρ β) (state : σ) :
    (first.bind rest).Alone post state ↔ first.Alone (fun value later => (rest value).Alone post later) state := by
  induction first generalizing state with
  | done value => rfl
  | step ready effect next ih => exact forall_congr' fun _ => forall_congr' fun reply => ih reply state _

theorem alone_weaken {post : α → σ → Prop} (stronger : α → σ → Prop) (proc : Proc σ ρ α) (state : σ)
    (implied : ∀ value later, stronger value later → post value later) (alone : proc.Alone stronger state) :
    proc.Alone post state := by
  induction proc generalizing state with
  | done value => exact implied value state alone
  | step ready effect next ih => exact fun enabled reply => ih reply state _ (alone enabled reply)

/-- However it is answered, the code does not wait for others, and ends with `post`. -/
def Ends (post : α → σ → Prop) : Proc σ ρ α → σ → Prop
  | .done value, state => post value state
  | .step ready effect next, state =>
      ready state = true ∧ ∀ reply, (next reply state).Ends post (effect reply state)

theorem ends_finish (post : α → σ → Prop) (replies : ℕ → ρ) (proc : Proc σ ρ α) (count : ℕ) (state : σ)
    (ends : proc.Ends post state) :
    ∃ value last, finish replies count proc state = some (value, last) ∧ post value last := by
  induction proc generalizing count state with
  | done value => exact ⟨value, state, rfl, ends⟩
  | step ready effect next ih =>
      rw [finish, if_pos ends.1]
      exact ih (replies count) state (count + 1) _ (ends.2 (replies count))

theorem ends_alone (post : α → σ → Prop) (proc : Proc σ ρ α) (state : σ) (ends : proc.Ends post state) :
    proc.Alone post state := by
  induction proc generalizing state with
  | done value => exact ends
  | step ready effect next ih => exact fun _ reply => ih reply state _ (ends.2 reply)

theorem ends_bind (post : β → σ → Prop) (first : Proc σ ρ α) (rest : α → Proc σ ρ β) (state : σ)
    (ends : first.Ends (fun value later => (rest value).Ends post later) state) :
    (first.bind rest).Ends post state := by
  induction first generalizing state with
  | done value => exact ends
  | step ready effect next ih => exact ⟨ends.1, fun reply => ih reply state _ (ends.2 reply)⟩

theorem ends_weaken {post : α → σ → Prop} (stronger : α → σ → Prop) (proc : Proc σ ρ α) (state : σ)
    (implied : ∀ value later, stronger value later → post value later) (ends : proc.Ends stronger state) :
    proc.Ends post state := by
  induction proc generalizing state with
  | done value => exact implied value state ends
  | step ready effect next ih => exact ⟨ends.1, fun reply => ih reply state _ (ends.2 reply)⟩

theorem ends_and {first second : α → σ → Prop} (proc : Proc σ ρ α) (state : σ) (ends : proc.Ends first state)
    (alone : proc.Alone second state) :
    proc.Ends (fun value later => first value later ∧ second value later) state := by
  induction proc generalizing state with
  | done value => exact ⟨ends, alone⟩
  | step ready effect next ih =>
      exact ⟨ends.1, fun reply => ih reply state _ (ends.2 reply) (alone ends.1 reply)⟩

/-- Code for a part of the state. What is done to the part is put back with the reply. -/
def within {τ π : Type} (part : σ → τ) (put : ρ → τ → σ → σ) (reply : ρ → π) : Proc τ π α → Proc σ ρ α
  | .done value => .done value
  | .step ready effect next =>
      .step (fun state => ready (part state))
        (fun answer state => put answer (effect (reply answer) (part state)) state)
        fun answer state => within part put reply (next (reply answer) (part state))

/-- Where nothing else happens meanwhile, the part is run as it would be by itself. -/
theorem finish_within {τ π : Type} (part : σ → τ) (put : τ → σ → σ) (reply : ρ → π)
    (put_part : ∀ state, put (part state) state = state) (part_put : ∀ value state, part (put value state) = value)
    (put_put : ∀ value other state, put value (put other state) = put value state) (replies : ℕ → ρ)
    (proc : Proc τ π α) (count : ℕ) (state : σ) :
    finish replies count (proc.within part (fun _ => put) reply) state =
      (finish (fun position => reply (replies position)) count proc (part state)).map fun ended =>
        (ended.1, put ended.2 state) := by
  induction proc generalizing count state with
  | done value => rw [within, finish, finish, Option.map_some, put_part]
  | step ready effect next ih =>
      simp only [within, finish]
      split
      · rw [ih, part_put]
        simp only [put_put]
      · rfl

/-- What is done to the part is as if it were done by itself, whatever is put beside it. -/
theorem ends_within {τ π : Type} (part : σ → τ) (put : ρ → τ → σ → σ) (reply : ρ → π)
    (part_put : ∀ answer value state, part (put answer value state) = value) (post : α → τ → Prop)
    (proc : Proc τ π α) (state : σ) (ends : proc.Ends post (part state)) :
    (proc.within part put reply).Ends (fun value later => post value (part later)) state := by
  induction proc generalizing state with
  | done value => exact ends
  | step ready effect next ih =>
      refine ⟨ends.1, fun answer => ih (reply answer) (part state) _ ?_⟩
      rw [part_put]
      exact ends.2 (reply answer)

theorem alone_within {τ π : Type} (part : σ → τ) (put : ρ → τ → σ → σ) (reply : ρ → π)
    (kept : σ → σ → Prop) (chained : ∀ first second third, kept first second → kept second third → kept first third)
    (keeps : ∀ answer value state, kept state (put answer value state)) (proc : Proc τ π α)
    (start state : σ) (before : kept start state) :
    (proc.within part put reply).Alone (fun _ later => kept start later) state := by
  induction proc generalizing state with
  | done value => exact before
  | step ready effect next ih =>
      intro _ answer
      exact ih (reply answer) (part state) _ (chained _ _ _ before (keeps answer _ state))

end Proc

namespace Promise

variable {post : Except ε β → σ → Prop}

@[simp] theorem alone_pure (value : β) (state : σ) :
    Proc.Alone post (pure value : Promise σ ρ ε β) state ↔ post (.ok value) state := Iff.rfl

@[simp] theorem alone_ofExcept (result : Except ε β) (state : σ) :
    Proc.Alone post (ofExcept result : Promise σ ρ ε β) state ↔ post result state := Iff.rfl

@[simp] theorem alone_serve (act : ρ → σ → Except ε β × σ) (state : σ) :
    Proc.Alone post (serve act) state ↔ ∀ reply, post (act reply state).1 (act reply state).2 :=
  ⟨fun alone => alone rfl, fun holds _ => holds⟩

@[simp] theorem alone_sync [Nonempty ρ] (act : σ → β × σ) (state : σ) :
    Proc.Alone post (sync act : Promise σ ρ ε β) state ↔ post (.ok (act state).1) (act state).2 :=
  ⟨fun alone => alone rfl (Classical.arbitrary ρ), fun holds _ _ => holds⟩

theorem alone_bind (first : Promise σ ρ ε α) (rest : α → Promise σ ρ ε β) (state : σ) :
    Proc.Alone post (first >>= rest : Promise σ ρ ε β) state ↔
      Proc.Alone (fun result later =>
        match result with
        | .ok value => Proc.Alone post (rest value) later
        | .error error => post (.error error) later) first state := by
  refine (Proc.alone_bind post first _ state).trans ⟨Proc.alone_weaken _ _ _ ?_, Proc.alone_weaken _ _ _ ?_⟩
  all_goals
    intro result later implied
    cases result with
    | ok value => exact implied
    | error error => exact implied

theorem alone_seq {middle : Except ε α → σ → Prop} (first : Promise σ ρ ε α) (rest : α → Promise σ ρ ε β)
    (state : σ) (one : Proc.Alone middle first state)
    (fails : ∀ error later, middle (.error error) later → post (.error error) later)
    (two : ∀ value later, middle (.ok value) later → Proc.Alone post (rest value) later) :
    Proc.Alone post (first >>= rest : Promise σ ρ ε β) state := by
  rw [alone_bind]
  refine Proc.alone_weaken _ _ _ ?_ one
  intro result later reached
  cases result with
  | ok value => exact two value later reached
  | error error => exact fails error later reached

theorem alone_sync_seq (act : σ → α × σ) (rest : α → Promise σ ρ ε β) (state : σ)
    (alone : Proc.Alone post (rest (act state).1) (act state).2) :
    Proc.Alone post (sync act >>= rest : Promise σ ρ ε β) state :=
  fun _ _ => alone

theorem alone_caught {post : Except ε Unit → σ → Prop} (body : Promise σ ρ ε β) (state : σ)
    (alone : Proc.Alone (fun _ later => post (.ok ()) later) body state) :
    Proc.Alone post (caught body) state :=
  (Proc.alone_bind post _ _ state).mpr alone

/-! Code that is run at once -/

section AtOnce

variable (reply : ρ) (state : σ)

@[simp] theorem atOnce_pure (value : α) :
    Proc.atOnce reply (pure value : Promise σ ρ ε α) state = some (.ok value, state) := rfl

@[simp] theorem atOnce_ofExcept (result : Except ε α) :
    Proc.atOnce reply (ofExcept result : Promise σ ρ ε α) state = some (result, state) := rfl

@[simp] theorem atOnce_serve (act : ρ → σ → Except ε α × σ) :
    Proc.atOnce reply (serve act) state = some (act reply state) := rfl

@[simp] theorem atOnce_sync (act : σ → α × σ) :
    Proc.atOnce reply (sync act : Promise σ ρ ε α) state = some (.ok (act state).1, (act state).2) := rfl

/-- What comes after a result, or a failure. -/
def thenAtOnce (rest : α → Promise σ ρ ε β) : Except ε α × σ → Option (Except ε β × σ)
  | (.ok value, later) => Proc.atOnce reply (rest value) later
  | (.error error, later) => some (.error error, later)

theorem atOnce_bind (first : Promise σ ρ ε α) (rest : α → Promise σ ρ ε β) :
    Proc.atOnce reply (first >>= rest : Promise σ ρ ε β) state =
      (Proc.atOnce reply first state).bind (thenAtOnce reply rest) := by
  calc Proc.atOnce reply (first >>= rest : Promise σ ρ ε β) state
      = (Proc.atOnce reply first state).bind fun ended =>
          Proc.atOnce reply (ExceptT.bindCont rest ended.1) ended.2 := Proc.atOnce_bind reply first _ state
    _ = (Proc.atOnce reply first state).bind (thenAtOnce reply rest) := by
        congr 1
        funext ended
        obtain ⟨result, later⟩ := ended
        cases result with
        | ok value => rfl
        | error error => rfl

theorem atOnce_ensure (body : Promise σ ρ ε α) (cleanup : σ → σ) :
    Proc.atOnce reply (ensure body cleanup) state =
      (Proc.atOnce reply body state).map fun ended => (ended.1, cleanup ended.2) := by
  calc Proc.atOnce reply (ensure body cleanup) state
      = (Proc.atOnce reply body state).bind fun ended => some (ended.1, cleanup ended.2) :=
        Proc.atOnce_bind reply body _ state
    _ = _ := Option.map_eq_bind.symm

end AtOnce

/-- Code that leaves the state as it is. If it succeeds, `post` holds of its value. -/
def Reads (reply : ρ) (post : α → Prop) (promise : Promise σ ρ ε α) : Prop :=
  ∀ state, ∃ result, Proc.atOnce reply promise state = some (result, state) ∧
    ∀ value, result = .ok value → post value

section Reads

variable {reply : ρ} {post : α → Prop}

theorem reads_pure (value : α) (holds : post value) : Reads reply post (pure value : Promise σ ρ ε α) :=
  fun _ => ⟨.ok value, rfl, fun _ same => Except.ok.inj same ▸ holds⟩

theorem reads_ofExcept (result : Except ε α) (holds : ∀ value, result = .ok value → post value) :
    Reads reply post (ofExcept result : Promise σ ρ ε α) :=
  fun _ => ⟨result, rfl, holds⟩

theorem reads_serve (act : ρ → σ → Except ε α × σ) (still : ∀ state, (act reply state).2 = state)
    (holds : ∀ state value, (act reply state).1 = .ok value → post value) :
    Reads reply post (serve act) := by
  intro state
  refine ⟨(act reply state).1, ?_, holds state⟩
  rw [atOnce_serve, ← Prod.eta (act reply state), still state]

theorem reads_bind {middle : β → Prop} (first : Promise σ ρ ε β) (rest : β → Promise σ ρ ε α)
    (one : Reads reply middle first) (two : ∀ value, middle value → Reads reply post (rest value)) :
    Reads reply post (first >>= rest) := by
  intro state
  obtain ⟨result, ended, holds⟩ := one state
  cases result with
  | error error =>
      refine ⟨.error error, ?_, fun _ failed => nomatch failed⟩
      rw [atOnce_bind, ended]
      rfl
  | ok value =>
      obtain ⟨last, finished, after⟩ := two value (holds value rfl) state
      refine ⟨last, ?_, after⟩
      rw [atOnce_bind, ended]
      exact finished

end Reads

/-- What comes after an answer, or a failure. -/
def thenFinish (replies : ℕ → ρ) (count : ℕ) (rest : α → Promise σ ρ ε β) :
    Except ε α × σ → Option (Except ε β × σ)
  | (.ok value, later) => Proc.finish replies count (rest value) later
  | (.error error, later) => some (.error error, later)

theorem finish_serve (replies : ℕ → ρ) (count : ℕ) (act : ρ → σ → Except ε α × σ)
    (rest : α → Promise σ ρ ε β) (state : σ) :
    Proc.finish replies count (serve act >>= rest : Promise σ ρ ε β) state =
      thenFinish replies (count + 1) rest (act (replies count) state) := by
  calc Proc.finish replies count (serve act >>= rest : Promise σ ρ ε β) state
      = Proc.finish replies (count + 1) (ExceptT.bindCont rest (act (replies count) state).1)
          (act (replies count) state).2 := rfl
    _ = _ := by
        cases acted : act (replies count) state with
        | mk result later =>
            cases result with
            | ok value => rfl
            | error error => rfl

theorem finish_ensure (replies : ℕ → ρ) (count : ℕ) (body : Promise σ ρ ε α) (cleanup : σ → σ) (state last : σ)
    (result : Except ε α) (finished : Proc.finish replies count (ensure body cleanup) state = some (result, last)) :
    ∃ middle, Proc.finish replies count body state = some (result, middle) ∧ last = cleanup middle := by
  obtain ⟨value, middle, first, cleaned⟩ := Proc.finish_bind replies _ _ count state _ finished
  cases cleaned
  exact ⟨middle, first, rfl⟩

/-- How the code relates the states at its ends, whether it fails or not. -/
def Keeps (kept : σ → σ → Prop) (promise : Promise σ ρ ε α) : Prop :=
  ∀ state, Proc.Alone (fun _ later => kept state later) promise state

section Keeps

variable {kept : σ → σ → Prop}

theorem keeps_pure (reflexive : ∀ state, kept state state) (value : α) :
    Keeps kept (pure value : Promise σ ρ ε α) :=
  fun state => reflexive state

theorem keeps_bind (chained : ∀ first second third, kept first second → kept second third → kept first third)
    (first : Promise σ ρ ε α) (rest : α → Promise σ ρ ε β) (one : Keeps kept first)
    (two : ∀ value, Keeps kept (rest value)) : Keeps kept (first >>= rest) := by
  intro state
  refine alone_seq first rest state (one state) (fun _ _ moved => moved) ?_
  intro value later moved
  exact Proc.alone_weaken _ _ _ (fun _ last again => chained state later last moved again) (two value later)

/-- What comes after a part of the code relates what the part leaves to the end. -/
theorem finish_then (kept : σ → σ → Prop) (reflexive : ∀ state, kept state state) (replies : ℕ → ρ)
    (first : Promise σ ρ ε α) (rest : α → Promise σ ρ ε β) (keeps : ∀ value, Keeps kept (rest value))
    (count : ℕ) (state last : σ) (result : Except ε β)
    (finished : Proc.finish replies count (first >>= rest : Promise σ ρ ε β) state = some (result, last)) :
    ∃ value middle, Proc.finish replies count first state = some (value, middle) ∧ kept middle last := by
  obtain ⟨value, middle, begun, ended⟩ := Proc.finish_bind replies _ _ count state _ finished
  refine ⟨value, middle, begun, ?_⟩
  cases value with
  | ok value => exact Proc.alone_finish (fun _ later => kept middle later) _ _ _ _ _ _ (keeps value middle) ended
  | error error =>
      cases ended
      exact reflexive _

/-- The same of code that never waits. -/
def Settles (kept : σ → σ → Prop) (promise : Promise σ ρ ε α) : Prop :=
  ∀ state, Proc.Ends (fun _ later => kept state later) promise state

theorem settles_keeps (promise : Promise σ ρ ε α) (settles : Settles kept promise) : Keeps kept promise :=
  fun state => Proc.ends_alone _ _ state (settles state)

theorem ends_seq {post : Except ε β → σ → Prop} {middle : Except ε α → σ → Prop} (first : Promise σ ρ ε α)
    (rest : α → Promise σ ρ ε β) (state : σ) (one : Proc.Ends middle first state)
    (fails : ∀ error later, middle (.error error) later → post (.error error) later)
    (two : ∀ value later, middle (.ok value) later → Proc.Ends post (rest value) later) :
    Proc.Ends post (first >>= rest : Promise σ ρ ε β) state := by
  apply Proc.ends_bind
  refine Proc.ends_weaken _ _ _ ?_ one
  intro result later reached
  cases result with
  | ok value => exact two value later reached
  | error error => exact fails error later reached

theorem settles_bind (chained : ∀ first second third, kept first second → kept second third → kept first third)
    (first : Promise σ ρ ε α) (rest : α → Promise σ ρ ε β) (one : Settles kept first)
    (two : ∀ value, Settles kept (rest value)) : Settles kept (first >>= rest) := by
  intro state
  refine ends_seq first rest state (one state) (fun _ _ moved => moved) ?_
  intro value later moved
  exact Proc.ends_weaken _ _ _ (fun _ last again => chained state later last moved again) (two value later)

theorem settles_serve (act : ρ → σ → Except ε α × σ) (keeps : ∀ reply state, kept state (act reply state).2) :
    Settles kept (serve act) :=
  fun state => ⟨rfl, fun reply => keeps reply state⟩

theorem settles_sync (act : σ → α × σ) (keeps : ∀ state, kept state (act state).2) :
    Settles kept (sync act : Promise σ ρ ε α) :=
  fun state => ⟨rfl, fun _ => keeps state⟩

def within {τ π : Type} (part : σ → τ) (put : ρ → τ → σ → σ) (reply : ρ → π) (promise : Promise τ π ε α) :
    Promise σ ρ ε α :=
  ExceptT.mk (Proc.within part put reply promise.run)

theorem keeps_within {τ π : Type} (part : σ → τ) (put : ρ → τ → σ → σ) (reply : ρ → π)
    (reflexive : ∀ state, kept state state)
    (chained : ∀ first second third, kept first second → kept second third → kept first third)
    (keeps : ∀ answer value state, kept state (put answer value state)) (promise : Promise τ π ε α) :
    Keeps kept (within part put reply promise : Promise σ ρ ε α) :=
  fun state => Proc.alone_within part put reply kept chained keeps promise.run state state (reflexive state)

end Keeps

end Promise

end OpenGsn.Async
