import OpenGsn.InsertionMap
import Mathlib.Data.Fintype.Basic
import Mathlib.Data.Rat.Floor

/-! `Utils.ts`: `shuffle` and `waitForSuccess`. -/

namespace OpenGsn.Provider

structure Random where
  value : ℚ
  nonneg : 0 ≤ value
  below : value < 1

namespace Random

/-- `Math.floor(random() * length)` -/
def index (random : Random) (length : ℕ) : ℕ := (random.value * length).floor.toNat

theorem index_lt (random : Random) (length : ℕ) (positive : 0 < length) : random.index length < length := by
  have scaled : random.value * length < length := by
    have inside : (0 : ℚ) < length := Nat.cast_pos.mpr positive
    calc
      random.value * length < 1 * length := mul_lt_mul_of_pos_right random.below inside
      _ = length := one_mul _
  have floored : (random.value * length).floor < (length : ℤ) := by
    rw [Rat.floor_lt_iff]
    exact_mod_cast scaled
  unfold index
  omega

end Random

def shuffleLoop {α : Type} (random : ℕ → Random) : ℕ → Array α → Array α
  | 0, array => array
  | currentIndex + 1, array =>
      shuffleLoop random currentIndex
        (array.swapIfInBounds currentIndex ((random currentIndex).index (currentIndex + 1)))

def shuffle {α : Type} (random : ℕ → Random) (array : List α) : List α :=
  (shuffleLoop random array.length array.toArray).toList

theorem swapIfInBounds_perm {α : Type} (array : Array α) (first second : ℕ) :
    (array.swapIfInBounds first second).Perm array := by
  rw [Array.swapIfInBounds_def]
  split_ifs with left right
  · exact Array.swap_perm left right
  · exact .rfl
  · exact .rfl

theorem shuffleLoop_perm {α : Type} (random : ℕ → Random) (currentIndex : ℕ) (array : Array α) :
    (shuffleLoop random currentIndex array).Perm array := by
  induction currentIndex generalizing array with
  | zero => exact .rfl
  | succ currentIndex ih => exact (ih _).trans (swapIfInBounds_perm array _ _)

theorem shuffle_perm {α : Type} (random : ℕ → Random) (array : List α) : (shuffle random array).Perm array :=
  (shuffleLoop_perm random array.length array.toArray).toList

/-! `waitForSuccess` -/

structure WaitForSuccessResults (T : Type) where
  winner : Option T
  results : List T
  errors : InsertionMap (List Char) String

variable {ρ T : Type}

/-- A call of `waitForSuccess` in progress. A promise is what it makes of the answer it waits for.

`unsettled` are the promises without an answer, `settled` those whose `finally` has not run.
`graceTimer` says that the timer is running, `resolved` that the caller may go on: it reads `ret` when it
does, with what has happened since. -/
structure Race (ρ T : Type) where
  promises : List (ρ → Except String T)
  errorKeys : List (List Char)
  keyed : promises.length = errorKeys.length
  distinct : errorKeys.Nodup
  ret : WaitForSuccessResults T
  unsettled : List ℕ
  settled : List ℕ
  graceTimer : Bool
  resolved : Bool

inductive RaceEvent (ρ : Type) : Type
  | settle (promise : ℕ) (answer : ρ)
  | finish (promise : ℕ) (random : Random)
  | timeout (random : Random)

theorem nodup_of_idxOf (errorKeys : List (List Char))
    (first : ¬∃ i : Fin errorKeys.length, errorKeys.idxOf (errorKeys.get i) ≠ i) : errorKeys.Nodup := by
  rw [List.nodup_iff_injective_get]
  intro i j same
  have indexed : ∀ i : Fin errorKeys.length, errorKeys.idxOf (errorKeys.get i) = i := by
    intro i
    by_contra other
    exact first ⟨i, other⟩
  apply Fin.ext
  calc
    (i : ℕ) = errorKeys.idxOf (errorKeys.get i) := (indexed i).symm
    _ = errorKeys.idxOf (errorKeys.get j) := by rw [same]
    _ = j := indexed j

def waitForSuccess (promises : List (ρ → Except String T)) (errorKeys : List (List Char)) :
    Except String (Race ρ T) :=
  if keyed : promises.length ≠ errorKeys.length then .error "Invalid errorKeys length"
  else if duplicate : ∃ i : Fin errorKeys.length, errorKeys.idxOf (errorKeys.get i) ≠ i then
    .error "waitForSuccess: duplicate relay URL keys, aborting"
  else
    .ok
      { promises, errorKeys
        keyed := not_not.mp keyed
        distinct := nodup_of_idxOf errorKeys duplicate
        ret := ⟨none, [], .empty⟩
        unsettled := List.range promises.length
        settled := []
        graceTimer := false
        resolved := false }

namespace Race

variable (race : Race ρ T)

def complete (random : Random) : Race ρ T :=
  { race with
    ret :=
      if race.ret.results.length ≠ 0 then
        { race.ret with winner := race.ret.results[random.index race.ret.results.length]? }
      else race.ret
    resolved := true }

/-- The callback of `then`. The timer is set by the first result. -/
def fulfilled (promise : ℕ) (result : T) : Race ρ T :=
  let results := race.ret.results ++ [result]
  { race with
    ret := { race.ret with results }
    unsettled := race.unsettled.erase promise
    settled := promise :: race.settled
    graceTimer := race.graceTimer || results.length == 1 }

/-- The callback of `catch` -/
def rejected (promise : ℕ) (errorKey : List Char) (err : String) : Race ρ T :=
  { race with
    ret := { race.ret with errors := race.ret.errors.set errorKey err }
    unsettled := race.unsettled.erase promise
    settled := promise :: race.settled }

/-- The callback of `finally` -/
def finished (promise : ℕ) (random : Random) : Race ρ T :=
  let waited := { race with settled := race.settled.erase promise }
  if race.ret.results.length + race.ret.errors.size = race.promises.length then waited.complete random else waited

def step : RaceEvent ρ → Race ρ T → Except Unit (Race ρ T)
  | .settle promise answer, race =>
      match race.promises[promise]?, race.errorKeys[promise]? with
      | some waiting, some errorKey =>
          if promise ∈ race.unsettled then
            match waiting answer with
            | .ok result => .ok (race.fulfilled promise result)
            | .error err => .ok (race.rejected promise errorKey err)
          else .error ()
      | _, _ => .error ()
  | .finish promise random, race =>
      if promise ∈ race.settled then .ok (race.finished promise random) else .error ()
  | .timeout random, race =>
      if race.graceTimer then .ok ({ race with graceTimer := false }.complete random) else .error ()

end Race

end OpenGsn.Provider
