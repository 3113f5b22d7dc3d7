import OpenGsn.Provider.Utils

/-! A race between promises ends, and tells of each of them at most once. -/

namespace OpenGsn.Provider.Race

variable {ρ T : Type} (race : Race ρ T)

def Gives (errorKey : List Char) (result : T) : Prop :=
  ∃ (promise : ℕ) (waiting : ρ → Except String T) (answer : ρ), race.promises[promise]? = some waiting ∧
    race.errorKeys[promise]? = some errorKey ∧ waiting answer = .ok result

def waitedKeys : List (List Char) := race.unsettled.filterMap fun promise => race.errorKeys[promise]?

/-- `nameOf` finds the key of a promise in its result. -/
structure Consistent (nameOf : T → List Char) : Prop where
  named : ∀ errorKey result, race.Gives errorKey result → nameOf result = errorKey
  given : ∀ result ∈ race.ret.results, ∃ errorKey, race.Gives errorKey result
  inside : ∀ promise ∈ race.unsettled, promise < race.promises.length
  accounted : (race.ret.results.map nameOf ++ race.ret.errors.keys ++ race.waitedKeys).Perm race.errorKeys
  among : ∀ winner, race.ret.winner = some winner → winner ∈ race.ret.results
  timed : race.graceTimer = true → race.ret.results ≠ []
  decided : race.resolved = true → race.ret.winner ≠ none ∨ race.unsettled = [] ∧ race.ret.results = []
  resolves : race.unsettled = [] → race.settled = [] → race.resolved = true

inductive Moves : Race ρ T → Prop
  | fulfilled (promise : ℕ) (errorKey : List Char) (result : T) (waited : promise ∈ race.unsettled)
      (key : race.errorKeys[promise]? = some errorKey) (gives : race.Gives errorKey result) :
      Moves (race.fulfilled promise result)
  | rejected (promise : ℕ) (errorKey : List Char) (err : String) (waited : promise ∈ race.unsettled)
      (key : race.errorKeys[promise]? = some errorKey) : Moves (race.rejected promise errorKey err)
  | finished (promise : ℕ) (random : Random) (answered : promise ∈ race.settled) :
      Moves (race.finished promise random)
  | timeout (random : Random) (running : race.graceTimer = true) :
      Moves ({ race with graceTimer := false }.complete random)

theorem step_moves (event : RaceEvent ρ) (next : Race ρ T) (taken : step event race = .ok next) :
    race.Moves next := by
  cases event with
  | settle promise answer =>
      rw [step] at taken
      split at taken
      · next waiting errorKey found key =>
        split_ifs at taken with waited
        cases answered : waiting answer with
        | ok result =>
            rw [answered] at taken
            cases taken
            exact .fulfilled promise errorKey result waited key ⟨promise, waiting, answer, found, key, answered⟩
        | error err =>
            rw [answered] at taken
            cases taken
            exact .rejected promise errorKey err waited key
      · cases taken
  | finish promise random =>
      rw [step] at taken
      split_ifs at taken with answered
      cases taken
      exact .finished promise random answered
  | timeout random =>
      rw [step] at taken
      split_ifs at taken with running
      cases taken
      exact .timeout random running

theorem complete_ret (random : Random) (results : race.ret.results = []) : (race.complete random).ret = race.ret := by
  rw [complete, if_neg (by simp [results])]

theorem complete_results (random : Random) : (race.complete random).ret.results = race.ret.results := by
  rw [complete]
  split <;> rfl

theorem complete_errors (random : Random) : (race.complete random).ret.errors = race.ret.errors := by
  rw [complete]
  split <;> rfl

theorem complete_winner (random : Random) (some_result : race.ret.results ≠ []) :
    ∃ winner ∈ race.ret.results, (race.complete random).ret.winner = some winner := by
  have positive : 0 < race.ret.results.length := List.length_pos_iff.mpr some_result
  have inside := random.index_lt race.ret.results.length positive
  refine ⟨race.ret.results[random.index race.ret.results.length], List.getElem_mem inside, ?_⟩
  rw [complete, if_pos positive.ne']
  exact List.getElem?_eq_getElem inside

theorem Moves.kept {race next : Race ρ T} (moved : race.Moves next) :
    next.promises = race.promises ∧ next.errorKeys = race.errorKeys := by
  cases moved with
  | fulfilled promise errorKey result waited key gives => exact ⟨rfl, rfl⟩
  | rejected promise errorKey err waited key => exact ⟨rfl, rfl⟩
  | finished promise random answered =>
      rw [Race.finished]
      split_ifs
      · exact ⟨rfl, rfl⟩
      · exact ⟨rfl, rfl⟩
  | timeout random running => exact ⟨rfl, rfl⟩

section Consistency

variable {race} {nameOf : T → List Char}

theorem waitedKeys_perm (promise : ℕ) (errorKey : List Char) (waited : promise ∈ race.unsettled)
    (key : race.errorKeys[promise]? = some errorKey) :
    race.waitedKeys.Perm
      (errorKey :: (race.unsettled.erase promise).filterMap fun promise => race.errorKeys[promise]?) := by
  have front := (List.perm_cons_erase waited).filterMap fun promise => race.errorKeys[promise]?
  rwa [List.filterMap_cons_some key] at front

theorem Consistent.unsettled_nil (consistent : race.Consistent nameOf) (none_waited : race.waitedKeys = []) :
    race.unsettled = [] := by
  rw [List.eq_nil_iff_forall_not_mem]
  intro promise waited
  have inside : promise < race.errorKeys.length := race.keyed ▸ consistent.inside promise waited
  have key : race.errorKeys[promise] ∈ race.waitedKeys :=
    List.mem_filterMap.mpr ⟨promise, waited, List.getElem?_eq_getElem inside⟩
  exact List.not_mem_nil (none_waited ▸ key)

theorem Consistent.counted (consistent : race.Consistent nameOf) :
    race.ret.results.length + race.ret.errors.size + race.waitedKeys.length = race.promises.length := by
  rw [race.keyed, ← consistent.accounted.length_eq]
  simp [InsertionMap.keys_length, Nat.add_assoc]

theorem perm_taken {α : Type} (front back rest : List α) (value : α) :
    (front ++ [value] ++ back ++ rest).Perm (front ++ back ++ value :: rest) := by
  have middle : (back ++ value :: rest).Perm (value :: (back ++ rest)) := List.perm_middle
  simp only [List.append_assoc]
  exact middle.symm.append_left front

theorem Consistent.fulfilled (consistent : race.Consistent nameOf) (promise : ℕ) (errorKey : List Char) (result : T)
    (waited : promise ∈ race.unsettled) (key : race.errorKeys[promise]? = some errorKey)
    (gives : race.Gives errorKey result) : (race.fulfilled promise result).Consistent nameOf where
  named := consistent.named
  given := by
    intro other member
    cases List.mem_append.mp member with
    | inl before => exact consistent.given other before
    | inr now =>
        rw [List.mem_singleton.mp now]
        exact ⟨errorKey, gives⟩
  inside := fun other member => consistent.inside other (List.mem_of_mem_erase member)
  accounted := by
    have name : (race.ret.results ++ [result]).map nameOf = race.ret.results.map nameOf ++ [errorKey] := by
      rw [List.map_append, List.map_singleton, consistent.named errorKey result gives]
    have front := perm_taken (race.ret.results.map nameOf) race.ret.errors.keys
      (race.fulfilled promise result).waitedKeys errorKey
    have waiting := (waitedKeys_perm promise errorKey waited key).symm.append_left
      (race.ret.results.map nameOf ++ race.ret.errors.keys)
    exact name ▸ (front.trans waiting).trans consistent.accounted
  among := fun winner picked => List.mem_append_left [result] (consistent.among winner picked)
  timed := fun _ => List.append_ne_nil_of_right_ne_nil _ (List.cons_ne_nil result [])
  decided := by
    intro resolved
    cases consistent.decided resolved with
    | inl picked => exact Or.inl picked
    | inr ended => exact absurd (ended.1 ▸ waited) List.not_mem_nil
  resolves := fun _ settled => absurd settled (List.cons_ne_nil promise race.settled)

theorem Consistent.rejected (consistent : race.Consistent nameOf) (promise : ℕ) (errorKey : List Char) (err : String)
    (waited : promise ∈ race.unsettled) (key : race.errorKeys[promise]? = some errorKey) :
    (race.rejected promise errorKey err).Consistent nameOf where
  named := consistent.named
  given := consistent.given
  inside := fun other member => consistent.inside other (List.mem_of_mem_erase member)
  accounted := by
    have waiting := (waitedKeys_perm promise errorKey waited key).append_left
      (race.ret.results.map nameOf ++ race.ret.errors.keys)
    have distinct := (waiting.symm.trans consistent.accounted).nodup_iff.mpr race.distinct
    have new : errorKey ∉ race.ret.errors.keys := fun member =>
      (List.nodup_append.mp distinct).2.2 errorKey (List.mem_append_right _ member) errorKey List.mem_cons_self rfl
    have keys : (race.ret.errors.set errorKey err).keys = race.ret.errors.keys ++ [errorKey] :=
      InsertionMap.keys_set_new race.ret.errors errorKey err new
    have moved : race.ret.results.map nameOf ++ (race.ret.errors.set errorKey err).keys ++
          (race.rejected promise errorKey err).waitedKeys =
        race.ret.results.map nameOf ++ race.ret.errors.keys ++
          errorKey :: (race.rejected promise errorKey err).waitedKeys := by
      rw [keys]
      simp
    exact moved ▸ waiting.symm.trans consistent.accounted
  among := consistent.among
  timed := consistent.timed
  decided := by
    intro resolved
    cases consistent.decided resolved with
    | inl picked => exact Or.inl picked
    | inr ended => exact absurd (ended.1 ▸ waited) List.not_mem_nil
  resolves := fun _ settled => absurd settled (List.cons_ne_nil promise race.settled)

theorem Consistent.complete (consistent : race.Consistent nameOf) (random : Random)
    (ended : race.ret.results = [] → race.unsettled = []) : (race.complete random).Consistent nameOf := by
  by_cases results : race.ret.results = []
  · have same := complete_ret race random results
    constructor
    case named => exact consistent.named
    case given => exact same ▸ consistent.given
    case inside => exact consistent.inside
    case accounted => exact same ▸ consistent.accounted
    case among => exact same ▸ consistent.among
    case timed => exact same ▸ consistent.timed
    case decided => exact fun _ => Or.inr ⟨ended results, same ▸ results⟩
    case resolves => exact fun _ _ => rfl
  · obtain ⟨winner, member, picked⟩ := complete_winner race random results
    have kept := complete_results race random
    have errors := complete_errors race random
    constructor
    case named => exact consistent.named
    case given => exact kept ▸ consistent.given
    case inside => exact consistent.inside
    case accounted => exact kept ▸ errors ▸ consistent.accounted
    case among =>
      intro other chosen
      rw [picked] at chosen
      exact kept ▸ Option.some.inj chosen ▸ member
    case timed => exact fun _ => kept ▸ results
    case decided => exact fun _ => Or.inl (picked ▸ Option.some_ne_none winner)
    case resolves => exact fun _ _ => rfl

theorem Consistent.waits (consistent : race.Consistent nameOf) (settled : List ℕ)
    (resolves : race.unsettled = [] → settled = [] → race.resolved = true) :
    ({ race with settled } : Race ρ T).Consistent nameOf :=
  { consistent with resolves }

/-- The last `finally` resolves, since by then each promise is counted. -/
theorem Consistent.finished (consistent : race.Consistent nameOf) (promise : ℕ) (random : Random) :
    (race.finished promise random).Consistent nameOf := by
  have counted := consistent.counted
  rw [Race.finished]
  split_ifs with every
  · have none_waited : race.waitedKeys = [] := by
      rw [← List.length_eq_zero_iff]
      omega
    exact (consistent.complete random fun _ => consistent.unsettled_nil none_waited).waits
      (race.settled.erase promise) fun _ _ => rfl
  · refine consistent.waits (race.settled.erase promise) fun unsettled _ => absurd ?_ every
    have none_waited : race.waitedKeys.length = 0 := by
      rw [waitedKeys, unsettled]
      rfl
    omega

theorem Consistent.timeout (consistent : race.Consistent nameOf) (random : Random)
    (running : race.graceTimer = true) :
    (({ race with graceTimer := false } : Race ρ T).complete random).Consistent nameOf := by
  have stopped : ({ race with graceTimer := false } : Race ρ T).Consistent nameOf :=
    { consistent with timed := fun running => absurd running Bool.false_ne_true }
  exact stopped.complete random fun results => absurd results (consistent.timed running)

theorem Consistent.moves (consistent : race.Consistent nameOf) (next : Race ρ T) (moved : race.Moves next) :
    next.Consistent nameOf := by
  cases moved with
  | fulfilled promise errorKey result waited key gives =>
      exact consistent.fulfilled promise errorKey result waited key gives
  | rejected promise errorKey err waited key => exact consistent.rejected promise errorKey err waited key
  | finished promise random answered => exact consistent.finished promise random
  | timeout random running => exact consistent.timeout random running

theorem range_filterMap_getElem? {α : Type} (list : List α) :
    ((List.range list.length).filterMap fun position => list[position]?) = list := by
  induction list with
  | nil => rfl
  | cons value rest ih =>
      rw [List.length_cons, List.range_succ_eq_map, List.filterMap_cons_some List.getElem?_cons_zero,
        List.filterMap_map]
      exact congrArg (List.cons value) ih

theorem waitForSuccess_starts (promises : List (ρ → Except String T)) (errorKeys : List (List Char))
    (keyed : promises.length = errorKeys.length) (distinct : errorKeys.Nodup) (nonempty : promises ≠ [])
    (named : ∀ (promise : ℕ) (waiting : ρ → Except String T) (errorKey : List Char) (answer : ρ) (result : T),
      promises[promise]? = some waiting → errorKeys[promise]? = some errorKey → waiting answer = .ok result →
        nameOf result = errorKey) :
    ∃ race, waitForSuccess promises errorKeys = .ok race ∧ race.promises = promises ∧ race.errorKeys = errorKeys ∧
      race.Consistent nameOf := by
  have first : ¬∃ i : Fin errorKeys.length, errorKeys.idxOf (errorKeys.get i) ≠ i := by
    rintro ⟨i, other⟩
    exact other (distinct.idxOf_getElem i i.isLt)
  rw [waitForSuccess, dif_neg (not_not.mpr keyed), dif_neg first]
  refine ⟨_, rfl, rfl, rfl, ?_⟩
  constructor
  case named =>
    intro errorKey result gives
    obtain ⟨promise, waiting, answer, found, key, answered⟩ := gives
    exact named promise waiting errorKey answer result found key answered
  case given => exact fun result member => absurd member List.not_mem_nil
  case inside => exact fun promise member => List.mem_range.mp member
  case accounted =>
    change ([] ++ [] ++ (List.range promises.length).filterMap fun promise => errorKeys[promise]?).Perm errorKeys
    rw [keyed, range_filterMap_getElem?]
    exact List.Perm.refl errorKeys
  case among => exact fun winner picked => nomatch picked
  case timed => exact fun running => absurd running Bool.false_ne_true
  case decided => exact fun resolved => absurd resolved Bool.false_ne_true
  case resolves =>
    intro unsettled _
    exact absurd (List.length_eq_zero_iff.mp (List.range_eq_nil.mp unsettled)) nonempty

/-! What can be relied on when the race is over -/

theorem Consistent.errors_subset (consistent : race.Consistent nameOf) (errorKey : List Char)
    (failed : errorKey ∈ race.ret.errors.keys) : errorKey ∈ race.errorKeys :=
  consistent.accounted.subset (List.mem_append_left _ (List.mem_append_right _ failed))

theorem Consistent.winner_mem (consistent : race.Consistent nameOf) (winner : T)
    (picked : race.ret.winner = some winner) : nameOf winner ∈ race.errorKeys :=
  consistent.accounted.subset
    (List.mem_append_left _ (List.mem_append_left _ (List.mem_map_of_mem (consistent.among winner picked))))

theorem Consistent.winner_unfailed (consistent : race.Consistent nameOf) (winner : T)
    (picked : race.ret.winner = some winner) : nameOf winner ∉ race.ret.errors.keys := by
  intro failed
  have distinct := (List.nodup_append.mp (consistent.accounted.nodup_iff.mpr race.distinct)).1
  exact (List.nodup_append.mp distinct).2.2 _ (List.mem_map_of_mem (consistent.among winner picked)) _ failed rfl

theorem Consistent.all_failed (consistent : race.Consistent nameOf) (resolved : race.resolved = true)
    (unpicked : race.ret.winner = none) (errorKey : List Char) (member : errorKey ∈ race.errorKeys) :
    errorKey ∈ race.ret.errors.keys := by
  obtain ⟨unsettled, results⟩ := (consistent.decided resolved).resolve_left (not_not.mpr unpicked)
  have accounted := consistent.accounted
  rw [results, waitedKeys, unsettled] at accounted
  simpa using accounted.symm.subset member

/-! The race goes on until it is resolved, and not for ever. -/

theorem Consistent.possible [Nonempty ρ] (consistent : race.Consistent nameOf) (unresolved : race.resolved ≠ true) :
    ∃ event next, step event race = .ok next := by
  cases unsettled : race.unsettled with
  | cons promise rest =>
      have waited : promise ∈ race.unsettled := unsettled ▸ List.mem_cons_self
      have inside := consistent.inside promise waited
      have answer := Classical.arbitrary ρ
      refine ⟨.settle promise answer, ?_⟩
      rw [step, List.getElem?_eq_getElem inside, List.getElem?_eq_getElem (race.keyed ▸ inside)]
      simp only [if_pos waited]
      cases race.promises[promise] answer with
      | ok result => exact ⟨_, rfl⟩
      | error err => exact ⟨_, rfl⟩
  | nil =>
      cases settled : race.settled with
      | nil => exact absurd (consistent.resolves unsettled settled) unresolved
      | cons promise rest =>
          have answered : promise ∈ race.settled := settled ▸ List.mem_cons_self
          exact ⟨.finish promise ⟨0, le_refl 0, one_pos⟩, _, if_pos answered⟩

end Consistency

def rank : ℕ := 3 * race.unsettled.length + race.settled.length + race.graceTimer.toNat

theorem moves_rank (next : Race ρ T) (moved : race.Moves next) : next.rank < race.rank := by
  cases moved with
  | fulfilled promise errorKey result waited key gives =>
      have fewer := List.length_erase_of_mem waited
      have positive := List.length_pos_of_mem waited
      have timer := Bool.toNat_le (race.fulfilled promise result).graceTimer
      have more : (race.fulfilled promise result).settled.length = race.settled.length + 1 := rfl
      unfold rank
      rw [more]
      change 3 * (race.unsettled.erase promise).length + _ + _ < _
      omega
  | rejected promise errorKey err waited key =>
      have fewer := List.length_erase_of_mem waited
      have positive := List.length_pos_of_mem waited
      change 3 * (race.unsettled.erase promise).length + (race.settled.length + 1) + race.graceTimer.toNat < race.rank
      unfold rank
      omega
  | finished promise random answered =>
      have fewer := List.length_erase_of_mem answered
      have positive := List.length_pos_of_mem answered
      have less : (race.finished promise random).rank =
          3 * race.unsettled.length + (race.settled.erase promise).length + race.graceTimer.toNat := by
        unfold Race.finished
        dsimp only
        split_ifs <;> rfl
      rw [less, rank]
      omega
  | timeout random running =>
      change 3 * race.unsettled.length + race.settled.length + 0 < race.rank
      rw [rank, running]
      exact Nat.lt_succ_self _

end OpenGsn.Provider.Race
