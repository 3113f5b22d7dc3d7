import OpenGsn.Penalizer.Model
import Mathlib.Data.List.Induction

/-! Commits and the reveals that use them up. -/

namespace OpenGsn.Penalizer

open Solidity Reentry

variable (crypto : Crypto) (delays : Delays)

def Entry.hash : Entry → Uint256
  | .commit _ commitHash _ => commitHash
  | .reveal sender msgData _ => commitHash crypto msgData sender

def Entry.sender : Entry → Address
  | .commit sender _ _ => sender
  | .reveal sender _ _ => sender

def Entry.number : Entry → ℕ
  | .commit _ _ number => number
  | .reveal _ _ number => number

/-- What an entry makes of the block from which a hash may be revealed. -/
def Entry.ready (hash : Uint256) (before : ℕ) : Entry → ℕ
  | .commit _ commitHash number => if commitHash = hash then number + delays.penalizeBlockDelay else before
  | .reveal sender msgData _ => if commitHash crypto msgData sender = hash then 0 else before

def readyBlock (hash : Uint256) (log : List Entry) : ℕ :=
  log.foldl (fun before entry => entry.ready crypto delays hash before) 0

theorem readyBlock_append (hash : Uint256) (log : List Entry) (entry : Entry) :
    readyBlock crypto delays hash (log ++ [entry]) =
      entry.ready crypto delays hash (readyBlock crypto delays hash log) := by
  simp [readyBlock]

theorem ready_other (hash : Uint256) (before : ℕ) (entry : Entry) (other : entry.hash crypto ≠ hash) :
    entry.ready crypto delays hash before = before := by
  cases entry with
  | commit sender commitHash number => exact if_neg other
  | reveal sender msgData number => exact if_neg other

/-- A hash that may be revealed was committed, and nothing was done about it since. -/
theorem readyBlock_committed (hash : Uint256) (log : List Entry)
    (ready : readyBlock crypto delays hash log ≠ 0) :
    ∃ (index : ℕ) (sender : Address) (number : ℕ),
      log[index]? = some (.commit sender hash number) ∧
      readyBlock crypto delays hash log = number + delays.penalizeBlockDelay ∧
      ∀ (later : ℕ) (entry : Entry), index < later → log[later]? = some entry →
        entry.hash crypto ≠ hash := by
  induction log using List.reverseRecOn with
  | nil => exact absurd rfl ready
  | append_singleton log last ih =>
      rw [readyBlock_append] at ready ⊢
      by_cases about : last.hash crypto = hash
      · cases last with
        | reveal sender msgData number => exact absurd (if_pos about) ready
        | commit sender commitHash number =>
            obtain rfl : commitHash = hash := about
            refine ⟨log.length, sender, number, by simp, if_pos rfl, ?_⟩
            intro later entry after present
            rw [List.getElem?_eq_none (by simp; omega)] at present
            cases present
      · rw [ready_other crypto delays hash _ last about] at ready ⊢
        obtain ⟨index, sender, number, present, value, untouched⟩ := ih ready
        have inside : index < log.length := (List.getElem?_eq_some_iff.mp present).1
        refine ⟨index, sender, number, by rwa [List.getElem?_append_left inside], value, ?_⟩
        intro later entry after found
        rcases Nat.lt_trichotomy later log.length with early | rfl | late
        · rw [List.getElem?_append_left early] at found
          exact untouched later entry after found
        · simp only [List.getElem?_concat_length, Option.some.injEq] at found
          rw [← found]
          exact about
        · rw [List.getElem?_eq_none (by simp; omega)] at found
          cases found

/-- The storage is what the log makes of it, and every reveal came in its time. -/
structure Recorded (now : ℕ) (s : State) : Prop where
  commits : ∀ hash, s.commits hash = readyBlock crypto delays hash s.log
  positive : ∀ entry ∈ s.log, 0 < entry.number
  sorted : s.log.Pairwise (fun first second => first.number ≤ second.number)
  past : ∀ entry ∈ s.log, entry.number ≤ now
  timely : ∀ (index : ℕ) (sender : Address) (msgData : Bytes) (number : ℕ),
    s.log[index]? = some (.reveal sender msgData number) → sender ≠ viewSender →
    let ready := readyBlock crypto delays (commitHash crypto msgData sender) (s.log.take index)
    ready ≠ 0 ∧ ready < number ∧ number < ready + delays.penalizeBlockExpiration

theorem recorded_aged (now later : ℕ) (s : State) (ordered : now ≤ later)
    (recorded : Recorded crypto delays now s) : Recorded crypto delays later s :=
  ⟨recorded.commits, recorded.positive, recorded.sorted,
    fun entry member => (recorded.past entry member).trans ordered, recorded.timely⟩

theorem recorded_append (env : Env) (s : State) (entry : Entry) (commits : Uint256 → ℕ)
    (recorded : Recorded crypto delays env.number s) (current : entry.number = env.number)
    (written : ∀ hash, commits hash = entry.ready crypto delays hash (s.commits hash))
    (timely : ∀ sender msgData number, entry = .reveal sender msgData number → sender ≠ viewSender →
      let ready := s.commits (commitHash crypto msgData sender)
      ready ≠ 0 ∧ ready < number ∧ number < ready + delays.penalizeBlockExpiration) :
    Recorded crypto delays env.number ⟨commits, s.log ++ [entry]⟩ := by
  refine ⟨?_, ?_, ?_, ?_, ?_⟩
  · intro hash
    simp only [written, readyBlock_append, recorded.commits]
  · intro other member
    rcases List.mem_append.mp member with earlier | last
    · exact recorded.positive other earlier
    · rw [List.mem_singleton.mp last, current]
      exact env.number_pos
  · refine List.pairwise_append.mpr ⟨recorded.sorted, List.pairwise_singleton _ _, ?_⟩
    intro first member second last
    rw [List.mem_singleton.mp last, current]
    exact recorded.past first member
  · intro other member
    rcases List.mem_append.mp member with earlier | last
    · exact recorded.past other earlier
    · rw [List.mem_singleton.mp last, current]
  · intro index sender msgData number found outside
    rcases Nat.lt_trichotomy index s.log.length with early | rfl | late
    · simp only [List.getElem?_append_left early] at found
      simp only [List.take_append_of_le_length early.le]
      exact recorded.timely index sender msgData number found outside
    · simp only [List.getElem?_concat_length, Option.some.injEq] at found
      simp only [List.take_left']
      rw [← recorded.commits]
      exact timely sender msgData number found outside
    · rw [List.getElem?_eq_none (by simp; omega)] at found
      cases found

theorem commit_ok (env : Env) (sender : Address) (hash : Uint256) (s next : State) :
    commit delays env sender hash s = .ok next ↔
      env.number + delays.penalizeBlockDelay < 2 ^ 256 ∧
      ⟨Function.update s.commits hash (env.number + delays.penalizeBlockDelay),
        s.log ++ [.commit sender hash env.number]⟩ = next := by
  simp [commit]

theorem commitRevealOnly_ok (env : Env) (sender : Address) (msgData : Bytes) (s next : State) :
    commitRevealOnly crypto delays env sender msgData s = .ok next ↔
      let hash := commitHash crypto msgData sender
      (sender ≠ viewSender → s.commits hash ≠ 0 ∧ s.commits hash < env.number ∧
        s.commits hash + delays.penalizeBlockExpiration < 2 ^ 256 ∧
        env.number < s.commits hash + delays.penalizeBlockExpiration) ∧
      ⟨Function.update s.commits hash 0, s.log ++ [.reveal sender msgData env.number]⟩ = next := by
  by_cases view : sender = viewSender <;> simp [commitRevealOnly, view, and_assoc]

theorem commit_recorded (env : Env) (sender : Address) (hash : Uint256) (s next : State)
    (recorded : Recorded crypto delays env.number s)
    (taken : commit delays env sender hash s = .ok next) : Recorded crypto delays env.number next := by
  obtain ⟨_, rfl⟩ := (commit_ok delays env sender hash s next).mp taken
  refine recorded_append crypto delays env s (.commit sender hash env.number) _ recorded rfl ?_ ?_
  · intro other
    by_cases same : hash = other
    · subst same
      simp [Entry.ready]
    · simp [Entry.ready, same, Function.update_of_ne (Ne.symm same)]
  · intro _ _ _ impossible
    exact nomatch impossible

theorem commitRevealOnly_recorded (env : Env) (sender : Address) (msgData : Bytes) (s next : State)
    (recorded : Recorded crypto delays env.number s)
    (taken : commitRevealOnly crypto delays env sender msgData s = .ok next) :
    Recorded crypto delays env.number next := by
  obtain ⟨timely, rfl⟩ := (commitRevealOnly_ok crypto delays env sender msgData s next).mp taken
  refine recorded_append crypto delays env s (.reveal sender msgData env.number) _ recorded rfl ?_ ?_
  · intro other
    by_cases same : commitHash crypto msgData sender = other
    · subst same
      simp [Entry.ready]
    · simp [Entry.ready, same, Function.update_of_ne (Ne.symm same)]
  · intro _ _ _ same outside
    injection same with senders datas numbers
    subst senders datas numbers
    obtain ⟨committed, soon, _, late⟩ := timely outside
    exact ⟨committed, soon, late⟩

theorem reveal_meets (env : Env) (sender : Address) (msgData : Bytes) (hub : Address)
    (judged : Except Revert Address) (s : State) (recorded : Recorded crypto delays env.number s) :
    (reveal crypto delays env sender msgData hub judged s).Meets
      (fun first second => Recorded crypto delays env.number first →
        Recorded crypto delays env.number second)
      (Recorded crypto delays env.number) (fun final _ => Recorded crypto delays env.number final) := by
  refine Code.meets_check _ _ fun next taken => Code.meets_check _ _ fun _ _ => ?_
  have revealed := commitRevealOnly_recorded crypto delays env sender msgData s next recorded taken
  exact ⟨revealed, fun _ _ moved => moved revealed, fun _ => trivial⟩

theorem entry_guarantee (env : Env) :
    Guarantee (entry crypto delays env) (fun first second =>
      Recorded crypto delays env.number first → Recorded crypto delays env.number second) := by
  refine guarantee_invariant _ _ fun input s recorded => ?_
  cases input with
  | commit sender hash =>
      exact Code.meets_check _ _ fun next taken =>
        commit_recorded crypto delays env sender hash s next recorded taken
  | penalizeRepeatedNonce => exact reveal_meets crypto delays env _ _ _ _ s recorded
  | penalizeIllegalTransaction => exact reveal_meets crypto delays env _ _ _ _ s recorded

def InOrder (now later : Env) : Prop := now.number ≤ later.number

theorem visits_recorded (history : List (Env × Moves Input Bytes Revert)) (now : Env)
    (ordered : Ordered InOrder now history) (env : Env) (s : State)
    (visited : (env, s) ∈ historyVisits (entry crypto delays) history deploy) :
    Recorded crypto delays env.number s := by
  have start : Recorded crypto delays now.number deploy :=
    ⟨fun _ => rfl, by simp [deploy], by simp [deploy], by simp [deploy], by simp [deploy]⟩
  exact history_invariant (entry crypto delays) InOrder
    (fun env => Recorded crypto delays env.number)
    (fun _ _ state later => recorded_aged crypto delays _ _ state later)
    (entry_guarantee crypto delays) history now deploy ordered start (env, s) visited

/-- A commit of exactly the hash of the report, in the blocks in which it can be revealed. -/
def TimelyCommit (log : List Entry) (sender : Address) (msgData : Bytes) (number index : ℕ) : Prop :=
  ∃ committer committed,
    log[index]? = some (.commit committer (commitHash crypto msgData sender) committed) ∧
    committed + delays.penalizeBlockDelay < number ∧
    number < committed + delays.penalizeBlockDelay + delays.penalizeBlockExpiration

/-- Each reveal has a commit of its own before it. -/
structure MatchedBy (log : List Entry) (matched : ℕ → ℕ) : Prop where
  timely : ∀ (index : ℕ) (sender : Address) (msgData : Bytes) (number : ℕ),
    log[index]? = some (.reveal sender msgData number) → sender ≠ viewSender →
    matched index < index ∧ TimelyCommit crypto delays log sender msgData number (matched index)
  injective : ∀ (first second : ℕ) (sender other : Address) (msgData otherData : Bytes)
    (number otherNumber : ℕ),
    log[first]? = some (.reveal sender msgData number) → sender ≠ viewSender →
    log[second]? = some (.reveal other otherData otherNumber) → other ≠ viewSender →
    matched first = matched second → first = second

/-- The commit that a reveal uses up: the last entry about its hash. -/
structure Uses (log : List Entry) (sender : Address) (msgData : Bytes) (number index earlier : ℕ) :
    Prop where
  before : earlier < index
  timely : TimelyCommit crypto delays log sender msgData number earlier
  untouched : ∀ (between : ℕ) (entry : Entry), earlier < between → between < index →
    log[between]? = some entry → entry.hash crypto ≠ commitHash crypto msgData sender

theorem reveal_uses (now : ℕ) (s : State) (recorded : Recorded crypto delays now s) (index : ℕ)
    (sender : Address) (msgData : Bytes) (number : ℕ)
    (found : s.log[index]? = some (.reveal sender msgData number)) (outside : sender ≠ viewSender) :
    ∃ earlier, Uses crypto delays s.log sender msgData number index earlier := by
  obtain ⟨ready, soon, late⟩ := recorded.timely index sender msgData number found outside
  obtain ⟨earlier, committer, committed, present, value, untouched⟩ :=
    readyBlock_committed crypto delays _ _ ready
  have before : earlier < index := by
    have inside := (List.getElem?_eq_some_iff.mp present).1
    rw [List.length_take] at inside
    omega
  rw [List.getElem?_take_of_lt before] at present
  rw [value] at soon late
  refine ⟨earlier, before, ⟨committer, committed, present, soon, late⟩, ?_⟩
  intro between entry after inside shown
  exact untouched between entry after (by rwa [List.getElem?_take_of_lt inside])

/-- Two reveals do not use the same commit: the later one would find it used up. -/
theorem uses_injective (log : List Entry) (sender other : Address) (msgData otherData : Bytes)
    (number otherNumber first second earlier : ℕ)
    (found : log[first]? = some (.reveal sender msgData number))
    (again : log[second]? = some (.reveal other otherData otherNumber))
    (used : Uses crypto delays log sender msgData number first earlier)
    (reused : Uses crypto delays log other otherData otherNumber second earlier) : first = second := by
  obtain ⟨_, _, commit, _⟩ := used.timely
  obtain ⟨_, _, otherCommit, _⟩ := reused.timely
  have hashes : commitHash crypto msgData sender = commitHash crypto otherData other := by
    rw [commit] at otherCommit
    exact (Entry.commit.inj (Option.some.inj otherCommit)).2.1
  rcases Nat.lt_trichotomy first second with sooner | equal | later
  · exact absurd hashes (reused.untouched first _ used.before sooner found)
  · exact equal
  · exact absurd hashes.symm (used.untouched second _ reused.before later again)

theorem recorded_matched (now : ℕ) (s : State) (recorded : Recorded crypto delays now s) :
    ∃ matched, MatchedBy crypto delays s.log matched := by
  have candidates : ∀ index : ℕ, ∃ earlier, ∀ (sender : Address) (msgData : Bytes) (number : ℕ),
      s.log[index]? = some (.reveal sender msgData number) → sender ≠ viewSender →
      Uses crypto delays s.log sender msgData number index earlier := by
    intro index
    cases found : s.log[index]? with
    | none => exact ⟨0, fun _ _ _ impossible => nomatch impossible⟩
    | some entry =>
        cases entry with
        | commit => exact ⟨0, fun _ _ _ impossible => nomatch Option.some.inj impossible⟩
        | reveal sender msgData number =>
            by_cases outside : sender = viewSender
            · refine ⟨0, fun other otherData otherNumber again apart => ?_⟩
              exact absurd ((Entry.reveal.inj (Option.some.inj again)).1.symm.trans outside) apart
            · obtain ⟨earlier, used⟩ :=
                reveal_uses crypto delays now s recorded index sender msgData number found outside
              refine ⟨earlier, fun other otherData otherNumber again _ => ?_⟩
              obtain ⟨rfl, rfl, rfl⟩ := Entry.reveal.inj (Option.some.inj again)
              exact used
  choose matched uses using candidates
  refine ⟨matched, ?_, ?_⟩
  · intro index sender msgData number found outside
    have used := uses index sender msgData number found outside
    exact ⟨used.before, used.timely⟩
  · intro first second sender other msgData otherData number otherNumber found outside again others same
    have used := uses first sender msgData number found outside
    have reused := uses second other otherData otherNumber again others
    rw [← same] at reused
    exact uses_injective crypto delays s.log sender other msgData otherData number otherNumber first
      second _ found again used reused

/-! The log is complete. -/

def Input.logged (number : ℕ) : Input → Entry
  | .commit sender commitHash => .commit sender commitHash number
  | .penalizeRepeatedNonce sender msgData _ _ _ _ _ _ => .reveal sender msgData number
  | .penalizeIllegalTransaction sender msgData _ _ _ _ => .reveal sender msgData number

def Grown (first second : State) : Prop := first.log <+: second.log

theorem grown_trans (first second third : State) (one : Grown first second) (two : Grown second third) :
    Grown first third :=
  List.IsPrefix.trans one two

theorem reveal_logs (env : Env) (sender : Address) (msgData : Bytes) (hub : Address)
    (judged : Except Revert Address) (s : State) :
    (reveal crypto delays env sender msgData hub judged s).Meets Grown (Grown s)
      (fun final _ => s.log ++ [.reveal sender msgData env.number] <+: final.log) := by
  refine Code.meets_check _ _ fun next taken => Code.meets_check _ _ fun _ _ => ?_
  obtain ⟨_, rfl⟩ := (commitRevealOnly_ok crypto delays env sender msgData s next).mp taken
  exact ⟨List.prefix_append _ _, fun _ _ grown => grown, fun _ => trivial⟩

theorem entry_logs (env : Env) (input : Input) (s : State) :
    (entry crypto delays env input s).Meets Grown (Grown s)
      (fun final _ => s.log ++ [input.logged env.number] <+: final.log) := by
  cases input with
  | commit sender hash =>
      refine Code.meets_check _ _ fun next taken => ?_
      obtain ⟨_, rfl⟩ := (commit_ok delays env sender hash s next).mp taken
      exact List.prefix_refl _
  | penalizeRepeatedNonce => exact reveal_logs crypto delays env _ _ _ _ s
  | penalizeIllegalTransaction => exact reveal_logs crypto delays env _ _ _ _ s

theorem entry_grows (env : Env) : Guarantee (entry crypto delays env) Grown where
  reflexive := fun s => List.prefix_refl s.log
  chained := grown_trans
  keeps := by
    intro input s
    apply Code.meets_weaken _ (entry_logs crypto delays env input s) (fun _ grown => grown)
    intro final _ logged
    exact (List.prefix_append _ _).trans logged

/-- In every state in which anyone has control, the reveals that were not reverted can be
matched one to one with commits of their hashes. A call there that does not revert is logged,
and one that reverts leaves all commits as they were. -/
theorem reveals_matched (history : List (Env × Moves Input Bytes Revert)) (now : Env)
    (ordered : Ordered InOrder now history) (env : Env) (s : State)
    (visited : (env, s) ∈ historyVisits (entry crypto delays) history deploy) :
    (∃ matched, MatchedBy crypto delays s.log matched) ∧
    ∀ (input : Input) (replies : Replies Input Bytes Revert),
      let code := entry crypto delays env input s
      let conducts := replies.conducts (entry crypto delays env)
      (∀ final value, code.run conducts = .ok (final, value) →
        s.log ++ [input.logged env.number] <+: final.log) ∧
      ∀ error, code.run conducts = .error error → code.commit s conducts = s := by
  have recorded := visits_recorded crypto delays history now ordered env s visited
  refine ⟨recorded_matched crypto delays env.number s recorded, ?_⟩
  intro input replies code conducts
  constructor
  · intro final value returned
    have conform := replies_kept (entry_grows crypto delays env) replies
    exact Code.run_meets code conducts (entry_logs crypto delays env input s) conform final value returned
  · intro error reverted
    simp [Code.commit, reverted]

def sampleDelays : Delays := ⟨5, 100⟩

def block (number : ℕ) : Env :=
  { sampleEnv with number := number + 1, number_pos := Nat.succ_pos number }

def commitSample (sender : Address) : Moves Input Bytes Revert :=
  .enter (.commit sender (commitHash sampleCrypto [1, 2] 3)) .none .stop

def revealSample : Input := .penalizeIllegalTransaction 3 [1, 2] [3] [9] 7 (fun _ => 0)

def sampleHistory : List (Env × Moves Input Bytes Revert) :=
  [(block 9, commitSample 3), (block 15, .enter revealSample (.reply .stop (.ok []) .none) .stop)]

theorem reveals_matched_sample :
    let final := historyFinal (entry sampleCrypto sampleDelays) sampleHistory deploy
    final.log.length = 2 ∧ ∃ matched, MatchedBy sampleCrypto sampleDelays final.log matched :=
  ⟨by decide +kernel, (reveals_matched sampleCrypto sampleDelays sampleHistory (block 9)
    (by simp [sampleHistory, Ordered, InOrder, block]) (block 15) _
    (historyFinal_visited _ [(block 9, commitSample 3)] (block 15) _ deploy)).1⟩

/-! Commits of the same hash by others. -/

theorem readyBlock_latest (hash : Uint256) (before log : List Entry)
    (committed : ∃ sender number, Entry.commit sender hash number ∈ log)
    (unrevealed : ∀ sender msgData number, Entry.reveal sender msgData number ∈ log →
      commitHash crypto msgData sender ≠ hash)
    (sorted : log.Pairwise (fun first second => first.number ≤ second.number)) :
    ∃ sender number, Entry.commit sender hash number ∈ log ∧
      readyBlock crypto delays hash (before ++ log) = number + delays.penalizeBlockDelay ∧
      ∀ other earlier, Entry.commit other hash earlier ∈ log → earlier ≤ number := by
  induction log using List.reverseRecOn with
  | nil =>
      obtain ⟨sender, number, impossible⟩ := committed
      exact absurd impossible List.not_mem_nil
  | append_singleton log last ih =>
      rw [← List.append_assoc, readyBlock_append]
      obtain ⟨sortedLog, _, lastIsLast⟩ := List.pairwise_append.mp sorted
      have latest : ∀ entry ∈ log, entry.number ≤ last.number :=
        fun entry member => lastIsLast entry member last (List.mem_singleton.mpr rfl)
      by_cases about : last.hash crypto = hash
      · cases last with
        | reveal sender msgData number => exact absurd about (unrevealed sender msgData number (by simp))
        | commit sender commitHash number =>
            obtain rfl : commitHash = hash := about
            refine ⟨sender, number, by simp, if_pos rfl, ?_⟩
            intro other earlier member
            rcases List.mem_append.mp member with inside | same
            · exact latest _ inside
            · rw [(Entry.commit.inj (List.mem_singleton.mp same)).2.2]
      · have others : ∀ other number, Entry.commit other hash number ∈ log ++ [last] →
            Entry.commit other hash number ∈ log := by
          intro other number member
          rcases List.mem_append.mp member with inside | same
          · exact inside
          · rw [← List.mem_singleton.mp same] at about
            exact absurd rfl about
        obtain ⟨sender, number, member⟩ := committed
        obtain ⟨latestSender, latestNumber, present, value, maximal⟩ :=
          ih ⟨sender, number, others sender number member⟩
            (fun sender msgData number member => unrevealed sender msgData number (by simp [member]))
            sortedLog
        rw [ready_other crypto delays hash _ last about]
        exact ⟨latestSender, latestNumber, List.mem_append_left _ present, value,
          fun other earlier member => maximal other earlier (others other earlier member)⟩

def revealInputs (log : List Entry) : Set Bytes :=
  {bytes | ∃ sender msgData number, Entry.reveal sender msgData number ∈ log ∧
    bytes = commitInput crypto msgData sender}

theorem commitInput_sender (msgData otherData : Bytes) (sender other : Address)
    (same : commitInput crypto msgData sender = commitInput crypto otherData other) : sender = other :=
  addressBytes_injective sender other (List.append_inj' same (by simp)).2

/-- No commit of the hash was made so late that the delay is not over, or with so large a block
number that its expiry does not fit a word. -/
def Unspoiled (log : List Entry) (hash : Uint256) (number : ℕ) : Prop :=
  ∀ other committed, Entry.commit other hash committed ∈ log →
    committed + delays.penalizeBlockDelay < number ∧
    committed + delays.penalizeBlockDelay + delays.penalizeBlockExpiration < 2 ^ 256

/-- Whoever committed to a report can reveal it in its time exactly if nobody else committed
the same hash too late. -/
theorem reveal_unspoiled_iff (history : List (Env × Moves Input Bytes Revert)) (now : Env)
    (ordered : Ordered InOrder now history) (env : Env) (s : State)
    (visited : (env, s) ∈ historyVisits (entry crypto delays) history deploy)
    (sender : Address) (msgData : Bytes) (number : ℕ) (earlier later : List Entry)
    (committed : s.log = earlier ++ .commit sender (commitHash crypto msgData sender) number :: later)
    (idle : ∀ entry ∈ later, entry.hash crypto = commitHash crypto msgData sender →
      entry.sender ≠ sender)
    (free : crypto.CollisionFree (revealInputs crypto later ∪ {commitInput crypto msgData sender}))
    (soon : number + delays.penalizeBlockDelay < env.number)
    (late : env.number < number + delays.penalizeBlockDelay + delays.penalizeBlockExpiration) :
    (∃ next, commitRevealOnly crypto delays env sender msgData s = .ok next) ↔
      sender = viewSender ∨
      Unspoiled delays (.commit sender (commitHash crypto msgData sender) number :: later)
        (commitHash crypto msgData sender) env.number := by
  have recorded := visits_recorded crypto delays history now ordered env s visited
  have unrevealed : ∀ other otherData otherNumber, Entry.reveal other otherData otherNumber ∈
      Entry.commit sender (commitHash crypto msgData sender) number :: later →
      commitHash crypto otherData other ≠ commitHash crypto msgData sender := by
    intro other otherData otherNumber member same
    rcases List.mem_cons.mp member with impossible | inside
    · exact nomatch impossible
    · have inputs := free (.inl ⟨other, otherData, otherNumber, inside, rfl⟩) (.inr rfl) same
      exact idle _ inside same (commitInput_sender crypto otherData msgData other sender inputs)
  have sorted := recorded.sorted
  rw [committed] at sorted
  obtain ⟨_, sortedTail, _⟩ := List.pairwise_append.mp sorted
  obtain ⟨latest, latestNumber, present, value, maximal⟩ := readyBlock_latest crypto delays
    (commitHash crypto msgData sender) earlier _ ⟨sender, number, List.mem_cons_self⟩ unrevealed sortedTail
  have ready : s.commits (commitHash crypto msgData sender) = latestNumber + delays.penalizeBlockDelay := by
    rw [recorded.commits, committed, value]
  have positive : 0 < latestNumber :=
    recorded.positive (.commit latest _ latestNumber)
      (by rw [committed]; exact List.mem_append_right _ present)
  have notEarlier : number ≤ latestNumber := maximal sender number List.mem_cons_self
  constructor
  · rintro ⟨next, passed⟩
    by_cases view : sender = viewSender
    · exact .inl view
    · obtain ⟨_, ready_lt, fits, _⟩ :=
        ((commitRevealOnly_ok crypto delays env sender msgData s next).mp passed).1 view
      rw [ready] at ready_lt fits
      refine .inr fun other otherNumber member => ?_
      have bound := maximal other otherNumber member
      omega
  · intro condition
    refine ⟨_, (commitRevealOnly_ok crypto delays env sender msgData s _).mpr ⟨fun outside => ?_, rfl⟩⟩
    obtain ⟨waited, fits⟩ := (condition.resolve_left outside) latest latestNumber present
    rw [ready]
    omega

/-- In between, account 4 commits the hash, too. -/
def spoiledHistory (number : ℕ) : List (Env × Moves Input Bytes Revert) :=
  [(block 9, commitSample 3), (block number, commitSample 4), (block 17, .stop)]

/-- Account 3 committed in block 10, and account 4 in block 17: in block 18 the reveal fails. -/
theorem recommit_spoils_reveal :
    let hash := commitHash sampleCrypto [1, 2] 3
    let s := historyFinal (entry sampleCrypto sampleDelays) (spoiledHistory 16) deploy
    (block 17, s) ∈ historyVisits (entry sampleCrypto sampleDelays) (spoiledHistory 16) deploy ∧
    s.log = [.commit 3 hash 10, .commit 4 hash 17] ∧
    10 + sampleDelays.penalizeBlockDelay < (block 17).number ∧
    (block 17).number < 10 + sampleDelays.penalizeBlockDelay + sampleDelays.penalizeBlockExpiration ∧
    ∀ next, commitRevealOnly sampleCrypto sampleDelays (block 17) 3 [1, 2] s ≠ .ok next := by
  intro hash s
  refine ⟨historyFinal_visited _ [(block 9, commitSample 3), (block 16, commitSample 4)] (block 17)
    .stop deploy, by decide +kernel, by decide, by decide, ?_⟩
  intro next passed
  have outside : (3 : Address) ≠ viewSender := by decide +kernel
  obtain ⟨_, soon, _⟩ :=
    ((commitRevealOnly_ok sampleCrypto sampleDelays _ 3 [1, 2] s next).mp passed).1 outside
  exact absurd soon (by decide +kernel)

theorem reveal_unspoiled_iff_sample :
    ∃ next, commitRevealOnly sampleCrypto sampleDelays (block 17) 3 [1, 2]
      (historyFinal (entry sampleCrypto sampleDelays) (spoiledHistory 10) deploy) = .ok next := by
  apply (reveal_unspoiled_iff sampleCrypto sampleDelays (spoiledHistory 10) (block 9)
    (by simp [spoiledHistory, Ordered, InOrder, block]) (block 17) _
    (historyFinal_visited _ [(block 9, commitSample 3), (block 10, commitSample 4)] (block 17) .stop deploy)
    3 [1, 2] 10 [] [.commit 4 (commitHash sampleCrypto [1, 2] 3) 11] (by decide +kernel) ?_ ?_
    (by decide) (by decide)).mpr
  · refine .inr fun other committed member => ?_
    have listed : (other, committed) ∈ [((3 : Address), 10), (4, 11)] := by
      simpa [Entry.commit.injEq] using member
    have small : committed ≤ 11 := by
      simp only [List.mem_cons, Prod.mk.injEq, List.not_mem_nil, or_false] at listed
      omega
    constructor
    · exact Nat.lt_of_le_of_lt (Nat.add_le_add_right small 5) (by decide)
    · exact Nat.lt_of_le_of_lt (Nat.add_le_add_right small 105) (by decide)
  · intro entry member _
    rw [List.mem_singleton.mp member]
    decide
  · intro first one second two _
    have empty : revealInputs sampleCrypto [.commit 4 (commitHash sampleCrypto [1, 2] 3) 11] = ∅ := by
      simp [revealInputs]
    rw [empty, Set.empty_union] at one two
    rw [one, two]

end OpenGsn.Penalizer
