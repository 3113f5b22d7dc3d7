import OpenGsn.Relay.PastEvents

/-! `_getPastEventsPaginated` in `ContractInteractor.ts`, for the events of any contract. -/

namespace OpenGsn.Paging

open Relay

/-- The events a query matches, in the order the chain has them. -/
structure EventLog (ε : Type) where
  events : List ε
  blockNumber : ε → ℕ
  ordered : events.Pairwise fun first second => blockNumber first ≤ blockNumber second
  distinct : events.Nodup

variable {ε : Type}

/-- Two selections of a list follow each other when no element of the first comes after one of the
second. -/
theorem filter_append_filter (first second : ε → Bool) (events : List ε)
    (apart : ∀ event, second event = true → first event = false)
    (ordered : events.Pairwise fun early late => second early = true → first late = false) :
    events.filter first ++ events.filter second =
      events.filter fun event => first event || second event := by
  induction events with
  | nil => simp only [List.filter_nil, List.append_nil]
  | cons event events ih =>
      rw [List.pairwise_cons] at ordered
      have rest := ih ordered.2
      cases late : second event with
      | true =>
          have none : events.filter first = [] := by
            rw [List.filter_eq_nil_iff]
            intro other member
            simp only [ordered.1 other member late, Bool.false_eq_true, not_false_eq_true]
          rw [none, List.nil_append] at rest
          simp only [List.filter_cons, apart event late, late, none, rest, Bool.or_true, if_true,
            Bool.false_eq_true, if_false, List.nil_append]
      | false =>
          cases early : first event <;>
            simp only [List.filter_cons, early, late, ← rest, Bool.or_false, if_true,
              Bool.false_eq_true, if_false, List.cons_append]

namespace EventLog

def within (range : BlockRange) (log : EventLog ε) : List ε :=
  log.events.filter fun event => range.Contains (log.blockNumber event)

theorem within_nodup (range : BlockRange) (log : EventLog ε) : (log.within range).Nodup :=
  log.distinct.filter _

theorem within_eq_nil (range : BlockRange) (log : EventLog ε) :
    log.within range = [] ↔ ∀ event ∈ log.events, ¬range.Contains (log.blockNumber event) := by
  simp only [within, List.filter_eq_nil_iff, decide_eq_true_eq]

theorem within_page_append (log : EventLog ε) (start splitSize toBlock : ℕ) (positive : 0 < splitSize) :
    log.within ⟨start, some (min toBlock (start + splitSize - 1))⟩ ++
        log.within ⟨start + splitSize, some toBlock⟩ =
      log.within ⟨start, some toBlock⟩ := by
  rw [within, within, filter_append_filter]
  · apply List.filter_congr
    intro event _
    simp only [BlockRange.contains_some, ← Bool.decide_or]
    apply decide_eq_decide.mpr
    omega
  · intro event
    simp only [BlockRange.contains_some, decide_eq_true_eq, decide_eq_false_iff_not]
    omega
  · apply log.ordered.imp
    intro early late order
    simp only [BlockRange.contains_some, decide_eq_true_eq, decide_eq_false_iff_not]
    omega

/-- Pages of one size, the last of which reaches the end, hold the events of the range in order. -/
theorem pages_within (log : EventLog ε) (toBlock splitSize : ℕ) (positive : 0 < splitSize)
    (pages start : ℕ) (reach : toBlock < start + pages * splitSize) :
    ((List.range' start pages splitSize).map fun page =>
        (⟨page, some (min toBlock (page + splitSize - 1))⟩ : BlockRange)).flatMap log.within =
      log.within ⟨start, some toBlock⟩ := by
  induction pages generalizing start with
  | zero =>
      symm
      rw [List.range'_zero, List.map_nil, List.flatMap_nil, within_eq_nil]
      intro event _
      simp only [BlockRange.contains_some]
      omega
  | succ pages ih =>
      have rest := ih (start + splitSize) (by rw [Nat.succ_mul] at reach; omega)
      rw [List.range'_succ, List.map_cons, List.flatMap_cons, rest]
      exact within_page_append log start splitSize toBlock positive

theorem splitRange_within (log : EventLog ε) (fromBlock : ℕ) (toBlock : Option ℕ) (parts : ℕ)
    (ranges : List BlockRange) (positive : 0 < parts) (ordered : ∀ last ∈ toBlock, fromBlock ≤ last)
    (split : Relay.splitRange fromBlock toBlock parts = some ranges) :
    ranges.flatMap log.within = log.within ⟨fromBlock, toBlock⟩ := by
  unfold Relay.splitRange at split
  split at split
  · cases split
    rw [List.flatMap_singleton]
  · cases toBlock with
    | none => cases split
    | some last =>
        cases split
        have first : fromBlock ≤ last := ordered last rfl
        have enough := le_smul_ceilDiv (b := last + 1 - fromBlock) positive
        have sized : 0 < (last + 1 - fromBlock) ⌈/⌉ parts := by
          by_contra none
          rw [Nat.eq_zero_of_not_pos none, smul_zero] at enough
          omega
        rw [rangeStarts]
        apply pages_within log last _ sized
        have whole := Nat.lt_div_mul_add sized (a := last - fromBlock)
        rw [Nat.succ_mul]
        omega

end EventLog

/-- How the node answers one request: with the events of the page, or with an error, which may say
`query returned more than`. -/
inductive NodeAnswer : Type
  | pastEvents
  | error (returnedMoreThan : Bool)
  deriving DecidableEq, Repr

inductive Outcome (ε : Type) : Type
  | returned (events : List ε)
  | thrown
  | waiting
  deriving DecidableEq, Repr

/-- The range in numbers. `latest` is only looked up where it has to be split. -/
def queryRange (limits : PageLimits) (latest : ℕ) (fromBlock toBlock : Option ℕ) : BlockRange :=
  match limits.maxPageSize, toBlock with
  | some _, none => ⟨fromBlock.getD 1, some (max (fromBlock.getD 1) latest)⟩
  | _, toBlock => ⟨fromBlock.getD 1, toBlock⟩

namespace PaginatedQuery

def receive (pastEvents : List ε) (answer : NodeAnswer) (query : PaginatedQuery ε) :
    Option (PaginatedQuery ε) :=
  match answer with
  | .pastEvents => some (query.answered pastEvents)
  | .error returnedMoreThan => query.failed returnedMoreThan

def run (log : EventLog ε) : List NodeAnswer → PaginatedQuery ε → Outcome ε
  | [], query =>
      match query.rangeParts with
      | [] => .returned query.relayEventParts.flatten
      | _ :: _ => .waiting
  | answer :: answers, query =>
      match query.rangeParts with
      | [] => .returned query.relayEventParts.flatten
      | part :: _ =>
          match query.receive (log.within part) answer with
          | none => .thrown
          | some next => run log answers next

/-- No page of `asked`, nor a later one, is answered with an event before the range is split
again. -/
def NoneRepeated (log : EventLog ε) :
    List NodeAnswer → List BlockRange → PaginatedQuery ε → Prop
  | [], _, _ => True
  | answer :: answers, asked, query =>
      match query.rangeParts, answer with
      | [], _ => True
      | part :: _, .pastEvents =>
          NoneRepeated log answers (asked ++ [part]) (query.answered (log.within part))
      | _ :: _, .error returnedMoreThan =>
          match query.failed returnedMoreThan with
          | none => True
          | some next =>
              if query.attempts + 1 < 100 then NoneRepeated log answers asked next
              else
                (∀ page ∈ asked, ∀ event ∈ log.events, ¬page.Contains (log.blockNumber event)) ∧
                  NoneRepeated log answers [] next

/-- The parts collected are what earlier splits left, and the pages asked since the last one. -/
structure Collected (log : EventLog ε) (range : BlockRange) (stale : List ε) (asked : List BlockRange)
    (query : PaginatedQuery ε) : Prop where
  fromBlock : query.fromBlock = range.fromBlock
  toBlock : query.toBlock = range.toBlock
  ordered : ∀ last ∈ range.toBlock, range.fromBlock ≤ last
  positive : 0 < query.pagesCurrent
  parts : query.relayEventParts.flatten = stale ++ asked.flatMap log.within
  pages : (asked ++ query.rangeParts).flatMap log.within = log.within range

section

variable {log : EventLog ε} {range : BlockRange} {stale : List ε} {asked : List BlockRange}
  {query next : PaginatedQuery ε}

theorem Collected.answered {part : BlockRange} {rest : List BlockRange}
    (collected : Collected log range stale asked query) (first : query.rangeParts = part :: rest) :
    Collected log range stale (asked ++ [part]) (query.answered (log.within part)) where
  fromBlock := collected.fromBlock
  toBlock := collected.toBlock
  ordered := collected.ordered
  positive := collected.positive
  parts := by
    simp only [PaginatedQuery.answered, List.flatten_append, collected.parts, List.flatMap_append,
      List.flatten_singleton, List.flatMap_singleton, List.append_assoc]
  pages := by
    have all := collected.pages
    rw [first] at all
    simpa only [PaginatedQuery.answered, first, List.tail_cons, List.append_assoc,
      List.singleton_append] using all

theorem Collected.retried (collected : Collected log range stale asked query) (attempts : ℕ) :
    Collected log range stale asked { query with attempts := attempts } :=
  ⟨collected.fromBlock, collected.toBlock, collected.ordered, collected.positive, collected.parts,
    collected.pages⟩

theorem Collected.splitAgain (collected : Collected log range stale asked query)
    (split : query.splitAgain = some next) :
    Collected log range (stale ++ asked.flatMap log.within) [] next := by
  rw [PaginatedQuery.splitAgain] at split
  split_ifs at split
  obtain ⟨rangeParts, parted, rfl⟩ := Option.map_eq_some_iff.mp split
  rw [collected.fromBlock, collected.toBlock] at parted
  have positive : 0 < query.pagesCurrent * 4 := Nat.mul_pos collected.positive (by decide)
  exact
    { fromBlock := collected.fromBlock
      toBlock := collected.toBlock
      ordered := collected.ordered
      positive := positive
      parts := by rw [collected.parts, List.flatMap_nil, List.append_nil]
      pages := log.splitRange_within range.fromBlock range.toBlock _ rangeParts positive
        collected.ordered parted }

theorem Collected.flatten_eq (collected : Collected log range stale asked query)
    (finished : query.rangeParts = []) :
    query.relayEventParts.flatten = log.within range ↔ stale = [] := by
  have all := collected.pages
  rw [finished, List.append_nil] at all
  rw [collected.parts, all, List.append_left_eq_self]

/-- A range is split again only after the hundredth failure. -/
theorem failed_again {returnedMoreThan : Bool} (last : ¬query.attempts + 1 < 100)
    (failed : query.failed returnedMoreThan = some next) : query.splitAgain = some next := by
  rw [PaginatedQuery.failed, if_neg last] at failed
  cases returnedMoreThan with
  | false => cases failed
  | true => exact failed

/-- By induction on the answers: what earlier splits left stays in front of the result. -/
theorem run_eq_within_iff (answers : List NodeAnswer) (result : List ε)
    (collected : Collected log range stale asked query)
    (returned : query.run log answers = .returned result) :
    result = log.within range ↔ stale = [] ∧ query.NoneRepeated log answers asked := by
  induction answers generalizing stale asked query with
  | nil =>
      cases left : query.rangeParts with
      | nil =>
          simp only [run, left, Outcome.returned.injEq] at returned
          rw [← returned, collected.flatten_eq left]
          simp only [NoneRepeated, and_true]
      | cons part rest => simp only [run, left, reduceCtorEq] at returned
  | cons answer answers ih =>
      cases left : query.rangeParts with
      | nil =>
          simp only [run, left, Outcome.returned.injEq] at returned
          rw [← returned, collected.flatten_eq left]
          simp only [NoneRepeated, left, and_true]
      | cons part rest =>
          simp only [run, left] at returned
          cases answer with
          | pastEvents =>
              simp only [NoneRepeated, left]
              exact ih (collected.answered left) returned
          | error returnedMoreThan =>
              simp only [receive] at returned
              simp only [NoneRepeated, left]
              cases failed : query.failed returnedMoreThan with
              | none => simp only [failed, reduceCtorEq] at returned
              | some next =>
                  simp only [failed] at returned
                  by_cases again : query.attempts + 1 < 100
                  · rw [PaginatedQuery.failed, if_pos again, Option.some_inj] at failed
                    subst failed
                    simp only [if_pos again]
                    exact ih (collected.retried _) returned
                  · have split := failed_again again failed
                    simp only [if_neg again]
                    rw [ih (collected.splitAgain split) returned, List.append_eq_nil_iff, and_assoc,
                      List.flatMap_eq_nil_iff]
                    simp only [EventLog.within_eq_nil]

theorem getLogsPagesForRange_pos {limits : PageLimits} {fromBlock pages : ℕ} {toBlock : Option ℕ}
    (counted : PastEventsQuery.getLogsPagesForRange limits fromBlock toBlock = some pages) :
    0 < pages := by
  unfold PastEventsQuery.getLogsPagesForRange at counted
  split at counted
  · cases counted
    exact Nat.one_pos
  · cases counted
  · cases counted
  · cases counted
    exact lt_max_of_lt_right Nat.one_pos

theorem start_collected {limits : PageLimits} (started : start limits range = some query) :
    Collected log range [] [] query := by
  unfold start at started
  split_ifs at started with backwards
  obtain ⟨pages, counted, rest⟩ := Option.bind_eq_some_iff.mp started
  split_ifs at rest
  obtain ⟨rangeParts, split, made⟩ := Option.bind_eq_some_iff.mp rest
  cases made
  have positive := getLogsPagesForRange_pos counted
  have ordered : ∀ last ∈ range.toBlock, range.fromBlock ≤ last := by
    intro last given
    exact Nat.le_of_not_lt fun below => backwards ⟨last, given, below⟩
  exact
    { fromBlock := rfl
      toBlock := rfl
      ordered := ordered
      positive := positive
      parts := rfl
      pages := log.splitRange_within range.fromBlock range.toBlock pages rangeParts positive ordered
        split }

end

end PaginatedQuery

/-- `_getPastEventsPaginated`, where `latest` is the block that `getBlockNumber` returns. -/
def getPastEventsPaginated (log : EventLog ε) (limits : PageLimits) (latest : ℕ)
    (fromBlock toBlock : Option ℕ) (answers : List NodeAnswer) : Outcome ε :=
  match PaginatedQuery.start limits (queryRange limits latest fromBlock toBlock) with
  | none => .thrown
  | some query => query.run log answers

/-- Whenever a page is the hundredth time in a row refused with `query returned more than`, the
pages answered before it were empty. -/
def EmptyBeforeSplits (log : EventLog ε) (limits : PageLimits) (latest : ℕ)
    (fromBlock toBlock : Option ℕ) (answers : List NodeAnswer) : Prop :=
  ∀ query ∈ PaginatedQuery.start (ε := ε) limits (queryRange limits latest fromBlock toBlock),
    query.NoneRepeated log answers []

theorem paginated_exact_iff (log : EventLog ε) (limits : PageLimits) (latest : ℕ)
    (fromBlock toBlock : Option ℕ) (answers : List NodeAnswer) (result : List ε)
    (returned : getPastEventsPaginated log limits latest fromBlock toBlock answers =
      .returned result) :
    result = log.within (queryRange limits latest fromBlock toBlock) ∧ result.Nodup ↔
      EmptyBeforeSplits log limits latest fromBlock toBlock answers := by
  have exact_nodup : result = log.within (queryRange limits latest fromBlock toBlock) →
      result.Nodup := by
    rintro rfl
    exact log.within_nodup _
  rw [and_iff_left_of_imp exact_nodup, EmptyBeforeSplits]
  rw [getPastEventsPaginated] at returned
  cases started : PaginatedQuery.start (ε := ε) limits
      (queryRange limits latest fromBlock toBlock) with
  | none => rw [started] at returned; cases returned
  | some query =>
      rw [started] at returned
      rw [PaginatedQuery.run_eq_within_iff answers result (PaginatedQuery.start_collected started)
        returned]
      simp only [true_and, Option.mem_some_iff, forall_eq']

def twoBlocks : EventLog ℕ where
  events := [1, 2]
  blockNumber := id
  ordered := by decide
  distinct := by decide

/-- Nothing of the first page is lost or repeated when it is itself the one that fails. -/
theorem paginated_exact_split_first :
    [1, 2] = twoBlocks.within ⟨1, some 2⟩ ∧ [1, 2].Nodup ↔
      EmptyBeforeSplits twoBlocks ⟨some 1, none⟩ 2 none none
        (List.replicate 100 (.error true) ++ [.pastEvents, .pastEvents]) :=
  paginated_exact_iff twoBlocks ⟨some 1, none⟩ 2 none none _ [1, 2] (by decide +kernel)

/-- The second page is refused, and the first is asked for and kept again. -/
theorem first_page_repeated :
    ¬∀ (log : EventLog ℕ) (limits : PageLimits) (latest : ℕ) (fromBlock toBlock : Option ℕ)
      (answers : List NodeAnswer) (result : List ℕ),
      getPastEventsPaginated log limits latest fromBlock toBlock answers = .returned result →
        result = log.within (queryRange limits latest fromBlock toBlock) ∧ result.Nodup := by
  intro exactly
  have twice := exactly twoBlocks ⟨some 1, none⟩ 2 none none
    (.pastEvents :: List.replicate 100 (.error true) ++ [.pastEvents, .pastEvents]) [1, 1, 2]
    (by decide +kernel)
  exact absurd twice.2 (by decide)

end OpenGsn.Paging
