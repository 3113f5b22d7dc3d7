import OpenGsn.Solidity.Base
import Mathlib.Data.List.Count
import Mathlib.Data.List.Nodup
import Mathlib.Algebra.Order.Floor.Div

/-! Queries for past events in `ContractInteractor.ts`, page after page, and the chain that answers
them. -/

namespace OpenGsn.Relay

open Solidity

inductive ManagerEvent : Type
  | relayWorkersAdded
  | transactionRelayed (paymaster : Address)
  | transactionRejectedByPaymaster (paymaster : Address)
  | relayServerRegistered
  deriving DecidableEq, Repr

inductive EventSource : Type
  | hub
  | registrar
  deriving DecidableEq, Repr

def ManagerEvent.source : ManagerEvent → EventSource
  | .relayServerRegistered => .registrar
  | _ => .hub

structure EventData where
  event : ManagerEvent
  blockNumber : ℕ
  logIndex : ℕ
  deriving DecidableEq, Repr

/-- The mined events of the manager, each in its block. -/
structure Chain where
  head : ℕ
  logs : List EventData
  mined : ∀ event ∈ logs, event.blockNumber ≤ head
  distinct : logs.Nodup

structure BlockRange where
  fromBlock : ℕ
  toBlock : Option ℕ
  deriving DecidableEq, Repr

/-- No upper end is `latest`. -/
def BlockRange.Contains (range : BlockRange) (blockNumber : ℕ) : Prop :=
  range.fromBlock ≤ blockNumber ∧ ∀ toBlock ∈ range.toBlock, blockNumber ≤ toBlock

instance (range : BlockRange) (blockNumber : ℕ) : Decidable (range.Contains blockNumber) :=
  inferInstanceAs (Decidable (_ ∧ _))

@[simp] theorem BlockRange.contains_some (fromBlock toBlock blockNumber : ℕ) :
    (⟨fromBlock, some toBlock⟩ : BlockRange).Contains blockNumber ↔
      fromBlock ≤ blockNumber ∧ blockNumber ≤ toBlock := by
  simp only [Contains, Option.mem_some_iff, forall_eq']

namespace Chain

def blockLogs (head : ℕ) (block : List ManagerEvent) : List EventData :=
  block.mapIdx fun logIndex event => ⟨event, head + 1, logIndex⟩

theorem mem_blockLogs (head : ℕ) (block : List ManagerEvent) (event : EventData)
    (member : event ∈ blockLogs head block) : event.blockNumber = head + 1 := by
  obtain ⟨index, inside, rfl⟩ := List.mem_mapIdx.mp member
  rfl

theorem blockLogs_nodup (head : ℕ) (block : List ManagerEvent) : (blockLogs head block).Nodup := by
  rw [List.nodup_iff_injective_getElem]
  intro first second same
  have index := congrArg EventData.logIndex same
  simp only [blockLogs, List.getElem_mapIdx] at index
  exact Fin.ext index

def mine (block : List ManagerEvent) (chain : Chain) : Chain where
  head := chain.head + 1
  logs := chain.logs ++ blockLogs chain.head block
  mined := by
    intro event member
    rcases List.mem_append.mp member with old | new
    · exact Nat.le_succ_of_le (chain.mined event old)
    · exact Nat.le_of_eq (mem_blockLogs chain.head block event new)
  distinct := by
    refine List.Nodup.append chain.distinct (blockLogs_nodup chain.head block) ?_
    intro event old new
    have early := chain.mined event old
    have late := mem_blockLogs chain.head block event new
    omega

theorem mem_mine (block : List ManagerEvent) (chain : Chain) (event : EventData)
    (early : event.blockNumber ≤ chain.head) : event ∈ (chain.mine block).logs ↔ event ∈ chain.logs := by
  constructor
  · intro member
    rcases List.mem_append.mp member with old | new
    · exact old
    · have late := mem_blockLogs chain.head block event new
      omega
  · exact List.mem_append_left _

/-- `eth_getLogs` -/
def getPastEvents (source : EventSource) (range : BlockRange) (chain : Chain) : List EventData :=
  chain.logs.filter fun event => event.event.source = source ∧ range.Contains event.blockNumber

theorem count_getPastEvents (source : EventSource) (range : BlockRange) (chain : Chain) (event : EventData)
    (sourced : event.event.source = source) :
    (chain.getPastEvents source range).count event =
      if event ∈ chain.logs ∧ range.Contains event.blockNumber then 1 else 0 := by
  rw [getPastEvents, (chain.distinct.filter _).count]
  simp only [List.mem_filter, sourced, true_and, decide_eq_true_eq]

end Chain

/-- The body of the loop runs once more than the step fits between the ends. -/
def rangeStarts (fromBlock toBlock splitSize : ℕ) : List ℕ :=
  List.range' fromBlock ((toBlock - fromBlock) / splitSize + 1) splitSize

def splitRange (fromBlock : ℕ) (toBlock : Option ℕ) (parts : ℕ) : Option (List BlockRange) :=
  if parts = 1 then some [⟨fromBlock, toBlock⟩]
  else
    match toBlock with
    | none => none
    | some toBlock =>
        let rangeSize := toBlock + 1 - fromBlock
        let splitSize := rangeSize ⌈/⌉ parts
        some ((rangeStarts fromBlock toBlock splitSize).map fun start =>
          ⟨start, some (min toBlock (start + splitSize - 1))⟩)

/-- Pages of one size, the last of which reaches the end, hold each block once. -/
theorem pages_cover (toBlock splitSize blockNumber : ℕ) (positive : 0 < splitSize) (pages start : ℕ)
    (reach : toBlock < start + pages * splitSize) :
    ((List.range' start pages splitSize).map fun page =>
      (⟨page, some (min toBlock (page + splitSize - 1))⟩ : BlockRange)).countP
        (fun range => range.Contains blockNumber) =
      if start ≤ blockNumber ∧ blockNumber ≤ toBlock then 1 else 0 := by
  induction pages generalizing start with
  | zero =>
      rw [if_neg (by omega)]
      rfl
  | succ pages ih =>
      have rest := ih (start + splitSize) (by rw [Nat.succ_mul] at reach; omega)
      simp only [List.range'_succ, List.map_cons, List.countP_cons, rest, BlockRange.contains_some,
        decide_eq_true_eq]
      split_ifs <;> omega

theorem splitRange_cover (fromBlock : ℕ) (toBlock : Option ℕ) (parts blockNumber : ℕ)
    (ranges : List BlockRange) (positive : 0 < parts) (ordered : ∀ last ∈ toBlock, fromBlock ≤ last)
    (split : splitRange fromBlock toBlock parts = some ranges) :
    ranges.countP (fun range => range.Contains blockNumber) =
      if (⟨fromBlock, toBlock⟩ : BlockRange).Contains blockNumber then 1 else 0 := by
  unfold splitRange at split
  split at split
  · cases split
    simp only [List.countP_cons, List.countP_nil, Nat.zero_add, decide_eq_true_eq]
  · cases toBlock with
    | none => cases split
    | some last =>
        cases split
        have first : fromBlock ≤ last := ordered last rfl
        have enough := le_smul_ceilDiv (b := last + 1 - fromBlock) positive
        have sized : 0 < (last + 1 - fromBlock) ⌈/⌉ parts := by
          by_contra none
          rw [Nat.eq_zero_of_not_pos none, smul_zero] at enough
          omega
        rw [rangeStarts, pages_cover last _ blockNumber sized]
        · simp only [BlockRange.contains_some]
        · have whole := Nat.lt_div_mul_add sized (a := last - fromBlock)
          rw [Nat.succ_mul]
          omega

/-- Without a page size, ranges are not split in advance. -/
structure PageLimits where
  maxPageSize : Option ℕ
  maxPageCount : Option ℕ
  deriving DecidableEq, Repr

namespace PastEventsQuery

def getLogsPagesForRange (limits : PageLimits) (fromBlock : ℕ) (toBlock : Option ℕ) : Option ℕ :=
  match limits.maxPageSize, toBlock with
  | none, _ => some 1
  | some 0, _ => none
  | some _, none => none
  | some maxPageSize, some toBlock => some (max ((toBlock + 1 - fromBlock) ⌈/⌉ maxPageSize) 1)

end PastEventsQuery

end OpenGsn.Relay

namespace OpenGsn.Paging

open Relay

variable {ε : Type}

/-- A query of `_getPastEventsPaginated` between two of its requests, with the ranges it has yet to
ask for. -/
structure PaginatedQuery (ε : Type) where
  fromBlock : ℕ
  toBlock : Option ℕ
  pagesCurrent : ℕ
  rangeParts : List BlockRange
  attempts : ℕ
  relayEventParts : List (List ε)
  deriving DecidableEq, Repr

namespace PaginatedQuery

/-- Up to the first request. All failures throw. -/
def start (limits : PageLimits) (range : BlockRange) : Option (PaginatedQuery ε) := do
  if ∃ last ∈ range.toBlock, last < range.fromBlock then none
  else
    let pagesCurrent ← PastEventsQuery.getLogsPagesForRange limits range.fromBlock range.toBlock
    if ∃ most ∈ limits.maxPageCount, most < pagesCurrent then none
    else
      let rangeParts ← Relay.splitRange range.fromBlock range.toBlock pagesCurrent
      some ⟨range.fromBlock, range.toBlock, pagesCurrent, rangeParts, 0, []⟩

def answered (pastEvents : List ε) (query : PaginatedQuery ε) : PaginatedQuery ε :=
  { query with
    rangeParts := query.rangeParts.tail
    attempts := 0
    relayEventParts := query.relayEventParts ++ [pastEvents] }

/-- `relayEventParts` stands before the loop: the query starts again and keeps the parts it has. -/
def splitAgain (query : PaginatedQuery ε) : Option (PaginatedQuery ε) :=
  if 16 < query.pagesCurrent then none
  else
    (Relay.splitRange query.fromBlock query.toBlock (query.pagesCurrent * 4)).map fun rangeParts =>
      { query with pagesCurrent := query.pagesCurrent * 4, rangeParts := rangeParts, attempts := 0 }

def failed (returnedMoreThan : Bool) (query : PaginatedQuery ε) : Option (PaginatedQuery ε) :=
  if query.attempts + 1 < 100 then some { query with attempts := query.attempts + 1 }
  else if returnedMoreThan then query.splitAgain
  else none

end PaginatedQuery

end OpenGsn.Paging

namespace OpenGsn.Relay

open Paging (PaginatedQuery)

structure PastEventsQuery extends PaginatedQuery EventData where
  source : EventSource
  deriving DecidableEq, Repr

namespace PastEventsQuery

def start (limits : PageLimits) (source : EventSource) (fromBlock : ℕ) (toBlock : Option ℕ) :
    Option PastEventsQuery :=
  (PaginatedQuery.start limits ⟨fromBlock, toBlock⟩).map fun query => ⟨query, source⟩

def answered (pastEvents : List EventData) (query : PastEventsQuery) : PastEventsQuery :=
  ⟨query.toPaginatedQuery.answered pastEvents, query.source⟩

def failed (returnedMoreThan : Bool) (query : PastEventsQuery) : Option PastEventsQuery :=
  (query.toPaginatedQuery.failed returnedMoreThan).map fun again => ⟨again, query.source⟩

end PastEventsQuery

end OpenGsn.Relay
