import OpenGsn.Solidity.Base

/-! `PenalizerService.ts`: the scheduled penalizations, and the calls of `intervalHandler` that
`setInterval` starts, each at one of its awaits. -/

namespace OpenGsn.Relay

open Solidity

inductive PenalizationTypes : Type
  | illegalTransaction
  | repeatedNonce
  deriving DecidableEq, Repr

structure DelayedPenalization where
  readyBlockNumber : Option ℕ
  type : PenalizationTypes
  commitHash : Uint256
  methodArgs : List Bytes
  deriving DecidableEq, Repr

structure CommitAdded where
  commitHash : Uint256
  readyBlockNumber : ℕ
  deriving DecidableEq, Repr

/-- What a handler waits for: past events, the block number, or the broadcast of one penalization,
with the others that were ready still to come. -/
inductive HandlerPhase : Type
  | idle
  | querying (unconfirmedPenalizations : List ℕ)
  | counting
  | broadcasting (penalization : ℕ) (rest : List ℕ)
  deriving DecidableEq, Repr

/-- The lists hold references to `objects`, which are positions. `revealed` and `removals` are
history variables: the penalizations whose reveals were broadcast, and what was removed from the
schedule while which one was handled. -/
structure PenalizerService where
  objects : List DelayedPenalization
  scheduledPenalizations : List ℕ
  handlers : ℕ → HandlerPhase
  revealed : List ℕ
  removals : List (ℕ × ℕ)

namespace PenalizerService

def readyBlockNumber (s : PenalizerService) (penalization : ℕ) : Option ℕ :=
  s.objects[penalization]?.bind DelayedPenalization.readyBlockNumber

def setPhase (handler : ℕ) (phase : HandlerPhase) (s : PenalizerService) : PenalizerService :=
  { s with handlers := Function.update s.handlers handler phase }

def commitAndScheduleReveal (type : PenalizationTypes) (commitHash : Uint256) (methodArgs : List Bytes)
    (s : PenalizerService) : PenalizerService :=
  { s with
    objects := s.objects ++ [⟨none, type, commitHash, methodArgs⟩]
    scheduledPenalizations := s.scheduledPenalizations ++ [s.objects.length] }

/-! `queryReadyBlocksForMinedCommitments` -/

def unconfirmedPenalizations (s : PenalizerService) : List ℕ :=
  s.scheduledPenalizations.filter fun penalization => s.readyBlockNumber penalization = none

/-- The first commitment with the hash names the block. It is among those of the filter before it. -/
def confirm (commitments : List CommitAdded) (penalization : DelayedPenalization) : DelayedPenalization :=
  match commitments.find? (fun commitment => commitment.commitHash = penalization.commitHash) with
  | some commitment => { penalization with readyBlockNumber := some commitment.readyBlockNumber }
  | none => penalization

def confirmAll (commitments : List CommitAdded) (unconfirmed : List ℕ) (s : PenalizerService) :
    PenalizerService :=
  { s with
    objects := s.objects.mapIdx fun position penalization =>
      if position ∈ unconfirmed then confirm commitments penalization else penalization }

/-! `executeReadyPenalizations` -/

def readyPenalizations (currentBlockNumber : ℕ) (s : PenalizerService) : List ℕ :=
  s.scheduledPenalizations.filter fun penalization =>
    ∃ readyBlockNumber ∈ s.readyBlockNumber penalization, readyBlockNumber ≤ currentBlockNumber

/-- `splice` at `indexOf`. Of a list without the element, it removes the last one. -/
def spliced (penalization : ℕ) (list : List ℕ) : List ℕ :=
  if penalization ∈ list then list.erase penalization else list.dropLast

def splicedOut (penalization : ℕ) (list : List ℕ) : Option ℕ :=
  if penalization ∈ list then some penalization else list.getLast?

def advance (handler : ℕ) (ready : List ℕ) (s : PenalizerService) : PenalizerService :=
  match ready with
  | [] => s.setPhase handler .idle
  | penalization :: rest =>
      { s with
        scheduledPenalizations := spliced penalization s.scheduledPenalizations
        handlers := Function.update s.handlers handler (.broadcasting penalization rest)
        removals := s.removals ++
          ((splicedOut penalization s.scheduledPenalizations).map fun removed => (penalization, removed)).toList }

def reveal (handler penalization : ℕ) (s : PenalizerService) : PenalizerService :=
  { s.setPhase handler .idle with revealed := s.revealed ++ [penalization] }

/-- An answer that is `none`, or a broadcast without success, is a failure, which ends the handler. -/
inductive ServiceEvent : Type
  | tick (handler : ℕ)
  | schedule (type : PenalizationTypes) (commitHash : Uint256) (methodArgs : List Bytes)
  | commitments (handler : ℕ) (answer : Option (List CommitAdded))
  | blockNumber (handler : ℕ) (answer : Option ℕ)
  | broadcast (handler : ℕ) (success : Bool)

def intervalHandler (handler : ℕ) (s : PenalizerService) : PenalizerService :=
  if s.scheduledPenalizations = [] then s
  else
    match s.unconfirmedPenalizations with
    | [] => s.setPhase handler .counting
    | unconfirmed => s.setPhase handler (.querying unconfirmed)

def next (s : PenalizerService) : ServiceEvent → PenalizerService
  | .tick handler =>
      match s.handlers handler with
      | .idle => s.intervalHandler handler
      | _ => s
  | .schedule type commitHash methodArgs => s.commitAndScheduleReveal type commitHash methodArgs
  | .commitments handler answer =>
      match s.handlers handler, answer with
      | .querying unconfirmed, some commitments =>
          (s.confirmAll commitments unconfirmed).setPhase handler .counting
      | .querying _, none => s.setPhase handler .idle
      | _, _ => s
  | .blockNumber handler answer =>
      match s.handlers handler, answer with
      | .counting, some currentBlockNumber => s.advance handler (s.readyPenalizations currentBlockNumber)
      | .counting, none => s.setPhase handler .idle
      | _, _ => s
  | .broadcast handler success =>
      match s.handlers handler, success with
      | .broadcasting penalization rest, true => (s.reveal handler penalization).advance handler rest
      | .broadcasting _ _, false => s.setPhase handler .idle
      | _, _ => s

def initial : PenalizerService := ⟨[], [], fun _ => .idle, [], []⟩

end PenalizerService

end OpenGsn.Relay
