import OpenGsn.Relay.PastEvents

/-! The worker loop of `RelayServer.ts` around `_handleChanges`, one await after the other. -/

namespace OpenGsn.Relay

structure ScanConfig where
  limits : PageLimits
  refreshStateTimeoutBlocks : ℕ
  runPaymasterReputations : Bool
  deriving DecidableEq, Repr

/-- What the loop waits for. Each pass is about a block, and asks the hub before the registrar.
`managing` is what comes before the new `lastScannedBlock`: `_shouldRegisterAgain`, `handlePastEvents`,
and the work on stored transactions. -/
inductive ScanPhase : Type
  | idle
  | gettingBlock
  | withdrawing (block : ℕ)
  | refreshing (block : ℕ)
  | numbering (block : ℕ)
  | askingHub (block : ℕ) (query : PastEventsQuery)
  | askingRegistrar (block : ℕ) (hubEvents : List EventData) (query : PastEventsQuery)
  | managing (block : ℕ) (events : List EventData)
  | registering (events : List EventData)
  | alerting (event : EventData) (rest : List EventData)
  | updating (event : EventData) (rest : List EventData)
  | replenishing
  deriving DecidableEq, Repr

/-- `updated` is a history variable: the events that `updatePaymasterStatus` was done with. -/
structure Scan where
  chain : Chain
  lastScannedBlock : ℕ
  lastRefreshBlock : ℕ
  ready : Bool
  phase : ScanPhase
  updated : List EventData

/-- A failed request to the node says if it would have returned too many events. -/
inductive ScanReply : Type
  | failed (returnedMoreThan : Bool)
  | returned
  | balances (isManagerBalanceReady isWorkerBalanceReady : Bool)
  | registered (isRegistered : Bool)
  deriving DecidableEq, Repr

inductive ScanInput : Type
  | mined (block : List ManagerEvent)
  | timer
  | reply (answer : ScanReply)
  deriving DecidableEq, Repr

namespace Scan

variable (config : ScanConfig)

def goTo (phase : ScanPhase) (s : Scan) : Scan := { s with phase := phase }

/-- The error that `intervalHandler` catches -/
def abandon (s : Scan) : Scan := { s with phase := .idle, ready := false }

def shouldRefreshState (block : ℕ) (s : Scan) : Prop :=
  s.lastRefreshBlock + config.refreshStateTimeoutBlocks ≤ block ∨ s.ready = false

instance (block : ℕ) (s : Scan) : Decidable (s.shouldRefreshState config block) :=
  inferInstanceAs (Decidable (_ ∨ _))

/-- `intervalHandler` and `_worker` up to the next await -/
def worker (block : ℕ) (s : Scan) : Scan :=
  if s.lastScannedBlock < block ∧ s.shouldRefreshState config block then s.goTo (.withdrawing block)
  else s.goTo .idle

def askRegistrar (block : ℕ) (hubEvents : List EventData) (query : Option PastEventsQuery) (s : Scan) : Scan :=
  match query with
  | none => s.abandon
  | some query =>
      match query.rangeParts with
      | [] => s.goTo (.managing block (hubEvents ++ query.relayEventParts.flatten))
      | _ => s.goTo (.askingRegistrar block hubEvents query)

/-- The options of the second query are those that the first one has changed. -/
def askHub (block : ℕ) (query : Option PastEventsQuery) (s : Scan) : Scan :=
  match query with
  | none => s.abandon
  | some query =>
      match query.rangeParts with
      | [] =>
          s.askRegistrar block query.relayEventParts.flatten
            (PastEventsQuery.start config.limits .registrar query.fromBlock query.toBlock)
      | _ => s.goTo (.askingHub block query)

/-- Only pages need the number of the latest block. -/
def getAllHubEventsSinceLastScan (block : ℕ) (s : Scan) : Scan :=
  match config.limits.maxPageSize with
  | none => s.askHub config block (PastEventsQuery.start config.limits .hub (s.lastScannedBlock + 1) none)
  | some _ => s.goTo (.numbering block)

def numbered (block blockNumber : ℕ) (s : Scan) : Scan :=
  s.askHub config block
    (PastEventsQuery.start config.limits .hub (s.lastScannedBlock + 1)
      (some (max blockNumber (s.lastScannedBlock + 1))))

/-- The loop up to its next await. -/
def handlePastHubEvents : List EventData → ScanPhase
  | [] => .replenishing
  | event :: rest =>
      match event.event with
      | .transactionRejectedByPaymaster _ => .alerting event rest
      | .transactionRelayed _ =>
          if config.runPaymasterReputations then .updating event rest else handlePastHubEvents rest
      | _ => handlePastHubEvents rest

def pageOf (query : PastEventsQuery) (s : Scan) : List EventData :=
  match query.rangeParts with
  | [] => []
  | range :: _ => s.chain.getPastEvents query.source range

def resume (answer : ScanReply) (s : Scan) : Scan :=
  match s.phase, answer with
  | .gettingBlock, .returned => s.worker config s.chain.head
  | .withdrawing block, _ => { s with lastRefreshBlock := block, phase := .refreshing block }
  | .refreshing block, .balances isManagerBalanceReady isWorkerBalanceReady =>
      let s := { s with ready := s.ready && isManagerBalanceReady && isWorkerBalanceReady }
      if isManagerBalanceReady then s.getAllHubEventsSinceLastScan config block else s.goTo .idle
  | .numbering block, .returned => s.numbered config block s.chain.head
  | .askingHub block query, .returned => s.askHub config block (some (query.answered (s.pageOf query)))
  | .askingHub block query, .failed returnedMoreThan => s.askHub config block (query.failed returnedMoreThan)
  | .askingRegistrar block hubEvents query, .returned =>
      s.askRegistrar block hubEvents (some (query.answered (s.pageOf query)))
  | .askingRegistrar block hubEvents query, .failed returnedMoreThan =>
      s.askRegistrar block hubEvents (query.failed returnedMoreThan)
  | .managing block events, .returned => { s with lastScannedBlock := block, phase := .registering events }
  | .registering events, .registered isRegistered =>
      if isRegistered then s.goTo (handlePastHubEvents config events)
      else { s with phase := .idle, ready := false }
  | .alerting event rest, .returned =>
      if config.runPaymasterReputations then s.goTo (.updating event rest)
      else s.goTo (handlePastHubEvents config rest)
  | .updating event rest, .returned =>
      { s with updated := s.updated ++ [event], phase := handlePastHubEvents config rest }
  | .replenishing, .returned => { s with phase := .idle, ready := true }
  | .idle, _ => s
  | _, .failed _ => s.abandon
  | _, _ => s

def next (s : Scan) : ScanInput → Scan
  | .mined block => { s with chain := s.chain.mine block }
  | .timer =>
      match s.phase with
      | .idle => s.goTo .gettingBlock
      | _ => s
  | .reply answer => s.resume config answer

def initial (chain : Chain) (lastScannedBlock : ℕ) : Scan := ⟨chain, lastScannedBlock, 0, false, .idle, []⟩

end Scan

end OpenGsn.Relay
