import OpenGsn.Provider.KnownRelaysManager

/-! `RelaySelectionManager.ts`. Calls of `selectNextRelay` come one after the other.

A call waits only for a race and then for the registration of its winner. The latter is looked up without a
promise, so nothing that a race waits for comes between the two. -/

namespace OpenGsn.Provider


structure PingResponse where
  relayWorkerAddress : AddressText
  relayManagerAddress : AddressText
  relayHubAddress : AddressText
  ownerAddress : AddressText
  maxMaxFeePerGas : List Char
  minMaxFeePerGas : List Char
  minMaxPriorityFeePerGas : List Char
  maxAcceptanceBudget : List Char
  networkId : Option (List Char)
  chainId : Option (List Char)
  ready : Bool
  version : List Char
  deriving DecidableEq, Repr

structure PartialRelayInfo where
  relayInfo : RelayInfoUrl
  pingResponse : PingResponse
  deriving DecidableEq, Repr

structure RelayInfo where
  pingResponse : PingResponse
  relayInfo : RegistrarRelayInfo
  deriving DecidableEq, Repr

/-- `stringify` is `JSON.stringify`. The filter throws for the servers that it refuses. -/
structure SelectionConfig where
  waitForSuccessSliceSize : ℕ
  pingFilter : PingResponse → Except String Unit
  stringify : PingResponse → String

structure RelaySelectionManager where
  remainingRelays : List (List RelayInfoUrl)
  isInitialized : Bool
  errors : InsertionMap (List Char) String

abbrev Pong := Except String PingResponse

namespace RelaySelectionManager

variable (config : SelectionConfig) (manager : RelaySelectionManager)

def constructed : RelaySelectionManager := ⟨[], false, .empty⟩

def init (relays : List (List RelayInfoUrl)) : RelaySelectionManager :=
  { manager with remainingRelays := relays, isInitialized := true }

def relaysLeft : List RelayInfoUrl := manager.remainingRelays.flatten

def firstSlice : List (List RelayInfoUrl) → List RelayInfoUrl
  | [] => []
  | relays :: rest =>
      let bulkSize := min config.waitForSuccessSliceSize relays.length
      let slice := relays.take bulkSize
      if slice.length = 0 then firstSlice rest else slice

def getNextSlice : Except String (List RelayInfoUrl) :=
  if manager.isInitialized then .ok (firstSlice config manager.remainingRelays) else .error "init() not called"

def getRelayAddressPing (relayHub : AddressText) (relayInfo : RelayInfoUrl) (pong : Pong) :
    Except String PartialRelayInfo := do
  let pingResponse ← pong
  if !pingResponse.ready then
    let response := config.stringify pingResponse
    .error s!"Relay not ready {response}"
  else if !isSameAddress relayHub pingResponse.relayHubAddress then
    let client := String.ofList relayHub
    let server := String.ofList pingResponse.relayHubAddress
    .error s!"Client is using RelayHub {client} while the server responded with RelayHub address {server}"
  else
    let _ ← config.pingFilter pingResponse
    .ok { pingResponse, relayInfo }

def asArray (relays : List RelayInfoUrl) : List RelayInfoUrl :=
  (InsertionMap.empty.merge (relays.map fun relay => (relay.relayUrl, relay))).values

def startRace (relays : List RelayInfoUrl) (relayHub : AddressText) : Except String (Race Pong PartialRelayInfo) :=
  waitForSuccess ((asArray relays).map (getRelayAddressPing config relayHub))
    ((asArray relays).map RelayInfoUrl.relayUrl)

def stays (raceResult : WaitForSuccessResults PartialRelayInfo) (eventInfo : RelayInfoUrl) : Bool :=
  raceResult.winner.map (fun winner => winner.relayInfo.relayUrl) ≠ some eventInfo.relayUrl ∧
    eventInfo.relayUrl ∉ raceResult.errors.keys

def handleWaitForSuccessResults (raceResult : WaitForSuccessResults PartialRelayInfo) :
    Except String RelaySelectionManager :=
  if manager.isInitialized then
    .ok
      { manager with
        errors := manager.errors.merge raceResult.errors.entries
        remainingRelays := manager.remainingRelays.map fun relays => relays.filter (stays raceResult) }
  else .error "init() not called"

/-- `_nextRelayInternal`, after its race -/
def relayOf (known : KnownRelaysManager) (raceResult : WaitForSuccessResults PartialRelayInfo) : Option RelayInfo :=
  raceResult.winner.bind fun winner =>
    match winner.relayInfo with
    | .event info => some ⟨winner.pingResponse, info⟩
    | .url relayUrl =>
        (known.getRelayInfoForManager winner.pingResponse.relayManagerAddress).map fun event =>
          ⟨winner.pingResponse, { event with relayUrl }⟩

end RelaySelectionManager

structure SelectionCall where
  relayHub : AddressText
  race : Race Pong PartialRelayInfo

/-- `outcomes` and `dropped` are history variables: how the calls ended, and the winners that were not returned,
each with the registrations among which it was looked for. -/
structure Selection where
  manager : RelaySelectionManager
  call : Option SelectionCall
  outcomes : List (Except String (Option RelayInfo))
  dropped : List (PartialRelayInfo × KnownRelaysManager)

/-- The registrations may have been refreshed whenever a call goes on. -/
inductive SelectionEvent : Type
  | selectNextRelay (relayHub : AddressText)
  | ping (event : RaceEvent Pong)
  | raceFinished (known : KnownRelaysManager)

namespace Selection

variable (config : SelectionConfig) (s : Selection)

def start (relays : List (List RelayInfoUrl)) : Selection :=
  ⟨RelaySelectionManager.constructed.init relays, none, [], []⟩

def ends (outcome : Except String (Option RelayInfo)) : Selection :=
  { s with call := none, outcomes := s.outcomes ++ [outcome] }

def loop (relayHub : AddressText) : Selection :=
  match s.manager.getNextSlice config with
  | .error err => s.ends (.error err)
  | .ok slice =>
      if slice.length > 0 then
        match RelaySelectionManager.startRace config slice relayHub with
        | .error err => s.ends (.error err)
        | .ok race => { s with call := some ⟨relayHub, race⟩ }
      else s.ends (.ok none)

def afterRace (known : KnownRelaysManager) (call : SelectionCall) : Selection :=
  match s.manager.handleWaitForSuccessResults call.race.ret with
  | .error err => s.ends (.error err)
  | .ok manager =>
      match RelaySelectionManager.relayOf known call.race.ret with
      | some relayInfo => { s with manager }.ends (.ok (some relayInfo))
      | none =>
          let dropped := s.dropped ++ (call.race.ret.winner.map fun winner => (winner, known)).toList
          { s with manager, dropped }.loop config call.relayHub

def step : SelectionEvent → Selection → Except Unit Selection
  | .selectNextRelay relayHub, s =>
      match s.call with
      | none => .ok (s.loop config relayHub)
      | some _ => .error ()
  | .ping event, s =>
      match s.call with
      | none => .error ()
      | some call => (call.race.step event).map fun race => { s with call := some { call with race } }
  | .raceFinished known, s =>
      match s.call with
      | none => .error ()
      | some call => if call.race.resolved then .ok (s.afterRace config known call) else .error ()

end Selection

end OpenGsn.Provider
