import OpenGsn.Solidity.Contracts
import OpenGsn.Reentry.Moves
import Mathlib.Tactic.Simps.Basic

/-! `RelayRegistrar.sol`. -/

namespace OpenGsn.RelayRegistrar

open Solidity Reentry

abbrev Url := Uint256 × Uint256 × Uint256

structure RelayInfo where
  lastSeenBlockNumber : ℕ
  lastSeenTimestamp : ℕ
  firstSeenBlockNumber : ℕ
  firstSeenTimestamp : ℕ
  urlParts : Url
  relayManager : Address
  deriving DecidableEq, Repr

instance : Inhabited RelayInfo := ⟨⟨0, 0, 0, 0, (0, 0, 0), 0⟩⟩

/-- The event of the contract, and a history entry for a hub that agreed to a registration. -/
inductive Entry : Type
  | returned (relayHub relayManager : Address)
  | relayServerRegistered (relayManager relayHub : Address) (url : Url)
  deriving DecidableEq, Repr

/-- The storage, and the log with the block and transaction of each entry. -/
structure State where
  owner : Address
  relayRegistrationMaxAge : ℕ
  values : Address → Address → RelayInfo
  indexedValues : Address → List Address
  log : List (Env × Entry)

namespace State

@[simps -fullyApplied]
def setValue (s : State) (relayHub relayManager : Address) (info : RelayInfo) : State :=
  { s with
    values := Function.update s.values relayHub (Function.update (s.values relayHub) relayManager info) }

@[simps -fullyApplied]
def push (s : State) (relayHub relayManager : Address) : State :=
  { s with
    indexedValues := Function.update s.indexedValues relayHub (s.indexedValues relayHub ++ [relayManager]) }

@[simps -fullyApplied]
def record (s : State) (env : Env) (entry : Entry) : State := { s with log := s.log ++ [(env, entry)] }

end State

inductive Outgoing : Type
  | onRelayServerRegistered (relayHub relayManager : Address)
  deriving DecidableEq, Repr

abbrev RegistrarCode := Code State Outgoing Bytes Revert

def MAX_RELAYS_RETURNED_COUNT : ℕ := 1000

def deploy (sender : Address) (relayRegistrationMaxAge : ℕ) : State where
  owner := sender
  relayRegistrationMaxAge := relayRegistrationMaxAge
  values := fun _ _ => default
  indexedValues := fun _ => []
  log := []

def setRelayRegistrationMaxAge (sender : Address) (relayRegistrationMaxAge : ℕ) (s : State) :
    Except Revert State := do
  onlyOwner s.owner sender
  .ok { s with relayRegistrationMaxAge }

/-- Returns a reference to the entry in the source. -/
def addItem (relayHub relayManager : Address) (s : State) : State :=
  if (s.values relayHub relayManager).lastSeenBlockNumber = 0 then s.push relayHub relayManager else s

/-- The block number is cast to 32 bits and the timestamp to 40. -/
def firstSeen (env : Env) (storageInfo : RelayInfo) : RelayInfo :=
  if storageInfo.firstSeenBlockNumber = 0 then
    { storageInfo with
      firstSeenBlockNumber := env.number % 2 ^ 32, firstSeenTimestamp := env.timestamp % 2 ^ 40 }
  else storageInfo

def storeRelayServerRegistration (env : Env) (relayManager relayHub : Address) (url : Url) (s : State) : State :=
  let s := addItem relayHub relayManager s
  let storageInfo := firstSeen env (s.values relayHub relayManager)
  s.setValue relayHub relayManager { storageInfo with
    lastSeenBlockNumber := env.number % 2 ^ 32
    lastSeenTimestamp := env.timestamp % 2 ^ 40
    relayManager
    urlParts := url }

def registerRelayServer (env : Env) (sender relayHub : Address) (url : Url) (s : State) : RegistrarCode Unit :=
  let relayManager := sender
  .call (.onRelayServerRegistered relayHub relayManager) s s fun s answer =>
    match answer with
    | .error error => .revert error
    | .ok _ =>
        let s := s.record env (.returned relayHub relayManager)
        let s := s.record env (.relayServerRegistered relayManager relayHub url)
        .done (storeRelayServerRegistration env relayManager relayHub url s) ()

def getRelayInfo (relayHub relayManager : Address) (s : State) : Except Revert RelayInfo := do
  let info := s.values relayHub relayManager
  require (info.lastSeenBlockNumber ≠ 0) "relayManager not found"
  .ok info

/-- How an attempt to call the hub ends. The code of the callee is looked for before the `try`, so that only the
failure of a hub that has code is caught. -/
inductive Attempt : Type
  | noCode
  | failed
  | returned
  deriving DecidableEq, Repr

/-- `hub` tells for which managers the code at the hub's address, if there is any, returns. -/
def verifyRelayManagerStaked (hub : Option (Address → Bool)) (relayManager : Address) : Attempt :=
  match hub with
  | none => .noCode
  | some verified => if verified relayManager then .returned else .failed

/-- The loop over the items. `room` is how many places of the array are left. -/
def readRelayInfosLoop (hub : Option (Address → Bool)) (relayHub : Address)
    (oldestBlockNumber oldestBlockTimestamp : ℕ) (s : State) : List Address → ℕ → Except Revert (List RelayInfo)
  | [], _ => .ok []
  | relayManager :: items, room => do
      let relayInfo ← getRelayInfo relayHub relayManager s
      if relayInfo.lastSeenBlockNumber < oldestBlockNumber ∨ relayInfo.lastSeenTimestamp < oldestBlockTimestamp then
        readRelayInfosLoop hub relayHub oldestBlockNumber oldestBlockTimestamp s items room
      else
        match verifyRelayManagerStaked hub relayManager, room with
        | .noCode, _ => .error (.data [])
        | .failed, room => readRelayInfosLoop hub relayHub oldestBlockNumber oldestBlockTimestamp s items room
        -- the array has no place at all
        | .returned, 0 => .error (.panic 0x32)
        | .returned, 1 => .ok [relayInfo]
        | .returned, room + 2 => do
            let infos ← readRelayInfosLoop hub relayHub oldestBlockNumber oldestBlockTimestamp s items (room + 1)
            .ok (relayInfo :: infos)

def readRelayInfosInRange (hub : Option (Address → Bool)) (relayHub : Address)
    (oldestBlockNumber oldestBlockTimestamp maxCount : ℕ) (s : State) : Except Revert (List RelayInfo) :=
  readRelayInfosLoop hub relayHub oldestBlockNumber oldestBlockTimestamp s (s.indexedValues relayHub) maxCount

/-- The subtraction is guarded in the source. -/
def readRelayInfos (hub : Option (Address → Bool)) (env : Env) (relayHub : Address) (s : State) :
    Except Revert (List RelayInfo) :=
  readRelayInfosInRange hub relayHub 0 (env.timestamp - s.relayRegistrationMaxAge) MAX_RELAYS_RETURNED_COUNT s

inductive Call : Type
  | registerRelayServer (relayHub : Address) (url : Url)
  | setRelayRegistrationMaxAge (relayRegistrationMaxAge : ℕ)
  | transferOwnership (newOwner : Address)
  | renounceOwnership
  deriving DecidableEq, Repr

def Call.relayHub : Call → Option Address
  | .registerRelayServer relayHub _ => some relayHub
  | _ => none

structure Input where
  sender : Address
  call : Call
  deriving DecidableEq, Repr

def ofState (result : Except Revert State) : RegistrarCode Unit := .check result fun s => .done s ()

def entry (env : Env) (input : Input) (s : State) : RegistrarCode Unit :=
  match input.call with
  | .registerRelayServer relayHub url => registerRelayServer env input.sender relayHub url s
  | .setRelayRegistrationMaxAge relayRegistrationMaxAge =>
      ofState (setRelayRegistrationMaxAge input.sender relayRegistrationMaxAge s)
  | .transferOwnership newOwner =>
      ofState do .ok { s with owner := ← transferOwnership s.owner input.sender newOwner }
  | .renounceOwnership => ofState do .ok { s with owner := ← renounceOwnership s.owner input.sender }

end OpenGsn.RelayRegistrar
