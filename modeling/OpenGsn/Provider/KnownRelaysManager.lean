import OpenGsn.Provider.Utils
import OpenGsn.Utils

/-! `KnownRelaysManager.ts`: the relays that a client chooses from. -/

namespace OpenGsn.Provider

structure RegistrarRelayInfo where
  lastSeenBlockNumber : ℕ
  lastSeenTimestamp : ℕ
  firstSeenBlockNumber : ℕ
  firstSeenTimestamp : ℕ
  relayUrl : List Char
  relayManager : AddressText
  deriving DecidableEq, Repr

/-- A relay known by its URL only, or with its registration. -/
inductive RelayInfoUrl : Type
  | url (relayUrl : List Char)
  | event (info : RegistrarRelayInfo)
  deriving DecidableEq, Repr

def RelayInfoUrl.relayUrl : RelayInfoUrl → List Char
  | .url relayUrl => relayUrl
  | .event info => info.relayUrl

structure RelayFailureInfo where
  lastErrorTime : ℕ
  relayManager : AddressText
  relayUrl : List Char
  deriving DecidableEq, Repr

structure KnownRelaysManager where
  relayFailures : InsertionMap (List Char) (List RelayFailureInfo)
  preferredRelayers : List RelayInfoUrl
  allRelayers : List RegistrarRelayInfo

namespace KnownRelaysManager

variable (known : KnownRelaysManager)

def getRelayInfoForManager (address : AddressText) : Option RegistrarRelayInfo :=
  known.allRelayers.find? fun info => isSameAddress info.relayManager address

def hasFailure (relay : RegistrarRelayInfo) : Bool := known.relayFailures.has relay.relayUrl

/-- `validateRelayUrl` parses a URL with the library of the platform. The two shuffles draw from `random`. -/
def getRelaysShuffledForTransaction (validateRelayUrl : List Char → Bool) (random : Bool → ℕ → Random) :
    List (List RelayInfoUrl) :=
  let relaysWithFailures := known.allRelayers.filter known.hasFailure
  let relaysWithoutFailures := known.allRelayers.filter fun relay => !known.hasFailure relay
  let sortedRelays :=
    [known.preferredRelayers, (shuffle (random false) relaysWithoutFailures).map .event,
      (shuffle (random true) relaysWithFailures).map .event]
  sortedRelays.map fun relays => relays.filter fun relay => validateRelayUrl relay.relayUrl

theorem shuffled_perm (random : Bool → ℕ → Random) :
    (shuffle (random false) (known.allRelayers.filter fun relay => !known.hasFailure relay) ++
      shuffle (random true) (known.allRelayers.filter known.hasFailure)).Perm known.allRelayers := by
  have without := shuffle_perm (random false) (known.allRelayers.filter fun relay => !known.hasFailure relay)
  have failed := shuffle_perm (random true) (known.allRelayers.filter known.hasFailure)
  exact ((without.append failed).trans List.perm_append_comm).trans
    (List.filter_append_perm known.hasFailure known.allRelayers)

theorem getRelaysShuffledForTransaction_perm (validateRelayUrl : List Char → Bool) (random : Bool → ℕ → Random) :
    (known.getRelaysShuffledForTransaction validateRelayUrl random).flatten.Perm
      ((known.preferredRelayers ++ known.allRelayers.map RelayInfoUrl.event).filter fun relay =>
        validateRelayUrl relay.relayUrl) := by
  have shuffled := ((known.shuffled_perm random).map RelayInfoUrl.event).append_left known.preferredRelayers
  have filtered := shuffled.filter fun relay => validateRelayUrl relay.relayUrl
  rw [getRelaysShuffledForTransaction, ← List.filter_flatten]
  simpa using filtered

end KnownRelaysManager

end OpenGsn.Provider
