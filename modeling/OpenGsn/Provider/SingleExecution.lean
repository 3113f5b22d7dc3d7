import OpenGsn.Provider.RelayClientSafety
import OpenGsn.Forwarder.NonceUses
import OpenGsn.TypedRequestData

/-! Of all that a client signs for one transaction, the forwarder executes at most one. -/

namespace OpenGsn.Provider

open Solidity Reentry Forwarder

variable {Raw : Type}

/-- The account has signed for the client only, where it has signed under this nonce. -/
def SignedFor (crypto : Crypto) (chainId : ℕ) (name : String) (account : Address) (nonce : Uint256)
    (signed : List RelayRequest) (use : Executed) : Prop :=
  crypto.recover (digest crypto use.request use.domainSeparator use.requestTypeHash use.suffixData) use.signature =
      some account →
    use.request.nonce = nonce →
    ∃ request ∈ signed, Eip712.digest crypto (typedRequestData name chainId request.relayData.forwarder request) =
      some (digest crypto use.request use.domainSeparator use.requestTypeHash use.suffixData)

def Distinguished (crypto : Crypto) (env : Env) (name : String) (signed : List RelayRequest) (use : Executed) : Prop :=
  ∀ request ∈ signed, crypto.CollisionFree
    (hashedStrings crypto use.request use.domainSeparator use.requestTypeHash use.suffixData ∪
      hashedStrings crypto request.request (domainSeparator crypto env (utf8 name) request.relayData.forwarder)
        (relayRequestTypeHash crypto) (splitRequest crypto request))

/-- However many relays a client turns to for a transaction, and whatever they and others do, re-entrant calls
included: the forwarder executes at most one request under the nonce, and it is what the client was asked for, with
the data of a relay that the client has signed for. -/
theorem relayed_at_most_once (config : ClientConfig Raw) (positive : 1 ≤ config.selection.waitForSuccessSliceSize)
    (details : GsnTransactionDetails) (told : Preparation) (start : Relaying Raw)
    (begun : relayTransaction config details told = .ok (.inr start)) (events : List (ClientEvent Raw))
    (asked : RelayRequest) (gas : Uint256) (limited : told.gasFor details = .ok gas)
    (prepared : prepareRelayRequest config details gas told = .ok asked) (env : Env) (name : String) (this : Address)
    (history : List (Sent × Moves Call Bytes Revert)) (s : State)
    (reached : s ∈ historySeen (fun env : Sent => entry config.crypto this env.1) history (deploy config.crypto))
    (authentic : ∀ use ∈ s.executed, SignedFor config.crypto env.chainId name asked.request.sender
      asked.request.nonce (Runs.after (Relaying.step config) events start).signed use)
    (free : ∀ use ∈ s.executed, Distinguished config.crypto env name
      (Runs.after (Relaying.step config) events start).signed use) :
    (usesOf s asked.request.sender asked.request.nonce).length ≤ 1 ∧
    ∀ use ∈ usesOf s asked.request.sender asked.request.nonce, use.request = asked.request ∧
      ∃ request ∈ (Runs.after (Relaying.step config) events start).signed,
        use.suffixData = splitRequest config.crypto request := by
  obtain ⟨gas', asked', limited', prepared', invariant⟩ :=
    Relaying.relayTransaction_starts positive details told start begun
  obtain rfl := Except.ok.inj (limited.symm.trans limited')
  obtain rfl := Except.ok.inj (prepared.symm.trans prepared')
  have signed := (invariant.after positive events).signed
  have consistent := sent_consistent config.crypto this history s reached
  refine ⟨usesOf_length config.crypto s consistent _ _, ?_⟩
  intro use member
  obtain ⟨listed, nonce⟩ := List.mem_filter.mp member
  obtain ⟨executed, sender⟩ := List.mem_filter.mp listed
  have sender : use.request.sender = asked.request.sender := of_decide_eq_true sender
  have nonce : use.request.nonce = asked.request.nonce := Fin.ext (of_decide_eq_true nonce)
  rcases consistent.authorized use executed with dry | recovered
  · exact absurd dry (sent_lasting config.crypto this history s reached use executed)
  · rw [sender] at recovered
    obtain ⟨request, member, digests⟩ := authentic use executed recovered nonce
    rw [digest_typedRequestData] at digests
    obtain ⟨same, _, _, suffix⟩ := digest_inj config.crypto use.request request.request use.domainSeparator _
      use.requestTypeHash _ use.suffixData _ (free use executed request member) (Option.some.inj digests).symm
    obtain ⟨relayWorker, filled⟩ := signed request member
    refine ⟨?_, request, member, suffix⟩
    rw [same, filled]
    rfl

def plainSigned : List RelayRequest :=
  (plainStart.map fun start => (Runs.after (Relaying.step plainClient) secondChance start).signed).getD []

def sampleBlock : Sent := ⟨Solidity.sampleEnv, by decide⟩

def bothRelayed : List (Sent × Moves Call Bytes Revert) :=
  let executes (request : RelayRequest) : Call :=
    .execute 0 request.request (domainSeparator spreadCrypto sampleBlock.1 (utf8 "G") 6)
      (relayRequestTypeHash spreadCrypto) (splitRequest spreadCrypto request) [2] 1000000
  [.registerDomainSeparator (utf8 "G") (utf8 gsnDomainSeparatorVersion),
    .registerRequestType (utf8 gsnRequestTypeName) (utf8 gsnRequestTypeSuffix)].map
      (fun call => (sampleBlock, .enter call .none .stop)) ++
    plainSigned.map fun request => (sampleBlock, .enter (executes request) .none .stop)

def relayedState : State :=
  historyFinal (fun env : Sent => entry spreadCrypto 6 env.1) bothRelayed (deploy spreadCrypto)

theorem collisionFree_listed (crypto : Crypto) (strings : List Bytes) (set : Set Bytes)
    (apart : ∀ first ∈ strings, ∀ second ∈ strings, crypto.keccak256 first = crypto.keccak256 second → first = second)
    (within : ∀ string ∈ set, string ∈ strings) : crypto.CollisionFree set :=
  fun first one second two same => apart first (within first one) second (within second two) same

def stringsOf (request : ForwardRequest) (domain requestTypeHash : Uint256) (suffixData : Bytes) : List Bytes :=
  [digestInput spreadCrypto request domain requestTypeHash suffixData,
    getEncoded spreadCrypto request requestTypeHash suffixData, request.data]

theorem mem_stringsOf (request : ForwardRequest) (domain requestTypeHash : Uint256) (suffixData string : Bytes)
    (member : string ∈ hashedStrings spreadCrypto request domain requestTypeHash suffixData) :
    string ∈ stringsOf request domain requestTypeHash suffixData := by
  simpa [hashedStrings, stringsOf] using member

theorem relayed_at_most_once_both :
    plainSigned.length = 2 ∧ relayedState.executed.length = 1 ∧ (usesOf relayedState 2 0).length ≤ 1 := by
  have ran : plainStart.isSome = true := by decide +kernel
  obtain ⟨start, started⟩ := Option.isSome_iff_exists.mp ran
  have signed : (Runs.after (Relaying.step plainClient) secondChance start).signed = plainSigned := by
    rw [plainSigned, started]
    rfl
  obtain ⟨asked, prepared, nonce⟩ : ∃ asked, prepareRelayRequest plainClient plainDetails 100000 plainPreparation =
      .ok asked ∧ (asked.request.sender, asked.request.nonce) = (2, 0) := ⟨_, rfl, rfl⟩
  obtain ⟨sender, nonce⟩ := Prod.mk.inj nonce
  have once := relayed_at_most_once plainClient (by decide) plainDetails plainPreparation start
    (plainStart_begun start started) secondChance asked 100000 rfl prepared sampleBlock.1 "G" 6 bothRelayed relayedState
    (historyFinal_seen _ _ _)
  rw [signed, sender, nonce] at once
  refine ⟨by decide +kernel, by decide +kernel, (once ?_ ?_).1⟩
  · unfold SignedFor
    decide +kernel
  · intro use executed request member
    apply collisionFree_listed spreadCrypto (stringsOf use.request use.domainSeparator use.requestTypeHash
      use.suffixData ++ stringsOf request.request (domainSeparator spreadCrypto sampleBlock.1 (utf8 "G")
        request.relayData.forwarder) (relayRequestTypeHash spreadCrypto) (splitRequest spreadCrypto request))
    · revert use request
      decide +kernel
    · rintro string (one | two)
      · exact List.mem_append_left _ (mem_stringsOf _ _ _ _ string one)
      · exact List.mem_append_right _ (mem_stringsOf _ _ _ _ string two)

end OpenGsn.Provider
