import OpenGsn.Provider.RelaySelectionManager
import OpenGsn.Provider.RelayedTransactionValidator
import OpenGsn.Relay.CalldataCost

/-! `relayTransaction` of `RelayClient.ts`, cut at its awaits. Numbers are exact. -/

namespace OpenGsn.Provider

open Solidity
open Relay (RelayTransactionRequest parseAddress fillRelayInfo)

structure GsnTransactionDetails where
  sender : Address
  recipient : Address
  data : Bytes
  value : Option Uint256
  gas : Option Uint256
  maxFeePerGas : Uint256
  maxPriorityFeePerGas : Uint256

structure Deployment where
  relayHubAddress : AddressText
  forwarder : Address
  paymaster : Address
  paymasterAddress : AddressText

/-- `parseNumber` is how the encoding reads the budget of a ping, and `stringify` is `JSON.stringify`. -/
structure ClientConfig (Raw : Type) where
  crypto : Crypto
  environment : Environment
  selector : Bytes
  deployment : Option Deployment
  checksummed : AddressText → Bool
  validateRelayUrl : List Char → Bool
  selection : SelectionConfig
  validator : RelayedTransactionValidator Raw
  parseNumber : List Char → Except String ℕ
  stringify : TransactionValidationResult → String
  domainSeparatorName : Bytes
  sizes : VariableFieldSizes
  maxRelayNonceGap : ℕ
  requestValidSeconds : ℕ
  clientId : Uint256
  performDryRunViewRelayCall : Bool

/-- What `validateRelayCall` reports. Its return value is decoded. -/
structure ViewCallVerificationResult where
  paymasterAccepted : Bool
  recipientReverted : Bool
  relayHubReverted : Bool
  returnValue : String

/-- The call failed before it was sent. -/
def revertedInClient (message : String) : ViewCallVerificationResult :=
  ⟨false, false, true, s!"view call to 'relayCall' reverted in client: {message}"⟩

def viewCallMessage (isDryRun : Bool) (result : ViewCallVerificationResult) : String :=
  let mode := if isDryRun then "DRY-RUN" else "local"
  let message :=
    if result.relayHubReverted then s!"{mode} view call to 'relayCall()' reverted"
    else if result.recipientReverted then
      s!"paymaster accepted but recipient reverted in {mode} view call to 'relayCall()'"
    else s!"paymaster rejected in {mode} view call to 'relayCall()'"
  let hint :=
    if isDryRun then
      "\n(You can set 'performDryRunViewRelayCall' to 'false' if your want to skip the DRY-RUN step)\n" ++
        "Reported reason: "
    else ""
  message ++ hint ++ ": " ++ result.returnValue

/-- `_verifyViewCallSuccessful`, after the call -/
def viewCallError (isDryRun : Bool) (result : ViewCallVerificationResult) : Option String :=
  if !result.paymasterAccepted || result.recipientReverted then some (viewCallMessage isDryRun result) else none

structure RelayingResult where
  relayRequestID : Option ℕ
  submissionBlock : Option ℕ
  validUntilTime : Option Uint256
  transaction : Option TypedTransaction
  relayingErrors : InsertionMap (List Char) String
  pingErrors : InsertionMap (List Char) String

/-- What the loop waits for. -/
inductive Stage : Type
  | selecting
  | signing (activeRelay : RelayInfo)
  | approving (activeRelay : RelayInfo) (signature : Bytes)
  | countingTransactions (activeRelay : RelayInfo) (signature approvalData : Bytes)
  | viewing (activeRelay : RelayInfo) (httpRequest : RelayTransactionRequest)
  | posting (activeRelay : RelayInfo) (httpRequest : RelayTransactionRequest)
  | lookingUp (httpRequest : RelayTransactionRequest) (transaction : TypedTransaction)
  | sending (httpRequest : RelayTransactionRequest) (transaction : TypedTransaction)
  | finished (outcome : Except String RelayingResult)

/-- All attempts share the one `relayRequest`. The fields after `relayingErrors` are history variables: what was
signed, what was posted to which relay, what was given to auditors, which failures were saved, what was broadcast,
and the relay at which an error ended the loop. -/
structure Relaying (Raw : Type) where
  stage : Stage
  relayRequest : RelayRequest
  submissionBlock : ℕ
  selection : Selection
  relayingErrors : InsertionMap (List Char) String
  signed : List RelayRequest
  posted : List (List Char × RelayTransactionRequest)
  audited : List Raw
  relayFailures : List RelayFailureInfo
  broadcasts : List TypedTransaction
  stopped : Option (List Char)

inductive ClientEvent (Raw : Type) : Type
  | selection (event : SelectionEvent)
  | signature (answer : Except String Bytes)
  | approvalData (answer : Except String Bytes)
  | transactionCount (answer : Except String ℕ)
  | viewCall (answer : Except String ViewCallVerificationResult)
  | response (now : ℕ) (answer : Except (Option String) (Raw × ObjectMap Raw))
  | alreadySubmitted (answer : Except String Bool)
  | sent (answer : Except String Unit)

variable {Raw : Type} (config : ClientConfig Raw)

namespace ClientConfig

def relayHubAddress : AddressText := (config.deployment.map Deployment.relayHubAddress).getD []

def paymasterAddress : AddressText := (config.deployment.map Deployment.paymasterAddress).getD []

/-- `fillRelayInfo`. Calls for accounts that are none cannot be encoded. -/
def fillRelayInfo (relayRequest : RelayRequest) (pingResponse : PingResponse) : Except String RelayRequest :=
  match parseAddress config.checksummed pingResponse.relayWorkerAddress with
  | none => .error "invalid address"
  | some relayWorker =>
      .ok (Relay.fillRelayInfo config.environment config.selector config.domainSeparatorName config.sizes relayWorker
        relayRequest)

/-- `_prepareRelayHttpRequest`, after the count of transactions. The budget is read when the call is encoded. -/
def httpRequest (relayRequest : RelayRequest) (signature approvalData : Bytes) (maxAcceptanceBudget : ℕ)
    (relayLastKnownNonce : ℕ) : RelayTransactionRequest where
  relayRequest := relayRequest
  paymaster := config.paymasterAddress
  metadata :=
    { domainSeparatorName := config.domainSeparatorName
      maxAcceptanceBudget := maxAcceptanceBudget
      relayHubAddress := config.relayHubAddress
      signature := signature
      approvalData := approvalData
      relayMaxNonce := relayLastKnownNonce + config.maxRelayNonceGap
      relayLastKnownNonce := relayLastKnownNonce }

end ClientConfig

def timedOut (message : Option String) : Bool :=
  match message with
  | none => true
  | some message => decide ("timeout".toList <:+: message.toList)

def RelayInfo.relayUrl (info : RelayInfo) : List Char := info.relayInfo.relayUrl

namespace Relaying

variable (s : Relaying Raw)

def ends (outcome : Except String RelayingResult) : Relaying Raw := { s with stage := .finished outcome }

/-- The end of the loop, with a transaction or without. -/
def returns (relayed : Option (RelayTransactionRequest × TypedTransaction)) : Relaying Raw :=
  s.ends (.ok
    { relayRequestID := relayed.map fun made =>
        getRelayRequestID config.crypto made.1.relayRequest made.1.metadata.signature
      submissionBlock := some s.submissionBlock
      validUntilTime := relayed.map fun made => made.1.relayRequest.request.validUntilTime
      transaction := relayed.map Prod.snd
      relayingErrors := s.relayingErrors
      pingErrors := s.selection.manager.errors })

def recordError (activeRelay : RelayInfo) (error : String) : Relaying Raw :=
  { s with relayingErrors := s.relayingErrors.set activeRelay.relayUrl error }

/-- An attempt that threw, or that returned an error of another kind than a relay's. -/
def stops (activeRelay : RelayInfo) (error : String) : Relaying Raw :=
  { s.recordError activeRelay error with stopped := some activeRelay.relayUrl }.returns config none

/-- `_attemptRelay`, until it asks for a signature -/
def attempt (activeRelay : RelayInfo) : Relaying Raw :=
  match config.fillRelayInfo s.relayRequest activeRelay.pingResponse with
  | .error error => s.stops config activeRelay error
  | .ok filled => { s with relayRequest := filled, signed := s.signed ++ [filled], stage := .signing activeRelay }

def chosen : Relaying Raw :=
  match s.selection.call with
  | some _ => s
  | none =>
      match s.selection.outcomes.getLast? with
      | some (.ok (some activeRelay)) => s.attempt config activeRelay
      | some (.error message) => s.ends (.error message)
      | _ => s.returns config none

def loop : Relaying Raw :=
  { s with stage := .selecting, selection := s.selection.loop config.selection config.relayHubAddress }.chosen config

/-- An error of the relay: the next one is tried. -/
def continues (activeRelay : RelayInfo) (error : String) : Relaying Raw :=
  (s.recordError activeRelay error).loop config

def saveRelayFailure (now : ℕ) (activeRelay : RelayInfo) : Relaying Raw :=
  { s with
    relayFailures := s.relayFailures ++
      [⟨now, activeRelay.relayInfo.relayManager, activeRelay.relayInfo.relayUrl⟩] }

/-- The request to the relay failed, or its answer is no transaction. -/
def refused (now : ℕ) (activeRelay : RelayInfo) (message : Option String) : Relaying Raw :=
  (if timedOut message then s.saveRelayFailure now activeRelay else s).continues config activeRelay
    (message.getD "No error reason was given")

/-- `_attemptRelay`, from the answer of the relay on -/
def answered (now : ℕ) (activeRelay : RelayInfo) (httpRequest : RelayTransactionRequest) (signedTx : Raw)
    (nonceGapFilled : ObjectMap Raw) : Relaying Raw :=
  match config.validator.fromSerializedData signedTx with
  | .error message => s.refused config now activeRelay (some message)
  | .ok transaction =>
      let s := { s with audited := s.audited ++ [signedTx] }
      match config.validator.validateRelayResponse httpRequest signedTx nonceGapFilled with
      | .error message => s.stops config activeRelay message
      | .ok validationResponse =>
          if isTransactionValid validationResponse then { s with stage := .lookingUp httpRequest transaction }
          else
            let results := config.stringify validationResponse
            (s.saveRelayFailure now activeRelay).continues config activeRelay
              s!"Transaction response verification failed. Validation results: {results}"

/-- The lengths are checked after both answers. -/
def approved (activeRelay : RelayInfo) (signature approvalData : Bytes) : Relaying Raw :=
  if config.sizes.maxPaymasterDataLength < s.relayRequest.relayData.paymasterData.length then
    s.stops config activeRelay "actual paymasterData larger than maxPaymasterDataLength"
  else if config.sizes.maxApprovalDataLength < approvalData.length then
    s.stops config activeRelay "actual approvalData larger than maxApprovalDataLength"
  else { s with stage := .countingTransactions activeRelay signature approvalData }

def counted (activeRelay : RelayInfo) (signature approvalData : Bytes) (relayLastKnownNonce : ℕ) : Relaying Raw :=
  match config.parseNumber activeRelay.pingResponse.maxAcceptanceBudget with
  | .error message => s.stops config activeRelay (viewCallMessage false (revertedInClient message))
  | .ok maxAcceptanceBudget =>
      let httpRequest :=
        config.httpRequest s.relayRequest signature approvalData maxAcceptanceBudget relayLastKnownNonce
      { s with stage := .viewing activeRelay httpRequest }

def viewed (activeRelay : RelayInfo) (httpRequest : RelayTransactionRequest) (result : ViewCallVerificationResult) :
    Relaying Raw :=
  match viewCallError false result with
  | some error => s.stops config activeRelay error
  | none =>
      { s with
        stage := .posting activeRelay httpRequest
        posted := s.posted ++ [(activeRelay.relayUrl, httpRequest)] }

def step : ClientEvent Raw → Relaying Raw → Except Unit (Relaying Raw)
  | .selection event, s =>
      match s.stage with
      | .selecting =>
          (s.selection.step config.selection event).map fun selection => ({ s with selection }).chosen config
      | _ => .error ()
  | .signature answer, s =>
      match s.stage with
      | .signing activeRelay =>
          match answer with
          | .error message => .ok (s.stops config activeRelay message)
          | .ok signature => .ok { s with stage := .approving activeRelay signature }
      | _ => .error ()
  | .approvalData answer, s =>
      match s.stage with
      | .approving activeRelay signature =>
          match answer with
          | .error message => .ok (s.stops config activeRelay message)
          | .ok approvalData => .ok (s.approved config activeRelay signature approvalData)
      | _ => .error ()
  | .transactionCount answer, s =>
      match s.stage with
      | .countingTransactions activeRelay signature approvalData =>
          match answer with
          | .error message => .ok (s.stops config activeRelay message)
          | .ok count => .ok (s.counted config activeRelay signature approvalData count)
      | _ => .error ()
  | .viewCall answer, s =>
      match s.stage with
      | .viewing activeRelay httpRequest =>
          match answer with
          | .error message => .ok (s.stops config activeRelay message)
          | .ok result => .ok (s.viewed config activeRelay httpRequest result)
      | _ => .error ()
  | .response now answer, s =>
      match s.stage with
      | .posting activeRelay httpRequest =>
          match answer with
          | .error message => .ok (s.refused config now activeRelay message)
          | .ok (signedTx, nonceGapFilled) =>
              .ok (s.answered config now activeRelay httpRequest signedTx nonceGapFilled)
      | _ => .error ()
  | .alreadySubmitted answer, s =>
      match s.stage with
      | .lookingUp httpRequest transaction =>
          match answer with
          | .ok false =>
              .ok { s with stage := .sending httpRequest transaction, broadcasts := s.broadcasts ++ [transaction] }
          -- it is there already, or it cannot be looked up
          | _ => .ok (s.returns config (some (httpRequest, transaction)))
      | _ => .error ()
  | .sent _, s =>
      match s.stage with
      | .sending httpRequest transaction => .ok (s.returns config (some (httpRequest, transaction)))
      | _ => .error ()

end Relaying

/-! Before the loop. -/

/-- What the client is told before the loop, where nothing else happens in between. -/
structure Preparation where
  refreshed : Except String Unit
  estimatedGas : Except String Uint256
  senderNonce : Except String Uint256
  secondsNow : ℕ
  asyncPaymasterData : RelayRequest → Except String Bytes
  dryRun : RelayRequest → Except String ViewCallVerificationResult
  known : KnownRelaysManager
  random : Bool → ℕ → Random
  blockNumber : Except String ℕ

def Preparation.gasFor (told : Preparation) (details : GsnTransactionDetails) : Except String Uint256 :=
  match details.gas with
  | some gas => .ok gas
  | none => told.estimatedGas

/-- `_prepareRelayRequest`. The fields that are filled in later are zero. -/
def prepareRelayRequest (details : GsnTransactionDetails) (gas : Uint256) (told : Preparation) :
    Except String RelayRequest :=
  match config.deployment with
  | none => .error "Contract addresses are not initialized!"
  | some deployment => do
      let senderNonce ← told.senderNonce
      let relayRequest : RelayRequest :=
        { request :=
            { sender := details.sender
              recipient := details.recipient
              value := details.value.getD 0
              gas := gas
              nonce := senderNonce
              data := details.data
              validUntilTime := Fin.ofNat (2 ^ 256) (told.secondsNow + config.requestValidSeconds) }
          relayData :=
            { maxFeePerGas := details.maxFeePerGas
              maxPriorityFeePerGas := details.maxPriorityFeePerGas
              transactionCalldataGasUsed := 0
              relayWorker := 0
              paymaster := deployment.paymaster
              forwarder := deployment.forwarder
              paymasterData := []
              clientId := config.clientId } }
      let paymasterData ← told.asyncPaymasterData relayRequest
      .ok { relayRequest with relayData := { relayRequest.relayData with paymasterData } }

def dryRunError (error : String) : RelayingResult :=
  ⟨none, none, none, none, InsertionMap.empty.set "DRY-RUN".toList error, .empty⟩

/-- `_verifyDryRunSuccessful`, where the client is configured so -/
def dryRunFailure (relayRequest : RelayRequest) (told : Preparation) : Except String (Option String) :=
  if config.performDryRunViewRelayCall then (told.dryRun relayRequest).map (viewCallError true) else .ok none

/-- `relayTransaction` up to its loop, which may not be reached. -/
def relayTransaction (details : GsnTransactionDetails) (told : Preparation) :
    Except String (RelayingResult ⊕ Relaying Raw) := do
  told.refreshed
  let gas ← told.gasFor details
  match prepareRelayRequest config details gas told with
  | .error error => .ok (.inl (dryRunError error))
  | .ok relayRequest =>
      let failure ← dryRunFailure config relayRequest told
      match failure with
      | some error => .ok (.inl (dryRunError error))
      | none =>
          let selection := Selection.start
            (told.known.getRelaysShuffledForTransaction config.validateRelayUrl told.random)
          if selection.manager.relaysLeft.length = 0 then .error "no registered relayers"
          else
            let submissionBlock ← told.blockNumber
            let s : Relaying Raw :=
              ⟨.selecting, relayRequest, submissionBlock, selection, .empty, [], [], [], [], [], none⟩
            .ok (.inr (s.loop config))

end OpenGsn.Provider
