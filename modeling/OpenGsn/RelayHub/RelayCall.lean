import OpenGsn.RelayHub.Model

/-! `relayCall` and its inner frame, and all the calls that the world takes. -/

namespace OpenGsn.RelayHub

open Solidity Reentry

variable (crypto : Crypto) (addresses : Immutables) (env : Env)

/-- `limits` is the answer of the paymaster's `getGasAndDataLimits`. -/
def verifyGasAndDataLimits (limits : Except Revert GasAndDataLimits) (args : RelayCallArgs)
    (initialGasLeft : ℕ) (h : Hub) : Except Revert (GasAndDataLimits × ℕ) := do
  let relayData := args.relayRequest.relayData
  let gasAndDataLimits ← limits
  require (args.msgDataLength ≤ gasAndDataLimits.calldataSizeLimit.val) "msg.data exceeded limit"
  require (gasAndDataLimits.acceptanceBudget ≤ args.maxAcceptanceBudget) "acceptance budget too high"
  require (gasAndDataLimits.preRelayedCallGasLimit ≤ gasAndDataLimits.acceptanceBudget)
    "acceptance budget too low"
  let maxPossibleGas ← checkedAdd 256 relayData.transactionCalldataGasUsed.val initialGasLeft
  let maxPossibleCharge ← calculateCharge env h.config maxPossibleGas relayData
  require (maxPossibleCharge ≤ h.balances relayData.paymaster) "Paymaster balance too low"
  .ok (gasAndDataLimits, maxPossibleGas)

def dynamicParamSize (buf : Bytes) : ℕ := 32 + (buf.length + 31) / 32 * 32

def verifyTransactionPacking (args : RelayCallArgs) : Except Revert Unit := do
  let expectedMsgDataLen := 4 + 22 * 32 + dynamicParamSize args.domainSeparatorName +
    dynamicParamSize args.signature + dynamicParamSize args.approvalData +
    dynamicParamSize args.relayRequest.request.data +
    dynamicParamSize args.relayRequest.relayData.paymasterData
  require (args.signature.length ≤ 65) "invalid signature length"
  require (expectedMsgDataLen = args.msgDataLength) "extra msg.data bytes"

def verifyCaller (sender : Address) (args : RelayCallArgs) : Except Revert Unit :=
  if sender ≠ addresses.batchGateway ∧ env.origin ≠ 0 then do
    require (args.signature.length ≠ 0) "missing signature or bad gateway"
    require (sender = env.origin) "relay worker must be EOA"
    require (sender = args.relayRequest.relayData.relayWorker) "Not a right worker"
  else
    .ok ()

/-- The manager of the worker; a dry run has none. -/
def verifyRelayManager (args : RelayCallArgs) (w : World) : Except Revert Address :=
  if env.origin ≠ 0 then do
    let relayManager := w.hub.workerToManager args.relayRequest.relayData.relayWorker
    require (relayManager ≠ 0) "Unknown relay worker"
    verifyRelayManagerStaked addresses relayManager w
    .ok relayManager
  else
    .ok 0

def failInner (status : RelayCallStatus) (ret : Bytes) : HubCode (RelayCallStatus × Bytes) :=
  .revert (.data (revertWithStatus status ret))

def finishInner (paymaster : Address) (balanceBefore : ℕ) (success : Bool) (ret : Bytes) (w : World) :
    HubCode (RelayCallStatus × Bytes) :=
  if w.hub.balances paymaster < balanceBefore then
    failInner .paymasterBalanceChanged []
  else
    .done w (if success then .ok else .relayedCallFailed, ret)

/-- `innerRelayCall` from `postRelayedCall` on. -/
def innerPostRelayedCall (relayData : RelayData) (limits : GasAndDataLimits) (gas : GasReadings)
    (gasUsedToCallInner balanceBefore : ℕ) (context : Bytes) (success : Bool) (ret : Bytes)
    (w : World) : HubCode (RelayCallStatus × Bytes) :=
  .check (checkedSub gas.innerInitial gas.innerBeforePost) fun spent =>
  .check (checkedAdd 256 gasUsedToCallInner spent) fun gasUseWithoutPost =>
  .call (.postRelayedCall relayData.paymaster limits.postRelayedCallGasLimit context success
      gasUseWithoutPost relayData) w w fun w answer =>
    match answer with
    | .error error => failInner .postRelayedFailed error.bytes
    | .ok _ => finishInner relayData.paymaster balanceBefore success ret w

/-- `innerRelayCall` from the call of the forwarder on. -/
def innerExecute (args : RelayCallArgs) (limits : GasAndDataLimits) (gas : GasReadings)
    (gasUsedToCallInner balanceBefore : ℕ) (context : Bytes) (rejectOnRecipientRevert : Bool)
    (w : World) : HubCode (RelayCallStatus × Bytes) :=
  let relayData := args.relayRequest.relayData
  .call (.execute relayData.forwarder args.relayRequest.request
      (domainSeparator crypto env args.domainSeparatorName relayData.forwarder)
      (relayRequestTypeHash crypto) (splitRequest crypto args.relayRequest) args.signature) w w
    fun w answer =>
    match answer with
    | .error error => failInner .rejectedByForwarder (truncateInPlace error.bytes)
    | .ok returned =>
        .check (decodeBoolBytes returned) fun (callSuccess, data) =>
        let ret := truncateInPlace data
        if rejectOnRecipientRevert ∧ ¬ callSuccess then
          failInner .rejectedByRecipientRevert ret
        else
          innerPostRelayedCall relayData limits gas gasUsedToCallInner balanceBefore context
            callSuccess ret w

def innerRelayCall (sender : Address) (args : RelayCallArgs) (limits : GasAndDataLimits)
    (totalInitialGas maxPossibleGas : ℕ) (gas : GasReadings) (w : World) :
    HubCode (RelayCallStatus × Bytes) :=
  let paymaster := args.relayRequest.relayData.paymaster
  .check (checkedSub totalInitialGas gas.innerLeft) fun gasUsedToCallInner =>
  .check (require (sender = addresses.this) "Must be called by RelayHub") fun _ =>
  let balanceBefore := w.hub.balances paymaster
  .call (.preRelayedCall paymaster limits.preRelayedCallGasLimit args.relayRequest args.signature
      args.approvalData maxPossibleGas) w w fun w answer =>
    match answer with
    | .error error => failInner .rejectedByPreRelayed (truncateInPlace error.bytes)
    | .ok returned =>
        .check (decodeBytesBool returned) fun (recipientContext, rejectOnRecipientRevert) =>
        innerExecute crypto env args limits gas gasUsedToCallInner balanceBefore recipientContext
          rejectOnRecipientRevert w

/-- The gas that `relayCall` gives to its inner frame, the initial gas it tells it, and the
paymaster's limits. -/
structure InnerCall where
  relayManager : Address
  limits : GasAndDataLimits
  maxPossibleGas : ℕ
  innerGasLimit : ℕ
  totalInitialGas : ℕ

/-- `relayCall` up to the inner frame. -/
def prepareRelayCall (sender : Address) (args : RelayCallArgs)
    (limits : Except Revert GasAndDataLimits) (gas : GasReadings) (w : World) :
    Except Revert InnerCall := do
  let relayData := args.relayRequest.relayData
  require (isDeprecated env w.hub = false) "hub deprecated"
  verifyCaller addresses env sender args
  let relayManager ← verifyRelayManager addresses env args w
  let (gasAndDataLimits, maxPossibleGas) ← verifyGasAndDataLimits env limits args gas.initial w.hub
  verifyTransactionPacking args
  let scaled ← checkedMul 256 gas.beforeLimit 63
  let innerGasLimit ← checkedSub (scaled / 64) w.hub.config.gasReserve.val
  let sum ← checkedAdd 256 relayData.transactionCalldataGasUsed.val gas.initial
  let sum ← checkedAdd 256 sum innerGasLimit
  let sum ← checkedAdd 256 sum w.hub.config.gasOverhead.val
  let tmpInitialGas ← checkedAdd 256 sum w.hub.config.postOverhead.val
  let totalInitialGas ← checkedSub tmpInitialGas gas.atInner
  .ok ⟨relayManager, gasAndDataLimits, maxPossibleGas, innerGasLimit, totalInitialGas⟩

/-- The cases in which the paymaster does not pay, all of them with a failed inner frame. -/
def rejects (success : Bool) (limits : GasAndDataLimits) (relayData : RelayData) (innerGasUsed : ℕ)
    (status : RelayCallStatus) : Except Revert Bool :=
  if success then
    .ok false
  else if status = .rejectedByPreRelayed then
    .ok true
  else do
    let budget ← checkedAdd 256 limits.acceptanceBudget.val relayData.transactionCalldataGasUsed.val
    .ok (innerGasUsed ≤ budget ∧
      (status = .rejectedByForwarder ∨ status = .rejectedByRecipientRevert))

def returnData : Except Revert (RelayCallStatus × Bytes) → Bytes
  | .ok (status, ret) => encodeStatus status ret
  | .error error => error.bytes

/-- The charge: from the paymaster to the relay manager, and a share to the developers. -/
def settle (relayManager : Address) (relayData : RelayData) (gas : GasReadings) (h : Hub) :
    Except Revert (Hub × ℕ) := do
  let gasUsed ← measuredGas h.config relayData gas
  let charge ← calculateCharge env h.config gasUsed relayData
  let devCharge := calculateDevCharge h.config charge
  let rest ← checkedSub (h.balances relayData.paymaster) charge
  let h := h.setBalance relayData.paymaster rest
  let fee ← checkedSub charge devCharge
  let managerBalance ← checkedAdd 256 (h.balances relayManager) fee
  let h := h.setBalance relayManager managerBalance
  if 0 < devCharge then
    let devBalance ← checkedAdd 256 (h.balances h.config.devAddress) devCharge
    .ok (h.setBalance h.config.devAddress devBalance, charge)
  else
    .ok (h, charge)

def functionSelector (data : Bytes) : Bytes :=
  if 4 ≤ data.length then data.take 4 else [0, 0, 0, 0]

/-- `relayCall` from the return of the inner frame on. -/
def finishRelayCall (sender : Address) (args : RelayCallArgs) (inner : InnerCall) (gas : GasReadings)
    (w : World) (answer : Except Revert (RelayCallStatus × Bytes)) :
    Except Revert (World × RelayCallResult) := do
  let request := args.relayRequest.request
  let relayData := args.relayRequest.relayData
  let selector := functionSelector request.data
  let relayRequestID := getRelayRequestID crypto args.relayRequest args.signature
  let innerGasUsed ← checkedSub gas.beforeInner gas.afterInner
  let (status, returnValue) ← decodeStatus (returnData answer)
  let hub := if returnValue.length = 0 then w.hub else w.hub.emit (.transactionResult status returnValue)
  let rejected ← rejects answer.toBool inner.limits relayData innerGasUsed status
  if rejected then
    .ok (w.setHub (hub.emit (.transactionRejectedByPaymaster inner.relayManager relayData.paymaster
      relayRequestID request.sender request.recipient sender selector innerGasUsed returnValue)),
      ⟨false, 0, status, returnValue⟩)
  else
    let (hub, charge) ← settle env inner.relayManager relayData gas hub
    let hub := hub.emit (.transactionRelayed inner.relayManager sender relayRequestID request.sender
      request.recipient relayData.paymaster selector status charge)
    .ok (w.setHub hub, ⟨true, charge, status, if env.origin = 0 then returnValue else []⟩)

def relayCall (sender : Address) (args : RelayCallArgs) (limits : Except Revert GasAndDataLimits)
    (gas : GasReadings) (w : World) : HubCode RelayCallResult :=
  .check (prepareRelayCall addresses env sender args limits gas w) fun inner =>
  (innerRelayCall crypto addresses env addresses.this args inner.limits inner.totalInitialGas
      inner.maxPossibleGas gas w).attempt w fun w answer =>
    .ofExcept (finishRelayCall crypto env sender args inner gas w answer) fun w result => .done w result

inductive Call : Type
  | setConfiguration (config : RelayHubConfig)
  | setMinimumStakes (token : List Address) (minimumStake : List ℕ)
  | deprecateHub (deprecationTime : ℕ)
  | transferOwnership (newOwner : Address)
  | renounceOwnership
  | onRelayServerRegistered (relayManager : Address)
  | addRelayWorkers (newRelayWorkers : List Address)
  | depositFor (target : Address) (supportsInterface : Bool)
  | withdraw (dest : Address) (amount : ℕ)
  | withdrawMultiple (dest : List Address) (amount : List ℕ)
  | relayCall (args : RelayCallArgs) (limits : Except Revert GasAndDataLimits) (gas : GasReadings)
  | innerRelayCall (args : RelayCallArgs) (limits : GasAndDataLimits)
      (totalInitialGas maxPossibleGas : ℕ) (gas : GasReadings)
  | penalize (relayWorker beneficiary : Address)
  | escheatAbandonedRelayBalance (relayManager : Address)

def ofHub (w : World) (result : Except Revert Hub) : HubCode Unit :=
  .check result fun hub => .done (w.setHub hub) ()

def ofWorld (result : Except Revert World) : HubCode Unit :=
  .check result fun w => .done w ()

def hubCode (sender : Address) (value : ℕ) (call : Call) (w : World) : HubCode Unit :=
  match call with
  | .setConfiguration config => ofHub w (setConfiguration sender config w.hub)
  | .setMinimumStakes token minimumStake => ofHub w (setMinimumStakes sender token minimumStake w.hub)
  | .deprecateHub deprecationTime => ofHub w (deprecateHub env sender deprecationTime w.hub)
  | .transferOwnership newOwner =>
      ofHub w do .ok { w.hub with owner := ← transferOwnership w.hub.owner sender newOwner }
  | .renounceOwnership => ofHub w do .ok { w.hub with owner := ← renounceOwnership w.hub.owner sender }
  | .onRelayServerRegistered relayManager =>
      ofWorld (onRelayServerRegistered addresses env sender relayManager w)
  | .addRelayWorkers newRelayWorkers => ofWorld (addRelayWorkers addresses sender newRelayWorkers w)
  | .depositFor target supportsInterface =>
      ofHub (w.receive value) (depositFor sender target supportsInterface value w.hub)
  | .withdraw dest amount => withdraw addresses sender dest amount w
  | .withdrawMultiple dest amount => withdrawMultiple addresses sender dest amount w
  | .relayCall args limits gas => (relayCall crypto addresses env sender args limits gas w).silent
  | .innerRelayCall args limits totalInitialGas maxPossibleGas gas =>
      (innerRelayCall crypto addresses env sender args limits totalInitialGas maxPossibleGas gas w).silent
  | .penalize relayWorker beneficiary => ofWorld (penalize addresses env sender relayWorker beneficiary w)
  | .escheatAbandonedRelayBalance relayManager =>
      ofWorld (escheatAbandonedRelayBalance env sender relayManager w)

/-- Ether may be sent along with a call of `depositFor` only. -/
def Call.accepts : Call → ℕ → Prop
  | .depositFor _ _, _ => True
  | _, value => value = 0

instance (call : Call) (value : ℕ) : Decidable (call.accepts value) := by
  cases call <;> unfold Call.accepts <;> infer_instance

/-- What anyone can do to the world: call one of its contracts, send ether to the hub without a
call, or use a token. -/
inductive Input : Type
  | hub (sender : Address) (value : ℕ) (call : Call)
  | stakeManager (sender : Address) (call : StakeManager.Call)
  | forwarder (account : Address) (call : Forwarder.Call)
  | forceEther (amount : ℕ)
  | tokenActivity (token : Address) (ledger : Erc20)

/-- Calls of the hub to itself and to the stake manager are part of its functions. -/
def entry (input : Input) (w : World) : HubCode Unit :=
  match input with
  | .hub sender value call =>
      .check (require (sender ≠ addresses.this) "the hub does not call itself") fun _ =>
      .check (require (call.accepts value) "not payable") fun _ =>
      hubCode crypto addresses env sender value call w
  | .stakeManager sender call =>
      .check (require (sender ≠ addresses.this) "the hub makes no other calls") fun _ =>
      ofWorld do
        .ok (w.setStakeManager
          (← StakeManager.step addresses.stakeManager (.call env sender call) w.stakeManager))
  | .forwarder account call =>
      ((Forwarder.entry crypto account env call (w.forwarders account)).silent).zoom
        (fun w => w.forwarders account) (fun s w => w.setForwarder account s) (.forwarder account) w
  | .forceEther amount => .done { w with ether := w.ether + amount } ()
  | .tokenActivity token ledger =>
      ofWorld do
        .ok (w.setStakeManager
          (← StakeManager.step addresses.stakeManager (.tokenActivity env token ledger) w.stakeManager))

end OpenGsn.RelayHub
