import OpenGsn.Paymasters.ProxyIdentity
import OpenGsn.Paymasters.PermitErc20UniswapV3

/-! `ProxyDeployingPaymaster.sol` with `TokenPaymaster.sol` and `BasePaymaster.sol`, and everything anyone can
do to the proxies. -/

namespace OpenGsn.Proxies

open Solidity Reentry
open Paymasters (decodeAddress)

structure Paymaster where
  this : Address
  relayHub : Address
  trustedForwarder : Address
  uniswaps : List Address
  tokens : List Address
  gasUsedByPost : ℕ

variable (calculateAddress : CalculateAddress) (paymaster : Paymaster) (env : Env)

def askAddress {α : Type} (call : Outgoing) (s : State) (rest : State → Address → ProxyCode α) : ProxyCode α :=
  .call call s s fun s answer =>
    match answer with
    | .error error => .revert error
    | .ok returned =>
        .check (require (32 ≤ returned.length) "") fun _ =>
        .check (decodeAddress returned 0) (rest s)

def askUint {α : Type} (call : Outgoing) (s : State) (rest : State → ℕ → ProxyCode α) : ProxyCode α :=
  .call call s s fun s answer =>
    match answer with
    | .error error => .revert error
    | .ok returned =>
        .check (require (32 ≤ returned.length) "") fun _ =>
        rest s (readWord returned 0)

def askFlag {α : Type} (call : Outgoing) (s : State) (rest : State → Bool → ProxyCode α) : ProxyCode α :=
  .call call s s fun s answer =>
    match answer with
    | .error error => .revert error
    | .ok returned => .check (decodeFlag returned) (rest s)

def tell {α : Type} (call : Outgoing) (s : State) (rest : State → ProxyCode α) : ProxyCode α :=
  .call call s s fun s answer =>
    match answer with
    | .error error => .revert error
    | .ok _ => rest s

def getPayer (relayRequest : RelayRequest) : Address := calculateAddress relayRequest.request.sender

/-- `deployProxy` of the paymaster -/
def deployAndInitialize (owner : Address) (s : State) : ProxyCode Unit :=
  initializeIdentity (calculateAddress owner) paymaster.this paymaster.trustedForwarder paymaster.tokens
    (deployProxy calculateAddress owner s)

def verifyRelayHubOnly (sender : Address) : Except Revert Unit :=
  require (sender = paymaster.relayHub) "can only be called by RelayHub"

/-- `GsnEip712Library.verifyForwarderTrusted` -/
def verifyForwarderTrusted {α : Type} (relayRequest : RelayRequest) (s : State) (rest : State → ProxyCode α) :
    ProxyCode α :=
  .call (.isTrustedForwarder relayRequest.request.recipient relayRequest.relayData.forwarder) s s
    fun s answer =>
    match answer with
    | .error _ => .revert (.reason "isTrustedForwarder: reverted")
    | .ok ret =>
        .check (require (ret.length = 32) "isTrustedForwarder: bad response") fun _ =>
        .check (decodeBool ret 0) fun trusted =>
        .check (require trusted "invalid forwarder for recipient") fun _ => rest s

/-- `contracts` tells which other addresses have code. -/
def verifyForwarder {α : Type} (relayRequest : RelayRequest) (contracts : Address → Bool) (s : State)
    (rest : State → ProxyCode α) : ProxyCode α :=
  .check (require (paymaster.trustedForwarder = relayRequest.relayData.forwarder) "Forwarder is not trusted")
    fun _ =>
  if isProxy relayRequest.request.recipient s ∨ contracts relayRequest.request.recipient then
    verifyForwarderTrusted relayRequest s rest
  else rest s

def verifyPaymasterData (relayRequest : RelayRequest) : Except Revert Unit :=
  require (relayRequest.relayData.paymasterData.length = 32)
    "paymasterData: invalid length for Uniswap v1 exchange address"

def verifyApprovalData (approvalData : Bytes) : Except Revert Unit :=
  require (approvalData.length = 0) "should have no approvalData"

structure PostContext where
  payer : Address
  sender : Address
  tokenPrecharge : ℕ
  valueRequested : ℕ
  forwarder : Address
  token : Address
  uniswap : Address
  deriving DecidableEq, Repr

def encodeContext (c : PostContext) : Bytes :=
  word c.payer.val ++ word c.sender.val ++ word c.tokenPrecharge ++ word c.valueRequested ++
    word c.forwarder.val ++ word c.token.val ++ word c.uniswap.val

def decodeContext (data : Bytes) : Except Revert PostContext := do
  if data.length < 224 then .error (.data [])
  else do
    let payer ← decodeAddress data 0
    let sender ← decodeAddress data 32
    let forwarder ← decodeAddress data 128
    let token ← decodeAddress data 160
    let uniswap ← decodeAddress data 192
    .ok ⟨payer, sender, readWord data 64, readWord data 96, forwarder, token, uniswap⟩

def getToken {α : Type} (paymasterData : Bytes) (s : State) (rest : State → Address → Address → ProxyCode α) :
    ProxyCode α :=
  .check (decodeAddress paymasterData 0) fun uniswap =>
  .check (require (uniswap ∈ paymaster.uniswaps) "unsupported token uniswap") fun _ =>
  askAddress (.tokenAddress uniswap) s fun s token => rest s token uniswap

def calculatePreCharge {α : Type} (uniswap : Address) (relayRequest : RelayRequest) (maxPossibleGas : ℕ)
    (s : State) (rest : State → Address → ℕ → ProxyCode α) : ProxyCode α :=
  let payer := getPayer calculateAddress relayRequest
  askUint (.calculateCharge paymaster.relayHub maxPossibleGas relayRequest.relayData) s fun s charge =>
  .check (checkedAdd 256 charge relayRequest.request.value.val) fun ethMaxCharge =>
  askUint (.getTokenToEthOutputPrice uniswap ethMaxCharge) s fun s tokenPreCharge => rest s payer tokenPreCharge

/-- The deployment of the payer's proxy, when there is none yet. The call fails when it fails. -/
def deployPayer {α : Type} (payer owner : Address) (s : State) (rest : State → ProxyCode α) : ProxyCode α :=
  if isProxy payer s then rest s
  else
    (deployAndInitialize calculateAddress paymaster owner s).attempt s fun s answer =>
      match answer with
      | .ok _ => rest s
      | .error error => .revert error

@[irreducible]
def swapDeadline : Except Revert ℕ := checkedAdd 256 env.timestamp (60 * 15)

/-- `_preRelayedCall` once the precharge is known. -/
def takePreCharge (relayRequest : RelayRequest) (token uniswap payer : Address) (tokenPrecharge : ℕ) (s : State) :
    ProxyCode (Bytes × Bool) :=
  let value := relayRequest.request.value.val
  askFlag (.transferFrom token payer paymaster.this tokenPrecharge) s fun s _ =>
  .check (swapDeadline env) fun deadline =>
  askUint (.tokenToEthSwapOutput uniswap value uint256Max deadline) s fun s _ =>
  tell (.sendEther relayRequest.relayData.forwarder value) s fun s =>
  .done s (encodeContext ⟨payer, relayRequest.request.sender, tokenPrecharge, value,
    relayRequest.relayData.forwarder, token, uniswap⟩, false)

def preRelayedCall (sender : Address) (relayRequest : RelayRequest) (approvalData : Bytes) (maxPossibleGas : ℕ)
    (contracts : Address → Bool) (s : State) : ProxyCode (Bytes × Bool) :=
  .check (verifyRelayHubOnly paymaster sender) fun _ =>
  verifyForwarder paymaster relayRequest contracts s fun s =>
  .check (verifyPaymasterData relayRequest) fun _ =>
  .check (verifyApprovalData approvalData) fun _ =>
  getToken paymaster relayRequest.relayData.paymasterData s fun s token uniswap =>
  calculatePreCharge calculateAddress paymaster uniswap relayRequest maxPossibleGas s fun s payer tokenPrecharge =>
  deployPayer calculateAddress paymaster payer relayRequest.request.sender s fun s =>
  takePreCharge paymaster env relayRequest token uniswap payer tokenPrecharge s

def depositProceedsToHub (ethActualCharge : ℕ) (uniswap : Address) (s : State) : ProxyCode Unit :=
  .check (swapDeadline env) fun deadline =>
  askUint (.tokenToEthSwapOutput uniswap ethActualCharge uint256Max deadline) s fun s _ =>
  tell (.depositFor paymaster.relayHub paymaster.this ethActualCharge) s fun s => .done s ()

def postRelayedCall (sender : Address) (context : Bytes) (gasUseWithoutPost : ℕ) (relayData : RelayData)
    (s : State) : ProxyCode Unit :=
  .check (verifyRelayHubOnly paymaster sender) fun _ =>
  .check (decodeContext context) fun c =>
  .check (checkedAdd 256 gasUseWithoutPost paymaster.gasUsedByPost) fun gasUsed =>
  askUint (.calculateCharge paymaster.relayHub gasUsed relayData) s fun s ethActualCharge =>
  .check (checkedAdd 256 c.valueRequested ethActualCharge) fun ethBought =>
  askUint (.getTokenToEthOutputPrice c.uniswap ethBought) s fun s tokenActualCharge =>
  .check (checkedSub c.tokenPrecharge tokenActualCharge) fun tokenRefund =>
  askFlag (.transfer c.token c.payer tokenRefund) s fun s refunded =>
  .check (require refunded "failed refund") fun _ =>
  depositProceedsToHub paymaster env ethActualCharge c.uniswap s

inductive Call : Type
  | deployProxy (owner : Address)
  | initializeIdentity (proxy trustedForwarder : Address) (tokens : List Address)
  | execute (proxy : Address) (operationType : ℕ) (target : Address) (value : ℕ) (data : Bytes)
  | deployAndInitialize (owner : Address)
  | preRelayedCall (relayRequest : RelayRequest) (approvalData : Bytes) (maxPossibleGas : ℕ)
      (contracts : Address → Bool)
  | postRelayedCall (context : Bytes) (gasUseWithoutPost : ℕ) (relayData : RelayData)

structure Input where
  message : Message
  call : Call

def entry (env : Env) (input : Input) (s : State) : ProxyCode Unit :=
  let message := input.message
  match input.call with
  | .deployProxy owner => .done (deployProxy calculateAddress owner s) ()
  | .initializeIdentity proxy trustedForwarder tokens =>
      initializeIdentity proxy message.sender trustedForwarder tokens s
  | .execute proxy operationType target value data => execute proxy message operationType target value data s
  | .deployAndInitialize owner => deployAndInitialize calculateAddress paymaster owner s
  | .preRelayedCall relayRequest approvalData maxPossibleGas contracts =>
      (preRelayedCall calculateAddress paymaster env message.sender relayRequest approvalData maxPossibleGas
        contracts s).silent
  | .postRelayedCall context gasUseWithoutPost relayData =>
      postRelayedCall paymaster env message.sender context gasUseWithoutPost relayData s

end OpenGsn.Proxies
