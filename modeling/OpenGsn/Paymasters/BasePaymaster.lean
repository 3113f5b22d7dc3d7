import OpenGsn.RelayHub.Within
import OpenGsn.Penalizer.Model

/-! `BasePaymaster.sol` with the paymasters that only choose whom they pay for: `AcceptEverythingPaymaster.sol`,
`SingleRecipientPaymaster.sol` and `WhitelistPaymaster.sol`. -/

namespace OpenGsn.Sponsors

open Solidity Reentry RelayHub

/-- What a contract adds to `BasePaymaster`: storage of its own, functions for the owner to write it, and
`_preRelayedCall`. -/
structure Choice (P C : Type) where
  write : C → P → P
  preRelayedCall : P → RelayRequest → Bytes → Bytes → ℕ → Except Revert (Bytes × Bool)

def acceptEverythingPaymaster : Choice Unit Empty where
  write := fun call _ => call.elim
  preRelayedCall := fun _ _ _ _ _ => .ok ([], false)

def singleRecipientPaymaster : Choice Address Address where
  write := fun target _ => target
  preRelayedCall := fun target relayRequest _ _ _ => do
    require (relayRequest.request.recipient = target) "wrong target"
    .ok ([], true)

structure Whitelists where
  useSenderWhitelist : Bool
  useTargetWhitelist : Bool
  useMethodWhitelist : Bool
  useRejectOnRecipientRevert : Bool
  senderWhitelist : Address → Bool
  targetWhitelist : Address → Bool
  methodWhitelist : Address → Bytes → Bool

inductive WhitelistCall : Type
  | whitelistSender (sender : Address) (isAllowed : Bool)
  | whitelistTarget (target : Address) (isAllowed : Bool)
  | whitelistMethod (target : Address) (method : Bytes) (isAllowed : Bool)
  | setConfiguration (useSenderWhitelist useTargetWhitelist useMethodWhitelist useRejectOnRecipientRevert : Bool)

namespace Whitelists

def deployed : Whitelists := ⟨false, false, false, false, fun _ => false, fun _ => false, fun _ _ => false⟩

def write (call : WhitelistCall) (lists : Whitelists) : Whitelists :=
  match call with
  | .whitelistSender sender isAllowed =>
      { lists with senderWhitelist := Function.update lists.senderWhitelist sender isAllowed }
  | .whitelistTarget target isAllowed =>
      { lists with targetWhitelist := Function.update lists.targetWhitelist target isAllowed }
  | .whitelistMethod target method isAllowed =>
      { lists with
        methodWhitelist := Function.update lists.methodWhitelist target
          (Function.update (lists.methodWhitelist target) method isAllowed) }
  | .setConfiguration useSenderWhitelist useTargetWhitelist useMethodWhitelist useRejectOnRecipientRevert =>
      { lists with useSenderWhitelist, useTargetWhitelist, useMethodWhitelist, useRejectOnRecipientRevert }

def preRelayedCall (lists : Whitelists) (relayRequest : RelayRequest) (_signature approvalData : Bytes)
    (_maxPossibleGas : ℕ) : Except Revert (Bytes × Bool) := do
  require (approvalData.length = 0) "approvalData: invalid length"
  require (relayRequest.relayData.paymasterData.length = 0) "paymasterData: invalid length"
  if lists.useSenderWhitelist then
    require (lists.senderWhitelist relayRequest.request.sender = true) "sender not whitelisted"
  if lists.useTargetWhitelist then
    require (lists.targetWhitelist relayRequest.request.recipient = true) "target not whitelisted"
  if lists.useMethodWhitelist then
    let method ← Penalizer.getMethodSig relayRequest.request.data
    require (lists.methodWhitelist relayRequest.request.recipient method = true) "method not whitelisted"
  .ok ([], lists.useRejectOnRecipientRevert)

end Whitelists

def whitelistPaymaster : Choice Whitelists WhitelistCall where
  write := Whitelists.write
  preRelayedCall := Whitelists.preRelayedCall

/-- The storage. `former` and `withdrawals` are history variables: the forwarders and the settings that were in
force before, and the withdrawals that were asked of the hub. -/
structure BasePaymaster (P : Type) where
  owner : Address
  relayHub : Address
  trustedForwarder : Address
  settings : P
  former : List (Address × P)
  withdrawals : List (Address × ℕ)

namespace BasePaymaster

variable {P : Type}

def deploy (sender : Address) (settings : P) : BasePaymaster P := ⟨sender, 0, 0, settings, [], []⟩

def inForce (p : BasePaymaster P) : List (Address × P) := (p.trustedForwarder, p.settings) :: p.former

def enforce (trustedForwarder : Address) (settings : P) (p : BasePaymaster P) : BasePaymaster P :=
  { p with trustedForwarder, settings, former := p.inForce }

def order (target : Address) (amount : ℕ) (p : BasePaymaster P) : BasePaymaster P :=
  { p with withdrawals := p.withdrawals ++ [(target, amount)] }

end BasePaymaster

def getGasAndDataLimits : GasAndDataLimits := ⟨150000, 100000, 110000, 10500⟩

structure System (P : Type) where
  world : World
  paymaster : BasePaymaster P

namespace System

variable {P : Type}

def setWorld (world : World) (s : System P) : System P := { s with world }

def setPaymaster (paymaster : BasePaymaster P) (s : System P) : System P := { s with paymaster }

end System

/-- A block, what the recipients of requests answer in it, and whether the gas that the hub passes on is enough. -/
structure Surroundings (P : Type) where
  env : Env
  isTrustedForwarder : System P → Address → Address → Except Bytes Bytes
  enoughGas : RelayHub.Outgoing → System P → Bool

/-- The functions for the owner and for everybody. -/
inductive PaymasterCall (C : Type) : Type
  | setRelayHub (hub : Address) (supportsInterface : Bool)
  | setTrustedForwarder (forwarder : Address) (supportsInterface : Bool)
  | transferOwnership (newOwner : Address)
  | renounceOwnership
  | write (call : C)
  | receive (value : ℕ)
  | withdrawRelayHubDepositTo (amount : ℕ) (target : Address)
  | preRelayedCall (relayRequest : RelayRequest) (signature approvalData : Bytes) (maxPossibleGas : ℕ)
  | postRelayedCall

inductive Input (C : Type) : Type
  | world (input : RelayHub.Input)
  | paymaster (sender : Address) (call : PaymasterCall C)

/-- What leaves the system. The paymaster may be set up for another hub. -/
inductive Outgoing : Type
  | world (call : RelayHub.Outgoing)
  | depositFor (hub : Address) (value : ℕ)
  | withdraw (hub target : Address) (amount : ℕ)

abbrev PaymasterCode (P : Type) := Code (System P) Outgoing Bytes Revert

variable {P C : Type} (choice : Choice P C) (crypto : Crypto) (addresses : Immutables) (this : Address)
  (around : Surroundings P)

def verifyRelayHubOnly (sender : Address) (p : BasePaymaster P) : Except Revert Unit :=
  require (sender = p.relayHub) "can only be called by RelayHub"

/-- With `GsnEip712Library.verifyForwarderTrusted` -/
def verifyForwarder (relayRequest : RelayRequest) (s : System P) : Except Revert Unit := do
  require (s.paymaster.trustedForwarder = relayRequest.relayData.forwarder) "Forwarder is not trusted"
  match around.isTrustedForwarder s relayRequest.request.recipient relayRequest.relayData.forwarder with
  | .error _ => .error (.reason "isTrustedForwarder: reverted")
  | .ok ret =>
      require (ret.length = 32) "isTrustedForwarder: bad response"
      let trusted ← decodeBool ret 0
      require trusted "invalid forwarder for recipient"

def preRelayedCall (sender : Address) (relayRequest : RelayRequest) (signature approvalData : Bytes)
    (maxPossibleGas : ℕ) (s : System P) : Except Revert (Bytes × Bool) := do
  verifyRelayHubOnly sender s.paymaster
  verifyForwarder around relayRequest s
  require (relayRequest.request.value = 0) "value transfer not supported"
  require (relayRequest.relayData.paymasterData.length = 0) "should have no paymasterData"
  require (approvalData.length = 0) "should have no approvalData"
  choice.preRelayedCall s.paymaster.settings relayRequest signature approvalData maxPossibleGas

/-- `abi.encode(context, rejectOnRecipientRevert)` -/
def encodePreRelayed (outcome : Bytes × Bool) : Bytes :=
  word 64 ++ word (if outcome.2 then 1 else 0) ++ bytesTail outcome.1

def answers : Outgoing → System P → Option (Except Revert (System P × Bytes))
  | .world (.preRelayedCall paymaster gas relayRequest signature approvalData maxPossibleGas), s =>
      if paymaster = this then
        some (if around.enoughGas (.preRelayedCall paymaster gas relayRequest signature approvalData maxPossibleGas) s
          then (preRelayedCall choice around addresses.this relayRequest signature approvalData maxPossibleGas s).map
            fun outcome => (s, encodePreRelayed outcome)
          else .error (.data []))
      else none
  | .world (.postRelayedCall paymaster gas context success gasUseWithoutPost relayData), s =>
      if paymaster = this then
        some (if around.enoughGas (.postRelayedCall paymaster gas context success gasUseWithoutPost relayData) s
          then (verifyRelayHubOnly addresses.this s.paymaster).map fun _ => (s, [])
          else .error (.data []))
      else none
  | _, _ => none

def owned (sender : Address) (result : Except Revert Unit) (write : BasePaymaster P → BasePaymaster P)
    (s : System P) : PaymasterCode P Unit :=
  .check (onlyOwner s.paymaster.owner sender) fun _ =>
  .check result fun _ => .done (s.setPaymaster (write s.paymaster)) ()

def callHub (value : ℕ) (call : RelayHub.Call) (other : Outgoing) (s : System P) : PaymasterCode P Unit :=
  if s.paymaster.relayHub = addresses.this then
    (hubCode crypto addresses around.env this value call s.world).zoom System.world System.setWorld Outgoing.world s
  else
    .call other s s fun s answer =>
      match answer with
      | .ok _ => .done s ()
      | .error error => .revert error

def paymasterCode (sender : Address) (call : PaymasterCall C) (s : System P) : PaymasterCode P Unit :=
  match call with
  | .setRelayHub hub supportsInterface =>
      owned sender (require supportsInterface "target is not a valid IRelayHub")
        (fun p => { p with relayHub := hub }) s
  | .setTrustedForwarder forwarder supportsInterface =>
      owned sender (require supportsInterface "target is not a valid IForwarder")
        (fun p => p.enforce forwarder p.settings) s
  | .transferOwnership newOwner =>
      .check (transferOwnership s.paymaster.owner sender newOwner) fun owner =>
        .done (s.setPaymaster { s.paymaster with owner }) ()
  | .renounceOwnership =>
      .check (renounceOwnership s.paymaster.owner sender) fun owner =>
        .done (s.setPaymaster { s.paymaster with owner }) ()
  | .write call =>
      owned sender (.ok ()) (fun p => p.enforce p.trustedForwarder (choice.write call p.settings)) s
  | .receive value =>
      .check (require (s.paymaster.relayHub ≠ 0) "relay hub address not set") fun _ =>
      callHub crypto addresses this around value (.depositFor this true) (.depositFor s.paymaster.relayHub value) s
  | .withdrawRelayHubDepositTo amount target =>
      .check (onlyOwner s.paymaster.owner sender) fun _ =>
      callHub crypto addresses this around 0 (.withdraw target amount)
        (.withdraw s.paymaster.relayHub target amount) (s.setPaymaster (s.paymaster.order target amount))
  | .preRelayedCall relayRequest signature approvalData maxPossibleGas =>
      .check (preRelayedCall choice around sender relayRequest signature approvalData maxPossibleGas s) fun _ =>
      .done s ()
  | .postRelayedCall => .check (verifyRelayHubOnly sender s.paymaster) fun _ => .done s ()

def calledBy : RelayHub.Input → Address → Prop
  | .hub sender _ _, account => sender = account
  | .stakeManager sender _, account => sender = account
  | _, _ => False

instance (input : RelayHub.Input) (account : Address) : Decidable (calledBy input account) := by
  unfold calledBy
  split <;> infer_instance

def toldLimits : RelayHub.Input → Prop
  | .hub _ _ (.relayCall args (.ok limits) _) =>
      args.relayRequest.relayData.paymaster = this → limits = getGasAndDataLimits
  | _ => True

instance (input : RelayHub.Input) : Decidable (toldLimits this input) := by
  unfold toldLimits
  split <;> infer_instance

def entry (input : Input C) (s : System P) : PaymasterCode P Unit :=
  match input with
  | .world input =>
      .check (require (¬ calledBy input this) "the paymaster makes no other calls") fun _ =>
      .check (require (toldLimits this input) "the limits of the paymaster") fun _ =>
      (entryWithin System.world System.setWorld Outgoing.world crypto addresses around.env input s).link
        (answers choice addresses this around)
  | .paymaster sender call => paymasterCode choice crypto addresses this around sender call s

end OpenGsn.Sponsors
