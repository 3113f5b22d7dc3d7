import OpenGsn.GsnEip712Library
import OpenGsn.Reentry.Moves
import Mathlib.Tactic.Simps.Basic

/-! `Forwarder.sol`. -/

namespace OpenGsn.Forwarder

open Solidity Reentry

/-- `recipient.call{gas, value}(data)` -/
structure TargetCall where
  recipient : Address
  data : Bytes
  value : ℕ
  gas : ℕ
  deriving DecidableEq, Repr

inductive Outgoing : Type
  | target (call : TargetCall)
  | transfer (receiver : Address) (amount : ℕ)
  deriving DecidableEq, Repr

/-- What `execute` is called with when it uses up a nonce. -/
structure Executed where
  request : ForwardRequest
  domainSeparator : Uint256
  requestTypeHash : Uint256
  suffixData : Bytes
  signature : Bytes
  origin : Address
  deriving DecidableEq, Repr

/-- The storage and the ether of the contract. `executed` is a history variable: the uses of
nonces in the order in which they were used up, less those that were reverted. -/
structure State where
  typeHashes : Uint256 → Bool
  domains : Uint256 → Bool
  nonces : Address → ℕ
  ether : ℕ
  executed : List Executed

variable (crypto : Crypto)

/-- `keccak256(bytes(requestType))` is registered. -/
def registerRequestTypeInternal (requestType : Bytes) (s : State) : State :=
  { s with typeHashes := Function.update s.typeHashes (crypto.keccak256 requestType) true }

def deploy : State :=
  registerRequestTypeInternal crypto (utf8 ("ForwardRequest(" ++ genericParams ++ ")"))
    ⟨fun _ => false, fun _ => false, fun _ => 0, 0, []⟩

def registerRequestType (typeName typeSuffix : Bytes) (s : State) : Except Revert State := do
  require (typeName.all fun c => c ≠ 0x28 ∧ c ≠ 0x29) "FWD: invalid typename"
  .ok (registerRequestTypeInternal crypto
    (typeName ++ utf8 "(" ++ utf8 genericParams ++ utf8 "," ++ typeSuffix) s)

def domainValue (this : Address) (chainId : ℕ) (name version : Bytes) : Bytes :=
  crypto.hashBytes (utf8 eip712DomainType) ++ crypto.hashBytes name ++ crypto.hashBytes version ++
    word chainId ++ word this.val

def registerDomainSeparator (this : Address) (env : Env) (name version : Bytes) (s : State) : State :=
  let domainHash := crypto.keccak256 (domainValue crypto this env.chainId name version)
  { s with domains := Function.update s.domains domainHash true }

def getEncoded (req : ForwardRequest) (requestTypeHash : Uint256) (suffixData : Bytes) : Bytes :=
  word requestTypeHash.val ++ word req.sender.val ++ word req.recipient.val ++ word req.value.val ++
    word req.gas.val ++ word req.nonce.val ++ crypto.hashBytes req.data ++
    word req.validUntilTime.val ++ suffixData

/-- The string under `"\x19\x01"` whose hash is signed. -/
def digestInput (req : ForwardRequest) (domainSeparator requestTypeHash : Uint256)
    (suffixData : Bytes) : Bytes :=
  [0x19, 0x01] ++ word domainSeparator.val ++
    crypto.hashBytes (getEncoded crypto req requestTypeHash suffixData)

def digest (req : ForwardRequest) (domainSeparator requestTypeHash : Uint256) (suffixData : Bytes) :
    Uint256 :=
  crypto.keccak256 (digestInput crypto req domainSeparator requestTypeHash suffixData)

def verifySig (env : Env) (req : ForwardRequest) (domainSeparator requestTypeHash : Uint256)
    (suffixData sig : Bytes) (s : State) : Except Revert Unit := do
  require (s.domains domainSeparator) "FWD: unregistered domain sep."
  require (s.typeHashes requestTypeHash) "FWD: unregistered typehash"
  if env.origin = 0 then
    .ok ()
  else
    let signer ← crypto.recoverSigner (digest crypto req domainSeparator requestTypeHash suffixData) sig
    require (signer = req.sender) "FWD: signature mismatch"

def verifyNonce (req : ForwardRequest) (s : State) : Except Revert Unit :=
  require (s.nonces req.sender = req.nonce.val) "FWD: nonce mismatch"

/-- The call `execute` makes: the sender's address is appended to the data. -/
def targetCall (req : ForwardRequest) : TargetCall :=
  ⟨req.recipient, req.data ++ addressBytes req.sender, req.value.val, req.gas.val⟩

def verifyAndUpdateNonce (use : Executed) (s : State) : Except Revert State := do
  let req := use.request
  let next ← checkedAdd 256 (s.nonces req.sender) 1
  require (s.nonces req.sender = req.nonce.val) "FWD: nonce mismatch"
  .ok { s with
    nonces := Function.update s.nonces req.sender next
    executed := s.executed ++ [use] }

def verify (env : Env) (req : ForwardRequest) (domainSeparator requestTypeHash : Uint256)
    (suffixData sig : Bytes) (s : State) : Except Revert Unit := do
  verifyNonce req s
  verifySig crypto env req domainSeparator requestTypeHash suffixData sig s

/-- Moves the ether that is left to the sender, after a request with value. -/
def sendBack (req : ForwardRequest) (result : Bool × Bytes) (s : State) :
    Code State Outgoing Bytes Revert (Bool × Bytes) :=
  if req.value.val ≠ 0 ∧ 0 < s.ether then
    .call (.transfer req.sender s.ether) s { s with ether := 0 } fun s answer =>
      match answer with
      | .ok _ => .done s result
      | .error error => .revert error
  else
    .done s result

/-- `execute` after the signature check, which `GatewayForwarder` overrides. -/
def executeVerified (env : Env) (use : Executed) (gasleft : ℕ) (s : State) :
    Code State Outgoing Bytes Revert (Bool × Bytes) :=
  let req := use.request
  .check (verifyAndUpdateNonce use s) fun s =>
  .check (require (req.validUntilTime.val = 0 ∨ env.timestamp < req.validUntilTime.val)
    "FWD: request expired") fun _ =>
  let gasForTransfer := if req.value.val ≠ 0 then 40000 else 0
  .check (checkedMul 256 gasleft 63) fun available =>
  .check (checkedAdd 256 req.gas.val gasForTransfer) fun needed =>
  .check (require (needed ≤ available / 64) "FWD: insufficient gas") fun _ =>
  -- a call with more value than the contract has fails at once
  if s.ether < req.value.val then
    sendBack req (false, []) s
  else
    .call (.target (targetCall req)) s { s with ether := s.ether - req.value.val } fun s answer =>
      match answer with
      | .ok ret => sendBack req (true, ret) s
      | .error error => sendBack req (false, error.bytes) s

def execute (env : Env) (value : ℕ) (req : ForwardRequest) (domainSeparator requestTypeHash : Uint256)
    (suffixData sig : Bytes) (gasleft : ℕ) (s : State) :
    Code State Outgoing Bytes Revert (Bool × Bytes) :=
  let s := { s with ether := s.ether + value }
  .check (verifySig crypto env req domainSeparator requestTypeHash suffixData sig s) fun _ =>
  executeVerified env ⟨req, domainSeparator, requestTypeHash, suffixData, sig, env.origin⟩ gasleft s

inductive Call : Type
  | receive (value : ℕ)
  | verify (req : ForwardRequest) (domainSeparator requestTypeHash : Uint256) (suffixData sig : Bytes)
  | execute (value : ℕ) (req : ForwardRequest) (domainSeparator requestTypeHash : Uint256)
      (suffixData sig : Bytes) (gasleft : ℕ)
  | registerRequestType (typeName typeSuffix : Bytes)
  | registerDomainSeparator (name version : Bytes)

/-- The external functions; all but `execute` return nothing. -/
def entry (this : Address) (env : Env) (call : Call) (s : State) :
    Code State Outgoing Bytes Revert (Bool × Bytes) :=
  match call with
  | .receive value => .done { s with ether := s.ether + value } (true, [])
  | .verify req domainSeparator requestTypeHash suffixData sig =>
      .check (verify crypto env req domainSeparator requestTypeHash suffixData sig s) fun _ =>
      .done s (true, [])
  | .execute value req domainSeparator requestTypeHash suffixData sig gasleft =>
      execute crypto env value req domainSeparator requestTypeHash suffixData sig gasleft s
  | .registerRequestType typeName typeSuffix =>
      .check (registerRequestType crypto typeName typeSuffix s) fun s => .done s (true, [])
  | .registerDomainSeparator name version =>
      .done (registerDomainSeparator crypto this env name version s) (true, [])

end OpenGsn.Forwarder
