import OpenGsn.Solidity.Abi
import OpenGsn.Solidity.Contracts
import OpenGsn.Reentry.Moves
import OpenGsn.GsnTypes
import Mathlib.Tactic.Simps.Basic

/-! `ProxyIdentity.sol` with `ERC2771Recipient.sol`, and `ProxyFactory.sol`. -/

namespace OpenGsn.Proxies

open Solidity Reentry

/-- A call of a contract. None comes from the zero address. -/
structure Message where
  sender : Address
  data : Bytes
  sender_ne_zero : sender ≠ 0

structure Identity where
  owner : Address
  trustedForwarder : Address
  initialized : Bool
  deriving DecidableEq, Repr

/-- What the factory and the proxies did: the event of the factory, and the calls that the proxies made and
that took effect, with the message that asked for an `executeCall`. -/
inductive Entry : Type
  | proxyDeployed (proxyAddress : Address)
  | approve (proxy token spender : Address) (amount : ℕ)
  | executeCall (proxy : Address) (message : Message) (target : Address) (value : ℕ) (data : Bytes)

/-- The proxies by address, and what happened so far. -/
structure State where
  identities : Address → Option Identity
  log : List Entry

namespace State

@[simps -fullyApplied]
def setIdentity (s : State) (proxy : Address) (identity : Identity) : State :=
  { s with identities := Function.update s.identities proxy (some identity) }

@[simps -fullyApplied]
def record (s : State) (entry : Entry) : State := { s with log := s.log ++ [entry] }

end State

/-- The outgoing calls, those of the paymaster included. -/
inductive Outgoing : Type
  | approve (proxy token spender : Address) (amount : ℕ)
  | executeCall (proxy target : Address) (value : ℕ) (data : Bytes)
  | isTrustedForwarder (recipient forwarder : Address)
  | tokenAddress (uniswap : Address)
  | calculateCharge (relayHub : Address) (gasUsed : ℕ) (relayData : RelayData)
  | getTokenToEthOutputPrice (uniswap : Address) (ethBought : ℕ)
  | transferFrom (token payer recipient : Address) (amount : ℕ)
  | transfer (token recipient : Address) (amount : ℕ)
  | tokenToEthSwapOutput (uniswap : Address) (ethBought maxTokens deadline : ℕ)
  | sendEther (recipient : Address) (amount : ℕ)
  | depositFor (relayHub target : Address) (amount : ℕ)
  deriving DecidableEq, Repr

abbrev ProxyCode := Code State Outgoing Bytes Revert

/-! `ERC2771Recipient` -/

def isTrustedForwarder (forwarder : Address) (identity : Identity) : Prop :=
  forwarder = identity.trustedForwarder

instance (forwarder : Address) (identity : Identity) : Decidable (isTrustedForwarder forwarder identity) :=
  inferInstanceAs (Decidable (_ = _))

def appendedSender (data : Bytes) : Address :=
  Fin.ofNat (2 ^ 160) (ofBigEndian (data.drop (data.length - 20)))

def msgSender (message : Message) (identity : Identity) : Address :=
  if 20 ≤ message.data.length ∧ isTrustedForwarder message.sender identity then appendedSender message.data
  else message.sender

/-! `ProxyIdentity` -/

/-- `returned` is what a token returned. -/
def decodeFlag (returned : Bytes) : Except Revert Bool := do
  require (32 ≤ returned.length) ""
  decodeBool returned 0

def approveLoop (proxy spender : Address) : List Address → State → ProxyCode Unit
  | [], s => .done s ()
  | token :: tokens, s =>
      .call (.approve proxy token spender uint256Max) s (s.record (.approve proxy token spender uint256Max))
        fun s answer =>
        match answer with
        | .error error => .revert error
        | .ok returned => .check (decodeFlag returned) fun _ => approveLoop proxy spender tokens s

/-- `initialize`. Its modifier lets it pass once. -/
def initializeIdentity (proxy sender trustedForwarder : Address) (tokens : List Address) (s : State) : ProxyCode Unit :=
  match s.identities proxy with
  -- no code at the address
  | none => .revert (.data [])
  | some identity =>
      .check (require (identity.initialized = false) "Initializable: contract is already initialized") fun _ =>
      approveLoop proxy sender tokens
        (s.setIdentity proxy { identity with trustedForwarder, initialized := true })

def onlyOwner (message : Message) (identity : Identity) : Except Revert Unit :=
  require (msgSender message identity = identity.owner) "ProxyIdentity: caller not owner"

def OPERATION_CALL : ℕ := 0

def execute (proxy : Address) (message : Message) (operationType : ℕ) (target : Address) (value : ℕ)
    (data : Bytes) (s : State) : ProxyCode Unit :=
  match s.identities proxy with
  | none => .revert (.data [])
  | some identity =>
      .check (onlyOwner message identity) fun _ =>
      if operationType = OPERATION_CALL then
        .call (.executeCall proxy target value data) s (s.record (.executeCall proxy message target value data))
          fun s answer =>
          match answer with
          | .ok _ => .done s ()
          | .error _ => .revert (.reason "executeCall failed")
      else
        -- `executeCreate` reverts with the same reason
        .revert (.reason "not supported")

/-! `ProxyFactory` -/

/-- The address that `create2` gives the proxy of an owner. Nothing else has its code there. -/
abbrev CalculateAddress := Address → Address

variable (calculateAddress : CalculateAddress)

def isProxy (proxy : Address) (s : State) : Bool := (s.identities proxy).isSome

def deployProxy (owner : Address) (s : State) : State :=
  let calculatedAddress := calculateAddress owner
  if isProxy calculatedAddress s then s
  else (s.setIdentity calculatedAddress ⟨owner, 0, false⟩).record (.proxyDeployed calculatedAddress)

end OpenGsn.Proxies
