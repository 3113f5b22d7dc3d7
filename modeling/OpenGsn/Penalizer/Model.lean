import OpenGsn.Penalizer.RLPReader
import OpenGsn.Reentry.Moves
import Mathlib.Tactic.Simps.Basic

/-! `Penalizer.sol`. -/

namespace OpenGsn.Penalizer

open Solidity Reentry

/-- `rawTransaction[0]` -/
def typeByte (rawTransaction : Bytes) : Except Revert ℕ :=
  match rawTransaction with
  | [] => .error (.panic 0x32)
  | byte :: _ => .ok byte.toNat

def isLegacyTransaction (rawTransaction : Bytes) : Except Revert Bool := do
  let transactionTypeByte ← typeByte rawTransaction
  .ok (0xc0 ≤ transactionTypeByte ∧ transactionTypeByte ≤ 0xfe)

def isTransactionType1 (rawTransaction : Bytes) : Except Revert Bool := do
  .ok ((← typeByte rawTransaction) = 1)

def isTransactionType2 (rawTransaction : Bytes) : Except Revert Bool := do
  .ok ((← typeByte rawTransaction) = 2)

def isTransactionTypeValid (rawTransaction : Bytes) : Except Revert Bool := do
  let legacy ← isLegacyTransaction rawTransaction
  let type1 ← isTransactionType1 rawTransaction
  let type2 ← isTransactionType2 rawTransaction
  .ok (legacy || type1 || type2)

def decodeTransaction (rawTransaction : Bytes) (beyond : Memory) : Except Revert Transaction := do
  let type1 ← isTransactionType1 rawTransaction
  let type2 ← isTransactionType2 rawTransaction
  if type1 then
    decodeTransactionType1 rawTransaction beyond
  else if type2 then
    decodeTransactionType2 rawTransaction beyond
  else
    decodeLegacyTransaction rawTransaction beyond

structure PenalizeCall where
  hub : Address
  relayWorker : Address
  beneficiary : Address
  deriving DecidableEq, Repr

/-- The commits and reveals that were not reverted. -/
inductive Entry : Type
  | commit (sender : Address) (commitHash : Uint256) (number : ℕ)
  | reveal (sender : Address) (msgData : Bytes) (number : ℕ)
  deriving DecidableEq, Repr

/-- `log` is a history variable, in the order of the calls. -/
structure State where
  commits : Uint256 → ℕ
  log : List Entry

structure Delays where
  penalizeBlockDelay : ℕ
  penalizeBlockExpiration : ℕ

def deploy : State := ⟨fun _ => 0, []⟩

variable (crypto : Crypto) (delays : Delays) (env : Env)

/-- The address of off-chain view calls: `type(uint160).max`. -/
def viewSender : Address := Fin.ofNat (2 ^ 160) (2 ^ 160 - 1)

def commitInput (msgData : Bytes) (sender : Address) : Bytes :=
  crypto.hashBytes msgData ++ addressBytes sender

def commitHash (msgData : Bytes) (sender : Address) : Uint256 :=
  crypto.keccak256 (commitInput crypto msgData sender)

def commit (sender : Address) (commitHash : Uint256) (s : State) : Except Revert State := do
  let readyBlockNumber ← checkedAdd 256 env.number delays.penalizeBlockDelay
  .ok { s with
    commits := Function.update s.commits commitHash readyBlockNumber
    log := s.log ++ [.commit sender commitHash env.number] }

def commitRevealOnly (sender : Address) (msgData : Bytes) (s : State) : Except Revert State := do
  let commitHash := commitHash crypto msgData sender
  let readyBlockNumber := s.commits commitHash
  let s := { s with
    commits := Function.update s.commits commitHash 0
    log := s.log ++ [.reveal sender msgData env.number] }
  if sender ≠ viewSender then
    require (readyBlockNumber ≠ 0) "no commit"
    require (readyBlockNumber < env.number) "reveal penalize too soon"
    let expiry ← checkedAdd 256 readyBlockNumber delays.penalizeBlockExpiration
    require (env.number < expiry) "reveal penalize too late"
    .ok s
  else
    .ok s

def dataToCheck (tx : Transaction) : Bytes :=
  tx.data ++ word tx.gasLimit ++ addressBytes tx.recipient ++ word tx.value

/-- The checks of `_penalizeRepeatedNonce`, and whom it penalizes. -/
def repeatedNonceSigner (unsignedTx1 signature1 unsignedTx2 signature2 : Bytes) (beyond : Memory) :
    Except Revert Address := do
  let addr1 ← crypto.recoverSigner (crypto.keccak256 unsignedTx1) signature1
  let addr2 ← crypto.recoverSigner (crypto.keccak256 unsignedTx2) signature2
  require (addr1 = addr2) "Different signer"
  require (addr1 ≠ 0) "ecrecover failed"
  let decodedTx1 ← decodeTransaction unsignedTx1 beyond
  let decodedTx2 ← decodeTransaction unsignedTx2 beyond
  require (decodedTx1.nonce = decodedTx2.nonce) "Different nonce"
  require (crypto.keccak256 (dataToCheck decodedTx1) ≠ crypto.keccak256 (dataToCheck decodedTx2))
    "tx is equal"
  .ok addr1

def relayCallSignature : String :=
  "relayCall(string,uint256,((address,address,uint256,uint256,uint256,bytes,uint256)," ++
    "(uint256,uint256,uint256,address,address,address,bytes,uint256)),bytes,bytes)"

def relayCallSelector : Bytes := (crypto.hashBytes (utf8 relayCallSignature)).take 4

/-- `GsnUtils.getMethodSig` -/
def getMethodSig (data : Bytes) : Except Revert Bytes := do
  require (4 ≤ data.length) "readBytes4: data too short"
  .ok (data.take 4)

/-- The checks of `_penalizeIllegalTransaction`, and whom it penalizes. -/
def illegalTransactionSigner (unsignedTx signature : Bytes) (hub : Address) (beyond : Memory) :
    Except Revert Address := do
  let valid ← isTransactionTypeValid unsignedTx
  if valid then
    let decodedTx ← decodeTransaction unsignedTx beyond
    if decodedTx.recipient = hub then
      let selector ← getMethodSig decodedTx.data
      require (selector ≠ relayCallSelector crypto) "Legal relay transaction"
  let relay ← crypto.recoverSigner (crypto.keccak256 unsignedTx) signature
  require (relay ≠ 0) "ecrecover failed"
  .ok relay

/-- A call of one of the two functions that are guarded by `commitRevealOnly`: the commit is
used up, the report is judged, and the hub is called. -/
def reveal (sender : Address) (msgData : Bytes) (hub : Address) (judged : Except Revert Address)
    (s : State) : Code State PenalizeCall Bytes Revert Unit :=
  .check (commitRevealOnly crypto delays env sender msgData s) fun s =>
  .check judged fun relayWorker =>
  .call ⟨hub, relayWorker, sender⟩ s s fun s answer =>
    match answer with
    | .ok _ => .done s ()
    | .error error => .revert error

def penalizeRepeatedNonce (sender : Address) (msgData unsignedTx1 signature1 unsignedTx2 signature2 : Bytes)
    (hub : Address) (beyond : Memory) (s : State) : Code State PenalizeCall Bytes Revert Unit :=
  reveal crypto delays env sender msgData hub
    (repeatedNonceSigner crypto unsignedTx1 signature1 unsignedTx2 signature2 beyond) s

def penalizeIllegalTransaction (sender : Address) (msgData unsignedTx signature : Bytes)
    (hub : Address) (beyond : Memory) (s : State) : Code State PenalizeCall Bytes Revert Unit :=
  reveal crypto delays env sender msgData hub
    (illegalTransactionSigner crypto unsignedTx signature hub beyond) s

/-- `msgData` is the whole of the call data. -/
inductive Input : Type
  | commit (sender : Address) (commitHash : Uint256)
  | penalizeRepeatedNonce (sender : Address)
      (msgData unsignedTx1 signature1 unsignedTx2 signature2 : Bytes) (hub : Address) (beyond : Memory)
  | penalizeIllegalTransaction (sender : Address) (msgData unsignedTx signature : Bytes)
      (hub : Address) (beyond : Memory)

def entry (input : Input) (s : State) : Code State PenalizeCall Bytes Revert Unit :=
  match input with
  | .commit sender commitHash => .check (commit delays env sender commitHash s) fun s => .done s ()
  | .penalizeRepeatedNonce sender msgData unsignedTx1 signature1 unsignedTx2 signature2 hub beyond =>
      penalizeRepeatedNonce crypto delays env sender msgData unsignedTx1 signature1 unsignedTx2
        signature2 hub beyond s
  | .penalizeIllegalTransaction sender msgData unsignedTx signature hub beyond =>
      penalizeIllegalTransaction crypto delays env sender msgData unsignedTx signature hub beyond s

end OpenGsn.Penalizer
