import OpenGsn.Solidity.Abi

/-! `RLPReader.sol`. The reader looks at memory, of which the payload is only the first part:
what stands behind it is not known. -/

namespace OpenGsn.Penalizer

open Solidity

abbrev Memory := ℕ → UInt8

/-- The payload at address 0, before bytes of other origin. -/
def place (payload : Bytes) (beyond : Memory) : Memory := fun i => payload.getD i (beyond i)

structure RLPItem where
  len : ℕ
  memPtr : ℕ
  deriving DecidableEq, Repr

variable (mem : Memory)

def readBytes (ptr len : ℕ) : Bytes := (List.range len).map fun i => mem (ptr + i)

def mload (ptr : ℕ) : ℕ := ofBigEndian (readBytes mem ptr 32)

def byte0 (ptr : ℕ) : ℕ := (mem ptr).toNat

def itemLength (memPtr : ℕ) : ℕ :=
  let byte0 := byte0 mem memPtr
  if byte0 < 0x80 then 1
  else if byte0 < 0xb8 then byte0 - 0x80 + 1
  else if byte0 < 0xc0 then
    let byteLen := byte0 - 0xb7
    mload mem (memPtr + 1) / 256 ^ (32 - byteLen) + (byteLen + 1)
  else if byte0 < 0xf8 then byte0 - 0xc0 + 1
  else
    let byteLen := byte0 - 0xf7
    mload mem (memPtr + 1) / 256 ^ (32 - byteLen) + (byteLen + 1)

def payloadOffset (memPtr : ℕ) : ℕ :=
  let byte0 := byte0 mem memPtr
  if byte0 < 0x80 then 0
  else if byte0 < 0xb8 ∨ (0xc0 ≤ byte0 ∧ byte0 < 0xf8) then 1
  else if byte0 < 0xc0 then byte0 - (0xb8 - 1) + 1
  else byte0 - (0xf8 - 1) + 1

def isList (item : RLPItem) : Bool := ¬ byte0 mem item.memPtr < 0xc0

/-- The loop of `numItems`. Every item has a length, so that `fuel` for the length of the list
is enough. -/
def numItemsLoop : ℕ → ℕ → ℕ → ℕ
  | 0, _, _ => 0
  | fuel + 1, currPtr, endPtr =>
      if currPtr < endPtr then
        numItemsLoop fuel (currPtr + itemLength mem currPtr) endPtr + 1
      else
        0

def numItems (item : RLPItem) : ℕ :=
  numItemsLoop mem item.len (item.memPtr + payloadOffset mem item.memPtr) (item.memPtr + item.len)

def toListLoop : ℕ → ℕ → List RLPItem
  | 0, _ => []
  | items + 1, memPtr =>
      let dataLen := itemLength mem memPtr
      ⟨dataLen, memPtr⟩ :: toListLoop items (memPtr + dataLen)

def toList (item : RLPItem) : Except Revert (List RLPItem) := do
  require (isList mem item) "isList failed"
  .ok (toListLoop mem (numItems mem item) (item.memPtr + payloadOffset mem item.memPtr))

def itemAt (values : List RLPItem) (index : ℕ) : Except Revert RLPItem :=
  match values[index]? with
  | some item => .ok item
  | none => .error (.panic 0x32)

/-- The division is by a power of 256 that wraps to zero when the item has no bytes or more
than a word of them, and a division by zero gives zero. -/
def toUint (item : RLPItem) : Except Revert ℕ := do
  let offset := payloadOffset mem item.memPtr
  let len ← checkedSub item.len offset
  .ok (if len = 0 ∨ 32 < len then 0 else mload mem (item.memPtr + offset) / 256 ^ (32 - len))

def toAddress (item : RLPItem) : Except Revert Address := do
  require (item.len ≤ 21) "Invalid RLPItem. Addresses are encoded in 20 bytes or less"
  let value ← toUint mem item
  .ok (Fin.ofNat (2 ^ 160) value)

def mstore (ptr value : ℕ) : Memory := fun i =>
  if ptr ≤ i ∧ i < ptr + 32 then UInt8.ofNat (value / 256 ^ (31 - (i - ptr))) else mem i

/-- `new bytes(len)` at `ptr`: the length, and so many words of zeros that the contents have room. -/
def newBytes (ptr len : ℕ) : Memory := fun i =>
  if ptr + 32 ≤ i ∧ i < ptr + 32 + (len + 31) / 32 * 32 then 0 else mstore mem ptr len i

/-- The word with the left over bytes. The mask removes the unwanted ones. -/
def copyRest (src dest len : ℕ) : Memory :=
  let mask := 256 ^ (32 - len) - 1
  let srcpart := mload mem src &&& (2 ^ 256 - 1 - mask)
  let destpart := mload mem dest &&& mask
  mstore mem dest (destpart ||| srcpart)

/-- The loop of `copy`, with `fuel` for its rounds and for what is left over. -/
def copyLoop : ℕ → Memory → ℕ → ℕ → ℕ → Memory
  | 0, mem, _, _, _ => mem
  | fuel + 1, mem, src, dest, len =>
      if 32 ≤ len then
        copyLoop fuel (mstore mem dest (mload mem src)) (src + 32) (dest + 32) (len - 32)
      else if 0 < len then
        copyRest mem src dest len
      else
        mem

def copy (src dest len : ℕ) : Memory :=
  if len = 0 then mem else copyLoop (len / 32 + 1) mem src dest len

/-- The result is a new array at `free`. -/
def toBytesAt (free : ℕ) (item : RLPItem) : Except Revert Bytes := do
  let offset := payloadOffset mem item.memPtr
  let len ← checkedSub item.len offset
  let destPtr := free + 32
  let copied := copy (newBytes mem free len) (item.memPtr + offset) destPtr len
  .ok (readBytes copied destPtr len)

/-- Free memory begins somewhere behind the item; it makes no difference where. -/
def toBytes (item : RLPItem) : Except Revert Bytes := toBytesAt mem (item.memPtr + item.len) item

structure Transaction where
  nonce : ℕ
  gasLimit : ℕ
  recipient : Address
  value : ℕ
  data : Bytes
  deriving DecidableEq, Repr

/-- The members of a transaction at the given places of the list. -/
def decodeMembers (payload : Bytes) (beyond : Memory) (nonce gasLimit recipient value data : ℕ) :
    Except Revert Transaction := do
  let mem := place payload beyond
  let values ← toList mem ⟨payload.length, 0⟩
  let nonce ← toUint mem (← itemAt values nonce)
  let gasLimit ← toUint mem (← itemAt values gasLimit)
  let recipient ← toAddress mem (← itemAt values recipient)
  let value ← toUint mem (← itemAt values value)
  let data ← toBytes mem (← itemAt values data)
  .ok ⟨nonce, gasLimit, recipient, value, data⟩

def decodeLegacyTransaction (rawTransaction : Bytes) (beyond : Memory) : Except Revert Transaction :=
  decodeMembers rawTransaction beyond 0 2 3 4 5

def decodeTransactionType1 (rawTransaction : Bytes) (beyond : Memory) : Except Revert Transaction :=
  decodeMembers (rawTransaction.drop 1) beyond 1 3 4 5 6

def decodeTransactionType2 (rawTransaction : Bytes) (beyond : Memory) : Except Revert Transaction :=
  decodeMembers (rawTransaction.drop 1) beyond 1 4 5 6 7

end OpenGsn.Penalizer
