import OpenGsn.Solidity.Base
import Mathlib.Data.List.Basic
import Mathlib.Data.List.Induction
import Mathlib.Data.Set.Function
import Mathlib.Tactic.Ring
import Mathlib.Tactic.NormNum

/-! The ABI coder, version 2: words, packed encodings, and `bytes` members with the bounds
checks of its decoder. -/

namespace OpenGsn.Solidity

def bigEndian : ℕ → ℕ → Bytes
  | 0, _ => []
  | width + 1, n => bigEndian width (n / 256) ++ [UInt8.ofNat n]

def ofBigEndian (bytes : Bytes) : ℕ := bytes.foldl (fun n byte => n * 256 + byte.toNat) 0

@[simp] theorem bigEndian_length (width n : ℕ) : (bigEndian width n).length = width := by
  induction width generalizing n with
  | zero => rfl
  | succ width ih => simp [bigEndian, ih]

theorem ofBigEndian_concat (bytes : Bytes) (byte : UInt8) :
    ofBigEndian (bytes ++ [byte]) = ofBigEndian bytes * 256 + byte.toNat := by
  simp [ofBigEndian]

theorem ofBigEndian_append (front back : Bytes) :
    ofBigEndian (front ++ back) = ofBigEndian front * 256 ^ back.length + ofBigEndian back := by
  induction back using List.reverseRecOn with
  | nil => simp [ofBigEndian]
  | append_singleton back byte ih =>
      rw [← List.append_assoc, ofBigEndian_concat, ofBigEndian_concat, ih, List.length_append,
        List.length_singleton, pow_succ]
      ring

theorem ofBigEndian_lt (bytes : Bytes) : ofBigEndian bytes < 256 ^ bytes.length := by
  induction bytes using List.reverseRecOn with
  | nil => decide
  | append_singleton bytes byte ih =>
      have digit : byte.toNat < 256 := byte.toNat_lt
      rw [ofBigEndian_concat, List.length_append, List.length_singleton, pow_succ]
      omega

theorem ofBigEndian_bigEndian (width n : ℕ) : ofBigEndian (bigEndian width n) = n % 256 ^ width := by
  induction width generalizing n with
  | zero => simp [bigEndian, ofBigEndian, Nat.mod_one]
  | succ width ih =>
      have digit : (UInt8.ofNat n).toNat = n % 256 := UInt8.toNat_ofNat'
      rw [bigEndian, ofBigEndian_concat, ih (n / 256), digit, pow_succ' 256 width, Nat.mod_mul]
      ring

def word (n : ℕ) : Bytes := bigEndian 32 n

@[simp] theorem word_length (n : ℕ) : (word n).length = 32 := bigEndian_length 32 n

theorem ofBigEndian_word (n : ℕ) (small : n < 2 ^ 256) : ofBigEndian (word n) = n := by
  rw [word, ofBigEndian_bigEndian]
  apply Nat.mod_eq_of_lt
  norm_num at small ⊢
  exact small

theorem word_injective (a b : ℕ) (first : a < 2 ^ 256) (second : b < 2 ^ 256)
    (same : word a = word b) : a = b := by
  have values := congrArg ofBigEndian same
  rwa [ofBigEndian_word a first, ofBigEndian_word b second] at values

theorem append_word_injective (front other : Bytes) (a b : ℕ) (first : a < 2 ^ 256)
    (second : b < 2 ^ 256) (same : front ++ word a = other ++ word b) : front = other ∧ a = b := by
  obtain ⟨fronts, words⟩ := List.append_inj' same (by simp)
  exact ⟨fronts, word_injective a b first second words⟩

theorem address_lt_word (account : Address) : account.val < 2 ^ 256 :=
  Nat.lt_of_lt_of_le account.isLt (Nat.pow_le_pow_right (by decide) (by decide))

def addressBytes (account : Address) : Bytes := bigEndian 20 account.val

@[simp] theorem addressBytes_length (account : Address) : (addressBytes account).length = 20 :=
  bigEndian_length 20 account.val

theorem ofBigEndian_addressBytes (account : Address) : ofBigEndian (addressBytes account) = account.val := by
  rw [addressBytes, ofBigEndian_bigEndian]
  have bound := account.isLt
  apply Nat.mod_eq_of_lt
  norm_num at bound ⊢
  exact bound

theorem addressBytes_injective (a b : Address) (same : addressBytes a = addressBytes b) : a = b := by
  have values := congrArg ofBigEndian same
  rw [ofBigEndian_addressBytes, ofBigEndian_addressBytes] at values
  exact Fin.ext values

def readWord (data : Bytes) (offset : ℕ) : ℕ := ofBigEndian ((data.drop offset).take 32)

theorem readWord_word (front back : Bytes) (n : ℕ) (small : n < 2 ^ 256) :
    readWord (front ++ word n ++ back) front.length = n := by
  have value : (front ++ word n ++ back).drop front.length = word n ++ back := by simp
  have cut : (word n ++ back).take 32 = word n := List.take_left' (word_length n)
  rw [readWord, value, cut, ofBigEndian_word n small]

def padding (length : ℕ) : ℕ := (32 - length % 32) % 32

/-- The tail of a `bytes` member: its length, its contents, and zeros up to a full word. -/
def bytesTail (contents : Bytes) : Bytes :=
  word contents.length ++ contents ++ List.replicate (padding contents.length) 0

/-- Decodes the `bytes` member whose offset is the word at `head`. -/
def decodeBytes (data : Bytes) (head : ℕ) : Except Revert Bytes :=
  let offset := readWord data head
  if offset ≥ 2 ^ 64 ∨ data.length ≤ offset + 31 then
    .error (.data [])
  else
    let length := readWord data offset
    if length ≥ 2 ^ 64 then
      .error (.panic 0x41)
    else if data.length < offset + 32 + length then
      .error (.data [])
    else
      .ok ((data.drop (offset + 32)).take length)

def decodeBool (data : Bytes) (head : ℕ) : Except Revert Bool :=
  match readWord data head with
  | 0 => .ok false
  | 1 => .ok true
  | _ => .error (.data [])

/-- `abi.decode(data, (bytes, bool))` -/
def decodeBytesBool (data : Bytes) : Except Revert (Bytes × Bool) := do
  if data.length < 64 then
    .error (.data [])
  else
    let contents ← decodeBytes data 0
    let flag ← decodeBool data 32
    .ok (contents, flag)

/-- `abi.decode(data, (bool, bytes))` -/
def decodeBoolBytes (data : Bytes) : Except Revert (Bool × Bytes) := do
  if data.length < 64 then
    .error (.data [])
  else
    let flag ← decodeBool data 0
    let contents ← decodeBytes data 32
    .ok (flag, contents)

def utf8 (text : String) : Bytes := text.toUTF8.data.toList

/-- The bytes a caller finds as revert data. -/
def Revert.bytes : Revert → Bytes
  | .reason message => [0x08, 0xc3, 0x79, 0xa0] ++ word 32 ++ bytesTail (utf8 message)
  | .panic code => [0x4e, 0x48, 0x7b, 0x71] ++ word code
  | .data bytes => bytes

/-- The primitives of the chain: the hash, and `ECDSA.recover`, which reverts on a malformed
signature. -/
structure Crypto where
  keccak256 : Bytes → Uint256
  recover : Uint256 → Bytes → Option Address

def Crypto.hashBytes (crypto : Crypto) (bytes : Bytes) : Bytes := word (crypto.keccak256 bytes).val

def Crypto.recoverSigner (crypto : Crypto) (digest : Uint256) (signature : Bytes) :
    Except Revert Address :=
  match crypto.recover digest signature with
  | some signer => .ok signer
  | none => .error (.reason "ECDSA: invalid signature")

@[simp] theorem recoverSigner_ok (crypto : Crypto) (digest : Uint256) (signature : Bytes)
    (signer : Address) :
    crypto.recoverSigner digest signature = .ok signer ↔ crypto.recover digest signature = some signer := by
  unfold Crypto.recoverSigner
  cases crypto.recover digest signature <;> simp

def Crypto.CollisionFree (crypto : Crypto) (strings : Set Bytes) : Prop :=
  Set.InjOn crypto.keccak256 strings

def sampleCrypto : Crypto where
  keccak256 := fun bytes => Fin.ofNat (2 ^ 256) (ofBigEndian bytes)
  recover := fun _ signature => some (Fin.ofNat (2 ^ 160) (ofBigEndian signature))

end OpenGsn.Solidity
