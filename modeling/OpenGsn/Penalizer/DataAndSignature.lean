import OpenGsn.Penalizer.Decoding
import OpenGsn.Text.Hex
import OpenGsn.Utils

/-! `getDataAndSignature` of `Utils.ts`: what is reported to the penalizer of a signed transaction. -/

namespace OpenGsn.Penalizer

open Solidity Rlp Text

/-- A `TypedTransaction`, without a signature as long as it is not signed. -/
structure EthereumTransaction where
  tx : TxData
  envelope : Envelope
  v : Option ℕ
  r : Option ℕ
  s : Option ℕ

/-- `toBuffer` of a number. Zero has a byte there, and none in `bnToUnpaddedBuffer`. -/
def toBuffer (n : ℕ) : Bytes := if n = 0 then [0] else natBytes n

def feeItems : Envelope → List Item
  | .legacy gasPrice _ => [scalar gasPrice]
  | .type1 _ gasPrice _ => [scalar gasPrice]
  | .type2 _ maxPriorityFeePerGas maxFeePerGas _ => [scalar maxPriorityFeePerGas, scalar maxFeePerGas]

def dataItems (tx : TxData) (envelope : Envelope) (recipient : Address) (chainId : ℕ) : List Item :=
  [scalar tx.nonce] ++ feeItems envelope ++
    [scalar tx.gasLimit, .str (addressBytes recipient), scalar tx.value, .str tx.data,
      .str (toBuffer chainId), .str [], .str []]

/-- `n.toString(16)` -/
def hexNumber (n : ℤ) : List Char :=
  if n < 0 then '-' :: Nat.toDigits 16 n.natAbs else Nat.toDigits 16 n.natAbs

def padStart (length : ℕ) (text : List Char) : List Char := List.replicate (length - text.length) '0' ++ text

/-- Numbers below 2^256, of which `padTo64` makes 64 digits. -/
def signatureRSV2Hex (r s : ℕ) (v : ℤ) : List Char :=
  toHex (word r) ++ toHex (word s) ++ padStart 2 (hexNumber v)

structure DataAndSignature where
  data : Bytes
  signature : List Char

/-- The `v` of a signature without the chain id that replay protection puts into it. -/
def vInt (v chainId : ℕ) : ℤ := if 28 < v then v - (chainId * 2 + 8) else v

def getDataAndSignature (tx : EthereumTransaction) (chainId : ℕ) : Except String DataAndSignature :=
  match tx.tx.recipient with
  | none => .error "tx.to must be defined"
  | some recipient =>
      match tx.s, tx.r, tx.v with
      | some s, some r, some v => do
          let number ← toNumber v
          .ok ⟨(Item.list (dataItems tx.tx tx.envelope recipient chainId)).encode,
            signatureRSV2Hex r s (vInt number chainId)⟩
      | _, _, _ => .error "tx signature must be defined"

def signatureV (parity : Fin 2) : Envelope → ℕ
  | .legacy _ none => 27 + parity
  | .legacy _ (some chainId) => chainId * 2 + 35 + parity
  | .type1 _ _ _ => parity
  | .type2 _ _ _ _ => parity

def signed (tx : TxData) (envelope : Envelope) (r s : Uint256) (parity : Fin 2) : EthereumTransaction :=
  ⟨tx, envelope, some (signatureV parity envelope), some r.val, some s.val⟩

def signatureBytes (r s : Uint256) (parity : Fin 2) : Bytes :=
  word r.val ++ word s.val ++ [UInt8.ofNat (27 + parity)]

variable (crypto : Crypto)

/-- The verifier hashes what was signed, finds the signer and reads the transaction. -/
structure Matches (tx : TxData) (envelope : Envelope) (sender : Address) (beyond : Memory)
    (reported : DataAndSignature) : Prop where
  preimage : reported.data = unsignedTx tx envelope
  recovered : crypto.recover (crypto.keccak256 reported.data) (fromHex reported.signature) = some sender
  read : decodeTransaction reported.data beyond = .ok (decoded tx)

theorem getDataAndSignature_signed (tx : TxData) (envelope : Envelope) (r s : Uint256) (parity : Fin 2)
    (chainId : ℕ) (reported : DataAndSignature)
    (accepted : getDataAndSignature (signed tx envelope r s parity) chainId = .ok reported) :
    ∃ recipient, tx.recipient = some recipient ∧
      reported.data = (Item.list (dataItems tx envelope recipient chainId)).encode ∧
      reported.signature = signatureRSV2Hex r.val s.val (vInt (signatureV parity envelope) chainId) := by
  cases known : tx.recipient with
  | none => simp [getDataAndSignature, signed, known] at accepted
  | some recipient =>
      refine ⟨recipient, rfl, ?_⟩
      simp only [getDataAndSignature, signed, known, toNumber] at accepted
      split at accepted
      · cases accepted
        exact ⟨rfl, rfl⟩
      · cases accepted

/-! The legacy transactions -/

theorem toBuffer_eq_natBytes (n : ℕ) : toBuffer n = natBytes n ↔ n ≠ 0 := by
  unfold toBuffer
  split
  · rename_i zero
    simp [zero, natBytes, byteCount, bigEndian]
  · rename_i nonzero
    exact ⟨fun _ => nonzero, fun _ => rfl⟩

theorem ofBigEndian_toBuffer (n : ℕ) : ofBigEndian (toBuffer n) = n := by
  unfold toBuffer
  split
  · rename_i zero
    rw [zero]
    rfl
  · exact ofBigEndian_natBytes n

theorem toBuffer_eq_natBytes_iff (n other : ℕ) : toBuffer n = natBytes other ↔ other = n ∧ n ≠ 0 := by
  constructor
  · intro same
    have value : other = n := by rw [← ofBigEndian_natBytes other, ← same, ofBigEndian_toBuffer]
    subst value
    exact ⟨rfl, (toBuffer_eq_natBytes other).mp same⟩
  · rintro ⟨rfl, nonzero⟩
    exact (toBuffer_eq_natBytes other).mpr nonzero

theorem list_encode_injective (items others : List Item)
    (same : (Item.list items).encode = (Item.list others).encode) : encodeItems items = encodeItems others := by
  rw [Item.encode, Item.encode] at same
  exact encodeList_injective _ _ same

/-- The data of a legacy transaction ends in the chain id, and so does what was signed, if it is
protected. -/
theorem legacy_data_iff (tx : TxData) (gasPrice chainId : ℕ) (protection : Option ℕ) (recipient : Address)
    (known : tx.recipient = some recipient) :
    (Item.list (dataItems tx (.legacy gasPrice protection) recipient chainId)).encode =
        unsignedTx tx (.legacy gasPrice protection) ↔
      protection = some chainId ∧ chainId ≠ 0 := by
  let front := [scalar tx.nonce, scalar gasPrice, scalar tx.gasLimit, .str (addressBytes recipient),
    scalar tx.value, .str tx.data]
  have data : dataItems tx (.legacy gasPrice protection) recipient chainId =
      front ++ [.str (toBuffer chainId), .str [], .str []] := rfl
  have listed : members tx (.legacy gasPrice protection) = front ++ replayProtection protection := by
    rw [members, known]
    rfl
  rw [unsignedTx, typePrefix, List.nil_append, data, listed]
  constructor
  · intro same
    have items := list_encode_injective _ _ same
    rw [encodeItems_append, encodeItems_append] at items
    have ends := List.append_cancel_left items
    cases protection with
    | none => exact absurd (encodeItems_eq_nil _ ends) (List.cons_ne_nil _ _)
    | some protecting =>
        have chain : (Item.str (toBuffer chainId)).encode = (scalar protecting).encode :=
          List.append_cancel_right ends
        rw [scalar, Item.encode, Item.encode] at chain
        have bytes := encodeString_injective _ _ chain
        have value := (toBuffer_eq_natBytes_iff chainId protecting).mp bytes
        exact ⟨congrArg some value.1, value.2⟩
  · rintro ⟨rfl, nonzero⟩
    rw [(toBuffer_eq_natBytes chainId).mpr nonzero]
    rfl

/-! The typed transactions -/

/-- The first byte of a list is no type, unless the list is too long for any chain. -/
theorem encodeList_head (payload : Bytes) (bounded : payload.length < 256 ^ 9) :
    ∃ byte tail, encodeList payload = byte :: tail ∧ (byte.toNat = 0 ∨ 0xc0 ≤ byte.toNat) := by
  unfold encodeList header
  split
  · rename_i few
    refine ⟨_, _, rfl, .inr ?_⟩
    rw [UInt8.toNat_ofNat', Nat.mod_eq_of_lt (by omega)]
    omega
  · have digits := byteCount_le payload.length 9 bounded
    refine ⟨_, _, rfl, ?_⟩
    rw [UInt8.toNat_ofNat']
    omega

theorem encodeList_length_le (payload : Bytes) (small : payload.length < 256 ^ 8) :
    (encodeList payload).length ≤ 9 + payload.length := by
  have digits := byteCount_le payload.length 8 small
  rw [encodeList, header]
  split
  · rw [List.length_append, List.length_singleton]
    omega
  · rw [List.length_append, List.length_cons, natBytes_length]
    omega

theorem typed_data_ne (items others : List Item) (type : UInt8) (typed : type = 1 ∨ type = 2)
    (small : (encodeItems others).length < 256 ^ 8) :
    (Item.list items).encode ≠ type :: (Item.list others).encode := by
  intro same
  rw [Item.encode, Item.encode] at same
  have shorter := encodeList_length_le _ small
  have lengths := congrArg List.length same
  have contained : (encodeItems items).length ≤ (encodeList (encodeItems items)).length := by
    simp [encodeList]
  rw [List.length_cons] at lengths
  obtain ⟨byte, tail, headed, range⟩ := encodeList_head (encodeItems items) (by omega)
  rw [headed] at same
  have first := (List.cons.inj same).1
  rcases typed with rfl | rfl
  · rw [first] at range
    exact absurd range (by decide)
  · rw [first] at range
    exact absurd range (by decide)

theorem data_iff (tx : TxData) (envelope : Envelope) (chainId : ℕ) (recipient : Address)
    (known : tx.recipient = some recipient) (encodable : Encodable tx envelope) :
    (Item.list (dataItems tx envelope recipient chainId)).encode = unsignedTx tx envelope ↔
      ∃ gasPrice, envelope = .legacy gasPrice (some chainId) ∧ chainId ≠ 0 := by
  cases envelope with
  | legacy gasPrice protection =>
      rw [legacy_data_iff tx gasPrice chainId protection recipient known]
      constructor
      · rintro ⟨rfl, nonzero⟩
        exact ⟨gasPrice, rfl, nonzero⟩
      · rintro ⟨_, ⟨⟩, nonzero⟩
        exact ⟨rfl, nonzero⟩
  | type1 otherChain gasPrice accessList =>
      refine ⟨fun same => absurd same ?_, fun legacy => nomatch legacy⟩
      exact typed_data_ne _ _ 1 (.inl rfl) encodable.length
  | type2 otherChain maxPriorityFeePerGas maxFeePerGas accessList =>
      refine ⟨fun same => absurd same ?_, fun legacy => nomatch legacy⟩
      exact typed_data_ne _ _ 2 (.inr rfl) encodable.length

/-- The signature of a protected transaction is reported as `ECDSA.recover` takes it. -/
theorem signature_protected (gasPrice chainId : ℕ) (r s : Uint256) (parity : Fin 2) :
    fromHex (signatureRSV2Hex r.val s.val
      (vInt (signatureV parity (.legacy gasPrice (some chainId))) chainId)) = signatureBytes r s parity := by
  have adjusted : vInt (signatureV parity (.legacy gasPrice (some chainId))) chainId =
      ((27 + parity.val : ℕ) : ℤ) := by
    rw [vInt, signatureV, if_pos (by omega)]
    push_cast
    ring
  have digits : ∀ parity : Fin 2, padStart 2 (hexNumber ((27 + parity.val : ℕ) : ℤ)) =
      toHex [UInt8.ofNat (27 + parity)] := by decide
  rw [adjusted, signatureRSV2Hex, digits parity, ← toHex_append, ← toHex_append, fromHex_toHex, signatureBytes]

/-- The report of a signed transaction matches exactly for legacy transactions that are protected
by the chain id of the server. -/
theorem data_and_signature_match_iff (tx : TxData) (envelope : Envelope) (r s : Uint256) (parity : Fin 2)
    (chainId : ℕ) (sender : Address) (beyond : Memory) (reported : DataAndSignature)
    (encodable : Encodable tx envelope)
    (signs : crypto.recover (crypto.keccak256 (unsignedTx tx envelope)) (signatureBytes r s parity) = some sender)
    (accepted : getDataAndSignature (signed tx envelope r s parity) chainId = .ok reported) :
    Matches crypto tx envelope sender beyond reported ↔
      ∃ gasPrice, envelope = .legacy gasPrice (some chainId) ∧ chainId ≠ 0 := by
  obtain ⟨recipient, known, data, signature⟩ :=
    getDataAndSignature_signed tx envelope r s parity chainId reported accepted
  have preimage_iff := data_iff tx envelope chainId recipient known encodable
  rw [← data] at preimage_iff
  constructor
  · intro matching
    exact preimage_iff.mp matching.preimage
  · intro legacy
    have preimage := preimage_iff.mpr legacy
    obtain ⟨gasPrice, rfl, _⟩ := legacy
    have bytes := signature_protected gasPrice chainId r s parity
    rw [← signature] at bytes
    refine ⟨preimage, ?_, ?_⟩
    · rw [preimage, bytes]
      exact signs
    · rw [preimage]
      exact decodeTransaction_encodable tx _ beyond encodable

def sampleTransfer : TxData := ⟨3, 100000, some 7, 0, [0xca, 0xfe]⟩

theorem data_and_signature_match_sample :
    ∃ reported, getDataAndSignature (signed sampleTransfer (.legacy 30 (some 1)) 4 5 1) 1 = .ok reported ∧
      Matches sampleCrypto sampleTransfer (.legacy 30 (some 1))
        (Fin.ofNat (2 ^ 160) (ofBigEndian (signatureBytes 4 5 1))) (fun _ => 0) reported := by
  have encodable : Encodable sampleTransfer (.legacy 30 (some 1)) :=
    ⟨by decide, by decide, by decide, by decide +kernel⟩
  refine ⟨_, rfl, ?_⟩
  exact (data_and_signature_match_iff sampleCrypto sampleTransfer (.legacy 30 (some 1)) 4 5 1 1 _ _ _ encodable
    rfl rfl).mpr ⟨30, rfl, by decide⟩

/-- A transaction with priority fees is reported without its type, its chain id in another
place. -/
theorem fee_market_data_differs :
    ¬ ∀ (crypto : Crypto) (tx : TxData) (envelope : Envelope) (r s : Uint256) (parity : Fin 2) (chainId : ℕ)
      (sender : Address) (beyond : Memory) (reported : DataAndSignature),
      Encodable tx envelope →
      crypto.recover (crypto.keccak256 (unsignedTx tx envelope)) (signatureBytes r s parity) = some sender →
      getDataAndSignature (signed tx envelope r s parity) chainId = .ok reported →
      Matches crypto tx envelope sender beyond reported := by
  intro matching
  have encodable : Encodable sampleTransfer (.type2 1 2 30 []) :=
    ⟨by decide, by decide, by decide, by decide +kernel⟩
  have same := (matching sampleCrypto sampleTransfer (.type2 1 2 30 []) 4 5 1 1 _ (fun _ => 0) _ encodable rfl
    rfl).preimage
  exact absurd same (by decide +kernel)

end OpenGsn.Penalizer
