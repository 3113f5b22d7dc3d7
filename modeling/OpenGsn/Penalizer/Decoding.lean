import OpenGsn.Penalizer.MemoryCopy
import OpenGsn.Penalizer.Model
import OpenGsn.Transactions

/-! The reader on what the encoder writes. -/

namespace OpenGsn.Penalizer

open Solidity Rlp

variable (mem : Memory)

def Holds (ptr : ℕ) (bytes : Bytes) : Prop := readBytes mem ptr bytes.length = bytes

theorem holds_append (ptr : ℕ) (front back : Bytes) :
    Holds mem ptr (front ++ back) ↔ Holds mem ptr front ∧ Holds mem (ptr + front.length) back := by
  unfold Holds
  rw [List.length_append, readBytes_add]
  constructor
  · intro whole
    exact List.append_inj whole (by simp)
  · rintro ⟨first, second⟩
    rw [first, second]

theorem holds_cons (ptr : ℕ) (byte : UInt8) (rest : Bytes) :
    Holds mem ptr (byte :: rest) ↔ mem ptr = byte ∧ Holds mem (ptr + 1) rest := by
  have cut := holds_append mem ptr [byte] rest
  simpa [Holds, readBytes] using cut

theorem place_holds (payload : Bytes) (beyond : Memory) : Holds (place payload beyond) 0 payload := by
  apply List.ext_getElem (by simp)
  intro i inside within
  simp [readBytes, place, within]

theorem mload_shifted (ptr : ℕ) (bytes : Bytes) (short : bytes.length ≤ 32) (held : Holds mem ptr bytes) :
    mload mem ptr / 256 ^ (32 - bytes.length) = ofBigEndian bytes := by
  rw [mload_front mem ptr bytes.length short, held]

theorem header_read (short long length ptr : ℕ) (room : short + 55 < 256) (wide : long + 8 < 256)
    (small : length < 256 ^ 8) (held : Holds mem ptr (header short long length)) :
    (length < 56 ∧ byte0 mem ptr = short + length ∧ (header short long length).length = 1) ∨
    (56 ≤ length ∧ byte0 mem ptr = long + byteCount length ∧
      1 ≤ byteCount length ∧ byteCount length ≤ 8 ∧
      (header short long length).length = byteCount length + 1 ∧
      mload mem (ptr + 1) / 256 ^ (32 - byteCount length) = length) := by
  unfold header at held ⊢
  split
  · rename_i few
    rw [if_pos few, holds_cons] at held
    refine .inl ⟨few, ?_, rfl⟩
    rw [byte0, held.1, UInt8.toNat_ofNat', Nat.mod_eq_of_lt (by omega)]
  · rename_i many
    rw [if_neg many, holds_cons] at held
    have narrow := byteCount_le length 8 small
    have some : 1 ≤ byteCount length := by
      unfold byteCount
      split <;> omega
    refine .inr ⟨by omega, ?_, some, narrow, by simp, ?_⟩
    · rw [byte0, held.1, UInt8.toNat_ofNat', Nat.mod_eq_of_lt (by omega)]
    · have shifted := mload_shifted mem (ptr + 1) (natBytes length) (by simp; omega) held.2
      rwa [natBytes_length, ofBigEndian_natBytes] at shifted

/-- What the reader makes of an encoded string or list: how long it is, and where its contents
are. -/
structure Located (ptr : ℕ) (encoding contents : Bytes) : Prop where
  length : itemLength mem ptr = encoding.length
  offset : payloadOffset mem ptr + contents.length = encoding.length
  held : Holds mem (ptr + payloadOffset mem ptr) contents

theorem headed_located (short long ptr : ℕ) (contents : Bytes)
    (kind : (short = 0x80 ∧ long = 0xb7) ∨ (short = 0xc0 ∧ long = 0xf7))
    (small : contents.length < 256 ^ 8)
    (held : Holds mem ptr (header short long contents.length ++ contents)) :
    Located mem ptr (header short long contents.length ++ contents) contents := by
  rw [holds_append] at held
  rcases header_read mem short long contents.length ptr (by omega) (by omega) small held.1 with
    ⟨few, first, one⟩ | ⟨many, first, some, narrow, width, announced⟩
  · have offset : payloadOffset mem ptr = 1 := by
      rw [payloadOffset, first]
      grind
    refine ⟨?_, ?_, ?_⟩
    · rw [itemLength, first, List.length_append, one]
      rcases kind with ⟨rfl, rfl⟩ | ⟨rfl, rfl⟩ <;> grind
    · rw [offset, List.length_append, one]
    · rw [offset, ← one]
      exact held.2
  · have offset : payloadOffset mem ptr = byteCount contents.length + 1 := by
      rw [payloadOffset, first]
      grind
    refine ⟨?_, ?_, ?_⟩
    · rw [itemLength, first, List.length_append, width]
      rcases kind with ⟨rfl, rfl⟩ | ⟨rfl, rfl⟩
      · rw [if_neg (by omega), if_neg (by omega), if_pos (by omega)]
        simp only [Nat.add_sub_cancel_left, announced]
        omega
      · rw [if_neg (by omega), if_neg (by omega), if_neg (by omega), if_neg (by omega)]
        simp only [Nat.add_sub_cancel_left, announced]
        omega
    · rw [offset, List.length_append, width]
    · rw [offset, ← width]
      exact held.2

theorem string_located (ptr : ℕ) (bytes : Bytes) (small : bytes.length < 256 ^ 8)
    (held : Holds mem ptr (encodeString bytes)) : Located mem ptr (encodeString bytes) bytes := by
  unfold encodeString at held ⊢
  split
  · rename_i single
    rw [if_pos single] at held
    obtain ⟨byte, rfl⟩ := List.length_eq_one_iff.mp single.1
    have low : byte0 mem ptr < 0x80 := by
      rw [byte0, ((holds_cons mem ptr byte []).mp held).1]
      exact of_decide_eq_true (List.all_eq_true.mp single.2 byte (by simp))
    have offset : payloadOffset mem ptr = 0 := by simp [payloadOffset, low]
    refine ⟨by simp [itemLength, low], by rw [offset, Nat.zero_add], ?_⟩
    rw [offset]
    exact held
  · rename_i several
    rw [if_neg several] at held
    exact headed_located mem 0x80 0xb7 ptr bytes (.inl ⟨rfl, rfl⟩) small held

theorem list_located (ptr : ℕ) (payload : Bytes) (small : payload.length < 256 ^ 8)
    (held : Holds mem ptr (encodeList payload)) : Located mem ptr (encodeList payload) payload :=
  headed_located mem 0xc0 0xf7 ptr payload (.inr ⟨rfl, rfl⟩) small held

def contents : Item → Bytes
  | .str bytes => bytes
  | .list items => encodeItems items

theorem contents_le_encode (item : Item) : (contents item).length ≤ item.encode.length := by
  cases item with
  | str bytes =>
      simp only [contents, Item.encode, encodeString]
      split <;> simp
  | list items => simp [contents, Item.encode, encodeList]

theorem item_located (ptr : ℕ) (item : Item) (small : (contents item).length < 256 ^ 8)
    (held : Holds mem ptr item.encode) : Located mem ptr item.encode (contents item) := by
  cases item with
  | str bytes => exact string_located mem ptr bytes small held
  | list items => exact list_located mem ptr (encodeItems items) small held

def itemsAt : ℕ → List Item → List RLPItem
  | _, [] => []
  | ptr, item :: rest => ⟨item.encode.length, ptr⟩ :: itemsAt (ptr + item.encode.length) rest

theorem numItemsLoop_items (items : List Item) (fuel ptr : ℕ) (enough : items.length ≤ fuel)
    (small : (encodeItems items).length < 256 ^ 8) (held : Holds mem ptr (encodeItems items)) :
    numItemsLoop mem fuel ptr (ptr + (encodeItems items).length) = items.length := by
  induction items generalizing fuel ptr with
  | nil => cases fuel <;> simp [numItemsLoop, encodeItems]
  | cons item rest ih =>
      obtain ⟨fuel, rfl⟩ := Nat.exists_eq_add_one.mpr (Nat.lt_of_lt_of_le (Nat.succ_pos _) enough)
      have present := encode_nonempty item
      have shorter := contents_le_encode item
      rw [encodeItems, List.length_append] at small
      rw [encodeItems, holds_append] at held
      have located := item_located mem ptr item (by omega) held.1
      have later := ih fuel (ptr + item.encode.length) (Nat.le_of_succ_le_succ enough) (by omega) held.2
      rw [numItemsLoop, encodeItems, List.length_append, located.length, if_pos (by omega),
        ← Nat.add_assoc, later, List.length_cons]

theorem toListLoop_items (items : List Item) (ptr : ℕ)
    (small : (encodeItems items).length < 256 ^ 8) (held : Holds mem ptr (encodeItems items)) :
    toListLoop mem items.length ptr = itemsAt ptr items := by
  induction items generalizing ptr with
  | nil => rfl
  | cons item rest ih =>
      have shorter := contents_le_encode item
      rw [encodeItems, List.length_append] at small
      rw [encodeItems, holds_append] at held
      have located := item_located mem ptr item (by omega) held.1
      have later := ih (ptr + item.encode.length) (by omega) held.2
      simp only [List.length_cons, toListLoop, located.length, later, itemsAt]

theorem itemsAt_get (items : List Item) (ptr index : ℕ) (item : Item)
    (held : Holds mem ptr (encodeItems items)) (listed : items[index]? = some item) :
    ∃ place, itemAt (itemsAt ptr items) index = .ok ⟨item.encode.length, place⟩ ∧
      Holds mem place item.encode := by
  induction items generalizing ptr index with
  | nil => exact nomatch listed
  | cons first rest ih =>
      rw [encodeItems, holds_append] at held
      cases index with
      | zero =>
          obtain rfl : first = item := Option.some.inj listed
          exact ⟨ptr, rfl, held.1⟩
      | succ index =>
          obtain ⟨place, found, there⟩ := ih (ptr + first.encode.length) index held.2 listed
          exact ⟨place, found, there⟩

theorem list_first_byte (ptr : ℕ) (payload : Bytes) (small : payload.length < 256 ^ 8)
    (held : Holds mem ptr (encodeList payload)) : 0xc0 ≤ byte0 mem ptr := by
  have headed := ((holds_append mem ptr _ _).mp held).1
  rcases header_read mem 0xc0 0xf7 payload.length ptr (by decide) (by decide) small headed with
    ⟨_, first, _⟩ | ⟨_, first, _⟩
  · omega
  · omega

theorem toList_items (items : List Item) (small : (encodeItems items).length < 256 ^ 8)
    (held : Holds mem 0 (Item.list items).encode) :
    toList mem ⟨(Item.list items).encode.length, 0⟩ = .ok (itemsAt (payloadOffset mem 0) items) ∧
      Holds mem (payloadOffset mem 0) (encodeItems items) := by
  have located := item_located mem 0 (.list items) small held
  have inside := located.held
  have offset := located.offset
  simp only [contents, Nat.zero_add] at inside offset
  have first := list_first_byte mem 0 (encodeItems items) (by omega) held
  have count := numItemsLoop_items mem items (Item.list items).encode.length (payloadOffset mem 0)
    ((length_encodeItems items).trans (by omega)) (by omega) inside
  have places := toListLoop_items mem items (payloadOffset mem 0) (by omega) inside
  have listed : isList mem ⟨(Item.list items).encode.length, 0⟩ = true := by
    simp [isList, first]
  rw [offset] at count
  refine ⟨?_, inside⟩
  rw [toList, require, if_pos listed]
  simp only [numItems, Nat.zero_add, count, places]
  rfl

theorem string_payload (ptr : ℕ) (bytes : Bytes) (small : bytes.length < 256 ^ 8)
    (held : Holds mem ptr (Item.str bytes).encode) :
    checkedSub (Item.str bytes).encode.length (payloadOffset mem ptr) = .ok bytes.length ∧
      Holds mem (ptr + payloadOffset mem ptr) bytes := by
  have located := string_located mem ptr bytes small held
  have offset : payloadOffset mem ptr + bytes.length = (Item.str bytes).encode.length := located.offset
  rw [checkedSub_ok]
  exact ⟨by omega, located.held⟩

theorem toUint_string (ptr : ℕ) (bytes : Bytes) (short : bytes.length ≤ 32)
    (held : Holds mem ptr (Item.str bytes).encode) :
    toUint mem ⟨(Item.str bytes).encode.length, ptr⟩ = .ok (ofBigEndian bytes) := by
  obtain ⟨len, inside⟩ := string_payload mem ptr bytes (by omega) held
  have shifted := mload_shifted mem _ bytes short inside
  simp only [toUint, len]
  change Except.ok _ = _
  rw [shifted]
  split
  · rename_i empty
    obtain rfl : bytes = [] := List.eq_nil_of_length_eq_zero (by omega)
    rfl
  · rfl

theorem toUint_scalar (ptr n : ℕ) (fits : n < 2 ^ 256) (held : Holds mem ptr (scalar n).encode) :
    toUint mem ⟨(scalar n).encode.length, ptr⟩ = .ok n := by
  have short : (natBytes n).length ≤ 32 := by
    rw [natBytes_length]
    exact byteCount_le n 32 (by rw [show (256 : ℕ) = 2 ^ 8 from rfl, ← Nat.pow_mul]; exact fits)
  have read := toUint_string mem ptr (natBytes n) short held
  rwa [ofBigEndian_natBytes] at read

theorem toAddress_destination (ptr : ℕ) (account : Option Address)
    (held : Holds mem ptr (destination account).encode) :
    toAddress mem ⟨(destination account).encode.length, ptr⟩ = .ok (account.getD 0) := by
  cases account with
  | none =>
      have length : (Item.str []).encode.length = 1 := by decide
      have read := toUint_string mem ptr [] (by simp) held
      rw [toAddress, require, destination, if_pos (by simp [length]), read]
      rfl
  | some account =>
      have length : (Item.str (addressBytes account)).encode.length = 21 := by
        simp [Item.encode, encodeString, header]
      have read := toUint_string mem ptr (addressBytes account) (by simp) held
      rw [toAddress, require, destination, if_pos (by simp [length]), read, ofBigEndian_addressBytes]
      change Except.ok _ = _
      simp

theorem toBytes_string (ptr : ℕ) (bytes : Bytes) (small : bytes.length < 256 ^ 8)
    (held : Holds mem ptr (Item.str bytes).encode) :
    toBytes mem ⟨(Item.str bytes).encode.length, ptr⟩ = .ok bytes := by
  obtain ⟨len, inside⟩ := string_payload mem ptr bytes small held
  rw [toBytes, toBytesAt_eq mem _ _ (Nat.le_refl _), len]
  exact congrArg Except.ok inside

def decoded (tx : TxData) : Transaction :=
  ⟨tx.nonce, tx.gasLimit, tx.recipient.getD 0, tx.value, tx.data⟩

@[simp] theorem decoded_nonce (tx : TxData) : (decoded tx).nonce = tx.nonce := rfl

theorem decodeMembers_items (items : List Item) (tx : TxData) (beyond : Memory)
    (nonce gasLimit recipient value data : ℕ)
    (small : (encodeItems items).length < 256 ^ 8)
    (nonceFits : tx.nonce < 2 ^ 256) (gasFits : tx.gasLimit < 2 ^ 256) (valueFits : tx.value < 2 ^ 256)
    (nonceListed : items[nonce]? = some (scalar tx.nonce))
    (gasListed : items[gasLimit]? = some (scalar tx.gasLimit))
    (recipientListed : items[recipient]? = some (destination tx.recipient))
    (valueListed : items[value]? = some (scalar tx.value))
    (dataListed : items[data]? = some (.str tx.data)) :
    decodeMembers (Item.list items).encode beyond nonce gasLimit recipient value data =
      .ok (decoded tx) := by
  have held := place_holds (Item.list items).encode beyond
  obtain ⟨listed, inside⟩ := toList_items _ items small held
  obtain ⟨noncePlace, nonceAt, nonceHeld⟩ := itemsAt_get _ items _ nonce _ inside nonceListed
  obtain ⟨gasPlace, gasAt, gasHeld⟩ := itemsAt_get _ items _ gasLimit _ inside gasListed
  obtain ⟨recipientPlace, recipientAt, recipientHeld⟩ :=
    itemsAt_get _ items _ recipient _ inside recipientListed
  obtain ⟨valuePlace, valueAt, valueHeld⟩ := itemsAt_get _ items _ value _ inside valueListed
  obtain ⟨dataPlace, dataAt, dataHeld⟩ := itemsAt_get _ items _ data _ inside dataListed
  have short : tx.data.length < 256 ^ 8 := by
    have whole := encode_le_encodeItems items (.str tx.data) (List.mem_of_getElem? dataListed)
    have shorter := contents_le_encode (.str tx.data)
    simp only [contents] at shorter
    omega
  simp only [decodeMembers, listed, bind, Except.bind, nonceAt, gasAt, recipientAt, valueAt, dataAt,
    toUint_scalar _ _ _ nonceFits nonceHeld, toUint_scalar _ _ _ gasFits gasHeld,
    toAddress_destination _ _ _ recipientHeld, toUint_scalar _ _ _ valueFits valueHeld,
    toBytes_string _ _ _ short dataHeld]
  rfl

/-- Only a payload of eight length bytes has the first byte 0xff. -/
theorem list_typeByte (items : List Item) (small : (encodeItems items).length < 256 ^ 8) :
    ∃ byte, typeByte (Item.list items).encode = .ok byte ∧ 0xc0 ≤ byte ∧ byte ≤ 0xff ∧
      (byte = 0xff ↔ 256 ^ 7 ≤ (encodeItems items).length) := by
  have held := place_holds (Item.list items).encode (fun _ => 0)
  have headed := ((holds_append _ 0 _ _).mp held).1
  have first : 0xc0 ≤ byte0 (place (Item.list items).encode fun _ => 0) 0 ∧
      byte0 (place (Item.list items).encode fun _ => 0) 0 ≤ 0xff ∧
      (byte0 (place (Item.list items).encode fun _ => 0) 0 = 0xff ↔
        256 ^ 7 ≤ (encodeItems items).length) := by
    rcases header_read _ 0xc0 0xf7 _ 0 (by decide) (by decide) small headed with
      ⟨few, first, _⟩ | ⟨_, first, _, narrow, _⟩
    · omega
    · have wide := byteCount_le_iff (encodeItems items).length 7
      omega
  cases encoded : (Item.list items).encode with
  | nil =>
      have present := encode_nonempty (.list items)
      simp [encoded] at present
  | cons byte rest =>
      rw [encoded] at first
      exact ⟨byte.toNat, rfl, first⟩

theorem decodeTransaction_type1 (payload : Bytes) (beyond : Memory) :
    decodeTransaction (1 :: payload) beyond = decodeMembers payload beyond 1 3 4 5 6 := rfl

theorem decodeTransaction_type2 (payload : Bytes) (beyond : Memory) :
    decodeTransaction (2 :: payload) beyond = decodeMembers payload beyond 1 4 5 6 7 := rfl

theorem decodeTransaction_encodable (tx : TxData) (envelope : Envelope) (beyond : Memory)
    (encodable : Encodable tx envelope) :
    decodeTransaction (unsignedTx tx envelope) beyond = .ok (decoded tx) := by
  have nonce := encodable.nonce
  have gasLimit := encodable.gasLimit
  have value := encodable.value
  have small := encodable.length
  cases envelope with
  | legacy gasPrice chainId =>
      obtain ⟨byte, first, high, _⟩ := list_typeByte _ small
      have notType1 : byte ≠ 1 := by omega
      have notType2 : byte ≠ 2 := by omega
      have read := decodeMembers_items _ tx beyond 0 2 3 4 5 small nonce gasLimit value rfl rfl rfl rfl rfl
      simpa [decodeTransaction, unsignedTx, typePrefix, isTransactionType1, isTransactionType2, first,
        bind, Except.bind, notType1, notType2, decodeLegacyTransaction] using read
  | type1 chainId gasPrice accessList =>
      have read := decodeMembers_items _ tx beyond 1 3 4 5 6 small nonce gasLimit value rfl rfl rfl rfl rfl
      rw [← decodeTransaction_type1] at read
      exact read
  | type2 chainId maxPriorityFeePerGas maxFeePerGas accessList =>
      have read := decodeMembers_items _ tx beyond 1 4 5 6 7 small nonce gasLimit value rfl rfl rfl rfl rfl
      rw [← decodeTransaction_type2] at read
      exact read

theorem decodeTransaction_unsignedTx (tx : TxData) (envelope : Envelope) (beyond : Memory)
    (wellFormed : WellFormed tx envelope) :
    decodeTransaction (unsignedTx tx envelope) beyond = .ok (decoded tx) :=
  decodeTransaction_encodable tx envelope beyond wellFormed.encodable

/-- The first byte 0xff is no type of transaction. A legacy list has it from 2^56 bytes on. -/
def Recognized (tx : TxData) : Envelope → Prop
  | .legacy gasPrice chainId =>
      (encodeItems (members tx (.legacy gasPrice chainId))).length < 256 ^ 7
  | .type1 _ _ _ => True
  | .type2 _ _ _ _ => True

theorem recognized_of_wellFormed (tx : TxData) (envelope : Envelope) (wellFormed : WellFormed tx envelope) :
    Recognized tx envelope := by
  cases envelope with
  | legacy gasPrice chainId =>
      obtain ⟨byte, first, high, bound, reserved⟩ := list_typeByte _ wellFormed.encodable.length
      have unreserved := wellFormed.reserved
      rw [Recognized, ← Nat.not_le, ← reserved]
      rintro rfl
      simp only [unsignedTx, typePrefix, List.nil_append] at unreserved
      cases encoded : (Item.list (members tx (.legacy gasPrice chainId))).encode with
      | nil =>
          rw [encoded] at first
          cases first
      | cons head rest =>
          rw [encoded] at first unreserved
          have head255 : head = 0xff := UInt8.toNat_inj.mp (Except.ok.inj first)
          exact unreserved (congrArg some head255)
  | type1 chainId gasPrice accessList => exact True.intro
  | type2 chainId maxPriorityFeePerGas maxFeePerGas accessList => exact True.intro

theorem isTransactionTypeValid_encodable (tx : TxData) (envelope : Envelope)
    (encodable : Encodable tx envelope) :
    ∃ valid, isTransactionTypeValid (unsignedTx tx envelope) = .ok valid ∧
      (valid = true ↔ Recognized tx envelope) := by
  cases envelope with
  | legacy gasPrice chainId =>
      obtain ⟨byte, first, high, bound, reserved⟩ := list_typeByte _ encodable.length
      have notType1 : byte ≠ 1 := by omega
      have notType2 : byte ≠ 2 := by omega
      refine ⟨decide (byte ≤ 0xfe), ?_, ?_⟩
      · simp [isTransactionTypeValid, isLegacyTransaction, isTransactionType1, isTransactionType2,
          unsignedTx, typePrefix, first, bind, Except.bind, high, notType1, notType2]
      · simp only [decide_eq_true_eq, Recognized]
        omega
  | type1 chainId gasPrice accessList => exact ⟨true, rfl, by simp [Recognized]⟩
  | type2 chainId maxPriorityFeePerGas maxFeePerGas accessList =>
      exact ⟨true, rfl, by simp [Recognized]⟩

/-- What is written is read, and its type is valid. No calldata has 2^56 bytes, from which on the first byte
of a legacy list would be the reserved one. -/
theorem canonical_encoding_decoded (tx : TxData) (envelope : Envelope) (beyond : Memory)
    (nonce : tx.nonce < 2 ^ 256) (gasLimit : tx.gasLimit < 2 ^ 256) (value : tx.value < 2 ^ 256)
    (short : (unsignedTx tx envelope).length < 2 ^ 56) :
    decodeTransaction (unsignedTx tx envelope) beyond = .ok (decoded tx) ∧
    isTransactionTypeValid (unsignedTx tx envelope) = .ok true := by
  have payload : (encodeItems (members tx envelope)).length < 256 ^ 7 := by
    have whole := contents_le_encode (.list (members tx envelope))
    simp only [contents] at whole
    simp only [unsignedTx, List.length_append] at short
    omega
  have encodable : Encodable tx envelope := ⟨nonce, gasLimit, value, by omega⟩
  obtain ⟨valid, judged, recognized⟩ := isTransactionTypeValid_encodable tx envelope encodable
  have known : Recognized tx envelope := by
    cases envelope with
    | legacy gasPrice chainId => exact payload
    | type1 chainId gasPrice accessList => exact True.intro
    | type2 chainId maxPriorityFeePerGas maxFeePerGas accessList => exact True.intro
  refine ⟨decodeTransaction_encodable tx envelope beyond encodable, ?_⟩
  rw [judged, recognized.mpr known]

def sampleCreation : TxData := ⟨3, 100000, none, 0, [0x60, 0x80]⟩

theorem canonical_encoding_decoded_creation :
    decodeTransaction (unsignedTx sampleCreation (.legacy 30 (some 1))) (fun _ => 0) =
      .ok ⟨3, 100000, 0, 0, [0x60, 0x80]⟩ ∧
    isTransactionTypeValid (unsignedTx sampleCreation (.legacy 30 (some 1))) = .ok true :=
  canonical_encoding_decoded sampleCreation (.legacy 30 (some 1)) (fun _ => 0) (by decide) (by decide) (by decide)
    (by decide +kernel)

theorem equal_not_penalized (crypto : Crypto) (first second : TxData) (envelope1 envelope2 : Envelope)
    (signature1 signature2 : Bytes) (signer : Address) (beyond : Memory)
    (wellFormed1 : WellFormed first envelope1) (wellFormed2 : WellFormed second envelope2)
    (same : decoded first = decoded second) (nonzero : signer ≠ 0)
    (recovered1 : crypto.recover (crypto.keccak256 (unsignedTx first envelope1)) signature1 = some signer)
    (recovered2 : crypto.recover (crypto.keccak256 (unsignedTx second envelope2)) signature2 = some signer) :
    repeatedNonceSigner crypto (unsignedTx first envelope1) signature1 (unsignedTx second envelope2)
      signature2 beyond = .error (.reason "tx is equal") := by
  have signer1 := (recoverSigner_ok crypto _ signature1 signer).mpr recovered1
  have signer2 := (recoverSigner_ok crypto _ signature2 signer).mpr recovered2
  have decoded1 := decodeTransaction_unsignedTx first envelope1 beyond wellFormed1
  have decoded2 := decodeTransaction_unsignedTx second envelope2 beyond wellFormed2
  rw [← same] at decoded2
  simp only [repeatedNonceSigner, signer1, signer2, decoded1, decoded2, bind, Except.bind, require,
    if_pos nonzero]
  simp

end OpenGsn.Penalizer
