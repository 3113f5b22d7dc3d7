import OpenGsn.Solidity.Calldata

/-! How a contract reads its call data, with the bounds checks of the ABI coder: the arguments of
a function, and the members of a struct that stays in the call data. -/

namespace OpenGsn.Solidity

/-- The word at an offset of the call data, with zeros behind its end. -/
def calldataload (data : Bytes) (offset : ℕ) : ℕ :=
  ofBigEndian ((data.drop offset ++ List.replicate 32 0).take 32)

/-- A word in two's complement, as `slt` and `sgt` compare it. -/
def signed (n : ℕ) : ℤ := if n < 2 ^ 255 then n else n - 2 ^ 256

theorem signed_small (n : ℕ) (small : n < 2 ^ 255) : signed n = n := if_pos small

/-- `sub` -/
def wrappingSub (a b : ℕ) : ℕ := (2 ^ 256 - b % 2 ^ 256 + a) % 2 ^ 256

theorem wrappingSub_le (a b : ℕ) (inside : b ≤ a) (word : a < 2 ^ 256) : wrappingSub a b = a - b := by
  rw [wrappingSub, Nat.mod_eq_of_lt (inside.trans_lt word)]
  omega

variable (data : Bytes)

def calldataUint256 (offset : ℕ) : Uint256 := Fin.ofNat (2 ^ 256) (calldataload data offset)

def calldataAddress (offset : ℕ) : Except Revert Address :=
  if calldataload data offset < 2 ^ 160 then .ok (Fin.ofNat (2 ^ 160) (calldataload data offset))
  else .error (.data [])

/-- The place of an argument whose offset is the word at `head` of the arguments at `base`. -/
def argumentOffset (base head : ℕ) : Except Revert ℕ :=
  if calldataload data (base + head) < 2 ^ 64 then .ok (base + calldataload data (base + head))
  else .error (.data [])

def argumentBytes (base head : ℕ) : Except Revert Bytes := do
  let place ← argumentOffset data base head
  let length := calldataload data place
  if data.length ≤ place + 31 ∨ 2 ^ 64 ≤ length ∨ data.length < place + 32 + length then
    .error (.data [])
  else
    .ok ((data.drop (place + 32)).take length)

/-- The place of a struct with heads of `width` bytes. -/
def argumentStruct (base head width : ℕ) : Except Revert ℕ := do
  let place ← argumentOffset data base head
  if data.length < place + width then .error (.data []) else .ok place

/-- The place of a dynamic member of the struct at `base`. The offset is compared with its sign
and added without a check. -/
def accessTail (base head needed : ℕ) : Except Revert ℕ :=
  let offset := calldataload data (base + head)
  if signed offset < signed (wrappingSub (wrappingSub data.length base) (needed - 1)) then
    .ok ((base + offset) % 2 ^ 256)
  else .error (.data [])

def accessBytes (base head : ℕ) : Except Revert Bytes := do
  let place ← accessTail data base head 32
  let length := calldataload data place
  let start := (place + 32) % 2 ^ 256
  if 2 ^ 64 ≤ length ∨ (data.length : ℤ) - length < signed start then .error (.data [])
  else .ok ((data.drop start).take length)

/-! The reader on what the encoder writes. -/

def Stands (offset : ℕ) (bytes : Bytes) : Prop := bytes <+: data.drop offset

theorem stands_append (offset : ℕ) (front back : Bytes) :
    Stands data offset (front ++ back) ↔ Stands data offset front ∧ Stands data (offset + front.length) back := by
  unfold Stands
  rw [← List.drop_drop]
  constructor
  · rintro ⟨rest, whole⟩
    rw [← whole, List.append_assoc]
    exact ⟨List.prefix_append _ _, by simp⟩
  · rintro ⟨⟨rest, first⟩, second⟩
    rw [← first, List.drop_left] at second
    rw [← first]
    exact List.prefix_append_right_inj front |>.mpr second

theorem stands_inside (offset : ℕ) (bytes : Bytes) (present : 0 < bytes.length)
    (stands : Stands data offset bytes) : offset + bytes.length ≤ data.length := by
  have length := stands.length_le
  rw [List.length_drop] at length
  omega

theorem calldataload_word (offset n : ℕ) (small : n < 2 ^ 256) (stands : Stands data offset (word n)) :
    calldataload data offset = n := by
  obtain ⟨rest, whole⟩ := stands
  have first : (data.drop offset ++ List.replicate 32 0).take 32 = word n := by
    rw [← whole, List.append_assoc]
    exact List.take_left' (word_length n)
  rw [calldataload, first, ofBigEndian_word n small]

theorem calldataUint256_word (offset : ℕ) (n : Uint256) (stands : Stands data offset (word n.val)) :
    calldataUint256 data offset = n := by
  rw [calldataUint256, calldataload_word data offset n.val n.isLt stands]
  exact Fin.ofNat_val_eq_self n

theorem calldataAddress_word (offset : ℕ) (account : Address)
    (stands : Stands data offset (word account.val)) : calldataAddress data offset = .ok account := by
  rw [calldataAddress, calldataload_word data offset account.val (address_lt_word account) stands,
    if_pos account.isLt]
  exact congrArg Except.ok (Fin.ofNat_val_eq_self account)

variable (small : data.length < 2 ^ 64)

include small

theorem argumentOffset_word (base head offset : ℕ) (inside : base + offset ≤ data.length)
    (stands : Stands data (base + head) (word offset)) :
    argumentOffset data base head = .ok (base + offset) := by
  rw [argumentOffset, calldataload_word data _ offset (by omega) stands, if_pos (by omega)]

/-- What stands in the data of a `bytes` member. -/
theorem bytesTail_stands (place : ℕ) (contents : Bytes) (stands : Stands data place (bytesTail contents)) :
    place + 32 + contents.length ≤ data.length ∧ calldataload data place = contents.length ∧
      (data.drop (place + 32)).take contents.length = contents := by
  have inside := stands_inside data place (bytesTail contents) (by simp) stands
  simp only [bytesTail, List.length_append, word_length, List.length_replicate] at inside
  rw [bytesTail, stands_append, stands_append, word_length] at stands
  refine ⟨by omega, calldataload_word data place _ (by omega) stands.1.1, ?_⟩
  exact (List.prefix_iff_eq_take.mp stands.1.2).symm

theorem argumentBytes_stands (base head offset place : ℕ) (contents : Bytes) (reached : base + offset = place)
    (pointer : Stands data (base + head) (word offset)) (stands : Stands data place (bytesTail contents)) :
    argumentBytes data base head = .ok contents := by
  subst reached
  have read := bytesTail_stands data small (base + offset) contents stands
  have place := argumentOffset_word data small base head offset (by omega) pointer
  simp only [argumentBytes, place, bind, Except.bind, read.2.1, read.2.2]
  exact if_neg (by omega)

theorem argumentStruct_stands (base head width offset place : ℕ) (encoding : Bytes)
    (wide : width ≤ encoding.length) (positive : 0 < width) (reached : base + offset = place)
    (pointer : Stands data (base + head) (word offset)) (stands : Stands data place encoding) :
    argumentStruct data base head width = .ok place := by
  subst reached
  have inside := stands_inside data _ encoding (by omega) stands
  have place := argumentOffset_word data small base head offset (by omega) pointer
  simp only [argumentStruct, place, bind, Except.bind]
  exact if_neg (by omega)

theorem accessTail_stands (base head needed offset place : ℕ) (encoding : Bytes)
    (wide : needed ≤ encoding.length) (positive : 0 < needed) (reached : base + offset = place)
    (pointer : Stands data (base + head) (word offset)) (stands : Stands data place encoding) :
    accessTail data base head needed = .ok place := by
  subst reached
  have inside := stands_inside data _ encoding (by omega) stands
  have plain := signed_small offset (by omega)
  have behind : wrappingSub data.length base = data.length - base := wrappingSub_le _ _ (by omega) (by omega)
  have room : wrappingSub (data.length - base) (needed - 1) = data.length - base - (needed - 1) :=
    wrappingSub_le _ _ (by omega) (by omega)
  have positive := signed_small (data.length - base - (needed - 1)) (by omega)
  have enough : (offset : ℤ) < (data.length - base - (needed - 1) : ℕ) := by omega
  simp only [accessTail, calldataload_word data _ offset (by omega) pointer, plain, behind, room, positive]
  rw [if_pos enough, Nat.mod_eq_of_lt (by omega)]

theorem accessBytes_stands (base head offset place : ℕ) (contents : Bytes) (reached : base + offset = place)
    (pointer : Stands data (base + head) (word offset)) (stands : Stands data place (bytesTail contents)) :
    accessBytes data base head = .ok contents := by
  subst reached
  have read := bytesTail_stands data small (base + offset) contents stands
  have place := accessTail_stands data small base head 32 offset _ (bytesTail contents) (by simp)
    (by omega) rfl pointer stands
  have start : (base + offset + 32) % 2 ^ 256 = base + offset + 32 := Nat.mod_eq_of_lt (by omega)
  have plain : signed (base + offset + 32) = (base + offset + 32 : ℕ) := if_pos (by omega)
  simp only [accessBytes, place, bind, Except.bind, start, plain, read.2.1, read.2.2]
  exact if_neg (by omega)

end OpenGsn.Solidity
