import OpenGsn.Penalizer.RLPReader

/-! What `copy` leaves at its destination, byte by byte. -/

namespace OpenGsn.Penalizer

open Solidity

variable (mem : Memory)

@[simp] theorem readBytes_length (ptr len : ℕ) : (readBytes mem ptr len).length = len := by
  simp [readBytes]

theorem readBytes_add (ptr front back : ℕ) :
    readBytes mem ptr (front + back) = readBytes mem ptr front ++ readBytes mem (ptr + front) back := by
  simp only [readBytes, List.range_add, List.map_append, List.map_map]
  congr 2
  funext i
  simp [Nat.add_assoc]

theorem readBytes_congr (later : Memory) (ptr place len : ℕ)
    (same : ∀ i < len, later (place + i) = mem (ptr + i)) : readBytes later place len = readBytes mem ptr len := by
  apply List.map_congr_left
  intro i member
  exact same i (List.mem_range.mp member)

theorem mload_front (ptr len : ℕ) (short : len ≤ 32) :
    mload mem ptr / 256 ^ (32 - len) = ofBigEndian (readBytes mem ptr len) := by
  have split : readBytes mem ptr 32 = readBytes mem ptr len ++ readBytes mem (ptr + len) (32 - len) := by
    rw [← readBytes_add, Nat.add_sub_cancel' short]
  have low := ofBigEndian_lt (readBytes mem (ptr + len) (32 - len))
  rw [readBytes_length] at low
  rw [mload, split, ofBigEndian_append, readBytes_length, Nat.mul_comm, Nat.mul_add_div (by positivity),
    Nat.div_eq_of_lt low, Nat.add_zero]

theorem mload_lt (ptr : ℕ) : mload mem ptr < 2 ^ 256 := by
  have small := ofBigEndian_lt (readBytes mem ptr 32)
  rw [readBytes_length] at small
  exact small

theorem mload_byte (ptr i : ℕ) (inside : i < 32) :
    UInt8.ofNat (mload mem ptr / 256 ^ (31 - i)) = mem (ptr + i) := by
  have front := mload_front mem ptr (i + 1) inside
  have last : readBytes mem ptr (i + 1) = readBytes mem ptr i ++ [mem (ptr + i)] := by
    rw [readBytes_add]
    rfl
  rw [last, ofBigEndian_concat, show 32 - (i + 1) = 31 - i by omega] at front
  rw [front]
  apply UInt8.toNat_inj.mp
  simp

theorem mstore_inside (ptr value i : ℕ) (inside : i < 32) :
    mstore mem ptr value (ptr + i) = UInt8.ofNat (value / 256 ^ (31 - i)) := by
  rw [mstore, if_pos (by omega), Nat.add_sub_cancel_left]

theorem mstore_outside (ptr value i : ℕ) (outside : i < ptr ∨ ptr + 32 ≤ i) : mstore mem ptr value i = mem i := by
  rw [mstore, if_neg (by omega)]

theorem masked_front (source target low shift : ℕ) (word : source < 2 ^ 256) (covered : low ≤ shift)
    (small : shift ≤ 256) :
    ((target &&& (2 ^ low - 1)) ||| (source &&& (2 ^ 256 - 1 - (2 ^ low - 1)))) / 2 ^ shift =
      source / 2 ^ shift := by
  have target0 : (target % 2 ^ low) >>> shift = 0 := by
    rw [Nat.shiftRight_eq_div_pow]
    exact Nat.div_eq_of_lt ((Nat.mod_lt _ (Nat.two_pow_pos low)).trans_le (Nat.pow_le_pow_right (by decide) covered))
  have complement : (2 ^ 256 - 1 - (2 ^ low - 1)) >>> shift = 2 ^ (256 - shift) - 1 := by
    have positive := Nat.two_pow_pos low
    have lower : 2 ^ low ≤ 2 ^ shift := Nat.pow_le_pow_right (by decide) covered
    have front := Nat.two_pow_pos (256 - shift)
    have whole : 2 ^ (256 - shift) * 2 ^ shift = 2 ^ 256 := by rw [← pow_add, Nat.sub_add_cancel small]
    rw [Nat.shiftRight_eq_div_pow]
    apply Nat.div_eq_of_lt_le
    · rw [Nat.sub_mul, whole, Nat.one_mul]
      omega
    · rw [Nat.sub_add_cancel front, whole]
      omega
  have sourceLt : source >>> shift < 2 ^ (256 - shift) := by
    rw [Nat.shiftRight_eq_div_pow]
    apply Nat.div_lt_of_lt_mul
    rwa [← pow_add, Nat.add_sub_cancel' small]
  rw [Nat.and_two_pow_sub_one_eq_mod, ← Nat.shiftRight_eq_div_pow, Nat.shiftRight_or_distrib, target0, Nat.zero_or,
    Nat.shiftRight_and_distrib, complement, Nat.and_two_pow_sub_one_eq_mod, Nat.mod_eq_of_lt sourceLt,
    Nat.shiftRight_eq_div_pow]

/-- The left over bytes are copied; the unwanted ones of the word stay as they were. -/
theorem copyRest_inside (src dest len i : ℕ) (short : len < 32) (inside : i < len) :
    copyRest mem src dest len (dest + i) = mem (src + i) := by
  have power : ∀ n : ℕ, 256 ^ n = 2 ^ (8 * n) := fun n => by rw [Nat.pow_mul]
  rw [copyRest, mstore_inside _ _ _ _ (by omega), ← mload_byte mem src i (by omega)]
  simp only [power]
  rw [masked_front _ _ _ _ (mload_lt mem src) (by omega) (by omega)]

theorem copyRest_outside (src dest len i : ℕ) (outside : i < dest) : copyRest mem src dest len i = mem i :=
  mstore_outside mem dest _ i (.inl outside)

theorem copyLoop_outside (fuel src dest len i : ℕ) (outside : i < dest) :
    copyLoop fuel mem src dest len i = mem i := by
  induction fuel generalizing mem src dest len with
  | zero => rfl
  | succ fuel ih =>
      rw [copyLoop]
      split
      · rw [ih _ _ _ _ (by omega), mstore_outside _ _ _ _ (.inl outside)]
      · split
        · exact copyRest_outside mem src dest len i outside
        · rfl

/-- Every round copies a word; what it writes is behind all that is still read. -/
theorem copyLoop_inside (fuel src dest len i : ℕ) (enough : len < 32 * fuel) (apart : src + len ≤ dest)
    (inside : i < len) : copyLoop fuel mem src dest len (dest + i) = mem (src + i) := by
  induction fuel generalizing mem src dest len i with
  | zero => omega
  | succ fuel ih =>
      rw [copyLoop]
      by_cases word : 32 ≤ len
      · rw [if_pos word]
        by_cases first : i < 32
        · rw [copyLoop_outside _ _ _ _ _ _ (by omega), mstore_inside _ _ _ _ first, mload_byte _ _ _ first]
        · have rest := ih (mstore mem dest (mload mem src)) (src + 32) (dest + 32) (len - 32) (i - 32) (by omega)
            (by omega) (by omega)
          rw [show dest + 32 + (i - 32) = dest + i by omega, show src + 32 + (i - 32) = src + i by omega] at rest
          rw [rest, mstore_outside _ _ _ _ (.inl (by omega))]
      · rw [if_neg word, if_pos (by omega)]
        exact copyRest_inside mem src dest len i (by omega) inside

theorem copy_read (src dest len : ℕ) (apart : src + len ≤ dest) :
    readBytes (copy mem src dest len) dest len = readBytes mem src len := by
  apply readBytes_congr
  intro i inside
  rw [copy, if_neg (by omega)]
  exact copyLoop_inside mem _ src dest len i (by omega) apart inside

theorem newBytes_outside (ptr len i : ℕ) (outside : i < ptr) : newBytes mem ptr len i = mem i := by
  rw [newBytes, if_neg (by omega), mstore_outside _ _ _ _ (.inl outside)]

theorem toBytesAt_eq (free : ℕ) (item : RLPItem) (behind : item.memPtr + item.len ≤ free) :
    toBytesAt mem free item =
      (checkedSub item.len (payloadOffset mem item.memPtr)).map
        (readBytes mem (item.memPtr + payloadOffset mem item.memPtr)) := by
  rw [toBytesAt]
  cases counted : checkedSub item.len (payloadOffset mem item.memPtr) with
  | error reason => rfl
  | ok len =>
      obtain ⟨enough, rfl⟩ := (checkedSub_ok _ _ _).mp counted
      have copied := copy_read (newBytes mem free (item.len - payloadOffset mem item.memPtr))
        (item.memPtr + payloadOffset mem item.memPtr) (free + 32) (item.len - payloadOffset mem item.memPtr)
        (by omega)
      have untouched := readBytes_congr mem (newBytes mem free (item.len - payloadOffset mem item.memPtr))
        (item.memPtr + payloadOffset mem item.memPtr) (item.memPtr + payloadOffset mem item.memPtr)
        (item.len - payloadOffset mem item.memPtr) fun i inside => newBytes_outside mem free _ _ (by omega)
      exact congrArg Except.ok (copied.trans untouched)

end OpenGsn.Penalizer
