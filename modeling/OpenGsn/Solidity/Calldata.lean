import OpenGsn.Solidity.Abi

/-! Encoded arguments, in heads and tails, and what their bytes weigh. -/

namespace OpenGsn.Solidity

inductive Part : Type
  | static (word : Bytes)
  | dynamic (tail : Bytes)

namespace Part

def headLength : Part → ℕ
  | .static word => word.length
  | .dynamic _ => 32

def tail : Part → Bytes
  | .static _ => []
  | .dynamic tail => tail

end Part

/-- The heads; the tail of the next dynamic part will stand at `offset`. -/
def encodeHeads : ℕ → List Part → Bytes
  | _, [] => []
  | offset, .static word :: rest => word ++ encodeHeads offset rest
  | offset, .dynamic tail :: rest => word offset ++ encodeHeads (offset + tail.length) rest

def encodeTuple (parts : List Part) : Bytes :=
  encodeHeads (parts.map Part.headLength).sum parts ++ (parts.map Part.tail).flatten

/-! The weight of bytes: one for a zero byte, four for any other. -/

def zeroBytes (bytes : Bytes) : ℕ := bytes.countP (· = 0)

def nonzeroBytes (bytes : Bytes) : ℕ := bytes.countP (· ≠ 0)

def weight (bytes : Bytes) : ℕ := zeroBytes bytes + 4 * nonzeroBytes bytes

@[simp] theorem nonzeroBytes_append (front back : Bytes) :
    nonzeroBytes (front ++ back) = nonzeroBytes front + nonzeroBytes back := List.countP_append

@[simp] theorem weight_nil : weight [] = 0 := rfl

@[simp] theorem weight_append (front back : Bytes) : weight (front ++ back) = weight front + weight back := by
  simp only [weight, zeroBytes, nonzeroBytes, List.countP_append]
  ring

theorem weight_eq (bytes : Bytes) : weight bytes = bytes.length + 3 * nonzeroBytes bytes := by
  have whole := List.length_eq_countP_add_countP (fun byte : UInt8 => decide (byte = 0)) (l := bytes)
  have rest : bytes.countP (fun byte => decide (¬ decide (byte = 0) = true)) = nonzeroBytes bytes := by
    simp [nonzeroBytes]
  rw [rest] at whole
  rw [weight, zeroBytes]
  omega

theorem length_le_weight (bytes : Bytes) : bytes.length ≤ weight bytes := by
  rw [weight_eq]
  exact Nat.le_add_right _ _

theorem weight_le (bytes : Bytes) : weight bytes ≤ 4 * bytes.length := by
  have counted : nonzeroBytes bytes ≤ bytes.length := List.countP_le_length
  rw [weight_eq]
  omega

@[simp] theorem weight_replicate_zero (count : ℕ) : weight (List.replicate count 0) = count := by
  simp [weight, zeroBytes, nonzeroBytes, List.countP_replicate]

theorem weight_replicate_nonzero (count : ℕ) (byte : UInt8) (nonzero : byte ≠ 0) :
    weight (List.replicate count byte) = 4 * count := by
  simp [weight, zeroBytes, nonzeroBytes, List.countP_replicate, nonzero]

theorem nonzeroBytes_bigEndian_le (width n bytes : ℕ) (small : n < 256 ^ bytes) :
    nonzeroBytes (bigEndian width n) ≤ bytes := by
  induction width generalizing n bytes with
  | zero => exact Nat.zero_le bytes
  | succ width ih =>
      cases bytes with
      | zero =>
          obtain rfl : n = 0 := by simpa using small
          have front := ih 0 0 (by decide)
          simpa [bigEndian, nonzeroBytes] using front
      | succ bytes =>
          have front := ih (n / 256) bytes (by rw [pow_succ] at small; omega)
          have last : nonzeroBytes [UInt8.ofNat n] ≤ 1 := List.countP_le_length
          rw [bigEndian, nonzeroBytes_append]
          omega

theorem nonzeroBytes_bigEndian_pos (width n : ℕ) (positive : 0 < n) (small : n < 256 ^ width) :
    0 < nonzeroBytes (bigEndian width n) := by
  induction width generalizing n with
  | zero => simp at small; omega
  | succ width ih =>
      rw [bigEndian, nonzeroBytes_append]
      by_cases high : 0 < n / 256
      · have front := ih (n / 256) high (by rw [pow_succ] at small; omega)
        omega
      · have digit : (UInt8.ofNat n).toNat = n % 256 := UInt8.toNat_ofNat'
        have nonzero : UInt8.ofNat n ≠ 0 := by
          intro zero
          rw [zero] at digit
          have : (0 : UInt8).toNat = 0 := rfl
          omega
        simp [nonzeroBytes, nonzero]

theorem weight_word_le (n bytes : ℕ) (small : n < 256 ^ bytes) : weight (word n) ≤ 32 + 3 * bytes := by
  have counted := nonzeroBytes_bigEndian_le 32 n bytes small
  rw [weight_eq, word_length]
  simp only [word]
  omega

theorem weight_word_pos (n : ℕ) (positive : 0 < n) (small : n < 256 ^ 32) : 35 ≤ weight (word n) := by
  have counted := nonzeroBytes_bigEndian_pos 32 n positive small
  rw [weight_eq, word_length]
  simp only [word]
  omega

/-- The length of a `bytes` member with its padding, without the word in front. -/
def padded (length : ℕ) : ℕ := length + padding length

@[simp] theorem bytesTail_length (contents : Bytes) :
    (bytesTail contents).length = 32 + padded contents.length := by
  simp [bytesTail, padded]

theorem weight_bytesTail (contents : Bytes) :
    weight (bytesTail contents) = weight (word contents.length) + weight contents + padding contents.length := by
  simp [bytesTail, Nat.add_assoc]

theorem padded_mono (short long : ℕ) (shorter : short ≤ long) : padded short ≤ padded long := by
  simp only [padded, padding]
  omega

theorem padded_aligned (length : ℕ) : 32 ∣ padded length := by
  simp only [padded, padding]
  omega

/-- The length words of at most 65536 bytes: a shorter one has at most one more byte that is
not zero. -/
theorem weight_length_word (short long : ℕ) (shorter : short < long) (bounded : long ≤ 65536) :
    weight (word short) ≤ weight (word long) + 3 := by
  have longer := weight_word_pos long (by omega) (by norm_num; omega)
  have less := weight_word_le short 2 (by norm_num; omega)
  omega

/-- Full bytes up to the limit weigh more than any fewer bytes, by at least the room saved. -/
theorem weight_bytesTail_le (contents : Bytes) (limit : ℕ) (byte : UInt8) (nonzero : byte ≠ 0)
    (inside : contents.length ≤ limit) (bounded : limit ≤ 65536) :
    weight (bytesTail contents) + (padded limit - padded contents.length) ≤
      weight (bytesTail (List.replicate limit byte)) := by
  have light := weight_le contents
  have grown := padded_mono _ _ inside
  have whole : padded limit = limit + padding limit := rfl
  have part : padded contents.length = contents.length + padding contents.length := rfl
  rw [weight_bytesTail, weight_bytesTail, weight_replicate_nonzero limit byte nonzero,
    List.length_replicate]
  rcases Nat.lt_or_eq_of_le inside with shorter | same
  · have words := weight_length_word contents.length limit shorter bounded
    omega
  · rw [same] at light part ⊢
    omega

end OpenGsn.Solidity
