import OpenGsn.Solidity.Abi
import Mathlib.Data.Nat.Log
import Mathlib.Algebra.Order.Ring.Nat

/-! The recursive length prefix encoding. -/

namespace OpenGsn.Rlp

open Solidity

inductive Item : Type
  | str (bytes : Bytes)
  | list (items : List Item)

/-- The number of bytes of a number without leading zeros. -/
def byteCount (n : ℕ) : ℕ := if n = 0 then 0 else Nat.log2 n / 8 + 1

def natBytes (n : ℕ) : Bytes := bigEndian (byteCount n) n

def header (short long length : ℕ) : Bytes :=
  if length < 56 then [UInt8.ofNat (short + length)]
  else UInt8.ofNat (long + byteCount length) :: natBytes length

def encodeString (bytes : Bytes) : Bytes :=
  if bytes.length = 1 ∧ bytes.all fun byte => byte.toNat < 0x80 then bytes
  else header 0x80 0xb7 bytes.length ++ bytes

def encodeList (payload : Bytes) : Bytes := header 0xc0 0xf7 payload.length ++ payload

mutual
def Item.encode : Item → Bytes
  | .str bytes => encodeString bytes
  | .list items => encodeList (encodeItems items)
def encodeItems : List Item → Bytes
  | [] => []
  | item :: rest => item.encode ++ encodeItems rest
end

def scalar (n : ℕ) : Item := .str (natBytes n)

theorem lt_byteCount (n : ℕ) : n < 256 ^ byteCount n := by
  unfold byteCount
  split
  · subst n
    decide
  · calc n < 2 ^ (Nat.log2 n + 1) := Nat.lt_log2_self
      _ ≤ 2 ^ (8 * (Nat.log2 n / 8 + 1)) := Nat.pow_le_pow_right (by decide) (by omega)
      _ = 256 ^ (Nat.log2 n / 8 + 1) := Nat.pow_mul 2 8 _

theorem byteCount_le (n width : ℕ) (small : n < 256 ^ width) : byteCount n ≤ width := by
  unfold byteCount
  split
  · exact Nat.zero_le width
  · rename_i positive
    have bits : Nat.log2 n < 8 * width := by
      rw [Nat.log2_lt positive, Nat.pow_mul]
      exact small
    omega

theorem byteCount_le_iff (n width : ℕ) : byteCount n ≤ width ↔ n < 256 ^ width := by
  constructor
  · intro narrow
    calc n < 256 ^ byteCount n := lt_byteCount n
      _ ≤ 256 ^ width := Nat.pow_le_pow_right (by decide) narrow
  · exact byteCount_le n width

theorem byteCount_mono (short long : ℕ) (shorter : short ≤ long) : byteCount short ≤ byteCount long :=
  byteCount_le short _ (shorter.trans_lt (lt_byteCount long))

@[simp] theorem natBytes_length (n : ℕ) : (natBytes n).length = byteCount n := bigEndian_length _ _

theorem ofBigEndian_natBytes (n : ℕ) : ofBigEndian (natBytes n) = n := by
  rw [natBytes, ofBigEndian_bigEndian, Nat.mod_eq_of_lt (lt_byteCount n)]

theorem encode_nonempty (item : Item) : 0 < item.encode.length := by
  have headed : ∀ short long length, 0 < (header short long length).length := by
    intro short long length
    unfold header
    split <;> simp
  cases item with
  | str bytes =>
      rw [Item.encode, encodeString]
      split
      · omega
      · rw [List.length_append]
        exact Nat.add_pos_left (headed _ _ _) _
  | list items =>
      rw [Item.encode, encodeList, List.length_append]
      exact Nat.add_pos_left (headed _ _ _) _

theorem length_encodeItems (items : List Item) :
    items.length ≤ (encodeItems items).length := by
  induction items with
  | nil => exact Nat.zero_le _
  | cons item rest ih =>
      have first := encode_nonempty item
      rw [encodeItems, List.length_append, List.length_cons]
      omega

theorem encode_le_encodeItems (items : List Item) (item : Item) (member : item ∈ items) :
    item.encode.length ≤ (encodeItems items).length := by
  induction items with
  | nil => exact absurd member List.not_mem_nil
  | cons first rest ih =>
      rw [encodeItems, List.length_append]
      rcases List.mem_cons.mp member with rfl | later
      · omega
      · have inside := ih later
        omega

/-! What the encodings determine -/

theorem header_length_mono (short long small large : ℕ) (smaller : small ≤ large) :
    (header short long small).length ≤ (header short long large).length := by
  have digits := byteCount_mono small large smaller
  unfold header
  split <;> split <;> simp <;> omega

/-- The encoding grows with the contents, so that its length determines the header. -/
theorem headed_injective (short long : ℕ) (contents other : Bytes)
    (same : header short long contents.length ++ contents = header short long other.length ++ other) :
    contents = other := by
  have lengths := congrArg List.length same
  rw [List.length_append, List.length_append] at lengths
  have length : contents.length = other.length := by
    rcases Nat.le_total contents.length other.length with shorter | longer
    · have grown := header_length_mono short long _ _ shorter
      omega
    · have grown := header_length_mono short long _ _ longer
      omega
  rw [length] at same
  exact List.append_cancel_left same

theorem encodeList_injective (payload other : Bytes) (same : encodeList payload = encodeList other) :
    payload = other :=
  headed_injective 0xc0 0xf7 payload other same

theorem header_string_head (bytes rest : Bytes) :
    ∃ byte tail, header 0x80 0xb7 bytes.length ++ rest = byte :: tail ∧
      (bytes.length < 56 → 0x80 ≤ byte.toNat) := by
  unfold header
  split
  · rename_i few
    refine ⟨_, _, rfl, fun _ => ?_⟩
    rw [UInt8.toNat_ofNat', Nat.mod_eq_of_lt (by omega)]
    omega
  · rename_i many
    exact ⟨_, _, rfl, fun few => absurd few many⟩

theorem headed_ne_low (bytes low : Bytes)
    (single : low.length = 1 ∧ low.all fun byte => byte.toNat < 0x80) :
    header 0x80 0xb7 bytes.length ++ bytes ≠ low := by
  intro same
  obtain ⟨byte, tail, headed, high⟩ := header_string_head bytes bytes
  have alone : tail = [] := by
    have length := congrArg List.length (headed.symm.trans same)
    rw [single.1, List.length_cons] at length
    exact List.eq_nil_of_length_eq_zero (by omega)
  have few : bytes.length < 56 := by
    have length := congrArg List.length same
    rw [List.length_append, single.1] at length
    omega
  have below : byte.toNat < 0x80 := by
    have all := single.2
    rw [← same, headed, alone] at all
    simpa using all
  have above := high few
  omega

theorem encodeString_injective (bytes other : Bytes) (same : encodeString bytes = encodeString other) :
    bytes = other := by
  unfold encodeString at same
  split at same <;> split at same
  · exact same
  · rename_i single _
    exact absurd same.symm (headed_ne_low other bytes single)
  · rename_i _ single
    exact absurd same (headed_ne_low bytes other single)
  · exact headed_injective 0x80 0xb7 bytes other same

theorem encodeItems_append (front back : List Item) :
    encodeItems (front ++ back) = encodeItems front ++ encodeItems back := by
  induction front with
  | nil => rfl
  | cons item rest ih => rw [List.cons_append, encodeItems, encodeItems, ih, List.append_assoc]

theorem encodeItems_eq_nil (items : List Item) (empty : encodeItems items = []) : items = [] := by
  have counted := length_encodeItems items
  rw [empty] at counted
  exact List.eq_nil_of_length_eq_zero (Nat.le_zero.mp counted)

example : (Item.list [scalar 1024, .str [0x7f], .list []]).encode =
    [0xc5, 0x82, 0x04, 0x00, 0x7f, 0xc0] := by decide

end OpenGsn.Rlp
