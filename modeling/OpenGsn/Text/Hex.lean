import OpenGsn.Solidity.Base
import Mathlib.Data.List.Basic

/-! Bytes as hexadecimal text. -/

namespace OpenGsn.Text

open Solidity

def hexAlphabet : List Char := ['0', '1', '2', '3', '4', '5', '6', '7', '8', '9', 'a', 'b', 'c', 'd', 'e', 'f']

def hexChar (digit : ℕ) : Char := hexAlphabet.getD digit '0'

def hexValue (digit : Char) : Option ℕ := hexAlphabet.idxOf? digit.toLower

def toHex (bytes : Bytes) : List Char :=
  bytes.flatMap fun byte => [hexChar (byte.toNat / 16), hexChar (byte.toNat % 16)]

/-- The bytes up to the first pair that is not of two digits. -/
def fromHex : List Char → Bytes
  | first :: second :: rest =>
      match hexValue first, hexValue second with
      | some high, some low => UInt8.ofNat (high * 16 + low) :: fromHex rest
      | _, _ => []
  | _ => []

/-- `text.padEnd(length, '0')` -/
def padZeros (length : ℕ) (text : List Char) : List Char :=
  text ++ List.replicate (length - text.length) '0'

/-- `.replace(/0x/g, '')` -/
def removePrefixes : List Char → List Char
  | '0' :: 'x' :: rest => removePrefixes rest
  | first :: rest => first :: removePrefixes rest
  | [] => []

/-- `.replace(/(00)+$/g, '')`: the first place from where on all is pairs of zeros -/
def stripZeroPairs : List Char → List Char
  | [] => []
  | first :: rest =>
      if (first :: rest).all (· = '0') ∧ (first :: rest).length % 2 = 0 then []
      else first :: stripZeroPairs rest

def stripZeros : Bytes → Bytes
  | [] => []
  | byte :: rest => if (byte :: rest).all (· = 0) then [] else byte :: stripZeros rest

theorem hexValue_hexChar (digit : ℕ) (small : digit < 16) : hexValue (hexChar digit) = some digit := by
  have each : ∀ digit < 16, hexValue (hexChar digit) = some digit := by decide
  exact each digit small

theorem hexChar_zero_iff (digit : ℕ) (small : digit < 16) : hexChar digit = '0' ↔ digit = 0 := by
  have each : ∀ digit < 16, hexChar digit = '0' ↔ digit = 0 := by decide
  exact each digit small

theorem hexChar_ne_x (digit : ℕ) (small : digit < 16) : hexChar digit ≠ 'x' := by
  have each : ∀ digit < 16, hexChar digit ≠ 'x' := by decide
  exact each digit small

theorem toHex_cons (byte : UInt8) (rest : Bytes) :
    toHex (byte :: rest) = hexChar (byte.toNat / 16) :: hexChar (byte.toNat % 16) :: toHex rest := rfl

theorem toHex_append (front back : Bytes) : toHex (front ++ back) = toHex front ++ toHex back :=
  List.flatMap_append

theorem toHex_length (bytes : Bytes) : (toHex bytes).length = 2 * bytes.length := by
  induction bytes with
  | nil => rfl
  | cons byte rest ih =>
      rw [toHex_cons, List.length_cons, List.length_cons, ih, List.length_cons]
      omega

theorem toHex_zeros (count : ℕ) : toHex (List.replicate count 0) = List.replicate (2 * count) '0' := by
  induction count with
  | zero => rfl
  | succ count ih =>
      rw [List.replicate_succ, toHex_cons, ih]
      rfl

theorem digits_small (byte : UInt8) : byte.toNat / 16 < 16 ∧ byte.toNat % 16 < 16 := by
  have bound := byte.toNat_lt
  omega

theorem toHex_no_x (bytes : Bytes) : 'x' ∉ toHex bytes := by
  induction bytes with
  | nil => exact List.not_mem_nil
  | cons byte rest ih =>
      have small := digits_small byte
      rw [toHex_cons]
      simp only [List.mem_cons, not_or]
      exact ⟨(hexChar_ne_x _ small.1).symm, (hexChar_ne_x _ small.2).symm, ih⟩

theorem fromHex_toHex (bytes : Bytes) : fromHex (toHex bytes) = bytes := by
  induction bytes with
  | nil => rfl
  | cons byte rest ih =>
      have small := digits_small byte
      have whole : byte.toNat / 16 * 16 + byte.toNat % 16 = byte.toNat := Nat.div_add_mod' byte.toNat 16
      rw [toHex_cons, fromHex, hexValue_hexChar _ small.1, hexValue_hexChar _ small.2]
      dsimp only
      rw [ih, whole, UInt8.ofNat_toNat]

theorem padZeros_toHex (bytes : Bytes) (width : ℕ) :
    padZeros (2 * width) (toHex bytes) = toHex (bytes ++ List.replicate (width - bytes.length) 0) := by
  rw [padZeros, toHex_append, toHex_zeros, toHex_length, Nat.mul_sub]

theorem removePrefixes_plain (text rest : List Char) (plain : 'x' ∉ text) :
    removePrefixes (text ++ '0' :: 'x' :: rest) = text ++ removePrefixes rest := by
  induction text with
  | nil => rfl
  | cons first later ih =>
      have others : 'x' ∉ later := fun found => plain (List.mem_cons_of_mem _ found)
      have next : ∀ tail, later ++ '0' :: 'x' :: rest ≠ 'x' :: tail := by
        intro tail same
        cases later with
        | nil => cases same
        | cons second _ =>
            cases same
            exact others List.mem_cons_self
      rw [List.cons_append, removePrefixes, ih others, List.cons_append]
      exact fun tail _ same => next tail same

theorem removePrefixes_end (text : List Char) (plain : 'x' ∉ text) : removePrefixes text = text := by
  induction text with
  | nil => rfl
  | cons first later ih =>
      have others : 'x' ∉ later := fun found => plain (List.mem_cons_of_mem _ found)
      rw [removePrefixes, ih others]
      intro tail _ same
      rw [same] at others
      exact others List.mem_cons_self

theorem toHex_all_zero (bytes : Bytes) :
    (toHex bytes).all (· = '0') = true ↔ bytes.all (· = 0) = true := by
  induction bytes with
  | nil => exact Iff.rfl
  | cons byte rest ih =>
      have small := digits_small byte
      have whole : byte = 0 ↔ byte.toNat / 16 = 0 ∧ byte.toNat % 16 = 0 := by
        rw [← UInt8.toNat_inj]
        simp only [UInt8.toNat_zero]
        omega
      simp only [toHex_cons, List.all_cons, Bool.and_eq_true, decide_eq_true_eq, ih]
      rw [hexChar_zero_iff _ small.1, hexChar_zero_iff _ small.2, whole, and_assoc]

theorem stripZeroPairs_toHex (bytes : Bytes) : stripZeroPairs (toHex bytes) = toHex (stripZeros bytes) := by
  induction bytes with
  | nil => rfl
  | cons byte rest ih =>
      have length := toHex_length rest
      by_cases zero : (byte :: rest).all (· = 0) = true
      · have digits := (toHex_all_zero (byte :: rest)).mpr zero
        rw [toHex_cons] at digits
        rw [toHex_cons, stripZeroPairs, if_pos ⟨digits, by simp only [List.length_cons]; omega⟩, stripZeros,
          if_pos zero]
        rfl
      · have digits := mt (toHex_all_zero (byte :: rest)).mp zero
        rw [toHex_cons] at digits
        rw [toHex_cons, stripZeroPairs, if_neg (fun both => digits both.1), stripZeroPairs,
          if_neg (fun both => by simp only [List.length_cons] at both; omega), ih, stripZeros, if_neg zero,
          toHex_cons]

theorem stripZeros_spec (bytes : Bytes) : ∃ count, bytes = stripZeros bytes ++ List.replicate count 0 := by
  induction bytes with
  | nil => exact ⟨0, rfl⟩
  | cons byte rest ih =>
      rw [stripZeros]
      split
      · rename_i zero
        refine ⟨(byte :: rest).length, ?_⟩
        rw [List.nil_append]
        refine List.eq_replicate_iff.mpr ⟨rfl, fun other known => ?_⟩
        exact of_decide_eq_true (List.all_eq_true.mp zero other known)
      · obtain ⟨count, whole⟩ := ih
        exact ⟨count, congrArg (byte :: ·) whole⟩

theorem stripZeros_last (bytes front : Bytes) : stripZeros bytes ≠ front ++ [0] := by
  induction bytes generalizing front with
  | nil => exact fun same => by simp [stripZeros] at same
  | cons byte rest ih =>
      rw [stripZeros]
      split
      · exact fun same => by simp at same
      · rename_i some
        intro same
        cases front with
        | nil =>
            obtain ⟨rfl, none⟩ := List.cons.inj same
            obtain ⟨count, whole⟩ := stripZeros_spec rest
            rw [none, List.nil_append] at whole
            rw [whole] at some
            exact some (by simp)
        | cons first later => exact ih later (List.cons.inj same).2

end OpenGsn.Text
