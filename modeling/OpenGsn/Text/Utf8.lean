import OpenGsn.Solidity.Base
import Mathlib.Data.List.Basic
import Mathlib.Data.List.Induction

/-! Strings of UTF-16 code units, their UTF-8 bytes, and the decoder, which replaces what is
malformed. -/

namespace OpenGsn.Text

open Solidity

abbrev CodeUnit := Fin (2 ^ 16)

abbrev JsString := List CodeUnit

def replacement : ℕ := 0xFFFD

def IsHigh (unit : CodeUnit) : Prop := 0xD800 ≤ unit.val ∧ unit.val < 0xDC00

def IsLow (unit : CodeUnit) : Prop := 0xDC00 ≤ unit.val ∧ unit.val < 0xE000

instance (unit : CodeUnit) : Decidable (IsHigh unit) := inferInstanceAs (Decidable (_ ∧ _))

instance (unit : CodeUnit) : Decidable (IsLow unit) := inferInstanceAs (Decidable (_ ∧ _))

def pairCode (high low : CodeUnit) : ℕ := 0x10000 + (high.val - 0xD800) * 1024 + (low.val - 0xDC00)

/-- A surrogate without its partner is replaced. -/
def singleCode (unit : CodeUnit) : ℕ := if IsHigh unit ∨ IsLow unit then replacement else unit.val

def codePoints : JsString → List ℕ
  | [] => []
  | [unit] => [singleCode unit]
  | unit :: next :: rest =>
      if IsHigh unit ∧ IsLow next then pairCode unit next :: codePoints rest
      else singleCode unit :: codePoints (next :: rest)

def encodeCode (code : ℕ) : Bytes :=
  if code < 0x80 then [UInt8.ofNat code]
  else if code < 0x800 then [UInt8.ofNat (0xC0 + code / 64), UInt8.ofNat (0x80 + code % 64)]
  else if code < 0x10000 then
    [UInt8.ofNat (0xE0 + code / 4096), UInt8.ofNat (0x80 + code / 64 % 64), UInt8.ofNat (0x80 + code % 64)]
  else
    [UInt8.ofNat (0xF0 + code / 262144), UInt8.ofNat (0x80 + code / 4096 % 64),
      UInt8.ofNat (0x80 + code / 64 % 64), UInt8.ofNat (0x80 + code % 64)]

def encodeUtf8 (text : JsString) : Bytes := (codePoints text).flatMap encodeCode

def unitsOf (code : ℕ) : JsString :=
  if code < 0x10000 then [Fin.ofNat (2 ^ 16) code]
  else [Fin.ofNat (2 ^ 16) (0xD800 + (code - 0x10000) / 1024), Fin.ofNat (2 ^ 16) (0xDC00 + (code - 0x10000) % 1024)]

def toWellFormed (text : JsString) : JsString := (codePoints text).flatMap unitsOf

/-! The decoder. -/

/-- A code point of which `needed` bytes are missing; the next one is between the bounds. -/
structure Pending where
  needed : ℕ
  low : ℕ
  high : ℕ
  code : ℕ
  continues : 0x80 ≤ low

def lowerBound (byte : ℕ) : ℕ := if byte = 0xE0 then 0xA0 else if byte = 0xF0 then 0x90 else 0x80

def upperBound (byte : ℕ) : ℕ := if byte = 0xED then 0x9F else if byte = 0xF4 then 0x8F else 0xBF

theorem lowerBound_continues (byte : ℕ) : 0x80 ≤ lowerBound byte := by
  unfold lowerBound
  split
  · decide
  · split <;> decide

def leadByte (needed byte code : ℕ) : Pending :=
  ⟨needed, lowerBound byte, upperBound byte, code, lowerBound_continues byte⟩

def startByte (byte : ℕ) : List ℕ × Option Pending :=
  if byte < 0x80 then ([byte], none)
  else if byte < 0xC2 then ([replacement], none)
  else if byte < 0xE0 then ([], some (leadByte 1 byte (byte - 0xC0)))
  else if byte < 0xF0 then ([], some (leadByte 2 byte (byte - 0xE0)))
  else if byte < 0xF5 then ([], some (leadByte 3 byte (byte - 0xF0)))
  else ([replacement], none)

def continueByte (pending : Pending) (byte : ℕ) : List ℕ × Option Pending :=
  let code := pending.code * 64 + (byte - 0x80)
  if pending.needed ≤ 1 then ([code], none)
  else ([], some ⟨pending.needed - 1, 0x80, 0xBF, code, Nat.le_refl _⟩)

/-- A byte that does not continue a code point starts the next one. -/
def decodeByte : Option Pending → ℕ → List ℕ × Option Pending
  | none, byte => startByte byte
  | some pending, byte =>
      if pending.low ≤ byte ∧ byte ≤ pending.high then continueByte pending byte
      else (replacement :: (startByte byte).1, (startByte byte).2)

def decodeCodes : Option Pending → Bytes → List ℕ
  | none, [] => []
  | some _, [] => [replacement]
  | pending, byte :: rest =>
      (decodeByte pending byte.toNat).1 ++ decodeCodes (decodeByte pending byte.toNat).2 rest

def decodeUtf8 (bytes : Bytes) : JsString := (decodeCodes none bytes).flatMap unitsOf

/-! What the decoder makes of encoded text, and of zeros. -/

def IsScalar (code : ℕ) : Prop := code < 0xD800 ∨ 0xE000 ≤ code ∧ code < 0x110000

theorem singleCode_scalar (unit : CodeUnit) : IsScalar (singleCode unit) := by
  have bound := unit.isLt
  unfold singleCode IsScalar replacement
  split
  · omega
  · rename_i neither
    simp only [IsHigh, IsLow] at neither
    omega

theorem pairCode_scalar (high low : CodeUnit) (first : IsHigh high) (second : IsLow low) :
    IsScalar (pairCode high low) := by
  simp only [IsHigh, IsLow] at first second
  unfold pairCode IsScalar
  omega

theorem codePoints_scalar (text : JsString) : ∀ code ∈ codePoints text, IsScalar code := by
  induction text using codePoints.induct with
  | case1 => exact fun code none => absurd none List.not_mem_nil
  | case2 unit =>
      intro code known
      rw [codePoints, List.mem_singleton] at known
      rw [known]
      exact singleCode_scalar unit
  | case3 unit next rest pair ih =>
      rw [codePoints, if_pos pair]
      intro code known
      rcases List.mem_cons.mp known with same | later
      · rw [same]
        exact pairCode_scalar unit next pair.1 pair.2
      · exact ih code later
  | case4 unit next rest alone ih =>
      rw [codePoints, if_neg alone]
      intro code known
      rcases List.mem_cons.mp known with same | later
      · rw [same]
        exact singleCode_scalar unit
      · exact ih code later

theorem toNat_ofNat (n : ℕ) (small : n < 256) : (UInt8.ofNat n).toNat = n := by
  rw [UInt8.toNat_ofNat']
  exact Nat.mod_eq_of_lt small

theorem decodeCodes_cons (pending : Option Pending) (byte : UInt8) (rest : Bytes) :
    decodeCodes pending (byte :: rest) =
      (decodeByte pending byte.toNat).1 ++ decodeCodes (decodeByte pending byte.toNat).2 rest := by
  cases pending with
  | none => rfl
  | some pending => rfl

theorem decode_last (pending : Pending) (n : ℕ) (rest : Bytes) (small : n < 256)
    (inside : pending.low ≤ n ∧ n ≤ pending.high) (one : pending.needed ≤ 1) :
    decodeCodes (some pending) (UInt8.ofNat n :: rest) =
      (pending.code * 64 + (n - 0x80)) :: decodeCodes none rest := by
  rw [decodeCodes_cons, toNat_ofNat n small, decodeByte, if_pos inside, continueByte, if_pos one]
  rfl

theorem decode_next (pending : Pending) (n : ℕ) (rest : Bytes) (small : n < 256)
    (inside : pending.low ≤ n ∧ n ≤ pending.high) (more : ¬ pending.needed ≤ 1) :
    decodeCodes (some pending) (UInt8.ofNat n :: rest) =
      decodeCodes (some ⟨pending.needed - 1, 0x80, 0xBF, pending.code * 64 + (n - 0x80), Nat.le_refl _⟩)
        rest := by
  rw [decodeCodes_cons, toNat_ofNat n small, decodeByte, if_pos inside, continueByte, if_neg more]
  rfl

theorem decode_lead (n needed code : ℕ) (rest : Bytes) (small : n < 256)
    (starts : startByte n = ([], some (leadByte needed n code))) :
    decodeCodes none (UInt8.ofNat n :: rest) = decodeCodes (some (leadByte needed n code)) rest := by
  rw [decodeCodes_cons, toNat_ofNat n small, decodeByte, starts]
  rfl

theorem startByte_two (n : ℕ) (bounds : 0xC2 ≤ n ∧ n < 0xE0) :
    startByte n = ([], some (leadByte 1 n (n - 0xC0))) := by
  rw [startByte, if_neg (by omega), if_neg (by omega), if_pos bounds.2]

theorem startByte_three (n : ℕ) (bounds : 0xE0 ≤ n ∧ n < 0xF0) :
    startByte n = ([], some (leadByte 2 n (n - 0xE0))) := by
  rw [startByte, if_neg (by omega), if_neg (by omega), if_neg (by omega), if_pos bounds.2]

theorem startByte_four (n : ℕ) (bounds : 0xF0 ≤ n ∧ n < 0xF5) :
    startByte n = ([], some (leadByte 3 n (n - 0xF0))) := by
  rw [startByte, if_neg (by omega), if_neg (by omega), if_neg (by omega), if_neg (by omega), if_pos bounds.2]

/-- Neither an overlong encoding, nor a surrogate, nor a code point that does not exist. -/
theorem second_inside_three (code : ℕ) (scalar : IsScalar code) (long : 0x800 ≤ code) (short : code < 0x10000) :
    lowerBound (0xE0 + code / 4096) ≤ 0x80 + code / 64 % 64 ∧
      0x80 + code / 64 % 64 ≤ upperBound (0xE0 + code / 4096) := by
  unfold IsScalar at scalar
  unfold lowerBound upperBound
  constructor
  · split_ifs <;> omega
  · split_ifs <;> omega

theorem second_inside_four (code : ℕ) (scalar : IsScalar code) (long : 0x10000 ≤ code) :
    lowerBound (0xF0 + code / 262144) ≤ 0x80 + code / 4096 % 64 ∧
      0x80 + code / 4096 % 64 ≤ upperBound (0xF0 + code / 262144) := by
  unfold IsScalar at scalar
  unfold lowerBound upperBound
  constructor
  · split_ifs <;> omega
  · split_ifs <;> omega

theorem second_inside_two (code : ℕ) (long : 0x80 ≤ code) (short : code < 0x800) :
    lowerBound (0xC0 + code / 64) ≤ 0x80 + code % 64 ∧ 0x80 + code % 64 ≤ upperBound (0xC0 + code / 64) := by
  unfold lowerBound upperBound
  constructor
  · split_ifs <;> omega
  · split_ifs <;> omega

theorem decodeCodes_encodeCode (code : ℕ) (rest : Bytes) (scalar : IsScalar code) :
    decodeCodes none (encodeCode code ++ rest) = code :: decodeCodes none rest := by
  have bound : code < 0x110000 := by
    unfold IsScalar at scalar
    omega
  unfold encodeCode
  split
  · rename_i one
    rw [List.cons_append, List.nil_append, decodeCodes_cons, toNat_ofNat code (by omega), decodeByte, startByte,
      if_pos one]
    rfl
  · split
    · rename_i notOne two
      simp only [List.cons_append, List.nil_append]
      rw [decode_lead _ 1 _ _ (by omega) (startByte_two _ ⟨by omega, by omega⟩),
        decode_last _ _ _ (by omega) (second_inside_two code (by omega) two) (Nat.le_refl 1)]
      rw [List.cons.injEq, leadByte]
      exact ⟨by dsimp only; omega, rfl⟩
    · split
      · rename_i notOne notTwo three
        simp only [List.cons_append, List.nil_append]
        rw [decode_lead _ 2 _ _ (by omega) (startByte_three _ ⟨by omega, by omega⟩),
          decode_next _ _ _ (by omega) (second_inside_three code scalar (by omega) three) (by simp [leadByte]),
          decode_last _ _ _ (by omega) ⟨by simp, by dsimp only; omega⟩ (by simp [leadByte])]
        rw [List.cons.injEq, leadByte]
        exact ⟨by dsimp only; omega, rfl⟩
      · rename_i notOne notTwo notThree
        simp only [List.cons_append, List.nil_append]
        rw [decode_lead _ 3 _ _ (by omega) (startByte_four _ ⟨by omega, by omega⟩),
          decode_next _ _ _ (by omega) (second_inside_four code scalar (by omega)) (by simp [leadByte]),
          decode_next _ _ _ (by omega) ⟨by simp, by dsimp only; omega⟩ (by simp [leadByte]),
          decode_last _ _ _ (by omega) ⟨by simp, by dsimp only; omega⟩ (by simp [leadByte])]
        rw [List.cons.injEq, leadByte]
        exact ⟨by dsimp only; omega, rfl⟩

theorem decodeCodes_encodeUtf8 (codes : List ℕ) (rest : Bytes) (scalars : ∀ code ∈ codes, IsScalar code) :
    decodeCodes none (codes.flatMap encodeCode ++ rest) = codes ++ decodeCodes none rest := by
  induction codes with
  | nil => rfl
  | cons code later ih =>
      rw [List.flatMap_cons, List.append_assoc, decodeCodes_encodeCode code _ (scalars code List.mem_cons_self),
        ih fun other known => scalars other (List.mem_cons_of_mem _ known)]
      rfl

theorem decodeCodes_zero (pending : Option Pending) (bytes : Bytes) :
    decodeCodes pending (bytes ++ [0]) = decodeCodes pending bytes ++ [0] := by
  induction bytes generalizing pending with
  | nil =>
      cases pending with
      | none => rfl
      | some pending =>
          have outside : ¬ (pending.low ≤ 0 ∧ 0 ≤ pending.high) := by
            have continues := pending.continues
            omega
          rw [List.nil_append, decodeCodes_cons, UInt8.toNat_zero, decodeByte, if_neg outside]
          rfl
  | cons byte rest ih =>
      rw [List.cons_append, decodeCodes_cons, decodeCodes_cons, ih, List.append_assoc]

theorem decodeCodes_zeros (bytes : Bytes) (count : ℕ) :
    decodeCodes none (bytes ++ List.replicate count 0) = decodeCodes none bytes ++ List.replicate count 0 := by
  induction count with
  | zero => simp
  | succ count ih =>
      rw [List.replicate_succ', ← List.append_assoc, decodeCodes_zero, ih, List.append_assoc,
        List.replicate_succ']

theorem decodeUtf8_zeros (bytes : Bytes) (count : ℕ) :
    decodeUtf8 (bytes ++ List.replicate count 0) = decodeUtf8 bytes ++ List.replicate count 0 := by
  have zeros : (List.replicate count 0).flatMap unitsOf = List.replicate count 0 := by
    induction count with
    | zero => rfl
    | succ count ih => rw [List.replicate_succ, List.flatMap_cons, ih]; rfl
  rw [decodeUtf8, decodeCodes_zeros, List.flatMap_append, zeros, decodeUtf8]

/-! What becomes of the units. -/

theorem encodeCode_pos (code : ℕ) : 0 < (encodeCode code).length := by
  unfold encodeCode
  split_ifs <;> simp

theorem length_le_encodeUtf8 (text : JsString) : text.length ≤ (encodeUtf8 text).length := by
  induction text using codePoints.induct with
  | case1 => exact Nat.le_refl _
  | case2 unit =>
      rw [encodeUtf8, codePoints, List.flatMap_cons, List.flatMap_nil, List.append_nil]
      exact encodeCode_pos (singleCode unit)
  | case3 unit next rest pair ih =>
      have long : (encodeCode (pairCode unit next)).length = 4 := by
        have large : 0x10000 ≤ pairCode unit next := by
          unfold pairCode
          omega
        rw [encodeCode, if_neg (by omega), if_neg (by omega), if_neg (by omega)]
        rfl
      rw [encodeUtf8, codePoints, if_pos pair, List.flatMap_cons, List.length_append, long]
      simp only [encodeUtf8, List.length_cons] at ih ⊢
      omega
  | case4 unit next rest alone ih =>
      have some := encodeCode_pos (singleCode unit)
      rw [encodeUtf8, codePoints, if_neg alone, List.flatMap_cons, List.length_append]
      simp only [encodeUtf8, List.length_cons] at ih ⊢
      omega

theorem unitsOf_single (unit : CodeUnit) :
    unitsOf (singleCode unit) = [unit] ∨ unitsOf (singleCode unit) = [Fin.ofNat (2 ^ 16) replacement] := by
  have bound := unit.isLt
  unfold singleCode
  split
  · exact .inr rfl
  · rw [unitsOf, if_pos (by omega)]
    left
    congr 1
    exact Fin.ext (Nat.mod_eq_of_lt bound)

theorem unitsOf_pair (high low : CodeUnit) (first : IsHigh high) (second : IsLow low) :
    unitsOf (pairCode high low) = [high, low] := by
  simp only [IsHigh, IsLow] at first second
  have one : 0xD800 + (pairCode high low - 0x10000) / 1024 = high.val := by
    unfold pairCode
    omega
  have two : 0xDC00 + (pairCode high low - 0x10000) % 1024 = low.val := by
    unfold pairCode
    omega
  have large : ¬ pairCode high low < 0x10000 := by
    unfold pairCode
    omega
  rw [unitsOf, if_neg large, one, two]
  rw [Fin.ofNat_val_eq_self, Fin.ofNat_val_eq_self]

theorem toWellFormed_length (text : JsString) : (toWellFormed text).length = text.length := by
  induction text using codePoints.induct with
  | case1 => rfl
  | case2 unit =>
      rw [toWellFormed, codePoints, List.flatMap_cons, List.flatMap_nil, List.append_nil]
      rcases unitsOf_single unit with same | replaced
      · rw [same]
      · rw [replaced]
        rfl
  | case3 unit next rest pair ih =>
      rw [toWellFormed] at ih
      rw [toWellFormed, codePoints, if_pos pair, List.flatMap_cons, unitsOf_pair unit next pair.1 pair.2,
        List.length_append, ih]
      simp only [List.length_cons, List.length_nil]
      omega
  | case4 unit next rest alone ih =>
      rw [toWellFormed] at ih
      rw [toWellFormed, codePoints, if_neg alone, List.flatMap_cons, List.length_append, ih]
      rcases unitsOf_single unit with same | replaced
      · rw [same, Nat.add_comm]
        rfl
      · rw [replaced, Nat.add_comm]
        rfl

theorem mem_toWellFormed (text : JsString) (unit : CodeUnit) (known : unit ∈ toWellFormed text) :
    unit ∈ text ∨ unit = Fin.ofNat (2 ^ 16) replacement := by
  have one : ∀ first, unit ∈ unitsOf (singleCode first) →
      unit = first ∨ unit = Fin.ofNat (2 ^ 16) replacement := by
    intro first found
    rcases unitsOf_single first with same | replaced
    · rw [same, List.mem_singleton] at found
      exact .inl found
    · rw [replaced, List.mem_singleton] at found
      exact .inr found
  induction text using codePoints.induct with
  | case1 => exact absurd known List.not_mem_nil
  | case2 first =>
      rw [toWellFormed, codePoints, List.flatMap_cons, List.flatMap_nil, List.append_nil] at known
      exact (one first known).imp_left fun same => List.mem_singleton.mpr same
  | case3 first next rest pair ih =>
      rw [toWellFormed, codePoints, if_pos pair, List.flatMap_cons, unitsOf_pair first next pair.1 pair.2,
        List.mem_append] at known
      rcases known with now | later
      · exact .inl (List.mem_append_left rest now)
      · exact (ih later).imp_left fun found => List.mem_append_right [first, next] found
  | case4 first next rest alone ih =>
      rw [toWellFormed, codePoints, if_neg alone, List.flatMap_cons, List.mem_append] at known
      rcases known with now | later
      · exact (one first now).imp_left fun same => by rw [same]; exact List.mem_cons_self
      · exact (ih later).imp_left fun found => List.mem_cons_of_mem _ found

theorem unit_val (n : ℕ) (small : n < 0x10000) : (Fin.ofNat (2 ^ 16) n : CodeUnit).val = n :=
  Nat.mod_eq_of_lt small

theorem unitsOf_last (code : ℕ) (last : (unitsOf code).getLast? = some 0) : code = 0 := by
  rw [unitsOf] at last
  split at last
  · rename_i short
    rw [List.getLast?_singleton, Option.some.injEq] at last
    have value := congrArg Fin.val last
    rw [unit_val code short] at value
    exact value
  · rw [List.getLast?_cons_cons, List.getLast?_singleton, Option.some.injEq] at last
    have value := congrArg Fin.val last
    rw [unit_val _ (by omega)] at value
    have positive : 0 < 0xDC00 + (code - 0x10000) % 1024 := by omega
    exact absurd value (Nat.ne_of_gt positive)

theorem unitsOf_ne_nil (code : ℕ) : unitsOf code ≠ [] := by
  unfold unitsOf
  split <;> simp

/-- The units end with a zero only where the bytes do. -/
theorem encoded_last (codes : List ℕ) (last : (codes.flatMap unitsOf).getLast? = some 0) :
    ∃ front, codes.flatMap encodeCode = front ++ [0] := by
  cases codes using List.reverseRecOn with
  | nil => simp at last
  | append_singleton front code _ =>
      rw [List.flatMap_append, List.flatMap_cons, List.flatMap_nil, List.append_nil, List.getLast?_append] at last
      cases final : (unitsOf code).getLast? with
      | none => exact absurd (List.getLast?_eq_none_iff.mp final) (unitsOf_ne_nil code)
      | some unit =>
          rw [final, Option.some_or, Option.some.injEq] at last
          rw [last] at final
          rw [unitsOf_last code final]
          exact ⟨front.flatMap encodeCode, List.flatMap_append⟩

end OpenGsn.Text
