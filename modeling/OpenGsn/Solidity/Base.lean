import Mathlib.Logic.Basic
import Mathlib.Data.Nat.Notation
import Mathlib.Algebra.Order.Ring.Nat
import Mathlib.Data.Fin.Basic

/-! Values, checked arithmetic and reverts of Solidity 0.8. -/

namespace OpenGsn.Solidity

abbrev Address := Fin (2 ^ 160)
abbrev Uint256 := Fin (2 ^ 256)
abbrev Bytes := List UInt8

-- Named, so that the numerals of these types share one proof.
instance neZeroUint8 : NeZero (2 ^ 8) := ⟨by decide⟩
instance neZeroUint16 : NeZero (2 ^ 16) := ⟨by decide⟩
instance neZeroUint80 : NeZero (2 ^ 80) := ⟨by decide⟩
instance neZeroAddress : NeZero (2 ^ 160) := ⟨by decide⟩
instance neZeroUint256 : NeZero (2 ^ 256) := ⟨by decide⟩

def uint256Max : ℕ := 2 ^ 256 - 1

inductive Revert : Type
  | reason (message : String)
  | panic (code : ℕ)
  | data (bytes : Bytes)
  deriving DecidableEq, Repr

instance : Inhabited Revert := ⟨.data []⟩

/-- The block and the transaction a call is part of. No transaction is in the genesis block,
and a block's time stays below the largest word. -/
structure Env where
  origin : Address
  gasPrice : ℕ
  baseFee : ℕ
  chainId : ℕ
  number : ℕ
  timestamp : ℕ
  number_pos : 0 < number
  timestamp_lt : timestamp < uint256Max

def sampleEnv : Env := ⟨5, 1, 1, 1, 10, 1000, by decide, by decide⟩

def require (condition : Prop) [Decidable condition] (message : String) : Except Revert Unit :=
  if condition then .ok () else .error (.reason message)

def checkedAdd (width a b : ℕ) : Except Revert ℕ :=
  if a + b < 2 ^ width then .ok (a + b) else .error (.panic 0x11)

def checkedSub (a b : ℕ) : Except Revert ℕ :=
  if b ≤ a then .ok (a - b) else .error (.panic 0x11)

def checkedMul (width a b : ℕ) : Except Revert ℕ :=
  if a * b < 2 ^ width then .ok (a * b) else .error (.panic 0x11)

@[simp] theorem require_ok (condition : Prop) [Decidable condition] (message : String) (value : Unit) :
    require condition message = .ok value ↔ condition := by
  unfold require
  split <;> simp_all

@[simp] theorem checkedAdd_ok (width a b c : ℕ) :
    checkedAdd width a b = .ok c ↔ a + b < 2 ^ width ∧ a + b = c := by
  unfold checkedAdd
  split <;> simp_all

@[simp] theorem checkedSub_ok (a b c : ℕ) : checkedSub a b = .ok c ↔ b ≤ a ∧ a - b = c := by
  unfold checkedSub
  split <;> simp_all

@[simp] theorem checkedMul_ok (width a b c : ℕ) :
    checkedMul width a b = .ok c ↔ a * b < 2 ^ width ∧ a * b = c := by
  unfold checkedMul
  split <;> simp_all

@[simp] theorem bind_ok {α β ε : Type} (first : Except ε α) (rest : α → Except ε β) (value : β) :
    (first >>= rest) = .ok value ↔ ∃ middle, first = .ok middle ∧ rest middle = .ok value := by
  cases first with
  | ok middle =>
      constructor
      · intro last
        exact ⟨middle, rfl, last⟩
      · rintro ⟨_, ⟨⟩, last⟩
        exact last
  | error error =>
      constructor
      · intro last
        cases last
      · rintro ⟨_, ⟨⟩, _⟩

@[simp] theorem pure_ok {α ε : Type} (value result : α) :
    (pure value : Except ε α) = .ok result ↔ value = result :=
  ⟨fun same => Except.ok.inj same, fun same => congrArg Except.ok same⟩

end OpenGsn.Solidity
