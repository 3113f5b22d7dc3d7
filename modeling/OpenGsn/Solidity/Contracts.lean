import OpenGsn.Solidity.Base
import Mathlib.Logic.Function.Basic

/-! The library contracts the sources build on: `Ownable`, and ERC-20 tokens as `SafeERC20`
calls them. -/

namespace OpenGsn.Solidity

def onlyOwner (owner sender : Address) : Except Revert Unit :=
  require (owner = sender) "Ownable: caller is not the owner"

def transferOwnership (owner sender newOwner : Address) : Except Revert Address := do
  onlyOwner owner sender
  require (newOwner ≠ 0) "Ownable: new owner is the zero address"
  .ok newOwner

def renounceOwnership (owner sender : Address) : Except Revert Address := do
  onlyOwner owner sender
  .ok 0

/-- A standard token: a transfer moves exactly the requested amount or reverts. `accepts` is
whatever else it checks, allowances for one. -/
structure Erc20 where
  balances : Address → ℕ
  accepts : Address → Address → ℕ → Bool

namespace Erc20

def moved (balances : Address → ℕ) (source target : Address) (amount : ℕ) : Address → ℕ :=
  let debited := Function.update balances source (balances source - amount)
  Function.update debited target (debited target + amount)

def transfer (token : Erc20) (source target : Address) (amount : ℕ) : Except Revert Erc20 := do
  require (amount ≤ token.balances source) "ERC20: transfer amount exceeds balance"
  require (token.accepts source target amount) "ERC20: transfer rejected"
  .ok { token with balances := moved token.balances source target amount }

theorem transfer_ok (token next : Erc20) (source target : Address) (amount : ℕ) :
    token.transfer source target amount = .ok next ↔
      amount ≤ token.balances source ∧ token.accepts source target amount = true ∧
        { token with balances := moved token.balances source target amount } = next := by
  simp [transfer]

theorem moved_from (balances : Address → ℕ) (source target : Address) (amount : ℕ)
    (covered : amount ≤ balances source) :
    balances source ≤ moved balances source target amount source + amount := by
  by_cases same : source = target
  · subst same
    simp only [moved, Function.update_self]
    omega
  · simp only [moved, Function.update_of_ne same, Function.update_self]
    omega

theorem moved_out (balances : Address → ℕ) (source target : Address) (amount : ℕ)
    (other : source ≠ target) :
    moved balances source target amount source = balances source - amount := by
  simp [moved, Function.update_of_ne other]

theorem moved_into (balances : Address → ℕ) (source target : Address) (amount : ℕ)
    (other : source ≠ target) :
    moved balances source target amount target = balances target + amount := by
  simp [moved, Function.update_of_ne other.symm]

end Erc20

abbrev Tokens := Address → Option Erc20

def safeTransfer (tokens : Tokens) (token source target : Address) (amount : ℕ) :
    Except Revert Tokens := do
  match tokens token with
  | none => .error (.reason "Address: call to non-contract")
  | some ledger =>
      let next ← ledger.transfer source target amount
      .ok (Function.update tokens token (some next))

theorem safeTransfer_ok (tokens next : Tokens) (token source target : Address) (amount : ℕ) :
    safeTransfer tokens token source target amount = .ok next ↔
      ∃ ledger moved, tokens token = some ledger ∧ ledger.transfer source target amount = .ok moved ∧
        Function.update tokens token (some moved) = next := by
  unfold safeTransfer
  cases tokens token with
  | none => simp
  | some ledger => simp

end OpenGsn.Solidity
