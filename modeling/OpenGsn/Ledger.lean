import Mathlib.Algebra.BigOperators.Finprod
import Mathlib.Algebra.Order.BigOperators.Group.Finset

/-! Totals of account books. -/

namespace OpenGsn.Ledger

variable {ι : Type}

/-- The sum over all accounts, of which there may be too many to add up. -/
noncomputable def total (book : ι → ℕ) : ℕ := ∑ᶠ account, book account

theorem total_zero : total (fun _ : ι => 0) = 0 := finsum_zero

variable [Fintype ι]

theorem total_eq_sum (book : ι → ℕ) : total book = ∑ account, book account :=
  finsum_eq_sum_of_fintype book

theorem entry_le_total (book : ι → ℕ) (account : ι) : book account ≤ total book := by
  rw [total_eq_sum]
  exact Finset.single_le_sum (fun _ _ => Nat.zero_le _) (Finset.mem_univ account)

variable [DecidableEq ι]

theorem total_update (book : ι → ℕ) (account : ι) (value : ℕ) :
    total (Function.update book account value) + book account = total book + value := by
  rw [total_eq_sum, total_eq_sum, Finset.sum_update_of_mem (Finset.mem_univ account), ← Finset.erase_eq,
    ← Finset.add_sum_erase _ book (Finset.mem_univ account)]
  omega

theorem total_credit (book : ι → ℕ) (account : ι) (amount : ℕ) :
    total (Function.update book account (book account + amount)) = total book + amount := by
  have moved := total_update book account (book account + amount)
  omega

theorem total_debit (book : ι → ℕ) (account : ι) (amount : ℕ) (covered : amount ≤ book account) :
    total (Function.update book account (book account - amount)) + amount = total book := by
  have moved := total_update book account (book account - amount)
  omega

theorem total_sweep (book : ι → ℕ) (source target : ι) :
    let emptied := Function.update book source 0
    total (Function.update emptied target (emptied target + book source)) = total book := by
  have emptied := total_update book source 0
  simp only [total_credit]
  omega

end OpenGsn.Ledger
