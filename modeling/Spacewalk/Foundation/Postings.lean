import Mathlib.Algebra.BigOperators.Pi
import Mathlib.Data.Fintype.BigOperators
import Mathlib.Tactic.Abel

/-!
# Postings

Bookkeeping over a set of accounts: the balances are a function from accounts to integers, and
a change of the books is a posting, again a function, that is added to the balances.  A store
of records whose records are posted to accounts (`posted`) changes, when one record is
replaced, by the difference of the two postings (`posted_update`).
-/

namespace Foundation

open Function

variable {A K V : Type}

/-- All records of a store, posted to their accounts. -/
noncomputable def posted [Fintype K] (posting : K → V → A → ℤ) (store : K → V) : A → ℤ :=
  ∑ k, posting k (store k)

theorem posted_apply [Fintype K] (posting : K → V → A → ℤ) (store : K → V) (a : A) :
    posted posting store a = ∑ k, posting k (store k) a := by
  simp [posted]

/-- Replacing one record changes a sum over all records by the difference of the two terms. -/
theorem sum_update {M : Type} [AddCommGroup M] [Fintype K] [DecidableEq K] (f : K → V → M)
    (store : K → V) (k : K) (v : V) :
    ∑ i, f i (update store k v i) = ∑ i, f i (store i) + (f k v - f k (store k)) := by
  have hrest : ∀ m : K → V, ∑ i, f i (m i) = (∑ i ∈ Finset.univ.erase k, f i (m i)) + f k (m k) := by
    intro m
    rw [Finset.sum_erase_add _ _ (Finset.mem_univ k)]
  have hsame : ∑ i ∈ Finset.univ.erase k, f i (update store k v i) =
      ∑ i ∈ Finset.univ.erase k, f i (store i) := by
    apply Finset.sum_congr rfl
    intro i hi
    rw [update_of_ne (Finset.ne_of_mem_erase hi)]
  rw [hrest, hrest, hsame, update_self]
  abel

/-- After a record was written, it is found under its key, and elsewhere what was there. -/
theorem update_eq_some [DecidableEq K] {store : K → Option V} {k i : K} {v w : V} :
    update store k (some v) i = some w ↔ (i = k ∧ v = w) ∨ (i ≠ k ∧ store i = some w) := by
  by_cases hi : i = k
  · subst hi
    simp
  · simp [hi]

/-- Replacing one record changes the books by the difference of the postings. -/
theorem posted_update [Fintype K] [DecidableEq K] (posting : K → V → A → ℤ) (store : K → V)
    (k : K) (v : V) :
    posted posting (update store k v) =
      posted posting store + (posting k v - posting k (store k)) :=
  sum_update posting store k v

end Foundation
