import Mathlib.Algebra.BigOperators.Ring.Finset
import Mathlib.Algebra.Order.BigOperators.Group.Finset
import Mathlib.Tactic.Linarith
import Mathlib.Tactic.Ring

/-!
# Pools that share rewards

The members of a pool hold whole units of stake and share rewards in proportion to it.  A reward of
`x` raises one accumulator, the reward per token, by `x / total`; the tally of a member is the part
of `stake * perToken` that does not belong to it, because the stake came later or the reward was
paid.  The reward per token and the tallies are integers in a unit that is `D` times smaller than
the unit of the stakes, and the quotient is rounded down.

The entitlement of a member is `stake * perToken - tally`.  A change of stake leaves every
entitlement as it is (`entitlement_adjust`), and a distribution adds at most the reward to the sum
of all entitlements (`sum_entitlement_distribute_le`).  So the entitlements stay covered by what was
distributed and not paid (`Covered`).
-/

namespace Foundation

open Function

/-- A pool of members `ι` that share rewards. -/
@[ext] structure RewardPool (ι : Type) where
  stake : ι → ℤ
  /-- The stake of the pool. -/
  total : ℤ
  /-- The accumulated reward per token. -/
  perToken : ℤ
  /-- The part of `stake * perToken` that does not belong to the member. -/
  tally : ι → ℤ

namespace RewardPool

section

variable {ι : Type} (p : RewardPool ι) (m n : ι) (a : ℤ)

/-- The pool without stake. -/
def empty (ι : Type) : RewardPool ι where
  stake _ := 0
  total := 0
  perToken := 0
  tally _ := 0

/-- What the pool owes to a member. -/
def entitlement : ℤ := p.stake m * p.perToken - p.tally m

/-- Share a reward of `x` units, each of which is `D` small units. -/
def distribute (D x : ℤ) : RewardPool ι :=
  { p with perToken := p.perToken + x * D / p.total }

theorem entitlement_distribute (D x : ℤ) :
    (p.distribute D x).entitlement m = p.entitlement m + p.stake m * (x * D / p.total) := by
  unfold entitlement distribute
  ring

variable [DecidableEq ι]

/-- Add `a` to the stake of a member. -/
def adjust : RewardPool ι where
  stake := update p.stake m (p.stake m + a)
  total := p.total + a
  perToken := p.perToken
  tally := update p.tally m (p.tally m + p.perToken * a)

/-- Write off what the pool owes to a member. -/
def collect : RewardPool ι :=
  { p with tally := update p.tally m (p.stake m * p.perToken) }

/-- A change of stake changes no entitlement. -/
theorem entitlement_adjust : (p.adjust m a).entitlement n = p.entitlement n := by
  unfold entitlement adjust
  by_cases h : n = m
  · subst h
    simp only [update_self]
    ring
  · simp only [update_of_ne h]

theorem entitlement_collect_self : (p.collect m).entitlement m = 0 := by
  simp [entitlement, collect]

theorem entitlement_collect_of_ne {m n : ι} (h : n ≠ m) :
    (p.collect m).entitlement n = p.entitlement n := by
  simp [entitlement, collect, update_of_ne h]

end

section

variable {ι : Type} [Fintype ι] {p : RewardPool ι} {m : ι} {a D x fund : ℤ}

/-- The stake of the pool is the stake of its members, and nothing is owed to the pool. -/
structure Sound (p : RewardPool ι) : Prop where
  total_eq : p.total = ∑ m, p.stake m
  stake_nonneg : ∀ m, 0 ≤ p.stake m
  entitlement_nonneg : ∀ m, 0 ≤ p.entitlement m
  perToken_nonneg : 0 ≤ p.perToken

/-- The entitlements of a sound pool are covered by a fund. -/
structure Covered (p : RewardPool ι) (fund : ℤ) : Prop extends p.Sound where
  sum_le : ∑ m, p.entitlement m ≤ fund

theorem Covered.empty (ι : Type) [Fintype ι] : Covered (RewardPool.empty ι) 0 where
  total_eq := by simp [RewardPool.empty]
  stake_nonneg _ := le_refl 0
  entitlement_nonneg _ := by simp [entitlement, RewardPool.empty]
  perToken_nonneg := le_refl 0
  sum_le := by simp [entitlement, RewardPool.empty]

theorem Sound.total_nonneg (h : p.Sound) : 0 ≤ p.total := by
  rw [h.total_eq]
  exact Finset.sum_nonneg fun m _ => h.stake_nonneg m

theorem Sound.stake_le_total (h : p.Sound) (m : ι) : p.stake m ≤ p.total := by
  rw [h.total_eq]
  exact Finset.single_le_sum (fun n _ => h.stake_nonneg n) (Finset.mem_univ m)

theorem Covered.entitlement_le (h : p.Covered fund) (m : ι) : p.entitlement m ≤ fund :=
  (Finset.single_le_sum (fun n _ => h.entitlement_nonneg n) (Finset.mem_univ m)).trans h.sum_le

theorem Covered.mono {fund' : ℤ} (h : p.Covered fund) (hle : fund ≤ fund') : p.Covered fund' :=
  { h with sum_le := h.sum_le.trans hle }

/-- The shares of a reward add up to at most the reward. -/
theorem sum_entitlement_distribute_le (h : p.Sound) (hx : 0 ≤ x * D) :
    ∑ m, (p.distribute D x).entitlement m ≤ ∑ m, p.entitlement m + x * D := by
  simp only [entitlement_distribute, Finset.sum_add_distrib, ← Finset.sum_mul, ← h.total_eq]
  rcases h.total_nonneg.eq_or_lt with hzero | hpos
  · rw [← hzero]
    simpa using hx
  · have := Int.mul_ediv_self_le (x := x * D) hpos.ne'
    linarith

theorem Covered.distribute (h : p.Covered fund) (hx : 0 ≤ x * D) :
    (p.distribute D x).Covered (fund + x * D) := by
  have hshare : 0 ≤ x * D / p.total := Int.ediv_nonneg hx h.total_nonneg
  constructor
  · constructor
    · exact h.total_eq
    · exact h.stake_nonneg
    · intro m
      rw [entitlement_distribute]
      exact add_nonneg (h.entitlement_nonneg m) (mul_nonneg (h.stake_nonneg m) hshare)
    · exact add_nonneg h.perToken_nonneg hshare
  · have := sum_entitlement_distribute_le h.toSound hx
    have := h.sum_le
    linarith

variable [DecidableEq ι]

/-- Members may change their stakes as long as they have some. -/
theorem Covered.adjust (h : p.Covered fund) (hle : 0 ≤ p.stake m + a) :
    (p.adjust m a).Covered fund where
  total_eq := by
    have hsum : ∑ n, (p.adjust m a).stake n = ∑ n, (p.stake n + if n = m then a else 0) := by
      apply Finset.sum_congr rfl
      intro n _
      by_cases hn : n = m
      · subst hn
        simp [RewardPool.adjust]
      · simp [RewardPool.adjust, hn]
    rw [hsum, Finset.sum_add_distrib, Finset.sum_ite_eq' Finset.univ m, if_pos (Finset.mem_univ m),
      ← h.total_eq]
    rfl
  stake_nonneg n := by
    by_cases hn : n = m
    · subst hn
      simpa [RewardPool.adjust] using hle
    · simpa [RewardPool.adjust, hn] using h.stake_nonneg n
  entitlement_nonneg n := by
    rw [entitlement_adjust]
    exact h.entitlement_nonneg n
  perToken_nonneg := h.perToken_nonneg
  sum_le := by
    simp only [entitlement_adjust]
    exact h.sum_le

/-- What a member is paid, at most the entitlement, leaves the fund. -/
theorem Covered.collect (h : p.Covered fund) (hx : x ≤ p.entitlement m) :
    (p.collect m).Covered (fund - x) := by
  have hother : ∀ n, n ≠ m → (p.collect m).entitlement n = p.entitlement n :=
    fun n hn => p.entitlement_collect_of_ne hn
  constructor
  · constructor
    · exact h.total_eq
    · exact h.stake_nonneg
    · intro n
      by_cases hn : n = m
      · rw [hn, entitlement_collect_self]
      · rw [hother n hn]
        exact h.entitlement_nonneg n
    · exact h.perToken_nonneg
  · have hrest : ∑ n ∈ Finset.univ.erase m, (p.collect m).entitlement n =
        ∑ n ∈ Finset.univ.erase m, p.entitlement n :=
      Finset.sum_congr rfl fun n hn => hother n (Finset.ne_of_mem_erase hn)
    have hsum := h.sum_le
    rw [← Finset.sum_erase_add _ _ (Finset.mem_univ m)] at hsum ⊢
    rw [hrest, entitlement_collect_self]
    linarith

end

end RewardPool

end Foundation
