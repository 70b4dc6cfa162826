import Mathlib.Algebra.BigOperators.Ring.Finset
import Mathlib.Algebra.Order.BigOperators.Group.Finset
import Mathlib.Algebra.Order.Field.Basic
import Mathlib.Tactic.FieldSimp
import Mathlib.Tactic.Linarith
import Mathlib.Tactic.Ring

/-!
# Pools with lazily applied slashes

A pool of participants shares slashes through one accumulator: a slash of `x` raises the
slash per token by `x / total`, and a participant's position is brought up to date
(`settle`) only when that participant acts.  Amounts are integers in the smallest unit of
a fixed-point format with scale `D`; quotients round toward zero.

The value of a position is its `remaining` stake, the stake minus the slash announced
since it was last settled.  The main results are

* `remaining_settle` and `settle_comm_adjust`: settling a position changes no remaining
  stake and commutes with the operations of the others;
* `abs_charge_sub_share_lt`: a slash charges every position its share, up to rounding;
* `Balanced.slash`, `Balanced.settle`, `Balanced.adjust`: the remaining stakes add up to
  the current stake of the pool plus the rounding losses of its slashes, as long as no
  slash charges a participant more than is left;
* `Balanced.sum_whole_le`: while those losses stay below one unit, the whole units that
  remain to the participants are covered by the current stake.
-/

namespace Foundation

open Function

/-- A pool with lazily applied slashes, over the participants `ι`. -/
@[ext] structure LazyPool (ι : Type) where
  /-- The stake of a participant, with the slashes settled so far. -/
  stake : ι → ℤ
  /-- The part of `stake * perToken` that was settled. -/
  tally : ι → ℤ
  /-- The sum of the stakes. -/
  total : ℤ
  /-- The stake of the pool after all slashes. -/
  current : ℤ
  /-- The accumulated slash per token. -/
  perToken : ℤ

namespace LazyPool

section

variable {ι : Type} [DecidableEq ι] (D : ℤ) (p : LazyPool ι)

/-- The pool without any stake. -/
def empty (ι : Type) : LazyPool ι where
  stake _ := 0
  tally _ := 0
  total := 0
  current := 0
  perToken := 0

variable (n : ι) (x : ℤ)

/-- The slash announced to `n` and not yet settled. -/
def toSlash : ℤ :=
  (p.stake n * p.perToken).tdiv D - p.tally n

/-- The stake that remains to `n` after the announced slashes. -/
def remaining : ℤ :=
  p.stake n - p.toSlash D n

/-- Settle the announced slashes of `n`. -/
def settle : LazyPool ι :=
  { p with
    stake := update p.stake n (p.remaining D n)
    tally := update p.tally n ((p.remaining D n * p.perToken).tdiv D)
    total := p.total - p.toSlash D n }

/-- Add `x` to the stake of `n`; a withdrawal adds a negative amount. -/
def adjust : LazyPool ι :=
  { p with
    stake := update p.stake n (p.stake n + x)
    tally := update p.tally n (p.tally n + (p.perToken * x).tdiv D)
    total := p.total + x
    current := p.current + x }

/-- Announce a slash of `x` to all participants. -/
def slash : LazyPool ι :=
  { p with
    perToken := p.perToken + (x * D).tdiv p.total
    current := p.current - x }

/-- What a slash of `x` takes from the remaining stake of `n`. -/
def charge (n : ι) : ℤ :=
  (p.stake n * (p.perToken + (x * D).tdiv p.total)).tdiv D - (p.stake n * p.perToken).tdiv D

end

theorem tdiv_add_mul_of_nonneg {a b D : ℤ} (hD : 0 < D) (ha : 0 ≤ a) (hab : 0 ≤ a + D * b) :
    (a + D * b).tdiv D = a.tdiv D + b := by
  rw [Int.tdiv_eq_ediv_of_nonneg ha, Int.tdiv_eq_ediv_of_nonneg hab,
    Int.add_mul_ediv_left _ _ hD.ne']

/-- Rounding toward zero is exact for whole parts as long as the sign does not change. -/
theorem tdiv_add_mul_of_nonpos {a b D : ℤ} (hD : 0 < D) (ha : a ≤ 0) (hab : a + D * b ≤ 0) :
    (a + D * b).tdiv D = a.tdiv D + b := by
  have hneg : (-a + D * -b).tdiv D = (-a).tdiv D + -b :=
    tdiv_add_mul_of_nonneg hD (by linarith) (by linarith)
  rw [mul_neg, ← neg_add, Int.neg_tdiv, Int.neg_tdiv] at hneg
  linarith

section

variable {ι : Type} [DecidableEq ι] {D : ℤ} {p : LazyPool ι} {m n : ι} {x : ℤ}

@[simp] theorem settle_stake :
    (p.settle D n).stake = update p.stake n (p.remaining D n) := rfl

@[simp] theorem settle_tally :
    (p.settle D n).tally =
      update p.tally n ((p.remaining D n * p.perToken).tdiv D) := rfl

@[simp] theorem settle_total : (p.settle D n).total = p.total - p.toSlash D n := rfl

@[simp] theorem settle_current : (p.settle D n).current = p.current := rfl

@[simp] theorem settle_perToken : (p.settle D n).perToken = p.perToken := rfl

@[simp] theorem adjust_stake :
    (p.adjust D n x).stake = update p.stake n (p.stake n + x) := rfl

@[simp] theorem adjust_tally :
    (p.adjust D n x).tally =
      update p.tally n (p.tally n + (p.perToken * x).tdiv D) := rfl

@[simp] theorem adjust_total : (p.adjust D n x).total = p.total + x := rfl

@[simp] theorem adjust_current : (p.adjust D n x).current = p.current + x := rfl

@[simp] theorem adjust_perToken : (p.adjust D n x).perToken = p.perToken := rfl

@[simp] theorem adjust_zero : p.adjust D n 0 = p := by
  ext k <;> simp

omit [DecidableEq ι] in
@[simp] theorem slash_zero : p.slash D 0 = p := by
  simp [slash]

@[simp] theorem toSlash_settle_self : (p.settle D n).toSlash D n = 0 := by
  simp [toSlash]

theorem toSlash_settle_of_ne (h : m ≠ n) : (p.settle D n).toSlash D m = p.toSlash D m := by
  simp [toSlash, h]

/-- Settling a position changes what remains to nobody. -/
@[simp] theorem remaining_settle : (p.settle D n).remaining D m = p.remaining D m := by
  by_cases h : m = n
  · subst h
    simp [remaining]
  · simp [remaining, toSlash_settle_of_ne h, h]

omit [DecidableEq ι] in
theorem stake_eq_remaining (h : p.toSlash D n = 0) : p.stake n = p.remaining D n := by
  rw [remaining, h, sub_zero]

/-- A position without an announced slash is settled already. -/
theorem settle_of_toSlash_eq_zero (h : p.toSlash D n = 0) : p.settle D n = p := by
  have htally : (p.remaining D n * p.perToken).tdiv D = p.tally n := by
    rw [← stake_eq_remaining h]
    exact sub_eq_zero.mp h
  ext k
  · rw [settle_stake, ← stake_eq_remaining h, update_eq_self]
  · rw [settle_tally, htally, update_eq_self]
  · rw [settle_total, h, sub_zero]
  · rfl
  · rfl

/-- No slash was announced to `n`. -/
structure UnslashedAt (p : LazyPool ι) (n : ι) : Prop where
  perToken : p.perToken = 0
  tally : p.tally n = 0

omit [DecidableEq ι] in
theorem UnslashedAt.toSlash (h : p.UnslashedAt n) : p.toSlash D n = 0 := by
  rw [LazyPool.toSlash, h.perToken, h.tally, mul_zero, Int.zero_tdiv, sub_zero]

omit [DecidableEq ι] in
theorem UnslashedAt.remaining (h : p.UnslashedAt n) : p.remaining D n = p.stake n :=
  (stake_eq_remaining h.toSlash).symm

/-- Settling any position leaves one without announced slashes as it is. -/
theorem UnslashedAt.settle (h : p.UnslashedAt n) (m : ι) :
    (p.settle D m).UnslashedAt n ∧ (p.settle D m).stake n = p.stake n := by
  by_cases hm : n = m
  · subst hm
    exact ⟨⟨h.perToken, by simp [h.perToken]⟩, by simp [h.remaining]⟩
  · exact ⟨⟨h.perToken, by simp [hm, h.tally]⟩, by simp [hm]⟩

theorem UnslashedAt.adjust (h : p.UnslashedAt n) (m : ι) : (p.adjust D m x).UnslashedAt n where
  perToken := h.perToken
  tally := by
    by_cases hm : n = m
    · subst hm
      simp [h.perToken, h.tally]
    · simp [hm, h.tally]

theorem settle_settle : (p.settle D n).settle D n = p.settle D n :=
  settle_of_toSlash_eq_zero toSlash_settle_self

theorem toSlash_adjust_of_ne (h : m ≠ n) : (p.adjust D n x).toSlash D m = p.toSlash D m := by
  simp [toSlash, h]

theorem remaining_adjust_of_ne (h : m ≠ n) :
    (p.adjust D n x).remaining D m = p.remaining D m := by
  simp [remaining, toSlash_adjust_of_ne h, h]

/-- Settling one position commutes with what another participant does. -/
theorem settle_comm_adjust (h : m ≠ n) :
    (p.adjust D m x).settle D n = (p.settle D n).adjust D m x := by
  have hne : n ≠ m := h.symm
  ext k
  · simp [remaining_adjust_of_ne hne, h, update_comm h]
  · simp [remaining_adjust_of_ne hne, h, update_comm h]
  · simp only [settle_total, adjust_total, toSlash_adjust_of_ne hne]
    ring
  · rfl
  · rfl

theorem settle_comm (h : m ≠ n) :
    (p.settle D m).settle D n = (p.settle D n).settle D m := by
  ext k
  · simp [update_comm h]
  · simp [update_comm h]
  · simp only [settle_total, toSlash_settle_of_ne h, toSlash_settle_of_ne h.symm]
    ring
  · rfl
  · rfl

/-- Depositing or withdrawing whole units changes what remains by exactly that amount. -/
theorem remaining_adjust_self (hD : 0 < D) (hs : 0 ≤ p.stake n) (hsx : 0 ≤ p.stake n + x)
    (hx : D ∣ x) :
    (p.adjust D n x).remaining D n = p.remaining D n + x := by
  obtain ⟨k, rfl⟩ := hx
  have hexact : (p.perToken * (D * k)).tdiv D = p.perToken * k := by
    rw [mul_left_comm, Int.mul_tdiv_cancel_left _ hD.ne']
  have hsplit : (p.stake n + D * k) * p.perToken =
      p.stake n * p.perToken + D * (p.perToken * k) := by
    ring
  have hround : ((p.stake n + D * k) * p.perToken).tdiv D =
      (p.stake n * p.perToken).tdiv D + p.perToken * k := by
    rw [hsplit]
    -- both products have the sign of the slash per token
    rcases le_total 0 p.perToken with hp | hp
    · apply tdiv_add_mul_of_nonneg hD (mul_nonneg hs hp)
      rw [← hsplit]
      exact mul_nonneg hsx hp
    · apply tdiv_add_mul_of_nonpos hD (mul_nonpos_of_nonneg_of_nonpos hs hp)
      rw [← hsplit]
      exact mul_nonpos_of_nonneg_of_nonpos hsx hp
  simp only [remaining, toSlash, adjust_stake, adjust_tally, adjust_perToken,
    update_self, hexact, hround]
  ring

omit [DecidableEq ι] in
theorem remaining_slash (m : ι) :
    (p.slash D x).remaining D m = p.remaining D m - p.charge D x m := by
  simp only [remaining, toSlash, slash, charge]
  ring

end

/-! ## Shares -/

/-- Rounding toward zero moves a quotient by less than one. -/
theorem abs_tdiv_sub_div_lt (a : ℤ) {b : ℤ} (hb : b ≠ 0) :
    |((a.tdiv b : ℤ) : ℚ) - a / b| < 1 := by
  have hb' : (b : ℚ) ≠ 0 := by exact_mod_cast hb
  have hmod : |a.tmod b| < |b| := by
    rw [Int.abs_eq_natAbs, Int.abs_eq_natAbs, Int.natAbs_tmod]
    exact_mod_cast Nat.mod_lt _ (Int.natAbs_pos.mpr hb)
  have hdecomp : (a : ℚ) = b * (a.tdiv b : ℤ) + (a.tmod b : ℤ) := by
    exact_mod_cast (Int.mul_tdiv_add_tmod a b).symm
  have hdiff : ((a.tdiv b : ℤ) : ℚ) - a / b = -((a.tmod b : ℤ) : ℚ) / b := by
    rw [hdecomp]
    field_simp
    ring
  rw [hdiff, abs_div, abs_neg, div_lt_one (abs_pos.mpr hb')]
  exact_mod_cast hmod

/-- A slash charges each position its share of the total stake, up to rounding: two of the
smallest units, and one more for every whole unit of the position. -/
theorem abs_charge_sub_share_lt {ι : Type} {D : ℤ} {p : LazyPool ι} (hD : 0 < D)
    (htotal : p.total ≠ 0) (x : ℤ) (n : ι) :
    |(p.charge D x n : ℚ) - p.stake n * x / p.total| < 2 + |(p.stake n : ℚ)| / D := by
  have hDQ : (0 : ℚ) < D := by exact_mod_cast hD
  have hTQ : (p.total : ℚ) ≠ 0 := by exact_mod_cast htotal
  set δ : ℤ := (x * D).tdiv p.total with hδ
  have hafter := abs_tdiv_sub_div_lt (p.stake n * (p.perToken + δ)) hD.ne'
  have hbefore := abs_tdiv_sub_div_lt (p.stake n * p.perToken) hD.ne'
  have hrate := abs_tdiv_sub_div_lt (x * D) htotal
  rw [← hδ] at hrate
  push_cast at hafter hbefore hrate
  -- the error of the rate, weighted with the stake
  have hweighted : |(p.stake n : ℚ) / D * (δ - x * D / p.total)| ≤ |(p.stake n : ℚ)| / D := by
    rw [abs_mul, abs_div, abs_of_pos hDQ]
    exact mul_le_of_le_one_right (by positivity) hrate.le
  have hsplit : (p.charge D x n : ℚ) - p.stake n * x / p.total =
      (((p.stake n * (p.perToken + δ)).tdiv D : ℤ) - p.stake n * (p.perToken + δ) / D) -
        (((p.stake n * p.perToken).tdiv D : ℤ) - p.stake n * p.perToken / D) +
        (p.stake n : ℚ) / D * (δ - x * D / p.total) := by
    rw [charge, ← hδ]
    push_cast
    field_simp
    ring
  rw [hsplit]
  rw [abs_lt] at hafter hbefore ⊢
  rw [abs_le] at hweighted
  constructor <;> linarith [hafter.1, hafter.2, hbefore.1, hbefore.2, hweighted.1, hweighted.2]

/-! ## Solvency -/

/-- A sum changes by the change of the one term that differs. -/
theorem sum_eq_add_sub_of_eq_off {ι : Type} [Fintype ι] [DecidableEq ι] {f g : ι → ℤ} (n : ι)
    (h : ∀ m, m ≠ n → g m = f m) : ∑ m, g m = ∑ m, f m + (g n - f n) := by
  have hrest : ∑ m ∈ Finset.univ.erase n, g m = ∑ m ∈ Finset.univ.erase n, f m :=
    Finset.sum_congr rfl fun m hm => h m (Finset.ne_of_mem_erase hm)
  rw [← Finset.add_sum_erase _ g (Finset.mem_univ n),
    ← Finset.add_sum_erase _ f (Finset.mem_univ n), hrest]
  ring

section

variable {ι : Type} [Fintype ι] {D : ℤ} {p : LazyPool ι} {n : ι} {x loss : ℤ}

/-- What a slash takes beyond, or leaves of, its amount because of rounding. -/
def slashLoss (D : ℤ) (p : LazyPool ι) (x : ℤ) : ℤ :=
  x - ∑ n, p.charge D x n

/-- The books of a pool whose participants are all solvent: the stakes add up to the total,
what remains adds up to the current stake plus the accumulated rounding `loss`, and nobody
has less than nothing. -/
structure Balanced (D : ℤ) (p : LazyPool ι) (loss : ℤ) : Prop where
  stake_nonneg : ∀ n, 0 ≤ p.stake n
  remaining_nonneg : ∀ n, 0 ≤ p.remaining D n
  perToken_nonneg : 0 ≤ p.perToken
  total_eq : p.total = ∑ n, p.stake n
  sum_remaining : ∑ n, p.remaining D n = p.current + loss

theorem Balanced.empty (D : ℤ) : Balanced D (LazyPool.empty ι) 0 where
  stake_nonneg _ := le_rfl
  remaining_nonneg _ := by simp [remaining, toSlash, LazyPool.empty]
  perToken_nonneg := le_rfl
  total_eq := by simp [LazyPool.empty]
  sum_remaining := by simp [remaining, toSlash, LazyPool.empty]

/-- A slash keeps the books balanced, up to its own rounding loss, if it charges nobody more
than remains to them. -/
theorem Balanced.slash (h : Balanced D p loss) (hD : 0 < D) (hx : 0 ≤ x)
    (hcover : ∀ n, p.charge D x n ≤ p.remaining D n) :
    Balanced D (p.slash D x) (loss + p.slashLoss D x) where
  stake_nonneg := h.stake_nonneg
  remaining_nonneg m := by
    rw [remaining_slash]
    exact sub_nonneg.mpr (hcover m)
  perToken_nonneg := by
    have htotal : 0 ≤ p.total := by
      rw [h.total_eq]
      exact Finset.sum_nonneg fun m _ => h.stake_nonneg m
    exact add_nonneg h.perToken_nonneg (Int.tdiv_nonneg (mul_nonneg hx hD.le) htotal)
  total_eq := h.total_eq
  sum_remaining := by
    have hcurrent : (p.slash D x).current = p.current - x := rfl
    simp only [remaining_slash, Finset.sum_sub_distrib, h.sum_remaining, hcurrent, slashLoss]
    ring

/-- While the rounding losses stay below one unit, the whole units that remain to any group
of participants are covered by the current stake. -/
theorem Balanced.sum_whole_le (h : Balanced D p loss) (hD : 0 < D) (hloss : loss < D)
    (hwhole : D ∣ p.current) (A : Finset ι) :
    ∑ n ∈ A, (p.remaining D n).tdiv D ≤ p.current.tdiv D := by
  obtain ⟨c, hc⟩ := hwhole
  have hfloor : ∀ n, D * (p.remaining D n).tdiv D ≤ p.remaining D n := fun n =>
    Int.mul_tdiv_self_le (h.remaining_nonneg n)
  have hsum : D * ∑ n ∈ A, (p.remaining D n).tdiv D < D * (c + 1) := by
    calc D * ∑ n ∈ A, (p.remaining D n).tdiv D
        = ∑ n ∈ A, D * (p.remaining D n).tdiv D := Finset.mul_sum _ _ _
      _ ≤ ∑ n ∈ A, p.remaining D n := Finset.sum_le_sum fun n _ => hfloor n
      _ ≤ ∑ n, p.remaining D n :=
          Finset.sum_le_univ_sum_of_nonneg fun n => h.remaining_nonneg n
      _ < D * (c + 1) := by
          rw [h.sum_remaining, hc, mul_add, mul_one]
          exact add_lt_add_right hloss _
  have hlt := lt_of_mul_lt_mul_left hsum hD.le
  rw [hc, Int.mul_tdiv_cancel_left _ hD.ne']
  omega

variable [DecidableEq ι]

theorem total_settle (h : p.total = ∑ m, p.stake m) :
    (p.settle D n).total = ∑ m, (p.settle D n).stake m := by
  rw [sum_eq_add_sub_of_eq_off (f := p.stake) n fun m hm => by simp [hm], settle_total, h]
  simp only [settle_stake, update_self, remaining]
  ring

theorem total_adjust (h : p.total = ∑ m, p.stake m) :
    (p.adjust D n x).total = ∑ m, (p.adjust D n x).stake m := by
  rw [sum_eq_add_sub_of_eq_off (f := p.stake) n fun m hm => by simp [hm], adjust_total, h]
  simp

theorem Balanced.settle (h : Balanced D p loss) (n : ι) : Balanced D (p.settle D n) loss where
  stake_nonneg m := by
    by_cases hm : m = n
    · subst hm
      simpa using h.remaining_nonneg m
    · simpa [hm] using h.stake_nonneg m
  remaining_nonneg m := by
    rw [remaining_settle]
    exact h.remaining_nonneg m
  perToken_nonneg := h.perToken_nonneg
  total_eq := total_settle h.total_eq
  sum_remaining := by simpa using h.sum_remaining

/-- A change of a settled position by whole units keeps the books balanced, as long as the
position keeps a non-negative stake. -/
theorem Balanced.adjust (hD : 0 < D) (h : Balanced D p loss) (hset : p.toSlash D n = 0)
    (hsx : 0 ≤ p.stake n + x) (hx : D ∣ x) : Balanced D (p.adjust D n x) loss := by
  have hself : (p.adjust D n x).remaining D n = p.remaining D n + x :=
    remaining_adjust_self hD (h.stake_nonneg n) hsx hx
  constructor
  · intro m
    by_cases hm : m = n
    · subst hm
      simpa using hsx
    · simpa [hm] using h.stake_nonneg m
  · intro m
    by_cases hm : m = n
    · subst hm
      rw [hself, ← stake_eq_remaining hset]
      exact hsx
    · rw [remaining_adjust_of_ne hm]
      exact h.remaining_nonneg m
  · exact h.perToken_nonneg
  · exact total_adjust h.total_eq
  · rw [sum_eq_add_sub_of_eq_off (f := p.remaining D) n
      fun m hm => remaining_adjust_of_ne hm, hself, h.sum_remaining, adjust_current]
    ring

end

end LazyPool

end Foundation
