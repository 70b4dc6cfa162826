import Mathlib.Algebra.BigOperators.Group.List.Basic
import Mathlib.Tactic.Ring

/-!
# Scaling with rounding

A computation with fixed-point numbers multiplies and divides a natural number step by step, and
rounds down after each step.  `scaleDown` applies a list of such factors.

Whatever the factors are, a larger number gives no smaller result (`scaleDown_mono`), two numbers
give together no more than their sum (`scaleDown_add_le`), and the result is at most what exact
arithmetic gives (`scaleDown_mul_le`).  Hence a list of factors whose product is at most one never
increases a number (`scaleDown_le_self`): converting there and back creates nothing.  It keeps the
number exactly if no step rounds (`Exact`, `scaleDown_eq_self_iff`).
-/

namespace Foundation

/-- A factor: multiply by `num`, divide by `den` and round down. -/
structure Factor where
  num : ℕ
  den : ℕ

variable (f : Factor) (x : ℕ)

namespace Factor

/-- Apply the factor. -/
def scale : ℕ := x * f.num / f.den

theorem scale_mono {x y : ℕ} (h : x ≤ y) : f.scale x ≤ f.scale y :=
  Nat.div_le_div_right (Nat.mul_le_mul_right _ h)

theorem scale_add_le (y : ℕ) : f.scale x + f.scale y ≤ f.scale (x + y) := by
  unfold scale
  rw [Nat.add_mul]
  exact Nat.div_add_div_le_add_div

theorem scale_mul_le : f.scale x * f.den ≤ x * f.num :=
  Nat.div_mul_le_self _ _

end Factor

/-- Apply the factors one after another. -/
def scaleDown : List Factor → ℕ → ℕ
  | [], x => x
  | f :: fs, x => scaleDown fs (f.scale x)

def numerator (fs : List Factor) : ℕ := (fs.map Factor.num).prod

def denominator (fs : List Factor) : ℕ := (fs.map Factor.den).prod

section

variable {fs gs : List Factor} {x y : ℕ}

theorem scaleDown_append (fs gs : List Factor) (x : ℕ) :
    scaleDown (fs ++ gs) x = scaleDown gs (scaleDown fs x) := by
  induction fs generalizing x with
  | nil => rfl
  | cons f fs ih => exact ih (f.scale x)

theorem numerator_append (fs gs : List Factor) :
    numerator (fs ++ gs) = numerator fs * numerator gs := by
  simp [numerator]

theorem denominator_append (fs gs : List Factor) :
    denominator (fs ++ gs) = denominator fs * denominator gs := by
  simp [denominator]

@[simp] theorem scaleDown_zero (fs : List Factor) : scaleDown fs 0 = 0 := by
  induction fs with
  | nil => rfl
  | cons f fs ih =>
    have hzero : f.scale 0 = 0 := by simp [Factor.scale]
    rw [scaleDown, hzero, ih]

theorem scaleDown_mono (fs : List Factor) (h : x ≤ y) : scaleDown fs x ≤ scaleDown fs y := by
  induction fs generalizing x y with
  | nil => exact h
  | cons f fs ih => exact ih (f.scale_mono h)

theorem scaleDown_add_le (fs : List Factor) (x y : ℕ) :
    scaleDown fs x + scaleDown fs y ≤ scaleDown fs (x + y) := by
  induction fs generalizing x y with
  | nil => exact le_rfl
  | cons f fs ih =>
    calc scaleDown fs (f.scale x) + scaleDown fs (f.scale y)
        ≤ scaleDown fs (f.scale x + f.scale y) := ih _ _
      _ ≤ scaleDown fs (f.scale (x + y)) := scaleDown_mono fs (f.scale_add_le x y)

/-- Rounding down gives at most the exact product. -/
theorem scaleDown_mul_le (fs : List Factor) (x : ℕ) :
    scaleDown fs x * denominator fs ≤ x * numerator fs := by
  induction fs generalizing x with
  | nil => simp [scaleDown, numerator, denominator]
  | cons f fs ih =>
    have hnum : numerator (f :: fs) = f.num * numerator fs := by simp [numerator]
    have hden : denominator (f :: fs) = f.den * denominator fs := by simp [denominator]
    rw [hnum, hden]
    calc scaleDown fs (f.scale x) * (f.den * denominator fs)
        = scaleDown fs (f.scale x) * denominator fs * f.den := by ring
      _ ≤ f.scale x * numerator fs * f.den := Nat.mul_le_mul_right _ (ih _)
      _ = f.scale x * f.den * numerator fs := by ring
      _ ≤ x * f.num * numerator fs := Nat.mul_le_mul_right _ (f.scale_mul_le x)
      _ = x * (f.num * numerator fs) := by ring

/-- A division by zero gives zero, and nothing more can come of it. -/
theorem scaleDown_eq_zero (h : denominator fs = 0) (x : ℕ) : scaleDown fs x = 0 := by
  induction fs generalizing x with
  | nil => simp [denominator] at h
  | cons f fs ih =>
    have hden : denominator (f :: fs) = f.den * denominator fs := by simp [denominator]
    rw [hden, Nat.mul_eq_zero] at h
    rcases h with hzero | hrest
    · have hscale : f.scale x = 0 := by simp [Factor.scale, hzero]
      rw [scaleDown, hscale, scaleDown_zero]
    · exact ih hrest _

/-- Factors whose product is at most one do not increase a number. -/
theorem scaleDown_le_self (h : numerator fs ≤ denominator fs) (x : ℕ) : scaleDown fs x ≤ x := by
  rcases Nat.eq_zero_or_pos (denominator fs) with hzero | hpos
  · rw [scaleDown_eq_zero hzero]
    exact Nat.zero_le x
  · apply Nat.le_of_mul_le_mul_right _ hpos
    calc scaleDown fs x * denominator fs ≤ x * numerator fs := scaleDown_mul_le fs x
      _ ≤ x * denominator fs := Nat.mul_le_mul_left _ h

/-- No step rounds. -/
def Exact : List Factor → ℕ → Prop
  | [], _ => True
  | f :: fs, x => f.den ∣ x * f.num ∧ Exact fs (f.scale x)

theorem Factor.scale_mul_eq_iff (f : Factor) : f.scale x * f.den = x * f.num ↔ f.den ∣ x * f.num :=
  ⟨fun h => ⟨f.scale x, by rw [← h, Nat.mul_comm]⟩, Nat.div_mul_cancel⟩

/-- The result is that of exact arithmetic if and only if no step rounds. -/
theorem scaleDown_mul_eq_iff (hnum : 0 < numerator fs) (hden : 0 < denominator fs) :
    scaleDown fs x * denominator fs = x * numerator fs ↔ Exact fs x := by
  induction fs generalizing x with
  | nil => simp [scaleDown, numerator, denominator, Exact]
  | cons f fs ih =>
    have hnumerator : numerator (f :: fs) = f.num * numerator fs := by simp [numerator]
    have hdenominator : denominator (f :: fs) = f.den * denominator fs := by simp [denominator]
    rw [hnumerator] at hnum ⊢
    rw [hdenominator] at hden ⊢
    have hN := Nat.pos_of_mul_pos_left hnum
    have hD := Nat.pos_of_mul_pos_left hden
    have hstep := f.scale_mul_le x
    have hrest := scaleDown_mul_le fs (f.scale x)
    rw [Exact, ← ih hN hD, ← f.scale_mul_eq_iff, scaleDown]
    constructor
    · intro h
      -- A loss in the first step or in the others would make the whole smaller.
      have hfirst : x * f.num * numerator fs ≤ f.scale x * f.den * numerator fs :=
        calc x * f.num * numerator fs
            = scaleDown fs (f.scale x) * denominator fs * f.den := by rw [mul_assoc, ← h]; ring
          _ ≤ f.scale x * numerator fs * f.den := Nat.mul_le_mul_right _ hrest
          _ = f.scale x * f.den * numerator fs := by ring
      have hexact := le_antisymm hstep (Nat.le_of_mul_le_mul_right hfirst hN)
      refine ⟨hexact, Nat.eq_of_mul_eq_mul_right (Nat.pos_of_mul_pos_right hden) ?_⟩
      calc scaleDown fs (f.scale x) * denominator fs * f.den
          = x * f.num * numerator fs := by rw [mul_assoc x, ← h]; ring
        _ = f.scale x * numerator fs * f.den := by rw [← hexact]; ring
    · rintro ⟨hexact, hothers⟩
      calc scaleDown fs (f.scale x) * (f.den * denominator fs)
          = scaleDown fs (f.scale x) * denominator fs * f.den := by ring
        _ = f.scale x * f.den * numerator fs := by rw [hothers]; ring
        _ = x * (f.num * numerator fs) := by rw [hexact]; ring

/-- Factors whose product is one keep a number if and only if no step rounds. -/
theorem scaleDown_eq_self_iff (h : numerator fs = denominator fs) (hpos : 0 < denominator fs) :
    scaleDown fs x = x ↔ Exact fs x := by
  rw [← scaleDown_mul_eq_iff (h ▸ hpos) hpos, h]
  exact (Nat.mul_left_inj hpos.ne').symm

/-- Scaling there and back does not increase a number. -/
theorem scaleDown_scaleDown_le
    (h : numerator fs * numerator gs ≤ denominator fs * denominator gs) (x : ℕ) :
    scaleDown gs (scaleDown fs x) ≤ x := by
  rw [← scaleDown_append]
  apply scaleDown_le_self
  rwa [numerator_append, denominator_append]

end

end Foundation
