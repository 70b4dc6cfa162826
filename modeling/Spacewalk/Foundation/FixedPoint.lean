import Mathlib.Tactic.Ring

/-!
# Checked fixed-point numbers

A fixed-point format has a range of representable inner integers and a scale.  A number
of the format carries the proof that its inner value is in range, so that an overflowing
value cannot be built: every operation that could leave the range returns an `Option`.
Multiplication and division round toward zero.

Each operation has one equivalence (`checkedAdd_eq_some`, `checkedMul_eq_some`, ...) that
says which inner value a successful result has.
-/

namespace Foundation

/-- A fixed-point format: least and greatest inner value, and the inner value of one. -/
structure Format where
  /-- Least representable inner value. -/
  min : Int
  /-- Greatest representable inner value. -/
  max : Int
  /-- Inner value of the number one. -/
  div : Int
  min_le_zero : min ≤ 0
  zero_le_max : 0 ≤ max
  div_pos : 0 < div

/-- A number of the format `F`, given by its inner value. -/
@[ext] structure FixedPoint (F : Format) where
  /-- The inner value, the number times `F.div`. -/
  inner : Int
  min_le : F.min ≤ inner
  le_max : inner ≤ F.max

namespace FixedPoint

variable {F : Format} {x y z : FixedPoint F} {n : Int}

instance : DecidableEq (FixedPoint F) := fun x y =>
  decidable_of_iff (x.inner = y.inner) FixedPoint.ext_iff.symm

instance : Zero (FixedPoint F) := ⟨⟨0, F.min_le_zero, F.zero_le_max⟩⟩

instance : Inhabited (FixedPoint F) := ⟨0⟩

@[simp] theorem inner_zero : (0 : FixedPoint F).inner = 0 := rfl

/-- The number with inner value `n`, if it is representable. -/
def ofInner? (F : Format) (n : Int) : Option (FixedPoint F) :=
  if h : F.min ≤ n ∧ n ≤ F.max then some ⟨n, h.1, h.2⟩ else none

theorem ofInner?_eq_some : ofInner? F n = some x ↔ x.inner = n := by
  unfold ofInner?
  split
  · rw [Option.some.injEq, FixedPoint.ext_iff]
    exact eq_comm
  · rename_i hout
    simp only [reduceCtorEq, false_iff]
    rintro rfl
    exact hout ⟨x.min_le, x.le_max⟩

theorem exists_inner_eq : (∃ x : FixedPoint F, x.inner = n) ↔ F.min ≤ n ∧ n ≤ F.max := by
  constructor
  · rintro ⟨x, rfl⟩
    exact ⟨x.min_le, x.le_max⟩
  · rintro ⟨hmin, hmax⟩
    exact ⟨⟨n, hmin, hmax⟩, rfl⟩

theorem inner_getD (h : F.min ≤ n ∧ n ≤ F.max) : ((ofInner? F n).getD x).inner = n := by
  rw [ofInner?, dif_pos h]
  rfl

def checkedAdd (x y : FixedPoint F) : Option (FixedPoint F) :=
  ofInner? F (x.inner + y.inner)

def checkedSub (x y : FixedPoint F) : Option (FixedPoint F) :=
  ofInner? F (x.inner - y.inner)

/-- Checked multiplication, rounding toward zero. -/
def checkedMul (x y : FixedPoint F) : Option (FixedPoint F) :=
  ofInner? F ((x.inner * y.inner).tdiv F.div)

/-- Checked division, rounding toward zero; division by zero gives no result. -/
def checkedDiv (x y : FixedPoint F) : Option (FixedPoint F) :=
  if y.inner = 0 then none else ofInner? F ((x.inner * F.div).tdiv y.inner)

/-- The number with integer value `n`, if it is representable. -/
def checkedFromInteger (F : Format) (n : Int) : Option (FixedPoint F) :=
  ofInner? F (n * F.div)

/-- The integer part, rounding toward zero. -/
def truncate (x : FixedPoint F) : Int :=
  x.inner.tdiv F.div

/-- The largest number of the format. -/
def greatest (F : Format) : FixedPoint F :=
  ⟨F.max, F.min_le_zero.trans F.zero_le_max, le_refl _⟩

/-- The rational `n / d`, rounded toward zero; no result for the denominator zero. -/
def checkedFromRational (F : Format) (n d : Int) : Option (FixedPoint F) :=
  if d = 0 then none else ofInner? F ((n * F.div).tdiv d)

/-- The product with an integer, as an integer, rounding toward zero.  The caller checks
whether the result is representable. -/
def mulInt (x : FixedPoint F) (n : Int) : Int :=
  (x.inner * n).tdiv F.div

/-- Round a number that is not negative to a whole number, half up; saturates. -/
def round (x : FixedPoint F) : FixedPoint F :=
  let whole := x.truncate * F.div
  let rounded := if (x.inner - whole) * 10 < 5 * F.div then whole else whole + F.div
  (ofInner? F rounded).getD (greatest F)

@[simp] theorem checkedAdd_eq_some : checkedAdd x y = some z ↔ z.inner = x.inner + y.inner :=
  ofInner?_eq_some

@[simp] theorem checkedSub_eq_some : checkedSub x y = some z ↔ z.inner = x.inner - y.inner :=
  ofInner?_eq_some

@[simp] theorem checkedMul_eq_some :
    checkedMul x y = some z ↔ z.inner = (x.inner * y.inner).tdiv F.div :=
  ofInner?_eq_some

@[simp] theorem checkedDiv_eq_some :
    checkedDiv x y = some z ↔
      y.inner ≠ 0 ∧ z.inner = (x.inner * F.div).tdiv y.inner := by
  unfold checkedDiv
  by_cases h : y.inner = 0 <;> simp [h, ofInner?_eq_some]

@[simp] theorem checkedFromInteger_eq_some :
    checkedFromInteger F n = some z ↔ z.inner = n * F.div :=
  ofInner?_eq_some

/-- The number is a whole number of units. -/
def IsWhole (x : FixedPoint F) : Prop :=
  F.div ∣ x.inner

/-- On whole numbers the integer part loses nothing. -/
theorem IsWhole.truncate_mul_div (h : x.IsWhole) : x.truncate * F.div = x.inner := by
  obtain ⟨k, hk⟩ := h
  rw [truncate, hk, Int.mul_tdiv_cancel_left _ F.div_pos.ne', mul_comm]

end FixedPoint

end Foundation
