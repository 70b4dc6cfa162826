import Spacewalk.Foundation.Dispatch
import Spacewalk.Primitives

/-!
# Amounts

An amount is a balance, a `u128`, together with its currency
(`pallets/currency/src/amount.rs`).
Arithmetic is checked: operands of different currencies, overflows and underflows are
errors.  Every operation has an equivalence (`checkedAdd_eq_ok`, ...) that says when it
succeeds and with which result.
-/

namespace Spacewalk

open Foundation
open DispatchError (overflow underflow)

/-- A balance in a currency. -/
structure Amount where
  amount : Nat
  currencyId : CurrencyId
  deriving DecidableEq

/-- A failure of the currency pallet. -/
abbrev currencyErr (e : CurrencyError) : DispatchError := .currency e

/-! ## Amounts on the Stellar network -/

/-- Balances have 12 decimals on the parachain and 7 on the Stellar network. -/
def decimalsConversionRate : Nat := 10 ^ 5

def isCompatibleWithTarget (sourceAmount : Nat) : Bool :=
  decide (sourceAmount % decimalsConversionRate = 0)

def roundToCompatibleWithTarget (sourceAmount : Nat) : Option Nat := do
  let conversionRate ← FixedPoint.ofInner? unsignedFormat decimalsConversionRate
  let fixedAmount ← FixedPoint.ofInner? unsignedFormat sourceAmount
  let scaled ← fixedAmount.checkedDiv conversionRate
  let roundedAmount ← scaled.round.checkedMul conversionRate
  if isCompatibleWithTarget roundedAmount.inner.toNat then some roundedAmount.inner.toNat
  else none

variable (a b : Amount) (scalar : UnsignedFixedPoint)

namespace Amount

/-- No balance. -/
def zero (currencyId : CurrencyId) : Amount := ⟨0, currencyId⟩

def isZero : Bool := decide (a.amount = 0)

/-- Fail unless the amount can be paid on the Stellar network. -/
def ensureIsCompatibleWithTargetChain : Except DispatchError Unit :=
  ensure (isCompatibleWithTarget a.amount = true) (currencyErr .incompatibleAmount)

/-- Round to an amount that can be paid on the Stellar network. -/
def roundToTargetChain : Except DispatchError Amount := do
  let amount ← okOr (roundToCompatibleWithTarget a.amount) (currencyErr .compatibleRoundingFailed)
  return ⟨amount, a.currencyId⟩

/-- Combine two amounts of one currency. -/
def checkedFn (f : Nat → Nat → Option Nat) (e : DispatchError) : Except DispatchError Amount := do
  ensure (a.currencyId = b.currencyId) (currencyErr .invalidCurrency)
  let amount ← okOr (f a.amount b.amount) e
  return ⟨amount, a.currencyId⟩

def checkedAdd : Except DispatchError Amount :=
  a.checkedFn b (fun x y => if x + y < balanceBound then some (x + y) else none) overflow

def checkedSub : Except DispatchError Amount :=
  a.checkedFn b (fun x y => if y ≤ x then some (x - y) else none) underflow

/-- The difference, or zero. -/
def saturatingSub : Except DispatchError Amount := do
  ensure (a.currencyId = b.currencyId) (currencyErr .invalidCurrency)
  match a.checkedSub b with
  | .ok c => return c
  | .error _ => return zero a.currencyId

/-- A number of an unsigned fixed-point format as a balance. -/
def toBalance? (n : Int) : Option Nat :=
  if n < balanceBound then some n.toNat else none

/-- The product with a fixed-point number, rounded down. -/
def checkedFixedPointMul : Except DispatchError Amount := do
  let amount ← okOr (toBalance? (scalar.mulInt a.amount)) underflow
  return ⟨amount, a.currencyId⟩

/-- The product with a fixed-point number, rounded up. -/
def checkedFixedPointMulRoundedUp : Except DispatchError Amount := do
  let selfFixedPoint ← okOr (FixedPoint.checkedFromInteger unsignedFormat a.amount)
    (currencyErr .tryIntoIntError)
  let product ← okOr (selfFixedPoint.checkedMul scalar) overflow
  let accuracy := unsignedFormat.div.toNat
  ensure (product.inner.toNat + accuracy < balanceBound) overflow
  return ⟨(product.inner.toNat + accuracy - 1) / accuracy, a.currencyId⟩

/-- The quotient by a fixed-point number, rounded down. -/
def checkedDiv : Except DispatchError Amount := do
  let selfFixedPoint ← okOr (FixedPoint.checkedFromInteger unsignedFormat a.amount)
    (currencyErr .tryIntoIntError)
  let quotient ← okOr (selfFixedPoint.checkedDiv scalar) overflow
  return ⟨quotient.truncate.toNat, a.currencyId⟩

/-- The ratio of two amounts of one currency. -/
def ratio : Except DispatchError UnsignedFixedPoint := do
  ensure (a.currencyId = b.currencyId) (currencyErr .invalidCurrency)
  okOr (FixedPoint.checkedFromRational unsignedFormat a.amount b.amount)
    (currencyErr .tryIntoIntError)

/-- The product with a fixed-point number, rounded half up. -/
def roundedMul (fraction : UnsignedFixedPoint) : Except DispatchError Amount := do
  let roundingAddition ← okOr (FixedPoint.checkedFromRational unsignedFormat 1 2)
    (currencyErr .tryIntoIntError)
  let selfFixedPoint ← okOr (FixedPoint.checkedFromInteger unsignedFormat a.amount) overflow
  let product ← okOr (selfFixedPoint.checkedMul fraction) overflow
  let sum ← okOr (product.checkedAdd roundingAddition) overflow
  return ⟨sum.truncate.toNat, a.currencyId⟩

/-- Compare two amounts of one currency. -/
def compare (r : Nat → Nat → Bool) : Except DispatchError Bool := do
  ensure (a.currencyId = b.currencyId) (currencyErr .invalidCurrency)
  return r a.amount b.amount

/-- The amount is less. -/
def lt : Except DispatchError Bool := a.compare b fun x y => decide (x < y)

/-- The amount is less or equal. -/
def le : Except DispatchError Bool := a.compare b fun x y => decide (x ≤ y)

/-- The amounts are equal. -/
def eq : Except DispatchError Bool := a.compare b fun x y => decide (x = y)

/-- The amounts differ. -/
def ne : Except DispatchError Bool := do return !(← a.eq b)

/-- The amount is greater or equal. -/
def ge : Except DispatchError Bool := a.compare b fun x y => decide (y ≤ x)

/-- The amount is greater. -/
def gt : Except DispatchError Bool := a.compare b fun x y => decide (y < x)

def min : Except DispatchError Amount := do
  ensure (a.currencyId = b.currencyId) (currencyErr .invalidCurrency)
  return if ← a.le b then a else b

/-! ## Outcomes -/

section

variable {a b c : Amount} {scalar : UnsignedFixedPoint}

@[simp] theorem isZero_eq_true : a.isZero = true ↔ a.amount = 0 := by
  simp [isZero]

/-- The integer part of a fixed-point number is a balance. -/
theorem truncate_lt (x : UnsignedFixedPoint) : x.truncate.toNat < balanceBound := by
  have hnonneg : 0 ≤ x.inner := x.min_le
  have hmax : x.inner ≤ 2 ^ 128 - 1 := x.le_max
  have htruncate : x.truncate ≤ x.inner := by
    rw [FixedPoint.truncate, Int.tdiv_eq_ediv_of_nonneg hnonneg]
    exact Int.ediv_le_self _ hnonneg
  simp only [balanceBound]
  omega

theorem checkedAdd_eq_ok :
    a.checkedAdd b = .ok c ↔ a.currencyId = b.currencyId ∧ a.amount + b.amount < balanceBound ∧
      c = ⟨a.amount + b.amount, a.currencyId⟩ := by
  simp only [checkedAdd, checkedFn, except_rules, Option.ite_none_right_eq_some, Option.some.injEq]
  constructor
  · rintro ⟨-, hc, _, ⟨hlt, rfl⟩, rfl⟩
    exact ⟨hc, hlt, rfl⟩
  · rintro ⟨hc, hlt, rfl⟩
    exact ⟨(), hc, _, ⟨hlt, rfl⟩, rfl⟩

theorem checkedSub_eq_ok :
    a.checkedSub b = .ok c ↔ a.currencyId = b.currencyId ∧ b.amount ≤ a.amount ∧
      c = ⟨a.amount - b.amount, a.currencyId⟩ := by
  simp only [checkedSub, checkedFn, except_rules, Option.ite_none_right_eq_some, Option.some.injEq]
  constructor
  · rintro ⟨-, hc, _, ⟨hle, rfl⟩, rfl⟩
    exact ⟨hc, hle, rfl⟩
  · rintro ⟨hc, hle, rfl⟩
    exact ⟨(), hc, _, ⟨hle, rfl⟩, rfl⟩

theorem saturatingSub_eq_ok :
    a.saturatingSub b = .ok c ↔
      a.currencyId = b.currencyId ∧ c = ⟨a.amount - b.amount, a.currencyId⟩ := by
  simp only [saturatingSub, except_rules]
  constructor
  · rintro ⟨-, hc, h⟩
    refine ⟨hc, ?_⟩
    cases hsub : a.checkedSub b with
    | ok d =>
      rw [hsub] at h
      obtain ⟨-, -, rfl⟩ := checkedSub_eq_ok.mp hsub
      simp only [except_pure_eq_ok] at h
      exact h.symm
    | error e =>
      rw [hsub] at h
      have hlt : ¬ b.amount ≤ a.amount := fun hle => by
        have := checkedSub_eq_ok.mpr ⟨hc, hle, rfl⟩
        rw [hsub] at this
        cases this
      simp only [except_pure_eq_ok] at h
      rw [← h, zero, Nat.sub_eq_zero_of_le (by omega)]
  · rintro ⟨hc, rfl⟩
    refine ⟨(), hc, ?_⟩
    cases hsub : a.checkedSub b with
    | ok d =>
      obtain ⟨-, -, rfl⟩ := checkedSub_eq_ok.mp hsub
      simp
    | error e =>
      have hlt : ¬ b.amount ≤ a.amount := fun hle => by
        have := checkedSub_eq_ok.mpr ⟨hc, hle, rfl⟩
        rw [hsub] at this
        cases this
      simp only [except_pure_eq_ok]
      rw [zero, Nat.sub_eq_zero_of_le (by omega)]

theorem compare_eq_ok {r : Nat → Nat → Bool} {t : Bool} :
    a.compare b r = .ok t ↔ a.currencyId = b.currencyId ∧ t = r a.amount b.amount := by
  simp only [compare, except_rules]
  constructor
  · rintro ⟨-, hc, rfl⟩
    exact ⟨hc, rfl⟩
  · rintro ⟨hc, rfl⟩
    exact ⟨(), hc, rfl⟩

theorem min_eq_ok :
    a.min b = .ok c ↔ a.currencyId = b.currencyId ∧
      c = ⟨Min.min a.amount b.amount, a.currencyId⟩ := by
  simp only [min, except_rules, le, compare_eq_ok]
  have hvalue : a.currencyId = b.currencyId →
      (if decide (a.amount ≤ b.amount) = true then a else b) =
        ⟨Min.min a.amount b.amount, a.currencyId⟩ := by
    intro hc
    by_cases hle : a.amount ≤ b.amount
    · simp [hle]
    · rw [if_neg (by simpa using hle), Nat.min_eq_right (by omega), hc]
  constructor
  · rintro ⟨-, hc, _, ⟨-, rfl⟩, rfl⟩
    exact ⟨hc, hvalue hc⟩
  · rintro ⟨hc, rfl⟩
    exact ⟨(), hc, _, ⟨hc, rfl⟩, hvalue hc⟩

/-- A product has the currency of the amount. -/
theorem roundedMul_currencyId (h : a.roundedMul scalar = .ok c) : c.currencyId = a.currencyId := by
  simp only [roundedMul, except_rules] at h
  obtain ⟨_, -, _, -, _, -, _, -, rfl⟩ := h
  rfl

end

end Amount

end Spacewalk
