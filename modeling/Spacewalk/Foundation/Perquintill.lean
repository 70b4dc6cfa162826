import Mathlib.Algebra.BigOperators.Ring.List
import Mathlib.Algebra.Order.Group.Nat
import Mathlib.Algebra.Order.BigOperators.Group.List
import Mathlib.Data.Nat.ModEq

/-!
# Parts of a quintillion

The proportions of the substrate arithmetic library (`Perquintill`): a number of parts out of
`10 ^ 18`.  A ratio of two numbers is rounded down; a ratio that is not a proportion, with zero as
its denominator or with a value above one, counts as one.  The shares of parts that add up to a
whole never exceed the amount that is shared (`sum_mulFloor_le`).
-/

namespace Foundation

/-- One, in parts. -/
def Perquintill.accuracy : ℕ := 10 ^ 18

/-- A proportion. -/
structure Perquintill where
  parts : ℕ
  parts_le : parts ≤ Perquintill.accuracy

namespace Perquintill

theorem accuracy_pos : 0 < accuracy := by decide

/-- Everything. -/
def one : Perquintill := ⟨accuracy, le_refl _⟩

/-- What a part and a whole are divided by before their ratio is taken, so that both fit into the
type of the parts. -/
def factor (whole : ℕ) : ℕ := max ((whole + accuracy - 1) / accuracy) 1

def ratio (part whole : ℕ) : ℕ :=
  part / factor whole * accuracy / (whole / factor whole)

theorem ratio_le {part whole : ℕ} (h : part ≤ whole) : ratio part whole ≤ accuracy := by
  apply Nat.div_le_of_le_mul
  exact Nat.mul_le_mul_right accuracy (Nat.div_le_div_right h)

def fromRational (part whole : ℕ) : Perquintill :=
  if h : whole ≠ 0 ∧ part ≤ whole then ⟨ratio part whole, ratio_le h.2⟩ else one

def mulFloor (x : Perquintill) (amount : ℕ) : ℕ := x.parts * amount / accuracy

@[simp] theorem fromRational_zero (part : ℕ) : fromRational part 0 = one := by
  simp [fromRational]

@[simp] theorem mulFloor_one (amount : ℕ) : one.mulFloor amount = amount :=
  Nat.mul_div_cancel_left amount accuracy_pos

theorem parts_fromRational {part whole : ℕ} (hwhole : whole ≠ 0) (hpart : part ≤ whole) :
    (fromRational part whole).parts = ratio part whole := by
  rw [fromRational, dif_pos ⟨hwhole, hpart⟩]

section

/-- Rounding down before adding gives at most what rounding down afterwards gives. -/
theorem sum_div_le (d : ℕ) (l : List ℕ) : (l.map (· / d)).sum ≤ l.sum / d := by
  induction l with
  | nil => simp
  | cons n l ih =>
    rw [List.map_cons, List.sum_cons, List.sum_cons]
    exact (Nat.add_le_add_left ih _).trans Nat.div_add_div_le_add_div

/-- Shares of an amount, for numbers that add up to at most the denominator. -/
theorem sum_mul_div_le {l : List ℕ} {d : ℕ} (h : l.sum ≤ d) (amount : ℕ) :
    (l.map fun n => n * amount / d).sum ≤ amount := by
  have hsplit : (l.map fun n => n * amount / d) = (l.map (· * amount)).map (· / d) := by
    rw [List.map_map]
    rfl
  rw [hsplit]
  refine (sum_div_le _ _).trans (Nat.div_le_of_le_mul ?_)
  rw [List.sum_map_mul_right, List.map_id']
  exact Nat.mul_le_mul_right amount h

/-- The ratios of parts that add up to at most the whole add up to at most one. -/
theorem sum_ratio_le {whole : ℕ} {parts : List ℕ} (hsum : parts.sum ≤ whole) :
    (parts.map fun part => ratio part whole).sum ≤ accuracy := by
  have hreduced : (parts.map (· / factor whole)).sum ≤ whole / factor whole :=
    (sum_div_le _ _).trans (Nat.div_le_div_right hsum)
  have hshares := sum_mul_div_le hreduced accuracy
  rwa [List.map_map] at hshares

/-- Shares of an amount, in proportion to parts that add up to at most the whole, add up to at most
the amount. -/
theorem sum_mulFloor_le {whole : ℕ} (hwhole : whole ≠ 0) {parts : List ℕ}
    (hsum : parts.sum ≤ whole) (amount : ℕ) :
    (parts.map fun part => (fromRational part whole).mulFloor amount).sum ≤ amount := by
  have hshares := sum_mul_div_le (sum_ratio_le hsum) amount
  rw [List.map_map] at hshares
  refine le_of_eq_of_le (congrArg List.sum (List.map_congr_left ?_)) hshares
  intro part hmem
  have hle : part ≤ whole := (List.le_sum_of_mem hmem).trans hsum
  rw [Function.comp_apply, mulFloor, parts_fromRational hwhole hle]

end

end Perquintill

end Foundation
