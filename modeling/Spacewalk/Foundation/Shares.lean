import Mathlib.Tactic.Ring
import Spacewalk.Foundation.Run

/-!
# Proportional shares

A pot of money belongs to claims of some total weight.  A claim that leaves takes its proportional
share of what is left, rounded down.  The money and the weight shrink together, so that every share
is rounded against another amount and another weight.

* `Run.pot_ratio`: the money per weight never decreases, so nobody who leaves later is worse off.
* `Run.pot_paid_le`: claims that leave one after another take together no more than one claim with
  their total weight would take.
* `Pot.Settled`: a pot without claims is empty.  Every share keeps this (`Takes.settled`), because the
  last claim takes all that is left.  Hence the claims take exactly the pot (`Run.pot_exhausted`).
-/

namespace Foundation

/-- Money and the total weight of the claims on it. -/
structure Pot where
  amount : ℕ
  weight : ℕ

variable (p : Pot)

namespace Pot

/-- The proportional share of a weight, rounded down. -/
def share (w : ℕ) : ℕ := p.amount * w / p.weight

/-- A pot without claims is empty. -/
def Settled : Prop := p.weight = 0 → p.amount = 0

theorem share_le {w : ℕ} (h : w ≤ p.weight) : p.share w ≤ p.amount :=
  Nat.div_le_of_le_mul (Nat.mul_comm p.weight _ ▸ Nat.mul_le_mul_left _ h)

/-- The claim with all weight takes all. -/
theorem share_weight (h : p.Settled) : p.share p.weight = p.amount := by
  unfold share
  rcases Nat.eq_zero_or_pos p.weight with hzero | hpos
  · rw [h hzero, Nat.zero_mul, Nat.zero_div]
  · exact Nat.mul_div_cancel _ hpos

end Pot

/-- A claim leaves the pot: `l` is its weight and its share. -/
structure Takes (p : Pot) (l : ℕ × ℕ) (p' : Pot) : Prop where
  weight : p'.weight + l.1 = p.weight
  amount : p'.amount + l.2 = p.amount
  share : l.2 = p.share l.1

/-- Nothing leaves for no weight. -/
theorem takes_zero : Takes p (0, 0) p where
  weight := rfl
  amount := rfl
  share := by rw [Pot.share, Nat.mul_zero, Nat.zero_div]

section

variable {p p' : Pot} {l : ℕ × ℕ}

/-- A share is not more than its part of the pot, so the rest has no less per weight. -/
theorem Takes.ratio (h : Takes p l p') : p.amount * p'.weight ≤ p'.amount * p.weight := by
  have hshare : l.2 * p.weight ≤ p.amount * l.1 := by
    rw [h.share]
    exact Nat.div_mul_le_self _ _
  have hparts : p.amount * p'.weight + p.amount * l.1 = p'.amount * p.weight + l.2 * p.weight := by
    rw [← Nat.mul_add, ← Nat.add_mul, h.weight, h.amount]
  omega

theorem Takes.settled (h : Takes p l p') (hp : p.Settled) : p'.Settled := by
  intro hzero
  have hall : l.1 = p.weight := by
    have hweight := h.weight
    omega
  have hshare : l.2 = p.amount := by
    rw [h.share, hall, p.share_weight hp]
  have hamount := h.amount
  omega

end

namespace Run

variable {p p' : Pot} {ls : List (ℕ × ℕ)}

/-- The money per weight never decreases. -/
theorem pot_ratio (h : Run Takes p ls p') : p.amount * p'.weight ≤ p'.amount * p.weight := by
  refine h.invariant (I := fun q => p.amount * q.weight ≤ q.amount * p.weight) ?_ le_rfl
  intro q l q' hq hl
  have hstep := hl.ratio
  rcases Nat.eq_zero_or_pos q.weight with hzero | hpos
  · have hzero' : q'.weight = 0 := by
      have hweight := hl.weight
      omega
    rw [hzero', Nat.mul_zero]
    exact Nat.zero_le _
  · apply Nat.le_of_mul_le_mul_right _ hpos
    calc p.amount * q'.weight * q.weight = p.amount * q.weight * q'.weight := by ring
      _ ≤ q.amount * p.weight * q'.weight := Nat.mul_le_mul_right _ hq
      _ = q.amount * q'.weight * p.weight := by ring
      _ ≤ q'.amount * q.weight * p.weight := Nat.mul_le_mul_right _ hstep
      _ = q'.amount * p.weight * q.weight := by ring

theorem pot_amount (h : Run Takes p ls p') : p'.amount + (ls.map Prod.snd).sum = p.amount := by
  have hsum := h.invariant_sum (f := Prod.snd) (I := fun q x => q.amount + x = p.amount)
    (x := 0) (fun q l q' x hq hl => by have hamount := hl.amount; omega) (Nat.add_zero _)
  rwa [Nat.zero_add] at hsum

theorem pot_weight (h : Run Takes p ls p') : p'.weight + (ls.map Prod.fst).sum = p.weight := by
  have hsum := h.invariant_sum (f := Prod.fst) (I := fun q x => q.weight + x = p.weight)
    (x := 0) (fun q l q' x hq hl => by have hweight := hl.weight; omega) (Nat.add_zero _)
  rwa [Nat.zero_add] at hsum

/-- Claims that leave one after another take no more than one claim with their total weight. -/
theorem pot_paid_le (h : Run Takes p ls p') (hpos : 0 < p.weight) :
    (ls.map Prod.snd).sum ≤ p.share (ls.map Prod.fst).sum := by
  have hratio := h.pot_ratio
  have hparts : p.amount * p'.weight + p.amount * (ls.map Prod.fst).sum =
      p'.amount * p.weight + (ls.map Prod.snd).sum * p.weight := by
    rw [← Nat.mul_add, ← Nat.add_mul, h.pot_weight, h.pot_amount]
  apply (Nat.le_div_iff_mul_le hpos).mpr
  omega

theorem pot_settled (h : Run Takes p ls p') (hp : p.Settled) : p'.Settled :=
  h.invariant (I := Pot.Settled) (fun _ _ _ hq hl => hl.settled hq) hp

/-- When no claim is left, the claims have taken exactly the pot. -/
theorem pot_exhausted (h : Run Takes p ls p') (hp : p.Settled) (hzero : p'.weight = 0) :
    (ls.map Prod.snd).sum = p.amount := by
  have hempty := h.pot_settled hp hzero
  have hamount := h.pot_amount
  omega

end Run

end Foundation
