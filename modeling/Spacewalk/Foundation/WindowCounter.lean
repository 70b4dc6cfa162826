import Mathlib.Algebra.BigOperators.Group.List.Basic
import Mathlib.Algebra.Order.Ring.Nat
import Spacewalk.Foundation.Run

/-!
# Counters per window

A counter limits a volume per window of time.  It stores the window in which it was last reset
and the volume that was counted since.  `roll` resets it when the window has changed, and `add`
counts an amount; time may pass in between.

The counter bounds the volume of every window if an amount is only added while the counter stands
in the current window and has room for it (`volumeIn_le`).  Both conditions are about the moment at
which the amount is added.  A counter that is rolled and checked at another moment, when an amount
is announced, bounds nothing.
-/

namespace Foundation

/-- The window of the last reset, and the volume counted since. -/
structure WindowCounter where
  window : ℕ
  volume : ℕ

namespace WindowCounter

/-- Reset the counter if the window has changed. -/
def roll (c : WindowCounter) (now : ℕ) : WindowCounter :=
  if c.window = now then c else ⟨now, 0⟩

/-- Count an amount. -/
def add (c : WindowCounter) (x : ℕ) : WindowCounter := { c with volume := c.volume + x }

/-- A step of a counter with a limit, in the current window `now`.  The label is the window and the
amount of what is counted. -/
inductive Step (limit : ℕ) : ℕ × WindowCounter → Option (ℕ × ℕ) → ℕ × WindowCounter → Prop
  | idle {now later : ℕ} {c : WindowCounter} : now ≤ later → Step limit (now, c) none (later, c)
  | roll {now : ℕ} {c : WindowCounter} : Step limit (now, c) none (now, c.roll now)
  | add {now x : ℕ} {c : WindowCounter} : c.window = now → c.volume + x ≤ limit →
      Step limit (now, c) (some (now, x)) (now, c.add x)

/-- What a label adds to the volume of each window. -/
def counted : Option (ℕ × ℕ) → ℕ → ℕ
  | none => 0
  | some (window, x) => Pi.single window x

/-- The volume of each window. -/
def volumeIn (labels : List (Option (ℕ × ℕ))) : ℕ → ℕ := (labels.map counted).sum

/-- The invariant of a counter when the windows have the volumes `m`: all are within the limit, later
windows are empty, the current one is empty as long as the counter stands elsewhere, and the
counter does not miss anything of its window. -/
structure Bounds (limit : ℕ) (t : ℕ × WindowCounter) (m : ℕ → ℕ) : Prop where
  le_limit : ∀ i, m i ≤ limit
  later : ∀ i, t.1 < i → m i = 0
  current : m t.1 ≠ 0 → t.2.window = t.1
  counter : m t.2.window ≤ t.2.volume

variable {limit : ℕ} {t t' : ℕ × WindowCounter} {m : ℕ → ℕ} {label : Option (ℕ × ℕ)}

theorem Bounds.step (h : Bounds limit t m) (hstep : Step limit t label t') :
    Bounds limit t' (m + counted label) := by
  cases hstep with
  | @idle now later c hle =>
    simp only [counted, add_zero]
    refine ⟨h.le_limit, fun i hi => h.later i (hle.trans_lt hi), fun hne => ?_, h.counter⟩
    -- a window that has just begun is empty
    rcases hle.eq_or_lt with rfl | hlt
    · exact h.current hne
    · exact absurd (h.later later hlt) hne
  | @roll now c =>
    simp only [counted, add_zero]
    by_cases hwindow : c.window = now
    · rw [WindowCounter.roll, if_pos hwindow]
      exact h
    · rw [WindowCounter.roll, if_neg hwindow]
      have hempty : m now = 0 := by
        by_contra hne
        exact hwindow (h.current hne)
      exact ⟨h.le_limit, h.later, fun _ => rfl, hempty.le⟩
  | @add now x c hwindow hroom =>
    have hcurrent : m now ≤ c.volume := hwindow ▸ h.counter
    have hself : (m + counted (some (now, x))) now = m now + x := by simp [counted]
    have hother (i : ℕ) (hi : i ≠ now) : (m + counted (some (now, x))) i = m i := by
      simp [counted, hi]
    refine ⟨fun i => ?_, fun i hi => ?_, fun _ => hwindow, ?_⟩
    · by_cases hi : i = now
      · rw [hi, hself]
        omega
      · rw [hother i hi]
        exact h.le_limit i
    · rw [hother i hi.ne']
      exact h.later i hi
    · rw [WindowCounter.add, hwindow, hself]
      exact Nat.add_le_add_right hcurrent x

/-- The volume of every window of a run is within the limit. -/
theorem volumeIn_le {labels : List (Option (ℕ × ℕ))} (hrun : Run (Step limit) t labels t') (i : ℕ) :
    volumeIn labels i ≤ limit := by
  have hstart : Bounds limit t 0 :=
    ⟨fun _ => Nat.zero_le _, fun _ _ => rfl, fun hne => absurd rfl hne, Nat.zero_le _⟩
  have hend := hrun.invariant_sum (f := counted) (I := Bounds limit)
    (fun _ _ _ _ h hstep => h.step hstep) hstart
  rw [zero_add] at hend
  exact hend.le_limit i

end WindowCounter

end Foundation
