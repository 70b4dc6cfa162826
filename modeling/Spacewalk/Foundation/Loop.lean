import Mathlib.Logic.Relation

/-!
# Loops

A loop runs its body until the body exits.  The body maps a state to the next state (`Sum.inl`) or
to the result with which the loop exits (`Sum.inr`).

`loop` runs the body a bounded number of times, and can be evaluated.  `Exits` is the loop without
a bound: it says that the loop exits, and with which result.  A loop whose every step shrinks the
state, or leaves it as it is, exits within the bound or not at all (`loop_eq_some_iff`).
`exists_loop_eq_some` proves that a loop exits.
-/

namespace Foundation

variable {σ α : Type} {body : σ → σ ⊕ α} {s t : σ} {a b : α}

/-- Run the body of a loop at most `n` times. -/
def loop (body : σ → σ ⊕ α) : Nat → σ → Option α
  | 0, _ => none
  | n + 1, s =>
    match body s with
    | .inl t => loop body n t
    | .inr a => some a

/-- The loop exits with a result. -/
inductive Exits (body : σ → σ ⊕ α) : σ → α → Prop
  | exit {s : σ} {a : α} : body s = .inr a → Exits body s a
  | next {s t : σ} {a : α} : body s = .inl t → Exits body t a → Exits body s a

/-- What a turn of the body gave leads to a result: it is the result, or the loop exits with it from
the next state. -/
def Continues (body : σ → σ ⊕ α) : σ ⊕ α → α → Prop
  | .inl t, a => Exits body t a
  | .inr b, a => a = b

/-- The state reaches another one in the loop. -/
def Reaches (body : σ → σ ⊕ α) : σ → σ → Prop :=
  Relation.ReflTransGen fun s t => body s = .inl t

theorem Reaches.refl (body : σ → σ ⊕ α) (s : σ) : Reaches body s s :=
  Relation.ReflTransGen.refl

theorem Reaches.head {u : σ} (hnext : body s = .inl t) (h : Reaches body t u) : Reaches body s u :=
  Relation.ReflTransGen.head hnext h

/-- A state that is reached is the first one, or it is reached from the next. -/
theorem Reaches.cases_head {u : σ} (h : Reaches body s u) :
    s = u ∨ ∃ t, body s = .inl t ∧ Reaches body t u :=
  Relation.ReflTransGen.cases_head h

namespace Exits

theorem iff_of_exit (hexit : body s = .inr a) : Exits body s b ↔ b = a := by
  constructor
  · intro h
    cases h with
    | exit h => exact Sum.inr.inj (h.symm.trans hexit)
    | next h _ => simp [hexit] at h
  · rintro rfl
    exact .exit hexit

theorem iff_of_next (hnext : body s = .inl t) : Exits body s a ↔ Exits body t a := by
  constructor
  · intro h
    cases h with
    | exit h => simp [hnext] at h
    | next h hrest =>
      obtain rfl := Sum.inl.inj (h.symm.trans hnext)
      exact hrest
  · exact .next hnext

theorem iff_continues : Exits body s a ↔ Continues body (body s) a := by
  cases hbody : body s with
  | inl t => exact iff_of_next hbody
  | inr b => exact iff_of_exit hbody

theorem of_loop {n : Nat} (h : loop body n s = some a) : Exits body s a := by
  induction n generalizing s with
  | zero => cases h
  | succ n ih =>
    rw [loop] at h
    split at h
    · next t hnext => exact .next hnext (ih h)
    · next b hexit =>
      cases h
      exact .exit hexit

end Exits

/-- A loop whose every step shrinks the state exits within as many steps as the state is large. -/
theorem exists_loop_eq_some {I : σ → Prop} (μ : σ → Nat)
    (hstep : ∀ s t, I s → body s = .inl t → I t ∧ μ t < μ s) {s : σ} (hs : I s) {n : Nat}
    (hn : μ s < n) : ∃ a, loop body n s = some a ∧ Exits body s a := by
  induction n generalizing s with
  | zero => exact absurd hn (Nat.not_lt_zero _)
  | succ n ih =>
    rw [loop]
    cases hbody : body s with
    | inl t =>
      obtain ⟨ht, hlt⟩ := hstep s t hs hbody
      obtain ⟨a, hloop, hexits⟩ := ih ht (Nat.lt_of_lt_of_le hlt (Nat.lt_succ_iff.mp hn))
      exact ⟨a, hloop, .next hbody hexits⟩
    | inr a => exact ⟨a, rfl, .exit hbody⟩

/-- If every step shrinks the state or leaves it as it is, then the loop exits within as many steps
as the state is large, or not at all. -/
theorem loop_eq_some_iff (μ : σ → Nat) (hstep : ∀ s t, body s = .inl t → t = s ∨ μ t < μ s)
    {n : Nat} (hn : μ s < n) : loop body n s = some a ↔ Exits body s a := by
  refine ⟨Exits.of_loop, fun h => ?_⟩
  induction h generalizing n with
  | @exit s a hexit =>
    obtain ⟨n, rfl⟩ := Nat.exists_eq_succ_of_ne_zero (Nat.ne_of_gt (Nat.zero_lt_of_lt hn))
    simp [loop, hexit]
  | @next s t a hnext hrest ih =>
    rcases hstep s t hnext with rfl | hlt
    · -- A state that is its own successor never exits, but the induction covers it as well.
      exact ih hn
    · obtain ⟨n, rfl⟩ := Nat.exists_eq_succ_of_ne_zero (Nat.ne_of_gt (Nat.zero_lt_of_lt hn))
      rw [loop, hnext]
      exact ih (Nat.lt_of_lt_of_le hlt (Nat.lt_succ_iff.mp hn))

end Foundation
