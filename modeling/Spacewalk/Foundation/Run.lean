import Mathlib.Algebra.Group.Basic
import Mathlib.Data.List.Basic
import Mathlib.Data.Set.Insert

/-!
# Labelled runs

A system is given by its labelled steps `step s l s'`.  A run is a finite sequence of
steps, recorded by its list of labels.  The induction over runs is packaged once:
`Run.invariant` for properties of the state reached, `Run.invariant_sum` for properties that speak
of a sum over the labels, and `Run.invariant_of_nodup` for properties that need the labels to carry
distinct values.
-/

namespace Foundation

variable {σ ℓ : Type}

/-- `Run step s ls s'`: from `s` the steps labelled `ls`, in this order, lead to `s'`. -/
inductive Run (step : σ → ℓ → σ → Prop) : σ → List ℓ → σ → Prop
  | nil (s : σ) : Run step s [] s
  | cons {s t u : σ} {l : ℓ} {ls : List ℓ} :
      step s l t → Run step t ls u → Run step s (l :: ls) u

namespace Run

variable {step : σ → ℓ → σ → Prop} {s t u : σ} {l : ℓ} {ls ls' : List ℓ} {ℓ' : Type} {I : σ → Prop}
  {step' : σ → ℓ' → σ → Prop} {g : ℓ' → ℓ}

theorem append (h : Run step s ls t) (h' : Run step t ls' u) : Run step s (ls ++ ls') u := by
  induction h with
  | nil => exact h'
  | cons hstep _ ih => exact .cons hstep (ih h')

theorem single (h : step s l t) : Run step s [l] t :=
  .cons h (.nil t)

@[simp] theorem nil_iff : Run step s [] t ↔ s = t := by
  constructor
  · intro h
    cases h
    rfl
  · rintro rfl
    exact .nil s

@[simp] theorem cons_iff :
    Run step s (l :: ls) u ↔ ∃ t, step s l t ∧ Run step t ls u := by
  constructor
  · intro h
    cases h with
    | cons hstep hrest => exact ⟨_, hstep, hrest⟩
  · rintro ⟨t, hstep, hrest⟩
    exact .cons hstep hrest

/-- A run can be cut anywhere. -/
theorem append_iff : Run step s (ls ++ ls') u ↔ ∃ t, Run step s ls t ∧ Run step t ls' u := by
  constructor
  · intro h
    induction ls generalizing s with
    | nil => exact ⟨s, .nil s, h⟩
    | cons l ls ih =>
      obtain ⟨t, hstep, hrest⟩ := cons_iff.mp h
      obtain ⟨u', hls, hls'⟩ := ih hrest
      exact ⟨u', .cons hstep hls, hls'⟩
  · rintro ⟨t, hls, hls'⟩
    exact hls.append hls'

/-- A property kept by every step holds after every run that starts in it. -/
theorem invariant (hstep : ∀ s l t, I s → step s l t → I t) (h : Run step s ls t) (hs : I s) :
    I t := by
  induction h with
  | nil => exact hs
  | cons hl _ ih => exact ih (hstep _ _ _ hs hl)

/-- If every step from a state with the invariant is a step of another system, under a view of the
states and of the labels, then so is every run. -/
theorem simulates {σ' : Type} {step' : σ' → ℓ' → σ' → Prop} {f : σ → σ'} {g : ℓ → ℓ'}
    (hstep : ∀ s l t, I s → step s l t → I t ∧ step' (f s) (g l) (f t)) (h : Run step s ls t)
    (hs : I s) : Run step' (f s) (ls.map g) (f t) := by
  induction h with
  | nil s => exact .nil (f s)
  | cons hl _ ih =>
    obtain ⟨ht, hl'⟩ := hstep _ _ _ hs hl
    exact .cons hl' (ih ht)

/-- A run is a run of every larger step relation. -/
theorem mono {step' : σ → ℓ → σ → Prop} (hle : ∀ s l t, step s l t → step' s l t)
    (h : Run step s ls t) : Run step' s ls t := by
  induction h with
  | nil s => exact .nil s
  | cons hl _ ih => exact .cons (hle _ _ _ hl) ih

/-- An invariant may speak of a sum over the labels, to which every step adds. -/
theorem invariant_sum {M : Type} [AddMonoid M] {f : ℓ → M} {I : σ → M → Prop}
    (hstep : ∀ s l t x, I s x → step s l t → I t (x + f l))
    (h : Run step s ls t) {x : M} (hs : I s x) : I t (x + (ls.map f).sum) := by
  induction h generalizing x with
  | nil => simpa using hs
  | @cons s t u l ls hl _ ih =>
    rw [List.map_cons, List.sum_cons, ← add_assoc]
    exact ih (hstep s l t x hs hl)

/-- Labels may carry a value, and no value occurs twice in the run.  Then an invariant may speak
of the values `A` that occurred before, and every step may assume that its value is new. -/
theorem invariant_of_nodup {α : Type} {f : ℓ → Option α} {I : σ → Set α → Prop}
    (hstep : ∀ s l t A, I s A → step s l t → (∀ a, f l = some a → a ∉ A) →
      I t (A ∪ {a | f l = some a}))
    (h : Run step s ls t) (hnodup : (ls.filterMap f).Nodup) {A : Set α} (hs : I s A)
    (hnew : ∀ a ∈ ls.filterMap f, a ∉ A) : I t (A ∪ {a | a ∈ ls.filterMap f}) := by
  induction h generalizing A with
  | nil => simpa using hs
  | @cons s t u l ls hl _ ih =>
    cases hvalue : f l with
    | none =>
      rw [List.filterMap_cons_none hvalue] at hnodup hnew ⊢
      have ht := hstep s l t A hs hl (by simp [hvalue])
      refine ih hnodup ?_ hnew
      simpa [hvalue] using ht
    | some a =>
      rw [List.filterMap_cons_some hvalue] at hnodup hnew ⊢
      obtain ⟨hnotin, hrest⟩ := List.nodup_cons.mp hnodup
      have ht := hstep s l t A hs hl (by
        intro b hb
        obtain rfl := Option.mem_unique hvalue hb
        exact hnew a List.mem_cons_self)
      have hu := ih hrest ht (by
        intro b hb hmem
        rcases hmem with hA | hb'
        · exact hnew b (List.mem_cons_of_mem a hb) hA
        · obtain rfl := Option.mem_unique hvalue hb'
          exact hnotin hb)
      have hset : A ∪ {b | f l = some b} ∪ {b | b ∈ ls.filterMap f} =
          A ∪ {b | b ∈ a :: ls.filterMap f} := by
        ext b
        simp only [hvalue, Set.mem_union, Set.mem_ofPred_eq, Option.some.injEq, List.mem_cons,
          or_assoc, eq_comm (a := a)]
      rwa [hset] at hu

/-- Steps may assume what holds of every label of the run. -/
theorem and_label {P : σ → ℓ → Prop} (h : Run step s ls t) (hP : ∀ l ∈ ls, ∀ s, P s l) :
    Run (fun s l t => step s l t ∧ P s l) s ls t := by
  induction h with
  | nil => exact .nil _
  | @cons s t u l ls hl _ ih =>
    exact .cons ⟨hl, hP l List.mem_cons_self s⟩ (ih fun l' hl' => hP l' (List.mem_cons_of_mem l hl'))

/-- An invariant of the state and of the labels so far. -/
theorem invariant_log {I : σ → List ℓ → Prop}
    (hstep : ∀ s log l t, I s log → step s l t → I t (log ++ [l]))
    (h : Run step s ls t) (hs : I s []) : I t ls := by
  -- the labels of the run come after those that were there before
  suffices hall : ∀ log, I s log → I t (log ++ ls) from hall [] hs
  clear hs
  induction h with
  | nil =>
    intro log hs
    simpa using hs
  | @cons s t u l ls hl _ ih =>
    intro log hs
    have hrest := ih (log ++ [l]) (hstep s log l t hs hl)
    rwa [List.append_assoc] at hrest

/-- If every step from a state with an invariant has a more detailed label, then so has every run. -/
theorem exists_labels (hstep : ∀ s l t, I s → step s l t → I t ∧ ∃ l', g l' = l ∧ step' s l' t)
    (h : Run step s ls t) (hs : I s) : ∃ ls', ls'.map g = ls ∧ Run step' s ls' t := by
  induction h with
  | nil s => exact ⟨[], rfl, .nil s⟩
  | cons hl _ ih =>
    obtain ⟨ht, l', rfl, hl'⟩ := hstep _ _ _ hs hl
    obtain ⟨ls', rfl, hrest⟩ := ih ht
    exact ⟨l' :: ls', rfl, .cons hl' hrest⟩

/-- If every step has a more detailed label, then so has every run. -/
theorem exists_map_iff (hstep : ∀ s l t, step s l t ↔ ∃ l', g l' = l ∧ step' s l' t) :
    Run step s ls t ↔ ∃ ls', ls'.map g = ls ∧ Run step' s ls' t := by
  constructor
  · intro h
    exact h.exists_labels (I := fun _ => True)
      (fun s l t _ hl => ⟨trivial, (hstep s l t).mp hl⟩) trivial
  · rintro ⟨ls', rfl, h⟩
    induction h with
    | nil s => exact .nil s
    | cons hl _ ih => exact .cons ((hstep _ _ _).mpr ⟨_, rfl, hl⟩) ih

/-- If two conditions on steps agree wherever an invariant holds, and the invariant is kept by the
steps that meet them, then they hold along the same runs. -/
theorem and_congr {P Q : σ → ℓ → σ → Prop} (hiff : ∀ s l t, I s → step s l t → (P s l t ↔ Q s l t))
    (hkeeps : ∀ s l t, I s → step s l t → P s l t → I t) (hs : I s) :
    Run (fun s l t => step s l t ∧ P s l t) s ls t ↔
      Run (fun s l t => step s l t ∧ Q s l t) s ls t := by
  induction ls generalizing s with
  | nil => rw [nil_iff, nil_iff]
  | cons l ls ih =>
    rw [cons_iff, cons_iff]
    constructor
    · rintro ⟨r, ⟨hstep, hP⟩, hrest⟩
      exact ⟨r, ⟨hstep, (hiff s l r hs hstep).mp hP⟩, (ih (hkeeps s l r hs hstep hP)).mp hrest⟩
    · rintro ⟨r, ⟨hstep, hQ⟩, hrest⟩
      have hP := (hiff s l r hs hstep).mpr hQ
      exact ⟨r, ⟨hstep, hP⟩, (ih (hkeeps s l r hs hstep hP)).mpr hrest⟩

end Run

/-- Replay labels with an executable step. -/
def replay (exec : σ → ℓ → Option σ) : σ → List ℓ → Option σ
  | s, [] => some s
  | s, l :: ls => (exec s l).bind fun t => replay exec t ls

section

variable {step : σ → ℓ → σ → Prop} {exec : σ → ℓ → Option σ} {s : σ} {ls : List ℓ} {p : σ → Prop}

/-- A replay that goes through is a run. -/
theorem Run.of_replay (hexec : ∀ s l t, exec s l = some t → step s l t) {t : σ}
    (h : replay exec s ls = some t) : Run step s ls t := by
  induction ls generalizing s with
  | nil => exact nil_iff.mpr (by simpa [replay] using h)
  | cons l ls ih =>
    simp only [replay, Option.bind_eq_some_iff] at h
    obtain ⟨r, hr, hrest⟩ := h
    exact .cons (hexec s l r hr) (ih hrest)

/-- What an option holds can be checked. -/
instance decidableExistsEqSome {α : Type*} {p : α → Prop} [DecidablePred p] :
    (o : Option α) → Decidable (∃ a, o = some a ∧ p a)
  | none => isFalse (by simp)
  | some a => decidable_of_iff (p a) (by simp)

/-- A checked replay gives a run to a state with the property that was checked. -/
theorem Run.exists_of_replay (hexec : ∀ s l t, exec s l = some t → step s l t)
    (h : ∃ t, replay exec s ls = some t ∧ p t) : ∃ t, Run step s ls t ∧ p t :=
  h.imp fun _ ht => ⟨.of_replay hexec ht.1, ht.2⟩

/-- So does one that goes on only after steps that pass a check. -/
theorem Run.exists_of_checked (hexec : ∀ s l t, exec s l = some t → step s l t)
    {c : σ → ℓ → σ → Bool} {P : σ → ℓ → σ → Prop} (hcheck : ∀ s l t, c s l t = true → P s l t)
    (h : ∃ t, replay (fun s l => (exec s l).filter (c s l)) s ls = some t ∧ p t) :
    ∃ t, Run (fun s l t => step s l t ∧ P s l t) s ls t ∧ p t := by
  refine exists_of_replay (fun s l t hs => ?_) h
  obtain ⟨hstep, hpasses⟩ := Option.filter_eq_some_iff.mp hs
  exact ⟨hexec s l t hstep, hcheck s l t hpasses⟩

end

end Foundation
