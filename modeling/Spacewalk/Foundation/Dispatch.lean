import Mathlib.Data.List.Forall2
import Mathlib.Logic.Relation

/-!
# Transactional state computations

A dispatchable computation reads and writes a state and may fail; a failed computation
has no effect.  `Returns m s a s'` says that `m` started in `s` succeeds with the value
`a` and leaves the state `s'`.  Every program construct has an equivalence for `Returns`
(`returns_bind`, `returns_ite`, `returns_liftM`, ...), so that unfolding a program and
rewriting with them yields the guards it passed and the state it wrote, in both
directions.  `Fails m s e` says that it fails with the error `e`, and has such equivalences, too.

On top of it stands a rule for whole programs: `Respects` (start and end state are related by a
reflexive and transitive relation, the form that frame conditions take), which is closed under
the constructs of the language.  `Yields` adds to an invariant a promise about the value.  `Leaves`
is the same as `Respects` for computations that keep what they wrote before a failure.
-/

namespace Foundation

variable {ε σ τ α β : Type} {e e' : ε} {a : α} {b : β} {x : Except ε α} {o : Option α}

/-! ## Fallible values -/

/-- Fail with `e` unless `p` holds. -/
def ensure (p : Prop) [Decidable p] (e : ε) : Except ε Unit :=
  if p then .ok () else .error e

/-- Turn a missing value into the error `e`. -/
def okOr (o : Option α) (e : ε) : Except ε α :=
  match o with
  | some a => .ok a
  | none => .error e

@[simp] theorem ensure_eq_ok {p : Prop} [Decidable p] {u : Unit} : ensure p e = .ok u ↔ p := by
  unfold ensure
  split <;> simp_all

@[simp] theorem okOr_eq_ok : okOr o e = .ok a ↔ o = some a := by
  cases o <;> simp [okOr]

@[simp] theorem except_bind_eq_ok {f : α → Except ε β} :
    (x >>= f) = .ok b ↔ ∃ a, x = .ok a ∧ f a = .ok b := by
  cases x <;> simp [bind, Except.bind]

@[simp] theorem except_map_eq_ok {f : α → β} : (f <$> x) = .ok b ↔ ∃ a, x = .ok a ∧ f a = b := by
  cases x <;> simp [Functor.map, Except.map]

@[simp] theorem except_pure_eq_ok {b : α} : (pure a : Except ε α) = .ok b ↔ a = b := by
  simp [pure, Except.pure]

@[simp] theorem except_throw_eq_ok {b : α} : (throw e : Except ε α) = .ok b ↔ False := by
  simp [throw, throwThe, MonadExceptOf.throw]

/-- The rules by which a fallible value is taken apart. -/
theorem except_rules : (type_of% @except_bind_eq_ok) ∧ (type_of% @except_pure_eq_ok) ∧
    (type_of% @ensure_eq_ok) ∧ type_of% @okOr_eq_ok :=
  ⟨except_bind_eq_ok, except_pure_eq_ok, ensure_eq_ok, okOr_eq_ok⟩

theorem except_ite_eq_ok {c : Prop} [Decidable c] {y : Except ε α} {b : α} :
    (if c then x else y) = .ok b ↔ (c ∧ x = .ok b) ∨ (¬c ∧ y = .ok b) := by
  by_cases h : c <;> simp [h]

theorem ensure_eq_error {p : Prop} [Decidable p] : ensure p e = .error e' ↔ ¬p ∧ e = e' := by
  unfold ensure
  split <;> simp_all

theorem ok_unique (h : x = .ok a) {a' : α} (h' : x = .ok a') : a = a' :=
  Except.ok.inj (h.symm.trans h')

theorem okOr_eq_error : okOr o e = .error e' ↔ o = none ∧ e = e' := by
  cases o <;> simp [okOr]

theorem except_bind_eq_error {f : α → Except ε β} :
    (x >>= f) = .error e ↔ x = .error e ∨ ∃ a, x = .ok a ∧ f a = .error e := by
  cases x <;> simp [bind, Except.bind]

/-- The computation fails at most with the given errors. -/
def FailsWithin (errors : List ε) (x : Except ε α) : Prop :=
  ∀ e, x = .error e → e ∈ errors

namespace FailsWithin

variable {errors : List ε}

protected theorem pure : FailsWithin errors (pure a) :=
  fun _ h => nomatch h

protected theorem ensure {p : Prop} [Decidable p] (h : e ∈ errors) :
    FailsWithin errors (ensure p e) := by
  intro e' he
  obtain ⟨-, rfl⟩ := ensure_eq_error.mp he
  exact h

protected theorem okOr (h : e ∈ errors) : FailsWithin errors (okOr o e) := by
  intro e' he
  obtain ⟨-, rfl⟩ := okOr_eq_error.mp he
  exact h

protected theorem bind {f : α → Except ε β} (hx : FailsWithin errors x)
    (hf : ∀ a, FailsWithin errors (f a)) : FailsWithin errors (x >>= f) := by
  intro e he
  rcases except_bind_eq_error.mp he with h | ⟨a, -, h⟩
  · exact hx e h
  · exact hf a e h

end FailsWithin

/-- A fold fails exactly if it fails at some element, after the elements before it have passed. -/
theorem except_foldlM_eq_error {f : β → α → Except ε β} {l : List α} :
    l.foldlM f b = .error e ↔
      ∃ before a after c, l = before ++ a :: after ∧ before.foldlM f b = .ok c ∧
        f c a = .error e := by
  induction l generalizing b with
  | nil => simp [pure, Except.pure]
  | cons a l ih =>
    rw [List.foldlM_cons, except_bind_eq_error]
    constructor
    · rintro (hfail | ⟨c, hc, hrest⟩)
      · exact ⟨[], a, l, b, rfl, rfl, hfail⟩
      · obtain ⟨before, a', after, d, rfl, hbefore, hfail⟩ := ih.mp hrest
        refine ⟨a :: before, a', after, d, rfl, ?_, hfail⟩
        rw [List.foldlM_cons, except_bind_eq_ok]
        exact ⟨c, hc, hbefore⟩
    · rintro ⟨before, a', after, c, hl, hbefore, hfail⟩
      cases before with
      | nil =>
        obtain ⟨rfl, rfl⟩ := List.cons.inj hl
        cases hbefore
        exact .inl hfail
      | cons a'' before =>
        obtain ⟨rfl, rfl⟩ := List.cons.inj hl
        rw [List.foldlM_cons, except_bind_eq_ok] at hbefore
        obtain ⟨d, hd, hbefore⟩ := hbefore
        exact .inr ⟨d, hd, ih.mpr ⟨before, a', after, c, rfl, hbefore, hfail⟩⟩

theorem except_mapM_eq_ok {f : α → Except ε β} :
    ∀ {l : List α} {l' : List β}, l.mapM f = .ok l' ↔ List.Forall₂ (fun a b => f a = .ok b) l l' := by
  intro l
  induction l with
  | nil =>
    intro l'
    rw [List.mapM_nil, except_pure_eq_ok, List.forall₂_nil_left_iff, eq_comm]
  | cons a l ih =>
    intro l'
    simp only [List.mapM_cons, except_bind_eq_ok, except_pure_eq_ok, List.forall₂_cons_left_iff, ih]
    grind

/-- Lists whose entries correspond have corresponding members. -/
theorem exists_mem_iff_of_forall₂ {r : α → β → Prop} {P : α → Prop} {Q : β → Prop}
    (hr : ∀ a b, r a b → (P a ↔ Q b)) {l : List α} {l' : List β} (h : List.Forall₂ r l l') :
    (∃ a ∈ l, P a) ↔ ∃ b ∈ l', Q b := by
  induction h with
  | nil => simp
  | cons hab _ ih => simp only [List.exists_mem_cons_iff, hr _ _ hab, ih]

/-! ## Successful outcomes -/

/-- A computation over the state `σ` that may fail with an error in `ε`; the error
carries no state, so a failure rolls everything back. -/
abbrev Dispatch (ε σ α : Type) := StateT σ (Except ε) α

/-- `m`, started in `s`, succeeds with value `a` in state `s'`. -/
def Returns (m : Dispatch ε σ α) (s : σ) (a : α) (s' : σ) : Prop :=
  m.run s = .ok (a, s')

/-- The state a computation leaves, if it succeeds. -/
def outcome (m : Dispatch ε σ α) (s : σ) : Option σ :=
  match m.run s with
  | .ok (_, s') => some s'
  | .error _ => none

variable {m : Dispatch ε σ α} {s s' : σ} {f : α → Dispatch ε σ β} {u : PUnit} {n : Dispatch ε σ α}

theorem outcome_eq_some : outcome m s = some s' ↔ ∃ a, Returns m s a s' := by
  unfold outcome Returns
  cases hm : m.run s with
  | error e => simp
  | ok p => simp [Prod.ext_iff]

instance decidableExistsReturns {m : Dispatch ε σ Unit} {s : σ} {p : σ → Prop} [DecidablePred p] :
    Decidable (∃ s', Returns m s () s' ∧ p s') :=
  decidable_of_iff ((outcome m s).any fun s' => decide (p s')) (by
    simp [Option.any_eq_true, outcome_eq_some, Unique.exists_iff])

/-- The error a computation fails with, if it fails. -/
def errorOf (m : Dispatch ε σ α) (s : σ) : Option ε :=
  match m.run s with
  | .ok _ => none
  | .error e => some e

theorem not_returns_of_errorOf (h : errorOf m s = some e) : ¬ Returns m s a s' := by
  intro hret
  unfold Returns at hret
  simp [errorOf, hret] at h

@[simp] theorem returns_pure {b : α} :
    Returns (pure a : Dispatch ε σ α) s b s' ↔ a = b ∧ s = s' := by
  rw [Returns, StateT.run_pure, except_pure_eq_ok, Prod.mk.injEq]

@[simp] theorem returns_bind :
    Returns (m >>= f) s b s' ↔ ∃ a s₁, Returns m s a s₁ ∧ Returns (f a) s₁ b s' := by
  unfold Returns
  rw [StateT.run_bind, except_bind_eq_ok]
  constructor
  · rintro ⟨⟨a, s₁⟩, hm, hf⟩
    exact ⟨a, s₁, hm, hf⟩
  · rintro ⟨a, s₁, hm, hf⟩
    exact ⟨(a, s₁), hm, hf⟩

theorem returns_discard {u : Unit} :
    Returns (m >>= fun _ => pure ()) s u s' ↔ ∃ a, Returns m s a s' := by
  simp only [returns_bind, returns_pure, true_and, exists_eq_right]

@[simp] theorem returns_map {f : α → β} :
    Returns (f <$> m) s b s' ↔ ∃ a, Returns m s a s' ∧ f a = b := by
  rw [map_eq_pure_bind]
  simp only [returns_bind, returns_pure]
  constructor
  · rintro ⟨a, s₁, hm, hb, hs⟩
    exact ⟨a, hs ▸ hm, hb⟩
  · rintro ⟨a, hm, hb⟩
    exact ⟨a, s', hm, hb, rfl⟩

@[simp] theorem returns_get {a : σ} : Returns (get : Dispatch ε σ σ) s a s' ↔ s = a ∧ s = s' := by
  simp [Returns, StateT.run_get, pure, Except.pure]

@[simp] theorem returns_set {t : σ} : Returns (set t : Dispatch ε σ PUnit) s u s' ↔ t = s' := by
  simp [Returns, StateT.run_set, pure, Except.pure]

@[simp] theorem returns_modify {f : σ → σ} :
    Returns (modify f : Dispatch ε σ PUnit) s u s' ↔ f s = s' := by
  simp [Returns, StateT.run_modify, pure, Except.pure]

@[simp] theorem returns_throw : Returns (throw e : Dispatch ε σ α) s a s' ↔ False := by
  simp [Returns, throw, throwThe, MonadExceptOf.throw, StateT.lift, StateT.run, bind,
    Except.bind]

@[simp] theorem returns_liftM : Returns (liftM x : Dispatch ε σ α) s a s' ↔ x = .ok a ∧ s = s' := by
  cases x <;>
    simp [Returns, liftM, monadLift, MonadLift.monadLift, StateT.lift, StateT.run, bind,
      Except.bind, pure, Except.pure]

@[simp] theorem returns_ite {c : Prop} [Decidable c] :
    Returns (if c then m else n) s a s' ↔
      (c ∧ Returns m s a s') ∨ (¬c ∧ Returns n s a s') := by
  by_cases h : c <;> simp [h]

@[simp] theorem returns_forM_nil {f : β → Dispatch ε σ PUnit} :
    Returns (forM ([] : List β) f) s u s' ↔ s = s' := by
  simp

@[simp] theorem returns_forM_cons {f : β → Dispatch ε σ PUnit} {bs : List β} :
    Returns (forM (b :: bs) f) s u s' ↔
      ∃ s₁, Returns (f b) s ⟨⟩ s₁ ∧ Returns (forM bs f) s₁ u s' := by
  rw [List.forM_cons, returns_bind]
  constructor
  · rintro ⟨⟨⟩, s₁, h⟩
    exact ⟨s₁, h⟩
  · rintro ⟨s₁, h⟩
    exact ⟨⟨⟩, s₁, h⟩

/-- Evaluate a fallible function of the state. -/
def read (f : σ → Except ε α) : Dispatch ε σ α := do
  let s ← get
  f s

theorem returns_liftM_bind {f : α → Dispatch ε σ β} :
    Returns (liftM x >>= f) s b s' ↔ ∃ a, x = .ok a ∧ Returns (f a) s b s' := by
  simp

@[simp] theorem returns_read {f : σ → Except ε α} :
    Returns (read f) s a s' ↔ f s = .ok a ∧ s = s' := by
  simp only [read, returns_bind, returns_get, returns_liftM]
  constructor
  · rintro ⟨_, _, ⟨rfl, rfl⟩, hf, rfl⟩
    exact ⟨hf, rfl⟩
  · rintro ⟨hf, rfl⟩
    exact ⟨s, s, ⟨rfl, rfl⟩, hf, rfl⟩

/-- The rules by which a computation is taken apart. -/
theorem returns_rules : (type_of% @returns_bind) ∧ (type_of% @returns_pure) ∧
    (type_of% @returns_get) ∧ (type_of% @returns_modify) ∧ (type_of% @returns_liftM) ∧
    type_of% @returns_read :=
  ⟨returns_bind, returns_pure, returns_get, returns_modify, returns_liftM, returns_read⟩

/-- The same rules, with the states between reading steps eliminated. -/
theorem returns_steps : (type_of% @returns_rules) ∧ (type_of% @and_assoc) ∧
    (type_of% @exists_and_left.{1}) ∧ type_of% @exists_eq_left'.{1} :=
  ⟨returns_rules, and_assoc, exists_and_left, exists_eq_left'⟩

/-- The same rules, with the guards that were passed. -/
theorem returns_guards : (type_of% @returns_steps) ∧ (type_of% @ensure_eq_ok) ∧
    type_of% @exists_const.{1} :=
  ⟨returns_steps, ensure_eq_ok, exists_const⟩

/-- Run a computation and go on if it fails, without its effects. -/
def attempt (m : Dispatch ε σ α) : Dispatch ε σ (Option α) := fun s =>
  match m.run s with
  | .ok (a, s') => .ok (some a, s')
  | .error _ => .ok (none, s)

theorem returns_attempt (h : Returns (attempt m) s o s') :
    (∃ a, o = some a ∧ Returns m s a s') ∨ (o = none ∧ s = s' ∧ outcome m s = none) := by
  unfold Returns attempt at h
  cases hm : m.run s with
  | ok p =>
    simp only [StateT.run] at h hm
    rw [hm] at h
    simp only [Except.ok.injEq, Prod.mk.injEq] at h
    obtain ⟨rfl, rfl⟩ := h
    exact .inl ⟨p.1, rfl, hm⟩
  | error e =>
    simp only [StateT.run] at h hm
    rw [hm] at h
    simp only [Except.ok.injEq, Prod.mk.injEq] at h
    exact .inr ⟨h.1.symm, h.2, by rw [outcome, StateT.run, hm]⟩

/-- An attempt always returns. -/
theorem attempt_returns (m : Dispatch ε σ α) (s : σ) : ∃ o s', Returns (attempt m) s o s' := by
  unfold Returns attempt
  simp only [StateT.run]
  cases m s with
  | ok p => exact ⟨some p.1, p.2, rfl⟩
  | error e => exact ⟨none, s, rfl⟩

/-- Replace the error of a computation that fails. -/
def withError (e : ε) (m : Dispatch ε σ α) : Dispatch ε σ α := fun s =>
  match m.run s with
  | .ok p => .ok p
  | .error _ => .error e

@[simp] theorem returns_withError : Returns (withError e m) s a s' ↔ Returns m s a s' := by
  unfold Returns withError
  simp only [StateT.run]
  split <;> simp_all

/-! ## Failures -/

/-- `m`, started in `s`, fails with the error `e`. -/
def Fails (m : Dispatch ε σ α) (s : σ) (e : ε) : Prop :=
  m.run s = .error e

theorem errorOf_eq_some : errorOf m s = some e ↔ Fails m s e := by
  unfold errorOf Fails
  cases m.run s <;> simp

instance decidableFails [DecidableEq ε] {m : Dispatch ε σ α} {s : σ} {e : ε} :
    Decidable (Fails m s e) :=
  decidable_of_iff (errorOf m s = some e) errorOf_eq_some

theorem fails_pure : ¬ Fails (pure a : Dispatch ε σ α) s e := by
  intro h
  cases h

/-- A sequence fails in its first part, or in the second part after the first one succeeded. -/
theorem fails_bind :
    Fails (m >>= f) s e ↔ Fails m s e ∨ ∃ a s₁, Returns m s a s₁ ∧ Fails (f a) s₁ e := by
  unfold Fails Returns
  rw [StateT.run_bind]
  cases hm : m.run s with
  | error e' => simp [Bind.bind, Except.bind]
  | ok p =>
    obtain ⟨a, s₁⟩ := p
    simp [Bind.bind, Except.bind, and_assoc]

theorem fails_get : ¬ Fails (get : Dispatch ε σ σ) s e := by
  intro h
  cases h

theorem fails_modify {f : σ → σ} : ¬ Fails (modify f : Dispatch ε σ PUnit) s e := by
  intro h
  cases h

theorem fails_liftM : Fails (liftM x : Dispatch ε σ α) s e ↔ x = .error e := by
  cases x with
  | error e' =>
    constructor
    · intro h
      cases h
      rfl
    · intro h
      cases h
      rfl
  | ok a =>
    constructor
    · intro h
      cases h
    · intro h
      cases h

theorem fails_read {f : σ → Except ε α} : Fails (read f) s e ↔ f s = .error e := by
  rw [read, fails_bind]
  constructor
  · rintro (h | ⟨_, _, hget, h⟩)
    · exact absurd h fails_get
    · obtain ⟨rfl, rfl⟩ := returns_get.mp hget
      exact fails_liftM.mp h
  · intro h
    exact .inr ⟨s, s, returns_get.mpr ⟨rfl, rfl⟩, fails_liftM.mpr h⟩

/-- What is read first does not fail. -/
theorem fails_get_bind {f : σ → Dispatch ε σ α} :
    Fails (get >>= f) s e ↔ Fails (f s) s e := Iff.rfl

/-- A sequence whose first part has a value fails as the rest does with that value. -/
theorem fails_liftM_bind (hx : x = .ok a) :
    Fails ((liftM x : Dispatch ε σ α) >>= f) s e ↔ Fails (f a) s e := by
  subst hx
  exact Iff.rfl

/-! ## Computations that keep what they wrote

Some callers go on after a failure, and what was written before it stays.  Such a computation returns
a state also when it fails. -/

section

variable {g : σ → σ} {f : α → ExceptT ε (StateM σ) β} {m : ExceptT ε (StateM σ) α}

/-- The result of a computation that keeps what it wrote, and the state it leaves. -/
def persist (m : ExceptT ε (StateM σ) α) (s : σ) : Except ε α × σ := m.run.run s

theorem persist_pure : persist (pure a : ExceptT ε (StateM σ) α) s = (.ok a, s) := rfl

theorem persist_throw : persist (throw e : ExceptT ε (StateM σ) α) s = (.error e, s) := rfl

theorem persist_throw_bind :
    persist ((throw e : ExceptT ε (StateM σ) α) >>= f) s = (.error e, s) := rfl

theorem persist_get_bind {f : σ → ExceptT ε (StateM σ) β} :
    persist (get >>= f) s = persist (f s) s := rfl

theorem persist_modify :
    persist (modify g : ExceptT ε (StateM σ) PUnit) s = (.ok ⟨⟩, g s) := rfl

theorem persist_modify_bind {f : PUnit → ExceptT ε (StateM σ) β} :
    persist (modify g >>= f) s = persist (f ⟨⟩) (g s) := rfl

theorem persist_liftM_ok_bind :
    persist ((liftM (.ok a : Except ε α) : ExceptT ε (StateM σ) α) >>= f) s = persist (f a) s := rfl

theorem persist_liftM_error_bind :
    persist ((liftM (.error e : Except ε α) : ExceptT ε (StateM σ) α) >>= f) s = (.error e, s) :=
  rfl

theorem persist_pure_eq_ok {b : α} {s' : σ} :
    persist (pure a : ExceptT ε (StateM σ) α) s = (.ok b, s') ↔ a = b ∧ s = s' := by
  rw [persist_pure, Prod.mk.injEq, Except.ok.injEq]

theorem persist_throw_ne_ok {b : α} {s' : σ} :
    persist (throw e : ExceptT ε (StateM σ) α) s ≠ (.ok b, s') := by
  intro h
  cases h

/-- The second computation is run exactly if the first one has a value. -/
theorem persist_bind :
    persist (m >>= f) s =
      match persist m s with
      | (.ok a, s₁) => persist (f a) s₁
      | (.error e, s₁) => (.error e, s₁) := by
  simp only [persist, ExceptT.run_bind, StateT.run_bind]
  simp only [bind]
  rcases StateT.run m.run s with ⟨_ | a, s₁⟩ <;> rfl

theorem persist_bind_eq_ok {s' : σ} :
    persist (m >>= f) s = (.ok b, s') ↔
      ∃ a s₁, persist m s = (.ok a, s₁) ∧ persist (f a) s₁ = (.ok b, s') := by
  rw [persist_bind]
  rcases persist m s with ⟨_ | a, s₁⟩ <;> simp

theorem persist_get_eq_ok {t s' : σ} :
    persist (get : ExceptT ε (StateM σ) σ) s = (.ok t, s') ↔ s = t ∧ s = s' := by
  have hget : persist (get : ExceptT ε (StateM σ) σ) s = (.ok s, s) := rfl
  rw [hget, Prod.mk.injEq, Except.ok.injEq]

theorem persist_modify_eq_ok {u : PUnit} {s' : σ} :
    persist (modify g : ExceptT ε (StateM σ) PUnit) s = (.ok u, s') ↔ g s = s' := by
  rw [persist_modify, Prod.mk.injEq, Except.ok.injEq]
  exact and_iff_right rfl

theorem persist_liftM_eq_ok {s' : σ} :
    persist (liftM x : ExceptT ε (StateM σ) α) s = (.ok a, s') ↔ x = .ok a ∧ s = s' := by
  have hlift : persist (liftM x : ExceptT ε (StateM σ) α) s = (x, s) := rfl
  rw [hlift, Prod.mk.injEq]

/-- The rules by which a computation that keeps what it wrote is taken apart. -/
theorem persist_rules : (type_of% @persist_bind_eq_ok) ∧ (type_of% @persist_pure_eq_ok) ∧
    (type_of% @persist_get_eq_ok) ∧ (type_of% @persist_modify_eq_ok) ∧
    type_of% @persist_liftM_eq_ok :=
  ⟨persist_bind_eq_ok, persist_pure_eq_ok, persist_get_eq_ok, persist_modify_eq_ok,
    persist_liftM_eq_ok⟩

theorem persist_ite_eq_ok {c : Prop} [Decidable c] {n : ExceptT ε (StateM σ) α} {s' : σ} :
    persist (if c then m else n) s = (.ok a, s') ↔
      (c ∧ persist m s = (.ok a, s')) ∨ (¬c ∧ persist n s = (.ok a, s')) := by
  by_cases h : c <;> simp [h]

/-- Run such a computation as a transaction: a failure rolls everything back. -/
def transactional (m : ExceptT ε (StateM σ) α) : Dispatch ε σ α := fun s =>
  match persist m s with
  | (.ok a, s') => .ok (a, s')
  | (.error e, _) => .error e

@[simp] theorem returns_transactional {s' : σ} :
    Returns (transactional m) s a s' ↔ persist m s = (.ok a, s') := by
  unfold Returns transactional
  simp only [StateT.run]
  rcases persist m s with ⟨_ | b, t⟩ <;> simp

end

variable {c : Prop}

/-! ## Computations on a component of the state -/

/-- A component `τ` of the state `σ`: how to read it and how to replace it. -/
structure Lens (σ τ : Type) where
  /-- Read the component. -/
  get : σ → τ
  /-- Replace the component. -/
  put : σ → τ → σ

/-- What is put is what is read, and nothing else changes. -/
structure Lens.Lawful (l : Lens σ τ) : Prop where
  get_put : ∀ s t, l.get (l.put s t) = t
  put_get : ∀ s, l.put s (l.get s) = s
  put_put : ∀ s t t', l.put (l.put s t) t' = l.put s t'

/-- Run a computation on a component of the state. -/
def zoom (l : Lens σ τ) (m : Dispatch ε τ α) : Dispatch ε σ α :=
  fun s => (fun p => (p.1, l.put s p.2)) <$> m.run (l.get s)

@[simp] theorem returns_zoom {l : Lens σ τ} {m : Dispatch ε τ α} {s s' : σ} :
    Returns (zoom l m) s a s' ↔ ∃ t, Returns m (l.get s) a t ∧ l.put s t = s' := by
  unfold Returns zoom
  simp only [StateT.run, except_map_eq_ok, Prod.exists, Prod.mk.injEq]
  constructor
  · rintro ⟨b, t, hm, hb, hs⟩
    exact ⟨t, hb ▸ hm, hs⟩
  · rintro ⟨t, hm, hs⟩
    exact ⟨a, t, hm, rfl, hs⟩

/-! ## Frame conditions of programs -/

/-- Every successful outcome of `m` is related by `R` to the state `m` started in. -/
def Respects (R : σ → σ → Prop) (m : Dispatch ε σ α) : Prop :=
  ∀ s a s', Returns m s a s' → R s s'

namespace Respects

variable {R : σ → σ → Prop}

theorem pure [Std.Refl R] (a : α) : Respects R (pure a : Dispatch ε σ α) := by
  intro s b s' h
  obtain ⟨-, rfl⟩ := returns_pure.mp h
  exact refl_of R s

theorem bind [IsTrans σ R] {f : α → Dispatch ε σ β} (hm : Respects R m) (hf : ∀ a, Respects R (f a)) :
    Respects R (m >>= f) := by
  intro s b s' h
  obtain ⟨a, s₁, h₁, h₂⟩ := returns_bind.mp h
  exact trans_of R (hm s a s₁ h₁) (hf a s₁ b s' h₂)

protected theorem get [Std.Refl R] : Respects R (get : Dispatch ε σ σ) := by
  intro s a s' h
  obtain ⟨-, rfl⟩ := returns_get.mp h
  exact refl_of R s

protected theorem liftM [Std.Refl R] (x : Except ε α) : Respects R (liftM x : Dispatch ε σ α) := by
  intro s a s' h
  obtain ⟨-, rfl⟩ := returns_liftM.mp h
  exact refl_of R s

protected theorem read [Std.Refl R] (f : σ → Except ε α) : Respects R (read f) := by
  intro s a s' h
  obtain ⟨-, rfl⟩ := returns_read.mp h
  exact refl_of R s

theorem modify {f : σ → σ} (hf : ∀ s, R s (f s)) :
    Respects R (modify f : Dispatch ε σ PUnit) := by
  intro s u s' h
  obtain rfl := returns_modify.mp h
  exact hf s

theorem zoom {l : Lens σ τ} (hl : ∀ s t, R s (l.put s t)) (m : Dispatch ε τ α) :
    Respects R (zoom l m) := by
  intro s a s' h
  obtain ⟨t, -, rfl⟩ := returns_zoom.mp h
  exact hl s t

theorem withError (e : ε) (hm : Respects R m) : Respects R (withError e m) :=
  fun s a s' h => hm s a s' (returns_withError.mp h)

theorem attempt [Std.Refl R] (hm : Respects R m) : Respects R (attempt m) := by
  intro s o s' h
  rcases returns_attempt h with ⟨a, -, h⟩ | ⟨-, rfl, -⟩
  · exact hm s a s' h
  · exact refl_of R s

theorem ite [Decidable c] {n : Dispatch ε σ α} (hm : Respects R m) (hn : Respects R n) :
    Respects R (if c then m else n) := by
  split
  · exact hm
  · exact hn

theorem foldlM [Std.Refl R] [IsTrans σ R] {f : α → β → Dispatch ε σ α}
    (hf : ∀ a b, Respects R (f a b)) (bs : List β) (a : α) : Respects R (bs.foldlM f a) := by
  induction bs generalizing a with
  | nil => exact pure a
  | cons b bs ih =>
    rw [List.foldlM_cons]
    exact bind (hf a b) ih

theorem forM [Std.Refl R] [IsTrans σ R] {f : β → Dispatch ε σ PUnit}
    (hf : ∀ b, Respects R (f b)) (bs : List β) : Respects R (forM bs f) := by
  induction bs with
  | nil =>
    intro s u s' h
    obtain rfl := returns_forM_nil.mp h
    exact refl_of R s
  | cons b bs ih =>
    intro s u s' h
    obtain ⟨s₁, h₁, h₂⟩ := returns_forM_cons.mp h
    exact trans_of R (hf b s _ s₁ h₁) (ih s₁ u s' h₂)

end Respects

section

variable {R : σ → σ → Prop} [Std.Refl R] [IsTrans σ R] {f : α → Dispatch ε σ β}

theorem Respects.lift (hf : ∀ a, Respects R (f a)) : Respects R (liftM x >>= f) :=
  .bind (.liftM x) hf

theorem Respects.reads {g : σ → Except ε α} (hf : ∀ a, Respects R (f a)) :
    Respects R (read g >>= f) :=
  .bind (.read g) hf

theorem Respects.gets {f : σ → Dispatch ε σ β} (hf : ∀ a, Respects R (f a)) :
    Respects R (get >>= f) :=
  .bind .get hf

end

/-! ## Invariants

An invariant is a frame condition: it holds afterwards if it held before.  From a state with the
invariant, a computation can promise something about its value as well, which the rest of a program
can use. -/

/-- The invariant holds in the second state if it holds in the first. -/
def Preserves (I : σ → Prop) (s s' : σ) : Prop := I s → I s'

instance preserves_refl (I : σ → Prop) : Std.Refl (Preserves I) := ⟨fun _ h => h⟩

instance preserves_trans (I : σ → Prop) : IsTrans σ (Preserves I) := ⟨fun _ _ _ h h' hs => h' (h hs)⟩

/-- From every state with `I`, `m` ends in a state with `I` and with a value that has `post`. -/
def Yields (I : σ → Prop) (m : Dispatch ε σ α) (post : α → Prop) : Prop :=
  ∀ s a s', I s → Returns m s a s' → I s' ∧ post a

namespace Yields

variable {I : σ → Prop} {post : α → Prop}

theorem respects (h : Yields I m post) : Respects (Preserves I) m :=
  fun s a s' hm hs => (h s a s' hs hm).1

theorem of_respects (h : Respects (Preserves I) m) : Yields I m fun _ => True :=
  fun s a s' hs hm => ⟨h s a s' hm hs, trivial⟩

theorem pure (h : post a) : Yields I (pure a : Dispatch ε σ α) post := by
  intro s b s' hs hret
  obtain ⟨rfl, rfl⟩ := returns_pure.mp hret
  exact ⟨hs, h⟩

theorem read {f : σ → Except ε α} (h : ∀ s a, I s → f s = .ok a → post a) :
    Yields I (read f) post := by
  intro s a s' hs hret
  obtain ⟨ha, rfl⟩ := returns_read.mp hret
  exact ⟨hs, h s a hs ha⟩

theorem bind {f : α → Dispatch ε σ β} {post' : β → Prop} (hm : Yields I m post)
    (hf : ∀ a, post a → Yields I (f a) post') : Yields I (m >>= f) post' := by
  intro s b s' hs hret
  obtain ⟨a, s₁, h₁, h₂⟩ := returns_bind.mp hret
  obtain ⟨hs₁, ha⟩ := hm s a s₁ hs h₁
  exact hf a ha s₁ b s' hs₁ h₂

theorem ite [Decidable c] {n : Dispatch ε σ α} (hm : Yields I m post) (hn : Yields I n post) :
    Yields I (if c then m else n) post := by
  split
  · exact hm
  · exact hn

end Yields

/-- After a value with a property, the rest need only keep the invariant for such values. -/
theorem Respects.bind_yields {I : σ → Prop} {post : α → Prop} {f : α → Dispatch ε σ β}
    (hm : Yields I m post) (hf : ∀ a, post a → Respects (Preserves I) (f a)) :
    Respects (Preserves I) (m >>= f) :=
  (hm.bind fun a ha => .of_respects (hf a ha)).respects

/-! ## Frame conditions of computations that keep what they wrote -/

/-- Whether or not it fails, `m` leaves a state that `R` relates to the one it started in. -/
def Leaves (R : σ → σ → Prop) (m : ExceptT ε (StateM σ) α) : Prop :=
  ∀ s, R s (persist m s).2

namespace Leaves

variable {R : σ → σ → Prop}

theorem pure [Std.Refl R] (a : α) : Leaves R (pure a : ExceptT ε (StateM σ) α) :=
  fun s => refl_of R s

protected theorem get [Std.Refl R] : Leaves R (get : ExceptT ε (StateM σ) σ) :=
  fun s => refl_of R s

protected theorem liftM [Std.Refl R] (x : Except ε α) : Leaves R (liftM x : ExceptT ε (StateM σ) α) :=
  fun s => refl_of R s

theorem modify {f : σ → σ} (hf : ∀ s, R s (f s)) :
    Leaves R (modify f : ExceptT ε (StateM σ) PUnit) :=
  hf

theorem bind [IsTrans σ R] {m : ExceptT ε (StateM σ) α} {f : α → ExceptT ε (StateM σ) β}
    (hm : Leaves R m) (hf : ∀ a, Leaves R (f a)) : Leaves R (m >>= f) := by
  intro s
  have hs := hm s
  rw [persist_bind]
  cases hrun : persist m s with
  | mk result s₁ =>
    rw [hrun] at hs
    cases result with
    | error e => exact hs
    | ok a => exact trans_of R hs (hf a s₁)

theorem ite {c : Prop} [Decidable c] {m n : ExceptT ε (StateM σ) α} (hm : Leaves R m)
    (hn : Leaves R n) : Leaves R (if c then m else n) := by
  split
  · exact hm
  · exact hn

theorem of_persist {m : ExceptT ε (StateM σ) α} (hm : Leaves R m) {s s' : σ} {r : Except ε α}
    (h : persist m s = (r, s')) : R s s' := by
  have hs := hm s
  rwa [h] at hs

end Leaves

section

variable {R : σ → σ → Prop} [Std.Refl R] [IsTrans σ R]

theorem Leaves.lift {f : α → ExceptT ε (StateM σ) β} (hf : ∀ a, Leaves R (f a)) :
    Leaves R (liftM x >>= f) :=
  .bind (.liftM x) hf

theorem Leaves.gets {f : σ → ExceptT ε (StateM σ) β} (hf : ∀ a, Leaves R (f a)) :
    Leaves R (get >>= f) :=
  .bind .get hf

end

end Foundation
