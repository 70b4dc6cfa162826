import Spacewalk.Foundation.RoundedScale
import Spacewalk.Runtime.Services

/-!
# Price conversions

A conversion multiplies an amount by one price and divides it by another, adjusts the number of
decimals, and rounds down after each step, in an order that depends on which currency has more
decimals.  `conversion` is the list of its factors, and `convertAmount_eq_ok` says that a conversion
that returns applies them.

The factors of the two directions are inverse to each other up to rounding (`Inverse`), in whatever
order they are applied.  Hence a conversion is monotone, splitting an amount gives no more, and
converting back gives at most the amount (`NeverGains`).  `convert_never_gains` says this for any two
currencies, and for a currency and the dollar.
-/

namespace Spacewalk.Oracle

open Foundation

/-- `accuracy`: the inner value of one. -/
def accuracy : ℕ := 10 ^ 18

/-- The factors of a conversion from the price `p` to the price `q`, which are given with the
accuracy `a`, and from `m` to `n` decimals. -/
def conversionFactors (a p q m n : ℕ) : List Factor :=
  if m > n then [⟨p, a⟩, ⟨a, q⟩, ⟨a, 10 ^ (m - n) * a⟩]
  else [⟨p, a⟩, ⟨10 ^ (n - m) * a, a⟩, ⟨a, q⟩]

/-- The factors of a conversion between prices. -/
def conversion (fromPrice toPrice : UnsignedFixedPoint) (fromDecimals toDecimals : ℕ) :
    List Factor :=
  conversionFactors accuracy fromPrice.inner.toNat toPrice.inner.toNat fromDecimals toDecimals

/-- The factors of the two directions cancel out: the step that adjusts the decimals is inverted by
that of the other direction. -/
theorem numerator_conversionFactors (a p q m n : ℕ) :
    numerator (conversionFactors a p q m n) * numerator (conversionFactors a q p n m) =
      denominator (conversionFactors a p q m n) * denominator (conversionFactors a q p n m) := by
  rcases lt_trichotomy m n with hlt | rfl | hlt
  · simp only [conversionFactors, if_neg hlt.not_gt, if_pos (show n > m from hlt), numerator,
      denominator, List.map_cons, List.map_nil, List.prod_cons, List.prod_nil]
    ring
  · simp only [conversionFactors, lt_irrefl, if_false, numerator, denominator, List.map_cons,
      List.map_nil, List.prod_cons, List.prod_nil, Nat.sub_self, pow_zero, one_mul]
    ring
  · simp only [conversionFactors, if_neg hlt.not_gt, if_pos (show m > n from hlt), numerator,
      denominator, List.map_cons, List.map_nil, List.prod_cons, List.prod_nil]
    ring

/-! ## Fixed-point steps -/

section

variable {x y z : UnsignedFixedPoint} {n : ℕ}

theorem tdiv_toNat {a b : ℤ} (ha : 0 ≤ a) (hb : 0 ≤ b) : (a.tdiv b).toNat = a.toNat / b.toNat := by
  lift a to ℕ using ha
  lift b to ℕ using hb
  rw [← Int.ofNat_tdiv]
  exact Int.toNat_natCast (a / b)

theorem inner_toNat_of_mul (h : z.inner = (x.inner * y.inner).tdiv unsignedFormat.div) :
    z.inner.toNat = (⟨x.inner.toNat, accuracy⟩ : Factor).scale y.inner.toNat := by
  rw [h, tdiv_toNat (mul_nonneg x.min_le y.min_le) unsignedFormat.div_pos.le,
    Int.toNat_mul x.min_le y.min_le, Factor.scale, Nat.mul_comm]
  rfl

theorem inner_toNat_of_div (h : z.inner = (x.inner * unsignedFormat.div).tdiv y.inner) :
    z.inner.toNat = (⟨accuracy, y.inner.toNat⟩ : Factor).scale x.inner.toNat := by
  rw [h, tdiv_toNat (mul_nonneg x.min_le unsignedFormat.div_pos.le) y.min_le,
    Int.toNat_mul x.min_le unsignedFormat.div_pos.le]
  rfl

theorem inner_toNat_of_integer (h : z.inner = (n : ℤ) * unsignedFormat.div) :
    z.inner.toNat = n * accuracy := by
  rw [h, Int.toNat_mul (Int.natCast_nonneg n) unsignedFormat.div_pos.le]
  rfl

end

/-! ## Conversions of amounts -/

section

variable {x y : ℕ} {p q : UnsignedFixedPoint} {m n : ℕ}

/-- A conversion that returns applies its factors. -/
theorem convertAmount_eq_ok (h : convertAmount x p q m n = .ok y) :
    y = scaleDown (conversion p q m n) x := by
  unfold convertAmount at h
  split at h
  · next hzero =>
    obtain rfl := except_pure_eq_ok.mp h
    rw [hzero, scaleDown_zero]
  · unfold conversion conversionFactors
    split at h
    all_goals
      rename_i hdecimals
      simp only [except_rules, FixedPoint.ofInner?_eq_some, FixedPoint.checkedMul_eq_some,
        FixedPoint.checkedDiv_eq_some, FixedPoint.checkedFromInteger_eq_some] at h
    · obtain ⟨a, ha, b, hb, c, ⟨-, hc⟩, k, hk, e, ⟨-, he⟩, rfl⟩ := h
      have hscale := inner_toNat_of_integer (n := 10 ^ (m - n)) (by exact_mod_cast hk)
      rw [if_pos hdecimals, inner_toNat_of_div he, inner_toNat_of_div hc, inner_toNat_of_mul hb,
        hscale, ha]
      rfl
    · obtain ⟨a, ha, b, hb, k, hk, c, hc, e, ⟨-, he⟩, rfl⟩ := h
      have hscale := inner_toNat_of_integer (n := 10 ^ (n - m)) (by exact_mod_cast hk)
      rw [mul_comm] at hc
      rw [if_neg hdecimals, inner_toNat_of_div he, inner_toNat_of_mul hc, inner_toNat_of_mul hb,
        hscale, ha]
      rfl

/-- A conversion of something divides by the price of the target. -/
theorem toPrice_pos_of_convertAmount (hx : x ≠ 0) (h : convertAmount x p q m n = .ok y) :
    0 < q.inner.toNat := by
  have hpos : q.inner ≠ 0 → 0 < q.inner.toNat := by
    intro hne
    have hnonneg : 0 ≤ q.inner := q.min_le
    omega
  unfold convertAmount at h
  rw [if_neg hx] at h
  split at h
  all_goals
    simp only [except_rules, FixedPoint.checkedDiv_eq_some] at h
  · obtain ⟨_, -, _, -, _, ⟨hq, -⟩, -⟩ := h
    exact hpos hq
  · obtain ⟨_, -, _, -, _, -, _, -, _, ⟨hq, -⟩, -⟩ := h
    exact hpos hq

theorem denominator_conversionFactors_pos {a p q m n : ℕ} (ha : 0 < a) (hq : 0 < q) :
    0 < denominator (conversionFactors a p q m n) := by
  unfold conversionFactors denominator
  split
  · have hscale : 0 < 10 ^ (m - n) := Nat.pow_pos (Nat.succ_pos 9)
    simp [ha, hq]
  · simp [ha, hq]

theorem denominator_conversionFactors_zero (a p m n : ℕ) :
    denominator (conversionFactors a p 0 m n) = 0 := by
  unfold conversionFactors denominator
  split <;> simp

end

theorem accuracy_pos : 0 < accuracy := Nat.pow_pos (Nat.succ_pos 9)

/-- The conversion applies the factors to what it converts. -/
def ConvertsBy (f : ℕ → Except DispatchError ℕ) (fs : List Factor) : Prop :=
  ∀ x y, f x = .ok y → y = scaleDown fs x

/-- The two conversions apply factors that are inverse to each other, up to rounding. -/
def Inverse (f g : ℕ → Except DispatchError ℕ) : Prop :=
  ∃ fs gs, ConvertsBy f fs ∧ ConvertsBy g gs ∧
    (∀ x, scaleDown gs (scaleDown fs x) ≤ x) ∧ ∀ x, scaleDown fs (scaleDown gs x) ≤ x

/-- A conversion `f` and its inverse `g` create no value. -/
structure NeverGains (f g : ℕ → Except DispatchError ℕ) : Prop where
  mono : ∀ x y a b, x ≤ y → f x = .ok a → f y = .ok b → a ≤ b
  add_le : ∀ x y a b c, f x = .ok a → f y = .ok b → f (x + y) = .ok c → a + b ≤ c
  back_le : ∀ x a b, f x = .ok a → g a = .ok b → b ≤ x

section

variable {f g : ℕ → Except DispatchError ℕ}

theorem Inverse.symm (h : Inverse f g) : Inverse g f := by
  obtain ⟨fs, gs, hf, hg, hback, hforth⟩ := h
  exact ⟨gs, fs, hg, hf, hforth, hback⟩

theorem Inverse.neverGains (h : Inverse f g) : NeverGains f g := by
  obtain ⟨fs, gs, hf, hg, hback, -⟩ := h
  refine ⟨fun x y a b hle ha hb => ?_, fun x y a b c ha hb hc => ?_, fun x a b ha hb => ?_⟩
  · rw [hf x a ha, hf y b hb]
    exact scaleDown_mono fs hle
  · rw [hf x a ha, hf y b hb, hf _ c hc]
    exact scaleDown_add_le fs x y
  · rw [hg a b hb, hf x a ha]
    exact hback x

theorem Inverse.of_error (hf : ∀ x a, f x ≠ .ok a) (hg : ∀ x a, g x ≠ .ok a) : Inverse f g :=
  ⟨[], [], fun x a ha => absurd ha (hf x a), fun x a ha => absurd ha (hg x a), fun _ => le_rfl,
    fun _ => le_rfl⟩

theorem convertAmount_inverse (p q : UnsignedFixedPoint) (m n : ℕ) :
    Inverse (convertAmount · p q m n) (convertAmount · q p n m) :=
  ⟨conversion p q m n, conversion q p n m, fun _ _ => convertAmount_eq_ok,
    fun _ _ => convertAmount_eq_ok, scaleDown_scaleDown_le (numerator_conversionFactors _ _ _ _ _).le,
    scaleDown_scaleDown_le (numerator_conversionFactors _ _ _ _ _).le⟩

end

/-! ## Conversions at the prices of the oracle -/

section

variable {B : Type} (R : Runtime B) (s : Chain B) (a c : CurrencyId) (x : ℕ)

/-- The amount of the currency `c` that an amount of the currency `a` is converted to. -/
def converted : Except DispatchError ℕ :=
  (convert R ⟨x, a⟩ c s).map Amount.amount

theorem converted_self : converted R s a a x = .ok x := by
  unfold converted convert
  rw [if_pos rfl]
  rfl

theorem converted_of_ne {a c : CurrencyId} (h : a ≠ c) (x : ℕ) :
    converted R s a c x = (do
      let p ← getPrice a s
      let q ← getPrice c s
      convertAmount x p q (R.decimals a) (R.decimals c)) := by
  unfold converted convert
  rw [if_neg h]
  cases getPrice a s with
  | error e => rfl
  | ok p =>
    cases getPrice c s with
    | error e => rfl
    | ok q =>
      change Except.map _ (convertAmount x p q _ _ >>= _) = convertAmount x p q _ _
      cases convertAmount x p q (R.decimals a) (R.decimals c) <;> rfl

theorem converted_inverse : Inverse (converted R s a c) (converted R s c a) := by
  by_cases hac : a = c
  · subst hac
    have hself : ConvertsBy (converted R s a a) [] := by
      intro x y hy
      rw [converted_self] at hy
      exact (Except.ok.inj hy).symm
    exact ⟨[], [], hself, hself, fun _ => le_rfl, fun _ => le_rfl⟩
  · cases hp : getPrice a s with
    | error e =>
      refine .of_error (fun x y hy => ?_) fun x y hy => ?_
      · rw [converted_of_ne R s hac, hp] at hy
        cases hy
      · rw [converted_of_ne R s (Ne.symm hac), hp] at hy
        cases hq : getPrice c s <;> rw [hq] at hy <;> cases hy
    | ok p =>
      cases hq : getPrice c s with
      | error e =>
        refine .of_error (fun x y hy => ?_) fun x y hy => ?_
        · rw [converted_of_ne R s hac, hp, hq] at hy
          cases hy
        · rw [converted_of_ne R s (Ne.symm hac), hq] at hy
          cases hy
      | ok q =>
        have hto : converted R s a c = (convertAmount · p q (R.decimals a) (R.decimals c)) := by
          funext x
          rw [converted_of_ne R s hac, hp, hq]
          rfl
        have hback : converted R s c a = (convertAmount · q p (R.decimals c) (R.decimals a)) := by
          funext x
          rw [converted_of_ne R s (Ne.symm hac), hp, hq]
          rfl
        rw [hto, hback]
        exact convertAmount_inverse p q _ _

/-- No step rounds when an amount of the currency `a` is converted to the currency `c` and back. -/
def ConvertsExactly : Prop :=
  a = c ∨ x = 0 ∨ ∃ p q, getPrice a s = .ok p ∧ getPrice c s = .ok q ∧ 0 < p.inner.toNat ∧
    Exact (conversion p q (R.decimals a) (R.decimals c) ++
      conversion q p (R.decimals c) (R.decimals a)) x

/-- Converting there and back keeps an amount if and only if no step rounds. -/
theorem converted_back_iff {a c : CurrencyId} {x y z : ℕ} (hto : converted R s a c x = .ok y)
    (hback : converted R s c a y = .ok z) : z = x ↔ ConvertsExactly R s a c x := by
  by_cases hac : a = c
  · subst hac
    rw [converted_self] at hto hback
    obtain rfl := Except.ok.inj hto
    exact ⟨fun _ => .inl rfl, fun _ => (Except.ok.inj hback).symm⟩
  · rw [converted_of_ne R s hac] at hto
    rw [converted_of_ne R s (Ne.symm hac)] at hback
    simp only [except_bind_eq_ok] at hto hback
    obtain ⟨p, hp, q, hq, hto⟩ := hto
    obtain ⟨q', hq', p', hp', hback⟩ := hback
    obtain rfl := ok_unique hq hq'
    obtain rfl := ok_unique hp hp'
    have hz : z = scaleDown (conversion p q (R.decimals a) (R.decimals c) ++
        conversion q p (R.decimals c) (R.decimals a)) x := by
      rw [scaleDown_append, ← convertAmount_eq_ok hto, ← convertAmount_eq_ok hback]
    by_cases hx : x = 0
    · subst hx
      rw [hz, scaleDown_zero]
      exact ⟨fun _ => .inr (.inl rfl), fun _ => rfl⟩
    · have hexact : z = x ↔ 0 < p.inner.toNat ∧
          Exact (conversion p q (R.decimals a) (R.decimals c) ++
            conversion q p (R.decimals c) (R.decimals a)) x := by
        rw [hz]
        rcases Nat.eq_zero_or_pos p.inner.toNat with hzero | hpos
        · -- The way back divides by zero.
          rw [scaleDown_eq_zero, hzero]
          · exact ⟨fun h => absurd h.symm hx, fun h => absurd h.1 (lt_irrefl 0)⟩
          · rw [denominator_append, conversion, conversion, hzero,
              denominator_conversionFactors_zero, Nat.mul_zero]
        · have hden := Nat.mul_pos
            (denominator_conversionFactors_pos (p := p.inner.toNat) (m := R.decimals a)
              (n := R.decimals c) accuracy_pos (toPrice_pos_of_convertAmount hx hto))
            (denominator_conversionFactors_pos (p := q.inner.toNat) (m := R.decimals c)
              (n := R.decimals a) accuracy_pos hpos)
          rw [scaleDown_eq_self_iff]
          · exact ⟨fun h => ⟨hpos, h⟩, And.right⟩
          · rw [numerator_append, denominator_append]
            exact numerator_conversionFactors _ _ _ _ _
          · rw [denominator_append]
            exact hden
      rw [hexact]
      constructor
      · rintro ⟨hpos, h⟩
        exact .inr (.inr ⟨p, q, hp, hq, hpos, h⟩)
      · rintro (h | h | ⟨p', q', hp', hq', hpos, h⟩)
        · exact absurd h hac
        · exact absurd h hx
        · obtain rfl := ok_unique hp hp'
          obtain rfl := ok_unique hq hq'
          exact ⟨hpos, h⟩

/-- The dollar is converted like a currency with the price one. -/
theorem usd_inverse : Inverse (currencyToUsd R · a s) (usdToCurrency R · a s) := by
  obtain ⟨one, hone⟩ : ∃ one, FixedPoint.checkedFromInteger unsignedFormat 1 = some one :=
    ⟨⟨10 ^ 18, by decide, by decide⟩, FixedPoint.checkedFromInteger_eq_some.mpr rfl⟩
  cases hp : getPrice a s with
  | error e =>
    refine .of_error (fun x y hy => ?_) fun x y hy => ?_
    · simp only [currencyToUsd, hp] at hy
      cases hy
    · simp only [usdToCurrency, hp] at hy
      cases hy
  | ok p =>
    have hto : (currencyToUsd R · a s) = (convertAmount · p one (R.decimals a) usdDecimals) := by
      funext x
      simp only [currencyToUsd, hp, hone]
      rfl
    have hback : (usdToCurrency R · a s) = (convertAmount · one p usdDecimals (R.decimals a)) := by
      funext x
      simp only [usdToCurrency, hp, hone]
      rfl
    rw [hto, hback]
    exact convertAmount_inverse p one _ _

/-- The price conversion never creates value: between two currencies, and between a currency and the
dollar. -/
theorem convert_never_gains (a c : CurrencyId) :
    NeverGains (converted R s a c) (converted R s c a) ∧
      NeverGains (currencyToUsd R · a s) (usdToCurrency R · a s) ∧
      NeverGains (usdToCurrency R · a s) (currencyToUsd R · a s) :=
  ⟨(converted_inverse R s a c).neverGains, (usd_inverse R s a).neverGains,
    (usd_inverse R s a).symm.neverGains⟩

end

end Spacewalk.Oracle
