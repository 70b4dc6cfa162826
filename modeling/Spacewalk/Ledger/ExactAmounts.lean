import Mathlib.Algebra.Order.Floor.Semifield
import Mathlib.Algebra.Order.Floor.Div
import Mathlib.Data.Rat.Floor
import Spacewalk.Clients.Operations
import Spacewalk.Ledger.Escrow
import Spacewalk.Ledger.Griefing
import Spacewalk.Runtime.Conversion

/-!
# Exact rounding of amounts

The operations on amounts compute with fixed-point numbers and round several times.  In terms of the
inner values each of them is one division (`checkedFixedPointMul_amount`, ...), so that it rounds
the exact rational once (`amounts_rounded_exactly`).

The fee of a request is such a product, rounded once more to what can be paid on the Stellar network
(`roundToTargetChain_amount`).  `requested_amounts_payable` says what this means for the amounts that
issue and redeem requests store.
-/

namespace Spacewalk.Ledger

open Foundation Function VaultRegistry Issue Redeem Clients Currency
open Oracle (accuracy accuracy_pos tdiv_toNat inner_toNat_of_mul inner_toNat_of_div
  inner_toNat_of_integer)

variable {a b c : Amount} {scalar : UnsignedFixedPoint}

/-- The rational number that a fixed-point number stands for. -/
def toRat (scalar : UnsignedFixedPoint) : ℚ := scalar.inner.toNat / accuracy

/-! ## Operations on inner values -/

theorem truncate_toNat (x : UnsignedFixedPoint) : x.truncate.toNat = x.inner.toNat / accuracy :=
  tdiv_toNat x.min_le unsignedFormat.div_pos.le

theorem product_toNat {x z : UnsignedFixedPoint} {n : ℕ} (hx : x.inner = n * unsignedFormat.div)
    (hz : z.inner = (x.inner * scalar.inner).tdiv unsignedFormat.div) :
    z.inner.toNat = n * scalar.inner.toNat := by
  rw [inner_toNat_of_mul hz, inner_toNat_of_integer hx, Factor.scale, ← Nat.mul_assoc,
    Nat.mul_div_cancel _ accuracy_pos, Nat.mul_comm]

theorem checkedFixedPointMul_amount (h : a.checkedFixedPointMul scalar = .ok c) :
    c.amount = a.amount * scalar.inner.toNat / accuracy := by
  simp only [Amount.checkedFixedPointMul, except_rules, Amount.toBalance?,
    Option.ite_none_right_eq_some, Option.some.injEq] at h
  obtain ⟨_, ⟨-, rfl⟩, rfl⟩ := h
  have hproduct := mul_nonneg scalar.min_le (Int.natCast_nonneg a.amount)
  rw [FixedPoint.mulInt, tdiv_toNat hproduct unsignedFormat.div_pos.le,
    Int.toNat_mul scalar.min_le (Int.natCast_nonneg _), Int.toNat_natCast, Nat.mul_comm]
  rfl

theorem checkedFixedPointMulRoundedUp_amount (h : a.checkedFixedPointMulRoundedUp scalar = .ok c) :
    c.amount = a.amount * scalar.inner.toNat ⌈/⌉ accuracy := by
  simp only [Amount.checkedFixedPointMulRoundedUp, except_rules, FixedPoint.checkedMul_eq_some,
    FixedPoint.checkedFromInteger_eq_some] at h
  obtain ⟨x, hx, product, hproduct, -, -, rfl⟩ := h
  rw [Nat.ceilDiv_eq_add_pred_div, ← product_toNat hx hproduct]
  rfl

theorem checkedDiv_amount (h : a.checkedDiv scalar = .ok c) :
    0 < scalar.inner.toNat ∧ c.amount = a.amount * accuracy / scalar.inner.toNat := by
  simp only [Amount.checkedDiv, except_rules, FixedPoint.checkedDiv_eq_some,
    FixedPoint.checkedFromInteger_eq_some] at h
  obtain ⟨x, hx, quotient, ⟨hne, hquotient⟩, rfl⟩ := h
  have hnonneg : 0 ≤ scalar.inner := scalar.min_le
  refine ⟨by omega, ?_⟩
  -- the quotient is rounded twice, down to a fraction and then down to a unit
  rw [truncate_toNat, inner_toNat_of_div hquotient, Factor.scale, inner_toNat_of_integer hx,
    Nat.div_right_comm, Nat.mul_div_cancel _ accuracy_pos]

theorem roundedMul_amount (h : a.roundedMul scalar = .ok c) :
    c.amount = (a.amount * scalar.inner.toNat + accuracy / 2) / accuracy := by
  simp only [Amount.roundedMul, except_rules, FixedPoint.checkedMul_eq_some,
    FixedPoint.checkedFromInteger_eq_some, FixedPoint.checkedAdd_eq_some] at h
  obtain ⟨half, hhalf, x, hx, product, hproduct, sum, hsum, rfl⟩ := h
  rw [FixedPoint.checkedFromRational, if_neg (by decide), FixedPoint.ofInner?_eq_some, one_mul]
    at hhalf
  have hhalf' : half.inner.toNat = accuracy / 2 := by
    rw [hhalf, tdiv_toNat unsignedFormat.div_pos.le (by decide)]
    rfl
  rw [truncate_toNat, hsum, Int.toNat_add product.min_le half.min_le, product_toNat hx hproduct,
    hhalf']

/-- A fixed-point number is rounded half up.  The largest one would be rounded down, so the result
always fits. -/
theorem round_toNat (x : UnsignedFixedPoint) :
    x.round.inner.toNat = (x.inner.toNat + accuracy / 2) / accuracy * accuracy := by
  have hdiv : unsignedFormat.div = 1000000000000000000 := rfl
  have hmin : unsignedFormat.min = 0 := rfl
  have hmax : unsignedFormat.max = 340282366920938463463374607431768211455 := rfl
  have hone : accuracy = 1000000000000000000 := rfl
  have hle : x.inner ≤ unsignedFormat.max := x.le_max
  obtain ⟨n, hn⟩ := Int.eq_ofNat_of_zero_le x.min_le
  have hwhole : x.truncate = (n / 1000000000000000000 : ℕ) := by
    rw [FixedPoint.truncate, hn, hdiv]
    exact (Int.ofNat_tdiv n 1000000000000000000).symm
  rw [hn, hmax] at hle
  rw [FixedPoint.round, FixedPoint.inner_getD]
  · rw [hwhole, hn, hdiv, hone, Int.toNat_natCast]
    split <;> omega
  · rw [hwhole, hn, hdiv, hmin, hmax]
    split <;> omega

theorem roundToTargetChain_amount (h : a.roundToTargetChain = .ok c) :
    c.amount = (a.amount + 50000) / 100000 * 100000 := by
  simp only [Amount.roundToTargetChain, roundToCompatibleWithTarget, except_rules,
    Option.bind_eq_bind, Option.bind_eq_some_iff, FixedPoint.checkedMul_eq_some,
    FixedPoint.checkedDiv_eq_some, FixedPoint.ofInner?_eq_some, Option.ite_none_right_eq_some,
    Option.some.injEq] at h
  obtain ⟨_, ⟨rate, hrate, x, hx, scaled, ⟨-, hscaled⟩, y, hy, -, rfl⟩, rfl⟩ := h
  have hone : accuracy = 1000000000000000000 := rfl
  have hrate' : rate.inner.toNat = 100000 := by
    rw [hrate, Int.toNat_natCast]
    rfl
  rw [inner_toNat_of_mul hy, Factor.scale, round_toNat, inner_toNat_of_div hscaled, Factor.scale,
    hrate', hx, Int.toNat_natCast, hone]
  dsimp only
  omega

/-! ## Rounding of rationals -/

theorem mul_toRat (n : ℕ) (scalar : UnsignedFixedPoint) :
    n * toRat scalar = (n * scalar.inner.toNat : ℕ) / (accuracy : ℚ) := by
  rw [toRat, Nat.cast_mul, mul_div_assoc]

theorem ceil_natCast_div (n : ℕ) {d : ℕ} (hd : 0 < d) : ⌈(n : ℚ) / d⌉₊ = n ⌈/⌉ d := by
  refine eq_of_forall_ge_iff fun k => ?_
  have hpos : (0 : ℚ) < d := Nat.cast_pos.mpr hd
  rw [Nat.ceil_le, div_le_iff₀ hpos, ceilDiv_le_iff_le_mul hd, mul_comm]
  exact_mod_cast Iff.rfl

/-- Each operation that returns rounds the exact rational, and the quotient is adjoint to the
rounded-up product. -/
theorem amounts_rounded_exactly (a b c : Amount) (scalar : UnsignedFixedPoint) :
    (a.checkedFixedPointMul scalar = .ok c → c.amount = ⌊a.amount * toRat scalar⌋₊) ∧
      (a.checkedFixedPointMulRoundedUp scalar = .ok c → c.amount = ⌈a.amount * toRat scalar⌉₊) ∧
      (a.checkedDiv scalar = .ok c →
        0 < toRat scalar ∧ c.amount = ⌊a.amount / toRat scalar⌋₊) ∧
      (a.roundedMul scalar = .ok c → c.amount = ⌊a.amount * toRat scalar + 1 / 2⌋₊) ∧
      (∀ numerator denominator, 0 < denominator.amount →
        calculateCollateral a numerator denominator = .ok c →
        c.amount = ⌊(a.amount * numerator.amount / denominator.amount : ℚ)⌋₊) ∧
      ∀ up down, a.checkedFixedPointMulRoundedUp scalar = .ok up → b.checkedDiv scalar = .ok down →
        (up.amount ≤ b.amount ↔ a.amount ≤ down.amount) := by
  refine ⟨fun h => ?_, fun h => ?_, fun h => ?_, fun h => ?_, fun n d hd h => ?_,
    fun up down hup hdown => ?_⟩
  · rw [checkedFixedPointMul_amount h, mul_toRat, Nat.floor_div_eq_div]
  · rw [checkedFixedPointMulRoundedUp_amount h, mul_toRat, ceil_natCast_div _ accuracy_pos]
  · obtain ⟨hpos, hamount⟩ := checkedDiv_amount h
    refine ⟨div_pos (Nat.cast_pos.mpr hpos) (Nat.cast_pos.mpr accuracy_pos), ?_⟩
    rw [hamount, toRat, div_div_eq_mul_div, ← Nat.cast_mul, Nat.floor_div_eq_div]
  · rw [roundedMul_amount h, mul_toRat]
    have hhalf : (1 / 2 : ℚ) = (accuracy / 2 : ℕ) / (accuracy : ℚ) := by
      norm_num [accuracy]
    rw [hhalf, ← add_div, ← Nat.cast_add, Nat.floor_div_eq_div]
  · obtain ⟨-, ⟨-, hzero, -⟩ | ⟨-, hamount⟩⟩ := calculateCollateral_eq_ok h
    · omega
    · rw [hamount, ← Nat.cast_mul, Nat.floor_div_eq_div]
  · obtain ⟨hpos, hamount⟩ := checkedDiv_amount hdown
    rw [checkedFixedPointMulRoundedUp_amount hup, hamount, ceilDiv_le_iff_le_mul accuracy_pos,
      Nat.le_div_iff_mul_le hpos, Nat.mul_comm accuracy]

/-- Half of three is rounded up to two. -/
theorem amounts_rounded_exactly_half :
    (⟨3, .native⟩ : Amount).checkedFixedPointMulRoundedUp (percent 50) = .ok ⟨2, .native⟩ ∧
      2 = ⌈(3 : ℕ) * toRat (percent 50)⌉₊ := by
  have hup : (⟨3, .native⟩ : Amount).checkedFixedPointMulRoundedUp (percent 50) =
      .ok ⟨2, .native⟩ := by
    decide +kernel
  exact ⟨hup, (amounts_rounded_exactly _ ⟨0, .native⟩ _ _).2.1 hup⟩

/-! ## Requests -/

section

variable {B : Type} {R : Runtime B} {s s' : Chain B} {o : Origin} {n fee : ℕ} {v : VaultId} {u : Unit}

/-- A requested amount is split into parts that can be paid on the Stellar network. -/
structure Payments (total amount fee transferFee : ℕ) : Prop where
  adds_up : amount + fee + transferFee = total
  amount_compatible : amount % 10 ^ 5 = 0
  fee_compatible : fee % 10 ^ 5 = 0
  round_trip : ∀ x ∈ [total, amount, fee], ∀ stroops, balanceConversionLookup x = some stroops →
    balanceConversionUnlookup stroops.toInt = x

theorem RoundedFee.payable {given : Except DispatchError Amount} {amount : ℕ}
    (h : RoundedFee given n fee) (hsum : amount + fee = n) : Payments n amount fee 0 := by
  obtain ⟨hcompatible, exact, -, rounded, hround, rfl⟩ := h
  have htotal : n % 100000 = 0 := of_decide_eq_true hcompatible
  have hfee : rounded.amount % 100000 = 0 := by
    rw [roundToTargetChain_amount hround]
    omega
  have hamount : amount % 100000 = 0 := by omega
  refine ⟨hsum, hamount, hfee, fun x hx stroops hstroops => ?_⟩
  refine balanceConversionUnlookup_lookup ?_ hstroops
  simp only [List.mem_cons, List.not_mem_nil, or_false] at hx
  rcases hx with rfl | rfl | rfl
  exacts [htotal, hamount, hfee]

/-- The fee is close to the rate: it is rounded to a unit and then to a hundred thousand units. -/
theorem RoundedFee.near {currency : CurrencyId} {rate : UnsignedFixedPoint}
    (h : RoundedFee (Amount.roundedMul ⟨n, currency⟩ rate) n fee) :
    |(fee : ℚ) - n * toRat rate| ≤ 50000 + 1 / 2 := by
  obtain ⟨-, exact, hexact, rounded, hround, rfl⟩ := h
  have hfee := roundToTargetChain_amount hround
  rw [roundedMul_amount hexact] at hfee
  have hone : accuracy = 1000000000000000000 := rfl
  have hpos : (0 : ℚ) < accuracy := Nat.cast_pos.mpr accuracy_pos
  rw [mul_toRat]
  generalize n * rate.inner.toNat = x at hfee ⊢
  rw [hone] at hfee
  have hlower : 2 * x ≤ 2 * (rounded.amount * accuracy) + 100001 * accuracy := by
    rw [hfee, hone]
    omega
  have hupper : 2 * (rounded.amount * accuracy) ≤ 2 * x + 100001 * accuracy := by
    rw [hfee, hone]
    omega
  have hlower' : 2 * (x : ℚ) ≤ 2 * (rounded.amount * accuracy) + 100001 * accuracy := by
    exact_mod_cast hlower
  have hupper' : 2 * (rounded.amount * accuracy : ℚ) ≤ 2 * x + 100001 * accuracy := by
    exact_mod_cast hupper
  rw [← mul_div_cancel_right₀ (rounded.amount : ℚ) hpos.ne', ← sub_div, abs_div, abs_of_pos hpos,
    div_le_iff₀ hpos, abs_le]
  constructor <;> linarith

/-- At a rate of at most one, the rounded fee is at most the amount. -/
theorem RoundedFee.le {currency : CurrencyId} {rate : UnsignedFixedPoint}
    (h : RoundedFee (Amount.roundedMul ⟨n, currency⟩ rate) n fee) (hrate : toRat rate ≤ 1) :
    fee ≤ n := by
  obtain ⟨hcompatible, exact, hexact, rounded, hround, rfl⟩ := h
  have htotal : n % 100000 = 0 := of_decide_eq_true hcompatible
  have hfee := roundToTargetChain_amount hround
  rw [roundedMul_amount hexact] at hfee
  have hone : accuracy = 1000000000000000000 := rfl
  have hinner : rate.inner.toNat ≤ accuracy := by
    rw [toRat, div_le_one (Nat.cast_pos.mpr accuracy_pos)] at hrate
    exact_mod_cast hrate
  have hproduct : n * rate.inner.toNat ≤ n * accuracy := Nat.mul_le_mul_left _ hinner
  generalize n * rate.inner.toNat = x at hfee hproduct
  rw [hone] at hfee hproduct
  omega

/-- An issue request stores the rounded fee and what remains. -/
theorem requestIssue_inserts (h : Returns (requestIssue R o n v) s u s') :
    ∃ id r, s'.issue.issueRequests = update s.issue.issueRequests id (some r) ∧
      r.amount + r.fee = n ∧
      RoundedFee (Amount.roundedMul ⟨n, v.wrappedCurrency⟩ s.fee.issueFee) n r.fee := by
  simp only [requestIssue, returns_insertIssueRequest, returns_getSecureId, returns_guards] at h
  obtain ⟨_, -, _, hcompatible, _, s₁, hvolume, _, -, -, _, -, _, -, _, -, _, s₂, hlock, _, -, -, h⟩ := h
  obtain ⟨_, s₃, hincrease, exact, hexact, fee, hround, user, hsub, _, -, rfl⟩ := h
  obtain ⟨-, hle, rfl⟩ := Amount.checkedSub_eq_ok.mp hsub
  have hlocked := (surroundings_steady R).tokens _ _ _ _ hlock
  have hincreased := (surroundings_steady R).tryIncreaseToBeIssuedTokens _ _ _ _ _ hincrease
  have hbefore : SameRequests s s₃ :=
    ((checkVolume_respects (issueRateLimit_frame (R := R)) _ _ _ _ _ hvolume).toSameRequests.trans
      (sameRequests_of_surroundings hlocked)).trans (sameRequests_of_surroundings hincreased)
  have hfees : SameFees s s₁ := checkVolume_respects (fun _ _ => rfl) _ _ _ _ _ hvolume
  have hfee : s₃.fee = s.fee :=
    (congrArg Surroundings.fee (trans_of SameSurroundings hlocked hincreased)).trans hfees
  rw [Fee.getIssueFee, hfee] at hexact
  exact ⟨_, _, issueRequests_write hbefore (.refl _), Nat.sub_add_cancel hle,
    ensure_eq_ok.mp hcompatible, exact, hexact, fee, hround, rfl⟩

/-- The parts of a request add up and can be paid, the fee is close to the rate, and to subtract it
does not fail at a rate of at most one. -/
theorem requested_amounts_payable (R : Runtime B) (s s' : Chain B) (o : Origin) (n : ℕ) (v : VaultId) :
    (Returns (requestIssue R o n v) s () s' →
      ∃ id r, s'.issue.issueRequests = update s.issue.issueRequests id (some r) ∧
        Payments n r.amount r.fee 0 ∧
        |(r.fee : ℚ) - n * toRat s.fee.issueFee| ≤ 50000 + 1 / 2) ∧
    (∀ address, Returns (requestRedeem R o n address v) s () s' →
      ∃ id r, s'.redeem.redeemRequests = update s.redeem.redeemRequests id (some r) ∧
        Payments n r.amount r.fee r.transferFee ∧ o = .signed r.redeemer ∧
        if r.redeemer = v.accountId then r.fee = 0
        else |(r.fee : ℚ) - n * toRat s.fee.redeemFee| ≤ 50000 + 1 / 2) ∧
    ∀ rate exact fee, toRat rate ≤ 1 → isCompatibleWithTarget n = true →
      Amount.roundedMul ⟨n, v.wrappedCurrency⟩ rate = .ok exact → exact.roundToTargetChain = .ok fee →
      ∃ rest, Amount.checkedSub ⟨n, v.wrappedCurrency⟩ fee = .ok rest := by
  refine ⟨fun h => ?_, fun address h => ?_, fun rate exact fee hrate hn hexact hround => ?_⟩
  · obtain ⟨id, r, hreq, hsum, hfee⟩ := requestIssue_inserts h
    exact ⟨id, r, hreq, hfee.payable hsum, hfee.near⟩
  · obtain ⟨id, r, ho, -, -, -, hsum, -, hreq, hfee, hzero⟩ := requestRedeem_inserts h
    rw [redeemTotal, hzero] at hsum
    refine ⟨id, r, hreq, ?_, ho, ?_⟩
    · rw [hzero]
      exact hfee.payable (by omega)
    split_ifs with hself
    · obtain ⟨-, exact, hexact, rounded, hround, heq⟩ := hfee
      rw [requestFee, if_pos hself, except_pure_eq_ok] at hexact
      rw [← heq, roundToTargetChain_amount hround, ← hexact]
      simp [Amount.zero]
    · rw [requestFee, if_neg hself] at hfee
      exact hfee.near
  · have hle : fee.amount ≤ n := RoundedFee.le ⟨hn, exact, hexact, fee, hround, rfl⟩ hrate
    refine ⟨_, Amount.checkedSub_eq_ok.mpr ⟨?_, hle, rfl⟩⟩
    have hcurrency := Amount.roundedMul_currencyId hexact
    simp only [Amount.roundToTargetChain, except_rules] at hround
    obtain ⟨_, -, rfl⟩ := hround
    exact hcurrency.symm

/-- A request for a million tokens is stored with parts that can be paid. -/
theorem requested_amounts_payable_registering :
    ∃ s s' id r, Run (Step sampleRuntime ∅) sampleGenesis registering s ∧
      Returns (requestIssue sampleRuntime (.signed ⟨4⟩) 1000000 (sampleVault 1)) s () s' ∧
      s'.issue.issueRequests = update s.issue.issueRequests id (some r) ∧
      Payments 1000000 r.amount r.fee 0 := by
  obtain ⟨s, hrun, s', hreturns, -⟩ : ∃ s, Run (Step sampleRuntime ∅) sampleGenesis registering s ∧
      ∃ s', Returns (requestIssue sampleRuntime (.signed ⟨4⟩) 1000000 (sampleVault 1)) s () s' ∧
        True :=
    run_of_replay environmentStep_refl (by decide +kernel)
  obtain ⟨id, r, hreq, hpayable, -⟩ := (requested_amounts_payable sampleRuntime s s' (.signed ⟨4⟩)
    1000000 (sampleVault 1)).1 hreturns
  exact ⟨s, s', id, r, hrun, hreturns, hreq, hpayable⟩

end

end Spacewalk.Ledger
