import Spacewalk.Staking.Touch

/-!
# Refunds of kicked nominators

`forceRefund` closes the current pool of a vault; the nominators are meant to take their
stake out of the closed pool with `withdrawStake` and its nonce.  The entries of a
nominator in a closed pool are frozen (`frozen_run`): nobody else's operation changes them.

The withdrawal itself compares the amount with the stake in the *current* pool, and settles
the announced slashes there.  A kicked nominator without stake in the current pool is
therefore refused (`kicked_nominator_refused`).  `refund_iff_payable` says exactly when the
withdrawal succeeds, empties the position and leaves the current pool alone.
-/

namespace Spacewalk.Staking

open Foundation Function

/-! ## Runs of the whole pallet -/

/-- The operations of the staking interface, on any vault. -/
inductive PalletOp where
  | depositStake (vaultId : VaultId) (nominatorId : AccountId) (amount : Balance)
  | slashStake (vaultId : VaultId) (amount : Balance)
  | withdrawStake (vaultId : VaultId) (nominatorId : AccountId) (amount : Balance)
      (index : Option Nonce)
  | distributeReward (vaultId : VaultId) (amount : Balance) (currencyId : CurrencyId)
  | withdrawReward (vaultId : VaultId) (nominatorId : AccountId) (index : Option Nonce)
      (currencyId : CurrencyId)
  | forceRefund (vaultId : VaultId)
  | addRewardCurrency (currencyId : CurrencyId)

variable (cfg : Config)

namespace PalletOp

/-- The call that an operation stands for. -/
def exec : PalletOp → PalletM Unit
  | .depositStake v n x => Api.depositStake cfg v n x
  | .slashStake v x => Api.slashStake cfg v x
  | .withdrawStake v n x index => Api.withdrawStake cfg v n x index
  | .distributeReward v x c => do
    let _ ← Api.distributeReward v x c
  | .withdrawReward v n index c => do
    let _ ← Api.withdrawReward v n index c
  | .forceRefund v => do
    let _ ← Api.forceRefund cfg v
  | .addRewardCurrency c => Staking.addRewardCurrency cfg c

/-- The operation does not withdraw stake of `n` from the pool `k` of `v`. -/
def Spares (k : Nonce) (v : VaultId) (n : AccountId) (s : Pools) : PalletOp → Prop
  | .withdrawStake w m _ index => ¬ (w = v ∧ m = n ∧ index.getD (s.nonce v) = k)
  | _ => True

end PalletOp

/-- A successful operation of the pallet. -/
def PalletStep (s : Pools) (op : PalletOp) (s' : Pools) : Prop :=
  Returns (op.exec cfg) s () s'

/-- A successful operation that does not withdraw stake of `n` from the pool `k` of `v`. -/
def SparingStep (k : Nonce) (v : VaultId) (n : AccountId) (s : Pools) (op : PalletOp) (s' : Pools) :
    Prop :=
  PalletStep cfg s op s' ∧ op.Spares k v n s

section

variable {cfg : Config} {s s' : Pools} {v w : VaultId} {n : AccountId} {k : Nonce} {r : ℤ}
  {op : PalletOp} {key : PoolKey}

/-- A force refund opens the next pool of the vault.  It rewrites the vault's own position in
the pool it closes, and the pool it opens. -/
theorem forceRefund_effect (h : Returns (forceRefund cfg w) s r s') :
    s'.nonce = update s.nonce w (s.nonce w + 1) ∧
      (∀ key, key ≠ (s.nonce w, w) → key ≠ (s.nonce w + 1, w) → poolAt s' key = poolAt s key) ∧
      ∀ n, n ≠ w.accountId →
        SameEntry n (poolAt s' (s.nonce w, w)) (poolAt s (s.nonce w, w)) := by
  obtain ⟨m, stake, s₁, -, -, hwithdraw, -, hdeposit, -⟩ := forceRefund_returns h
  obtain ⟨hpools, hnonce, -⟩ := withdrawStake_pools hwithdraw
  have hacts := depositStake_acts hdeposit
  have hkey : currentKey { s₁ with nonce := update s₁.nonce w (s₁.nonce w + 1) } w =
      (s.nonce w + 1, w) := by
    simp [currentKey, hnonce]
  rw [hkey] at hacts
  have hother : ∀ key, key ≠ (s.nonce w + 1, w) → poolAt s' key =
      settleThenAdjust s w w.accountId (s.nonce w, w) (-stake.inner) key := by
    intro key hne
    rw [hacts.pools, update_of_ne hne]
    exact congrFun hpools key
  refine ⟨?_, ?_, ?_⟩
  · rw [hacts.nonce]
    simp [hnonce]
  · intro key hcur hnext
    rw [hother key hnext]
    simp only [settleThenAdjust, currentKey, update_of_ne hcur]
  · intro n hn
    have hne : (s.nonce w, w) ≠ (s.nonce w + 1, w) := by simp
    rw [hother _ hne]
    simp only [settleThenAdjust, currentKey, update_self]
    constructor <;> simp [hn, currentPool, currentKey]

/-- The position of `n` in the pool `k` of `v`, closed in `s`, is as it was in `s₀`. -/
def Frozen (k : Nonce) (v : VaultId) (n : AccountId) (s₀ s : Pools) : Prop :=
  k < s.nonce v ∧ SameEntry n (poolAt s (k, v)) (poolAt s₀ (k, v))

theorem Frozen.of_acts {s₀ : Pools} {P : LazyPool AccountId} (h : Frozen k v n s₀ s)
    (hacts : Acts s s' (currentKey s w) P) : Frozen k v n s₀ s' := by
  obtain ⟨hlt, hsame⟩ := h
  have hne : (k, v) ≠ currentKey s w := by
    rintro heq
    obtain ⟨rfl, rfl⟩ := Prod.mk.inj heq
    exact lt_irrefl _ hlt
  refine ⟨by rw [hacts.nonce]; exact hlt, ?_⟩
  rw [hacts.pools, update_of_ne hne]
  exact hsame

/-- No operation that spares the position changes it after its pool was closed. -/
theorem Frozen.step {s₀ : Pools} (h : Frozen k v n s₀ s) (hstep : SparingStep cfg k v n s op s') :
    Frozen k v n s₀ s' := by
  obtain ⟨hret, hspare⟩ := hstep
  unfold PalletStep at hret
  cases op with
  | depositStake w m x =>
    obtain ⟨y, -, hret⟩ := returns_apiDepositStake.mp hret
    exact h.of_acts (depositStake_acts hret)
  | slashStake w x =>
    obtain ⟨y, -, hret⟩ := returns_apiSlashStake.mp hret
    exact h.of_acts (slashStake_acts hret)
  | distributeReward w x c =>
    obtain ⟨_, hret⟩ := returns_discard.mp hret
    obtain ⟨y, r, -, hret⟩ := apiDistributeReward_returns hret
    exact h.of_acts (distributeReward_acts hret : Acts s _ (currentKey s v) _)
  | withdrawReward w m index c =>
    obtain ⟨_, hret⟩ := returns_discard.mp hret
    obtain ⟨r, hret⟩ := apiWithdrawReward_returns hret
    exact h.of_acts (withdrawRewardAtIndex_acts hret)
  | addRewardCurrency c =>
    exact h.of_acts (addRewardCurrency_acts hret : Acts s _ (currentKey s v) _)
  | forceRefund w =>
    obtain ⟨_, hret⟩ := returns_discard.mp hret
    obtain ⟨r, hret⟩ := apiForceRefund_returns hret
    obtain ⟨hnonce, hother, -⟩ := forceRefund_effect hret
    obtain ⟨hlt, hsame⟩ := h
    have hle : s.nonce v ≤ s'.nonce v := by
      rw [hnonce]
      by_cases hv : v = w
      · subst hv
        simp
      · simp [hv]
    refine ⟨hlt.trans_le hle, ?_⟩
    rw [hother]
    · exact hsame
    · rintro heq
      obtain ⟨rfl, rfl⟩ := Prod.mk.inj heq
      exact lt_irrefl _ hlt
    · rintro heq
      obtain ⟨rfl, rfl⟩ := Prod.mk.inj heq
      exact Nat.not_succ_lt_self hlt
  | withdrawStake w m x index =>
    obtain ⟨y, -, hret⟩ := returns_apiWithdrawStake.mp hret
    obtain ⟨hpools, hnonce, -⟩ := withdrawStake_pools hret
    obtain ⟨hlt, hsame⟩ := h
    have hcur : (k, v) ≠ currentKey s w := by
      rintro heq
      obtain ⟨rfl, rfl⟩ := Prod.mk.inj heq
      exact lt_irrefl _ hlt
    refine ⟨by rw [hnonce]; exact hlt, ?_⟩
    rw [hpools]
    by_cases hkey : (k, v) = (index.getD (s.nonce w), w)
    · -- someone else withdraws from the same closed pool
      have hm : n ≠ m := by
        rintro rfl
        obtain ⟨rfl, rfl⟩ := Prod.mk.inj hkey
        exact hspare ⟨rfl, rfl, rfl⟩
      have hentry : SameEntry n ((poolAt s (k, v)).adjust scale m (-y.inner)) (poolAt s (k, v)) := by
        constructor <;> simp [hm]
      simp only [settleThenAdjust, ← hkey, update_self, update_of_ne hcur]
      exact hentry.trans hsame
    · simp only [settleThenAdjust, update_of_ne hkey, update_of_ne hcur]
      exact hsame

theorem Frozen.run {s₀ : Pools} {ops : List PalletOp} (h : Frozen k v n s₀ s)
    (hrun : Run (SparingStep cfg k v n) s ops s') : Frozen k v n s₀ s' :=
  hrun.invariant (I := Frozen k v n s₀) (fun _ _ _ hs hstep => hs.step hstep) h

end

/-! ## When a refund is paid -/

/-- An inner value that the fixed-point format can represent. -/
def Representable (i : ℤ) : Prop := signedFormat.min ≤ i ∧ i ≤ signedFormat.max

instance (i : ℤ) : Decidable (Representable i) :=
  inferInstanceAs (Decidable (signedFormat.min ≤ i ∧ i ≤ signedFormat.max))

/-- Every entry of the maps that belongs to the pool `key` is the same in both states. -/
structure SameAt (s s' : Pools) (key : PoolKey) : Prop where
  totalStake : s'.totalStake key = s.totalStake key
  totalCurrentStake : s'.totalCurrentStake key = s.totalCurrentStake key
  slashPerToken : s'.slashPerToken key = s.slashPerToken key
  stake : ∀ n, s'.stake (key.1, key.2, n) = s.stake (key.1, key.2, n)
  slashTally : ∀ n, s'.slashTally (key.1, key.2, n) = s.slashTally (key.1, key.2, n)
  totalRewards : ∀ c, s'.totalRewards (c, key) = s.totalRewards (c, key)
  rewardPerToken : ∀ c, s'.rewardPerToken (c, key) = s.rewardPerToken (c, key)
  rewardTally : ∀ c n, s'.rewardTally (c, key.1, key.2, n) = s.rewardTally (c, key.1, key.2, n)

/-- `n` has at least `m` units in the current pool, and taking `m` units out of the pool `k`
leaves every entry representable. -/
@[mk_iff]
structure RefundCovered (cfg : Config) (t : Pools) (k : Nonce) (v : VaultId) (n : AccountId)
    (m : Balance) : Prop where
  stake : m * scale ≤ (currentPool t v).stake n
  total : Representable ((poolAt t (k, v)).total - m * scale)
  current : Representable ((poolAt t (k, v)).current - m * scale)
  slash : Representable ((poolAt t (k, v)).perToken * m)
  tally : Representable ((poolAt t (k, v)).tally n - (poolAt t (k, v)).perToken * m)
  rewards : ∀ c ∈ getAllRewardCurrencies cfg t,
    Representable ((t.rewardPerToken (c, k, v)).inner * m) ∧
      Representable ((t.rewardTally (c, k, v, n)).inner -
        (getAllRewardCurrencies cfg t).count c * ((t.rewardPerToken (c, k, v)).inner * m))

/-- The position of `n` in the current pool has no announced slash, and a refund that is not
zero is covered. -/
@[mk_iff]
structure RefundPayable (cfg : Config) (t : Pools) (k : Nonce) (v : VaultId) (n : AccountId)
    (m : Balance) : Prop where
  settled : computeAmountToSlash (t.stake (t.nonce v, v, n)) (t.slashPerToken (t.nonce v, v))
    (t.slashTally (t.nonce v, v, n)) = .ok 0
  covered : m = 0 ∨ RefundCovered cfg t k v n m

instance (cfg : Config) (t : Pools) (k : Nonce) (v : VaultId) (n : AccountId) (m : Balance) :
    Decidable (RefundCovered cfg t k v n m) :=
  decidable_of_iff' _ (refundCovered_iff cfg t k v n m)

instance (cfg : Config) (t : Pools) (k : Nonce) (v : VaultId) (n : AccountId) (m : Balance) :
    Decidable (RefundPayable cfg t k v n m) :=
  decidable_of_iff' _ (refundPayable_iff cfg t k v n m)

/-- The refund of `m` units from the pool `k` goes through, empties the position, and leaves
every entry of the current pool as it was. -/
def Refunds (t : Pools) (k : Nonce) (v : VaultId) (n : AccountId) (m : Balance) : Prop :=
  ∃ t', Returns (Api.withdrawStake cfg v n m (some k)) t () t' ∧
    computeStakeAtIndex t' k v n = .ok 0 ∧ SameAt t t' (t.nonce v, v)

section

variable {cfg : Config} {s t t' : Pools} {v : VaultId} {n : AccountId} {k : Nonce}
  {m : Balance} {y r : SignedFixedPoint}

theorem mul_whole_tdiv (a : ℤ) (hy : y.inner = m * scale) :
    (a * y.inner).tdiv scale = a * m := by
  rw [hy, ← mul_assoc, Int.mul_tdiv_cancel _ scale_pos.ne']

theorem tallyChange_whole {f : CurrencyId × PoolKey → SignedFixedPoint} {key : PoolKey}
    {c : CurrencyId} (hy : y.inner = m * scale) :
    tallyChange f key y c = (f (c, key)).inner * m :=
  mul_whole_tdiv _ hy

/-- Settling leaves the position as it is iff it has no announced slash. -/
theorem applySlash_same_iff :
    Returns (applySlash v n) t r t ↔
      computeAmountToSlash (t.stake (t.nonce v, v, n)) (t.slashPerToken (t.nonce v, v))
        (t.slashTally (t.nonce v, v, n)) = .ok 0 ∧ r = t.stake (t.nonce v, v, n) := by
  rw [returns_applySlash]
  constructor
  · rintro ⟨⟨toSlash, hslash⟩, hr, total, tally, -, -, hsame⟩
    have hstake : r = t.stake (t.nonce v, v, n) := by
      have := congrFun (congrArg Pools.stake hsame) (t.nonce v, v, n)
      simpa [settled] using this
    have hzero : toSlash = 0 := by
      have hvalue := (computeAmountToSlash_eq_ok.mp hslash).2
      have hrem : (t.stake (t.nonce v, v, n)).inner = (currentPool t v).stake n -
          (currentPool t v).toSlash scale n := hstake ▸ hr
      apply FixedPoint.ext
      rw [hvalue, FixedPoint.inner_zero]
      have hentry : (currentPool t v).stake n = (t.stake (t.nonce v, v, n)).inner := rfl
      have : (currentPool t v).toSlash scale n = 0 := by linarith
      exact this
    exact ⟨hzero ▸ hslash, hstake⟩
  · rintro ⟨hslash, rfl⟩
    have hzero : (currentPool t v).toSlash scale n = 0 := by
      have hvalue := (computeAmountToSlash_eq_ok.mp hslash).2
      rw [FixedPoint.inner_zero] at hvalue
      exact hvalue.symm
    refine ⟨⟨0, hslash⟩, ?_, t.totalStake (t.nonce v, v), t.slashTally (t.nonce v, v, n), ?_, ?_,
      ?_⟩
    · rw [← LazyPool.stake_eq_remaining hzero]
      rfl
    · rw [hzero, sub_zero]
      rfl
    · exact (sub_eq_zero.mp hzero).symm
    · simp [settled]

theorem SameAt.refl (s : Pools) (key : PoolKey) : SameAt s s key :=
  ⟨rfl, rfl, rfl, fun _ => rfl, fun _ => rfl, fun _ => rfl, fun _ => rfl, fun _ _ => rfl⟩

/-- Rewriting a position of one pool changes no entry of another pool. -/
theorem sameAt_adjusted {key key' : PoolKey} {stake total current tally : SignedFixedPoint}
    {tallies : CurrencyId × PositionKey → SignedFixedPoint} (hne : key' ≠ key)
    (hother : ∀ p, (∀ c, p ≠ (c, key.1, key.2, n)) → tallies p = s.rewardTally p) :
    SameAt s (adjusted s key n stake total current tally tallies) key' := by
  have hpos : ∀ m, (key'.1, key'.2, m) ≠ (key.1, key.2, n) := by
    intro m hm
    simp only [Prod.mk.injEq] at hm
    exact hne (Prod.ext hm.1 hm.2.1)
  constructor
  · exact update_of_ne hne _ _
  · exact update_of_ne hne _ _
  · rfl
  · intro m
    exact update_of_ne (hpos m) _ _
  · intro m
    exact update_of_ne (hpos m) _ _
  · intro c
    rfl
  · intro c
    rfl
  · intro c m
    refine hother _ fun d hd => hpos m ?_
    exact (Prod.mk.inj hd).2

/-- A withdrawal from a closed pool that leaves the current pool alone found the current
position settled. -/
theorem settled_eq_self {total tally : SignedFixedPoint}
    (h : SameAt t (settled t v n total r tally) (t.nonce v, v)) :
    settled t v n total r tally = t := by
  have htotal : total = t.totalStake (t.nonce v, v) := by
    simpa [settled] using h.totalStake
  have hstake : r = t.stake (t.nonce v, v, n) := by
    simpa [settled] using h.stake n
  have htally : tally = t.slashTally (t.nonce v, v, n) := by
    simpa [settled] using h.slashTally n
  simp [settled, htotal, hstake, htally]

theorem SameAt.of_common {s₁ : Pools} {key : PoolKey} (h : SameAt t t' key)
    (h' : SameAt s₁ t' key) : SameAt t s₁ key where
  totalStake := h'.totalStake.symm.trans h.totalStake
  totalCurrentStake := h'.totalCurrentStake.symm.trans h.totalCurrentStake
  slashPerToken := h'.slashPerToken.symm.trans h.slashPerToken
  stake m := (h'.stake m).symm.trans (h.stake m)
  slashTally m := (h'.slashTally m).symm.trans (h.slashTally m)
  totalRewards c := (h'.totalRewards c).symm.trans (h.totalRewards c)
  rewardPerToken c := (h'.rewardPerToken c).symm.trans (h.rewardPerToken c)
  rewardTally c m := (h'.rewardTally c m).symm.trans (h.rewardTally c m)

theorem representable_inner (x : SignedFixedPoint) : Representable x.inner :=
  ⟨x.min_le, x.le_max⟩

/-- A refund that goes through and leaves the current pool alone was payable. -/
theorem refundPayable_of_refunds (hk : k < t.nonce v) (h : Refunds cfg t k v n m) :
    RefundPayable cfg t k v n m := by
  obtain ⟨t', hret, -, hsame⟩ := h
  obtain ⟨y, hy, hret⟩ := returns_apiWithdrawStake.mp hret
  obtain ⟨r, s₁, happly, hcases⟩ := returns_withdrawStake.mp hret
  have hkey : (t.nonce v, v) ≠ (k, v) := fun heq => hk.ne' (Prod.mk.inj heq).1
  -- the first step, settling in the current pool, must have changed nothing
  have hsame₁ : SameAt t s₁ (t.nonce v, v) := by
    rcases hcases with ⟨-, rfl⟩ | ⟨-, -, stake, total, current, tally, tallies, -, -, -, -, -, -,
      -, hother, rfl⟩
    · exact hsame
    · exact hsame.of_common (sameAt_adjusted hkey hother)
  have heq : s₁ = t := by
    obtain ⟨-, -, total, tally, -, -, rfl⟩ := returns_applySlash.mp happly
    exact settled_eq_self hsame₁
  subst heq
  obtain ⟨hsettled, rfl⟩ := applySlash_same_iff.mp happly
  refine ⟨hsettled, ?_⟩
  rcases hcases with ⟨rfl, -⟩ | ⟨-, hle, stake, total, current, tally, tallies, hstake, htotal,
    hcurrent, ⟨z, hz⟩, htally, hreps, htallies, -, -⟩
  · left
    have hzero : (m : ℤ) * scale = 0 := by simpa using hy.symm
    rcases mul_eq_zero.mp hzero with hm | hscale
    · exact_mod_cast hm
    · exact absurd hscale scale_pos.ne'
  · right
    rw [mul_whole_tdiv _ hy] at hz htally
    rw [hy] at hle htotal hcurrent
    refine ⟨hle, htotal ▸ representable_inner total, hcurrent ▸ representable_inner current,
      hz ▸ representable_inner z, htally ▸ representable_inner tally, ?_⟩
    intro c hc
    obtain ⟨w, hw⟩ := hreps c hc
    have hfinal := htallies c
    rw [tallyChange_whole hy] at hw hfinal
    rw [mul_neg, ← sub_eq_add_neg] at hfinal
    exact ⟨hw ▸ representable_inner w, hfinal ▸ representable_inner _⟩

theorem exists_inner_of_representable {i : ℤ} (h : Representable i) :
    ∃ x : SignedFixedPoint, x.inner = i :=
  FixedPoint.exists_inner_eq.mpr h

/-- What remains of a position, in terms of the whole units computed for it. -/
theorem remaining_bounds (hs : computeStakeAtIndex t k v n = .ok (m : ℤ)) (hm : 0 < m) :
    m * scale ≤ (poolAt t (k, v)).remaining scale n ∧
      (poolAt t (k, v)).remaining scale n < (m + 1) * scale := by
  obtain ⟨-, -, hvalue⟩ := computeStakeAtIndex_eq_ok.mp hs
  generalize (poolAt t (k, v)).remaining scale n = rest at hvalue ⊢
  have hm' : (0 : ℤ) < m := by exact_mod_cast hm
  have hquot : rest.tdiv scale = m := by
    rcases max_choice 0 (rest.tdiv scale) with h | h <;> omega
  have hrest : 0 ≤ rest := by
    by_contra hneg
    have hquot' : 0 ≤ (-rest).tdiv scale := Int.tdiv_nonneg (by omega) scale_pos.le
    rw [Int.neg_tdiv] at hquot'
    omega
  rw [Int.tdiv_eq_ediv_of_nonneg hrest] at hquot
  rw [← hquot]
  exact ⟨Int.ediv_mul_le _ scale_pos.ne', Int.lt_ediv_add_one_mul_self _ scale_pos⟩

/-- Taking all whole units out of a sound position of a closed pool leaves nothing to
compute. -/
theorem computeStakeAtIndex_adjusted {stake total current tally : SignedFixedPoint}
    {tallies : CurrencyId × PositionKey → SignedFixedPoint}
    (hs : computeStakeAtIndex t k v n = .ok (m : ℤ)) (hm : 0 < m)
    (hperToken : 0 ≤ (poolAt t (k, v)).perToken)
    (hslash : 0 ≤ (poolAt t (k, v)).toSlash scale n)
    (hpool : poolAt (adjusted t (k, v) n stake total current tally tallies) (k, v) =
      (poolAt t (k, v)).adjust scale n (-(m * scale))) :
    computeStakeAtIndex (adjusted t (k, v) n stake total current tally tallies) k v n = .ok 0 := by
  obtain ⟨hle, hlt⟩ := remaining_bounds hs hm
  obtain ⟨⟨toSlash, htoSlash⟩, ⟨z, hz⟩, -⟩ := computeStakeAtIndex_eq_ok.mp hs
  obtain ⟨⟨prod, hprod⟩, hvalue⟩ := computeAmountToSlash_eq_ok.mp htoSlash
  set t' := adjusted t (k, v) n stake total current tally tallies with ht'
  set p := poolAt t (k, v) with hp
  have hmscale : 0 ≤ (m : ℤ) * scale := mul_nonneg (Int.natCast_nonneg m) scale_pos.le
  have hsplit : p.stake n = p.remaining scale n + p.toSlash scale n := by
    rw [LazyPool.remaining]
    ring
  have hstake : 0 ≤ p.stake n := by linarith
  have hstake' : 0 ≤ p.stake n + -(m * scale) := by linarith
  have hremaining : (poolAt t' (k, v)).remaining scale n =
      p.remaining scale n + -(m * scale) := by
    rw [hpool]
    exact LazyPool.remaining_adjust_self scale_pos hstake hstake'
      ((dvd_mul_left _ _).neg_right)
  have hstakeEq : (poolAt t' (k, v)).stake n = p.stake n + -(m * scale) := by
    rw [hpool]
    simp
  have hperTokenEq : (poolAt t' (k, v)).perToken = p.perToken := by
    rw [hpool]
    rfl
  refine computeStakeAtIndex_eq_ok.mpr ⟨⟨toSlash, ?_⟩, ?_, ?_⟩
  · rw [computeAmountToSlash_eq_ok]
    constructor
    · -- the product shrinks with the stake
      have hle' : (p.stake n + -(m * scale)) * p.perToken ≤ p.stake n * p.perToken :=
        mul_le_mul_of_nonneg_right (by linarith) hperToken
      have hnonneg : 0 ≤ (p.stake n + -(m * scale)) * p.perToken := mul_nonneg hstake' hperToken
      have hprod' : prod.inner = (p.stake n * p.perToken).tdiv scale := hprod
      have hmono : ((p.stake n + -(m * scale)) * p.perToken).tdiv scale ≤ prod.inner := by
        rw [hprod', Int.tdiv_eq_ediv_of_nonneg hnonneg,
          Int.tdiv_eq_ediv_of_nonneg (hnonneg.trans hle')]
        exact Int.ediv_le_ediv scale_pos hle'
      have hpos := Int.tdiv_nonneg hnonneg scale_pos.le
      have hentry : (t'.stake (k, v, n)).inner * (t'.slashPerToken (k, v)).inner =
          (p.stake n + -(m * scale)) * p.perToken := by
        rw [← hstakeEq, ← hperTokenEq]
        rfl
      rw [hentry]
      exact exists_inner_of_representable
        ⟨signedFormat.min_le_zero.trans hpos, hmono.trans prod.le_max⟩
    · have hsame : (poolAt t' (k, v)).toSlash scale n = p.toSlash scale n := by
        have := hremaining
        rw [LazyPool.remaining, LazyPool.remaining, hstakeEq] at this
        linarith
      rw [hvalue]
      exact hsame.symm
  · rw [hremaining]
    exact exists_inner_of_representable
      ⟨signedFormat.min_le_zero.trans (by linarith), le_trans (by linarith) (hz ▸ z.le_max)⟩
  · rw [hremaining, Int.tdiv_eq_zero_of_lt (by linarith) (by linarith)]
    rfl

/-- A payable refund goes through, empties the position and leaves the current pool alone. -/
theorem refunds_of_refundPayable (hk : k < t.nonce v)
    (hs : computeStakeAtIndex t k v n = .ok (m : ℤ))
    (hsound : m = 0 ∨ (0 ≤ (poolAt t (k, v)).perToken ∧ 0 ≤ (poolAt t (k, v)).toSlash scale n))
    (h : RefundPayable cfg t k v n m) : Refunds cfg t k v n m := by
  have happly : Returns (applySlash v n) t (t.stake (t.nonce v, v, n)) t :=
    applySlash_same_iff.mpr ⟨h.settled, rfl⟩
  rcases Nat.eq_zero_or_pos m with rfl | hm
  · refine ⟨t, ?_, by simpa using hs, .refl t _⟩
    refine returns_apiWithdrawStake.mpr ⟨0, by simp, ?_⟩
    exact returns_withdrawStake.mpr ⟨_, t, happly, Or.inl ⟨rfl, rfl⟩⟩
  · have hcov := h.covered.resolve_left hm.ne'
    obtain ⟨hperToken, hslash⟩ := hsound.resolve_left hm.ne'
    have hmscale : 0 < (m : ℤ) * scale := mul_pos (by exact_mod_cast hm) scale_pos
    have hkey : (t.nonce v, v) ≠ (k, v) := fun heq => hk.ne' (Prod.mk.inj heq).1
    obtain ⟨hle, -⟩ := remaining_bounds hs hm
    rw [LazyPool.remaining] at hle
    obtain ⟨y, hy⟩ : ∃ y : SignedFixedPoint, y.inner = m * scale :=
      exists_inner_of_representable ⟨signedFormat.min_le_zero.trans hmscale.le,
        hcov.stake.trans (t.stake (t.nonce v, v, n)).le_max⟩
    obtain ⟨stake, hstake⟩ : ∃ x : SignedFixedPoint,
        x.inner = (poolAt t (k, v)).stake n - m * scale :=
      exists_inner_of_representable ⟨signedFormat.min_le_zero.trans (by linarith),
        (sub_le_self _ hmscale.le).trans (t.stake (k, v, n)).le_max⟩
    obtain ⟨total, htotal⟩ := exists_inner_of_representable hcov.total
    obtain ⟨current, hcurrent⟩ := exists_inner_of_representable hcov.current
    obtain ⟨z, hz⟩ := exists_inner_of_representable hcov.slash
    obtain ⟨tally, htally⟩ := exists_inner_of_representable hcov.tally
    have htallies : ∀ c, ∃ x : SignedFixedPoint, x.inner = (t.rewardTally (c, k, v, n)).inner -
        (getAllRewardCurrencies cfg t).count c * ((t.rewardPerToken (c, k, v)).inner * m) := by
      intro c
      by_cases hc : c ∈ getAllRewardCurrencies cfg t
      · exact exists_inner_of_representable (hcov.rewards c hc).2
      · exact ⟨t.rewardTally (c, k, v, n), by simp [List.count_eq_zero_of_not_mem hc]⟩
    choose f hf using htallies
    let tallies : CurrencyId × PositionKey → SignedFixedPoint := fun p =>
      if p.2 = (k, v, n) then f p.1 else t.rewardTally p
    have hother : ∀ p, (∀ c, p ≠ (c, k, v, n)) → tallies p = t.rewardTally p := by
      intro p hp
      exact if_neg fun heq => hp p.1 (Prod.ext rfl heq)
    have hpool : poolAt (adjusted t (k, v) n stake total current tally tallies) (k, v) =
        (poolAt t (k, v)).adjust scale n (-(m * scale)) := by
      rw [poolAt_adjusted_amount (y := -(m * scale)) hstake htotal hcurrent, update_self]
      rw [htally, mul_neg, Int.neg_tdiv, ← hy, mul_whole_tdiv _ hy]
      ring
    refine ⟨adjusted t (k, v) n stake total current tally tallies, ?_,
      computeStakeAtIndex_adjusted hs hm hperToken hslash hpool, sameAt_adjusted hkey hother⟩
    refine returns_apiWithdrawStake.mpr ⟨y, hy, ?_⟩
    refine returns_withdrawStake.mpr ⟨_, t, happly, Or.inr ⟨?_, ?_, stake, total, current, tally,
      tallies, ?_, ?_, ?_, ⟨z, ?_⟩, ?_, ?_, ?_, hother, rfl⟩⟩
    · rintro rfl
      rw [FixedPoint.inner_zero] at hy
      omega
    · rw [hy]
      exact hcov.stake
    · rw [hy]
      exact hstake
    · rw [hy]
      exact htotal
    · rw [hy]
      exact hcurrent
    · rw [mul_whole_tdiv _ hy]
      exact hz
    · rw [mul_whole_tdiv _ hy]
      exact htally
    · intro c hc
      rw [tallyChange_whole hy]
      exact exists_inner_of_representable (hcov.rewards c hc).1
    · intro c
      rw [tallyChange_whole hy, mul_neg, ← sub_eq_add_neg]
      have hvalue : tallies (c, k, v, n) = f c := if_pos rfl
      exact (congrArg FixedPoint.inner hvalue).trans (hf c)

/-- The stake computed for `n` when the pool `k` of `v` is closed by a force refund can be
withdrawn later, whatever happens in between, iff the refund is payable at that time: the
position of `n` in the then current pool is settled, and holds at least the refunded amount
if that is not zero. -/
theorem refund_iff_payable {s₀ s₁ : Pools} {amount : ℤ} {ops : List PalletOp}
    (hn : n ≠ v.accountId) (hk : s₀.nonce v = k)
    (hs : computeStakeAtIndex s₀ k v n = .ok (m : ℤ))
    (hrefund : Returns (forceRefund cfg v) s₀ amount s₁)
    (hrun : Run (SparingStep cfg k v n) s₁ ops t)
    (hsound : m = 0 ∨
      (0 ≤ (poolAt s₀ (k, v)).perToken ∧ 0 ≤ (poolAt s₀ (k, v)).toSlash scale n)) :
    Refunds cfg t k v n m ↔ RefundPayable cfg t k v n m := by
  subst hk
  obtain ⟨hnonce, -, hentry⟩ := forceRefund_effect hrefund
  have hclosed : Frozen (s₀.nonce v) v n s₀ s₁ := by
    refine ⟨?_, hentry n hn⟩
    rw [hnonce, update_self]
    exact Nat.lt_succ_self _
  obtain ⟨hlt, hsame⟩ := hclosed.run hrun
  have hs' : computeStakeAtIndex t (s₀.nonce v) v n = .ok (m : ℤ) := by
    rw [← hs]
    have hstake : t.stake (s₀.nonce v, v, n) = s₀.stake (s₀.nonce v, v, n) :=
      FixedPoint.ext hsame.stake
    have htally : t.slashTally (s₀.nonce v, v, n) = s₀.slashTally (s₀.nonce v, v, n) :=
      FixedPoint.ext hsame.tally
    have hperToken : t.slashPerToken (s₀.nonce v, v) = s₀.slashPerToken (s₀.nonce v, v) :=
      FixedPoint.ext hsame.perToken
    simp only [computeStakeAtIndex, hstake, htally, hperToken]
  have hsound' : m = 0 ∨ (0 ≤ (poolAt t (s₀.nonce v, v)).perToken ∧
      0 ≤ (poolAt t (s₀.nonce v, v)).toSlash scale n) := by
    rw [LazyPool.toSlash, hsame.stake, hsame.tally, hsame.perToken]
    exact hsound
  exact ⟨refundPayable_of_refunds hlt, refunds_of_refundPayable hlt hs' hsound'⟩

end

/-! ## Runs on fixed inputs -/

def palletStep? (s : Pools) (op : PalletOp) : Option Pools :=
  outcome (op.exec cfg) s

theorem palletStep_of_some {cfg : Config} {s s' : Pools} {op : PalletOp}
    (h : palletStep? cfg s op = some s') : PalletStep cfg s op s' :=
  let ⟨_, hreturns⟩ := outcome_eq_some.mp h
  hreturns

/-- The vault and a nominator have 100 units each in the first pool of the vault. -/
def nominated : List PalletOp :=
  [.depositStake sampleVault sampleVault.accountId 100,
    .depositStake sampleVault nominatorA 100]

/-- The kicked nominator stakes 100 units in the new pool, and can then take 100 units out of
the closed one. -/
theorem refund_iff_payable_after_restaking :
    ∃ s₀ s₁ t amount, Run (PalletStep sampleConfig) Pools.genesis nominated s₀ ∧
      computeStakeAtIndex s₀ 0 sampleVault nominatorA = .ok ((100 : ℕ) : ℤ) ∧
      Returns (forceRefund sampleConfig sampleVault) s₀ amount s₁ ∧
      Run (SparingStep sampleConfig 0 sampleVault nominatorA) s₁
        [.depositStake sampleVault nominatorA 100] t ∧
      Refunds sampleConfig t 0 sampleVault nominatorA 100 := by
  obtain ⟨s₀, hrun, hnonce, hstake, hperToken, hslash, s₁, hrefund, t, hdeposit, hpayable⟩ : ∃ s₀,
      Run (PalletStep sampleConfig) Pools.genesis nominated s₀ ∧ s₀.nonce sampleVault = 0 ∧
        computeStakeAtIndex s₀ 0 sampleVault nominatorA = .ok ((100 : ℕ) : ℤ) ∧
        0 ≤ (poolAt s₀ (0, sampleVault)).perToken ∧
        0 ≤ (poolAt s₀ (0, sampleVault)).toSlash scale nominatorA ∧
        ∃ s₁, outcome (forceRefund sampleConfig sampleVault) s₀ = some s₁ ∧
        ∃ t, palletStep? sampleConfig s₁ (.depositStake sampleVault nominatorA 100) = some t ∧
          RefundPayable sampleConfig t 0 sampleVault nominatorA 100 :=
    Run.exists_of_replay (fun _ _ _ => palletStep_of_some) (by decide +kernel)
  obtain ⟨amount, hrefund⟩ := outcome_eq_some.mp hrefund
  have hsparing : Run (SparingStep sampleConfig 0 sampleVault nominatorA) s₁
      [.depositStake sampleVault nominatorA 100] t :=
    .single ⟨palletStep_of_some hdeposit, trivial⟩
  refine ⟨s₀, s₁, t, amount, hrun, hstake, hrefund, hsparing, ?_⟩
  exact (refund_iff_payable (by decide) hnonce hstake hrefund hsparing
    (Or.inr ⟨hperToken, hslash⟩)).mpr hpayable

/-- A nominator with 100 units is kicked; the withdrawal of the 100 units from the closed
pool is refused because the nominator has no stake in the new pool. -/
theorem kicked_nominator_refused :
    ∃ s₀ s₁ amount, Run (PalletStep sampleConfig) Pools.genesis nominated s₀ ∧
      computeStakeAtIndex s₀ 0 sampleVault nominatorA = .ok 100 ∧
      nominatorA ≠ sampleVault.accountId ∧
      Returns (forceRefund sampleConfig sampleVault) s₀ amount s₁ ∧
      errorOf (Api.withdrawStake sampleConfig sampleVault nominatorA 100 (some 0)) s₁ =
        some (.staking .insufficientFunds) ∧
      ¬ Refunds sampleConfig s₁ 0 sampleVault nominatorA 100 := by
  obtain ⟨s₀, hrun, hstake, s₁, hrefund, herror⟩ : ∃ s₀,
      Run (PalletStep sampleConfig) Pools.genesis nominated s₀ ∧
        computeStakeAtIndex s₀ 0 sampleVault nominatorA = .ok 100 ∧
        ∃ s₁, outcome (forceRefund sampleConfig sampleVault) s₀ = some s₁ ∧
          errorOf (Api.withdrawStake sampleConfig sampleVault nominatorA 100 (some 0)) s₁ =
            some (.staking .insufficientFunds) :=
    Run.exists_of_replay (fun _ _ _ => palletStep_of_some) (by decide +kernel)
  obtain ⟨amount, hrefund⟩ := outcome_eq_some.mp hrefund
  refine ⟨s₀, s₁, amount, hrun, hstake, by decide, hrefund, herror, ?_⟩
  rintro ⟨t', hreturns, -⟩
  exact not_returns_of_errorOf herror hreturns

end Spacewalk.Staking
