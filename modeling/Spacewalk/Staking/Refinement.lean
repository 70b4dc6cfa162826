import Spacewalk.Staking.Outcomes

/-!
# The staking pallet refines the lazy pool

Read through `poolAt`, every function of the staking pallet acts on the pools as the
operations of `LazyPool` do, and on no other pool than the one it addresses:

* `applySlash_acts`, `depositStake_acts` and `slashStake_acts` change the current pool of the
  vault only, `withdrawRewardAtIndex_acts` the pool it addresses;
* `withdrawStake_pools` settles in the current pool and debits in the addressed pool.
-/

namespace Spacewalk.Staking

open Foundation Function

variable {cfg : Config} {s s' : Pools} {v : VaultId} {n : AccountId} {x : SignedFixedPoint}
  {key : PoolKey} {u : Unit} {tallies : CurrencyId × PositionKey → SignedFixedPoint}
  {r : SignedFixedPoint} {c : CurrencyId} {P : LazyPool AccountId}

/-- Only the pool `key` changes its stake part, to `P`; the nonces stay. -/
structure Acts (s s' : Pools) (key : PoolKey) (P : LazyPool AccountId) : Prop where
  pools : poolAt s' = update (poolAt s) key P
  nonce : s'.nonce = s.nonce

theorem Acts.currentKey (h : Acts s s' key P) : currentKey s' v = Staking.currentKey s v := by
  simp [Staking.currentKey, h.nonce]

theorem Acts.currentPool (h : Acts s s' (Staking.currentKey s v) P) : currentPool s' v = P := by
  rw [Staking.currentPool, h.currentKey, h.pools, update_self]

/-- A change of reward maps alone changes no pool. -/
theorem acts_of_rewards {m t : CurrencyId × PoolKey → SignedFixedPoint} {cs : List CurrencyId} :
    Acts s
      { s with
        rewardPerToken := m
        totalRewards := t
        rewardTally := tallies
        rewardCurrencies := cs } key (poolAt s key) where
  pools := (update_eq_self key (poolAt s)).symm
  nonce := rfl

/-- The stake part of one pool is all that changes when one of its positions and its totals
are rewritten. -/
theorem poolAt_adjusted {stake total current tally : SignedFixedPoint} :
    poolAt (adjusted s key n stake total current tally tallies) =
      update (poolAt s) key
        { stake := update (poolAt s key).stake n stake.inner
          tally := update (poolAt s key).tally n tally.inner
          total := total.inner
          current := current.inner
          perToken := (poolAt s key).perToken } := by
  obtain ⟨k, w⟩ := key
  funext ⟨k', w'⟩
  by_cases hkey : (k', w') = (k, w)
  · obtain ⟨rfl, rfl⟩ := Prod.mk.inj hkey
    rw [update_self]
    ext m
    · by_cases hm : m = n <;> simp [poolAt, adjusted, hm]
    · by_cases hm : m = n <;> simp [poolAt, adjusted, hm]
    · simp [poolAt, adjusted]
    · simp [poolAt, adjusted]
    · rfl
  · have hpos : ∀ m, (k', w', m) ≠ (k, w, n) := by
      intro m hm
      apply hkey
      simp only [Prod.mk.injEq] at hm ⊢
      exact ⟨hm.1, hm.2.1⟩
    rw [update_of_ne hkey]
    simp only [poolAt, adjusted, update_of_ne (hpos _), update_of_ne hkey]

theorem poolAt_adjusted_amount {stake total current tally : SignedFixedPoint} {y : ℤ}
    (hstake : stake.inner = (poolAt s key).stake n + y)
    (htotal : total.inner = (poolAt s key).total + y)
    (hcurrent : current.inner = (poolAt s key).current + y)
    (htally : tally.inner = (poolAt s key).tally n + ((poolAt s key).perToken * y).tdiv scale) :
    poolAt (adjusted s key n stake total current tally tallies) =
      update (poolAt s) key ((poolAt s key).adjust scale n y) := by
  rw [poolAt_adjusted, hstake, htotal, hcurrent, htally]
  rfl

theorem settled_eq_adjusted {total stake tally : SignedFixedPoint} :
    settled s v n total stake tally = adjusted s (s.nonce v, v) n stake total
      (s.totalCurrentStake (s.nonce v, v)) tally s.rewardTally := by
  simp [settled, adjusted]

/-- `applySlash` settles a position of the current pool. -/
theorem applySlash_acts (h : Returns (applySlash v n) s r s') :
    Acts s s' (currentKey s v) ((currentPool s v).settle scale n) := by
  obtain ⟨-, hr, total, tally, htotal, htally, rfl⟩ := returns_applySlash.mp h
  constructor
  · rw [settled_eq_adjusted, poolAt_adjusted, hr, htally, htotal, hr]
    rfl
  · rfl

/-- The value that `applySlash` returns is what remains to the nominator. -/
theorem applySlash_value (h : Returns (applySlash v n) s r s') :
    r.inner = (currentPool s v).remaining scale n :=
  (returns_applySlash.mp h).2.1

/-- `depositStake` settles the position and credits the amount. -/
theorem depositStake_acts (h : Returns (depositStake cfg v n x) s u s') :
    Acts s s' (currentKey s v)
      (((currentPool s v).settle scale n).adjust scale n x.inner) := by
  obtain ⟨r, s₁, happly, stake, total, current, tally, tallies, hstake, htotal, hcurrent,
    htally, rfl⟩ := depositStake_returns h
  have hacts := applySlash_acts happly
  have hpool : poolAt s₁ (s.nonce v, v) = (currentPool s v).settle scale n := by
    rw [hacts.pools]
    exact update_self _ _ _
  constructor
  · rw [poolAt_adjusted_amount hstake htotal hcurrent htally, hpool, hacts.pools]
    exact update_idem _ _ _
  · exact hacts.nonce

/-- `slashStake` announces the slash to the current pool. -/
theorem slashStake_acts (h : Returns (slashStake cfg v x) s u s') :
    Acts s s' (currentKey s v) ((currentPool s v).slash scale x.inner) := by
  obtain ⟨rfl, rfl⟩ | ⟨-, -, perToken, current, rewards, hperToken, hcurrent, rfl⟩ :=
    slashStake_returns h
  · rw [FixedPoint.inner_zero, LazyPool.slash_zero]
    exact acts_of_rewards
  · constructor
    · funext key
      by_cases hkey : key = (s.nonce v, v)
      · subst hkey
        rw [currentKey, update_self]
        ext m
        · rfl
        · rfl
        · rfl
        · simp [poolAt, LazyPool.slash, hcurrent]
        · simp [poolAt, LazyPool.slash, hperToken]
      · rw [currentKey, update_of_ne hkey]
        simp only [poolAt, update_of_ne hkey]
    · rfl

/-- Withdrawing a reward from any pool settles the position in the current pool. -/
theorem withdrawRewardAtIndex_acts {k : Nonce} {r : ℤ}
    (h : Returns (withdrawRewardAtIndex k c v n) s r s') :
    Acts s s' (currentKey s v) ((currentPool s v).settle scale n) := by
  obtain ⟨stake, s₁, happly, t, m, rfl⟩ := withdrawRewardAtIndex_returns h
  exact ⟨(applySlash_acts happly).pools, (applySlash_acts happly).nonce⟩

theorem distributeReward_acts (h : Returns (distributeReward c v x) s r s') :
    Acts s s' key (poolAt s key) := by
  obtain ⟨m, t, rfl⟩ := distributeReward_returns h
  exact acts_of_rewards

theorem addRewardCurrency_acts (h : Returns (addRewardCurrency cfg c) s u s') :
    Acts s s' key (poolAt s key) := by
  obtain ⟨cs, rfl⟩ := addRewardCurrency_returns h
  exact acts_of_rewards

/-- The pools after the current position of `n` was settled and `y` was added to the position
of `n` in the pool `key`. -/
def settleThenAdjust (s : Pools) (v : VaultId) (n : AccountId) (key : PoolKey) (y : ℤ) :
    PoolKey → LazyPool AccountId :=
  let pools := update (poolAt s) (currentKey s v) ((currentPool s v).settle scale n)
  update pools key ((pools key).adjust scale n y)

/-- `withdrawStake` settles in the current pool and debits in the addressed pool; a non-zero
amount is covered by what remains in the current pool. -/
theorem withdrawStake_pools {index : Option Nonce}
    (h : Returns (withdrawStake cfg v n x index) s u s') :
    poolAt s' = settleThenAdjust s v n (index.getD (s.nonce v), v) (-x.inner) ∧
      s'.nonce = s.nonce ∧ (x = 0 ∨ x.inner ≤ (currentPool s v).remaining scale n) := by
  obtain ⟨r, s₁, happly, hcases⟩ := returns_withdrawStake.mp h
  have hacts := applySlash_acts happly
  rcases hcases with ⟨rfl, rfl⟩ | ⟨-, hle, stake, total, current, tally, tallies, hstake, htotal,
    hcurrent, -, htally, -, -, -, rfl⟩
  · refine ⟨?_, hacts.nonce, Or.inl rfl⟩
    simp only [settleThenAdjust, FixedPoint.inner_zero, neg_zero, LazyPool.adjust_zero,
      update_eq_self]
    exact hacts.pools
  · refine ⟨?_, hacts.nonce, Or.inr (applySlash_value happly ▸ hle)⟩
    rw [poolAt_adjusted_amount (y := -x.inner) hstake htotal hcurrent ?_, hacts.pools]
    · rfl
    · rw [mul_neg, Int.neg_tdiv, ← sub_eq_add_neg]
      exact htally

/-- A withdrawal from the current pool settles the position and debits the amount. -/
theorem withdrawStake_acts (h : Returns (withdrawStake cfg v n x none) s u s') :
    Acts s s' (currentKey s v)
      (((currentPool s v).settle scale n).adjust scale n (-x.inner)) := by
  obtain ⟨hpools, hnonce, -⟩ := withdrawStake_pools h
  refine ⟨?_, hnonce⟩
  rw [hpools]
  simp only [settleThenAdjust, Option.getD_none, currentKey, update_self,
    update_idem]

end Spacewalk.Staking
