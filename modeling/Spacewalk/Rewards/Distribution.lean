import Spacewalk.Rewards.Outcomes
import Spacewalk.Runtime.Replay

/-!
# The way of a reward

`distribute_rewards` splits a reward over the pools in proportion to the value of their stakes in
USD; what a pool does not take is returned.  Together the pools get, and the caller gets back, the
sum of the shares (`distributeRewards_accounts`), which is at most the reward unless all stakes are
worth nothing (`distributed_le_iff`).

`collect_reward` and `withdraw_all_rewards_from_vault` take the rewards of a vault out of its pool and
credit them to the stakers of the vault.  Without stake there is nobody to credit, and the rewards
are lost (`moved_credited_iff`).
-/

namespace Spacewalk

open Foundation Function

variable {B : Type} {R : Runtime B}

/-- Proportions are rounded down to parts of a quintillion. -/
def Runtime.RoundsDown (R : Runtime B) : Prop :=
  ∀ part whole amount, R.proportion part whole amount =
    (Perquintill.fromRational part whole).mulFloor amount

namespace RewardDistribution

open PooledRewards (scale)

variable {s s' : Chain B} {p c : CurrencyId} {rewardAmount : ℕ}

/-! ## What the pools get -/

/-- The rewards that were credited between two states, in units of the inner value. -/
def credited (s s' : Chain B) (c : CurrencyId) : ℤ :=
  (s'.pooledRewards.totalRewards c).inner - (s.pooledRewards.totalRewards c).inner

/-- The pool counts a reward if and only if the call succeeds. -/
theorem api_distributeReward_counts {limit part : ℕ} {t t' : PooledRewards.Storage}
    {result : Except DispatchError Unit}
    (h : persist (PooledRewards.Api.distributeReward limit p c part) t = (result, t')) :
    (t'.totalRewards c).inner =
      (t.totalRewards c).inner + if result.isOk then part * scale else 0 := by
  unfold PooledRewards.Api.distributeReward at h
  rcases hx : PooledRewards.Api.toFixed part with e | x
  · rw [hx, persist_liftM_error_bind] at h
    obtain ⟨rfl, rfl⟩ := Prod.mk.inj h
    simp [Except.isOk, Except.toBool]
  · rw [hx, persist_liftM_ok_bind] at h
    cases result with
    | error e =>
      rw [PooledRewards.distributeReward_error h]
      simp [Except.isOk, Except.toBool]
    | ok u =>
      have hpart := PooledRewards.toFixed_eq_ok.mp hx
      rcases PooledRewards.distributeReward_ok.mp h with
        ⟨rfl, rfl⟩ | ⟨-, -, -, y, perToken, total, -, -, htotal, rfl⟩
      · have hzero : (part : ℤ) * scale = 0 := hpart.symm
        simp [hzero]
      · simp [PooledRewards.distributed, Except.isOk, Except.toBool, htotal, hpart]

/-- A pool gets its part of a reward, or the part is returned. -/
theorem distributeToPool_accounts {part missed : ℕ}
    (h : Returns (distributeToPool R c p part) s missed s') :
    credited s s' c + missed * scale = part * scale := by
  simp only [distributeToPool, returns_rules] at h
  obtain ⟨_, _, ⟨rfl, rfl⟩, h⟩ := h
  rcases hrun : persist (PooledRewards.Api.distributeReward R.maxRewardCurrencies p c part)
    s.pooledRewards with ⟨result, rewards⟩
  have hcounts := api_distributeReward_counts hrun
  rw [persist] at hrun
  simp only [hrun, returns_bind, returns_set] at h
  obtain ⟨_, _, rfl, h⟩ := h
  unfold credited
  cases result with
  | ok u | error e =>
    obtain ⟨rfl, rfl⟩ := returns_pure.mp h
    simp [Except.isOk, Except.toBool, hcounts]

/-- The loop over the pools: the parts are credited or returned. -/
theorem forPools_accounts {totalStakeInUsd : ℕ} :
    ∀ (pools : List ((CurrencyId × ℕ) × ℕ)) (accum : ℕ) (s : Chain B) (e : ℕ) (s' : Chain B),
      Returns (pools.foldlM (fun errorRewardAccum ((poolId, _), stakeInUsd) => do
        let rewardForPool := R.proportion stakeInUsd totalStakeInUsd rewardAmount
        let missed ← distributeToPool R c poolId rewardForPool
        ensure (errorRewardAccum + missed < balanceBound)
          (DispatchError.rewardDistribution .overflow)
        return errorRewardAccum + missed) accum : ChainM B ℕ) s e s' →
      credited s s' c + e * scale = accum * scale +
        (pools.map fun pool => R.proportion pool.2 totalStakeInUsd rewardAmount).sum * scale := by
  intro pools
  induction pools with
  | nil =>
    intro accum s e s' h
    rw [List.foldlM_nil, returns_pure] at h
    obtain ⟨rfl, rfl⟩ := h
    simp [credited]
  | cons pool pools ih =>
    intro accum s e s' h
    simp only [List.foldlM_cons, returns_guards] at h
    obtain ⟨_, t, ⟨missed, _, hpool, -, rfl, rfl⟩, hrest⟩ := h
    have hhead := distributeToPool_accounts hpool
    have htail := ih _ _ _ _ hrest
    simp only [credited, Nat.cast_add, List.map_cons, List.sum_cons] at hhead htail ⊢
    linarith

/-! ## The shares -/

/-- The list of the pools with their stakes. -/
theorem getTotalStakeAllPools_pools {t : PooledRewards.Storage} {pools : List (CurrencyId × ℕ)}
    (h : PooledRewards.Api.getTotalStakeAllPools t = .ok pools) :
    List.Forall₂ (fun p pool => pool.1 = p ∧
      PooledRewards.Api.toBalance (t.totalStake p).truncate = .ok pool.2) t.poolIds pools := by
  refine (except_mapM_eq_ok.mp h).imp fun p pool hpool => ?_
  simp only [except_rules] at hpool
  obtain ⟨stake, hstake, rfl⟩ := hpool
  exact ⟨rfl, hstake⟩

/-- The values of the stakes, and their sum. -/
theorem stakesInUsd_values {total : ℕ} {usds : List ℕ} {pools : List (CurrencyId × ℕ)}
    (h : stakesInUsd R pools s = .ok (total, usds)) :
    List.Forall₂ (fun pool usd => Oracle.currencyToUsd R pool.2 pool.1 s = .ok usd) pools usds ∧
      total = usds.sum := by
  -- the loop adds to the sum and to the list that it has so far
  suffices hloop : ∀ f : ℕ × List ℕ → CurrencyId × ℕ → Except DispatchError (ℕ × List ℕ),
      (∀ acc pool r, f acc pool = .ok r → ∃ usd, Oracle.currencyToUsd R pool.2 pool.1 s = .ok usd ∧
        r = (acc.1 + usd, acc.2 ++ [usd])) →
      ∀ (pools : List (CurrencyId × ℕ)) (sum : ℕ) (list : List ℕ),
      pools.foldlM f (sum, list) = .ok (total, usds) →
      ∃ rest, usds = list ++ rest ∧ total = sum + rest.sum ∧
        List.Forall₂ (fun pool usd => Oracle.currencyToUsd R pool.2 pool.1 s = .ok usd) pools rest by
    obtain ⟨rest, rfl, rfl, hvalues⟩ := hloop _ (by
      rintro ⟨sum, list⟩ ⟨currencyId, stake⟩ r hstep
      simp only [except_rules] at hstep
      obtain ⟨usd, husd, _, -, rfl⟩ := hstep
      exact ⟨usd, husd, rfl⟩) pools 0 [] h
    exact ⟨by simpa using hvalues, by simp⟩
  intro f hf pools
  induction pools with
  | nil =>
    intro sum list h
    obtain ⟨rfl, rfl⟩ := Prod.mk.inj (Except.ok.inj h)
    exact ⟨[], by simp, by simp, .nil⟩
  | cons pool pools ih =>
    intro sum list h
    rw [List.foldlM_cons, except_bind_eq_ok] at h
    obtain ⟨_, hstep, hrest⟩ := h
    obtain ⟨usd, husd, rfl⟩ := hf _ _ _ hstep
    obtain ⟨rest, rfl, rfl, hvalues⟩ := ih _ _ hrest
    exact ⟨usd :: rest, by simp, by simp [Nat.add_assoc], .cons husd hvalues⟩

/-- A pool whose stake has a value in USD. -/
def HasValue (R : Runtime B) (s : Chain B) (p : CurrencyId) : Prop :=
  ∃ stake usd, PooledRewards.Api.toBalance (s.pooledRewards.totalStake p).truncate = .ok stake ∧
    Oracle.currencyToUsd R stake p s = .ok usd ∧ usd ≠ 0

/-- What the pools get, and what is returned, is the sum of the shares. -/
theorem distributeRewards_accounts {e : ℕ} (h : Returns (distributeRewards R rewardAmount c) s e s') :
    ∃ usds : List ℕ, usds.length = s.pooledRewards.poolIds.length ∧
      (usds.sum ≠ 0 ↔ ∃ p ∈ s.pooledRewards.poolIds, HasValue R s p) ∧
      credited s s' c + e * scale =
        (usds.map fun usd => R.proportion usd usds.sum rewardAmount).sum * scale := by
  simp only [distributeRewards, returns_steps] at h
  obtain ⟨pools, hpools, ⟨total, usds⟩, husds, hloop⟩ := h
  have hstakes := getTotalStakeAllPools_pools hpools
  obtain ⟨hvalues, rfl⟩ := stakesInUsd_values husds
  have hlength : pools.length = usds.length := hvalues.length_eq
  refine ⟨usds, by rw [← hlength, ← hstakes.length_eq], ?_, ?_⟩
  · have hpool : ∀ (p : CurrencyId) (pool : CurrencyId × ℕ), pool.1 = p ∧
        PooledRewards.Api.toBalance (s.pooledRewards.totalStake p).truncate = .ok pool.2 →
        (HasValue R s p ↔
          ∃ usd, Oracle.currencyToUsd R pool.2 pool.1 s = .ok usd ∧ usd ≠ 0) := by
      rintro p pool ⟨rfl, hstake⟩
      simp [HasValue, hstake]
    have husd : ∀ (pool : CurrencyId × ℕ) (usd : ℕ),
        Oracle.currencyToUsd R pool.2 pool.1 s = .ok usd →
        ((∃ usd, Oracle.currencyToUsd R pool.2 pool.1 s = .ok usd ∧ usd ≠ 0) ↔ usd ≠ 0) := by
      intro pool usd h
      simp [h]
    rw [exists_mem_iff_of_forall₂ hpool hstakes, exists_mem_iff_of_forall₂ husd hvalues, Ne,
      List.sum_eq_zero_iff]
    simp only [not_forall, exists_prop, ne_eq]
  · have haccounts := forPools_accounts _ _ _ _ _ hloop
    have hzip : ∀ share : ℕ → ℕ, ((pools.zip usds).map fun pool => share pool.2) = usds.map share := by
      intro share
      rw [← Function.comp_def share Prod.snd, ← List.map_map, List.map_snd_zip hlength.ge]
    rw [haccounts]
    simp only [Nat.cast_zero, zero_mul, zero_add]
    rw [hzip fun usd => R.proportion usd usds.sum rewardAmount]

/-- A distribution hands out at most the reward, if and only if some stake has a value, there is at
most one pool, or there is nothing to distribute: when all stakes are worth nothing, every pool gets
the whole reward. -/
theorem distributed_le_iff (hR : R.RoundsDown) {e : ℕ}
    (h : Returns (distributeRewards R rewardAmount c) s e s') :
    credited s s' c + e * scale ≤ rewardAmount * scale ↔
      (∃ p ∈ s.pooledRewards.poolIds, HasValue R s p) ∨ s.pooledRewards.poolIds.length ≤ 1 ∨
        rewardAmount = 0 := by
  obtain ⟨usds, hlength, hvalue, haccounts⟩ := distributeRewards_accounts h
  rw [haccounts, mul_le_mul_iff_left₀ PooledRewards.scale_pos, Nat.cast_le, ← hvalue, ← hlength]
  unfold Runtime.RoundsDown at hR
  simp only [hR]
  by_cases hsum : usds.sum = 0
  · -- the denominator is zero, and every share is the whole reward
    have hshares : (usds.map fun usd =>
        (Perquintill.fromRational usd usds.sum).mulFloor rewardAmount).sum =
          usds.length * rewardAmount := by
      simp [hsum]
    rw [hshares]
    constructor
    · intro hle
      by_contra! hcon
      obtain ⟨-, htwo, hne⟩ := hcon
      have := Nat.mul_le_mul_right rewardAmount htwo
      omega
    · rintro (hne | hone | rfl)
      · exact absurd hsum hne
      · simpa using Nat.mul_le_mul_right rewardAmount hone
      · simp
  · exact iff_of_true (Perquintill.sum_mulFloor_le hsum le_rfl rewardAmount) (.inl hsum)

/-- Two pools with a stake of a thousand units each, at a given price of all currencies. -/
def twoPools (price : UnsignedFixedPoint) : Chain SampleTokens :=
  { sampleGenesis with
    oracle := ⟨fun _ => some price⟩
    pooledRewards := { PooledRewards.Storage.genesis with
      poolIds := [.xcm 0, .xcm 1]
      totalStake := fun _ => ⟨1000 * 10 ^ 18, by decide, by decide⟩ } }

/-- A distribution of a hundred units over two pools. -/
theorem distributed_le_twoPools :
    ∃ e s', Returns (distributeRewards sampleRuntime 100 .native) (twoPools (percent 100)) e s' ∧
      credited (twoPools (percent 100)) s' .native + e * scale ≤ 100 * scale := by
  have hrun : (outcome (distributeRewards sampleRuntime 100 .native)
      (twoPools (percent 100))).any (fun _ => true) = true := by
    decide +kernel
  have hvalue : HasValue sampleRuntime (twoPools (percent 100)) (.xcm 0) :=
    ⟨1000, 1000, by decide +kernel, by decide +kernel, by decide⟩
  obtain ⟨s', hs', -⟩ := (Option.any_eq_true _ _).mp hrun
  obtain ⟨e, he⟩ := outcome_eq_some.mp hs'
  exact ⟨e, s', he, (distributed_le_iff (fun _ _ _ => rfl) he).mpr
    (.inl ⟨.xcm 0, List.mem_cons_self, hvalue⟩)⟩

/-- The least price above zero. -/
def dustPrice : UnsignedFixedPoint := (FixedPoint.ofInner? unsignedFormat 1).getD 0

/-- At the least price both stakes are worth nothing, and both pools get the whole reward. -/
theorem twoPools_get_double :
    ∃ s', Returns (distributeRewards sampleRuntime 100 .native) (twoPools dustPrice) 0 s' ∧
      credited (twoPools dustPrice) s' .native = 200 * scale := by
  have hrun : (match (distributeRewards sampleRuntime 100 .native).run (twoPools dustPrice) with
      | .ok (e, s') => decide (e = 0 ∧ credited (twoPools dustPrice) s' .native = 200 * scale)
      | .error _ => false) = true := by
    decide +kernel
  split at hrun
  · next e s' hreturns =>
    obtain ⟨rfl, hcredited⟩ := of_decide_eq_true hrun
    exact ⟨s', hreturns, hcredited⟩
  · cases hrun

/-! ## From the pool to the stakers -/

section

variable {v : VaultId} {d : CurrencyId} {u : Unit} {r : ℤ}

/-- Move the reward of a vault in one currency from its pool to its stakers. -/
def moveReward (v : VaultId) (c : CurrencyId) : ChainM B Unit := do
  let reward ← zoom Chain.pooledRewardsL
    (PooledRewards.Api.withdrawReward v.collateralCurrency v c)
  let _ ← zoom Chain.stakingL (Staking.Api.distributeReward v reward c)

/-- The stake of the current pool of a vault that a reward is divided by. -/
def stakersStake (s : Chain B) (v : VaultId) : SignedFixedPoint :=
  s.staking.totalCurrentStake (s.staking.nonce v, v)

/-- The current pool of the vault is credited the reward `r`: the total rewards grow by it, and the
reward per token by its quotient with the stake. -/
structure Credited (s s' : Chain B) (v : VaultId) (c : CurrencyId) (r : ℤ) : Prop where
  totalRewards : (s'.staking.totalRewards (c, s.staking.nonce v, v)).inner =
    (s.staking.totalRewards (c, s.staking.nonce v, v)).inner + r * scale
  rewardPerToken : (s'.staking.rewardPerToken (c, s.staking.nonce v, v)).inner =
    (s.staking.rewardPerToken (c, s.staking.nonce v, v)).inner +
      (r * scale * scale).tdiv (stakersStake s v).inner

/-- What moving rewards leaves as it is: the pools of the stakers and their stakes, and everything
if there is no stake. -/
structure SameStakers (s s' : Chain B) (v : VaultId) : Prop where
  nonce : s'.staking.nonce = s.staking.nonce
  totalCurrentStake : s'.staking.totalCurrentStake = s.staking.totalCurrentStake
  staking : stakersStake s v = 0 → s'.staking = s.staking

theorem SameStakers.stakersStake_eq (h : SameStakers s s' v) :
    stakersStake s' v = stakersStake s v := by
  rw [stakersStake, stakersStake, h.nonce, h.totalCurrentStake]

theorem SameStakers.refl (s : Chain B) (v : VaultId) : SameStakers s s v := ⟨rfl, rfl, fun _ => rfl⟩

theorem SameStakers.trans {t : Chain B} (h : SameStakers s t v) (h' : SameStakers t s' v) :
    SameStakers s s' v where
  nonce := h'.nonce.trans h.nonce
  totalCurrentStake := h'.totalCurrentStake.trans h.totalCurrentStake
  staking hzero := (h'.staking (h.stakersStake_eq ▸ hzero)).trans (h.staking hzero)

theorem Credited.trans {t : Chain B} {r' : ℤ} (hsame : SameStakers s t v)
    (h : Credited s t v c r) (h' : Credited t s' v c r') (hzero : r = 0 ∨ r' = 0) :
    Credited s s' v c (r + r') := by
  have hnonce := congrFun hsame.nonce v
  obtain ⟨htotal, hperToken⟩ := h
  obtain ⟨htotal', hperToken'⟩ := h'
  rw [hnonce] at htotal' hperToken'
  rw [hsame.stakersStake_eq] at hperToken'
  constructor
  · rw [htotal', htotal]
    ring
  · rw [hperToken', hperToken]
    rcases hzero with rfl | rfl <;> simp

theorem Credited.of_staking_eq (h : s'.staking = s.staking) : Credited s s' v c 0 :=
  ⟨by simp [h], by simp [h]⟩

/-- What the staking pallet does with a reward.  Without stake it drops the reward. -/
theorem staking_distributeReward_returns {amount x : ℕ} {t t' : Staking.Pools}
    (h : Returns (Staking.Api.distributeReward v amount c) t x t') :
    (t.totalCurrentStake (t.nonce v, v) = 0 ∧ t' = t) ∨
      ∃ perToken total : SignedFixedPoint,
        perToken.inner = (t.rewardPerToken (c, t.nonce v, v)).inner +
          (amount * scale * scale).tdiv (t.totalCurrentStake (t.nonce v, v)).inner ∧
        total.inner = (t.totalRewards (c, t.nonce v, v)).inner + amount * scale ∧
        t.totalCurrentStake (t.nonce v, v) ≠ 0 ∧
        t' = { t with
          rewardPerToken := update t.rewardPerToken (c, t.nonce v, v) perToken
          totalRewards := update t.totalRewards (c, t.nonce v, v) total } := by
  simp only [Staking.Api.distributeReward, Staking.distributeReward, Staking.increaseRewards,
    returns_rules, returns_ite, returns_checkedAddMut, okOr_eq_ok,
    FixedPoint.checkedDiv_eq_some] at h
  obtain ⟨y, _, ⟨hy, rfl⟩, z, t₁, ⟨_, _, ⟨rfl, rfl⟩, w, t₂, ⟨_, _, ⟨rfl, rfl⟩, hincrease⟩,
    hcount⟩, -, rfl⟩ := h
  have hamount : y.inner = amount * scale := by simpa [Staking.Api.toFixed] using hy
  rcases hincrease with ⟨hzero, rfl, rfl⟩ | ⟨hne, q, _, ⟨⟨-, hq⟩, rfl⟩, perToken, _,
    ⟨hperToken, rfl⟩, rfl, rfl⟩
  · rcases hcount with ⟨-, -, rfl⟩ | ⟨hcon, -⟩
    · exact .inl ⟨hzero, rfl⟩
    · exact absurd rfl hcon
  · have hnew : perToken.inner = (t.rewardPerToken (c, t.nonce v, v)).inner +
        (amount * scale * scale).tdiv (t.totalCurrentStake (t.nonce v, v)).inner := by
      rw [hperToken, hq, hamount]
      rfl
    rcases hcount with ⟨hnone, -, rfl⟩ | ⟨-, total, _, ⟨htotal, rfl⟩, -, rfl⟩
    · -- a reward of zero is not counted
      have hzero : (amount : ℤ) * scale = 0 := by rw [← hamount, hnone, FixedPoint.inner_zero]
      refine .inr ⟨perToken, t.totalRewards (c, t.nonce v, v), hnew, ?_, hne, ?_⟩
      · rw [hzero, add_zero]
      · rw [update_eq_self]
        rfl
    · refine .inr ⟨perToken, total, hnew, ?_, hne, rfl⟩
      rw [htotal, hamount]
      rfl

/-- After the reward of a vault was withdrawn from its pool, there is none left. -/
theorem pooled_withdrawReward_returns {t t' : PooledRewards.Storage} {amount : ℕ}
    (h : Returns (PooledRewards.Api.withdrawReward p v c) t amount t') :
    PooledRewards.computeReward t p v c = .ok amount ∧
      PooledRewards.computeReward t' p v c = .ok 0 ∧
      ∀ d, d ≠ c → PooledRewards.computeReward t' p v d = PooledRewards.computeReward t p v d := by
  simp only [PooledRewards.Api.withdrawReward, returns_rules,
    PooledRewards.returns_withdrawReward] at h
  obtain ⟨r, _, ⟨hr, total, tally, -, -, htally, rfl⟩, hbalance, rfl⟩ := h
  have hamount : r = amount := by
    unfold PooledRewards.Api.toBalance at hbalance
    split at hbalance
    · next hnonneg => rw [← Except.ok.inj hbalance, Int.toNat_of_nonneg hnonneg]
    · cases hbalance
  obtain ⟨hproduct, -, -⟩ := PooledRewards.computeReward_eq_ok.mp hr
  refine ⟨hamount ▸ hr, ?_, fun d hd => ?_⟩
  · have hnone : PooledRewards.entitlement (PooledRewards.collected t p v c total tally) p v c = 0 := by
      simp [PooledRewards.entitlement, PooledRewards.collected, htally]
    exact PooledRewards.computeReward_eq_ok.mpr ⟨hproduct, ⟨0, by rw [hnone]; rfl⟩, by simp [hnone]⟩
  · simp [PooledRewards.computeReward, PooledRewards.collected, hd]

/-- Moving a reward: what is taken from the pool is credited to the stakers if there is stake. -/
theorem moveReward_returns (h : Returns (moveReward v c) s u s') :
    ∃ r : ℤ, PooledRewards.computeReward s.pooledRewards v.collateralCurrency v c = .ok r ∧
      PooledRewards.computeReward s'.pooledRewards v.collateralCurrency v c = .ok 0 ∧
      (∀ d, d ≠ c → PooledRewards.computeReward s'.pooledRewards v.collateralCurrency v d =
        PooledRewards.computeReward s.pooledRewards v.collateralCurrency v d) ∧
      SameStakers s s' v ∧ (∀ d, d ≠ c → Credited s s' v d 0) ∧
      (stakersStake s v ≠ 0 → Credited s s' v c r) := by
  simp only [moveReward, returns_rules, returns_zoom, Chain.pooledRewardsL_get,
    Chain.pooledRewardsL_put, Chain.stakingL_get, Chain.stakingL_put] at h
  obtain ⟨amount, _, ⟨rewards, hrewards, rfl⟩, x, _, ⟨pools, hpools, rfl⟩, -, rfl⟩ := h
  obtain ⟨htaken, hrest, hother⟩ := pooled_withdrawReward_returns hrewards
  refine ⟨amount, htaken, hrest, hother, ?_⟩
  rcases staking_distributeReward_returns hpools with
    ⟨hzero, rfl⟩ | ⟨perToken, total, hperToken, htotal, hne, rfl⟩
  · exact ⟨⟨rfl, rfl, fun _ => rfl⟩, fun d _ => .of_staking_eq rfl, fun hne => absurd hzero hne⟩
  · refine ⟨⟨rfl, rfl, fun hzero => absurd hzero hne⟩, fun d hd => ?_, fun _ => ?_⟩
    · constructor <;> simp [hd]
    · exact ⟨by simpa using htotal, by simpa [stakersStake] using hperToken⟩

theorem moveRewards_returns {cs : List CurrencyId} (h : Returns (forM cs (moveReward v)) s u s')
    (hr : PooledRewards.computeReward s.pooledRewards v.collateralCurrency v c = .ok r) :
    SameStakers s s' v ∧ (stakersStake s v ≠ 0 → Credited s s' v c (if c ∈ cs then r else 0)) := by
  induction cs generalizing s r with
  | nil =>
    obtain rfl := returns_forM_nil.mp h
    exact ⟨.refl s v, fun _ => by simpa using Credited.of_staking_eq rfl⟩
  | cons d cs ih =>
    obtain ⟨t, hhead, htail⟩ := returns_forM_cons.mp h
    obtain ⟨x, hx, hzero, hother, hsame, hcredit_other, hcredit⟩ := moveReward_returns hhead
    by_cases hc : c = d
    · subst hc
      obtain rfl := ok_unique hx hr
      obtain ⟨hrest, hcredit_rest⟩ := ih htail hzero
      refine ⟨hsame.trans hrest, fun hne => ?_⟩
      have hnone := hcredit_rest (hsame.stakersStake_eq ▸ hne)
      rw [ite_self] at hnone
      simpa using (hcredit hne).trans hsame hnone (.inr rfl)
    · obtain ⟨hrest, hcredit_rest⟩ := ih htail ((hother c hc).trans hr)
      refine ⟨hsame.trans hrest, fun hne => ?_⟩
      have hlater := hcredit_rest (hsame.stakersStake_eq ▸ hne)
      simpa [hc] using (hcredit_other c hc).trans hsame hlater (.inl rfl)

/-- The calls that take rewards of a vault out of its pool. -/
inductive RewardCall where
  | withdrawAllRewardsFromVault (vaultId : VaultId)
  | collectReward (origin : Origin) (vaultId : VaultId) (rewardCurrencyId : CurrencyId)
      (index : Option Nonce)

namespace RewardCall

/-- The function of the pallet. -/
def exec (R : Runtime B) : RewardCall → ChainM B Unit
  | withdrawAllRewardsFromVault v => RewardDistribution.withdrawAllRewardsFromVault R v
  | collectReward origin v c index => RewardDistribution.collectReward R origin v c index

/-- The vault whose rewards are taken. -/
def vaultId : RewardCall → VaultId
  | withdrawAllRewardsFromVault v => v
  | collectReward _ v _ _ => v

/-- The currencies in which rewards are taken. -/
def currencies (R : Runtime B) (s : Chain B) : RewardCall → List CurrencyId
  | withdrawAllRewardsFromVault _ => Staking.getAllRewardCurrencies R.staking s.staking
  | collectReward _ _ c _ => [c]

/-- What a call does after it has moved the rewards. -/
def finish (R : Runtime B) : RewardCall → ChainM B Unit
  | withdrawAllRewardsFromVault _ => pure ()
  | collectReward (.signed caller) v c index => payCaller R caller v c index
  | collectReward _ _ _ _ => throw .badOrigin

/-- A call moves the rewards, and then pays the caller or does nothing. -/
theorem exec_moves {call : RewardCall} (h : Returns (call.exec R) s u s') :
    ∃ t, Returns (forM (call.currencies R s) (moveReward call.vaultId)) s u t ∧
      Returns (call.finish R) t () s' := by
  cases call with
  | withdrawAllRewardsFromVault v =>
    simp only [exec, RewardDistribution.withdrawAllRewardsFromVault, returns_rules] at h
    obtain ⟨_, _, ⟨rfl, rfl⟩, hloop⟩ := h
    exact ⟨s', hloop, returns_pure.mpr ⟨rfl, rfl⟩⟩
  | collectReward origin v c index =>
    simp only [exec, RewardDistribution.collectReward, returns_steps, ensureSigned_eq_ok] at h
    obtain ⟨caller, rfl, reward, s₁, hwithdraw, x, t, hdistribute, hpay⟩ := h
    refine ⟨t, returns_forM_cons.mpr ⟨t, ?_, returns_forM_nil.mpr rfl⟩, hpay⟩
    simp only [moveReward, returns_rules]
    exact ⟨reward, s₁, hwithdraw, x, t, hdistribute, trivial, rfl⟩

end RewardCall

/-- Whatever a call takes for a vault out of its reward pool is credited to the current pool of its
stakers, if and only if that pool has stake.  The credit is made before `collect_reward` pays the
caller from it. -/
theorem moved_credited_iff {call : RewardCall} (h : Returns (call.exec R) s u s')
    (hc : c ∈ call.currencies R s)
    (hr : PooledRewards.computeReward s.pooledRewards call.vaultId.collateralCurrency
      call.vaultId c = .ok r) (hpos : 0 < r) :
    ∃ t, Returns (forM (call.currencies R s) (moveReward call.vaultId)) s u t ∧
      Returns (call.finish R) t () s' ∧
      (Credited s t call.vaultId c r ↔ stakersStake s call.vaultId ≠ 0) := by
  obtain ⟨t, hmoves, hfinish⟩ := RewardCall.exec_moves h
  obtain ⟨hsame, hcredit⟩ := moveRewards_returns hmoves hr
  refine ⟨t, hmoves, hfinish, fun hcredited hzero => ?_, fun hne => by simpa [hc] using hcredit hne⟩
  have htotal := hcredited.totalRewards
  rw [hsame.staking hzero, left_eq_add, mul_eq_zero] at htotal
  rcases htotal with hzero | hzero
  · exact hpos.ne' hzero
  · exact PooledRewards.scale_pos.ne' hzero

end

/-- The sample genesis with an issue fee of ten percent. -/
def feeGenesis : Chain SampleTokens :=
  { sampleGenesis with fee := ⟨percent 10, 0, 0, 0, 0, 0⟩ }

/-- The wrapped currency becomes a reward currency.  Account 1 registers a vault, which account 2
nominates, and account 5 registers another one.  A million tokens are issued with the vault of
account 1, and the vaults share the fee. -/
def sharingFees : List Record :=
  [⟨.extrinsic .root (.vaultRegistry (.setSecureCollateralThreshold samplePair (percent 150))), none⟩,
    signed 1 (.vaultRegistry (.registerPublicKey ⟨7⟩)),
    signed 1 (.vaultRegistry (.registerVault samplePair 1500000)),
    signed 1 (.nomination (.optInToNomination samplePair)),
    signed 2 (.nomination (.depositCollateral (sampleVault 1) 200000)),
    signed 5 (.vaultRegistry (.registerPublicKey ⟨7⟩)),
    signed 5 (.vaultRegistry (.registerVault samplePair 9000000)),
    signedDrawing 4 (.issue (.requestIssue 1000000 (sampleVault 1))) 1,
    signed 4 (.issue (.executeIssue 1 (paymentFor 1 10) [] (paymentFor 1 10)))]

/-- The share of the vault of account 5 is credited to its stakers. -/
theorem moved_credited_sharingFees :
    ∃ s t, Run (Step sampleRuntime ∅) feeGenesis sharingFees s ∧
      Credited s t (sampleVault 5) sampleWrapped 84112 := by
  obtain ⟨s, hrun, hreward, hmem, hstake, s', hwithdraw, -⟩ : ∃ s,
      Run (Step sampleRuntime ∅) feeGenesis sharingFees s ∧
        PooledRewards.computeReward s.pooledRewards samplePair.collateral (sampleVault 5)
          sampleWrapped = .ok 84112 ∧
        sampleWrapped ∈ Staking.getAllRewardCurrencies sampleRuntime.staking s.staking ∧
        (stakersStake s (sampleVault 5)).inner ≠ 0 ∧
        ∃ s', Returns (withdrawAllRewardsFromVault sampleRuntime (sampleVault 5)) s () s' ∧ True :=
    run_of_replay environmentStep_refl (by decide +kernel)
  have hcall : Returns ((RewardCall.withdrawAllRewardsFromVault (sampleVault 5)).exec sampleRuntime)
    s () s' := hwithdraw
  obtain ⟨t, -, -, hiff⟩ := moved_credited_iff hcall hmem hreward (by decide)
  exact ⟨s, t, hrun, hiff.mpr fun hzero => hstake (congrArg FixedPoint.inner hzero)⟩

/-- The vault of account 1 is liquidated with its nominator, fees are shared, and the vault
recovers. -/
def recoveringNominated : List Record :=
  sharingFees ++ liquidating ++
    [signedDrawing 4 (.issue (.requestIssue 1000000 (sampleVault 5))) 2,
      signed 4 (.issue (.executeIssue 2 (paymentFor 2 10) [] (paymentFor 2 10))),
      signed 1 (.vaultRegistry (.recoverVaultId samplePair))]

/-- A vault without stake that has a share in its reward pool loses it. -/
theorem recovered_vault_loses_reward :
    ∃ s s', Run (Step sampleRuntime ∅) feeGenesis recoveringNominated s ∧
      Returns ((RuntimeCall.vaultRegistry (.acceptNewIssues samplePair true)).dispatch sampleRuntime
        (.signed ⟨1⟩)) s () s' ∧
      PooledRewards.computeReward s.pooledRewards samplePair.collateral (sampleVault 1)
        sampleWrapped = .ok 2173 ∧
      PooledRewards.computeReward s'.pooledRewards samplePair.collateral (sampleVault 1)
        sampleWrapped = .ok 0 ∧
      ¬ Credited s s' (sampleVault 1) sampleWrapped 2173 := by
  obtain ⟨s, hrun, s', hcall, hreward, hnone, htotal⟩ : ∃ s,
      Run (Step sampleRuntime ∅) feeGenesis recoveringNominated s ∧ ∃ s',
        Returns ((RuntimeCall.vaultRegistry (.acceptNewIssues samplePair true)).dispatch
          sampleRuntime (.signed ⟨1⟩)) s () s' ∧
        PooledRewards.computeReward s.pooledRewards samplePair.collateral (sampleVault 1)
          sampleWrapped = .ok 2173 ∧
        PooledRewards.computeReward s'.pooledRewards samplePair.collateral (sampleVault 1)
          sampleWrapped = .ok 0 ∧
        (s'.staking.totalRewards (sampleWrapped, s.staking.nonce (sampleVault 1),
          sampleVault 1)).inner =
        (s.staking.totalRewards (sampleWrapped, s.staking.nonce (sampleVault 1),
          sampleVault 1)).inner :=
    run_of_replay environmentStep_samplePriceDrop (by decide +kernel)
  refine ⟨s, s', hrun, hcall, hreward, hnone, fun hcredited => ?_⟩
  have hgrowth := hcredited.totalRewards
  rw [htotal, left_eq_add] at hgrowth
  exact absurd hgrowth (by decide)

end RewardDistribution

end Spacewalk
