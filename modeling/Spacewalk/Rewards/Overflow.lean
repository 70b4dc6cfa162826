import Spacewalk.Rewards.Solvency

/-!
# When the reward pools overflow

Runs on one pool in which the total stake and the rewards of every currency stay below a bound that
the fixed point numbers can hold.  The reward per token of a currency is at most what was
distributed (`RewardStep.perToken_le`), so distributions always go through.  A change of stake and a
payment multiply the reward per token with an amount of stake, and a reward that was shared by a
small stake makes this product too large for a larger stake.  `returns_iff_fits` says exactly when.
-/

namespace Spacewalk.PooledRewards

open Foundation

variable {limit : ℕ} {s s' : Storage} {p c : CurrencyId} {v : VaultId} {event : RewardEvent}
  {events : List RewardEvent} {op : RewardOp} {fund a : ℤ}

/-! ## Bounds along a run -/

/-- The pool that an operation changes. -/
def RewardOp.pool : RewardOp → CurrencyId
  | depositStake p _ _ => p
  | withdrawStake p _ _ => p
  | distributeReward p _ _ => p
  | withdrawReward p _ _ => p

/-- A step raises the reward per token by at most what it distributes. -/
theorem RewardStep.perToken_le (h : RewardStep limit s event s')
    (hkept : Kept s) :
    (s'.rewardPerToken (c, p)).inner ≤
      (s.rewardPerToken (c, p)).inner + event.op.distributedTo p c * scale := by
  cases h.effect with
  | adjusts hnet _ hadjusts =>
    obtain ⟨_, _, _, -, -, -, -, rfl⟩ := hadjusts
    simp [(hnet p c).1, adjusted]
  | idles q d => simp [RewardOp.distributedTo]
  | @distributes q d amount _ perToken total hy hperToken _ =>
    have hnonneg : 0 ≤ (amount : ℤ) * scale := mul_nonneg (Int.natCast_nonneg _) scale_pos.le
    simp only [RewardOp.distributedTo]
    split
    · next h =>
      obtain ⟨rfl, rfl⟩ := h
      have hpool : (poolAt (distributed s q d perToken total) q d).perToken =
          (poolAt s q d).perToken + amount * scale / (poolAt s q d).total :=
        congrArg RewardPool.perToken (poolAt_distributed hkept hy hperToken)
      have hshare := Int.ediv_le_self (poolAt s q d).total hnonneg
      change (poolAt (distributed s q d perToken total) q d).perToken ≤ (poolAt s q d).perToken + _
      rw [hpool]
      linarith
    · next h =>
      have hpool : (poolAt (distributed s q d perToken total) p c).perToken =
          (poolAt s p c).perToken :=
        congrArg RewardPool.perToken (poolAt_distributed_of_ne h)
      change (poolAt (distributed s q d perToken total) p c).perToken ≤ (poolAt s p c).perToken + _
      rw [hpool]
      simp
  | pays _ _ => simp [RewardOp.distributedTo, collected]

/-- Nothing negative is paid out. -/
theorem RewardStep.paidFrom_nonneg (h : RewardStep limit s event s')
    (hkept : Kept s) (hcovered : (poolAt s p c).Covered fund) : 0 ≤ event.paidFrom p c := by
  cases h.effect with
  | adjusts hnet _ _ => exact (hnet p c).2.ge
  | idles | distributes => exact le_refl 0
  | @pays q d v =>
    simp only [RewardEvent.paidFrom]
    split
    · next h =>
      obtain ⟨rfl, rfl⟩ := h
      rw [hkept.entitlement_eq]
      exact Int.tdiv_nonneg (hcovered.entitlement_nonneg v) scale_pos.le
    · exact le_refl 0

/-- A step on the pool changes the total rewards by what it distributes and pays. -/
theorem RewardStep.totalRewards_eq (h : RewardStep limit s event s') (hpool : event.op.pool = p) :
    (s'.totalRewards c).inner = (s.totalRewards c).inner + event.net p c := by
  subst hpool
  cases h.effect with
  | adjusts hnet _ hadjusts =>
    obtain ⟨_, _, _, -, -, -, -, rfl⟩ := hadjusts
    simp [RewardEvent.net, hnet, adjusted]
  | idles q d => simp [RewardEvent.net, RewardOp.distributedTo, RewardEvent.paidFrom]
  | @distributes q d _ _ _ _ _ _ htotal =>
    by_cases hd : d = c
    · subst hd
      simp [RewardEvent.net, RewardOp.distributedTo, RewardEvent.paidFrom, RewardOp.pool,
        distributed, htotal]
    · simp [RewardEvent.net, RewardOp.distributedTo, RewardEvent.paidFrom, distributed, hd,
        Ne.symm hd]
  | @pays q d v _ _ htotal _ =>
    by_cases hd : d = c
    · subst hd
      simp [RewardEvent.net, RewardOp.distributedTo, RewardEvent.paidFrom, RewardOp.pool, collected,
        htotal, sub_eq_add_neg]
    · simp [RewardEvent.net, RewardOp.distributedTo, RewardEvent.paidFrom, collected, hd,
        Ne.symm hd]

/-- The books of one pool and currency after `x.1` was distributed and `x.2` was paid. -/
structure Accounted (s : Storage) (p c : CurrencyId) (x : ℤ × ℤ) : Prop where
  kept : Kept s
  covered : (poolAt s p c).Covered ((x.1 - x.2) * scale)
  paid_nonneg : 0 ≤ x.2
  perToken_le : (s.rewardPerToken (c, p)).inner ≤ x.1 * scale
  totalRewards_eq : (s.totalRewards c).inner = (x.1 - x.2) * scale

/-- A step that changes one pool only. -/
def PoolStep (limit : ℕ) (p : CurrencyId) (s : Storage) (event : RewardEvent) (s' : Storage) :
    Prop :=
  RewardStep limit s event s' ∧ event.op.pool = p

def poolStep? (limit : ℕ) (p : CurrencyId) (s : Storage) (event : RewardEvent) : Option Storage :=
  if event.op.pool = p then rewardStep? limit s event else none

theorem poolStep_of_some (h : poolStep? limit p s event = some s') :
    PoolStep limit p s event s' := by
  unfold poolStep? at h
  split at h
  · next hpool => exact ⟨rewardStep_of_some h, hpool⟩
  · cases h

theorem PoolStep.accounted {x : ℤ × ℤ} (h : PoolStep limit p s event s')
    (hs : Accounted s p c x) :
    Accounted s' p c (x + (event.op.distributedTo p c, event.paidFrom p c)) := by
  obtain ⟨hstep, hpool⟩ := h
  obtain ⟨hkept, hcovered⟩ := RewardStep.covered hstep ⟨hs.kept, hs.covered⟩
  have hfund : (x.1 - x.2) * scale + event.net p c =
      ((x + (event.op.distributedTo p c, event.paidFrom p c)).1 -
        (x + (event.op.distributedTo p c, event.paidFrom p c)).2) * scale := by
    simp only [RewardEvent.net, Prod.fst_add, Prod.snd_add]
    ring
  constructor
  · exact hkept
  · rw [← hfund]
    exact hcovered
  · exact add_nonneg hs.paid_nonneg (hstep.paidFrom_nonneg hs.kept hs.covered)
  · have hle := hstep.perToken_le (p := p) (c := c) hs.kept
    have := hs.perToken_le
    simp only [Prod.fst_add, add_mul]
    linarith
  · rw [hstep.totalRewards_eq hpool, hs.totalRewards_eq, hfund]

/-- In every run on one pool, the reward per token is at most what was distributed, and the total
rewards are what was distributed and not paid. -/
theorem run_accounted (h : Run (PoolStep limit p) Storage.genesis events s) :
    Accounted s p c (distributedIn p c events, paidIn p c events) := by
  have hstart : Accounted Storage.genesis p c 0 := by
    constructor
    · exact Kept.genesis
    · rw [poolAt_genesis]
      simpa using RewardPool.Covered.empty VaultId
    · exact le_refl 0
    · exact le_refl 0
    · rfl
  have hend := h.invariant_sum (I := fun s x => Accounted s p c x)
    (f := fun event => (event.op.distributedTo p c, event.paidFrom p c))
    (fun _ _ _ _ hs hstep => PoolStep.accounted hstep hs) hstart
  have hsum : ∀ l : List RewardEvent,
      (l.map fun event => (event.op.distributedTo p c, event.paidFrom p c)).sum =
        (distributedIn p c l, paidIn p c l) := by
    intro l
    induction l with
    | nil => rfl
    | cons event l ih => simp [ih, distributedIn, paidIn]
  rwa [hsum, zero_add] at hend

/-! ## Which operations go through -/

/-- The bound on the total stake of the pool, and on the rewards of every currency. -/
def bound : ℤ := 10 ^ 20

theorem bound_mul_scale_le : bound * scale ≤ signedFormat.max := by decide

/-- Operations that keep the bounds: a stake may be withdrawn up to what the member has, and rewards
are distributed while there is stake, in a currency that fits into the list of reward currencies. -/
def Admissible (limit : ℕ) (s : Storage) (events : List RewardEvent) : RewardOp → Prop
  | .depositStake p _ amount => (s.totalStake p).inner + amount * scale ≤ bound * scale
  | .withdrawStake p v amount => amount * scale ≤ (s.stake (p, v)).inner
  | .distributeReward p c amount =>
    0 < (s.totalStake p).inner ∧ distributedIn p c events + amount ≤ bound ∧
      (c ∈ s.rewardCurrencies p ∨ (s.rewardCurrencies p).length < limit)
  | .withdrawReward _ _ _ => True

/-- The products of the reward per token with the stake that an operation moves or pays for are at
most the greatest fixed point number. -/
def Fits (s : Storage) : RewardOp → Prop
  | .depositStake p v amount => ∀ c ∈ s.rewardCurrencies p,
    (s.rewardPerToken (c, p)).inner * amount ≤ signedFormat.max ∧
      (s.rewardTally (c, p, v)).inner + (s.rewardPerToken (c, p)).inner * amount ≤ signedFormat.max
  | .withdrawStake p _ amount => ∀ c ∈ s.rewardCurrencies p,
    (s.rewardPerToken (c, p)).inner * amount ≤ signedFormat.max
  | .distributeReward _ _ _ => True
  | .withdrawReward p v c =>
    (s.stake (p, v)).truncate * (s.rewardPerToken (c, p)).inner ≤ signedFormat.max

instance decidableAdmissible (limit : ℕ) (s : Storage) (events : List RewardEvent) :
    (op : RewardOp) → Decidable (Admissible limit s events op)
  | .depositStake _ _ _ => inferInstanceAs (Decidable (_ ≤ _))
  | .withdrawStake _ _ _ => inferInstanceAs (Decidable (_ ≤ _))
  | .distributeReward _ _ _ => inferInstanceAs (Decidable (_ ∧ _ ∧ (_ ∨ _)))
  | .withdrawReward _ _ _ => inferInstanceAs (Decidable True)

instance decidableFits (s : Storage) : (op : RewardOp) → Decidable (Fits s op)
  | .depositStake p _ _ => List.decidableBAll _ (s.rewardCurrencies p)
  | .withdrawStake p _ _ => List.decidableBAll _ (s.rewardCurrencies p)
  | .distributeReward _ _ _ => inferInstanceAs (Decidable True)
  | .withdrawReward _ _ _ => inferInstanceAs (Decidable (_ ≤ _))

theorem exists_inner_of_nonneg {i : ℤ} (hnonneg : 0 ≤ i) (hle : i ≤ signedFormat.max) :
    ∃ y : SignedFixedPoint, y.inner = i :=
  FixedPoint.exists_inner_eq.mpr ⟨signedFormat.min_le_zero.trans hnonneg, hle⟩

/-- The change of a tally in a list of distinct currencies. -/
theorem Kept.exists_tally (h : Kept s) {e : CurrencyId → ℤ}
    (htally : ∀ c ∈ s.rewardCurrencies p,
      ∃ y : SignedFixedPoint, y.inner = (s.rewardTally (c, p, v)).inner + e c) (c : CurrencyId) :
    ∃ y : SignedFixedPoint, y.inner =
      (s.rewardTally (c, p, v)).inner + (s.rewardCurrencies p).count c * e c := by
  by_cases hc : c ∈ s.rewardCurrencies p
  · rw [List.count_eq_one_of_mem (h.nodup p) hc, Nat.cast_one, one_mul]
    exact htally c hc
  · rw [List.count_eq_zero_of_not_mem hc, Nat.cast_zero, zero_mul, add_zero]
    exact ⟨_, rfl⟩

/-- The books of a pool in which the stakes and the rewards of every currency are below the bound. -/
structure Within (s : Storage) (p : CurrencyId) : Prop where
  kept : Kept s
  covered : ∀ c, (poolAt s p c).Covered (bound * scale)
  perToken_le : ∀ c, (s.rewardPerToken (c, p)).inner ≤ bound * scale

namespace Within

variable {amount : Balance}

theorem stake_nonneg (h : Within s p) (v : VaultId) : 0 ≤ (s.stake (p, v)).inner := by
  rw [← (h.kept.stake_whole p v).truncate_mul_div]
  exact mul_nonneg ((h.covered p).stake_nonneg v) scale_pos.le

theorem stake_le_total (h : Within s p) (v : VaultId) :
    (s.stake (p, v)).inner ≤ (s.totalStake p).inner := by
  rw [← (h.kept.stake_whole p v).truncate_mul_div, ← (h.kept.total_whole p).truncate_mul_div]
  exact mul_le_mul_of_nonneg_right ((h.covered p).stake_le_total v) scale_pos.le

theorem perToken_nonneg (h : Within s p) (c : CurrencyId) : 0 ≤ (s.rewardPerToken (c, p)).inner :=
  (h.covered c).perToken_nonneg

/-- The tally is what the stake times the reward per token exceeds the entitlement by. -/
theorem neg_le_tally (h : Within s p) (v : VaultId) (c : CurrencyId) :
    (s.stake (p, v)).truncate * (s.rewardPerToken (c, p)).inner - bound * scale ≤
      (s.rewardTally (c, p, v)).inner := by
  have := (h.covered c).entitlement_le v
  simp only [RewardPool.entitlement, poolAt] at this
  linarith

theorem tallyChange_nonneg (h : Within s p) {x : SignedFixedPoint} (hx : x.inner = amount * scale)
    (c : CurrencyId) : 0 ≤ tallyChange s p x c := by
  rw [tallyChange_eq hx]
  exact mul_nonneg (h.perToken_nonneg c) (Int.natCast_nonneg _)

/-- A change of stake can be stored if the new stakes and tallies are in range. -/
theorem exists_adjusts {d : ℤ} {e : CurrencyId → ℤ} (h : Within s p)
    (hstake : 0 ≤ (s.stake (p, v)).inner + d) (htotal : (s.totalStake p).inner + d ≤ signedFormat.max)
    (htally : ∀ c ∈ s.rewardCurrencies p, ∃ y : SignedFixedPoint,
      y.inner = (s.rewardTally (c, p, v)).inner + e c) : ∃ s', Adjusts s p v d e s' := by
  have hle := h.stake_le_total v
  obtain ⟨stake, hstake⟩ := exists_inner_of_nonneg hstake (by linarith)
  obtain ⟨total, htotal⟩ := exists_inner_of_nonneg (by linarith) htotal
  choose tally htally using h.kept.exists_tally htally
  refine ⟨_, stake, total, fun key => if key.2 = (p, v) then tally key.1 else s.rewardTally key,
    hstake, htotal, ?_, ?_, rfl⟩
  · intro c
    simpa using htally c
  · rintro ⟨c, rest⟩ hkey
    have hrest : rest ≠ (p, v) := fun h => hkey c (by rw [h])
    simp [hrest]

theorem min_le_neg_bound : signedFormat.min ≤ -(bound * scale) := by decide

/-- A deposit goes through if and only if the products fit. -/
theorem depositStake_iff (h : Within s p)
    (htotal : (s.totalStake p).inner + amount * scale ≤ bound * scale) :
    (∃ r s', Returns ((RewardOp.depositStake p v amount).exec limit) s r s') ↔
      Fits s (.depositStake p v amount) := by
  have hamount : 0 ≤ (amount : ℤ) * scale := mul_nonneg (Int.natCast_nonneg _) scale_pos.le
  simp only [RewardOp.exec, returns_rules, toFixed_eq_ok, returns_depositStake, Fits]
  constructor
  · rintro ⟨_, _, x, _, ⟨hx, rfl⟩, _, _, ⟨hreps, _, _, tallies, -, -, htally, -, rfl⟩, -, -⟩ c hc
    obtain ⟨y, hy⟩ := hreps c hc
    have hnew := htally c
    rw [List.count_eq_one_of_mem (h.kept.nodup p) hc, Nat.cast_one, one_mul, tallyChange_eq hx] at hnew
    rw [tallyChange_eq hx] at hy
    exact ⟨hy ▸ y.le_max, hnew ▸ (tallies (c, p, v)).le_max⟩
  · intro hfits
    have hmax := bound_mul_scale_le
    have hstake := h.stake_nonneg v
    have hle := h.stake_le_total v
    obtain ⟨x, hx⟩ := exists_inner_of_nonneg hamount (by linarith)
    simp only [← tallyChange_eq hx] at hfits
    have htallies : ∀ c ∈ s.rewardCurrencies p, ∃ y : SignedFixedPoint,
        y.inner = (s.rewardTally (c, p, v)).inner + tallyChange s p x c := by
      intro c hc
      refine FixedPoint.exists_inner_eq.mpr ⟨?_, (hfits c hc).2⟩
      have := (s.rewardTally (c, p, v)).min_le
      linarith [h.tallyChange_nonneg hx c]
    obtain ⟨s', hs'⟩ := h.exists_adjusts (d := x.inner) (by linarith) (by linarith) htallies
    exact ⟨0, s', x, s, ⟨hx, rfl⟩, ⟨⟩, s', ⟨fun c hc => exists_inner_of_nonneg
      (h.tallyChange_nonneg hx c) (hfits c hc).1, hs'⟩, rfl, rfl⟩

/-- A withdrawal of at most the stake goes through if and only if the products fit. -/
theorem withdrawStake_iff (h : Within s p) (hamount : amount * scale ≤ (s.stake (p, v)).inner) :
    (∃ r s', Returns ((RewardOp.withdrawStake p v amount).exec limit) s r s') ↔
      Fits s (.withdrawStake p v amount) := by
  have hnonneg : 0 ≤ (amount : ℤ) * scale := mul_nonneg (Int.natCast_nonneg _) scale_pos.le
  simp only [RewardOp.exec, returns_rules, toFixed_eq_ok, returns_withdrawStake, Fits]
  constructor
  · rintro ⟨_, _, x, _, ⟨hx, rfl⟩, _, _, ⟨-, hreps, -⟩, -, -⟩ c hc
    obtain ⟨y, hy⟩ := hreps c hc
    rw [tallyChange_eq hx] at hy
    exact hy ▸ y.le_max
  · intro hfits
    have hstake := (s.stake (p, v)).le_max
    have htotal := (s.totalStake p).le_max
    obtain ⟨x, hx⟩ := exists_inner_of_nonneg hnonneg (by linarith)
    simp only [← tallyChange_eq hx] at hfits
    have htallies : ∀ c ∈ s.rewardCurrencies p, ∃ y : SignedFixedPoint,
        y.inner = (s.rewardTally (c, p, v)).inner + -tallyChange s p x c := by
      intro c hc
      have hmax := (s.rewardTally (c, p, v)).le_max
      refine FixedPoint.exists_inner_eq.mpr ⟨?_, by linarith [h.tallyChange_nonneg hx c]⟩
      -- the tally stays above the rewards that are still owed to the member
      have hmembers : (amount : ℤ) ≤ (s.stake (p, v)).truncate := by
        rw [← (h.kept.stake_whole p v).truncate_mul_div] at hamount
        exact le_of_mul_le_mul_right hamount scale_pos
      have hmul := mul_le_mul_of_nonneg_right hmembers (h.perToken_nonneg c)
      have := h.neg_le_tally v c
      have := min_le_neg_bound
      rw [tallyChange_eq hx]
      linarith
    obtain ⟨s', hs'⟩ := h.exists_adjusts (d := -x.inner) (by linarith) (by linarith) htallies
    exact ⟨0, s', x, s, ⟨hx, rfl⟩, ⟨⟩, s', ⟨hx ▸ hamount, fun c hc => exists_inner_of_nonneg
      (h.tallyChange_nonneg hx c) (hfits c hc), hs'⟩, rfl, rfl⟩

end Within

section

variable {x : ℤ × ℤ} {amount : Balance}

/-- A distribution that keeps the bound on the rewards goes through. -/
theorem Accounted.distributeReward_returns (h : Accounted s p c x)
    (htotal : 0 < (s.totalStake p).inner) (hbound : x.1 + amount ≤ bound)
    (hroom : c ∈ s.rewardCurrencies p ∨ (s.rewardCurrencies p).length < limit) :
    ∃ r s', Returns ((RewardOp.distributeReward p c amount).exec limit) s r s' := by
  have hnonneg : 0 ≤ (amount : ℤ) * scale := mul_nonneg (Int.natCast_nonneg _) scale_pos.le
  have hmax := bound_mul_scale_le
  have hsum : x.1 * scale + amount * scale ≤ bound * scale := by
    rw [← add_mul]
    exact mul_le_mul_of_nonneg_right hbound scale_pos.le
  have hperToken := h.covered.perToken_nonneg
  have hperToken_le := h.perToken_le
  have hpaid := mul_nonneg h.paid_nonneg scale_pos.le
  simp only [RewardOp.exec, returns_rules, toFixed_eq_ok, returns_transactional,
    distributeReward_ok]
  obtain ⟨reward, hreward⟩ := exists_inner_of_nonneg hnonneg (by
    change 0 ≤ (s.rewardPerToken (c, p)).inner at hperToken
    linarith)
  by_cases hzero : reward = 0
  · exact ⟨0, s, reward, s, ⟨hreward, rfl⟩, ⟨⟩, s, .inl ⟨hzero, rfl⟩, rfl, rfl⟩
  have hne : s.totalStake p ≠ 0 := fun heq => htotal.ne' (by rw [heq]; rfl)
  -- a stake of at least one unit shares the reward
  have hshare : (reward.inner * scale).tdiv (s.totalStake p).inner ≤ amount * scale := by
    obtain ⟨k, hk⟩ := h.kept.total_whole p
    rw [hreward, hk, mul_comm (signedFormat.div) k, Int.mul_tdiv_mul_of_pos_left _ _ scale_pos,
      Int.tdiv_eq_ediv_of_nonneg hnonneg]
    exact Int.ediv_le_self k hnonneg
  have hshare_nonneg : 0 ≤ (reward.inner * scale).tdiv (s.totalStake p).inner := by
    rw [hreward]
    exact Int.tdiv_nonneg (mul_nonneg hnonneg scale_pos.le) htotal.le
  change 0 ≤ (s.rewardPerToken (c, p)).inner at hperToken
  have hfund := h.totalRewards_eq
  have hfund_nonneg : 0 ≤ (x.1 - x.2) * scale :=
    (Finset.sum_nonneg fun m _ => h.covered.entitlement_nonneg m).trans h.covered.sum_le
  obtain ⟨y, hy⟩ := exists_inner_of_nonneg hshare_nonneg (by linarith)
  obtain ⟨perToken, hnew⟩ := exists_inner_of_nonneg
    (i := (s.rewardPerToken (c, p)).inner + y.inner) (by linarith) (by linarith)
  obtain ⟨total, hrewards⟩ := exists_inner_of_nonneg
    (i := (s.totalRewards c).inner + reward.inner) (by linarith) (by linarith)
  exact ⟨0, _, reward, s, ⟨hreward, rfl⟩, ⟨⟩, _,
    .inr ⟨hzero, hne, hroom, y, perToken, total, hy, hnew, hrewards, rfl⟩, rfl, rfl⟩

/-- A payment goes through if and only if the product of the stake with the reward per token fits. -/
theorem Accounted.withdrawReward_iff (h : Accounted s p c x) (hbound : x.1 ≤ bound) :
    (∃ r s', Returns ((RewardOp.withdrawReward p v c).exec limit) s r s') ↔
      Fits s (.withdrawReward p v c) := by
  have hmax := bound_mul_scale_le
  have hpaid := mul_nonneg h.paid_nonneg scale_pos.le
  have hle : x.1 * scale ≤ bound * scale := mul_le_mul_of_nonneg_right hbound scale_pos.le
  have hproduct : ((s.stake (p, v)).inner * (s.rewardPerToken (c, p)).inner).tdiv scale =
      (s.stake (p, v)).truncate * (s.rewardPerToken (c, p)).inner := by
    rw [← (h.kept.stake_whole p v).truncate_mul_div, mul_comm, tdiv_mul_scale, mul_comm]
  simp only [RewardOp.exec, returns_withdrawReward, computeReward_eq_ok, Fits, hproduct]
  constructor
  · rintro ⟨_, _, ⟨⟨y, hy⟩, -, -⟩, -⟩
    exact hy ▸ y.le_max
  · intro hfits
    have hent := h.covered.entitlement_nonneg v
    have hent_le := h.covered.entitlement_le v
    rw [← h.kept.entitlement_eq] at hent hent_le
    -- the payout is the entitlement, rounded down
    have hpayout : (entitlement s p v c).tdiv scale * scale ≤ entitlement s p v c := by
      rw [Int.tdiv_eq_ediv_of_nonneg hent]
      exact Int.ediv_mul_le _ scale_pos.ne'
    have hpayout_nonneg : 0 ≤ (entitlement s p v c).tdiv scale * scale :=
      mul_nonneg (Int.tdiv_nonneg hent scale_pos.le) scale_pos.le
    have hfund := h.totalRewards_eq
    obtain ⟨tally, htally⟩ := exists_inner_of_nonneg
      (mul_nonneg (h.covered.stake_nonneg v) h.covered.perToken_nonneg) hfits
    obtain ⟨total, htotal⟩ := exists_inner_of_nonneg
      (i := (s.totalRewards c).inner - (entitlement s p v c).tdiv scale * scale)
      (by linarith) (by linarith)
    exact ⟨_, _, ⟨⟨tally, htally⟩, exists_inner_of_nonneg hent (by linarith), rfl⟩, total, tally,
      exists_inner_of_nonneg hpayout_nonneg (by linarith), htotal, htally, rfl⟩

end

/-- In every run on one pool in which no currency gets more than the bound in rewards, an admissible
operation goes through if and only if its products with the reward per token fit.  The stake that
shared a reward when it was distributed does not matter for anything else. -/
theorem returns_iff_fits (h : Run (PoolStep limit p) Storage.genesis events s)
    (hrewards : ∀ c, distributedIn p c events ≤ bound) (hpool : op.pool = p)
    (hop : Admissible limit s events op) :
    (∃ r s', Returns (op.exec limit) s r s') ↔ Fits s op := by
  have hbooks : ∀ c, Accounted s p c (distributedIn p c events, paidIn p c events) :=
    fun c => run_accounted h
  have hwithin : Within s p := by
    refine ⟨(hbooks p).kept, fun c => (hbooks c).covered.mono ?_, fun c => (hbooks c).perToken_le.trans ?_⟩
    · exact mul_le_mul_of_nonneg_right
        (by linarith [hrewards c, (hbooks c).paid_nonneg]) scale_pos.le
    · exact mul_le_mul_of_nonneg_right (hrewards c) scale_pos.le
  cases op with
  | depositStake q v amount =>
    obtain rfl : q = p := hpool
    exact hwithin.depositStake_iff hop
  | withdrawStake q v amount =>
    obtain rfl : q = p := hpool
    exact hwithin.withdrawStake_iff hop
  | distributeReward q c amount =>
    obtain rfl : q = p := hpool
    obtain ⟨htotal, hbound, hroom⟩ := hop
    exact iff_of_true ((hbooks c).distributeReward_returns htotal hbound hroom) trivial
  | withdrawReward q v c =>
    obtain rfl : q = p := hpool
    exact (hbooks c).withdrawReward_iff (hrewards c)

/-- A vault stakes one unit, and all rewards are distributed to it. -/
def lonelyReward : List RewardEvent :=
  [⟨.depositStake (.xcm 0) sampleStakeId 1, 0⟩, ⟨.distributeReward (.xcm 0) .native (10 ^ 20), 0⟩]

/-- The rewards of the run are below the bound. -/
theorem distributedIn_lonelyReward (c : CurrencyId) :
    distributedIn (.xcm 0) c lonelyReward ≤ bound := by
  simp only [lonelyReward, distributedIn, List.map_cons, List.map_nil, RewardOp.distributedTo, bound]
  split <;> simp

/-- The vault that got all rewards can be paid. -/
theorem returns_iff_fits_lonelyReward :
    ∃ s, Run (PoolStep 10 (.xcm 0)) Storage.genesis lonelyReward s ∧
      ∃ r s', Returns ((RewardOp.withdrawReward (.xcm 0) sampleStakeId .native).exec 10) s r s' := by
  obtain ⟨s, hrun, hfits⟩ : ∃ s, Run (PoolStep 10 (.xcm 0)) Storage.genesis lonelyReward s ∧
      Fits s (.withdrawReward (.xcm 0) sampleStakeId .native) :=
    Run.exists_of_replay (fun _ _ _ => poolStep_of_some) (by decide +kernel)
  have hop : Admissible 10 s lonelyReward (.withdrawReward (.xcm 0) sampleStakeId .native) := trivial
  exact ⟨s, hrun, (returns_iff_fits hrun distributedIn_lonelyReward rfl hop).mpr hfits⟩

/-- Another vault with as much stake as the bound allows. -/
def lateDeposit : RewardOp :=
  .depositStake (.xcm 0) ⟨⟨2⟩, ⟨.xcm 0, .stellar .stellarNative⟩⟩ (10 ^ 20 - 1)

/-- After a reward to a stake of one unit, a deposit that keeps all bounds overflows. -/
theorem lateDeposit_overflows :
    ∃ s, Run (PoolStep 10 (.xcm 0)) Storage.genesis lonelyReward s ∧
      (∀ c, distributedIn (.xcm 0) c lonelyReward ≤ bound) ∧
      Admissible 10 s lonelyReward lateDeposit ∧
      (lateDeposit.exec 10).run s = .error .overflow := by
  obtain ⟨s, hrun, hadmissible, hfails⟩ : ∃ s,
      Run (PoolStep 10 (.xcm 0)) Storage.genesis lonelyReward s ∧
        Admissible 10 s lonelyReward lateDeposit ∧ Fails (lateDeposit.exec 10) s .overflow :=
    Run.exists_of_replay (fun _ _ _ => poolStep_of_some) (by decide +kernel)
  exact ⟨s, hrun, distributedIn_lonelyReward, hadmissible, hfails⟩

end Spacewalk.PooledRewards
