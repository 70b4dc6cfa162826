import Spacewalk.Foundation.Run
import Spacewalk.Ledger.Books
import Spacewalk.Rewards.Outcomes

/-!
# Solvency of the reward pools

Runs of the pooled rewards pallet over any number of pools, with whole amounts.  While all stakes are
whole units, the products of stakes with the reward per token are exact, and the functions of the
pallet act on the pool of one currency (`poolAt`) as the operations of a pool that shares rewards
do.  So a pool never pays out more than was distributed to it (`payouts_covered`).
-/

namespace Spacewalk.PooledRewards

open Foundation Function

/-! ## Runs -/

/-- The operations on the reward pools. -/
inductive RewardOp where
  | depositStake (poolId : CurrencyId) (stakeId : VaultId) (amount : Balance)
  | withdrawStake (poolId : CurrencyId) (stakeId : VaultId) (amount : Balance)
  | distributeReward (poolId currencyId : CurrencyId) (amount : Balance)
  | withdrawReward (poolId : CurrencyId) (stakeId : VaultId) (currencyId : CurrencyId)

variable (p : CurrencyId) (limit : ℕ) (c : CurrencyId)

namespace RewardOp

/-- The call of the pallet that an operation stands for; its value is what is paid out. -/
def exec : RewardOp → PalletM ℤ
  | depositStake p v amount => do
    PooledRewards.depositStake p v (← Api.toFixed amount)
    return 0
  | withdrawStake p v amount => do
    PooledRewards.withdrawStake p v (← Api.toFixed amount)
    return 0
  | distributeReward p c amount => do
    transactional (PooledRewards.distributeReward limit p c (← Api.toFixed amount))
    return 0
  | withdrawReward p v c => PooledRewards.withdrawReward p v c

/-- The amount that an operation distributes to a pool in a currency. -/
def distributedTo : RewardOp → ℤ
  | distributeReward p' c' amount => if p' = p ∧ c' = c then amount else 0
  | _ => 0

end RewardOp

/-- What happens in a run: an operation, and what it pays out. -/
structure RewardEvent where
  op : RewardOp
  payout : ℤ

variable (s : Storage) (events : List RewardEvent) (event : RewardEvent)

/-- The amount that is paid out of a pool in a currency. -/
def RewardEvent.paidFrom : ℤ :=
  match event.op with
  | .withdrawReward p' _ c' => if p' = p ∧ c' = c then event.payout else 0
  | _ => 0

/-- A successful operation. -/
def RewardStep (s' : Storage) : Prop :=
  Returns (event.op.exec limit) s event.payout s'

def rewardStep? : Option Storage :=
  match (event.op.exec limit).run s with
  | .ok (payout, s') => if payout = event.payout then some s' else none
  | .error _ => none

theorem rewardStep_of_some {limit : ℕ} {s s' : Storage} {event : RewardEvent}
    (h : rewardStep? limit s event = some s') : RewardStep limit s event s' := by
  unfold rewardStep? at h
  split at h
  · next payout t hrun =>
    split at h
    · next hpayout =>
      obtain rfl := Option.some.inj h
      rw [RewardStep, ← hpayout]
      exact hrun
    · cases h
  · cases h

/-- Everything that was distributed to a pool in a currency. -/
def distributedIn : ℤ :=
  (events.map fun event => event.op.distributedTo p c).sum

/-- Everything that was paid out of a pool in a currency. -/
def paidIn : ℤ :=
  (events.map (RewardEvent.paidFrom p c)).sum

/-! ## The pool of one currency -/

def poolAt (p c : CurrencyId) : RewardPool VaultId where
  stake v := (s.stake (p, v)).truncate
  total := (s.totalStake p).truncate
  perToken := (s.rewardPerToken (c, p)).inner
  tally v := (s.rewardTally (c, p, v)).inner

/-- All stakes are whole units, and the reward currencies of a pool are tracked. -/
structure Kept (s : Storage) : Prop where
  stake_whole : ∀ p v, (s.stake (p, v)).IsWhole
  total_whole : ∀ p, (s.totalStake p).IsWhole
  nodup : ∀ p, (s.rewardCurrencies p).Nodup
  perToken_eq_zero : ∀ p c, c ∉ s.rewardCurrencies p → (s.rewardPerToken (c, p)).inner = 0

section

variable {s s' : Storage} {p q c : CurrencyId} {v : VaultId} {a : ℤ} {e : CurrencyId → ℤ}
  {x : SignedFixedPoint} {limit : ℕ}

theorem tdiv_mul_scale (m n : ℤ) : (m * (n * scale)).tdiv scale = m * n := by
  rw [← mul_assoc, Int.mul_tdiv_cancel _ scale_pos.ne']

/-- For whole amounts, the change of a tally is exact. -/
theorem tallyChange_eq {amount : Balance} (hx : x.inner = amount * scale) :
    tallyChange s p x c = (s.rewardPerToken (c, p)).inner * amount := by
  rw [tallyChange, hx, tdiv_mul_scale]

/-- While stakes are whole, the entitlement that the pallet computes is exact. -/
theorem Kept.entitlement_eq (h : Kept s) : entitlement s p v c = (poolAt s p c).entitlement v := by
  unfold entitlement RewardPool.entitlement poolAt
  rw [← (h.stake_whole p v).truncate_mul_div, mul_comm, tdiv_mul_scale, mul_comm]

theorem poolAt_genesis : poolAt Storage.genesis p c = RewardPool.empty VaultId := rfl

theorem Kept.genesis : Kept Storage.genesis where
  stake_whole _ _ := dvd_zero _
  total_whole _ := dvd_zero _
  nodup _ := List.nodup_nil
  perToken_eq_zero _ _ _ := rfl

/-- A change of stake by whole units keeps the books. -/
theorem Adjusts.kept (hs : Kept s) (h : Adjusts s p v (a * scale) e s') : Kept s' := by
  obtain ⟨stake, total, tallies, hstake, htotal, -, -, rfl⟩ := h
  constructor
  · intro q w
    by_cases hkey : (q, w) = (p, v)
    · obtain ⟨rfl, rfl⟩ := Prod.mk.inj hkey
      change signedFormat.div ∣ (update s.stake (q, w) stake (q, w)).inner
      rw [update_self, hstake]
      exact dvd_add (hs.stake_whole q w) (dvd_mul_left _ _)
    · change signedFormat.div ∣ (update s.stake (p, v) stake (q, w)).inner
      rw [update_of_ne hkey]
      exact hs.stake_whole q w
  · intro q
    by_cases hkey : q = p
    · subst hkey
      change signedFormat.div ∣ (update s.totalStake q total q).inner
      rw [update_self, htotal]
      exact dvd_add (hs.total_whole q) (dvd_mul_left _ _)
    · change signedFormat.div ∣ (update s.totalStake p total q).inner
      rw [update_of_ne hkey]
      exact hs.total_whole q
  · exact hs.nodup
  · exact hs.perToken_eq_zero

/-- A change of stake by whole units acts on the pool as `adjust`. -/
theorem Adjusts.poolAt_self (hs : Kept s) (h : Adjusts s p v (a * scale) e s')
    (he : ∀ c, e c = (s.rewardPerToken (c, p)).inner * a) :
    poolAt s' p c = (poolAt s p c).adjust v a := by
  have hadd : ∀ {y z : SignedFixedPoint}, z.IsWhole → y.inner = z.inner + a * scale →
      y.truncate = z.truncate + a := by
    rintro y z ⟨k, hk⟩ hy
    rw [FixedPoint.truncate, FixedPoint.truncate, hy, hk, mul_comm a, ← mul_add,
      Int.mul_tdiv_cancel_left _ scale_pos.ne', Int.mul_tdiv_cancel_left _ scale_pos.ne']
  obtain ⟨stake, total, tallies, hstake, htotal, htally, hother, rfl⟩ := h
  apply RewardPool.ext
  · funext w
    by_cases hw : w = v
    · subst hw
      simpa [poolAt, adjusted, RewardPool.adjust] using hadd (hs.stake_whole p w) hstake
    · have hkey : (p, w) ≠ (p, v) := fun h => hw (Prod.mk.inj h).2
      simp [poolAt, adjusted, RewardPool.adjust, hw]
  · simpa [poolAt, adjusted, RewardPool.adjust] using hadd (hs.total_whole p) htotal
  · rfl
  · funext w
    by_cases hw : w = v
    · subst hw
      have hcount : ((s.rewardCurrencies p).count c : ℤ) * e c = e c := by
        by_cases hc : c ∈ s.rewardCurrencies p
        · rw [List.count_eq_one_of_mem (hs.nodup p) hc, Nat.cast_one, one_mul]
        · rw [he, hs.perToken_eq_zero p c hc, zero_mul, mul_zero]
      have := htally c
      rw [hcount, he] at this
      simpa [poolAt, adjusted, RewardPool.adjust] using this
    · have hkey : ∀ d, (c, p, w) ≠ (d, p, v) := fun d h => hw (by simp_all)
      simp [poolAt, adjusted, RewardPool.adjust, hw, hother _ hkey]

theorem Adjusts.poolAt_of_ne (h : Adjusts s p v a e s') (hq : q ≠ p) :
    poolAt s' q c = poolAt s q c := by
  obtain ⟨stake, total, tallies, -, -, -, hother, rfl⟩ := h
  apply RewardPool.ext
  · funext w
    simp [poolAt, adjusted, hq]
  · simp [poolAt, adjusted, hq]
  · rfl
  · funext w
    have hkey : ∀ d, (c, q, w) ≠ (d, p, v) := fun d h => hq (by simp_all)
    simp [poolAt, adjusted, hother _ hkey]

theorem tracked_rewardCurrencies (s : Storage) (p c q : CurrencyId) :
    (tracked s p c).rewardCurrencies q =
      if q = p ∧ c ∉ s.rewardCurrencies p then s.rewardCurrencies p ++ [c]
      else s.rewardCurrencies q := by
  unfold tracked
  by_cases hc : c ∈ s.rewardCurrencies p
  · simp [hc]
  · by_cases hq : q = p
    · subst hq
      simp [hc]
    · simp [hc, hq]

theorem tracked_stake (s : Storage) (p c : CurrencyId) : (tracked s p c).stake = s.stake := by
  unfold tracked
  split <;> rfl

theorem tracked_totalStake (s : Storage) (p c : CurrencyId) :
    (tracked s p c).totalStake = s.totalStake := by
  unfold tracked
  split <;> rfl

theorem tracked_rewardTally (s : Storage) (p c : CurrencyId) :
    (tracked s p c).rewardTally = s.rewardTally := by
  unfold tracked
  split <;> rfl

/-- A distribution keeps the books. -/
theorem Kept.distributed (hs : Kept s) (p c : CurrencyId) (perToken total : SignedFixedPoint) :
    Kept (distributed s p c perToken total) := by
  constructor
  · intro q w
    change ((tracked s p c).stake (q, w)).IsWhole
    rw [tracked_stake]
    exact hs.stake_whole q w
  · intro q
    change ((tracked s p c).totalStake q).IsWhole
    rw [tracked_totalStake]
    exact hs.total_whole q
  · intro q
    change ((tracked s p c).rewardCurrencies q).Nodup
    rw [tracked_rewardCurrencies]
    split
    · next h => exact (hs.nodup p).append (List.nodup_singleton c) (by simpa using h.2)
    · exact hs.nodup q
  · intro q d hd
    change d ∉ (tracked s p c).rewardCurrencies q at hd
    rw [tracked_rewardCurrencies] at hd
    change (update s.rewardPerToken (c, p) perToken (d, q)).inner = 0
    -- the currency whose reward per token changes is tracked afterwards
    by_cases hkey : (d, q) = (c, p)
    · obtain ⟨rfl, rfl⟩ := Prod.mk.inj hkey
      exfalso
      revert hd
      split <;> simp_all
    · rw [update_of_ne hkey]
      refine hs.perToken_eq_zero q d fun hmem => hd ?_
      split
      · next h => exact List.mem_append_left _ (h.1 ▸ hmem)
      · exact hmem

/-- A distribution of whole units acts on the pool as `distribute`. -/
theorem poolAt_distributed (hs : Kept s) {y perToken total : SignedFixedPoint} {amount : Balance}
    (hy : y.inner = (amount * scale * scale).tdiv (s.totalStake p).inner)
    (hperToken : perToken.inner = (s.rewardPerToken (c, p)).inner + y.inner) :
    poolAt (distributed s p c perToken total) p c = (poolAt s p c).distribute scale amount := by
  obtain ⟨k, hk⟩ := hs.total_whole p
  have htotal : (s.totalStake p).truncate = k := by
    rw [FixedPoint.truncate, hk, Int.mul_tdiv_cancel_left _ scale_pos.ne']
  have hshare : y.inner = amount * scale / k := by
    rw [hy, hk, mul_comm (signedFormat.div) k, Int.mul_tdiv_mul_of_pos_left _ _ scale_pos,
      Int.tdiv_eq_ediv_of_nonneg (mul_nonneg (Int.natCast_nonneg amount) scale_pos.le)]
  apply RewardPool.ext
  · funext w
    simp [poolAt, PooledRewards.distributed, tracked_stake, RewardPool.distribute]
  · simp [poolAt, PooledRewards.distributed, tracked_totalStake, RewardPool.distribute]
  · simp [poolAt, PooledRewards.distributed, RewardPool.distribute, hperToken, hshare, htotal]
  · funext w
    simp [poolAt, PooledRewards.distributed, tracked_rewardTally, RewardPool.distribute]

theorem poolAt_distributed_of_ne {perToken total : SignedFixedPoint} {d : CurrencyId}
    (hne : ¬ (p = q ∧ c = d)) :
    poolAt (distributed s p c perToken total) q d = poolAt s q d := by
  have hkey : (d, q) ≠ (c, p) := fun h => hne (by simp_all)
  apply RewardPool.ext
  · funext w
    simp [poolAt, PooledRewards.distributed, tracked_stake]
  · simp [poolAt, PooledRewards.distributed, tracked_totalStake]
  · simp [poolAt, PooledRewards.distributed, update_of_ne hkey]
  · funext w
    simp [poolAt, PooledRewards.distributed, tracked_rewardTally]

/-- A payment acts on the pool as `collect`. -/
theorem poolAt_collected (hs : Kept s) {total tally : SignedFixedPoint}
    (htally : tally.inner =
      ((s.stake (p, v)).inner * (s.rewardPerToken (c, p)).inner).tdiv scale) :
    poolAt (collected s p v c total tally) p c = (poolAt s p c).collect v := by
  have hexact : tally.inner = (s.stake (p, v)).truncate * (s.rewardPerToken (c, p)).inner := by
    rw [htally, ← (hs.stake_whole p v).truncate_mul_div, mul_comm, tdiv_mul_scale, mul_comm]
  apply RewardPool.ext
  · rfl
  · rfl
  · rfl
  · funext w
    by_cases hw : w = v
    · subst hw
      simp [poolAt, collected, RewardPool.collect, hexact]
    · simp [poolAt, collected, RewardPool.collect, hw]

theorem poolAt_collected_of_ne {total tally : SignedFixedPoint} {d : CurrencyId}
    (hne : ¬ (p = q ∧ c = d)) : poolAt (collected s p v c total tally) q d = poolAt s q d := by
  apply RewardPool.ext
  · rfl
  · rfl
  · rfl
  · funext w
    have hkey : (d, q, w) ≠ (c, p, v) := fun h => hne (by simp_all)
    simp [poolAt, collected, update_of_ne hkey]

end

/-! ## Steps and runs -/

section

variable {limit : ℕ} {s s' : Storage} {p c : CurrencyId} {event : RewardEvent}
  {fund : ℤ}

/-- What a step adds to the fund of a pool: what it distributes, minus what it pays. -/
def RewardEvent.net (p c : CurrencyId) (event : RewardEvent) : ℤ :=
  (event.op.distributedTo p c - event.paidFrom p c) * scale

/-- What a step does: it changes a stake by whole units, distributes nothing, distributes a reward, or
pays one. -/
inductive RewardEffect (s : Storage) : RewardEvent → Storage → Prop
  | adjusts {event : RewardEvent} {q : CurrencyId} {v : VaultId} {n : ℤ} {s' : Storage} :
      (∀ p c, event.op.distributedTo p c = 0 ∧ event.paidFrom p c = 0) →
      (0 ≤ n ∨ -n * scale ≤ (s.stake (q, v)).inner) →
      Adjusts s q v (n * scale) (fun c => (s.rewardPerToken (c, q)).inner * n) s' →
      RewardEffect s event s'
  | idles (q d : CurrencyId) : RewardEffect s ⟨.distributeReward q d 0, 0⟩ s
  | distributes {q d : CurrencyId} {amount : Balance} {y perToken total : SignedFixedPoint} :
      y.inner = (amount * scale * scale).tdiv (s.totalStake q).inner →
      perToken.inner = (s.rewardPerToken (d, q)).inner + y.inner →
      total.inner = (s.totalRewards d).inner + amount * scale →
      RewardEffect s ⟨.distributeReward q d amount, 0⟩ (distributed s q d perToken total)
  | pays {q d : CurrencyId} {v : VaultId} {total tally : SignedFixedPoint} :
      total.inner = (s.totalRewards d).inner - (entitlement s q v d).tdiv scale * scale →
      tally.inner = ((s.stake (q, v)).inner * (s.rewardPerToken (d, q)).inner).tdiv scale →
      RewardEffect s ⟨.withdrawReward q v d, (entitlement s q v d).tdiv scale⟩
        (collected s q v d total tally)

theorem RewardStep.effect (h : RewardStep limit s event s') : RewardEffect s event s' := by
  obtain ⟨op, payout⟩ := event
  cases op with
  | depositStake q v amount =>
    simp only [RewardStep, RewardOp.exec, returns_rules, toFixed_eq_ok, returns_depositStake] at h
    obtain ⟨x, _, ⟨hx, rfl⟩, _, _, ⟨-, hadjusts⟩, rfl, rfl⟩ := h
    have hchange : tallyChange s q x = fun c => (s.rewardPerToken (c, q)).inner * amount :=
      funext fun c => tallyChange_eq hx
    rw [hx, hchange] at hadjusts
    exact .adjusts (fun _ _ => ⟨rfl, rfl⟩) (.inl (Int.natCast_nonneg amount)) hadjusts
  | withdrawStake q v amount =>
    simp only [RewardStep, RewardOp.exec, returns_rules, toFixed_eq_ok, returns_withdrawStake] at h
    obtain ⟨x, _, ⟨hx, rfl⟩, _, _, ⟨hle, -, hadjusts⟩, rfl, rfl⟩ := h
    have hchange : (fun c => -tallyChange s q x c) =
        fun c => (s.rewardPerToken (c, q)).inner * -(amount : ℤ) := by
      funext c
      rw [tallyChange_eq hx, mul_neg]
    rw [hx, ← neg_mul, hchange] at hadjusts
    exact .adjusts (fun _ _ => ⟨rfl, rfl⟩) (.inr (by rwa [neg_neg, ← hx])) hadjusts
  | distributeReward q d amount =>
    simp only [RewardStep, RewardOp.exec, returns_rules, toFixed_eq_ok, returns_transactional,
      distributeReward_ok] at h
    obtain ⟨x, _, ⟨hx, rfl⟩, _, _, hcases, rfl, rfl⟩ := h
    rcases hcases with ⟨rfl, rfl⟩ | ⟨-, -, -, y, perToken, total, hy, hperToken, htotal, rfl⟩
    · obtain rfl : amount = 0 := by
        have hzero : (amount : ℤ) * scale = 0 := hx.symm
        simpa [scale_pos.ne'] using hzero
      exact .idles q d
    · rw [hx] at hy htotal
      exact .distributes hy hperToken htotal
  | withdrawReward q v d =>
    simp only [RewardStep, RewardOp.exec, returns_withdrawReward] at h
    obtain ⟨hreward, total, tally, -, htotal, htally, rfl⟩ := h
    obtain ⟨-, -, rfl⟩ := computeReward_eq_ok.mp hreward
    exact .pays htotal htally

/-- A step keeps the books, and the entitlements stay covered by what was distributed and not paid. -/
theorem RewardStep.covered (h : RewardStep limit s event s')
    (hs : Kept s ∧ (poolAt s p c).Covered fund) :
    Kept s' ∧ (poolAt s' p c).Covered (fund + event.net p c) := by
  obtain ⟨hkept, hcovered⟩ := hs
  cases h.effect with
  | @adjusts _ q v n _ hnet hle hadjusts =>
    refine ⟨hadjusts.kept hkept, ?_⟩
    rw [RewardEvent.net, (hnet p c).1, (hnet p c).2, sub_zero, zero_mul, add_zero]
    by_cases hq : p = q
    · subst hq
      rw [hadjusts.poolAt_self hkept fun _ => rfl]
      refine hcovered.adjust ?_
      rcases hle with hn | hle
      · exact add_nonneg (hcovered.stake_nonneg v) hn
      · rw [← (hkept.stake_whole p v).truncate_mul_div] at hle
        have hstake := le_of_mul_le_mul_right hle scale_pos
        exact neg_le_iff_add_nonneg.mp hstake
    · rw [hadjusts.poolAt_of_ne hq]
      exact hcovered
  | idles q d =>
    simpa [RewardEvent.net, RewardOp.distributedTo, RewardEvent.paidFrom] using ⟨hkept, hcovered⟩
  | @distributes q d amount _ perToken total hy hperToken _ =>
    refine ⟨hkept.distributed q d perToken total, ?_⟩
    simp only [RewardEvent.net, RewardOp.distributedTo, RewardEvent.paidFrom, sub_zero]
    split
    · next h =>
      obtain ⟨rfl, rfl⟩ := h
      rw [poolAt_distributed hkept hy hperToken]
      exact hcovered.distribute (mul_nonneg (Int.natCast_nonneg amount) scale_pos.le)
    · next h =>
      rw [poolAt_distributed_of_ne h, zero_mul, add_zero]
      exact hcovered
  | @pays q d v _ _ _ htally =>
    refine ⟨⟨hkept.stake_whole, hkept.total_whole, hkept.nodup, hkept.perToken_eq_zero⟩, ?_⟩
    simp only [RewardEvent.net, RewardOp.distributedTo, RewardEvent.paidFrom, zero_sub, neg_mul,
      ← sub_eq_add_neg]
    split
    · next h =>
      obtain ⟨rfl, rfl⟩ := h
      rw [poolAt_collected hkept htally]
      refine hcovered.collect ?_
      rw [hkept.entitlement_eq]
      have hent := hcovered.entitlement_nonneg v
      rw [Int.tdiv_eq_ediv_of_nonneg hent]
      exact Int.ediv_mul_le _ scale_pos.ne'
    · next h =>
      rw [poolAt_collected_of_ne h, zero_mul, sub_zero]
      exact hcovered

/-- In every run that starts with empty pools, the entitlements of every pool and currency are
covered by what was distributed and not paid. -/
theorem run_covered {events : List RewardEvent}
    (h : Run (RewardStep limit) Storage.genesis events s) :
    Kept s ∧ (poolAt s p c).Covered ((distributedIn p c events - paidIn p c events) * scale) := by
  have hstart : Kept Storage.genesis ∧ (poolAt Storage.genesis p c).Covered 0 :=
    ⟨Kept.genesis, poolAt_genesis ▸ RewardPool.Covered.empty VaultId⟩
  have hend := h.invariant_sum (f := RewardEvent.net p c)
    (I := fun s fund => Kept s ∧ (poolAt s p c).Covered fund)
    (fun _ _ _ _ hs hstep => RewardStep.covered hstep hs) hstart
  have hsum : (events.map (RewardEvent.net p c)).sum =
      (distributedIn p c events - paidIn p c events) * scale := by
    clear h hend
    induction events with
    | nil => simp [distributedIn, paidIn]
    | cons event events ih =>
      simp only [distributedIn, paidIn, List.map_cons, List.sum_cons, RewardEvent.net] at ih ⊢
      rw [ih]
      ring
  rwa [hsum, zero_add] at hend

/-- A reward pool never pays out more than it received: in every run with whole amounts, the total
stake of every pool is the sum of the stakes of its members, every member's
`Stake * RewardPerToken - RewardTally` is at least zero, and the sum of these values with
everything that was paid out is at most what was distributed. -/
theorem payouts_covered {events : List RewardEvent}
    (h : Run (RewardStep limit) Storage.genesis events s) :
    (∀ p, (s.totalStake p).inner = ∑ v, (s.stake (p, v)).inner) ∧
    ∀ p c, (∀ v, 0 ≤ entitlement s p v c) ∧
      ∑ v, entitlement s p v c + paidIn p c events * scale ≤ distributedIn p c events * scale := by
  constructor
  · intro p
    obtain ⟨hkept, hcovered⟩ := run_covered (p := p) (c := p) h
    rw [← (hkept.total_whole p).truncate_mul_div]
    have htotal : (s.totalStake p).truncate = ∑ v, (s.stake (p, v)).truncate := hcovered.total_eq
    rw [htotal, Finset.sum_mul]
    exact Finset.sum_congr rfl fun v _ => (hkept.stake_whole p v).truncate_mul_div
  · intro p c
    obtain ⟨hkept, hcovered⟩ := run_covered (p := p) (c := c) h
    simp only [hkept.entitlement_eq]
    refine ⟨hcovered.entitlement_nonneg, ?_⟩
    have := hcovered.sum_le
    rw [sub_mul] at this
    linarith

end

def sampleStakeId : VaultId := ⟨⟨1⟩, ⟨.xcm 0, .stellar .stellarNative⟩⟩

/-- A vault stakes three units, ten units are distributed to the pool, and the vault is paid nine of
them. -/
def sharing : List RewardEvent :=
  [⟨.depositStake (.xcm 0) sampleStakeId 3, 0⟩, ⟨.distributeReward (.xcm 0) .native 10, 0⟩,
    ⟨.withdrawReward (.xcm 0) sampleStakeId .native, 9⟩]

theorem payouts_covered_sharing :
    ∃ s, Run (RewardStep 10) Storage.genesis sharing s ∧
      ∀ p c v, 0 ≤ entitlement s p v c := by
  obtain ⟨s, hrun, -⟩ : ∃ s, Run (RewardStep 10) Storage.genesis sharing s ∧ True :=
    Run.exists_of_replay (fun _ _ _ => rewardStep_of_some) (by decide +kernel)
  exact ⟨s, hrun, fun p c => ((payouts_covered hrun).2 p c).1⟩

end Spacewalk.PooledRewards
