import Spacewalk.VaultRegistry.Pallet

/-!
# What the services write

The services write few parts of the state each: the token pallets, the reward pools, the total
collateral, a vault.  A relation between states that allows a write to such a part is respected by the
functions that write nothing else.  Every frame of the development is built on these lemmas.
-/

namespace Spacewalk.Ledger

open Foundation VaultRegistry

variable {B : Type} {R : Runtime B} {s s' : Chain B} {T : Chain B → Chain B → Prop}

/-! ## Tokens -/

section

variable (htokens : ∀ s t, T s { s with tokens := t }) (amount : Amount) (a : AccountId)

include htokens

theorem unlockOn_respects : Respects T (amount.unlockOn R a) := by
  intro s u s' h
  obtain ⟨-, rfl⟩ := returns_unlockOn.mp h
  exact htokens s _

theorem burnFrom_respects : Respects T (amount.burnFrom R a) := by
  intro s u s' h
  obtain ⟨-, rfl⟩ := returns_burnFrom.mp h
  exact htokens s _

end

/-! ## Rewards -/

/-- A distribution to a pool leaves what the pool does, whether it fails or not. -/
theorem distributeToPool_returns {c p : CurrencyId} {x y : ℕ}
    (h : Returns (RewardDistribution.distributeToPool R c p x) s y s') :
    ∃ result rewards,
      persist (PooledRewards.Api.distributeReward R.maxRewardCurrencies p c x) s.pooledRewards =
        (result, rewards) ∧ { s with pooledRewards := rewards } = s' := by
  simp only [RewardDistribution.distributeToPool, returns_rules] at h
  obtain ⟨_, _, ⟨rfl, rfl⟩, h⟩ := h
  rcases hp : (PooledRewards.Api.distributeReward R.maxRewardCurrencies p c x).run.run
    s.pooledRewards with ⟨result, rewards⟩
  simp only [hp, returns_bind, returns_set] at h
  obtain ⟨_, _, rfl, h⟩ := h
  refine ⟨result, rewards, hp, ?_⟩
  cases result <;> exact (returns_pure.mp h).2

variable [Std.Refl T] [IsTrans (Chain B) T]

/-- Fees go to the pools, and what the pools do not take is transferred. -/
theorem distributeRewards_respects
    (hpool : ∀ c p x, Respects T (RewardDistribution.distributeToPool R c p x))
    (hsweep : ∀ amount a, Respects T (Amount.transfer R amount R.feePoolAccountId a))
    (amount : Amount) : Respects T (Fee.distributeRewards R amount) := by
  unfold Fee.distributeRewards RewardDistribution.distributeRewards
  refine .bind (.gets fun s => .lift fun pools => ?_) fun rest => ?_
  · refine .reads fun usd => .foldlM (fun missed pool => ?_) _ _
    exact .bind (hpool _ _ _) fun x => .lift fun _ => .pure _
  · refine .ite ?_ (.pure _)
    split
    · exact hsweep _ _
    · exact .pure _

theorem withdrawAllRewardsFromVault_respects {v : VaultId}
    (hpool : ∀ c, Respects T (zoom Chain.pooledRewardsL
      (PooledRewards.Api.withdrawReward v.collateralCurrency v c)))
    (hstaking : ∀ x c, Respects T (zoom Chain.stakingL (Staking.Api.distributeReward v x c))) :
    Respects T (RewardDistribution.withdrawAllRewardsFromVault R v) := by
  unfold RewardDistribution.withdrawAllRewardsFromVault
  refine .gets fun s => .forM (fun c => .bind (hpool c) fun r => ?_) _
  exact .bind (hstaking r c) fun _ => .pure _

theorem updateRewardStake_respects (hrewards : ∀ s t, T s { s with pooledRewards := t }) (v : VaultId) :
    Respects T (PoolManager.updateRewardStake v) := by
  unfold PoolManager.updateRewardStake
  refine .reads fun d => ?_
  refine .ite (.gets fun s => .lift fun x => ?_) (.bind (.pure _) fun x => ?_)
  · exact .zoom hrewards _
  · exact .zoom hrewards _

/-! ## The storage of the vault registry -/

section

variable (htotal : ∀ (s : Chain B) f, T s (Chain.mapVaultRegistry (fun r => { r with
    totalUserVaultCollateral := f }) s)) (p : VaultCurrencyPair) (amount : Amount)

include htotal

theorem tryIncreaseTotalBackingCollateral_respects :
    Respects T (tryIncreaseTotalBackingCollateral p amount) := by
  refine .gets fun s => .lift fun new => .reads fun limit => ?_
  exact .lift fun b => .lift fun _ => .modify fun s => htotal s _

theorem decreaseTotalBackingCollateral_respects :
    Respects T (decreaseTotalBackingCollateral p amount) :=
  .gets fun _ => .lift fun _ => .modify fun s => htotal s _

end

/-- Every change of a vault is an `update`. -/
theorem vaultUpdate_respects
    (hvaults : ∀ (s : Chain B) f, T s (Chain.mapVaultRegistry (fun r => { r with vaults := f }) s))
    (d : Vault) (f : Vault → Except DispatchError Vault) : Respects T (d.update f) :=
  .lift fun _ => .bind (.modify fun s => hvaults s _) fun _ => .pure _

/-- Every change of a liquidation vault is an `update`. -/
theorem systemUpdate_respects (hsystem : ∀ (s : Chain B) f,
      T s (Chain.mapVaultRegistry (fun r => { r with liquidationVault := f }) s))
    (l : SystemVault) (f : SystemVault → Except DispatchError SystemVault) :
    Respects T (l.update f) :=
  .lift fun _ => .bind (.modify fun s => hsystem s _) fun _ => .pure _

end Spacewalk.Ledger
