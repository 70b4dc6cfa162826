import Spacewalk.Ledger.NominationRatio
import Spacewalk.Rewards.Outcomes

/-!
# The stake for rewards

A vault has stake in two pallets: the staking pallet holds its collateral, and the pooled rewards
pallet the stake that its share of the fees is computed with.  The manager of the vault registry sets
the second to the first after each change, and to zero for a vault that does not accept new issue
requests.

`Follows` is the invariant of the functions of the vault registry: the two agree for a set of vaults,
under statuses that stay the same.  A function of the manager adds its vault to the set
(`managed_follows`).  The other functions write copies of vaults that they have read before; such a
copy has the status of its vault (`Current`), and writing it keeps the invariant.
-/

namespace Spacewalk.Ledger

open Foundation Function VaultRegistry
open Stellar (Bytes)

variable {B : Type} {R : Runtime B} {s s' : Chain B} {v : VaultId} {u : Unit}
  {σ : VaultId → Option VaultStatus} {S : Set VaultId}

/-! ## The invariant -/

/-- The stake of a vault in the reward pool of its collateral. -/
def rewardStake (s : Chain B) (v : VaultId) : SignedFixedPoint :=
  s.pooledRewards.stake (v.collateralCurrency, v)

/-- The stake of a vault and its nominators in its current pool. -/
def currentStake (s : Chain B) (v : VaultId) : SignedFixedPoint :=
  s.staking.totalCurrentStake (s.staking.nonce v, v)

/-- The stake for rewards that a vault should have. -/
def rewarded (status : VaultStatus) (stake : SignedFixedPoint) : SignedFixedPoint :=
  if status = .active true then stake else 0

/-- If the vault is registered, its stake for rewards is what it should be. -/
def InSync (s : Chain B) (v : VaultId) : Prop :=
  ∀ status, statusOf s v = some status → rewardStake s v = rewarded status (currentStake s v)

/-- The vaults have the statuses `σ`, and those in `S` have the right stake for rewards.  All stakes
are whole numbers of tokens. -/
structure Follows (σ : VaultId → Option VaultStatus) (S : Set VaultId) (s : Chain B) : Prop where
  status : statusOf s = σ
  keyed : ∀ v d, s.vaultRegistry.vaults v = some d → d.id = v
  stakes : ∀ key, Staking.scale ∣ (s.staking.totalCurrentStake key).inner
  rewards : ∀ key, Staking.scale ∣ (s.pooledRewards.stake key).inner
  sync : ∀ v ∈ S, InSync s v

theorem Follows.mono {S' : Set VaultId} (h : Follows σ S s) (hS : S' ⊆ S) : Follows σ S' s :=
  ⟨h.status, h.keyed, h.stakes, h.rewards, fun v hv => h.sync v (hS hv)⟩

/-- The vaults and both stakes are the same. -/
structure SameStakes (s s' : Chain B) : Prop where
  vaults : s'.vaultRegistry.vaults = s.vaultRegistry.vaults
  stakes : s'.staking.totalCurrentStake = s.staking.totalCurrentStake
  nonce : s'.staking.nonce = s.staking.nonce
  rewards : s'.pooledRewards.stake = s.pooledRewards.stake

instance sameStakes_refl : Std.Refl (SameStakes (B := B)) := ⟨fun _ => ⟨rfl, rfl, rfl, rfl⟩⟩

instance sameStakes_trans : IsTrans (Chain B) SameStakes :=
  ⟨fun _ _ _ h h' => ⟨h'.vaults.trans h.vaults, h'.stakes.trans h.stakes, h'.nonce.trans h.nonce,
    h'.rewards.trans h.rewards⟩⟩

theorem SameStakes.rewardStake_eq (h : SameStakes s s') (v : VaultId) :
    rewardStake s' v = rewardStake s v := by
  rw [rewardStake, h.rewards, rewardStake]

theorem SameStakes.currentStake_eq (h : SameStakes s s') (v : VaultId) :
    currentStake s' v = currentStake s v := by
  rw [currentStake, h.stakes, h.nonce, currentStake]

theorem Follows.of_same (h : Follows σ S s) (hsame : SameStakes s s') : Follows σ S s' where
  status := (statusOf_congr hsame.vaults).trans h.status
  keyed := by
    rw [hsame.vaults]
    exact h.keyed
  stakes := by
    rw [hsame.stakes]
    exact h.stakes
  rewards := by
    rw [hsame.rewards]
    exact h.rewards
  sync v hv := by
    intro status hstatus
    rw [statusOf_congr hsame.vaults] at hstatus
    rw [hsame.rewardStake_eq, hsame.currentStake_eq]
    exact h.sync v hv status hstatus

variable {α : Type} {p : Staking.Pools} (amount : Amount)

/-- What leaves the vaults and the stakes keeps the invariant. -/
theorem follows_of {m : ChainM B α} (h : Respects SameStakes m) :
    Respects (Preserves (Follows σ S)) m :=
  fun s a s' hm hs => hs.of_same (h s a s' hm)

/-! ## What leaves the stakes -/

theorem tokens_sameStakes (m : Dispatch DispatchError B α) :
    Respects SameStakes (zoom (Chain.tokensL) m) :=
  .zoom (fun _ _ => ⟨rfl, rfl, rfl, rfl⟩) m

theorem unlockOn_sameStakes (a : AccountId) : Respects SameStakes (amount.unlockOn R a) :=
  unlockOn_respects (fun _ _ => ⟨rfl, rfl, rfl, rfl⟩) amount a

theorem burnFrom_sameStakes (a : AccountId) : Respects SameStakes (amount.burnFrom R a) :=
  burnFrom_respects (fun _ _ => ⟨rfl, rfl, rfl, rfl⟩) amount a

theorem pooled_distributeReward_stake {limit x : ℕ} {p c : CurrencyId}
    {t t' : PooledRewards.Storage} {result : Except DispatchError Unit}
    (h : persist (PooledRewards.Api.distributeReward limit p c x) t = (result, t')) :
    t'.stake = t.stake := by
  have htracked : (PooledRewards.tracked t p c).stake = t.stake := by
    unfold PooledRewards.tracked
    split <;> rfl
  unfold PooledRewards.Api.distributeReward at h
  rcases hx : PooledRewards.Api.toFixed x with e | y
  · rw [hx, persist_liftM_error_bind] at h
    obtain ⟨-, rfl⟩ := Prod.mk.inj h
    rfl
  · rw [hx, persist_liftM_ok_bind, PooledRewards.distributeReward_run] at h
    -- every outcome writes at most the reward currencies and the rewards
    split_ifs at h
    · obtain ⟨-, rfl⟩ := Prod.mk.inj h
      rfl
    · obtain ⟨-, rfl⟩ := Prod.mk.inj h
      rfl
    · obtain ⟨-, rfl⟩ := Prod.mk.inj h
      rfl
    · split at h
      · obtain ⟨-, rfl⟩ := Prod.mk.inj h
        exact htracked
      · split at h
        · obtain ⟨-, rfl⟩ := Prod.mk.inj h
          exact htracked
        · split at h <;> obtain ⟨-, rfl⟩ := Prod.mk.inj h <;> exact htracked

theorem distributeRewards_sameStakes : Respects SameStakes (Fee.distributeRewards R amount) := by
  refine distributeRewards_respects (fun c p x => ?_) (fun _ _ => tokens_sameStakes _) amount
  intro s a s' h
  obtain ⟨_, rewards, hp, rfl⟩ := distributeToPool_returns h
  exact ⟨rfl, rfl, rfl, pooled_distributeReward_stake hp⟩

theorem withdrawAllRewardsFromVault_sameStakes (v : VaultId) :
    Respects SameStakes (RewardDistribution.withdrawAllRewardsFromVault R v) := by
  refine withdrawAllRewardsFromVault_respects (fun c => ?_) fun r c => ?_
  · intro s x s' h
    simp only [returns_zoom, Chain.pooledRewardsL_get, Chain.pooledRewardsL_put,
      PooledRewards.Api.withdrawReward, returns_rules] at h
    obtain ⟨t, ⟨_, _, hwithdraw, -, rfl⟩, rfl⟩ := h
    obtain ⟨-, -, _, _, -, -, rfl⟩ := PooledRewards.returns_withdrawReward.mp hwithdraw
    exact ⟨rfl, rfl, rfl, rfl⟩
  · intro s x s' h
    have hframe := distributeReward_frame (R := R) v r c s x s' h
    obtain ⟨t, -, rfl⟩ := returns_zoom.mp h
    exact ⟨rfl, hframe.stakes, hframe.nonce, rfl⟩

theorem tryIncreaseTotalBackingCollateral_sameStakes (p : VaultCurrencyPair) (amount : Amount) :
    Respects SameStakes (tryIncreaseTotalBackingCollateral p amount : ChainM B Unit) :=
  tryIncreaseTotalBackingCollateral_respects (fun _ _ => ⟨rfl, rfl, rfl, rfl⟩) p amount

theorem decreaseTotalBackingCollateral_sameStakes (p : VaultCurrencyPair) (amount : Amount) :
    Respects SameStakes (decreaseTotalBackingCollateral p amount : ChainM B Unit) :=
  decreaseTotalBackingCollateral_respects (fun _ _ => ⟨rfl, rfl, rfl, rfl⟩) p amount

theorem systemUpdate_sameStakes (l : SystemVault)
    (f : SystemVault → Except DispatchError SystemVault) :
    Respects SameStakes (l.update f : ChainM B SystemVault) :=
  systemUpdate_respects (fun _ _ => ⟨rfl, rfl, rfl, rfl⟩) l f

theorem systemIncrease_sameStakes (l : SystemVault) (i : SystemItem) (amount : Amount) :
    Respects SameStakes (l.increase i amount : ChainM B SystemVault) :=
  systemUpdate_sameStakes l _

/-- The liquidation vault takes over the tokens, and the vault is stored without them. -/
theorem moveTokensToLiquidationVault_stores {d : Vault}
    (h : Returns d.moveTokensToLiquidationVault s u s') :
    ∃ s₁, SameStakes s s₁ ∧ withVault { d with
      toBeIssuedTokens := 0, issuedTokens := 0, status := .liquidated } s₁ = s' := by
  simp only [Vault.moveTokensToLiquidationVault, returns_steps, returns_vaultUpdate,
    except_pure_eq_ok] at h
  obtain ⟨l₁, s₁, hissued, l₂, s₂, hpromised, l₃, s₃, hredeemed, -, rfl⟩ := h
  have hfirst := systemIncrease_sameStakes _ .issued _ _ _ _ hissued
  have hsecond := systemIncrease_sameStakes _ .toBeIssued _ _ _ _ hpromised
  have hthird := systemIncrease_sameStakes _ .toBeRedeemed _ _ _ _ hredeemed
  exact ⟨s₃, trans_of SameStakes (trans_of SameStakes hfirst hsecond) hthird, rfl⟩

/-! ## Copies of vaults

A function reads a vault and writes changed copies of it later.  A copy that has the status of its
vault can be written at any time. -/

/-- The copy has the status of its vault. -/
def Current (σ : VaultId → Option VaultStatus) (d : Vault) : Prop := σ d.id = some d.status

theorem statusOf_withVault (d : Vault) (s : Chain B) :
    statusOf (withVault d s) = update (statusOf s) d.id (some d.status) := by
  funext w
  by_cases hw : w = d.id
  · subst hw
    simp [statusOf, withVault, Chain.mapVaultRegistry]
  · simp [statusOf, withVault, Chain.mapVaultRegistry, hw]

/-- Storing a vault keeps the other vaults in step; the vault itself is in step if its stake is right
for its new status. -/
theorem Follows.store {S' : Set VaultId} (h : Follows σ S s) (d : Vault)
    (hS : ∀ w ∈ S', w ≠ d.id → w ∈ S)
    (hd : d.id ∈ S' → rewardStake s d.id = rewarded d.status (currentStake s d.id)) :
    Follows (update σ d.id (some d.status)) S' (withVault d s) where
  status := by rw [statusOf_withVault, h.status]
  keyed w e he := by
    rcases update_eq_some.mp he with ⟨rfl, rfl⟩ | ⟨-, he⟩
    · rfl
    · exact h.keyed w e he
  stakes := h.stakes
  rewards := h.rewards
  sync w hw status hstatus := by
    rcases update_eq_some.mp (statusOf_withVault d s ▸ hstatus) with ⟨rfl, rfl⟩ | ⟨hid, hstatus⟩
    · exact hd hw
    · exact h.sync w (hS w hw hid) status hstatus

theorem Follows.storeCurrent {d : Vault} (h : Follows σ S s) (hd : Current σ d) :
    Follows σ S (withVault d s) := by
  have hfollows := h.store d (fun _ hw _ => hw) fun hS =>
    h.sync d.id hS d.status (by rw [h.status, hd])
  rwa [← hd, update_eq_self] at hfollows

/-! ## The manager -/

/-- A whole number of tokens is what its balance says. -/
theorem inner_eq_of_truncate {x : SignedFixedPoint} (hwhole : Staking.scale ∣ x.inner)
    (hnonneg : 0 ≤ x.truncate) : x.inner = Staking.scale * x.truncate.toNat := by
  obtain ⟨k, hk⟩ := hwhole
  have hvalue : x.truncate = k := by
    rw [FixedPoint.truncate, hk, Int.mul_tdiv_cancel_left _ Staking.scale_pos.ne']
  rw [Int.toNat_of_nonneg hnonneg, hvalue, hk]

/-- `set_stake` sets the stake, if it was whole before. -/
theorem setStake_returns {p : CurrencyId} {n : ℕ} {t t' : PooledRewards.Storage}
    (hwhole : Staking.scale ∣ (t.stake (p, v)).inner)
    (h : Returns (PooledRewards.Api.setStake p v n) t u t') :
    ∃ x : SignedFixedPoint, x.inner = Staking.scale * n ∧
      t'.stake = update t.stake (p, v) x := by
  simp only [PooledRewards.Api.setStake, returns_rules, returns_ite] at h
  obtain ⟨_, _, ⟨rfl, rfl⟩, current, _, ⟨hcurrent, rfl⟩, h⟩ := h
  simp only [PooledRewards.Api.getStake, PooledRewards.Api.toBalance, except_ite_eq_ok,
    Except.ok.injEq, reduceCtorEq, and_false, or_false] at hcurrent
  obtain ⟨hnonneg, rfl⟩ := hcurrent
  have hbefore := inner_eq_of_truncate hwhole hnonneg
  rcases h with ⟨hlt, y, _, ⟨hy, rfl⟩, hdeposit⟩ | ⟨hle, h⟩
  · rw [PooledRewards.toFixed_eq_ok] at hy
    obtain ⟨-, x, _, _, hx, -, -, -, rfl⟩ := PooledRewards.returns_depositStake.mp hdeposit
    refine ⟨x, ?_, rfl⟩
    rw [hx, hbefore, hy]
    push_cast [hlt.le]
    ring
  · rcases h with ⟨hlt, y, _, ⟨hy, rfl⟩, hwithdraw⟩ | ⟨hge, -, rfl⟩
    · rw [PooledRewards.toFixed_eq_ok] at hy
      obtain ⟨-, -, x, _, _, hx, -, -, -, rfl⟩ := PooledRewards.returns_withdrawStake.mp hwithdraw
      refine ⟨x, ?_, rfl⟩
      rw [hx, hbefore, hy]
      push_cast [hlt.le]
      ring
    · refine ⟨t.stake (p, v), ?_, (update_eq_self _ _).symm⟩
      rw [hbefore, Nat.le_antisymm (not_lt.mp hge) (not_lt.mp hle)]

/-- The update of the stake for rewards puts the vault in step. -/
theorem updateRewardStake_follows (h : Returns (PoolManager.updateRewardStake v) s u s')
    (hs : Follows σ S s) : Follows σ (insert v S) s' := by
  simp only [PoolManager.updateRewardStake, returns_rules, returns_zoom, returns_ite,
    Chain.pooledRewardsL_get, Chain.pooledRewardsL_put] at h
  obtain ⟨d, _, ⟨hget, rfl⟩, h⟩ := h
  have hstored : s.vaultRegistry.vaults v = some d := okOr_eq_ok.mp hget
  have hstatus : σ v = some d.status := by
    rw [← hs.status, statusOf, hstored, Option.map_some]
  -- the stake that is set is the right one
  obtain ⟨t, x, hx, hstake, rfl⟩ : ∃ t x, x = rewarded d.status (currentStake s v) ∧
      t.stake = update s.pooledRewards.stake (v.collateralCurrency, v) x ∧
      { s with pooledRewards := t } = s' := by
    rcases h with ⟨haccepts, _, _, ⟨rfl, rfl⟩, n, _, ⟨hn, rfl⟩, t, hset, rfl⟩ |
      ⟨haccepts, _, _, ⟨rfl, rfl⟩, t, hset, rfl⟩
    · obtain ⟨x, hx, hstake⟩ := setStake_returns (hs.rewards _) hset
      refine ⟨t, x, ?_, hstake, rfl⟩
      simp only [Staking.Api.totalStake, Staking.Api.toBalance, except_ite_eq_ok, Except.ok.injEq,
        reduceCtorEq, and_false, or_false] at hn
      obtain ⟨hnonneg, rfl⟩ := hn
      rw [rewarded, if_pos (of_decide_eq_true haccepts)]
      exact FixedPoint.ext (hx.trans (inner_eq_of_truncate (hs.stakes _) hnonneg).symm)
    · obtain ⟨x, hx, hstake⟩ := setStake_returns (hs.rewards _) hset
      refine ⟨t, x, ?_, hstake, rfl⟩
      rw [rewarded, if_neg fun hactive => haccepts (decide_eq_true hactive)]
      exact FixedPoint.ext (by rw [hx, Nat.cast_zero, mul_zero, FixedPoint.inner_zero])
  have hwhole : Staking.scale ∣ x.inner := by
    rw [hx, rewarded]
    split
    · exact hs.stakes _
    · exact dvd_zero _
  refine ⟨hs.status, hs.keyed, hs.stakes, fun key => ?_, fun w hw status hw' => ?_⟩
  · change Staking.scale ∣ (t.stake key).inner
    rw [hstake, update_apply]
    split
    · exact hwhole
    · exact hs.rewards key
  · have hreward : rewardStake { s with pooledRewards := t } w =
        update s.pooledRewards.stake (v.collateralCurrency, v) x
          (w.collateralCurrency, w) := by
      rw [rewardStake, ← hstake]
    rw [hreward]
    by_cases hvw : w = v
    · subst hvw
      rw [update_self, hx]
      have hcurrent : some status = some d.status := (hw'.symm.trans (congrFun hs.status w)).trans hstatus
      rw [Option.some.inj hcurrent]
      rfl
    · have hkey : (w.collateralCurrency, w) ≠ (v.collateralCurrency, v) := by
        intro h
        exact hvw (Prod.mk.inj h).2
      rw [update_of_ne hkey]
      exact hs.sync w (hw.resolve_left hvw) status hw'

/-- Only the pools of one vault change, and the stakes stay whole. -/
structure StakesOf (v : VaultId) (p p' : Staking.Pools) : Prop where
  stakes : ∀ k w, w ≠ v → p'.totalCurrentStake (k, w) = p.totalCurrentStake (k, w)
  nonce : ∀ w, w ≠ v → p'.nonce w = p.nonce w
  whole : (∀ key, Staking.scale ∣ (p.totalCurrentStake key).inner) →
    ∀ key, Staking.scale ∣ (p'.totalCurrentStake key).inner

theorem StakeChanges.stakesOf {p' : Staking.Pools} {k : Nonce} {x : ℤ}
    (h : StakeChanges p p' (k, v) x) (hx : Staking.scale ∣ x) : StakesOf v p p' := by
  obtain ⟨hnonce, c, hc, hstakes⟩ := h
  refine ⟨fun k' w hw => ?_, fun w _ => congrFun hnonce w, fun hwhole key => ?_⟩
  · rw [hstakes, update_of_ne]
    intro h
    exact hw (Prod.mk.inj h).2
  · rw [hstakes, update_apply]
    split
    · rw [hc]
      exact Int.dvd_add (hwhole _) hx
    · exact hwhole key

theorem StakesOf.follows (h : StakesOf v s.staking p) (hs : Follows σ S s) :
    Follows σ (S \ {v}) { s with staking := p } where
  status := hs.status
  keyed := hs.keyed
  stakes := h.whole hs.stakes
  rewards := hs.rewards
  sync w hw status hstatus := by
    have hcurrent : currentStake { s with staking := p } w = currentStake s w := by
      simp only [currentStake, h.nonce w hw.2, h.stakes _ w hw.2]
    rw [hcurrent]
    exact hs.sync w hw.1 status hstatus

/-- A function of the manager changes the stake of its vault and puts it in step. -/
theorem managed_follows {m : Staking.PalletM Unit}
    (hm : ∀ p p', Returns m p () p' → StakesOf v p p')
    (h : Returns (do
      RewardDistribution.withdrawAllRewardsFromVault R v
      zoom Chain.stakingL m
      PoolManager.updateRewardStake v) s u s') (hs : Follows σ S s) :
    Follows σ (insert v S) s' := by
  simp only [returns_bind, Chain.returns_staking] at h
  obtain ⟨_, s₁, hrewards, _, _, ⟨p, hstake, rfl⟩, hupdate⟩ := h
  have hfirst := hs.of_same (withdrawAllRewardsFromVault_sameStakes v _ _ _ hrewards)
  have hsecond := (hm _ _ hstake).follows hfirst
  refine (updateRewardStake_follows hupdate hsecond).mono fun w hw => ?_
  by_cases hvw : w = v
  · exact .inl hvw
  · exact .inr ⟨hw.resolve_left hvw, hvw⟩

section

variable {n : AccountId} {amount : Amount} {index : Option Nonce}

theorem poolDeposit_follows (h : Returns (PoolManager.depositCollateral R v n amount) s u s')
    (hs : Follows σ S s) : Follows σ (insert v S) s' :=
  managed_follows (fun _ _ hm => (apiDepositStake_changes hm).stakesOf (dvd_mul_right _ _)) h hs

theorem poolWithdraw_follows
    (h : Returns (PoolManager.withdrawCollateral R v n amount index) s u s') (hs : Follows σ S s) :
    Follows σ (insert v S) s' :=
  managed_follows (fun _ _ hm => (apiWithdrawStake_changes hm).stakesOf
    (dvd_neg.mpr (dvd_mul_right _ _))) h hs

theorem poolSlash_follows (h : Returns (PoolManager.slashCollateral R v amount) s u s')
    (hs : Follows σ S s) : Follows σ (insert v S) s' :=
  managed_follows (fun _ _ hm => (apiSlashStake_changes hm).stakesOf
    (dvd_neg.mpr (dvd_mul_right _ _))) h hs

theorem onVaultSettingsChange_follows (h : Returns (PoolManager.onVaultSettingsChange R v) s u s')
    (hs : Follows σ S s) : Follows σ (insert v S) s' := by
  obtain ⟨_, s₁, hrewards, hupdate⟩ := returns_bind.mp h
  exact updateRewardStake_follows hupdate
    (hs.of_same (withdrawAllRewardsFromVault_sameStakes v _ _ _ hrewards))

/-- A refund closes the pool of the vault and opens the next one, both with whole stakes. -/
theorem PoolRefunds.stakesOf {p' : Staking.Pools} {r : ℕ} (h : PoolRefunds v r p p') :
    StakesOf v p p' where
  stakes k w hw := h.others k w (fun heq => hw (Prod.mk.inj heq).2)
    fun heq => hw (Prod.mk.inj heq).2
  nonce w hw := by rw [h.nonce, update_of_ne hw]
  whole hwhole := by
    rintro ⟨k, w⟩
    by_cases hclosed : (k, w) = (p.nonce v, v)
    · rw [hclosed, h.closes]
      exact dvd_mul_right _ _
    · by_cases hopened : (k, w) = (p.nonce v + 1, v)
      · rw [hopened, h.opens]
        exact Int.dvd_add (hwhole _) (Int.dvd_sub (hwhole _) (dvd_mul_right _ _))
      · rw [h.others k w hclosed hopened]
        exact hwhole _

theorem kickNominators_follows {r : ℕ} (h : Returns (PoolManager.kickNominators R v) s r s')
    (hs : Follows σ S s) : Follows σ S s' := by
  simp only [PoolManager.kickNominators, returns_rules, Chain.returns_staking] at h
  obtain ⟨_, s₁, hrewards, r, _, ⟨p, hrefund, rfl⟩, _, _, hupdate, rfl, rfl⟩ := h
  have hfirst := hs.of_same (withdrawAllRewardsFromVault_sameStakes v _ _ _ hrewards)
  have hsecond := (forceRefund_refunds (hfirst.stakes _) hrefund).stakesOf.follows hfirst
  refine (updateRewardStake_follows hupdate hsecond).mono fun w hw => ?_
  by_cases hvw : w = v
  · exact .inl hvw
  · exact .inr ⟨hw, hvw⟩

theorem tryDepositCollateral_inserts (h : Returns (tryDepositCollateral R v amount) s u s')
    (hs : Follows σ S s) : Follows σ (insert v S) s' := by
  simp only [tryDepositCollateral, returns_steps] at h
  obtain ⟨_, -, _, s₁, htotal, _, s₂, hlock, hpool⟩ := h
  have hfirst := hs.of_same (tryIncreaseTotalBackingCollateral_sameStakes _ _ _ _ _ htotal)
  exact poolDeposit_follows hpool (hfirst.of_same (tokens_sameStakes _ _ _ _ hlock))

end

/-- Putting one more vault in step keeps the invariant. -/
theorem follows_of_insert {m : ChainM B α}
    (h : ∀ s a s', Returns m s a s' → Follows σ S s → Follows σ (insert v S) s') :
    Respects (Preserves (Follows σ S)) m :=
  fun s a s' hm hs => (h s a s' hm hs).mono (Set.subset_insert v S)

/-! ## The calls -/

/-- Storing a copy that has the status of its vault keeps the invariant. -/
theorem follows_copies : Copies R (Follows σ S) (Current σ) where
  reads {s v d} hs hd := by
    rw [Current, hs.keyed v d hd, ← hs.status, statusOf, hd, Option.map_some]
  stores hs hd := hs.storeCurrent hd
  tokens m := follows_of (tokens_sameStakes m)
  unlockOn amount a := follows_of (unlockOn_sameStakes amount a)
  burnFrom amount a := follows_of (burnFrom_sameStakes amount a)
  distributeRewards amount := follows_of (distributeRewards_sameStakes amount)
  system l f := follows_of (systemUpdate_sameStakes l f)
  increaseTotal p amount := follows_of (tryIncreaseTotalBackingCollateral_sameStakes p amount)
  decreaseTotal p amount := follows_of (decreaseTotalBackingCollateral_sameStakes p amount)
  poolDeposit _ _ _ := follows_of_insert fun _ _ _ => poolDeposit_follows
  poolWithdraw _ _ _ _ := follows_of_insert fun _ _ _ => poolWithdraw_follows
  poolSlash _ _ := follows_of_insert fun _ _ _ => poolSlash_follows

/-- The counters of a vault do not matter. -/
theorem current_free (i : VaultItem) : Free (Current σ) i := by
  intro d n hd
  rw [Current, Vault.setItem_id, Vault.setItem_status]
  exact hd

theorem follows_steady : Steady R (Preserves (Follows σ S)) := by
  have hcalm : Calm R (Preserves (Follows σ S)) :=
    follows_copies.calm (current_free _) (current_free _) (fun d n _ => current_free _ d n)
      fun _ _ hd => hd
  have hreplacing := follows_copies.replacing hcalm (current_free _) ⟨current_free _, current_free _⟩
  have hsettling := follows_copies.settling (current_free _) (current_free _) hcalm (current_free _)
    (current_free _)
  exact { hreplacing, hsettling with }

end Spacewalk.Ledger
