import Spacewalk.Ledger.VaultCopies

/-!
# What the vault registry leaves as it is

The functions of the vault registry and of the services below it move funds and change vaults and
stakes.  They do not change the block number, the prices, the thresholds, or the storage of the
issue, the redeem and the replace pallet; those are changed by blocks, by the oracle, by the
configuration calls and by the three pallets themselves.

`SameSurroundings` is that frame.  The surroundings say nothing about the records of vaults, so a
copy of any vault can be written (`surroundings_copies`), and the parts of the calls leave them
(`surroundings_steady`).  A relation that only depends on the surroundings is respected by the same
parts (`steady_of_surroundings`).
-/

namespace Spacewalk

open Foundation Ledger VaultRegistry

variable {B : Type} {R : Runtime B} {s s' : Chain B}

/-- The part of the state that the functions of the vault registry do not write. -/
structure Surroundings where
  system : System
  parachainStatus : StatusCode
  nonce : BitVec 256
  oracle : Oracle.Storage
  fee : Fee.Storage
  secureCollateralThreshold : VaultCurrencyPair → Option UnsignedFixedPoint
  premiumRedeemThreshold : VaultCurrencyPair → Option UnsignedFixedPoint
  liquidationCollateralThreshold : VaultCurrencyPair → Option UnsignedFixedPoint
  issue : Issue.Storage
  redeem : Redeem.Storage
  replace : Replace.Storage

def Chain.surroundings (s : Chain B) : Surroundings where
  system := s.system
  parachainStatus := s.security.parachainStatus
  nonce := s.security.nonce
  oracle := s.oracle
  fee := s.fee
  secureCollateralThreshold := s.vaultRegistry.secureCollateralThreshold
  premiumRedeemThreshold := s.vaultRegistry.premiumRedeemThreshold
  liquidationCollateralThreshold := s.vaultRegistry.liquidationCollateralThreshold
  issue := s.issue
  redeem := s.redeem
  replace := s.replace

def SameSurroundings (s s' : Chain B) : Prop := s'.surroundings = s.surroundings

instance sameSurroundings_refl : Std.Refl (SameSurroundings (B := B)) := ⟨fun _ => rfl⟩

instance sameSurroundings_trans : IsTrans (Chain B) SameSurroundings :=
  ⟨fun _ _ _ h h' => Eq.trans h' h⟩

/-! ## Reading the surroundings -/

namespace SameSurroundings

variable (h : SameSurroundings s s')

include h

/-- The bound of the nominated collateral is the same. -/
theorem getMaxNominatableCollateral_eq (amount : Amount) (p : VaultCurrencyPair) :
    getMaxNominatableCollateral amount p s' = getMaxNominatableCollateral amount p s := by
  have hsecure : s'.vaultRegistry.secureCollateralThreshold =
      s.vaultRegistry.secureCollateralThreshold :=
    congrArg Surroundings.secureCollateralThreshold h
  have hpremium : s'.vaultRegistry.premiumRedeemThreshold =
      s.vaultRegistry.premiumRedeemThreshold :=
    congrArg Surroundings.premiumRedeemThreshold h
  unfold getMaxNominatableCollateral getMaxNominationRatio
  rw [hsecure, hpremium]

/-- Amounts are converted at the same prices. -/
theorem convertTo_eq (amount : Amount) (c : CurrencyId) :
    amount.convertTo R c s' = amount.convertTo R c s := by
  have hstatus : s'.security.parachainStatus = s.security.parachainStatus :=
    congrArg Surroundings.parachainStatus h
  have horacle : s'.oracle = s.oracle := congrArg Surroundings.oracle h
  unfold Amount.convertTo Oracle.convert Oracle.getPrice Security.ensureParachainStatusRunning
  rw [hstatus, horacle]

end SameSurroundings

/-! ## Stakes and rewards -/

variable (d : Vault) {α : Type} (v : VaultId) (amount : Amount)

theorem staking_surroundings (m : Staking.PalletM α) :
    Respects SameSurroundings (zoom (Chain.stakingL (B := B)) m) :=
  .zoom (fun _ _ => rfl) m

theorem distributeRewards_surroundings :
    Respects SameSurroundings (Fee.distributeRewards R amount) := by
  refine distributeRewards_respects (fun c p x => ?_) (fun _ _ => .zoom (fun _ _ => rfl) _) amount
  intro s y s' h
  obtain ⟨_, rewards, -, rfl⟩ := distributeToPool_returns h
  rfl

theorem withdrawAllRewardsFromVault_surroundings :
    Respects SameSurroundings (RewardDistribution.withdrawAllRewardsFromVault R v) :=
  withdrawAllRewardsFromVault_respects (fun _ => .zoom (fun _ _ => rfl) _)
    fun _ _ => staking_surroundings _

/-- The functions of the manager change the stake between a withdrawal of the rewards and the update
of the reward stake. -/
theorem managed_surroundings (m : Staking.PalletM Unit) :
    Respects SameSurroundings (do
      RewardDistribution.withdrawAllRewardsFromVault R v
      zoom Chain.stakingL m
      PoolManager.updateRewardStake v) :=
  .bind (withdrawAllRewardsFromVault_surroundings v) fun _ =>
    .bind (staking_surroundings m) fun _ => updateRewardStake_respects (fun _ _ => rfl) v

/-! ## The vault registry -/

/-- What respects the relation keeps the surroundings that there are. -/
theorem keeps_of {m : ChainM B α} {σ : Surroundings} (h : Respects SameSurroundings m) :
    Respects (Preserves fun s => s.surroundings = σ) m :=
  fun s a s' hm hs => (h s a s' hm).trans hs

theorem surroundings_of {m : ChainM B α}
    (h : ∀ σ, Respects (Preserves fun s => s.surroundings = σ) m) : Respects SameSurroundings m :=
  fun s a s' hm => h s.surroundings s a s' hm rfl

/-- The surroundings do not depend on the vaults. -/
theorem surroundings_copies (σ : Surroundings) :
    Copies R (fun s => s.surroundings = σ) fun _ => True where
  reads _ _ := trivial
  stores hs _ := hs
  tokens m := keeps_of (.zoom (fun _ _ => rfl) m)
  unlockOn amount a := keeps_of (unlockOn_respects (fun _ _ => rfl) amount a)
  burnFrom amount a := keeps_of (burnFrom_respects (fun _ _ => rfl) amount a)
  distributeRewards amount := keeps_of (distributeRewards_surroundings amount)
  system l f := keeps_of (systemUpdate_respects (fun _ _ => rfl) l f)
  increaseTotal p amount :=
    keeps_of (tryIncreaseTotalBackingCollateral_respects (fun _ _ => rfl) p amount)
  decreaseTotal p amount :=
    keeps_of (decreaseTotalBackingCollateral_respects (fun _ _ => rfl) p amount)
  poolDeposit v _ _ := keeps_of (managed_surroundings v _)
  poolWithdraw v _ _ _ := keeps_of (managed_surroundings v _)
  poolSlash v _ := keeps_of (managed_surroundings v _)

theorem surroundings_steady (R : Runtime B) : Steady R SameSurroundings := by
  refine .map (U := fun σ => Preserves fun s => s.surroundings = σ) (fun σ => ?_) surroundings_of
  have hfree (i : VaultItem) : Free (fun _ => True) i := fun _ _ _ => trivial
  have hC : Copies R (fun s => s.surroundings = σ) fun _ => True := surroundings_copies σ
  have hcalm := hC.calm (hfree _) (hfree _) (fun _ _ _ _ => trivial) fun _ _ _ => trivial
  have hsettling := hC.settling (hfree _) (hfree _) hcalm (hfree _) (hfree _)
  exact { hC.replacing hcalm (hfree _) ⟨hfree _, hfree _⟩, hsettling with }

/-- The vault registry leaves its surroundings. -/
theorem steady_of_surroundings {T : Chain B → Chain B → Prop}
    (hsame : ∀ s s', SameSurroundings s s' → T s s') : Steady R T :=
  .map (fun _ : Unit => surroundings_steady R) fun hm s a s' h => hsame s s' (hm ⟨⟩ s a s' h)

/-! ### Liquidation -/

theorem slashForToBeRedeemed_surroundings :
    Respects SameSurroundings (d.slashForToBeRedeemed R amount) :=
  surroundings_of fun σ => ((surroundings_copies σ).slashForToBeRedeemed amount
    (fun _ _ _ => trivial) (d := d) trivial).respects

theorem slashToLiquidationVault_surroundings :
    Respects SameSurroundings (d.slashToLiquidationVault R amount) := by
  unfold Vault.slashToLiquidationVault
  refine .reads fun collateral => ?_
  dsimp only
  split
  · refine .bind (managed_surroundings _ _) fun _ => .bind (staking_surroundings _) fun _ => ?_
    exact (surroundings_steady R).transferFunds _ _ _
  · exact .bind (managed_surroundings _ _) fun _ => (surroundings_steady R).transferFunds _ _ _

theorem moveTokensToLiquidationVault_surroundings :
    Respects SameSurroundings (d.moveTokensToLiquidationVault : ChainM B Unit) := by
  have hincrease (l : SystemVault) (i : SystemItem) (amount : Amount) :
      Respects SameSurroundings (l.increase i amount : ChainM B SystemVault) :=
    systemUpdate_respects (fun _ _ => rfl) l _
  refine .gets fun s => .bind (hincrease _ .issued _) fun l => ?_
  refine .bind (hincrease _ .toBeIssued _) fun l => .bind (hincrease _ .toBeRedeemed _) fun _ => ?_
  exact .bind (vaultUpdate_respects (fun _ _ => rfl) _ _) fun _ => .pure _

theorem liquidate_surroundings : Respects SameSurroundings (d.liquidate R) := by
  unfold Vault.liquidate
  refine .gets fun s => .lift fun threshold => .reads fun used => ?_
  refine .bind ((surroundings_steady R).withdrawReplaceRequest _ _) fun _ => .reads fun d' => ?_
  refine .lift fun tokens => .lift fun rest => .lift fun part => ?_
  refine .lift fun kept => .bind (slashForToBeRedeemed_surroundings _ _) fun d'' => ?_
  refine .bind (slashToLiquidationVault_surroundings _ _) fun _ => ?_
  exact .bind (moveTokensToLiquidationVault_surroundings _) fun _ => .pure _

theorem liquidateVault_surroundings : Respects SameSurroundings (liquidateVault R v) :=
  .reads fun d => .reads fun _ => liquidate_surroundings d

end Spacewalk
