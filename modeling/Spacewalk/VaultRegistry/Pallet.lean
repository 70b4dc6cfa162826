import Spacewalk.VaultRegistry.Vaults

/-!
# The vault registry pallet

Collateral, token counters and liquidation of vaults (`pallets/vault-registry/src/lib.rs` and
`pool_staking_manager.rs`), and the extrinsics of the pallet.
-/

namespace Spacewalk.VaultRegistry

open Foundation
open DispatchError (overflow underflow)

variable {B : Type} (R : Runtime B)

/-! ## The staking and the reward pools -/

variable (vaultId : VaultId) (source destination : CurrencySource)
  (currencyPair : VaultCurrencyPair) (amount : Amount)

namespace PoolManager

/-- Set the stake of the vault in its reward pool; only a vault that accepts new issue requests
has stake there. -/
def updateRewardStake : ChainM B Unit := do
  let vault ← read (getVaultFromId vaultId)
  let newRewardStake ←
    if vault.acceptsNewIssues then do
      let s ← get
      Staking.Api.totalStake s.staking vaultId
    else pure 0
  zoom Chain.pooledRewardsL
    (PooledRewards.Api.setStake vaultId.collateralCurrency vaultId newRewardStake)

def depositCollateral (nominatorId : AccountId) (amount : Amount) : ChainM B Unit := do
  RewardDistribution.withdrawAllRewardsFromVault R vaultId
  zoom Chain.stakingL (Staking.Api.depositStake R.staking vaultId nominatorId amount.amount)
  updateRewardStake vaultId

/-- Withdraw collateral of a nominator from the pool with a nonce, or from the current pool. -/
def withdrawCollateral (nominatorId : AccountId) (amount : Amount) (nonce : Option Nonce) :
    ChainM B Unit := do
  RewardDistribution.withdrawAllRewardsFromVault R vaultId
  zoom Chain.stakingL
    (Staking.Api.withdrawStake R.staking vaultId nominatorId amount.amount nonce)
  updateRewardStake vaultId

/-- Slash the collateral of a vault and of its nominators. -/
def slashCollateral : ChainM B Unit := do
  RewardDistribution.withdrawAllRewardsFromVault R vaultId
  zoom Chain.stakingL (Staking.Api.slashStake R.staking vaultId amount.amount)
  updateRewardStake vaultId

/-- Refund all nominators of a vault; returns the refunded collateral. -/
def kickNominators : ChainM B Nat := do
  RewardDistribution.withdrawAllRewardsFromVault R vaultId
  let refunded ← zoom Chain.stakingL (Staking.Api.forceRefund R.staking vaultId)
  updateRewardStake vaultId
  return refunded

/-- The vault has changed whether it accepts new issue requests. -/
def onVaultSettingsChange : ChainM B Unit := do
  RewardDistribution.withdrawAllRewardsFromVault R vaultId
  updateRewardStake vaultId

end PoolManager

/-! ## The total collateral of a pair of currencies -/

/-- The total collateral of a pair of currencies. -/
def getTotalUserVaultCollateral (s : Chain B) : Amount :=
  ⟨s.vaultRegistry.totalUserVaultCollateral currencyPair, currencyPair.collateral⟩

/-- The most collateral that a pair of currencies may have. -/
def getCollateralCeiling : ChainR B Amount := fun s => do
  return ⟨← okOr (s.vaultRegistry.systemCollateralCeiling currencyPair) (err .ceilingNotSet),
    currencyPair.collateral⟩

/-- Write the total collateral of a pair of currencies. -/
def setTotalUserVaultCollateral (total : Nat) : ChainM B Unit :=
  modify (Chain.mapVaultRegistry fun r => { r with
    totalUserVaultCollateral := Function.update r.totalUserVaultCollateral currencyPair total })

/-- Add to the total collateral, up to the ceiling. -/
def tryIncreaseTotalBackingCollateral : ChainM B Unit := do
  let new ← (getTotalUserVaultCollateral currencyPair (← get)).checkedAdd amount
  let limit ← read (getCollateralCeiling currencyPair)
  ensure ((← new.le limit) = true) (err .currencyCeilingExceeded)
  setTotalUserVaultCollateral currencyPair new.amount

def decreaseTotalBackingCollateral : ChainM B Unit := do
  let new ← (getTotalUserVaultCollateral currencyPair (← get)).checkedSub amount
  setTotalUserVaultCollateral currencyPair new.amount

/-! ## Thresholds -/

/-- `collateral * numerator / denominator`; all of the collateral if both are zero. -/
def calculateCollateral (collateral numerator denominator : Amount) :
    Except DispatchError Amount := do
  if numerator.isZero ∧ denominator.isZero then
    return collateral
  ensure (denominator.amount ≠ 0) underflow
  let amount := collateral.amount * numerator.amount / denominator.amount
  ensure (amount < balanceBound) (err .tryIntoIntError)
  return ⟨amount, collateral.currencyId⟩

/-- The collateral does not suffice for the wrapped tokens at a threshold. -/
def isCollateralBelowThreshold (collateral wrappedAmount : Amount)
    (threshold : UnsignedFixedPoint) : ChainR B Bool := fun s => do
  let maxTokens ← calculateMaxWrappedFromCollateralForThreshold R collateral
    wrappedAmount.currencyId threshold s
  maxTokens.lt wrappedAmount

/-- The collateral does not suffice for the wrapped tokens at the vault's secure threshold. -/
def isCollateralBelowVaultSecureThreshold (collateral wrappedAmount : Amount) (vault : Vault) :
    ChainR B Bool := fun s => do
  isCollateralBelowThreshold R collateral wrappedAmount (← vault.getSecureThreshold s) s

/-- The collateral of the vault does not suffice for its issued tokens at a threshold. -/
def isVaultBelowThreshold (threshold : UnsignedFixedPoint) : ChainR B Bool :=
  fun s => do
    let vault ← getVaultFromId vaultId s
    let collateral ← getBackingCollateral vaultId s
    isCollateralBelowThreshold R collateral vault.issued threshold s

def isVaultBelowSecureThreshold : ChainR B Bool := fun s => do
  let vault ← getVaultFromId vaultId s
  isVaultBelowThreshold R vaultId (← vault.getSecureThreshold s) s

/-- The vault is below the threshold under which redeeming earns a premium. -/
def isVaultBelowPremiumThreshold : ChainR B Bool := fun s => do
  let threshold ← okOr (s.vaultRegistry.premiumRedeemThreshold vaultId.currencies)
    (err .premiumRedeemThresholdNotSet)
  isVaultBelowThreshold R vaultId threshold s

/-- The vault is below the threshold under which it can be liquidated. -/
def isVaultBelowLiquidationThreshold (vault : Vault) (liquidationThreshold : UnsignedFixedPoint) :
    ChainR B Bool := fun s => do
  let collateral ← getBackingCollateral vault.id s
  isCollateralBelowThreshold R collateral vault.issued liquidationThreshold s

def isVaultLiquidated : ChainR B Bool := fun s => do
  return (← getVaultFromId vaultId s).isLiquidated

/-- The most nominated collateral, as a multiple of the vault's own. -/
def getMaxNominationRatio : ChainR B UnsignedFixedPoint :=
  fun s => do
    let secureCollateralThreshold ← okOr (s.vaultRegistry.secureCollateralThreshold currencyPair)
      (err .secureCollateralThresholdNotSet)
    let premiumRedeemThreshold ← okOr (s.vaultRegistry.premiumRedeemThreshold currencyPair)
      (err .premiumRedeemThresholdNotSet)
    let ratio ← okOr (secureCollateralThreshold.checkedDiv premiumRedeemThreshold) underflow
    let one ← okOr (FixedPoint.checkedFromInteger unsignedFormat 1) underflow
    okOr (ratio.checkedSub one) underflow

/-- The most collateral that may be nominated to a vault with some collateral of its own. -/
def getMaxNominatableCollateral (vaultCollateral : Amount) (currencyPair : VaultCurrencyPair) :
    ChainR B Amount := fun s => do
  vaultCollateral.roundedMul (← getMaxNominationRatio currencyPair s)

/-- The collateral that an amount of wrapped tokens needs at a threshold. -/
def getRequiredCollateralForWrappedWithThreshold (wrapped : Amount)
    (threshold : UnsignedFixedPoint) (currencyId : CurrencyId) : ChainR B Amount := fun s => do
  (← wrapped.checkedFixedPointMulRoundedUp threshold).convertTo R currencyId s

/-! ## Deposits and withdrawals of collateral -/

/-- Lock collateral of the vault and deposit it in the pool. -/
def tryDepositCollateral : ChainM B Unit := do
  let _ ← read (getActiveVaultFromId vaultId)
  tryIncreaseTotalBackingCollateral vaultId.currencies amount
  amount.lockOn R vaultId.accountId
  PoolManager.depositCollateral R vaultId vaultId.accountId amount

/-- Release collateral of the vault and withdraw it from the pool. -/
def forceWithdrawCollateral : ChainM B Unit := do
  amount.unlockOn R vaultId.accountId
  decreaseTotalBackingCollateral vaultId.currencies amount
  PoolManager.withdrawCollateral R vaultId vaultId.accountId amount none

/-- The nominated collateral stays within its bound when the vault withdraws. -/
def isMaxNominationRatioPreserved : ChainR B Bool :=
  fun s => do
    let vaultCollateral ← computeCollateral vaultId s
    let backingCollateral ← getBackingCollateral vaultId s
    let currentNomination ← backingCollateral.checkedSub vaultCollateral
    let newVaultCollateral ← vaultCollateral.checkedSub amount
    let maxNominationAfterWithdrawal ←
      getMaxNominatableCollateral newVaultCollateral vaultId.currencies s
    currentNomination.le maxNominationAfterWithdrawal

/-- The vault stays above its secure threshold when collateral is withdrawn. -/
def isAllowedToWithdrawCollateral : ChainR B Bool :=
  fun s => do
    let vault ← getVaultFromId vaultId s
    match (← getBackingCollateral vaultId s).checkedSub amount with
    | .ok newCollateral =>
      let threshold ← vault.getSecureThreshold s
      return !(← isCollateralBelowThreshold R newCollateral (← vault.backedTokens) threshold s)
    | .error e => if e = underflow then return false else throw e

/-- Withdraw collateral of the vault if it stays sufficiently collateralized. -/
def tryWithdrawCollateral : ChainM B Unit := do
  ensure ((← read (isAllowedToWithdrawCollateral R vaultId amount)) = true)
    (err .insufficientCollateral)
  ensure ((← read (isMaxNominationRatioPreserved vaultId amount)) = true)
    (err .maxNominationRatioViolation)
  forceWithdrawCollateral R vaultId amount

/-- Release collateral of the vault and slash it in the pool. -/
def slashBackingCollateral : ChainM B Unit := do
  amount.unlockOn R vaultId.accountId
  decreaseTotalBackingCollateral vaultId.currencies amount
  PoolManager.slashCollateral R vaultId amount

/-! ## Transfers of funds -/

namespace CurrencySource

/-- The account that holds the funds. -/
def accountId : CurrencySource → AccountId
  | collateral vaultId => vaultId.accountId
  | availableReplaceCollateral vaultId => vaultId.accountId
  | activeReplaceCollateral vaultId => vaultId.accountId
  | userGriefing account => account
  | freeBalance account => account
  | liquidatedCollateral vaultId => vaultId.accountId
  | liquidationVault _ => R.liquidationVaultAccountId

/-- The funds that there are. -/
def currentBalance (currencyId : CurrencyId) : CurrencySource → ChainR B Amount
  | collateral vaultId => getBackingCollateral vaultId
  | availableReplaceCollateral vaultId => fun s => do
    return ⟨(← getVaultFromId vaultId s).replaceCollateral, R.getGriefingCollateralCurrencyId⟩
  | activeReplaceCollateral vaultId => fun s => do
    return ⟨(← getVaultFromId vaultId s).activeReplaceCollateral,
      R.getGriefingCollateralCurrencyId⟩
  | userGriefing account => fun s => return Currency.getReservedBalance R currencyId account s
  | freeBalance account => fun s => return Currency.getFreeBalance R currencyId account s
  | liquidatedCollateral vaultId => fun s => do
    return ⟨(← getVaultFromId vaultId s).liquidatedCollateral, vaultId.collateralCurrency⟩
  | liquidationVault currencyPair => fun s =>
    return ⟨(getLiquidationVault currencyPair s).collateral, currencyPair.collateral⟩

end CurrencySource

/-- Make the funds of a source free balance of its account. -/
def takeFunds : ChainM B Unit :=
  match source with
  | .collateral vaultId => do
    ensure (vaultId.currencies.collateral = amount.currencyId) (err .invalidCurrency)
    slashBackingCollateral R vaultId amount
  | .availableReplaceCollateral vaultId => do
    let vault ← read (getActiveVaultFromId vaultId)
    let _ ← vault.decreaseAvailableReplaceCollateral amount
    amount.unlockOn R vaultId.accountId
  | .activeReplaceCollateral vaultId => do
    let vault ← read (getVaultFromId vaultId)
    let _ ← vault.decreaseActiveReplaceCollateral amount
    amount.unlockOn R vaultId.accountId
  | .userGriefing account => amount.unlockOn R account
  | .liquidatedCollateral vaultId => do
    decreaseTotalBackingCollateral vaultId.currencies amount
    amount.unlockOn R vaultId.accountId
  | .liquidationVault currencies => do
    let _ ← (getLiquidationVault currencies (← get)).decreaseCollateral amount
    decreaseTotalBackingCollateral currencies amount
    amount.unlockOn R R.liquidationVaultAccountId
  | .freeBalance _ => return ()

/-- Make free balance of its account funds of a destination. -/
def putFunds : ChainM B Unit :=
  match destination with
  | .collateral vaultId => do
    ensure (vaultId.currencies.collateral = amount.currencyId) (err .invalidCurrency)
    tryDepositCollateral R vaultId amount
  | .availableReplaceCollateral vaultId => do
    let vault ← read (getActiveVaultFromId vaultId)
    let _ ← vault.increaseAvailableReplaceCollateral amount
    amount.lockOn R vaultId.accountId
  | .activeReplaceCollateral vaultId => do
    let vault ← read (getVaultFromId vaultId)
    let _ ← vault.increaseActiveReplaceCollateral amount
    amount.lockOn R vaultId.accountId
  | .userGriefing account => amount.lockOn R account
  | .liquidatedCollateral vaultId => do
    tryIncreaseTotalBackingCollateral vaultId.currencies amount
    amount.lockOn R vaultId.accountId
  | .liquidationVault currencies => do
    tryIncreaseTotalBackingCollateral currencies amount
    let _ ← (getLiquidationVault currencies (← get)).increaseCollateral amount
    amount.lockOn R R.liquidationVaultAccountId
  | .freeBalance _ => return ()

/-- Move funds from a source to a destination. -/
def transferFunds : ChainM B Unit := do
  takeFunds R source amount
  amount.transfer R (source.accountId R) (destination.accountId R)
  putFunds R destination amount

/-- Move funds, at most what there is; returns what was moved. -/
def transferFundsSaturated : ChainM B Amount := do
  let availableAmount ← read (source.currentBalance R amount.currencyId)
  let amount := if ← availableAmount.lt amount then availableAmount else amount
  transferFunds R source destination amount
  return amount

end Spacewalk.VaultRegistry
