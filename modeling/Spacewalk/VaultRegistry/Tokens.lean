import Spacewalk.VaultRegistry.Pallet

/-!
# Tokens and liquidation of vaults

The functions of the vault registry that the issue, redeem and replace pallets use to move
token counters (`pallets/vault-registry/src/lib.rs`), and the liquidation of a vault, which
moves its counters and its collateral to the liquidation vault.
-/

namespace Spacewalk.VaultRegistry

open Foundation
open DispatchError (overflow underflow)

variable {B : Type} (R : Runtime B)

/-! ## Issue -/

variable (vaultId : VaultId) (v : Vault) (amount tokens : Amount)

/-- Add tokens to be issued if the collateral of the vault suffices. -/
def tryIncreaseToBeIssuedTokens : ChainM B Unit := do
  let vault ← read (getActiveVaultFromId vaultId)
  let issuableTokens ← read (vault.issuableTokens R)
  ensure ((← issuableTokens.ge tokens) = true) (err .exceedingVaultLimit)
  let _ ← vault.increaseToBeIssued tokens

def decreaseToBeIssuedTokens : ChainM B Unit := do
  let vault ← read (getVaultFromId vaultId)
  let _ ← vault.decreaseToBeIssued tokens

/-- Tokens to be issued become issued tokens. -/
def issueTokens : ChainM B Unit := do
  let vault ← read (getVaultFromId vaultId)
  let _ ← vault.executeIssueTokens tokens

/-- The tokens that can still be issued with an active vault.  A vault that accepts no new issue
requests has none; this zero is an amount of its collateral currency. -/
def getIssuableTokensFromVault : ChainR B Amount := fun s => do
  let vault ← getActiveVaultFromId vaultId s
  if vault.status = .active true then vault.issuableTokens R s
  else return ⟨0, vaultId.currencies.collateral⟩

/-- Fail unless the vault is active and accepts new issue requests. -/
def ensureAcceptingNewIssues : ChainR B Unit := fun s => do
  let vault ← getActiveVaultFromId vaultId s
  ensure (vault.status = .active true) (err .vaultNotAcceptingIssueRequests)

/-! ## Redeem -/

def tryIncreaseToBeRedeemedTokens : ChainM B Unit := do
  let vault ← read (getActiveVaultFromId vaultId)
  let redeemable ← vault.issued.checkedSub vault.toBeRedeemed
  ensure ((← redeemable.ge tokens) = true) (err .insufficientTokensCommitted)
  let _ ← vault.increaseToBeRedeemed tokens

def decreaseToBeRedeemedTokens : ChainM B Unit := do
  let vault ← read (getVaultFromId vaultId)
  let _ ← vault.decreaseToBeRedeemed tokens

/-- Remove tokens that were to be redeemed. -/
def decreaseTokens : ChainM B Unit := do
  let vault ← read (getVaultFromId vaultId)
  let _ ← vault.executeRedeemTokens tokens

def decreaseLiquidatedCollateral : ChainM B Unit := do
  let vault ← read (getVaultFromId vaultId)
  let _ ← vault.decreaseLiquidatedCollateral amount

def getLiquidatedCollateral : ChainR B Amount := fun s => do
  return ⟨(← getVaultFromId vaultId s).liquidatedCollateral, vaultId.currencies.collateral⟩

/-- The issued tokens of a vault that are not to be redeemed. -/
def getFreeRedeemableTokens : ChainR B Amount := fun s => do
  (← getVaultFromId vaultId s).freelyRedeemableTokens

/-- Tokens have been redeemed: an active vault pays the premium, a liquidated vault gets its
part of the liquidated collateral back. -/
def redeemTokens (premium : Amount) (redeemerId : AccountId) : ChainM B Unit := do
  let vault ← read (getVaultFromId vaultId)
  -- read before it is decreased
  let toBeRedeemedTokens := vault.toBeRedeemed
  let vault ← vault.executeRedeemTokens tokens
  if vault.isLiquidated then
    let toBeReleased ← calculateCollateral vault.liquidatedAmount tokens toBeRedeemedTokens
    decreaseTotalBackingCollateral vaultId.currencies toBeReleased
    let _ ← vault.decreaseLiquidatedCollateral toBeReleased
    toBeReleased.unlockOn R vaultId.accountId
  else if premium.isZero then
    return ()
  else
    transferFunds R (.collateral vaultId) (.freeBalance redeemerId) premium

/-- Redeem tokens for collateral of the liquidation vault. -/
def redeemTokensLiquidation (currencyId : CurrencyId) (redeemerId : AccountId)
    (amountWrapped : Amount) : ChainM B Unit := do
  let currencyPair : VaultCurrencyPair := ⟨currencyId, amountWrapped.currencyId⟩
  let liquidationVault := getLiquidationVault currencyPair (← get)
  ensure ((← (← liquidationVault.redeemableTokens).ge amountWrapped) = true)
    (err .insufficientTokensCommitted)
  let source : CurrencySource := .liquidationVault currencyPair
  let available ← read (source.currentBalance R currencyId)
  let toTransfer ← calculateCollateral available amountWrapped (← liquidationVault.toBeBackedTokens)
  transferFunds R source (.freeBalance redeemerId) toTransfer
  -- the transfer has changed the liquidation vault
  let _ ← (getLiquidationVault currencyPair (← get)).decreaseIssued amountWrapped

/-! ## Replace -/

/-- The tokens that the vault can still request to be replaced. -/
def requestableToBeReplacedTokens : ChainR B Amount := fun s => do
  let vault ← getActiveVaultFromId vaultId s
  (← vault.issued.checkedSub vault.toBeReplaced).checkedSub vault.toBeRedeemed

/-- Add tokens to be replaced; returns the new total. -/
def tryIncreaseToBeReplacedTokens : ChainM B Amount := do
  let vault ← read (getActiveVaultFromId vaultId)
  let newToBeReplaced ← vault.toBeReplaced.checkedAdd tokens
  let totalDecreasingTokens ← newToBeReplaced.checkedAdd vault.toBeRedeemed
  ensure ((← totalDecreasingTokens.le vault.issued) = true) (err .insufficientTokensCommitted)
  let _ ← vault.setToBeReplacedAmount newToBeReplaced
  return newToBeReplaced

/-- Remove tokens to be replaced, at most what there is; returns the tokens and their part of
the replace collateral, which is not moved here. -/
def decreaseToBeReplacedTokens : ChainM B (Amount × Amount) := do
  let vault ← read (getVaultFromId vaultId)
  let initialToBeReplaced : Amount := ⟨vault.toBeReplacedTokens, vaultId.wrappedCurrency⟩
  let initialGriefingCollateral : Amount :=
    ⟨vault.replaceCollateral, R.getGriefingCollateralCurrencyId⟩
  let usedTokens ← tokens.min initialToBeReplaced
  let usedCollateral ← calculateCollateral initialGriefingCollateral usedTokens
    initialToBeReplaced
  let usedCollateral ← usedCollateral.min initialGriefingCollateral
  let newToBeReplaced ← initialToBeReplaced.checkedSub usedTokens
  let _ ← vault.setToBeReplacedAmount newToBeReplaced
  return (usedTokens, usedCollateral)

/-- Remove tokens to be replaced and release their replace collateral. -/
def withdrawReplaceRequest : ChainM B (Amount × Amount) := do
  let (withdrawnTokens, toWithdrawCollateral) ← decreaseToBeReplacedTokens R vaultId amount
  transferFunds R (.availableReplaceCollateral vaultId) (.freeBalance vaultId.accountId)
    toWithdrawCollateral
  return (withdrawnTokens, toWithdrawCollateral)

/-- If the vault is liquidated, the part of its liquidated collateral that belongs to some tokens to
be redeemed goes back to its pool; it was withdrawn from there by the liquidation. -/
def Vault.depositLiquidated (vaultId : VaultId) (tokens : Amount) : ChainM B Vault :=
  if v.isLiquidated then do
    let toBeReleased ← calculateCollateral v.liquidatedAmount tokens v.toBeRedeemed
    let v ← v.decreaseLiquidatedCollateral toBeReleased
    PoolManager.depositCollateral R vaultId vaultId.accountId toBeReleased
    return v
  else pure v

/-- Tokens move from the old vault to the new vault. -/
def replaceTokens (oldVaultId newVaultId : VaultId) (tokens : Amount) : ChainM B Unit := do
  let oldVault ← read (getVaultFromId oldVaultId)
  let newVault ← read (getVaultFromId newVaultId)
  let oldVault ← oldVault.depositLiquidated R oldVaultId tokens
  let _ ← oldVault.executeRedeemTokens tokens
  let _ ← newVault.executeIssueTokens tokens

/-- If the vault is liquidated, the part of its liquidated collateral that belongs to some tokens to
be redeemed goes to the liquidation vault. -/
def Vault.transferLiquidated (vaultId : VaultId) (tokens : Amount) : ChainM B Vault :=
  if v.isLiquidated then do
    let toBeTransferred ← calculateCollateral v.liquidatedAmount tokens v.toBeRedeemed
    let v ← v.decreaseLiquidatedCollateral toBeTransferred
    transferFunds R (.liquidatedCollateral vaultId) (.liquidationVault vaultId.currencies)
      toBeTransferred
    return v
  else pure v

/-- The replacement of the old vault by the new vault is cancelled. -/
def cancelReplaceTokens (oldVaultId newVaultId : VaultId) (tokens : Amount) : ChainM B Unit := do
  let oldVault ← read (getVaultFromId oldVaultId)
  let newVault ← read (getVaultFromId newVaultId)
  let oldVault ← oldVault.transferLiquidated R oldVaultId tokens
  let _ ← oldVault.decreaseToBeRedeemed tokens
  let _ ← newVault.decreaseToBeIssued tokens

/-! ## Bans -/

/-- Ban the vault from new requests.  The sum of the heights is not checked. -/
def banVault : ChainM B Unit := do
  let height := Security.activeBlockNumber (← get)
  let vault ← read (getActiveVaultFromId vaultId)
  let bannedUntil := (height + (← get).vaultRegistry.punishmentDelay) % nonceBound
  let _ ← vault.banUntil bannedUntil

/-- Fail if the vault is banned or not active. -/
def ensureNotBanned : ChainR B Unit := fun s => do
  let vault ← getActiveVaultFromId vaultId s
  vault.ensureNotBanned s

/-! ## Liquidation -/

namespace Vault

/-- Keep collateral of the vault for its tokens to be redeemed. -/
def slashForToBeRedeemed : ChainM B Vault := do
  let collateral ← (← read (computeCollateral v.id)).min amount
  PoolManager.withdrawCollateral R v.id v.id.accountId collateral none
  v.increaseLiquidatedCollateral collateral

/-- Move collateral to the liquidation vault, first that of the vault itself and then that of
its nominators. -/
def slashToLiquidationVault : ChainM B Unit := do
  let collateral ← read (computeCollateral v.id)
  match amount.checkedSub collateral with
  | .ok leftover =>
    PoolManager.withdrawCollateral R v.id v.id.accountId collateral none
    zoom Chain.stakingL (Staking.Api.slashStake R.staking v.id leftover.amount)
  | .error _ =>
    PoolManager.withdrawCollateral R v.id v.id.accountId amount none
  transferFunds R (.liquidatedCollateral v.id) (.liquidationVault v.id.currencies) amount

def moveTokensToLiquidationVault : ChainM B Unit := do
  let liquidationVault := getLiquidationVault v.id.currencies (← get)
  let liquidationVault ← liquidationVault.increaseIssued v.issued
  let liquidationVault ← liquidationVault.increaseToBeIssued v.toBeIssued
  let _ ← liquidationVault.increaseToBeRedeemed v.toBeRedeemed
  let _ ← v.update fun v => return { v with
    toBeIssuedTokens := 0
    issuedTokens := 0
    status := .liquidated }

/-- Liquidate the vault; returns the collateral that moved to the liquidation vault. -/
def liquidate : ChainM B Amount := do
  let vaultId := v.id
  let threshold ← okOr ((← get).vaultRegistry.liquidationCollateralThreshold v.id.currencies)
    (err .liquidationCollateralThresholdNotSet)
  let liquidatedCollateral ← read (v.getUsedCollateral R threshold)
  let _ ← withdrawReplaceRequest R v.id v.toBeReplaced
  -- the withdrawal has changed the vault
  let v ← read (getVaultFromId vaultId)
  let collateralTokens ← v.backedTokens
  let liquidatedCollateralExcludingToBeRedeemed ← calculateCollateral liquidatedCollateral
    (← collateralTokens.checkedSub v.toBeRedeemed) collateralTokens
  let collateralForToBeRedeemed ←
    liquidatedCollateral.saturatingSub liquidatedCollateralExcludingToBeRedeemed
  let v ← v.slashForToBeRedeemed R collateralForToBeRedeemed
  v.slashToLiquidationVault R liquidatedCollateralExcludingToBeRedeemed
  v.moveTokensToLiquidationVault
  return liquidatedCollateralExcludingToBeRedeemed

end Vault

/-- Liquidate an active vault. -/
def liquidateVault : ChainM B Amount := do
  let vault ← read (getActiveVaultFromId vaultId)
  let _ ← read (getBackingCollateral vault.id)
  vault.liquidate R

end Spacewalk.VaultRegistry
