import Spacewalk.VaultRegistry.Tokens

/-!
# The extrinsics of the vault registry

The dispatchable functions of `pallets/vault-registry/src/lib.rs`.  Events are left out, but
what is computed for an event can make the call fail and is kept.
-/

namespace Spacewalk.VaultRegistry

open Foundation Function

variable {B : Type} (R : Runtime B)

def getStellarPublicKey (accountId : AccountId) : ChainR B StellarPublicKeyRaw := fun s =>
  okOr (s.vaultRegistry.vaultStellarPublicKey accountId) (err .noStellarPublicKey)

/-- The least collateral to register a vault with. -/
def getMinimumCollateralVault (currencyId : CurrencyId) (s : Chain B) : Amount :=
  ⟨(s.vaultRegistry.minimumCollateralVault currencyId).getD 0, currencyId⟩

/-- A vault can be registered: its currencies are configured, its account has a public key, the
collateral suffices and there is no such vault. -/
def ensureRegistrable (vaultId : VaultId) (amount : Amount) : ChainR B Unit := fun s => do
  let r := s.vaultRegistry
  ensure ((r.secureCollateralThreshold vaultId.currencies).isSome = true)
    (err .secureCollateralThresholdNotSet)
  ensure ((r.premiumRedeemThreshold vaultId.currencies).isSome = true)
    (err .premiumRedeemThresholdNotSet)
  ensure ((r.liquidationCollateralThreshold vaultId.currencies).isSome = true)
    (err .liquidationCollateralThresholdNotSet)
  ensure ((r.minimumCollateralVault vaultId.collateralCurrency).isSome = true)
    (err .minimumCollateralNotSet)
  ensure ((r.systemCollateralCeiling vaultId.currencies).isSome = true) (err .ceilingNotSet)
  let _ ← getStellarPublicKey vaultId.accountId s
  ensure ((← amount.ge (getMinimumCollateralVault vaultId.currencies.collateral s)) = true)
    (err .insufficientVaultCollateralAmount)
  ensure (vaultExists vaultId s = false) (err .vaultAlreadyRegistered)

variable (origin : Origin) (currencyPair : VaultCurrencyPair) (threshold : UnsignedFixedPoint)

/-- `register_vault`: register a vault with some collateral. -/
def registerVault (collateral : Nat) : ChainM B Unit := do
  let accountId ← ensureSigned origin
  let vaultId : VaultId := ⟨accountId, currencyPair⟩
  let amount : Amount := ⟨collateral, currencyPair.collateral⟩
  read (ensureRegistrable vaultId amount)
  insertVault vaultId (.new vaultId)
  tryDepositCollateral R vaultId amount

/-- `deposit_collateral`: add collateral to a vault. -/
def depositCollateral (amount : Nat) : ChainM B Unit := do
  let accountId ← ensureSigned origin
  let vaultId : VaultId := ⟨accountId, currencyPair⟩
  let vault ← read (getActiveVaultFromId vaultId)
  tryDepositCollateral R vaultId ⟨amount, currencyPair.collateral⟩
  let _ ← read (getBackingCollateral vault.id)
  let _ ← read (vault.getFreeCollateral R)

/-- `withdraw_collateral`: withdraw collateral of a vault. -/
def withdrawCollateral (amount : Nat) : ChainM B Unit := do
  let accountId ← ensureSigned origin
  let vaultId : VaultId := ⟨accountId, currencyPair⟩
  let vault ← read (getVaultFromId vaultId)
  tryWithdrawCollateral R vaultId ⟨amount, currencyPair.collateral⟩
  let _ ← read (getBackingCollateral vault.id)

/-- `register_public_key`: register the Stellar public key of an account, once. -/
def registerPublicKey (publicKey : StellarPublicKeyRaw) : ChainM B Unit := do
  let accountId ← ensureSigned origin
  let r := (← get).vaultRegistry
  ensure (r.vaultStellarPublicKey accountId = none) (err .publicKeyAlreadyRegistered)
  modify (Chain.mapVaultRegistry fun r => { r with
    vaultStellarPublicKey := update r.vaultStellarPublicKey accountId (some publicKey) })

/-- `accept_new_issues`: set whether the vault accepts new issue requests. -/
def acceptNewIssues (acceptNewIssues : Bool) : ChainM B Unit := do
  let accountId ← ensureSigned origin
  let vaultId : VaultId := ⟨accountId, currencyPair⟩
  let vault ← read (getActiveVaultFromId vaultId)
  let _ ← vault.setAcceptNewIssues acceptNewIssues
  PoolManager.onVaultSettingsChange R vaultId

/-- `set_custom_secure_threshold`: set a higher secure threshold for a vault, or clear it. -/
def setCustomSecureThreshold (customThreshold : Option UnsignedFixedPoint) : ChainM B Unit := do
  let accountId ← ensureSigned origin
  let vaultId : VaultId := ⟨accountId, currencyPair⟩
  match customThreshold with
  | some newThreshold =>
    let globalThreshold ←
      okOr ((← get).vaultRegistry.secureCollateralThreshold vaultId.currencies)
        (err .globalThresholdNotSet)
    ensure (globalThreshold.inner < newThreshold.inner) (err .thresholdNotAboveGlobalThreshold)
  | none => pure ()
  let vault ← read (getVaultFromId vaultId)
  let _ ← vault.setCustomSecureThreshold customThreshold

/-- `report_undercollateralized_vault`: liquidate a vault that is below the liquidation
threshold.  Any origin may call it. -/
def reportUndercollateralizedVault (vaultId : VaultId) : ChainM B Unit := do
  let vault ← read (getVaultFromId vaultId)
  let liquidationThreshold ←
    okOr ((← get).vaultRegistry.liquidationCollateralThreshold vaultId.currencies)
      (err .liquidationCollateralThresholdNotSet)
  ensure ((← read (isVaultBelowLiquidationThreshold R vault liquidationThreshold)) = true)
    (err .vaultNotBelowLiquidationThreshold)
  let _ ← liquidateVault R vaultId

def setMinimumCollateral (currencyId : CurrencyId) (minimum : Nat) : ChainM B Unit := do
  ensureRoot origin
  modify (Chain.mapVaultRegistry fun r => { r with
    minimumCollateralVault := update r.minimumCollateralVault currencyId (some minimum) })

def setSystemCollateralCeiling (ceiling : Nat) : ChainM B Unit := do
  ensureRoot origin
  modify (Chain.mapVaultRegistry fun r => { r with
    systemCollateralCeiling :=
      update r.systemCollateralCeiling currencyPair (some ceiling) })

/-- `set_secure_collateral_threshold`; the wrapped currency becomes a reward currency. -/
def setSecureCollateralThreshold : ChainM B Unit := do
  ensureRoot origin
  modify (Chain.mapVaultRegistry fun r => { r with
    secureCollateralThreshold :=
      update r.secureCollateralThreshold currencyPair (some threshold) })
  zoom Chain.stakingL (Staking.addRewardCurrency R.staking currencyPair.wrapped)

def setPremiumRedeemThreshold : ChainM B Unit := do
  ensureRoot origin
  modify (Chain.mapVaultRegistry fun r => { r with
    premiumRedeemThreshold :=
      update r.premiumRedeemThreshold currencyPair (some threshold) })

def setLiquidationCollateralThreshold : ChainM B Unit := do
  ensureRoot origin
  modify (Chain.mapVaultRegistry fun r => { r with
    liquidationCollateralThreshold :=
      update r.liquidationCollateralThreshold currencyPair (some threshold) })

/-- `recover_vault_id`: a liquidated vault without tokens to be redeemed becomes active. -/
def recoverVaultId : ChainM B Unit := do
  let accountId ← ensureSigned origin
  let vaultId : VaultId := ⟨accountId, currencyPair⟩
  ensure ((← read (isVaultLiquidated vaultId)) = true) (err .vaultNotRecoverable)
  let vault ← read (getVaultFromId vaultId)
  ensure (vault.toBeRedeemed.isZero = true) (err .vaultNotRecoverable)
  let _ ← vault.setAcceptNewIssues true

def setPunishmentDelay (punishmentDelay : Nat) : ChainM B Unit := do
  ensureRoot origin
  modify (Chain.mapVaultRegistry fun r => { r with punishmentDelay := punishmentDelay })

end Spacewalk.VaultRegistry
