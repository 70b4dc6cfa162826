import Spacewalk.Runtime.Services

/-!
# Vaults and liquidation vaults in storage

Reading and updating vaults (`RichVault` and `RichSystemVault` of
`pallets/vault-registry/src/types.rs`).  A function of the source that holds a vault works on
a copy of its record; an update changes the copy and writes it back.  Here an update takes
the copy and returns the changed copy, so that it is visible which copy is written.

The counters of a liquidated vault live in the liquidation vault of its pair of currencies:
`increaseIssued`, `decreaseIssued` and `decreaseToBeIssued` go there, and
`decreaseToBeRedeemed` goes to both.
-/

namespace Spacewalk.VaultRegistry

open Foundation
open DispatchError (overflow underflow)

variable {B : Type} (R : Runtime B)

/-- A failure of the vault registry. -/
abbrev err (e : VaultRegistryError) : DispatchError := .vaultRegistry e

/-- `checked_add` of two balances. -/
def addBalance (x y : Nat) : Except DispatchError Nat :=
  if x + y < balanceBound then .ok (x + y) else .error overflow

/-- `checked_sub` of two balances. -/
def subBalance (x y : Nat) : Except DispatchError Nat :=
  if y ≤ x then .ok (x - y) else .error underflow

/-! ## Reading vaults -/

variable (v : Vault) (i : VaultItem) (vaultId : VaultId) (tokens amount : Amount)

/-- The vault with an identifier. -/
def getVaultFromId : ChainR B Vault := fun s =>
  okOr (s.vaultRegistry.vaults vaultId) (err .vaultNotFound)

/-- The vault with an identifier, which must be active. -/
def getActiveVaultFromId : ChainR B Vault := fun s => do
  let vault ← getVaultFromId vaultId s
  ensure (vault.status ≠ .liquidated) (err .vaultLiquidated)
  return vault

/-- The liquidation vault of a pair of currencies; it need not be stored. -/
def getLiquidationVault (currencyPair : VaultCurrencyPair) (s : Chain B) : SystemVault :=
  (s.vaultRegistry.liquidationVault currencyPair).getD (.new currencyPair)

/-- A vault is registered. -/
def vaultExists (s : Chain B) : Bool :=
  (s.vaultRegistry.vaults vaultId).isSome

/-- The collateral of a vault and of its nominators. -/
def getBackingCollateral : ChainR B Amount := fun s => do
  return ⟨← Staking.Api.totalStake s.staking vaultId, vaultId.currencies.collateral⟩

/-- The collateral of a vault without its nominators. -/
def computeCollateral : ChainR B Amount := fun s => do
  return ⟨← Staking.Api.computeStake s.staking vaultId vaultId.accountId,
    vaultId.currencies.collateral⟩

namespace Vault

def issued : Amount := ⟨v.issuedTokens, v.id.wrappedCurrency⟩

def toBeIssued : Amount := ⟨v.toBeIssuedTokens, v.id.wrappedCurrency⟩

def toBeRedeemed : Amount := ⟨v.toBeRedeemedTokens, v.id.wrappedCurrency⟩

def toBeReplaced : Amount := ⟨v.toBeReplacedTokens, v.id.wrappedCurrency⟩

def liquidatedAmount : Amount :=
  ⟨v.liquidatedCollateral, v.id.currencies.collateral⟩

/-- Tokens that the collateral backs: issued and to be issued. -/
def backedTokens : Except DispatchError Amount := do
  return ⟨← addBalance v.issuedTokens v.toBeIssuedTokens, v.id.wrappedCurrency⟩

/-- Issued tokens that are not to be redeemed. -/
def freelyRedeemableTokens : Except DispatchError Amount :=
  v.issued.checkedSub v.toBeRedeemed

/-- The secure threshold of the vault: its own, or the global one if that is higher. -/
def getSecureThreshold : ChainR B UnsignedFixedPoint := fun s => do
  let globalThreshold ← okOr (s.vaultRegistry.secureCollateralThreshold v.id.currencies)
    (err .globalThresholdNotSet)
  let ownThreshold := v.secureCollateralThreshold.getD 0
  return if ownThreshold.inner < globalThreshold.inner then globalThreshold else ownThreshold

/-- The collateral that the backed tokens use at a threshold. -/
def getUsedCollateral (threshold : UnsignedFixedPoint) : ChainR B Amount := fun s => do
  let issuedTokens ← v.backedTokens
  let issuedTokensInCollateral ← issuedTokens.convertTo R v.id.currencies.collateral s
  let usedCollateral ← issuedTokensInCollateral.checkedFixedPointMul threshold
  let totalCollateral ← getBackingCollateral v.id s
  totalCollateral.min usedCollateral

/-- The collateral that the backed tokens do not use at the secure threshold. -/
def getFreeCollateral : ChainR B Amount := fun s => do
  let usedCollateral ← v.getUsedCollateral R (← v.getSecureThreshold s) s
  let totalCollateral ← getBackingCollateral v.id s
  totalCollateral.checkedSub usedCollateral

/-- The vault is banned from new requests. -/
def isBanned (s : Chain B) : Bool :=
  match v.bannedUntil with
  | none => false
  | some height => decide (Security.activeBlockNumber s ≤ height)

/-- Fail if the vault is banned. -/
def ensureNotBanned : ChainR B Unit := fun s =>
  ensure (v.isBanned s = false) (err .vaultBanned)

end Vault

/-- The wrapped tokens that an amount of collateral can back at a threshold. -/
def calculateMaxWrappedFromCollateralForThreshold (collateral : Amount)
    (wrappedCurrency : CurrencyId) (threshold : UnsignedFixedPoint) : ChainR B Amount := fun s => do
  let collateralInWrapped ← collateral.convertTo R wrappedCurrency s
  collateralInWrapped.checkedDiv threshold

/-- The tokens that can still be issued with the vault. -/
def Vault.issuableTokens : ChainR B Amount := fun s => do
  if v.isBanned s then
    return ⟨0, v.id.wrappedCurrency⟩
  let freeCollateral ← v.getFreeCollateral R s
  let secureThreshold ← v.getSecureThreshold s
  calculateMaxWrappedFromCollateralForThreshold R freeCollateral v.id.wrappedCurrency
    secureThreshold s

/-! ## Updating liquidation vaults -/

namespace SystemVault

def issued (v : SystemVault) : Amount := ⟨v.issuedTokens, v.currencyPair.wrapped⟩

def toBeIssued (v : SystemVault) : Amount := ⟨v.toBeIssuedTokens, v.currencyPair.wrapped⟩

def toBeRedeemed (v : SystemVault) : Amount := ⟨v.toBeRedeemedTokens, v.currencyPair.wrapped⟩

/-- Issued tokens that are not to be redeemed. -/
def redeemableTokens (v : SystemVault) : Except DispatchError Amount :=
  v.issued.checkedSub v.toBeRedeemed

/-- Tokens that the collateral of the liquidation vault backs. -/
def toBeBackedTokens (v : SystemVault) : Except DispatchError Amount := do
  (← v.issued.checkedAdd v.toBeIssued).checkedSub v.toBeRedeemed

/-- Change the copy and write it to the storage. -/
def update (v : SystemVault) (func : SystemVault → Except DispatchError SystemVault) :
    ChainM B SystemVault := do
  let data ← func v
  modify (Chain.mapVaultRegistry fun r => { r with
    liquidationVault := Function.update r.liquidationVault data.currencyPair (some data) })
  return data

/-- Add to a counter. -/
def increase (v : SystemVault) (i : SystemItem) (amount : Amount) : ChainM B SystemVault :=
  v.update fun v => do
    return v.setItem i (← (⟨v.item i, i.currency v.currencyPair⟩ : Amount).checkedAdd amount).amount

/-- Subtract from a counter. -/
def decrease (v : SystemVault) (i : SystemItem) (amount : Amount) : ChainM B SystemVault :=
  v.update fun v => do
    return v.setItem i (← (⟨v.item i, i.currency v.currencyPair⟩ : Amount).checkedSub amount).amount

def increaseIssued (v : SystemVault) (tokens : Amount) : ChainM B SystemVault :=
  v.increase .issued tokens

def increaseToBeIssued (v : SystemVault) (tokens : Amount) : ChainM B SystemVault :=
  v.increase .toBeIssued tokens

def increaseToBeRedeemed (v : SystemVault) (tokens : Amount) : ChainM B SystemVault :=
  v.increase .toBeRedeemed tokens

def decreaseIssued (v : SystemVault) (tokens : Amount) : ChainM B SystemVault :=
  v.decrease .issued tokens

def decreaseToBeIssued (v : SystemVault) (tokens : Amount) : ChainM B SystemVault :=
  v.decrease .toBeIssued tokens

def decreaseToBeRedeemed (v : SystemVault) (tokens : Amount) : ChainM B SystemVault :=
  v.decrease .toBeRedeemed tokens

def increaseCollateral (v : SystemVault) (amount : Amount) : ChainM B SystemVault :=
  v.increase .collateral amount

def decreaseCollateral (v : SystemVault) (amount : Amount) : ChainM B SystemVault :=
  v.decrease .collateral amount

end SystemVault

/-! ## Updating vaults -/

/-- `insert_vault`: write a vault to the storage. -/
def insertVault (id : VaultId) (vault : Vault) : ChainM B Unit :=
  modify (Chain.mapVaultRegistry fun r => { r with
    vaults := Function.update r.vaults id (some vault) })

namespace Vault

/-- Change the copy and write it to the storage. -/
def update (func : Vault → Except DispatchError Vault) : ChainM B Vault := do
  let data ← func v
  insertVault data.id data
  return data

/-- Add wrapped tokens to a counter. -/
def increase : ChainM B Vault :=
  v.update fun v => do
    return v.setItem i (← (⟨v.item i, v.id.wrappedCurrency⟩ : Amount).checkedAdd tokens).amount

/-- Subtract wrapped tokens from a counter. -/
def decrease : ChainM B Vault :=
  v.update fun v => do
    return v.setItem i (← (⟨v.item i, v.id.wrappedCurrency⟩ : Amount).checkedSub tokens).amount

/-- Add collateral to a counter; its currency is not compared. -/
def increaseCollateral : ChainM B Vault :=
  v.update fun v => do return v.setItem i (← addBalance (v.item i) amount.amount)

/-- Subtract collateral from a counter; its currency is not compared. -/
def decreaseCollateral : ChainM B Vault :=
  v.update fun v => do return v.setItem i (← subBalance (v.item i) amount.amount)

/-- Add issued tokens, in the liquidation vault if the vault is liquidated. -/
def increaseIssued : ChainM B Vault := do
  if v.isLiquidated then
    let _ ← (getLiquidationVault v.id.currencies (← get)).increaseIssued tokens
    return v
  else
    v.increase .issued tokens

/-- Add tokens to be issued; a liquidated vault takes none. -/
def increaseToBeIssued : ChainM B Vault := do
  ensure (v.isLiquidated = false) (err .vaultNotFound)
  v.increase .toBeIssued tokens

/-- Add tokens to be redeemed; a liquidated vault takes none. -/
def increaseToBeRedeemed : ChainM B Vault := do
  ensure (v.isLiquidated = false) (err .vaultNotFound)
  v.increase .toBeRedeemed tokens

/-- Remove issued tokens, in the liquidation vault if the vault is liquidated. -/
def decreaseIssued : ChainM B Vault := do
  if v.isLiquidated then
    let _ ← (getLiquidationVault v.id.currencies (← get)).decreaseIssued tokens
    return v
  else
    v.decrease .issued tokens

/-- Remove tokens to be issued, in the liquidation vault if the vault is liquidated. -/
def decreaseToBeIssued : ChainM B Vault := do
  if v.isLiquidated then
    let _ ← (getLiquidationVault v.id.currencies (← get)).decreaseToBeIssued tokens
    return v
  else
    v.decrease .toBeIssued tokens

/-- Remove tokens to be redeemed, also in the liquidation vault if the vault is liquidated. -/
def decreaseToBeRedeemed : ChainM B Vault := do
  if v.isLiquidated then
    let _ ← (getLiquidationVault v.id.currencies (← get)).decreaseToBeRedeemed tokens
  v.decrease .toBeRedeemed tokens

/-- Tokens to be issued become issued tokens. -/
def executeIssueTokens : ChainM B Vault := do
  let v ← v.decreaseToBeIssued tokens
  v.increaseIssued tokens

/-- Tokens to be redeemed are no longer issued. -/
def executeRedeemTokens : ChainM B Vault := do
  let v ← v.decreaseToBeRedeemed tokens
  v.decreaseIssued tokens

def setToBeReplacedAmount : ChainM B Vault :=
  v.update fun v => return v.setItem .toBeReplaced tokens.amount

/-- Add collateral of replace requests that are not accepted. -/
def increaseAvailableReplaceCollateral : ChainM B Vault :=
  v.increaseCollateral .replaceCollateral amount

/-- Remove collateral of replace requests that are not accepted. -/
def decreaseAvailableReplaceCollateral : ChainM B Vault :=
  v.decreaseCollateral .replaceCollateral amount

/-- Add collateral of accepted replace requests. -/
def increaseActiveReplaceCollateral : ChainM B Vault :=
  v.increaseCollateral .activeReplaceCollateral amount

/-- Remove collateral of accepted replace requests. -/
def decreaseActiveReplaceCollateral : ChainM B Vault :=
  v.decreaseCollateral .activeReplaceCollateral amount

/-- Set or clear the vault's own secure threshold. -/
def setCustomSecureThreshold (threshold : Option UnsignedFixedPoint) : ChainM B Vault :=
  v.update fun v => return { v with secureCollateralThreshold := threshold }

/-- Make the vault active, and set whether it accepts new issue requests. -/
def setAcceptNewIssues (acceptNewIssues : Bool) : ChainM B Vault :=
  v.update fun v => return { v with status := .active acceptNewIssues }

def increaseLiquidatedCollateral : ChainM B Vault :=
  v.increaseCollateral .liquidatedCollateral amount

def decreaseLiquidatedCollateral : ChainM B Vault :=
  v.decreaseCollateral .liquidatedCollateral amount

/-- Ban the vault until a block height. -/
def banUntil (height : Nat) : ChainM B Vault :=
  v.update fun v => return { v with bannedUntil := some height }

end Vault

end Spacewalk.VaultRegistry
