import Spacewalk.Currency.Amount

/-!
# Vaults

The records of the vault registry (`pallets/vault-registry/src/types.rs`): a vault with its
token counters and its collateral counters, the liquidation vault of a pair of currencies,
the places funds can come from and go to, and the storage of the pallet.
-/

namespace Spacewalk.VaultRegistry

inductive VaultStatus where
  /-- The vault is active; the flag says whether it accepts new issue requests. -/
  | active (acceptsNewIssues : Bool)
  | liquidated
  deriving DecidableEq

structure Vault where
  id : VaultId
  status : VaultStatus
  bannedUntil : Option Nat
  secureCollateralThreshold : Option UnsignedFixedPoint
  /-- Tokens of issue requests and accepted replace requests that are not executed. -/
  toBeIssuedTokens : Nat
  issuedTokens : Nat
  /-- Tokens of redeem requests and of replaced vaults that are not executed. -/
  toBeRedeemedTokens : Nat
  /-- Tokens that were requested to be replaced and are not accepted by another vault. -/
  toBeReplacedTokens : Nat
  /-- Griefing collateral for the tokens to be replaced. -/
  replaceCollateral : Nat
  /-- Griefing collateral of accepted replace requests. -/
  activeReplaceCollateral : Nat
  /-- Collateral that was kept for the tokens to be redeemed when the vault was liquidated. -/
  liquidatedCollateral : Nat
  deriving DecidableEq

/-- The liquidation vault of a pair of currencies. -/
structure SystemVault where
  toBeIssuedTokens : Nat
  issuedTokens : Nat
  toBeRedeemedTokens : Nat
  collateral : Nat
  currencyPair : VaultCurrencyPair
  deriving DecidableEq

inductive VaultItem where
  | toBeIssued
  | issued
  | toBeRedeemed
  | toBeReplaced
  | replaceCollateral
  | activeReplaceCollateral
  | liquidatedCollateral
  deriving DecidableEq

/-- The counters of a liquidation vault. -/
inductive SystemItem where
  | toBeIssued
  | issued
  | toBeRedeemed
  | collateral
  deriving DecidableEq

variable (v : Vault) (i : VaultItem) (currencyPair : VaultCurrencyPair) (n : Nat)

namespace Vault

def item : VaultItem → Nat
  | .toBeIssued => v.toBeIssuedTokens
  | .issued => v.issuedTokens
  | .toBeRedeemed => v.toBeRedeemedTokens
  | .toBeReplaced => v.toBeReplacedTokens
  | .replaceCollateral => v.replaceCollateral
  | .activeReplaceCollateral => v.activeReplaceCollateral
  | .liquidatedCollateral => v.liquidatedCollateral

/-- Replace a counter of the vault. -/
def setItem : Vault :=
  match i with
  | .toBeIssued => { v with toBeIssuedTokens := n }
  | .issued => { v with issuedTokens := n }
  | .toBeRedeemed => { v with toBeRedeemedTokens := n }
  | .toBeReplaced => { v with toBeReplacedTokens := n }
  | .replaceCollateral => { v with replaceCollateral := n }
  | .activeReplaceCollateral => { v with activeReplaceCollateral := n }
  | .liquidatedCollateral => { v with liquidatedCollateral := n }

@[simp] theorem setItem_id : (v.setItem i n).id = v.id := by
  cases i <;> rfl

@[simp] theorem setItem_status : (v.setItem i n).status = v.status := by
  cases i <;> rfl

theorem item_setItem (j : VaultItem) (n : Nat) :
    (v.setItem i n).item j = if j = i then n else v.item j := by
  cases i <;> cases j <;> rfl

def new (id : VaultId) : Vault where
  id := id
  status := .active true
  bannedUntil := none
  secureCollateralThreshold := none
  toBeIssuedTokens := 0
  issuedTokens := 0
  toBeRedeemedTokens := 0
  toBeReplacedTokens := 0
  replaceCollateral := 0
  activeReplaceCollateral := 0
  liquidatedCollateral := 0

/-- The vault has been liquidated. -/
def isLiquidated : Bool := decide (v.status = .liquidated)

/-- The vault is active and accepts new issue requests. -/
def acceptsNewIssues : Bool := decide (v.status = .active true)

@[simp] theorem isLiquidated_eq_true {v : Vault} :
    v.isLiquidated = true ↔ v.status = .liquidated := by
  simp [isLiquidated]

end Vault

/-- The currency of a counter of the liquidation vault. -/
def SystemItem.currency : SystemItem → CurrencyId
  | .collateral => currencyPair.collateral
  | _ => currencyPair.wrapped

namespace SystemVault

/-- A liquidation vault that holds nothing. -/
def new : SystemVault := ⟨0, 0, 0, 0, currencyPair⟩

/-- A counter of the liquidation vault. -/
def item (v : SystemVault) : SystemItem → Nat
  | .toBeIssued => v.toBeIssuedTokens
  | .issued => v.issuedTokens
  | .toBeRedeemed => v.toBeRedeemedTokens
  | .collateral => v.collateral

/-- Replace a counter of the liquidation vault. -/
def setItem (v : SystemVault) (i : SystemItem) (n : Nat) : SystemVault :=
  match i with
  | .toBeIssued => { v with toBeIssuedTokens := n }
  | .issued => { v with issuedTokens := n }
  | .toBeRedeemed => { v with toBeRedeemedTokens := n }
  | .collateral => { v with collateral := n }

@[simp] theorem setItem_currencyPair (v : SystemVault) (i : SystemItem) (n : Nat) :
    (v.setItem i n).currencyPair = v.currencyPair := by
  cases i <;> rfl

theorem item_setItem (v : SystemVault) (i j : SystemItem) (n : Nat) :
    (v.setItem i n).item j = if j = i then n else v.item j := by
  cases i <;> cases j <;> rfl

end SystemVault

/-- Where funds come from or go to. -/
inductive CurrencySource where
  /-- Collateral that backs issued tokens. -/
  | collateral (vaultId : VaultId)
  /-- Collateral of a replace request that is not accepted. -/
  | availableReplaceCollateral (vaultId : VaultId)
  /-- Griefing collateral of accepted replace requests. -/
  | activeReplaceCollateral (vaultId : VaultId)
  /-- Griefing collateral of the user of an issue request. -/
  | userGriefing (accountId : AccountId)
  /-- Balance that is not locked. -/
  | freeBalance (accountId : AccountId)
  | liquidatedCollateral (vaultId : VaultId)
  /-- Funds of the liquidation vault. -/
  | liquidationVault (currencyPair : VaultCurrencyPair)
  deriving DecidableEq

/-- The storage of the vault registry. -/
structure Storage where
  /-- `MinimumCollateralVault`; the entry may be missing. -/
  minimumCollateralVault : CurrencyId → Option Nat
  punishmentDelay : Nat
  systemCollateralCeiling : VaultCurrencyPair → Option Nat
  secureCollateralThreshold : VaultCurrencyPair → Option UnsignedFixedPoint
  premiumRedeemThreshold : VaultCurrencyPair → Option UnsignedFixedPoint
  liquidationCollateralThreshold : VaultCurrencyPair → Option UnsignedFixedPoint
  liquidationVault : VaultCurrencyPair → Option SystemVault
  vaults : VaultId → Option Vault
  vaultStellarPublicKey : AccountId → Option StellarPublicKeyRaw
  totalUserVaultCollateral : VaultCurrencyPair → Nat

end Spacewalk.VaultRegistry
