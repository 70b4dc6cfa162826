import Spacewalk.VaultRegistry.Calls

/-!
# The nomination pallet

Accounts nominate collateral to vaults that opted in (`pallets/nomination/src/lib.rs`).  The
collateral is reserved on the account of the vault and staked for the nominator.
-/

namespace Spacewalk.Nomination

open Foundation VaultRegistry Function

variable {B : Type} (R : Runtime B)

/-- A failure of the nomination pallet. -/
abbrev nominationErr (e : NominationError) : DispatchError := .nomination e

variable (origin : Origin) (vaultId : VaultId)

def isOptedIn (s : Chain B) : Bool := s.nomination.vaults vaultId

def getTotalNominatedCollateral : ChainR B Amount := fun s => do
  let vaultBackingCollateral ← getBackingCollateral vaultId s
  let vaultActualCollateral ← computeCollateral vaultId s
  vaultBackingCollateral.checkedSub vaultActualCollateral

def setNominationEnabled (enabled : Bool) : ChainM B Unit := do
  ensureRoot origin
  modify fun s => { s with nomination := { s.nomination with nominationEnabled := enabled } }

def optInToNomination (currencyPair : VaultCurrencyPair) : ChainM B Unit := do
  let accountId ← ensureSigned origin
  read Security.ensureParachainStatusRunning
  let vaultId : VaultId := ⟨accountId, currencyPair⟩
  let s ← get
  ensure (s.nomination.nominationEnabled = true) (nominationErr .vaultNominationDisabled)
  ensure (vaultExists vaultId s = true) (nominationErr .vaultNotFound)
  ensure (s.nomination.vaults vaultId = false) (nominationErr .vaultAlreadyOptedInToNomination)
  set { s with nomination := { s.nomination with
    vaults := update s.nomination.vaults vaultId true } }

/-- `opt_out_of_nomination`: all nominators are refunded; they withdraw from the pool that is
closed now. -/
def optOutOfNomination (currencyPair : VaultCurrencyPair) : ChainM B Unit := do
  let accountId ← ensureSigned origin
  read Security.ensureParachainStatusRunning
  let vaultId : VaultId := ⟨accountId, currencyPair⟩
  ensure (isOptedIn vaultId (← get) = true) (nominationErr .vaultNotOptedInToNomination)
  let totalNominatedCollateral ← read (getTotalNominatedCollateral vaultId)
  ensure ((← read (isAllowedToWithdrawCollateral R vaultId totalNominatedCollateral)) = true)
    (nominationErr .collateralizationTooLow)
  let refundedCollateral ← PoolManager.kickNominators R vaultId
  decreaseTotalBackingCollateral vaultId.currencies
    ⟨refundedCollateral, vaultId.collateralCurrency⟩
  modify fun s => { s with nomination := { s.nomination with
    vaults := update s.nomination.vaults vaultId false } }

/-- `deposit_collateral`: nominate collateral to a vault. -/
def depositCollateral (amount : Nat) : ChainM B Unit := do
  let nominatorId ← ensureSigned origin
  read Security.ensureParachainStatusRunning
  let s ← get
  ensure (s.nomination.nominationEnabled = true) (nominationErr .vaultNominationDisabled)
  ensure (isOptedIn vaultId s = true) (nominationErr .vaultNotOptedInToNomination)
  let amount : Amount := ⟨amount, vaultId.collateralCurrency⟩
  let vaultBackingCollateral ← getBackingCollateral vaultId s
  let totalNominatedCollateral ← getTotalNominatedCollateral vaultId s
  let newNominatedCollateral ← totalNominatedCollateral.checkedAdd amount
  let maxNominatableCollateral ←
    getMaxNominatableCollateral vaultBackingCollateral vaultId.currencies s
  ensure ((← newNominatedCollateral.le maxNominatableCollateral) = true)
    (nominationErr .depositViolatesMaxNominationRatio)
  PoolManager.depositCollateral R vaultId nominatorId amount
  amount.transfer R nominatorId vaultId.accountId
  amount.lockOn R vaultId.accountId
  tryIncreaseTotalBackingCollateral vaultId.currencies amount

/-- The checks of a withdrawal from the current pool. -/
def checkWithdrawal (amount : Amount) : ChainM B Unit := do
  ensure ((← read (isAllowedToWithdrawCollateral R vaultId amount)) = true)
    (nominationErr .cannotWithdrawCollateral)
  let s ← get
  ensure (s.nomination.nominationEnabled = true) (nominationErr .vaultNominationDisabled)
  ensure (isOptedIn vaultId s = true) (nominationErr .vaultNotOptedInToNomination)
  decreaseTotalBackingCollateral vaultId.currencies amount

/-- `withdraw_collateral`: withdraw nominated collateral from the pool with an index; without an
index, from the first pool.  Only a withdrawal from the current pool is checked. -/
def withdrawCollateral (amount : Nat) (index : Option Nonce) : ChainM B Unit := do
  let nominatorId ← ensureSigned origin
  read Security.ensureParachainStatusRunning
  let nonce := (← get).staking.nonce vaultId
  let index := min (index.getD 0) nonce
  let amount : Amount := ⟨amount, vaultId.collateralCurrency⟩
  if index = nonce then
    checkWithdrawal R vaultId amount
  PoolManager.withdrawCollateral R vaultId nominatorId amount (some index)
  amount.unlockOn R vaultId.accountId
  amount.transfer R vaultId.accountId nominatorId

end Spacewalk.Nomination
