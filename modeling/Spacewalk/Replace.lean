import Spacewalk.Nomination

/-!
# The replace pallet

A vault asks to be replaced and locks griefing collateral; another vault accepts and takes
over the tokens when the payment of the old vault to the new vault on the Stellar network is
proved (`pallets/replace/src/lib.rs`).
-/

namespace Spacewalk.Replace

open Foundation VaultRegistry Function
open Stellar (Bytes)

variable {B : Type} (R : Runtime B)

/-- A failure of the replace pallet. -/
abbrev replaceErr (e : ReplaceError) : DispatchError := .replace e

variable (origin : Origin) (currencyPair : VaultCurrencyPair) (r : ReplaceRequest)
  (replaceId : H256)

namespace ReplaceRequest

def replacedAmount : Amount := ⟨r.amount, r.oldVault.wrappedCurrency⟩

def griefingAmount : Amount :=
  ⟨r.griefingCollateral, R.getGriefingCollateralCurrencyId⟩

/-- The collateral of the new vault as an amount. -/
def collateralAmount : Amount :=
  ⟨r.collateral, r.newVault.collateralCurrency⟩

end ReplaceRequest

/-! ## Stored requests -/

def insertReplaceRequest (request : ReplaceRequest) : ChainM B Unit :=
  modify (Chain.mapReplace fun st => { st with
    replaceRequests := update st.replaceRequests replaceId (some request) })

/-- Set the status of a request if it exists. -/
def setReplaceStatus (status : ReplaceRequestStatus) : ChainM B Unit :=
  modify (Chain.mapReplace fun st => { st with
    replaceRequests := update st.replaceRequests replaceId
      ((st.replaceRequests replaceId).map fun request => { request with status := status }) })

/-- A request that is pending. -/
def getOpenReplaceRequest : ChainR B ReplaceRequest := fun s => do
  let request ← okOr (s.replace.replaceRequests replaceId) (replaceErr .replaceIdNotFound)
  match request.status with
  | .pending => return request
  | .completed => throw (replaceErr .replaceCompleted)
  | .cancelled => throw (replaceErr .replaceCancelled)

/-- A request that is pending or cancelled. -/
def getOpenOrCancelledReplaceRequest : ChainR B ReplaceRequest := fun s => do
  let request ← okOr (s.replace.replaceRequests replaceId) (replaceErr .replaceIdNotFound)
  match request.status with
  | .pending | .cancelled => return request
  | .completed => throw (replaceErr .replaceCompleted)

/-- The least amount to replace. -/
def minimumTransferAmount (currencyId : CurrencyId) (s : Chain B) : Amount :=
  ⟨s.replace.replaceMinimumTransferAmount, currencyId⟩

/-! ## Requests -/

def requestReplace (amount : Nat) : ChainM B Unit := do
  let accountId ← ensureSigned origin
  let vaultId : VaultId := ⟨accountId, currencyPair⟩
  read (ensureNotBanned vaultId)
  let amountToReplace : Amount := ⟨amount, vaultId.wrappedCurrency⟩
  amountToReplace.ensureIsCompatibleWithTargetChain
  ensure (Nomination.isOptedIn vaultId (← get) = false) (replaceErr .vaultHasEnabledNomination)
  let requestableTokens ← read (requestableToBeReplacedTokens vaultId)
  let toBeReplacedIncrease ← amountToReplace.min requestableTokens
  ensure (toBeReplacedIncrease.isZero = false) (replaceErr .replaceAmountZero)
  let totalToBeReplaced ← tryIncreaseToBeReplacedTokens vaultId toBeReplacedIncrease
  let minimum := minimumTransferAmount vaultId.wrappedCurrency (← get)
  ensure ((← totalToBeReplaced.ge minimum) = true) (replaceErr .amountBelowDustAmount)
  let inGriefingCurrency ←
    read (toBeReplacedIncrease.convertTo R R.getGriefingCollateralCurrencyId)
  let griefingCollateral ← read (Fee.getReplaceGriefingCollateral inGriefingCurrency)
  transferFunds R (.freeBalance vaultId.accountId) (.availableReplaceCollateral vaultId)
    griefingCollateral

def withdrawReplace (amount : Nat) : ChainM B Unit := do
  let accountId ← ensureSigned origin
  let vaultId : VaultId := ⟨accountId, currencyPair⟩
  let (withdrawnTokens, _) ←
    withdrawReplaceRequest R vaultId ⟨amount, vaultId.wrappedCurrency⟩
  ensure (withdrawnTokens.isZero = false) (replaceErr .noPendingRequest)

/-- Promise tokens of the old vault to the new vault. -/
def acceptReplaceTokens (oldVaultId newVaultId : VaultId) (redeemableTokens : Amount) :
    ChainM B Unit := do
  tryIncreaseToBeRedeemedTokens oldVaultId redeemableTokens
  tryIncreaseToBeIssuedTokens R newVaultId redeemableTokens

def acceptReplace (oldVaultId : VaultId) (amount collateral : Nat)
    (stellarAddress : StellarPublicKeyRaw) : ChainM B Unit := do
  let accountId ← ensureSigned origin
  let newVaultId : VaultId := ⟨accountId, currencyPair⟩
  let replaceAmount : Amount := ⟨amount, oldVaultId.wrappedCurrency⟩
  let collateral : Amount := ⟨collateral, newVaultId.collateralCurrency⟩
  ensure (oldVaultId ≠ newVaultId) (replaceErr .replaceSelfNotAllowed)
  ensure (oldVaultId.wrappedCurrency = newVaultId.wrappedCurrency)
    (replaceErr .invalidWrappedCurrency)
  read (ensureNotBanned newVaultId)
  let (redeemableTokens, griefingCollateral) ←
    decreaseToBeReplacedTokens R oldVaultId replaceAmount
  let minimum := minimumTransferAmount oldVaultId.wrappedCurrency (← get)
  ensure ((← redeemableTokens.ge minimum) = true) (replaceErr .amountBelowDustAmount)
  let actualNewVaultCollateral ← calculateCollateral collateral redeemableTokens replaceAmount
  tryDepositCollateral R newVaultId actualNewVaultCollateral
  acceptReplaceTokens R oldVaultId newVaultId redeemableTokens
  transferFunds R (.availableReplaceCollateral oldVaultId) (.activeReplaceCollateral oldVaultId)
    griefingCollateral
  let replaceId ← Security.getSecureId R
  let s ← get
  insertReplaceRequest replaceId
    { oldVault := oldVaultId
      newVault := newVaultId
      amount := redeemableTokens.amount
      asset := redeemableTokens.currencyId
      griefingCollateral := griefingCollateral.amount
      collateral := actualNewVaultCollateral.amount
      acceptTime := Security.activeBlockNumber s
      period := s.replace.replacePeriod
      stellarAddress := stellarAddress
      status := .pending }

/-! ## Execution and cancellation -/

/-- `execute_replace`.  A cancelled request can be executed; its tokens are promised again
first. -/
def executeReplace
    (transactionEnvelopeXdrEncoded externalizedEnvelopesXdrEncoded transactionSetXdrEncoded : Bytes) :
    ChainM B Unit := do
  let _ ← ensureSigned origin
  let replace ← read (getOpenOrCancelledReplaceRequest replaceId)
  let transactionEnvelope ← read (StellarRelay.validatePayment R replaceId
    transactionEnvelopeXdrEncoded externalizedEnvelopesXdrEncoded transactionSetXdrEncoded)
  let paidAmount ← Currency.getAmountFromTransactionEnvelope transactionEnvelope
    replace.stellarAddress replace.asset
  ensure ((← paidAmount.ge replace.replacedAmount) = true) (replaceErr .invalidPaymentAmount)
  match replace.status with
  | .pending =>
    transferFunds R (.activeReplaceCollateral replace.oldVault)
      (.freeBalance replace.oldVault.accountId) (replace.griefingAmount R)
  | .cancelled =>
    acceptReplaceTokens R replace.oldVault replace.newVault replace.replacedAmount
  | .completed => throw (replaceErr .replaceCompleted)
  replaceTokens R replace.oldVault replace.newVault replace.replacedAmount
  setReplaceStatus replaceId .completed

def cancelReplace : ChainM B Unit := do
  let _ ← ensureSigned origin
  let replace ← read (getOpenReplaceRequest replaceId)
  let period := max (← get).replace.replacePeriod replace.period
  ensure ((← read (Security.parachainBlockExpired replace.acceptTime period)) = true)
    (replaceErr .replacePeriodNotExpired)
  cancelReplaceTokens R replace.oldVault replace.newVault replace.replacedAmount
  transferFunds R (.activeReplaceCollateral replace.oldVault)
    (.freeBalance replace.newVault.accountId) (replace.griefingAmount R)
  -- release the collateral that the new vault locked for this request, if it can spare it
  if ← read (isVaultLiquidated replace.newVault) then
    pure ()
  else if ← read (isAllowedToWithdrawCollateral R replace.newVault replace.collateralAmount) then
    forceWithdrawCollateral R replace.newVault replace.collateralAmount
  setReplaceStatus replaceId .cancelled

/-! ## Configuration -/

def setReplacePeriod (period : Nat) : ChainM B Unit := do
  ensureRoot origin
  modify (Chain.mapReplace fun st => { st with replacePeriod := period })

def minimumTransferAmountUpdate (newMinimumAmount : Nat) : ChainM B Unit := do
  ensureRoot origin
  modify (Chain.mapReplace fun st => { st with replaceMinimumTransferAmount := newMinimumAmount })

end Spacewalk.Replace
