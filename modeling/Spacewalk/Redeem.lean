import Spacewalk.VaultRegistry.Calls

/-!
# The redeem pallet

A user locks wrapped tokens, a vault pays the user on the Stellar network, and the tokens are
burned when the payment is proved (`pallets/redeem/src/lib.rs`).  If the vault does not pay in
time, the user is compensated from its collateral and either gives up the tokens or keeps
them.
-/

namespace Spacewalk.Redeem

open Foundation VaultRegistry Function
open Stellar (Bytes)

variable {B : Type} (R : Runtime B)

/-- A failure of the redeem pallet. -/
abbrev redeemErr (e : RedeemError) : DispatchError := .redeem e

variable (origin : Origin) (redeemer : AccountId) (redeemId : H256) (reimburse : Bool)
  (r : RedeemRequest) (vaultId : VaultId)

namespace RedeemRequest

/-- The amount that the vault pays. -/
def paidAmount : Amount := ⟨r.amount, r.asset⟩

def feeAmount : Amount := ⟨r.fee, r.asset⟩

def premiumAmount : Amount := ⟨r.premium, r.vault.collateralCurrency⟩

def transferFeeAmount : Amount := ⟨r.transferFee, r.asset⟩

end RedeemRequest

/-- The storage values of the rate limit. -/
def rateLimitL : Lens (Chain B) RateLimit where
  get s := s.redeem.rateLimit
  put s l := { s with redeem := { s.redeem with rateLimit := l } }

/-! ## Stored requests -/

def insertRedeemRequest (request : RedeemRequest) : ChainM B Unit :=
  modify (Chain.mapRedeem fun st => { st with
    redeemRequests := update st.redeemRequests redeemId (some request) })

/-- Set the status of a request if it exists. -/
def setRedeemStatus (status : RedeemRequestStatus) : ChainM B Unit :=
  modify (Chain.mapRedeem fun st => { st with
    redeemRequests := update st.redeemRequests redeemId
      ((st.redeemRequests redeemId).map fun request => { request with status := status }) })

/-- Write or remove the amount that the vault can mint for a cancelled request. -/
def setCancelledRedeemAmount (value : Option (Nat × CurrencyId)) : ChainM B Unit :=
  modify (Chain.mapRedeem fun st => { st with
    cancelledRedeemAmount := update st.cancelledRedeemAmount redeemId value })

/-- A request that is pending. -/
def getOpenRedeemRequestFromId : ChainR B RedeemRequest := fun s => do
  let request ← okOr (s.redeem.redeemRequests redeemId) (redeemErr .redeemIdNotFound)
  match request.status with
  | .pending => return request
  | .completed => throw (redeemErr .redeemCompleted)
  | .reimbursed _ | .retried => throw (redeemErr .redeemCancelled)

/-- The fee for the inclusion of a payment; there is none. -/
def getCurrentInclusionFee (wrappedCurrency : CurrencyId) : Amount := ⟨0, wrappedCurrency⟩

/-- Redeemed tokens need not be replaced any more: release the replace collateral. -/
def releaseReplaceCollateral (burnedTokens : Amount) : ChainM B Unit := do
  let (_, griefingCollateral) ← decreaseToBeReplacedTokens R vaultId burnedTokens
  if griefingCollateral.isZero then
    return ()
  else
    transferFunds R (.availableReplaceCollateral vaultId) (.freeBalance vaultId.accountId)
      griefingCollateral

/-! ## Requests -/

/-- The fee of a request.  A vault pays none to redeem with itself. -/
def requestFee (amountWrapped : Amount) :
    ChainR B Amount := fun s =>
  if redeemer = vaultId.accountId then return Amount.zero vaultId.wrappedCurrency
  else Fee.getRedeemFee amountWrapped s

/-- The premium of a request, if the vault is below the premium threshold. -/
def requestPremium (userToBeReceived : Amount) : ChainR B Amount := fun s => do
  if ← isVaultBelowPremiumThreshold R vaultId s then
    let inCollateral ← userToBeReceived.convertTo R vaultId.collateralCurrency s
    Fee.getPremiumRedeemFee inCollateral s
  else return Amount.zero vaultId.collateralCurrency

variable (redeem : RedeemRequest) (currencyPair : VaultCurrencyPair)
  (vaultToBeBurnedTokens : Amount) (amountWrapped : Nat)

def requestRedeem (stellarAddress : StellarPublicKeyRaw) (vaultId : VaultId) : ChainM B Unit := do
  let redeemer ← ensureSigned origin
  let amountWrapped : Amount := ⟨amountWrapped, vaultId.wrappedCurrency⟩
  amountWrapped.ensureIsCompatibleWithTargetChain
  RateLimit.checkVolume R rateLimitL (redeemErr .exceedLimitVolumeForRedeemRequest) amountWrapped
  read Security.ensureParachainStatusRunning
  let redeemerBalance := Currency.getFreeBalance R vaultId.wrappedCurrency redeemer (← get)
  ensure ((← amountWrapped.le redeemerBalance) = true) (redeemErr .amountExceedsUserBalance)
  let feeWrapped ← read (requestFee redeemer vaultId amountWrapped)
  let inclusionFee := getCurrentInclusionFee vaultId.wrappedCurrency
  let feeWrapped ← feeWrapped.roundToTargetChain
  let vaultToBeBurnedTokens ← amountWrapped.checkedSub feeWrapped
  let userToBeReceivedStellarAsset ← withError (redeemErr .amountBelowMinimumTransferAmount)
    (vaultToBeBurnedTokens.checkedSub inclusionFee)
  read (ensureNotBanned vaultId)
  let minimum : Amount := ⟨(← get).redeem.redeemMinimumTransferAmount, vaultId.wrappedCurrency⟩
  ensure ((← userToBeReceivedStellarAsset.ge minimum) = true)
    (redeemErr .amountBelowMinimumTransferAmount)
  tryIncreaseToBeRedeemedTokens vaultId vaultToBeBurnedTokens
  amountWrapped.lockOn R redeemer
  let redeemId ← Security.getSecureId R
  let premiumCollateral ← read (requestPremium R vaultId userToBeReceivedStellarAsset)
  releaseReplaceCollateral R vaultId vaultToBeBurnedTokens
  let s ← get
  insertRedeemRequest redeemId
    { vault := vaultId
      opentime := Security.activeBlockNumber s
      period := s.redeem.redeemPeriod
      fee := feeWrapped.amount
      transferFee := inclusionFee.amount
      amount := userToBeReceivedStellarAsset.amount
      asset := userToBeReceivedStellarAsset.currencyId
      premium := premiumCollateral.amount
      redeemer := redeemer
      stellarAddress := stellarAddress
      status := .pending }

/-- `liquidation_redeem`: redeem tokens for collateral of the liquidation vault. -/
def liquidationRedeem (currencies : VaultCurrencyPair) (amountWrapped : Nat) : ChainM B Unit := do
  let redeemer ← ensureSigned origin
  let amountWrapped : Amount := ⟨amountWrapped, currencies.wrapped⟩
  let redeemerBalance := Currency.getFreeBalance R currencies.wrapped redeemer (← get)
  ensure ((← amountWrapped.le redeemerBalance) = true) (redeemErr .amountExceedsUserBalance)
  amountWrapped.lockOn R redeemer
  amountWrapped.burnFrom R redeemer
  redeemTokensLiquidation R currencies.collateral redeemer amountWrapped

/-! ## Execution -/

/-- Send the fee of a request to the fee pool. -/
def collectFee : ChainM B Unit := do
  redeem.feeAmount.unlockOn R redeem.redeemer
  redeem.feeAmount.transfer R redeem.redeemer R.feePoolAccountId
  Fee.distributeRewards R redeem.feeAmount

def executeRedeem
    (transactionEnvelopeXdrEncoded externalizedEnvelopesEncoded transactionSetEncoded : Bytes) :
    ChainM B Unit := do
  let _ ← ensureSigned origin
  let redeem ← read (getOpenRedeemRequestFromId redeemId)
  let transactionEnvelope ← read (StellarRelay.validatePayment R redeemId
    transactionEnvelopeXdrEncoded externalizedEnvelopesEncoded transactionSetEncoded)
  let paidAmount ← Currency.getAmountFromTransactionEnvelope transactionEnvelope
    redeem.stellarAddress redeem.asset
  ensure ((← paidAmount.ge redeem.paidAmount) = true) (redeemErr .invalidPaymentAmount)
  let burnAmount ← redeem.paidAmount.checkedAdd redeem.transferFeeAmount
  burnAmount.burnFrom R redeem.redeemer
  RateLimit.increaseIntervalVolume R rateLimitL burnAmount
  collectFee R redeem
  redeemTokens R redeem.vault burnAmount redeem.premiumAmount redeem.redeemer
  setRedeemStatus redeemId .completed

/-! ## Cancellation -/

/-- Confiscate the part of the liquidated collateral that was kept for a request. -/
def confiscateLiquidated (vaultToBeRedeemedTokens : Amount) : ChainM B Unit := do
  let confiscatedCollateral ← calculateCollateral (← read (getLiquidatedCollateral vaultId))
    vaultToBeBurnedTokens vaultToBeRedeemedTokens
  let slashingDestination : CurrencySource :=
    if reimburse then .freeBalance redeemer else .liquidationVault vaultId.currencies
  decreaseLiquidatedCollateral vaultId confiscatedCollateral
  transferFunds R (.liquidatedCollateral vaultId) slashingDestination confiscatedCollateral

/-- Slash the collateral of an active vault: the punishment fee, and the value of the tokens if
the user is reimbursed.  The vault is banned. -/
def slashActive (amountWrappedInCollateral : Amount) : ChainM B Unit := do
  let punishmentFeeInCollateral ← read (Fee.getPunishmentFee amountWrappedInCollateral)
  let amountToSlash ←
    if reimburse then amountWrappedInCollateral.checkedAdd punishmentFeeInCollateral
    else pure punishmentFeeInCollateral
  let transferredAmount ← transferFundsSaturated R (.collateral vaultId) (.freeBalance redeemer)
    amountToSlash
  let retrievableAmountInCollateral ← transferredAmount.saturatingSub punishmentFeeInCollateral
  let retrievableAmountInWrapped ←
    read (retrievableAmountInCollateral.convertTo R vaultId.wrappedCurrency)
  setCancelledRedeemAmount redeemId
    (some (retrievableAmountInWrapped.amount, retrievableAmountInWrapped.currencyId))
  -- the result is ignored; if the ban fails, it fails before it writes
  let _ ← attempt (banVault vaultId)

/-- What happens to the tokens of a cancelled request. -/
def settleTokens : ChainM B Unit := do
  if reimburse then
    collectFee R redeem
    if ← read (isVaultBelowSecureThreshold R redeem.vault) then
      -- the vault cannot back the tokens that it would receive
      vaultToBeBurnedTokens.burnFrom R redeem.redeemer
      decreaseTokens redeem.vault vaultToBeBurnedTokens
      setRedeemStatus redeemId (.reimbursed false)
    else
      vaultToBeBurnedTokens.unlockOn R redeem.redeemer
      vaultToBeBurnedTokens.transfer R redeem.redeemer redeem.vault.accountId
      decreaseToBeRedeemedTokens redeem.vault vaultToBeBurnedTokens
      setRedeemStatus redeemId (.reimbursed true)
  else
    let totalWrapped ←
      (← redeem.paidAmount.checkedAdd redeem.feeAmount).checkedAdd redeem.transferFeeAmount
    totalWrapped.unlockOn R redeem.redeemer
    decreaseToBeRedeemedTokens redeem.vault vaultToBeBurnedTokens
    setRedeemStatus redeemId .retried

def cancelRedeem : ChainM B Unit := do
  let redeemer ← ensureSigned origin
  read Security.ensureParachainStatusRunning
  let redeem ← read (getOpenRedeemRequestFromId redeemId)
  ensure (redeemer = redeem.redeemer) (redeemErr .unauthorizedRedeemer)
  let period := max (← get).redeem.redeemPeriod redeem.period
  ensure ((← read (Security.parachainBlockExpired redeem.opentime period)) = true)
    (redeemErr .timeNotExpired)
  let vault ← read (getVaultFromId redeem.vault)
  let vaultToBeRedeemedTokens : Amount :=
    ⟨vault.toBeRedeemedTokens, redeem.vault.wrappedCurrency⟩
  let vaultToBeBurnedTokens ← redeem.paidAmount.checkedAdd redeem.transferFeeAmount
  let amountWrappedInCollateral ←
    read (vaultToBeBurnedTokens.convertTo R redeem.vault.collateralCurrency)
  if vault.isLiquidated then
    confiscateLiquidated R redeemer reimburse redeem.vault vaultToBeBurnedTokens
      vaultToBeRedeemedTokens
  else
    slashActive R redeemer redeemId reimburse redeem.vault amountWrappedInCollateral
  settleTokens R redeemId reimburse redeem vaultToBeBurnedTokens

/-- The amount to mint for a reimbursed request: what was stored at its cancellation, or all. -/
def getReimbursedAmount (cancelledAmount : Option (Nat × CurrencyId)) (redeemedAmount : Amount) :
    Amount :=
  match cancelledAmount with
  | some (amount, currencyId) => ⟨amount, currencyId⟩
  | none => redeemedAmount

/-- `mint_tokens_for_reimbursed_redeem`: the vault gets tokens for a reimbursed request whose
tokens were burned. -/
def mintTokensForReimbursedRedeem (redeemId : H256) : ChainM B Unit := do
  let accountId ← ensureSigned origin
  let vaultId : VaultId := ⟨accountId, currencyPair⟩
  read Security.ensureParachainStatusRunning
  let redeem ← okOr ((← get).redeem.redeemRequests redeemId) (redeemErr .redeemIdNotFound)
  ensure (redeem.status = .reimbursed false) (redeemErr .redeemCancelled)
  ensure (redeem.vault = vaultId) (redeemErr .unauthorizedVault)
  let cancelledAmount := (← get).redeem.cancelledRedeemAmount redeemId
  setCancelledRedeemAmount redeemId none
  let redeemedAmount ← redeem.paidAmount.checkedAdd redeem.transferFeeAmount
  let reimbursedAmount := getReimbursedAmount cancelledAmount redeemedAmount
  tryIncreaseToBeIssuedTokens R vaultId reimbursedAmount
  issueTokens vaultId reimbursedAmount
  reimbursedAmount.mintTo R vaultId.accountId
  setRedeemStatus redeemId (.reimbursed true)

/-! ## Self redeem -/

/-- The fees and the tokens that the vault consumes; redeeming everything is free. -/
def calculateTokenAmounts (requestedRedeemAmount : Amount) :
    ChainR B (Amount × Amount) := fun s => do
  let redeemableTokens ← getFreeRedeemableTokens vaultId s
  let fees ←
    if ← redeemableTokens.eq requestedRedeemAmount then pure (Amount.zero vaultId.wrappedCurrency)
    else Fee.getRedeemFee requestedRedeemAmount s
  let consumedIssuedTokens ← requestedRedeemAmount.checkedSub fees
  return (fees, consumedIssuedTokens)

/-- `self_redeem`: a vault burns tokens of its own account. -/
def selfRedeem : ChainM B Unit := do
  let accountId ← ensureSigned origin
  let vaultId : VaultId := ⟨accountId, currencyPair⟩
  let amountWrapped : Amount := ⟨amountWrapped, vaultId.wrappedCurrency⟩
  read (ensureNotBanned vaultId)
  ensure (amountWrapped.isZero = false) (redeemErr .amountBelowMinimumTransferAmount)
  let (fees, consumedIssuedTokens) ← read (calculateTokenAmounts vaultId amountWrapped)
  withError (redeemErr .amountExceedsUserBalance)
    (consumedIssuedTokens.lockOn R vaultId.accountId)
  consumedIssuedTokens.burnFrom R vaultId.accountId
  withError (redeemErr .amountExceedsUserBalance)
    (fees.transfer R vaultId.accountId R.feePoolAccountId)
  Fee.distributeRewards R fees
  tryIncreaseToBeRedeemedTokens vaultId consumedIssuedTokens
  redeemTokens R vaultId consumedIssuedTokens (Amount.zero vaultId.collateralCurrency)
    vaultId.accountId
  releaseReplaceCollateral R vaultId consumedIssuedTokens

/-! ## Configuration -/

def setRedeemPeriod (period : Nat) : ChainM B Unit := do
  ensureRoot origin
  modify (Chain.mapRedeem fun st => { st with redeemPeriod := period })

def rateLimitUpdate (limitVolumeAmount : Option Nat) (limitVolumeCurrencyId : CurrencyId)
    (intervalLength : Nat) : ChainM B Unit := do
  ensureRoot origin
  modify (Chain.mapRedeem fun st => { st with rateLimit := { st.rateLimit with
    limitVolumeAmount := limitVolumeAmount
    limitVolumeCurrencyId := limitVolumeCurrencyId
    intervalLength := intervalLength } })

def minimumTransferAmountUpdate (newMinimumAmount : Nat) : ChainM B Unit := do
  ensureRoot origin
  modify (Chain.mapRedeem fun st => { st with redeemMinimumTransferAmount := newMinimumAmount })

end Spacewalk.Redeem
