import Spacewalk.VaultRegistry.Calls

/-!
# The issue pallet

A user requests to issue wrapped tokens with a vault, pays the vault on the Stellar network,
and gets the tokens when the payment is proved (`pallets/issue/src/lib.rs`).  The griefing
collateral of a request that is not executed in time goes to the vault.
-/

namespace Spacewalk.Issue

open Foundation VaultRegistry Function
open Stellar (Bytes)

variable {B : Type} (R : Runtime B)

/-- A failure of the issue pallet. -/
abbrev issueErr (e : IssueError) : DispatchError := .issue e

variable (issueId : H256) (issue r : IssueRequest) (origin : Origin)

namespace IssueRequest

def userAmount : Amount := ⟨r.amount, r.asset⟩

def feeAmount : Amount := ⟨r.fee, r.asset⟩

def griefingAmount : Amount :=
  ⟨r.griefingCollateral, R.getGriefingCollateralCurrencyId⟩

end IssueRequest

/-- The storage values of the rate limit. -/
def rateLimitL : Lens (Chain B) RateLimit where
  get s := s.issue.rateLimit
  put s l := { s with issue := { s.issue with rateLimit := l } }

/-! ## Stored requests -/

def insertIssueRequest (request : IssueRequest) : ChainM B Unit :=
  modify (Chain.mapIssue fun st => { st with
    issueRequests := update st.issueRequests issueId (some request) })

/-- Change a request if it exists. -/
def mutateIssueRequest (f : IssueRequest → IssueRequest) : ChainM B Unit :=
  modify (Chain.mapIssue fun st => { st with
    issueRequests := update st.issueRequests issueId
      ((st.issueRequests issueId).map f) })

def setIssueStatus (status : IssueRequestStatus) : ChainM B Unit :=
  mutateIssueRequest issueId fun request => { request with status := status }

/-- A request that can be executed.  A cancelled request can be, as long as the vault accepts new
issue requests. -/
def getExecutableIssueRequestFromId : ChainR B IssueRequest := fun s => do
  let request ← okOr (s.issue.issueRequests issueId) (issueErr .issueIdNotFound)
  match request.status with
  | .completed => throw (issueErr .issueCompleted)
  | .cancelled =>
    ensureAcceptingNewIssues request.vault s
    return request
  | .pending => return request

def getPendingIssue : ChainR B IssueRequest := fun s => do
  let request ← okOr (s.issue.issueRequests issueId) (issueErr .issueIdNotFound)
  match request.status with
  | .completed => throw (issueErr .issueCompleted)
  | .cancelled => throw (issueErr .issueCancelled)
  | .pending => return request

/-- Adapt amount and fee of a request to the amount that was transferred.  The stored request
keeps its fee; the copy that is returned has the new one. -/
def setIssueAmount (transferredAmount : Amount) : ChainM B IssueRequest := do
  let fee ← read (Fee.getIssueFee transferredAmount)
  let issue := { issue with fee := fee.amount }
  let amount ← transferredAmount.checkedSub issue.feeAmount
  let issue := { issue with amount := amount.amount }
  mutateIssueRequest issueId fun request => { request with amount := issue.amount }
  return issue

/-! ## Requests -/

def requestIssue (amount : Nat) (vaultId : VaultId) : ChainM B Unit := do
  let requester ← ensureSigned origin
  let amountRequested : Amount := ⟨amount, vaultId.wrappedCurrency⟩
  amountRequested.ensureIsCompatibleWithTargetChain
  RateLimit.checkVolume R rateLimitL (issueErr .exceedLimitVolumeForIssueRequest) amountRequested
  let vault ← read (getActiveVaultFromId vaultId)
  ensure (vault.status = .active true) (issueErr .vaultNotAcceptingNewIssues)
  read (ensureNotBanned vaultId)
  let amountCollateral ← read (amountRequested.convertTo R R.getGriefingCollateralCurrencyId)
  let griefing ← read (Fee.getIssueGriefingCollateral amountCollateral)
  let griefingCollateral : Amount := ⟨griefing.amount, R.getGriefingCollateralCurrencyId⟩
  griefingCollateral.lockOn R requester
  let minimum : Amount := ⟨(← get).issue.issueMinimumTransferAmount, vaultId.wrappedCurrency⟩
  ensure ((← amountRequested.ge minimum) = true) (issueErr .amountBelowMinimumTransferAmount)
  tryIncreaseToBeIssuedTokens R vaultId amountRequested
  let fee ← read (Fee.getIssueFee amountRequested)
  let fee ← fee.roundToTargetChain
  let amountUser ← amountRequested.checkedSub fee
  let issueId ← Security.getSecureId R
  let stellarPublicKey ← read (getStellarPublicKey vaultId.accountId)
  let s ← get
  insertIssueRequest issueId
    { vault := vaultId
      opentime := Security.activeBlockNumber s
      period := s.issue.issuePeriod
      griefingCollateral := griefingCollateral.amount
      amount := amountUser.amount
      asset := amountUser.currencyId
      fee := fee.amount
      requester := requester
      stellarAddress := stellarPublicKey
      status := .pending }

/-! ## Execution -/

/-- Less was transferred than requested: the tokens to be issued and the griefing collateral are
reduced.  Returns the griefing collateral to release. -/
def decreaseIssueAmount (amountTransferred expectedTotalAmount : Amount) :
    ChainM B (Amount × IssueRequest) := do
  let deficit ← expectedTotalAmount.checkedSub amountTransferred
  decreaseToBeIssuedTokens issue.vault deficit
  let toReleaseCollateral ← calculateCollateral (issue.griefingAmount R) amountTransferred
    expectedTotalAmount
  let slashedCollateral ← (issue.griefingAmount R).checkedSub toReleaseCollateral
  transferFunds R (.userGriefing issue.requester) (.freeBalance issue.vault.accountId)
    slashedCollateral
  let issue ← setIssueAmount issueId issue amountTransferred
  return (toReleaseCollateral, issue)

/-- More was transferred than requested: as much of the surplus is issued as the vault can back. -/
def tryIncreaseIssueAmount (amountTransferred expectedTotalAmount : Amount) :
    ChainM B IssueRequest := do
  let surplusAmount ← amountTransferred.checkedSub expectedTotalAmount
  let maxAllowed ← read (getIssuableTokensFromVault R issue.vault)
  let issueAmount ← surplusAmount.min maxAllowed
  -- if this fails, it fails before it writes
  match ← attempt (tryIncreaseToBeIssuedTokens R issue.vault issueAmount) with
  | some _ => setIssueAmount issueId issue (← expectedTotalAmount.checkedAdd issueAmount)
  | none => return issue

/-- The amount to be issued and the griefing collateral, for the amount that was transferred. -/
def handleIssueRequests (executor : AccountId) (issueId : H256) (issue : IssueRequest)
    (amountTransferred : Amount) : ChainM B IssueRequest := do
  let requester := issue.requester
  let expectedTotalAmount ← issue.userAmount.checkedAdd issue.feeAmount
  match issue.status with
  | .completed => throw (issueErr .issueCompleted)
  | .cancelled =>
    tryIncreaseToBeIssuedTokens R issue.vault amountTransferred
    if ← amountTransferred.lt expectedTotalAmount then
      ensure (requester = executor) (issueErr .invalidExecutor)
    if ← amountTransferred.ne expectedTotalAmount then
      setIssueAmount issueId issue amountTransferred
    else return issue
  | .pending =>
    if ← amountTransferred.lt expectedTotalAmount then
      ensure (requester = executor) (issueErr .invalidExecutor)
      let (toRelease, issue) ←
        decreaseIssueAmount R issueId issue amountTransferred expectedTotalAmount
      toRelease.unlockOn R requester
      return issue
    else
      let issue ←
        if ← amountTransferred.gt expectedTotalAmount then
          if ← read (isVaultLiquidated issue.vault) then pure issue
          else tryIncreaseIssueAmount R issueId issue amountTransferred expectedTotalAmount
        else pure issue
      (issue.griefingAmount R).unlockOn R requester
      return issue

def executeIssue (issueId : H256)
    (transactionEnvelopeXdrEncoded externalizedEnvelopesEncoded transactionSetEncoded : Bytes) :
    ChainM B Unit := do
  let executor ← ensureSigned origin
  let issue ← read (getExecutableIssueRequestFromId issueId)
  let requester := issue.requester
  let transactionEnvelope ← read (StellarRelay.validatePayment R issueId
    transactionEnvelopeXdrEncoded externalizedEnvelopesEncoded transactionSetEncoded)
  let amountTransferred ← Currency.getAmountFromTransactionEnvelope transactionEnvelope
    issue.stellarAddress issue.asset
  let issue ← handleIssueRequests R executor issueId issue amountTransferred
  let total ← issue.userAmount.checkedAdd issue.feeAmount
  issueTokens issue.vault total
  issue.userAmount.mintTo R requester
  RateLimit.increaseIntervalVolume R rateLimitL issue.userAmount
  issue.feeAmount.mintTo R R.feePoolAccountId
  Fee.distributeRewards R issue.feeAmount
  setIssueStatus issueId .completed

/-! ## Cancellation -/

/-- The griefing collateral to slash: all of it after the request has expired; before, only the
requester can cancel and loses a part in proportion to the time. -/
def griefingToSlash (requester : AccountId) (issue : IssueRequest) : ChainM B Amount := do
  let issuePeriod := max (← get).issue.issuePeriod issue.period
  if ← read (Security.parachainBlockExpired issue.opentime issuePeriod) then
    return issue.griefingAmount R
  else if issue.requester = requester then
    let blocksElapsed := Security.activeBlockNumber (← get) - issue.opentime
    let griefingCollateral := issue.griefingAmount R
    let slashed ← calculateCollateral griefingCollateral
      ⟨blocksElapsed, griefingCollateral.currencyId⟩ ⟨issuePeriod, griefingCollateral.currencyId⟩
    let slashedCollateral ← slashed.min griefingCollateral
    let releasedCollateral ← griefingCollateral.saturatingSub slashedCollateral
    releasedCollateral.unlockOn R requester
    return slashedCollateral
  else
    throw (issueErr .timeNotExpired)

def cancelIssue (issueId : H256) : ChainM B Unit := do
  let requester ← ensureSigned origin
  let issue ← read (getPendingIssue issueId)
  let toBeSlashedCollateral ← griefingToSlash R requester issue
  if ← read (isVaultLiquidated issue.vault) then
    toBeSlashedCollateral.unlockOn R issue.requester
  else
    transferFunds R (.userGriefing issue.requester) (.freeBalance issue.vault.accountId)
      toBeSlashedCollateral
  let fullAmount ← issue.userAmount.checkedAdd issue.feeAmount
  decreaseToBeIssuedTokens issue.vault fullAmount
  setIssueStatus issueId .cancelled

/-! ## Configuration -/

def setIssuePeriod (period : Nat) : ChainM B Unit := do
  ensureRoot origin
  modify (Chain.mapIssue fun st => { st with issuePeriod := period })

def rateLimitUpdate (limitVolumeAmount : Option Nat) (limitVolumeCurrencyId : CurrencyId)
    (intervalLength : Nat) : ChainM B Unit := do
  ensureRoot origin
  modify (Chain.mapIssue fun st => { st with rateLimit := { st.rateLimit with
    limitVolumeAmount := limitVolumeAmount
    limitVolumeCurrencyId := limitVolumeCurrencyId
    intervalLength := intervalLength } })

def minimumTransferAmountUpdate (newMinimumAmount : Nat) : ChainM B Unit := do
  ensureRoot origin
  modify (Chain.mapIssue fun st => { st with issueMinimumTransferAmount := newMinimumAmount })

end Spacewalk.Issue
