import Spacewalk.Runtime.Chain

/-!
# Services of the small pallets

What the bridge pallets use from the security, currency, oracle, fee and reward distribution
pallets: block heights and request identifiers, movements of tokens, conversions at the
oracle's prices, fees, and the distribution of rewards over the pools.
-/

namespace Spacewalk

open Foundation
open DispatchError (overflow underflow)

variable {B : Type} (R : Runtime B)

/-! ## Security (`pallets/security/src/lib.rs`) -/

namespace Security

/-- Fail unless the parachain is running. -/
def ensureParachainStatusRunning : ChainR B Unit := fun s =>
  ensure (s.security.parachainStatus = .running) .parachainNotRunning

/-- The number of blocks in which the parachain was running. -/
def activeBlockNumber (s : Chain B) : Nat := s.security.activeBlockCount

/-- More than `period` active blocks have passed since `opentime`. -/
def parachainBlockExpired (opentime period : Nat) : ChainR B Bool := fun s => do
  ensure (opentime + period < nonceBound) overflow
  return decide (activeBlockNumber s > opentime + period)

/-- The request identifier that is drawn next. -/
def nextId (s : Chain B) : H256 :=
  R.secureHash s.system.extrinsicIndex (s.security.nonce + 1) s.system.parentHash

/-- Draw a request identifier. -/
def getSecureId : ChainM B H256 := do
  modify fun s => { s with security := { s.security with nonce := s.security.nonce + 1 } }
  let s ← get
  return R.secureHash s.system.extrinsicIndex s.security.nonce s.system.parentHash

end Security

/-! ## Movements of tokens (`pallets/currency/src/amount.rs`) -/

variable (a amount : Amount) (currencyId : CurrencyId) (accountId : AccountId)

namespace Amount

/-- Move free balance. -/
def transfer (source destination : AccountId) : ChainM B Unit :=
  zoom Chain.tokensL (R.tokens.transfer a.currencyId source destination a.amount)

/-- Reserve free balance. -/
def lockOn : ChainM B Unit :=
  zoom Chain.tokensL (R.tokens.reserve a.currencyId accountId a.amount)

/-- Release reserved balance; all of the amount must have been reserved. -/
def unlockOn : ChainM B Unit := do
  let s ← get
  let (remainder, tokens) := R.tokens.unreserve a.currencyId accountId a.amount s.tokens
  set { s with tokens := tokens }
  ensure (remainder = 0) DispatchError.balanceTooLow

/-- Burn reserved balance; all of the amount must have been reserved. -/
def burnFrom : ChainM B Unit := do
  let s ← get
  let (remainder, tokens) := R.tokens.slashReserved a.currencyId accountId a.amount s.tokens
  set { s with tokens := tokens }
  ensure (remainder = 0) DispatchError.balanceTooLow

/-- Create free balance. -/
def mintTo : ChainM B Unit :=
  zoom Chain.tokensL (R.tokens.deposit a.currencyId accountId a.amount)

end Amount

/-! ## Payments on the Stellar network (`pallets/currency/src/lib.rs`) -/

namespace Currency

open Stellar

/-- `AssetConversion::lookup`: the Stellar asset of a currency. -/
def assetConversionLookup : CurrencyId → Option StellarAsset
  | .stellar .stellarNative => some .assetTypeNative
  | .stellar (.alphaNum4 code issuer) => some (.assetTypeCreditAlphanum4 code issuer)
  | .stellar (.alphaNum12 code issuer) => some (.assetTypeCreditAlphanum12 code issuer)
  | _ => none

def txOperations : TransactionEnvelope → List OperationBody
  | .envelopeTypeTxV0 tx _ => tx.operations
  | .envelopeTypeTx tx _ => tx.operations
  | _ => []

/-- The sum of two amounts of stroops, saturated to the range of `i64`. -/
def saturatingAddStroops (x y : Int) : Int := max (-2 ^ 63) (min (2 ^ 63 - 1) (x + y))

/-- The stroops that an operation transfers to the recipient.  A claimable balance counts only
if the recipient is its only claimant, without a condition. -/
def transferredStroops (recipient : BitVec 256) (asset : StellarAsset) : OperationBody → Option Int
  | .payment destination paidAsset amount =>
    if destination = .keyTypeEd25519 recipient ∧ paidAsset = asset then some amount.toInt else none
  | .createClaimableBalance paidAsset amount [claimant] =>
    if claimant.destination = recipient ∧ paidAsset = asset ∧
        claimant.predicate = .claimPredicateUnconditional then some amount.toInt
    else none
  | _ => none

/-- `BalanceConversion::unlookup`: stroops as a balance; a negative number counts as zero. -/
def balanceConversionUnlookup (stroops : Int) : Nat :=
  min (stroops.toNat * decimalsConversionRate) (balanceBound - 1)

/-- The amount of a currency that a transaction transfers to the recipient. -/
def getAmountFromTransactionEnvelope (transactionEnvelope : TransactionEnvelope)
    (recipientStellarAddress : StellarPublicKeyRaw) (currency : CurrencyId) :
    Except DispatchError Amount := do
  let asset ← okOr (assetConversionLookup currency) (currencyErr .assetConversionError)
  let transferred := (txOperations transactionEnvelope).foldl (fun sum operation =>
    match transferredStroops recipientStellarAddress.bytes asset operation with
    | some amount => saturatingAddStroops sum amount
    | none => sum) 0
  return ⟨balanceConversionUnlookup transferred, currency⟩

def getFreeBalance (account : AccountId) (s : Chain B) : Amount :=
  ⟨R.tokens.freeBalance s.tokens currencyId account, currencyId⟩

def getReservedBalance (account : AccountId) (s : Chain B) : Amount :=
  ⟨R.tokens.reservedBalance s.tokens currencyId account, currencyId⟩

end Currency

/-! ## Prices (`pallets/oracle/src/lib.rs`) -/

namespace Oracle

def usdDecimals : Nat := 12

/-- The price of a currency; there is none while the parachain is not running. -/
def getPrice : ChainR B UnsignedFixedPoint := fun s => do
  Security.ensureParachainStatusRunning s
  okOr (s.oracle.prices currencyId) (.oracle .missingExchangeRate)

/-- Convert an amount from one price and number of decimals to another. -/
def convertAmount (fromAmount : Nat) (fromPrice toPrice : UnsignedFixedPoint)
    (fromDecimals toDecimals : Nat) : Except DispatchError Nat := do
  if fromAmount = 0 then
    return 0
  let fromAmount ← okOr (FixedPoint.ofInner? unsignedFormat fromAmount) overflow
  if fromDecimals > toDecimals then
    let value ← okOr (fromPrice.checkedMul fromAmount) overflow
    let value ← okOr (value.checkedDiv toPrice) underflow
    let scale ← okOr (FixedPoint.checkedFromInteger unsignedFormat
      (10 ^ (fromDecimals - toDecimals))) (.oracle .tryIntoIntError)
    let value ← okOr (value.checkedDiv scale) underflow
    return value.inner.toNat
  else
    let value ← okOr (fromPrice.checkedMul fromAmount) overflow
    let scale ← okOr (FixedPoint.checkedFromInteger unsignedFormat
      (10 ^ (toDecimals - fromDecimals))) (.oracle .tryIntoIntError)
    let value ← okOr (value.checkedMul scale) overflow
    let value ← okOr (value.checkedDiv toPrice) underflow
    return value.inner.toNat

/-- Convert an amount to another currency. -/
def convert : ChainR B Amount := fun s => do
  if amount.currencyId = currencyId then
    return ⟨amount.amount, currencyId⟩
  let fromPrice ← getPrice amount.currencyId s
  let toPrice ← getPrice currencyId s
  let converted ← convertAmount amount.amount fromPrice toPrice (R.decimals amount.currencyId)
    (R.decimals currencyId)
  return ⟨converted, currencyId⟩

/-- The value of an amount in USD. -/
def currencyToUsd (amount : Nat) (currencyId : CurrencyId) : ChainR B Nat := fun s => do
  let assetRate ← getPrice currencyId s
  let usdRate ← okOr (FixedPoint.checkedFromInteger unsignedFormat 1) (.oracle .tryIntoIntError)
  convertAmount amount assetRate usdRate (R.decimals currencyId) usdDecimals

/-- The amount of a currency that is worth an amount of USD. -/
def usdToCurrency (amount : Nat) (currencyId : CurrencyId) : ChainR B Nat := fun s => do
  let assetRate ← getPrice currencyId s
  let usdRate ← okOr (FixedPoint.checkedFromInteger unsignedFormat 1) (.oracle .tryIntoIntError)
  convertAmount amount usdRate assetRate usdDecimals (R.decimals currencyId)

end Oracle

/-- Convert an amount to another currency at the prices of the oracle. -/
def Amount.convertTo : ChainR B Amount :=
  Oracle.convert R a currencyId

/-! ## Distribution of rewards (`pallets/reward-distribution/src/lib.rs`) -/

namespace RewardDistribution

/-- The value of the stake of every pool in USD, and their sum; an overflow of the sum panics. -/
def stakesInUsd (totalStakes : List (CurrencyId × Nat)) : ChainR B (Nat × List Nat) := fun s =>
  totalStakes.foldlM (fun (total, stakes) (currencyId, stake) => do
    let stakeInUsd ← Oracle.currencyToUsd R stake currencyId s
    ensure (total + stakeInUsd < balanceBound) DispatchError.panic
    return (total + stakeInUsd, stakes ++ [stakeInUsd])) (0, [])

/-- Give a pool its part of the reward; returns the part that could not be given. -/
def distributeToPool (rewardCurrency poolId : CurrencyId) (rewardForPool : Nat) : ChainM B Nat := do
  let s ← get
  let (result, pooledRewards) := (PooledRewards.Api.distributeReward R.maxRewardCurrencies poolId
    rewardCurrency rewardForPool).run.run s.pooledRewards
  set { s with pooledRewards := pooledRewards }
  match result with
  | .ok _ => return 0
  | .error _ => return rewardForPool

/-- Distribute a reward over all pools, in proportion to their value in USD; returns what could
not be distributed. -/
def distributeRewards (rewardAmount : Nat) (rewardCurrency : CurrencyId) : ChainM B Nat := do
  let totalStakes ← PooledRewards.Api.getTotalStakeAllPools (← get).pooledRewards
  let (totalStakeInUsd, stakesInUsd) ← read (stakesInUsd R totalStakes)
  (totalStakes.zip stakesInUsd).foldlM (fun errorRewardAccum ((poolId, _), stakeInUsd) => do
    let rewardForPool := R.proportion stakeInUsd totalStakeInUsd rewardAmount
    let missed ← distributeToPool R rewardCurrency poolId rewardForPool
    ensure (errorRewardAccum + missed < balanceBound)
      (DispatchError.rewardDistribution .overflow)
    return errorRewardAccum + missed) 0

/-- Move the rewards of a vault from its reward pool to its stakers. -/
def withdrawAllRewardsFromVault (vaultId : VaultId) : ChainM B Unit := do
  forM (Staking.getAllRewardCurrencies R.staking (← get).staking) fun currencyId => do
    let reward ← zoom Chain.pooledRewardsL
      (PooledRewards.Api.withdrawReward vaultId.collateralCurrency vaultId currencyId)
    let _ ← zoom Chain.stakingL (Staking.Api.distributeReward vaultId reward currencyId)

/-- Pay a reward from the fee pool.  Native rewards that the fee pool cannot pay are minted, up to the
amount that is registered for it. -/
def transferReward (rewardCurrencyId : CurrencyId) (reward : Nat) (beneficiary : AccountId) :
    ChainM B Unit := do
  if rewardCurrencyId = R.staking.getNativeCurrencyId then
    let availableNativeFunds :=
      R.tokens.freeBalance (← get).tokens rewardCurrencyId R.feePoolAccountId
    if reward < availableNativeFunds then
      (⟨reward, rewardCurrencyId⟩ : Amount).transfer R R.feePoolAccountId beneficiary
    else
      let remaining := reward - availableNativeFunds
      let liability ← okOr (← get).rewardDistribution.nativeLiability
        (DispatchError.rewardDistribution .notEnoughRewardsRegistered)
      ensure (remaining ≤ liability) (DispatchError.rewardDistribution .notEnoughRewardsRegistered)
      (⟨availableNativeFunds, rewardCurrencyId⟩ : Amount).transfer R R.feePoolAccountId beneficiary
      -- the result of `deposit_creating` is dropped
      let _ ← attempt ((⟨remaining, rewardCurrencyId⟩ : Amount).mintTo R beneficiary)
      modify fun s => { s with rewardDistribution := ⟨some (liability - remaining)⟩ }
  else
    (⟨reward, rewardCurrencyId⟩ : Amount).transfer R R.feePoolAccountId beneficiary

/-- The part of `collectReward` that pays the caller from the rewards of the stakers. -/
def payCaller (caller : AccountId) (vaultId : VaultId) (rewardCurrencyId : CurrencyId)
    (index : Option Nonce) : ChainM B Unit := do
  let minimumTransferAmount := R.existentialDeposits rewardCurrencyId
  let expectedRewards ←
    Staking.Api.computeReward (← get).staking vaultId caller rewardCurrencyId
  ensure (expectedRewards ≠ 0) (DispatchError.rewardDistribution .noRewardsForAccount)
  ensure (minimumTransferAmount ≤ expectedRewards)
    (DispatchError.rewardDistribution .collectAmountTooSmall)
  let callerRewards ← zoom Chain.stakingL
    (Staking.Api.withdrawReward vaultId caller index rewardCurrencyId)
  ensure (callerRewards ≠ 0) (DispatchError.rewardDistribution .noRewardsForAccount)
  transferReward R rewardCurrencyId callerRewards caller

/-- `collect_reward`: move the reward of a vault to its stakers, and pay the caller. -/
def collectReward (origin : Origin) (vaultId : VaultId) (rewardCurrencyId : CurrencyId)
    (index : Option Nonce) : ChainM B Unit := do
  let caller ← ensureSigned origin
  let reward ← zoom Chain.pooledRewardsL
    (PooledRewards.Api.withdrawReward vaultId.collateralCurrency vaultId rewardCurrencyId)
  let _ ← zoom Chain.stakingL (Staking.Api.distributeReward vaultId reward rewardCurrencyId)
  payCaller R caller vaultId rewardCurrencyId index

end RewardDistribution

/-! ## Fees (`pallets/fee/src/lib.rs`) -/

namespace Fee

/-- Distribute rewards; the rest is swept from the fee pool. -/
def distributeRewards : ChainM B Unit := do
  let remaining ← RewardDistribution.distributeRewards R amount.amount amount.currencyId
  if remaining ≠ 0 then
    match R.sweepAccount with
    | some account => (⟨remaining, amount.currencyId⟩ : Amount).transfer R R.feePoolAccountId account
    | none => return ()

def getIssueFee : ChainR B Amount := fun s => amount.roundedMul s.fee.issueFee

def getIssueGriefingCollateral : ChainR B Amount := fun s =>
  amount.roundedMul s.fee.issueGriefingCollateral

def getRedeemFee : ChainR B Amount := fun s => amount.roundedMul s.fee.redeemFee

def getPremiumRedeemFee : ChainR B Amount := fun s =>
  amount.roundedMul s.fee.premiumRedeemFee

/-- The punishment of a vault that does not execute a redeem request. -/
def getPunishmentFee : ChainR B Amount := fun s =>
  amount.roundedMul s.fee.punishmentFee

def getReplaceGriefingCollateral : ChainR B Amount := fun s =>
  amount.roundedMul s.fee.replaceGriefingCollateral

end Fee

/-! ## Rate limits (`pallets/issue/src/lib.rs` and `pallets/redeem/src/lib.rs`) -/

namespace RateLimit

def convertIntoLimitCurrencyIdAmount (limit : RateLimit) (amount : Amount) : ChainR B Amount :=
  fun s =>
    match Oracle.convert R amount limit.limitVolumeCurrencyId s with
    | .ok volume => .ok volume
    | .error _ => .error .missingExchangeRate

/-- Count an amount towards the volume of the current interval. -/
def increaseIntervalVolume (limitL : Lens (Chain B) RateLimit) (amount : Amount) :
    ChainM B Unit := do
  let limit := limitL.get (← get)
  if limit.limitVolumeAmount.isSome then
    let volume ← read (limit.convertIntoLimitCurrencyIdAmount R amount)
    let newVolume := min (limit.currentVolumeAmount + volume.amount) (balanceBound - 1)
    modify fun s => limitL.put s { limit with currentVolumeAmount := newVolume }

/-- Fail with `exceeded` if an amount does not fit into the volume of the current interval.  In a
new interval the volume starts at zero. -/
def checkVolume (limitL : Lens (Chain B) RateLimit) (exceeded : DispatchError)
    (amountRequested : Amount) : ChainM B Unit := do
  let limit := limitL.get (← get)
  match limit.limitVolumeAmount with
  | none => return ()
  | some limitVolume =>
    let currentBlock := (← get).system.blockNumber
    let currentIndex :=
      if limit.intervalLength = 0 then none else some (currentBlock / limit.intervalLength)
    let limit :=
      if currentIndex ≠ some limit.lastIntervalIndex then
        { limit with lastIntervalIndex := currentIndex.getD 0, currentVolumeAmount := 0 }
      else limit
    modify fun s => limitL.put s limit
    let newRequestAmount ← read (limit.convertIntoLimitCurrencyIdAmount R amountRequested)
    ensure (min (newRequestAmount.amount + limit.currentVolumeAmount) (balanceBound - 1) ≤
      limitVolume) exceeded

end RateLimit

/-! ## Proofs of payment (`pallets/stellar-relay/src/lib.rs`) -/

namespace StellarRelay

open Stellar

/-- Decode a transaction, the messages that externalize it and the transaction set, check that
the memo of the transaction is the shortened request identifier, and validate the proof. -/
def validatePayment (requestId : H256) (transactionEnvelopeXdrEncoded
    externalizedEnvelopesEncoded transactionSetEncoded : Bytes) :
    ChainR B TransactionEnvelope := fun s => do
  let transactionEnvelope ← Relay.constructFromRawEncodedXdr R.stellar
    R.stellar.transactionEnvelopeFromXdr transactionEnvelopeXdrEncoded
  let envelopes ← Relay.constructFromRawEncodedXdr R.stellar
    R.stellar.envelopesFromXdr externalizedEnvelopesEncoded
  let transactionSet ← Relay.constructFromRawEncodedXdr R.stellar
    R.stellar.transactionSetFromXdr transactionSetEncoded
  Relay.ensureTransactionMemoMatchesHash R.stellar transactionEnvelope requestId
  Relay.validateStellarTransaction R.stellar R.relay s.relay s.system.blockNumber
    transactionEnvelope envelopes transactionSet
  return transactionEnvelope

end StellarRelay

/-! ## What the token operations do

The token pallet is not part of the model, so what its operations do is a law about those that
succeed: they change the holdings as the abstract ledger says, and nothing but the tokens.  Here are
also the converse facts: an operation that the balances cover succeeds. -/

section

variable {R} {s s' : Chain B} {u : Unit} {a : Amount} {account other : AccountId}

/-- The state with other tokens. -/
def withTokens (t : B) (s : Chain B) : Chain B := { s with tokens := t }

theorem returns_unlockOn :
    Returns (a.unlockOn R account) s u s' ↔
      (R.tokens.unreserve a.currencyId account a.amount s.tokens).1 = 0 ∧
        withTokens (R.tokens.unreserve a.currencyId account a.amount s.tokens).2 s = s' := by
  simp [Amount.unlockOn, withTokens]

theorem returns_burnFrom :
    Returns (a.burnFrom R account) s u s' ↔
      (R.tokens.slashReserved a.currencyId account a.amount s.tokens).1 = 0 ∧
        withTokens (R.tokens.slashReserved a.currencyId account a.amount s.tokens).2 s = s' := by
  simp [Amount.burnFrom, withTokens]

variable (hR : R.tokens.Lawful)

include hR

theorem lockOn_holdings (h : Returns (a.lockOn R account) s u s') :
    ∃ t, withTokens t s = s' ∧ a.amount ≤ R.tokens.freeBalance s.tokens a.currencyId account ∧
      R.tokens.holdings t = (R.tokens.holdings s.tokens).reserve a.currencyId account a.amount := by
  obtain ⟨t, ht, rfl⟩ := returns_zoom.mp h
  exact ⟨t, rfl, hR.reserve _ _ _ _ _ _ ht⟩

theorem transfer_holdings (h : Returns (a.transfer R account other) s u s') :
    ∃ t, withTokens t s = s' ∧ R.tokens.holdings t =
      (R.tokens.holdings s.tokens).transfer a.currencyId account other a.amount := by
  obtain ⟨t, ht, rfl⟩ := returns_zoom.mp h
  exact ⟨t, rfl, (hR.transfer _ _ _ _ _ _ _ ht).2⟩

theorem mintTo_holdings (h : Returns (a.mintTo R account) s u s') :
    ∃ t, withTokens t s = s' ∧
      R.tokens.holdings t = (R.tokens.holdings s.tokens).deposit a.currencyId account a.amount := by
  obtain ⟨t, ht, rfl⟩ := returns_zoom.mp h
  exact ⟨t, rfl, hR.deposit _ _ _ _ _ _ ht⟩

theorem unlockOn_holdings (h : Returns (a.unlockOn R account) s u s') :
    ∃ t, withTokens t s = s' ∧ a.amount ≤ R.tokens.reservedBalance s.tokens a.currencyId account ∧
      R.tokens.holdings t = (R.tokens.holdings s.tokens).unreserve a.currencyId account a.amount := by
  obtain ⟨hzero, rfl⟩ := returns_unlockOn.mp h
  obtain ⟨hmissing, hheld⟩ := hR.unreserve a.currencyId account a.amount s.tokens
  have hle : a.amount ≤ R.tokens.reservedBalance s.tokens a.currencyId account := by omega
  rw [min_eq_left hle] at hheld
  exact ⟨_, rfl, hle, hheld⟩

theorem burnFrom_holdings (h : Returns (a.burnFrom R account) s u s') :
    ∃ t, withTokens t s = s' ∧ a.amount ≤ R.tokens.reservedBalance s.tokens a.currencyId account ∧
      R.tokens.holdings t =
        (R.tokens.holdings s.tokens).slashReserved a.currencyId account a.amount := by
  obtain ⟨hzero, rfl⟩ := returns_burnFrom.mp h
  obtain ⟨hmissing, hheld⟩ := hR.slashReserved a.currencyId account a.amount s.tokens
  have hle : a.amount ≤ R.tokens.reservedBalance s.tokens a.currencyId account := by omega
  rw [min_eq_left hle] at hheld
  exact ⟨_, rfl, hle, hheld⟩

variable (account other)

theorem lockOn_succeeds (hC : R.tokens.Covering)
    (h : a.amount ≤ R.tokens.freeBalance s.tokens a.currencyId account) :
    ∃ t, Returns (a.lockOn R account) s () (withTokens t s) ∧
      R.tokens.holdings t = (R.tokens.holdings s.tokens).reserve a.currencyId account a.amount := by
  obtain ⟨t, ht⟩ := hC.reserve _ _ _ _ h
  exact ⟨t, returns_zoom.mpr ⟨t, ht, rfl⟩, (hR.reserve _ _ _ _ _ _ ht).2⟩

theorem transfer_succeeds (hC : R.tokens.Covering)
    (h : a.amount ≤ R.tokens.freeBalance s.tokens a.currencyId account) :
    ∃ t, Returns (a.transfer R account other) s () (withTokens t s) ∧
      R.tokens.holdings t =
        (R.tokens.holdings s.tokens).transfer a.currencyId account other a.amount := by
  obtain ⟨t, ht⟩ := hC.transfer _ _ other _ _ h
  exact ⟨t, returns_zoom.mpr ⟨t, ht, rfl⟩, (hR.transfer _ _ _ _ _ _ _ ht).2⟩

theorem unlockOn_succeeds
    (h : a.amount ≤ R.tokens.reservedBalance s.tokens a.currencyId account) :
    ∃ t, Returns (a.unlockOn R account) s () (withTokens t s) ∧
      R.tokens.holdings t =
        (R.tokens.holdings s.tokens).unreserve a.currencyId account a.amount := by
  obtain ⟨hmissing, hheld⟩ := hR.unreserve a.currencyId account a.amount s.tokens
  rw [min_eq_left h] at hmissing hheld
  exact ⟨_, returns_unlockOn.mpr ⟨hmissing.trans (Nat.sub_self _), rfl⟩, hheld⟩

theorem burnFrom_succeeds
    (h : a.amount ≤ R.tokens.reservedBalance s.tokens a.currencyId account) :
    ∃ t, Returns (a.burnFrom R account) s () (withTokens t s) ∧
      R.tokens.holdings t =
        (R.tokens.holdings s.tokens).slashReserved a.currencyId account a.amount := by
  obtain ⟨hmissing, hheld⟩ := hR.slashReserved a.currencyId account a.amount s.tokens
  rw [min_eq_left h] at hmissing hheld
  exact ⟨_, returns_burnFrom.mpr ⟨hmissing.trans (Nat.sub_self _), rfl⟩, hheld⟩

end

end Spacewalk
