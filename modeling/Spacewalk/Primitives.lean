import Spacewalk.Foundation.FixedPoint

/-!
# Primitive types of the parachain

Accounts, currencies, vault identifiers, balances and the dispatch errors of the pallets
(`primitives/src/lib.rs` and the `Error` enumerations of the pallets).  Balances are `u128`
and are kept as natural numbers below `2 ^ 128`; the fixed-point numbers are the signed and
unsigned 128-bit formats with 18 decimals.
-/

namespace Spacewalk

open Foundation (Format FixedPoint)

/-! ## Identifiers -/

/-- A 32-byte account identifier. -/
structure AccountId where
  /-- The bytes of the identifier, as one number. -/
  bytes : BitVec 256
  deriving DecidableEq

/-- A 256-bit hash; request identifiers are hashes. -/
abbrev H256 := BitVec 256

/-- A Stellar public key (`[u8; 32]`). -/
structure StellarPublicKeyRaw where
  /-- The bytes of the key, as one number. -/
  bytes : BitVec 256
  deriving DecidableEq

/-- An asset of the Stellar network. -/
inductive Asset where
  | stellarNative
  | alphaNum4 (code : BitVec 32) (issuer : BitVec 256)
  | alphaNum12 (code : BitVec 96) (issuer : BitVec 256)
  deriving DecidableEq

/-- The currencies of the parachain. -/
inductive CurrencyId where
  | native
  | xcm (index : UInt8)
  | stellar (asset : Asset)
  | zenlinkLPToken (a b c d : UInt8)
  | token (id : UInt64)
  deriving DecidableEq

/-- The collateral and the wrapped currency of a vault. -/
structure VaultCurrencyPair where
  collateral : CurrencyId
  wrapped : CurrencyId
  deriving DecidableEq

/-- A vault is identified by its account and its pair of currencies. -/
structure VaultId where
  accountId : AccountId
  currencies : VaultCurrencyPair
  deriving DecidableEq

namespace VaultId

def collateralCurrency (v : VaultId) : CurrencyId := v.currencies.collateral

def wrappedCurrency (v : VaultId) : CurrencyId := v.currencies.wrapped

end VaultId

/-! ## Numbers -/

/-- Balances are `u128`. -/
abbrev Balance := Nat

/-- Pool nonces are `u32`. -/
abbrev Nonce := Nat

/-- Block numbers are `u32`. -/
abbrev BlockNumber := Nat

/-- The first value that is not a `u128`. -/
def balanceBound : Nat := 2 ^ 128

/-- The first value that is not a `u32`. -/
def nonceBound : Nat := 2 ^ 32

/-- The format of `FixedI128`: 18 decimals over a signed 128-bit inner value. -/
def signedFormat : Format where
  min := -2 ^ 127
  max := 2 ^ 127 - 1
  div := 10 ^ 18
  min_le_zero := by decide
  zero_le_max := by decide
  div_pos := by decide

/-- The format of `FixedU128`: 18 decimals over an unsigned 128-bit inner value. -/
def unsignedFormat : Format where
  min := 0
  max := 2 ^ 128 - 1
  div := 10 ^ 18
  min_le_zero := by decide
  zero_le_max := by decide
  div_pos := by decide

/-- The signed fixed-point numbers of the staking and reward pallets. -/
abbrev SignedFixedPoint := FixedPoint signedFormat

/-- The unsigned fixed-point numbers of thresholds, fees and exchange rates. -/
abbrev UnsignedFixedPoint := FixedPoint unsignedFormat

/-! ## Dispatch errors -/

inductive ArithmeticError where
  | underflow
  | overflow
  deriving DecidableEq

inductive StakingError where
  | tryIntoIntError
  | insufficientFunds
  | slashZeroTotalStake
  | maxRewardCurrencies
  deriving DecidableEq

inductive StellarRelayError where
  | base64DecodeError
  | boundedVecCreationFailed
  | duplicateOrganizationId
  | duplicateValidatorPublicKey
  | emptyEnvelopeSet
  | envelopeSlotIndexMismatch
  | externalizedNHMismatch
  | externalizedValueMismatch
  | failedToComputeNonGenericTxSetContentHash
  | invalidEnvelopeSignature
  | invalidQuorumSetNotEnoughOrganizations
  | invalidQuorumSetNotEnoughValidators
  | invalidScpPledge
  | invalidXDR
  | missingExternalizedMessage
  | noOrganizationsRegistered
  | noValidatorsRegistered
  | organizationLimitExceeded
  | transactionMemoDoesNotMatch
  | transactionNotInTransactionSet
  | transactionSetHashCreationFailed
  | transactionSetHashMismatch
  | validatorLimitExceeded
  deriving DecidableEq

inductive PooledRewardsError where
  | tryIntoIntError
  | insufficientFunds
  | zeroTotalStake
  | maxRewardCurrencies
  deriving DecidableEq

inductive RewardDistributionError where
  | overflow
  | underflow
  | noRewardsForAccount
  | notEnoughRewardsRegistered
  | inconsistentRewardCurrencies
  | collectAmountTooSmall
  deriving DecidableEq

inductive CurrencyError where
  | assetConversionError
  | balanceConversionError
  | compatibleRoundingFailed
  | incompatibleAmount
  | invalidCurrency
  | tryIntoIntError
  deriving DecidableEq

inductive OracleError where
  | invalidOracleSource
  | missingExchangeRate
  | tryIntoIntError
  deriving DecidableEq

inductive VaultRegistryError where
  | insufficientCollateral
  | exceedingVaultLimit
  | insufficientTokensCommitted
  | vaultBanned
  | insufficientVaultCollateralAmount
  | vaultAlreadyRegistered
  | vaultNotFound
  | vaultNotBelowLiquidationThreshold
  | maxNominationRatioViolation
  | currencyCeilingExceeded
  | vaultLiquidated
  | vaultNotRecoverable
  | noStellarPublicKey
  | publicKeyAlreadyRegistered
  | noTokensIssued
  | invalidCurrency
  | globalThresholdNotSet
  | liquidationCollateralThresholdNotSet
  | premiumRedeemThresholdNotSet
  | secureCollateralThresholdNotSet
  | ceilingNotSet
  | thresholdNotAboveGlobalThreshold
  | tryIntoIntError
  | vaultNotAcceptingIssueRequests
  | minimumCollateralNotSet
  deriving DecidableEq

inductive NominationError where
  | vaultAlreadyOptedInToNomination
  | vaultNotOptedInToNomination
  | vaultNotFound
  | cannotWithdrawCollateral
  | vaultNominationDisabled
  | depositViolatesMaxNominationRatio
  | collateralizationTooLow
  deriving DecidableEq

inductive IssueError where
  | issueIdNotFound
  | timeNotExpired
  | issueCompleted
  | issueCancelled
  | vaultNotAcceptingNewIssues
  | invalidExecutor
  | amountBelowMinimumTransferAmount
  | exceedLimitVolumeForIssueRequest
  deriving DecidableEq

inductive RedeemError where
  | amountExceedsUserBalance
  | unauthorizedRedeemer
  | unauthorizedVault
  | timeNotExpired
  | redeemCancelled
  | redeemCompleted
  | redeemIdNotFound
  | amountBelowMinimumTransferAmount
  | exceedLimitVolumeForRedeemRequest
  | invalidPaymentAmount
  deriving DecidableEq

inductive ReplaceError where
  | replaceAmountZero
  | amountBelowDustAmount
  | noPendingRequest
  | replaceSelfNotAllowed
  | vaultHasEnabledNomination
  | replacePeriodNotExpired
  | replaceCompleted
  | replaceCancelled
  | replaceIdNotFound
  | invalidWrappedCurrency
  | invalidPaymentAmount
  deriving DecidableEq

/-- The errors a dispatchable can fail with.  A panic aborts the call as well; the token
errors stand for the failures of the token pallets. -/
inductive DispatchError where
  | arithmetic (e : ArithmeticError)
  | badOrigin
  | missingExchangeRate
  | balanceTooLow
  | token
  | staking (e : StakingError)
  | pooledRewards (e : PooledRewardsError)
  | rewardDistribution (e : RewardDistributionError)
  | currency (e : CurrencyError)
  | oracle (e : OracleError)
  | parachainNotRunning
  | vaultRegistry (e : VaultRegistryError)
  | nomination (e : NominationError)
  | issue (e : IssueError)
  | redeem (e : RedeemError)
  | replace (e : ReplaceError)
  | stellarRelay (e : StellarRelayError)
  | panic
  deriving DecidableEq

namespace DispatchError

/-- `ArithmeticError::Overflow` as a dispatch error. -/
abbrev overflow : DispatchError := .arithmetic .overflow

/-- `ArithmeticError::Underflow` as a dispatch error. -/
abbrev underflow : DispatchError := .arithmetic .underflow

end DispatchError

end Spacewalk
