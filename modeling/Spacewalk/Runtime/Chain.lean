import Spacewalk.Foundation.TokenLedger
import Spacewalk.PooledRewards
import Spacewalk.Relay.Pallet
import Spacewalk.Staking.Pallet
import Spacewalk.VaultRegistry.Types

/-!
# The chain

The state of the parachain as far as the bridge pallets read and write it, and the
configuration of its runtime.  The token pallets are not part of the repository: their state
`B` and their operations are parameters (`Runtime.tokens`), as are the hash function of the
request identifiers, the accounts of the pallets and the Stellar library.
-/

namespace Spacewalk

open Foundation

/-! ## Origins -/

/-- The origin of an extrinsic. -/
inductive Origin where
  | root
  | signed (accountId : AccountId)
  | none
  deriving DecidableEq

def ensureSigned : Origin → Except DispatchError AccountId
  | .signed accountId => .ok accountId
  | _ => .error .badOrigin

def ensureRoot : Origin → Except DispatchError Unit
  | .root => .ok ()
  | _ => .error .badOrigin

@[simp] theorem ensureSigned_eq_ok {o : Origin} {a : AccountId} :
    ensureSigned o = .ok a ↔ o = .signed a := by
  cases o <;> simp [ensureSigned]

/-! ## Storage of the small pallets -/

/-- The status of the parachain. -/
inductive StatusCode where
  | running
  | error
  | shutdown
  deriving DecidableEq

structure Security.Storage where
  parachainStatus : StatusCode
  /-- `Nonce`, a `U256`. -/
  nonce : BitVec 256
  activeBlockCount : Nat

/-- The storage of the oracle pallet: the price of every currency that has one. -/
structure Oracle.Storage where
  prices : CurrencyId → Option UnsignedFixedPoint

structure Fee.Storage where
  issueFee : UnsignedFixedPoint
  issueGriefingCollateral : UnsignedFixedPoint
  redeemFee : UnsignedFixedPoint
  premiumRedeemFee : UnsignedFixedPoint
  punishmentFee : UnsignedFixedPoint
  replaceGriefingCollateral : UnsignedFixedPoint

structure RewardDistribution.Storage where
  /-- `NativeLiability`, the native rewards that are still to be minted. -/
  nativeLiability : Option Nat

structure Nomination.Storage where
  nominationEnabled : Bool
  /-- `Vaults`, the vaults that opted in to nomination. -/
  vaults : VaultId → Bool

/-- The block and the extrinsic that are executed. -/
structure System where
  blockNumber : Nat
  extrinsicIndex : Nat
  parentHash : H256

/-! ## Requests

Issue, redeem and replace requests and their status (`primitives/src/lib.rs`), and the
storage of the three pallets that keep them. -/

/-- The rate limit of the issue and of the redeem pallet: at most a volume in every interval of
blocks. -/
structure RateLimit where
  limitVolumeAmount : Option Nat
  limitVolumeCurrencyId : CurrencyId
  currentVolumeAmount : Nat
  intervalLength : Nat
  lastIntervalIndex : Nat

namespace Issue

inductive IssueRequestStatus where
  | pending
  | completed
  | cancelled
  deriving DecidableEq

structure IssueRequest where
  vault : VaultId
  opentime : Nat
  period : Nat
  griefingCollateral : Nat
  /-- The amount the requester receives. -/
  amount : Nat
  asset : CurrencyId
  fee : Nat
  requester : AccountId
  stellarAddress : StellarPublicKeyRaw
  status : IssueRequestStatus
  deriving DecidableEq

/-- The storage of the issue pallet. -/
structure Storage where
  issueRequests : H256 → Option IssueRequest
  issuePeriod : Nat
  issueMinimumTransferAmount : Nat
  /-- The storage values of the rate limit. -/
  rateLimit : RateLimit

end Issue

namespace Redeem

inductive RedeemRequestStatus where
  | pending
  | completed
  /-- The user was reimbursed; the flag says whether the vault minted the tokens. -/
  | reimbursed (minted : Bool)
  | retried
  deriving DecidableEq

structure RedeemRequest where
  vault : VaultId
  opentime : Nat
  period : Nat
  fee : Nat
  transferFee : Nat
  /-- The amount the vault pays on the Stellar network. -/
  amount : Nat
  asset : CurrencyId
  premium : Nat
  redeemer : AccountId
  stellarAddress : StellarPublicKeyRaw
  status : RedeemRequestStatus
  deriving DecidableEq

/-- The storage of the redeem pallet. -/
structure Storage where
  redeemPeriod : Nat
  redeemRequests : H256 → Option RedeemRequest
  redeemMinimumTransferAmount : Nat
  /-- The storage values of the rate limit. -/
  rateLimit : RateLimit
  cancelledRedeemAmount : H256 → Option (Nat × CurrencyId)

end Redeem

namespace Replace

inductive ReplaceRequestStatus where
  | pending
  | completed
  | cancelled
  deriving DecidableEq

structure ReplaceRequest where
  oldVault : VaultId
  newVault : VaultId
  amount : Nat
  asset : CurrencyId
  griefingCollateral : Nat
  collateral : Nat
  acceptTime : Nat
  period : Nat
  stellarAddress : StellarPublicKeyRaw
  status : ReplaceRequestStatus
  deriving DecidableEq

/-- The storage of the replace pallet. -/
structure Storage where
  replaceRequests : H256 → Option ReplaceRequest
  replacePeriod : Nat
  replaceMinimumTransferAmount : Nat

end Replace

/-! ## The state and its configuration -/

/-- The state of the parachain; `B` is the state of the token pallets. -/
structure Chain (B : Type) where
  system : System
  tokens : B
  security : Security.Storage
  oracle : Oracle.Storage
  fee : Fee.Storage
  relay : Relay.State
  staking : Staking.Pools
  pooledRewards : PooledRewards.Storage
  rewardDistribution : RewardDistribution.Storage
  vaultRegistry : VaultRegistry.Storage
  nomination : Nomination.Storage
  issue : Issue.Storage
  redeem : Redeem.Storage
  replace : Replace.Storage

/-- The configuration of the runtime. -/
structure Runtime (B : Type) where
  /-- The token pallets. -/
  tokens : MultiCurrency DispatchError AccountId CurrencyId B
  /-- The Stellar library. -/
  stellar : Stellar.StellarLib
  relay : Relay.Config
  staking : Staking.Config
  /-- `MaxRewardCurrencies` of the pooled rewards pallet. -/
  maxRewardCurrencies : Nat
  /-- The hash of an extrinsic index, a nonce and a parent hash. -/
  secureHash : Nat → BitVec 256 → H256 → H256
  liquidationVaultAccountId : AccountId
  feePoolAccountId : AccountId
  /-- The account that `OnSweep` transfers to, if it does. -/
  sweepAccount : Option AccountId
  getGriefingCollateralCurrencyId : CurrencyId
  decimals : CurrencyId → Nat
  /-- `Perquintill::from_rational(part, whole).mul_floor(amount)`. -/
  proportion : Nat → Nat → Nat → Nat
  existentialDeposits : CurrencyId → Nat

/-- A function of the runtime: a transactional computation over the chain. -/
abbrev ChainM (B α : Type) := Dispatch DispatchError (Chain B) α

/-- A function of the runtime that only reads. -/
abbrev ChainR (B α : Type) := Chain B → Except DispatchError α

namespace Chain

variable {B : Type}

/-- The state of the token pallets. -/
def tokensL : Lens (Chain B) B where
  get s := s.tokens
  put s t := { s with tokens := t }

/-- The state of the staking pallet. -/
def stakingL : Lens (Chain B) Staking.Pools where
  get s := s.staking
  put s t := { s with staking := t }

/-- The state of the pooled rewards pallet. -/
def pooledRewardsL : Lens (Chain B) PooledRewards.Storage where
  get s := s.pooledRewards
  put s t := { s with pooledRewards := t }

def mapVaultRegistry (f : VaultRegistry.Storage → VaultRegistry.Storage) (s : Chain B) : Chain B :=
  { s with vaultRegistry := f s.vaultRegistry }

/-- Change the storage of the issue pallet. -/
def mapIssue (f : Issue.Storage → Issue.Storage) (s : Chain B) : Chain B :=
  { s with issue := f s.issue }

/-- Change the storage of the redeem pallet. -/
def mapRedeem (f : Redeem.Storage → Redeem.Storage) (s : Chain B) : Chain B :=
  { s with redeem := f s.redeem }

/-- Change the storage of the replace pallet. -/
def mapReplace (f : Replace.Storage → Replace.Storage) (s : Chain B) : Chain B :=
  { s with replace := f s.replace }

@[simp] theorem tokensL_get (s : Chain B) : tokensL.get s = s.tokens := rfl

@[simp] theorem tokensL_put (s : Chain B) (t : B) : tokensL.put s t = { s with tokens := t } := rfl

@[simp] theorem stakingL_get (s : Chain B) : stakingL.get s = s.staking := rfl

@[simp] theorem stakingL_put (s : Chain B) (t : Staking.Pools) :
    stakingL.put s t = { s with staking := t } := rfl

/-- A call of the staking pallet changes its storage. -/
theorem returns_staking {α : Type} {m : Dispatch DispatchError Staking.Pools α} {s s' : Chain B}
    {a : α} : Returns (zoom stakingL m) s a s' ↔
      ∃ t, Returns m s.staking a t ∧ { s with staking := t } = s' :=
  returns_zoom

@[simp] theorem pooledRewardsL_get (s : Chain B) : pooledRewardsL.get s = s.pooledRewards := rfl

@[simp] theorem pooledRewardsL_put (s : Chain B) (t : PooledRewards.Storage) :
    pooledRewardsL.put s t = { s with pooledRewards := t } := rfl

end Chain

end Spacewalk
