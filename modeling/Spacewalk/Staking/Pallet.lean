import Spacewalk.StorageMap

/-!
# The staking pallet

The staking pallet (`pallets/staking/src/lib.rs`) keeps, for every vault, a sequence of
pools numbered by a nonce.  A pool records the stake of every nominator and two
accumulators per token, one for slashes and one for rewards of each currency; a slash is
applied to a nominator's stake only when that nominator's position is next touched
(`applySlash`).

Every storage map of the pallet is a total function with default zero; a storage map with
a composite key is a function of the key.  Each function of the pallet is translated under
its own name, as a transactional computation over the pools.
-/

namespace Spacewalk.Staking

open Foundation
open DispatchError (overflow underflow)

/-! ## Storage -/

abbrev PoolKey := Nonce × VaultId

/-- The key of a position: nonce, vault and nominator. -/
abbrev PositionKey := Nonce × VaultId × AccountId

/-- The storage of the staking pallet. -/
structure Pools where
  totalStake : PoolKey → SignedFixedPoint
  totalCurrentStake : PoolKey → SignedFixedPoint
  slashPerToken : PoolKey → SignedFixedPoint
  stake : PositionKey → SignedFixedPoint
  slashTally : PositionKey → SignedFixedPoint
  /-- `Nonce`, the number of the current pool of a vault. -/
  nonce : VaultId → Nonce
  totalRewards : CurrencyId × PoolKey → SignedFixedPoint
  rewardPerToken : CurrencyId × PoolKey → SignedFixedPoint
  rewardTally : CurrencyId × PositionKey → SignedFixedPoint
  /-- `RewardCurrencies`, without repetitions, in the order of insertion. -/
  rewardCurrencies : List CurrencyId

namespace Pools

/-- The empty storage: every map has its default value. -/
def genesis : Pools where
  totalStake _ := 0
  totalCurrentStake _ := 0
  slashPerToken _ := 0
  stake _ := 0
  slashTally _ := 0
  nonce _ := 0
  totalRewards _ := 0
  rewardPerToken _ := 0
  rewardTally _ := 0
  rewardCurrencies := []

def totalStakeL : Lens Pools (PoolKey → SignedFixedPoint) where
  get s := s.totalStake
  put s m := { s with totalStake := m }

def totalCurrentStakeL : Lens Pools (PoolKey → SignedFixedPoint) where
  get s := s.totalCurrentStake
  put s m := { s with totalCurrentStake := m }

def slashPerTokenL : Lens Pools (PoolKey → SignedFixedPoint) where
  get s := s.slashPerToken
  put s m := { s with slashPerToken := m }

def stakeL : Lens Pools (PositionKey → SignedFixedPoint) where
  get s := s.stake
  put s m := { s with stake := m }

def slashTallyL : Lens Pools (PositionKey → SignedFixedPoint) where
  get s := s.slashTally
  put s m := { s with slashTally := m }

def totalRewardsL : Lens Pools (CurrencyId × PoolKey → SignedFixedPoint) where
  get s := s.totalRewards
  put s m := { s with totalRewards := m }

def rewardPerTokenL : Lens Pools (CurrencyId × PoolKey → SignedFixedPoint) where
  get s := s.rewardPerToken
  put s m := { s with rewardPerToken := m }

def rewardTallyL : Lens Pools (CurrencyId × PositionKey → SignedFixedPoint) where
  get s := s.rewardTally
  put s m := { s with rewardTally := m }

end Pools

/-- The constants of the pallet's configuration. -/
structure Config where
  getNativeCurrencyId : CurrencyId
  maxRewardCurrencies : Nat

/-- A function of the pallet: a transactional computation over the pools. -/
abbrev PalletM (α : Type) := Dispatch DispatchError Pools α

/-! ## Stake -/

/-- The slash that was announced since the position was last touched. -/
def computeAmountToSlash (stake slashPerToken slashTally : SignedFixedPoint) :
    Except DispatchError SignedFixedPoint := do
  let stakeMulSlashPerToken ← okOr (stake.checkedMul slashPerToken) overflow
  okOr (stakeMulSlashPerToken.checkedSub slashTally) underflow

/-- Compute the stake in the pool `nonce` of the vault owned by the nominator. -/
def computeStakeAtIndex (s : Pools) (nonce : Nonce) (vaultId : VaultId)
    (nominatorId : AccountId) : Except DispatchError Int := do
  let stake := s.stake (nonce, vaultId, nominatorId)
  let slashPerToken := s.slashPerToken (nonce, vaultId)
  let slashTally := s.slashTally (nonce, vaultId, nominatorId)
  let toSlash ← computeAmountToSlash stake slashPerToken slashTally
  let stakeSubToSlash ← okOr (stake.checkedSub toSlash) underflow
  return max 0 stakeSubToSlash.truncate

/-- Delegates to `computeStakeAtIndex` with the current nonce. -/
def computeStake (s : Pools) (vaultId : VaultId) (nominatorId : AccountId) :
    Except DispatchError Int :=
  computeStakeAtIndex s (s.nonce vaultId) vaultId nominatorId

/-- The total stake of the current pool after slashing. -/
def totalCurrentStake (s : Pools) (vaultId : VaultId) : Int :=
  (s.totalCurrentStake (s.nonce vaultId, vaultId)).truncate

variable (cfg : Config) (nonce : Nonce) (vaultId : VaultId) (nominatorId : AccountId)
  (amount : SignedFixedPoint) (currencyId : CurrencyId) (s : Pools) (index : Option Nonce)

/-- All reward currencies: the registered ones, then the native currency. -/
def getAllRewardCurrencies : List CurrencyId :=
  s.rewardCurrencies ++ [cfg.getNativeCurrencyId]

/-- Settle the announced slashes of a position of the *current* pool; returns the stake that
remains. -/
def applySlash : PalletM SignedFixedPoint := do
  let s ← get
  let nonce := s.nonce vaultId
  let slashPerToken := s.slashPerToken (nonce, vaultId)
  let toSlash ← computeAmountToSlash (s.stake (nonce, vaultId, nominatorId)) slashPerToken
    (s.slashTally (nonce, vaultId, nominatorId))
  let _ ← checkedSubMut Pools.totalStakeL (nonce, vaultId) toSlash
  let stake ← checkedSubMut Pools.stakeL (nonce, vaultId, nominatorId) toSlash
  let slashTally ← okOr (stake.checkedMul slashPerToken) overflow
  insertEntry Pools.slashTallyL (nonce, vaultId, nominatorId) slashTally
  return stake

/-- One round of the loop of `depositStake`: the new stake earns no past reward. -/
def creditRewardTally : PalletM Unit := do
  let rewardPerToken := (← get).rewardPerToken (currencyId, nonce, vaultId)
  let rewardPerTokenMulAmount ← okOr (rewardPerToken.checkedMul amount) overflow
  let _ ← checkedAddMut Pools.rewardTallyL (currencyId, nonce, vaultId, nominatorId)
    rewardPerTokenMulAmount

/-- One round of the loop of `withdrawStake`: the withdrawn stake keeps its past reward. -/
def debitRewardTally : PalletM Unit := do
  let rewardPerToken := (← get).rewardPerToken (currencyId, nonce, vaultId)
  let rewardPerTokenMulAmount ← okOr (rewardPerToken.checkedMul amount) overflow
  let _ ← checkedSubMut Pools.rewardTallyL (currencyId, nonce, vaultId, nominatorId)
    rewardPerTokenMulAmount

/-- Deposit an amount of stake to the vault for the nominator. -/
def depositStake : PalletM Unit := do
  let nonce := (← get).nonce vaultId
  let _ ← applySlash vaultId nominatorId
  let _ ← checkedAddMut Pools.stakeL (nonce, vaultId, nominatorId) amount
  let _ ← checkedAddMut Pools.totalStakeL (nonce, vaultId) amount
  let _ ← checkedAddMut Pools.totalCurrentStakeL (nonce, vaultId) amount
  let slashPerToken := (← get).slashPerToken (nonce, vaultId)
  let slashPerTokenMulAmount ← okOr (slashPerToken.checkedMul amount) overflow
  let _ ← checkedAddMut Pools.slashTallyL (nonce, vaultId, nominatorId) slashPerTokenMulAmount
  forM (getAllRewardCurrencies cfg (← get)) (creditRewardTally nonce vaultId nominatorId amount)

/-- Withdraw an amount of stake from the pool `index` of the vault, or from the current pool.
The announced slashes are settled, and the amount is compared with the stake, in the
current pool in either case. -/
def withdrawStake : PalletM Unit := do
  let nonce := index.getD ((← get).nonce vaultId)
  let stake ← applySlash vaultId nominatorId
  if amount = 0 then
    return ()
  else if amount.inner > stake.inner then
    throw (.staking .insufficientFunds)
  else do
    let _ ← checkedSubMut Pools.stakeL (nonce, vaultId, nominatorId) amount
    let _ ← checkedSubMut Pools.totalStakeL (nonce, vaultId) amount
    let _ ← checkedSubMut Pools.totalCurrentStakeL (nonce, vaultId) amount
    let slashPerToken := (← get).slashPerToken (nonce, vaultId)
    let slashPerTokenMulAmount ← okOr (slashPerToken.checkedMul amount) overflow
    let _ ← checkedSubMut Pools.slashTallyL (nonce, vaultId, nominatorId)
      slashPerTokenMulAmount
    forM (getAllRewardCurrencies cfg (← get)) (debitRewardTally nonce vaultId nominatorId amount)

/-! ## Slashes and rewards -/

/-- Spread a reward over the current stake of a pool; a pool without stake takes nothing. -/
def increaseRewards (vaultId : VaultId) (reward : SignedFixedPoint) : PalletM SignedFixedPoint := do
  let totalCurrentStake := (← get).totalCurrentStake (nonce, vaultId)
  if totalCurrentStake = 0 then
    return 0
  else do
    let rewardDivTotalCurrentStake ← okOr (reward.checkedDiv totalCurrentStake) underflow
    let _ ← checkedAddMut Pools.rewardPerTokenL (currencyId, nonce, vaultId)
      rewardDivTotalCurrentStake
    return reward

/-- One round of the loop of `slashStake`: replenish the rewards lost with the slash. -/
def replenishReward : PalletM Unit := do
  let rewardPerToken := (← get).rewardPerToken (currencyId, nonce, vaultId)
  let lostReward ← okOr (rewardPerToken.checkedMul amount) overflow
  let _ ← increaseRewards nonce currencyId vaultId lostReward

/-- Slash an amount of stake from the vault. -/
def slashStake : PalletM Unit := do
  let s ← get
  let nonce := s.nonce vaultId
  let totalStake := s.totalStake (nonce, vaultId)
  if amount = 0 then
    return ()
  else if totalStake = 0 then
    throw (.staking .slashZeroTotalStake)
  else do
    let amountDivTotalStake ← okOr (amount.checkedDiv totalStake) underflow
    let _ ← checkedAddMut Pools.slashPerTokenL (nonce, vaultId) amountDivTotalStake
    let _ ← checkedSubMut Pools.totalCurrentStakeL (nonce, vaultId) amount
    forM (getAllRewardCurrencies cfg (← get)) (replenishReward nonce vaultId amount)

/-- Distribute the reward to all participants of the current pool. -/
def distributeReward (vaultId : VaultId) (reward : SignedFixedPoint) :
    PalletM SignedFixedPoint := do
  let nonce := (← get).nonce vaultId
  let reward ← increaseRewards nonce currencyId vaultId reward
  if reward = 0 then
    return 0
  else do
    let _ ← checkedAddMut Pools.totalRewardsL (currencyId, nonce, vaultId) reward
    return reward

/-- Compute the expected reward of the nominator in the pool `nonce`. -/
def computeRewardAtIndex (nonce : Nonce) (currencyId : CurrencyId) (vaultId : VaultId)
    (nominatorId : AccountId) : Except DispatchError Int := do
  let stake ← okOr (FixedPoint.checkedFromInteger signedFormat
    (← computeStakeAtIndex s nonce vaultId nominatorId)) (.staking .tryIntoIntError)
  let rewardPerToken := s.rewardPerToken (currencyId, nonce, vaultId)
  let stakeMulRewardPerToken ← okOr (stake.checkedMul rewardPerToken) overflow
  let rewardTally := s.rewardTally (currencyId, nonce, vaultId, nominatorId)
  let reward ← okOr (stakeMulRewardPerToken.checkedSub rewardTally) underflow
  return max 0 reward.truncate

/-- Delegates to `computeRewardAtIndex` with the current nonce. -/
def computeReward (currencyId : CurrencyId) (vaultId : VaultId) (nominatorId : AccountId) :
    Except DispatchError Int :=
  computeRewardAtIndex s (s.nonce vaultId) currencyId vaultId nominatorId

/-- Withdraw all rewards earned by the nominator in the pool `nonce`.  The announced slashes
are settled in the current pool. -/
def withdrawRewardAtIndex (vaultId : VaultId) (nominatorId : AccountId) : PalletM Int := do
  let _ ← applySlash vaultId nominatorId
  let reward ← computeRewardAtIndex (← get) nonce currencyId vaultId nominatorId
  let rewardAsFixed ← okOr (FixedPoint.checkedFromInteger signedFormat reward)
    (DispatchError.staking .tryIntoIntError)
  let _ ← checkedSubMut Pools.totalRewardsL (currencyId, nonce, vaultId) rewardAsFixed
  let s ← get
  let stake := s.stake (nonce, vaultId, nominatorId)
  let rewardPerToken := s.rewardPerToken (currencyId, nonce, vaultId)
  let rewardTally ← okOr (stake.checkedMul rewardPerToken) overflow
  insertEntry Pools.rewardTallyL (currencyId, nonce, vaultId, nominatorId) rewardTally
  return reward

/-- Delegates to `withdrawRewardAtIndex` with the current nonce. -/
def withdrawReward (vaultId : VaultId) (nominatorId : AccountId) : PalletM Int := do
  let nonce := (← get).nonce vaultId
  withdrawRewardAtIndex nonce currencyId vaultId nominatorId

/-! ## Force refunds and reward currencies -/

/-- Open the next pool of the vault. -/
def incrementNonce : PalletM Unit := do
  let s ← get
  ensure (s.nonce vaultId + 1 < nonceBound) overflow
  set { s with nonce := Function.update s.nonce vaultId (s.nonce vaultId + 1) }

/-- Force refund the nomination of the vault: the vault's own stake moves to a new pool, the
nominators withdraw from the closed pool by its nonce.  Returns the refunded collateral. -/
def forceRefund : PalletM Int := do
  let s ← get
  let nonce := s.nonce vaultId
  let totalCurrentStake := s.totalCurrentStake (nonce, vaultId)
  let stake ← okOr (FixedPoint.checkedFromInteger signedFormat
    (← computeStakeAtIndex s nonce vaultId vaultId.accountId))
    (DispatchError.staking .tryIntoIntError)
  withdrawStake cfg vaultId vaultId.accountId stake (some nonce)
  incrementNonce vaultId
  depositStake cfg vaultId vaultId.accountId stake
  let refundedCollateral ← okOr (totalCurrentStake.checkedSub stake) underflow
  return refundedCollateral.truncate

/-- Register a reward currency; the set of reward currencies is bounded. -/
def addRewardCurrency : PalletM Unit := do
  let s ← get
  if currencyId ∈ s.rewardCurrencies then
    return ()
  else do
    ensure (s.rewardCurrencies.length < cfg.maxRewardCurrencies)
      (DispatchError.staking .maxRewardCurrencies)
    set { s with rewardCurrencies := s.rewardCurrencies ++ [currencyId] }

/-! ## The interface of the pallet

The other pallets use staking through amounts of type `Balance`. -/

namespace Api

/-- `to_fixed`: a balance as a fixed-point number. -/
def toFixed (amount : Balance) : Except DispatchError SignedFixedPoint :=
  okOr (FixedPoint.checkedFromInteger signedFormat amount) (.staking .tryIntoIntError)

/-- `try_into`: a signed inner value as a balance. -/
def toBalance (i : Int) : Except DispatchError Balance :=
  if 0 ≤ i then .ok i.toNat else .error (.staking .tryIntoIntError)

/-- Deposit an amount of stake to the vault for the nominator. -/
def depositStake (amount : Balance) : PalletM Unit := do
  Staking.depositStake cfg vaultId nominatorId (← toFixed amount)

/-- Slash an amount of stake from the vault. -/
def slashStake (amount : Balance) : PalletM Unit := do
  Staking.slashStake cfg vaultId (← toFixed amount)

/-- The stake of the nominator in the current pool. -/
def computeStake (vaultId : VaultId) (nominatorId : AccountId) : Except DispatchError Balance := do
  toBalance (← Staking.computeStake s vaultId nominatorId)

/-- The total stake of the current pool after slashing. -/
def totalStake (vaultId : VaultId) : Except DispatchError Balance :=
  toBalance (totalCurrentStake s vaultId)

/-- Distribute the reward to all participants. -/
def distributeReward (amount : Balance) (currencyId : CurrencyId) : PalletM Balance := do
  let reward ← Staking.distributeReward currencyId vaultId (← toFixed amount)
  toBalance reward.truncate

/-- Withdraw an amount of stake from the vault for the nominator. -/
def withdrawStake (amount : Balance) (index : Option Nonce) : PalletM Unit := do
  Staking.withdrawStake cfg vaultId nominatorId (← toFixed amount) index

/-- The expected reward of the nominator in the current pool. -/
def computeReward (vaultId : VaultId) (nominatorId : AccountId) (currencyId : CurrencyId) :
    Except DispatchError Balance := do
  toBalance (← Staking.computeReward s currencyId vaultId nominatorId)

/-- Withdraw all rewards of the nominator from the pool `index`, or from the current pool. -/
def withdrawReward (currencyId : CurrencyId) : PalletM Balance := do
  let nonce := index.getD ((← get).nonce vaultId)
  toBalance (← withdrawRewardAtIndex nonce currencyId vaultId nominatorId)

/-- Force refund the entire nomination to the vault. -/
def forceRefund : PalletM Balance := do
  toBalance (← Staking.forceRefund cfg vaultId)

end Api

end Spacewalk.Staking
