import Spacewalk.StorageMap

/-!
# The pooled rewards pallet

Vaults with the same collateral currency share a reward pool (`pallets/pooled-rewards/src/lib.rs`).
The stake of a vault in its pool is its backing collateral, and a reward that is distributed
to a pool belongs to the vaults in proportion to their stake.

The keys of the storage map `TotalStake` are iterated over by the reward distribution, so
they are kept as a list.
-/

namespace Spacewalk.PooledRewards

open Foundation Function
open DispatchError (overflow underflow)

/-- The storage of the pallet.  A pool is identified by the collateral currency. -/
structure Storage where
  totalStake : CurrencyId → SignedFixedPoint
  /-- The keys of `TotalStake`. -/
  poolIds : List CurrencyId
  /-- `TotalRewards`, by the currency of the reward. -/
  totalRewards : CurrencyId → SignedFixedPoint
  /-- `RewardPerToken`, by the currency of the reward and the pool. -/
  rewardPerToken : CurrencyId × CurrencyId → SignedFixedPoint
  stake : CurrencyId × VaultId → SignedFixedPoint
  rewardTally : CurrencyId × CurrencyId × VaultId → SignedFixedPoint
  rewardCurrencies : CurrencyId → List CurrencyId

namespace Storage

/-- The empty storage. -/
def genesis : Storage where
  totalStake _ := 0
  poolIds := []
  totalRewards _ := 0
  rewardPerToken _ := 0
  stake _ := 0
  rewardTally _ := 0
  rewardCurrencies _ := []

def totalStakeL : Lens Storage (CurrencyId → SignedFixedPoint) where
  get s := s.totalStake
  put s m := { s with totalStake := m }

def totalRewardsL : Lens Storage (CurrencyId → SignedFixedPoint) where
  get s := s.totalRewards
  put s m := { s with totalRewards := m }

def stakeL : Lens Storage (CurrencyId × VaultId → SignedFixedPoint) where
  get s := s.stake
  put s m := { s with stake := m }

def rewardTallyL : Lens Storage (CurrencyId × CurrencyId × VaultId → SignedFixedPoint) where
  get s := s.rewardTally
  put s m := { s with rewardTally := m }

end Storage

abbrev PalletM (α : Type) := Dispatch DispatchError Storage α

/-- A failure of the pallet. -/
abbrev err (e : PooledRewardsError) : DispatchError := .pooledRewards e

variable (poolId : CurrencyId) (s : Storage) (stakeId : VaultId)

/-- Writing to `TotalStake` creates the key of the pool. -/
def touchPool : PalletM Unit :=
  modify fun s =>
    if poolId ∈ s.poolIds then s else { s with poolIds := s.poolIds ++ [poolId] }

def depositStake (amount : SignedFixedPoint) : PalletM Unit := do
  let _ ← checkedAddMut Storage.stakeL (poolId, stakeId) amount
  let _ ← checkedAddMut Storage.totalStakeL poolId amount
  touchPool poolId
  forM ((← get).rewardCurrencies poolId) fun currencyId => do
    let rewardPerToken := (← get).rewardPerToken (currencyId, poolId)
    let rewardPerTokenMulAmount ← okOr (rewardPerToken.checkedMul amount) overflow
    let _ ← checkedAddMut Storage.rewardTallyL (currencyId, poolId, stakeId)
      rewardPerTokenMulAmount

def withdrawStake (amount : SignedFixedPoint) : PalletM Unit := do
  ensure (amount.inner ≤ ((← get).stake (poolId, stakeId)).inner) (err .insufficientFunds)
  let _ ← checkedSubMut Storage.stakeL (poolId, stakeId) amount
  let _ ← checkedSubMut Storage.totalStakeL poolId amount
  touchPool poolId
  forM ((← get).rewardCurrencies poolId) fun currencyId => do
    let rewardPerToken := (← get).rewardPerToken (currencyId, poolId)
    let rewardPerTokenMulAmount ← okOr (rewardPerToken.checkedMul amount) overflow
    let _ ← checkedSubMut Storage.rewardTallyL (currencyId, poolId, stakeId)
      rewardPerTokenMulAmount

/-- Distribute a reward to a pool.  One caller goes on when this fails, and what was written
before the failure then stays: the error comes with a state. -/
def distributeReward (maxRewardCurrencies : Nat) (poolId currencyId : CurrencyId)
    (reward : SignedFixedPoint) : ExceptT DispatchError (StateM Storage) Unit := do
  if reward = 0 then
    return ()
  let totalStake := (← get).totalStake poolId
  if totalStake = 0 then
    throw (err .zeroTotalStake)
  let rewardCurrencies := (← get).rewardCurrencies poolId
  if currencyId ∉ rewardCurrencies then
    if maxRewardCurrencies ≤ rewardCurrencies.length then
      throw (err .maxRewardCurrencies)
    modify fun s => { s with
      rewardCurrencies :=
        update s.rewardCurrencies poolId (rewardCurrencies ++ [currencyId]) }
  let some rewardDivTotalStake := reward.checkedDiv totalStake | throw underflow
  let some rewardPerToken :=
    ((← get).rewardPerToken (currencyId, poolId)).checkedAdd rewardDivTotalStake | throw overflow
  modify fun s => { s with
    rewardPerToken := update s.rewardPerToken (currencyId, poolId) rewardPerToken }
  let some totalRewards := ((← get).totalRewards currencyId).checkedAdd reward | throw overflow
  modify fun s => { s with
    totalRewards := update s.totalRewards currencyId totalRewards }

/-- The reward of a vault that it has not withdrawn. -/
def computeReward (poolId : CurrencyId) (stakeId : VaultId) (currencyId : CurrencyId) :
    Except DispatchError Int := do
  let stake := s.stake (poolId, stakeId)
  let rewardPerToken := s.rewardPerToken (currencyId, poolId)
  let stakeMulRewardPerToken ← okOr (stake.checkedMul rewardPerToken) overflow
  let rewardTally := s.rewardTally (currencyId, poolId, stakeId)
  let reward ← okOr (stakeMulRewardPerToken.checkedSub rewardTally) underflow
  return reward.truncate

def withdrawReward (currencyId : CurrencyId) : PalletM Int := do
  let reward ← computeReward (← get) poolId stakeId currencyId
  let rewardAsFixed ← okOr (FixedPoint.checkedFromInteger signedFormat reward)
    (err .tryIntoIntError)
  let _ ← checkedSubMut Storage.totalRewardsL currencyId rewardAsFixed
  let s ← get
  let rewardTally ← okOr ((s.stake (poolId, stakeId)).checkedMul
    (s.rewardPerToken (currencyId, poolId))) overflow
  insertEntry Storage.rewardTallyL (currencyId, poolId, stakeId) rewardTally
  return reward

/-! ## The interface of the pallet

The other pallets use the rewards through amounts of type `Balance`. -/

namespace Api

/-- `to_fixed`: a balance as a fixed-point number. -/
def toFixed (amount : Balance) : Except DispatchError SignedFixedPoint :=
  okOr (FixedPoint.checkedFromInteger signedFormat amount) (err .tryIntoIntError)

/-- `try_into`: a signed inner value as a balance. -/
def toBalance (i : Int) : Except DispatchError Balance :=
  if 0 ≤ i then .ok i.toNat else .error (err .tryIntoIntError)

/-- Distribute a reward to a pool; a failure keeps what was written before it. -/
def distributeReward (maxRewardCurrencies : Nat) (poolId currencyId : CurrencyId)
    (amount : Balance) : ExceptT DispatchError (StateM Storage) Unit := do
  PooledRewards.distributeReward maxRewardCurrencies poolId currencyId (← toFixed amount)

def withdrawReward (currencyId : CurrencyId) : PalletM Balance := do
  toBalance (← PooledRewards.withdrawReward poolId stakeId currencyId)

def getStake (poolId : CurrencyId) (stakeId : VaultId) : Except DispatchError Balance :=
  toBalance (s.stake (poolId, stakeId)).truncate

/-- Set the stake of a vault, whatever it was before. -/
def setStake (amount : Balance) : PalletM Unit := do
  let currentStake ← getStake (← get) poolId stakeId
  if currentStake < amount then
    PooledRewards.depositStake poolId stakeId (← toFixed (amount - currentStake))
  else if amount < currentStake then
    PooledRewards.withdrawStake poolId stakeId (← toFixed (currentStake - amount))

/-- The total stake of every pool. -/
def getTotalStakeAllPools : Except DispatchError (List (CurrencyId × Balance)) :=
  s.poolIds.mapM fun poolId => do
    return (poolId, ← toBalance (s.totalStake poolId).truncate)

end Api

end Spacewalk.PooledRewards
