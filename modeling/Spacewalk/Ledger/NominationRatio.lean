import Spacewalk.Ledger.Surroundings
import Spacewalk.Runtime.Replay
import Spacewalk.Staking.Refinement

/-!
# The nomination ratio

The collateral that is nominated to a vault should be at most the vault's own collateral times
`secure / premium - 1`.  Two checks enforce it.  A withdrawal of the vault compares the nominated
collateral with the bound for what remains of the vault's own collateral
(`is_max_nomination_ratio_preserved`).  A nomination compares it with the bound for the backing
collateral, which includes what others have nominated before.

`nomination_within_iff` says when the ratio holds after a call, as long as nothing was slashed:
always after a withdrawal of the vault from the registry, and after the other calls exactly if it
holds for the collateral that results.  The check of a nomination does not imply that:
`second_nomination_exceeds_ratio` nominates twice and exceeds the ratio.
-/

namespace Spacewalk.Nomination

open Foundation Function VaultRegistry
open Staking (scale scale_pos currentPool poolAt Pools)

variable {B : Type} {R : Runtime B} {W : Set CurrencyId} {s s' : Chain B} {v : VaultId}
  {n : AccountId} {amount : ℕ} {u : Unit}

/-! ## The ratio -/

/-- The nominated collateral of the vault is within its bound. -/
def NominationWithin (v : VaultId) (s : Chain B) : Prop :=
  ∃ own nominated limit, computeCollateral v s = .ok own ∧
    getTotalNominatedCollateral v s = .ok nominated ∧
    getMaxNominatableCollateral own v.currencies s = .ok limit ∧ nominated.amount ≤ limit.amount

/-- The whole units of a stake; a negative stake counts as none. -/
def units (stake : ℤ) : ℕ := (stake.tdiv scale).toNat

/-- The ratio holds for a pool with the stake `backing`, of which the vault itself has `own`. -/
def WithinRatio (v : VaultId) (backing own : ℤ) (s : Chain B) : Prop :=
  0 ≤ backing.tdiv scale ∧ units own ≤ units backing ∧
    ∃ limit, getMaxNominatableCollateral ⟨units own, v.currencies.collateral⟩ v.currencies s =
      .ok limit ∧ units backing - units own ≤ limit.amount

/-- The stake of the vault and its nominators. -/
def backingStake (s : Chain B) (v : VaultId) : ℤ := (currentPool s.staking v).current

/-- The stake of the vault itself. -/
def ownStake (s : Chain B) (v : VaultId) : ℤ := (currentPool s.staking v).stake v.accountId

/-! ## Reading the collateral -/

theorem computeCollateral_eq_ok {a : Amount} :
    computeCollateral v s = .ok a ↔ ∃ x, Staking.Api.computeStake s.staking v v.accountId = .ok x ∧
      a = ⟨x, v.currencies.collateral⟩ := by
  simp only [computeCollateral, except_rules]
  exact exists_congr fun x => and_congr_right fun _ => eq_comm

theorem getBackingCollateral_eq_ok {a : Amount} :
    getBackingCollateral v s = .ok a ↔ 0 ≤ (backingStake s v).tdiv scale ∧
      a = ⟨units (backingStake s v), v.currencies.collateral⟩ := by
  simp only [getBackingCollateral, Staking.Api.totalStake, Staking.Api.toBalance, except_rules]
  constructor
  · rintro ⟨x, hx, rfl⟩
    split at hx
    · rename_i hnonneg
      exact ⟨hnonneg, by rw [← Except.ok.inj hx]; rfl⟩
    · cases hx
  · rintro ⟨hnonneg, rfl⟩
    exact ⟨_, if_pos hnonneg, rfl⟩

theorem getMaxNominatableCollateral_currencyId {a limit : Amount} {p : VaultCurrencyPair}
    (h : getMaxNominatableCollateral a p s = .ok limit) : limit.currencyId = a.currencyId := by
  simp only [getMaxNominatableCollateral, except_bind_eq_ok] at h
  obtain ⟨ratio, -, hlimit⟩ := h
  exact Amount.roundedMul_currencyId hlimit

/-- Without slashes, the stake of a nominator is what the storage says. -/
theorem computeStake_of_unslashed {p : Pools} (h : (currentPool p v).UnslashedAt n) :
    Staking.Api.computeStake p v n = .ok (units ((currentPool p v).stake n)) := by
  have hslash : Staking.computeAmountToSlash (p.stake (p.nonce v, v, n))
      (p.slashPerToken (p.nonce v, v)) (p.slashTally (p.nonce v, v, n)) = .ok 0 := by
    have hperToken : (p.slashPerToken (p.nonce v, v)).inner = 0 := h.perToken
    have htally : (p.slashTally (p.nonce v, v, n)).inner = 0 := h.tally
    rw [Staking.computeAmountToSlash_eq_ok, hperToken, htally]
    exact ⟨⟨0, by simp⟩, by simp⟩
  have hstake : Staking.computeStake p v n =
      .ok (max 0 (((currentPool p v).stake n).tdiv scale)) := by
    have hremaining : (poolAt p (p.nonce v, v)).remaining scale n = (currentPool p v).stake n :=
      h.remaining
    refine Staking.computeStakeAtIndex_eq_ok.mpr ⟨⟨0, hslash⟩, ⟨p.stake (p.nonce v, v, n), ?_⟩, ?_⟩
    · exact hremaining.symm
    · rw [hremaining]
  simp only [Staking.Api.computeStake, hstake, except_bind_eq_ok, Except.ok.injEq, exists_eq_left',
    Staking.Api.toBalance, le_max_left, if_true, units]
  rcases le_total (((currentPool p v).stake n).tdiv scale) 0 with hneg | hpos
  · rw [max_eq_left hneg, Int.toNat_of_nonpos hneg]
    rfl
  · rw [max_eq_right hpos]

/-- Without slashes, the ratio is one of the two stakes of the current pool. -/
theorem nominationWithin_iff (h : (currentPool s.staking v).UnslashedAt v.accountId) :
    NominationWithin v s ↔ WithinRatio v (backingStake s v) (ownStake s v) s := by
  have hown {a : Amount} : computeCollateral v s = .ok a ↔
      a = ⟨units (ownStake s v), v.currencies.collateral⟩ := by
    simp only [computeCollateral_eq_ok, computeStake_of_unslashed h, Except.ok.injEq,
      exists_eq_left', ownStake]
  simp only [NominationWithin, WithinRatio, getTotalNominatedCollateral, except_bind_eq_ok,
    Amount.checkedSub_eq_ok, getBackingCollateral_eq_ok, hown]
  constructor
  · rintro ⟨_, _, limit, rfl, ⟨_, ⟨hnonneg, rfl⟩, _, rfl, -, hle, rfl⟩, hlimit, hwithin⟩
    exact ⟨hnonneg, hle, limit, hlimit, hwithin⟩
  · rintro ⟨hnonneg, hle, limit, hlimit, hwithin⟩
    exact ⟨_, _, limit, rfl, ⟨_, ⟨hnonneg, rfl⟩, _, rfl, rfl, hle, rfl⟩, hlimit, hwithin⟩

/-- The check of a withdrawal, and with it the ratio: it holds iff the check passes for no
withdrawal. -/
theorem isMaxNominationRatioPreserved_zero :
    isMaxNominationRatioPreserved v ⟨0, v.currencies.collateral⟩ s = .ok true ↔
      NominationWithin v s := by
  simp only [isMaxNominationRatioPreserved, NominationWithin, getTotalNominatedCollateral,
    except_bind_eq_ok, Amount.checkedSub_eq_ok, Amount.le, Amount.compare_eq_ok]
  constructor
  · rintro ⟨own, hown, backing, hbacking, nominated, ⟨hc, hle, rfl⟩, own', ⟨-, -, rfl⟩, limit, hlimit,
      -, hwithin⟩
    refine ⟨own, _, limit, hown, ⟨backing, hbacking, own, hown, hc, hle, rfl⟩, hlimit, ?_⟩
    exact of_decide_eq_true hwithin.symm
  · rintro ⟨own, nominated, limit, hown, ⟨backing, hbacking, own', hown', hc, hle, rfl⟩, hlimit, hwithin⟩
    obtain rfl := ok_unique hown hown'
    obtain ⟨x, -, rfl⟩ := computeCollateral_eq_ok.mp hown
    refine ⟨_, hown, backing, hbacking, _, ⟨hc, hle, rfl⟩, _, ⟨rfl, Nat.zero_le _, rfl⟩, limit,
      hlimit, ?_, (decide_eq_true hwithin).symm⟩
    exact hc.trans (getMaxNominatableCollateral_currencyId hlimit).symm

/-! ## What the calls do to the pool -/

/-- Neither the stakes change nor the surroundings. -/
def SameStaking (s s' : Chain B) : Prop := SameSurroundings s s' ∧ s'.staking = s.staking

instance sameStaking_refl : Std.Refl (SameStaking (B := B)) := ⟨fun _ => ⟨rfl, rfl⟩⟩

instance sameStaking_trans : IsTrans (Chain B) SameStaking :=
  ⟨fun _ _ _ h h' => ⟨trans_of SameSurroundings h.1 h'.1, h'.2.trans h.2⟩⟩

variable {stake : ℤ} (a : Amount) {x : ℕ}

theorem transfer_sameStaking (m n : AccountId) : Respects SameStaking (a.transfer R m n) :=
  .zoom (fun _ _ => ⟨rfl, rfl⟩) _

theorem lockOn_sameStaking (n : AccountId) : Respects SameStaking (a.lockOn R n) :=
  .zoom (fun _ _ => ⟨rfl, rfl⟩) _

theorem unlockOn_sameStaking (n : AccountId) : Respects SameStaking (a.unlockOn R n) :=
  Ledger.unlockOn_respects (fun _ _ => ⟨rfl, rfl⟩) a n

theorem tryIncreaseTotalBackingCollateral_sameStaking (p : VaultCurrencyPair) (a : Amount) :
    Respects SameStaking (tryIncreaseTotalBackingCollateral p a : ChainM B Unit) :=
  Ledger.tryIncreaseTotalBackingCollateral_respects (fun _ _ => ⟨rfl, rfl⟩) p a

theorem decreaseTotalBackingCollateral_sameStaking (p : VaultCurrencyPair) (a : Amount) :
    Respects SameStaking (decreaseTotalBackingCollateral p a : ChainM B Unit) :=
  Ledger.decreaseTotalBackingCollateral_respects (fun _ _ => ⟨rfl, rfl⟩) p a

theorem checkWithdrawal_sameStaking (v : VaultId) (a : Amount) :
    Respects SameStaking (checkWithdrawal R v a) := by
  unfold checkWithdrawal
  refine .reads fun allowed => .lift fun _ => .gets fun s => ?_
  refine .lift fun _ => .lift fun _ => ?_
  exact decreaseTotalBackingCollateral_sameStaking _ _

theorem updateRewardStake_sameStaking (v : VaultId) :
    Respects SameStaking (PoolManager.updateRewardStake v : ChainM B Unit) :=
  Ledger.updateRewardStake_respects (fun _ _ => ⟨rfl, rfl⟩) v

/-- The stakes are the same; rewards may differ. -/
def SamePools (s s' : Chain B) : Prop :=
  poolAt s'.staking = poolAt s.staking ∧ s'.staking.nonce = s.staking.nonce

instance samePools_refl : Std.Refl (SamePools (B := B)) := ⟨fun _ => ⟨rfl, rfl⟩⟩

instance samePools_trans : IsTrans (Chain B) SamePools :=
  ⟨fun _ _ _ h h' => ⟨h'.1.trans h.1, h'.2.trans h.2⟩⟩

theorem withdrawAllRewardsFromVault_samePools (v : VaultId) :
    Respects SamePools (RewardDistribution.withdrawAllRewardsFromVault R v) := by
  refine Ledger.withdrawAllRewardsFromVault_respects (fun _ => .zoom (fun _ _ => ⟨rfl, rfl⟩) _) ?_
  intro x c s y s' h
  simp only [Chain.returns_staking, Staking.Api.distributeReward, returns_steps] at h
  obtain ⟨t, ⟨_, -, y, _, hdistribute, -, rfl⟩, rfl⟩ := h
  obtain ⟨_, _, rfl⟩ := Staking.distributeReward_returns hdistribute
  exact ⟨rfl, rfl⟩

theorem currentPool_congr {p q : Pools} (hpools : poolAt p = poolAt q) (hnonce : p.nonce = q.nonce)
    (v : VaultId) : currentPool p v = currentPool q v := by
  rw [currentPool, Staking.currentKey, hpools, hnonce]
  rfl

/-- A function of the manager changes the stakes as its operation on the pools does. -/
theorem managed_returns {m : Staking.PalletM Unit} (h : Returns (do
      RewardDistribution.withdrawAllRewardsFromVault R v
      zoom Chain.stakingL m
      PoolManager.updateRewardStake v) s u s') :
    SameSurroundings s s' ∧
      ∃ p, poolAt p = poolAt s.staking ∧ p.nonce = s.staking.nonce ∧ Returns m p () s'.staking := by
  refine ⟨managed_surroundings v m s u s' h, ?_⟩
  simp only [returns_bind, Chain.returns_staking] at h
  obtain ⟨_, s₁, hrewards, _, _, ⟨p', hm, rfl⟩, hupdate⟩ := h
  obtain ⟨hpools, hnonce⟩ := withdrawAllRewardsFromVault_samePools v _ _ _ hrewards
  obtain ⟨-, hsame⟩ := updateRewardStake_sameStaking v _ _ _ hupdate
  exact ⟨s₁.staking, hpools, hnonce, hsame ▸ hm⟩

/-- What an operation on the current pool of a vault leaves: the position of `n` is settled and its
stake changed. -/
def ChangesStake (v : VaultId) (n : AccountId) (change : ℤ) (s s' : Chain B) : Prop :=
  SameSurroundings s s' ∧ currentPool s'.staking v =
    ((currentPool s.staking v).settle scale n).adjust scale n (scale * change)

/-- A deposit adds to the stake of the nominator. -/
theorem poolDeposit_changes
    (h : Returns (PoolManager.depositCollateral R v n ⟨amount, v.collateralCurrency⟩) s u s') :
    ChangesStake v n amount s s' := by
  obtain ⟨hsame, p, hpools, hnonce, h⟩ := managed_returns h
  obtain ⟨y, hy, h⟩ := Staking.returns_apiDepositStake.mp h
  refine ⟨hsame, ?_⟩
  rw [(Staking.depositStake_acts h).currentPool, currentPool_congr hpools hnonce, hy, mul_comm]

/-- A withdrawal from the current pool subtracts from the stake of the nominator, and one from an
older pool settles the position in the current one. -/
theorem poolWithdraw_changes {index : Option Nonce}
    (h : Returns (PoolManager.withdrawCollateral R v n ⟨amount, v.collateralCurrency⟩ index)
      s u s') :
    ChangesStake v n
      (if index.getD (s.staking.nonce v) = s.staking.nonce v then -(amount : ℤ) else 0) s s' := by
  obtain ⟨hsame, p, hpools, hnonce, h⟩ := managed_returns h
  obtain ⟨y, hy, h⟩ := Staking.returns_apiWithdrawStake.mp h
  obtain ⟨hafter, hnonce', -⟩ := Staking.withdrawStake_pools h
  have hkey : Staking.currentKey p v = Staking.currentKey s.staking v := by
    rw [Staking.currentKey, hnonce]
    rfl
  refine ⟨hsame, ?_⟩
  rw [currentPool, Staking.currentKey, hafter, hnonce', hnonce, hy, mul_comm,
    Staking.settleThenAdjust, currentPool_congr hpools hnonce, hpools, hkey]
  split
  case isTrue hindex =>
    rw [hindex, update_self, Staking.currentKey, update_self, mul_neg]
  case isFalse hindex =>
    have hne : (s.staking.nonce v, v) ≠ (index.getD (s.staking.nonce v), v) := by
      intro heq
      exact hindex (Prod.mk.inj heq).1.symm
    rw [update_of_ne hne, Staking.currentKey, update_self, mul_zero,
      LazyPool.adjust_zero]

/-- A call that nominates collateral, or with which a vault withdraws collateral of its own.  A vault
can do that in the registry or, like a nominator, in the nomination pallet. -/
inductive CollateralCall where
  | nominate (nominatorId : AccountId) (vaultId : VaultId) (amount : ℕ)
  | withdraw (vaultId : VaultId) (amount : ℕ)
  | withdrawAsNominator (vaultId : VaultId) (amount : ℕ) (index : Option Nonce)

namespace CollateralCall

/-- The vault whose pool is changed. -/
def vaultId : CollateralCall → VaultId
  | nominate _ v _ => v
  | withdraw v _ => v
  | withdrawAsNominator v _ _ => v

/-- The account that calls, and whose stake is changed. -/
def caller : CollateralCall → AccountId
  | nominate n _ _ => n
  | withdraw v _ => v.accountId
  | withdrawAsNominator v _ _ => v.accountId

def call : CollateralCall → RuntimeCall
  | nominate _ v amount => .nomination (.depositCollateral v amount)
  | withdraw v amount => .vaultRegistry (.withdrawCollateral v.currencies amount)
  | withdrawAsNominator v amount index => .nomination (.withdrawCollateral v amount index)

/-- What the caller's stake in the current pool changes by, in whole units. -/
def change (s : Chain B) : CollateralCall → ℤ
  | nominate _ _ amount => amount
  | withdraw _ amount => -amount
  | withdrawAsNominator v amount index =>
    if min (index.getD 0) (s.staking.nonce v) = s.staking.nonce v then -amount else 0

/-- The ratio is kept: the vault withdraws from the registry, which checks it, or it holds for the
stakes that result. -/
def KeepsRatio (s : Chain B) (c : CollateralCall) : Prop :=
  match c with
  | withdraw _ _ => True
  | _ => WithinRatio c.vaultId (backingStake s c.vaultId + scale * c.change s)
      (ownStake s c.vaultId +
        if c.caller = c.vaultId.accountId then scale * c.change s else 0) s

end CollateralCall

theorem depositCollateral_changes
    (h : Returns (depositCollateral R (.signed n) v amount) s u s') :
    ChangesStake v n amount s s' := by
  simp only [depositCollateral, returns_guards, ensureSigned_eq_ok, Origin.signed.injEq] at h
  obtain ⟨_, -, -, -, _, -, _, -, _, -, _, -, _, -, -, _, s₁, hdeposit, _, s₂, htransfer, _, s₃,
    hlock, htotal⟩ := h
  obtain ⟨hsame, hpool⟩ := poolDeposit_changes hdeposit
  obtain ⟨hrest, hstaking⟩ : SameStaking s₁ s' :=
    trans_of SameStaking (transfer_sameStaking _ _ _ _ _ _ htransfer) <|
      trans_of SameStaking (lockOn_sameStaking _ _ _ _ _ hlock) <|
        tryIncreaseTotalBackingCollateral_sameStaking _ _ _ _ _ htotal
  exact ⟨trans_of SameSurroundings hsame hrest, hstaking ▸ hpool⟩

theorem withdrawCollateral_changes
    (h : Returns (VaultRegistry.withdrawCollateral R (.signed v.accountId) v.currencies amount)
      s u s') :
    ChangesStake v v.accountId (-amount) s s' ∧
      isMaxNominationRatioPreserved v ⟨amount, v.currencies.collateral⟩ s = .ok true := by
  simp only [VaultRegistry.withdrawCollateral, tryWithdrawCollateral, forceWithdrawCollateral,
    returns_rules, ensureSigned_eq_ok, Origin.signed.injEq, ensure_eq_ok] at h
  obtain ⟨_, _, ⟨rfl, rfl⟩, _, _, ⟨-, rfl⟩, _, _, hwithdraw, _, _, ⟨-, rfl⟩, -, rfl⟩ := h
  obtain ⟨_, _, ⟨-, rfl⟩, _, _, ⟨-, rfl⟩, _, _, ⟨hratio, rfl⟩, _, _, ⟨rfl, rfl⟩, h⟩ := hwithdraw
  obtain ⟨_, s₁, hunlock, _, s₂, htotal, hwithdraw⟩ := h
  obtain ⟨hsame, hstaking⟩ : SameStaking s s₂ :=
    trans_of SameStaking (unlockOn_sameStaking _ _ _ _ _ hunlock)
      (decreaseTotalBackingCollateral_sameStaking _ _ _ _ _ htotal)
  obtain ⟨hrest, hpool⟩ := poolWithdraw_changes hwithdraw
  refine ⟨⟨trans_of SameSurroundings hsame hrest, ?_⟩, hratio⟩
  simpa only [hstaking, Option.getD_none, if_true] using hpool

theorem withdrawAsNominator_changes {index : Option Nonce}
    (h : Returns (withdrawCollateral R (.signed n) v amount index) s u s') :
    ChangesStake v n (if min (index.getD 0) (s.staking.nonce v) = s.staking.nonce v then
      -(amount : ℤ) else 0) s s' := by
  simp only [withdrawCollateral, returns_steps, ensureSigned_eq_ok, Origin.signed.injEq] at h
  obtain ⟨_, -, h⟩ := h
  -- only a withdrawal from the current pool is checked
  obtain ⟨s₁, ⟨hsame, hstaking⟩, hrest⟩ : ∃ s₁, SameStaking s s₁ ∧ Returns (do
      PoolManager.withdrawCollateral R v n ⟨amount, v.collateralCurrency⟩
        (some (min (index.getD 0) (s.staking.nonce v)))
      (⟨amount, v.collateralCurrency⟩ : Amount).unlockOn R v.accountId
      (⟨amount, v.collateralCurrency⟩ : Amount).transfer R v.accountId n) s₁ u s' := by
    rcases returns_ite.mp h with ⟨-, h⟩ | ⟨-, h⟩
    · obtain ⟨_, s₁, hcheck, h⟩ := returns_bind.mp h
      exact ⟨s₁, checkWithdrawal_sameStaking _ _ _ _ _ hcheck, h⟩
    · exact ⟨s, refl_of SameStaking s, h⟩
  simp only [returns_bind] at hrest
  obtain ⟨_, s₂, hwithdraw, _, s₃, hunlock, htransfer⟩ := hrest
  obtain ⟨hsame', hpool⟩ := poolWithdraw_changes hwithdraw
  obtain ⟨hrest, hstaking'⟩ : SameStaking s₂ s' :=
    trans_of SameStaking (unlockOn_sameStaking _ _ _ _ _ hunlock)
      (transfer_sameStaking _ _ _ _ _ _ htransfer)
  refine ⟨trans_of SameSurroundings hsame (trans_of SameSurroundings hsame' hrest), ?_⟩
  simpa only [hstaking, hstaking', Option.getD_some] using hpool

/-! ## The ratio after a call -/

/-- Whole units are part of the stake. -/
theorem scale_mul_le_of_le_units (hpos : 0 < x) (hx : x ≤ units stake) : scale * x ≤ stake := by
  have hunits : (x : ℤ) ≤ stake.tdiv scale := by
    unfold units at hx
    omega
  have hnonneg : 0 ≤ stake := by
    by_contra hneg
    have hquot : 0 ≤ (-stake).tdiv scale := Int.tdiv_nonneg (by omega) scale_pos.le
    rw [Int.neg_tdiv] at hquot
    omega
  calc scale * (x : ℤ) ≤ scale * stake.tdiv scale := mul_le_mul_of_nonneg_left hunits scale_pos.le
    _ ≤ stake := Int.mul_tdiv_self_le hnonneg

theorem tdiv_sub_units (hx : x ≤ units stake) :
    (stake - scale * x).tdiv scale = stake.tdiv scale - x := by
  rcases Nat.eq_zero_or_pos x with rfl | hpos
  · simp
  · have hle := scale_mul_le_of_le_units hpos hx
    have hwithdrawn : 0 ≤ scale * (x : ℤ) := mul_nonneg scale_pos.le (Int.natCast_nonneg x)
    have hquot : (stake + scale * -(x : ℤ)).tdiv scale = stake.tdiv scale + -x :=
      LazyPool.tdiv_add_mul_of_nonneg scale_pos (by linarith) (by linarith)
    rwa [mul_neg, ← sub_eq_add_neg, ← sub_eq_add_neg] at hquot

theorem units_sub (hx : x ≤ units stake) : units (stake - scale * x) = units stake - x := by
  rw [units, tdiv_sub_units hx]
  exact Int.toNat_sub' _ _

/-- The check of a withdrawal is the ratio for the stakes that result. -/
theorem withinRatio_of_check (hs : (currentPool s.staking v).UnslashedAt v.accountId)
    (h : isMaxNominationRatioPreserved v ⟨amount, v.currencies.collateral⟩ s = .ok true) :
    WithinRatio v (backingStake s v - scale * amount) (ownStake s v - scale * amount) s := by
  simp only [isMaxNominationRatioPreserved, except_bind_eq_ok, Amount.checkedSub_eq_ok, Amount.le,
    Amount.compare_eq_ok, getBackingCollateral_eq_ok, computeCollateral_eq_ok,
    computeStake_of_unslashed hs] at h
  obtain ⟨_, ⟨_, ⟨⟩, rfl⟩, _, ⟨hnonneg, rfl⟩, _, ⟨-, hle, rfl⟩, _, ⟨-, hamount, rfl⟩, limit, hlimit, -,
    hwithin⟩ := h
  change units (ownStake s v) ≤ units (backingStake s v) at hle
  change amount ≤ units (ownStake s v) at hamount
  have hown := units_sub hamount
  have hunits := units_sub (hamount.trans hle)
  refine ⟨?_, ?_, limit, ?_, ?_⟩
  · rw [tdiv_sub_units (hamount.trans hle)]
    have := hamount.trans hle
    unfold units at this
    omega
  · rw [hown, hunits]
    omega
  · rw [hown]
    exact hlimit
  · have := of_decide_eq_true hwithin.symm
    rw [hown, hunits]
    change units (backingStake s v) - units (ownStake s v) ≤ limit.amount at this
    omega

theorem WithinRatio.congr {backing own : ℤ} (h : SameSurroundings s s') :
    WithinRatio v backing own s' ↔ WithinRatio v backing own s := by
  unfold WithinRatio
  rw [h.getMaxNominatableCollateral_eq]

/-- The ratio after an operation on the current pool is that of the stakes that result. -/
theorem ChangesStake.nominationWithin_iff {change : ℤ}
    (hs : (currentPool s.staking v).UnslashedAt v.accountId) (h : ChangesStake v n change s s') :
    NominationWithin v s' ↔ WithinRatio v (backingStake s v + scale * change)
      (ownStake s v + if n = v.accountId then scale * change else 0) s := by
  obtain ⟨hsame, hpool⟩ := h
  obtain ⟨hsettled, hstake⟩ := hs.settle (D := scale) n
  have hown : ownStake s' v =
      ownStake s v + if n = v.accountId then scale * change else 0 := by
    rw [ownStake, hpool, LazyPool.adjust_stake, update_apply, ownStake, ← hstake]
    by_cases hn : n = v.accountId
    · simp [hn]
    · simp [hn, Ne.symm hn]
  rw [Nomination.nominationWithin_iff (hpool ▸ hsettled.adjust n), WithinRatio.congr hsame, hown,
    backingStake, hpool]
  rfl

/-- A step of the chain after which the vault has no announced slash. -/
def QuietStep (R : Runtime B) (W : Set CurrencyId) (v : VaultId) (s : Chain B) (record : Record)
    (s' : Chain B) : Prop :=
  Step R W s record s' ∧ (currentPool s'.staking v).UnslashedAt v.accountId

theorem unslashed_of_run {s₀ : Chain B} {records : List Record} (hgenesis : IsGenesis s₀)
    (hrun : Run (QuietStep R W v) s₀ records s) :
    (currentPool s.staking v).UnslashedAt v.accountId := by
  refine hrun.invariant (I := fun s => (currentPool s.staking v).UnslashedAt v.accountId)
    (fun _ _ _ _ hstep => hstep.2) ?_
  rw [hgenesis.staking]
  exact ⟨rfl, rfl⟩

/-- In a run without slashes of the vault, its nominated collateral is within the bound after a
nomination or a withdrawal of the vault, if and only if the call keeps the ratio.  The check
`is_max_nomination_ratio_preserved` with no withdrawal says the same. -/
theorem nomination_within_iff {s₀ : Chain B} {records : List Record} {c : CollateralCall}
    (hgenesis : IsGenesis s₀) (hrun : Run (QuietStep R W c.vaultId) s₀ records s)
    (h : Returns (c.call.dispatch R (.signed c.caller)) s u s') :
    (NominationWithin c.vaultId s' ↔ c.KeepsRatio s) ∧
      (isMaxNominationRatioPreserved c.vaultId ⟨0, c.vaultId.currencies.collateral⟩ s' =
        .ok true ↔ c.KeepsRatio s) := by
  have hs := unslashed_of_run hgenesis hrun
  rw [isMaxNominationRatioPreserved_zero, and_self]
  cases c with
  | nominate n v amount => exact (depositCollateral_changes h).nominationWithin_iff hs
  | withdraw v amount =>
    obtain ⟨hchanges, hcheck⟩ := withdrawCollateral_changes h
    refine (hchanges.nominationWithin_iff hs).trans (iff_true_intro ?_)
    simpa [CollateralCall.vaultId, sub_eq_add_neg] using withinRatio_of_check hs hcheck
  | withdrawAsNominator v amount index =>
    exact (withdrawAsNominator_changes h).nominationWithin_iff hs

/-- Account 2 nominates 300000 to the vault of account 1, which has 2000000 of its own. -/
def nominating : List Record :=
  registering ++
    [signed 1 (.nomination (.optInToNomination samplePair)),
      signed 2 (.nomination (.depositCollateral (sampleVault 1) 300000))]

/-- Carry out a step, and go on if the vault has no announced slash. -/
def executeQuiet (v : VaultId) (s : Chain SampleTokens) (record : Record) :
    Option (Chain SampleTokens) :=
  (execute sampleRuntime id s record).filter fun s' =>
    decide ((currentPool s'.staking v).perToken = 0 ∧
      (currentPool s'.staking v).tally v.accountId = 0)

theorem quietStep_of_execute (s : Chain SampleTokens) (record : Record) (s' : Chain SampleTokens)
    (h : executeQuiet v s record = some s') : QuietStep sampleRuntime ∅ v s record s' := by
  obtain ⟨hstep, hquiet⟩ := Option.filter_eq_some_iff.mp h
  obtain ⟨hperToken, htally⟩ := of_decide_eq_true hquiet
  exact ⟨step_of_execute environmentStep_refl s record s' hstep, hperToken, htally⟩

/-- A withdrawal after the nomination is bounded by it. -/
theorem nomination_within_after_withdrawal :
    ∃ s s', Run (QuietStep sampleRuntime ∅ (sampleVault 1)) sampleGenesis nominating s ∧
      Returns ((CollateralCall.withdraw (sampleVault 1) 50000).call.dispatch sampleRuntime
        (.signed ⟨1⟩)) s () s' ∧ NominationWithin (sampleVault 1) s' := by
  obtain ⟨s, hrun, s', hcall, -⟩ : ∃ s,
      Run (QuietStep sampleRuntime ∅ (sampleVault 1)) sampleGenesis nominating s ∧ ∃ s',
        Returns ((CollateralCall.withdraw (sampleVault 1) 50000).call.dispatch sampleRuntime
          (.signed ⟨1⟩)) s () s' ∧ True :=
    Run.exists_of_replay quietStep_of_execute (by decide +kernel)
  have hwithin := nomination_within_iff (c := .withdraw (sampleVault 1) 50000)
    sampleGenesis_isGenesis hrun hcall
  exact ⟨s, s', hrun, hcall, hwithin.1.mpr trivial⟩

/-- A second nomination passes the check, because the first one counts as collateral of the vault
there, and exceeds the ratio. -/
theorem second_nomination_exceeds_ratio :
    ∃ s s', Run (QuietStep sampleRuntime ∅ (sampleVault 1)) sampleGenesis nominating s ∧
      Returns ((CollateralCall.nominate ⟨2⟩ (sampleVault 1) 40000).call.dispatch sampleRuntime
        (.signed ⟨2⟩)) s () s' ∧
      isMaxNominationRatioPreserved (sampleVault 1) ⟨0, samplePair.collateral⟩ s = .ok true ∧
      isMaxNominationRatioPreserved (sampleVault 1) ⟨0, samplePair.collateral⟩ s' = .ok false ∧
      ¬ NominationWithin (sampleVault 1) s' := by
  obtain ⟨s, hrun, hbefore, s', hcall, hafter⟩ : ∃ s,
      Run (QuietStep sampleRuntime ∅ (sampleVault 1)) sampleGenesis nominating s ∧
        isMaxNominationRatioPreserved (sampleVault 1) ⟨0, samplePair.collateral⟩ s = .ok true ∧
        ∃ s', Returns ((CollateralCall.nominate ⟨2⟩ (sampleVault 1) 40000).call.dispatch
          sampleRuntime (.signed ⟨2⟩)) s () s' ∧
          isMaxNominationRatioPreserved (sampleVault 1) ⟨0, samplePair.collateral⟩ s' = .ok false :=
    Run.exists_of_replay quietStep_of_execute (by decide +kernel)
  refine ⟨s, s', hrun, hcall, hbefore, hafter, fun hwithin => ?_⟩
  have htrue := isMaxNominationRatioPreserved_zero.mpr hwithin
  cases hafter.symm.trans htrue

end Spacewalk.Nomination
