import Spacewalk.Rewards.Distribution
import Spacewalk.Staking.Outcomes

/-!
# Collecting the rewards of a closed pool

`collect_reward` moves the reward of a vault to its current pool, compares what the caller can expect
with the existential deposit, and then withdraws from the pool with the given nonce.  The
expectation is computed for the current pool, whatever the nonce is.

The pools of one vault do not share any entry.  Moving the reward writes to the current pool
(`moveReward_sameAt`), and so does the settlement of slashes (`applySlash_sameAt`), so that the reward
of a closed pool stays what it was.  `collectReward_pays_iff` says exactly when it is paid: the caller
must have a reward in the current pool as well, the bookkeeping must not overflow, and a native
reward that takes all of the fee pool needs a registered liability.
-/

namespace Spacewalk.RewardDistribution

open Foundation Function Staking

variable {B : Type} {R : Runtime B} {s s' : Chain B} {v : VaultId} {c : CurrencyId} {n : AccountId}
  {k : Nonce} {r : ℕ}

/-! ## The entries of one position -/

/-- The entries that decide the reward of a nominator in the pool `k` are the same. -/
structure SameAt (k : Nonce) (c : CurrencyId) (v : VaultId) (n : AccountId) (p p' : Pools) :
    Prop where
  stake : p'.stake (k, v, n) = p.stake (k, v, n)
  slashPerToken : p'.slashPerToken (k, v) = p.slashPerToken (k, v)
  slashTally : p'.slashTally (k, v, n) = p.slashTally (k, v, n)
  rewardPerToken : p'.rewardPerToken (c, k, v) = p.rewardPerToken (c, k, v)
  rewardTally : p'.rewardTally (c, k, v, n) = p.rewardTally (c, k, v, n)
  totalRewards : p'.totalRewards (c, k, v) = p.totalRewards (c, k, v)

section

variable {p p' : Pools}

theorem SameAt.computeRewardAtIndex_eq (h : SameAt k c v n p p') :
    computeRewardAtIndex p' k c v n = computeRewardAtIndex p k c v n := by
  simp only [computeRewardAtIndex, computeStakeAtIndex, h.stake, h.slashPerToken, h.slashTally,
    h.rewardPerToken, h.rewardTally]

/-- Slashes are settled in the current pool only. -/
theorem applySlash_sameAt {x : SignedFixedPoint} (hk : k ≠ p.nonce v)
    (h : Returns (applySlash v n) p x p') : SameAt k c v n p p' := by
  obtain ⟨-, -, total, tally, -, -, rfl⟩ := returns_applySlash.mp h
  have hkey : (k, v, n) ≠ (p.nonce v, v, n) := fun heq => hk (congrArg Prod.fst heq)
  exact ⟨update_of_ne hkey _ _, rfl, update_of_ne hkey _ _, rfl, rfl, rfl⟩

theorem returns_withdrawRewardAtIndex {x : ℤ} :
    Returns (withdrawRewardAtIndex k c v n) p x p' ↔
      ∃ stake p₁, Returns (applySlash v n) p stake p₁ ∧ computeRewardAtIndex p₁ k c v n = .ok x ∧
      ∃ reward total tally, FixedPoint.checkedFromInteger signedFormat x = some reward ∧
        (p₁.totalRewards (c, k, v)).checkedSub reward = some total ∧
        (p₁.stake (k, v, n)).checkedMul (p₁.rewardPerToken (c, k, v)) = some tally ∧
        p' = { p₁ with
          totalRewards := update p₁.totalRewards (c, k, v) total
          rewardTally := update p₁.rewardTally (c, k, v, n) tally } := by
  simp only [withdrawRewardAtIndex, returns_rules, okOr_eq_ok, returns_checkedSubMut,
    returns_insertEntry, FixedPoint.checkedSub_eq_some]
  constructor
  · intro h
    obtain ⟨stake, p₁, happly, _, _, ⟨rfl, rfl⟩, x', _, ⟨hx, rfl⟩, reward, _, ⟨hreward, rfl⟩, h⟩ := h
    obtain ⟨total, _, ⟨htotal, rfl⟩, _, _, ⟨rfl, rfl⟩, tally, _, ⟨htally, rfl⟩, _, _, rfl, rfl, rfl⟩ := h
    exact ⟨stake, p₁, happly, hx, reward, total, tally, hreward, htotal, htally, rfl⟩
  · rintro ⟨stake, p₁, happly, hx, reward, total, tally, hreward, htotal, htally, rfl⟩
    exact ⟨stake, p₁, happly, p₁, p₁, ⟨rfl, rfl⟩, x, p₁, ⟨hx, rfl⟩, reward, p₁, ⟨hreward, rfl⟩, total,
      _, ⟨htotal, rfl⟩, _, _, ⟨rfl, rfl⟩, tally, _, ⟨htally, rfl⟩, ⟨⟩, _, rfl, rfl, rfl⟩

end

/-! ## The payment -/

/-- If a native reward takes all of the fee pool, a liability must be registered: the branch that
mints what is missing is entered, although nothing is missing. -/
def LiabilityRegistered (R : Runtime B) (s : Chain B) (c : CurrencyId) (r : ℕ) : Prop :=
  c = R.staking.getNativeCurrencyId → R.tokens.freeBalance s.tokens c R.feePoolAccountId = r →
    s.rewardDistribution.nativeLiability ≠ none

section

theorem free_deposit_zero (h : Holdings AccountId CurrencyId) (c : CurrencyId) (a : AccountId) :
    (h.deposit c a 0).free = h.free := by
  funext c' a'
  simp only [Holdings.deposit, setBalance_apply, Nat.add_zero]
  split_ifs with heq
  · rw [heq.1, heq.2]
  · rfl

/-- A reward that the fee pool covers is paid from it. -/
theorem transferReward_free (hR : R.tokens.Lawful) {u : Unit}
    (hfunds : r ≤ R.tokens.freeBalance s.tokens c R.feePoolAccountId)
    (h : Returns (transferReward R c r n) s u s') :
    R.tokens.freeBalance s'.tokens =
        ((R.tokens.holdings s.tokens).transfer c R.feePoolAccountId n r).free ∧
      LiabilityRegistered R s c r := by
  have htransfer : ∀ {x : ℕ} {t : Chain B}, Returns ((⟨x, c⟩ : Amount).transfer R R.feePoolAccountId
      n) s () t → R.tokens.freeBalance t.tokens =
        ((R.tokens.holdings s.tokens).transfer c R.feePoolAccountId n x).free := by
    intro x t ht
    obtain ⟨b, hb, rfl⟩ := returns_zoom.mp ht
    exact congrArg Holdings.free (hR.transfer _ _ _ _ _ _ _ hb).2
  simp only [transferReward, returns_ite, returns_rules, except_rules] at h
  rcases h with ⟨hnative, _, _, ⟨rfl, rfl⟩, ⟨hlt, h⟩ | ⟨hge, h⟩⟩ | ⟨hother, h⟩
  · exact ⟨htransfer h, fun _ hall => absurd hlt (by omega)⟩
  · obtain ⟨_, _, ⟨rfl, rfl⟩, liability, _, ⟨hliability, rfl⟩, _, _, ⟨-, rfl⟩, _, t, ht, h⟩ := h
    obtain ⟨o, t', hmint, rfl⟩ := h
    have hall : R.tokens.freeBalance s.tokens c R.feePoolAccountId = r := by omega
    rw [hall] at ht
    refine ⟨?_, fun _ _ hnone => by rw [hnone] at hliability; cases hliability⟩
    rw [← htransfer ht]
    -- Nothing is missing, so the deposit that is attempted changes no balance.
    rcases returns_attempt hmint with ⟨a, -, hdeposit⟩ | ⟨-, rfl, -⟩
    · obtain ⟨b, hb, rfl⟩ := returns_zoom.mp hdeposit
      have hheld := hR.deposit _ _ _ _ _ _ hb
      rw [hall, Nat.sub_self] at hheld
      have hfree := congrArg Holdings.free hheld
      rw [free_deposit_zero] at hfree
      exact hfree
    · rfl
  · exact ⟨htransfer h, fun hnative => absurd hnative hother⟩

theorem transferReward_succeeds (hR : R.tokens.Lawful) (hC : R.tokens.Covering)
    (hfunds : r ≤ R.tokens.freeBalance s.tokens c R.feePoolAccountId)
    (hregistered : LiabilityRegistered R s c r) :
    ∃ s', Returns (transferReward R c r n) s () s' := by
  obtain ⟨t, ht, -⟩ := transfer_succeeds (s := s) (a := ⟨r, c⟩)
    R.feePoolAccountId n hR hC hfunds
  simp only [transferReward, returns_ite, returns_rules, except_rules]
  by_cases hnative : c = R.staking.getNativeCurrencyId
  · rcases hfunds.lt_or_eq with hlt | hall
    · exact ⟨_, .inl ⟨hnative, s, s, ⟨rfl, rfl⟩, .inl ⟨hlt, ht⟩⟩⟩
    · obtain ⟨liability, hliability⟩ :=
        Option.ne_none_iff_exists'.mp (hregistered hnative hall.symm)
      obtain ⟨o, t', hmint⟩ := attempt_returns
        ((⟨r - R.tokens.freeBalance s.tokens c R.feePoolAccountId, c⟩ : Amount).mintTo R n)
        (withTokens t s)
      rw [hall] at ht
      exact ⟨_, .inl ⟨hnative, s, s, ⟨rfl, rfl⟩, .inr ⟨by omega, s, s, ⟨rfl, rfl⟩, liability, s,
        ⟨hliability, rfl⟩, (), s, ⟨by omega, rfl⟩, (), _, ht, o, t', hmint, rfl⟩⟩⟩
  · exact ⟨_, .inr ⟨hnative, ht⟩⟩

end

/-! ## The collection -/

/-- Moving the reward of the vault to its current pool succeeds, and leaves the caller a reward in the
current pool that is not zero and at least the existential deposit. -/
def CurrentRewardSuffices (R : Runtime B) (s : Chain B) (v : VaultId) (c : CurrencyId)
    (n : AccountId) : Prop :=
  ∃ t expected, Returns (moveReward v c) s () t ∧
    Staking.Api.computeReward t.staking v n c = .ok expected ∧ expected ≠ 0 ∧
    R.existentialDeposits c ≤ expected

/-- The bookkeeping of a withdrawal of `r` from the pool `k` does not overflow: the slash of the
caller in the current pool can be settled, the reward can be subtracted from the total rewards of the
pool, and the new tally of the caller can be computed. -/
structure CanBook (p : Pools) (k : Nonce) (c : CurrencyId) (v : VaultId) (n : AccountId) (r : ℕ) :
    Prop where
  slash : ∃ x p', Returns (applySlash v n) p x p'
  total : ∃ reward total, FixedPoint.checkedFromInteger signedFormat (r : ℤ) = some reward ∧
    (p.totalRewards (c, k, v)).checkedSub reward = some total
  tally : ∃ tally, (p.stake (k, v, n)).checkedMul (p.rewardPerToken (c, k, v)) = some tally

section

variable {t : Chain B}

/-- Moving a reward writes reward entries of the current pool only. -/
theorem moveReward_sameAt {u : Unit} (hk : k ≠ s.staking.nonce v)
    (h : Returns (moveReward v c) s u t) :
    SameAt k c v n s.staking t.staking ∧ t.staking.nonce = s.staking.nonce ∧
      t.tokens = s.tokens ∧ t.rewardDistribution = s.rewardDistribution ∧
      ((∃ x p, Returns (applySlash v n) t.staking x p) ↔
        ∃ x p, Returns (applySlash v n) s.staking x p) := by
  simp only [moveReward, returns_rules, returns_zoom, Chain.pooledRewardsL_get,
    Chain.pooledRewardsL_put, Chain.stakingL_get, Chain.stakingL_put] at h
  obtain ⟨amount, _, ⟨rewards, -, rfl⟩, x, _, ⟨pools, hpools, rfl⟩, -, rfl⟩ := h
  have hkey : (c, k, v) ≠ (c, s.staking.nonce v, v) :=
    fun heq => hk (congrArg (fun key => key.2.1) heq)
  rcases staking_distributeReward_returns hpools with
    ⟨-, rfl⟩ | ⟨perToken, total, -, -, -, rfl⟩
  · exact ⟨⟨rfl, rfl, rfl, rfl, rfl, rfl⟩, rfl, rfl, rfl, Iff.rfl⟩
  · refine ⟨⟨rfl, rfl, rfl, update_of_ne hkey _ _, rfl, update_of_ne hkey _ _⟩, rfl,
      rfl, rfl, ?_⟩
    simp only [returns_applySlash]
    constructor
    · rintro ⟨x, p, hslash, hx, total', tally, htotal, htally, -⟩
      exact ⟨x, _, hslash, hx, total', tally, htotal, htally, rfl⟩
    · rintro ⟨x, p, hslash, hx, total', tally, htotal, htally, -⟩
      exact ⟨x, _, hslash, hx, total', tally, htotal, htally, rfl⟩

theorem returns_collectReward {index : Option Nonce} :
    Returns (collectReward R (.signed n) v c index) s () s' ↔
      ∃ t, Returns (moveReward v c) s () t ∧ Returns (payCaller R n v c index) t () s' := by
  simp only [collectReward, moveReward, ensureSigned, returns_rules]
  constructor
  · rintro ⟨_, _, ⟨hn, rfl⟩, reward, s₁, hwithdraw, x, t, hdistribute, hpay⟩
    obtain rfl := Except.ok.inj hn
    exact ⟨t, ⟨reward, s₁, hwithdraw, x, t, hdistribute, trivial, rfl⟩, hpay⟩
  · rintro ⟨t, ⟨reward, s₁, hwithdraw, x, _, hdistribute, -, rfl⟩, hpay⟩
    exact ⟨n, s, ⟨rfl, rfl⟩, reward, s₁, hwithdraw, x, _, hdistribute, hpay⟩

theorem toBalance_natCast (x : ℕ) : Staking.Api.toBalance (x : ℤ) = .ok x := by
  rw [Staking.Api.toBalance, if_pos (Int.natCast_nonneg x), Int.toNat_natCast]

/-- The withdrawal from a closed pool pays the reward that was computed, if it can be booked. -/
theorem withdrawReward_closed_iff {p : Pools} {x : ℕ} (hk : k ≠ p.nonce v)
    (hr : computeRewardAtIndex p k c v n = .ok (r : ℤ)) :
    (∃ p', Returns (Staking.Api.withdrawReward v n (some k) c) p x p') ↔
      x = r ∧ CanBook p k c v n r := by
  simp only [Staking.Api.withdrawReward, returns_rules, returns_withdrawRewardAtIndex,
    Option.getD_some]
  constructor
  · rintro ⟨_, _, _, ⟨rfl, rfl⟩, y, p', ⟨stake, p₁, hslash, hy, hbook⟩, hx, rfl⟩
    obtain ⟨reward, total, tally, hreward, htotal, htally, rfl⟩ := hbook
    have hsame := applySlash_sameAt (c := c) hk hslash
    rw [hsame.computeRewardAtIndex_eq, hr] at hy
    obtain rfl := Except.ok.inj hy
    rw [toBalance_natCast] at hx
    rw [hsame.totalRewards] at htotal
    rw [hsame.stake, hsame.rewardPerToken] at htally
    exact ⟨(Except.ok.inj hx).symm, ⟨stake, p₁, hslash⟩, ⟨reward, total, hreward, htotal⟩, tally, htally⟩
  · rintro ⟨rfl, ⟨stake, p₁, hslash⟩, ⟨reward, total, hreward, htotal⟩, tally, htally⟩
    have hsame := applySlash_sameAt (c := c) hk hslash
    rw [← hsame.totalRewards] at htotal
    rw [← hsame.stake, ← hsame.rewardPerToken] at htally
    exact ⟨_, p, p, ⟨rfl, rfl⟩, x, _, ⟨stake, p₁, hslash, hsame.computeRewardAtIndex_eq.trans hr, reward,
      total, tally, hreward, htotal, htally, rfl⟩, toBalance_natCast x, rfl⟩

theorem canBook_congr {p p' : Pools} (h : SameAt k c v n p p')
    (hslash : (∃ x q, Returns (applySlash v n) p' x q) ↔ ∃ x q, Returns (applySlash v n) p x q) :
    CanBook p' k c v n r ↔ CanBook p k c v n r := by
  constructor
  · rintro ⟨hsettle, htotal, htally⟩
    rw [h.totalRewards] at htotal
    rw [h.stake, h.rewardPerToken] at htally
    exact ⟨hslash.mp hsettle, htotal, htally⟩
  · rintro ⟨hsettle, htotal, htally⟩
    rw [← h.totalRewards] at htotal
    rw [← h.stake, ← h.rewardPerToken] at htally
    exact ⟨hslash.mpr hsettle, htotal, htally⟩

/-- The reward of a closed pool is paid if and only if the caller also has a reward in the current
pool that suffices, the withdrawal can be booked, and the liability is registered if the reward is
native and takes all of the fee pool. -/
theorem collectReward_pays_iff (hR : R.tokens.Lawful) (hC : R.tokens.Covering)
    (hk : k < s.staking.nonce v) (hr : computeRewardAtIndex s.staking k c v n = .ok (r : ℤ))
    (hpos : 0 < r) (hfunds : r ≤ R.tokens.freeBalance s.tokens c R.feePoolAccountId) :
    (∃ s', Returns (collectReward R (.signed n) v c (some k)) s () s' ∧
        R.tokens.freeBalance s'.tokens =
          ((R.tokens.holdings s.tokens).transfer c R.feePoolAccountId n r).free) ↔
      CurrentRewardSuffices R s v c n ∧ CanBook s.staking k c v n r ∧ LiabilityRegistered R s c r := by
  simp only [returns_collectReward, payCaller, returns_rules, Chain.returns_staking, ensure_eq_ok]
  constructor
  · rintro ⟨s', ⟨t, hmove, h⟩, hfree⟩
    obtain ⟨_, _, ⟨rfl, rfl⟩, expected, _, ⟨hexpected, rfl⟩, _, _, ⟨hnonzero, rfl⟩, h⟩ := h
    obtain ⟨_, _, ⟨hdeposit, rfl⟩, x, _, ⟨p, hwithdraw, rfl⟩, _, _, ⟨-, rfl⟩, hpay⟩ := h
    obtain ⟨hsame, hnonce, htokens, hliability, hslash⟩ := moveReward_sameAt (n := n) hk.ne hmove
    have hclosed : k ≠ t.staking.nonce v := hnonce ▸ hk.ne
    obtain ⟨rfl, hbook⟩ := (withdrawReward_closed_iff hclosed
      (hsame.computeRewardAtIndex_eq.trans hr)).mp ⟨p, hwithdraw⟩
    have hregistered : LiabilityRegistered R t c x :=
      (transferReward_free hR (s := { t with staking := p }) (htokens ▸ hfunds) hpay).2
    refine ⟨⟨t, expected, hmove, hexpected, hnonzero, hdeposit⟩, (canBook_congr hsame hslash).mp hbook,
      ?_⟩
    unfold LiabilityRegistered at hregistered ⊢
    rwa [htokens, hliability] at hregistered
  · rintro ⟨⟨t, expected, hmove, hexpected, hnonzero, hdeposit⟩, hbook, hregistered⟩
    obtain ⟨hsame, hnonce, htokens, hliability, hslash⟩ := moveReward_sameAt (n := n) hk.ne hmove
    have hclosed : k ≠ t.staking.nonce v := hnonce ▸ hk.ne
    obtain ⟨p, hwithdraw⟩ := (withdrawReward_closed_iff hclosed
      (hsame.computeRewardAtIndex_eq.trans hr)).mpr ⟨rfl, (canBook_congr hsame hslash).mpr hbook⟩
    have hfunds' : r ≤ R.tokens.freeBalance t.tokens c R.feePoolAccountId := htokens ▸ hfunds
    have hregistered' : LiabilityRegistered R { t with staking := p } c r := by
      unfold LiabilityRegistered at hregistered ⊢
      simpa only [htokens, hliability] using hregistered
    obtain ⟨s', hpay⟩ := transferReward_succeeds (s := { t with staking := p }) (n := n) hR hC hfunds'
      hregistered'
    have hfree := (transferReward_free hR (s := { t with staking := p }) hfunds' hpay).1
    refine ⟨s', ⟨t, hmove, t, t, ⟨rfl, rfl⟩, expected, t, ⟨hexpected, rfl⟩, (), t, ⟨hnonzero, rfl⟩, (),
      t, ⟨hdeposit, rfl⟩, r, _, ⟨p, hwithdraw, rfl⟩, (), _, ⟨hpos.ne', rfl⟩, hpay⟩, ?_⟩
    rw [hfree]
    exact congrArg (fun b => ((R.tokens.holdings b).transfer _ _ _ _).free) htokens

/-- The vaults share the fee, and the vault of account 1 opts out of nomination.  Its first pool is
closed with a reward of 1869 for account 2. -/
def closingPool : List Record :=
  sharingFees ++ [signed 1 (.nomination (.optOutOfNomination samplePair))]

theorem closingPool_run :
    ∃ s, Run (Step sampleRuntime ∅) feeGenesis closingPool s ∧ 0 < s.staking.nonce (sampleVault 1) ∧
      computeRewardAtIndex s.staking 0 sampleWrapped (sampleVault 1) ⟨2⟩ = .ok 1869 ∧
      1869 ≤ sampleRuntime.tokens.freeBalance s.tokens sampleWrapped sampleRuntime.feePoolAccountId ∧
      outcome (collectReward sampleRuntime (.signed ⟨2⟩) (sampleVault 1) sampleWrapped (some 0)) s =
        none := by
  have hnone (s : Chain SampleTokens) : outcome (collectReward sampleRuntime (.signed ⟨2⟩)
      (sampleVault 1) sampleWrapped (some 0)) s = none ↔ (outcome (collectReward sampleRuntime
      (.signed ⟨2⟩) (sampleVault 1) sampleWrapped (some 0)) s).isNone = true :=
    Option.isNone_iff_eq_none.symm
  simp only [hnone]
  exact run_of_replay environmentStep_refl (by decide +kernel)

/-- The equivalence for account 2 and the closed pool. -/
theorem collectReward_pays_iff_closingPool :
    ∃ s, Run (Step sampleRuntime ∅) feeGenesis closingPool s ∧
      ((∃ s', Returns (collectReward sampleRuntime (.signed ⟨2⟩) (sampleVault 1) sampleWrapped (some 0))
          s () s' ∧ sampleRuntime.tokens.freeBalance s'.tokens =
            ((sampleRuntime.tokens.holdings s.tokens).transfer sampleWrapped
              sampleRuntime.feePoolAccountId ⟨2⟩ 1869).free) ↔
        CurrentRewardSuffices sampleRuntime s (sampleVault 1) sampleWrapped ⟨2⟩ ∧
          CanBook s.staking 0 sampleWrapped (sampleVault 1) ⟨2⟩ 1869 ∧
          LiabilityRegistered sampleRuntime s sampleWrapped 1869) := by
  obtain ⟨s, hrun, hnonce, hreward, hfunds, -⟩ := closingPool_run
  exact ⟨s, hrun, collectReward_pays_iff sampleRuntime_lawful (plainLedger_covering _) hnonce hreward
    (by decide) hfunds⟩

/-- Account 2 has nothing in the current pool, so it cannot collect its reward of the closed one. -/
theorem closed_reward_not_collected :
    ∃ s, Run (Step sampleRuntime ∅) feeGenesis closingPool s ∧ 0 < s.staking.nonce (sampleVault 1) ∧
      computeRewardAtIndex s.staking 0 sampleWrapped (sampleVault 1) ⟨2⟩ = .ok 1869 ∧
      sampleRuntime.existentialDeposits sampleWrapped ≤ 1869 ∧
      1869 ≤ sampleRuntime.tokens.freeBalance s.tokens sampleWrapped sampleRuntime.feePoolAccountId ∧
      ¬ ∃ s', Returns (collectReward sampleRuntime (.signed ⟨2⟩) (sampleVault 1) sampleWrapped
        (some 0)) s () s' := by
  obtain ⟨s, hrun, hnonce, hreward, hfunds, hnone⟩ := closingPool_run
  refine ⟨s, hrun, hnonce, hreward, by decide, hfunds, ?_⟩
  rintro ⟨s', hreturns⟩
  rw [outcome_eq_some.mpr ⟨(), hreturns⟩] at hnone
  cases hnone

end

end Spacewalk.RewardDistribution
