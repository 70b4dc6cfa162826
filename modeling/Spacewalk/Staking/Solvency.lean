import Spacewalk.Foundation.Run
import Spacewalk.Staking.Refinement

/-!
# Solvency of a staking pool

Runs of the staking operations on the current pool of one vault, with whole-number amounts
and slashes of at most the current stake.  A pool is solvent (`Solvent`) when the stakes
computed for its nominators are covered by its `TotalCurrentStake`.

The pool does not stay solvent in every run: a slash is divided by `TotalStake`, which
mixes settled and unsettled positions, and may charge a position more than remains of it;
the stake computed for that position is then cut off at zero while the others were charged
too little (`overcharged_pool_insolvent`).  Runs in which no slash overcharges a position
and in which the rounding losses of the slashes stay below one unit keep the pool solvent
(`solvent_of_covered_slashes`).
-/

namespace Spacewalk.Staking

open Foundation

/-! ## Runs on one vault -/

/-- The operations on the current pool of a vault. -/
inductive PoolOp where
  | depositStake (nominatorId : AccountId) (amount : Balance)
  | slashStake (amount : Balance)
  | withdrawStake (nominatorId : AccountId) (amount : Balance)
  | withdrawReward (currencyId : CurrencyId) (nominatorId : AccountId)
  | distributeReward (currencyId : CurrencyId) (amount : Balance)

namespace PoolOp

/-- The call of the staking interface that an operation stands for. -/
def exec (cfg : Config) (v : VaultId) : PoolOp → PalletM Unit
  | .depositStake n x => Api.depositStake cfg v n x
  | .slashStake x => Api.slashStake cfg v x
  | .withdrawStake n x => Api.withdrawStake cfg v n x none
  | .withdrawReward c n => do
    let _ ← Api.withdrawReward v n none c
  | .distributeReward c x => do
    let _ ← Api.distributeReward v x c

/-- What the operation does to the current pool. -/
def act : PoolOp → LazyPool AccountId → LazyPool AccountId
  | .depositStake n x, p => (p.settle scale n).adjust scale n (x * scale)
  | .slashStake x, p => p.slash scale (x * scale)
  | .withdrawStake n x, p => (p.settle scale n).adjust scale n (-(x * scale))
  | .withdrawReward _ n, p => p.settle scale n
  | .distributeReward _ _, p => p

/-- Slashes are bounded by the current stake. -/
def Allowed (s : Pools) (v : VaultId) : PoolOp → Prop
  | .slashStake x => (x : ℤ) ≤ totalCurrentStake s v
  | _ => True

instance (s : Pools) (v : VaultId) : (op : PoolOp) → Decidable (op.Allowed s v)
  | .slashStake x => inferInstanceAs (Decidable ((x : ℤ) ≤ totalCurrentStake s v))
  | .depositStake _ _ => inferInstanceAs (Decidable True)
  | .withdrawStake _ _ => inferInstanceAs (Decidable True)
  | .withdrawReward _ _ => inferInstanceAs (Decidable True)
  | .distributeReward _ _ => inferInstanceAs (Decidable True)

end PoolOp

/-- A successful operation of a run on the vault `v`. -/
def PoolStep (cfg : Config) (v : VaultId) (s : Pools) (op : PoolOp) (s' : Pools) : Prop :=
  op.Allowed s v ∧ Returns (op.exec cfg v) s () s'

/-- An executable step of a run on the vault `v`. -/
def poolStep? (cfg : Config) (v : VaultId) (s : Pools) (op : PoolOp) : Option Pools :=
  if op.Allowed s v then outcome (op.exec cfg v) s else none

section

variable {cfg : Config} {v : VaultId} {s s' : Pools} {op : PoolOp} {u : Unit}

theorem poolStep_of_some (h : poolStep? cfg v s op = some s') : PoolStep cfg v s op s' := by
  unfold poolStep? at h
  split at h
  · rename_i hallowed
    obtain ⟨⟨⟩, hreturns⟩ := outcome_eq_some.mp h
    exact ⟨hallowed, hreturns⟩
  · cases h

/-- The staking interface refines the lazy pool: a successful operation acts on the current
pool of the vault as `PoolOp.act` says, and on no other pool. -/
theorem PoolOp.exec_acts (h : Returns (op.exec cfg v) s u s') :
    Acts s s' (currentKey s v) (op.act (currentPool s v)) := by
  cases op with
  | depositStake n x =>
    obtain ⟨y, hy, h⟩ := returns_apiDepositStake.mp h
    simp only [act, ← hy]
    exact depositStake_acts h
  | slashStake x =>
    obtain ⟨y, hy, h⟩ := returns_apiSlashStake.mp h
    simp only [act, ← hy]
    exact slashStake_acts h
  | withdrawStake n x =>
    obtain ⟨y, hy, h⟩ := returns_apiWithdrawStake.mp h
    simp only [act, ← hy]
    exact withdrawStake_acts h
  | withdrawReward c n =>
    obtain ⟨_, h⟩ := returns_discard.mp h
    obtain ⟨r, h⟩ := apiWithdrawReward_returns h
    exact withdrawRewardAtIndex_acts h
  | distributeReward c x =>
    obtain ⟨_, h⟩ := returns_discard.mp h
    obtain ⟨y, r, -, h⟩ := apiDistributeReward_returns h
    exact distributeReward_acts h

end

/-! ## Solvency -/

noncomputable instance : Fintype AccountId :=
  Fintype.ofInjective (fun a : AccountId => a.bytes.toFin) fun a b h => by
    cases a
    cases b
    rw [AccountId.mk.injEq]
    exact BitVec.toFin_inj.mp h

/-- The current pool is solvent: its current stake is not negative and covers the stakes
computed for any group of nominators. -/
def Solvent (s : Pools) (v : VaultId) : Prop :=
  0 ≤ (s.totalCurrentStake (s.nonce v, v)).inner ∧
    ∀ (A : Finset AccountId) (stakes : AccountId → ℤ),
      (∀ n ∈ A, computeStake s v n = .ok (stakes n)) →
        (∑ n ∈ A, stakes n) * scale ≤ (s.totalCurrentStake (s.nonce v, v)).inner

/-- A slash charges no nominator more than remains of the position. -/
def PoolOp.Covered (s : Pools) (v : VaultId) : PoolOp → Prop
  | .slashStake x => ∀ n, (currentPool s v).charge scale (x * scale) n ≤
      (currentPool s v).remaining scale n
  | _ => True

/-- The part of a slash that rounding leaves uncharged. -/
noncomputable def PoolOp.roundingLoss (s : Pools) (v : VaultId) : PoolOp → ℤ
  | .slashStake x => (currentPool s v).slashLoss scale (x * scale)
  | _ => 0

/-- A step of a run whose slashes are covered, together with the rounding losses that have
accumulated in the run. -/
def CoveredStep (cfg : Config) (v : VaultId) (t : Pools × ℤ) (op : PoolOp) (t' : Pools × ℤ) :
    Prop :=
  PoolStep cfg v t.1 op t'.1 ∧ op.Covered t.1 v ∧ t'.2 = t.2 + op.roundingLoss t.1 v

/-- The books of the vault's current pool are balanced up to `loss`, in whole units. -/
structure Sound (s : Pools) (v : VaultId) (loss : ℤ) : Prop where
  balanced : LazyPool.Balanced scale (currentPool s v) loss
  whole : scale ∣ (currentPool s v).current

section

variable {cfg : Config} {v : VaultId} {s s' : Pools} {op : PoolOp} {loss : ℤ}

/-- One step of a covered run keeps the books, up to its own rounding loss. -/
theorem Sound.step (h : Sound s v loss) (hstep : PoolStep cfg v s op s')
    (hcov : op.Covered s v) : Sound s' v (loss + op.roundingLoss s v) := by
  obtain ⟨-, hreturns⟩ := hstep
  have hpool : currentPool s' v = op.act (currentPool s v) := (op.exec_acts hreturns).currentPool
  have hsettle := fun n => h.balanced.settle n
  cases op with
  | depositStake n x =>
    change Sound s' v (loss + 0)
    rw [add_zero]
    constructor
    · rw [hpool]
      apply (hsettle n).adjust scale_pos LazyPool.toSlash_settle_self _ (dvd_mul_left _ _)
      have hnonneg : 0 ≤ (x : ℤ) * scale := mul_nonneg (Int.natCast_nonneg x) scale_pos.le
      exact add_nonneg ((hsettle n).stake_nonneg n) hnonneg
    · rw [hpool]
      exact dvd_add h.whole (dvd_mul_left _ _)
  | slashStake x =>
    constructor
    · rw [hpool]
      exact h.balanced.slash scale_pos (mul_nonneg (Int.natCast_nonneg x) scale_pos.le) hcov
    · rw [hpool]
      exact dvd_sub h.whole (dvd_mul_left _ _)
  | withdrawStake n x =>
    change Sound s' v (loss + 0)
    rw [add_zero]
    constructor
    · rw [hpool]
      apply (hsettle n).adjust scale_pos LazyPool.toSlash_settle_self _
        ((dvd_mul_left _ _).neg_right)
      -- the amount was compared with what remains of the settled position
      obtain ⟨y, hy, hreturns⟩ := returns_apiWithdrawStake.mp hreturns
      rw [LazyPool.settle_stake, Function.update_self, ← hy]
      obtain ⟨-, -, rfl | hle⟩ := withdrawStake_pools hreturns
      · simpa using h.balanced.remaining_nonneg n
      · linarith
    · rw [hpool]
      exact dvd_add h.whole ((dvd_mul_left _ _).neg_right)
  | withdrawReward c n =>
    change Sound s' v (loss + 0)
    rw [add_zero]
    exact ⟨hpool ▸ hsettle n, hpool ▸ h.whole⟩
  | distributeReward c x =>
    change Sound s' v (loss + 0)
    rw [add_zero]
    exact ⟨hpool ▸ h.balanced, hpool ▸ h.whole⟩

theorem Sound.solvent (h : Sound s v loss) (hloss : loss < scale) : Solvent s v := by
  have hsum := h.balanced.sum_whole_le scale_pos hloss h.whole
  have hcurrent : (currentPool s v).current.tdiv scale * scale = (currentPool s v).current := by
    obtain ⟨c, hc⟩ := h.whole
    rw [hc, Int.mul_tdiv_cancel_left _ scale_pos.ne', mul_comm]
  constructor
  · have hzero := hsum ∅
    rw [Finset.sum_empty] at hzero
    have := mul_nonneg hzero scale_pos.le
    rwa [hcurrent] at this
  · intro A stakes hstakes
    have hvalue : ∀ n ∈ A, stakes n = ((currentPool s v).remaining scale n).tdiv scale := by
      intro n hn
      obtain ⟨-, -, hn⟩ := computeStakeAtIndex_eq_ok.mp (hstakes n hn)
      rw [hn]
      exact max_eq_right (Int.tdiv_nonneg (h.balanced.remaining_nonneg n) scale_pos.le)
    rw [Finset.sum_congr rfl hvalue]
    have := mul_le_mul_of_nonneg_right (hsum A) scale_pos.le
    rwa [hcurrent] at this

/-- The books stay balanced along a covered run. -/
theorem Sound.run {ops : List PoolOp} {t t' : Pools × ℤ} (h : Sound t.1 v t.2)
    (hrun : Run (CoveredStep cfg v) t ops t') : Sound t'.1 v t'.2 :=
  hrun.invariant (I := fun t => Sound t.1 v t.2)
    (fun _ _ _ hs ⟨hstep, hcov, hloss⟩ => hloss ▸ hs.step hstep hcov) h

/-- In a run that starts with an empty pool and whose slashes never charge a nominator more
than remains, the pool is solvent whenever the accumulated rounding losses are below one
unit. -/
theorem solvent_of_covered_slashes {s₀ : Pools} {ops : List PoolOp}
    (hempty : currentPool s₀ v = LazyPool.empty AccountId)
    (hrun : Run (CoveredStep cfg v) (s₀, 0) ops (s, loss)) (hloss : loss < scale) :
    Solvent s v := by
  have hstart : Sound s₀ v 0 := by
    constructor
    · rw [hempty]
      exact LazyPool.Balanced.empty scale
    · rw [hempty]
      exact dvd_zero _
  exact (Sound.run hstart hrun).solvent hloss

end

/-! ## Runs on fixed inputs -/

/-- A configuration with native reward currency. -/
def sampleConfig : Config := ⟨.native, 10⟩

def sampleVault : VaultId := ⟨⟨1⟩, ⟨.xcm 0, .stellar .stellarNative⟩⟩

/-- A nominator of the vault. -/
def nominatorA : AccountId := ⟨2⟩

/-- Another nominator of the vault. -/
def nominatorB : AccountId := ⟨3⟩

/-- The pool in which A alone has staked 100 units. -/
def solePool : LazyPool AccountId :=
  (PoolOp.depositStake nominatorA 100).act (LazyPool.empty AccountId)

theorem solePool_charge_of_ne {n : AccountId} (h : n ≠ nominatorA) (x : ℤ) :
    solePool.charge scale x n = 0 ∧ solePool.remaining scale n = 0 := by
  simp [solePool, PoolOp.act, LazyPool.charge, LazyPool.remaining, LazyPool.toSlash,
    LazyPool.empty, h]

/-- A slash of half the stake of a sole nominator is covered and loses nothing. -/
theorem solePool_slash : (∀ n, solePool.charge scale (50 * scale) n ≤ solePool.remaining scale n) ∧
    solePool.slashLoss scale (50 * scale) = 0 := by
  have hA : solePool.charge scale (50 * scale) nominatorA = 50 * scale ∧
      solePool.remaining scale nominatorA = 100 * scale := by
    decide +kernel
  constructor
  · intro n
    by_cases hn : n = nominatorA
    · rw [hn, hA.1, hA.2]
      exact mul_le_mul_of_nonneg_right (by decide) scale_pos.le
    · obtain ⟨hcharge, hremaining⟩ := solePool_charge_of_ne hn (50 * scale)
      rw [hcharge, hremaining]
  · rw [LazyPool.slashLoss, Finset.sum_eq_single nominatorA, hA.1, sub_self]
    · intro n _ hn
      exact (solePool_charge_of_ne hn _).1
    · intro hn
      exact absurd (Finset.mem_univ _) hn

/-- A run in which A stakes 100 units and the vault is slashed by 50. -/
theorem solvent_of_covered_slashes_sole :
    ∃ s, Run (CoveredStep sampleConfig sampleVault) (Pools.genesis, 0)
      [.depositStake nominatorA 100, .slashStake 50] (s, 0) ∧ Solvent s sampleVault := by
  obtain ⟨s, hrun, -⟩ : ∃ s, Run (PoolStep sampleConfig sampleVault) Pools.genesis
      [.depositStake nominatorA 100, .slashStake 50] s ∧ True :=
    Run.exists_of_replay (fun _ _ _ => poolStep_of_some) (by decide +kernel)
  obtain ⟨s₁, hdeposit, hrun⟩ := Run.cons_iff.mp hrun
  obtain ⟨s₂, hslash, hrun⟩ := Run.cons_iff.mp hrun
  obtain rfl := Run.nil_iff.mp hrun
  have hpool : currentPool s₁ sampleVault = solePool :=
    (PoolOp.exec_acts hdeposit.2).currentPool
  obtain ⟨hcovered, hloss⟩ := solePool_slash
  have hcov : Run (CoveredStep sampleConfig sampleVault) (Pools.genesis, 0)
      [.depositStake nominatorA 100, .slashStake 50] (s₂, 0) := by
    refine .cons (t := (s₁, 0)) ⟨hdeposit, trivial, rfl⟩ (.single ⟨hslash, ?_, ?_⟩)
    · simpa only [PoolOp.Covered, hpool, Nat.cast_ofNat] using hcovered
    · simpa only [PoolOp.roundingLoss, hpool, zero_add, Nat.cast_ofNat] using hloss.symm
  exact ⟨s₂, hcov, solvent_of_covered_slashes rfl hcov scale_pos⟩

/-- Two nominators stake 100 units each, the vault is slashed by 100, the first position is
touched, and the vault is slashed by 90 of the remaining 100 units.  The second slash is
shared as 30 to 60 although 50 units remain to each: 20 units remain to the first nominator
and none to the second, but only 10 units are left in the pool. -/
theorem overcharged_pool_insolvent :
    ∃ s, Run (PoolStep sampleConfig sampleVault) Pools.genesis
        [.depositStake nominatorA 100, .depositStake nominatorB 100, .slashStake 100,
          .withdrawStake nominatorA 0, .slashStake 90] s ∧
      currentPool Pools.genesis sampleVault = LazyPool.empty AccountId ∧
      ¬ Solvent s sampleVault := by
  obtain ⟨s, hrun, hstake, hcurrent⟩ : ∃ s, Run (PoolStep sampleConfig sampleVault) Pools.genesis
      [.depositStake nominatorA 100, .depositStake nominatorB 100, .slashStake 100,
        .withdrawStake nominatorA 0, .slashStake 90] s ∧
      computeStake s sampleVault nominatorA = .ok 20 ∧
        (s.totalCurrentStake (s.nonce sampleVault, sampleVault)).inner = 10 * scale :=
    Run.exists_of_replay (fun _ _ _ => poolStep_of_some) (by decide +kernel)
  refine ⟨s, hrun, rfl, ?_⟩
  rintro ⟨-, hcovered⟩
  have hsum := hcovered {nominatorA} (fun _ => 20) (by simpa using hstake)
  rw [Finset.sum_singleton, hcurrent] at hsum
  have := scale_pos
  omega

end Spacewalk.Staking
