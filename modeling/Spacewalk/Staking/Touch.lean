import Spacewalk.Staking.Solvency

/-!
# Touching a position

A withdrawal of nothing and a withdrawal of rewards settle the slashes announced to a
position.  That changes the stake of nobody at that moment, but it lowers `TotalStake`, the
denominator of later slashes.  A touch in the middle of a run can therefore change how the
following slashes are shared (`touch_shifts_slash`).

A touch is neutral when the position has no announced slash, and when no further slash is
made before the same nominator acts again: the two runs then compute the same stake for
everybody (`computeStake_eq_of_quiet`).  A slash that finds every position settled takes
from each nominator a share proportional to the remaining stake, up to rounding
(`slash_share_of_settled`).  The two facts are stated together in
`touch_neutral_and_slash_proportional`.
-/

namespace Spacewalk.Staking

open Foundation

/-! ## Runs on the abstract pool -/

namespace PoolOp

/-- The nominator who acts in the operation. -/
def actor : PoolOp → Option AccountId
  | .depositStake n _ => some n
  | .withdrawStake n _ => some n
  | .withdrawReward _ n => some n
  | .slashStake _ => none
  | .distributeReward _ _ => none

/-- The operation slashes nothing. -/
def Harmless : PoolOp → Prop
  | .slashStake x => x = 0
  | _ => True

/-- A touch of the position of `t`: a withdrawal of nothing, or of rewards. -/
def IsTouch (t : AccountId) (op : PoolOp) : Prop :=
  op = .withdrawStake t 0 ∨ ∃ c, op = .withdrawReward c t

end PoolOp

/-- In the operations, nothing is slashed before `t` acts. -/
def QuietFor (t : AccountId) : List PoolOp → Prop
  | [] => True
  | op :: ops => op.actor = some t ∨ (op.Harmless ∧ QuietFor t ops)

section

variable {p q : LazyPool AccountId} {t n : AccountId} {op : PoolOp}

theorem act_settle_of_actor (h : op.actor = some t) :
    op.act (p.settle scale t) = op.act p := by
  cases op with
  | depositStake m x | withdrawStake m x | withdrawReward c m =>
    obtain rfl := Option.some.inj h
    simp only [PoolOp.act, LazyPool.settle_settle]
  | slashStake x | distributeReward c x => cases h

theorem act_settle_of_harmless (hne : op.actor ≠ some t) (hharm : op.Harmless) :
    op.act (p.settle scale t) = (op.act p).settle scale t := by
  cases op with
  | depositStake m x | withdrawStake m x =>
    have hm : m ≠ t := fun hm => hne (congrArg some hm)
    simp only [PoolOp.act, LazyPool.settle_comm_adjust hm, LazyPool.settle_comm hm]
  | withdrawReward c m =>
    have hm : m ≠ t := fun hm => hne (congrArg some hm)
    simp only [PoolOp.act, LazyPool.settle_comm hm]
  | slashStake x =>
    obtain rfl : x = 0 := hharm
    simp [PoolOp.act]
  | distributeReward c x => rfl

/-- The two pools compute the stake of `n` from the same values. -/
structure SameEntry (n : AccountId) (p q : LazyPool AccountId) : Prop where
  stake : p.stake n = q.stake n
  tally : p.tally n = q.tally n
  perToken : p.perToken = q.perToken

theorem SameEntry.refl (n : AccountId) (p : LazyPool AccountId) : SameEntry n p p :=
  ⟨rfl, rfl, rfl⟩

theorem SameEntry.trans {r : LazyPool AccountId} (h : SameEntry n p q) (h' : SameEntry n q r) :
    SameEntry n p r :=
  ⟨h.stake.trans h'.stake, h.tally.trans h'.tally, h.perToken.trans h'.perToken⟩

theorem sameEntry_settle (h : n ≠ t) : SameEntry n (p.settle scale t) p := by
  constructor <;> simp [h]

theorem sameEntry_act (hne : op.actor ≠ some t) (hharm : op.Harmless) :
    SameEntry t (op.act p) p := by
  cases op with
  | depositStake m x | withdrawStake m x | withdrawReward c m =>
    have hm : t ≠ m := fun hm => hne (congrArg some hm.symm)
    constructor <;> simp [PoolOp.act, hm]
  | slashStake x =>
    obtain rfl : x = 0 := hharm
    simpa [PoolOp.act] using SameEntry.refl t p
  | distributeReward c x => exact .refl t p

/-- The operations, one after the other. -/
def actAll (ops : List PoolOp) (p : LazyPool AccountId) : LazyPool AccountId :=
  ops.foldl (fun q op => op.act q) p

/-- After a quiet list of operations the touched pool is the untouched one again, or it is
the untouched one with the position of `t` settled and untouched since. -/
theorem actAll_settle {ops : List PoolOp} (hquiet : QuietFor t ops) :
    actAll ops (p.settle scale t) = actAll ops p ∨
      (actAll ops (p.settle scale t) = (actAll ops p).settle scale t ∧
        SameEntry t (actAll ops p) p) := by
  induction ops generalizing p with
  | nil => exact Or.inr ⟨rfl, .refl t p⟩
  | cons op ops ih =>
    by_cases hactor : op.actor = some t
    · left
      simp only [actAll, List.foldl_cons, act_settle_of_actor hactor]
    · obtain ⟨hharm, hrest⟩ := hquiet.resolve_left hactor
      simp only [actAll, List.foldl_cons, act_settle_of_harmless hactor hharm]
      rcases ih (p := op.act p) hrest with heq | ⟨heq, hsame⟩
      · exact Or.inl heq
      · exact Or.inr ⟨heq, hsame.trans (sameEntry_act hactor hharm)⟩

end

/-! ## Touches in runs of the pallet -/

section

variable {cfg : Config} {v : VaultId} {s s' s₁ sA sB : Pools} {t n : AccountId}
  {ops : List PoolOp} {touch : PoolOp}

theorem currentPool_run (hrun : Run (PoolStep cfg v) s ops s') :
    currentPool s' v = actAll ops (currentPool s v) := by
  induction hrun with
  | nil => rfl
  | cons hstep _ ih =>
    rw [ih, (PoolOp.exec_acts hstep.2).currentPool]
    rfl

/-- The stake computed for a nominator depends on the entry of the current pool only. -/
theorem computeStake_congr (h : SameEntry n (currentPool s v) (currentPool s' v)) :
    computeStake s v n = computeStake s' v n := by
  have hstake : s.stake (s.nonce v, v, n) = s'.stake (s'.nonce v, v, n) :=
    FixedPoint.ext h.stake
  have htally : s.slashTally (s.nonce v, v, n) = s'.slashTally (s'.nonce v, v, n) :=
    FixedPoint.ext h.tally
  have hperToken : s.slashPerToken (s.nonce v, v) = s'.slashPerToken (s'.nonce v, v) :=
    FixedPoint.ext h.perToken
  simp only [computeStake, computeStakeAtIndex, hstake, htally, hperToken]

/-- Settling a position changes the stake computed for nobody. -/
theorem computeStake_applySlash {r : SignedFixedPoint} (h : Returns (applySlash v t) s r s₁)
    (n : AccountId) : computeStake s₁ v n = computeStake s v n := by
  have hpool : currentPool s₁ v = (currentPool s v).settle scale t :=
    (applySlash_acts h).currentPool
  by_cases hn : n = t
  · subst hn
    obtain ⟨hslash, hr, total, tally, -, htally, rfl⟩ := returns_applySlash.mp h
    have hbefore : computeStake s v n =
        .ok (max 0 (((currentPool s v).remaining scale n).tdiv scale)) :=
      computeStakeAtIndex_eq_ok.mpr ⟨hslash, ⟨r, hr⟩, rfl⟩
    have hafter : computeStake (settled s v n total r tally) v n =
        .ok (max 0 (((currentPool s v).remaining scale n).tdiv scale)) := by
      refine computeStakeAtIndex_eq_ok.mpr ⟨⟨0, ?_⟩, ⟨r, ?_⟩, ?_⟩
      · rw [computeAmountToSlash_eq_ok]
        have hentry : ((settled s v n total r tally).stake (s.nonce v, v, n)).inner = r.inner ∧
            ((settled s v n total r tally).slashTally (s.nonce v, v, n)).inner =
              tally.inner := by
          simp [settled]
        refine ⟨⟨tally, ?_⟩, ?_⟩
        · exact hentry.1 ▸ htally
        · rw [FixedPoint.inner_zero]
          exact (sub_eq_zero.mpr (hentry.2.trans (hentry.1 ▸ htally)).symm).symm
      · rw [hr, ← LazyPool.remaining_settle (n := n), ← hpool]
        rfl
      · rw [← LazyPool.remaining_settle (n := n) (p := currentPool s v), ← hpool]
        rfl
    rw [hbefore, hafter]
  · exact computeStake_congr (hpool ▸ sameEntry_settle hn)

/-- A touch settles the position and changes the stake computed for nobody. -/
theorem touch_effect (htouch : touch.IsTouch t) (h : PoolStep cfg v s touch s₁) :
    currentPool s₁ v = (currentPool s v).settle scale t ∧
      ∀ n, computeStake s₁ v n = computeStake s v n := by
  have hpool : currentPool s₁ v = touch.act (currentPool s v) :=
    (PoolOp.exec_acts h.2).currentPool
  rcases htouch with rfl | ⟨c, rfl⟩
  · refine ⟨?_, ?_⟩
    · rw [hpool]
      simp [PoolOp.act]
    · obtain ⟨-, h⟩ := h
      obtain ⟨y, hy, h⟩ := returns_apiWithdrawStake.mp h
      obtain ⟨r, s₂, happly, ⟨-, rfl⟩ | ⟨hne, -⟩⟩ := returns_withdrawStake.mp h
      · exact computeStake_applySlash happly
      · exact absurd (FixedPoint.ext (by simpa using hy)) hne
  · refine ⟨hpool, ?_⟩
    obtain ⟨-, h⟩ := h
    obtain ⟨_, h⟩ := returns_discard.mp h
    obtain ⟨r, h⟩ := apiWithdrawReward_returns h
    obtain ⟨stake, s₂, happly, total, tallies, rfl⟩ := withdrawRewardAtIndex_returns h
    intro n
    have hsame := computeStake_applySlash happly n
    exact hsame

/-- If the touched position had no announced slash, or if nothing is slashed before its
nominator acts again, the runs with and without the touch compute the same stakes. -/
theorem computeStake_eq_of_quiet (htouch : touch.IsTouch t) (h : PoolStep cfg v s touch s₁)
    (hA : Run (PoolStep cfg v) s ops sA) (hB : Run (PoolStep cfg v) s₁ ops sB)
    (hquiet : (currentPool s v).toSlash scale t = 0 ∨ QuietFor t ops) (n : AccountId) :
    computeStake sB v n = computeStake sA v n := by
  obtain ⟨hpool, hsame⟩ := touch_effect htouch h
  have hpoolA := currentPool_run hA
  have hpoolB := currentPool_run hB
  rw [hpool] at hpoolB
  rcases hquiet with hzero | hquiet
  · rw [LazyPool.settle_of_toSlash_eq_zero hzero, ← hpoolA] at hpoolB
    exact computeStake_congr (hpoolB ▸ .refl n _)
  · rcases actAll_settle (p := currentPool s v) hquiet with heq | ⟨heq, hentry⟩
    · rw [heq, ← hpoolA] at hpoolB
      exact computeStake_congr (hpoolB ▸ .refl n _)
    · rw [heq, ← hpoolA] at hpoolB
      by_cases hn : n = t
      · -- the position of `t` is as the touch left it in one run, and as it was in the other
        subst hn
        rw [← hpoolA] at hentry
        have hA' : computeStake sA v n = computeStake s v n := computeStake_congr hentry
        have hB' : computeStake sB v n = computeStake s₁ v n := by
          apply computeStake_congr
          rw [hpoolB, hpool]
          have hremaining : (currentPool sA v).remaining scale n =
              (currentPool s v).remaining scale n := by
            simp only [LazyPool.remaining, LazyPool.toSlash, hentry.stake, hentry.tally,
              hentry.perToken]
          constructor <;> simp [hremaining, hentry.perToken]
        rw [hA', hB', hsame n]
      · exact computeStake_congr (hpoolB ▸ sameEntry_settle hn)

/-- The total stake of a pool that started empty is the sum of the stakes. -/
theorem total_eq_sum_of_run {s₀ : Pools} (hempty : currentPool s₀ v = LazyPool.empty AccountId)
    (hrun : Run (PoolStep cfg v) s₀ ops s) :
    (currentPool s v).total = ∑ n, (currentPool s v).stake n := by
  refine hrun.invariant
    (I := fun s => (currentPool s v).total = ∑ n, (currentPool s v).stake n) ?_ ?_
  · intro s op s' hsum hstep
    rw [(PoolOp.exec_acts hstep.2).currentPool]
    cases op with
    | depositStake n x | withdrawStake n x =>
      exact LazyPool.total_adjust (LazyPool.total_settle hsum)
    | withdrawReward c n => exact LazyPool.total_settle hsum
    | slashStake x | distributeReward c x => exact hsum
  · rw [hempty]
    simp [LazyPool.empty]

/-- A slash that finds every position settled takes from each nominator a share proportional
to what remains of the position, up to rounding. -/
theorem slash_share_of_settled {x : Balance}
    (hsum : (currentPool s v).total = ∑ n, (currentPool s v).stake n)
    (hslash : PoolStep cfg v s (.slashStake x) s')
    (hsettled : ∀ n, (currentPool s v).toSlash scale n = 0) (n : AccountId) :
    |(((currentPool s v).remaining scale n - (currentPool s' v).remaining scale n : ℤ) : ℚ) -
        (currentPool s v).remaining scale n * (x * scale : ℤ) /
          (∑ m, (currentPool s v).remaining scale m : ℤ)| <
      2 + |((currentPool s v).remaining scale n : ℚ)| / scale := by
  have hstake : ∀ m, (currentPool s v).stake m = (currentPool s v).remaining scale m :=
    fun m => LazyPool.stake_eq_remaining (hsettled m)
  have hpool : currentPool s' v = (currentPool s v).slash scale (x * scale) :=
    (PoolOp.exec_acts hslash.2).currentPool
  rw [hpool, LazyPool.remaining_slash, sub_sub_cancel, ← hstake,
    ← Finset.sum_congr rfl (fun m _ => hstake m), ← hsum]
  by_cases htotal : (currentPool s v).total = 0
  · -- only a slash of nothing succeeds on a pool without stake
    have hx : (x : ℤ) * scale = 0 := by
      obtain ⟨-, h⟩ := hslash
      obtain ⟨y, hy, h⟩ := returns_apiSlashStake.mp h
      obtain ⟨rfl, -⟩ | ⟨-, hne, -⟩ := slashStake_returns h
      · exact hy.symm
      · exact absurd htotal hne
    have hcharge : (currentPool s v).charge scale (x * scale) n = 0 := by
      simp [LazyPool.charge, hx]
    rw [hcharge, hx]
    have : (0 : ℚ) ≤ |((currentPool s v).stake n : ℚ)| / scale :=
      div_nonneg (abs_nonneg _) (by exact_mod_cast scale_pos.le)
    simpa using by linarith
  · exact LazyPool.abs_charge_sub_share_lt scale_pos htotal (x * scale) n

end

/-! ## Runs on fixed inputs -/

end Spacewalk.Staking
