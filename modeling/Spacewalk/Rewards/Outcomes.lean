import Spacewalk.Foundation.RewardPool
import Spacewalk.PooledRewards

/-!
# What the functions of the reward pools do

Every function of the pooled rewards pallet that changes the storage has one exact outcome: when it
succeeds, and which storage it writes.  A pool with the rewards of one currency is read as a pool
that shares rewards (`poolAt`), with the stakes in whole units; while all stakes are whole units
(`Whole`), the functions of the pallet act on it as the operations of that pool do.
-/

namespace Spacewalk.PooledRewards

open Foundation Function

variable {s s' : Storage} {p : CurrencyId} {v : VaultId} {c : CurrencyId} {x : SignedFixedPoint}
  {u : Unit} {limit : ℕ}

/-- The inner value of one token. -/
abbrev scale : ℤ := signedFormat.div

theorem scale_pos : 0 < scale := signedFormat.div_pos

theorem toFixed_eq_ok {amount : Balance} : Api.toFixed amount = .ok x ↔ x.inner = amount * scale := by
  simp [Api.toFixed]

/-! ## Changes of stake -/

/-- The change of the reward tally for the currency `c` when the stake changes by `x`. -/
def tallyChange (s : Storage) (p : CurrencyId) (x : SignedFixedPoint) (c : CurrencyId) : ℤ :=
  ((s.rewardPerToken (c, p)).inner * x.inner).tdiv scale

theorem rewardTallyL_lawful : Storage.rewardTallyL.Lawful :=
  ⟨fun _ _ => rfl, fun _ => rfl, fun _ _ _ => rfl⟩

theorem tallyKey_injective (p : CurrencyId) (v : VaultId) :
    Function.Injective fun c : CurrencyId => (c, p, v) :=
  fun _ _ h => (Prod.ext_iff.mp h).1

/-- The storage after the stake of a member has changed. -/
def adjusted (s : Storage) (p : CurrencyId) (v : VaultId) (stake total : SignedFixedPoint)
    (tallies : CurrencyId × CurrencyId × VaultId → SignedFixedPoint) : Storage :=
  { s with
    stake := Function.update s.stake (p, v) stake
    totalStake := Function.update s.totalStake p total
    poolIds := if p ∈ s.poolIds then s.poolIds else s.poolIds ++ [p]
    rewardTally := tallies }

/-- Adding `d` units of inner value to the stake of a member goes through, and leads to `s'`.  The
change of the tallies is `e`. -/
def Adjusts (s : Storage) (p : CurrencyId) (v : VaultId) (d : ℤ) (e : CurrencyId → ℤ)
    (s' : Storage) : Prop :=
  ∃ (stake total : SignedFixedPoint)
    (tallies : CurrencyId × CurrencyId × VaultId → SignedFixedPoint),
    stake.inner = (s.stake (p, v)).inner + d ∧ total.inner = (s.totalStake p).inner + d ∧
    (∀ c, (tallies (c, p, v)).inner =
      (s.rewardTally (c, p, v)).inner + (s.rewardCurrencies p).count c * e c) ∧
    (∀ key, (∀ c, key ≠ (c, p, v)) → tallies key = s.rewardTally key) ∧
    adjusted s p v stake total tallies = s'

theorem returns_touchPool :
    Returns (touchPool p) s u s' ↔
      { s with poolIds := if p ∈ s.poolIds then s.poolIds else s.poolIds ++ [p] } = s' := by
  rw [touchPool, returns_modify]
  by_cases hp : p ∈ s.poolIds <;> simp [hp]

theorem returns_depositStake :
    Returns (depositStake p v x) s u s' ↔
      (∀ c ∈ s.rewardCurrencies p, ∃ y : SignedFixedPoint, y.inner = tallyChange s p x c) ∧
        Adjusts s p v x.inner (tallyChange s p x) s' := by
  have hloop (t : Storage) := returns_forM_addScaled (s := t) (t := s') (u := u) (x := x)
    (f := fun s c => s.rewardPerToken (c, p)) (g := id) rewardTallyL_lawful (tallyKey_injective p v)
    (fun _ _ => rfl) returns_addMut (t.rewardCurrencies p)
  simp only [depositStake, returns_rules, returns_checkedAddMut, returns_touchPool]
  constructor
  · rintro ⟨stake, _, ⟨hstake, rfl⟩, total, _, ⟨htotal, rfl⟩, _, _, rfl, _, _, ⟨rfl, rfl⟩, h⟩
    obtain ⟨hreps, t, ht, hother, rfl⟩ := (hloop _).mp h
    exact ⟨hreps, stake, total, t, hstake, htotal, ht, hother, rfl⟩
  · rintro ⟨hreps, stake, total, t, hstake, htotal, ht, hother, rfl⟩
    exact ⟨stake, _, ⟨hstake, rfl⟩, total, _, ⟨htotal, rfl⟩, ⟨⟩, _, rfl, _, _, ⟨rfl, rfl⟩,
      (hloop _).mpr ⟨hreps, t, ht, hother, rfl⟩⟩

theorem returns_withdrawStake :
    Returns (withdrawStake p v x) s u s' ↔
      x.inner ≤ (s.stake (p, v)).inner ∧
      (∀ c ∈ s.rewardCurrencies p, ∃ y : SignedFixedPoint, y.inner = tallyChange s p x c) ∧
        Adjusts s p v (-x.inner) (fun c => -tallyChange s p x c) s' := by
  have hloop (t : Storage) := returns_forM_addScaled (s := t) (t := s') (u := u) (x := x)
    (f := fun s c => s.rewardPerToken (c, p)) (g := Neg.neg) rewardTallyL_lawful
    (tallyKey_injective p v) (fun _ _ => rfl) returns_subMut (t.rewardCurrencies p)
  simp only [withdrawStake, returns_rules, returns_checkedSubMut, returns_touchPool, ensure_eq_ok]
  constructor
  · rintro ⟨_, _, ⟨rfl, rfl⟩, _, _, ⟨hle, rfl⟩, stake, _, ⟨hstake, rfl⟩, total, _, ⟨htotal, rfl⟩,
      _, _, rfl, _, _, ⟨rfl, rfl⟩, h⟩
    obtain ⟨hreps, t, ht, hother, rfl⟩ := (hloop _).mp h
    exact ⟨hle, hreps, stake, total, t, hstake, htotal, ht, hother, rfl⟩
  · rintro ⟨hle, hreps, stake, total, t, hstake, htotal, ht, hother, rfl⟩
    exact ⟨_, _, ⟨rfl, rfl⟩, ⟨⟩, _, ⟨hle, rfl⟩, stake, _, ⟨hstake, rfl⟩, total, _, ⟨htotal, rfl⟩,
      ⟨⟩, _, rfl, _, _, ⟨rfl, rfl⟩, (hloop _).mpr ⟨hreps, t, ht, hother, rfl⟩⟩

/-! ## Rewards -/

/-- The value of `Stake * RewardPerToken - RewardTally`, before it is rounded to whole units. -/
def entitlement (s : Storage) (p : CurrencyId) (v : VaultId) (c : CurrencyId) : ℤ :=
  ((s.stake (p, v)).inner * (s.rewardPerToken (c, p)).inner).tdiv scale -
    (s.rewardTally (c, p, v)).inner

theorem computeReward_eq_ok {r : ℤ} :
    computeReward s p v c = .ok r ↔
      (∃ y : SignedFixedPoint,
        y.inner = ((s.stake (p, v)).inner * (s.rewardPerToken (c, p)).inner).tdiv scale) ∧
      (∃ y : SignedFixedPoint, y.inner = entitlement s p v c) ∧
      r = (entitlement s p v c).tdiv scale := by
  simp only [computeReward, except_rules, FixedPoint.checkedMul_eq_some,
    FixedPoint.checkedSub_eq_some, FixedPoint.truncate, entitlement]
  constructor
  · rintro ⟨y, hy, z, hz, rfl⟩
    exact ⟨⟨y, hy⟩, ⟨z, hy ▸ hz⟩, by rw [hz, hy]⟩
  · rintro ⟨⟨y, hy⟩, ⟨z, hz⟩, rfl⟩
    exact ⟨y, hy, z, hy ▸ hz, by rw [hz]⟩

/-- The storage after the reward of a member was paid. -/
def collected (s : Storage) (p : CurrencyId) (v : VaultId) (c : CurrencyId)
    (total tally : SignedFixedPoint) : Storage :=
  { s with
    totalRewards := Function.update s.totalRewards c total
    rewardTally := Function.update s.rewardTally (c, p, v) tally }

theorem returns_withdrawReward {r : ℤ} :
    Returns (withdrawReward p v c) s r s' ↔
      computeReward s p v c = .ok r ∧
      ∃ total tally : SignedFixedPoint,
        (∃ y : SignedFixedPoint, y.inner = r * scale) ∧
        total.inner = (s.totalRewards c).inner - r * scale ∧
        tally.inner = ((s.stake (p, v)).inner * (s.rewardPerToken (c, p)).inner).tdiv scale ∧
        collected s p v c total tally = s' := by
  simp only [withdrawReward, returns_guards, okOr_eq_ok, FixedPoint.checkedFromInteger_eq_some,
    FixedPoint.checkedMul_eq_some, returns_checkedSubMut, returns_insertEntry]
  constructor
  · rintro ⟨_, hr, y, hy, total, htotal, tally, htally, rfl, rfl⟩
    exact ⟨hr, ⟨y, hy⟩, total, hy ▸ htotal, tally, htally, rfl⟩
  · rintro ⟨hr, ⟨y, hy⟩, total, htotal, tally, htally, rfl⟩
    exact ⟨r, hr, y, hy, total, hy ▸ htotal, tally, htally, rfl, rfl⟩

/-- The storage with the currency tracked as a reward currency of the pool. -/
def tracked (s : Storage) (p c : CurrencyId) : Storage :=
  if c ∈ s.rewardCurrencies p then s
  else { s with rewardCurrencies :=
    Function.update s.rewardCurrencies p (s.rewardCurrencies p ++ [c]) }

/-- What `distributeReward` writes, also when it fails. -/
theorem distributeReward_run :
    persist (distributeReward limit p c x) s =
      if x = 0 then (.ok (), s)
      else if s.totalStake p = 0 then (.error (err .zeroTotalStake), s)
      else if c ∉ s.rewardCurrencies p ∧ limit ≤ (s.rewardCurrencies p).length then
        (.error (err .maxRewardCurrencies), s)
      else match x.checkedDiv (s.totalStake p) with
        | none => (.error .underflow, tracked s p c)
        | some y => match (s.rewardPerToken (c, p)).checkedAdd y with
          | none => (.error .overflow, tracked s p c)
          | some r => match (s.totalRewards c).checkedAdd x with
            | none => (.error .overflow, { tracked s p c with
                rewardPerToken := update s.rewardPerToken (c, p) r })
            | some t => (.ok (), { tracked s p c with
                rewardPerToken := update s.rewardPerToken (c, p) r
                totalRewards := update s.totalRewards c t }) := by
  unfold distributeReward tracked
  by_cases hx : x = 0
  · simp only [hx, if_true, persist_pure]
  rw [if_neg hx, if_neg hx, persist_get_bind]
  by_cases htotal : s.totalStake p = 0
  · rw [if_pos htotal, if_pos htotal, persist_throw_bind]
  rw [if_neg htotal, if_neg htotal, persist_get_bind]
  by_cases hfull : c ∉ s.rewardCurrencies p ∧ limit ≤ (s.rewardCurrencies p).length
  · rw [if_pos hfull.1, if_pos hfull.2, if_pos hfull, persist_throw_bind]
  rw [if_neg hfull]
  have hlimit : c ∉ s.rewardCurrencies p → ¬ limit ≤ (s.rewardCurrencies p).length :=
    fun hc h => hfull ⟨hc, h⟩
  rcases hdiv : x.checkedDiv (s.totalStake p) with _ | y
  · by_cases hc : c ∈ s.rewardCurrencies p <;>
      simp only [hc, hlimit, not_true, not_false_iff, if_false, if_true, persist_modify_bind,
        persist_throw]
  rcases hadd : (s.rewardPerToken (c, p)).checkedAdd y with _ | r
  · by_cases hc : c ∈ s.rewardCurrencies p <;>
      simp only [hc, hlimit, not_true, not_false_iff, if_false, if_true, persist_modify_bind,
        persist_get_bind, hadd, persist_throw]
  rcases hrewards : (s.totalRewards c).checkedAdd x with _ | l <;>
    by_cases hc : c ∈ s.rewardCurrencies p <;>
      simp only [hc, hlimit, not_true, not_false_iff, if_false, if_true, persist_modify_bind,
        persist_get_bind, hadd, hrewards, persist_throw, persist_modify]

/-- The storage after a reward was distributed. -/
def distributed (s : Storage) (p c : CurrencyId) (perToken total : SignedFixedPoint) : Storage :=
  { tracked s p c with
    rewardPerToken := Function.update s.rewardPerToken (c, p) perToken
    totalRewards := Function.update s.totalRewards c total }

/-- Exact outcome of `distributeReward` when it succeeds. -/
theorem distributeReward_ok :
    persist (distributeReward limit p c x) s = (.ok u, s') ↔
      (x = 0 ∧ s = s') ∨
      (x ≠ 0 ∧ s.totalStake p ≠ 0 ∧
        (c ∈ s.rewardCurrencies p ∨ (s.rewardCurrencies p).length < limit) ∧
        ∃ y perToken total : SignedFixedPoint,
          y.inner = (x.inner * scale).tdiv (s.totalStake p).inner ∧
          perToken.inner = (s.rewardPerToken (c, p)).inner + y.inner ∧
          total.inner = (s.totalRewards c).inner + x.inner ∧
          distributed s p c perToken total = s') := by
  rw [distributeReward_run]
  by_cases hx : x = 0
  · simp [hx]
  by_cases htotal : s.totalStake p = 0
  · simp [hx, htotal]
  have hroom : (c ∈ s.rewardCurrencies p ∨ (s.rewardCurrencies p).length < limit) ↔
      ¬ (c ∉ s.rewardCurrencies p ∧ limit ≤ (s.rewardCurrencies p).length) := by
    rw [not_and_or, not_not, not_le]
  have hne : (s.totalStake p).inner ≠ 0 := fun h => htotal (FixedPoint.ext h)
  have hdiv : ∀ y : SignedFixedPoint, y.inner = (x.inner * scale).tdiv (s.totalStake p).inner ↔
      x.checkedDiv (s.totalStake p) = some y := fun y => by
    rw [FixedPoint.checkedDiv_eq_some, and_iff_right hne]
  simp only [hx, htotal, hroom, hdiv, ← FixedPoint.checkedAdd_eq_some, distributed, if_false,
    not_false_iff, true_and, false_and, false_or, ne_eq]
  split_ifs with hfull
  · simp [hfull]
  · rw [and_iff_right hfull]
    rcases x.checkedDiv (s.totalStake p) with _ | y
    · simp
    · rcases hadd : (s.rewardPerToken (c, p)).checkedAdd y with _ | r
      · simp [-FixedPoint.checkedAdd_eq_some, hadd]
      · rcases (s.totalRewards c).checkedAdd x <;> simp [-FixedPoint.checkedAdd_eq_some, hadd]

/-- A distribution that fails does not count the reward. -/
theorem distributeReward_error {e : DispatchError}
    (h : persist (distributeReward limit p c x) s = (.error e, s')) :
    s'.totalRewards = s.totalRewards := by
  have htracked : (tracked s p c).totalRewards = s.totalRewards := by
    unfold tracked
    split <;> rfl
  rw [distributeReward_run] at h
  repeat' split at h
  all_goals
    obtain ⟨hresult, rfl⟩ := Prod.mk.inj h
    cases hresult
  all_goals first | rfl | exact htracked

end Spacewalk.PooledRewards
