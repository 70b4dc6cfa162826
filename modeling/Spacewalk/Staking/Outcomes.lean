import Spacewalk.Staking.Pallet
import Spacewalk.Foundation.LazyPool

/-!
# What the staking functions do

Every function of the staking pallet is inverted once: from a successful call follow the
guards it passed and the storage it wrote.  The stake part of a pool is read as a
`LazyPool` (`poolAt`), and the functions of the pallet are shown to act on it as the
operations of that abstract pool do: `applySlash` settles, `depositStake` settles and
credits, `withdrawStake` settles in the current pool and debits in the addressed pool, and
`slashStake` announces a slash.
-/

namespace Spacewalk.Staking

open Foundation Function

variable {cfg : Config} {s s' : Pools} {v : VaultId} {n : AccountId} {x : SignedFixedPoint}
  {r : SignedFixedPoint} {cs : List CurrencyId} {c : CurrencyId} {u : Unit} {k : Nonce}

/-- The inner value of one token. -/
abbrev scale : ℤ := signedFormat.div

theorem scale_pos : 0 < scale := signedFormat.div_pos

/-- The stake part of a pool, as a pool with lazily applied slashes. -/
def poolAt (s : Pools) (key : PoolKey) : LazyPool AccountId where
  stake n := (s.stake (key.1, key.2, n)).inner
  tally n := (s.slashTally (key.1, key.2, n)).inner
  total := (s.totalStake key).inner
  current := (s.totalCurrentStake key).inner
  perToken := (s.slashPerToken key).inner

def currentKey (s : Pools) (v : VaultId) : PoolKey := (s.nonce v, v)

def currentPool (s : Pools) (v : VaultId) : LazyPool AccountId := poolAt s (currentKey s v)

/-! ## Reading the books -/

theorem computeAmountToSlash_eq_ok {stake perToken tally : SignedFixedPoint} :
    computeAmountToSlash stake perToken tally = .ok r ↔
      (∃ y : SignedFixedPoint, y.inner = (stake.inner * perToken.inner).tdiv scale) ∧
        r.inner = (stake.inner * perToken.inner).tdiv scale - tally.inner := by
  simp only [computeAmountToSlash, except_rules, FixedPoint.checkedMul_eq_some,
    FixedPoint.checkedSub_eq_some]
  constructor
  · rintro ⟨y, hy, hr⟩
    exact ⟨⟨y, hy⟩, hy ▸ hr⟩
  · rintro ⟨⟨y, hy⟩, hr⟩
    exact ⟨y, hy, hy ▸ hr⟩

/-- A computed stake is what remains to the nominator, rounded to whole units and never
negative. -/
theorem computeStakeAtIndex_eq_ok {m : ℤ} :
    computeStakeAtIndex s k v n = .ok m ↔
      (∃ toSlash, computeAmountToSlash (s.stake (k, v, n)) (s.slashPerToken (k, v))
        (s.slashTally (k, v, n)) = .ok toSlash) ∧
      (∃ y : SignedFixedPoint, y.inner = (poolAt s (k, v)).remaining scale n) ∧
      m = max 0 (((poolAt s (k, v)).remaining scale n).tdiv scale) := by
  simp only [computeStakeAtIndex, except_rules, FixedPoint.checkedSub_eq_some, FixedPoint.truncate]
  constructor
  · rintro ⟨toSlash, hslash, y, hy, rfl⟩
    obtain ⟨-, hvalue⟩ := computeAmountToSlash_eq_ok.mp hslash
    rw [hvalue] at hy
    exact ⟨⟨toSlash, hslash⟩, ⟨y, hy⟩, by rw [hy]; rfl⟩
  · rintro ⟨⟨toSlash, hslash⟩, ⟨y, hy⟩, rfl⟩
    obtain ⟨-, hvalue⟩ := computeAmountToSlash_eq_ok.mp hslash
    refine ⟨toSlash, hslash, y, ?_, by rw [hy]⟩
    rw [hy, hvalue]
    rfl

/-! ## The reward loops -/

section

variable {k : Nonce} {c : CurrencyId} {u : Unit}

/-- The change of the reward tally for the currency `c` when `x` is credited. -/
def tallyChange (perToken : CurrencyId × PoolKey → SignedFixedPoint) (key : PoolKey)
    (x : SignedFixedPoint) (c : CurrencyId) : ℤ :=
  ((perToken (c, key)).inner * x.inner).tdiv scale

theorem rewardTallyL_lawful : Pools.rewardTallyL.Lawful :=
  ⟨fun _ _ => rfl, fun _ => rfl, fun _ _ _ => rfl⟩

/-- A loop over currencies changes the reward tallies of one position by `g` of the products with
`x`: it succeeds iff every round can compute its product and every tally stays representable in the
end. -/
abbrev ChangesTallies (k : Nonce) (v : VaultId) (n : AccountId) (x : SignedFixedPoint) (g : ℤ → ℤ)
    (cs : List CurrencyId) (s s' : Pools) : Prop :=
  (∀ c ∈ cs, ∃ y : SignedFixedPoint, y.inner = tallyChange s.rewardPerToken (k, v) x c) ∧
    ∃ t : CurrencyId × PositionKey → SignedFixedPoint,
      (∀ c, (t (c, k, v, n)).inner = (s.rewardTally (c, k, v, n)).inner +
        cs.count c * g (tallyChange s.rewardPerToken (k, v) x c)) ∧
      (∀ key, (∀ c, key ≠ (c, k, v, n)) → t key = s.rewardTally key) ∧
      { s with rewardTally := t } = s'

theorem tallyKey_injective : Injective fun c : CurrencyId => (c, k, v, n) :=
  fun _ _ h => (Prod.ext_iff.mp h).1

theorem returns_forM_creditRewardTally :
    Returns (forM cs (creditRewardTally k v n x)) s u s' ↔ ChangesTallies k v n x id cs s s' := by
  have hloop := returns_forM_addScaled (s := s) (t := s') (u := u) (x := x) (g := id)
    (f := fun s c => s.rewardPerToken (c, k, v)) rewardTallyL_lawful
    (tallyKey_injective (k := k) (v := v) (n := n)) (fun _ _ => rfl) returns_addMut cs
  exact hloop

theorem returns_forM_debitRewardTally :
    Returns (forM cs (debitRewardTally k v n x)) s u s' ↔ ChangesTallies k v n x Neg.neg cs s s' := by
  have hloop := returns_forM_addScaled (s := s) (t := s') (u := u) (x := x) (g := Neg.neg)
    (f := fun s c => s.rewardPerToken (c, k, v)) rewardTallyL_lawful
    (tallyKey_injective (k := k) (v := v) (n := n)) (fun _ _ => rfl) returns_subMut cs
  exact hloop

end

/-! ## Inversion of the pallet functions -/

/-- The storage after settling a position of the current pool. -/
def settled (s : Pools) (v : VaultId) (n : AccountId) (total stake tally : SignedFixedPoint) :
    Pools :=
  { s with
    totalStake := update s.totalStake (s.nonce v, v) total
    stake := update s.stake (s.nonce v, v, n) stake
    slashTally := update s.slashTally (s.nonce v, v, n) tally }

theorem returns_applySlash :
    Returns (applySlash v n) s r s' ↔
      (∃ toSlash, computeAmountToSlash (s.stake (s.nonce v, v, n)) (s.slashPerToken (s.nonce v, v))
        (s.slashTally (s.nonce v, v, n)) = .ok toSlash) ∧
      r.inner = (currentPool s v).remaining scale n ∧
      ∃ total tally : SignedFixedPoint,
        total.inner = (currentPool s v).total - (currentPool s v).toSlash scale n ∧
        tally.inner = (r.inner * (currentPool s v).perToken).tdiv scale ∧
        settled s v n total r tally = s' := by
  simp only [applySlash, returns_guards, returns_checkedSubMut, okOr_eq_ok, returns_insertEntry,
    FixedPoint.checkedMul_eq_some]
  constructor
  · rintro ⟨toSlash, hslash, total, htotal, stake, hstake, tally, htally, rfl, rfl⟩
    obtain ⟨-, hvalue⟩ := computeAmountToSlash_eq_ok.mp hslash
    rw [hvalue] at htotal hstake
    exact ⟨⟨toSlash, hslash⟩, hstake, total, htotal, tally, htally, rfl⟩
  · rintro ⟨⟨toSlash, hslash⟩, hr, total, htotal, tally, htally, rfl⟩
    obtain ⟨-, hvalue⟩ := computeAmountToSlash_eq_ok.mp hslash
    refine ⟨toSlash, hslash, total, ?_, r, ?_, tally, htally, rfl, rfl⟩
    · rw [htotal, hvalue]
      rfl
    · rw [hr, hvalue]
      rfl

/-- Only the stake entries of one position and the totals of its pool change, and the
rewards' tallies. -/
def adjusted (s : Pools) (key : PoolKey) (n : AccountId)
    (stake total current tally : SignedFixedPoint)
    (tallies : CurrencyId × PositionKey → SignedFixedPoint) : Pools :=
  { s with
    stake := update s.stake (key.1, key.2, n) stake
    totalStake := update s.totalStake key total
    totalCurrentStake := update s.totalCurrentStake key current
    slashTally := update s.slashTally (key.1, key.2, n) tally
    rewardTally := tallies }

theorem depositStake_returns (h : Returns (depositStake cfg v n x) s u s') :
    ∃ r s₁, Returns (applySlash v n) s r s₁ ∧
      ∃ (stake total current tally : SignedFixedPoint)
        (tallies : CurrencyId × PositionKey → SignedFixedPoint),
        stake.inner = (s₁.stake (s.nonce v, v, n)).inner + x.inner ∧
        total.inner = (s₁.totalStake (s.nonce v, v)).inner + x.inner ∧
        current.inner = (s₁.totalCurrentStake (s.nonce v, v)).inner + x.inner ∧
        tally.inner = (s₁.slashTally (s.nonce v, v, n)).inner +
          ((s₁.slashPerToken (s.nonce v, v)).inner * x.inner).tdiv scale ∧
        s' = adjusted s₁ (s.nonce v, v) n stake total current tally tallies := by
  simp only [depositStake, returns_steps, returns_checkedAddMut, okOr_eq_ok,
    FixedPoint.checkedMul_eq_some] at h
  obtain ⟨r, s₁, happly, stake, hstake, total, htotal, current, hcurrent, y, hy, tally, htally,
    hloop⟩ := h
  obtain ⟨-, tallies, -, -, rfl⟩ := returns_forM_creditRewardTally.mp hloop
  rw [hy] at htally
  exact ⟨r, s₁, happly, stake, total, current, tally, tallies, hstake, htotal, hcurrent,
    htally, rfl⟩

/-- Exact outcome of `withdrawStake`: the slashes are settled in the current pool, and a
non-zero amount is compared with the stake there but taken from the addressed pool. -/
theorem returns_withdrawStake {index : Option Nonce} :
    Returns (withdrawStake cfg v n x index) s u s' ↔
      ∃ r s₁, Returns (applySlash v n) s r s₁ ∧
        ((x = 0 ∧ s₁ = s') ∨ (x ≠ 0 ∧ x.inner ≤ r.inner ∧
          ∃ (stake total current tally : SignedFixedPoint)
            (tallies : CurrencyId × PositionKey → SignedFixedPoint),
            stake.inner = (s₁.stake (index.getD (s.nonce v), v, n)).inner - x.inner ∧
            total.inner = (s₁.totalStake (index.getD (s.nonce v), v)).inner - x.inner ∧
            current.inner =
              (s₁.totalCurrentStake (index.getD (s.nonce v), v)).inner - x.inner ∧
            (∃ y : SignedFixedPoint, y.inner =
              ((s₁.slashPerToken (index.getD (s.nonce v), v)).inner * x.inner).tdiv scale) ∧
            tally.inner = (s₁.slashTally (index.getD (s.nonce v), v, n)).inner -
              ((s₁.slashPerToken (index.getD (s.nonce v), v)).inner * x.inner).tdiv scale ∧
            (∀ c ∈ getAllRewardCurrencies cfg s₁, ∃ y : SignedFixedPoint,
              y.inner = tallyChange s₁.rewardPerToken (index.getD (s.nonce v), v) x c) ∧
            (∀ c, (tallies (c, index.getD (s.nonce v), v, n)).inner =
              (s₁.rewardTally (c, index.getD (s.nonce v), v, n)).inner +
                (getAllRewardCurrencies cfg s₁).count c *
                  -tallyChange s₁.rewardPerToken (index.getD (s.nonce v), v) x c) ∧
            (∀ key, (∀ c, key ≠ (c, index.getD (s.nonce v), v, n)) →
              tallies key = s₁.rewardTally key) ∧
            adjusted s₁ (index.getD (s.nonce v), v) n stake total current tally tallies =
              s')) := by
  simp only [withdrawStake, returns_steps, returns_checkedSubMut, okOr_eq_ok,
    FixedPoint.checkedMul_eq_some, returns_ite, returns_throw, and_false, false_or, gt_iff_lt,
    not_lt]
  constructor
  · rintro ⟨r, s₁, happly, hcases⟩
    refine ⟨r, s₁, happly, ?_⟩
    rcases hcases with ⟨hx, -, rfl⟩ | ⟨hx, hle, stake, hstake, total, htotal, current, hcurrent, y,
      hy, tally, htally, hloop⟩
    · exact Or.inl ⟨hx, rfl⟩
    · obtain ⟨hrep, tallies, htallies, hother, rfl⟩ := returns_forM_debitRewardTally.mp hloop
      rw [hy] at htally
      exact Or.inr ⟨hx, hle, stake, hstake, total, htotal, current, hcurrent, ⟨y, hy⟩, tally, htally,
        hrep, tallies, htallies, hother, rfl⟩
  · rintro ⟨r, s₁, happly, hcases⟩
    refine ⟨r, s₁, happly, ?_⟩
    rcases hcases with ⟨hx, rfl⟩ | ⟨hx, hle, stake, hstake, total, htotal, current, hcurrent,
      ⟨y, hy⟩, tally, htally, hrep, tallies, htallies, hother, rfl⟩
    · exact Or.inl ⟨hx, trivial, rfl⟩
    · rw [← hy] at htally
      refine Or.inr ⟨hx, hle, stake, hstake, total, htotal, current, hcurrent, y, hy, tally, htally,
        ?_⟩
      exact returns_forM_debitRewardTally.mpr ⟨hrep, tallies, htallies, hother, rfl⟩

/-- Spreading a reward writes the rewards per token only. -/
theorem increaseRewards_returns (h : Returns (increaseRewards k c v x) s r s') :
    ∃ m, s' = { s with rewardPerToken := m } := by
  simp only [increaseRewards, returns_rules, returns_ite, returns_checkedAddMut] at h
  obtain ⟨_, _, ⟨rfl, rfl⟩, ⟨-, -, rfl⟩ |
    ⟨-, _, _, ⟨-, rfl⟩, perToken, _, ⟨-, rfl⟩, -, rfl⟩⟩ := h
  · exact ⟨s.rewardPerToken, rfl⟩
  · exact ⟨_, rfl⟩

theorem forM_replenishReward_returns (h : Returns (forM cs (replenishReward k v x)) s u s') :
    ∃ m, s' = { s with rewardPerToken := m } := by
  induction cs generalizing s with
  | nil =>
    obtain rfl := returns_forM_nil.mp h
    exact ⟨s.rewardPerToken, rfl⟩
  | cons c cs ih =>
    obtain ⟨s₁, h₁, h₂⟩ := returns_forM_cons.mp h
    simp only [replenishReward, returns_steps] at h₁
    obtain ⟨_, -, _, _, hinc, -, rfl⟩ := h₁
    obtain ⟨m₁, rfl⟩ := increaseRewards_returns hinc
    obtain ⟨m₂, rfl⟩ := ih h₂
    exact ⟨m₂, rfl⟩

theorem slashStake_returns (h : Returns (slashStake cfg v x) s u s') :
    (x = 0 ∧ s' = s) ∨
      (x ≠ 0 ∧ (currentPool s v).total ≠ 0 ∧
        ∃ (perToken current : SignedFixedPoint)
          (rewards : CurrencyId × PoolKey → SignedFixedPoint),
          perToken.inner = (currentPool s v).perToken +
            (x.inner * scale).tdiv (currentPool s v).total ∧
          current.inner = (currentPool s v).current - x.inner ∧
          s' = { s with
            slashPerToken := update s.slashPerToken (s.nonce v, v) perToken
            totalCurrentStake := update s.totalCurrentStake (s.nonce v, v) current
            rewardPerToken := rewards }) := by
  simp only [slashStake, returns_rules, returns_ite, returns_throw, and_false, false_or, okOr_eq_ok,
    FixedPoint.checkedDiv_eq_some, returns_checkedAddMut, returns_checkedSubMut] at h
  obtain ⟨_, _, ⟨rfl, rfl⟩, ⟨hx, -, rfl⟩ | ⟨hx, -, y, _, ⟨⟨htotal, hy⟩, rfl⟩, perToken, _,
    ⟨hperToken, rfl⟩, current, _, ⟨hcurrent, rfl⟩, _, _, ⟨rfl, rfl⟩, hloop⟩⟩ := h
  · exact Or.inl ⟨hx, rfl⟩
  · obtain ⟨rewards, rfl⟩ := forM_replenishReward_returns hloop
    rw [hy] at hperToken
    exact Or.inr ⟨hx, htotal, perToken, current, rewards, hperToken, hcurrent, rfl⟩

/-- Distributing a reward writes reward maps only. -/
theorem distributeReward_returns (h : Returns (distributeReward c v x) s r s') :
    ∃ m t, s' = { s with rewardPerToken := m, totalRewards := t } := by
  simp only [distributeReward, returns_steps, returns_ite, returns_checkedAddMut] at h
  obtain ⟨y, _, hinc, hcases⟩ := h
  obtain ⟨m, rfl⟩ := increaseRewards_returns hinc
  rcases hcases with ⟨-, -, rfl⟩ | ⟨-, total, _, ⟨-, rfl⟩, -, rfl⟩
  · exact ⟨m, s.totalRewards, rfl⟩
  · exact ⟨m, _, rfl⟩

/-- Withdrawing a reward settles the position in the current pool and writes reward maps. -/
theorem withdrawRewardAtIndex_returns {r : ℤ} (h : Returns (withdrawRewardAtIndex k c v n) s r s') :
    ∃ stake s₁, Returns (applySlash v n) s stake s₁ ∧
      ∃ t m, s' = { s₁ with totalRewards := t, rewardTally := m } := by
  simp only [withdrawRewardAtIndex, returns_guards, returns_checkedSubMut, returns_insertEntry] at h
  obtain ⟨stake, s₁, happly, _, -, _, -, total, -, tally, -, -, rfl⟩ := h
  exact ⟨stake, _, happly, _, _, rfl⟩

@[simp] theorem returns_incrementNonce :
    Returns (incrementNonce v) s u s' ↔ s.nonce v + 1 < nonceBound ∧
      { s with nonce := update s.nonce v (s.nonce v + 1) } = s' := by
  simp [incrementNonce]

theorem forceRefund_returns {r : ℤ} (h : Returns (forceRefund cfg v) s r s') :
    ∃ (m : ℤ) (stake : SignedFixedPoint) (s₁ : Pools),
      computeStakeAtIndex s (s.nonce v) v v.accountId = .ok m ∧
      stake.inner = m * scale ∧
      Returns (withdrawStake cfg v v.accountId stake (some (s.nonce v))) s () s₁ ∧
      s₁.nonce v + 1 < nonceBound ∧
      Returns (depositStake cfg v v.accountId stake)
        { s₁ with nonce := update s₁.nonce v (s₁.nonce v + 1) } () s' ∧
      r = ((currentPool s v).current - stake.inner).tdiv scale := by
  simp only [forceRefund, returns_guards, okOr_eq_ok, FixedPoint.checkedFromInteger_eq_some,
    returns_incrementNonce, FixedPoint.checkedSub_eq_some] at h
  obtain ⟨m, hm, stake, hstake, _, s₁, hwithdraw, hbound, _, _, hdeposit, refunded, hrefunded, rfl,
    rfl⟩ := h
  refine ⟨m, stake, s₁, hm, hstake, hwithdraw, hbound, hdeposit, ?_⟩
  rw [FixedPoint.truncate, hrefunded]
  rfl

theorem addRewardCurrency_returns (h : Returns (addRewardCurrency cfg c) s u s') :
    ∃ cs, s' = { s with rewardCurrencies := cs } := by
  simp only [addRewardCurrency, returns_rules, returns_ite, returns_set] at h
  obtain ⟨_, _, ⟨rfl, rfl⟩, ⟨-, -, rfl⟩ | ⟨-, _, _, ⟨-, rfl⟩, rfl⟩⟩ := h
  · exact ⟨s.rewardCurrencies, rfl⟩
  · exact ⟨_, rfl⟩

/-! ## The interface -/

section

variable {a b : Balance} {c : CurrencyId} {index : Option Nonce} {u : Unit}

theorem toFixed_eq_ok : Api.toFixed a = .ok x ↔ x.inner = a * scale := by
  simp [Api.toFixed]

theorem returns_apiDepositStake :
    Returns (Api.depositStake cfg v n a) s u s' ↔
      ∃ x, x.inner = a * scale ∧ Returns (depositStake cfg v n x) s u s' := by
  simp [Api.depositStake, toFixed_eq_ok]

theorem returns_apiSlashStake :
    Returns (Api.slashStake cfg v a) s u s' ↔
      ∃ x, x.inner = a * scale ∧ Returns (slashStake cfg v x) s u s' := by
  simp [Api.slashStake, toFixed_eq_ok]

theorem returns_apiWithdrawStake :
    Returns (Api.withdrawStake cfg v n a index) s u s' ↔
      ∃ x, x.inner = a * scale ∧ Returns (withdrawStake cfg v n x index) s u s' := by
  simp [Api.withdrawStake, toFixed_eq_ok]

theorem apiDistributeReward_returns (h : Returns (Api.distributeReward v a c) s b s') :
    ∃ x r, x.inner = a * scale ∧ Returns (distributeReward c v x) s r s' := by
  simp only [Api.distributeReward, returns_steps, toFixed_eq_ok] at h
  obtain ⟨x, hx, r, _, h, -, rfl⟩ := h
  exact ⟨x, r, hx, h⟩

theorem apiWithdrawReward_returns (h : Returns (Api.withdrawReward v n index c) s b s') :
    ∃ r, Returns (withdrawRewardAtIndex (index.getD (s.nonce v)) c v n) s r s' := by
  simp only [Api.withdrawReward, returns_steps] at h
  obtain ⟨r, _, h, -, rfl⟩ := h
  exact ⟨r, h⟩

theorem apiForceRefund_returns (h : Returns (Api.forceRefund cfg v) s b s') :
    ∃ r, Returns (forceRefund cfg v) s r s' := by
  simp only [Api.forceRefund, returns_rules] at h
  obtain ⟨r, _, h, -, rfl⟩ := h
  exact ⟨r, h⟩

end

end Spacewalk.Staking
