import Spacewalk.Staking.Refund

/-!
# The stake books of all pools

The books of a pool are exact if its `TotalStake` is the sum of the stakes of its nominators and its
`TotalCurrentStake` is a whole number (`Exact`).  The operations of a pool keep them exact if their
amounts are whole, whatever fractions the settled slashes leave in the stakes.  Every operation of
the pallet is made of those, so the pools of all vaults, current and closed, are exact in every run
(`books_exact`).
-/

namespace Spacewalk.Staking

open Foundation Function

/-- The books of a pool are exact. -/
structure Exact (p : LazyPool AccountId) : Prop where
  total : p.total = ∑ n, p.stake n
  whole : scale ∣ p.current

/-- The books of all pools are exact. -/
def BooksExact (s : Pools) : Prop := ∀ key, Exact (poolAt s key)

section

variable {cfg : Config} {s s' : Pools} {p : LazyPool AccountId} {v : VaultId} {n : AccountId}
  {x : SignedFixedPoint} {key : PoolKey} {op : PalletOp} {u : Unit}

theorem Exact.settle (h : Exact p) (n : AccountId) : Exact (p.settle scale n) :=
  ⟨LazyPool.total_settle h.total, h.whole⟩

theorem Exact.adjust (h : Exact p) (n : AccountId) {y : ℤ} (hy : scale ∣ y) :
    Exact (p.adjust scale n y) :=
  ⟨LazyPool.total_adjust h.total, dvd_add h.whole hy⟩

theorem Exact.slash (h : Exact p) {y : ℤ} (hy : scale ∣ y) : Exact (p.slash scale y) :=
  ⟨h.total, dvd_sub h.whole hy⟩

theorem BooksExact.acts (h : BooksExact s) (hacts : Acts s s' key p) (hp : Exact p) :
    BooksExact s' := by
  unfold BooksExact
  rw [hacts.pools]
  exact (Function.forall_update_iff _ fun _ => Exact).mpr ⟨hp, fun key _ => h key⟩

theorem BooksExact.depositStake (h : BooksExact s) (hx : scale ∣ x.inner)
    (hret : Returns (depositStake cfg v n x) s u s') : BooksExact s' :=
  h.acts (depositStake_acts hret) (((h _).settle n).adjust n hx)

/-- The position is settled in the current pool, and the amount leaves the addressed pool. -/
theorem BooksExact.withdrawStake {index : Option Nonce} (h : BooksExact s) (hx : scale ∣ x.inner)
    (hret : Returns (withdrawStake cfg v n x index) s u s') : BooksExact s' := by
  obtain ⟨hpools, -, -⟩ := withdrawStake_pools hret
  have hsettled : ∀ key, Exact (update (poolAt s) (currentKey s v)
      ((currentPool s v).settle scale n) key) :=
    (Function.forall_update_iff _ fun _ => Exact).mpr ⟨(h _).settle n, fun key _ => h key⟩
  unfold BooksExact
  rw [hpools]
  apply (Function.forall_update_iff _ fun _ => Exact).mpr
  exact ⟨(hsettled _).adjust n hx.neg_right, fun key _ => hsettled key⟩

/-- Every operation keeps the books exact. -/
theorem BooksExact.step (h : BooksExact s) (hstep : PalletStep cfg s op s') : BooksExact s' := by
  cases op with
  | depositStake v n a =>
    obtain ⟨x, hx, hret⟩ := returns_apiDepositStake.mp hstep
    exact h.depositStake (hx ▸ dvd_mul_left _ _) hret
  | slashStake v a =>
    obtain ⟨x, hx, hret⟩ := returns_apiSlashStake.mp hstep
    exact h.acts (slashStake_acts hret) ((h _).slash (hx ▸ dvd_mul_left _ _))
  | withdrawStake v n a index =>
    obtain ⟨x, hx, hret⟩ := returns_apiWithdrawStake.mp hstep
    exact h.withdrawStake (hx ▸ dvd_mul_left _ _) hret
  | distributeReward v a c =>
    obtain ⟨_, hret⟩ := returns_discard.mp hstep
    obtain ⟨x, r, -, hret⟩ := apiDistributeReward_returns hret
    exact h.acts (distributeReward_acts hret) (h (currentKey s v))
  | withdrawReward v n index c =>
    obtain ⟨_, hret⟩ := returns_discard.mp hstep
    obtain ⟨r, hret⟩ := apiWithdrawReward_returns hret
    exact h.acts (withdrawRewardAtIndex_acts hret) ((h _).settle n)
  | forceRefund v =>
    -- the stake that moves to the next pool was rounded to whole units
    obtain ⟨_, hret⟩ := returns_discard.mp hstep
    obtain ⟨r, hret⟩ := apiForceRefund_returns hret
    obtain ⟨m, stake, s₁, -, hstake, hwithdraw, -, hdeposit, -⟩ := forceRefund_returns hret
    have hwhole : scale ∣ stake.inner := hstake ▸ dvd_mul_left _ _
    have hclosed : BooksExact s₁ := h.withdrawStake hwhole hwithdraw
    have hopened : BooksExact { s₁ with nonce := update s₁.nonce v (s₁.nonce v + 1) } :=
      fun key => hclosed key
    exact hopened.depositStake hwhole hdeposit
  | addRewardCurrency c =>
    exact fun key => h.acts (addRewardCurrency_acts hstep) (h key) key

end

/-- In every run of the pallet, whichever reward currencies it started with, the total stake of every
pool is the sum of the stakes in it, and its current stake is a whole number. -/
theorem books_exact (cfg : Config) (cs : List CurrencyId) (ops : List PalletOp) (s : Pools)
    (hrun : Run (PalletStep cfg) { Pools.genesis with rewardCurrencies := cs } ops s) (v : VaultId)
    (k : Nonce) :
    (s.totalStake (k, v)).inner = ∑ n, (s.stake (k, v, n)).inner ∧
      scale ∣ (s.totalCurrentStake (k, v)).inner := by
  have hbooks : BooksExact s := by
    refine hrun.invariant (I := BooksExact) (fun _ _ _ hs hstep => hs.step hstep) fun key => ⟨?_, ?_⟩
    · simp [poolAt, Pools.genesis]
    · exact dvd_zero _
  exact ⟨(hbooks (k, v)).total, (hbooks (k, v)).whole⟩

/-- The books of the pool that two nominators have joined. -/
theorem books_exact_nominated :
    ∃ s, Run (PalletStep sampleConfig) Pools.genesis nominated s ∧
      (s.totalStake (0, sampleVault)).inner = ∑ n, (s.stake (0, sampleVault, n)).inner := by
  obtain ⟨s, hrun, -⟩ : ∃ s, Run (PalletStep sampleConfig) Pools.genesis nominated s ∧ True :=
    Run.exists_of_replay (fun _ _ _ => palletStep_of_some) (by decide +kernel)
  exact ⟨s, hrun, (books_exact sampleConfig [] nominated s hrun sampleVault 0).1⟩

end Spacewalk.Staking
