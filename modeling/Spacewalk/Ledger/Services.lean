import Spacewalk.Ledger.Books
import Spacewalk.Ledger.Parts
import Spacewalk.Staking.Outcomes

/-!
# What the services post

Movements of tokens post to reserved balances and issuance, the staking pallet posts to the
stake of pools, and fees, prices, rate limits and rewards leave the books as they are.
-/

namespace Spacewalk.Ledger

open Foundation VaultRegistry Staking
open Function (update update_eq_self update_of_ne update_self)

variable {B : Type} {R : Runtime B} {s s' : Chain B}

/-! ## Movements of tokens -/

section

/-- A change of the token pallets that only concerns one reserved balance and one issuance. -/
theorem moves_tokens (hs : Keyed s) {t : B} {f : Holdings AccountId CurrencyId}
    (ht : R.tokens.holdings t = f) {c : CurrencyId} {a : AccountId} {x y : ℤ}
    (hreserved : ∀ c' a', (f.reserved c' a' : ℤ) =
      R.tokens.reservedBalance s.tokens c' a' + if c' = c ∧ a' = a then x else 0)
    (hissuance : ∀ c', f.issuance c' =
      R.tokens.totalIssuance s.tokens c' + if c' = c then y else 0) :
    Moves R ∅ (on (.reserved c a) x + on (.issuance c) y) s (withTokens t s) where
  toSameRequests := ⟨rfl, rfl, rfl, rfl, rfl⟩
  balance := by
    subst ht
    simp only [MultiCurrency.holdings] at hreserved hissuance
    funext account
    cases account <;>
      simp [recorded, Pi.single_apply, hreserved, hissuance, getLiquidationVault, withTokens]
  vaults _ _ := rfl
  registered _ h := h
  nonce := rfl
  stakes _ _ h := absurd rfl h
  whole v := by simp
  keyed := hs.congr rfl rfl
  status := rfl

theorem update_eq_add (f : CurrencyId → ℤ) (c c' : CurrencyId) (y : ℤ) :
    update f c (f c + y) c' = f c' + if c' = c then y else 0 := by
  by_cases hc : c' = c
  · subst hc
    simp
  · simp [hc]

variable {amount : Amount} {a : AccountId} {u : Unit} (hR : R.tokens.Lawful)

include hR

theorem transfer_frame (amount : Amount) (a b : AccountId) :
    Respects (Frame R) (amount.transfer R a b) := by
  intro s u s' h
  obtain ⟨t, rfl, hheld⟩ := transfer_holdings hR h
  have hreserved : R.tokens.reservedBalance t = R.tokens.reservedBalance s.tokens :=
    congrArg Holdings.reserved hheld
  have hissuance : R.tokens.totalIssuance t = R.tokens.totalIssuance s.tokens :=
    congrArg Holdings.issuance hheld
  exact ⟨⟨rfl, rfl, rfl, rfl, rfl⟩, hreserved, hissuance, rfl, rfl, rfl, rfl, rfl⟩

theorem lockOn_moves (hs : Keyed s) (h : Returns (amount.lockOn R a) s u s') :
    Moves R ∅ (on (.reserved amount.currencyId a) amount.amount) s s' := by
  obtain ⟨t, rfl, -, ht⟩ := lockOn_holdings hR h
  refine (moves_tokens hs ht (y := 0) (fun c' a' => setBalance_add _ _ c' _ a' _) fun c' => ?_).congr
    subset_rfl (by simp)
  simp [Holdings.reserve, MultiCurrency.holdings]

theorem unlockOn_moves (hs : Keyed s) (h : Returns (amount.unlockOn R a) s u s') :
    Moves R ∅ (-on (.reserved amount.currencyId a) amount.amount) s s' := by
  obtain ⟨t, rfl, hle, ht⟩ := unlockOn_holdings hR h
  refine (moves_tokens hs ht (y := 0) (setBalance_sub hle) fun c' => ?_).congr subset_rfl
    (by simp [Pi.single_neg])
  simp [Holdings.unreserve, MultiCurrency.holdings]

theorem burnFrom_moves (hs : Keyed s) (h : Returns (amount.burnFrom R a) s u s') :
    Moves R ∅ (-on (.reserved amount.currencyId a) amount.amount -
      on (.issuance amount.currencyId) amount.amount) s s' := by
  obtain ⟨t, rfl, hle, ht⟩ := burnFrom_holdings hR h
  exact (moves_tokens hs ht (setBalance_sub hle) fun c' => update_eq_add _ _ c' _).congr subset_rfl
    (by simp [Pi.single_neg, sub_eq_add_neg])

theorem mintTo_moves (hs : Keyed s) (h : Returns (amount.mintTo R a) s u s') :
    Moves R ∅ (on (.issuance amount.currencyId) amount.amount) s s' := by
  obtain ⟨t, rfl, ht⟩ := mintTo_holdings hR h
  refine (moves_tokens hs ht (a := a) (x := 0) (fun c' a' => ?_)
    fun c' => update_eq_add _ _ c' _).congr subset_rfl (by simp)
  simp [Holdings.deposit, MultiCurrency.holdings]

end

/-! ## Rewards, fees and rate limits -/

section

theorem pooledRewards_frame {α : Type} (m : PooledRewards.PalletM α) :
    Respects (Frame R) (zoom Chain.pooledRewardsL m) := by
  intro s a s' h
  simp only [returns_zoom, Chain.pooledRewardsL_put] at h
  obtain ⟨t, -, rfl⟩ := h
  exact ⟨⟨rfl, rfl, rfl, rfl, rfl⟩, rfl, rfl, rfl, rfl, rfl, rfl, rfl⟩

theorem distributeReward_frame (v : VaultId) (x : ℕ) (c : CurrencyId) :
    Respects (Frame R) (zoom Chain.stakingL (Staking.Api.distributeReward v x c)) := by
  intro s a s' h
  simp only [Chain.returns_staking, Staking.Api.distributeReward, returns_steps] at h
  obtain ⟨t, ⟨_, -, r, _, hdist, -, rfl⟩, rfl⟩ := h
  obtain ⟨_, _, rfl⟩ := distributeReward_returns hdist
  exact ⟨⟨rfl, rfl, rfl, rfl, rfl⟩, rfl, rfl, rfl, rfl, rfl, rfl, rfl⟩

theorem withdrawAllRewardsFromVault_frame (v : VaultId) :
    Respects (Frame R) (RewardDistribution.withdrawAllRewardsFromVault R v) :=
  withdrawAllRewardsFromVault_respects (fun _ => pooledRewards_frame _) (distributeReward_frame v)

theorem distributeRewards_frame (hR : R.tokens.Lawful) (amount : Amount) :
    Respects (Frame R) (Fee.distributeRewards R amount) := by
  refine distributeRewards_respects (fun c p x => ?_) (fun _ _ => transfer_frame hR _ _ _) amount
  intro s y s' h
  obtain ⟨_, rewards, -, rfl⟩ := distributeToPool_returns h
  exact ⟨⟨rfl, rfl, rfl, rfl, rfl⟩, rfl, rfl, rfl, rfl, rfl, rfl, rfl⟩

variable {Rel : Chain B → Chain B → Prop} [Std.Refl Rel] [IsTrans (Chain B) Rel]
  {limitL : Lens (Chain B) RateLimit} (hput : ∀ s l, Rel s (limitL.put s l))

include hput

/-- The functions of a rate limit write its storage only. -/
theorem increaseIntervalVolume_respects (amount : Amount) :
    Respects Rel (RateLimit.increaseIntervalVolume R limitL amount) := by
  unfold RateLimit.increaseIntervalVolume
  refine .gets fun s => .ite ?_ (.pure _)
  exact .reads fun volume => .modify fun t => hput t _

theorem checkVolume_respects (e : DispatchError) (amount : Amount) :
    Respects Rel (RateLimit.checkVolume R limitL e amount) := by
  unfold RateLimit.checkVolume
  refine .gets fun s => ?_
  cases hlimit : (limitL.get s).limitVolumeAmount with
  | none =>
    simp only [hlimit]
    exact .pure _
  | some limit =>
    simp only [hlimit]
    refine .gets fun t => .bind (.modify fun u => hput u _) fun _ => ?_
    exact .reads fun requested => .liftM _

end

/-! ## Stake -/

section

variable {p p' : Pools} {cfg : Staking.Config} {v : VaultId} {n : AccountId} {x : ℕ} {u : Unit}

/-- The stake of one pool changes by an inner value; the nonces stay. -/
def StakeChanges (p p' : Pools) (key : PoolKey) (x : ℤ) : Prop :=
  p'.nonce = p.nonce ∧
    ∃ c : SignedFixedPoint, c.inner = (p.totalCurrentStake key).inner + x ∧
      p'.totalCurrentStake = Function.update p.totalCurrentStake key c

theorem applySlash_totalCurrentStake {r : SignedFixedPoint}
    (h : Returns (applySlash v n) p r p') :
    p'.totalCurrentStake = p.totalCurrentStake ∧ p'.nonce = p.nonce := by
  obtain ⟨-, -, total, tally, -, -, rfl⟩ := returns_applySlash.mp h
  exact ⟨rfl, rfl⟩

variable {index : Option Nonce} {y : SignedFixedPoint}

theorem depositStake_changes (h : Returns (Staking.depositStake cfg v n y) p u p') :
    StakeChanges p p' (p.nonce v, v) y.inner := by
  obtain ⟨r, p₁, happly, _, _, current, _, _, -, -, hcurrent, -, rfl⟩ := depositStake_returns h
  obtain ⟨hstake, hnonce⟩ := applySlash_totalCurrentStake happly
  refine ⟨hnonce, current, ?_, ?_⟩
  · rw [hcurrent, hstake]
  · simp only [adjusted, hstake]

theorem withdrawStake_changes (h : Returns (Staking.withdrawStake cfg v n y index) p u p') :
    StakeChanges p p' (index.getD (p.nonce v), v) (-y.inner) := by
  obtain ⟨r, p₁, happly, hcases⟩ := returns_withdrawStake.mp h
  obtain ⟨hstake, hnonce⟩ := applySlash_totalCurrentStake happly
  rcases hcases with ⟨rfl, rfl⟩ | ⟨-, -, _, _, current, _, _, -, -, hcurrent, -, -, -, -, -, rfl⟩
  · -- nothing is withdrawn
    refine ⟨hnonce, p.totalCurrentStake (index.getD (p.nonce v), v), by simp, ?_⟩
    rw [update_eq_self, hstake]
  · refine ⟨hnonce, current, ?_, ?_⟩
    · rw [hcurrent, hstake]
      rfl
    · simp only [adjusted, hstake]

theorem slashStake_changes (h : Returns (Staking.slashStake cfg v y) p u p') :
    StakeChanges p p' (p.nonce v, v) (-y.inner) := by
  rcases slashStake_returns h with ⟨rfl, rfl⟩ | ⟨-, -, _, current, _, -, hcurrent, rfl⟩
  · exact ⟨rfl, _, by simp, (update_eq_self (p'.nonce v, v) _).symm⟩
  · exact ⟨rfl, current, hcurrent, rfl⟩

theorem apiDepositStake_changes (h : Returns (Staking.Api.depositStake cfg v n x) p u p') :
    StakeChanges p p' (p.nonce v, v) (scale * x) := by
  obtain ⟨y, hy, h⟩ := Staking.returns_apiDepositStake.mp h
  rw [mul_comm, ← hy]
  exact depositStake_changes h

theorem apiWithdrawStake_changes (h : Returns (Staking.Api.withdrawStake cfg v n x index) p u p') :
    StakeChanges p p' (index.getD (p.nonce v), v) (-(scale * x)) := by
  obtain ⟨y, hy, h⟩ := Staking.returns_apiWithdrawStake.mp h
  rw [mul_comm, ← hy]
  exact withdrawStake_changes h

theorem apiSlashStake_changes (h : Returns (Staking.Api.slashStake cfg v x) p u p') :
    StakeChanges p p' (p.nonce v, v) (-(scale * x)) := by
  obtain ⟨y, hy, h⟩ := Staking.returns_apiSlashStake.mp h
  rw [mul_comm, ← hy]
  exact slashStake_changes h

/-- A refund closes the current pool with the stake of the nominators, and opens the next pool
with the stake of the vault. -/
structure PoolRefunds (v : VaultId) (r : ℕ) (p p' : Pools) : Prop where
  nonce : p'.nonce = Function.update p.nonce v (p.nonce v + 1)
  closes : (p'.totalCurrentStake (p.nonce v, v)).inner = scale * r
  opens : (p'.totalCurrentStake (p.nonce v + 1, v)).inner =
    (p.totalCurrentStake (p.nonce v + 1, v)).inner +
      ((p.totalCurrentStake (p.nonce v, v)).inner - scale * r)
  others : ∀ k w, (k, w) ≠ (p.nonce v, v) → (k, w) ≠ (p.nonce v + 1, v) →
    p'.totalCurrentStake (k, w) = p.totalCurrentStake (k, w)

theorem forceRefund_refunds {r : ℕ}
    (hwhole : scale ∣ (p.totalCurrentStake (p.nonce v, v)).inner)
    (h : Returns (Staking.Api.forceRefund cfg v) p r p') : PoolRefunds v r p p' := by
  simp only [Staking.Api.forceRefund, returns_rules, Staking.Api.toBalance, except_ite_eq_ok,
    Except.ok.injEq, reduceCtorEq, and_false, or_false] at h
  obtain ⟨i, _, hrefund, ⟨hnonneg, rfl⟩, rfl⟩ := h
  obtain ⟨m, stake, p₁, -, hstake, hwithdraw, -, hdeposit, rfl⟩ := forceRefund_returns hrefund
  obtain ⟨hnonce₁, c₁, hc₁, hstake₁⟩ := withdrawStake_changes hwithdraw
  obtain ⟨hnonce₂, c₂, hc₂, hstake₂⟩ := depositStake_changes hdeposit
  simp only [hnonce₁, update_self, Option.getD_some] at hnonce₂ hc₂ hstake₂ hc₁ hstake₁
  have hnext : (p.nonce v + 1, v) ≠ (p.nonce v, v) := by simp
  -- the refunded stake is whole, so nothing is lost when it is rounded
  have hexact : scale * ((currentPool p v).current - stake.inner).tdiv scale =
      (currentPool p v).current - stake.inner := by
    apply Int.mul_tdiv_cancel'
    rw [hstake]
    exact dvd_sub hwhole (dvd_mul_left _ _)
  have hcurrent : (currentPool p v).current = (p.totalCurrentStake (p.nonce v, v)).inner := rfl
  refine ⟨hnonce₂, ?_, ?_, ?_⟩
  · rw [Int.toNat_of_nonneg hnonneg, hexact, hstake₂, update_of_ne hnext.symm, hstake₁,
      update_self, hc₁, hcurrent]
    rfl
  · rw [Int.toNat_of_nonneg hnonneg, hexact, hstake₂, update_self, hc₂, hstake₁,
      update_of_ne hnext, hcurrent]
    ring
  · intro k w hclosed hopened
    rw [hstake₂, update_of_ne hopened, hstake₁, update_of_ne hclosed]

/-- What a refund posts, if the next pool had no stake. -/
theorem PoolRefunds.recorded_eq {r : ℕ} (h : PoolRefunds v r s.staking p')
    (hnext : (s.staking.totalCurrentStake (s.staking.nonce v + 1, v)).inner = 0) :
    recorded R { s with staking := p' } =
      recorded R s + (on (.closed v) (scale * r) - on (.stake v) (scale * r)) := by
  funext account
  cases account with
  | stake w =>
    by_cases hw : w = v
    · subst hw
      simp [recorded, h.nonce, h.opens, hnext, sub_eq_add_neg]
    · simp [recorded, h.nonce, hw, h.others]
  | closed w =>
    by_cases hw : w = v
    · subst hw
      have hsame : ∀ k ∈ Finset.range (s.staking.nonce w),
          (p'.totalCurrentStake (k, w)).inner = (s.staking.totalCurrentStake (k, w)).inner := by
        intro k hk
        have hk := Finset.mem_range.mp hk
        rw [h.others k w]
        · rintro ⟨⟩
          exact absurd hk (lt_irrefl _)
        · rintro ⟨⟩
          exact absurd hk (Nat.not_lt.mpr (Nat.le_succ _))
      simp [recorded, h.nonce, Finset.sum_range_succ, Finset.sum_congr rfl hsame, h.closes]
    · simp [recorded, h.nonce, hw, h.others]
  | _ => simp [recorded, getLiquidationVault]

/-- A change of the stake of a closed pool. -/
theorem recorded_closed {k : Nonce} {x : ℤ} (hk : k < s.staking.nonce v)
    (h : StakeChanges s.staking p' (k, v) x) :
    recorded R { s with staking := p' } = recorded R s + on (.closed v) x := by
  obtain ⟨hnonce, c, hc, hstake⟩ := h
  funext account
  cases account with
  | stake w =>
    have hne : (s.staking.nonce w, w) ≠ (k, v) := by
      rintro ⟨⟩
      exact lt_irrefl _ hk
    simp [recorded, hnonce, hstake, hne]
  | closed w =>
    by_cases hw : w = v
    · subst hw
      have hmem : k ∈ Finset.range (s.staking.nonce w) := Finset.mem_range.mpr hk
      have hrest : ∀ j ∈ (Finset.range (s.staking.nonce w)).erase k,
          (p'.totalCurrentStake (j, w)).inner = (s.staking.totalCurrentStake (j, w)).inner := by
        intro j hj
        rw [hstake, update_of_ne (by simpa using Finset.ne_of_mem_erase hj)]
      simp only [recorded, hnonce, Pi.add_apply, Pi.single_eq_same]
      rw [← Finset.add_sum_erase _ _ hmem, ← Finset.add_sum_erase _ _ hmem,
        Finset.sum_congr rfl hrest, hstake, update_self, hc]
      ring
    · simp [recorded, hnonce, hstake, hw]
  | _ => simp [recorded, getLiquidationVault]

/-- A change of the stake of the current pool of a registered vault. -/
theorem moves_stake (hs : Keyed s) {x : ℤ} (hx : scale ∣ x) (hreg : statusOf s v ≠ none)
    (h : StakeChanges s.staking p' (s.staking.nonce v, v) x) :
    Moves R ∅ (on (.stake v) x) s { s with staking := p' } := by
  obtain ⟨hnonce, c, hc, hstake⟩ := h
  refine ⟨⟨⟨rfl, rfl, rfl, rfl, rfl⟩, ?_, fun _ _ => rfl, fun _ h => h, hnonce, ?_, ?_,
    hs.congr rfl rfl⟩, rfl⟩
  · funext account
    cases account with
    | stake w =>
      by_cases hw : w = v
      · subst hw
        simp [recorded, hnonce, hstake, hc]
      · simp [recorded, hnonce, hstake, hw]
    | closed w =>
      have hsame : ∀ k ∈ Finset.range (s.staking.nonce w),
          (p'.totalCurrentStake (k, w)).inner = (s.staking.totalCurrentStake (k, w)).inner := by
        intro k hk
        have hne : (k, w) ≠ (s.staking.nonce v, v) := by
          rintro ⟨⟩
          simp at hk
        rw [hstake, update_of_ne hne]
      simp [recorded, hnonce, Finset.sum_congr rfl hsame]
    | _ => simp [recorded, getLiquidationVault]
  · intro k w hne
    have hkey : (k, w) = (s.staking.nonce v, v) := by
      by_contra hkey
      exact hne (by rw [hstake, update_of_ne hkey])
    obtain ⟨rfl, rfl⟩ := Prod.mk.inj hkey
    exact ⟨rfl, hreg⟩
  · intro w
    simp only [on, Pi.single_apply]
    split
    · exact hx
    · exact dvd_zero _

end

end Spacewalk.Ledger
