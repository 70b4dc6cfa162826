import Spacewalk.Ledger.Vaults

/-!
# What transfers of funds post

Collateral that is deposited is counted three times: in the total of its pair of currencies,
in the reserved balance of the vault and in the stake of its pool.  `held` is what a source of
funds counts for an amount, and a transfer of funds posts what the destination counts and
takes away what the source counted (`transferFunds_moves`).
-/

namespace Spacewalk.Ledger

open Foundation VaultRegistry Staking

variable {B : Type} {R : Runtime B} {s s' : Chain B} {v : VaultId} {amount : Amount} {u : Unit}

/-! ## The pools -/

section

theorem updateRewardStake_frame (v : VaultId) :
    Respects (Frame R) (PoolManager.updateRewardStake v) :=
  updateRewardStake_respects
    (fun _ _ => ⟨⟨rfl, rfl, rfl, rfl, rfl⟩, rfl, rfl, rfl, rfl, rfl, rfl, rfl⟩) v

theorem updateRewardStake_registered (h : Returns (PoolManager.updateRewardStake v) s u s') :
    statusOf s v ≠ none := by
  simp only [PoolManager.updateRewardStake, returns_steps] at h
  obtain ⟨d, hget, -⟩ := h
  have hd : s.vaultRegistry.vaults v = some d := okOr_eq_ok.mp hget
  simp [statusOf, hd]

/-- The functions of the pool manager: rewards are withdrawn before the stake of the current pool
changes, and the stake for rewards is set after it. -/
theorem poolManager_moves {m : PalletM Unit} {x : ℤ} (hs : Keyed s) (hx : scale ∣ x)
    (hm : ∀ p p', p.nonce = s.staking.nonce → Returns m p () p' →
      StakeChanges p p' (p.nonce v, v) x)
    (h : Returns (do
      RewardDistribution.withdrawAllRewardsFromVault R v
      zoom Chain.stakingL m
      PoolManager.updateRewardStake v) s u s') :
    Moves R ∅ (on (.stake v) x) s s' ∧ statusOf s v ≠ none := by
  simp only [returns_bind, Chain.returns_staking] at h
  obtain ⟨_, s₁, hrewards, _, _, ⟨p, hstake, rfl⟩, hupdate⟩ := h
  have hfirst := (withdrawAllRewardsFromVault_frame v s _ s₁ hrewards).moves hs
  have hreg : statusOf s₁ v ≠ none := by
    have hreg := updateRewardStake_registered hupdate
    exact hreg
  have hsecond := moves_stake (R := R) hfirst.keyed hx hreg
    (hm s₁.staking p hfirst.nonce hstake)
  have hthird := (updateRewardStake_frame (R := R) v _ _ s' hupdate).moves hsecond.keyed
  refine ⟨((hfirst.trans hsecond).trans hthird).congr (by simp) (by simp), ?_⟩
  rwa [hfirst.status] at hreg

theorem poolDeposit_moves {n : AccountId} (hs : Keyed s)
    (h : Returns (PoolManager.depositCollateral R v n amount) s u s') :
    Moves R ∅ (on (.stake v) (scale * amount.amount)) s s' ∧ statusOf s v ≠ none :=
  poolManager_moves hs (dvd_mul_right _ _) (fun _ _ _ hstake => apiDepositStake_changes hstake) h

theorem poolWithdraw_moves {n : AccountId} {index : Option Nonce} (hs : Keyed s)
    (hindex : index.getD (s.staking.nonce v) = s.staking.nonce v)
    (h : Returns (PoolManager.withdrawCollateral R v n amount index) s u s') :
    Moves R ∅ (-on (.stake v) (scale * amount.amount)) s s' ∧ statusOf s v ≠ none := by
  rw [← on_neg]
  refine poolManager_moves hs (dvd_neg.mpr (dvd_mul_right _ _)) (fun p p' hnonce hstake => ?_) h
  have hchanges := apiWithdrawStake_changes hstake
  rwa [hnonce, hindex, ← hnonce] at hchanges

theorem poolSlash_moves (hs : Keyed s)
    (h : Returns (PoolManager.slashCollateral R v amount) s u s') :
    Moves R ∅ (-on (.stake v) (scale * amount.amount)) s s' ∧ statusOf s v ≠ none := by
  rw [← on_neg]
  exact poolManager_moves hs (dvd_neg.mpr (dvd_mul_right _ _))
    (fun _ _ _ hstake => apiSlashStake_changes hstake) h

theorem onVaultSettingsChange_frame (v : VaultId) :
    Respects (Frame R) (PoolManager.onVaultSettingsChange R v) :=
  .bind (withdrawAllRewardsFromVault_frame v) fun _ => updateRewardStake_frame v

end

/-! ## The total collateral -/

section

variable {p : VaultCurrencyPair}

theorem setTotalUserVaultCollateral_moves {n : ℕ} (hs : Keyed s)
    (h : Returns (setTotalUserVaultCollateral p n) s u s') :
    Moves R ∅ (on (.total p) (n - s.vaultRegistry.totalUserVaultCollateral p)) s s' := by
  obtain rfl := returns_modify.mp h
  refine ⟨⟨⟨rfl, rfl, rfl, rfl, rfl⟩, ?_, fun _ _ => rfl, fun _ h => h, rfl, fun _ _ h => absurd rfl h,
    ?_, hs.congr rfl rfl⟩, rfl⟩
  · funext account
    cases account with
    | total q =>
      by_cases hq : q = p
      · subst hq
        simp [recorded, Chain.mapVaultRegistry]
      · simp [recorded, Chain.mapVaultRegistry, hq]
    | _ => simp [recorded, Chain.mapVaultRegistry, getLiquidationVault]
  · intro w
    simp

theorem tryIncreaseTotalBackingCollateral_moves (hs : Keyed s)
    (h : Returns (tryIncreaseTotalBackingCollateral p amount) s u s') :
    amount.currencyId = p.collateral ∧ Moves R ∅ (on (.total p) amount.amount) s s' := by
  simp only [tryIncreaseTotalBackingCollateral, returns_rules, Amount.checkedAdd_eq_ok] at h
  obtain ⟨_, _, ⟨rfl, rfl⟩, _, _, ⟨⟨hc, -, rfl⟩, rfl⟩, _, _, ⟨-, rfl⟩, _, _, ⟨-, rfl⟩, _, _,
    ⟨-, rfl⟩, hset⟩ := h
  refine ⟨hc.symm, (setTotalUserVaultCollateral_moves hs hset).congr subset_rfl ?_⟩
  simp [getTotalUserVaultCollateral]

theorem decreaseTotalBackingCollateral_moves (hs : Keyed s)
    (h : Returns (decreaseTotalBackingCollateral p amount) s u s') :
    amount.currencyId = p.collateral ∧ Moves R ∅ (-on (.total p) amount.amount) s s' := by
  simp only [decreaseTotalBackingCollateral, returns_rules, Amount.checkedSub_eq_ok] at h
  obtain ⟨_, _, ⟨rfl, rfl⟩, _, _, ⟨⟨hc, hle, rfl⟩, rfl⟩, hset⟩ := h
  have hle : amount.amount ≤ s.vaultRegistry.totalUserVaultCollateral p := hle
  refine ⟨hc.symm, (setTotalUserVaultCollateral_moves hs hset).congr subset_rfl ?_⟩
  rw [← on_neg]
  congr 1
  simp only [getTotalUserVaultCollateral]
  omega

end

/-! ## Collateral -/

section

/-- Backing collateral of a vault: it counts in the total, is reserved and has stake. -/
def backing (v : VaultId) (n : ℤ) : Posting :=
  on (.total v.currencies) n + on (.reserved v.currencies.collateral v.accountId) n +
    on (.stake v) (scale * n)

variable (hR : R.tokens.Lawful) (hs : Keyed s)

include hR hs

theorem tryDepositCollateral_moves (h : Returns (tryDepositCollateral R v amount) s u s') :
    amount.currencyId = v.currencies.collateral ∧ Moves R ∅ (backing v amount.amount) s s' := by
  simp only [tryDepositCollateral, returns_steps] at h
  obtain ⟨_, -, _, s₁, htotal, _, s₂, hlock, hpool⟩ := h
  obtain ⟨hc, hfirst⟩ := tryIncreaseTotalBackingCollateral_moves (R := R) hs htotal
  have hsecond := lockOn_moves hR hfirst.keyed hlock
  obtain ⟨hthird, -⟩ := poolDeposit_moves hsecond.keyed hpool
  refine ⟨hc, ((hfirst.trans hsecond).trans hthird).congr (by simp) ?_⟩
  rw [hc, backing]

theorem forceWithdrawCollateral_moves
    (h : Returns (forceWithdrawCollateral R v amount) s u s') :
    amount.currencyId = v.currencies.collateral ∧ Moves R ∅ (-backing v amount.amount) s s' := by
  simp only [forceWithdrawCollateral, returns_bind] at h
  obtain ⟨_, s₁, hunlock, _, s₂, htotal, hpool⟩ := h
  have hfirst := unlockOn_moves hR hs hunlock
  obtain ⟨hc, hsecond⟩ := decreaseTotalBackingCollateral_moves hfirst.keyed htotal
  obtain ⟨hthird, -⟩ := poolWithdraw_moves hsecond.keyed rfl hpool
  refine ⟨hc, ((hfirst.trans hsecond).trans hthird).congr (by simp) ?_⟩
  rw [hc, backing]
  abel

theorem slashBackingCollateral_moves
    (h : Returns (slashBackingCollateral R v amount) s u s') :
    amount.currencyId = v.currencies.collateral ∧ Moves R ∅ (-backing v amount.amount) s s' := by
  simp only [slashBackingCollateral, returns_bind] at h
  obtain ⟨_, s₁, hunlock, _, s₂, htotal, hpool⟩ := h
  have hfirst := unlockOn_moves hR hs hunlock
  obtain ⟨hc, hsecond⟩ := decreaseTotalBackingCollateral_moves hfirst.keyed htotal
  obtain ⟨hthird, -⟩ := poolSlash_moves hsecond.keyed hpool
  refine ⟨hc, ((hfirst.trans hsecond).trans hthird).congr (by simp) ?_⟩
  rw [hc, backing]
  abel

end

/-! ## Sources of funds -/

section

/-- What a source of funds counts for an amount. -/
def held (R : Runtime B) (source : CurrencySource) (amount : Amount) : Posting :=
  match source with
  | .collateral v => backing v amount.amount
  | .availableReplaceCollateral v =>
    on (.vault v .replaceCollateral) amount.amount +
      on (.reserved amount.currencyId v.accountId) amount.amount
  | .activeReplaceCollateral v =>
    on (.vault v .activeReplaceCollateral) amount.amount +
      on (.reserved amount.currencyId v.accountId) amount.amount
  | .userGriefing a => on (.reserved amount.currencyId a) amount.amount
  | .freeBalance _ => 0
  | .liquidatedCollateral v =>
    on (.total v.currencies) amount.amount +
      on (.reserved v.currencies.collateral v.accountId) amount.amount
  | .liquidationVault p =>
    on (.total p) amount.amount + on (.system p .collateral) amount.amount +
      on (.reserved p.collateral R.liquidationVaultAccountId) amount.amount

/-- The vaults whose records a source of funds changes. -/
def touched : CurrencySource → Set VaultId
  | .availableReplaceCollateral v => {v}
  | .activeReplaceCollateral v => {v}
  | _ => ∅

variable (hR : R.tokens.Lawful) (hs : Keyed s)

include hR hs

theorem takeFunds_moves {source : CurrencySource} (h : Returns (takeFunds R source amount) s u s') :
    Moves R (touched source) (-held R source amount) s s' := by
  cases source with
  | collateral v =>
    simp only [takeFunds, returns_guards] at h
    obtain ⟨-, hslash⟩ := h
    exact (slashBackingCollateral_moves hR hs hslash).2
  | availableReplaceCollateral v =>
    simp only [takeFunds, returns_steps] at h
    obtain ⟨d, hget, _, s₁, hdecrease, hunlock⟩ := h
    obtain ⟨rfl, hd, -⟩ := getActiveVaultFromId_stored hs hget
    have hfirst := (decreaseCollateral_updates (R := R) hs hd hdecrease).moves
    have hsecond := unlockOn_moves hR hfirst.keyed hunlock
    refine (hfirst.trans hsecond).congr (by simp [touched]) ?_
    rw [held]
    abel
  | activeReplaceCollateral v =>
    simp only [takeFunds, returns_steps] at h
    obtain ⟨d, hget, _, s₁, hdecrease, hunlock⟩ := h
    obtain ⟨rfl, hd⟩ := getVaultFromId_stored hs hget
    have hfirst := (decreaseCollateral_updates (R := R) hs hd hdecrease).moves
    have hsecond := unlockOn_moves hR hfirst.keyed hunlock
    refine (hfirst.trans hsecond).congr (by simp [touched]) ?_
    rw [held]
    abel
  | userGriefing a =>
    exact unlockOn_moves hR hs h
  | freeBalance a =>
    obtain ⟨-, rfl⟩ := returns_pure.mp h
    exact (Moves.refl hs).congr subset_rfl (by simp [held])
  | liquidatedCollateral v =>
    simp only [takeFunds, returns_bind] at h
    obtain ⟨_, s₁, htotal, hunlock⟩ := h
    obtain ⟨hc, hfirst⟩ := decreaseTotalBackingCollateral_moves (R := R) hs htotal
    have hsecond := unlockOn_moves hR hfirst.keyed hunlock
    refine (hfirst.trans hsecond).congr (by simp [touched]) ?_
    rw [held, hc]
    abel
  | liquidationVault p =>
    simp only [takeFunds, returns_steps] at h
    obtain ⟨_, s₁, hdecrease, _, s₂, htotal, hunlock⟩ := h
    obtain ⟨-, hfirst⟩ := liquidation_decrease_updates (R := R) hs hdecrease
    obtain ⟨hc, hsecond⟩ := decreaseTotalBackingCollateral_moves (R := R) hfirst.moves.keyed htotal
    have hthird := unlockOn_moves hR hsecond.keyed hunlock
    refine ((hfirst.moves.trans hsecond).trans hthird).congr (by simp [touched]) ?_
    rw [held, hc]
    abel

theorem putFunds_moves {destination : CurrencySource}
    (h : Returns (putFunds R destination amount) s u s') :
    Moves R (touched destination) (held R destination amount) s s' := by
  cases destination with
  | collateral v =>
    simp only [putFunds, returns_guards] at h
    obtain ⟨-, hdeposit⟩ := h
    exact (tryDepositCollateral_moves hR hs hdeposit).2
  | availableReplaceCollateral v =>
    simp only [putFunds, returns_steps] at h
    obtain ⟨d, hget, _, s₁, hincrease, hlock⟩ := h
    obtain ⟨rfl, hd, -⟩ := getActiveVaultFromId_stored hs hget
    have hfirst := (increaseCollateral_updates (R := R) hs hd hincrease).moves
    have hsecond := lockOn_moves hR hfirst.keyed hlock
    exact (hfirst.trans hsecond).congr (by simp [touched]) rfl
  | activeReplaceCollateral v =>
    simp only [putFunds, returns_steps] at h
    obtain ⟨d, hget, _, s₁, hincrease, hlock⟩ := h
    obtain ⟨rfl, hd⟩ := getVaultFromId_stored hs hget
    have hfirst := (increaseCollateral_updates (R := R) hs hd hincrease).moves
    have hsecond := lockOn_moves hR hfirst.keyed hlock
    exact (hfirst.trans hsecond).congr (by simp [touched]) rfl
  | userGriefing a =>
    exact lockOn_moves hR hs h
  | freeBalance a =>
    obtain ⟨-, rfl⟩ := returns_pure.mp h
    exact Moves.refl hs
  | liquidatedCollateral v =>
    simp only [putFunds, returns_bind] at h
    obtain ⟨_, s₁, htotal, hlock⟩ := h
    obtain ⟨hc, hfirst⟩ := tryIncreaseTotalBackingCollateral_moves (R := R) hs htotal
    have hsecond := lockOn_moves hR hfirst.keyed hlock
    refine (hfirst.trans hsecond).congr (by simp [touched]) ?_
    rw [held, hc]
  | liquidationVault p =>
    simp only [putFunds, returns_steps] at h
    obtain ⟨_, s₁, htotal, _, s₂, hincrease, hlock⟩ := h
    obtain ⟨hc, hfirst⟩ := tryIncreaseTotalBackingCollateral_moves (R := R) hs htotal
    obtain ⟨-, hsecond⟩ := liquidation_increase_updates (R := R) hfirst.keyed hincrease
    have hthird := lockOn_moves hR hsecond.moves.keyed hlock
    refine ((hfirst.trans hsecond.moves).trans hthird).congr (by simp [touched]) ?_
    rw [held, hc]

/-- A transfer takes away what the source counted and posts what the destination counts. -/
theorem transferFunds_moves {source destination : CurrencySource}
    (h : Returns (transferFunds R source destination amount) s u s') :
    Moves R (touched source ∪ touched destination)
      (held R destination amount - held R source amount) s s' := by
  simp only [transferFunds, returns_bind] at h
  obtain ⟨_, s₁, htake, _, s₂, htransfer, hput⟩ := h
  have hfirst := takeFunds_moves hR hs htake
  have hsecond := (transfer_frame hR _ _ _ s₁ _ s₂ htransfer).moves hfirst.keyed
  have hthird := putFunds_moves hR hsecond.keyed hput
  refine ((hfirst.trans hsecond).trans hthird).congr (by simp) ?_
  abel

end

end Spacewalk.Ledger
