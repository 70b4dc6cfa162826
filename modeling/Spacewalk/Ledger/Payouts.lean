import Spacewalk.Ledger.Replacement

/-!
# Payouts of collateral

Two calls of the redeem pallet pay collateral to the redeemer of wrapped tokens.

`liquidation_redeem` pays from the liquidation vault, in proportion to the burned tokens among the
tokens that the liquidation vault backs.  If it backs no tokens, redeeming none pays out all of its
collateral (`liquidationRedeem_paid_iff`).

`cancel_redeem` with reimbursement pays from the vault, which gets the tokens if it can back them.
If the vault is liquidated it always gets them, because it counts no issued tokens
(`cancelRedeem_backed_iff`).
-/

namespace Spacewalk.Ledger

open Foundation VaultRegistry Redeem

variable {B : Type} {R : Runtime B} {W : Set CurrencyId} {s s' : Chain B} {u : Unit} {v : VaultId}
  {p : VaultCurrencyPair} {tokens : Amount}

/-! ## Free balances -/

def SameTokens (s s' : Chain B) : Prop := s'.tokens = s.tokens

instance : Std.Refl (SameTokens (B := B)) := ⟨fun _ => rfl⟩

instance : IsTrans (Chain B) SameTokens := ⟨fun _ _ _ h h' => Eq.trans h' h⟩

section

theorem slashCollateral_sameTokens (v : VaultId) (amount : Amount) :
    Respects SameTokens (PoolManager.slashCollateral R v amount) := by
  refine .bind (withdrawAllRewardsFromVault_respects (fun _ => ?_) fun _ _ => ?_) fun _ => ?_
  · exact .zoom (fun _ _ => rfl) _
  · exact .zoom (fun _ _ => rfl) _
  · exact .bind (.zoom (fun _ _ => rfl) _) fun _ => updateRewardStake_respects (fun _ _ => rfl) v

theorem decreaseTotalBackingCollateral_sameTokens (p : VaultCurrencyPair) (amount : Amount) :
    Respects SameTokens (decreaseTotalBackingCollateral p amount : ChainM B Unit) :=
  decreaseTotalBackingCollateral_respects (fun _ _ => rfl) p amount

theorem systemUpdate_sameTokens (l : SystemVault)
    (f : SystemVault → Except DispatchError SystemVault) :
    Respects SameTokens (l.update f : ChainM B SystemVault) :=
  systemUpdate_respects (fun _ _ => rfl) l f

end

section

variable {amount : Amount} {a b : AccountId}

theorem lockOn_free (hR : R.tokens.Lawful) (h : Returns (amount.lockOn R a) s u s')
    (c : CurrencyId) (b : AccountId) :
    R.tokens.freeBalance s'.tokens c b + (if c = amount.currencyId ∧ b = a then amount.amount else 0)
      = R.tokens.freeBalance s.tokens c b := by
  obtain ⟨t, rfl, hle, hheld⟩ := lockOn_holdings hR h
  have hfree := congrFun (congrFun (congrArg Holdings.free hheld) c) b
  simp only [MultiCurrency.holdings, Holdings.reserve, setBalance_apply] at hfree
  simp only [withTokens, hfree]
  split_ifs with heq
  · obtain ⟨rfl, rfl⟩ := heq
    omega
  · rfl

theorem burnFrom_free (hR : R.tokens.Lawful) (h : Returns (amount.burnFrom R a) s u s') :
    R.tokens.freeBalance s'.tokens = R.tokens.freeBalance s.tokens := by
  obtain ⟨t, rfl, -, hheld⟩ := burnFrom_holdings hR h
  exact congrArg Holdings.free hheld

/-- Reserved balance is released. -/
def Unlocks (R : Runtime B) (amount : Amount) (a : AccountId) (s s' : Chain B) : Prop :=
  R.tokens.holdings s'.tokens =
    (R.tokens.holdings s.tokens).unreserve amount.currencyId a amount.amount

theorem unlockOn_unlocks (hR : R.tokens.Lawful) (h : Returns (amount.unlockOn R a) s u s') :
    Unlocks R amount a s s' := by
  obtain ⟨t, rfl, -, hheld⟩ := unlockOn_holdings hR h
  exact hheld

theorem Unlocks.congr {s₁ s₂ : Chain B} (h : Unlocks R amount a s₁ s₂) (h₁ : SameTokens s s₁)
    (h₂ : SameTokens s₂ s') : Unlocks R amount a s s' := by
  unfold Unlocks
  rw [h₂, ← h₁]
  exact h

/-- Released balance is moved on. -/
def Pays (R : Runtime B) (amount : Amount) (a b : AccountId) (s s' : Chain B) : Prop :=
  R.tokens.holdings s'.tokens =
    ((R.tokens.holdings s.tokens).unreserve amount.currencyId a amount.amount).transfer
      amount.currencyId a b amount.amount

theorem Unlocks.pays (hR : R.tokens.Lawful) {s₁ : Chain B} (hunlocks : Unlocks R amount a s s₁)
    (h : Returns (amount.transfer R a b) s₁ u s') : Pays R amount a b s s' := by
  obtain ⟨t, rfl, hheld⟩ := transfer_holdings hR h
  rwa [hunlocks] at hheld

theorem Pays.free (h : Pays R amount a b s s') (c : CurrencyId) (b' : AccountId) :
    R.tokens.freeBalance s'.tokens c b' = R.tokens.freeBalance s.tokens c b' +
      if c = amount.currencyId ∧ b' = b then amount.amount else 0 := by
  have hfree := congrFun (congrFun (congrArg Holdings.free h) c) b'
  rw [Holdings.free_unreserve_transfer] at hfree
  exact hfree

theorem Pays.issuance (h : Pays R amount a b s s') :
    R.tokens.totalIssuance s'.tokens = R.tokens.totalIssuance s.tokens :=
  congrArg Holdings.issuance h

theorem Pays.congr {s₁ : Chain B} (h : Pays R amount a b s s₁) (h' : SameTokens s₁ s') :
    Pays R amount a b s s' := by
  unfold Pays
  rw [h']
  exact h

/-- Collateral of a vault is paid out. -/
theorem transferCollateral_pays (hR : R.tokens.Lawful)
    (h : Returns (transferFunds R (.collateral v) (.freeBalance b) amount) s u s') :
    Pays R amount v.accountId b s s' := by
  simp only [transferFunds, takeFunds, slashBackingCollateral, putFunds, returns_rules,
    ensure_eq_ok] at h
  obtain ⟨_, s₃, ⟨_, _, ⟨-, rfl⟩, _, s₁, hunlock, _, s₂, hdecrease, hslash⟩, _, s₄, htransfer, -,
    rfl⟩ := h
  have hunlocks := (unlockOn_unlocks hR hunlock).congr (refl_of SameTokens s)
    (trans_of SameTokens (decreaseTotalBackingCollateral_sameTokens _ _ _ _ _ hdecrease)
      (slashCollateral_sameTokens _ _ _ _ _ hslash))
  exact hunlocks.pays hR htransfer

/-- Collateral of the liquidation vault is paid out. -/
theorem transferLiquidationVault_pays (hR : R.tokens.Lawful)
    (h : Returns (transferFunds R (.liquidationVault p) (.freeBalance b) amount) s u s') :
    Pays R amount R.liquidationVaultAccountId b s s' := by
  simp only [transferFunds, takeFunds, SystemVault.decreaseCollateral, SystemVault.decrease,
    putFunds, returns_bind (ε := DispatchError) (σ := Chain B), returns_steps] at h
  obtain ⟨_, s₃, ⟨_, s₁, hvault, _, s₂, hdecrease, hunlock⟩, _, s₄, htransfer, -, rfl⟩ := h
  have hunlocks := (unlockOn_unlocks hR hunlock).congr
    (trans_of SameTokens (systemUpdate_sameTokens _ _ _ _ _ hvault)
      (decreaseTotalBackingCollateral_sameTokens _ _ _ _ _ hdecrease)) (refl_of SameTokens s₃)
  exact hunlocks.pays hR htransfer

end

/-! ## Redeeming from the liquidation vault -/

theorem burnFrom_issuance (hR : R.tokens.Lawful) {amount : Amount} {a : AccountId}
    (h : Returns (amount.burnFrom R a) s u s') :
    R.tokens.totalIssuance s'.tokens amount.currencyId =
      R.tokens.totalIssuance s.tokens amount.currencyId - amount.amount := by
  obtain ⟨t, rfl, -, hheld⟩ := burnFrom_holdings hR h
  have hissuance := congrFun (congrArg Holdings.issuance hheld) amount.currencyId
  simp only [Holdings.slashReserved, Function.update_self] at hissuance
  exact hissuance

/-- The tokens that the liquidation vault of a pair backs. -/
def backedTokens (s : Chain B) (p : VaultCurrencyPair) : ℕ :=
  (getLiquidationVault p s).issuedTokens + (getLiquidationVault p s).toBeIssuedTokens -
    (getLiquidationVault p s).toBeRedeemedTokens

theorem toBeBackedTokens_eq_ok {l : SystemVault} {a : Amount} : l.toBeBackedTokens = .ok a ↔
    l.issuedTokens + l.toBeIssuedTokens < balanceBound ∧
      l.toBeRedeemedTokens ≤ l.issuedTokens + l.toBeIssuedTokens ∧
      a = ⟨l.issuedTokens + l.toBeIssuedTokens - l.toBeRedeemedTokens,
        l.currencyPair.wrapped⟩ := by
  simp only [SystemVault.toBeBackedTokens, except_bind_eq_ok, Amount.checkedAdd_eq_ok,
    Amount.checkedSub_eq_ok]
  constructor
  · rintro ⟨_, ⟨-, hbound, rfl⟩, -, hle, rfl⟩
    exact ⟨hbound, hle, rfl⟩
  · rintro ⟨hbound, hle, rfl⟩
    exact ⟨_, ⟨rfl, hbound, rfl⟩, rfl, hle, rfl⟩

/-- What a successful `liquidation_redeem` pays and burns. -/
theorem liquidationRedeem_outcome (hR : R.tokens.Lawful) {a : AccountId} {n : ℕ}
    (h : Returns (liquidationRedeem R (.signed a) p n) s u s') :
    R.tokens.totalIssuance s'.tokens p.wrapped = R.tokens.totalIssuance s.tokens p.wrapped - n ∧
    (getLiquidationVault p s).toBeRedeemedTokens ≤
      (getLiquidationVault p s).issuedTokens + (getLiquidationVault p s).toBeIssuedTokens ∧
    ∃ paid, R.tokens.freeBalance s'.tokens p.collateral a +
        (if p.collateral = p.wrapped then n else 0) =
        R.tokens.freeBalance s.tokens p.collateral a + paid ∧
      ((n = 0 ∧ backedTokens s p = 0 ∧ paid = (getLiquidationVault p s).collateral) ∨
        (backedTokens s p ≠ 0 ∧
          paid = (getLiquidationVault p s).collateral * n / backedTokens s p)) := by
  simp only [liquidationRedeem, redeemTokensLiquidation, CurrencySource.currentBalance,
    ensureSigned, SystemVault.decreaseIssued, SystemVault.decrease,
    returns_bind (ε := DispatchError) (σ := Chain B), returns_rules, except_rules, and_assoc,
    exists_and_left, exists_eq_left', exists_const] at h
  obtain ⟨_, hsigned, _, -, -, _, s₁, hlock, _, s₂, hburn, _, -, _, -, -, backed, hbacked, x, hx, _,
    s₃, htransfer, _, _, hvault, -, rfl⟩ := h
  obtain rfl := Except.ok.inj hsigned
  have hlocked := lockOn_free hR hlock p.collateral a
  have hburned := burnFrom_free hR hburn
  have hpays := (transferLiquidationVault_pays hR htransfer).congr
    (systemUpdate_sameTokens _ _ _ _ _ hvault)
  -- the liquidation vault is read after the tokens were burned, which do not change it
  have hsame : getLiquidationVault p s₂ = getLiquidationVault p s := by
    obtain ⟨_, rfl, -⟩ := lockOn_holdings hR hlock
    obtain ⟨_, rfl, -⟩ := burnFrom_holdings hR hburn
    rfl
  have hissuance : R.tokens.totalIssuance s₁.tokens = R.tokens.totalIssuance s.tokens := by
    obtain ⟨t, rfl, -, hheld⟩ := lockOn_holdings hR hlock
    exact congrArg Holdings.issuance hheld
  rw [hsame] at hbacked hx
  obtain ⟨-, hle, rfl⟩ := toBeBackedTokens_eq_ok.mp hbacked
  obtain ⟨hcurrency, hcases⟩ := calculateCollateral_eq_ok hx
  refine ⟨?_, hle, x.amount, ?_, ?_⟩
  · rw [hpays.issuance, burnFrom_issuance hR hburn, hissuance]
  · have hfree := hpays.free p.collateral a
    rw [if_pos ⟨hcurrency.symm, rfl⟩, hburned] at hfree
    simp only [and_true] at hlocked
    omega
  · exact hcases

/-- The redeemer is paid for burned tokens only, and at most their part of the collateral. -/
def PaidForBurned (R : Runtime B) (a : AccountId) (p : VaultCurrencyPair) (n : ℕ)
    (s s' : Chain B) : Prop :=
  ∀ growth, 0 < growth →
    R.tokens.freeBalance s'.tokens p.collateral a =
      R.tokens.freeBalance s.tokens p.collateral a + growth →
    R.tokens.totalIssuance s'.tokens p.wrapped < R.tokens.totalIssuance s.tokens p.wrapped ∧
      growth ≤ (getLiquidationVault p s).collateral * n / backedTokens s p

/-- A successful `liquidation_redeem` pays for burned tokens only, exactly unless it redeems no
tokens while the liquidation vault has collateral and backs no tokens. -/
theorem liquidationRedeem_paid_iff (R : Runtime B) (hR : R.tokens.Lawful) (s s' : Chain B)
    (a : AccountId) (p : VaultCurrencyPair) (n : ℕ)
    (h : Returns (liquidationRedeem R (.signed a) p n) s () s') :
    PaidForBurned R a p n s s' ↔
      ¬ (n = 0 ∧ (getLiquidationVault p s).issuedTokens +
          (getLiquidationVault p s).toBeIssuedTokens =
            (getLiquidationVault p s).toBeRedeemedTokens ∧
        0 < (getLiquidationVault p s).collateral) := by
  obtain ⟨hissuance, hle, paid, hpaid, hcases⟩ := liquidationRedeem_outcome hR h
  constructor
  · rintro hburned ⟨rfl, hbacked, hcollateral⟩
    have hzero : backedTokens s p = 0 := by
      rw [backedTokens]
      omega
    rcases hcases with ⟨-, -, rfl⟩ | ⟨hne, -⟩
    · rw [ite_self, add_zero] at hpaid
      obtain ⟨hlt, -⟩ := hburned _ hcollateral hpaid
      rw [hissuance] at hlt
      simp at hlt
    · exact hne hzero
  · intro hcondition growth hgrowth hfree
    have hgrowth_le : growth ≤ paid := by omega
    rcases hcases with ⟨hn, hzero, rfl⟩ | ⟨hne, rfl⟩
    · -- nothing is backed: then there is nothing to pay
      refine absurd ⟨hn, ?_, hgrowth.trans_le hgrowth_le⟩ hcondition
      rw [backedTokens] at hzero
      omega
    · have hn : n ≠ 0 := by
        rintro rfl
        rw [mul_zero, Nat.zero_div] at hgrowth_le
        omega
      refine ⟨?_, hgrowth_le⟩
      rw [hissuance]
      omega

/-- After the liquidation of the vault, the holder of its tokens redeems 400000 of them and gets as
much of the collateral. -/
theorem liquidationRedeem_paid_iff_liquidated :
    ∃ s s', Run (Step sampleRuntime ∅) sampleGenesis (issuing ++ liquidating) s ∧
      Returns (liquidationRedeem sampleRuntime (.signed ⟨4⟩) samplePair 400000) s () s' ∧
      sampleRuntime.tokens.freeBalance s'.tokens (.xcm 0) ⟨4⟩ =
        sampleRuntime.tokens.freeBalance s.tokens (.xcm 0) ⟨4⟩ + 800000 ∧
      PaidForBurned sampleRuntime ⟨4⟩ samplePair 400000 s s' := by
  obtain ⟨s, hrun, s', hredeem, hpaid⟩ : ∃ s,
      Run (Step sampleRuntime ∅) sampleGenesis (issuing ++ liquidating) s ∧ ∃ s',
        Returns (liquidationRedeem sampleRuntime (.signed ⟨4⟩) samplePair 400000) s () s' ∧
        sampleRuntime.tokens.freeBalance s'.tokens (.xcm 0) ⟨4⟩ =
          sampleRuntime.tokens.freeBalance s.tokens (.xcm 0) ⟨4⟩ + 800000 :=
    run_of_replay environmentStep_samplePriceDrop (by decide +kernel)
  refine ⟨s, s', hrun, hredeem, hpaid, ?_⟩
  exact (liquidationRedeem_paid_iff sampleRuntime sampleRuntime_lawful s s' ⟨4⟩ samplePair 400000
    hredeem).mpr (by simp)

/-- The vault is liquidated while an issue request is pending.  All of its tokens are redeemed, and
then the request is cancelled. -/
def emptying : List Record :=
  requesting ++ liquidating ++
    [signed 4 (.redeem (.liquidationRedeem samplePair 1000000)), signed 4 (.issue (.cancelIssue 2))]

/-- After that anybody gets the collateral that is left, without burning tokens. -/
theorem liquidationRedeem_pays_for_nothing :
    ∃ s s', Run (Step sampleRuntime ∅) sampleGenesis emptying s ∧
      Returns (liquidationRedeem sampleRuntime (.signed ⟨3⟩) samplePair 0) s () s' ∧
      sampleRuntime.tokens.freeBalance s'.tokens (.xcm 0) ⟨3⟩ =
        sampleRuntime.tokens.freeBalance s.tokens (.xcm 0) ⟨3⟩ + 181819 ∧
      sampleRuntime.tokens.totalIssuance s'.tokens sampleWrapped =
        sampleRuntime.tokens.totalIssuance s.tokens sampleWrapped := by
  simp only [exists_and_left]
  exact run_of_replay environmentStep_samplePriceDrop (by decide +kernel)

/-! ## Reimbursement -/

/-- The counter of the issued tokens of a vault: its own, or that of the liquidation vault. -/
def issuedCounter (s : Chain B) (v : VaultId) : ℕ :=
  if statusOf s v = some .liquidated then (getLiquidationVault v.currencies s).issuedTokens
  else (s.vaultRegistry.vaults v).elim 0 Vault.issuedTokens

theorem recorded_issuedAt (s : Chain B) (v : VaultId) :
    recorded R s (issuedAt (statusOf s) v) = issuedCounter s v := by
  rw [issuedAt, issuedCounter]
  split_ifs
  · rfl
  · simp only [recorded]
    cases s.vaultRegistry.vaults v <;> rfl

/-- Locked funds are neither issued tokens nor part of the issuance. -/
theorem funds_issued {δ : Posting} (hδ : δ ∈ funds R) (c : CurrencyId) (v : VaultId)
    (σ : VaultId → Option VaultStatus) : δ (.issuance c) = 0 ∧ δ (issuedAt σ v) = 0 := by
  have hissuance : ∀ ε, Holding R ε → balanceOn (.issuance c) ε = 0 := by
    intro ε hε
    cases hε <;> simp [backing]
  have hissued : ∀ ε, Holding R ε → balanceOn (issuedAt σ v) ε = 0 := by
    intro ε hε
    rw [issuedAt]
    split_ifs <;> cases hε <;> simp [backing]
  exact ⟨funds_le_ker hissuance δ hδ, funds_le_ker hissued δ hδ⟩

/-- Only registered vaults are compared with their threshold. -/
theorem stored_of_below {below : Bool} (h : isVaultBelowSecureThreshold R v s = .ok below) :
    ∃ d, s.vaultRegistry.vaults v = some d := by
  simp only [isVaultBelowSecureThreshold, getVaultFromId, except_rules] at h
  obtain ⟨d, hd, -⟩ := h
  exact ⟨d, hd⟩

/-- A vault without issued tokens is not below its threshold. -/
theorem not_below_of_unissued {d : Vault} {below : Bool} (hd : s.vaultRegistry.vaults v = some d)
    (hzero : d.issuedTokens = 0) (h : isVaultBelowSecureThreshold R v s = .ok below) :
    below = false := by
  have hget : getVaultFromId v s = .ok d := okOr_eq_ok.mpr hd
  simp only [isVaultBelowSecureThreshold, isVaultBelowThreshold, isCollateralBelowThreshold, hget,
    except_bind_eq_ok, Amount.lt, Amount.compare_eq_ok] at h
  obtain ⟨_, hd', _, -, _, hd'', _, -, _, -, -, rfl⟩ := h
  obtain rfl := Except.ok.inj hd''
  simp [Vault.issued, hzero]

/-- What the secure threshold of a vault is compared with. -/
structure SameBacking (v : VaultId) (s s' : Chain B) : Prop where
  vault : ∀ d, s.vaultRegistry.vaults v = some d → ∃ d', s'.vaultRegistry.vaults v = some d' ∧
    d'.id = d.id ∧ d'.status = d.status ∧ d'.issuedTokens = d.issuedTokens ∧
    d'.secureCollateralThreshold = d.secureCollateralThreshold
  thresholds : s'.vaultRegistry.secureCollateralThreshold = s.vaultRegistry.secureCollateralThreshold
  staking : s'.staking = s.staking
  oracle : s'.oracle = s.oracle
  security : s'.security = s.security

theorem SameBacking.below {d : Vault} (h : SameBacking v s s')
    (hd : s.vaultRegistry.vaults v = some d) :
    isVaultBelowSecureThreshold R v s' = isVaultBelowSecureThreshold R v s := by
  obtain ⟨d', hd', hid, -, hissued, hthreshold⟩ := h.vault d hd
  have hget : getVaultFromId v s = .ok d := okOr_eq_ok.mpr hd
  have hget' : getVaultFromId v s' = .ok d' := okOr_eq_ok.mpr hd'
  have hbind : ∀ (x : Vault) (f : Vault → Except DispatchError Bool), (Except.ok x >>= f) = f x :=
    fun _ _ => rfl
  simp only [isVaultBelowSecureThreshold, isVaultBelowThreshold, isCollateralBelowThreshold,
    getBackingCollateral, calculateMaxWrappedFromCollateralForThreshold, Amount.convertTo,
    Oracle.convert, Oracle.getPrice, Security.ensureParachainStatusRunning, Vault.getSecureThreshold,
    Vault.issued, hget, hget', hbind, hid, hissued, hthreshold, h.thresholds, h.staking, h.oracle,
    h.security]
  rfl

/-- No account but one has less free balance. -/
def FreeKept (R : Runtime B) (a : AccountId) (s s' : Chain B) : Prop :=
  ∀ c b, b ≠ a → R.tokens.freeBalance s.tokens c b ≤ R.tokens.freeBalance s'.tokens c b

instance (a : AccountId) : Std.Refl (FreeKept R a) := ⟨fun _ _ _ _ => le_rfl⟩

instance (a : AccountId) : IsTrans (Chain B) (FreeKept R a) :=
  ⟨fun _ _ _ h h' c b hb => (h c b hb).trans (h' c b hb)⟩

section

variable {a : AccountId}

theorem SameTokens.freeKept (h : SameTokens s s') : FreeKept R a s s' := by
  intro c b _
  rw [h]

theorem Pays.freeKept {amount : Amount} {x y : AccountId} (h : Pays R amount x y s s') :
    FreeKept R a s s' := by
  intro c b _
  rw [h.free]
  exact Nat.le_add_right _ _

/-- Rewards that cannot be distributed leave the fee pool. -/
theorem distributeRewards_freeKept (hR : R.tokens.Lawful) (amount : Amount) :
    Respects (FreeKept R R.feePoolAccountId) (Fee.distributeRewards R amount) := by
  refine distributeRewards_respects (fun c p x => ?_) (fun rest a => ?_) amount
  · intro s y s' h
    obtain ⟨_, rewards, -, rfl⟩ := distributeToPool_returns h
    exact SameTokens.freeKept rfl
  · intro s u s' h c b hb
    obtain ⟨t, rfl, hheld⟩ := transfer_holdings hR h
    have hfree := congrFun (congrFun (congrArg Holdings.free hheld) c) b
    exact (Holdings.free_le_free_transfer _ _ c _ _ _ hb).trans_eq hfree.symm

theorem collectFee_freeKept (hR : R.tokens.Lawful) {r : RedeemRequest}
    (h : Returns (collectFee R r) s u s') : FreeKept R R.feePoolAccountId s s' := by
  simp only [collectFee, returns_bind] at h
  obtain ⟨_, s₁, hunlock, _, s₂, htransfer, hdistribute⟩ := h
  have hpays := (unlockOn_unlocks hR hunlock).pays hR htransfer
  exact trans_of (FreeKept R _) hpays.freeKept (distributeRewards_freeKept hR _ _ _ _ hdistribute)

theorem banVault_sameTokens (v : VaultId) :
    Respects SameTokens (banVault v : ChainM B Unit) := by
  refine .gets fun s => .reads fun d => .gets fun s => ?_
  exact .bind (vaultUpdate_respects (fun _ _ => rfl) d _) fun _ => .pure _

theorem slashActive_freeKept (hR : R.tokens.Lawful) {b : AccountId} {id : H256} {reimburse : Bool}
    (h : Returns (slashActive R b id reimburse v tokens) s u s') : FreeKept R a s s' := by
  have hsaturated : ∀ {amount taken s₁}, Returns (transferFundsSaturated R (.collateral v)
      (.freeBalance b) amount) s taken s₁ → FreeKept R a s s₁ := by
    intro amount taken s₁ h
    simp only [transferFundsSaturated, returns_steps] at h
    obtain ⟨_, -, _, -, _, _, htransfer, -, rfl⟩ := h
    exact (transferCollateral_pays hR htransfer).freeKept
  have hrest : ∀ {value o s₁ s₂}, Returns (setCancelledRedeemAmount id value) s₁ () s₂ →
      Returns (attempt (banVault v)) s₂ o s' → SameTokens s₁ s' := by
    intro value o s₁ s₂ hcancelled hban
    obtain rfl := returns_modify.mp hcancelled
    rcases returns_attempt hban with ⟨_, -, hban⟩ | ⟨-, rfl, -⟩
    · have hsame := banVault_sameTokens _ _ _ _ hban
      exact hsame
    · rfl
  simp only [slashActive, returns_steps, returns_ite] at h
  rcases h with ⟨_, -, ⟨-, _, -, _, s₁, hslash, _, -, _, -, _, s₂, hcancelled, _, _, hban, -, rfl⟩ |
    ⟨-, _, s₁, hslash, _, -, _, -, _, s₂, hcancelled, _, _, hban, -, rfl⟩⟩
  · exact trans_of (FreeKept R a) (hsaturated hslash) (hrest hcancelled hban).freeKept
  · exact trans_of (FreeKept R a) (hsaturated hslash) (hrest hcancelled hban).freeKept

end

/-- The tokens of a request are burned, and its vault counts fewer issued tokens. -/
def TokensBurned (R : Runtime B) (r : RedeemRequest) (s s' : Chain B) : Prop :=
  R.tokens.totalIssuance s'.tokens r.vault.currencies.wrapped =
      R.tokens.totalIssuance s.tokens r.vault.currencies.wrapped - (r.amount + r.transferFee : ℕ) ∧
    issuedCounter s' r.vault + (r.amount + r.transferFee) = issuedCounter s r.vault

/-- The tokens of a request go to the account of its vault.  (The fee pool does not own a vault.) -/
def TokensHandedOver (R : Runtime B) (r : RedeemRequest) (s s' : Chain B) : Prop :=
  R.tokens.totalIssuance s'.tokens r.vault.currencies.wrapped =
      R.tokens.totalIssuance s.tokens r.vault.currencies.wrapped ∧
    (r.vault.accountId ≠ R.feePoolAccountId →
      R.tokens.freeBalance s.tokens r.vault.currencies.wrapped r.vault.accountId +
          (r.amount + r.transferFee) ≤
        R.tokens.freeBalance s'.tokens r.vault.currencies.wrapped r.vault.accountId)

/-- The vault is active, and its collateral is not below the secure threshold for its issued
tokens. -/
def ActiveAndBacked (R : Runtime B) (v : VaultId) (s : Chain B) : Prop :=
  ∃ d, s.vaultRegistry.vaults v = some d ∧ d.status ≠ .liquidated ∧
    isVaultBelowSecureThreshold R v s = .ok false

/-- The tokens of a request are released and go to its vault. -/
def HandsOver (R : Runtime B) (id : H256) (r : RedeemRequest) (s s' : Chain B) : Prop :=
  ∃ s₁ s₂ s₃, Returns ((⟨r.amount + r.transferFee, r.asset⟩ : Amount).unlockOn R r.redeemer) s () s₁ ∧
    Returns ((⟨r.amount + r.transferFee, r.asset⟩ : Amount).transfer R r.redeemer
      r.vault.accountId) s₁ () s₂ ∧
    Returns (decreaseToBeRedeemedTokens r.vault ⟨r.amount + r.transferFee, r.asset⟩) s₂ () s₃ ∧
    Returns (setRedeemStatus id (.reimbursed true)) s₃ () s'

/-- The tokens of a request are burned. -/
def Burns (R : Runtime B) (id : H256) (r : RedeemRequest) (s s' : Chain B) : Prop :=
  ∃ s₁ s₂, Returns ((⟨r.amount + r.transferFee, r.asset⟩ : Amount).burnFrom R r.redeemer) s () s₁ ∧
    Returns (decreaseTokens r.vault ⟨r.amount + r.transferFee, r.asset⟩) s₁ () s₂ ∧
    Returns (setRedeemStatus id (.reimbursed false)) s₂ () s'

section

variable {id : H256} {r : RedeemRequest} {d : Vault} {s₁ : Chain B} {T : Set VaultId} {δ : Posting}
  {c : CurrencyId} {a : AccountId} {n : ℤ}

/-- The tokens to be redeemed of an active vault are in its own record only. -/
theorem decreaseToBeRedeemedTokens_active (hd : s.vaultRegistry.vaults v = some d) (hid : d.id = v)
    (hactive : d.status ≠ .liquidated) (h : Returns (decreaseToBeRedeemedTokens v tokens) s u s') :
    ∃ n, s' = s.mapVaultRegistry fun registry => { registry with
      vaults := Function.update registry.vaults v (some (d.setItem .toBeRedeemed n)) } := by
  have hliquidated : ¬ d.isLiquidated = true := by
    rw [Vault.isLiquidated_eq_true]
    exact hactive
  have hget : getVaultFromId v s = .ok d := okOr_eq_ok.mpr hd
  simp only [decreaseToBeRedeemedTokens, Vault.decreaseToBeRedeemed, returns_steps, hget,
    Except.ok.injEq] at h
  obtain ⟨_, _, h, -, rfl⟩ := h
  rw [if_neg hliquidated] at h
  simp only [Vault.decrease, Vault.update, insertVault, returns_rules, except_rules] at h
  obtain ⟨_, _, ⟨⟨x, -, rfl⟩, rfl⟩, _, _, rfl, -, rfl⟩ := h
  subst hid
  exact ⟨x.amount, rfl⟩

/-- Handing the tokens over does not change what backs the vault. -/
theorem HandsOver.sameBacking (h : HandsOver R id r s s')
    (hd : s.vaultRegistry.vaults r.vault = some d) (hid : d.id = r.vault)
    (hactive : d.status ≠ .liquidated) : SameBacking r.vault s s' := by
  obtain ⟨s₁, s₂, s₃, hunlock, htransfer, hdecrease, hset⟩ := h
  obtain ⟨-, rfl⟩ := returns_unlockOn.mp hunlock
  obtain ⟨_, -, rfl⟩ := returns_zoom.mp htransfer
  obtain ⟨n, rfl⟩ := decreaseToBeRedeemedTokens_active (by exact hd) hid hactive hdecrease
  obtain rfl := returns_modify.mp hset
  refine ⟨fun d' hd' => ?_, rfl, rfl, rfl, rfl⟩
  obtain rfl := Option.mem_unique hd hd'
  exact ⟨d.setItem .toBeRedeemed n, Function.update_self _ _ _, rfl, rfl, rfl, rfl⟩

/-- The fee is collected, and the vault decides what happens to the tokens. -/
theorem settleTokens_reimburse
    (h : Returns (settleTokens R id true r ⟨r.amount + r.transferFee, r.asset⟩) s u s') :
    ∃ s₁ below, Returns (collectFee R r) s () s₁ ∧
      isVaultBelowSecureThreshold R r.vault s₁ = .ok below ∧
      (below = true ∧ Burns R id r s₁ s' ∨ below = false ∧ HandsOver R id r s₁ s') := by
  simp only [settleTokens, if_true, returns_steps, returns_ite] at h
  obtain ⟨_, s₁, hcollect, below, hbelow, h⟩ := h
  refine ⟨s₁, below, hcollect, hbelow, ?_⟩
  rcases h with ⟨hb, _, s₂, hburn, _, s₃, hdecrease, hset⟩ |
    ⟨hb, _, s₂, hunlock, _, s₃, htransfer, _, s₄, hdecrease, hset⟩
  · exact .inl ⟨hb, s₂, s₃, hburn, hdecrease, hset⟩
  · exact .inr ⟨by simpa using hb, s₂, s₃, s₄, hunlock, htransfer, hdecrease, hset⟩

/-- The collateral is taken and the fee is collected; then the tokens are burned if the vault is
below its threshold, and handed over otherwise. -/
theorem cancelRedeem_reimburse_cases (hR : R.tokens.Lawful) (hs : Keyed s) {o : Origin}
    (hr : s.redeem.redeemRequests id = some r)
    (h : Returns (cancelRedeem R o id true) s u s') :
    ∃ (δ : Posting) (s₁ : Chain B) (below : Bool), δ ∈ funds R ∧
      Moves R {r.vault} (δ - on (.reserved r.asset r.redeemer) r.fee) s s₁ ∧
      (statusOf s r.vault ≠ some .liquidated → FreeKept R R.feePoolAccountId s s₁) ∧
      isVaultBelowSecureThreshold R r.vault s₁ = .ok below ∧
      (below = true ∧ Burns R id r s₁ s' ∨ below = false ∧ HandsOver R id r s₁ s') := by
  obtain ⟨r', d, value, s₁, -, hstored, -, hget, -, htaken, hsettle⟩ := cancelRedeem_parts h
  obtain rfl := Option.mem_unique hr hstored
  obtain ⟨hid, hd⟩ := getVaultFromId_stored hs hget
  obtain ⟨δ, hδ, h₁⟩ := takenCollateral_moves hR hs hget htaken
  have hkept : statusOf s r.vault ≠ some .liquidated → FreeKept R R.feePoolAccountId s s₁ := by
    rcases htaken with ⟨hliquidated, hconfiscate⟩ | ⟨-, hslash⟩
    · refine fun hne => absurd ?_ hne
      rw [← hid, hd.statusOf_eq, Vault.isLiquidated_eq_true.mp hliquidated]
    · exact fun _ => slashActive_freeKept hR hslash
  obtain ⟨s₂, below, hcollect, hbelow, hbranch⟩ := settleTokens_reimburse hsettle
  have h₂ := collectFee_moves hR h₁.keyed hcollect
  exact ⟨δ, s₂, below, hδ.mem, (h₁.trans h₂).congr (by simp) (sub_eq_add_neg _ _).symm, fun hv =>
    trans_of (FreeKept R _) (hkept hv) (collectFee_freeKept hR hcollect), hbelow, hbranch⟩

/-- What is taken before the tokens are settled leaves the issued tokens as they are. -/
theorem issued_of_moves (hδ : δ ∈ funds R) (h : Moves R T (δ - on (.reserved c a) n) s s')
    (w : CurrencyId) (v : VaultId) (σ : VaultId → Option VaultStatus) :
    recorded R s' (.issuance w) = recorded R s (.issuance w) ∧
      recorded R s' (issuedAt σ v) = recorded R s (issuedAt σ v) := by
  obtain ⟨hissuance, hissued⟩ := funds_issued hδ w v σ
  rw [h.balance]
  refine ⟨by simp [hissuance], ?_⟩
  simp only [Pi.add_apply, Pi.sub_apply, hissued]
  rw [issuedAt]
  split_ifs <;> simp

/-- Tokens that are burned after some collateral was taken. -/
theorem TokensBurned.after (hδ : δ ∈ funds R) (h₁ : Moves R T (δ - on (.reserved c a) n) s s₁)
    (h : TokensBurned R r s₁ s') : TokensBurned R r s s' := by
  obtain ⟨hissuance, hissued⟩ :=
    issued_of_moves hδ h₁ r.vault.currencies.wrapped r.vault (statusOf s)
  have hcounter : issuedCounter s₁ r.vault = issuedCounter s r.vault := by
    rw [recorded_issuedAt, ← h₁.status, recorded_issuedAt] at hissued
    exact_mod_cast hissued
  simp only [recorded] at hissuance
  rwa [TokensBurned, hissuance, hcounter] at h

/-- A vault without issued tokens is not below its threshold, also after some collateral was taken. -/
theorem not_below_after {below : Bool} (hδ : δ ∈ funds R)
    (h₁ : Moves R T (δ - on (.reserved c a) n) s s₁) (hd : s₁.vaultRegistry.vaults v = some d)
    (hempty : recorded R s (.vault v .issued) = 0)
    (hbelow : isVaultBelowSecureThreshold R v s₁ = .ok below) : below = false := by
  have hsame := (issued_of_moves hδ h₁ c v fun _ => none).2
  simp only [issuedAt, reduceCtorEq, if_false] at hsame
  rw [hempty] at hsame
  exact not_below_of_unissued hd (by simpa [recorded, hd, Vault.item] using hsame) hbelow

theorem setRedeemStatus_books {status : RedeemRequestStatus}
    (h : Returns (setRedeemStatus id status) s u s') :
    recorded R s' = recorded R s ∧ statusOf s' = statusOf s ∧ SameTokens s s' := by
  obtain rfl := returns_modify.mp h
  refine ⟨?_, rfl, rfl⟩
  funext account
  cases account <;> rfl

theorem Burns.tokensBurned (h : Burns R id r s s') (hR : R.tokens.Lawful) (hs : Keyed s) :
    TokensBurned R r s s' := by
  obtain ⟨s₁, s₂, hburn, hdecrease, hset⟩ := h
  have h₁ := burnFrom_moves hR hs hburn
  obtain ⟨hwrapped, h₂⟩ := decreaseTokens_moves h₁.keyed hdecrease
  obtain ⟨hrecorded, hstatus, -⟩ := setRedeemStatus_books hset
  have hasset : r.asset = r.vault.currencies.wrapped := hwrapped
  rw [h₁.status] at h₂
  have hmoves := h₁.trans h₂
  refine ⟨?_, ?_⟩
  · have hissuance := congrFun hmoves.balance (.issuance r.vault.currencies.wrapped)
    rw [← hrecorded, hasset, toBeRedeemedOn, issuedAt] at hissuance
    split_ifs at hissuance <;> simpa [recorded, sub_eq_add_neg] using hissuance
  · have hissued := congrFun hmoves.balance (issuedAt (statusOf s) r.vault)
    have hposted : (-on (.reserved r.asset r.redeemer) (r.amount + r.transferFee : ℕ) -
        on (.issuance r.asset) (r.amount + r.transferFee : ℕ) +
        (-toBeRedeemedOn (statusOf s) r.vault (r.amount + r.transferFee : ℕ) -
          on (issuedAt (statusOf s) r.vault) (r.amount + r.transferFee : ℕ)) : Posting)
        (issuedAt (statusOf s) r.vault) = -(r.amount + r.transferFee : ℕ) := by
      rw [toBeRedeemedOn, issuedAt]
      split_ifs <;> simp
    rw [← hrecorded, Pi.add_apply, hposted, recorded_issuedAt, ← h₁.status, ← h₂.status, ← hstatus,
      recorded_issuedAt] at hissued
    omega

/-- Tokens that are handed over are still issued. -/
theorem HandsOver.issued (h : HandsOver R id r s s') (hR : R.tokens.Lawful) (hs : Keyed s)
    (c : CurrencyId) :
    statusOf s' = statusOf s ∧ recorded R s' (.issuance c) = recorded R s (.issuance c) ∧
      recorded R s' (issuedAt (statusOf s) r.vault) =
        recorded R s (issuedAt (statusOf s) r.vault) := by
  obtain ⟨s₁, s₂, s₃, hunlock, htransfer, hdecrease, hset⟩ := h
  have h₁ := unlockOn_moves hR hs hunlock
  have h₂ := (transfer_frame hR _ _ _ _ _ _ htransfer).moves h₁.keyed
  obtain ⟨-, h₃⟩ := decreaseToBeRedeemedTokens_moves h₂.keyed hdecrease
  obtain ⟨hrecorded, hstatus, -⟩ := setRedeemStatus_books hset
  have hmoves := (h₁.trans h₂).trans h₃
  refine ⟨hstatus.trans hmoves.status, ?_⟩
  rw [hrecorded, hmoves.balance, toBeRedeemedOn, issuedAt]
  split_ifs <;> simp

/-- Tokens that are handed over are free for the vault. -/
theorem HandsOver.free (h : HandsOver R id r s s') (hR : R.tokens.Lawful) (hs : Keyed s)
    (hd : s.vaultRegistry.vaults r.vault = some d) (hactive : d.status ≠ .liquidated) :
    R.tokens.freeBalance s'.tokens r.vault.wrappedCurrency r.vault.accountId =
      R.tokens.freeBalance s.tokens r.vault.wrappedCurrency r.vault.accountId +
        (r.amount + r.transferFee) := by
  obtain ⟨s₁, s₂, s₃, hunlock, htransfer, hdecrease, hset⟩ := h
  have h₁ := unlockOn_moves hR hs hunlock
  have h₂ := (transfer_frame hR _ _ _ _ _ _ htransfer).moves h₁.keyed
  obtain ⟨hcurrency, -⟩ := decreaseToBeRedeemedTokens_moves (R := R) h₂.keyed hdecrease
  have hpays := (unlockOn_unlocks hR hunlock).pays hR htransfer
  have hsame : SameTokens s₂ s' := by
    obtain ⟨-, -, hset⟩ := setRedeemStatus_books (R := R) hset
    obtain ⟨_, rfl, -⟩ := unlockOn_holdings hR hunlock
    obtain ⟨_, rfl, -⟩ := transfer_holdings hR htransfer
    obtain ⟨n, rfl⟩ := decreaseToBeRedeemedTokens_active (by exact hd) (hs.vaults _ _ hd) hactive
      hdecrease
    exact hset
  have hfree := (hpays.congr hsame).free r.vault.wrappedCurrency r.vault.accountId
  rwa [if_pos ⟨hcurrency.symm, rfl⟩] at hfree

end

/-- In every state of every run, a successful `cancel_redeem` with reimbursement burns the tokens,
or hands them to a vault that is active and backed after the call, exactly if the vault is not
liquidated or the request is about no tokens. -/
theorem cancelRedeem_backed_iff (R : Runtime B) (hR : R.tokens.Lawful) (W : Set CurrencyId)
    (s₀ s s' : Chain B) (records : List Record) (hgenesis : IsGenesis s₀)
    (hrun : Run (Step R W) s₀ records s) (o : Origin) (id : H256) (r : RedeemRequest)
    (hr : s.redeem.redeemRequests id = some r)
    (h : Returns (cancelRedeem R o id true) s () s') :
    (TokensBurned R r s s' ∨ TokensHandedOver R r s s' ∧ ActiveAndBacked R r.vault s') ↔
      statusOf s r.vault ≠ some .liquidated ∨ r.amount + r.transferFee = 0 := by
  have hle : ∀ s l s', Step R W s l s' → Step R W s l s' := fun _ _ _ h => h
  have hs := run_sound hR hle hrun hgenesis
  obtain ⟨δ, s₁, below, hδ, h₁, hkept, hbelow, hbranch⟩ :=
    cancelRedeem_reimburse_cases hR hs.keyed hr h
  obtain ⟨hissuance, hissued⟩ :=
    issued_of_moves hδ h₁ r.vault.currencies.wrapped r.vault (statusOf s)
  obtain ⟨d, hd⟩ := stored_of_below hbelow
  have hstatus : statusOf s r.vault = some d.status := by
    rw [← h₁.status]
    simp [statusOf, hd]
  by_cases hliquidated : d.status = .liquidated
  · -- a liquidated vault has no issued tokens, so it is not below its threshold
    rw [hliquidated] at hstatus
    have hempty := run_emptied hR hle hrun hgenesis (i := .issued) hstatus (by decide)
    have hfalse := not_below_after hδ h₁ hd hempty hbelow
    rcases hbranch with ⟨htrue, -⟩ | ⟨-, hhands⟩
    · exact absurd (htrue.symm.trans hfalse) (by simp)
    obtain ⟨hstatus', hissuance', hissued'⟩ :=
      hhands.issued hR h₁.keyed r.vault.currencies.wrapped
    rw [h₁.status] at hstatus' hissued'
    have hissuance := hissuance'.trans hissuance
    have hissued := hissued'.trans hissued
    constructor
    · rintro (⟨hburned, -⟩ | ⟨-, d', hd', hactive, -⟩)
      · right
        simp only [recorded] at hissuance
        omega
      · have hstatus := (congrFun hstatus' r.vault).trans hstatus
        simp only [statusOf, hd', Option.map_some, Option.some.injEq] at hstatus
        exact absurd hstatus hactive
    · rintro (hne | ht)
      · exact absurd hstatus hne
      · refine .inl ⟨?_, ?_⟩
        · simp only [recorded] at hissuance
          rw [hissuance, ht]
          simp
        · rw [recorded_issuedAt, ← hstatus', recorded_issuedAt] at hissued
          omega
  · refine ⟨fun _ => .inl ?_, fun _ => ?_⟩
    · rw [hstatus]
      simpa using hliquidated
    have hid := h₁.keyed.vaults _ _ hd
    simp only [recorded] at hissuance
    rcases hbranch with ⟨-, hburns⟩ | ⟨rfl, hhands⟩
    · exact .inl ((hburns.tokensBurned hR h₁.keyed).after hδ h₁)
    · right
      have hbacking := hhands.sameBacking hd hid hliquidated
      obtain ⟨d', hd', -, hstatus', -⟩ := hbacking.vault d hd
      refine ⟨⟨?_, fun hpool => ?_⟩, d', hd', ?_, (hbacking.below hd).trans hbelow⟩
      · exact (hhands.issued hR h₁.keyed r.vault.currencies.wrapped).2.1.trans hissuance
      · have hfree := hhands.free hR h₁.keyed hd hliquidated
        have hle := hkept (by rw [hstatus]; simpa using hliquidated) r.vault.currencies.wrapped
          r.vault.accountId hpool
        exact (Nat.add_le_add_right hle _).trans_eq hfree.symm
      · rw [hstatus']
        exact hliquidated

/-- The redeemer of an active vault is reimbursed, and the vault can back the tokens that it gets. -/
theorem cancelRedeem_backed_iff_expired :
    ∃ s s' r, Run (Step sampleRuntime ∅) sampleGenesis (redeeming ++ [elapsing]) s ∧
      s.redeem.redeemRequests 2 = some r ∧ r.amount + r.transferFee = 400000 ∧
      Returns (cancelRedeem sampleRuntime (.signed ⟨4⟩) 2 true) s () s' ∧
      (TokensBurned sampleRuntime r s s' ∨
        TokensHandedOver sampleRuntime r s s' ∧ ActiveAndBacked sampleRuntime r.vault s') := by
  obtain ⟨s, hrun, r, hr, htokens, hactive, s', hcancel, -⟩ : ∃ s,
      Run (Step sampleRuntime ∅) sampleGenesis (redeeming ++ [elapsing]) s ∧ ∃ r,
        s.redeem.redeemRequests 2 = some r ∧ r.amount + r.transferFee = 400000 ∧
        statusOf s r.vault ≠ some .liquidated ∧
        ∃ s', Returns (cancelRedeem sampleRuntime (.signed ⟨4⟩) 2 true) s () s' ∧ True :=
    run_of_replay environmentStep_sampleDelay (by decide +kernel)
  refine ⟨s, s', r, hrun, hr, htokens, hcancel, ?_⟩
  exact (cancelRedeem_backed_iff sampleRuntime sampleRuntime_lawful ∅ sampleGenesis s s'
    (redeeming ++ [elapsing]) sampleGenesis_isGenesis hrun (.signed ⟨4⟩) 2 r hr hcancel).mpr
    (.inl hactive)

/-- The vault is liquidated while its redeem request is pending.  Then the redeemer gets its
liquidated collateral, and the vault gets the tokens: nothing is burned. -/
theorem liquidated_vault_gets_tokens :
    ∃ s s' d, Run (Step sampleRuntime ∅) sampleGenesis (redeeming ++ liquidating) s ∧
      Returns (cancelRedeem sampleRuntime (.signed ⟨4⟩) 2 true) s () s' ∧
      s'.vaultRegistry.vaults (sampleVault 1) = some d ∧ d.status = .liquidated ∧
      sampleRuntime.tokens.freeBalance s'.tokens sampleWrapped ⟨1⟩ =
        sampleRuntime.tokens.freeBalance s.tokens sampleWrapped ⟨1⟩ + 400000 ∧
      sampleRuntime.tokens.freeBalance s'.tokens (.xcm 0) ⟨4⟩ =
        sampleRuntime.tokens.freeBalance s.tokens (.xcm 0) ⟨4⟩ + 800000 ∧
      sampleRuntime.tokens.totalIssuance s'.tokens sampleWrapped =
        sampleRuntime.tokens.totalIssuance s.tokens sampleWrapped ∧
      issuedCounter s' (sampleVault 1) = issuedCounter s (sampleVault 1) := by
  simp only [exists_and_left]
  exact run_of_replay environmentStep_samplePriceDrop (by decide +kernel)

end Spacewalk.Ledger
