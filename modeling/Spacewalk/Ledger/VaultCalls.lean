import Spacewalk.Ledger.Transitions
import Spacewalk.Nomination

/-!
# The calls of the vault registry and of the nomination pallet

Every successful call of the two pallets is a transition; a withdrawal of nominated collateral
is a transition, or a withdrawal from a closed pool.
-/

namespace Spacewalk.Ledger

open Foundation VaultRegistry Staking

variable {B : Type} {R : Runtime B} {s s' : Chain B} {o : Origin} {p : VaultCurrencyPair}
  {v : VaultId} {n : ℕ} {u : Unit}

/-- Only locked funds move. -/
theorem Transition.ofFunds {T : Set VaultId} {δ : Posting} (hδ : δ ∈ funds R)
    (h : Moves R T δ s s') : Transition R s 0 s' :=
  .internal (funds_le_journal hδ) (.of_neutral (funds_le_neutral hδ)) h

theorem Frame.transition (h : Frame R s s') (hs : Keyed s) : Transition R s 0 s' :=
  .ofFunds (zero_mem _) (h.moves hs)

/-! ## The vault registry -/

section

variable (hR : R.tokens.Lawful) (hs : Sound s)

include hs

/-- Setting the status of a vault posts nothing. -/
theorem setAcceptNewIssues_posts {d d' : Vault} {a : Bool} (hd : Stored s d)
    (h : Returns (d.setAcceptNewIssues a) s d' s') :
    Posts R {d.id} 0 s s' ∧
      statusOf s' = Function.update (statusOf s) d.id (some (.active a)) := by
  obtain ⟨hfunc, hinsert⟩ := update_returns h
  obtain rfl := except_pure_eq_ok.mp hfunc
  obtain ⟨hposts, -, hst⟩ := insertVault_posts (f := 0) hs.keyed hinsert
    (by intro j; rw [hd]; cases j <;> simp [Vault.item])
    (by intro j; have hitem := hs.keyed.vaultItems _ _ j hd; cases j <;> exact hitem)
  rw [itemsOn_zero] at hposts
  exact ⟨hposts, hst⟩

theorem acceptNewIssues_transition {a : Bool} (h : Returns (acceptNewIssues R o p a) s u s') :
    Transition R s 0 s' := by
  simp only [acceptNewIssues, returns_steps] at h
  obtain ⟨a, -, d, hget, _, s₁, hset, hrewards⟩ := h
  obtain ⟨hid, hd, hactive⟩ := getActiveVaultFromId_stored hs.keyed hget
  obtain ⟨hposts, hst⟩ := setAcceptNewIssues_posts (R := R) hs hd hset
  have hframe := (onVaultSettingsChange_frame _ _ _ _ hrewards).moves hposts.keyed
  obtain ⟨b, hb⟩ : ∃ b, d.status = .active b := by
    cases hstatus : d.status with
    | active b => exact ⟨b, rfl⟩
    | liquidated => exact absurd hstatus hactive
  have hst' : statusOf s' = _ := hframe.status.trans hst
  exact .activates (by rw [hd.statusOf_eq, hb])
    ((hposts.trans hframe.toPosts).congr (by simp) (by simp)) hst'

theorem recoverVaultId_recovers (h : Returns (recoverVaultId o p) s u s') :
    ∃ a, o = .signed a ∧ Recovers R ⟨a, p⟩ s s' := by
  simp only [recoverVaultId, returns_guards] at h
  obtain ⟨a, ha, b, hliq, rfl, d, hget, hzero, _, _, hset, -, rfl⟩ := h
  obtain ⟨hid, hd⟩ := getVaultFromId_stored hs.keyed hget
  obtain ⟨hposts, hst⟩ := setAcceptNewIssues_posts hs hd hset
  refine ⟨a, ensureSigned_eq_ok.mp ha, ?_⟩
  rw [← hid]
  refine ⟨?_, ?_, hposts, hst⟩
  · simp only [isVaultLiquidated, except_rules, hget, Except.ok.injEq, exists_eq_left',
    Vault.isLiquidated_eq_true] at hliq
    rw [hd.statusOf_eq, hliq]
  · have hvault : s.vaultRegistry.vaults d.id = some d := hd
    simpa [recorded, hvault, Vault.toBeRedeemed, Vault.item] using hzero

theorem setCustomSecureThreshold_transition {t : Option UnsignedFixedPoint}
    (h : Returns (setCustomSecureThreshold o p t) s u s') : Transition R s 0 s' := by
  obtain ⟨a, d, d', hget, hset⟩ : ∃ a d d', getVaultFromId ⟨a, p⟩ s = .ok d ∧
      Returns (d.setCustomSecureThreshold t) s d' s' := by
    cases t with
    | none =>
      simp only [setCustomSecureThreshold, returns_steps] at h
      obtain ⟨a, -, d, hget, d', _, hset, -, rfl⟩ := h
      exact ⟨a, d, d', hget, hset⟩
    | some t =>
      simp only [setCustomSecureThreshold, returns_guards] at h
      obtain ⟨a, -, _, -, -, d, hget, d', _, hset, -, rfl⟩ := h
      exact ⟨a, d, d', hget, hset⟩
  obtain ⟨-, hd⟩ := getVaultFromId_stored hs.keyed hget
  obtain ⟨hfunc, -⟩ := update_returns hset
  obtain rfl := except_pure_eq_ok.mp hfunc
  exact .ofFunds (zero_mem _) (update_settings_updates hs.keyed hd hset rfl rfl
    (by funext j; cases j <;> rfl)).moves

include hR

theorem registerVault_registers (h : Returns (registerVault R o p n) s u s') :
    ∃ a, o = .signed a ∧ Registers R ⟨a, p⟩ n s s' := by
  simp only [registerVault, returns_steps] at h
  obtain ⟨a, ha, _, hregistrable, _, s₁, hinsert, hdeposit⟩ := h
  have hnone : s.vaultRegistry.vaults ⟨a, p⟩ = none := by
    simp only [ensureRegistrable, except_rules, vaultExists] at hregistrable
    obtain ⟨_, -, _, -, _, -, _, -, _, -, _, -, _, -, _, -, hexists⟩ := hregistrable
    simpa using hexists
  have hinsert : Returns (insertVault (Vault.new ⟨a, p⟩).id (.new ⟨a, p⟩)) s _ s₁ := hinsert
  obtain ⟨hposts, hd, hst⟩ := insertVault_posts (f := 0) hs.keyed hinsert
    (by intro j; simp only [Vault.new, hnone]; cases j <;> simp [Vault.item])
    (by intro j; cases j <;> exact Nat.two_pow_pos 128)
  rw [itemsOn_zero] at hposts
  obtain ⟨-, hmoves⟩ := tryDepositCollateral_moves hR hposts.keyed hdeposit
  refine ⟨a, ensureSigned_eq_ok.mp ha, by simp [statusOf, hnone],
    (hposts.trans hmoves.toPosts).congr (by simp [Vault.new]) (by simp), ?_⟩
  rw [hmoves.status, hst]
  rfl

theorem depositCollateral_transition (h : Returns (depositCollateral R o p n) s u s') :
    Transition R s 0 s' := by
  simp only [depositCollateral, returns_steps] at h
  obtain ⟨a, -, _, -, _, s₁, hdeposit, _, -, _, -, -, rfl⟩ := h
  exact .ofFunds (Holding.backing _ _).mem (tryDepositCollateral_moves hR hs.keyed hdeposit).2

theorem withdrawCollateral_transition (h : Returns (withdrawCollateral R o p n) s u s') :
    Transition R s 0 s' := by
  simp only [withdrawCollateral, tryWithdrawCollateral, returns_guards] at h
  obtain ⟨a, -, _, -, _, s₁, ⟨_, -, -, _, -, -, hwithdraw⟩, _, -, -, rfl⟩ := h
  exact .ofFunds (neg_mem (Holding.backing _ _).mem)
    (forceWithdrawCollateral_moves hR hs.keyed hwithdraw).2

theorem reportUndercollateralizedVault_transition
    (h : Returns (reportUndercollateralizedVault R v) s u s') : Transition R s 0 s' := by
  simp only [reportUndercollateralizedVault, liquidateVault, returns_guards] at h
  obtain ⟨_, -, _, -, _, -, -, _, _, ⟨d, hget, _, -, hliquidate⟩, -, rfl⟩ := h
  obtain ⟨-, hd, hactive⟩ := getActiveVaultFromId_stored hs.keyed hget
  obtain ⟨δ, hδ, s₁, d₁, hid, hmoves, hmoved⟩ := liquidate_moves hs.keyed hd hR hactive hliquidate
  refine .liquidates hδ (hmoves.congr subset_rfl ?_) hmoved
  rw [hid, hd.recorded_eq]
  rfl

end

/-! ## Nomination -/

section

variable (hs : Sound s)

include hs

theorem kickNominators_refunds {r : ℕ} (h : Returns (PoolManager.kickNominators R v) s r s') :
    SameRequests s s' ∧ s'.vaultRegistry.vaults = s.vaultRegistry.vaults ∧ Keyed s' ∧
      statusOf s v ≠ none ∧ PoolRefunds v r s.staking s'.staking ∧
      recorded R s' = recorded R s + (on (.closed v) (scale * r) - on (.stake v) (scale * r)) := by
  simp only [PoolManager.kickNominators, returns_rules, Chain.returns_staking] at h
  obtain ⟨_, s₁, hrewards, r, _, ⟨p, hrefund, rfl⟩, _, _, hupdate, rfl, rfl⟩ := h
  have hfirst := withdrawAllRewardsFromVault_frame (R := R) v _ _ _ hrewards
  have hthird := updateRewardStake_frame (R := R) v _ _ _ hupdate
  have hrefund : PoolRefunds v r s₁.staking p := by
    refine forceRefund_refunds ?_ hrefund
    rw [hfirst.stakes, hfirst.nonce]
    exact hs.whole _
  have hrecorded := hrefund.recorded_eq (R := R) (by
    rw [hfirst.stakes, hfirst.nonce]
    exact hs.unopened _ v (Nat.lt_succ_self _))
  have hreg : statusOf s₁ v ≠ none := by
    have hreg := updateRewardStake_registered hupdate
    exact hreg
  have hsecond : SameRequests s₁ { s₁ with staking := p } := ⟨rfl, rfl, rfl, rfl, rfl⟩
  refine ⟨(hfirst.toSameRequests.trans hsecond).trans hthird.toSameRequests,
    hthird.vaults.trans hfirst.vaults, (hs.keyed.congr hfirst.vaults hfirst.systems).congr hthird.vaults hthird.systems, ?_, ?_, ?_⟩
  · rwa [statusOf_congr hfirst.vaults] at hreg
  · refine ⟨?_, ?_, ?_, ?_⟩
    · rw [hthird.nonce, hrefund.nonce, hfirst.nonce]
    · rw [hthird.stakes, ← hfirst.nonce, hrefund.closes]
    · rw [hthird.stakes, ← hfirst.nonce, ← hfirst.stakes, hrefund.opens]
    · intro k w
      rw [hthird.stakes, ← hfirst.nonce, ← hfirst.stakes]
      exact hrefund.others k w
  · rw [hthird.recorded_eq, hrecorded, hfirst.recorded_eq]

theorem optOutOfNomination_transition (h : Returns (Nomination.optOutOfNomination R o p) s u s') :
    Transition R s 0 s' := by
  simp only [Nomination.optOutOfNomination, returns_guards] at h
  obtain ⟨a, -, _, -, -, _, -, _, -, -, r, s₁, hkick, _, s₂, htotal, rfl⟩ := h
  obtain ⟨hsame, hvaults, hkeyed, hreg, hpools, hrecorded⟩ := kickNominators_refunds hs hkick
  obtain ⟨-, htotal⟩ := decreaseTotalBackingCollateral_moves (R := R) hkeyed htotal
  have hstakes := htotal.totalCurrentStake_eq (by simp)
  refine .refunds (v := ⟨a, p⟩) (n := r) ⟨?_, htotal.vaults_eq.trans hvaults, ?_, ?_, hreg, ?_, ?_, ?_⟩
  · have hrequests := hsame.trans htotal.toSameRequests
    exact ⟨hrequests.issues, hrequests.redeems, hrequests.replaces, hrequests.drawn,
      hrequests.system⟩
  · exact htotal.keyed.congr rfl rfl
  · exact htotal.nonce.trans hpools.nonce
  · have hbalance : recorded R s₂ = recorded R s + (on (.closed ⟨a, p⟩) (scale * r) -
        on (.stake ⟨a, p⟩) (scale * r) - on (.total p) r) := by
      rw [htotal.balance, hrecorded]
      abel
    rw [← hbalance]
    funext account
    cases account <;> rfl
  · change (s₂.staking.totalCurrentStake _).inner = _
    rw [hstakes, hpools.closes]
  · intro k w
    change _ → _ → s₂.staking.totalCurrentStake _ = _
    rw [hstakes]
    exact hpools.others k w

theorem nominationDeposit_transition (hR : R.tokens.Lawful)
    (h : Returns (Nomination.depositCollateral R o v n) s u s') : Transition R s 0 s' := by
  simp only [Nomination.depositCollateral, returns_guards] at h
  obtain ⟨a, -, _, -, -, -, _, -, _, -, _, -, _, -, _, -, -, _, s₁, hpool, _, s₂, htransfer, _, s₃,
    hlock, htotal⟩ := h
  obtain ⟨h₁, -⟩ := poolDeposit_moves hs.keyed hpool
  have h₂ := (transfer_frame hR _ _ _ _ _ _ htransfer).moves h₁.keyed
  have h₃ := lockOn_moves hR h₂.keyed hlock
  obtain ⟨-, h₄⟩ := tryIncreaseTotalBackingCollateral_moves h₃.keyed htotal
  refine .ofFunds (Holding.backing v n).mem ((((h₁.trans h₂).trans h₃).trans h₄).congr
    (subset_refl _) ?_)
  rw [backing]
  simp only [VaultId.collateralCurrency]
  abel

theorem poolWithdraw_closed {a : AccountId} {k : Nonce} {amount : Amount}
    (hk : k < s.staking.nonce v)
    (h : Returns (PoolManager.withdrawCollateral R v a amount (some k)) s u s') :
    SameRequests s s' ∧ s'.vaultRegistry.vaults = s.vaultRegistry.vaults ∧ Keyed s' ∧
      statusOf s v ≠ none ∧
      StakeChanges s.staking s'.staking (k, v) (-(scale * amount.amount)) ∧
      recorded R s' = recorded R s + on (.closed v) (-(scale * amount.amount)) := by
  simp only [PoolManager.withdrawCollateral, returns_bind, Chain.returns_staking] at h
  obtain ⟨_, s₁, hrewards, _, _, ⟨p, hwithdraw, rfl⟩, hupdate⟩ := h
  have hfirst := withdrawAllRewardsFromVault_frame (R := R) v _ _ _ hrewards
  have hthird := updateRewardStake_frame (R := R) v _ _ _ hupdate
  have hchanges := apiWithdrawStake_changes hwithdraw
  have hrecorded := recorded_closed (R := R) (by rw [hfirst.nonce]; exact hk) hchanges
  have hsecond : SameRequests s₁ { s₁ with staking := p } := ⟨rfl, rfl, rfl, rfl, rfl⟩
  have hreg : statusOf s₁ v ≠ none := by
    have hreg := updateRewardStake_registered hupdate
    exact hreg
  refine ⟨(hfirst.toSameRequests.trans hsecond).trans hthird.toSameRequests,
    hthird.vaults.trans hfirst.vaults,
    (hs.keyed.congr hfirst.vaults hfirst.systems).congr hthird.vaults hthird.systems, ?_, ?_, ?_⟩
  · rwa [statusOf_congr hfirst.vaults] at hreg
  · obtain ⟨hnonce, c, hc, hstake⟩ := hchanges
    refine ⟨?_, c, ?_, ?_⟩
    · rw [hthird.nonce, hnonce, hfirst.nonce]
    · rw [hc, hfirst.stakes]
      rfl
    · rw [hthird.stakes, hstake, hfirst.stakes]
      rfl
  · rw [hthird.recorded_eq, hrecorded, hfirst.recorded_eq]

/-- A withdrawal from the current pool takes away backing collateral; the index is cut off at
the current pool. -/
theorem nominationWithdraw_cases (hR : R.tokens.Lawful) {index : Option Nonce}
    (h : Returns (Nomination.withdrawCollateral R o v n index) s u s') :
    ∃ a, o = .signed a ∧
      ((min (index.getD 0) (s.staking.nonce v) = s.staking.nonce v ∧
        Moves R ∅ (-backing v n) s s') ∨
      ClosedWithdrawal R v (min (index.getD 0) (s.staking.nonce v)) n s s') := by
  simp only [Nomination.withdrawCollateral, Nomination.checkWithdrawal, returns_guards,
    returns_ite] at h
  obtain ⟨a, ha, _, -, h⟩ := h
  refine ⟨a, ensureSigned_eq_ok.mp ha, ?_⟩
  rcases h with ⟨hk, _, s₁, ⟨_, -, -, -, -, htotal⟩, _, s₂, hpool, _, s₃, hunlock, htransfer⟩ |
    ⟨hk, _, s₂, hpool, _, s₃, hunlock, htransfer⟩
  · left
    obtain ⟨-, h₁⟩ := decreaseTotalBackingCollateral_moves (R := R) hs.keyed htotal
    obtain ⟨h₂, -⟩ := poolWithdraw_moves h₁.keyed (by rw [h₁.nonce]; exact hk) hpool
    have h₃ := unlockOn_moves hR h₂.keyed hunlock
    have h₄ := (transfer_frame hR _ _ _ _ _ _ htransfer).moves h₃.keyed
    refine ⟨hk, (((h₁.trans h₂).trans h₃).trans h₄).congr (by simp) ?_⟩
    simp only [backing, VaultId.collateralCurrency]
    abel
  · right
    have hlt : min (index.getD 0) (s.staking.nonce v) < s.staking.nonce v :=
      lt_of_le_of_ne (min_le_right _ _) hk
    obtain ⟨hsame, hvaults, hkeyed, hreg, hstakes, hrecorded⟩ := poolWithdraw_closed hs hlt hpool
    have h₃ := unlockOn_moves hR hkeyed hunlock
    have h₄ := (transfer_frame hR _ _ _ _ _ _ htransfer).moves h₃.keyed
    have hrest := h₃.trans h₄
    refine ⟨hsame.trans hrest.toSameRequests, hlt, hreg, ?_, hrest.keyed, ?_, ?_⟩
    · rw [(hrest.congr (by simp) rfl).vaults_eq, hvaults]
    · rw [hrest.balance, hrecorded, on_neg]
      simp only [VaultId.collateralCurrency]
      abel
    · obtain ⟨hnonce, c, hc, hstake⟩ := hstakes
      refine ⟨hrest.nonce.trans hnonce, c, hc, ?_⟩
      rw [hrest.totalCurrentStake_eq (by simp), hstake]

end

end Spacewalk.Ledger
