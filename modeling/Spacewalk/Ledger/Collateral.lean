import Spacewalk.Ledger.Run
import Spacewalk.Runtime.Replay

/-!
# Collateral

The collateral of vaults is counted three times: as stake of their pools, in the total of their
pair of currencies, and as reserved balance of their accounts.  The totals agree with the stake in
every state of every run (`totalUserVaultCollateral_eq`).  The reserved balances cover it if
withdrawals from closed pools are covered by these pools (`reserved_covers_collateral`); nomination
does not check this, and the collateral of a vault can be withdrawn from a closed pool in which it
is not any more (`closed_pool_drained`).  Otherwise nothing changes a closed pool (`closedPool_paid`).
-/

namespace Spacewalk.Ledger

open Foundation VaultRegistry Staking Function

variable {B : Type} {R : Runtime B} {W : Set CurrencyId} {s : Chain B} {δ : Posting}
  {σ : VaultId → Option VaultStatus}

/-! ## The total of a pair of currencies -/

variable (a : AccountId) (c : CurrencyId) (p : VaultCurrencyPair)

/-- The total collateral of a pair, less the stake and the kept collateral of its vaults and the
collateral of its liquidation vault. -/
noncomputable def uncounted : Posting →+ ℤ :=
  scale • balanceOn (.total p) -
    (∑ v : VaultId with v.currencies = p,
      (balanceOn (.stake v) + scale • balanceOn (.vault v .liquidatedCollateral))) -
    scale • balanceOn (.system p .collateral)

theorem uncounted_apply (δ : Posting) :
    uncounted p δ = scale * δ (.total p) -
      (∑ v : VaultId with v.currencies = p,
        (δ (.stake v) + scale * δ (.vault v .liquidatedCollateral))) -
      scale * δ (.system p .collateral) := by
  simp [uncounted]

theorem uncounted_tokens (h : TokensOnly δ) : uncounted p δ = 0 := by
  rw [uncounted_apply, h (.total p) rfl, h (.system p .collateral) rfl, Finset.sum_eq_zero]
  · rfl
  · intro v _
    rw [h (.stake v) rfl, h (.vault v .liquidatedCollateral) rfl]
    rfl

theorem uncounted_entry (h : Entry R σ δ) : uncounted p δ = 0 := by
  rcases h.cases_tokens with hfunds | htokens
  · rw [uncounted_apply]
    cases hfunds <;> simp [backing, Pi.single_apply, eq_comm]
  · exact uncounted_tokens p htokens

theorem movedTokens_tokensOnly (d : Vault) : TokensOnly (movedTokens d) :=
  .sub (.sub (.add (.add (.on rfl _) (.on rfl _)) (.on rfl _)) (.on rfl _)) (.on rfl _)

theorem uncounted_relation :
    Relation R W (· = 0) fun _ => uncounted p where
  status _ _ _ := rfl
  entry _ _ h := uncounted_entry p h
  liquidates σ d b _ _ _ h := by
    rw [map_add, uncounted_tokens p (movedTokens_tokensOnly d), h, add_zero]
  environment σ δ h := by
    rw [uncounted_apply]
    simp [h]

theorem uncounted_genesis (hs : IsGenesis s) (p : VaultCurrencyPair) :
    uncounted p (balances R s) = 0 := by
  simp [uncounted_apply, recorded, hs.staking, hs.totals, hs.vaults, getLiquidationVault,
    hs.liquidationVaults, SystemVault.new, SystemVault.item, Pools.genesis]

/-- The stake of a pool as whole tokens. -/
theorem Sound.scale_mul_totalCurrentStake (hs : Sound s) (v : VaultId) :
    scale * totalCurrentStake s.staking v =
      (s.staking.totalCurrentStake (s.staking.nonce v, v)).inner := by
  rw [mul_comm]
  exact FixedPoint.IsWhole.truncate_mul_div (hs.whole _)

/-- The collateral of a registered vault: the stake of its current pool, in whole tokens, and what
was kept for tokens to be redeemed when it was liquidated. -/
def collateralOf (s : Chain B) (v : VaultId) : ℤ :=
  (s.vaultRegistry.vaults v).elim 0 fun d => totalCurrentStake s.staking v + d.liquidatedCollateral

theorem Sound.scale_mul_collateralOf (hs : Sound s) (v : VaultId) :
    scale * collateralOf s v =
      recorded R s (.stake v) + scale * recorded R s (.vault v .liquidatedCollateral) := by
  cases hv : s.vaultRegistry.vaults v with
  | none =>
    -- a vault that is not registered has no stake
    have hstake := hs.unregistered (s.staking.nonce v) v (by simp [statusOf, hv])
    simp [collateralOf, recorded, hv, hstake]
  | some d =>
    simp only [collateralOf, recorded, hv, Option.elim_some, Vault.item, mul_add,
      hs.scale_mul_totalCurrentStake v]

/-- In every state of every run, the total collateral of a pair of currencies is the collateral of
its registered vaults and of its liquidation vault; the stake of a vault is whole. -/
theorem totalUserVaultCollateral_eq (R : Runtime B) (hR : R.tokens.Lawful) (W : Set CurrencyId)
    (s₀ s : Chain B) (records : List Record) (hgenesis : IsGenesis s₀)
    (hrun : Run (Step R W) s₀ records s) (p : VaultCurrencyPair) :
    (s.vaultRegistry.totalUserVaultCollateral p : ℤ) =
        (∑ v : VaultId with v.currencies = p, collateralOf s v) +
          (getLiquidationVault p s).collateral ∧
      ∀ v, (s.staking.totalCurrentStake (s.staking.nonce v, v)).inner =
        scale * totalCurrentStake s.staking v := by
  have hs : Sound s := run_sound hR (fun _ _ _ h => h) hrun hgenesis
  have hzero : valueOf R (fun _ => uncounted p) s = 0 := by
    refine (uncounted_relation p).holds hR (fun _ _ _ h => h) ?_ hrun hgenesis ?_ ?_
    · intro s l s' a q _ _ _ h
      exact h
    · exact uncounted_genesis hgenesis p
    · intro s x _ h
      rw [h, uncounted_apply]
      simp
  refine ⟨?_, fun v => (hs.scale_mul_totalCurrentStake v).symm⟩
  simp only [valueOf, uncounted_apply, balances_total, balances_stake, balances_vault,
    balances_system, ← hs.scale_mul_collateralOf, ← Finset.mul_sum, ← mul_sub] at hzero
  have hdiff := (mul_eq_zero.mp hzero).resolve_left scale_pos.ne'
  simp only [recorded, SystemVault.item] at hdiff
  omega

/-- Two million tokens of collateral are counted. -/
theorem totalUserVaultCollateral_eq_registering :
    ∃ s, Run (Step sampleRuntime ∅) sampleGenesis registering s ∧
      s.vaultRegistry.totalUserVaultCollateral samplePair = 2000000 ∧
      (s.vaultRegistry.totalUserVaultCollateral samplePair : ℤ) =
        (∑ v : VaultId with v.currencies = samplePair, collateralOf s v) +
          (getLiquidationVault samplePair s).collateral := by
  obtain ⟨s, hrun, htotal⟩ : ∃ s, Run (Step sampleRuntime ∅) sampleGenesis registering s ∧
      s.vaultRegistry.totalUserVaultCollateral samplePair = 2000000 :=
    run_of_replay environmentStep_refl (by decide +kernel)
  refine ⟨s, hrun, htotal, ?_⟩
  exact (totalUserVaultCollateral_eq sampleRuntime sampleRuntime_lawful ∅ sampleGenesis s
    registering sampleGenesis_isGenesis hrun samplePair).1

/-! ## Reserved balances -/

/-- The reserved balance of an account in a currency, less everything that is kept in it: the
collateral of the vaults of the account, also in closed pools, griefing collateral, the tokens of
redeem requests and the collateral of liquidation vaults. -/
noncomputable def slack (R : Runtime B) (a : AccountId) (c : CurrencyId) : Posting →+ ℤ :=
  scale • balanceOn (.reserved c a) -
    (∑ v : VaultId with v.accountId = a ∧ v.currencies.collateral = c,
      (balanceOn (.stake v) + balanceOn (.closed v) +
        scale • balanceOn (.vault v .liquidatedCollateral))) -
    (if c = R.getGriefingCollateralCurrencyId then
      scale • (∑ v : VaultId with v.accountId = a, (balanceOn (.vault v .replaceCollateral) +
        balanceOn (.vault v .activeReplaceCollateral)) + balanceOn (.issueGriefing a)) else 0) -
    scale • balanceOn (.redeemEscrow c a) -
    if a = R.liquidationVaultAccountId then
      scale • ∑ p : VaultCurrencyPair with p.collateral = c, balanceOn (.system p .collateral)
    else 0

theorem slack_apply (δ : Posting) :
    slack R a c δ = scale * δ (.reserved c a) -
      (∑ v : VaultId with v.accountId = a ∧ v.currencies.collateral = c,
        (δ (.stake v) + δ (.closed v) + scale * δ (.vault v .liquidatedCollateral))) -
      (if c = R.getGriefingCollateralCurrencyId then
        scale * (∑ v : VaultId with v.accountId = a, (δ (.vault v .replaceCollateral) +
          δ (.vault v .activeReplaceCollateral)) + δ (.issueGriefing a)) else 0) -
      scale * δ (.redeemEscrow c a) -
      if a = R.liquidationVaultAccountId then
        scale * ∑ p : VaultCurrencyPair with p.collateral = c, δ (.system p .collateral)
      else 0 := by
  rw [slack]
  split_ifs <;> simp [mul_add]

theorem slack_tokens (h : TokensOnly δ) : slack R a c δ = 0 := by
  rw [slack_apply, h (.reserved c a) rfl, h (.issueGriefing a) rfl, h (.redeemEscrow c a) rfl,
    Finset.sum_eq_zero, Finset.sum_eq_zero, Finset.sum_eq_zero]
  · simp
  · intro p _
    rw [h (.system p .collateral) rfl]
  · intro v _
    rw [h (.vault v .replaceCollateral) rfl, h (.vault v .activeReplaceCollateral) rfl]
    rfl
  · intro v _
    rw [h (.stake v) rfl, h (.closed v) rfl, h (.vault v .liquidatedCollateral) rfl]
    rfl

theorem slack_holding (h : Holding R δ) : slack R a c δ = 0 := by
  rw [slack_apply]
  cases h <;> simp [backing, Pi.single_apply, eq_comm]
  all_goals
    split_ifs <;> simp_all

theorem slack_entry (h : Entry R σ δ) : slack R a c δ = 0 := by
  rcases h.cases_tokens with hfunds | htokens
  · exact slack_holding a c hfunds
  · exact slack_tokens a c htokens

theorem slack_relation :
    Relation R W (0 ≤ ·) fun _ => slack R a c where
  status _ _ _ := rfl
  entry _ _ h := slack_entry a c h
  liquidates σ d b _ _ _ h := by
    rwa [map_add, slack_tokens a c (movedTokens_tokensOnly d), add_zero]
  environment σ δ h := by
    rw [slack_apply]
    simp [h]

theorem Write.replaced_nonneg (w : Write) (s : Chain B) (account : Account) :
    0 ≤ w.replaced s account := by
  cases w with
  | issue id r => exact issuePosting_nonneg _ _
  | redeem id r => exact redeemPosting_nonneg _ _
  | replace id r => exact replacePosting_nonneg _ _

/-- A request that is overwritten frees its griefing collateral and its tokens. -/
theorem slack_replaced (w : Write) (s : Chain B) : slack R a c (w.replaced s) ≤ 0 := by
  have hgriefing := w.replaced_nonneg s (.issueGriefing a)
  have hescrow := w.replaced_nonneg s (.redeemEscrow c a)
  have hscale := scale_pos.le
  rw [slack_apply]
  simp only [Write.replaced_reserved, Write.replaced_stake, Write.replaced_closed,
    Write.replaced_vault, Write.replaced_system, mul_zero, add_zero, Finset.sum_const_zero,
    zero_add, ite_self, sub_zero, zero_sub]
  split_ifs
  · have := mul_nonneg hscale hgriefing
    have := mul_nonneg hscale hescrow
    omega
  · have := mul_nonneg hscale hescrow
    omega

theorem slack_genesis (hs : IsGenesis s) (a : AccountId) (c : CurrencyId) :
    0 ≤ slack R a c (balances R s) := by
  have hreserved : 0 ≤ scale * (R.tokens.reservedBalance s.tokens c a : ℤ) :=
    mul_nonneg scale_pos.le (Int.natCast_nonneg _)
  rw [balances, genesis_requested hs, add_zero, slack_apply]
  simpa [recorded, hs.staking, hs.vaults, getLiquidationVault, hs.liquidationVaults,
    SystemVault.new, SystemVault.item, Pools.genesis] using hreserved

/-! ## Closed pools -/

/-- No closed pool has negative stake. -/
def ClosedNonneg (s : Chain B) : Prop :=
  ∀ k v, k < s.staking.nonce v → 0 ≤ (s.staking.totalCurrentStake (k, v)).inner

section

variable {s' : Chain B} {T : Set VaultId}

theorem Posts.closedNonneg (h : Posts R T δ s s') (hs : ClosedNonneg s) : ClosedNonneg s' := by
  intro k v hk
  rw [h.nonce] at hk
  by_cases hsame : s'.staking.totalCurrentStake (k, v) = s.staking.totalCurrentStake (k, v)
  · rw [hsame]
    exact hs k v hk
  · -- only the stake of current pools changes
    exact absurd (h.stakes k v hsame).1 hk.ne

theorem ClosedNonneg.apply (hs : ClosedNonneg s) (w : Write) : ClosedNonneg (w.apply s) := by
  intro k v
  rw [(w.apply_vaultRegistry s).2]
  exact hs k v

theorem Refunds.closedNonneg {v : VaultId} {n : ℕ} (h : Refunds R v n s s')
    (hs : ClosedNonneg s) : ClosedNonneg s' := by
  intro k w hk
  by_cases hclosed : (k, w) = (s.staking.nonce v, v)
  · rw [hclosed, h.closes]
    exact mul_nonneg scale_pos.le (Int.natCast_nonneg n)
  · have hopened : (k, w) ≠ (s.staking.nonce v + 1, v) := by
      rintro ⟨⟩
      rw [h.nonce, update_self] at hk
      exact lt_irrefl _ hk
    rw [h.others k w hclosed hopened]
    refine hs k w ?_
    rw [h.nonce, update_apply] at hk
    split_ifs at hk with hw
    · subst hw
      have hne : k ≠ s.staking.nonce w := fun heq => hclosed (by rw [heq])
      exact lt_of_le_of_ne (Nat.lt_succ_iff.mp hk) hne
    · exact hk

theorem Transition.closedNonneg {taken : VaultId → ℤ} (h : Transition R s taken s')
    (hs : ClosedNonneg s) : ClosedNonneg s' := by
  cases h with
  | internal _ _ h => exact h.toPosts.closedNonneg hs
  | settles w _ _ _ h => exact (h.toPosts.closedNonneg hs).apply w
  | @opens _ _ s₁ w _ _ _ _ h =>
    have hs₁ : ClosedNonneg (drawn s₁) := h.toPosts.closedNonneg hs
    exact hs₁.apply w
  | activates _ h _ => exact h.closedNonneg hs
  | liquidates _ h h' => exact h'.posts.closedNonneg (h.toPosts.closedNonneg hs)
  | refunds h => exact h.closedNonneg hs

theorem ClosedWithdrawal.closedNonneg {v : VaultId} {k : Nonce} {n : ℕ}
    (h : ClosedWithdrawal R v k n s s')
    (hcovered : scale * n ≤ (s.staking.totalCurrentStake (k, v)).inner) (hs : ClosedNonneg s) :
    ClosedNonneg s' := by
  obtain ⟨hnonce, c, hc, hstake⟩ := h.stakes
  intro j w hj
  rw [hnonce] at hj
  rw [hstake, update_apply]
  split_ifs with heq
  · rw [hc]
    omega
  · exact hs j w hj

end

/-- A withdrawal from an older pool takes no more than the caller still has in it, and no more
than the whole pool still has. -/
def OlderPoolCovered (s : Chain B) (record : Record) : Prop :=
  ∀ a v n index,
    record.event = .extrinsic (.signed a) (.nomination (.withdrawCollateral v n index)) →
    min (index.getD 0) (s.staking.nonce v) < s.staking.nonce v →
    scale * n ≤ (s.staking.totalCurrentStake (min (index.getD 0) (s.staking.nonce v), v)).inner ∧
    ∃ m, computeStakeAtIndex s.staking (min (index.getD 0) (s.staking.nonce v)) v a = .ok m ∧
      (n : ℤ) ≤ m

/-- A step in which withdrawals from older pools are covered. -/
def CoveredStep (R : Runtime B) (W : Set CurrencyId) (s : Chain B) (record : Record)
    (s' : Chain B) : Prop :=
  Step R W s record s' ∧ OlderPoolCovered s record

theorem CoveredStep.closedNonneg (hR : R.tokens.Lawful) {s' : Chain B} {record : Record}
    (h : CoveredStep R W s record s') (hs : Sound s) (hclosed : ClosedNonneg s) :
    ClosedNonneg s' := by
  obtain ⟨hstep, hcovered⟩ := h
  cases hstep with
  | environment h =>
    intro k v
    rw [h.nonce, h.totalCurrentStake]
    exact hclosed k v
  | extrinsic hcall =>
    cases dispatch_effect hR hs hcall with
    | transition h => exact h.closedNonneg hclosed
    | registers h => exact h.posts.closedNonneg hclosed
    | recovers h => exact h.posts.closedNonneg hclosed
    | @withdraws a v n index _ h =>
      exact h.closedNonneg (hcovered a v n index rfl h.closed).1 hclosed

/-- What the slack leaves of the reserved balance covers the collateral of the vaults. -/
theorem collateral_le_reserved (hs : Sound s) (hclosed : ClosedNonneg s) (a : AccountId)
    (c : CurrencyId) (hslack : 0 ≤ slack R a c (balances R s)) :
    ∑ v : VaultId with v.accountId = a ∧ v.currencies.collateral = c, collateralOf s v ≤
      R.tokens.reservedBalance s.tokens c a := by
  have hnonneg : ∀ account, 0 ≤ requested s account := requested_nonneg s
  have hgriefing : 0 ≤ scale * (∑ v : VaultId with v.accountId = a,
      (balances R s (.vault v .replaceCollateral) +
        balances R s (.vault v .activeReplaceCollateral)) + balances R s (.issueGriefing a)) := by
    refine mul_nonneg scale_pos.le (add_nonneg (Finset.sum_nonneg fun v _ => ?_) ?_)
    · rw [balances_vault, balances_vault]
      exact add_nonneg (recorded_vault_nonneg s v _) (recorded_vault_nonneg s v _)
    · exact add_nonneg le_rfl (hnonneg _)
  have hescrow : 0 ≤ scale * balances R s (.redeemEscrow c a) :=
    mul_nonneg scale_pos.le (add_nonneg le_rfl (hnonneg _))
  have hsystem : 0 ≤ scale * ∑ p : VaultCurrencyPair with p.collateral = c,
      balances R s (.system p .collateral) := by
    refine mul_nonneg scale_pos.le (Finset.sum_nonneg fun p _ => ?_)
    rw [balances_system]
    exact Int.natCast_nonneg _
  -- the stake of closed pools is reserved, too
  have hpools : scale * ∑ v : VaultId with v.accountId = a ∧ v.currencies.collateral = c,
      collateralOf s v ≤ ∑ v : VaultId with v.accountId = a ∧ v.currencies.collateral = c,
        (balances R s (.stake v) + balances R s (.closed v) +
          scale * balances R s (.vault v .liquidatedCollateral)) := by
    rw [Finset.mul_sum]
    refine Finset.sum_le_sum fun v _ => ?_
    have hv : 0 ≤ recorded R s (.closed v) :=
      Finset.sum_nonneg fun k hk => hclosed k v (Finset.mem_range.mp hk)
    rw [hs.scale_mul_collateralOf (R := R), balances_stake, balances_closed, balances_vault]
    omega
  have hreserved : scale * ∑ v : VaultId with v.accountId = a ∧ v.currencies.collateral = c,
      collateralOf s v ≤ scale * (R.tokens.reservedBalance s.tokens c a : ℤ) := by
    rw [slack_apply, balances_reserved] at hslack
    simp only [recorded] at hslack
    split_ifs at hslack <;> omega
  exact le_of_mul_le_mul_left hreserved scale_pos

/-- In every run in which withdrawals from older pools are covered, the reserved balance of an
account covers the collateral of its vaults, and a withdrawal lowers the stake of the current pool
by its amount unless the caller still had the amount in an older pool. -/
theorem reserved_covers_collateral (R : Runtime B) (hR : R.tokens.Lawful) (W : Set CurrencyId)
    (s₀ s : Chain B) (records : List Record) (hgenesis : IsGenesis s₀)
    (hrun : Run (CoveredStep R W) s₀ records s) :
    (∀ a c, ∑ v : VaultId with v.accountId = a ∧ v.currencies.collateral = c, collateralOf s v ≤
      R.tokens.reservedBalance s.tokens c a) ∧
    ∀ a v n index record s', CoveredStep R W s record s' →
      record.event = .extrinsic (.signed a) (.nomination (.withdrawCollateral v n index)) →
      totalCurrentStake s'.staking v = totalCurrentStake s.staking v - n ∨
        ∃ k m, k < s.staking.nonce v ∧ computeStakeAtIndex s.staking k v a = .ok m ∧
          (n : ℤ) ≤ m := by
  have hle : ∀ s l s', CoveredStep R W s l s' → Step R W s l s' := fun _ _ _ h => h.1
  obtain ⟨hs, hclosed⟩ := run_invariant (I := ClosedNonneg) hR hle
    (fun s l s' hs hc h => h.closedNonneg hR hs hc) hrun hgenesis (by
      intro k v hk
      rw [hgenesis.staking] at hk
      exact absurd hk (Nat.not_lt_zero k))
  refine ⟨fun a c => ?_, ?_⟩
  · refine collateral_le_reserved hs hclosed a c ?_
    refine (slack_relation a c).holds hR hle ?_ hrun hgenesis (slack_genesis hgenesis a c) ?_
    · intro s l s' b p _ _ _ h
      exact h
    · intro s w _ h
      have hreplaced := slack_replaced (R := R) a c w s
      omega
  · rintro a v n index ⟨event, id⟩ s' ⟨hstep, hcovered⟩ rfl
    have hs' := step_sound hR hstep hs
    cases hstep with
    | extrinsic hcall =>
      obtain ⟨b, hb, ⟨-, hmoves⟩ | hwithdrawal⟩ := nominationWithdraw_cases hs hR hcall
      · left
        have hstake := congrFun hmoves.balance (.stake v)
        have hbacking : backing v n (.stake v) = scale * n := by simp [backing]
        simp only [recorded, Pi.add_apply, Pi.neg_apply, hbacking,
          ← hs.scale_mul_totalCurrentStake, ← hs'.scale_mul_totalCurrentStake] at hstake
        have hcancel : scale * totalCurrentStake s'.staking v =
            scale * (totalCurrentStake s.staking v - n) := by
          rw [mul_sub]
          omega
        exact mul_left_cancel₀ scale_pos.ne' hcancel
      · right
        obtain ⟨-, m, hm, hnm⟩ := hcovered a v n index rfl hwithdrawal.closed
        exact ⟨_, m, hwithdrawal.closed, hm, hnm⟩

/-- Withdrawals from older pools are covered, as a check. -/
def olderPoolCovered (s : Chain B) (record : Record) : Bool :=
  match record.event with
  | .extrinsic (.signed a) (.nomination (.withdrawCollateral v n index)) =>
    let k := min (index.getD 0) (s.staking.nonce v)
    decide (s.staking.nonce v ≤ k) ||
      (decide (scale * n ≤ (s.staking.totalCurrentStake (k, v)).inner) &&
        (computeStakeAtIndex s.staking k v a).toOption.any fun m => decide ((n : ℤ) ≤ m))
  | _ => true

theorem olderPoolCovered_sound {record : Record} (h : olderPoolCovered s record = true) :
    OlderPoolCovered s record := by
  rintro a v n index hevent hk
  simp only [olderPoolCovered, hevent, Bool.or_eq_true, Bool.and_eq_true, decide_eq_true_eq] at h
  rcases h with hopen | ⟨hstake, hheld⟩
  · exact absurd hk (Nat.not_lt.mpr hopen)
  · cases hm : computeStakeAtIndex s.staking (min (index.getD 0) (s.staking.nonce v)) v a with
    | error e => simp [hm, Except.toOption] at hheld
    | ok m => exact ⟨hstake, m, rfl, by simpa [hm, Except.toOption] using hheld⟩

/-- Account 2 nominates 200000 to the vault of account 1, which then opts out of nomination. -/
def optingOut : List Record :=
  registering ++
    [signed 1 (.nomination (.optInToNomination samplePair)),
      signed 2 (.nomination (.depositCollateral (sampleVault 1) 200000)),
      signed 1 (.nomination (.optOutOfNomination samplePair))]

/-- The nominator nominates again and then withdraws from the closed pool. -/
def withdrawing : List Record :=
  optingOut ++
    [signed 1 (.nomination (.optInToNomination samplePair)),
      signed 2 (.nomination (.depositCollateral (sampleVault 1) 200000)),
      signed 2 (.nomination (.withdrawCollateral (sampleVault 1) 200000 none))]

/-- The stake of the vault and the second nomination stay reserved. -/
theorem reserved_covers_collateral_withdrawing :
    ∃ s, Run (CoveredStep sampleRuntime ∅) sampleGenesis withdrawing s ∧
      sampleRuntime.tokens.reservedBalance s.tokens (.xcm 0) ⟨1⟩ = 2200000 ∧
      ∑ v : VaultId with v.accountId = ⟨1⟩ ∧ v.currencies.collateral = .xcm 0, collateralOf s v ≤
        sampleRuntime.tokens.reservedBalance s.tokens (.xcm 0) ⟨1⟩ := by
  obtain ⟨s, hrun, hreserved⟩ : ∃ s, Run (CoveredStep sampleRuntime ∅) sampleGenesis withdrawing s ∧
      sampleRuntime.tokens.reservedBalance s.tokens (.xcm 0) ⟨1⟩ = 2200000 :=
    Run.exists_of_checked (step_of_execute environmentStep_refl)
      (c := fun s record _ => olderPoolCovered s record) (fun _ _ _ => olderPoolCovered_sound)
      (by decide +kernel)
  refine ⟨s, hrun, hreserved, ?_⟩
  exact (reserved_covers_collateral sampleRuntime sampleRuntime_lawful ∅ sampleGenesis s
    withdrawing sampleGenesis_isGenesis hrun).1 ⟨1⟩ (.xcm 0)

/-- The vault withdraws its stake from the closed pool, although it has moved to the current pool:
then only the collateral of the nominator is reserved. -/
theorem closed_pool_drained :
    ∃ s, Run (Step sampleRuntime ∅) sampleGenesis
        (optingOut ++ [signed 1 (.nomination (.withdrawCollateral (sampleVault 1) 2000000 none))])
        s ∧
      sampleRuntime.tokens.reservedBalance s.tokens (.xcm 0) ⟨1⟩ = 200000 ∧
      ∑ v : VaultId with v.accountId = ⟨1⟩ ∧ v.currencies.collateral = .xcm 0, collateralOf s v =
        2000000 := by
  obtain ⟨s, hrun, hreserved, hcollateral⟩ : ∃ s, Run (Step sampleRuntime ∅) sampleGenesis
      (optingOut ++ [signed 1 (.nomination (.withdrawCollateral (sampleVault 1) 2000000 none))]) s ∧
      sampleRuntime.tokens.reservedBalance s.tokens (.xcm 0) ⟨1⟩ = 200000 ∧
        collateralOf s (sampleVault 1) = 2000000 :=
    run_of_replay environmentStep_refl (by decide +kernel)
  refine ⟨s, hrun, hreserved, ?_⟩
  rw [Finset.sum_eq_single (sampleVault 1), hcollateral]
  · rintro ⟨a, p⟩ _ hv
    -- no other vault was registered
    have hnone : statusOf s ⟨a, p⟩ = none := by
      by_contra hregistered
      rcases run_registered sampleRuntime_lawful hrun (genesis_sound sampleGenesis_isGenesis)
        hregistered with hgenesis | ⟨record, hmem, n, hevent⟩
      · exact hgenesis rfl
      · apply hv
        simp [optingOut, registering, signed] at hmem
        rcases hmem with rfl | rfl | rfl | rfl | rfl | rfl <;> simp at hevent
        obtain ⟨rfl, rfl, -⟩ := hevent
        rfl
    have hvault : s.vaultRegistry.vaults ⟨a, p⟩ = none := by simpa [statusOf] using hnone
    simp [collateralOf, hvault]
  · intro h
    exact absurd (by simp [sampleVault, samplePair]) h

/-! ## What leaves a closed pool -/

/-- What a step withdraws from the pool of a vault with the number `k`. -/
def withdrawnFrom (v : VaultId) (k : Nonce) (record : Record) : ℕ :=
  match record.event with
  | .extrinsic _ (.nomination (.withdrawCollateral w n index)) =>
    if w = v ∧ index.getD 0 = k then n else 0
  | _ => 0

/-- A closed pool stays closed and loses `n` tokens. -/
def Drains (v : VaultId) (k : Nonce) (n : ℕ) (s s' : Chain B) : Prop :=
  k < s'.staking.nonce v ∧ (s.staking.totalCurrentStake (k, v)).inner =
    (s'.staking.totalCurrentStake (k, v)).inner + Staking.scale * n

variable {s' : Chain B} {v : VaultId} {k : Nonce} {record : Record}

theorem Posts.closedPool {T : Set VaultId} {δ : Posting} (h : Posts R T δ s s')
    (hk : k < s.staking.nonce v) : Drains v k 0 s s' := by
  have hsame : s'.staking.totalCurrentStake (k, v) = s.staking.totalCurrentStake (k, v) := by
    by_contra hne
    exact hk.ne (h.stakes k v hne).1
  simp [Drains, h.nonce, hk, hsame]

theorem Transition.closedPool {taken : VaultId → ℤ} (h : Transition R s taken s')
    (hk : k < s.staking.nonce v) : Drains v k 0 s s' := by
  cases h with
  | internal _ _ h => exact h.closedPool hk
  | settles w _ _ _ h =>
    rw [Drains, (w.apply_vaultRegistry _).2]
    exact h.closedPool hk
  | @opens _ _ s₁ w _ _ _ _ h =>
    rw [Drains, (w.apply_vaultRegistry _).2]
    exact h.closedPool hk
  | activates _ h _ => exact h.closedPool hk
  | liquidates _ h h' =>
    obtain ⟨hk₁, hfirst⟩ := h.closedPool hk
    obtain ⟨hk₂, hsecond⟩ := h'.posts.closedPool hk₁
    exact ⟨hk₂, by omega⟩
  | @refunds w n _ h =>
    -- the pool that is closed now was still open
    have hne : (k, v) ≠ (s.staking.nonce w, w) ∧ (k, v) ≠ (s.staking.nonce w + 1, w) := by grind
    refine ⟨?_, by simp [h.others k v hne.1 hne.2]⟩
    rw [h.nonce]
    grind [update_apply]

theorem step_closedPool (hR : R.tokens.Lawful) (hs : Sound s) (h : Step R W s record s')
    (hk : k < s.staking.nonce v) : Drains v k (withdrawnFrom v k record) s s' := by
  cases h with
  | environment h => simpa [Drains, h.nonce, h.totalCurrentStake, withdrawnFrom] using hk
  | @extrinsic _ o call h =>
    by_cases hcall : ∃ w n index, call = .nomination (.withdrawCollateral w n index)
    · obtain ⟨w, n, index, rfl⟩ := hcall
      obtain ⟨a, rfl, ⟨hopen, hmoves⟩ | hclosed⟩ := nominationWithdraw_cases hs hR h
      · have hzero : ¬ (w = v ∧ index.getD 0 = k) := by
          rintro ⟨rfl, rfl⟩
          exact hk.not_ge (min_eq_right_iff.mp hopen)
        simpa [withdrawnFrom, hzero] using hmoves.closedPool hk
      · obtain ⟨hnonce, c, hc, hstakes⟩ := hclosed.stakes
        -- the index is cut off at the number of the current pool, which is not `k`
        have hkey : (k, v) = (min (index.getD 0) (s.staking.nonce w), w) ↔
            w = v ∧ index.getD 0 = k := by
          grind
        simp only [Drains, hnonce, hk, hstakes, withdrawnFrom, update_apply, hkey, true_and]
        split_ifs with heq
        · rw [hc, ← hkey.mpr heq, neg_add_cancel_right]
        · simp
    · have hzero : withdrawnFrom v k ⟨.extrinsic o call, drawnBetween R s s'⟩ = 0 := by
        rw [withdrawnFrom]
        split
        next heq =>
          cases heq
          exact absurd ⟨_, _, _, rfl⟩ hcall
        next => rfl
      rw [hzero]
      cases dispatch_effect hR hs h with
      | transition h => exact h.closedPool hk
      | registers h => exact h.posts.closedPool hk
      | recovers h => exact h.posts.closedPool hk
      | withdraws => exact absurd ⟨_, _, _, rfl⟩ hcall

/-- Once a pool is closed, its stake only ever shrinks by what is withdrawn with its number: neither
slashing nor deposits reach it. -/
theorem closedPool_paid (hR : R.tokens.Lawful) {s₀ t : Chain B} {before records : List Record}
    (hgenesis : IsGenesis s₀) (hbefore : Run (Step R W) s₀ before t)
    (hrun : Run (Step R W) t records s) (v : VaultId) (k : Nonce) (hk : k < t.staking.nonce v) :
    Drains v k (records.map (withdrawnFrom v k)).sum t s := by
  have hsound := run_sound hR (fun _ _ _ h => h) hbefore hgenesis
  -- the invariant compares each state of the run with the first one
  have hall := hrun.invariant_sum (f := withdrawnFrom v k) (x := 0)
    (I := fun s n => Sound s ∧ Drains v k n t s) ?_ ⟨hsound, hk, by simp⟩
  · simpa using hall.2
  · rintro s l s' n ⟨hs, hk, hn⟩ h
    obtain ⟨hk', hl⟩ := step_closedPool hR hs h hk
    refine ⟨step_sound hR h hs, hk', ?_⟩
    rw [hn, hl, Nat.cast_add]
    ring

theorem closedPool_paid_withdrawing :
    let records := withdrawing.drop optingOut.length
    ∃ t s, Run (Step sampleRuntime ∅) sampleGenesis optingOut t ∧
      Run (Step sampleRuntime ∅) t records s ∧ Drains (sampleVault 1) 0 200000 t s := by
  intro records
  obtain ⟨t, hbefore, hk, hreplay⟩ : ∃ t, Run (Step sampleRuntime ∅) sampleGenesis optingOut t ∧
      0 < t.staking.nonce (sampleVault 1) ∧
        ∃ s, replay (execute sampleRuntime id) t records = some s ∧ True :=
    run_of_replay environmentStep_refl (by decide +kernel)
  obtain ⟨s, hrun, -⟩ := run_of_replay environmentStep_refl hreplay
  exact ⟨t, s, hbefore, hrun,
    closedPool_paid sampleRuntime_lawful sampleGenesis_isGenesis hbefore hrun _ _ hk⟩

end Spacewalk.Ledger
