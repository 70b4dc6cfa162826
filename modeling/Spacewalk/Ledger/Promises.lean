import Spacewalk.Ledger.Run
import Spacewalk.Runtime.Replay

/-!
# Promised tokens

Vaults count the tokens that open requests promise: tokens to be issued and tokens to be redeemed.
While a vault is liquidated, the first are counted by the liquidation vault of its pair, and the
second by both.

The tokens to be redeemed are those of the pending requests in every state of every run, and they
are issued (`toBeRedeemedTokens_eq`).  For the tokens to be issued this needs that no vault is
recovered while requests to it are pending (`toBeIssuedTokens_eq`); a recovery is not prevented
then, and leaves the requests without tokens to be issued (`recovery_strands_request`).
-/

namespace Spacewalk.Ledger

open Foundation VaultRegistry Issue Redeem Replace
open Function (update update_of_ne)

variable {B : Type} {R : Runtime B} {W : Set CurrencyId} {s : Chain B} {d : Vault} {tokens : Amount}
  {σ : VaultId → Option VaultStatus}

/-! ## Tokens of pending requests -/

/-- The tokens of the pending issue requests of a vault. -/
noncomputable def pendingIssueTokens (s : Chain B) (v : VaultId) : ℕ :=
  ∑ id, (s.issue.issueRequests id).elim 0 fun r =>
    if r.status = .pending ∧ r.vault = v then r.amount + r.fee else 0

/-- The tokens of the pending redeem requests of a vault. -/
noncomputable def pendingRedeemTokens (s : Chain B) (v : VaultId) : ℕ :=
  ∑ id, (s.redeem.redeemRequests id).elim 0 fun r =>
    if r.status = .pending ∧ r.vault = v then r.amount + r.transferFee else 0

/-- The tokens of the pending replace requests with a vault as the new vault. -/
noncomputable def pendingReplaceIn (s : Chain B) (v : VaultId) : ℕ :=
  ∑ id, (s.replace.replaceRequests id).elim 0 fun r =>
    if r.status = .pending ∧ r.newVault = v then r.amount else 0

/-- The tokens of the pending replace requests with a vault as the old vault. -/
noncomputable def pendingReplaceOut (s : Chain B) (v : VaultId) : ℕ :=
  ∑ id, (s.replace.replaceRequests id).elim 0 fun r =>
    if r.status = .pending ∧ r.oldVault = v then r.amount else 0

section

variable {ρ : Type} {requests : H256 → Option ρ} {P : ρ → Prop} [DecidablePred P] {g : ρ → ℕ}

/-- What one request counts is part of what all requests count. -/
theorem le_sum_requests {id : H256} {r : ρ} (hr : requests id = some r) (hP : P r) :
    g r ≤ ∑ id, (requests id).elim 0 fun r => if P r then g r else 0 := by
  have hterm : (requests id).elim 0 (fun r => if P r then g r else 0) = g r := by
    rw [hr, Option.elim_some, if_pos hP]
  rw [← hterm]
  exact Finset.single_le_sum (f := fun id => (requests id).elim 0 fun r => if P r then g r else 0)
    (fun _ _ => Nat.zero_le _) (Finset.mem_univ id)

theorem sum_requests_eq_zero (h : ∀ id r, requests id = some r → ¬ P r) :
    (∑ id, (requests id).elim 0 fun r => if P r then g r else 0) = 0 := by
  refine Finset.sum_eq_zero fun id _ => ?_
  cases hr : requests id with
  | none => rfl
  | some r => exact if_neg (h id r hr)

/-- Requests that post what they count. -/
theorem posted_requests (requests : H256 → Option ρ) (posting : Option ρ → Posting) {x : Account}
    (hnone : posting none x = 0)
    (hsome : ∀ r, posting (some r) x = if P r then (g r : ℤ) else 0) :
    posted (fun _ => posting) requests x =
      ((∑ id, (requests id).elim 0 fun r => if P r then g r else 0 : ℕ) : ℤ) := by
  rw [posted_apply, Nat.cast_sum]
  refine Finset.sum_congr rfl fun id _ => ?_
  cases requests id with
  | none => exact hnone
  | some r => rw [hsome, Option.elim_some, Nat.cast_ite, Nat.cast_zero]

end

section

variable {x : Account}

theorem posted_eq_zero {ρ : Type} {posting : Option ρ → Posting} (h : ∀ r, posting r x = 0)
    (requests : H256 → Option ρ) : posted (fun _ => posting) requests x = 0 := by
  rw [posted_apply]
  exact Finset.sum_eq_zero fun id _ => h (requests id)

theorem posted_issues_eq_zero (hv : ∀ v, x ≠ .issueTokens v) (ha : ∀ a, x ≠ .issueGriefing a) :
    ∀ requests : H256 → Option IssueRequest, posted (fun _ => issuePosting) requests x = 0 := by
  refine posted_eq_zero fun r => ?_
  rcases r with _ | r
  · rfl
  · simp [issuePosting, ite_apply, hv, ha]

theorem posted_redeems_eq_zero (hv : ∀ v, x ≠ .redeemTokens v) (ha : ∀ c a, x ≠ .redeemEscrow c a) :
    ∀ requests : H256 → Option RedeemRequest, posted (fun _ => redeemPosting) requests x = 0 := by
  refine posted_eq_zero fun r => ?_
  rcases r with _ | r
  · rfl
  · simp [redeemPosting, ite_apply, hv, ha]

theorem posted_replaces_eq_zero (hin : ∀ v, x ≠ .replaceIn v) (hout : ∀ v, x ≠ .replaceOut v)
    (hg : ∀ v, x ≠ .replaceGriefing v) :
    ∀ requests : H256 → Option ReplaceRequest, posted (fun _ => replacePosting) requests x = 0 := by
  refine posted_eq_zero fun r => ?_
  rcases r with _ | r
  · rfl
  · simp [replacePosting, ite_apply, hin, hout, hg]

variable (s : Chain B) (v : VaultId)

theorem balances_issueTokens : balances R s (.issueTokens v) = pendingIssueTokens s v := by
  have hposted : posted (fun _ => issuePosting) _ (.issueTokens v) = pendingIssueTokens s v :=
    posted_requests s.issue.issueRequests issuePosting rfl fun r => by
      by_cases hp : r.status = .pending <;> simp [issuePosting, hp, Pi.single_apply, eq_comm]
  simp [balances, recorded, requested, hposted, posted_redeems_eq_zero, posted_replaces_eq_zero]

theorem balances_redeemTokens : balances R s (.redeemTokens v) = pendingRedeemTokens s v := by
  have hposted : posted (fun _ => redeemPosting) _ (.redeemTokens v) = pendingRedeemTokens s v :=
    posted_requests s.redeem.redeemRequests redeemPosting rfl fun r => by
      by_cases hp : r.status = .pending <;> simp [redeemPosting, hp, Pi.single_apply, eq_comm]
  simp [balances, recorded, requested, hposted, posted_issues_eq_zero, posted_replaces_eq_zero]

theorem balances_replaceIn : balances R s (.replaceIn v) = pendingReplaceIn s v := by
  have hposted : posted (fun _ => replacePosting) _ (.replaceIn v) = pendingReplaceIn s v :=
    posted_requests s.replace.replaceRequests replacePosting rfl fun r => by
      by_cases hp : r.status = .pending <;> simp [replacePosting, hp, Pi.single_apply, eq_comm]
  simp [balances, recorded, requested, hposted, posted_issues_eq_zero, posted_redeems_eq_zero]

theorem balances_replaceOut : balances R s (.replaceOut v) = pendingReplaceOut s v := by
  have hposted : posted (fun _ => replacePosting) _ (.replaceOut v) = pendingReplaceOut s v :=
    posted_requests s.replace.replaceRequests replacePosting rfl fun r => by
      by_cases hp : r.status = .pending <;> simp [replacePosting, hp, Pi.single_apply, eq_comm]
  simp [balances, recorded, requested, hposted, posted_issues_eq_zero, posted_redeems_eq_zero]

end

/-! ## Tokens to be redeemed -/

variable (v : VaultId) (p : VaultCurrencyPair)

section

/-- The tokens to be redeemed of a vault that no pending request promises. -/
def unpromisedRedeem : Posting →+ ℤ :=
  balanceOn (.vault v .toBeRedeemed) - balanceOn (.redeemTokens v) - balanceOn (.replaceOut v)

/-- The tokens to be redeemed of a liquidation vault that no liquidated vault has. -/
noncomputable def unmirrored (σ : VaultId → Option VaultStatus) : Posting →+ ℤ :=
  balanceOn (.system p .toBeRedeemed) -
    ∑ v : VaultId with v.currencies = p ∧ σ v = some .liquidated,
      balanceOn (.vault v .toBeRedeemed)

theorem unpromisedRedeem_apply (δ : Posting) : unpromisedRedeem v δ =
    δ (.vault v .toBeRedeemed) - δ (.redeemTokens v) - δ (.replaceOut v) := rfl

theorem unmirrored_apply (σ : VaultId → Option VaultStatus) (δ : Posting) :
    unmirrored p σ δ = δ (.system p .toBeRedeemed) -
      ∑ v : VaultId with v.currencies = p ∧ σ v = some .liquidated,
        δ (.vault v .toBeRedeemed) := by
  simp [unmirrored]

theorem unpromisedRedeem_relation :
    Relation R W (· = 0) fun _ => unpromisedRedeem v where
  status _ _ _ := rfl
  entry σ δ h := by
    rw [unpromisedRedeem_apply]
    cases h with
    | funds h => cases h <;> simp [backing]
    | _ => simp [toBeIssuedAt, issuedAt, toBeRedeemedOn, eq_ite_iff, ite_apply, Pi.single_apply]
  liquidates σ d b _ _ _ h := by
    rw [map_add, h, unpromisedRedeem_apply, movedTokens]
    simp
  environment σ δ h := by
    rw [unpromisedRedeem_apply]
    simp [h]

/-- If one more vault is liquidated, its tokens are summed as well. -/
theorem sum_liquidated_update {w : VaultId} (hw : σ w ≠ some .liquidated) (p : VaultCurrencyPair)
    (g : VaultId → ℤ) :
    ∑ v : VaultId with v.currencies = p ∧
        update σ w (some .liquidated) v = some .liquidated, g v =
      (∑ v : VaultId with v.currencies = p ∧ σ v = some .liquidated, g v) +
        if w.currencies = p then g w else 0 := by
  by_cases hp : w.currencies = p
  · have hset : (Finset.univ.filter fun v : VaultId => v.currencies = p ∧
        update σ w (some .liquidated) v = some .liquidated) =
        insert w (Finset.univ.filter fun v : VaultId => v.currencies = p ∧
          σ v = some .liquidated) := by
      ext v
      by_cases hv : v = w
      · subst hv
        simp [hp]
      · simp [hv]
    rw [hset, Finset.sum_insert (by simp [hw]), if_pos hp, add_comm]
  · rw [if_neg hp, add_zero]
    refine Finset.sum_congr ?_ fun _ _ => rfl
    ext v
    by_cases hv : v = w
    · subst hv
      simp [hp]
    · simp [hv]

/-- If a liquidated vault becomes active, its tokens are not summed any more. -/
theorem sum_liquidated_recover {w : VaultId} {g : VaultId → ℤ} (hg : g w = 0)
    (p : VaultCurrencyPair) :
    ∑ v : VaultId with v.currencies = p ∧
        update σ w (some (.active true)) v = some .liquidated, g v =
      ∑ v : VaultId with v.currencies = p ∧ σ v = some .liquidated, g v := by
  refine Finset.sum_subset ?_ ?_
  · intro v
    by_cases hv : v = w
    · subst hv
      simp
    · simp [hv]
  · intro v hmem hnot
    by_cases hv : v = w
    · rw [hv, hg]
    · simp [hv] at hmem hnot
      exact absurd hmem.2 (hnot hmem.1)

theorem unmirrored_relation : Relation R W (· = 0) (unmirrored p) where
  status σ σ' h := by
    ext1
    simp only [unmirrored_apply, h]
  entry σ δ h := by
    rw [unmirrored_apply]
    cases h with
    | funds h => cases h <;> simp [backing]
    | redeeming w n | redeemingOut w n =>
      rw [toBeRedeemedOn]
      by_cases hw : σ w = some .liquidated <;> by_cases hp : w.currencies = p <;>
        simp [hw, hp, Pi.single_apply, eq_comm (a := p)]
    | _ => simp [toBeIssuedAt, issuedAt, eq_ite_iff]
  liquidates σ d b hd hitems _ h := by
    rw [unmirrored_apply, sum_liquidated_update hd]
    rw [unmirrored_apply] at h
    have hredeemed := hitems .toBeRedeemed
    simp only [Vault.item] at hredeemed
    by_cases hp : d.id.currencies = p
    · simp [movedTokens, hp, hredeemed]
      omega
    · simp [movedTokens, hp, Ne.symm hp]
      omega
  environment σ δ h := by
    rw [unmirrored_apply]
    simp [h]

end

/-! ## Promised tokens are issued -/

/-- The tokens to be redeemed of active vaults and of liquidation vaults are issued. -/
structure Covered (R : Runtime B) (s : Chain B) : Prop where
  vaults : ∀ v, statusOf s v ≠ some .liquidated → 0 ≤ free v (recorded R s)
  systems : ∀ p, 0 ≤ freeSystem p (recorded R s)

section

variable {s' : Chain B} {T : Set VaultId} {δ : Posting}

/-- Locked funds are no tokens, and a vault that is not liquidated was not liquidated before. -/
theorem Covered.of_funds (hs : Covered R s) (hδ : δ ∈ funds R)
    (hrecorded : recorded R s' = recorded R s + δ)
    (hstatus : ∀ v, statusOf s' v ≠ some .liquidated → statusOf s v ≠ some .liquidated) :
    Covered R s' := by
  refine ⟨fun v hv => ?_, fun p => ?_⟩
  · obtain ⟨hzero, -⟩ := funds_tokens (v := v) (p := v.currencies) hδ
    rw [hrecorded, map_add, hzero, add_zero]
    exact hs.vaults v (hstatus v hv)
  · obtain ⟨-, -, hzero, -⟩ := funds_tokens (v := ⟨R.feePoolAccountId, p⟩) (p := p) hδ
    rw [hrecorded, map_add, hzero, add_zero]
    exact hs.systems p

theorem Covered.of_covers {taken : VaultId → ℤ} (hs : Covered R s)
    (hc : Covers (statusOf s) (recorded R s) δ taken) (h : Moves R T δ s s') : Covered R s' := by
  refine ⟨fun v hv => ?_, fun p => ?_⟩
  · rw [h.status] at hv
    rw [h.balance]
    exact hc.vaults v hv (hs.vaults v hv)
  · rw [h.balance]
    exact hc.systems p (hs.systems p)

theorem Covered.apply (hs : Covered R s) (w : Write) : Covered R (w.apply s) := by
  refine ⟨fun v hv => ?_, fun p => ?_⟩
  · rw [w.recorded_apply]
    rw [statusOf_write] at hv
    exact hs.vaults v hv
  · rw [w.recorded_apply]
    exact hs.systems p

/-- The tokens of an active vault that are moved to the liquidation vault are covered. -/
theorem TokensMoved.covered (h : TokensMoved R d s s') (hs : Covered R s) : Covered R s' := by
  have hactive : statusOf s d.id ≠ some .liquidated := by
    rw [h.stored.statusOf_eq]
    simpa using h.active
  refine ⟨fun v hv => ?_, fun p => ?_⟩
  · rw [h.status] at hv
    have hne : v ≠ d.id := by
      rintro rfl
      simp at hv
    rw [update_of_ne hne] at hv
    have hzero : free v (movedTokens d) = 0 := by simp [free_apply, movedTokens, hne]
    rw [h.posts.balance, map_add, hzero, add_zero]
    exact hs.vaults v hv
  · have hd := hs.vaults d.id hactive
    have hp := hs.systems p
    rw [free_apply, h.stored.recorded_eq, h.stored.recorded_eq] at hd
    simp only [Vault.item] at hd
    rw [h.posts.balance, map_add, freeSystem_apply (movedTokens d), movedTokens]
    by_cases heq : p = d.id.currencies
    · simp [heq] at hp ⊢
      omega
    · simpa [heq] using hp

theorem Transition.covered {taken : VaultId → ℤ} (h : Transition R s taken s')
    (hs : Covered R s) : Covered R s' := by
  cases h with
  | internal _ hc h => exact hs.of_covers hc h
  | settles w _ _ hc h => exact (hs.of_covers hc h).apply w
  | @opens _ _ s₁ w _ _ _ hc h =>
    have hs₁ := hs.of_covers hc h
    have hdrawn : Covered R (drawn s₁) :=
      ⟨by rw [recorded_drawn]; exact hs₁.vaults, by rw [recorded_drawn]; exact hs₁.systems⟩
    exact hdrawn.apply w
  | @activates v a a' _ hv h hstatus =>
    refine hs.of_funds (zero_mem _) h.balance fun w hw => ?_
    by_cases heq : w = v
    · subst heq
      simp [hv]
    · rwa [hstatus, update_of_ne heq] at hw
  | @liquidates T δ d s₁ _ hδ h h' =>
    refine h'.covered ⟨fun v hv => ?_, fun p => ?_⟩
    · obtain ⟨hzero, -⟩ := funds_tokens (v := v) (p := v.currencies) hδ
      rw [h.status] at hv
      rw [h.balance, map_add, map_add, map_neg, Covers.free_toBeReplaced, hzero, neg_zero,
        add_zero, add_zero]
      exact hs.vaults v hv
    · obtain ⟨-, -, hzero, -⟩ := funds_tokens (v := d.id) (p := p) hδ
      rw [h.balance, map_add, map_add, map_neg, Covers.freeSystem_toBeReplaced, hzero, neg_zero,
        add_zero, add_zero]
      exact hs.systems p
  | @refunds v n _ h =>
    refine hs.of_funds (refunded_mem v n) h.balance fun w hw => ?_
    rwa [statusOf_congr h.vaults] at hw

theorem step_covered (hR : R.tokens.Lawful) (hs : Sound s) (hc : Covered R s) {record : Record}
    (h : Step R W s record s') : Covered R s' := by
  cases h with
  | environment h =>
    have hrecorded : ∀ v i, recorded R s' (.vault v i) = recorded R s (.vault v i) := by
      intro v i
      simp only [recorded, h.vaultRegistry]
    have hsystem : ∀ p i, recorded R s' (.system p i) = recorded R s (.system p i) := by
      intro p i
      simp only [recorded, getLiquidationVault, h.vaultRegistry]
    refine ⟨fun v hv => ?_, fun p => ?_⟩
    · rw [environment_status h] at hv
      rw [free_apply, hrecorded, hrecorded]
      exact hc.vaults v hv
    · rw [freeSystem_apply, hsystem, hsystem]
      exact hc.systems p
  | extrinsic hcall =>
    cases dispatch_effect hR hs hcall with
    | transition h => exact h.covered hc
    | @registers a p n _ h =>
      refine hc.of_funds (Holding.backing _ n).mem h.posts.balance fun w hw => ?_
      by_cases heq : w = ⟨a, p⟩
      · subst heq
        simp [h.unregistered]
      · rwa [h.status, update_of_ne heq] at hw
    | @recovers a p _ h =>
      have hrecorded : recorded R s' = recorded R s := by rw [h.posts.balance, add_zero]
      refine ⟨fun w hw => ?_, fun q => ?_⟩
      · rw [hrecorded]
        by_cases heq : w = ⟨a, p⟩
        · -- the vault has no tokens to be redeemed
          subst heq
          rw [free_apply, h.redeemed, sub_zero]
          exact recorded_vault_nonneg s _ _
        · rw [h.status, update_of_ne heq] at hw
          exact hc.vaults w hw
      · rw [hrecorded]
        exact hc.systems q
    | @withdraws a v n index _ h =>
      refine hc.of_funds (δ := -(on (.reserved v.currencies.collateral v.accountId) n +
        on (.closed v) (Staking.scale * n))) (neg_mem (Holding.closed v n).mem)
        (by rw [h.balance, sub_eq_add_neg]) fun w hw => ?_
      rwa [statusOf_congr h.vaults] at hw

end

theorem genesis_covered (h : IsGenesis s) : Covered R s := by
  refine ⟨fun v _ => ?_, fun p => ?_⟩
  · simp [free_apply, recorded, h.vaults]
  · simp [freeSystem_apply, recorded, getLiquidationVault, h.liquidationVaults, SystemVault.new,
      SystemVault.item]

/-- The tokens to be redeemed of a vault are promised by its pending requests. -/
theorem toBeRedeemed_promised (hR : R.tokens.Lawful) {s₀ : Chain B} {records : List Record}
    (hgenesis : IsGenesis s₀) (hrun : Run (Step R W) s₀ records s) (hids : (drawnIds records).Nodup)
    {v : VaultId} (hd : s.vaultRegistry.vaults v = some d) :
    d.toBeRedeemedTokens = pendingRedeemTokens s v + pendingReplaceOut s v := by
  have hzero : valueOf R (fun _ => unpromisedRedeem v) s = 0 := by
    refine (unpromisedRedeem_relation v).holds_of_nodup hR (fun _ _ _ h => h) ?_ hrun hgenesis ?_ hids
    · intro s l s' a p _ _ _ h
      exact h
    · rw [valueOf, balances, genesis_requested hgenesis, add_zero, unpromisedRedeem_apply]
      simp [recorded, hgenesis.vaults]
  rw [valueOf, unpromisedRedeem_apply, balances_vault, balances_redeemTokens,
    balances_replaceOut] at hzero
  simp only [recorded, hd, Option.elim_some, Vault.item] at hzero
  omega

/-- In every state of every run that draws no request identifier twice, the tokens to be redeemed
of a vault are those of its pending requests, those of a liquidation vault are those of the
liquidated vaults of its pair, and the tokens to be redeemed of active vaults and of liquidation
vaults are issued. -/
theorem toBeRedeemedTokens_eq (R : Runtime B) (hR : R.tokens.Lawful) (W : Set CurrencyId)
    (s₀ s : Chain B) (records : List Record) (hgenesis : IsGenesis s₀)
    (hrun : Run (Step R W) s₀ records s) (hids : (drawnIds records).Nodup) :
    (∀ v d, s.vaultRegistry.vaults v = some d →
      d.toBeRedeemedTokens = pendingRedeemTokens s v + pendingReplaceOut s v) ∧
    (∀ p, (getLiquidationVault p s).toBeRedeemedTokens =
      ∑ v : VaultId with v.currencies = p ∧ statusOf s v = some .liquidated,
        (s.vaultRegistry.vaults v).elim 0 Vault.toBeRedeemedTokens) ∧
    (∀ v d, s.vaultRegistry.vaults v = some d → d.status ≠ .liquidated →
      d.toBeRedeemedTokens ≤ d.issuedTokens) ∧
    ∀ p, (getLiquidationVault p s).toBeRedeemedTokens ≤ (getLiquidationVault p s).issuedTokens := by
  have hle : ∀ s l s', Step R W s l s' → Step R W s l s' := fun _ _ _ h => h
  obtain ⟨hs, hcovered⟩ := run_invariant (I := Covered R) hR hle
    (fun s l s' hs hc h => step_covered hR hs hc h) hrun hgenesis (genesis_covered hgenesis)
  refine ⟨fun v d hd => ?_, fun p => ?_, fun v d hd hactive => ?_, fun p => ?_⟩
  · exact toBeRedeemed_promised hR hgenesis hrun hids hd
  · have hzero : valueOf R (unmirrored p) s = 0 := by
      refine (unmirrored_relation p).holds_of_nodup hR hle ?_ hrun hgenesis ?_ hids
      · intro s l s' a q _ _ hrecovers h
        -- the recovered vault has no tokens to be redeemed
        rw [valueOf, unmirrored_apply] at h
        rw [unmirrored_apply, sum_liquidated_recover]
        · exact h
        · rw [balances_vault, hrecovers.redeemed]
      · simp [valueOf, unmirrored_apply, recorded, hgenesis.vaults, getLiquidationVault,
          hgenesis.liquidationVaults, SystemVault.new, SystemVault.item]
    rw [valueOf, unmirrored_apply, sub_eq_zero] at hzero
    simp only [balances_system, balances_vault, recorded, SystemVault.item, Vault.item] at hzero
    have hcast : ∀ v, ((s.vaultRegistry.vaults v).elim 0 fun d => (d.toBeRedeemedTokens : ℤ)) =
        (((s.vaultRegistry.vaults v).elim 0 Vault.toBeRedeemedTokens : ℕ) : ℤ) := by
      intro v
      cases s.vaultRegistry.vaults v <;> rfl
    simp only [hcast] at hzero
    exact_mod_cast hzero
  · have hfree := hcovered.vaults v (by simp [statusOf, hd, hactive])
    simp only [free_apply, recorded, hd, Option.elim_some, Vault.item] at hfree
    omega
  · have hfree := hcovered.systems p
    simp only [freeSystem_apply, recorded, SystemVault.item] at hfree
    omega

/-- The tokens of the redeem request are to be redeemed. -/
theorem toBeRedeemedTokens_eq_redeeming :
    ∃ s d, Run (Step sampleRuntime ∅) sampleGenesis redeeming s ∧
      s.vaultRegistry.vaults (sampleVault 1) = some d ∧ d.toBeRedeemedTokens = 400000 ∧
      d.toBeRedeemedTokens =
        pendingRedeemTokens s (sampleVault 1) + pendingReplaceOut s (sampleVault 1) := by
  obtain ⟨s, hrun, d, hd, hredeemed⟩ : ∃ s,
      Run (Step sampleRuntime ∅) sampleGenesis redeeming s ∧ ∃ d,
        s.vaultRegistry.vaults (sampleVault 1) = some d ∧ d.toBeRedeemedTokens = 400000 :=
    run_of_replay environmentStep_refl (by decide +kernel)
  refine ⟨s, d, hrun, hd, hredeemed, ?_⟩
  exact (toBeRedeemedTokens_eq sampleRuntime sampleRuntime_lawful ∅ sampleGenesis s redeeming
    sampleGenesis_isGenesis hrun (by decide)).1 (sampleVault 1) d hd

/-! ## Tokens to be issued -/

section

/-- The tokens to be issued of a vault, less those of its pending requests unless it is
liquidated. -/
def unpromisedIssue (σ : VaultId → Option VaultStatus) : Posting →+ ℤ :=
  balanceOn (.vault v .toBeIssued) -
    if σ v = some .liquidated then 0 else balanceOn (.issueTokens v) + balanceOn (.replaceIn v)

/-- The tokens to be issued of a liquidation vault and of the vaults of its pair, less those of
the pending requests of these vaults. -/
noncomputable def unpromisedPair : Posting →+ ℤ :=
  balanceOn (.system p .toBeIssued) + ∑ v : VaultId with v.currencies = p,
    (balanceOn (.vault v .toBeIssued) - (balanceOn (.issueTokens v) + balanceOn (.replaceIn v)))

theorem unpromisedIssue_apply (σ : VaultId → Option VaultStatus) (δ : Posting) :
    unpromisedIssue v σ δ = δ (.vault v .toBeIssued) -
      if σ v = some .liquidated then 0 else δ (.issueTokens v) + δ (.replaceIn v) := by
  rw [unpromisedIssue]
  split_ifs <;> rfl

theorem unpromisedPair_apply (δ : Posting) : unpromisedPair p δ =
    δ (.system p .toBeIssued) + ∑ v : VaultId with v.currencies = p,
      (δ (.vault v .toBeIssued) - (δ (.issueTokens v) + δ (.replaceIn v))) := by
  simp [unpromisedPair]

theorem unpromisedIssue_relation :
    Relation R W (· = 0) (unpromisedIssue v) where
  status σ σ' h := by
    ext1
    simp only [unpromisedIssue_apply, h]
  entry σ δ h := by
    rw [unpromisedIssue_apply]
    cases h with
    | funds h => cases h <;> simp [backing]
    | promised w n | promisedIn w n =>
      rw [toBeIssuedAt]
      by_cases hw : w = v <;> split_ifs <;> simp_all
    | _ => simp [issuedAt, toBeRedeemedOn, eq_ite_iff, ite_apply]
  liquidates σ d b _ hitems _ h := by
    rw [unpromisedIssue_apply] at h ⊢
    by_cases hv : v = d.id
    · -- the liquidation vault takes over the tokens to be issued
      subst hv
      have hissued := hitems .toBeIssued
      simp only [Vault.item] at hissued
      simp [movedTokens, hissued]
    · simpa [movedTokens, hv] using h
  environment σ δ h := by
    rw [unpromisedIssue_apply]
    simp [h]

theorem unpromisedPair_relation :
    Relation R W (· = 0) fun _ => unpromisedPair p where
  status _ _ _ := rfl
  entry σ δ h := by
    rw [unpromisedPair_apply]
    cases h with
    | funds h => cases h <;> simp [backing]
    | promised w n | promisedIn w n =>
      rw [toBeIssuedAt]
      split_ifs <;> simp [Pi.single_apply, eq_comm]
    | _ => simp [issuedAt, toBeRedeemedOn, eq_ite_iff, ite_apply]
  liquidates σ d b _ _ _ h := by
    rw [map_add, h, unpromisedPair_apply, movedTokens]
    simp [Pi.single_apply, eq_comm]
  environment σ δ h := by
    rw [unpromisedPair_apply]
    simp [h]

end

/-- A vault is only recovered while no requests to issue tokens with it are pending. -/
def RecoversUnpromised (s : Chain B) (record : Record) : Prop :=
  ∀ a p, record.event = .extrinsic (.signed a) (.vaultRegistry (.recoverVaultId p)) →
    (∀ id r, s.issue.issueRequests id = some r → r.vault = ⟨a, p⟩ → r.status ≠ .pending) ∧
    ∀ id r, s.replace.replaceRequests id = some r → r.newVault = ⟨a, p⟩ → r.status ≠ .pending

/-- The counter that tokens to be issued with a vault are subtracted from. -/
def toBeIssuedCounter (s : Chain B) (d : Vault) : ℕ :=
  if d.status = .liquidated then (getLiquidationVault d.id.currencies s).toBeIssuedTokens
  else d.toBeIssuedTokens

theorem checkedSub_ne_underflow {a b : Amount} (h : b.amount ≤ a.amount) :
    a.checkedSub b ≠ .error DispatchError.underflow := by
  rw [Amount.checkedSub, Amount.checkedFn]
  by_cases hc : a.currencyId = b.currencyId <;>
    simp [ensure, hc, h, okOr, Bind.bind, Except.bind, pure, Except.pure]

theorem fails_vaultDecrease {i : VaultItem} {e : DispatchError}
    (h : Fails (d.decrease i tokens) s e) :
    (⟨d.item i, d.id.wrappedCurrency⟩ : Amount).checkedSub tokens = .error e := by
  simpa [-bind_pure_comp, Vault.decrease, Vault.update, insertVault, fails_bind, fails_liftM,
    fails_modify, fails_pure, except_bind_eq_error] using h

theorem fails_systemDecrease {l : SystemVault} {i : SystemItem} {e : DispatchError}
    (h : Fails (l.decrease i tokens) s e) :
    (⟨l.item i, i.currency l.currencyPair⟩ : Amount).checkedSub tokens = .error e := by
  simpa [-bind_pure_comp, SystemVault.decrease, SystemVault.update, fails_bind, fails_liftM,
    fails_modify, fails_pure, except_bind_eq_error] using h

/-- If its counter suffices, the tokens to be issued are not decreased below zero. -/
theorem decreaseToBeIssued_not_underflow (h : tokens.amount ≤ toBeIssuedCounter s d) :
    ¬ Fails (d.decreaseToBeIssued tokens) s DispatchError.underflow := by
  intro hdecrease
  rw [toBeIssuedCounter] at h
  rw [Vault.decreaseToBeIssued] at hdecrease
  by_cases hliq : d.status = .liquidated
  · rw [if_pos hliq] at h
    rw [if_pos (Vault.isLiquidated_eq_true.mpr hliq), fails_bind] at hdecrease
    rcases hdecrease with hget | ⟨_, _, hget, hdecrease⟩
    · exact fails_get hget
    · obtain ⟨rfl, rfl⟩ := returns_get.mp hget
      rcases fails_bind.mp hdecrease with hsub | ⟨_, _, -, hpure⟩
      · exact checkedSub_ne_underflow h (fails_systemDecrease hsub)
      · exact fails_pure hpure
  · rw [if_neg hliq] at h
    rw [if_neg (by simpa using hliq)] at hdecrease
    exact checkedSub_ne_underflow h (fails_vaultDecrease hdecrease)

/-- The tokens to be issued are those of the pending requests. -/
structure Promised (s : Chain B) : Prop where
  vaults : ∀ v d, s.vaultRegistry.vaults v = some d → d.status ≠ .liquidated →
    d.toBeIssuedTokens = pendingIssueTokens s v + pendingReplaceIn s v
  systems : ∀ p, (getLiquidationVault p s).toBeIssuedTokens =
    ∑ v : VaultId with v.currencies = p ∧ statusOf s v = some .liquidated,
      (pendingIssueTokens s v + pendingReplaceIn s v)

/-- The tokens of a pending request are among the tokens that its vault counts. -/
theorem Promised.le_counter (h : Promised s) (hs : Sound s) {v : VaultId} {n : ℕ}
    (hd : s.vaultRegistry.vaults v = some d)
    (hn : n ≤ pendingIssueTokens s v + pendingReplaceIn s v) : n ≤ toBeIssuedCounter s d := by
  rw [toBeIssuedCounter]
  split_ifs with hliq
  · rw [h.systems, hs.keyed.vaults v d hd]
    refine hn.trans (Finset.single_le_sum
      (f := fun v => pendingIssueTokens s v + pendingReplaceIn s v)
      (fun _ _ => Nat.zero_le _) ?_)
    simp [statusOf, hd, hliq]
  · rw [h.vaults v d hd hliq]
    exact hn

theorem promised_of_values (hvault : ∀ v, valueOf R (unpromisedIssue v) s = 0)
    (hpair : ∀ p, valueOf R (fun _ => unpromisedPair p) s = 0) : Promised s := by
  simp only [valueOf, unpromisedIssue_apply, unpromisedPair_apply, balances_vault,
    balances_system, balances_issueTokens, balances_replaceIn] at hvault hpair
  refine ⟨fun v d hd hactive => ?_, fun p => ?_⟩
  · have hv := hvault v
    simp only [statusOf, recorded, hd, Option.map_some, Option.elim_some, Option.some.injEq,
      hactive, Vault.item, if_false] at hv
    omega
  · -- only the requests of liquidated vaults are missing in the counters of the vaults
    have hterm : ∀ v, recorded R s (.vault v .toBeIssued) -
        ((pendingIssueTokens s v : ℤ) + pendingReplaceIn s v) =
        if statusOf s v = some .liquidated then
          -((pendingIssueTokens s v : ℤ) + pendingReplaceIn s v) else 0 := by
      intro v
      have hv := hvault v
      split_ifs at hv ⊢ <;> linarith
    have hp := hpair p
    simp only [hterm, ← Finset.sum_filter, Finset.filter_filter, Finset.sum_neg_distrib] at hp
    simp only [recorded, SystemVault.item] at hp
    have hsystem := eq_of_sub_eq_zero ((sub_eq_add_neg _ _).trans hp)
    exact_mod_cast hsystem

/-- In every run that draws no request identifier twice and recovers vaults only while no requests
to issue with them are pending, the tokens to be issued of an active vault are those of its pending
requests, and those of a liquidation vault are those of the pending requests of the liquidated
vaults of its pair.  Hence taking the tokens of a pending request off does not underflow. -/
theorem toBeIssuedTokens_eq (R : Runtime B) (hR : R.tokens.Lawful) (W : Set CurrencyId)
    (s₀ s : Chain B) (records : List Record) (hgenesis : IsGenesis s₀)
    (hrun : Run (fun s l s' => Step R W s l s' ∧ RecoversUnpromised s l) s₀ records s)
    (hids : (drawnIds records).Nodup) :
    (∀ v d, s.vaultRegistry.vaults v = some d → d.status ≠ .liquidated →
      d.toBeIssuedTokens = pendingIssueTokens s v + pendingReplaceIn s v) ∧
    (∀ p, (getLiquidationVault p s).toBeIssuedTokens =
      ∑ v : VaultId with v.currencies = p ∧ statusOf s v = some .liquidated,
        (pendingIssueTokens s v + pendingReplaceIn s v)) ∧
    (∀ id r d, s.issue.issueRequests id = some r → r.status = .pending →
      s.vaultRegistry.vaults r.vault = some d → r.amount + r.fee ≤ toBeIssuedCounter s d ∧
      ∀ (t : Chain B) n c, n ≤ r.amount + r.fee → toBeIssuedCounter t d = toBeIssuedCounter s d →
        ¬ Fails (d.decreaseToBeIssued ⟨n, c⟩) t DispatchError.underflow) ∧
    ∀ id r d, s.replace.replaceRequests id = some r → r.status = .pending →
      s.vaultRegistry.vaults r.newVault = some d → r.amount ≤ toBeIssuedCounter s d ∧
      ∀ (t : Chain B) n c, n ≤ r.amount → toBeIssuedCounter t d = toBeIssuedCounter s d →
        ¬ Fails (d.decreaseToBeIssued ⟨n, c⟩) t DispatchError.underflow := by
  have hle : ∀ s l s', Step R W s l s' ∧ RecoversUnpromised s l → Step R W s l s' :=
    fun _ _ _ h => h.1
  have hs := run_sound hR hle hrun hgenesis
  have hpromised : Promised s := by
    refine promised_of_values (R := R) (fun v => ?_) fun p => ?_
    · refine (unpromisedIssue_relation v).holds_of_nodup hR hle ?_ hrun hgenesis ?_ hids
      · rintro s l s' a p ⟨-, hunpromised⟩ hevent hrecovers h
        obtain ⟨hissue, hreplace⟩ := hunpromised a p hevent
        rw [valueOf, unpromisedIssue_apply] at h
        rw [unpromisedIssue_apply]
        by_cases hv : v = ⟨a, p⟩
        · -- nothing is pending with the recovered vault
          subst hv
          rw [if_pos hrecovers.liquidated, sub_zero] at h
          have hissues : pendingIssueTokens s ⟨a, p⟩ = 0 :=
            sum_requests_eq_zero fun id r hr hp => hissue id r hr hp.2 hp.1
          have hreplaces : pendingReplaceIn s ⟨a, p⟩ = 0 :=
            sum_requests_eq_zero fun id r hr hp => hreplace id r hr hp.2 hp.1
          simp [balances_issueTokens, balances_replaceIn, hissues, hreplaces] at h ⊢
          exact h
        · rwa [update_of_ne hv]
      · rw [valueOf, balances, genesis_requested hgenesis, add_zero, unpromisedIssue_apply]
        simp [recorded, hgenesis.vaults]
    · refine (unpromisedPair_relation p).holds_of_nodup hR hle ?_ hrun hgenesis ?_ hids
      · intro s l s' a q _ _ _ h
        exact h
      · rw [valueOf, balances, genesis_requested hgenesis, add_zero, unpromisedPair_apply]
        simp [recorded, hgenesis.vaults, getLiquidationVault, hgenesis.liquidationVaults,
          SystemVault.new, SystemVault.item]
  refine ⟨hpromised.vaults, hpromised.systems, ?_, ?_⟩
  · intro id r d hr hpending hd
    have hcounter := hpromised.le_counter hs hd (le_add_right (le_sum_requests hr ⟨hpending, rfl⟩))
    refine ⟨hcounter, fun t n c hn ht => decreaseToBeIssued_not_underflow ?_⟩
    exact hn.trans (hcounter.trans_eq ht.symm)
  · intro id r d hr hpending hd
    have hcounter := hpromised.le_counter hs hd (le_add_left (le_sum_requests hr ⟨hpending, rfl⟩))
    refine ⟨hcounter, fun t n c hn ht => decreaseToBeIssued_not_underflow ?_⟩
    exact hn.trans (hcounter.trans_eq ht.symm)

def recoversVault (record : Record) : Bool :=
  match record.event with
  | .extrinsic _ (.vaultRegistry (.recoverVaultId _)) => true
  | _ => false

/-- The tokens of the pending request are to be issued. -/
theorem toBeIssuedTokens_eq_requesting :
    ∃ s d, Run (fun s l s' => Step sampleRuntime ∅ s l s' ∧ RecoversUnpromised s l) sampleGenesis
        requesting s ∧
      s.vaultRegistry.vaults (sampleVault 1) = some d ∧ d.toBeIssuedTokens = 100000 ∧
      d.toBeIssuedTokens =
        pendingIssueTokens s (sampleVault 1) + pendingReplaceIn s (sampleVault 1) := by
  obtain ⟨s, hrun, d, hd, hissued, hactive⟩ : ∃ s,
      Run (Step sampleRuntime ∅) sampleGenesis requesting s ∧ ∃ d,
        s.vaultRegistry.vaults (sampleVault 1) = some d ∧ d.toBeIssuedTokens = 100000 ∧
        d.status ≠ .liquidated :=
    run_of_replay environmentStep_refl (by decide +kernel)
  have hnone : ∀ l ∈ requesting, recoversVault l = false := by
    decide
  have hrun' := hrun.and_label (P := RecoversUnpromised) (by
    intro l hl s a p hevent
    have hl := hnone l hl
    simp [recoversVault, hevent] at hl)
  refine ⟨s, d, hrun', hd, hissued, ?_⟩
  exact (toBeIssuedTokens_eq sampleRuntime sampleRuntime_lawful ∅ sampleGenesis s requesting
    sampleGenesis_isGenesis hrun' (by decide)).1 (sampleVault 1) d hd hactive

/-- The vault is liquidated after a drop of the price, and recovered while the request is
pending. -/
def recovering : List Record :=
  requesting ++ liquidating ++ [signed 1 (.vaultRegistry (.recoverVaultId samplePair))]

/-- After the recovery the vault counts no tokens to be issued for its pending request, which can
then not be cancelled. -/
theorem recovery_strands_request :
    ∃ s d r, Run (Step sampleRuntime ∅) sampleGenesis recovering s ∧
      s.vaultRegistry.vaults (sampleVault 1) = some d ∧ d.status = .active true ∧
      s.issue.issueRequests 2 = some r ∧ r.status = .pending ∧ r.vault = sampleVault 1 ∧
      r.amount + r.fee = 100000 ∧ d.toBeIssuedTokens = 0 ∧
      (getLiquidationVault samplePair s).toBeIssuedTokens = 100000 ∧
      Fails (cancelIssue sampleRuntime (.signed ⟨4⟩) 2) s DispatchError.underflow := by
  simp only [exists_and_left]
  exact run_of_replay environmentStep_samplePriceDrop (by decide +kernel)

end Spacewalk.Ledger
