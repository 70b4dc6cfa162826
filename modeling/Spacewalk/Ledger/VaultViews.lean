import Spacewalk.Ledger.RewardStake

/-!
# Views of vaults

A view shows a part of the record of every vault.  `Shows f σ` says that the view `f` shows `σ`.  A
function that writes vaults keeps what a view shows if the view does not depend on the counters that
it writes (`shows_copies`).

A view is a `View` if issue requests and settings do not change it.  What the calls of the vault
registry do to such a view is said once (`vaultRegistry_shows`): they leave it, or they register,
liquidate or recover one vault.
-/

namespace Spacewalk.Ledger

open Foundation Function VaultRegistry

variable {B : Type} {R : Runtime B} {s s' : Chain B} {v : VaultId} {o : Origin} {u : Unit}

/-! ## What leaves the vaults -/

def SameVaults (s s' : Chain B) : Prop := s'.vaultRegistry.vaults = s.vaultRegistry.vaults

instance sameVaults_refl : Std.Refl (SameVaults (B := B)) := ⟨fun _ => rfl⟩

instance sameVaults_trans : IsTrans (Chain B) SameVaults := ⟨fun _ _ _ h h' => h'.trans h⟩

theorem sameVaults_of {α : Type} {m : ChainM B α} (h : Respects SameStakes m) :
    Respects SameVaults m :=
  fun s a s' hm => (h s a s' hm).vaults

theorem poolManager_sameVaults (v : VaultId) (m : Staking.PalletM Unit) :
    Respects SameVaults (do
      RewardDistribution.withdrawAllRewardsFromVault R v
      zoom Chain.stakingL m
      PoolManager.updateRewardStake v) := by
  refine .bind (sameVaults_of (withdrawAllRewardsFromVault_sameStakes v)) fun _ => ?_
  exact .bind (.zoom (fun _ _ => rfl) _) fun _ =>
    updateRewardStake_respects (fun _ _ => rfl) v

theorem kickNominators_sameVaults (v : VaultId) :
    Respects SameVaults (PoolManager.kickNominators R v) := by
  refine .bind (sameVaults_of (withdrawAllRewardsFromVault_sameStakes v)) fun _ => ?_
  refine .bind (.zoom (fun _ _ => rfl) _) fun r => ?_
  exact .bind (updateRewardStake_respects (fun _ _ => rfl) v) fun _ => .pure _

theorem onVaultSettingsChange_sameVaults (v : VaultId) :
    Respects SameVaults (PoolManager.onVaultSettingsChange R v) :=
  .bind (sameVaults_of (withdrawAllRewardsFromVault_sameStakes v)) fun _ =>
    updateRewardStake_respects (fun _ _ => rfl) v

/-! ## Liquidation -/

/-- The record of a vault after its liquidation, with some collateral that is kept. -/
def afterLiquidation (d : Vault) (kept : ℕ) : Vault :=
  { d with
    liquidatedCollateral := d.liquidatedCollateral + kept
    toBeIssuedTokens := 0
    issuedTokens := 0
    status := .liquidated }

theorem vaults_withVault (d : Vault) (s : Chain B) :
    (withVault d s).vaultRegistry.vaults = update s.vaultRegistry.vaults d.id (some d) :=
  rfl

theorem slashForToBeRedeemed_vaults {d d' : Vault} {amount : Amount}
    (h : Returns (d.slashForToBeRedeemed R amount) s d' s') :
    ∃ x ≤ amount.amount, d' = { d with liquidatedCollateral := d.liquidatedCollateral + x } ∧
      s'.vaultRegistry.vaults = update s.vaultRegistry.vaults d.id (some d') := by
  simp only [Vault.slashForToBeRedeemed, Vault.increaseLiquidatedCollateral,
    Vault.increaseCollateral, returns_rules, Amount.min_eq_ok, returns_vaultUpdate] at h
  obtain ⟨own, _, ⟨-, rfl⟩, _, _, ⟨⟨-, rfl⟩, rfl⟩, _, s₁, hpool, hd', rfl⟩ := h
  obtain ⟨_, hadd, rfl⟩ := except_map_eq_ok.mp hd'
  simp only [addBalance, except_ite_eq_ok, Except.ok.injEq, reduceCtorEq, and_false,
    or_false] at hadd
  obtain ⟨-, rfl⟩ := hadd
  refine ⟨min own.amount amount.amount, min_le_right _ _, rfl, ?_⟩
  rw [vaults_withVault, show s₁.vaultRegistry.vaults = _ from
    poolManager_sameVaults d.id _ _ _ _ hpool]
  rfl

/-- A liquidation withdraws the replace request and stores the record without tokens.  Collateral is
kept only if there are tokens to be redeemed. -/
theorem liquidate_vaults (hR : R.tokens.Lawful) (hs : Keyed s) {d : Vault} {amount : Amount}
    (h : Returns (d.liquidate R) s amount s') :
    ∃ used s₁ d₁ kept, Returns (withdrawReplaceRequest R d.id d.toBeReplaced) s used s₁ ∧
      s₁.vaultRegistry.vaults d.id = some d₁ ∧ (d₁.toBeRedeemedTokens = 0 → kept = 0) ∧
      s'.vaultRegistry.vaults = update s₁.vaultRegistry.vaults d₁.id
        (some (afterLiquidation d₁ kept)) := by
  simp only [Vault.liquidate, returns_steps] at h
  obtain ⟨_, -, used, -, _, s₁, hreplace, d₁, hget, backed, -, free, hfree, part, hpart, rest, hrest,
    d₂, s₂, hkept, _, s₃, hslash, _, _, hmove, -, rfl⟩ := h
  obtain ⟨-, -, _, -, hfirst⟩ := withdrawReplaceRequest_moves hs hR hreplace
  obtain ⟨-, -, rfl⟩ := Amount.checkedSub_eq_ok.mp hfree
  obtain ⟨-, rfl⟩ := Amount.saturatingSub_eq_ok.mp hrest
  obtain ⟨-, hd₁⟩ := getVaultFromId_stored hfirst.keyed hget
  obtain ⟨kept, hle, hd₂, hvaults⟩ := slashForToBeRedeemed_vaults hkept
  obtain ⟨_, -, hsecond⟩ := slashForToBeRedeemed_updates hfirst.keyed hd₁ hkept
  obtain ⟨_, -, hthird⟩ := slashToLiquidationVault_moves hsecond.moves.keyed hR hslash
  obtain ⟨s₄, hsame, rfl⟩ := moveTokensToLiquidationVault_stores hmove
  refine ⟨_, s₁, d₁, kept, hreplace, okOr_eq_ok.mp hget, fun hzero => ?_, ?_⟩
  · -- the part of all backed tokens is all that is liquidated
    obtain ⟨-, ⟨-, -, heq⟩ | ⟨hbacked, heq⟩⟩ := calculateCollateral_eq_ok hpart
    · simp only [heq] at hle
      omega
    · have hall : (backed.amount - d₁.toBeRedeemed.amount) = backed.amount := by
        simp only [Vault.toBeRedeemed]
        omega
      simp only [hall, Nat.mul_div_cancel _ (Nat.pos_of_ne_zero hbacked)] at heq
      simp only [heq] at hle
      omega
  · rw [vaults_withVault, hsame.vaults, hthird.vaults_eq, hvaults, hd₂]
    exact update_idem _ _ _

/-! ## Views -/

section

variable {α : Type} {f : Vault → α} {σ : VaultId → Option α}

/-- The view shows `σ`. -/
structure Shows (f : Vault → α) (σ : VaultId → Option α) (s : Chain B) : Prop where
  view : ∀ v, (s.vaultRegistry.vaults v).map f = σ v
  keyed : ∀ v d, s.vaultRegistry.vaults v = some d → d.id = v

/-- What the view shows of the vaults. -/
def viewOf (f : Vault → α) (s : Chain B) (v : VaultId) : Option α := (s.vaultRegistry.vaults v).map f

theorem shows_viewOf (f : Vault → α) (hs : Keyed s) : Shows f (viewOf f s) s :=
  ⟨fun _ => rfl, hs.vaults⟩

theorem Shows.viewOf_eq (h : Shows f σ s) : viewOf f s = σ := funext h.view

theorem viewOf_eq_of_respects {β : Type} {m : ChainM B β} {a : β} (hs : Keyed s)
    (hm : Respects (Preserves (Shows f (viewOf f s))) m) (h : Returns m s a s') :
    viewOf f s' = viewOf f s :=
  (hm s a s' h (shows_viewOf f hs)).viewOf_eq

theorem Shows.of_same (h : Shows f σ s) (hsame : SameVaults s s') : Shows f σ s' := by
  refine ⟨fun v => ?_, ?_⟩
  · rw [hsame]
    exact h.view v
  · rw [hsame]
    exact h.keyed

theorem shows_of {β : Type} {m : ChainM B β} (h : Respects SameVaults m) :
    Respects (Preserves (Shows f σ)) m :=
  fun s a s' hm hs => hs.of_same (h s a s' hm)

/-- Storing a vault changes what is shown of it. -/
theorem Shows.store (h : Shows f σ s) (d : Vault) :
    Shows f (update σ d.id (some (f d))) (withVault d s) where
  view w := by
    by_cases hw : w = d.id
    · subst hw
      simp [withVault, Chain.mapVaultRegistry]
    · simp [withVault, Chain.mapVaultRegistry, hw, h.view]
  keyed w e he := by
    rcases update_eq_some.mp he with ⟨rfl, rfl⟩ | ⟨-, he⟩
    · rfl
    · exact h.keyed w e he

theorem shows_copies : Copies R (Shows f σ) (fun d => σ d.id = some (f d)) where
  reads {s v d} hs hd := by
    rw [hs.keyed v d hd, ← hs.view v, hd, Option.map_some]
  stores {s d} hs hd := by
    have hstored := hs.store d
    rwa [← hd, update_eq_self] at hstored
  tokens m := shows_of (sameVaults_of (tokens_sameStakes m))
  unlockOn amount a := shows_of (sameVaults_of (unlockOn_sameStakes amount a))
  burnFrom amount a := shows_of (sameVaults_of (burnFrom_sameStakes amount a))
  distributeRewards amount := shows_of (sameVaults_of (distributeRewards_sameStakes amount))
  system l g := shows_of (sameVaults_of (systemUpdate_sameStakes l g))
  increaseTotal p amount :=
    shows_of (sameVaults_of (tryIncreaseTotalBackingCollateral_sameStakes p amount))
  decreaseTotal p amount :=
    shows_of (sameVaults_of (decreaseTotalBackingCollateral_sameStakes p amount))
  poolDeposit v _ _ := shows_of (poolManager_sameVaults v _)
  poolWithdraw v _ _ _ := shows_of (poolManager_sameVaults v _)
  poolSlash v _ := shows_of (poolManager_sameVaults v _)

theorem shows_drawing : Drawing R (Preserves (Shows f σ)) :=
  drawing_of (fun _ hs => hs.of_same rfl) (fun _ _ hs => hs.of_same rfl) fun _ _ hs => hs.of_same rfl

theorem shows_free {i : VaultItem} (hi : ∀ d n, f (d.setItem i n) = f d) :
    Free (fun d => σ d.id = some (f d)) i := by
  intro d n hd
  rw [Vault.setItem_id, hi]
  exact hd

/-- Issue requests, redeem requests to an active vault and settings do not change the view. -/
structure View (f : Vault → α) : Prop where
  issued (d : Vault) (n : ℕ) : f (d.setItem .issued n) = f d
  toBeIssued (d : Vault) (n : ℕ) : f (d.setItem .toBeIssued n) = f d
  toBeRedeemed (d : Vault) (n : ℕ) : d.status ≠ .liquidated → f (d.setItem .toBeRedeemed n) = f d
  banned (d : Vault) (n : Option ℕ) : f { d with bannedUntil := n } = f d
  threshold (d : Vault) (t : Option UnsignedFixedPoint) :
    f { d with secureCollateralThreshold := t } = f d
  accepts (d : Vault) (b : Bool) : d.status ≠ .liquidated → f { d with status := .active b } = f d

namespace View

variable (hf : View f)

include hf

theorem calm : Calm R (Preserves (Shows f σ)) := by
  refine shows_copies.calm (shows_free hf.issued) (shows_free hf.toBeIssued) ?_ ?_
  · intro d n hactive hd
    rw [Vault.setItem_id, hf.toBeRedeemed d n hactive]
    exact hd
  · intro d n hd
    rw [hf.banned]
    exact hd

theorem replacing (hreplaced : ∀ d n, f (d.setItem .toBeReplaced n) = f d)
    (havailable : ∀ d n, f (d.setItem .replaceCollateral n) = f d)
    (hactive : ∀ d n, f (d.setItem .activeReplaceCollateral n) = f d) :
    Replacing R (Preserves (Shows f σ)) :=
  shows_copies.replacing hf.calm (shows_free hreplaced) ⟨shows_free havailable, shows_free hactive⟩

end View

/-! ## Calls -/

theorem nomination_shows (call : Nomination.Call) :
    Respects (Preserves (Shows f σ)) (call.dispatch R o) :=
  shows_copies.nominationCall (fun v => shows_of (kickNominators_sameVaults v))
    (fun _ _ hs => hs.of_same rfl) call

theorem registerVault_shows {p : VaultCurrencyPair} {n : ℕ} (hs : Shows f σ s)
    (h : Returns (registerVault R o p n) s u s') :
    ∃ a, σ ⟨a, p⟩ = none ∧
      Shows f (update σ ⟨a, p⟩ (some (f (.new ⟨a, p⟩)))) s' := by
  simp only [registerVault, insertVault, returns_guards] at h
  obtain ⟨a, -, _, hregistrable, hdeposit⟩ := h
  refine ⟨a, ?_, ?_⟩
  · simp only [ensureRegistrable, except_rules, vaultExists] at hregistrable
    obtain ⟨_, -, _, -, _, -, _, -, _, -, _, -, _, -, _, -, hexists⟩ := hregistrable
    have hnone : s.vaultRegistry.vaults ⟨a, p⟩ = none := by simpa using hexists
    rw [← hs.view, hnone, Option.map_none]
  · exact shows_copies.depositCollateral _ _ _ _ _ hdeposit (hs.store (.new ⟨a, p⟩))

theorem recoverVaultId_shows {p : VaultCurrencyPair} (hs : Shows f σ s)
    (h : Returns (recoverVaultId o p) s u s') :
    ∃ a d, s.vaultRegistry.vaults ⟨a, p⟩ = some d ∧ d.status = .liquidated ∧
      d.toBeRedeemedTokens = 0 ∧
      Shows f (update σ ⟨a, p⟩ (some (f { d with status := .active true }))) s' := by
  simp only [recoverVaultId, Vault.setAcceptNewIssues, returns_guards, returns_vaultUpdate] at h
  obtain ⟨a, -, liquidated, hliquidated, rfl, d, hget, hzero, d', hd', -, rfl⟩ := h
  have hstored : s.vaultRegistry.vaults ⟨a, p⟩ = some d := okOr_eq_ok.mp hget
  obtain rfl : { d with status := .active true } = d' := except_pure_eq_ok.mp hd'
  refine ⟨a, d, hstored, ?_, ?_, ?_⟩
  · simpa only [isVaultLiquidated, hget, except_rules, Except.ok.injEq, exists_eq_left',
    Vault.isLiquidated_eq_true] using hliquidated
  · exact of_decide_eq_true hzero
  · rw [← hs.keyed _ d hstored]
    exact hs.store { d with status := .active true }

theorem acceptNewIssues_shows (hf : View f) (p : VaultCurrencyPair) (b : Bool) :
    Respects (Preserves (Shows f σ)) (acceptNewIssues R o p b) := by
  refine .lift fun a => .bind_yields (shows_copies (R := R).getActiveVault _) fun d hd => ?_
  refine .bind (shows_copies (R := R).update fun d' hd' => ?_).respects fun _ => ?_
  · obtain rfl := except_pure_eq_ok.mp hd'
    rw [hf.accepts d b hd.2]
    exact hd.1
  · exact shows_of (onVaultSettingsChange_sameVaults _)

/-- A call of the vault registry leaves the view, or it registers, recovers or liquidates a vault. -/
theorem vaultRegistry_shows (hf : View f) {call : VaultRegistry.Call} (hs : Shows f σ s)
    (h : Returns (call.dispatch R o) s u s') :
    Shows f σ s' ∨ (∃ v, σ v = none ∧ Shows f (update σ v (some (f (.new v)))) s') ∨
    (∃ v d, s.vaultRegistry.vaults v = some d ∧ d.status = .liquidated ∧ d.toBeRedeemedTokens = 0 ∧
      Shows f (update σ v (some (f { d with status := .active true }))) s') ∨
    ∃ v, Returns (reportUndercollateralizedVault R v) s u s' := by
  have hkept {m : ChainM B Unit} (h : Returns m s u s') (hm : Respects (Preserves (Shows f σ)) m) :
      Shows f σ s' :=
    hm s u s' h hs
  have hconfigured {g : Chain B → Chain B} (hg : ∀ s, SameVaults s (g s)) :
      Respects (Preserves (Shows f σ)) (do ensureRoot o; modify g : ChainM B Unit) :=
    .lift fun _ => shows_of (.modify hg)
  cases call with
  | registerVault p n =>
    obtain ⟨a, hnew, hshows⟩ := registerVault_shows hs h
    exact .inr (.inl ⟨_, hnew, hshows⟩)
  | depositCollateral p n => exact .inl (hkept h (shows_copies.depositCollateralCall p n))
  | withdrawCollateral p n => exact .inl (hkept h (shows_copies.withdrawCollateralCall p n))
  | registerPublicKey k =>
    refine .inl (hkept h (.lift fun a => .gets fun s => .lift fun _ => ?_))
    exact shows_of (.modify fun _ => rfl)
  | acceptNewIssues p b => exact .inl (hkept h (acceptNewIssues_shows hf p b))
  | setCustomSecureThreshold p t =>
    refine .inl (hkept h (shows_copies (R := R).setCustomSecureThreshold p t fun d t hd => ?_))
    rw [hf.threshold]
    exact hd
  | reportUndercollateralizedVault v => exact .inr (.inr (.inr ⟨v, h⟩))
  | setSecureCollateralThreshold p t =>
    refine .inl (hkept h (.lift fun _ => .bind ?_ fun _ => ?_))
    · exact shows_of (.modify fun _ => rfl)
    · exact shows_of (.zoom (fun _ _ => rfl) _)
  | recoverVaultId p =>
    obtain ⟨a, d, hd, hstatus, hzero, hshows⟩ := recoverVaultId_shows hs h
    exact .inr (.inr (.inl ⟨_, d, hd, hstatus, hzero, hshows⟩))
  | _ => exact .inl (hkept h (hconfigured fun _ => rfl))

end

end Spacewalk.Ledger
