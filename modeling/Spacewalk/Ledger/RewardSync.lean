import Spacewalk.Ledger.CallWrites
import Spacewalk.Ledger.RewardStake

/-!
# The stake for rewards in a run

The calls of the pallets keep the stakes for rewards in step with the collateral and the status of
the vaults (`InSync`), with two exceptions.  A liquidation sets the stake for rewards before it takes
the collateral of nominators and before the vault is liquidated, so a vault that accepted new issue
requests keeps stake for rewards unless its own collateral was all that it had.  And a recovered
vault accepts new issue requests, but gets no stake for rewards for collateral that is left in its
pool.

`reward_stake_follows` says that all vaults are in step in every run without such a call, and
`liquidated_vault_keeps_reward_stake` is a run with one.
-/

namespace Spacewalk.Ledger

open Foundation VaultRegistry Issue Redeem Replace
open Stellar (Bytes)

variable {B : Type} {R : Runtime B} {W : Set CurrencyId} {s s' : Chain B} {u : Unit} {o : Origin}
  {σ : VaultId → Option VaultStatus} {S : Set VaultId} {p : VaultCurrencyPair} {x : ℕ}

/-! ## Calls that leave every status -/

/-- A call of root that sets a value elsewhere. -/
theorem configure_follows {f : Chain B → Chain B} (hf : ∀ s, SameStakes s (f s)) :
    Respects (Preserves (Follows σ S)) (do ensureRoot o; modify f : ChainM B Unit) :=
  .lift fun _ => follows_of (.modify hf)

/-- What is written elsewhere leaves the stakes. -/
theorem modify_follows {f : Chain B → Chain B} (hf : ∀ s, SameStakes s (f s)) :
    Respects (Preserves (Follows σ S)) (modify f : ChainM B Unit) :=
  follows_of (.modify hf)

theorem nomination_follows (call : Nomination.Call) :
    Respects (Preserves (Follows σ S)) (call.dispatch R o) :=
  follows_copies.nominationCall (fun _ _ _ _ => kickNominators_follows)
    (fun _ _ hs => hs.of_same ⟨rfl, rfl, rfl, rfl⟩) call

/-! ### The pallets that keep requests -/

theorem follows_drawing : Drawing R (Preserves (Follows σ S)) :=
  drawing_of (fun _ hs => hs.of_same ⟨rfl, rfl, rfl, rfl⟩)
    (fun _ _ hs => hs.of_same ⟨rfl, rfl, rfl, rfl⟩) fun _ _ hs => hs.of_same ⟨rfl, rfl, rfl, rfl⟩

theorem issue_follows (call : Issue.Call) :
    Respects (Preserves (Follows σ S)) (call.dispatch R o) :=
  follows_steady.issueCall follows_drawing (fun _ => modify_follows fun _ => ⟨rfl, rfl, rfl, rfl⟩) call

theorem redeem_follows (call : Redeem.Call) :
    Respects (Preserves (Follows σ S)) (call.dispatch R o) :=
  follows_steady.redeemCall follows_drawing (fun _ => modify_follows fun _ => ⟨rfl, rfl, rfl, rfl⟩) call

theorem replace_follows (call : Replace.Call) :
    Respects (Preserves (Follows σ S)) (call.dispatch R o) :=
  follows_steady.replaceCall follows_drawing (fun _ => modify_follows fun _ => ⟨rfl, rfl, rfl, rfl⟩) call

/-! ## Liquidation -/

section

open Nomination (SamePools backingStake currentPool_congr poolWithdraw_changes units units_sub
  scale_mul_le_of_le_units)
open Staking (scale scale_pos currentPool)

variable {v : VaultId}

/-- What remains of the vault's own stake. -/
def ownStake (s : Chain B) (v : VaultId) : ℤ :=
  (currentPool s.staking v).remaining scale v.accountId

/-- The collateral of the vault itself is its own stake in whole units. -/
theorem computeCollateral_units {a : Amount} (h : computeCollateral v s = .ok a) :
    a = ⟨units (ownStake s v), v.collateralCurrency⟩ := by
  obtain ⟨x, hx, rfl⟩ := Nomination.computeCollateral_eq_ok.mp h
  simp only [Staking.Api.computeStake, Staking.Api.toBalance, except_bind_eq_ok, except_ite_eq_ok,
    Except.ok.injEq, reduceCtorEq, and_false, or_false] at hx
  obtain ⟨m, hm, -, rfl⟩ := hx
  obtain ⟨-, -, rfl⟩ := Staking.computeStakeAtIndex_eq_ok.mp hm
  have hunits : (max 0 ((ownStake s v).tdiv scale)).toNat = units (ownStake s v) := by
    unfold units
    omega
  exact congrArg (Amount.mk · v.collateralCurrency) hunits

/-- Of a pool without nominators, what is withdrawn first leaves exactly what is withdrawn then. -/
theorem withdrawn_in_two {own backing : ℤ} {rest : ℕ} (hwhole : backing = scale * units own)
    (hrest : rest ≤ units own) (hx : x = min (units own) (units own - rest)) :
    units (own - scale * x) = rest ∧ backing - scale * x = scale * rest := by
  have hx' : x = units own - rest := by
    rw [hx]
    exact min_eq_right (Nat.sub_le _ _)
  constructor
  · rw [units_sub (hx'.trans_le (Nat.sub_le _ _)), hx', Nat.sub_sub_self hrest]
  · rw [hwhole, hx']
    push_cast [hrest]
    ring

/-- What a vault withdraws of its own whole units leaves its stake, and that of its pool. -/
theorem poolWithdraw_own (hx : x ≤ units (ownStake s v))
    (h : Returns (PoolManager.withdrawCollateral R v v.accountId ⟨x, v.collateralCurrency⟩ none)
      s u s') :
    ownStake s' v = ownStake s v - scale * x ∧ backingStake s' v = backingStake s v - scale * x := by
  obtain ⟨-, hpool⟩ := poolWithdraw_changes h
  rw [Option.getD_none, if_pos rfl] at hpool
  have hsettled : ((currentPool s.staking v).settle scale v.accountId).stake v.accountId =
      ownStake s v := by
    simp [ownStake]
  refine ⟨?_, by simp [backingStake, hpool, sub_eq_add_neg]⟩
  rcases Nat.eq_zero_or_pos x with rfl | hpos
  · simp [ownStake, hpool]
  · have hle := scale_mul_le_of_le_units hpos hx
    have hwithdrawn : 0 ≤ scale * (x : ℤ) := mul_nonneg scale_pos.le (Int.natCast_nonneg x)
    rw [ownStake, hpool, LazyPool.remaining_adjust_self scale_pos, LazyPool.remaining_settle,
      ownStake]
    · ring
    · rw [hsettled]
      linarith
    · rw [hsettled]
      linarith
    · exact dvd_mul_right _ _

theorem vaultUpdate_samePools (d : Vault) (f : Vault → Except DispatchError Vault) :
    Respects SamePools (d.update f : ChainM B Vault) :=
  .lift fun _ => .bind (.modify fun _ => ⟨rfl, rfl⟩) fun _ => .pure _

/-- The request to be replaced that a liquidation withdraws leaves the stakes. -/
theorem withdrawReplaceRequest_samePools (v : VaultId) (amount : Amount) :
    Respects SamePools (withdrawReplaceRequest R v amount) := by
  have hunlock (a : Amount) (n : AccountId) : Respects SamePools (a.unlockOn R n) := by
    intro s u s' h
    obtain ⟨-, hstaking⟩ := Nomination.unlockOn_sameStaking a n s u s' h
    exact ⟨by rw [hstaking], by rw [hstaking]⟩
  have hdecrease : Respects SamePools (decreaseToBeReplacedTokens R v amount) := by
    refine .reads fun d => .lift fun _ => .lift fun _ => ?_
    refine .lift fun _ => .lift fun _ => ?_
    exact .bind (vaultUpdate_samePools _ _) fun _ => .pure _
  have htake (d : Vault) (a : Amount) :
      Respects SamePools (d.decreaseAvailableReplaceCollateral a : ChainM B Vault) := by
    unfold Vault.decreaseAvailableReplaceCollateral Vault.decreaseCollateral
    exact vaultUpdate_samePools d _
  refine .bind hdecrease fun used => .bind (.bind ?_ fun _ => .bind ?_ fun _ => .pure _) fun _ =>
    .pure _
  · exact .reads fun d => .bind (htake d _) fun _ => hunlock _ _
  · exact .zoom (fun _ _ => ⟨rfl, rfl⟩) _

variable {d d' : Vault} {amount : Amount}

/-- The collateral that is kept for tokens to be redeemed is withdrawn from the vault's own. -/
theorem slashForToBeRedeemed_own (h : Returns (d.slashForToBeRedeemed R amount) s d' s') :
    d'.id = d.id ∧ ∃ x : ℕ, x = min (units (ownStake s d.id)) amount.amount ∧
      ownStake s' d.id = ownStake s d.id - scale * x ∧
      backingStake s' d.id = backingStake s d.id - scale * x := by
  simp only [Vault.slashForToBeRedeemed, Vault.increaseLiquidatedCollateral,
    Vault.increaseCollateral, returns_steps, Amount.min_eq_ok, returns_vaultUpdate] at h
  obtain ⟨own, hown, x, _, ⟨⟨-, rfl⟩, rfl⟩, _, s₁, hpool, hf, rfl⟩ := h
  obtain rfl := computeCollateral_units hown
  obtain ⟨hown', hbacking⟩ := poolWithdraw_own (min_le_left _ _) hpool
  obtain ⟨_, -, rfl⟩ := except_map_eq_ok.mp hf
  exact ⟨by simp, _, rfl, hown', hbacking⟩

theorem toLiquidationVault_sameStakes (v : VaultId) (amount : Amount) :
    Respects SameStakes (transferFunds R (.liquidatedCollateral v) (.liquidationVault v.currencies)
      amount) := by
  refine .bind (.bind (decreaseTotalBackingCollateral_sameStakes _ _) fun _ =>
    unlockOn_sameStakes _ _) fun _ => .bind (tokens_sameStakes _) fun _ => ?_
  refine .bind (tryIncreaseTotalBackingCollateral_sameStakes _ _) fun _ => .gets fun s => ?_
  exact .bind (systemIncrease_sameStakes _ .collateral _) fun _ => tokens_sameStakes _

/-- The stake for rewards is set when the vault's own collateral is withdrawn; nominated collateral
that is slashed afterwards does not change it. -/
theorem slashToLiquidationVault_rewards {status : VaultStatus} (hstatus : σ d.id = some status)
    (hs : Follows σ S s) (h : Returns (d.slashToLiquidationVault R amount) s u s') :
    Follows σ (S \ {d.id}) s' ∧ ∃ stake, rewardStake s' d.id = rewarded status stake ∧
      (amount = ⟨units (ownStake s d.id), d.id.collateralCurrency⟩ →
        stake.inner = backingStake s d.id - scale * amount.amount) := by
  have hset {s₁ : Chain B} (h : Follows σ (insert d.id S) s₁) :
      rewardStake s₁ d.id = rewarded status (currentStake s₁ d.id) :=
    h.sync d.id (Set.mem_insert _ _) status (by rw [h.status, hstatus])
  simp only [Vault.slashToLiquidationVault, returns_steps] at h
  obtain ⟨own, hown, h⟩ := h
  obtain rfl := computeCollateral_units hown
  split at h
  · next leftover hleftover =>
    simp only [returns_bind, Chain.returns_staking] at h
    obtain ⟨_, s₁, hpool, _, _, ⟨p, hslash, rfl⟩, htransfer⟩ := h
    have hfirst := poolWithdraw_follows hpool hs
    have hsecond : Follows σ (insert d.id S \ {d.id}) { s₁ with staking := p } :=
      ((apiSlashStake_changes hslash).stakesOf (dvd_neg.mpr (dvd_mul_right _ _))).follows hfirst
    have hsame := toLiquidationVault_sameStakes _ _ _ _ _ htransfer
    refine ⟨(hsecond.of_same hsame).mono fun w hw => ⟨.inr hw.1, hw.2⟩, currentStake s₁ d.id, ?_, ?_⟩
    · rw [hsame.rewardStake_eq]
      exact hset hfirst
    · rintro rfl
      exact (poolWithdraw_own le_rfl hpool).2
  · next e hfailed =>
    simp only [returns_bind] at h
    obtain ⟨_, s₁, hpool, htransfer⟩ := h
    have hfirst := poolWithdraw_follows hpool hs
    have hsame := toLiquidationVault_sameStakes _ _ _ _ _ htransfer
    refine ⟨(hfirst.of_same hsame).mono fun w hw => .inr hw.1, currentStake s₁ d.id, ?_, ?_⟩
    · rw [hsame.rewardStake_eq]
      exact hset hfirst
    · -- the own collateral can be subtracted from itself
      rintro rfl
      rw [Amount.checkedSub_eq_ok.mpr ⟨rfl, le_rfl, rfl⟩] at hfailed
      cases hfailed

/-- The vault's own collateral is all that it has, and its tokens use all of it at the liquidation
threshold. -/
def UsesOwnCollateral (R : Runtime B) (v : VaultId) (s : Chain B) : Prop :=
  ∃ d threshold amount, getVaultFromId v s = .ok d ∧
    s.vaultRegistry.liquidationCollateralThreshold v.currencies = some threshold ∧
    computeCollateral v s = .ok amount ∧ getBackingCollateral v s = .ok amount ∧
    d.getUsedCollateral R threshold s = .ok amount

/-- A liquidation leaves a vault with the right stake for rewards, which is none, if it had none
before, or if it takes all collateral of the vault itself and there is no other. -/
theorem liquidate_follows (hs : Follows σ Set.univ s) (hget : getVaultFromId v s = .ok d)
    (huses : d.status = .active true → UsesOwnCollateral R v s)
    (h : Returns (d.liquidate R) s amount s') :
    Follows (Function.update σ v (some .liquidated)) Set.univ s' := by
  have hstored : s.vaultRegistry.vaults v = some d := okOr_eq_ok.mp hget
  obtain rfl : d.id = v := hs.keyed v d hstored
  have hd : Current σ d := by
    rw [Current, ← hs.status, statusOf, hstored, Option.map_some]
  simp only [Vault.liquidate, returns_rules, okOr_eq_ok, Amount.checkedSub_eq_ok,
    Amount.saturatingSub_eq_ok] at h
  obtain ⟨_, _, ⟨rfl, rfl⟩, threshold, _, ⟨hthreshold, rfl⟩, used, _, ⟨hused, rfl⟩, h⟩ := h
  obtain ⟨withdrawn, s₁, hreplace, d₁, _, ⟨hget₁, rfl⟩, tokens, _, ⟨-, rfl⟩, h⟩ := h
  obtain ⟨free, _, ⟨⟨-, -, rfl⟩, rfl⟩, rest, _, ⟨hrest, rfl⟩, kept, _, ⟨⟨hc, rfl⟩, rfl⟩, h⟩ := h
  obtain ⟨d₂, s₂, hkeep, _, s₃, hslash, _, s₄, hmove, -, rfl⟩ := h
  have hfirst := follows_steady.withdrawReplaceRequest _ _ _ _ _ hreplace hs
  obtain ⟨hpools, hnonce⟩ := withdrawReplaceRequest_samePools _ _ _ _ _ hreplace
  have hpool := currentPool_congr hpools hnonce d.id
  have hd₁ : Current σ d₁ := follows_copies (R := R).reads hfirst (okOr_eq_ok.mp hget₁)
  have hid₁ : d₁.id = d.id := hfirst.keyed d.id d₁ (okOr_eq_ok.mp hget₁)
  obtain ⟨hsecond, -⟩ := follows_copies.slashForToBeRedeemed _ (current_free _) hd₁ _ _ _ hfirst hkeep
  obtain ⟨hid₂, x, hx, hown₂, hbacking₂⟩ := slashForToBeRedeemed_own hkeep
  have hown₁ : ownStake s₁ d.id = ownStake s d.id := by rw [ownStake, hpool, ownStake]
  have hbacking₁ : backingStake s₁ d.id = backingStake s d.id := by
    rw [backingStake, hpool, backingStake]
  rw [hid₁] at hid₂ hx hown₂ hbacking₂
  rw [hown₁] at hx hown₂
  rw [hbacking₁] at hbacking₂
  obtain ⟨hthird, stake, hreward, hstake⟩ :=
    slashToLiquidationVault_rewards (by rw [hid₂]; exact hd) hsecond hslash
  obtain ⟨s₅, hsame, rfl⟩ := moveTokensToLiquidationVault_stores hmove
  have hzero : rewarded d.status stake = 0 := by
    by_cases hactive : d.status = .active true
    · have hrest_le : rest.amount ≤ used.amount := calculateCollateral_le hrest (Nat.sub_le _ _)
      obtain ⟨d', threshold', b, hget', hthreshold', hown, hbacking, hused'⟩ := huses hactive
      obtain rfl := ok_unique hget hget'
      obtain rfl := Option.mem_unique hthreshold hthreshold'
      obtain rfl := ok_unique hused hused'
      obtain ⟨hnonneg, hall⟩ := Nomination.getBackingCollateral_eq_ok.mp hbacking
      obtain rfl := computeCollateral_units hown
      have hwhole : backingStake s d.id = scale * units (ownStake s d.id) := by
        rw [(Amount.mk.inj hall).1]
        exact inner_eq_of_truncate (hs.stakes _) hnonneg
      obtain ⟨hunits, hleft⟩ := withdrawn_in_two hwhole hrest_le hx
      rw [← hown₂] at hunits
      rw [← hbacking₂] at hleft
      have hvalue : stake.inner = 0 := by
        rw [hstake, hid₂, hleft, sub_self]
        rw [hid₂, hunits]
        exact congrArg (Amount.mk rest.amount) hc.symm
      rw [rewarded, if_pos hactive]
      exact FixedPoint.ext hvalue
    · rw [rewarded, if_neg hactive]
  rw [← hid₂]
  refine (hthird.of_same hsame).store { d₂ with
    toBeIssuedTokens := 0, issuedTokens := 0, status := .liquidated }
    (fun w _ hne => ⟨trivial, hne⟩) fun _ => ?_
  rw [hsame.rewardStake_eq, hreward, hzero]
  rfl

end

/-! ## The vault registry -/

/-- What a call needs to keep the vaults in step: a vault that accepts new issue requests and is
liquidated uses its own collateral and has no other, and a vault that is recovered has no
collateral. -/
def KeepsRewardStake (R : Runtime B) (s : Chain B) : Event → Prop
  | .extrinsic _ (.vaultRegistry (.reportUndercollateralizedVault v)) =>
    statusOf s v = some (.active true) → UsesOwnCollateral R v s
  | .extrinsic (.signed a) (.vaultRegistry (.recoverVaultId p)) => currentStake s ⟨a, p⟩ = 0
  | _ => True

theorem registerVault_follows {n : ℕ} (hs : Follows σ Set.univ s)
    (h : Returns (registerVault R o p n) s u s') : ∃ σ', Follows σ' Set.univ s' := by
  simp only [registerVault, insertVault, returns_guards] at h
  obtain ⟨a, -, _, -, hdeposit⟩ := h
  have hnew : Follows _ {w | w ≠ ⟨a, p⟩} (withVault (.new ⟨a, p⟩) s) :=
    hs.store (.new ⟨a, p⟩) (fun _ _ _ => trivial) fun hne => absurd rfl hne
  refine ⟨_, (tryDepositCollateral_inserts hdeposit hnew).mono fun w _ => ?_⟩
  exact em (w = ⟨a, p⟩)

theorem acceptNewIssues_follows {accept : Bool} (hs : Follows σ Set.univ s)
    (h : Returns (acceptNewIssues R o p accept) s u s') : ∃ σ', Follows σ' Set.univ s' := by
  simp only [acceptNewIssues, Vault.setAcceptNewIssues, returns_steps, returns_vaultUpdate] at h
  obtain ⟨a, -, d, hget, d', hd', hupdate⟩ := h
  obtain rfl := except_pure_eq_ok.mp hd'
  have hid : d.id = ⟨a, p⟩ := hs.keyed _ d (getActiveVaultFromId_eq_ok.mp hget).1
  have hset : Follows _ {w | w ≠ ⟨a, p⟩} (withVault { d with status := .active accept } s) :=
    hs.store _ (fun _ _ _ => trivial) fun hne => absurd hid hne
  refine ⟨_, (onVaultSettingsChange_follows hupdate hset).mono fun w _ => ?_⟩
  exact em (w = ⟨a, p⟩)

theorem recoverVaultId_follows {a : AccountId} (hs : Follows σ Set.univ s)
    (hnone : currentStake s ⟨a, p⟩ = 0) (h : Returns (recoverVaultId (.signed a) p) s u s') :
    ∃ σ', Follows σ' Set.univ s' := by
  simp only [recoverVaultId, Vault.setAcceptNewIssues, returns_guards, returns_vaultUpdate,
    ensureSigned_eq_ok, Origin.signed.injEq] at h
  obtain ⟨liquidated, hliquidated, rfl, d, hget, -, d', hd', -, rfl⟩ := h
  have hstored : s.vaultRegistry.vaults ⟨a, p⟩ = some d := okOr_eq_ok.mp hget
  have hid : d.id = ⟨a, p⟩ := hs.keyed _ d hstored
  obtain rfl := except_pure_eq_ok.mp hd'
  have hstatus : statusOf s ⟨a, p⟩ = some .liquidated := by
    simp only [isVaultLiquidated, hget, except_rules, Except.ok.injEq,
      exists_eq_left'] at hliquidated
    rw [statusOf, hstored, Option.map_some, of_decide_eq_true hliquidated]
  refine ⟨_, hs.store { d with status := .active true } (fun _ _ _ => trivial) fun _ => ?_⟩
  rw [hid, hs.sync _ trivial _ hstatus, hnone]
  simp [rewarded]

theorem reportUndercollateralizedVault_follows {v : VaultId} (hs : Follows σ Set.univ s)
    (huses : statusOf s v = some (.active true) → UsesOwnCollateral R v s)
    (h : Returns (reportUndercollateralizedVault R v) s u s') : ∃ σ', Follows σ' Set.univ s' := by
  simp only [reportUndercollateralizedVault, liquidateVault, returns_guards] at h
  obtain ⟨_, -, _, -, _, -, -, _, _, ⟨d, hget, _, -, hliquidate⟩, -, rfl⟩ := h
  obtain ⟨hd, -⟩ := getActiveVaultFromId_eq_ok.mp hget
  refine ⟨_, liquidate_follows hs (okOr_eq_ok.mpr hd) (fun hactive => huses ?_) hliquidate⟩
  rw [statusOf, hd, Option.map_some, hactive]

theorem vaultRegistry_follows {call : VaultRegistry.Call} (hs : Follows σ Set.univ s)
    (hkeeps : KeepsRewardStake R s (.extrinsic o (.vaultRegistry call)))
    (h : Returns (call.dispatch R o) s u s') : ∃ σ', Follows σ' Set.univ s' := by
  have hkept {m : ChainM B Unit} (h : Returns m s u s')
      (hm : Respects (Preserves (Follows σ Set.univ)) m) : ∃ σ', Follows σ' Set.univ s' :=
    ⟨σ, hm s u s' h hs⟩
  cases call with
  | registerVault p n => exact registerVault_follows hs h
  | depositCollateral p n => exact hkept h (follows_copies.depositCollateralCall p n)
  | withdrawCollateral p n => exact hkept h (follows_copies.withdrawCollateralCall p n)
  | registerPublicKey k =>
    refine hkept h (.lift fun a => .gets fun s => .lift fun _ => ?_)
    exact modify_follows fun _ => ⟨rfl, rfl, rfl, rfl⟩
  | acceptNewIssues p b => exact acceptNewIssues_follows hs h
  | setCustomSecureThreshold p t =>
    exact hkept h (follows_copies (R := R).setCustomSecureThreshold p t fun _ _ hd => hd)
  | reportUndercollateralizedVault v =>
    exact reportUndercollateralizedVault_follows hs hkeeps h
  | setSecureCollateralThreshold p t =>
    refine hkept h (.lift fun _ => .bind ?_ fun _ => ?_)
    · exact modify_follows fun _ => ⟨rfl, rfl, rfl, rfl⟩
    · refine follows_of fun s u s' hadd => ?_
      obtain ⟨pools, hpools, rfl⟩ := returns_zoom.mp hadd
      obtain ⟨_, rfl⟩ := Staking.addRewardCurrency_returns hpools
      exact ⟨rfl, rfl, rfl, rfl⟩
  | recoverVaultId p =>
    cases o with
    | signed a => exact recoverVaultId_follows hs hkeeps h
    | _ =>
      obtain ⟨_, _, ha, -⟩ := returns_bind.mp h
      cases ensureSigned_eq_ok.mp (returns_liftM.mp ha).1
  | _ => exact hkept h (configure_follows fun _ => ⟨rfl, rfl, rfl, rfl⟩)

/-! ## Runs -/

/-- A step that keeps the vaults in step.  Other pallets do not stake in the reward pools. -/
def SyncStep (R : Runtime B) (W : Set CurrencyId) (s : Chain B) (record : Record) (s' : Chain B) :
    Prop :=
  Step R W s record s' ∧ KeepsRewardStake R s record.event ∧
    (record.event = .environment → s'.pooledRewards.stake = s.pooledRewards.stake)

theorem syncStep_follows {record : Record} (h : SyncStep R W s record s')
    (hs : Follows σ Set.univ s) : ∃ σ', Follows σ' Set.univ s' := by
  obtain ⟨hstep, hkeeps, henvironment⟩ := h
  cases hstep with
  | environment henv =>
    refine ⟨σ, hs.of_same ⟨?_, henv.totalCurrentStake, henv.nonce, henvironment rfl⟩⟩
    rw [henv.vaultRegistry]
  | @extrinsic _ o call hcall =>
    cases call with
    | vaultRegistry call => exact vaultRegistry_follows hs hkeeps hcall
    | nomination call => exact ⟨σ, nomination_follows call _ _ _ hcall hs⟩
    | issue call => exact ⟨σ, issue_follows call _ _ _ hcall hs⟩
    | redeem call => exact ⟨σ, redeem_follows call _ _ _ hcall hs⟩
    | replace call => exact ⟨σ, replace_follows call _ _ _ hcall hs⟩

theorem genesis_follows (h : IsGenesis s) : Follows (statusOf s) Set.univ s where
  status := rfl
  keyed v d hd := by
    rw [h.vaults] at hd
    cases hd
  stakes key := by
    rw [h.staking]
    exact dvd_zero _
  rewards key := by
    rw [h.pooledRewards]
    exact dvd_zero _
  sync v _ status hstatus := by
    rw [statusOf, h.vaults] at hstatus
    cases hstatus

/-- In every run without an exceptional liquidation or recovery, a vault that accepts new issue
requests has its collateral as stake for rewards, and every other vault has none. -/
theorem reward_stake_follows {s₀ : Chain B} {records : List Record} {v : VaultId} {d : Vault}
    (hgenesis : IsGenesis s₀) (hrun : Run (SyncStep R W) s₀ records s)
    (hv : s.vaultRegistry.vaults v = some d) :
    rewardStake s v = if d.status = .active true then currentStake s v else 0 := by
  have hfollows : ∃ σ, Follows σ Set.univ s := by
    refine hrun.invariant (I := fun s => ∃ σ, Follows σ Set.univ s) ?_ ⟨_, genesis_follows hgenesis⟩
    rintro s record s' ⟨σ, hs⟩ h
    exact syncStep_follows h hs
  obtain ⟨σ, hs⟩ := hfollows
  exact hs.sync v trivial d.status (by rw [statusOf, hv, Option.map_some])

/-- The check of a liquidation that keeps the vaults in step. -/
def usesOwnCollateral (R : Runtime B) (v : VaultId) (s : Chain B) : Bool :=
  match getVaultFromId v s, s.vaultRegistry.liquidationCollateralThreshold v.currencies,
    computeCollateral v s with
  | .ok d, some threshold, .ok amount => decide (getBackingCollateral v s = .ok amount ∧
      d.getUsedCollateral R threshold s = .ok amount)
  | _, _, _ => false

theorem usesOwnCollateral_sound {v : VaultId} (h : usesOwnCollateral R v s = true) :
    UsesOwnCollateral R v s := by
  unfold usesOwnCollateral at h
  split at h
  · next d threshold amount hget hthreshold hown =>
    obtain ⟨hbacking, hused⟩ := of_decide_eq_true h
    exact ⟨d, threshold, amount, hget, hthreshold, hown, hbacking, hused⟩
  · cases h

/-- The check of an event that keeps the vaults in step. -/
def keepsRewardStake (R : Runtime B) (s : Chain B) : Event → Bool
  | .extrinsic _ (.vaultRegistry (.reportUndercollateralizedVault v)) => usesOwnCollateral R v s
  | .extrinsic (.signed a) (.vaultRegistry (.recoverVaultId p)) =>
    decide ((currentStake s ⟨a, p⟩).inner = 0)
  | _ => true

theorem keepsRewardStake_sound {event : Event} (h : keepsRewardStake R s event = true) :
    KeepsRewardStake R s event := by
  unfold KeepsRewardStake
  split
  · intro _
    exact usesOwnCollateral_sound h
  · exact FixedPoint.ext (of_decide_eq_true h)
  · trivial

/-- Carry out a step of a run in which the price drops, and go on if it keeps the vaults in step. -/
def executeInSync (s : Chain SampleTokens) (record : Record) : Option (Chain SampleTokens) :=
  if keepsRewardStake sampleRuntime s record.event then execute sampleRuntime samplePriceDrop s record
  else none

theorem syncStep_of_execute (s : Chain SampleTokens) (record : Record) (s' : Chain SampleTokens)
    (h : executeInSync s record = some s') : SyncStep sampleRuntime ∅ s record s' := by
  obtain ⟨hkeeps, hexecute⟩ := Option.ite_none_right_eq_some.mp h
  refine ⟨step_of_execute environmentStep_samplePriceDrop s record s' hexecute,
    keepsRewardStake_sound hkeeps, fun henvironment => ?_⟩
  obtain ⟨event, drawn⟩ := record
  obtain rfl : event = .environment := henvironment
  cases drawn with
  | none =>
    obtain rfl := Option.some.inj hexecute
    rfl
  | some id => cases hexecute

/-- A vault without nominators is liquidated. -/
theorem reward_stake_follows_liquidating :
    ∃ s, Run (SyncStep sampleRuntime ∅) sampleGenesis (issuing ++ liquidating) s ∧
      statusOf s (sampleVault 1) = some .liquidated ∧ rewardStake s (sampleVault 1) = 0 := by
  obtain ⟨s, hrun, d, hd, hliquidated⟩ : ∃ s,
      Run (SyncStep sampleRuntime ∅) sampleGenesis (issuing ++ liquidating) s ∧ ∃ d,
        s.vaultRegistry.vaults (sampleVault 1) = some d ∧ d.status = .liquidated :=
    Run.exists_of_replay syncStep_of_execute (by decide +kernel)
  refine ⟨s, hrun, by simp [statusOf, hd, hliquidated], ?_⟩
  rw [reward_stake_follows sampleGenesis_isGenesis hrun hd, hliquidated]
  rfl

/-- Account 1 registers a vault, account 2 nominates it, and a million tokens are issued with it.
Then it is liquidated. -/
def liquidatingNominated : List Record :=
  [signed 1 (.vaultRegistry (.registerPublicKey ⟨7⟩)),
    signed 1 (.vaultRegistry (.registerVault samplePair 1500000)),
    signed 1 (.nomination (.optInToNomination samplePair)),
    signed 2 (.nomination (.depositCollateral (sampleVault 1) 200000)),
    signedDrawing 4 (.issue (.requestIssue 1000000 (sampleVault 1))) 1,
    signed 4 (.issue (.executeIssue 1 (paymentFor 1 10) [] (paymentFor 1 10)))] ++ liquidating

/-- The liquidation takes the nominated collateral after it has set the stake for rewards. -/
theorem liquidated_vault_keeps_reward_stake :
    ∃ s, Run (Step sampleRuntime ∅) sampleGenesis liquidatingNominated s ∧
      statusOf s (sampleVault 1) = some .liquidated ∧
      (rewardStake s (sampleVault 1)).inner = 200000 * Staking.scale ∧
      (currentStake s (sampleVault 1)).inner = 0 := by
  unfold statusOf
  exact run_of_replay environmentStep_samplePriceDrop (by decide +kernel)

end Spacewalk.Ledger
