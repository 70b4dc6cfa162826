import Spacewalk.Ledger.Payouts

/-!
# Liquidation redeems

The collateral of a liquidation vault is a pot that belongs to its backed tokens
(`liquidationPot`).  A liquidation redeem burns tokens of the redeemer and pays their proportional
share (`liquidationRedeem_takes`), so that the pot shrinks as in `Foundation.Shares`.

`liquidation_redeems_split` is about a whole list of redeems.  If the vault and the redeemers can
cover them, they all succeed, they are paid no more than one redeem of their sum, and the collateral
per token never decreases.
-/

namespace Spacewalk.Ledger

open Foundation VaultRegistry Redeem Function

variable {B : Type} {R : Runtime B} {s : Chain B}

/-! ## Writing liquidation vaults and totals -/

/-- The state in which a liquidation vault is stored. -/
def withSystem (l : SystemVault) (s : Chain B) : Chain B :=
  Chain.mapVaultRegistry (fun r => { r with
    liquidationVault := update r.liquidationVault l.currencyPair (some l) }) s

/-- The state with another total collateral. -/
def withTotal (p : VaultCurrencyPair) (n : ℕ) (s : Chain B) : Chain B :=
  Chain.mapVaultRegistry (fun r => { r with
    totalUserVaultCollateral := update r.totalUserVaultCollateral p n }) s

theorem returns_systemUpdate {l l' : SystemVault} {f : SystemVault → Except DispatchError SystemVault}
    {s' : Chain B} : Returns (l.update f) s l' s' ↔ f l = .ok l' ∧ withSystem l' s = s' := by
  simp only [SystemVault.update, returns_rules]
  constructor
  · rintro ⟨l', _, ⟨hf, rfl⟩, _, _, rfl, rfl, rfl⟩
    exact ⟨hf, rfl⟩
  · rintro ⟨hf, rfl⟩
    exact ⟨l', s, ⟨hf, rfl⟩, ⟨⟩, _, rfl, rfl, rfl⟩

/-! ## One redeem -/

/-- The collateral of the liquidation vault belongs to the tokens that it backs. -/
def liquidationPot (p : VaultCurrencyPair) (s : Chain B) : Pot :=
  ⟨(getLiquidationVault p s).collateral, backedTokens s p⟩

/-- The liquidation vault has counters that make sense, and its collateral is covered by the reserve
of its account and by the total collateral of its currencies. -/
structure IsFunded (R : Runtime B) (p : VaultCurrencyPair) (s : Chain B) : Prop where
  keyed : Keyed s
  backed : (getLiquidationVault p s).issuedTokens + (getLiquidationVault p s).toBeIssuedTokens <
    balanceBound
  redeemed : (getLiquidationVault p s).toBeRedeemedTokens ≤ (getLiquidationVault p s).issuedTokens
  reserved : (getLiquidationVault p s).collateral ≤
    R.tokens.reservedBalance s.tokens p.collateral R.liquidationVaultAccountId
  total : (getLiquidationVault p s).collateral ≤ s.vaultRegistry.totalUserVaultCollateral p

/-- The liquidation vault after a redeem of `n` tokens for `x` collateral. -/
def redeemedSystem (l : SystemVault) (n x : ℕ) : SystemVault :=
  { l with issuedTokens := l.issuedTokens - n, collateral := l.collateral - x }

/-- The holdings after a redeem: the tokens of the redeemer are burned, and collateral of the
liquidation vault is released and transferred to the redeemer. -/
def redeemedHoldings (R : Runtime B) (p : VaultCurrencyPair) (redeemer : AccountId) (n x : ℕ)
    (h : Holdings AccountId CurrencyId) : Holdings AccountId CurrencyId :=
  (((h.reserve p.wrapped redeemer n).slashReserved p.wrapped redeemer n).unreserve p.collateral
    R.liquidationVaultAccountId x).transfer p.collateral R.liquidationVaultAccountId redeemer x

section

variable {p : VaultCurrencyPair} {account : AccountId} {n x : ℕ} {l : SystemVault}

theorem getLiquidationVault_withSystem (hp : l.currencyPair = p) :
    getLiquidationVault p (withSystem l s) = l := by
  subst hp
  simp [getLiquidationVault, withSystem, Chain.mapVaultRegistry]

theorem decreaseIssued_succeeds (hl : getLiquidationVault p s = l) (hp : l.currencyPair = p)
    (hle : n ≤ l.issuedTokens) :
    Returns ((getLiquidationVault p s).decreaseIssued ⟨n, p.wrapped⟩) s (redeemedSystem l n 0)
      (withSystem (redeemedSystem l n 0) s) := by
  rw [hl, SystemVault.decreaseIssued, SystemVault.decrease, returns_systemUpdate]
  refine ⟨?_, rfl⟩
  simp only [except_rules, Amount.checkedSub_eq_ok]
  exact ⟨_, ⟨congrArg VaultCurrencyPair.wrapped hp, hle, rfl⟩, rfl⟩

theorem redeemableTokens_eq_ok {a : Amount} : l.redeemableTokens = .ok a ↔
    l.toBeRedeemedTokens ≤ l.issuedTokens ∧
      a = ⟨l.issuedTokens - l.toBeRedeemedTokens, l.currencyPair.wrapped⟩ := by
  simp only [SystemVault.redeemableTokens, Amount.checkedSub_eq_ok]
  exact ⟨And.right, fun h => ⟨rfl, h⟩⟩

theorem takeFunds_succeeds (hR : R.tokens.Lawful) (hl : getLiquidationVault p s = l)
    (hp : l.currencyPair = p) (hcollateral : x ≤ l.collateral)
    (htotal : x ≤ s.vaultRegistry.totalUserVaultCollateral p)
    (hreserved : x ≤ R.tokens.reservedBalance s.tokens p.collateral R.liquidationVaultAccountId) :
    ∃ t, Returns (takeFunds R (.liquidationVault p) ⟨x, p.collateral⟩) s ()
        (withTokens t (withTotal p (s.vaultRegistry.totalUserVaultCollateral p - x)
          (withSystem (redeemedSystem l 0 x) s))) ∧
      R.tokens.holdings t =
        (R.tokens.holdings s.tokens).unreserve p.collateral R.liquidationVaultAccountId x := by
  obtain ⟨t, ht, hheld⟩ := unlockOn_succeeds (a := ⟨x, p.collateral⟩)
    (s := withTotal p (s.vaultRegistry.totalUserVaultCollateral p - x)
      (withSystem (redeemedSystem l 0 x) s)) R.liquidationVaultAccountId hR hreserved
  refine ⟨t, ?_, hheld⟩
  simp only [takeFunds, SystemVault.decreaseCollateral, SystemVault.decrease,
    decreaseTotalBackingCollateral, setTotalUserVaultCollateral, returns_rules,
    returns_systemUpdate, except_rules, Amount.checkedSub_eq_ok]
  refine ⟨s, s, ⟨rfl, rfl⟩, redeemedSystem l 0 x, _, ⟨⟨_, ⟨?_, ?_, rfl⟩, ?_⟩, rfl⟩, (), _,
    ⟨_, _, ⟨rfl, rfl⟩, _, _, ⟨⟨rfl, ?_, rfl⟩, rfl⟩, rfl⟩, ht⟩
  · rw [hl]
    exact congrArg VaultCurrencyPair.collateral hp
  · rw [hl]
    exact hcollateral
  · rw [hl]
    rfl
  · exact htotal

/-- The state after the liquidation vault has redeemed `n` tokens for `x` collateral. -/
def redeemedChain (p : VaultCurrencyPair) (n x : ℕ) (t : B) (s : Chain B) : Chain B :=
  let l := getLiquidationVault p s
  withSystem (redeemedSystem l n x) (withTokens t
    (withTotal p (s.vaultRegistry.totalUserVaultCollateral p - x)
      (withSystem (redeemedSystem l 0 x) s)))

/-- The vault pays the share of the tokens, and the ledger carries it out. -/
theorem redeemTokensLiquidation_succeeds (account : AccountId) (hR : R.tokens.Lawful)
    (hC : R.tokens.Covering) (hs : IsFunded R p s) (hn : 0 < n)
    (hle : (getLiquidationVault p s).toBeRedeemedTokens + n ≤
      (getLiquidationVault p s).issuedTokens) :
    ∃ t, Returns (redeemTokensLiquidation R p.collateral account ⟨n, p.wrapped⟩) s ()
        (redeemedChain p n ((liquidationPot p s).share n) t s) ∧
      R.tokens.holdings t = ((R.tokens.holdings s.tokens).unreserve p.collateral
        R.liquidationVaultAccountId ((liquidationPot p s).share n)).transfer p.collateral
          R.liquidationVaultAccountId account ((liquidationPot p s).share n) := by
  have hp := getLiquidationVault_currencyPair hs.keyed p
  have hbound := (getLiquidationVault_stored hs.keyed p).item_lt hs.keyed .collateral
  have hbacked := hs.backed
  have hredeemed := hs.redeemed
  have hweight : n ≤ (liquidationPot p s).weight := by
    simp only [liquidationPot, backedTokens]
    omega
  have hshare : (liquidationPot p s).share n ≤ (getLiquidationVault p s).collateral :=
    (liquidationPot p s).share_le hweight
  obtain ⟨x, hx, -, -⟩ := calculateCollateral_of_le
    ⟨(getLiquidationVault p s).collateral, p.collateral⟩ ⟨n, p.wrapped⟩
    ⟨(liquidationPot p s).weight, (getLiquidationVault p s).currencyPair.wrapped⟩ hbound hweight
  rw [calculateCollateral_eq_share hx (fun hzero => by simp only at hzero; omega)] at hx
  obtain ⟨t₁, htake, hheld₁⟩ := takeFunds_succeeds hR rfl hp hshare (hshare.trans hs.total)
    (hshare.trans hs.reserved)
  have hfree : (liquidationPot p s).share n ≤
      R.tokens.freeBalance t₁ p.collateral R.liquidationVaultAccountId := by
    have hfree := congrFun (congrFun (congrArg Holdings.free hheld₁) p.collateral)
      R.liquidationVaultAccountId
    simp only [MultiCurrency.holdings, Holdings.unreserve, setBalance_apply, and_self,
      if_true] at hfree
    omega
  obtain ⟨t₂, htransfer, hheld₂⟩ := transfer_succeeds
    (a := ⟨(liquidationPot p s).share n, p.collateral⟩)
    (s := withTokens t₁ (withTotal p (s.vaultRegistry.totalUserVaultCollateral p -
      (liquidationPot p s).share n) (withSystem (redeemedSystem (getLiquidationVault p s) 0
        ((liquidationPot p s).share n)) s)))
    R.liquidationVaultAccountId account hR hC hfree
  refine ⟨t₂, ?_, ?_⟩
  · simp only [redeemTokensLiquidation, transferFunds, returns_rules]
    have hsum := hredeemed.trans (Nat.le_add_right _ (getLiquidationVault p s).toBeIssuedTokens)
    refine ⟨s, s, ⟨rfl, rfl⟩, _, s, ⟨redeemableTokens_eq_ok.mpr ⟨hredeemed, rfl⟩, rfl⟩, true, s,
      ⟨?_, rfl⟩, (), s, ⟨ensure_eq_ok.mpr rfl, rfl⟩, _, s, ⟨rfl, rfl⟩, _, s,
      ⟨toBeBackedTokens_eq_ok.mpr ⟨hbacked, hsum, rfl⟩, rfl⟩, _, s, ⟨hx, rfl⟩, (), _,
      ⟨(), _, htake, (), _, htransfer, returns_pure.mpr ⟨rfl, rfl⟩⟩, _, _, ⟨rfl, rfl⟩,
      redeemedSystem (getLiquidationVault p s) n ((liquidationPot p s).share n), _, ?_, trivial, rfl⟩
    · rw [Amount.ge, Amount.compare_eq_ok]
      exact ⟨congrArg VaultCurrencyPair.wrapped hp, (decide_eq_true (Nat.le_sub_of_add_le' hle)).symm⟩
    · -- The copy that is changed now is the one that the transfer has written.
      have hissued : n ≤ (getLiquidationVault p s).issuedTokens := by omega
      have hstored : getLiquidationVault p (withTokens t₂ (withTokens t₁ (withTotal p
          (s.vaultRegistry.totalUserVaultCollateral p - (liquidationPot p s).share n)
            (withSystem (redeemedSystem (getLiquidationVault p s) 0 ((liquidationPot p s).share n))
              s)))) =
          redeemedSystem (getLiquidationVault p s) 0 ((liquidationPot p s).share n) :=
        getLiquidationVault_withSystem (l := redeemedSystem _ 0 _) hp
      exact decreaseIssued_succeeds hstored hp hissued
  · rw [hheld₂]
    exact congrArg (Holdings.transfer · _ _ _ _) hheld₁

/-- A redeemer redeems tokens of the liquidation vault and receives collateral. -/
structure Redemption where
  redeemer : AccountId
  tokens : ℕ
  collateral : ℕ

/-- `liquidation_redeem` succeeds, burns the tokens of the redeemer and pays the collateral. -/
structure Redeems (R : Runtime B) (p : VaultCurrencyPair) (s : Chain B) (r : Redemption)
    (s' : Chain B) : Prop where
  returns : Returns (liquidationRedeem R (.signed r.redeemer) p r.tokens) s () s'
  holdings : R.tokens.holdings s'.tokens =
    redeemedHoldings R p r.redeemer r.tokens r.collateral (R.tokens.holdings s.tokens)

theorem IsFunded.withTokens {t : B} (hs : IsFunded R p s)
    (h : R.tokens.reservedBalance t = R.tokens.reservedBalance s.tokens) :
    IsFunded R p (withTokens t s) where
  keyed := hs.keyed.congr rfl rfl
  backed := hs.backed
  redeemed := hs.redeemed
  reserved := by
    rw [Spacewalk.withTokens, h]
    exact hs.reserved
  total := hs.total

/-- The tokens that an account redeems in a list of redeems. -/
def redeemedBy (account : AccountId) (redeems : List (AccountId × ℕ)) : ℕ :=
  ((redeems.filter fun r => decide (r.1 = account)).map Prod.snd).sum

/-- The liquidation vault and the redeemers can cover a list of redeems. -/
structure CanRedeem (R : Runtime B) (p : VaultCurrencyPair) (redeems : List (AccountId × ℕ))
    (s : Chain B) : Prop extends IsFunded R p s where
  tokens : (getLiquidationVault p s).toBeRedeemedTokens + (redeems.map Prod.snd).sum ≤
    (getLiquidationVault p s).issuedTokens
  held : ∀ account,
    redeemedBy account redeems ≤ R.tokens.freeBalance s.tokens p.wrapped account

theorem liquidationRedeem_succeeds (account : AccountId) (hR : R.tokens.Lawful)
    (hC : R.tokens.Covering) (hs : IsFunded R p s) (hn : 0 < n)
    (hheld : n ≤ R.tokens.freeBalance s.tokens p.wrapped account)
    (hfits : (getLiquidationVault p s).toBeRedeemedTokens + n ≤
      (getLiquidationVault p s).issuedTokens) :
    ∃ t, Redeems R p s ⟨account, n, (liquidationPot p s).share n⟩
      (redeemedChain p n ((liquidationPot p s).share n) t s) := by
  obtain ⟨t₁, hlock, hheld₁⟩ := lockOn_succeeds (s := s) (a := ⟨n, p.wrapped⟩)
    account hR hC hheld
  have hreserved₁ : n ≤ R.tokens.reservedBalance t₁ p.wrapped account := by
    have hreserved := congrFun (congrFun (congrArg Holdings.reserved hheld₁) p.wrapped) account
    simp only [MultiCurrency.holdings, Holdings.reserve, setBalance_apply, and_self,
      if_true] at hreserved
    omega
  obtain ⟨t₂, hburn, hheld₂⟩ := burnFrom_succeeds (s := withTokens t₁ s)
    (a := ⟨n, p.wrapped⟩) account hR hreserved₁
  replace hheld₂ : R.tokens.holdings t₂ = ((R.tokens.holdings s.tokens).reserve p.wrapped account
      n).slashReserved p.wrapped account n := by
    rw [hheld₂]
    exact congrArg (Holdings.slashReserved · _ _ _) hheld₁
  -- Locking and burning leaves the reserves as they were, also those of the liquidation vault.
  have hreserved₂ : R.tokens.reservedBalance t₂ = R.tokens.reservedBalance s.tokens := by
    funext c a
    have hreserved := congrFun (congrFun (congrArg Holdings.reserved hheld₂) c) a
    rw [Holdings.reserved_reserve_slashReserved] at hreserved
    exact hreserved
  obtain ⟨t₃, hredeem, hheld₃⟩ := redeemTokensLiquidation_succeeds account hR hC
    (hs.withTokens hreserved₂) hn hfits
  refine ⟨t₃, ?_, ?_⟩
  · simp only [liquidationRedeem, ensureSigned, returns_rules]
    refine ⟨account, s, ⟨rfl, rfl⟩, s, s, ⟨rfl, rfl⟩, true, s, ⟨?_, rfl⟩, (), s,
      ⟨ensure_eq_ok.mpr rfl, rfl⟩, (), _, hlock, (), _, hburn, hredeem⟩
    rw [Amount.le, Amount.compare_eq_ok]
    exact ⟨rfl, (decide_eq_true hheld).symm⟩
  · refine hheld₃.trans ?_
    exact congrArg (fun h => (Holdings.unreserve h _ _ _).transfer _ _ _ _) hheld₂

theorem redeemedHoldings_reserved (h : Holdings AccountId CurrencyId) :
    (redeemedHoldings R p account n x h).reserved p.collateral R.liquidationVaultAccountId =
      h.reserved p.collateral R.liquidationVaultAccountId - x := by
  simp only [redeemedHoldings, Holdings.transfer, Holdings.unreserve, setBalance_apply, and_self,
    if_true, Holdings.reserved_reserve_slashReserved]

theorem redeemedHoldings_free (h : Holdings AccountId CurrencyId) (b : AccountId) :
    h.free p.wrapped b - (if account = b then n else 0) ≤
      (redeemedHoldings R p account n x h).free p.wrapped b := by
  rw [redeemedHoldings, Holdings.free_unreserve_transfer]
  apply Nat.le_add_right_of_le
  simp only [Holdings.slashReserved, Holdings.reserve, setBalance_apply, true_and]
  by_cases hb : b = account
  · simp [hb]
  · simp [hb]

theorem redeemedBy_cons (b : AccountId) (rest : List (AccountId × ℕ)) :
    redeemedBy b ((account, n) :: rest) = (if account = b then n else 0) + redeemedBy b rest := by
  by_cases hb : account = b <;> simp [redeemedBy, hb]

theorem Redeems.keyed (hR : R.tokens.Lawful) (hs : Keyed s) {r : Redemption} {s' : Chain B}
    (h : Redeems R p s r s') : Keyed s' := by
  have hreturns := h.returns
  simp only [liquidationRedeem, returns_rules] at hreturns
  obtain ⟨redeemer, _, ⟨-, rfl⟩, _, _, ⟨-, rfl⟩, _, _, ⟨-, rfl⟩, _, _, ⟨-, rfl⟩, hreturns⟩ := hreturns
  obtain ⟨_, s₁, hlock, _, s₂, hburn, hredeem⟩ := hreturns
  have h₁ := lockOn_moves hR hs hlock
  have h₂ := burnFrom_moves hR h₁.keyed hburn
  obtain ⟨-, _, -, h₃⟩ := redeemTokensLiquidation_moves hR h₂.keyed hredeem
  exact h₃.keyed

/-- The first redeem of a list that can be covered succeeds, takes its share, and leaves a state in
which the others can be covered. -/
theorem liquidationRedeem_takes (hR : R.tokens.Lawful) (hC : R.tokens.Covering)
    {rest : List (AccountId × ℕ)} (hs : CanRedeem R p ((account, n) :: rest) s) (hn : 0 < n) :
    ∃ x s', Redeems R p s ⟨account, n, x⟩ s' ∧
      Takes (liquidationPot p s) (n, x) (liquidationPot p s') ∧ CanRedeem R p rest s' := by
  have hheld := hs.held account
  rw [redeemedBy_cons, if_pos rfl] at hheld
  have htokens := hs.tokens
  rw [List.map_cons, List.sum_cons] at htokens
  have hfits : (getLiquidationVault p s).toBeRedeemedTokens + n ≤
      (getLiquidationVault p s).issuedTokens := by omega
  have hshare : (liquidationPot p s).share n ≤ (getLiquidationVault p s).collateral := by
    apply (liquidationPot p s).share_le
    simp only [liquidationPot, backedTokens]
    omega
  obtain ⟨t, hredeems⟩ := liquidationRedeem_succeeds account hR hC hs.toIsFunded hn
    (by omega) hfits
  generalize hx : (liquidationPot p s).share n = x at hredeems hshare
  have hvault : getLiquidationVault p (redeemedChain p n x t s) =
      redeemedSystem (getLiquidationVault p s) n x :=
    getLiquidationVault_withSystem (l := redeemedSystem _ n x)
      (getLiquidationVault_currencyPair hs.keyed p)
  refine ⟨x, _, hredeems, ⟨?_, ?_, hx.symm⟩, ⟨⟨?_, ?_, ?_, ?_, ?_⟩, ?_, ?_⟩⟩
  · simp only [liquidationPot, backedTokens, hvault, redeemedSystem]
    omega
  · simp only [liquidationPot, hvault, redeemedSystem]
    omega
  · exact hredeems.keyed hR hs.keyed
  · have hbacked := hs.backed
    simp only [hvault, redeemedSystem]
    omega
  · simp only [hvault, redeemedSystem]
    omega
  · have hreserved := congrFun (congrFun (congrArg Holdings.reserved hredeems.holdings) p.collateral)
      R.liquidationVaultAccountId
    rw [redeemedHoldings_reserved] at hreserved
    rw [hvault]
    exact (Nat.sub_le_sub_right hs.reserved x).trans hreserved.ge
  · rw [hvault]
    have htotal : (redeemedChain p n x t s).vaultRegistry.totalUserVaultCollateral p =
        s.vaultRegistry.totalUserVaultCollateral p - x := update_self ..
    rw [htotal]
    exact Nat.sub_le_sub_right hs.total x
  · simp only [hvault, redeemedSystem]
    omega
  · intro b
    have hfree := congrFun (congrFun (congrArg Holdings.free hredeems.holdings) p.wrapped) b
    have hb := hs.held b
    rw [redeemedBy_cons] at hb
    calc redeemedBy b rest ≤ R.tokens.freeBalance s.tokens p.wrapped b -
          (if account = b then n else 0) := by omega
      _ ≤ (redeemedHoldings R p account n x (R.tokens.holdings s.tokens)).free p.wrapped b :=
        redeemedHoldings_free (R.tokens.holdings s.tokens) b
      _ = R.tokens.freeBalance (redeemedChain p n x t s).tokens p.wrapped b := hfree.symm

end

/-! ## A list of redeems -/

section

variable {p : VaultCurrencyPair} {redeems : List (AccountId × ℕ)}

/-- A redeem takes its share of the collateral and leaves the liquidation vault funded. -/
def SharedRedeem (R : Runtime B) (p : VaultCurrencyPair) (s : Chain B) (r : Redemption)
    (s' : Chain B) : Prop :=
  Redeems R p s r s' ∧ Takes (liquidationPot p s) (r.tokens, r.collateral) (liquidationPot p s') ∧
    IsFunded R p s'

/-- Redeems that can be covered succeed one after another. -/
theorem sharedRedeems_run (hR : R.tokens.Lawful) (hC : R.tokens.Covering)
    (hpos : ∀ r ∈ redeems, 0 < r.2) (hs : CanRedeem R p redeems s) :
    ∃ payments s', payments.map (fun r => (r.redeemer, r.tokens)) = redeems ∧
      Run (SharedRedeem R p) s payments s' := by
  induction redeems generalizing s with
  | nil => exact ⟨[], s, rfl, .nil s⟩
  | cons redeem rest ih =>
    obtain ⟨account, n⟩ := redeem
    obtain ⟨x, s₁, hredeems, htakes, hs₁⟩ :=
      liquidationRedeem_takes hR hC hs (hpos (account, n) List.mem_cons_self)
    obtain ⟨payments, s', hrest, hrun⟩ := ih (fun r hr => hpos r (List.mem_cons_of_mem _ hr)) hs₁
    refine ⟨⟨account, n, x⟩ :: payments, s', ?_, .cons ⟨hredeems, htakes, hs₁.toIsFunded⟩ hrun⟩
    rw [List.map_cons, hrest]

theorem sharedRedeems_takes {payments : List Redemption} {s' : Chain B}
    (h : Run (SharedRedeem R p) s payments s') :
    Run Takes (liquidationPot p s) (payments.map fun r => (r.tokens, r.collateral))
      (liquidationPot p s') :=
  h.simulates (f := liquidationPot p) (g := fun r : Redemption => (r.tokens, r.collateral))
    (I := fun _ => True) (fun _ _ _ _ hstep => ⟨trivial, hstep.2.1⟩) trivial

theorem sharedRedeems_redeems {payments : List Redemption} {s' : Chain B}
    (h : Run (SharedRedeem R p) s payments s') : Run (Redeems R p) s payments s' := by
  have hrun := h.simulates (f := id) (g := id) (I := fun _ => True)
    (fun _ _ _ _ hstep => ⟨trivial, hstep.1⟩) trivial
  rwa [List.map_id] at hrun

/-- Liquidation redeems of a list of amounts, which the liquidation vault and the redeemers cover,
all succeed.  Together they are paid no more than one redeem of the sum.  After each of them the
collateral per backed token is at least what it was at the start. -/
theorem liquidation_redeems_split (hR : R.tokens.Lawful) (hC : R.tokens.Covering) (hs : Keyed s)
    {backed redeemable : Amount} (hbacked : (getLiquidationVault p s).toBeBackedTokens = .ok backed)
    (hpositive : 0 < backed.amount)
    (hredeemable : (getLiquidationVault p s).redeemableTokens = .ok redeemable)
    (hpos : ∀ r ∈ redeems, 0 < r.2)
    (hsum : (redeems.map Prod.snd).sum ≤ min backed.amount redeemable.amount)
    (hheld : ∀ account,
      redeemedBy account redeems ≤ R.tokens.freeBalance s.tokens p.wrapped account)
    (hreserved : (getLiquidationVault p s).collateral ≤
      R.tokens.reservedBalance s.tokens p.collateral R.liquidationVaultAccountId)
    (htotal : (getLiquidationVault p s).collateral ≤ s.vaultRegistry.totalUserVaultCollateral p) :
    ∃ payments s', payments.map (fun r => (r.redeemer, r.tokens)) = redeems ∧
      Run (Redeems R p) s payments s' ∧
      (payments.map Redemption.collateral).sum ≤
        (getLiquidationVault p s).collateral * (redeems.map Prod.snd).sum / backed.amount ∧
      ∀ done rest, payments = done ++ rest → ∃ s₁ left, Run (Redeems R p) s done s₁ ∧
        Run (Redeems R p) s₁ rest s' ∧
        (getLiquidationVault p s₁).toBeBackedTokens = .ok left ∧
        (getLiquidationVault p s).collateral * left.amount ≤
          (getLiquidationVault p s₁).collateral * backed.amount := by
  obtain ⟨hbound, -, rfl⟩ := toBeBackedTokens_eq_ok.mp hbacked
  obtain ⟨hle, rfl⟩ := redeemableTokens_eq_ok.mp hredeemable
  have hfunded : IsFunded R p s := ⟨hs, hbound, hle, hreserved, htotal⟩
  have htokens : (getLiquidationVault p s).toBeRedeemedTokens + (redeems.map Prod.snd).sum ≤
      (getLiquidationVault p s).issuedTokens := by
    simp only at hsum
    omega
  obtain ⟨payments, s', rfl, hrun⟩ := sharedRedeems_run hR hC hpos ⟨hfunded, htokens, hheld⟩
  refine ⟨payments, s', rfl, sharedRedeems_redeems hrun, ?_, ?_⟩
  · have hpaid := (sharedRedeems_takes hrun).pot_paid_le hpositive
    simpa only [List.map_map, Function.comp_def, liquidationPot, Pot.share, backedTokens] using hpaid
  · rintro done rest rfl
    obtain ⟨s₁, hdone, hrest⟩ := Run.append_iff.mp hrun
    have hfunded₁ := hdone.invariant (I := IsFunded R p) (fun _ _ _ _ hstep => hstep.2.2) hfunded
    have hratio := (sharedRedeems_takes hdone).pot_ratio
    exact ⟨s₁, _, sharedRedeems_redeems hdone, sharedRedeems_redeems hrest,
      toBeBackedTokens_eq_ok.mpr
        ⟨hfunded₁.backed, hfunded₁.redeemed.trans (Nat.le_add_right _ _), rfl⟩, hratio⟩

/-- The liquidation vault holds two million for a million tokens.  Account 4 redeems half of them in
two parts and is paid at most a million. -/
theorem liquidation_redeems_split_two :
    ∃ s payments s', Run (Step sampleRuntime ∅) sampleGenesis (issuing ++ liquidating) s ∧
      payments.map (fun r => (r.redeemer, r.tokens)) = [(⟨4⟩, 300000), (⟨4⟩, 200000)] ∧
      Run (Redeems sampleRuntime samplePair) s payments s' ∧
      (payments.map Redemption.collateral).sum ≤ 2000000 * 500000 / 1000000 := by
  obtain ⟨s, hrun, hbacked, hredeemable, hfree, hcollateral, hreserved, htotal⟩ : ∃ s,
      Run (Step sampleRuntime ∅) sampleGenesis (issuing ++ liquidating) s ∧
        (getLiquidationVault samplePair s).toBeBackedTokens = .ok ⟨1000000, sampleWrapped⟩ ∧
        (getLiquidationVault samplePair s).redeemableTokens = .ok ⟨1000000, sampleWrapped⟩ ∧
        500000 ≤ sampleRuntime.tokens.freeBalance s.tokens sampleWrapped ⟨4⟩ ∧
        (getLiquidationVault samplePair s).collateral = 2000000 ∧
        2000000 ≤ sampleRuntime.tokens.reservedBalance s.tokens samplePair.collateral
          sampleRuntime.liquidationVaultAccountId ∧
        2000000 ≤ s.vaultRegistry.totalUserVaultCollateral samplePair :=
    run_of_replay environmentStep_samplePriceDrop (by decide +kernel)
  have hs := hrun.invariant (I := Sound) (fun s l s' hs h => step_sound sampleRuntime_lawful h hs)
    (genesis_sound sampleGenesis_isGenesis)
  have hheld : ∀ account, redeemedBy account [(⟨4⟩, 300000), (⟨4⟩, 200000)] ≤
      sampleRuntime.tokens.freeBalance s.tokens samplePair.wrapped account := by
    intro account
    by_cases haccount : account = ⟨4⟩
    · rw [haccount]
      exact hfree
    · rw [redeemedBy_cons, redeemedBy_cons, if_neg (Ne.symm haccount), if_neg (Ne.symm haccount)]
      exact Nat.zero_le _
  have hpos : ∀ r ∈ ([(⟨4⟩, 300000), (⟨4⟩, 200000)] : List (AccountId × ℕ)), 0 < r.2 := by decide
  obtain ⟨payments, s', hpayments, hredeems, hpaid, -⟩ := liquidation_redeems_split (p := samplePair)
    sampleRuntime_lawful (plainLedger_covering _) hs.keyed hbacked (by decide) hredeemable hpos
    (by decide) hheld (by rw [hcollateral]; exact hreserved) (by rw [hcollateral]; exact htotal)
  rw [hcollateral] at hpaid
  exact ⟨s, payments, s', hrun, hpayments, hredeems, hpaid⟩

end

end Spacewalk.Ledger
