import Spacewalk.Foundation.Shares
import Spacewalk.Ledger.Journal
import Spacewalk.VaultRegistry.Tokens

/-!
# What the token functions post

The functions by which the issue, redeem and replace pallets move the token counters of
vaults.  What they post to the counters is written out; the collateral that they move on the
side is a posting of the journal.
-/

namespace Spacewalk.Ledger

open Foundation VaultRegistry Staking

variable {B : Type} {R : Runtime B} {s s' : Chain B} {v : VaultId} {tokens : Amount} {u : Unit}

/-! ## Counters -/

section

variable (hs : Keyed s)

include hs

/-- A function of a vault that is read from the storage. -/
theorem returns_stored {f : Vault → ChainM B Vault}
    (h : Returns (do
      let d ← read (getVaultFromId v)
      let _ ← f d) s u s') :
    ∃ d d', d.id = v ∧ Stored s d ∧ Returns (f d) s d' s' := by
  simp only [returns_steps] at h
  obtain ⟨d, hget, d', _, h, -, rfl⟩ := h
  obtain ⟨hid, hd⟩ := getVaultFromId_stored hs hget
  exact ⟨d, d', hid, hd, h⟩

theorem tryIncreaseToBeIssuedTokens_moves
    (h : Returns (tryIncreaseToBeIssuedTokens R v tokens) s u s') :
    tokens.currencyId = v.wrappedCurrency ∧
      Moves R {v} (on (toBeIssuedAt (statusOf s) v) tokens.amount) s s' := by
  simp only [tryIncreaseToBeIssuedTokens, returns_guards] at h
  obtain ⟨d, hget, _, -, _, -, -, _, _, h, -, rfl⟩ := h
  obtain ⟨rfl, hd, -⟩ := getActiveVaultFromId_stored hs hget
  obtain ⟨hc, hupdates⟩ := increaseToBeIssued_updates hs hd h
  exact ⟨hc, hupdates.moves⟩

theorem decreaseToBeIssuedTokens_moves (h : Returns (decreaseToBeIssuedTokens v tokens) s u s') :
    Moves R {v} (-on (toBeIssuedAt (statusOf s) v) tokens.amount) s s' := by
  obtain ⟨d, d', rfl, hd, h⟩ := returns_stored hs h
  exact (decreaseToBeIssued_updates hs hd h).2.moves

theorem issueTokens_moves (h : Returns (issueTokens v tokens) s u s') :
    tokens.currencyId = v.wrappedCurrency ∧
      Moves R {v} (on (issuedAt (statusOf s) v) tokens.amount -
        on (toBeIssuedAt (statusOf s) v) tokens.amount) s s' := by
  obtain ⟨d, d', rfl, hd, h⟩ := returns_stored hs h
  exact (executeIssueTokens_updates hs hd h).imp_right Updates.moves

/-- Tokens to be redeemed are added to an active vault as long as its issued tokens cover them. -/
theorem tryIncreaseToBeRedeemedTokens_moves
    (h : Returns (tryIncreaseToBeRedeemedTokens v tokens) s u s') :
    statusOf s v ≠ some .liquidated ∧
      recorded R s (.vault v .toBeRedeemed) + tokens.amount ≤ recorded R s (.vault v .issued) ∧
      Moves R {v} (toBeRedeemedOn (statusOf s) v tokens.amount) s s' := by
  simp only [tryIncreaseToBeRedeemedTokens, returns_guards, Amount.ge, Amount.compare_eq_ok,
    exists_eq_left, decide_eq_true_eq] at h
  obtain ⟨d, hget, redeemable, hredeemable, -, hle, _, _, h, -, rfl⟩ := h
  obtain ⟨rfl, hd, hactive⟩ := getActiveVaultFromId_stored hs hget
  obtain ⟨-, hle', rfl⟩ := Amount.checkedSub_eq_ok.mp hredeemable
  obtain ⟨-, hupdates⟩ := increaseToBeRedeemed_updates hs hd h
  refine ⟨hd.active hactive, ?_, hupdates.moves⟩
  · rw [hd.recorded_eq, hd.recorded_eq]
    simp only [Vault.issued, Vault.toBeRedeemed, Vault.item] at hle hle' ⊢
    omega

theorem decreaseToBeRedeemedTokens_moves
    (h : Returns (decreaseToBeRedeemedTokens v tokens) s u s') :
    tokens.currencyId = v.wrappedCurrency ∧
      Moves R {v} (-toBeRedeemedOn (statusOf s) v tokens.amount) s s' := by
  obtain ⟨d, d', rfl, hd, h⟩ := returns_stored hs h
  exact (decreaseToBeRedeemed_updates hs hd h).imp_right Updates.moves

theorem decreaseTokens_moves (h : Returns (decreaseTokens v tokens) s u s') :
    tokens.currencyId = v.wrappedCurrency ∧
      Moves R {v} (-toBeRedeemedOn (statusOf s) v tokens.amount -
        on (issuedAt (statusOf s) v) tokens.amount) s s' := by
  obtain ⟨d, d', rfl, hd, h⟩ := returns_stored hs h
  exact (executeRedeemTokens_updates hs hd h).imp_right Updates.moves

theorem decreaseLiquidatedCollateral_moves
    (h : Returns (decreaseLiquidatedCollateral v tokens) s u s') :
    Moves R {v} (-on (.vault v .liquidatedCollateral) tokens.amount) s s' := by
  obtain ⟨d, d', rfl, hd, h⟩ := returns_stored hs h
  exact (decreaseCollateral_updates hs hd h).moves

theorem banVault_moves (h : Returns (banVault v) s u s') : Moves R {v} 0 s s' := by
  simp only [banVault, returns_steps] at h
  obtain ⟨d, hget, _, _, h, -, rfl⟩ := h
  obtain ⟨rfl, hd, -⟩ := getActiveVaultFromId_stored hs hget
  obtain ⟨hfunc, -⟩ := update_returns h
  obtain rfl := except_pure_eq_ok.mp hfunc
  refine (update_settings_updates hs hd h rfl rfl ?_).moves
  funext j
  cases j <;> rfl

end

/-! ## Tokens to be replaced -/

variable {collateral part whole x : Amount}

section

theorem calculateCollateral_eq_ok (h : calculateCollateral collateral part whole = .ok x) :
    x.currencyId = collateral.currencyId ∧
      ((part.amount = 0 ∧ whole.amount = 0 ∧ x.amount = collateral.amount) ∨
        (whole.amount ≠ 0 ∧ x.amount = collateral.amount * part.amount / whole.amount)) := by
  unfold calculateCollateral at h
  split at h
  · rename_i hzero
    obtain rfl := except_pure_eq_ok.mp h
    obtain ⟨hpart, hwhole⟩ := hzero
    exact ⟨rfl, .inl ⟨by simpa [Amount.isZero] using hpart, by simpa [Amount.isZero] using hwhole,
      rfl⟩⟩
  · simp only [except_rules, exists_const] at h
    obtain ⟨hwhole, -, rfl⟩ := h
    exact ⟨rfl, .inr ⟨hwhole, rfl⟩⟩

theorem calculateCollateral_currencyId {numerator denominator r : Amount}
    (h : calculateCollateral collateral numerator denominator = .ok r) :
    r.currencyId = collateral.currencyId :=
  (calculateCollateral_eq_ok h).1

/-- A part of the collateral is at most all of it. -/
theorem calculateCollateral_le (h : calculateCollateral collateral part whole = .ok x)
    (hle : part.amount ≤ whole.amount) : x.amount ≤ collateral.amount := by
  obtain ⟨-, ⟨-, -, heq⟩ | ⟨-, heq⟩⟩ := calculateCollateral_eq_ok h
  · exact heq.le
  · rw [heq]
    apply Nat.div_le_of_le_mul
    rw [Nat.mul_comm whole.amount]
    exact Nat.mul_le_mul_left _ hle

/-- A part of a collateral that is a balance is computed without an error, also if the whole is
zero. -/
theorem calculateCollateral_of_le (collateral part whole : Amount)
    (hbound : collateral.amount < balanceBound) (hle : part.amount ≤ whole.amount) :
    ∃ x, calculateCollateral collateral part whole = .ok x ∧ x.amount ≤ collateral.amount ∧
      x.currencyId = collateral.currencyId := by
  unfold calculateCollateral
  by_cases hwhole : whole.amount = 0
  · have hpart : part.amount = 0 := by omega
    refine ⟨collateral, ?_, le_rfl, rfl⟩
    rw [if_pos (by simp [Amount.isZero, hpart, hwhole])]
    rfl
  · have hquotient : collateral.amount * part.amount / whole.amount ≤ collateral.amount := by
      calc collateral.amount * part.amount / whole.amount
          ≤ collateral.amount * whole.amount / whole.amount :=
            Nat.div_le_div_right (Nat.mul_le_mul_left _ hle)
        _ = collateral.amount := Nat.mul_div_cancel _ (Nat.pos_of_ne_zero hwhole)
    refine ⟨⟨collateral.amount * part.amount / whole.amount, collateral.currencyId⟩, ?_, hquotient,
      rfl⟩
    rw [if_neg (by simp [Amount.isZero, hwhole])]
    simp only [except_rules, exists_const]
    exact ⟨hwhole, by omega, trivial⟩

variable (hs : Keyed s)

include hs

/-- Tokens to be replaced are added to an active vault as long as its issued tokens that are not
to be redeemed cover them. -/
theorem tryIncreaseToBeReplacedTokens_moves {total : Amount}
    (h : Returns (tryIncreaseToBeReplacedTokens v tokens) s total s') :
    statusOf s v ≠ some .liquidated ∧
      recorded R s (.vault v .toBeReplaced) + tokens.amount + recorded R s (.vault v .toBeRedeemed) ≤
        recorded R s (.vault v .issued) ∧
      Moves R {v} (on (.vault v .toBeReplaced) tokens.amount) s s' := by
  simp only [tryIncreaseToBeReplacedTokens, returns_guards, Amount.le, Amount.compare_eq_ok,
    exists_eq_left, decide_eq_true_eq] at h
  obtain ⟨d, hget, new, hnew, sum, hsum, -, hle, _, _, h, -, rfl⟩ := h
  obtain ⟨rfl, hd, hactive⟩ := getActiveVaultFromId_stored hs hget
  obtain ⟨-, hbound, rfl⟩ := Amount.checkedAdd_eq_ok.mp hnew
  obtain ⟨-, -, rfl⟩ := Amount.checkedAdd_eq_ok.mp hsum
  refine ⟨hd.active hactive, ?_,
    (setToBeReplacedAmount_updates hs hd hbound h).moves.congr subset_rfl ?_⟩
  · rw [hd.recorded_eq, hd.recorded_eq, hd.recorded_eq]
    simp only [Vault.issued, Vault.toBeRedeemed, Vault.toBeReplaced, Vault.item] at hle ⊢
    omega
  · congr 1
    simp only [Vault.toBeReplaced]
    omega

/-- At most the tokens to be replaced are taken.  The replace collateral that belongs to them is an
amount of the griefing currency. -/
theorem decreaseToBeReplacedTokens_moves {used : Amount × Amount}
    (h : Returns (decreaseToBeReplacedTokens R v tokens) s used s') :
    used.2.currencyId = R.getGriefingCollateralCurrencyId ∧
      (used.1.amount : ℤ) = min (tokens.amount : ℤ) (recorded R s (.vault v .toBeReplaced)) ∧
      Moves R {v} (-on (.vault v .toBeReplaced) used.1.amount) s s' := by
  simp only [decreaseToBeReplacedTokens, returns_steps] at h
  obtain ⟨d, hget, taken, htaken, collateral, hcollateral, _, hmin, left, hleft, _, _, h, rfl, rfl⟩ := h
  obtain ⟨rfl, hd⟩ := getVaultFromId_stored hs hget
  obtain ⟨-, rfl⟩ := Amount.min_eq_ok.mp hmin
  obtain ⟨-, rfl⟩ := Amount.min_eq_ok.mp htaken
  obtain ⟨-, hle, rfl⟩ := Amount.checkedSub_eq_ok.mp hleft
  have hbound : d.toBeReplacedTokens - min tokens.amount d.toBeReplacedTokens < balanceBound :=
    (Nat.sub_le _ _).trans_lt (hs.vaultItems _ _ .toBeReplaced hd)
  refine ⟨calculateCollateral_currencyId hcollateral, ?_,
    (setToBeReplacedAmount_updates hs hd hbound h).moves.congr subset_rfl ?_⟩
  · rw [hd.recorded_eq]
    simp only [Vault.item]
    exact Nat.cast_min _ _
  · rw [← on_neg]
    congr 1
    simp only at hle ⊢
    omega

/-- Collateral for tokens to be replaced is given back to an active vault. -/
theorem releaseAvailable_moves (hR : R.tokens.Lawful) {collateral : Amount} {a : AccountId}
    (hc : collateral.currencyId = R.getGriefingCollateralCurrencyId)
    (h : Returns (transferFunds R (.availableReplaceCollateral v) (.freeBalance a) collateral) s u
      s') :
    statusOf s v ≠ some .liquidated ∧ ∃ δ ∈ funds R, Moves R {v} δ s s' := by
  refine ⟨?_, _, sub_mem (zero_mem _) ?_,
    (transferFunds_moves hR hs h).congr (by simp [touched]) rfl⟩
  · simp only [transferFunds, takeFunds, returns_steps] at h
    obtain ⟨_, _, ⟨d, hget, -⟩, -⟩ := h
    obtain ⟨rfl, hd, hactive⟩ := getActiveVaultFromId_stored hs hget
    exact hd.active hactive
  · rw [held, hc]
    exact (Holding.available v collateral.amount).mem

theorem withdrawReplaceRequest_moves (hR : R.tokens.Lawful) {used : Amount × Amount}
    (h : Returns (withdrawReplaceRequest R v tokens) s used s') :
    statusOf s v ≠ some .liquidated ∧
      (used.1.amount : ℤ) = min (tokens.amount : ℤ) (recorded R s (.vault v .toBeReplaced)) ∧
      ∃ δ ∈ funds R, Moves R {v} (-on (.vault v .toBeReplaced) used.1.amount + δ) s s' := by
  simp only [withdrawReplaceRequest, returns_rules] at h
  obtain ⟨⟨_, collateral⟩, s₁, hdecrease, _, _, htransfer, rfl, rfl⟩ := h
  obtain ⟨hc, hused, hfirst⟩ := decreaseToBeReplacedTokens_moves hs hdecrease
  obtain ⟨hactive, δ, hδ, hsecond⟩ := releaseAvailable_moves hfirst.keyed hR hc htransfer
  rw [hfirst.status] at hactive
  exact ⟨hactive, hused, δ, hδ, (hfirst.trans hsecond).congr (by simp) rfl⟩

end

/-! ## Collateral that is kept for tokens to be redeemed -/

section

/-- The collateral of a vault that is kept for its tokens to be redeemed, and these tokens. -/
def keptPot (s : Chain B) (v : VaultId) : Pot :=
  (s.vaultRegistry.vaults v).elim ⟨0, 0⟩ fun d => ⟨d.liquidatedCollateral, d.toBeRedeemedTokens⟩

theorem Stored.keptPot_eq {d : Vault} (hd : Stored s d) :
    keptPot s d.id = ⟨d.liquidatedCollateral, d.toBeRedeemedTokens⟩ := by
  rw [keptPot, hd]
  rfl

theorem keptPot_congr (h : s'.vaultRegistry.vaults = s.vaultRegistry.vaults) (v : VaultId) :
    keptPot s' v = keptPot s v := by
  rw [keptPot, h, keptPot]

theorem keptPot_amount (R : Runtime B) (s : Chain B) (v : VaultId) :
    ((keptPot s v).amount : ℤ) = recorded R s (.vault v .liquidatedCollateral) := by
  rw [keptPot, recorded]
  cases s.vaultRegistry.vaults v <;> rfl

theorem keptPot_weight (R : Runtime B) (s : Chain B) (v : VaultId) :
    ((keptPot s v).weight : ℤ) = recorded R s (.vault v .toBeRedeemed) := by
  rw [keptPot, recorded]
  cases s.vaultRegistry.vaults v <;> rfl

/-- The part of a collateral is the share in a pot with claims, or in an empty one. -/
theorem calculateCollateral_eq_share (h : calculateCollateral collateral part whole = .ok x)
    (hsettled : (⟨collateral.amount, whole.amount⟩ : Pot).Settled) :
    x = ⟨(⟨collateral.amount, whole.amount⟩ : Pot).share part.amount, collateral.currencyId⟩ := by
  obtain ⟨hc, hamount⟩ := calculateCollateral_eq_ok h
  have hshare : x.amount = (⟨collateral.amount, whole.amount⟩ : Pot).share part.amount := by
    rcases hamount with ⟨-, hwhole, heq⟩ | ⟨-, heq⟩
    · have hempty : collateral.amount = 0 := hsettled hwhole
      rw [heq, Pot.share, hempty, Nat.zero_mul, Nat.zero_div]
    · exact heq
  rw [← hshare, ← hc]

/-- What happens to collateral that is no longer kept: it is paid out, it becomes collateral of the
liquidation vault, or it returns to the pool of the vault. -/
inductive Release where
  | paid
  | confiscated
  | returned
  deriving DecidableEq

/-- What the release of an amount posts. -/
def Release.posting (R : Runtime B) (v : VaultId) (n : ℤ) : Release → Posting
  | .paid => -(on (.total v.currencies) n +
      on (.reserved v.currencies.collateral v.accountId) n + on (.vault v .liquidatedCollateral) n)
  | .confiscated => on (.total v.currencies) n + on (.system v.currencies .collateral) n +
      on (.reserved v.currencies.collateral R.liquidationVaultAccountId) n -
      (on (.total v.currencies) n + on (.reserved v.currencies.collateral v.accountId) n +
        on (.vault v .liquidatedCollateral) n)
  | .returned => on (.stake v) (scale * n) - on (.vault v .liquidatedCollateral) n

theorem Release.posting_mem (release : Release) (v : VaultId) (n : ℤ) :
    release.posting R v n ∈ funds R := by
  cases release with
  | paid => exact neg_mem (released_mem v n)
  | confiscated => exact sub_mem (Holding.liquidation v.currencies n).mem (released_mem v n)
  | returned =>
    convert neg_mem (Holding.kept v n).mem using 1
    rw [posting]
    abel

/-- `φ` is what happens to the collateral of a vault when `n` of its tokens to be redeemed are
settled: a liquidated vault releases their share of what is kept, and an active vault keeps nothing
for them. -/
inductive PaysOut (R : Runtime B) (release : Release) (s : Chain B) (v : VaultId) (n : ℕ) :
    Posting → Prop
  | active {φ : Posting} : statusOf s v ≠ some .liquidated → φ ∈ funds R →
      (∀ w, φ (.vault w .liquidatedCollateral) = 0) → PaysOut R release s v n φ
  | liquidated {x : ℕ} : statusOf s v = some .liquidated →
      ((keptPot s v).Settled → x = (keptPot s v).share n) →
      PaysOut R release s v n (release.posting R v x)

variable {release : Release} {n : ℕ} {φ : Posting}

theorem PaysOut.mem (h : PaysOut R release s v n φ) : φ ∈ funds R := by
  cases h with
  | active _ hmem _ => exact hmem
  | liquidated _ _ => exact release.posting_mem v _

theorem PaysOut.congr (h : PaysOut R release s v n φ) (hstatus : statusOf s v = statusOf s' v)
    (hpot : keptPot s v = keptPot s' v) : PaysOut R release s' v n φ := by
  cases h with
  | active hactive hmem hzero => exact .active (hstatus ▸ hactive) hmem hzero
  | liquidated hliquidated hshare => exact .liquidated (hstatus ▸ hliquidated) (hpot ▸ hshare)

/-- What is paid out after postings to no vault can be said before them. -/
theorem PaysOut.before {δ : Posting} (h : PaysOut R release s' v n φ) (hmoves : Moves R ∅ δ s s') :
    PaysOut R release s v n φ :=
  h.congr (congrFun hmoves.status v) (keptPot_congr hmoves.vaults_eq v)

theorem PaysOut.none (hactive : statusOf s v ≠ some .liquidated) : PaysOut R release s v n 0 :=
  .active hactive (zero_mem _) fun _ => rfl

/-- A posting that is neither to what is kept nor to the tokens to be redeemed leaves the pot. -/
theorem Moves.keptPot_eq {T : Set VaultId} {δ : Posting} (h : Moves R T δ s s')
    (hkept : δ (.vault v .liquidatedCollateral) = 0) (hredeemed : δ (.vault v .toBeRedeemed) = 0) :
    keptPot s' v = keptPot s v := by
  have hamount := keptPot_amount R s' v
  have hweight := keptPot_weight R s' v
  rw [h.balance, Pi.add_apply, hkept, add_zero, ← keptPot_amount] at hamount
  rw [h.balance, Pi.add_apply, hredeemed, add_zero, ← keptPot_weight] at hweight
  rw [Nat.cast_inj] at hamount hweight
  cases hpot : keptPot s' v
  cases hpot' : keptPot s v
  simp_all

/-- The share of a liquidated vault, if its collateral is the same as before. -/
theorem paysOut_share {d : Vault} {tokens collateral x : Amount} (hd : Stored s d)
    (hliquidated : d.status = .liquidated) (hcollateral : collateral.amount = d.liquidatedCollateral)
    (h : calculateCollateral collateral tokens d.toBeRedeemed = .ok x) :
    PaysOut R release s d.id tokens.amount (release.posting R d.id x.amount) := by
  refine .liquidated (by rw [hd.statusOf_eq, hliquidated]) fun hsettled => ?_
  rw [hd.keptPot_eq] at hsettled ⊢
  rw [← hcollateral] at hsettled ⊢
  exact congrArg Amount.amount (calculateCollateral_eq_share h hsettled)

end

/-! ## Redeemed and replaced tokens -/

section

variable (hR : R.tokens.Lawful) (hs : Keyed s)

include hR hs

omit hR in
theorem executeRedeemTokens_kept (R : Runtime B) {d d' : Vault} (hd : Stored s d)
    (h : Returns (d.executeRedeemTokens tokens) s d' s') :
    d'.liquidatedCollateral = d.liquidatedCollateral := by
  obtain ⟨-, hupdates⟩ := executeRedeemTokens_updates (R := R) hs hd h
  have hkept := hupdates.stored.recorded_eq (R := R) .liquidatedCollateral
  rw [hupdates.moves.balance, hupdates.id, Pi.add_apply, hd.recorded_eq] at hkept
  have hzero := (TokensOnly.toBeRedeemedOn (σ := statusOf s) d.id tokens.amount)
    (.vault d.id .liquidatedCollateral) rfl
  have hzero' := (TokensOnly.issuedAt (σ := statusOf s) d.id tokens.amount)
    (.vault d.id .liquidatedCollateral) rfl
  rw [Pi.sub_apply, Pi.neg_apply, hzero, hzero'] at hkept
  simp only [Vault.item] at hkept
  omega

theorem redeemTokens_moves {premium : Amount} {a : AccountId}
    (h : Returns (redeemTokens R v tokens premium a) s u s') :
    tokens.currencyId = v.wrappedCurrency ∧ ∃ φ, PaysOut R .paid s v tokens.amount φ ∧
      Moves R {v} (-toBeRedeemedOn (statusOf s) v tokens.amount -
        on (issuedAt (statusOf s) v) tokens.amount + φ) s s' := by
  simp only [redeemTokens, returns_rules, returns_ite] at h
  obtain ⟨d, _, ⟨hget, rfl⟩, d₁, s₁, hredeem, hrest⟩ := h
  obtain ⟨rfl, hd⟩ := getVaultFromId_stored hs hget
  obtain ⟨hc, hfirst⟩ := executeRedeemTokens_updates (R := R) hs hd hredeem
  refine ⟨hc, ?_⟩
  rcases hrest with ⟨hliquidated, released, _, ⟨hreleased, rfl⟩, _, s₂, htotal, _, s₃, hkept,
    hunlock⟩ | ⟨hactive, h⟩
  · -- the part of the liquidated collateral that belongs to the tokens is released
    have hcurrency : released.currencyId = d.id.currencies.collateral := by
      rw [calculateCollateral_currencyId hreleased, Vault.liquidatedAmount, hfirst.id]
    obtain ⟨-, hsecond⟩ := decreaseTotalBackingCollateral_moves (R := R) hfirst.moves.keyed htotal
    have hthird := decreaseCollateral_updates (R := R) hsecond.keyed
      (hfirst.stored.of_moves hsecond (Set.notMem_empty _)) hkept
    have hfourth := unlockOn_moves hR hthird.moves.keyed hunlock
    refine ⟨_, paysOut_share hd ?_ (executeRedeemTokens_kept hs R hd hredeem) hreleased,
      (((hfirst.moves.trans hsecond).trans hthird.moves).trans hfourth).congr ?_ ?_⟩
    · rw [← hfirst.status]
      exact Vault.isLiquidated_eq_true.mp hliquidated
    · simp [hfirst.id]
    · rw [hfirst.id, hcurrency, Release.posting]
      abel
  · have hactive : statusOf s d.id ≠ some .liquidated := by
      rw [hd.statusOf_eq, ← hfirst.status]
      simpa using hactive
    rcases h with ⟨-, -, rfl⟩ | ⟨-, htransfer⟩
    · exact ⟨0, .none hactive, hfirst.moves.congr subset_rfl (by abel)⟩
    · have hsecond := transferFunds_moves hR hfirst.moves.keyed htransfer
      refine ⟨-backing d.id premium.amount, .active hactive
        (neg_mem (Holding.backing d.id premium.amount).mem) (fun w => by simp [backing]),
        (hfirst.moves.trans hsecond).congr (by simp [touched]) ?_⟩
      simp [held]

/-- Tokens of the liquidation vault are redeemed as long as they are not to be redeemed. -/
theorem redeemTokensLiquidation_moves {c : CurrencyId} {a : AccountId}
    (h : Returns (redeemTokensLiquidation R c a tokens) s u s') :
    recorded R s (.system ⟨c, tokens.currencyId⟩ .toBeRedeemed) + tokens.amount ≤
        recorded R s (.system ⟨c, tokens.currencyId⟩ .issued) ∧ ∃ δ ∈ funds R,
      Moves R ∅ (-on (.system ⟨c, tokens.currencyId⟩ .issued) tokens.amount + δ) s s' := by
  simp only [redeemTokensLiquidation, returns_guards, Amount.ge, Amount.compare_eq_ok,
    exists_eq_left, decide_eq_true_eq] at h
  obtain ⟨redeemable, hredeemable, -, hle, _, -, _, -, released, -, _, s₁, htransfer, _, _, hissued, -,
    rfl⟩ := h
  obtain ⟨-, hle', rfl⟩ := Amount.checkedSub_eq_ok.mp hredeemable
  have hfirst := transferFunds_moves hR hs htransfer
  obtain ⟨-, hsecond⟩ := liquidation_decrease_updates hfirst.keyed hissued
  refine ⟨?_, _, neg_mem (Holding.liquidation ⟨c, tokens.currencyId⟩ released.amount).mem,
    (hfirst.trans hsecond.moves).congr (by simp [touched]) ?_⟩
  · simp only [recorded, SystemVault.item]
    simp only [SystemVault.issued, SystemVault.toBeRedeemed] at hle hle'
    omega
  · simp only [held]
    abel

variable {d d' : Vault}

omit hR in
theorem depositLiquidated_updates (hd : Stored s d)
    (h : Returns (d.depositLiquidated R d.id tokens) s d' s') :
    ∃ φ, PaysOut R .returned s d.id tokens.amount φ ∧ Updates R φ d d' s s' := by
  simp only [Vault.depositLiquidated, returns_ite, returns_rules] at h
  rcases h with ⟨hliquidated, released, _, ⟨hreleased, rfl⟩, d₁, s₁, hkept, _, _, hdeposit, rfl,
    rfl⟩ | ⟨hactive, rfl, rfl⟩
  swap
  · exact ⟨0, .none (hd.active (by simpa using hactive)), .refl hs hd⟩
  have hfirst := decreaseCollateral_updates (R := R) hs hd hkept
  obtain ⟨hsecond, -⟩ := poolDeposit_moves hfirst.moves.keyed hdeposit
  refine ⟨_, paysOut_share hd (Vault.isLiquidated_eq_true.mp hliquidated) rfl hreleased, ?_, ?_,
    hfirst.id, hfirst.status⟩
  · refine (hfirst.moves.trans hsecond).congr (by simp) ?_
    rw [Release.posting]
    abel
  · exact hfirst.stored.of_moves hsecond (Set.notMem_empty _)

theorem transferLiquidated_updates (hd : Stored s d)
    (h : Returns (d.transferLiquidated R d.id tokens) s d' s') :
    ∃ φ, PaysOut R .confiscated s d.id tokens.amount φ ∧ Updates R φ d d' s s' := by
  simp only [Vault.transferLiquidated, returns_ite, returns_rules] at h
  rcases h with ⟨hliquidated, released, _, ⟨hreleased, rfl⟩, d₁, s₁, hkept, _, _, htransfer, rfl,
    rfl⟩ | ⟨hactive, rfl, rfl⟩
  swap
  · exact ⟨0, .none (hd.active (by simpa using hactive)), .refl hs hd⟩
  have hfirst := decreaseCollateral_updates (R := R) hs hd hkept
  have hsecond := transferFunds_moves hR hfirst.moves.keyed htransfer
  refine ⟨_, paysOut_share hd (Vault.isLiquidated_eq_true.mp hliquidated) rfl hreleased, ?_, ?_,
    hfirst.id, hfirst.status⟩
  · refine (hfirst.moves.trans hsecond).congr (by simp [touched]) ?_
    simp only [held, Release.posting]
    abel
  · exact hfirst.stored.of_moves hsecond (by simp [touched])

variable {w : VaultId}

omit hR in
/-- The tokens of the old vault become tokens of the new vault.  The copies of both vaults are
read first, so the two must differ. -/
theorem replaceTokens_moves (hne : v ≠ w) (h : Returns (replaceTokens R v w tokens) s u s') :
    tokens.currencyId = w.wrappedCurrency ∧ ∃ φ, PaysOut R .returned s v tokens.amount φ ∧
      Moves R {v, w} (-toBeRedeemedOn (statusOf s) v tokens.amount -
        on (issuedAt (statusOf s) v) tokens.amount + (on (issuedAt (statusOf s) w) tokens.amount -
          on (toBeIssuedAt (statusOf s) w) tokens.amount) + φ) s s' := by
  simp only [replaceTokens, returns_steps] at h
  obtain ⟨d, hget, e, hget', d₁, s₁, hsettle, d₂, s₂, hredeem, e₁, _, hissue, -, rfl⟩ := h
  obtain ⟨rfl, hd⟩ := getVaultFromId_stored hs hget
  obtain ⟨rfl, he⟩ := getVaultFromId_stored hs hget'
  obtain ⟨δ, hδ, hfirst⟩ := depositLiquidated_updates hs hd hsettle
  obtain ⟨-, hsecond⟩ := executeRedeemTokens_updates hfirst.moves.keyed hfirst.stored hredeem
  rw [hfirst.moves.status, hfirst.id] at hsecond
  have hmoved := hfirst.trans hsecond
  have he₂ : Stored s₂ e := he.of_moves hmoved.moves (by simpa using hne.symm)
  obtain ⟨hc, hthird⟩ := executeIssueTokens_updates hmoved.moves.keyed he₂ hissue
  rw [hmoved.moves.status] at hthird
  refine ⟨hc, δ, hδ, (hmoved.moves.trans hthird.moves).congr ?_ ?_⟩
  · rw [Set.singleton_union]
  · abel

/-- The promises of both vaults are taken back. -/
theorem cancelReplaceTokens_moves (hne : v ≠ w)
    (h : Returns (cancelReplaceTokens R v w tokens) s u s') :
    ∃ φ, PaysOut R .confiscated s v tokens.amount φ ∧
      Moves R {v, w} (-toBeRedeemedOn (statusOf s) v tokens.amount -
        on (toBeIssuedAt (statusOf s) w) tokens.amount + φ) s s' := by
  simp only [cancelReplaceTokens, returns_steps] at h
  obtain ⟨d, hget, e, hget', d₁, s₁, hsettle, d₂, s₂, hredeem, e₁, _, hissue, -, rfl⟩ := h
  obtain ⟨rfl, hd⟩ := getVaultFromId_stored hs hget
  obtain ⟨rfl, he⟩ := getVaultFromId_stored hs hget'
  obtain ⟨δ, hδ, hfirst⟩ := transferLiquidated_updates hR hs hd hsettle
  obtain ⟨-, hsecond⟩ := decreaseToBeRedeemed_updates hfirst.moves.keyed hfirst.stored
    hredeem
  rw [hfirst.moves.status, hfirst.id] at hsecond
  have hmoved := hfirst.trans hsecond
  have he₂ : Stored s₂ e := he.of_moves hmoved.moves (by simpa using hne.symm)
  obtain ⟨-, hthird⟩ := decreaseToBeIssued_updates hmoved.moves.keyed he₂ hissue
  rw [hmoved.moves.status] at hthird
  refine ⟨δ, hδ, (hmoved.moves.trans hthird.moves).congr ?_ ?_⟩
  · rw [Set.singleton_union]
  · abel

end

/-! ## Liquidation -/

section

/-- The tokens of a vault become tokens of the liquidation vault; the tokens to be redeemed are
then counted by both. -/
def movedTokens (d : Vault) : Posting :=
  on (.system d.id.currencies .issued) d.issuedTokens +
    on (.system d.id.currencies .toBeIssued) d.toBeIssuedTokens +
    on (.system d.id.currencies .toBeRedeemed) d.toBeRedeemedTokens -
    on (.vault d.id .issued) d.issuedTokens - on (.vault d.id .toBeIssued) d.toBeIssuedTokens

/-- From `s` to `s'` the tokens of the vault moved to the liquidation vault, and the vault is
liquidated. -/
structure TokensMoved (R : Runtime B) (d : Vault) (s s' : Chain B) : Prop where
  stored : Stored s d
  active : d.status ≠ .liquidated
  posts : Posts R {d.id} (movedTokens d) s s'
  status : statusOf s' = Function.update (statusOf s) d.id (some .liquidated)

variable {d d' : Vault} (hs : Keyed s) (hd : Stored s d)

include hs hd

theorem slashForToBeRedeemed_updates (h : Returns (d.slashForToBeRedeemed R tokens) s d' s') :
    ∃ δ ∈ funds R, Updates R δ d d' s s' := by
  simp only [Vault.slashForToBeRedeemed, returns_steps] at h
  obtain ⟨_, -, collateral, -, _, s₁, hpool, hkept⟩ := h
  obtain ⟨hfirst, -⟩ := poolWithdraw_moves hs rfl hpool
  have hsecond := increaseCollateral_updates (R := R) hfirst.keyed
    (hd.of_moves hfirst (Set.notMem_empty _)) hkept
  refine ⟨_, (Holding.kept d.id collateral.amount).mem, ?_, hsecond.stored, hsecond.id,
    hsecond.status⟩
  refine (hfirst.trans hsecond.moves).congr (by simp) ?_
  abel

omit hd in
theorem slashToLiquidationVault_moves (hR : R.tokens.Lawful)
    (h : Returns (d.slashToLiquidationVault R tokens) s u s') :
    ∃ δ ∈ funds R, Moves R ∅ δ s s' := by
  simp only [Vault.slashToLiquidationVault, returns_steps] at h
  obtain ⟨collateral, -, h⟩ := h
  -- the amount is withdrawn from the stake of the vault, and the rest is slashed
  obtain ⟨s₁, hfirst, htransfer⟩ : ∃ s₁,
      Moves R ∅ (-on (.stake d.id) (scale * tokens.amount)) s s₁ ∧
        Returns (transferFunds R (.liquidatedCollateral d.id) (.liquidationVault d.id.currencies)
          tokens) s₁ u s' := by
    split at h
    · next leftover hleftover =>
      obtain ⟨-, hle, rfl⟩ := Amount.checkedSub_eq_ok.mp hleftover
      simp only [returns_bind, Chain.returns_staking] at h
      obtain ⟨_, s₁, hpool, _, _, ⟨p, hslash, rfl⟩, htransfer⟩ := h
      obtain ⟨hpool, hreg⟩ := poolWithdraw_moves hs rfl hpool
      have hslash := moves_stake (R := R) hpool.keyed (dvd_neg.mpr (dvd_mul_right _ _))
        (by rw [hpool.status]; exact hreg) (apiSlashStake_changes hslash)
      refine ⟨_, (hpool.trans hslash).congr (by simp) ?_, htransfer⟩
      rw [← on_neg, ← on_neg, ← on_add]
      congr 1
      push_cast [Nat.cast_sub hle]
      ring
    · simp only [returns_bind] at h
      obtain ⟨_, s₁, hpool, htransfer⟩ := h
      exact ⟨s₁, (poolWithdraw_moves hs rfl hpool).1, htransfer⟩
  have hsecond := transferFunds_moves hR hfirst.keyed htransfer
  refine ⟨_, sub_mem (Holding.liquidation d.id.currencies tokens.amount).mem
    (Holding.backing d.id tokens.amount).mem,
    (hfirst.trans hsecond).congr (by simp [touched]) ?_⟩
  simp only [held, backing]
  abel

theorem moveTokensToLiquidationVault_moved (hactive : d.status ≠ .liquidated)
    (h : Returns d.moveTokensToLiquidationVault s u s') : TokensMoved R d s s' := by
  simp only [Vault.moveTokensToLiquidationVault, returns_steps] at h
  obtain ⟨l₁, s₁, hissued, l₂, s₂, hpromised, l₃, s₃, hredeemed, d₁, _, hupdate, -, rfl⟩ := h
  obtain ⟨-, h₁⟩ := liquidation_increase_updates (R := R) hs hissued
  obtain ⟨-, h₂⟩ := system_increase_updates (R := R) h₁.moves.keyed h₁.stored hpromised
  obtain ⟨-, h₃⟩ := system_increase_updates (R := R) h₂.moves.keyed h₂.stored hredeemed
  rw [h₁.currencyPair, getLiquidationVault_currencyPair hs] at h₂
  rw [h₂.currencyPair, h₁.currencyPair, getLiquidationVault_currencyPair hs] at h₃
  have hsystem := (h₁.moves.trans h₂.moves).trans h₃.moves
  have hd₃ : Stored s₃ d := hd.of_moves hsystem (by simp)
  obtain ⟨hfunc, hinsert⟩ := update_returns hupdate
  obtain rfl := except_pure_eq_ok.mp hfunc
  have hitems : ∀ j, Vault.item { d with
      toBeIssuedTokens := 0, issuedTokens := 0, status := .liquidated } j < balanceBound := by
    intro j
    have hitem := hs.vaultItems d.id d j hd
    cases j <;> first | exact hitem | exact Nat.two_pow_pos 128
  obtain ⟨hposts, -, hst⟩ := insertVault_posts (R := R) (s := s₃)
    (f := Pi.single .issued (-d.issuedTokens : ℤ) + Pi.single .toBeIssued (-d.toBeIssuedTokens : ℤ))
    hsystem.keyed hinsert (by intro j; rw [hd₃]; cases j <;> simp [Vault.item]) hitems
  refine ⟨hd, hactive, ?_, ?_⟩
  · refine (hsystem.toPosts.trans hposts).congr (by simp) ?_
    rw [itemsOn_add, itemsOn_single, itemsOn_single, on_neg, on_neg, movedTokens]
    simp only [Vault.issued, Vault.toBeIssued, Vault.toBeRedeemed]
    abel
  · rw [hst, hsystem.status]

/-- A liquidation first withdraws the replace request and settles the collateral of the vault, and
then moves its tokens to the liquidation vault. -/
theorem liquidate_moves (hR : R.tokens.Lawful) (hactive : d.status ≠ .liquidated) {amount : Amount}
    (h : Returns (d.liquidate R) s amount s') :
    ∃ δ ∈ funds R, ∃ s₁ d₁, d₁.id = d.id ∧
      Moves R {d.id} (-on (.vault d.id .toBeReplaced) d.toBeReplacedTokens + δ) s s₁ ∧
      TokensMoved R d₁ s₁ s' := by
  simp only [Vault.liquidate, returns_steps] at h
  obtain ⟨_, -, _, -, used, s₁, hreplace, d₁, hget, _, -, _, -, _, -, _, -, d₂, s₂, hkept, _, s₃,
    hslash, _, _, hmove, -, rfl⟩ := h
  obtain ⟨-, hused, δ₁, hδ₁, hfirst⟩ := withdrawReplaceRequest_moves hs hR hreplace
  have hall : (used.1.amount : ℤ) = d.toBeReplacedTokens := by
    rw [hused, hd.recorded_eq]
    exact min_self _
  rw [hall] at hfirst
  obtain ⟨hid, hd₁⟩ := getVaultFromId_stored hfirst.keyed hget
  obtain ⟨δ₂, hδ₂, hsecond⟩ := slashForToBeRedeemed_updates hfirst.keyed hd₁ hkept
  obtain ⟨δ₃, hδ₃, hthird⟩ := slashToLiquidationVault_moves hsecond.moves.keyed hR hslash
  have hstatus₁ : d₁.status = d.status := by
    have hst := congrFun hfirst.status d.id
    rw [← hid, hd₁.statusOf_eq, hid, hd.statusOf_eq] at hst
    exact Option.some.inj hst
  refine ⟨δ₁ + δ₂ + δ₃, add_mem (add_mem hδ₁ hδ₂) hδ₃, s₃, d₂, hsecond.id.trans hid, ?_, ?_⟩
  · refine ((hfirst.trans hsecond.moves).trans hthird).congr (by simp [hid]) ?_
    abel
  · refine moveTokensToLiquidationVault_moved hthird.keyed
      (hsecond.stored.of_moves hthird (Set.notMem_empty _)) ?_ hmove
    rw [hsecond.status, hstatus₁]
    exact hactive

end

end Spacewalk.Ledger
