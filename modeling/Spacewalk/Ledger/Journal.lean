import Mathlib.Algebra.Group.Subgroup.Ker
import Spacewalk.Ledger.Funds

/-!
# Balanced entries

The pallets keep their books by double entry: every amount that is locked, promised or issued
is counted once where it is held and once where it is owed.  `Holding` lists the balanced
entries of locked funds and `Entry` all of them; `funds` and `journal` are the groups of
postings that they generate.  A linear relation between accounts that holds for every entry
holds for every posting of the journal (`journal_le_ker`), and is therefore kept by every call
whose posting is in the journal.
-/

namespace Spacewalk.Ledger

open VaultRegistry Staking

variable {B : Type}

/-- The balanced entries of locked funds. -/
inductive Holding (R : Runtime B) : Posting → Prop
  /-- Backing collateral of a vault. -/
  | backing (v : VaultId) (n : ℤ) : Holding R (backing v n)
  /-- Stake of a vault becomes collateral that is kept for tokens to be redeemed. -/
  | kept (v : VaultId) (n : ℤ) :
      Holding R (on (.vault v .liquidatedCollateral) n - on (.stake v) (scale * n))
  /-- Stake of a closed pool, which is reserved until it is withdrawn. -/
  | closed (v : VaultId) (n : ℤ) :
      Holding R (on (.reserved v.currencies.collateral v.accountId) n +
        on (.closed v) (scale * n))
  /-- Collateral of a liquidation vault. -/
  | liquidation (p : VaultCurrencyPair) (n : ℤ) :
      Holding R (on (.total p) n + on (.system p .collateral) n +
        on (.reserved p.collateral R.liquidationVaultAccountId) n)
  /-- Griefing collateral for tokens to be replaced. -/
  | available (v : VaultId) (n : ℤ) :
      Holding R (on (.vault v .replaceCollateral) n +
        on (.reserved R.getGriefingCollateralCurrencyId v.accountId) n)
  /-- Griefing collateral of a replace request. -/
  | active (v : VaultId) (n : ℤ) :
      Holding R (on (.vault v .activeReplaceCollateral) n +
        on (.reserved R.getGriefingCollateralCurrencyId v.accountId) n + on (.replaceGriefing v) n)
  /-- Griefing collateral of an issue request. -/
  | griefing (a : AccountId) (n : ℤ) :
      Holding R (on (.reserved R.getGriefingCollateralCurrencyId a) n + on (.issueGriefing a) n)
  /-- Tokens and fees of a redeem request. -/
  | escrow (c : CurrencyId) (a : AccountId) (n : ℤ) :
      Holding R (on (.reserved c a) n + on (.redeemEscrow c a) n)

/-- The balanced entries, for a runtime and the status of the vaults. -/
inductive Entry (R : Runtime B) (σ : VaultId → Option VaultStatus) : Posting → Prop
  /-- Locked funds. -/
  | funds {δ : Posting} : Holding R δ → Entry R σ δ
  /-- Tokens that an issue request promises. -/
  | promised (v : VaultId) (n : ℤ) :
      Entry R σ (on (toBeIssuedAt σ v) n + on (.issueTokens v) n)
  /-- Tokens that the new vault of a replace request promises. -/
  | promisedIn (v : VaultId) (n : ℤ) :
      Entry R σ (on (toBeIssuedAt σ v) n + on (.replaceIn v) n)
  /-- Tokens of a redeem request. -/
  | redeeming (v : VaultId) (n : ℤ) :
      Entry R σ (toBeRedeemedOn σ v n + on (.redeemTokens v) n)
  /-- Tokens that the old vault of a replace request gives away. -/
  | redeemingOut (v : VaultId) (n : ℤ) :
      Entry R σ (toBeRedeemedOn σ v n + on (.replaceOut v) n)
  /-- Tokens that an active vault asks to be replaced. -/
  | replacing (v : VaultId) (n : ℤ) (hactive : σ v ≠ some .liquidated) :
      Entry R σ (on (.vault v .toBeReplaced) n)
  /-- Tokens that are issued with a vault. -/
  | issued (v : VaultId) (n : ℤ) :
      Entry R σ (on (.issuance v.currencies.wrapped) n + on (issuedAt σ v) n)
  /-- Tokens of a liquidation vault. -/
  | issuedSystem (p : VaultCurrencyPair) (n : ℤ) :
      Entry R σ (on (.issuance p.wrapped) n + on (.system p .issued) n)

/-- The postings that the entries of locked funds generate. -/
def funds (R : Runtime B) : AddSubgroup Posting :=
  AddSubgroup.closure {δ | Holding R δ}

/-- The postings that the balanced entries generate. -/
def journal (R : Runtime B) (σ : VaultId → Option VaultStatus) : AddSubgroup Posting :=
  AddSubgroup.closure {δ | Entry R σ δ}

variable {R : Runtime B} {σ : VaultId → Option VaultStatus} {δ : Posting}

theorem Holding.mem (h : Holding R δ) : δ ∈ funds R := AddSubgroup.subset_closure h

theorem Entry.mem (h : Entry R σ δ) : δ ∈ journal R σ := AddSubgroup.subset_closure h

theorem funds_le_journal : funds R ≤ journal R σ :=
  AddSubgroup.closure_mono fun _ h => Entry.funds h

/-- A linear relation that every entry satisfies holds for the whole journal. -/
theorem journal_le_ker {f : Posting →+ ℤ} (h : ∀ δ, Entry R σ δ → f δ = 0) :
    ∀ δ ∈ journal R σ, f δ = 0 := by
  have hle : journal R σ ≤ f.ker := (AddSubgroup.closure_le _).mpr fun δ hδ => h δ hδ
  intro δ hδ
  exact hle hδ

/-- A linear relation that every entry of locked funds satisfies holds for all of them. -/
theorem funds_le_ker {f : Posting →+ ℤ} (h : ∀ δ, Holding R δ → f δ = 0) :
    ∀ δ ∈ funds R, f δ = 0 := by
  have hle : funds R ≤ f.ker := (AddSubgroup.closure_le _).mpr fun δ hδ => h δ hδ
  intro δ hδ
  exact hle hδ

variable (v : VaultId) (n : ℤ)

/-- Collateral that was kept for tokens to be redeemed is given back. -/
theorem released_mem :
    on (.total v.currencies) n + on (.reserved v.currencies.collateral v.accountId) n +
      on (.vault v .liquidatedCollateral) n ∈ funds R := by
  have hsum : on (.total v.currencies) n + on (.reserved v.currencies.collateral v.accountId) n +
      on (.vault v .liquidatedCollateral) n =
      backing v n + (on (.vault v .liquidatedCollateral) n - on (.stake v) (scale * n)) := by
    rw [backing]
    abel
  rw [hsum]
  exact add_mem (Holding.backing v n).mem (Holding.kept v n).mem

/-- Backing collateral becomes stake of a closed pool. -/
theorem refunded_mem :
    on (.closed v) (scale * n) - on (.stake v) (scale * n) - on (.total v.currencies) n ∈
      funds R := by
  have hsum : on (.closed v) (scale * n) - on (.stake v) (scale * n) - on (.total v.currencies) n =
      (on (.reserved v.currencies.collateral v.accountId) n + on (.closed v) (scale * n)) -
        backing v n := by
    rw [backing]
    abel
  rw [hsum]
  exact sub_mem (Holding.closed v n).mem (Holding.backing v n).mem

/-! ## Tokens and funds -/

/-- The account counts tokens. -/
def Account.isToken : Account → Bool
  | .issuance _ | .issueTokens _ | .redeemTokens _ | .replaceIn _ | .replaceOut _ => true
  | .vault _ .toBeIssued | .vault _ .issued | .vault _ .toBeRedeemed | .vault _ .toBeReplaced => true
  | .system _ .toBeIssued | .system _ .issued | .system _ .toBeRedeemed => true
  | .vault _ .replaceCollateral | .vault _ .activeReplaceCollateral
  | .vault _ .liquidatedCollateral | .system _ .collateral => false
  | .reserved _ _ | .stake _ | .closed _ | .total _ | .issueGriefing _ | .redeemEscrow _ _
  | .replaceGriefing _ => false

def TokensOnly (δ : Posting) : Prop := ∀ account, account.isToken = false → δ account = 0

theorem TokensOnly.on {account : Account} (h : account.isToken = true) (n : ℤ) :
    TokensOnly (on account n) := by
  intro other hother
  have hne : other ≠ account := by
    rintro rfl
    simp [h] at hother
  simp [hne]

theorem TokensOnly.add {δ ε : Posting} (hδ : TokensOnly δ) (hε : TokensOnly ε) :
    TokensOnly (δ + ε) := by
  intro account h
  rw [Pi.add_apply, hδ account h, hε account h, add_zero]

theorem TokensOnly.sub {δ ε : Posting} (hδ : TokensOnly δ) (hε : TokensOnly ε) :
    TokensOnly (δ - ε) := by
  intro account h
  rw [Pi.sub_apply, hδ account h, hε account h, sub_zero]

theorem TokensOnly.toBeIssuedAt : TokensOnly (Ledger.on (toBeIssuedAt σ v) n) := by
  refine .on ?_ n
  rw [Ledger.toBeIssuedAt]
  split_ifs <;> rfl

theorem TokensOnly.issuedAt : TokensOnly (Ledger.on (issuedAt σ v) n) := by
  refine .on ?_ n
  rw [Ledger.issuedAt]
  split_ifs <;> rfl

theorem TokensOnly.toBeRedeemedOn : TokensOnly (toBeRedeemedOn σ v n) := by
  rw [Ledger.toBeRedeemedOn]
  split_ifs
  · exact .add (.on rfl n) (.on rfl n)
  · exact .add (.on rfl n) fun _ _ => rfl

/-- A balanced entry is about locked funds or about tokens. -/
theorem Entry.cases_tokens (h : Entry R σ δ) : Holding R δ ∨ TokensOnly δ := by
  cases h with
  | funds h => exact .inl h
  | promised v n | promisedIn v n => exact .inr (.add (.toBeIssuedAt v n) (.on rfl n))
  | redeeming v n | redeemingOut v n => exact .inr (.add (.toBeRedeemedOn v n) (.on rfl n))
  | replacing v n => exact .inr (.on rfl n)
  | issued v n => exact .inr (.add (.on rfl n) (.issuedAt v n))
  | issuedSystem p n => exact .inr (.add (.on rfl n) (.on rfl n))

end Spacewalk.Ledger
