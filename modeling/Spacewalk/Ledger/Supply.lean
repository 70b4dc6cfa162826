import Spacewalk.Ledger.Run
import Spacewalk.Runtime.Replay

/-!
# The supply of wrapped currencies

Every token of a wrapped currency was issued with a vault, or with a vault that was liquidated
since: in every state of every run, the issuance of a wrapped currency is the sum of the issued
tokens that vaults and liquidation vaults record.
-/

namespace Spacewalk.Ledger

open Foundation VaultRegistry

variable {B : Type} {R : Runtime B} {W : Set CurrencyId} (w : CurrencyId)

/-- The issuance of a currency that neither vaults nor liquidation vaults record. -/
noncomputable def unrecorded : Posting →+ ℤ :=
  balanceOn (.issuance w) -
    (∑ v : VaultId with v.currencies.wrapped = w,
      balanceOn (.vault v .issued)) -
    ∑ p : VaultCurrencyPair with p.wrapped = w,
      balanceOn (.system p .issued)

theorem unrecorded_apply (δ : Posting) :
    unrecorded w δ = δ (.issuance w) -
      (∑ v : VaultId with v.currencies.wrapped = w, δ (.vault v .issued)) -
      ∑ p : VaultCurrencyPair with p.wrapped = w, δ (.system p .issued) := by
  simp [unrecorded]

theorem unrecorded_entry {σ : VaultId → Option VaultStatus} {δ : Posting} (h : Entry R σ δ) :
    unrecorded w δ = 0 := by
  rw [unrecorded_apply]
  cases h with
  | funds h => cases h <;> simp [backing]
  | issued v n =>
    -- an issued token is recorded by the vault, or by the liquidation vault of its pair
    rw [issuedAt]
    split_ifs <;> simp [Pi.single_apply, eq_comm]
  | issuedSystem p n => simp [Pi.single_apply, eq_comm]
  | _ => simp [toBeIssuedAt, toBeRedeemedOn, eq_ite_iff, ite_apply]

/-- Moving the tokens of a vault to the liquidation vault leaves the sum. -/
theorem unrecorded_movedTokens (d : Vault) : unrecorded w (movedTokens d) = 0 := by
  rw [unrecorded_apply, movedTokens]
  simp [Pi.single_apply]

theorem unrecorded_relation {w : CurrencyId} (hw : w ∈ W) :
    Relation R W (· = 0) fun _ => unrecorded w where
  status _ _ _ := rfl
  entry _ _ h := unrecorded_entry w h
  liquidates σ d b _ _ _ h := by rw [map_add, unrecorded_movedTokens, h, add_zero]
  environment σ δ h := by
    rw [unrecorded_apply, h _ (by simp [hw])]
    simp [h]

theorem unrecorded_replaced (x : Write) (s : Chain B) : unrecorded w (x.replaced s) = 0 := by
  simp [unrecorded_apply]

theorem unrecorded_genesis {s : Chain B} (h : IsGenesis s) (w : CurrencyId) :
    unrecorded w (balances R s) = R.tokens.totalIssuance s.tokens w := by
  simp [unrecorded_apply, recorded, h.vaults, getLiquidationVault, h.liquidationVaults,
    SystemVault.new, SystemVault.item]

/-- In every state of every run from a genesis without wrapped tokens, the issuance of a wrapped
currency is the sum of the issued tokens of its vaults and its liquidation vaults. -/
theorem totalIssuance_eq_issuedTokens (R : Runtime B) (hR : R.tokens.Lawful) (W : Set CurrencyId)
    (s₀ s : Chain B) (records : List Record) (hgenesis : IsGenesis s₀)
    (hsupply : ∀ w ∈ W, R.tokens.totalIssuance s₀.tokens w = 0)
    (hrun : Run (Step R W) s₀ records s) (w : CurrencyId) (hw : w ∈ W) :
    R.tokens.totalIssuance s.tokens w =
      (∑ v : VaultId with v.currencies.wrapped = w,
        ((s.vaultRegistry.vaults v).elim 0 fun d => (d.issuedTokens : ℤ))) +
      ∑ p : VaultCurrencyPair with p.wrapped = w, ((getLiquidationVault p s).issuedTokens : ℤ) := by
  have hzero : valueOf R (fun _ => unrecorded w) s = 0 := by
    refine (unrecorded_relation hw).holds hR (fun _ _ _ h => h) ?_ hrun hgenesis ?_ ?_
    · intro s l s' a p _ _ _ h
      exact h
    · rw [valueOf, unrecorded_genesis hgenesis, hsupply w hw]
    · intro s x _ h
      rw [unrecorded_replaced, sub_zero, h]
  rw [valueOf, unrecorded_apply] at hzero
  simp only [balances_issuance, balances_vault, balances_system, recorded, Vault.item,
    SystemVault.item] at hzero
  omega

/-- A million tokens are issued, and one vault records them. -/
theorem totalIssuance_eq_issuedTokens_issuing :
    ∃ s, Run (Step sampleRuntime {sampleWrapped}) sampleGenesis issuing s ∧
      sampleRuntime.tokens.totalIssuance s.tokens sampleWrapped = 1000000 ∧
      sampleRuntime.tokens.totalIssuance s.tokens sampleWrapped =
        (∑ v : VaultId with v.currencies.wrapped = sampleWrapped,
          ((s.vaultRegistry.vaults v).elim 0 fun d => (d.issuedTokens : ℤ))) +
        ∑ p : VaultCurrencyPair with p.wrapped = sampleWrapped,
          ((getLiquidationVault p s).issuedTokens : ℤ) := by
  obtain ⟨s, hrun, hissuance⟩ : ∃ s,
      Run (Step sampleRuntime {sampleWrapped}) sampleGenesis issuing s ∧
        sampleRuntime.tokens.totalIssuance s.tokens sampleWrapped = 1000000 :=
    run_of_replay environmentStep_refl (by decide +kernel)
  refine ⟨s, hrun, hissuance, ?_⟩
  exact totalIssuance_eq_issuedTokens sampleRuntime sampleRuntime_lawful {sampleWrapped}
    sampleGenesis s issuing sampleGenesis_isGenesis (fun _ _ => rfl) hrun sampleWrapped rfl

end Spacewalk.Ledger
