import Spacewalk.Ledger.Tokens

/-!
# Coverage of promised tokens

A vault may promise only tokens that it has issued.  `free` is what an active vault has issued
and not promised to redeem, `spare` what it has not promised to be replaced either, and
`freeSystem` is the same as `free` for a liquidation vault.  `Covers` says that a posting keeps
these amounts from becoming negative.
-/

namespace Spacewalk.Ledger

open VaultRegistry

variable {B : Type} {R : Runtime B} {σ : VaultId → Option VaultStatus} {b δ ε : Posting}
  {v w : VaultId} {p : VaultCurrencyPair} {n : ℤ}

/-- Issued tokens of a vault that are not to be redeemed. -/
def free (v : VaultId) : Posting →+ ℤ :=
  balanceOn (.vault v .issued) -
    balanceOn (.vault v .toBeRedeemed)

/-- Issued tokens of a vault that are neither to be redeemed nor to be replaced. -/
def spare (v : VaultId) : Posting →+ ℤ :=
  free v - balanceOn (.vault v .toBeReplaced)

/-- Issued tokens of a liquidation vault that are not to be redeemed. -/
def freeSystem (p : VaultCurrencyPair) : Posting →+ ℤ :=
  balanceOn (.system p .issued) -
    balanceOn (.system p .toBeRedeemed)

theorem free_apply (δ : Posting) :
    free v δ = δ (.vault v .issued) - δ (.vault v .toBeRedeemed) := rfl

theorem spare_apply (δ : Posting) : spare v δ = free v δ - δ (.vault v .toBeReplaced) := rfl

theorem freeSystem_apply (δ : Posting) :
    freeSystem p δ = δ (.system p .issued) - δ (.system p .toBeRedeemed) := rfl

/-! ## Evaluation -/

section

/-- Locked funds are no tokens. -/
theorem funds_tokens (hδ : δ ∈ funds R) :
    free v δ = 0 ∧ spare v δ = 0 ∧ freeSystem p δ = 0 ∧ δ (.vault v .toBeReplaced) = 0 := by
  have hfree : ∀ ε, Holding R ε → free v ε = 0 := by
    intro ε hε
    cases hε <;> simp [free_apply, backing]
  have hreplaced : ∀ ε, Holding R ε →
      balanceOn (.vault v .toBeReplaced) ε = 0 := by
    intro ε hε
    cases hε <;> simp [backing]
  have hsystem : ∀ ε, Holding R ε → freeSystem p ε = 0 := by
    intro ε hε
    cases hε <;> simp [freeSystem_apply, backing]
  have h₁ := funds_le_ker hfree δ hδ
  have h₂ := funds_le_ker hreplaced δ hδ
  refine ⟨h₁, ?_, funds_le_ker hsystem δ hδ, h₂⟩
  rw [spare_apply, h₁]
  exact sub_eq_zero.mpr h₂.symm

theorem free_issuedAt (hv : σ v ≠ some .liquidated) :
    free v (on (issuedAt σ w) n) = if w = v then n else 0 := by
  rw [issuedAt]
  split_ifs with hliq heq heq
  · exact absurd (heq ▸ hliq) hv
  · simp [free_apply]
  · simp [free_apply, heq]
  · simp [free_apply, Ne.symm heq]

theorem free_toBeRedeemedOn : free v (toBeRedeemedOn σ w n) = if w = v then -n else 0 := by
  rw [toBeRedeemedOn]
  by_cases hw : w = v <;> split_ifs <;> simp_all [free_apply, eq_comm]

theorem free_toBeIssuedAt : free v (on (toBeIssuedAt σ w) n) = 0 := by
  rw [toBeIssuedAt]
  split_ifs <;> simp [free_apply]

theorem spare_issuedAt (hv : σ v ≠ some .liquidated) :
    spare v (on (issuedAt σ w) n) = if w = v then n else 0 := by
  rw [spare_apply, free_issuedAt hv, issuedAt]
  split_ifs <;> simp

theorem spare_toBeRedeemedOn : spare v (toBeRedeemedOn σ w n) = if w = v then -n else 0 := by
  rw [spare_apply, free_toBeRedeemedOn, toBeRedeemedOn]
  split_ifs <;> simp

theorem spare_toBeIssuedAt : spare v (on (toBeIssuedAt σ w) n) = 0 := by
  rw [spare_apply, free_toBeIssuedAt, toBeIssuedAt]
  split_ifs <;> simp

theorem freeSystem_issuedAt : freeSystem p (on (issuedAt σ w) n) =
    if σ w = some .liquidated ∧ w.currencies = p then n else 0 := by
  rw [issuedAt]
  by_cases hp : w.currencies = p <;> split_ifs <;> simp_all [freeSystem_apply, eq_comm]

theorem freeSystem_toBeRedeemedOn : freeSystem p (toBeRedeemedOn σ w n) =
    if σ w = some .liquidated ∧ w.currencies = p then -n else 0 := by
  rw [toBeRedeemedOn]
  by_cases hp : w.currencies = p <;> split_ifs <;> simp_all [freeSystem_apply, eq_comm]

theorem freeSystem_toBeIssuedAt : freeSystem p (on (toBeIssuedAt σ w) n) = 0 := by
  rw [toBeIssuedAt]
  split_ifs <;> simp [freeSystem_apply]

theorem toBeRedeemedOn_toBeReplaced : toBeRedeemedOn σ w n (.vault v .toBeReplaced) = 0 := by
  rw [toBeRedeemedOn]
  split_ifs <;> simp

end

/-! ## Postings that keep the coverage -/

/-- Postings that leave the tokens of active vaults and of liquidation vaults as covered as they
are. -/
def neutral (σ : VaultId → Option VaultStatus) : AddSubgroup Posting where
  carrier := {δ | (∀ v, σ v ≠ some .liquidated → free v δ = 0 ∧ spare v δ = 0) ∧
    ∀ p, freeSystem p δ = 0}
  add_mem' := by
    rintro δ ε ⟨hδ, hδ'⟩ ⟨hε, hε'⟩
    refine ⟨fun v hv => ⟨?_, ?_⟩, fun p => ?_⟩
    · rw [map_add, (hδ v hv).1, (hε v hv).1, add_zero]
    · rw [map_add, (hδ v hv).2, (hε v hv).2, add_zero]
    · rw [map_add, hδ' p, hε' p, add_zero]
  zero_mem' := ⟨fun v _ => ⟨map_zero _, map_zero _⟩, fun p => map_zero _⟩
  neg_mem' := by
    rintro δ ⟨hδ, hδ'⟩
    refine ⟨fun v hv => ⟨?_, ?_⟩, fun p => ?_⟩
    · rw [map_neg, (hδ v hv).1, neg_zero]
    · rw [map_neg, (hδ v hv).2, neg_zero]
    · rw [map_neg, hδ' p, neg_zero]

section

theorem funds_le_neutral : funds R ≤ neutral σ := by
  intro δ hδ
  refine ⟨fun v _ => ?_, fun p => ?_⟩
  · obtain ⟨hfree, hspare, -⟩ := funds_tokens (v := v) (p := v.currencies) hδ
    exact ⟨hfree, hspare⟩
  · obtain ⟨-, -, hsystem, -⟩ := funds_tokens (v := ⟨R.feePoolAccountId, p⟩) (p := p) hδ
    exact hsystem

theorem reserved_mem_neutral (c : CurrencyId) (a : AccountId) (n : ℤ) :
    on (.reserved c a) n ∈ neutral σ := by
  refine ⟨fun v _ => ?_, fun p => ?_⟩ <;> simp [spare_apply, free_apply, freeSystem_apply]

theorem issuance_mem_neutral (c : CurrencyId) (n : ℤ) : on (.issuance c) n ∈ neutral σ := by
  refine ⟨fun v _ => ?_, fun p => ?_⟩ <;> simp [spare_apply, free_apply, freeSystem_apply]

theorem activeReplaceCollateral_mem_neutral (w : VaultId) (n : ℤ) :
    on (.vault w .activeReplaceCollateral) n ∈ neutral σ := by
  refine ⟨fun v _ => ?_, fun p => ?_⟩ <;> simp [spare_apply, free_apply, freeSystem_apply]

theorem toBeIssuedAt_mem_neutral (w : VaultId) (n : ℤ) :
    on (toBeIssuedAt σ w) n ∈ neutral σ :=
  ⟨fun _ _ => ⟨free_toBeIssuedAt, spare_toBeIssuedAt⟩, fun _ => freeSystem_toBeIssuedAt⟩

/-- Tokens that were to be redeemed are redeemed. -/
theorem redeemed_mem_neutral (w : VaultId) (n : ℤ) :
    toBeRedeemedOn σ w n + on (issuedAt σ w) n ∈ neutral σ := by
  refine ⟨fun v hv => ?_, fun p => ?_⟩
  · rw [map_add, map_add, free_toBeRedeemedOn, free_issuedAt hv, spare_toBeRedeemedOn,
      spare_issuedAt hv]
    split_ifs <;> simp
  · rw [map_add, freeSystem_toBeRedeemedOn, freeSystem_issuedAt]
    split_ifs <;> simp

end

/-- A posting to the books `b` keeps promised tokens covered; of the spare tokens of a vault, as many
as `taken` must be there. -/
structure Covers (σ : VaultId → Option VaultStatus) (b δ : Posting) (taken : VaultId → ℤ) :
    Prop where
  vaults : ∀ v, σ v ≠ some .liquidated → 0 ≤ free v b → 0 ≤ free v (b + δ)
  systems : ∀ p, 0 ≤ freeSystem p b → 0 ≤ freeSystem p (b + δ)
  spares : ∀ v, σ v ≠ some .liquidated → taken v ≤ spare v b → 0 ≤ spare v (b + δ)

namespace Covers

variable {taken : VaultId → ℤ}

theorem add_neutral (h : Covers σ b δ taken) (hε : ε ∈ neutral σ) : Covers σ b (δ + ε) taken := by
  obtain ⟨hv, hp⟩ := hε
  refine ⟨fun v hv' hb => ?_, fun p hb => ?_, fun v hv' hb => ?_⟩
  · rw [← add_assoc, map_add, (hv v hv').1, add_zero]
    exact h.vaults v hv' hb
  · rw [← add_assoc, map_add, hp p, add_zero]
    exact h.systems p hb
  · rw [← add_assoc, map_add, (hv v hv').2, add_zero]
    exact h.spares v hv' hb

theorem zero : Covers σ b 0 0 := by
  refine ⟨fun v _ hb => ?_, fun p hb => ?_, fun v _ hb => ?_⟩ <;> rwa [add_zero]

theorem of_neutral (hδ : δ ∈ neutral σ) : Covers σ b δ 0 := by
  have h := (zero (σ := σ) (b := b)).add_neutral hδ
  rwa [zero_add] at h

/-- Tokens are issued. -/
theorem issues (hn : 0 ≤ n) : Covers σ b (on (issuedAt σ w) n) 0 := by
  refine ⟨fun v hv hb => ?_, fun p hb => ?_, fun v hv hb => ?_⟩
  · rw [map_add, free_issuedAt hv]
    split_ifs <;> omega
  · rw [map_add, freeSystem_issuedAt]
    split_ifs <;> omega
  · rw [map_add, spare_issuedAt hv]
    rw [Pi.zero_apply] at hb
    split_ifs <;> omega

/-- Tokens are not to be redeemed any more. -/
theorem releases (hn : 0 ≤ n) : Covers σ b (-toBeRedeemedOn σ w n) 0 := by
  refine ⟨fun v hv hb => ?_, fun p hb => ?_, fun v hv hb => ?_⟩
  · rw [map_add, map_neg, free_toBeRedeemedOn]
    split_ifs <;> omega
  · rw [map_add, map_neg, freeSystem_toBeRedeemedOn]
    split_ifs <;> omega
  · rw [map_add, map_neg, spare_toBeRedeemedOn]
    rw [Pi.zero_apply] at hb
    split_ifs <;> omega

theorem trans (h : Covers σ b δ taken) (h' : Covers σ (b + δ) ε 0) :
    Covers σ b (δ + ε) taken := by
  refine ⟨fun v hv hb => ?_, fun p hb => ?_, fun v hv hb => ?_⟩
  · rw [← add_assoc]
    exact h'.vaults v hv (h.vaults v hv hb)
  · rw [← add_assoc]
    exact h'.systems p (h.systems p hb)
  · rw [← add_assoc]
    exact h'.spares v hv (h.spares v hv hb)

section

theorem spare_toBeReplaced : spare v (on (.vault w .toBeReplaced) n) = if w = v then -n else 0 := by
  rw [spare_apply]
  by_cases hw : w = v
  · simp [free_apply, hw]
  · simp [free_apply, hw, Ne.symm hw]

theorem free_toBeReplaced : free v (on (.vault w .toBeReplaced) n) = 0 := by
  simp [free_apply]

theorem freeSystem_toBeReplaced : freeSystem p (on (.vault w .toBeReplaced) n) = 0 := by
  simp [freeSystem_apply]

/-- Fewer tokens are to be replaced. -/
theorem withdraws (hn : 0 ≤ n) : Covers σ b (-on (.vault w .toBeReplaced) n) 0 := by
  refine ⟨fun v hv hb => ?_, fun p hb => ?_, fun v hv hb => ?_⟩
  · rwa [map_add, map_neg, free_toBeReplaced, neg_zero, add_zero]
  · rwa [map_add, map_neg, freeSystem_toBeReplaced, neg_zero, add_zero]
  · rw [map_add, map_neg, spare_toBeReplaced]
    rw [Pi.zero_apply] at hb
    split_ifs <;> omega

/-- Spare tokens are to be replaced. -/
theorem asks (hle : b (.vault w .toBeReplaced) + n + b (.vault w .toBeRedeemed) ≤
    b (.vault w .issued)) : Covers σ b (on (.vault w .toBeReplaced) n) 0 := by
  refine ⟨fun v hv hb => ?_, fun p hb => ?_, fun v hv hb => ?_⟩
  · rwa [map_add, free_toBeReplaced, add_zero]
  · rwa [map_add, freeSystem_toBeReplaced, add_zero]
  · rw [map_add, spare_toBeReplaced]
    rw [Pi.zero_apply] at hb
    split_ifs with heq
    · subst heq
      rw [spare_apply, free_apply]
      omega
    · omega

variable {m : ℤ} (hw : σ w ≠ some .liquidated)
  (hle : b (.vault w .toBeRedeemed) + n ≤ b (.vault w .issued))
  (hm : m = min n (b (.vault w .toBeReplaced)))

include hw hle hm

/-- Tokens of an active vault that are not to be redeemed are, and as many fewer are to be
replaced. -/
theorem promises : Covers σ b (toBeRedeemedOn σ w n - on (.vault w .toBeReplaced) m) 0 := by
  refine ⟨fun v hv hb => ?_, fun p hb => ?_, fun v hv hb => ?_⟩
  · rw [map_add, map_sub, free_toBeRedeemedOn, free_toBeReplaced]
    split_ifs with heq
    · subst heq
      rw [free_apply]
      omega
    · omega
  · rw [map_add, map_sub, freeSystem_toBeRedeemedOn, freeSystem_toBeReplaced,
      if_neg fun h => hw h.1]
    omega
  · rw [map_add, map_sub, spare_toBeRedeemedOn, spare_toBeReplaced]
    rw [Pi.zero_apply] at hb
    split_ifs with heq
    · subst heq
      rw [spare_apply, free_apply] at hb ⊢
      omega
    · omega

/-- Tokens of an active vault that are not to be redeemed are burned, and as many fewer are to be
replaced. -/
theorem burns : Covers σ b (-on (issuedAt σ w) n - on (.vault w .toBeReplaced) m) 0 := by
  refine ⟨fun v hv hb => ?_, fun p hb => ?_, fun v hv hb => ?_⟩
  · rw [map_add, map_sub, map_neg, free_issuedAt hv, free_toBeReplaced]
    split_ifs with heq
    · subst heq
      rw [free_apply]
      omega
    · omega
  · rw [map_add, map_sub, map_neg, freeSystem_issuedAt, freeSystem_toBeReplaced,
      if_neg fun h => hw h.1]
    omega
  · rw [map_add, map_sub, map_neg, spare_issuedAt hv, spare_toBeReplaced]
    rw [Pi.zero_apply] at hb
    split_ifs with heq
    · subst heq
      rw [spare_apply, free_apply] at hb ⊢
      omega
    · omega

end

/-- Tokens of an active vault that are not to be redeemed are given away, although they may be to
be replaced. -/
theorem gives (hw : σ w ≠ some .liquidated) (hn : 0 ≤ n)
    (hle : b (.vault w .toBeRedeemed) + n ≤ b (.vault w .issued)) :
    Covers σ b (-on (issuedAt σ w) n) (Pi.single w n) := by
  refine ⟨fun v hv hb => ?_, fun p hb => ?_, fun v hv hb => ?_⟩
  · rw [map_add, map_neg, free_issuedAt hv]
    split_ifs with heq
    · subst heq
      rw [free_apply]
      omega
    · omega
  · rw [map_add, map_neg, freeSystem_issuedAt, if_neg fun h => hw h.1]
    omega
  · rw [map_add, map_neg, spare_issuedAt hv]
    rw [Pi.single_apply] at hb
    split_ifs at hb ⊢ with h₁ h₂ h₂ <;> first | omega | exact absurd h₁.symm h₂

/-- Tokens of the liquidation vault that are not to be redeemed are burned. -/
theorem burnsSystem (hle : b (.system p .toBeRedeemed) + n ≤ b (.system p .issued)) :
    Covers σ b (-on (.system p .issued) n) 0 := by
  refine ⟨fun v hv hb => ?_, fun q hb => ?_, fun v hv hb => ?_⟩
  · rw [map_add, map_neg]
    simpa [free_apply] using hb
  · rw [map_add, map_neg, freeSystem_apply (on _ _)]
    by_cases hq : q = p
    · subst hq
      rw [freeSystem_apply]
      simp only [on, Pi.single_apply, Account.system.injEq, reduceCtorEq, and_false, if_true, if_false]
      simp
      omega
    · simpa [hq] using hb
  · rw [map_add, map_neg]
    simpa [spare_apply, free_apply] using hb

end Covers

end Spacewalk.Ledger
