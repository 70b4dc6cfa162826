import Mathlib.Tactic.DeriveFintype
import Mathlib.Tactic.Positivity
import Spacewalk.Foundation.Postings
import Spacewalk.VaultRegistry.Vaults

/-!
# The books of the chain

The bridge pallets keep the same amounts in several places: reserved balances, the stake of
the pools, the counters of vaults and liquidation vaults, and the open requests.  This module
reads the state of the chain as one set of books (`balances`), with an account for each of
these amounts, so that what a function of the runtime does is a posting to accounts (`Moves`)
and a property that relates amounts is a linear relation between balances.

`Frame` relates states whose books are the same; everything that only concerns prices, fees
and rewards stays within it.
-/

namespace Spacewalk

/-! ## Finitely many identifiers -/

instance finiteBitVec (n : ℕ) : Finite (BitVec n) :=
  Finite.of_injective BitVec.toFin fun _ _ h => BitVec.eq_of_toFin_eq h

instance finiteUInt8 : Finite UInt8 :=
  Finite.of_injective UInt8.toBitVec fun _ _ h => UInt8.eq_of_toBitVec_eq h

instance finiteUInt64 : Finite UInt64 :=
  Finite.of_injective UInt64.toBitVec fun _ _ h => UInt64.eq_of_toBitVec_eq h

noncomputable instance fintypeBitVec (n : ℕ) : Fintype (BitVec n) := Fintype.ofFinite _

noncomputable instance fintypeUInt8 : Fintype UInt8 := Fintype.ofFinite _

noncomputable instance fintypeUInt64 : Fintype UInt64 := Fintype.ofFinite _

noncomputable instance : Fintype AccountId := derive_fintype% AccountId

noncomputable instance : Fintype Asset := derive_fintype% Asset

noncomputable instance : Fintype CurrencyId := derive_fintype% CurrencyId

noncomputable instance : Fintype VaultCurrencyPair := derive_fintype% VaultCurrencyPair

noncomputable instance : Fintype VaultId := derive_fintype% VaultId

namespace Ledger

open Foundation VaultRegistry Issue Redeem Replace

/-! ## Accounts -/

inductive Account where
  | reserved (currencyId : CurrencyId) (accountId : AccountId)
  | issuance (currencyId : CurrencyId)
  /-- The stake of the current pool of a vault, in inner units. -/
  | stake (vaultId : VaultId)
  /-- The stake of the closed pools of a vault, in inner units. -/
  | closed (vaultId : VaultId)
  | total (currencyPair : VaultCurrencyPair)
  | vault (vaultId : VaultId) (item : VaultItem)
  /-- A counter of a liquidation vault. -/
  | system (currencyPair : VaultCurrencyPair) (item : SystemItem)
  /-- Tokens of the pending issue requests of a vault. -/
  | issueTokens (vaultId : VaultId)
  /-- Griefing collateral of the pending issue requests of a requester. -/
  | issueGriefing (accountId : AccountId)
  /-- Tokens of the pending redeem requests of a vault. -/
  | redeemTokens (vaultId : VaultId)
  /-- Tokens and fees of the pending redeem requests of a redeemer. -/
  | redeemEscrow (currencyId : CurrencyId) (accountId : AccountId)
  /-- Tokens of the pending replace requests that a vault has accepted. -/
  | replaceIn (vaultId : VaultId)
  /-- Tokens of the pending replace requests by which a vault is replaced. -/
  | replaceOut (vaultId : VaultId)
  /-- Griefing collateral of the pending replace requests by which a vault is replaced. -/
  | replaceGriefing (vaultId : VaultId)
  deriving DecidableEq

/-- A change of the books. -/
abbrev Posting := Account → ℤ

abbrev on (account : Account) (amount : ℤ) : Posting := Pi.single account amount

abbrev balanceOn (account : Account) : Posting →+ ℤ := Pi.evalAddMonoidHom (fun _ => ℤ) account

theorem on_neg (account : Account) (n : ℤ) : on account (-n) = -on account n := by
  rw [on, Pi.single_neg]

theorem on_add (account : Account) (m n : ℤ) :
    on account (m + n) = on account m + on account n := by
  rw [on, Pi.single_add]

theorem on_sub (account : Account) (m n : ℤ) :
    on account (m - n) = on account m - on account n := by
  rw [on, Pi.single_sub]

theorem on_nonneg {n : ℤ} (hn : 0 ≤ n) (account other : Account) : 0 ≤ on account n other := by
  rw [on, Pi.single_apply]
  split_ifs
  · exact hn
  · exact le_rfl

/-- What a pending issue request promises and locks. -/
def issuePosting : Option IssueRequest → Posting
  | some r =>
    if r.status = .pending then
      on (.issueTokens r.vault) (r.amount + r.fee) +
        on (.issueGriefing r.requester) r.griefingCollateral
    else 0
  | none => 0

/-- What a pending redeem request promises and locks. -/
def redeemPosting : Option RedeemRequest → Posting
  | some r =>
    if r.status = .pending then
      on (.redeemTokens r.vault) (r.amount + r.transferFee) +
        on (.redeemEscrow r.asset r.redeemer) (r.amount + r.fee + r.transferFee)
    else 0
  | none => 0

/-- What a pending replace request promises and locks. -/
def replacePosting : Option ReplaceRequest → Posting
  | some r =>
    if r.status = .pending then
      on (.replaceIn r.newVault) r.amount + on (.replaceOut r.oldVault) r.amount +
        on (.replaceGriefing r.oldVault) r.griefingCollateral
    else 0
  | none => 0

theorem issuePosting_nonneg (r : Option IssueRequest) (account : Account) :
    0 ≤ issuePosting r account := by
  cases r with
  | none => exact le_rfl
  | some r =>
    rw [issuePosting]
    split_ifs
    · exact add_nonneg (on_nonneg (by positivity) _ _) (on_nonneg (by positivity) _ _)
    · exact le_rfl

theorem redeemPosting_nonneg (r : Option RedeemRequest) (account : Account) :
    0 ≤ redeemPosting r account := by
  cases r with
  | none => exact le_rfl
  | some r =>
    rw [redeemPosting]
    split_ifs
    · exact add_nonneg (on_nonneg (by positivity) _ _) (on_nonneg (by positivity) _ _)
    · exact le_rfl

theorem replacePosting_nonneg (r : Option ReplaceRequest) (account : Account) :
    0 ≤ replacePosting r account := by
  cases r with
  | none => exact le_rfl
  | some r =>
    rw [replacePosting]
    split_ifs
    · exact add_nonneg (add_nonneg (on_nonneg (by positivity) _ _)
        (on_nonneg (by positivity) _ _)) (on_nonneg (by positivity) _ _)
    · exact le_rfl

/-! ## Balances -/

section

variable {B : Type} (R : Runtime B)

/-- The amounts that the pallets record. -/
def recorded (s : Chain B) : Posting
  | .reserved c a => R.tokens.reservedBalance s.tokens c a
  | .issuance c => R.tokens.totalIssuance s.tokens c
  | .stake v => (s.staking.totalCurrentStake (s.staking.nonce v, v)).inner
  | .closed v => ∑ k ∈ Finset.range (s.staking.nonce v), (s.staking.totalCurrentStake (k, v)).inner
  | .total p => s.vaultRegistry.totalUserVaultCollateral p
  | .vault v i => (s.vaultRegistry.vaults v).elim 0 fun d => d.item i
  | .system p i => (getLiquidationVault p s).item i
  | _ => 0

/-- The amounts of the pending requests. -/
noncomputable def requested (s : Chain B) : Posting :=
  posted (fun _ => issuePosting) s.issue.issueRequests +
    posted (fun _ => redeemPosting) s.redeem.redeemRequests +
    posted (fun _ => replacePosting) s.replace.replaceRequests

/-- The books of the chain. -/
noncomputable def balances (s : Chain B) : Posting := recorded R s + requested s

/-- The status of a vault, if it is registered. -/
def statusOf (s : Chain B) (v : VaultId) : Option VaultStatus :=
  (s.vaultRegistry.vaults v).map Vault.status

/-- Vaults and liquidation vaults are stored under their own keys, and their counters are
balances. -/
structure Keyed (s : Chain B) : Prop where
  vaults : ∀ v d, s.vaultRegistry.vaults v = some d → d.id = v
  systems : ∀ p l, s.vaultRegistry.liquidationVault p = some l → l.currencyPair = p
  vaultItems : ∀ v d i, s.vaultRegistry.vaults v = some d → d.item i < balanceBound
  systemItems : ∀ p l i, s.vaultRegistry.liquidationVault p = some l → l.item i < balanceBound

/-- The requests, the number of identifiers that were drawn and the block are the same. -/
structure SameRequests (s s' : Chain B) : Prop where
  issues : s'.issue.issueRequests = s.issue.issueRequests
  redeems : s'.redeem.redeemRequests = s.redeem.redeemRequests
  replaces : s'.replace.replaceRequests = s.replace.replaceRequests
  drawn : s'.security.nonce = s.security.nonce
  system : s'.system = s.system

/-- The books are the same. -/
structure Frame (s s' : Chain B) : Prop extends SameRequests s s' where
  reserved : R.tokens.reservedBalance s'.tokens = R.tokens.reservedBalance s.tokens
  issuance : R.tokens.totalIssuance s'.tokens = R.tokens.totalIssuance s.tokens
  stakes : s'.staking.totalCurrentStake = s.staking.totalCurrentStake
  nonce : s'.staking.nonce = s.staking.nonce
  totals : s'.vaultRegistry.totalUserVaultCollateral = s.vaultRegistry.totalUserVaultCollateral
  vaults : s'.vaultRegistry.vaults = s.vaultRegistry.vaults
  systems : s'.vaultRegistry.liquidationVault = s.vaultRegistry.liquidationVault

/-- A change of the state that posts `δ` to the books.  Requests and pool nonces stay, and only
the records of vaults in `T` change; what is posted to the stake of a vault is whole, goes to
its current pool, and the vault is registered. -/
structure Posts (T : Set VaultId) (δ : Posting) (s s' : Chain B) : Prop
    extends SameRequests s s' where
  balance : recorded R s' = recorded R s + δ
  vaults : ∀ v ∉ T, s'.vaultRegistry.vaults v = s.vaultRegistry.vaults v
  registered : ∀ v, statusOf s v ≠ none → statusOf s' v ≠ none
  nonce : s'.staking.nonce = s.staking.nonce
  stakes : ∀ k v, s'.staking.totalCurrentStake (k, v) ≠ s.staking.totalCurrentStake (k, v) →
    k = s.staking.nonce v ∧ statusOf s' v ≠ none
  whole : ∀ v, signedFormat.div ∣ δ (.stake v)
  keyed : Keyed s'

/-- A posting that leaves the status of every vault. -/
structure Moves (T : Set VaultId) (δ : Posting) (s s' : Chain B) : Prop
    extends Posts R T δ s s' where
  status : statusOf s' = statusOf s

end

/-! ## Composition -/

section

variable {B : Type} {R : Runtime B} {s s' s'' : Chain B} {T U : Set VaultId} {δ ε : Posting}

theorem SameRequests.refl (s : Chain B) : SameRequests s s := ⟨rfl, rfl, rfl, rfl, rfl⟩

theorem SameRequests.trans (h : SameRequests s s') (h' : SameRequests s' s'') :
    SameRequests s s'' :=
  ⟨h'.issues.trans h.issues, h'.redeems.trans h.redeems, h'.replaces.trans h.replaces,
    h'.drawn.trans h.drawn, h'.system.trans h.system⟩

theorem recorded_vault_nonneg (s : Chain B) (v : VaultId) (i : VaultItem) :
    0 ≤ recorded R s (.vault v i) := by
  cases hv : s.vaultRegistry.vaults v <;> simp [recorded, hv]

theorem requested_nonneg (s : Chain B) (account : Account) : 0 ≤ requested s account := by
  simp only [requested, Pi.add_apply, posted_apply]
  exact add_nonneg (add_nonneg (Finset.sum_nonneg fun _ _ => issuePosting_nonneg _ _)
    (Finset.sum_nonneg fun _ _ => redeemPosting_nonneg _ _))
    (Finset.sum_nonneg fun _ _ => replacePosting_nonneg _ _)

theorem SameRequests.requested_eq (h : SameRequests s s') : requested s' = requested s := by
  unfold requested
  rw [h.issues, h.redeems, h.replaces]

instance : Std.Refl (Frame R) := ⟨fun s => ⟨.refl s, rfl, rfl, rfl, rfl, rfl, rfl, rfl⟩⟩

instance : IsTrans (Chain B) (Frame R) where
  trans _ _ _ h h' :=
    ⟨h.toSameRequests.trans h'.toSameRequests, h'.reserved.trans h.reserved,
      h'.issuance.trans h.issuance, h'.stakes.trans h.stakes, h'.nonce.trans h.nonce,
      h'.totals.trans h.totals, h'.vaults.trans h.vaults, h'.systems.trans h.systems⟩

theorem statusOf_congr (h : s'.vaultRegistry.vaults = s.vaultRegistry.vaults) :
    statusOf s' = statusOf s := by
  funext v
  unfold statusOf
  rw [h]

theorem Keyed.congr (hs : Keyed s) (hv : s'.vaultRegistry.vaults = s.vaultRegistry.vaults)
    (hl : s'.vaultRegistry.liquidationVault = s.vaultRegistry.liquidationVault) : Keyed s' := by
  constructor
  · rw [hv]
    exact hs.vaults
  · rw [hl]
    exact hs.systems
  · rw [hv]
    exact hs.vaultItems
  · rw [hl]
    exact hs.systemItems

theorem Frame.recorded_eq (h : Frame R s s') : recorded R s' = recorded R s := by
  funext account
  cases account <;>
    simp [recorded, getLiquidationVault, h.reserved, h.issuance, h.stakes, h.nonce, h.totals,
      h.vaults, h.systems]

theorem Frame.moves (h : Frame R s s') (hs : Keyed s) : Moves R ∅ 0 s s' where
  toSameRequests := h.toSameRequests
  balance := by rw [h.recorded_eq, add_zero]
  vaults v _ := by rw [h.vaults]
  registered v := by rw [statusOf_congr h.vaults]; exact id
  nonce := h.nonce
  stakes k v hne := absurd (congrFun h.stakes (k, v)) hne
  whole v := dvd_zero _
  keyed := hs.congr h.vaults h.systems
  status := statusOf_congr h.vaults

theorem Posts.trans (h : Posts R T δ s s') (h' : Posts R U ε s' s'') :
    Posts R (T ∪ U) (δ + ε) s s'' where
  toSameRequests := h.toSameRequests.trans h'.toSameRequests
  balance := by rw [h'.balance, h.balance, add_assoc]
  vaults v hv := by
    rw [Set.mem_union, not_or] at hv
    rw [h'.vaults v hv.2, h.vaults v hv.1]
  registered v hv := h'.registered v (h.registered v hv)
  nonce := h'.nonce.trans h.nonce
  stakes k v hne := by
    -- the stake changed in one of the two parts
    by_cases hmid : s'.staking.totalCurrentStake (k, v) = s.staking.totalCurrentStake (k, v)
    · rw [← hmid] at hne
      obtain ⟨hk, hreg⟩ := h'.stakes k v hne
      exact ⟨by rw [hk, h.nonce], hreg⟩
    · obtain ⟨hk, hreg⟩ := h.stakes k v hmid
      exact ⟨hk, h'.registered v hreg⟩
  whole v := Int.dvd_add (h.whole v) (h'.whole v)
  keyed := h'.keyed

theorem Moves.trans (h : Moves R T δ s s') (h' : Moves R U ε s' s'') :
    Moves R (T ∪ U) (δ + ε) s s'' :=
  ⟨h.toPosts.trans h'.toPosts, h'.status.trans h.status⟩

theorem Moves.refl (hs : Keyed s) : Moves R ∅ 0 s s :=
  Frame.moves (refl_of (Frame R) s) hs

/-- The stake of pools is the same if nothing is posted to it. -/
theorem Posts.totalCurrentStake_eq (h : Posts R T δ s s') (hδ : ∀ v, δ (.stake v) = 0) :
    s'.staking.totalCurrentStake = s.staking.totalCurrentStake := by
  funext ⟨k, v⟩
  by_contra hne
  obtain ⟨rfl, -⟩ := h.stakes k v hne
  have hstake := congrFun h.balance (.stake v)
  simp only [recorded, h.nonce, Pi.add_apply, hδ, add_zero] at hstake
  exact hne (FixedPoint.ext hstake)

theorem Posts.vaults_eq (h : Posts R ∅ δ s s') :
    s'.vaultRegistry.vaults = s.vaultRegistry.vaults :=
  funext fun v => h.vaults v (Set.notMem_empty v)

/-- The same change, with another description. -/
theorem Posts.congr (h : Posts R T δ s s') (hT : T ⊆ U) (hδ : δ = ε) : Posts R U ε s s' := by
  subst hδ
  exact { h with vaults := fun v hv => h.vaults v fun hv' => hv (hT hv') }

theorem Moves.congr (h : Moves R T δ s s') (hT : T ⊆ U) (hδ : δ = ε) : Moves R U ε s s' :=
  ⟨h.toPosts.congr hT hδ, h.status⟩

end

end Ledger

end Spacewalk
