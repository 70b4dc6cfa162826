import Spacewalk.Ledger.VaultCalls
import Spacewalk.Replace

/-!
# The calls of the replace pallet

`requestReplace` and `withdrawReplace` change the tokens that a vault asks to be replaced,
`acceptReplace` opens a request for them, and `executeReplace` and `cancelReplace` settle one.
A request that was cancelled can still be executed; then tokens of the old vault are given
away that it may have promised to others (`Write.taken`).
-/

namespace Spacewalk.Ledger

open Foundation VaultRegistry Replace
open Stellar (Bytes)

variable {B : Type} {R : Runtime B} {s s' : Chain B} {o : Origin} {id : H256} {u : Unit}
  {p : VaultCurrencyPair} {n : ℕ} {v w : VaultId} {r : ReplaceRequest} {s₁ s₂ : Chain B}
  {σ : VaultId → Option VaultStatus} {status : ReplaceRequestStatus} {u₁ u₂ : Unit}

theorem returns_insertReplaceRequest :
    Returns (insertReplaceRequest id r) s u s' ↔ (Write.replace id r).apply s = s' :=
  returns_modify

/-- Setting the status writes the request again. -/
theorem setReplaceStatus_writes (hr : s.replace.replaceRequests id = some r)
    (h : Returns (setReplaceStatus id status) s u s') :
    s' = (Write.replace id { r with status := status }).apply s := by
  obtain rfl := returns_modify.mp h
  simp only [Write.apply, Chain.mapReplace, hr, Option.map_some]

theorem getOpenReplaceRequest_stored (h : getOpenReplaceRequest id s = .ok r) :
    s.replace.replaceRequests id = some r ∧ r.status = .pending := by
  simp only [getOpenReplaceRequest, except_rules] at h
  obtain ⟨r₁, hstored, h⟩ := h
  cases hstatus : r₁.status with
  | pending =>
    simp only [hstatus, except_pure_eq_ok] at h
    subst h
    exact ⟨hstored, hstatus⟩
  | _ => simp [hstatus] at h

theorem getOpenOrCancelledReplaceRequest_stored (h : getOpenOrCancelledReplaceRequest id s = .ok r) :
    s.replace.replaceRequests id = some r ∧ r.status ≠ .completed := by
  simp only [getOpenOrCancelledReplaceRequest, except_rules] at h
  obtain ⟨r₁, hstored, h⟩ := h
  cases hstatus : r₁.status with
  | completed => simp [hstatus] at h
  | _ =>
    simp only [hstatus, except_pure_eq_ok] at h
    subst h
    exact ⟨hstored, by simp [hstatus]⟩

theorem convertTo_currencyId {a c : Amount} {k : CurrencyId} (h : a.convertTo R k s = .ok c) :
    c.currencyId = k := by
  simp only [Amount.convertTo, Oracle.convert, except_rules, except_ite_eq_ok] at h
  rcases h with ⟨-, rfl⟩ | ⟨-, _, -, _, -, _, -, rfl⟩ <;> rfl

/-! ## Requests -/

section

variable (hR : R.tokens.Lawful) (hs : Sound s)

include hR hs

theorem requestReplace_transition (h : Returns (requestReplace R o p n) s u s') :
    Transition R s 0 s' := by
  simp only [requestReplace, returns_guards] at h
  obtain ⟨a, -, _, -, _, -, -, _, -, increase, -, -, _, s₁, hincrease, _, -, -, _, hconvert, griefing,
    hgriefing, htransfer⟩ := h
  obtain ⟨hactive, hle, h₁⟩ := tryIncreaseToBeReplacedTokens_moves (R := R) hs.keyed hincrease
  have h₂ := transferFunds_moves hR h₁.keyed htransfer
  have hc : griefing.currencyId = R.getGriefingCollateralCurrencyId :=
    (Amount.roundedMul_currencyId hgriefing).trans (convertTo_currencyId hconvert)
  have hfunds := (Holding.available (R := R) ⟨a, p⟩ griefing.amount).mem
  refine .internal (add_mem (Entry.replacing ⟨a, p⟩ increase.amount hactive).mem
    (funds_le_journal hfunds)) ((Covers.asks hle).add_neutral (funds_le_neutral hfunds))
    ((h₁.trans h₂).congr subset_rfl ?_)
  simp only [held, hc]
  abel

theorem withdrawReplace_transition (h : Returns (withdrawReplace R o p n) s u s') :
    Transition R s 0 s' := by
  simp only [withdrawReplace, returns_guards] at h
  obtain ⟨a, -, used, _, hwithdraw, -, rfl⟩ := h
  obtain ⟨hactive, -, δ, hδ, h₁⟩ := withdrawReplaceRequest_moves hs.keyed hR hwithdraw
  exact .internal (add_mem (neg_mem (Entry.replacing ⟨a, p⟩ _ hactive).mem) (funds_le_journal hδ))
    ((Covers.withdraws (by positivity)).add_neutral (funds_le_neutral hδ)) h₁

theorem acceptReplace_transition {m : ℕ} {key : StellarPublicKeyRaw}
    (h : Returns (acceptReplace R o p v n m key) s u s') : Transition R s 0 s' := by
  simp only [acceptReplace, acceptReplaceTokens, returns_insertReplaceRequest, returns_getSecureId,
    returns_guards] at h
  obtain ⟨a, -, hne, -, _, -, ⟨used, griefing⟩, s₁, hdecrease, _, -, -, collateral, -, _, s₂, hdeposit,
    _, s₄, ⟨_, s₃, hredeem, hissue⟩, _, s₅, htransfer, rfl⟩ := h
  obtain ⟨hc, hused, h₁⟩ := decreaseToBeReplacedTokens_moves hs.keyed hdecrease
  obtain ⟨-, h₂⟩ := tryDepositCollateral_moves hR h₁.keyed hdeposit
  obtain ⟨hactive, hle, h₃⟩ := tryIncreaseToBeRedeemedTokens_moves (R := R) h₂.keyed hredeem
  obtain ⟨-, h₄⟩ := tryIncreaseToBeIssuedTokens_moves (R := R) h₃.keyed hissue
  have h₅ := transferFunds_moves hR h₄.keyed htransfer
  rw [h₂.status, h₁.status] at hactive h₃
  rw [h₃.status, h₂.status, h₁.status] at h₄
  have hle : recorded R s (.vault v .toBeRedeemed) + used.amount ≤ recorded R s (.vault v .issued) := by
    rw [(h₁.trans h₂).balance] at hle
    simpa [backing] using hle
  have hused : (used.amount : ℤ) = min (used.amount : ℤ) (recorded R s (.vault v .toBeReplaced)) := by
    have hle' : (used.amount : ℤ) ≤ recorded R s (.vault v .toBeReplaced) := by
      rw [hused]
      exact min_le_right _ _
    omega
  have hc : griefing.currencyId = R.getGriefingCollateralCurrencyId := hc
  have hmoves := ((((h₁.trans h₂).trans h₃).trans h₄).trans h₅).congr
    (ε := toBeRedeemedOn (statusOf s) v used.amount - on (.vault v .toBeReplaced) used.amount +
      (backing ⟨a, p⟩ collateral.amount + on (toBeIssuedAt (statusOf s) ⟨a, p⟩) used.amount +
        (on (.vault v .activeReplaceCollateral) griefing.amount +
          on (.reserved R.getGriefingCollateralCurrencyId v.accountId) griefing.amount -
        (on (.vault v .replaceCollateral) griefing.amount +
          on (.reserved R.getGriefingCollateralCurrencyId v.accountId) griefing.amount))))
    subset_rfl (by
      simp only [held, hc]
      abel)
  have hbacking := (Holding.backing (R := R) ⟨a, p⟩ collateral.amount).mem
  have havailable := (Holding.available (R := R) v griefing.amount).mem
  refine .opens (.replace _ _) ⟨rfl, hne⟩ (nextId_congr hmoves.toSameRequests) ?_
    ((Covers.promises hactive hle hused).add_neutral ?_) hmoves
  · have hentries := add_mem (add_mem (add_mem (sub_mem
      (Entry.redeemingOut (R := R) (σ := statusOf s) v used.amount).mem
      (Entry.replacing v used.amount hactive).mem) (Entry.promisedIn ⟨a, p⟩ used.amount).mem)
      (funds_le_journal hbacking))
      (sub_mem (funds_le_journal (Holding.active v griefing.amount).mem)
        (funds_le_journal havailable))
    convert hentries using 1
    simp only [Write.posting, replacePosting, if_true]
    abel
  · refine add_mem (add_mem (funds_le_neutral hbacking) (toBeIssuedAt_mem_neutral _ _)) (sub_mem ?_
      (funds_le_neutral havailable))
    exact add_mem (activeReplaceCollateral_mem_neutral _ _) (reserved_mem_neutral _ _ _)

end

/-! ## Execution and cancellation -/

section

/-- What a pending request locks and promises is released. -/
def replaceReleased (R : Runtime B) (σ : VaultId → Option VaultStatus) (r : ReplaceRequest) :
    Posting :=
  -toBeRedeemedOn σ r.oldVault r.amount - on (toBeIssuedAt σ r.newVault) r.amount -
    (on (.vault r.oldVault .activeReplaceCollateral) r.griefingCollateral +
      on (.reserved R.getGriefingCollateralCurrencyId r.oldVault.accountId) r.griefingCollateral)

theorem replaceReleased_sub_mem (hpending : r.status = .pending) :
    replaceReleased R σ r - replacePosting (some r) ∈ journal R σ := by
  have hentries := neg_mem (add_mem (add_mem
    (Entry.redeemingOut (R := R) (σ := σ) r.oldVault r.amount).mem
    (Entry.promisedIn r.newVault r.amount).mem)
    (funds_le_journal (Holding.active r.oldVault r.griefingCollateral).mem))
  convert hentries using 1
  rw [replaceReleased, replacePosting, if_pos hpending]
  abel

/-- Except for the tokens that are not to be redeemed any more, what is released leaves the coverage
as it is. -/
theorem replaceReleased_add_mem_neutral :
    replaceReleased R σ r + toBeRedeemedOn σ r.oldVault r.amount ∈ neutral σ := by
  have hmem := neg_mem (add_mem (toBeIssuedAt_mem_neutral (σ := σ) r.newVault r.amount)
    (add_mem (activeReplaceCollateral_mem_neutral r.oldVault r.griefingCollateral)
      (reserved_mem_neutral R.getGriefingCollateralCurrencyId r.oldVault.accountId
        r.griefingCollateral)))
  convert hmem using 1
  rw [replaceReleased]
  abel

theorem settled_replace {T : Set VaultId} {δ : Posting} (hr : s.replace.replaceRequests id = some r)
    (hopen : r.status ≠ .completed) (hstatus : status ≠ .pending)
    (hδ : δ - replacePosting (some r) ∈ journal R (statusOf s))
    (hcovers : Covers (statusOf s) (recorded R s) δ
      ((Write.replace id { r with status := status }).taken s)) (h : Moves R T δ s s₁)
    (hset : Returns (setReplaceStatus id status) s₁ u s') :
    Settled R s (.replace id { r with status := status }) s' := by
  have hr₁ : s₁.replace.replaceRequests id = some r := by rw [h.replaces, hr]
  refine ⟨.replace hr hopen hstatus rfl rfl, T, δ, s₁, ?_, hcovers, h,
    setReplaceStatus_writes hr₁ hset⟩
  simpa [Write.posting, Write.replaced, replacePosting, hr, hstatus, sub_eq_add_neg] using hδ

variable (hR : R.tokens.Lawful) (hs : Sound s)

include hR hs

/-- A cancellation takes back the promises of both vaults and the griefing collateral; collateral of
the new vault may be withdrawn. -/
theorem cancelReplace_moves (h : Returns (cancelReplace R o id) s u s') :
    ∃ r φ ε T s₁, s.replace.replaceRequests id = some r ∧ r.status = .pending ∧
      PaysOut R .confiscated s r.oldVault r.amount φ ∧
      (ε = 0 ∨ ∃ n : ℕ, ε = -backing r.newVault n) ∧
      Moves R T (replaceReleased R (statusOf s) r + (φ + ε)) s s₁ ∧
      Returns (setReplaceStatus id .cancelled) s₁ u s' := by
  simp only [cancelReplace, returns_guards, returns_ite] at h
  obtain ⟨_, -, r, hr, _, -, -, _, s₁, hcancel, _, s₂, htransfer, _, -, h⟩ := h
  obtain ⟨hstored, hpending⟩ := getOpenReplaceRequest_stored hr
  obtain ⟨φ, hφ, h₁⟩ := cancelReplaceTokens_moves hR hs.keyed (hs.distinct _ _ hstored) hcancel
  have h₂ := transferFunds_moves hR h₁.keyed htransfer
  -- the collateral of the new vault may be released
  obtain ⟨s₃, ε, hε, h₃, hset⟩ : ∃ s₃ ε, (ε = 0 ∨ ∃ n : ℕ, ε = -backing r.newVault n) ∧
      Moves R ∅ ε s₂ s₃ ∧ Returns (setReplaceStatus id .cancelled) s₃ u s' := by
    rcases h with ⟨-, hset⟩ | ⟨-, _, -, ⟨-, _, s₃, hwithdraw, hset⟩ | ⟨-, hset⟩⟩
    · exact ⟨s₂, 0, .inl rfl, .refl h₂.keyed, hset⟩
    · obtain ⟨-, hmoves⟩ := forceWithdrawCollateral_moves hR h₂.keyed hwithdraw
      exact ⟨s₃, _, .inr ⟨_, rfl⟩, hmoves, hset⟩
    · exact ⟨s₂, 0, .inl rfl, .refl h₂.keyed, hset⟩
  refine ⟨r, φ, ε, _, s₃, hstored, hpending, hφ, hε, ((h₁.trans h₂).trans h₃).congr subset_rfl ?_,
    hset⟩
  simp only [held, replaceReleased, ReplaceRequest.replacedAmount, ReplaceRequest.griefingAmount]
  abel

theorem cancelReplace_settled (h : Returns (cancelReplace R o id) s u s') :
    ∃ r, s.replace.replaceRequests id = some r ∧ r.status = .pending ∧
      Settled R s (.replace id { r with status := .cancelled }) s' := by
  obtain ⟨r, φ, ε, T, s₁, hstored, hpending, hφ, hε, hmoves, hset⟩ := cancelReplace_moves hR hs h
  have hfunds : φ + ε ∈ funds R := by
    refine add_mem hφ.mem ?_
    rcases hε with rfl | ⟨n, rfl⟩
    · exact zero_mem _
    · exact neg_mem (Holding.backing r.newVault n).mem
  refine ⟨r, hstored, hpending, settled_replace hstored (by simp [hpending]) (by simp) ?_ ?_ hmoves
    hset⟩
  · convert add_mem (replaceReleased_sub_mem (σ := statusOf s) hpending)
      (funds_le_journal hfunds) using 1
    abel
  · rw [Write.taken, hstored, takenBy]
    simp only [hpending, reduceCtorEq, if_false]
    convert (Covers.releases (w := r.oldVault) (n := r.amount) (by positivity)).add_neutral
      (add_mem (replaceReleased_add_mem_neutral (r := r)) (funds_le_neutral hfunds)) using 1
    abel

/-- The tokens of a pending request move to the new vault, and its griefing collateral is given
back. -/
theorem executePending_moves (hr : s.replace.replaceRequests id = some r)
    (htransfer : Returns (transferFunds R (.activeReplaceCollateral r.oldVault)
      (.freeBalance r.oldVault.accountId) (r.griefingAmount R)) s u₁ s₁)
    (hreplace : Returns (replaceTokens R r.oldVault r.newVault r.replacedAmount) s₁ u₂ s₂) :
    r.newVault.currencies.wrapped = r.oldVault.currencies.wrapped ∧
    ∃ φ T, PaysOut R .returned s r.oldVault r.amount φ ∧
      Moves R T (on (issuedAt (statusOf s) r.newVault) r.amount +
        (replaceReleased R (statusOf s) r - on (issuedAt (statusOf s) r.oldVault) r.amount + φ)) s
        s₂ := by
  have h₁ := transferFunds_moves hR hs.keyed htransfer
  obtain ⟨hwrapped, φ, hφ, h₂⟩ := replaceTokens_moves h₁.keyed (hs.distinct _ _ hr)
    hreplace
  rw [h₁.status] at h₂
  refine ⟨hwrapped.symm, φ, _, hφ.congr (congrFun h₁.status _) (h₁.keptPot_eq ?_ ?_),
    (h₁.trans h₂).congr subset_rfl ?_⟩
  · simp [held]
  · simp [held]
  · simp only [held, replaceReleased, ReplaceRequest.replacedAmount, ReplaceRequest.griefingAmount]
    abel

theorem executePending_settled (hr : s.replace.replaceRequests id = some r)
    (hpending : r.status = .pending)
    (htransfer : Returns (transferFunds R (.activeReplaceCollateral r.oldVault)
      (.freeBalance r.oldVault.accountId) (r.griefingAmount R)) s u₁ s₁)
    (hreplace : Returns (replaceTokens R r.oldVault r.newVault r.replacedAmount) s₁ u₂ s₂)
    (hset : Returns (setReplaceStatus id .completed) s₂ u s') :
    Settled R s (.replace id { r with status := .completed }) s' := by
  obtain ⟨hwrapped, φ, T, hφ, hmoves⟩ := executePending_moves hR hs hr htransfer hreplace
  refine settled_replace hr (by simp [hpending]) (by simp) ?_ ?_ hmoves hset
  · have hentries := add_mem (add_mem (sub_mem
      (Entry.issued (σ := statusOf s) r.newVault r.amount).mem
      (Entry.issued r.oldVault r.amount).mem) (replaceReleased_sub_mem hpending))
      (funds_le_journal hφ.mem)
    convert hentries using 1
    rw [hwrapped]
    abel
  · rw [Write.taken, hr, takenBy]
    simp only [hpending, reduceCtorEq, if_false]
    refine (Covers.issues (by positivity)).add_neutral (add_mem ?_ (funds_le_neutral hφ.mem))
    convert sub_mem (replaceReleased_add_mem_neutral (σ := statusOf s) (r := r))
      (redeemed_mem_neutral r.oldVault r.amount) using 1
    abel

omit hR in
/-- The tokens of a cancelled request are promised again and move to the new vault; the old vault
must be active. -/
theorem executeCancelled_moves (hr : s.replace.replaceRequests id = some r)
    (haccept : Returns (acceptReplaceTokens R r.oldVault r.newVault r.replacedAmount) s u₁ s₁)
    (hreplace : Returns (replaceTokens R r.oldVault r.newVault r.replacedAmount) s₁ u₂ s₂) :
    r.newVault.currencies.wrapped = r.oldVault.currencies.wrapped ∧
    statusOf s r.oldVault ≠ some .liquidated ∧
    recorded R s (.vault r.oldVault .toBeRedeemed) + r.amount ≤
      recorded R s (.vault r.oldVault .issued) ∧
    ∃ φ T, PaysOut R .returned s r.oldVault r.amount φ ∧
      Moves R T (-on (issuedAt (statusOf s) r.oldVault) r.amount +
        on (issuedAt (statusOf s) r.newVault) r.amount + φ) s s₂ := by
  simp only [acceptReplaceTokens, returns_bind] at haccept
  obtain ⟨_, s₃, hredeem, hissue⟩ := haccept
  obtain ⟨hactive, hle, h₁⟩ := tryIncreaseToBeRedeemedTokens_moves hs.keyed hredeem
  obtain ⟨-, h₂⟩ := tryIncreaseToBeIssuedTokens_moves h₁.keyed hissue
  obtain ⟨hwrapped, φ, hφ, h₃⟩ := replaceTokens_moves h₂.keyed (hs.distinct _ _ hr)
    hreplace
  rw [h₂.status, h₁.status] at h₃
  rw [h₁.status] at h₂
  refine ⟨hwrapped.symm, hactive, hle, φ, _, ?_, ((h₁.trans h₂).trans h₃).congr subset_rfl ?_⟩
  · cases hφ with
    | active _ hmem hzero => exact .active hactive hmem hzero
    | liquidated hliquidated _ => exact absurd (by rw [← (h₁.trans h₂).status, hliquidated]) hactive
  · simp only [ReplaceRequest.replacedAmount]
    abel

omit hR in
theorem executeCancelled_settled (hr : s.replace.replaceRequests id = some r)
    (hcancelled : r.status = .cancelled)
    (haccept : Returns (acceptReplaceTokens R r.oldVault r.newVault r.replacedAmount) s u₁ s₁)
    (hreplace : Returns (replaceTokens R r.oldVault r.newVault r.replacedAmount) s₁ u₂ s₂)
    (hset : Returns (setReplaceStatus id .completed) s₂ u s') :
    Settled R s (.replace id { r with status := .completed }) s' := by
  obtain ⟨hwrapped, hactive, hle, φ, T, hφ, hmoves⟩ := executeCancelled_moves hs hr haccept hreplace
  refine settled_replace hr (by simp [hcancelled]) (by simp) ?_ ?_ hmoves hset
  · have hentries := add_mem (sub_mem
      (Entry.issued (σ := statusOf s) r.newVault r.amount).mem
      (Entry.issued r.oldVault r.amount).mem) (funds_le_journal hφ.mem)
    convert hentries using 1
    rw [hwrapped, replacePosting, if_neg (by simp [hcancelled])]
    abel
  · rw [Write.taken, hr, takenBy]
    simp only [hcancelled, if_true]
    exact ((Covers.gives hactive (by positivity) hle).trans (.issues (by positivity))).add_neutral
      (funds_le_neutral hφ.mem)

omit hR hs in
/-- An executed request was pending, or it was cancelled. -/
theorem executeReplace_parts {envelope scp set : Bytes}
    (h : Returns (executeReplace R o id envelope scp set) s u s') :
    ∃ r s₁ s₂ u₁ u₂, s.replace.replaceRequests id = some r ∧
      (r.status = .pending ∧ Returns (transferFunds R (.activeReplaceCollateral r.oldVault)
          (.freeBalance r.oldVault.accountId) (r.griefingAmount R)) s u₁ s₁ ∨
        r.status = .cancelled ∧
          Returns (acceptReplaceTokens R r.oldVault r.newVault r.replacedAmount) s u₁ s₁) ∧
      Returns (replaceTokens R r.oldVault r.newVault r.replacedAmount) s₁ u₂ s₂ ∧
      Returns (setReplaceStatus id .completed) s₂ u s' := by
  simp only [executeReplace, returns_guards] at h
  obtain ⟨_, -, r, hr, _, -, _, -, _, -, -, h⟩ := h
  obtain ⟨hstored, hopen⟩ := getOpenOrCancelledReplaceRequest_stored hr
  cases hstatus : r.status with
  | completed => exact absurd hstatus hopen
  | pending =>
    simp only [hstatus, returns_bind] at h
    obtain ⟨_, s₁, htransfer, _, s₂, hreplace, hset⟩ := h
    exact ⟨r, s₁, s₂, _, _, hstored, .inl ⟨hstatus, htransfer⟩, hreplace, hset⟩
  | cancelled =>
    simp only [hstatus, returns_bind] at h
    obtain ⟨_, s₁, haccept, _, s₂, hreplace, hset⟩ := h
    exact ⟨r, s₁, s₂, _, _, hstored, .inr ⟨hstatus, haccept⟩, hreplace, hset⟩

theorem executeReplace_settled {envelope scp set : Bytes}
    (h : Returns (executeReplace R o id envelope scp set) s u s') :
    ∃ r, s.replace.replaceRequests id = some r ∧ r.status ≠ .completed ∧
      Settled R s (.replace id { r with status := .completed }) s' := by
  obtain ⟨r, s₁, s₂, _, _, hstored, ⟨hstatus, htransfer⟩ | ⟨hstatus, haccept⟩, hreplace, hset⟩ :=
    executeReplace_parts h
  · exact ⟨r, hstored, by simp [hstatus],
      executePending_settled hR hs hstored hstatus htransfer hreplace hset⟩
  · exact ⟨r, hstored, by simp [hstatus],
      executeCancelled_settled hs hstored hstatus haccept hreplace hset⟩

end

end Spacewalk.Ledger
