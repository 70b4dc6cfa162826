import Spacewalk.Ledger.VaultCalls
import Spacewalk.Redeem

/-!
# The calls of the redeem pallet

`requestRedeem` opens a request, `executeRedeem` and `cancelRedeem` settle one, and
`mintTokensForReimbursedRedeem` writes a request that has been settled.  The calls that redeem
without a request only post balanced entries.
-/

namespace Spacewalk.Ledger

open Foundation VaultRegistry Redeem
open Stellar (Bytes)

variable {B : Type} {R : Runtime B} {s s' s'' : Chain B} {o : Origin} {id : H256} {u : Unit}
  {r : RedeemRequest} {p : VaultCurrencyPair} {σ : VaultId → Option VaultStatus}
  {status : RedeemRequestStatus}

theorem redeemRateLimit_frame (s : Chain B) (l : RateLimit) :
    Frame R s (Redeem.rateLimitL.put s l) :=
  ⟨⟨rfl, rfl, rfl, rfl, rfl⟩, rfl, rfl, rfl, rfl, rfl, rfl, rfl⟩

theorem returns_insertRedeemRequest :
    Returns (insertRedeemRequest id r) s u s' ↔ (Write.redeem id r).apply s = s' :=
  returns_modify

/-- Setting the status writes the request again. -/
theorem setRedeemStatus_writes (hr : s.redeem.redeemRequests id = some r)
    (h : Returns (setRedeemStatus id status) s u s') :
    s' = (Write.redeem id { r with status := status }).apply s := by
  obtain rfl := returns_modify.mp h
  simp only [Write.apply, Chain.mapRedeem, hr, Option.map_some]

theorem setCancelledRedeemAmount_frame (id : H256) (value : Option (ℕ × CurrencyId)) :
    Respects (Frame R) (setCancelledRedeemAmount id value : ChainM B Unit) :=
  .modify fun _ => ⟨⟨rfl, rfl, rfl, rfl, rfl⟩, rfl, rfl, rfl, rfl, rfl, rfl, rfl⟩

theorem getOpenRedeemRequestFromId_stored (h : getOpenRedeemRequestFromId id s = .ok r) :
    s.redeem.redeemRequests id = some r ∧ r.status = .pending := by
  simp only [getOpenRedeemRequestFromId, except_rules] at h
  obtain ⟨r₁, hstored, h⟩ := h
  cases hstatus : r₁.status with
  | pending =>
    simp only [hstatus, except_pure_eq_ok] at h
    subst h
    exact ⟨hstored, hstatus⟩
  | _ => simp [hstatus] at h

/-! ## Requests -/

section

variable {n : ℕ} {v : VaultId} {tokens : Amount}

/-- As many tokens as are redeemed need not be replaced any more. -/
theorem releaseReplaceCollateral_moves (hR : R.tokens.Lawful) (hs : Keyed s)
    (h : Returns (releaseReplaceCollateral R v tokens) s u s') :
    ∃ δ ∈ funds R, Moves R {v} (-on (.vault v .toBeReplaced)
      (min (tokens.amount : ℤ) (recorded R s (.vault v .toBeReplaced))) + δ) s s' := by
  simp only [releaseReplaceCollateral, returns_rules, returns_ite] at h
  obtain ⟨⟨used, collateral⟩, s₁, hdecrease, hrelease⟩ := h
  obtain ⟨hc, hused, hfirst⟩ := decreaseToBeReplacedTokens_moves hs hdecrease
  rw [hused] at hfirst
  rcases hrelease with ⟨-, -, rfl⟩ | ⟨-, htransfer⟩
  · exact ⟨0, zero_mem _, hfirst.congr subset_rfl (by rw [add_zero])⟩
  · obtain ⟨-, δ, hδ, hsecond⟩ := releaseAvailable_moves hfirst.keyed hR hc htransfer
    exact ⟨δ, hδ, (hfirst.trans hsecond).congr (by simp) rfl⟩

theorem requestRedeem_transition {key : StellarPublicKeyRaw} (hR : R.tokens.Lawful) (hs : Sound s)
    (h : Returns (requestRedeem R o n key v) s u s') : Transition R s 0 s' := by
  simp only [requestRedeem, returns_insertRedeemRequest, returns_getSecureId, returns_guards,
    returns_withError] at h
  obtain ⟨redeemer, -, _, -, _, s₁, hlimit, _, -, _, -, -, _, -, fee, -, burned, hburned, received,
    hreceived, _, -, _, -, -, _, s₂, hredeem, _, s₃, hlock, _, -, _, s₄, hrelease, rfl⟩ := h
  have h₁ := (checkVolume_respects (redeemRateLimit_frame (R := R)) _ _ _ _ _ hlimit).moves hs.keyed
  obtain ⟨hactive, hle, h₂⟩ := tryIncreaseToBeRedeemedTokens_moves (R := R) h₁.keyed hredeem
  rw [h₁.status] at hactive h₂
  rw [h₁.balance, add_zero] at hle
  have h₃ := lockOn_moves hR h₂.keyed hlock
  have hbefore := (h₁.trans h₂).trans h₃
  have hdrawn : Keyed (drawn s₃) := hbefore.keyed.congr rfl rfl
  obtain ⟨δ, hδ, hafter⟩ := releaseReplaceCollateral_moves hR hdrawn hrelease
  -- nothing before has changed the tokens to be replaced
  have hreplaced : recorded R (drawn s₃) (.vault v .toBeReplaced) =
      recorded R s (.vault v .toBeReplaced) := by
    rw [recorded_drawn, hbefore.balance]
    simp [toBeRedeemedOn_toBeReplaced]
  rw [hreplaced] at hafter
  obtain ⟨s₅, hearlier, rfl⟩ := hafter.of_drawn
  obtain ⟨-, hfee, rfl⟩ := Amount.checkedSub_eq_ok.mp hburned
  obtain ⟨-, -, rfl⟩ := Amount.checkedSub_eq_ok.mp hreceived
  have hmoves := (hbefore.trans hearlier).congr (ε := toBeRedeemedOn (statusOf s) v
    ((n - fee.amount : ℕ) : ℤ) - on (.vault v .toBeReplaced) (min ((n - fee.amount : ℕ) : ℤ)
      (recorded R s (.vault v .toBeReplaced))) + (on (.reserved v.wrappedCurrency redeemer) n + δ))
    subset_rfl (by
      simp only
      abel)
  refine .opens (.redeem _ _) rfl (nextId_congr hbefore.toSameRequests) ?_
    ((Covers.promises hactive hle rfl).add_neutral
      (add_mem (reserved_mem_neutral _ _ _) (funds_le_neutral hδ))) hmoves
  have hentries := add_mem (add_mem (sub_mem
    (Entry.redeeming (R := R) (σ := statusOf s) v ((n - fee.amount : ℕ) : ℤ)).mem
    (Entry.replacing v (min ((n - fee.amount : ℕ) : ℤ) (recorded R s (.vault v .toBeReplaced)))
      hactive).mem)
    (funds_le_journal (Holding.escrow v.wrappedCurrency redeemer n).mem)) (funds_le_journal hδ)
  convert hentries using 1
  have hsum : ((n - fee.amount : ℕ) : ℤ) + fee.amount = n := by
    simp only at hfee
    omega
  simp only [Write.posting, redeemPosting, if_true, getCurrentInclusionFee, Nat.sub_zero,
    Nat.cast_zero, add_zero, hsum]
  abel

/-- The tokens of the liquidation vault that are redeemed are burned. -/
theorem liquidationRedeem_transition (hR : R.tokens.Lawful) (hs : Sound s)
    (h : Returns (liquidationRedeem R o p n) s u s') : Transition R s 0 s' := by
  simp only [liquidationRedeem, returns_guards] at h
  obtain ⟨redeemer, -, _, -, -, _, s₁, hlock, _, s₂, hburn, hredeem⟩ := h
  have h₁ := lockOn_moves hR hs.keyed hlock
  have h₂ := burnFrom_moves hR h₁.keyed hburn
  obtain ⟨hle, δ, hδ, h₃⟩ := redeemTokensLiquidation_moves hR h₂.keyed hredeem
  have hle : recorded R s (.system p .toBeRedeemed) + n ≤ recorded R s (.system p .issued) := by
    rw [(h₁.trans h₂).balance] at hle
    simpa using hle
  have hentries := add_mem (neg_mem (Entry.issuedSystem (σ := statusOf s) p n).mem)
    (funds_le_journal hδ)
  have hmoves := ((h₁.trans h₂).trans h₃).congr (ε := -on (.system p .issued) n +
    (-on (.issuance p.wrapped) n + δ)) subset_rfl (by
      simp only
      abel)
  refine .internal ?_ ((Covers.burnsSystem hle).add_neutral
    (add_mem (neg_mem (issuance_mem_neutral _ _)) (funds_le_neutral hδ))) hmoves
  convert hentries using 1
  abel

end

/-! ## Execution -/

section

/-- A pending request is settled once the posting clears what it counts. -/
theorem settled_redeem {T : Set VaultId} {δ : Posting} {s₁ : Chain B}
    (hr : s.redeem.redeemRequests id = some r) (hstatus : status ≠ .pending)
    (hδ : δ - redeemPosting (some r) ∈ journal R (statusOf s))
    (hcovers : Covers (statusOf s) (recorded R s) δ 0) (h : Moves R T δ s s₁)
    (hset : Returns (setRedeemStatus id status) s₁ u s') :
    Settled R s (.redeem id { r with status := status }) s' := by
  have hr₁ : s₁.redeem.redeemRequests id = some r := by rw [h.redeems, hr]
  refine ⟨.redeem hr hstatus, T, δ, s₁, ?_, hcovers, h, setRedeemStatus_writes hr₁ hset⟩
  simpa [Write.posting, Write.replaced, redeemPosting, hr, hstatus, sub_eq_add_neg] using hδ

/-- What a pending request locks and promises is released. -/
def redeemReleased (σ : VaultId → Option VaultStatus) (r : RedeemRequest) : Posting :=
  -toBeRedeemedOn σ r.vault (r.amount + r.transferFee) -
    on (.reserved r.asset r.redeemer) (r.amount + r.fee + r.transferFee)

theorem redeemReleased_sub_mem (hpending : r.status = .pending) :
    redeemReleased σ r - redeemPosting (some r) ∈ journal R σ := by
  have hentries := neg_mem (add_mem
    (Entry.redeeming (R := R) (σ := σ) r.vault (r.amount + r.transferFee)).mem
    (funds_le_journal (Holding.escrow r.asset r.redeemer (r.amount + r.fee + r.transferFee)).mem))
  convert hentries using 1
  rw [redeemReleased, redeemPosting, if_pos hpending]
  abel

/-- What is released is no longer to be redeemed. -/
theorem redeemReleased_covers {b : Posting} (r : RedeemRequest) :
    Covers σ b (redeemReleased σ r) 0 :=
  (Covers.releases (by positivity)).add_neutral (neg_mem (reserved_mem_neutral _ _ _)) 

/-- What is released together with issued tokens leaves the coverage as it is. -/
theorem redeemedReleased_mem_neutral {c : CurrencyId} (r : RedeemRequest) :
    redeemReleased σ r - (on (.issuance c) (r.amount + r.transferFee) +
      on (issuedAt σ r.vault) (r.amount + r.transferFee)) ∈ neutral σ := by
  have hmem := neg_mem (add_mem (add_mem (redeemed_mem_neutral (σ := σ) r.vault
    (r.amount + r.transferFee)) (issuance_mem_neutral c (r.amount + r.transferFee)))
    (reserved_mem_neutral r.asset r.redeemer (r.amount + r.fee + r.transferFee)))
  convert hmem using 1
  rw [redeemReleased]
  abel

variable (hR : R.tokens.Lawful) (hs : Keyed s)

include hR hs

theorem collectFee_moves (h : Returns (collectFee R r) s u s') :
    Moves R ∅ (-on (.reserved r.asset r.redeemer) r.fee) s s' := by
  simp only [collectFee, returns_bind] at h
  obtain ⟨_, s₁, hunlock, _, s₂, htransfer, hdistribute⟩ := h
  have h₁ := unlockOn_moves hR hs hunlock
  have h₂ := (transfer_frame hR _ _ _ _ _ _ htransfer).moves h₁.keyed
  have h₃ := (distributeRewards_frame hR _ _ _ _ hdistribute).moves h₂.keyed
  refine ((h₁.trans h₂).trans h₃).congr (by simp) ?_
  rw [add_zero, add_zero]
  rfl

/-- An execution burns the tokens of the request, pays the fee and settles the tokens of the vault. -/
theorem executeRedeem_moves {envelope scp set : Bytes}
    (h : Returns (executeRedeem R o id envelope scp set) s u s') :
    ∃ r φ s₁, s.redeem.redeemRequests id = some r ∧ r.status = .pending ∧
      PaysOut R .paid s r.vault (r.amount + r.transferFee) φ ∧
      Moves R {r.vault} (redeemReleased (statusOf s) r -
        (on (.issuance r.vault.currencies.wrapped) (r.amount + r.transferFee) +
          on (issuedAt (statusOf s) r.vault) (r.amount + r.transferFee)) + φ) s s₁ ∧
      Returns (setRedeemStatus id .completed) s₁ u s' := by
  simp only [executeRedeem, returns_guards] at h
  obtain ⟨_, -, r, hr, _, -, _, -, _, -, -, burned, hburned, _, s₁, hburn, _, s₂, hvolume, _, s₃,
    hcollect, _, s₄, hredeem, hset⟩ := h
  obtain ⟨hstored, hpending⟩ := getOpenRedeemRequestFromId_stored hr
  obtain ⟨-, -, rfl⟩ := Amount.checkedAdd_eq_ok.mp hburned
  have h₁ := burnFrom_moves hR hs hburn
  have h₂ := (increaseIntervalVolume_respects (redeemRateLimit_frame (R := R)) _ _ _ _ hvolume).moves h₁.keyed
  have h₃ := collectFee_moves hR h₂.keyed hcollect
  obtain ⟨hwrapped, φ, hφ, h₄⟩ := redeemTokens_moves hR h₃.keyed hredeem
  have hbefore := ((h₁.trans h₂).trans h₃).congr (U := ∅) (by simp) rfl
  rw [hbefore.status] at h₄
  have hasset : r.asset = r.vault.currencies.wrapped := hwrapped
  refine ⟨r, φ, s₄, hstored, hpending, hφ.before hbefore,
    (hbefore.trans h₄).congr (by simp) ?_, hset⟩
  simp only [RedeemRequest.paidAmount, RedeemRequest.transferFeeAmount, redeemReleased, hasset,
    Nat.cast_add, on_add]
  abel

theorem executeRedeem_settled {envelope scp set : Bytes}
    (h : Returns (executeRedeem R o id envelope scp set) s u s') :
    ∃ r, s.redeem.redeemRequests id = some r ∧ r.status = .pending ∧
      Settled R s (.redeem id { r with status := .completed }) s' := by
  obtain ⟨r, φ, s₁, hstored, hpending, hφ, hmoves, hset⟩ := executeRedeem_moves hR hs h
  refine ⟨r, hstored, hpending, settled_redeem hstored (by simp) ?_ (.of_neutral ?_) hmoves hset⟩
  · have hentries := add_mem (sub_mem (redeemReleased_sub_mem (σ := statusOf s) hpending)
      (Entry.issued r.vault (r.amount + r.transferFee)).mem) (funds_le_journal hφ.mem)
    convert hentries using 1
    abel
  · exact add_mem (redeemedReleased_mem_neutral r) (funds_le_neutral hφ.mem)

end

/-! ## Cancellation -/

section

variable {v : VaultId} {a : AccountId} {reimburse : Bool} {tokens : Amount}

/-- A cancellation takes collateral of the vault, from what was kept for the request if the vault is
liquidated, and then settles the tokens of the request. -/
theorem cancelRedeem_parts (h : Returns (cancelRedeem R o id reimburse) s u s') :
    ∃ r d value s₁, o = .signed r.redeemer ∧ s.redeem.redeemRequests id = some r ∧
      r.status = .pending ∧ getVaultFromId r.vault s = .ok d ∧
      (⟨r.amount + r.transferFee, r.asset⟩ : Amount).convertTo R r.vault.collateralCurrency s =
        .ok value ∧
      (d.isLiquidated = true ∧ Returns (confiscateLiquidated R r.redeemer reimburse r.vault
          ⟨r.amount + r.transferFee, r.asset⟩ ⟨d.toBeRedeemedTokens, r.vault.wrappedCurrency⟩) s () s₁ ∨
        ¬ d.isLiquidated = true ∧
          Returns (slashActive R r.redeemer id reimburse r.vault value) s () s₁) ∧
      Returns (settleTokens R id reimburse r ⟨r.amount + r.transferFee, r.asset⟩) s₁ u s' := by
  simp only [cancelRedeem, returns_guards, returns_ite] at h
  obtain ⟨redeemer, hsigned, _, -, r, hr, rfl, _, -, -, d, hd, burned, hburned, value, hvalue, h⟩ := h
  obtain ⟨hstored, hpending⟩ := getOpenRedeemRequestFromId_stored hr
  obtain ⟨-, -, rfl⟩ := Amount.checkedAdd_eq_ok.mp hburned
  obtain rfl := ensureSigned_eq_ok.mp hsigned
  rcases h with ⟨hliquidated, _, s₁, hconfiscate, hsettle⟩ | ⟨hactive, _, s₁, hslash, hsettle⟩
  · exact ⟨r, d, value, s₁, rfl, hstored, hpending, hd, hvalue, .inl ⟨hliquidated, hconfiscate⟩,
      hsettle⟩
  · exact ⟨r, d, value, s₁, rfl, hstored, hpending, hd, hvalue, .inr ⟨hactive, hslash⟩, hsettle⟩

variable (hR : R.tokens.Lawful) (hs : Keyed s)

include hR hs

/-- The share of a liquidated vault goes to the redeemer, or to the liquidation vault. -/
theorem confiscateLiquidated_moves {d : Vault} (hget : getVaultFromId v s = .ok d)
    (hliquidated : d.isLiquidated = true)
    (h : Returns (confiscateLiquidated R a reimburse v tokens
      ⟨d.toBeRedeemedTokens, v.wrappedCurrency⟩) s u s') :
    ∃ φ, PaysOut R (if reimburse then .paid else .confiscated) s v tokens.amount φ ∧
      Moves R {v} φ s s' := by
  obtain ⟨rfl, hd⟩ := getVaultFromId_stored hs hget
  simp only [confiscateLiquidated, getLiquidatedCollateral, returns_steps, hget, except_rules,
    Except.ok.injEq] at h
  obtain ⟨confiscated, hconfiscated, _, s₁, hdecrease, htransfer⟩ := h
  have h₁ := decreaseLiquidatedCollateral_moves (R := R) hs hdecrease
  have h₂ := transferFunds_moves hR h₁.keyed htransfer
  refine ⟨_, paysOut_share hd (Vault.isLiquidated_eq_true.mp hliquidated) rfl hconfiscated, ?_⟩
  cases reimburse with
  | true =>
    refine (h₁.trans h₂).congr (by simp [touched]) ?_
    simp only [held, if_true, Release.posting]
    abel
  | false =>
    refine (h₁.trans h₂).congr (by simp [touched]) ?_
    simp only [held, Bool.false_eq_true, if_false, Release.posting]
    abel

theorem transferFundsSaturated_moves {source destination : CurrencySource} {taken : Amount}
    (h : Returns (transferFundsSaturated R source destination tokens) s taken s') :
    Moves R (touched source ∪ touched destination)
      (held R destination taken - held R source taken) s s' := by
  simp only [transferFundsSaturated, returns_steps] at h
  obtain ⟨_, -, _, -, _, _, htransfer, rfl, rfl⟩ := h
  exact transferFunds_moves hR hs htransfer

theorem slashActive_moves (h : Returns (slashActive R a id reimburse v tokens) s u s') :
    ∃ taken : Amount, Moves R {v} (-backing v taken.amount) s s' := by
  obtain ⟨slashed, taken, s₁, s₂, value, o, hslash, hcancelled, hban⟩ : ∃ slashed taken s₁ s₂ value o,
      Returns (transferFundsSaturated R (.collateral v) (.freeBalance a) slashed) s taken s₁ ∧
      Returns (setCancelledRedeemAmount id value) s₁ () s₂ ∧
      Returns (attempt (banVault v)) s₂ o s' := by
    simp only [slashActive, returns_steps, returns_ite] at h
    rcases h with ⟨_, -, ⟨-, slashed, -, taken, s₁, hslash, _, -, _, -, _, s₂, hcancelled, o, _, hban,
      -, rfl⟩ | ⟨-, taken, s₁, hslash, _, -, _, -, _, s₂, hcancelled, o, _, hban, -, rfl⟩⟩
    · exact ⟨slashed, taken, s₁, s₂, _, o, hslash, hcancelled, hban⟩
    · exact ⟨_, taken, s₁, s₂, _, o, hslash, hcancelled, hban⟩
  have h₁ := transferFundsSaturated_moves hR hs hslash
  have h₂ := (setCancelledRedeemAmount_frame (R := R) _ _ _ _ _ hcancelled).moves h₁.keyed
  have h₃ : Moves R {v} 0 s₂ s' := by
    rcases returns_attempt hban with ⟨_, -, hban⟩ | ⟨-, rfl, -⟩
    · exact banVault_moves h₂.keyed hban
    · exact (Moves.refl h₂.keyed).congr (by simp) rfl
  refine ⟨taken, ((h₁.trans h₂).trans h₃).congr (by simp [touched]) ?_⟩
  simp only [held]
  abel

/-- The share of what is kept is taken from a liquidated vault, and backing collateral from an active
one. -/
theorem takenCollateral_moves {d : Vault} {value : Amount} (hget : getVaultFromId v s = .ok d)
    (h : d.isLiquidated = true ∧ Returns (confiscateLiquidated R a reimburse v tokens
        ⟨d.toBeRedeemedTokens, v.wrappedCurrency⟩) s u s' ∨
      ¬ d.isLiquidated = true ∧ Returns (slashActive R a id reimburse v value) s u s') :
    ∃ φ, PaysOut R (if reimburse then .paid else .confiscated) s v tokens.amount φ ∧
      Moves R {v} φ s s' := by
  rcases h with ⟨hliquidated, h⟩ | ⟨hactive, h⟩
  · exact confiscateLiquidated_moves hR hs hget hliquidated h
  · obtain ⟨taken, hmoves⟩ := slashActive_moves hR hs h
    obtain ⟨rfl, hd⟩ := getVaultFromId_stored hs hget
    refine ⟨_, .active ?_ (neg_mem (Holding.backing d.id taken.amount).mem) (fun w => ?_), hmoves⟩
    · exact hd.active (by simpa using hactive)
    · simp [backing]

/-- Whether or not the tokens are burned, what the request locks and promises is released. -/
theorem settleTokens_moves
    (h : Returns (settleTokens R id reimburse r ⟨r.amount + r.transferFee, r.asset⟩) s u s') :
    ∃ status s₁ ψ, status ≠ .pending ∧
      (ψ = 0 ∨ ψ = on (.issuance r.vault.currencies.wrapped) (r.amount + r.transferFee) +
        on (issuedAt (statusOf s) r.vault) (r.amount + r.transferFee)) ∧
      Moves R {r.vault} (redeemReleased (statusOf s) r - ψ) s s₁ ∧
      Returns (setRedeemStatus id status) s₁ u s' := by
  cases reimburse with
  | true =>
    simp only [settleTokens, if_true, returns_steps, returns_ite] at h
    obtain ⟨_, s₁, hcollect, _, -, h⟩ := h
    have h₁ := collectFee_moves hR hs hcollect
    rcases h with ⟨-, _, s₂, hburn, _, s₃, hdecrease, hset⟩ |
      ⟨-, _, s₂, hunlock, _, s₃, htransfer, _, s₄, hdecrease, hset⟩
    · have h₂ := burnFrom_moves hR h₁.keyed hburn
      obtain ⟨hwrapped, h₃⟩ := decreaseTokens_moves h₂.keyed hdecrease
      rw [h₂.status, h₁.status] at h₃
      have hasset : r.asset = r.vault.currencies.wrapped := hwrapped
      refine ⟨.reimbursed false, s₃, _, by simp, .inr rfl,
        ((h₁.trans h₂).trans h₃).congr (by simp) ?_, hset⟩
      simp only [redeemReleased, hasset, Nat.cast_add, on_add]
      abel
    · have h₂ := unlockOn_moves hR h₁.keyed hunlock
      have h₃ := (transfer_frame hR _ _ _ _ _ _ htransfer).moves h₂.keyed
      obtain ⟨-, h₄⟩ := decreaseToBeRedeemedTokens_moves h₃.keyed hdecrease
      rw [h₃.status, h₂.status, h₁.status] at h₄
      refine ⟨.reimbursed true, s₄, 0, by simp, .inl rfl,
        (((h₁.trans h₂).trans h₃).trans h₄).congr (by simp) ?_, hset⟩
      simp only [redeemReleased, Nat.cast_add, on_add]
      abel
  | false =>
    simp only [settleTokens, Bool.false_eq_true, if_false, returns_steps] at h
    obtain ⟨_, htotal, _, htotal', _, s₁, hunlock, _, s₂, hdecrease, hset⟩ := h
    obtain ⟨-, -, rfl⟩ := Amount.checkedAdd_eq_ok.mp htotal
    obtain ⟨-, -, rfl⟩ := Amount.checkedAdd_eq_ok.mp htotal'
    have h₁ := unlockOn_moves hR hs hunlock
    obtain ⟨-, h₂⟩ := decreaseToBeRedeemedTokens_moves h₁.keyed hdecrease
    rw [h₁.status] at h₂
    refine ⟨.retried, s₂, 0, by simp, .inl rfl, (h₁.trans h₂).congr (by simp) ?_, hset⟩
    simp only [redeemReleased, RedeemRequest.paidAmount, RedeemRequest.feeAmount,
      RedeemRequest.transferFeeAmount, Nat.cast_add, on_add]
    abel

/-- A cancellation takes collateral of the vault and settles the tokens of the request. -/
theorem cancelRedeem_moves (h : Returns (cancelRedeem R o id reimburse) s u s') :
    ∃ r φ ψ status s₁, s.redeem.redeemRequests id = some r ∧ r.status = .pending ∧
      status ≠ .pending ∧
      PaysOut R (if reimburse then .paid else .confiscated) s r.vault (r.amount + r.transferFee) φ ∧
      (ψ = 0 ∨ ψ = on (.issuance r.vault.currencies.wrapped) (r.amount + r.transferFee) +
        on (issuedAt (statusOf s) r.vault) (r.amount + r.transferFee)) ∧
      Moves R {r.vault} (redeemReleased (statusOf s) r - ψ + φ) s s₁ ∧
      Returns (setRedeemStatus id status) s₁ u s' := by
  obtain ⟨r, d, value, s₁, -, hstored, hpending, hget, -, htaken, hsettle⟩ := cancelRedeem_parts h
  obtain ⟨φ, hφ, h₁⟩ := takenCollateral_moves hR hs hget htaken
  obtain ⟨status, s₂, ψ, hstatus, hψ, h₂, hset⟩ := settleTokens_moves hR h₁.keyed hsettle
  rw [h₁.status] at hψ h₂
  exact ⟨r, φ, ψ, status, s₂, hstored, hpending, hstatus, hφ, hψ,
    (h₁.trans h₂).congr (by simp) (add_comm _ _), hset⟩

theorem cancelRedeem_settled (h : Returns (cancelRedeem R o id reimburse) s u s') :
    ∃ r status, s.redeem.redeemRequests id = some r ∧ r.status = .pending ∧ status ≠ .pending ∧
      Settled R s (.redeem id { r with status := status }) s' := by
  obtain ⟨r, φ, ψ, status, s₁, hstored, hpending, hstatus, hφ, hψ, hmoves, hset⟩ :=
    cancelRedeem_moves hR hs h
  have hmem := redeemReleased_sub_mem (R := R) (σ := statusOf s) hpending
  refine ⟨r, status, hstored, hpending, hstatus, ?_⟩
  rcases hψ with rfl | rfl
  · refine settled_redeem hstored hstatus ?_ ?_ hmoves hset
    · convert add_mem hmem (funds_le_journal hφ.mem) using 1
      abel
    · rw [sub_zero]
      exact (redeemReleased_covers r).add_neutral (funds_le_neutral hφ.mem)
  · refine settled_redeem hstored hstatus ?_ (.of_neutral ?_) hmoves hset
    · convert add_mem (sub_mem hmem (Entry.issued r.vault (r.amount + r.transferFee)).mem)
        (funds_le_journal hφ.mem) using 1
      abel
    · exact add_mem (redeemedReleased_mem_neutral r) (funds_le_neutral hφ.mem)

/-- The request stays reimbursed, and the vault issues the tokens that it gets. -/
theorem mintTokensForReimbursedRedeem_settled
    (h : Returns (mintTokensForReimbursedRedeem R o p id) s u s') :
    ∃ r, s.redeem.redeemRequests id = some r ∧ r.status = .reimbursed false ∧
      Settled R s (.redeem id { r with status := .reimbursed true }) s' := by
  simp only [mintTokensForReimbursedRedeem, returns_guards, except_rules] at h
  obtain ⟨a, -, _, -, r, hstored, hstatus, hvault, _, s₁, hcancelled, _, -, _, s₂, hincrease, _, s₃,
    hissue, _, s₄, hmint, hset⟩ := h
  generalize getReimbursedAmount _ _ = minted at hincrease hissue hmint
  have h₁ := (setCancelledRedeemAmount_frame (R := R) _ _ _ _ _ hcancelled).moves hs
  obtain ⟨hwrapped, h₂⟩ := tryIncreaseToBeIssuedTokens_moves (R := R) h₁.keyed hincrease
  obtain ⟨-, h₃⟩ := issueTokens_moves (R := R) h₂.keyed hissue
  have h₄ := mintTo_moves hR h₃.keyed hmint
  rw [h₂.status, h₁.status] at h₃
  rw [h₁.status] at h₂
  have hmoves := (((h₁.trans h₂).trans h₃).trans h₄).congr (ε :=
    on (issuedAt (statusOf s) ⟨a, p⟩) minted.amount + on (.issuance p.wrapped) minted.amount)
    subset_rfl (by
      rw [hwrapped, VaultId.wrappedCurrency]
      abel)
  refine ⟨r, hstored, hstatus, settled_redeem hstored (by simp) ?_
    ((Covers.issues (by positivity)).add_neutral (issuance_mem_neutral _ _)) hmoves hset⟩
  convert (Entry.issued (R := R) (σ := statusOf s) ⟨a, p⟩ minted.amount).mem using 1
  rw [redeemPosting, if_neg (by simp [hstatus])]
  abel

/-- A vault that redeems its own tokens burns them. -/
theorem selfRedeem_transition {n : ℕ} (h : Returns (selfRedeem R o p n) s u s') :
    Transition R s 0 s' := by
  simp only [selfRedeem, returns_guards, returns_withError] at h
  obtain ⟨a, -, _, -, -, ⟨fees, consumed⟩, -, _, s₁, hlock, _, s₂, hburn, _, s₃, htransfer, _, s₄,
    hdistribute, _, s₅, hincrease, _, s₆, hredeem, hrelease⟩ := h
  have h₁ := lockOn_moves hR hs hlock
  have h₂ := burnFrom_moves hR h₁.keyed hburn
  have h₃ := (transfer_frame hR _ _ _ _ _ _ htransfer).moves h₂.keyed
  have h₄ := (distributeRewards_frame hR _ _ _ _ hdistribute).moves h₃.keyed
  have hburned := ((h₁.trans h₂).trans h₃).trans h₄
  obtain ⟨hactive, hle, h₅⟩ := tryIncreaseToBeRedeemedTokens_moves h₄.keyed hincrease
  obtain ⟨hwrapped, δ, hδ, h₆⟩ := redeemTokens_moves hR h₅.keyed hredeem
  obtain ⟨ε, hε, h₇⟩ := releaseReplaceCollateral_moves hR h₆.keyed hrelease
  rw [hburned.status] at hactive h₅
  rw [h₅.status, hburned.status] at h₆
  have hle : recorded R s (.vault ⟨a, p⟩ .toBeRedeemed) + consumed.amount ≤
      recorded R s (.vault ⟨a, p⟩ .issued) := by
    rw [hburned.balance] at hle
    simpa using hle
  have hreplaced : recorded R s₆ (.vault ⟨a, p⟩ .toBeReplaced) =
      recorded R s (.vault ⟨a, p⟩ .toBeReplaced) := by
    rw [((hburned.trans h₅).trans h₆).balance, issuedAt, if_neg hactive]
    simp [toBeRedeemedOn_toBeReplaced, (funds_tokens (v := ⟨a, p⟩) (p := p) hδ.mem).2.2.2]
  rw [hreplaced] at h₇
  have hwrapped : consumed.currencyId = p.wrapped := hwrapped
  have hmoves := (((hburned.trans h₅).trans h₆).trans h₇).congr
    (ε := -on (issuedAt (statusOf s) ⟨a, p⟩) consumed.amount - on (.vault ⟨a, p⟩ .toBeReplaced)
      (min (consumed.amount : ℤ) (recorded R s (.vault ⟨a, p⟩ .toBeReplaced))) +
      (-on (.issuance p.wrapped) consumed.amount + (δ + ε))) subset_rfl (by
        simp only [hwrapped]
        abel)
  have hfunds := add_mem hδ.mem hε
  refine .internal ?_ ((Covers.burns hactive hle rfl).add_neutral
    (add_mem (neg_mem (issuance_mem_neutral _ _)) (funds_le_neutral hfunds))) hmoves
  have hentries := add_mem (sub_mem (neg_mem (Entry.issued ⟨a, p⟩ consumed.amount).mem)
    (Entry.replacing ⟨a, p⟩ (min (consumed.amount : ℤ) (recorded R s (.vault ⟨a, p⟩ .toBeReplaced)))
      hactive).mem) (funds_le_journal hfunds)
  convert hentries using 1
  abel

end

end Spacewalk.Ledger
