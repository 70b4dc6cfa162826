import Spacewalk.Ledger.VaultCalls
import Spacewalk.Issue

/-!
# The calls of the issue pallet

`requestIssue` opens a request, `executeIssue` and `cancelIssue` settle one.  Execution adapts
the amount of the stored request before it settles it; `MovesBut` relates states up to that
request.
-/

namespace Spacewalk.Ledger

open Foundation VaultRegistry Issue
open Stellar (Bytes)

variable {B : Type} {R : Runtime B} {s s' s'' : Chain B} {o : Origin} {id : H256} {u : Unit}
  {σ : VaultId → Option VaultStatus} {a : AccountId} {r : IssueRequest}

/-! ## Changes up to one request -/

section

variable {T U : Set VaultId} {δ ε : Posting}

/-- A posting during which the issue request with an identifier may change, but stays. -/
structure MovesBut (R : Runtime B) (id : H256) (T : Set VaultId) (δ : Posting) (s s' : Chain B) :
    Prop where
  moves : Moves R T δ s (under s' s.issue.issueRequests s.security.nonce)
  others : ∀ j, j ≠ id → s'.issue.issueRequests j = s.issue.issueRequests j
  present : s.issue.issueRequests id ≠ none → s'.issue.issueRequests id ≠ none
  drawn : s'.security.nonce = s.security.nonce

theorem Moves.but (h : Moves R T δ s s') : MovesBut R id T δ s s' where
  moves := by
    rw [under_self h.issues h.drawn]
    exact h
  others j _ := by rw [h.issues]
  present hid := by rwa [h.issues]
  drawn := h.drawn

theorem MovesBut.trans (h : MovesBut R id T δ s s') (h' : MovesBut R id U ε s' s'') :
    MovesBut R id (T ∪ U) (δ + ε) s s'' where
  moves := h.moves.trans h'.moves.under
  others j hj := (h'.others j hj).trans (h.others j hj)
  present hid := h'.present (h.present hid)
  drawn := h'.drawn.trans h.drawn

theorem MovesBut.congr (h : MovesBut R id T δ s s') (hT : T ⊆ U) (hδ : δ = ε) :
    MovesBut R id U ε s s' :=
  ⟨h.moves.congr hT hδ, h.others, h.present, h.drawn⟩

theorem MovesBut.keyed (h : MovesBut R id T δ s s') : Keyed s' :=
  h.moves.keyed.congr rfl rfl

theorem MovesBut.statusOf_eq (h : MovesBut R id T δ s s') : statusOf s' = statusOf s :=
  h.moves.status

/-- Setting the status at the end writes one request to the state without the changes of it. -/
theorem MovesBut.settles {status : IssueRequestStatus} (h : MovesBut R id T δ s s')
    (hr : s.issue.issueRequests id = some r) (hset : Returns (setIssueStatus id status) s' u s'') :
    ∃ r' s₁, r'.status = status ∧ Moves R T δ s s₁ ∧ s'' = (Write.issue id r').apply s₁ := by
  obtain rfl := returns_modify.mp hset
  obtain ⟨r', hr'⟩ := Option.ne_none_iff_exists'.mp (h.present (by simp [hr]))
  refine ⟨{ r' with status := status }, _, rfl, h.moves, ?_⟩
  have hrequests : Function.update s'.issue.issueRequests id (some { r' with status := status }) =
      Function.update s.issue.issueRequests id (some { r' with status := status }) := by
    funext j
    by_cases hj : j = id
    · subst hj
      simp
    · simp [hj, h.others j hj]
  simp only [Write.apply, Chain.mapIssue, under, hr', Option.map_some, hrequests, ← h.drawn]

end

theorem issueRateLimit_frame (s : Chain B) (l : RateLimit) : Frame R s (Issue.rateLimitL.put s l) :=
  ⟨⟨rfl, rfl, rfl, rfl, rfl⟩, rfl, rfl, rfl, rfl, rfl, rfl, rfl⟩

/-! ## Requests -/

section

variable {n : ℕ} {v : VaultId}

theorem returns_insertIssueRequest :
    Returns (insertIssueRequest id r) s u s' ↔ (Write.issue id r).apply s = s' :=
  returns_modify

theorem requestIssue_transition (hR : R.tokens.Lawful) (hs : Sound s)
    (h : Returns (requestIssue R o n v) s u s') : Transition R s 0 s' := by
  simp only [requestIssue, returns_insertIssueRequest, returns_getSecureId, returns_guards] at h
  obtain ⟨requester, -, _, -, _, s₁, hlimit, _, -, -, _, -, _, -, griefing, -, _, s₂, hlock, _, -, -,
    _, s₃, hpromise, _, -, fee, -, amountUser, hamount, _, -, rfl⟩ := h
  have h₁ := (checkVolume_respects (issueRateLimit_frame (R := R)) _ _ _ _ _ hlimit).moves hs.keyed
  have h₂ := lockOn_moves hR h₁.keyed hlock
  obtain ⟨-, h₃⟩ := tryIncreaseToBeIssuedTokens_moves h₂.keyed hpromise
  have hmoves := (h₁.trans h₂).trans h₃
  obtain ⟨-, hle, rfl⟩ := Amount.checkedSub_eq_ok.mp hamount
  rw [h₂.status, h₁.status] at hmoves
  refine .opens (.issue _ _) rfl (nextId_congr hmoves.toSameRequests) ?_ (.of_neutral ?_) hmoves
  swap
  · exact add_mem (add_mem (zero_mem _) (reserved_mem_neutral _ _ _)) (toBeIssuedAt_mem_neutral _ _)
  have hsum : ((n - fee.amount : ℕ) : ℤ) + fee.amount = n := by
    simp only at hle
    omega
  simp only [Write.posting, issuePosting, if_true, hsum]
  have hentries := add_mem
    (funds_le_journal (Holding.griefing requester griefing.amount).mem)
    (Entry.promised (R := R) (σ := statusOf s) v n).mem
  convert hentries using 1
  abel

end

/-! ## Execution -/

section

variable {r' : IssueRequest} {amount expected : Amount}

/-- The amount and the fee of the copy add up to the amount that was transferred. -/
theorem setIssueAmount_but (hs : Keyed s) (h : Returns (setIssueAmount id r amount) s r' s') :
    MovesBut R id ∅ 0 s s' ∧ r'.vault = r.vault ∧ r'.asset = r.asset ∧
      r'.griefingCollateral = r.griefingCollateral ∧ r'.amount + r'.fee = amount.amount := by
  simp only [setIssueAmount, mutateIssueRequest, returns_guards] at h
  obtain ⟨fee, -, _, hsub, rfl, rfl⟩ := h
  obtain ⟨-, hle, rfl⟩ := Amount.checkedSub_eq_ok.mp hsub
  refine ⟨⟨?_, ?_, ?_, rfl⟩, rfl, rfl, rfl, Nat.sub_add_cancel hle⟩
  · exact Moves.refl hs
  · intro j hj
    simp [Chain.mapIssue, hj]
  · intro hid
    simpa [Chain.mapIssue] using hid

theorem getExecutableIssueRequestFromId_stored (h : getExecutableIssueRequestFromId id s = .ok r) :
    s.issue.issueRequests id = some r ∧ r.status ≠ .completed := by
  simp only [getExecutableIssueRequestFromId, except_rules] at h
  obtain ⟨r₁, hstored, h⟩ := h
  cases hstatus : r₁.status with
  | completed => simp [hstatus] at h
  | cancelled =>
    simp only [hstatus, except_rules] at h
    obtain ⟨_, -, rfl⟩ := h
    exact ⟨hstored, by simp [hstatus]⟩
  | pending =>
    simp only [hstatus, except_pure_eq_ok] at h
    subst h
    exact ⟨hstored, by simp [hstatus]⟩

theorem getPendingIssue_stored (h : getPendingIssue id s = .ok r) :
    s.issue.issueRequests id = some r ∧ r.status = .pending := by
  simp only [getPendingIssue, except_rules] at h
  obtain ⟨r₁, hstored, h⟩ := h
  cases hstatus : r₁.status with
  | pending =>
    simp only [hstatus, except_pure_eq_ok] at h
    subst h
    exact ⟨hstored, hstatus⟩
  | _ => simp [hstatus] at h

/-- What a pending request locks and promises is released. -/
def released (R : Runtime B) (σ : VaultId → Option VaultStatus) (r : IssueRequest) : Posting :=
  -on (toBeIssuedAt σ r.vault) (r.amount + r.fee) -
    on (.reserved R.getGriefingCollateralCurrencyId r.requester) r.griefingCollateral

theorem released_sub_mem (hpending : r.status = .pending) :
    released R σ r - issuePosting (some r) ∈ journal R σ := by
  have hentries := neg_mem (add_mem (Entry.promised (R := R) (σ := σ) r.vault (r.amount + r.fee)).mem
    (funds_le_journal (Holding.griefing r.requester r.griefingCollateral).mem))
  convert hentries using 1
  rw [released, issuePosting, if_pos hpending]
  abel

theorem released_issuedAt (r : IssueRequest) (v : VaultId) : released R σ r (issuedAt σ v) = 0 := by
  simp only [released, issuedAt, toBeIssuedAt]
  split_ifs <;> simp

theorem released_mem_neutral (r : IssueRequest) : released R σ r ∈ neutral σ :=
  sub_mem (neg_mem (toBeIssuedAt_mem_neutral _ _)) (reserved_mem_neutral _ _ _)

variable (hR : R.tokens.Lawful) (hs : Keyed s)

include hR hs

theorem decreaseIssueAmount_but {p : Amount × IssueRequest}
    (hexpected : expected.amount = r.amount + r.fee)
    (h : Returns (decreaseIssueAmount R id r amount expected) s p s') :
    p.1.currencyId = R.getGriefingCollateralCurrencyId ∧
    p.2.vault = r.vault ∧ p.2.asset = r.asset ∧
    MovesBut R id {r.vault} (on (toBeIssuedAt (statusOf s) r.vault) (p.2.amount + p.2.fee) +
      released R (statusOf s) r + on (.reserved R.getGriefingCollateralCurrencyId r.requester)
        p.1.amount) s s' := by
  simp only [decreaseIssueAmount, returns_steps] at h
  obtain ⟨deficit, hdeficit, _, s₁, hdecrease, release, hrelease, slashed, hslashed, _, s₂, htransfer,
    r', _, hset, rfl, rfl⟩ := h
  obtain ⟨-, hle, rfl⟩ := Amount.checkedSub_eq_ok.mp hdeficit
  obtain ⟨-, hle', rfl⟩ := Amount.checkedSub_eq_ok.mp hslashed
  have h₁ := decreaseToBeIssuedTokens_moves (R := R) hs hdecrease
  have h₂ := transferFunds_moves hR h₁.keyed htransfer
  obtain ⟨h₃, hvault, hasset, -, htotal⟩ := setIssueAmount_but (R := R) h₂.keyed hset
  refine ⟨calculateCollateral_currencyId hrelease, hvault, hasset,
    ((h₁.but.trans h₂.but).trans h₃).congr (by simp [touched]) ?_⟩
  have hpromise : ((expected.amount - amount.amount : ℕ) : ℤ) =
      (r.amount + r.fee) - (r'.amount + r'.fee) := by
    omega
  have hgriefing : (((r.griefingAmount R).amount - release.amount : ℕ) : ℤ) =
      r.griefingCollateral - release.amount := by
    rw [Nat.cast_sub hle']
    rfl
  simp only [held, hpromise, hgriefing, on_sub, released]
  rw [show (r.griefingAmount R).currencyId = R.getGriefingCollateralCurrencyId from rfl]
  abel

omit hR in
theorem tryIncreaseIssueAmount_but (hexpected : expected.amount = r.amount + r.fee)
    (h : Returns (tryIncreaseIssueAmount R id r amount expected) s r' s') :
    r'.vault = r.vault ∧ r'.asset = r.asset ∧ r'.griefingCollateral = r.griefingCollateral ∧
    MovesBut R id {r.vault} (on (toBeIssuedAt (statusOf s) r.vault) (r'.amount + r'.fee) -
      on (toBeIssuedAt (statusOf s) r.vault) (r.amount + r.fee)) s s' := by
  simp only [tryIncreaseIssueAmount, returns_steps] at h
  obtain ⟨surplus, -, available, -, increase, -, result, s₁, hattempt, h⟩ := h
  rcases returns_attempt hattempt with ⟨_, rfl, hincrease⟩ | ⟨rfl, rfl, -⟩
  · simp only [returns_steps] at h
    obtain ⟨total, htotal, hset⟩ := h
    obtain ⟨-, -, rfl⟩ := Amount.checkedAdd_eq_ok.mp htotal
    obtain ⟨-, h₁⟩ := tryIncreaseToBeIssuedTokens_moves hs hincrease
    obtain ⟨h₂, hvault, hasset, hgriefing, hsum⟩ := setIssueAmount_but h₁.keyed hset
    refine ⟨hvault, hasset, hgriefing, (h₁.but.trans h₂).congr (by simp) ?_⟩
    have hamount : (increase.amount : ℤ) = (r'.amount + r'.fee) - (r.amount + r.fee) := by
      simp only at hsum
      omega
    rw [← on_sub, add_zero, hamount]
  · simp only [returns_pure] at h
    obtain ⟨rfl, rfl⟩ := h
    exact ⟨rfl, rfl, rfl, (Moves.refl hs).but.congr (by simp) (by simp)⟩

omit hs in
/-- The griefing collateral of a request is released that has been adapted, if at all, to more
tokens. -/
theorem unlockGriefing_but {r₁ : IssueRequest} {s₁ : Chain B}
    (hgriefing : r₁.griefingCollateral = r.griefingCollateral)
    (hadapted : MovesBut R id {r.vault} (on (toBeIssuedAt (statusOf s) r.vault) (r₁.amount + r₁.fee) -
      on (toBeIssuedAt (statusOf s) r.vault) (r.amount + r.fee)) s s₁)
    (h : Returns ((r₁.griefingAmount R).unlockOn R r.requester) s₁ u s') :
    MovesBut R id {r.vault} (on (toBeIssuedAt (statusOf s) r.vault) (r₁.amount + r₁.fee) +
      released R (statusOf s) r) s s' := by
  have hunlock := unlockOn_moves hR hadapted.keyed h
  refine (hadapted.trans hunlock.but).congr (by simp) ?_
  simp only [released, IssueRequest.griefingAmount, hgriefing]
  abel

omit hR hs in
/-- The branches of `_handle_issue_requests`.  A cancelled request is adapted to what was
transferred.  For a pending one, less than expected reduces the request and the griefing
collateral to release; at least the expected amount releases all of it, and a surplus enlarges the
request unless the vault is liquidated. -/
theorem handleIssueRequests_cases (h : Returns (handleIssueRequests R a id r amount) s r' s') :
    ∃ expected : Amount, r.userAmount.checkedAdd r.feeAmount = .ok expected ∧
      ((r.status = .cancelled ∧
          ∃ s₁, Returns (tryIncreaseToBeIssuedTokens R r.vault amount) s () s₁ ∧
            ((amount.amount ≠ expected.amount ∧ Returns (setIssueAmount id r amount) s₁ r' s') ∨
              (amount.amount = expected.amount ∧ r = r' ∧ s₁ = s'))) ∨
        (r.status = .pending ∧ amount.amount < expected.amount ∧ r.requester = a ∧
          ∃ p s₁, Returns (decreaseIssueAmount R id r amount expected) s p s₁ ∧ p.2 = r' ∧
            Returns (p.1.unlockOn R r.requester) s₁ () s') ∨
        (r.status = .pending ∧ expected.amount ≤ amount.amount ∧
          ∃ s₁, Returns ((r'.griefingAmount R).unlockOn R r.requester) s₁ () s' ∧
            (((amount.amount = expected.amount ∨ isVaultLiquidated r.vault s = .ok true) ∧
                r = r' ∧ s = s₁) ∨
              (expected.amount < amount.amount ∧ isVaultLiquidated r.vault s = .ok false ∧
                Returns (tryIncreaseIssueAmount R id r amount expected) s r' s₁)))) := by
  simp only [handleIssueRequests, returns_steps] at h
  obtain ⟨expected, hexpected, h⟩ := h
  refine ⟨expected, hexpected, ?_⟩
  cases hstatus : r.status with
  | completed =>
    rw [hstatus] at h
    simp only [returns_throw] at h
  | cancelled =>
    left
    simp only [hstatus, returns_guards, returns_ite, except_rules, Amount.lt, Amount.ne, Amount.eq,
      Amount.compare_eq_ok, Bool.not_eq_true', not_not, decide_eq_true_eq, decide_eq_false_iff_not,
      exists_eq_left] at h
    obtain ⟨_, s₁, hincrease, -, h⟩ := h
    refine ⟨rfl, s₁, hincrease, ?_⟩
    rcases h with ⟨-, -, -, h⟩ | ⟨-, -, h⟩ <;> exact h
  | pending =>
    right
    simp only [hstatus, returns_guards, returns_ite, Amount.lt, Amount.gt, Amount.compare_eq_ok,
      decide_eq_true_eq, Bool.not_eq_true, decide_eq_false_iff_not, not_lt, exists_eq_left] at h
    rcases h with ⟨-, ⟨hless, hexecutor, p, s₁, hdecrease, _, _, hunlock, rfl, rfl⟩ |
      ⟨hle, -, ⟨hmore, liquidated, hvault, ⟨rfl, _, _, hunlock, rfl, rfl⟩ |
        ⟨rfl, r₁, s₁, hincrease, _, _, hunlock, rfl, rfl⟩⟩ | ⟨hmore, _, _, hunlock, rfl, rfl⟩⟩⟩
    · exact .inl ⟨rfl, hless, hexecutor, p, s₁, hdecrease, rfl, hunlock⟩
    · exact .inr ⟨rfl, hle, s, hunlock, .inl ⟨.inr hvault, rfl, rfl⟩⟩
    · exact .inr ⟨rfl, hle, s₁, hunlock, .inr ⟨hmore, hvault, hincrease⟩⟩
    · exact .inr ⟨rfl, hle, s, hunlock, .inl ⟨.inl (le_antisymm hmore hle), rfl, rfl⟩⟩

/-- The tokens of the adapted request are to be issued, and what a pending request locks and
promises is released. -/
theorem handleIssueRequests_but (h : Returns (handleIssueRequests R a id r amount) s r' s') :
    r'.vault = r.vault ∧ r'.asset = r.asset ∧
    ∃ δ ∈ neutral (statusOf s), δ - issuePosting (some r) ∈ journal R (statusOf s) ∧
      δ (issuedAt (statusOf s) r.vault) = 0 ∧ MovesBut R id {r.vault}
        (on (toBeIssuedAt (statusOf s) r.vault) (r'.amount + r'.fee) + δ) s s' := by
  obtain ⟨expected, hexpected, h⟩ := handleIssueRequests_cases h
  obtain ⟨-, -, rfl⟩ := Amount.checkedAdd_eq_ok.mp hexpected
  rcases h with ⟨hstatus, s₁, hincrease, h⟩ | ⟨hstatus, -, -, p, s₁, hdecrease, rfl, hunlock⟩ |
    ⟨hstatus, -, s₁, hunlock, h⟩
  · -- a cancelled request has locked and promised nothing
    obtain ⟨-, h₁⟩ := tryIncreaseToBeIssuedTokens_moves hs hincrease
    have hzero : (0 : Posting) - issuePosting (some r) ∈ journal R (statusOf s) := by
      simp [issuePosting, hstatus]
    rcases h with ⟨-, hset⟩ | ⟨hsame, rfl, rfl⟩
    · obtain ⟨h₂, hvault, hasset, -, hsum⟩ := setIssueAmount_but (R := R) h₁.keyed hset
      refine ⟨hvault, hasset, 0, zero_mem _, hzero, rfl, (h₁.but.trans h₂).congr (by simp) ?_⟩
      rw [← hsum, Nat.cast_add]
    · refine ⟨rfl, rfl, 0, zero_mem _, hzero, rfl, h₁.but.congr subset_rfl ?_⟩
      rw [hsame, add_zero]
      exact congrArg _ (Nat.cast_add _ _)
  · have hmem := released_sub_mem (R := R) (σ := statusOf s) hstatus
    obtain ⟨hc, hvault, hasset, h₁⟩ := decreaseIssueAmount_but hR hs rfl hdecrease
    have h₂ := unlockOn_moves hR h₁.keyed hunlock
    refine ⟨hvault, hasset, _, released_mem_neutral r, hmem, released_issuedAt r _,
      (h₁.trans h₂.but).congr (by simp) ?_⟩
    rw [hc]
    abel
  · have hmem := released_sub_mem (R := R) (σ := statusOf s) hstatus
    rcases h with ⟨-, rfl, rfl⟩ | ⟨-, -, hincrease⟩
    · have hkept : MovesBut R id {r.vault} (on (toBeIssuedAt (statusOf s) r.vault)
          (r.amount + r.fee) - on (toBeIssuedAt (statusOf s) r.vault) (r.amount + r.fee)) s s :=
        (Moves.refl hs).but.congr (by simp) (by simp)
      exact ⟨rfl, rfl, _, released_mem_neutral r, hmem, released_issuedAt r _,
        unlockGriefing_but hR rfl hkept hunlock⟩
    · obtain ⟨hvault, hasset, hgriefing, h₁⟩ := tryIncreaseIssueAmount_but hs rfl hincrease
      exact ⟨hvault, hasset, _, released_mem_neutral r, hmem, released_issuedAt r _,
        unlockGriefing_but hR hgriefing h₁ hunlock⟩

/-- The tokens of the adapted request are issued and minted. -/
theorem issued_but {s₁ s₂ s₃ s₄ s₅ s₆ : Chain B}
    (hhandle : Returns (handleIssueRequests R a id r amount) s r' s₁)
    (hissue : Returns (issueTokens r'.vault ⟨r'.amount + r'.fee, r'.asset⟩) s₁ u s₂)
    (hmint : Returns (r'.userAmount.mintTo R r.requester) s₂ u s₃)
    (hvolume : Returns (RateLimit.increaseIntervalVolume R Issue.rateLimitL r'.userAmount) s₃ u s₄)
    (hfee : Returns (r'.feeAmount.mintTo R R.feePoolAccountId) s₄ u s₅)
    (hdistribute : Returns (Fee.distributeRewards R r'.feeAmount) s₅ u s₆) :
    ∃ δ ∈ neutral (statusOf s), δ - issuePosting (some r) ∈ journal R (statusOf s) ∧
      δ (issuedAt (statusOf s) r.vault) = 0 ∧ MovesBut R id {r.vault}
        (on (issuedAt (statusOf s) r.vault) (r'.amount + r'.fee) +
          (on (.issuance r.vault.currencies.wrapped) (r'.amount + r'.fee) + δ)) s s₆ := by
  obtain ⟨hvault, -, δ, hneutral, hδ, hissued, h₁⟩ := handleIssueRequests_but hR hs hhandle
  obtain ⟨hwrapped, h₂⟩ := issueTokens_moves (R := R) h₁.keyed hissue
  have h₃ := mintTo_moves hR h₂.keyed hmint
  have h₄ := (increaseIntervalVolume_respects (issueRateLimit_frame (R := R)) _ _ _ _ hvolume).moves h₃.keyed
  have h₅ := mintTo_moves hR h₄.keyed hfee
  have h₆ := (distributeRewards_frame hR _ _ _ _ hdistribute).moves h₅.keyed
  have htokens := (((h₂.trans h₃).trans h₄).trans h₅).trans h₆
  rw [h₁.statusOf_eq, hvault] at htokens
  have hasset : r'.asset = r.vault.currencies.wrapped := by
    rw [← hvault]
    exact hwrapped
  refine ⟨δ, hneutral, hδ, hissued, (h₁.trans htokens.but).congr (by simp) ?_⟩
  simp only [IssueRequest.userAmount, IssueRequest.feeAmount, Nat.cast_add, hasset, on_add]
  abel

/-- An executed request was not completed before, and is afterwards. -/
theorem executeIssue_settled {envelope scp set : Bytes}
    (h : Returns (executeIssue R o id envelope scp set) s u s') :
    ∃ r', r'.status = .completed ∧ Settled R s (.issue id r') s' := by
  simp only [executeIssue, returns_steps] at h
  obtain ⟨executor, -, r, hr, _, -, transferred, -, r₁, s₁, hhandle, total, htotal, _, s₂, hissue, _,
    s₃, hmint, _, s₄, hvolume, _, s₅, hfee, _, s₆, hdistribute, hset⟩ := h
  obtain ⟨hstored, hopen⟩ := getExecutableIssueRequestFromId_stored hr
  obtain ⟨-, -, rfl⟩ := Amount.checkedAdd_eq_ok.mp htotal
  obtain ⟨δ, hneutral, hδ, -, hbut⟩ :=
    issued_but hR hs hhandle hissue hmint hvolume hfee hdistribute
  obtain ⟨r', s₇, hr', hmoves, rfl⟩ := hbut.settles hstored hset
  refine ⟨r', hr', .issue hstored hopen (by simp [hr']), _, _, s₇, ?_, ?_, hmoves, rfl⟩
  · have hissued := add_mem
      (Entry.issued (σ := statusOf s) r.vault (r₁.amount + r₁.fee)).mem hδ
    convert hissued using 1
    simp only [Write.posting, Write.replaced, hstored, issuePosting, hr', reduceCtorEq, if_false]
    abel
  · exact (Covers.issues (by positivity)).add_neutral
      (add_mem (issuance_mem_neutral _ _) hneutral)

end

/-! ## Cancellation -/

section

variable (hR : R.tokens.Lawful) (hs : Keyed s)

include hR hs

/-- What is not slashed is released. -/
theorem griefingToSlash_moves {slashed : Amount} (h : Returns (griefingToSlash R a r) s slashed s') :
    slashed.currencyId = R.getGriefingCollateralCurrencyId ∧
      Moves R ∅ (on (.reserved R.getGriefingCollateralCurrencyId r.requester) slashed.amount -
        on (.reserved R.getGriefingCollateralCurrencyId r.requester) r.griefingCollateral) s s' := by
  simp only [griefingToSlash, returns_steps, returns_ite, returns_throw, and_false, or_false] at h
  rcases h with ⟨_, -, ⟨-, rfl, rfl⟩ | ⟨-, rfl, part, hpart, _, hmin, release, hrelease, _, _,
    hunlock, rfl, rfl⟩⟩
  · refine ⟨rfl, (Moves.refl hs).congr subset_rfl ?_⟩
    rw [IssueRequest.griefingAmount, sub_self]
  · obtain ⟨-, rfl⟩ := Amount.min_eq_ok.mp hmin
    obtain ⟨-, rfl⟩ := Amount.saturatingSub_eq_ok.mp hrelease
    refine ⟨calculateCollateral_currencyId hpart, (unlockOn_moves hR hs hunlock).congr subset_rfl ?_⟩
    rw [Nat.cast_sub (min_le_right _ _), ← on_sub, ← on_neg, neg_sub]
    rfl

/-- A cancelled request was pending before. -/
theorem cancelIssue_settled (h : Returns (cancelIssue R o id) s u s') :
    ∃ r r', s.issue.issueRequests id = some r ∧ r.status = .pending ∧ r'.status = .cancelled ∧
      Settled R s (.issue id r') s' := by
  simp only [cancelIssue, returns_steps, returns_ite] at h
  obtain ⟨requester, -, r, hr, slashed, s₁, hslash, _, -, hrest⟩ := h
  obtain ⟨hstored, hpending⟩ := getPendingIssue_stored hr
  obtain ⟨hc, h₁⟩ := griefingToSlash_moves hR hs hslash
  -- slashed or released, the collateral is not reserved any more
  obtain ⟨s₂, h₂, total, htotal, _, s₃, hdecrease, hset⟩ : ∃ s₂,
      Moves R ∅ (-on (.reserved R.getGriefingCollateralCurrencyId r.requester) slashed.amount) s₁ s₂ ∧
      ∃ total, r.userAmount.checkedAdd r.feeAmount = .ok total ∧ ∃ u' s₃,
        Returns (decreaseToBeIssuedTokens r.vault total) s₂ u' s₃ ∧
          Returns (setIssueStatus id .cancelled) s₃ u s' := by
    rcases hrest with ⟨-, _, s₂, hunlock, hrest⟩ | ⟨-, _, s₂, htransfer, hrest⟩
    · refine ⟨s₂, ?_, hrest⟩
      rw [← hc]
      exact unlockOn_moves hR h₁.keyed hunlock
    · refine ⟨s₂, (transferFunds_moves hR h₁.keyed htransfer).congr (by simp [touched]) ?_, hrest⟩
      simp [held, hc]
  obtain ⟨-, -, rfl⟩ := Amount.checkedAdd_eq_ok.mp htotal
  have h₃ := decreaseToBeIssuedTokens_moves (R := R) h₂.keyed hdecrease
  rw [h₂.status, h₁.status] at h₃
  obtain ⟨r', s₄, hr', hmoves, rfl⟩ := ((h₁.trans h₂).trans h₃).but.settles hstored hset
  have hmoves := hmoves.congr (ε := released R (statusOf s) r) subset_rfl (by
    simp only [released, IssueRequest.userAmount, IssueRequest.feeAmount, Nat.cast_add]
    abel)
  refine ⟨r, r', hstored, hpending, hr', .issue hstored (by simp [hpending]) (by simp [hr']), _, _,
    s₄, ?_, .of_neutral (released_mem_neutral r), hmoves, rfl⟩
  convert released_sub_mem (σ := statusOf s) hpending using 1
  simp only [Write.posting, Write.replaced, hstored, issuePosting, hr', reduceCtorEq, if_false]
  abel

end

end Spacewalk.Ledger
