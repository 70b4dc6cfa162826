import Spacewalk.Ledger.TokenLog
import Spacewalk.Rewards.Distribution

/-!
# The amounts of executed issue requests

The execution of an issue request adapts the request to the payment if that is not the expected
amount.  The adapted copy decides what is minted; of the adapted values, only the amount is
stored, and the stored request keeps the fee that it had when it was opened.

`executeIssueMinting` is the call with a log of what it mints, and `adaptedTotal` says from the state
before the call whether, and to which amount, it adapts the request.  By `minted_as_stored_iff` the
stored request agrees with what was minted exactly if the fee of the adapted amount is the old fee.
-/

namespace Spacewalk.Ledger

open Foundation VaultRegistry Issue
open RewardDistribution (feeGenesis)
open Stellar (Bytes)

variable {B : Type}

section

variable (R : Runtime B)

/-- `execute_issue`, with a log of the amounts that are minted and their receivers. -/
def executeIssueMinting (origin : Origin) (issueId : H256) (transactionEnvelopeXdrEncoded
    externalizedEnvelopesEncoded transactionSetEncoded : Bytes) :
    Logged (AccountId × Amount) DispatchError (Chain B) Unit := do
  let executor ← ensureSigned origin
  let issue ← read (getExecutableIssueRequestFromId (B := B) issueId)
  let requester := issue.requester
  let transactionEnvelope ← read (StellarRelay.validatePayment R issueId
    transactionEnvelopeXdrEncoded externalizedEnvelopesEncoded transactionSetEncoded)
  let amountTransferred ← Currency.getAmountFromTransactionEnvelope transactionEnvelope
    issue.stellarAddress issue.asset
  let issue ← handleIssueRequests R executor issueId issue amountTransferred
  let total ← issue.userAmount.checkedAdd issue.feeAmount
  issueTokens (B := B) issue.vault total
  logging (requester, issue.userAmount) (issue.userAmount.mintTo R requester)
  RateLimit.increaseIntervalVolume R rateLimitL issue.userAmount
  logging (R.feePoolAccountId, issue.feeAmount) (issue.feeAmount.mintTo R R.feePoolAccountId)
  Fee.distributeRewards R issue.feeAmount
  setIssueStatus (B := B) issueId .completed

theorem erase_executeIssueMinting (origin : Origin) (issueId : H256) (transactionEnvelopeXdrEncoded
    externalizedEnvelopesEncoded transactionSetEncoded : Bytes) :
    erase (executeIssueMinting R origin issueId transactionEnvelopeXdrEncoded
      externalizedEnvelopesEncoded transactionSetEncoded) =
      executeIssue R origin issueId transactionEnvelopeXdrEncoded externalizedEnvelopesEncoded
        transactionSetEncoded := by
  simp only [executeIssueMinting, executeIssue, erase_rules]

/-- The amount to which the execution adapts a request that was paid for with `paid`, if it does.  A
payment of the expected amount leaves the request, and so does a surplus if the vault is liquidated or
does not take it. -/
def adaptedTotal (s : Chain B) (r : IssueRequest) (paid : Amount) : Option Amount :=
  let expected : Amount := ⟨r.amount + r.fee, r.asset⟩
  if paid.amount = expected.amount then none
  else if r.status = .cancelled ∨ paid.amount < expected.amount then some paid
  else match isVaultLiquidated r.vault s, getIssuableTokensFromVault R r.vault s with
    | .ok false, .ok issuable =>
      let increase : Amount := ⟨min (paid.amount - expected.amount) issuable.amount, r.asset⟩
      (outcome (tryIncreaseToBeIssuedTokens R r.vault increase) s).map fun _ =>
        ⟨expected.amount + increase.amount, r.asset⟩
    | _, _ => none

/-- The stored request is completed and has the amount and the fee that were minted, and together
they are what was added to the issued tokens of the vault, or of the liquidation vault if the vault
is liquidated. -/
def StoredAsMinted (s : Chain B) (id : H256) (mints : List (AccountId × Amount)) (s' : Chain B) :
    Prop :=
  ∃ r, s'.issue.issueRequests id = some r ∧ r.status = .completed ∧
    mints = [(r.requester, r.userAmount), (R.feePoolAccountId, r.feeAmount)] ∧
    recorded R s' (issuedAt (statusOf s) r.vault) =
      recorded R s (issuedAt (statusOf s) r.vault) + (r.amount + r.fee)

end

variable {R : Runtime B} {W : Set CurrencyId} {s s' : Chain B} {id : H256} {r r' : IssueRequest}
  {paid : Amount}

/-! ## The stored request -/

/-- The adapted amount is stored, and the adapted fee is not. -/
theorem setIssueAmount_stored (h : Returns (setIssueAmount id r paid) s r' s')
    (hr : s.issue.issueRequests id = some r) :
    Fee.getIssueFee paid s = .ok ⟨r'.fee, paid.currencyId⟩ ∧
      s'.issue.issueRequests id = some { r with amount := r'.amount } := by
  simp only [setIssueAmount, mutateIssueRequest, returns_guards] at h
  obtain ⟨fee, hfee, amount, -, rfl, rfl⟩ := h
  constructor
  · rw [hfee, ← Amount.roundedMul_currencyId hfee]
  · simp [Chain.mapIssue, hr]

/-- What `_handle_issue_requests` stores, and the fee of the copy that it returns. -/
theorem handleIssueRequests_stored {a : AccountId} (hpaid : paid.currencyId = r.asset)
    (h : Returns (handleIssueRequests R a id r paid) s r' s')
    (hr : s.issue.issueRequests id = some r) :
    s'.issue.issueRequests id = some { r with amount := r'.amount } ∧
      ((adaptedTotal R s r paid = none ∧ r'.fee = r.fee) ∨
        ∃ total, adaptedTotal R s r paid = some total ∧
          Fee.getIssueFee total s = .ok ⟨r'.fee, r.asset⟩) := by
  have hkeep {m : ChainM B Unit} {u : Unit} {s₁ s₂ : Chain B} (hm : Respects SameSurroundings m)
      (h₁ : Returns m s₁ u s₂) :
      s₂.issue.issueRequests = s₁.issue.issueRequests ∧ s₂.fee = s₁.fee :=
    ⟨congrArg (fun t => t.issue.issueRequests) (hm _ _ _ h₁), congrArg Surroundings.fee (hm _ _ _ h₁)⟩
  have hfee {amount : Amount} {s₁ : Chain B} (h₁ : s₁.fee = s.fee) :
      Fee.getIssueFee amount s₁ = Fee.getIssueFee amount s := by
    rw [Fee.getIssueFee, Fee.getIssueFee, h₁]
  obtain ⟨expected, hexpected, h⟩ := handleIssueRequests_cases h
  obtain ⟨-, -, rfl⟩ := Amount.checkedAdd_eq_ok.mp hexpected
  simp only [IssueRequest.userAmount, IssueRequest.feeAmount] at h
  simp only [adaptedTotal]
  rcases h with ⟨hstatus, s₁, hincrease, h⟩ | ⟨hstatus, hless, -, p, s₁, hdecrease, rfl, hunlock⟩ |
    ⟨hstatus, hle, s₁, hunlock, h⟩
  · obtain ⟨hrequests, hrates⟩ :=
      hkeep ((surroundings_steady R).tryIncreaseToBeIssuedTokens _ _) hincrease
    rw [← hrequests] at hr
    rcases h with ⟨hne, hset⟩ | ⟨heq, rfl, rfl⟩
    · obtain ⟨hnew, hstored⟩ := setIssueAmount_stored hset hr
      refine ⟨hstored, .inr ⟨paid, ?_, ?_⟩⟩
      · rw [if_neg hne, if_pos (.inl hstatus)]
      · rw [← hfee hrates, hnew, hpaid]
    · exact ⟨hr, .inl ⟨if_pos heq, rfl⟩⟩
  · simp only [decreaseIssueAmount, returns_steps] at hdecrease
    obtain ⟨_, -, _, s₂, hdecreased, _, -, _, -, _, s₃, htransfer, r', _, hset, rfl, rfl⟩ := hdecrease
    obtain ⟨hrequests₁, hrates₁⟩ := hkeep ((surroundings_steady R).decreaseToBeIssuedTokens _ _) hdecreased
    obtain ⟨hrequests₂, hrates₂⟩ := hkeep ((surroundings_steady R).transferFunds _ _ _) htransfer
    obtain ⟨hrequests₃, -⟩ := hkeep ((surroundings_steady R).unlockOn _ _) hunlock
    rw [← hrequests₁, ← hrequests₂] at hr
    obtain ⟨hnew, hstored⟩ := setIssueAmount_stored hset hr
    refine ⟨by rw [hrequests₃, hstored], .inr ⟨paid, ?_, ?_⟩⟩
    · rw [if_neg hless.ne, if_pos (.inr hless)]
    · rw [← hfee (hrates₂.trans hrates₁), hnew, hpaid]
  · obtain ⟨hrequests, -⟩ := hkeep ((surroundings_steady R).unlockOn _ _) hunlock
    rw [hrequests]
    have hopen : ¬ (r.status = .cancelled ∨ paid.amount < r.amount + r.fee) := by
      rintro (hcancelled | hless)
      · rw [hstatus] at hcancelled
        cases hcancelled
      · exact absurd hle hless.not_ge
    rcases h with ⟨hcases, rfl, rfl⟩ | ⟨hmore, hliquidated, hincrease⟩
    · refine ⟨hr, .inl ⟨?_, rfl⟩⟩
      rcases hcases with heq | hliquidated
      · exact if_pos heq
      · rw [if_neg hopen, hliquidated]
        simp
    · simp only [tryIncreaseIssueAmount, returns_steps] at hincrease
      obtain ⟨surplus, hsurplus, issuable, hissuable, increase, hmin, done, s₂, hattempt, h⟩ := hincrease
      obtain ⟨-, -, rfl⟩ := Amount.checkedSub_eq_ok.mp hsurplus
      obtain ⟨-, rfl⟩ := Amount.min_eq_ok.mp hmin
      simp only [hpaid] at hattempt h
      rw [if_neg hmore.ne', if_neg hopen, hliquidated, hissuable]
      rcases returns_attempt hattempt with ⟨_, rfl, htaken⟩ | ⟨rfl, rfl, hrefused⟩
      · obtain ⟨hrequests₁, hrates⟩ :=
          hkeep ((surroundings_steady R).tryIncreaseToBeIssuedTokens _ _) htaken
        simp only [returns_steps] at h
        obtain ⟨total, htotal, hset⟩ := h
        obtain ⟨-, -, rfl⟩ := Amount.checkedAdd_eq_ok.mp htotal
        rw [← hrequests₁] at hr
        obtain ⟨hnew, hstored⟩ := setIssueAmount_stored hset hr
        refine ⟨hstored, .inr ⟨_, ?_, (hfee hrates).symm.trans hnew⟩⟩
        simp [outcome_eq_some.mpr ⟨_, htaken⟩]
      · simp only [returns_pure] at h
        obtain ⟨rfl, rfl⟩ := h
        exact ⟨hr, .inl ⟨by simp [hrefused], rfl⟩⟩

/-! ## Minted and stored amounts -/

/-- After every execution in every reachable state, the stored request agrees with what was minted if
and only if it was not adapted to another amount, or the fee of that amount is the fee that was
stored. -/
theorem minted_as_stored_iff (R : Runtime B) (hR : R.tokens.Lawful) (W : Set CurrencyId)
    (s₀ s s' : Chain B) (records : List Record) (hgenesis : IsGenesis s₀)
    (hrun : Run (Step R W) s₀ records s) (o : Origin) (id : H256) (e x t : Bytes)
    (mints : List (AccountId × Amount))
    (h : Logs (executeIssueMinting R o id e x t) s () mints s') :
    ∃ r tx paid, s.issue.issueRequests id = some r ∧
      StellarRelay.validatePayment R id e x t s = .ok tx ∧
      Currency.getAmountFromTransactionEnvelope tx r.stellarAddress r.asset = .ok paid ∧
      (StoredAsMinted R s id mints s' ↔ ∀ total fee, adaptedTotal R s r paid = some total →
        Fee.getIssueFee total s = .ok fee → fee.amount = r.fee) := by
  have hs := run_sound hR (fun _ _ _ h => h) hrun hgenesis
  simp only [executeIssueMinting, logs_rules, returns_read, and_assoc, exists_and_left,
    exists_eq_left'] at h
  obtain ⟨a, -, r, hr, tx, htx, paid, hpaid, r', s₁, hhandle, total, htotal, _, s₂, hissue, s₃, hmint,
    _, ⟨_, s₄, hvolume, s₅, hfee, _, ⟨_, s₆, hdistribute, hset, rfl⟩, rfl⟩, rfl⟩ := h
  obtain ⟨hstored, -⟩ := getExecutableIssueRequestFromId_stored hr
  refine ⟨r, tx, paid, hstored, htx, hpaid, ?_⟩
  have hasset : paid.currencyId = r.asset := by
    simp only [Currency.getAmountFromTransactionEnvelope, except_rules] at hpaid
    obtain ⟨_, -, rfl⟩ := hpaid
    rfl
  obtain ⟨hkept, hcases⟩ := handleIssueRequests_stored hasset hhandle hstored
  obtain ⟨-, hasset', -⟩ := handleIssueRequests_but hR hs.keyed hhandle
  obtain ⟨-, -, rfl⟩ := Amount.checkedAdd_eq_ok.mp htotal
  obtain ⟨δ, -, -, hissued, hbut⟩ :=
    issued_but hR hs.keyed hhandle hissue hmint hvolume hfee hdistribute
  have hrequests : s₆.issue.issueRequests = s₁.issue.issueRequests :=
    ((((sameRequests_of_surroundings ((surroundings_steady R).issueTokens _ _ _ _ _ hissue)).trans
      (sameRequests_of_surroundings ((surroundings_steady R).tokens _ _ _ _ hmint))).trans
      (increaseIntervalVolume_respects (issueRateLimit_frame (R := R)) _ _ _ _ hvolume).toSameRequests).trans
      (sameRequests_of_surroundings ((surroundings_steady R).tokens _ _ _ _ hfee))).trans
      (sameRequests_of_surroundings (distributeRewards_surroundings _ _ _ _ hdistribute)) |>.issues
  have hfinal : s'.issue.issueRequests id = some { r with amount := r'.amount, status := .completed } ∧
      recorded R s' = recorded R (under s₆ s.issue.issueRequests s.security.nonce) := by
    obtain rfl := returns_modify.mp hset
    exact ⟨by simp [Chain.mapIssue, hrequests, hkept], rfl⟩
  have hfee : r'.fee = r.fee ↔ ∀ total fee, adaptedTotal R s r paid = some total →
      Fee.getIssueFee total s = .ok fee → fee.amount = r.fee := by
    rcases hcases with ⟨hnone, hfee⟩ | ⟨total, hsome, hnew⟩
    · simp [hnone, hfee]
    · constructor
      · rintro hsame _ fee htotal hother
        obtain rfl := Option.mem_unique hsome htotal
        obtain rfl := ok_unique hnew hother
        exact hsame
      · intro hfees
        exact hfees total _ hsome hnew
  have hissuance (c : CurrencyId) : issuedAt (statusOf s) r.vault ≠ .issuance c := by
    rw [issuedAt]
    split_ifs <;> simp
  rw [← hfee]
  constructor
  · rintro ⟨r₂, hr₂, -, hmints, -⟩
    obtain rfl := Option.some.inj (hfinal.1.symm.trans hr₂)
    simp only [List.cons.injEq, Prod.mk.injEq, IssueRequest.feeAmount, Amount.mk.injEq] at hmints
    exact hmints.2.1.2.1
  · intro hsame
    refine ⟨_, hfinal.1, rfl, ?_, ?_⟩
    · simp [IssueRequest.userAmount, IssueRequest.feeAmount, hasset', hsame]
    · rw [hfinal.2, hbut.moves.balance, ← hsame]
      simp [hissued, hissuance]

/-- Account 1 registers a vault, and account 4 requests a million tokens from it. -/
def requestingFirst : List Record :=
  registering ++ [signedDrawing 4 (.issue (.requestIssue 1000000 (sampleVault 1))) 1]

/-- `execute_issue` by account 4, which has paid `n` times a hundred thousand. -/
def payingFirst (n : UInt8) : Logged (AccountId × Amount) DispatchError (Chain SampleTokens) Unit :=
  executeIssueMinting sampleRuntime (.signed ⟨4⟩) 1 (paymentFor 1 n) [] (paymentFor 1 n)

/-- With the expected payment, the stored request agrees with what is minted. -/
theorem minted_as_stored_iff_requestingFirst :
    ∃ s mints s', Run (Step sampleRuntime ∅) feeGenesis requestingFirst s ∧
      Logs (payingFirst 10) s () mints s' ∧ StoredAsMinted sampleRuntime s 1 mints s' := by
  obtain ⟨s, hrun, ⟨mints, s', hlogs, -⟩, r, hr, tx, htx, paid, hpaid, hnone⟩ : ∃ s,
      Run (Step sampleRuntime ∅) feeGenesis requestingFirst s ∧
        (∃ mints s', Logs (payingFirst 10) s () mints s' ∧ True) ∧
        ∃ r, s.issue.issueRequests 1 = some r ∧ ∃ tx, (StellarRelay.validatePayment sampleRuntime 1
            (paymentFor 1 10) [] (paymentFor 1 10) s).toOption = some tx ∧
          ∃ paid, (Currency.getAmountFromTransactionEnvelope tx r.stellarAddress r.asset).toOption =
            some paid ∧ adaptedTotal sampleRuntime s r paid = none :=
    run_of_replay environmentStep_refl (by decide +kernel)
  have hgenesis : IsGenesis feeGenesis := ⟨rfl, rfl, rfl, rfl, rfl, rfl, rfl, rfl, rfl, rfl, rfl⟩
  obtain ⟨r', tx', paid', hr', htx', hpaid', hiff⟩ := minted_as_stored_iff sampleRuntime
    sampleRuntime_lawful ∅ feeGenesis s s' requestingFirst hgenesis hrun _ _ _ _ _ mints hlogs
  obtain rfl := Option.mem_unique hr hr'
  rw [htx'] at htx
  obtain rfl := Option.some.inj htx
  rw [hpaid'] at hpaid
  obtain rfl := Option.some.inj hpaid
  exact ⟨s, mints, s', hrun, hlogs, hiff.mpr (by simp [hnone])⟩

/-- Half of the expected amount is paid.  The fee pool receives 50000, and the stored fee is
100000. -/
theorem underpaid_issue_keeps_fee :
    ∃ s mints s', Run (Step sampleRuntime ∅) feeGenesis requestingFirst s ∧
      Logs (payingFirst 5) s () mints s' ∧ ¬ StoredAsMinted sampleRuntime s 1 mints s' := by
  obtain ⟨s, hrun, mints, s', hlogs, r, hr, hfee, hmints⟩ : ∃ s,
      Run (Step sampleRuntime ∅) feeGenesis requestingFirst s ∧
        ∃ mints s', Logs (payingFirst 5) s () mints s' ∧ ∃ r, s'.issue.issueRequests 1 = some r ∧
          r.fee = 100000 ∧ mints.map (fun mint => mint.2.amount) = [450000, 50000] :=
    run_of_replay environmentStep_refl (by decide +kernel)
  refine ⟨s, mints, s', hrun, hlogs, ?_⟩
  rintro ⟨r', hr', -, rfl, -⟩
  obtain rfl := Option.mem_unique hr hr'
  simp [IssueRequest.feeAmount, hfee] at hmints

end Spacewalk.Ledger
