import Spacewalk.Ledger.RateLimits
import Spacewalk.Ledger.TokenLog

/-!
# The griefing collateral of issue requests

A user who requests to issue tokens locks griefing collateral.  When the request leaves the state
`pending`, all of it is released: a part may go to the vault, and the rest becomes free
(`GriefingSettled`).  The part is a proportion of the collateral, of the time that has passed if the
user cancels early and of the amount that is missing if the user has paid too little.

`issueInstrument` logs what the issue pallet does with tokens, without what it mints.
`griefing_settled_once` is about every run: requests lock their collateral when they are opened and
release it once.
-/

namespace Spacewalk.Ledger

open Foundation Function VaultRegistry Issue
open Stellar (Bytes)

variable {B : Type}

/-! ## The calls with their token operations -/

section

variable (R : Runtime B) (origin o : Origin) (issueId id : H256)

/-- `request_issue`, with a log. -/
def requestIssueLogged (amount : Nat) (vaultId : VaultId) : LoggedM B Unit := do
  let requester ← ensureSigned origin
  let amountRequested : Amount := ⟨amount, vaultId.wrappedCurrency⟩
  amountRequested.ensureIsCompatibleWithTargetChain
  RateLimit.checkVolume R rateLimitL (issueErr .exceedLimitVolumeForIssueRequest) amountRequested
  let vault ← read (getActiveVaultFromId (B := B) vaultId)
  ensure (vault.status = .active true) (issueErr .vaultNotAcceptingNewIssues)
  read (ensureNotBanned (B := B) vaultId)
  let amountCollateral ← read (amountRequested.convertTo R R.getGriefingCollateralCurrencyId)
  let griefing ← read (Fee.getIssueGriefingCollateral (B := B) amountCollateral)
  let griefingCollateral : Amount := ⟨griefing.amount, R.getGriefingCollateralCurrencyId⟩
  own R (.lock requester griefingCollateral)
  let minimum : Amount := ⟨(← get).issue.issueMinimumTransferAmount, vaultId.wrappedCurrency⟩
  ensure ((← amountRequested.ge minimum) = true) (issueErr .amountBelowMinimumTransferAmount)
  tryIncreaseToBeIssuedTokens R vaultId amountRequested
  let fee ← read (Fee.getIssueFee (B := B) amountRequested)
  let fee ← fee.roundToTargetChain
  let amountUser ← amountRequested.checkedSub fee
  let issueId ← Security.getSecureId R
  let stellarPublicKey ← read (getStellarPublicKey (B := B) vaultId.accountId)
  let s ← get
  insertIssueRequest (B := B) issueId
    { vault := vaultId
      opentime := Security.activeBlockNumber s
      period := s.issue.issuePeriod
      griefingCollateral := griefingCollateral.amount
      amount := amountUser.amount
      asset := amountUser.currencyId
      fee := fee.amount
      requester := requester
      stellarAddress := stellarPublicKey
      status := .pending }

theorem erase_requestIssueLogged (n : Nat) (v : VaultId) :
    erase (requestIssueLogged R o n v) = requestIssue R o n v := by
  simp only [requestIssueLogged, requestIssue, own, TokenOp.perform, erase_rules]

/-- Less was transferred than requested, with a log. -/
def decreaseIssueAmountLogged (issue : IssueRequest)
    (amountTransferred expectedTotalAmount : Amount) : LoggedM B (Amount × IssueRequest) := do
  let deficit ← expectedTotalAmount.checkedSub amountTransferred
  decreaseToBeIssuedTokens (B := B) issue.vault deficit
  let toReleaseCollateral ← calculateCollateral (issue.griefingAmount R) amountTransferred
    expectedTotalAmount
  let slashedCollateral ← (issue.griefingAmount R).checkedSub toReleaseCollateral
  own R (.slash issue.requester issue.vault.accountId slashedCollateral)
  let issue ← setIssueAmount (B := B) issueId issue amountTransferred
  return (toReleaseCollateral, issue)

theorem erase_decreaseIssueAmountLogged (r : IssueRequest) (paid expected : Amount) :
    erase (decreaseIssueAmountLogged R id r paid expected) =
      decreaseIssueAmount R id r paid expected := by
  simp only [decreaseIssueAmountLogged, decreaseIssueAmount, own, TokenOp.perform, erase_rules]

/-- The amount to be issued and the griefing collateral, with a log. -/
def handleIssueRequestsLogged (executor : AccountId) (issueId : H256) (issue : IssueRequest)
    (amountTransferred : Amount) : LoggedM B IssueRequest := do
  let requester := issue.requester
  let expectedTotalAmount ← issue.userAmount.checkedAdd issue.feeAmount
  match issue.status with
  | .completed => (throw (issueErr .issueCompleted) : ChainM B IssueRequest)
  | .cancelled =>
    tryIncreaseToBeIssuedTokens R issue.vault amountTransferred
    if ← amountTransferred.lt expectedTotalAmount then
      ensure (requester = executor) (issueErr .invalidExecutor)
    if ← amountTransferred.ne expectedTotalAmount then
      setIssueAmount (B := B) issueId issue amountTransferred
    else return issue
  | .pending =>
    if ← amountTransferred.lt expectedTotalAmount then
      ensure (requester = executor) (issueErr .invalidExecutor)
      let (toRelease, issue) ←
        decreaseIssueAmountLogged R issueId issue amountTransferred expectedTotalAmount
      own R (.unlock requester toRelease)
      return issue
    else
      let issue ←
        if ← amountTransferred.gt expectedTotalAmount then
          if ← read (isVaultLiquidated (B := B) issue.vault) then pure issue
          else tryIncreaseIssueAmount R issueId issue amountTransferred expectedTotalAmount
        else pure issue
      own R (.unlock requester (issue.griefingAmount R))
      return issue

theorem erase_handleIssueRequestsLogged (a : AccountId) (id : H256) (r : IssueRequest)
    (paid : Amount) :
    erase (handleIssueRequestsLogged R a id r paid) = handleIssueRequests R a id r paid := by
  unfold handleIssueRequestsLogged handleIssueRequests
  cases r.status with
  | completed => simp only [erase_rules]
  | cancelled =>
    simp only [erase_rules]
  | pending =>
    simp only [own, TokenOp.perform, erase_rules, erase_decreaseIssueAmountLogged]

/-- `execute_issue`, with a log. -/
def executeIssueLogged
    (transactionEnvelopeXdrEncoded externalizedEnvelopesEncoded transactionSetEncoded : Bytes) :
    LoggedM B Unit := do
  let executor ← ensureSigned origin
  let issue ← read (getExecutableIssueRequestFromId (B := B) issueId)
  let requester := issue.requester
  let transactionEnvelope ← read (StellarRelay.validatePayment R issueId
    transactionEnvelopeXdrEncoded externalizedEnvelopesEncoded transactionSetEncoded)
  let amountTransferred ← Currency.getAmountFromTransactionEnvelope transactionEnvelope
    issue.stellarAddress issue.asset
  let issue ← handleIssueRequestsLogged R executor issueId issue amountTransferred
  let total ← issue.userAmount.checkedAdd issue.feeAmount
  issueTokens (B := B) issue.vault total
  issue.userAmount.mintTo R requester
  RateLimit.increaseIntervalVolume R rateLimitL issue.userAmount
  issue.feeAmount.mintTo R R.feePoolAccountId
  Fee.distributeRewards R issue.feeAmount
  setIssueStatus (B := B) issueId .completed

theorem erase_executeIssueLogged (e x t : Bytes) :
    erase (executeIssueLogged R o id e x t) = executeIssue R o id e x t := by
  simp only [executeIssueLogged, executeIssue, erase_rules, erase_handleIssueRequestsLogged]

/-- The griefing collateral to slash, with a log. -/
def griefingToSlashLogged (requester : AccountId) (issue : IssueRequest) : LoggedM B Amount := do
  let issuePeriod := max (← get).issue.issuePeriod issue.period
  if ← read (Security.parachainBlockExpired (B := B) issue.opentime issuePeriod) then
    return issue.griefingAmount R
  else if issue.requester = requester then
    let blocksElapsed := Security.activeBlockNumber (← get) - issue.opentime
    let griefingCollateral := issue.griefingAmount R
    let slashed ← calculateCollateral griefingCollateral
      ⟨blocksElapsed, griefingCollateral.currencyId⟩ ⟨issuePeriod, griefingCollateral.currencyId⟩
    let slashedCollateral ← slashed.min griefingCollateral
    let releasedCollateral ← griefingCollateral.saturatingSub slashedCollateral
    own R (.unlock requester releasedCollateral)
    return slashedCollateral
  else
    (throw (issueErr .timeNotExpired) : ChainM B Amount)

theorem erase_griefingToSlashLogged (a : AccountId) (r : IssueRequest) :
    erase (griefingToSlashLogged R a r) = griefingToSlash R a r := by
  simp only [griefingToSlashLogged, griefingToSlash, own, TokenOp.perform, erase_rules]

/-- `cancel_issue`, with a log. -/
def cancelIssueLogged : LoggedM B Unit := do
  let requester ← ensureSigned origin
  let issue ← read (getPendingIssue (B := B) issueId)
  let toBeSlashedCollateral ← griefingToSlashLogged R requester issue
  if ← read (isVaultLiquidated (B := B) issue.vault) then
    own R (.unlock issue.requester toBeSlashedCollateral)
  else
    own R (.slash issue.requester issue.vault.accountId toBeSlashedCollateral)
  let fullAmount ← issue.userAmount.checkedAdd issue.feeAmount
  decreaseToBeIssuedTokens (B := B) issue.vault fullAmount
  setIssueStatus (B := B) issueId .cancelled

theorem erase_cancelIssueLogged : erase (cancelIssueLogged R o id) = cancelIssue R o id := by
  simp only [cancelIssueLogged, cancelIssue, own, TokenOp.perform, erase_rules,
    erase_griefingToSlashLogged]

/-- The calls, with a log of what the issue pallet does with tokens that exist.  Its other calls, and
those of the other pallets, do nothing with tokens that the issue pallet reserves. -/
def issueInstrument : Instrument R where
  dispatch
    | o, .issue (.requestIssue n v) => requestIssueLogged R o n v
    | o, .issue (.executeIssue id e x t) => executeIssueLogged R o id e x t
    | o, .issue (.cancelIssue id) => cancelIssueLogged R o id
    | o, call => call.dispatch R o
  erases o call := by
    cases call with
    | issue call =>
      cases call with
      | requestIssue n v => exact erase_requestIssueLogged R o n v
      | executeIssue id e x t => exact erase_executeIssueLogged R o id e x t
      | cancelIssue id => exact erase_cancelIssueLogged R o id
      | _ => exact erase_liftM _
    | _ => exact erase_liftM _

end

variable {R : Runtime B} {W : Set CurrencyId} {s s' : Chain B} {o : Origin} {u : Unit}
  {ops : List TokenOp} {r r' : IssueRequest} {id : H256} {a : AccountId} {paid amount : Amount}
  {n : ℕ}

/-! ## What a settlement is -/

/-- The griefing collateral that operations make free on an account. -/
def freedOn (c : CurrencyId) (a : AccountId) : TokenOp → ℕ
  | .unlock b amount => if b = a ∧ amount.currencyId = c then amount.amount else 0
  | _ => 0

/-- The griefing collateral of an account that operations give to another account. -/
def slashedFor (c : CurrencyId) (a b : AccountId) : TokenOp → ℕ
  | .slash a' b' amount => if a' = a ∧ b' = b ∧ amount.currencyId = c then amount.amount else 0
  | _ => 0

/-- An operation that releases griefing collateral of a request. -/
def Releases (R : Runtime B) (r : IssueRequest) : TokenOp → Prop
  | .unlock a amount => a = r.requester ∧ amount.currencyId = R.getGriefingCollateralCurrencyId
  | .slash a b amount =>
    a = r.requester ∧ b = r.vault.accountId ∧ amount.currencyId = R.getGriefingCollateralCurrencyId
  | _ => False

/-- The operations release exactly the griefing collateral of a request from the reserve of its
requester: the part `slashed` goes to the vault, and the rest becomes free. -/
structure GriefingSettled (R : Runtime B) (r : IssueRequest) (slashed : ℕ) (ops : List TokenOp) :
    Prop where
  le : slashed ≤ r.griefingCollateral
  releases : ∀ op ∈ ops, Releases R r op
  slashes : (ops.map (slashedFor R.getGriefingCollateralCurrencyId r.requester
    r.vault.accountId)).sum = slashed
  frees : (ops.map (freedOn R.getGriefingCollateralCurrencyId r.requester)).sum =
    r.griefingCollateral - slashed

/-- Operations that release collateral take from the reserve what they free and what they slash. -/
theorem reservedBy_of_releases (h : ∀ op ∈ ops, Releases R r op) (a : AccountId) (c : CurrencyId) :
    reservedBy ops a c =
      if r.requester = a ∧ R.getGriefingCollateralCurrencyId = c then
        -(((ops.map (slashedFor R.getGriefingCollateralCurrencyId r.requester
            r.vault.accountId)).sum +
          (ops.map (freedOn R.getGriefingCollateralCurrencyId r.requester)).sum : ℕ) : ℤ)
      else 0 := by
  induction ops with
  | nil => simp [reservedBy]
  | cons op ops ih =>
    have hrest := ih fun op' hop' => h op' (List.mem_cons_of_mem op hop')
    have hop := h op List.mem_cons_self
    rw [reservedBy, List.map_cons, List.sum_cons, ← reservedBy, hrest]
    cases op with
    | unlock b amount =>
      obtain ⟨rfl, hc⟩ := hop
      simp only [TokenOp.reserves, slashedFor, freedOn, List.map_cons, List.sum_cons, hc,
        and_self, if_true]
      split_ifs
      · push_cast
        ring
      · ring
    | slash b d amount =>
      obtain ⟨rfl, rfl, hc⟩ := hop
      simp only [TokenOp.reserves, slashedFor, freedOn, List.map_cons, List.sum_cons, hc,
        and_self, if_true]
      split_ifs
      · push_cast
        ring
      · ring
    | _ => exact hop.elim

theorem GriefingSettled.reservedBy_eq {slashed : ℕ} (h : GriefingSettled R r slashed ops)
    (a : AccountId) (c : CurrencyId) :
    reservedBy ops a c = if r.requester = a ∧ R.getGriefingCollateralCurrencyId = c then
      -(r.griefingCollateral : ℤ) else 0 := by
  rw [reservedBy_of_releases h.releases, h.slashes, h.frees, Nat.add_sub_cancel' h.le]

/-! ## What the calls release -/

theorem decreaseIssueAmountLogged_ops {expected : Amount} {p : Amount × IssueRequest}
    (h : Logs (decreaseIssueAmountLogged R id r paid expected) s p ops s') :
    p.1.amount ≤ r.griefingCollateral ∧ p.1.currencyId = R.getGriefingCollateralCurrencyId ∧
      ops = [.slash r.requester r.vault.accountId
        ⟨r.griefingCollateral - p.1.amount, R.getGriefingCollateralCurrencyId⟩] := by
  simp only [decreaseIssueAmountLogged, own, logs_rules] at h
  obtain ⟨deficit, -, _, s₁, -, release, hrelease, slashed, hslashed, s₂, rest, -, h, rfl⟩ := h
  obtain ⟨r', s₃, -, rfl, rfl, -⟩ := h
  obtain ⟨-, hle, rfl⟩ := Amount.checkedSub_eq_ok.mp hslashed
  exact ⟨hle, calculateCollateral_currencyId hrelease, rfl⟩

/-- A part of the collateral is slashed and the rest is freed, in this order. -/
theorem griefingSettled_slash_unlock (hn : n ≤ r.griefingCollateral) :
    GriefingSettled R r (r.griefingCollateral - n)
      [.slash r.requester r.vault.accountId
          ⟨r.griefingCollateral - n, R.getGriefingCollateralCurrencyId⟩,
        .unlock r.requester ⟨n, R.getGriefingCollateralCurrencyId⟩] where
  le := Nat.sub_le _ _
  releases := by simp [Releases]
  slashes := by simp [slashedFor]
  frees := by
    simp only [freedOn, List.map_cons, List.map_nil, List.sum_cons, List.sum_nil, and_self, if_true]
    omega

/-- A part of the collateral is freed first, and the rest is slashed. -/
theorem griefingSettled_unlock_slash (hn : n ≤ r.griefingCollateral) :
    GriefingSettled R r n
      [.unlock r.requester ⟨r.griefingCollateral - n, R.getGriefingCollateralCurrencyId⟩,
        .slash r.requester r.vault.accountId ⟨n, R.getGriefingCollateralCurrencyId⟩] where
  le := hn
  releases := by simp [Releases]
  slashes := by simp [slashedFor]
  frees := by simp [freedOn]

/-- A part of the collateral is freed first, and then the rest. -/
theorem griefingSettled_unlock_unlock (hn : n ≤ r.griefingCollateral) :
    GriefingSettled R r 0
      [.unlock r.requester ⟨r.griefingCollateral - n, R.getGriefingCollateralCurrencyId⟩,
        .unlock r.requester ⟨n, R.getGriefingCollateralCurrencyId⟩] where
  le := Nat.zero_le _
  releases := by simp [Releases]
  slashes := by simp [slashedFor]
  frees := by
    simp only [freedOn, List.map_cons, List.map_nil, List.sum_cons, List.sum_nil, and_self, if_true]
    omega

/-- All of the collateral is slashed. -/
theorem griefingSettled_slash (r : IssueRequest) :
    GriefingSettled R r r.griefingCollateral
      [.slash r.requester r.vault.accountId (r.griefingAmount R)] where
  le := le_rfl
  releases := by simp [Releases, IssueRequest.griefingAmount]
  slashes := by simp [slashedFor, IssueRequest.griefingAmount]
  frees := by simp [freedOn]

/-- All of the collateral is freed. -/
theorem griefingSettled_unlock (r : IssueRequest) :
    GriefingSettled R r 0 [.unlock r.requester (r.griefingAmount R)] where
  le := Nat.zero_le _
  releases := by simp [Releases, IssueRequest.griefingAmount]
  slashes := by simp [slashedFor]
  frees := by simp [freedOn, IssueRequest.griefingAmount]

/-- All of the collateral of a request is freed, which may have been adapted before. -/
theorem unlockGriefing_ops {q : IssueRequest}
    (hgriefing : q.griefingCollateral = r.griefingCollateral)
    (h : Logs (do own R (.unlock r.requester (q.griefingAmount R)); pure q) s r' ops s') :
    GriefingSettled R r 0 ops := by
  simp only [own, logs_rules] at h
  obtain ⟨s₁, rest, -, ⟨-, rfl, -⟩, rfl⟩ := h
  rw [IssueRequest.griefingAmount, hgriefing]
  exact griefingSettled_unlock r

/-- The execution of a cancelled request releases nothing; that of a pending one settles the
griefing collateral, and slashes nothing if enough was paid. -/
theorem handleIssueRequestsLogged_ops (hs : Keyed s)
    (h : Logs (handleIssueRequestsLogged R a id r paid) s r' ops s') :
    (r.status = .cancelled ∧ ops = []) ∨
      (r.status = .pending ∧ ∃ slashed, GriefingSettled R r slashed ops ∧
        (r.amount + r.fee ≤ paid.amount → slashed = 0)) := by
  unfold handleIssueRequestsLogged at h
  obtain ⟨expected, hexpected, hrest⟩ := logs_liftM_except_bind.mp h
  obtain ⟨-, -, rfl⟩ := Amount.checkedAdd_eq_ok.mp hexpected
  clear h
  cases hstatus : r.status with
  | completed => simp only [hstatus, logs_liftM, returns_throw, false_and] at hrest
  | cancelled =>
    simp only [hstatus, logs_rules, logs_ite] at hrest
    obtain ⟨_, s₁, -, _, -, h | h⟩ := hrest
    · obtain ⟨-, _, -, _, -, ⟨-, -, rfl⟩ | ⟨-, -, rfl, -⟩⟩ := h <;> exact .inl ⟨rfl, rfl⟩
    · obtain ⟨-, _, -, ⟨-, -, rfl⟩ | ⟨-, -, rfl, -⟩⟩ := h <;> exact .inl ⟨rfl, rfl⟩
  | pending =>
    refine .inr ⟨rfl, ?_⟩
    simp only [hstatus] at hrest
    obtain ⟨less, hless, hbranch⟩ := logs_liftM_except_bind.mp hrest
    obtain ⟨-, rfl⟩ := Amount.compare_eq_ok.mp hless
    rcases logs_ite.mp hbranch with ⟨hlt, h⟩ | ⟨-, h⟩
    · obtain ⟨_, -, h⟩ := logs_liftM_except_bind.mp h
      obtain ⟨⟨⟨release, c⟩, q⟩, s₁, ops₁, ops₂, hdecrease, hunlock, rfl⟩ := logs_bind.mp h
      obtain ⟨hle, rfl : c = _, rfl⟩ := decreaseIssueAmountLogged_ops hdecrease
      simp only [own, logs_rules] at hunlock
      obtain ⟨s₂, rest, -, ⟨-, rfl, -⟩, rfl⟩ := hunlock
      refine ⟨r.griefingCollateral - release, griefingSettled_slash_unlock hle, fun henough => ?_⟩
      have hshort : paid.amount < r.amount + r.fee := of_decide_eq_true hlt
      omega
    · refine ⟨0, ?_, fun _ => rfl⟩
      obtain ⟨more, -, h⟩ := logs_liftM_except_bind.mp h
      rcases logs_ite.mp h with ⟨-, h⟩ | ⟨-, h⟩
      · obtain ⟨liquidated, s₁, hread, h⟩ := logs_liftM_bind.mp h
        obtain ⟨-, rfl⟩ := returns_read.mp hread
        rcases logs_ite.mp h with ⟨-, h⟩ | ⟨-, h⟩
        · exact unlockGriefing_ops rfl (logs_pure_bind.mp h)
        · obtain ⟨q, s₂, hincrease, h⟩ := logs_liftM_bind.mp h
          obtain ⟨-, -, hgriefing, -⟩ := tryIncreaseIssueAmount_but (R := R) hs rfl hincrease
          exact unlockGriefing_ops hgriefing h
      · exact unlockGriefing_ops rfl (logs_pure_bind.mp h)

/-- The part that is slashed when the requester cancels after some blocks, before the request has
expired. -/
def earlySlash (g elapsed period : ℕ) : ℕ :=
  if period = 0 then g else min (g * elapsed / period) g

/-- The longer a requester waits, the more is slashed. -/
theorem earlySlash_mono {g elapsed elapsed' period : ℕ} (h : elapsed ≤ elapsed') :
    earlySlash g elapsed period ≤ earlySlash g elapsed' period := by
  unfold earlySlash
  split_ifs
  · exact le_rfl
  · exact min_le_min_right g (Nat.div_le_div_right (Nat.mul_le_mul_left g h))

/-- The blocks since a request was opened, and the period in which it does not expire. -/
def elapsedBlocks (s : Chain B) (r : IssueRequest) : ℕ := Security.activeBlockNumber s - r.opentime

/-- The period after which a request has expired: it may have been prolonged since. -/
def expiryPeriod (s : Chain B) (r : IssueRequest) : ℕ := max s.issue.issuePeriod r.period

def Expired (s : Chain B) (r : IssueRequest) : Prop :=
  Security.parachainBlockExpired r.opentime (expiryPeriod s r) s = .ok true

theorem unlockOn_vaultRegistry (h : Returns (amount.unlockOn R a) s u s') :
    s'.vaultRegistry = s.vaultRegistry := by
  obtain ⟨-, rfl⟩ := returns_unlockOn.mp h
  rfl

theorem isVaultLiquidated_congr (h : s'.vaultRegistry = s.vaultRegistry) (v : VaultId) :
    isVaultLiquidated v s' = isVaultLiquidated v s := by
  rw [isVaultLiquidated, isVaultLiquidated, getVaultFromId, getVaultFromId, h]

/-- What is kept for slashing, and what is freed at once. -/
theorem griefingToSlashLogged_ops {x : Amount} (h : Logs (griefingToSlashLogged R a r) s x ops s') :
    s'.vaultRegistry = s.vaultRegistry ∧
      ((Expired s r ∧ x = r.griefingAmount R ∧ ops = []) ∨
        (¬ Expired s r ∧ r.requester = a ∧ ∃ n,
          n = earlySlash r.griefingCollateral (elapsedBlocks s r) (expiryPeriod s r) ∧
          n ≤ r.griefingCollateral ∧ x = ⟨n, R.getGriefingCollateralCurrencyId⟩ ∧
          ops = [.unlock r.requester
            ⟨r.griefingCollateral - n, R.getGriefingCollateralCurrencyId⟩])) := by
  unfold griefingToSlashLogged at h
  obtain ⟨expired, s₁, hread, hbranch⟩ := logs_liftM_bind.mp (logs_get_bind.mp h)
  obtain ⟨hexpired, rfl⟩ := returns_read.mp hread
  clear h hread
  rcases logs_ite.mp hbranch with ⟨htrue, h⟩ | ⟨hfalse, h⟩
  · obtain ⟨rfl, rfl, rfl⟩ := logs_pure.mp h
    exact ⟨rfl, .inl ⟨by rw [Expired, ← htrue]; exact hexpired, rfl, rfl⟩⟩
  · have hnot : ¬ Expired s r := by
      intro h'
      exact hfalse (ok_unique hexpired h')
    rcases logs_ite.mp h with ⟨rfl, hearly⟩ | ⟨-, hthrow⟩
    · simp only [own, logs_rules] at hearly
      obtain ⟨part, hpart, least, hmin, release, hrelease, s₂, rest, hunlock, hlast, rfl⟩ := hearly
      obtain ⟨rfl, rfl, rfl⟩ := hlast
      obtain ⟨-, rfl⟩ := Amount.min_eq_ok.mp hmin
      obtain ⟨-, rfl⟩ := Amount.saturatingSub_eq_ok.mp hrelease
      obtain ⟨hc, hamount⟩ := calculateCollateral_eq_ok hpart
      have hslash : min part.amount r.griefingCollateral =
          earlySlash r.griefingCollateral (elapsedBlocks s r) (expiryPeriod s r) := by
        rcases hamount with ⟨-, hzero, hall⟩ | ⟨hperiod, hall⟩
        · rw [earlySlash, if_pos (show expiryPeriod s r = 0 from hzero), hall]
          exact min_self _
        · rw [earlySlash, if_neg (show expiryPeriod s r ≠ 0 from hperiod), hall]
          rfl
      refine ⟨unlockOn_vaultRegistry hunlock, .inr ⟨hnot, rfl, _, hslash, min_le_right _ _, ?_, rfl⟩⟩
      rw [hc]
      rfl
    · simp only [logs_liftM, returns_throw, false_and] at hthrow

/-- A cancellation settles the griefing collateral.  Nothing is slashed for a liquidated vault; for
another one, everything if the request has expired, and `earlySlash` before. -/
theorem cancelIssueLogged_ops (h : Logs (cancelIssueLogged R o id) s u ops s') :
    ∃ r slashed, s.issue.issueRequests id = some r ∧ r.status = .pending ∧
      GriefingSettled R r slashed ops ∧ (isVaultLiquidated r.vault s = .ok true → slashed = 0) ∧
      (isVaultLiquidated r.vault s = .ok false → ¬ Expired s r →
        slashed = earlySlash r.griefingCollateral (elapsedBlocks s r) (expiryPeriod s r)) := by
  unfold cancelIssueLogged at h
  obtain ⟨a, hsigned, hpending⟩ := logs_liftM_except_bind.mp h
  obtain ⟨r, s₁, hread, hslash⟩ := logs_liftM_bind.mp hpending
  obtain ⟨hr, rfl⟩ := returns_read.mp hread
  obtain ⟨hstored, hstatus⟩ := getPendingIssue_stored hr
  obtain ⟨x, s₂, ops₁, ops₂, hgriefing, hvault, rfl⟩ := logs_bind.mp hslash
  obtain ⟨liquidated, s₃, hreadVault, hrest⟩ := logs_liftM_bind.mp hvault
  obtain ⟨hliquidated, rfl⟩ := returns_read.mp hreadVault
  obtain ⟨hregistry, hcases⟩ := griefingToSlashLogged_ops hgriefing
  rw [isVaultLiquidated_congr hregistry] at hliquidated
  simp only [own, logs_ite, logs_rules] at hrest
  rcases hrest with ⟨rfl, s₄, rest, -, ⟨_, -, _, s₅, -, -, rfl⟩, rfl⟩ |
    ⟨hactive, s₄, rest, -, ⟨_, -, _, s₅, -, -, rfl⟩, rfl⟩
  · -- the vault is liquidated: everything is freed
    refine ⟨r, 0, hstored, hstatus, ?_, fun _ => rfl, fun hfalse => ?_⟩
    · rcases hcases with ⟨-, rfl, rfl⟩ | ⟨-, -, n, -, hn, rfl, rfl⟩
      · exact griefingSettled_unlock r
      · exact griefingSettled_unlock_unlock hn
    · rw [hliquidated] at hfalse
      cases hfalse
  · -- the vault gets what is slashed
    have hnot : isVaultLiquidated r.vault s ≠ .ok true := by
      intro htrue
      exact hactive (ok_unique hliquidated htrue)
    rcases hcases with ⟨hexpired, rfl, rfl⟩ | ⟨-, -, n, hslashed, hn, rfl, rfl⟩
    · exact ⟨r, r.griefingCollateral, hstored, hstatus, griefingSettled_slash r,
        fun htrue => absurd htrue hnot, fun _ hearly => absurd hexpired hearly⟩
    · exact ⟨r, n, hstored, hstatus, griefingSettled_unlock_slash hn,
        fun htrue => absurd htrue hnot, fun _ _ => hslashed⟩

/-! ## What a request keeps -/

/-- What a request says about its griefing collateral. -/
def griefingTerms (r : IssueRequest) : AccountId × VaultId × ℕ :=
  (r.requester, r.vault, r.griefingCollateral)

/-- The requests are the same, up to the amounts to be issued and the status. -/
def KeepsTerms (s s' : Chain B) : Prop :=
  ∀ id, (s'.issue.issueRequests id).map griefingTerms = (s.issue.issueRequests id).map griefingTerms

instance keepsTerms_refl : Std.Refl (KeepsTerms (B := B)) := ⟨fun _ _ => rfl⟩

instance keepsTerms_trans : IsTrans (Chain B) KeepsTerms :=
  ⟨fun _ _ _ h h' id => (h' id).trans (h id)⟩

theorem keepsTerms_of_sameOf (h : SameOf .issue s s') : KeepsTerms s s' := by
  intro id
  rw [show s'.issue.issueRequests = s.issue.issueRequests from h]

theorem mutateIssueRequest_keepsTerms (id : H256) {f : IssueRequest → IssueRequest}
    (hf : ∀ r, griefingTerms (f r) = griefingTerms r) :
    Respects KeepsTerms (mutateIssueRequest (B := B) id f) := by
  refine .modify fun s id' => ?_
  by_cases hid : id' = id
  · subst hid
    cases hr : s.issue.issueRequests id' with
    | none => simp [Chain.mapIssue, hr]
    | some r => simp [Chain.mapIssue, hr, hf]
  · simp [Chain.mapIssue, hid]

theorem setIssueAmount_keepsTerms (id : H256) (r : IssueRequest) (paid : Amount) :
    Respects KeepsTerms (setIssueAmount (B := B) id r paid) := by
  refine .reads fun fee => .lift fun amount => ?_
  exact .bind (mutateIssueRequest_keepsTerms id fun _ => rfl) fun _ => .pure _

theorem keepsTerms_steady : Steady R KeepsTerms :=
  steady_of_surroundings fun _ _ h => keepsTerms_of_sameOf (sameOf_of_surroundings h)

theorem executeIssue_keepsTerms (id : H256) (e x t : Bytes) :
    Respects KeepsTerms (executeIssue R o id e x t) :=
  keepsTerms_steady.executeIssue setIssueAmount_keepsTerms
    (drawing_of (fun _ _ => rfl) (fun _ _ _ => rfl) fun _ _ _ => rfl)
    (fun id _ => mutateIssueRequest_keepsTerms id fun _ => rfl) id e x t

theorem cancelIssue_keepsTerms (id : H256) : Respects KeepsTerms (cancelIssue R o id) :=
  keepsTerms_steady.cancelIssue (fun id _ => mutateIssueRequest_keepsTerms id fun _ => rfl) id

/-! ## What a step does -/

/-- The amount that the payment of an execution transfers to the address of a request. -/
def PaidBy (R : Runtime B) (s : Chain B) (r : IssueRequest) (id : H256) (event : Event)
    (paid : Amount) : Prop :=
  ∃ o e x t tx, event = .extrinsic o (.issue (.executeIssue id e x t)) ∧
    StellarRelay.validatePayment R id e x t s = .ok tx ∧
    Currency.getAmountFromTransactionEnvelope tx r.stellarAddress r.asset = .ok paid

/-- The step executes or cancels an issue request. -/
def ActsOnIssue (event : Event) (id : H256) : Prop :=
  (∃ o e x t, event = .extrinsic o (.issue (.executeIssue id e x t))) ∨
    ∃ o, event = .extrinsic o (.issue (.cancelIssue id))

/-- A step leaves the issue requests, opens one, settles the griefing collateral of a pending one or
executes a cancelled one. -/
inductive IssueStep (R : Runtime B) (s : Chain B) (entry : LogEntry) (s' : Chain B) : Prop
  | keeps : s'.issue.issueRequests = s.issue.issueRequests → entry.2 = [] → IssueStep R s entry s'
  | opens {n : ℕ} {id : H256} {r : IssueRequest} :
      entry.1 = ⟨.extrinsic (.signed r.requester) (.issue (.requestIssue n r.vault)), some id⟩ →
      r.status = .pending → r.griefingCollateral < balanceBound →
      entry.2 = [.lock r.requester (r.griefingAmount R)] →
      s'.issue.issueRequests = update s.issue.issueRequests id (some r) →
      IssueStep R s entry s'
  | settles {id : H256} {r r' : IssueRequest} {slashed : ℕ} :
      ActsOnIssue entry.1.event id → s.issue.issueRequests id = some r → r.status = .pending →
      r'.status ≠ .pending → griefingTerms r' = griefingTerms r →
      GriefingSettled R r slashed entry.2 →
      (r'.status = .cancelled → isVaultLiquidated r.vault s = .ok true → slashed = 0) →
      (∀ paid, PaidBy R s r id entry.1.event paid → r.amount + r.fee ≤ paid.amount →
        slashed = 0) →
      s'.issue.issueRequests = update s.issue.issueRequests id (some r') →
      IssueStep R s entry s'
  | resumes {id : H256} {r r' : IssueRequest} :
      s.issue.issueRequests id = some r → r.status = .cancelled → r'.status = .completed →
      griefingTerms r' = griefingTerms r → entry.2 = [] →
      s'.issue.issueRequests = update s.issue.issueRequests id (some r') →
      IssueStep R s entry s'

/-- A product with a fraction is a balance. -/
theorem roundedMul_lt {a c : Amount} {fraction : UnsignedFixedPoint}
    (h : a.roundedMul fraction = .ok c) : c.amount < balanceBound := by
  simp only [Amount.roundedMul, except_rules] at h
  obtain ⟨_, -, _, -, _, -, sum, -, rfl⟩ := h
  exact Amount.truncate_lt sum

theorem issueRequests_write {s₁ s₂ : Chain B} (hbefore : SameRequests s s₁)
    (hafter : SameRequests (drawn s₁) s₂) :
    ((Write.issue id r).apply s₂).issue.issueRequests =
      update s.issue.issueRequests id (some r) := by
  have hsame : s₂.issue.issueRequests = s.issue.issueRequests :=
    hafter.issues.trans hbefore.issues
  rw [← hsame]
  rfl

theorem requestIssueLogged_opens {v : VaultId} (h : Logs (requestIssueLogged R o n v) s u ops s') :
    IssueStep R s (⟨.extrinsic o (.issue (.requestIssue n v)), drawnBetween R s s'⟩, ops) s' := by
  simp only [requestIssueLogged, own, TokenOp.perform, logs_rules, returns_read,
    returns_getSecureId, returns_insertIssueRequest, ensure_eq_ok, and_assoc, exists_and_left,
    exists_eq_left', exists_const] at h
  obtain ⟨requester, hsigned, _, -, _, s₁, hvolume, d, -, -, _, -, _, -, h⟩ := h
  obtain ⟨g, hg, s₂, hlock, rest, ⟨_, -, -, _, s₃, hincrease, h⟩, rfl⟩ := h
  obtain ⟨_, -, fee, -, user, -, key, -, rfl, rfl⟩ := h
  obtain rfl := ensureSigned_eq_ok.mp hsigned
  have hbefore : SameRequests s s₃ :=
    ((checkVolume_respects (issueRateLimit_frame (R := R)) _ _ _ _ _ hvolume).toSameRequests.trans
      (sameRequests_of_surroundings ((surroundings_steady R).tokens _ _ _ _ hlock))).trans
      (sameRequests_of_surroundings
        ((surroundings_steady R).tryIncreaseToBeIssuedTokens _ _ _ _ _ hincrease))
  have hafter : SameRequests (drawn s₃) (drawn s₃) := .refl _
  rw [drawnBetween_write hbefore hafter]
  exact .opens rfl rfl (roundedMul_lt hg) rfl (issueRequests_write hbefore hafter)

/-- The execution of a request, with the amount that was paid. -/
theorem executeIssueLogged_ops {e x t : Bytes} (hs : Keyed s)
    (h : Logs (executeIssueLogged R o id e x t) s u ops s') :
    ∃ r tx paid, s.issue.issueRequests id = some r ∧
      StellarRelay.validatePayment R id e x t s = .ok tx ∧
      Currency.getAmountFromTransactionEnvelope tx r.stellarAddress r.asset = .ok paid ∧
      ((r.status = .cancelled ∧ ops = []) ∨
        (r.status = .pending ∧ ∃ slashed, GriefingSettled R r slashed ops ∧
          (r.amount + r.fee ≤ paid.amount → slashed = 0))) := by
  simp only [executeIssueLogged, logs_rules, returns_read, and_assoc, exists_and_left,
    exists_eq_left'] at h
  obtain ⟨a, -, r, hr, tx, htx, paid, hpaid, h⟩ := h
  obtain ⟨r', s₁, ops₁, ops₂, hhandle, hrest, rfl⟩ := logs_bind.mp h
  -- nothing is logged after the griefing collateral is settled
  simp only [logs_rules] at hrest
  obtain ⟨_, -, _, s₂, -, _, s₃, -, _, s₄, -, hrest⟩ := hrest
  obtain ⟨_, s₅, -, _, s₆, -, -, rfl⟩ := hrest
  refine ⟨r, tx, paid, (getExecutableIssueRequestFromId_stored hr).1, htx, hpaid, ?_⟩
  rw [List.append_nil]
  exact handleIssueRequestsLogged_ops hs hhandle

/-- A request that is written again with the same terms. -/
theorem KeepsTerms.written (h : KeepsTerms s s') (hr : s.issue.issueRequests id = some r)
    (hwritten : s'.issue.issueRequests = update s.issue.issueRequests id (some r')) :
    griefingTerms r' = griefingTerms r := by
  have hid := h id
  rw [hwritten, update_self, hr] at hid
  exact Option.some.inj hid

theorem step_issueStep (hR : R.tokens.Lawful) (hs : Sound s) {entry : LogEntry}
    (h : LoggedStep (issueInstrument R) W s entry s') : IssueStep R s entry s' := by
  cases h with
  | environment h => exact .keeps (environment_sameOf (k := .issue) h) rfl
  | @extrinsic _ o call ops h =>
    have hreturns := (issueInstrument R).returns.mpr ⟨ops, h⟩
    -- what is not instrumented logs nothing
    have hother : Logs (liftM (call.dispatch R o) : LoggedM B Unit) s () ops s' →
        writtenKind call ≠ some .issue →
        IssueStep R s (⟨.extrinsic o call, drawnBetween R s s'⟩, ops) s' := by
      intro hlift hkind
      obtain ⟨-, rfl⟩ := logs_liftM.mp hlift
      exact .keeps (dispatch_sameOf (k := .issue) hreturns hkind) rfl
    cases call with
    | issue call =>
      cases call with
      | requestIssue n v => exact requestIssueLogged_opens h
      | executeIssue id e x t =>
        obtain ⟨r', hcompleted, hsettled⟩ := executeIssue_settled hR hs.keyed hreturns
        obtain ⟨r, tx, paid, hr, htx, hpaid, hcases⟩ := executeIssueLogged_ops hs.keyed h
        have hterms := (executeIssue_keepsTerms id e x t _ _ _ hreturns).written hr
          hsettled.issueRequests
        rcases hcases with ⟨hcancelled, rfl⟩ | ⟨hpending, slashed, hgriefing, henough⟩
        · exact .resumes hr hcancelled hcompleted hterms rfl hsettled.issueRequests
        · refine .settles (.inl ⟨o, e, x, t, rfl⟩) hr hpending (by simp [hcompleted]) hterms hgriefing
            (fun hcancelled => ?_) (fun paid' hpaid' hle => ?_) hsettled.issueRequests
          · rw [hcompleted] at hcancelled
            cases hcancelled
          · obtain ⟨_, _, _, _, tx', hevent, htx', hpaid'⟩ := hpaid'
            cases hevent
            obtain rfl := ok_unique htx htx'
            obtain rfl := ok_unique hpaid hpaid'
            exact henough hle
      | cancelIssue id =>
        obtain ⟨_, r', -, -, hcancelled, hsettled⟩ := cancelIssue_settled hR hs.keyed hreturns
        obtain ⟨r, slashed, hr, hpending, hgriefing, hliquidated, -⟩ := cancelIssueLogged_ops h
        have hterms := (cancelIssue_keepsTerms id _ _ _ hreturns).written hr hsettled.issueRequests
        refine .settles (.inr ⟨o, rfl⟩) hr hpending (by simp [hcancelled]) hterms hgriefing
          (fun _ => hliquidated) (fun paid hpaid => ?_) hsettled.issueRequests
        obtain ⟨_, _, _, _, _, hevent, -⟩ := hpaid
        cases hevent
      | _ => exact hother h (by simp [writtenKind])
    | redeem call => exact hother h (by cases call <;> simp [writtenKind])
    | replace call => exact hother h (by cases call <;> simp [writtenKind])
    | _ => exact hother h (by simp [writtenKind])

/-! ## Runs -/

/-- The griefing collateral in a currency that a request keeps locked on an account. -/
def griefed (R : Runtime B) (a : AccountId) (c : CurrencyId) : Option IssueRequest → ℤ
  | some r =>
    if r.status = .pending ∧ r.requester = a ∧ R.getGriefingCollateralCurrencyId = c then
      r.griefingCollateral
    else 0
  | none => 0

/-- The griefing collateral that the pending issue requests of an account keep locked. -/
noncomputable def lockedGriefing (R : Runtime B) (s : Chain B) (a : AccountId) (c : CurrencyId) : ℤ :=
  ∑ id, griefed R a c (s.issue.issueRequests id)

theorem lockedGriefing_update
    (h : s'.issue.issueRequests = update s.issue.issueRequests id (some r)) (a : AccountId)
    (c : CurrencyId) :
    lockedGriefing R s' a c = lockedGriefing R s a c +
      (griefed R a c (some r) - griefed R a c (s.issue.issueRequests id)) := by
  rw [lockedGriefing, lockedGriefing, h]
  exact sum_update (fun _ => griefed R a c) s.issue.issueRequests id (some r)

/-- An issue request that is stored was opened in the run, by a step that locked its griefing
collateral. -/
def OpenedIssue (R : Runtime B) (log : List LogEntry) (id : H256) (r : IssueRequest) : Prop :=
  ∃ n, ∃ entry ∈ log,
    entry.1 = ⟨.extrinsic (.signed r.requester) (.issue (.requestIssue n r.vault)), some id⟩ ∧
    entry.2 = [.lock r.requester (r.griefingAmount R)]

theorem OpenedIssue.concat {log : List LogEntry} (h : OpenedIssue R log id r)
    (hterms : griefingTerms r' = griefingTerms r) (entry : LogEntry) :
    OpenedIssue R (log ++ [entry]) id r' := by
  obtain ⟨n, opening, hmem, hrecord, hops⟩ := h
  simp only [griefingTerms, Prod.mk.injEq] at hterms
  obtain ⟨hrequester, hvault, hgriefing⟩ := hterms
  refine ⟨n, opening, List.mem_append_left _ hmem, ?_, ?_⟩
  · rw [hrecord, hrequester, hvault]
  · rw [hops, IssueRequest.griefingAmount, IssueRequest.griefingAmount, hrequester, hgriefing]

section

variable {entry : LogEntry} {log : List LogEntry}

/-- What a step adds to the locked griefing collateral of pending requests is what the issue pallet
reserves in it. -/
theorem IssueStep.lockedGriefing_eq (h : IssueStep R s entry s')
    (hfresh : ∀ id, entry.1.drawn = some id → ¬ Used s id) (a : AccountId) (c : CurrencyId) :
    lockedGriefing R s' a c = lockedGriefing R s a c + reservedBy entry.2 a c := by
  cases h with
  | keeps hreq hops =>
    rw [lockedGriefing, lockedGriefing, hreq, hops]
    simp [reservedBy]
  | @opens n id r hrecord hpending _ hops hreq =>
    have hunused : s.issue.issueRequests id = none := by
      have hid := hfresh id (by rw [hrecord])
      simp only [Used, not_or, not_not] at hid
      exact hid.1
    rw [lockedGriefing_update hreq, hunused, hops]
    simp [griefed, hpending, reservedBy, TokenOp.reserves, IssueRequest.griefingAmount]
  | @settles id r r' slashed _ hr hpending hstatus _ hgriefing _ _ hreq =>
    rw [lockedGriefing_update hreq, hr, hgriefing.reservedBy_eq]
    simp only [griefed, hpending, hstatus, true_and, false_and, if_false, zero_sub]
    split_ifs <;> simp
  | @resumes id r r' hr hcancelled hcompleted _ hops hreq =>
    rw [lockedGriefing_update hreq, hr, hops]
    simp [griefed, hcancelled, hcompleted, reservedBy]

/-- Every stored request was opened, and its griefing collateral is a balance. -/
def Griefed (R : Runtime B) (log : List LogEntry) (s : Chain B) : Prop :=
  ∀ id r, s.issue.issueRequests id = some r →
    OpenedIssue R log id r ∧ r.griefingCollateral < balanceBound

theorem Griefed.update (hs : Griefed R log s) (hr : s.issue.issueRequests id = some r)
    (hterms : griefingTerms r' = griefingTerms r)
    (hreq : s'.issue.issueRequests = update s.issue.issueRequests id (some r')) (entry : LogEntry) :
    Griefed R (log ++ [entry]) s' := by
  intro id' q hq
  rcases update_eq_some.mp (hreq ▸ hq) with ⟨rfl, rfl⟩ | ⟨-, hq⟩
  · have hgriefing : r'.griefingCollateral = r.griefingCollateral :=
      congrArg (fun terms => terms.2.2) hterms
    rw [hgriefing]
    exact ⟨(hs id' r hr).1.concat hterms entry, (hs id' r hr).2⟩
  · exact ⟨(hs id' q hq).1.concat rfl entry, (hs id' q hq).2⟩

theorem IssueStep.griefed (h : IssueStep R s entry s') (hs : Griefed R log s) :
    Griefed R (log ++ [entry]) s' := by
  cases h with
  | keeps hreq _ =>
    intro id r hr
    rw [hreq] at hr
    exact ⟨(hs id r hr).1.concat rfl entry, (hs id r hr).2⟩
  | @opens n id r hrecord _ hbound hops hreq =>
    intro id' q hq
    rcases update_eq_some.mp (hreq ▸ hq) with ⟨rfl, rfl⟩ | ⟨-, hq⟩
    · exact ⟨⟨n, entry, by simp, hrecord, hops⟩, hbound⟩
    · exact ⟨(hs id' q hq).1.concat rfl entry, (hs id' q hq).2⟩
  | settles _ hr _ _ hterms _ _ _ hreq => exact hs.update hr hterms hreq entry
  | resumes hr _ _ hterms _ hreq => exact hs.update hr hterms hreq entry

/-- A pending request leaves its state only by its own execution or cancellation, and with its
griefing collateral settled. -/
theorem IssueStep.exits (h : IssueStep R s entry s')
    (hfresh : ∀ id, entry.1.drawn = some id → ¬ Used s id) (hr : s.issue.issueRequests id = some r)
    (hpending : r.status = .pending) :
    s'.issue.issueRequests id = some r ∨
      ∃ r' slashed, s'.issue.issueRequests id = some r' ∧ r'.status ≠ .pending ∧
        ActsOnIssue entry.1.event id ∧ GriefingSettled R r slashed entry.2 ∧
        (r'.status = .cancelled → isVaultLiquidated r.vault s = .ok true → slashed = 0) ∧
        ∀ paid, PaidBy R s r id entry.1.event paid → r.amount + r.fee ≤ paid.amount →
          slashed = 0 := by
  cases h with
  | keeps hreq _ => exact .inl (by rw [hreq, hr])
  | @opens n id₀ r₀ hrecord _ _ _ hreq =>
    have hother : id ≠ id₀ := by
      rintro rfl
      exact hfresh id (by rw [hrecord]) (.inl (by simp [hr]))
    exact .inl (by rw [hreq, update_of_ne hother, hr])
  | @settles id₀ r₀ r' slashed hacts hr₀ _ hstatus _ hgriefing hliquidated hpaid hreq =>
    by_cases hid : id = id₀
    · subst hid
      obtain rfl := Option.mem_unique hr hr₀
      exact .inr ⟨r', slashed, by rw [hreq, update_self], hstatus, hacts, hgriefing,
        hliquidated, hpaid⟩
    · exact .inl (by rw [hreq, update_of_ne hid, hr])
  | @resumes id₀ r₀ r' hr₀ hcancelled _ _ _ hreq =>
    have hother : id ≠ id₀ := by
      rintro rfl
      obtain rfl := Option.mem_unique hr hr₀
      rw [hpending] at hcancelled
      cases hcancelled
    exact .inl (by rw [hreq, update_of_ne hother, hr])

end

/-! ## The arithmetic of the split -/

/-- A request that has not expired has waited at most its period. -/
theorem elapsedBlocks_le
    (h : Security.parachainBlockExpired r.opentime (expiryPeriod s r) s = .ok false) :
    elapsedBlocks s r ≤ expiryPeriod s r := by
  simp only [Security.parachainBlockExpired, except_rules, decide_eq_false_iff_not,
    exists_const] at h
  obtain ⟨-, hwithin⟩ := h
  rw [elapsedBlocks]
  omega

theorem unlockOn_fails {e : DispatchError} (h : Fails (amount.unlockOn R a) s e) :
    e = .balanceTooLow := by
  simp only [Amount.unlockOn, fails_bind, fails_liftM, ensure_eq_error] at h
  rcases h with h | ⟨_, _, -, h | ⟨_, _, -, -, h⟩⟩
  · exact absurd h fails_get
  · cases h
  · exact h.symm

/-- The split of a cancellation fails only because the block of its expiry does not exist, because
somebody else cancels early or because the collateral was not reserved. -/
theorem griefingToSlash_fails {e : DispatchError} (hbound : r.griefingCollateral < balanceBound)
    (h : Fails (griefingToSlash R a r) s e) :
    e = DispatchError.overflow ∨ e = issueErr .timeNotExpired ∨ e = .balanceTooLow := by
  unfold griefingToSlash at h
  rcases fails_bind.mp (fails_get_bind.mp h) with hread | ⟨expired, s₁, hread, hbranch⟩
  · have hoverflow := fails_read.mp hread
    simp only [Security.parachainBlockExpired, except_bind_eq_error, ensure_eq_error] at hoverflow
    obtain ⟨-, rfl⟩ | ⟨_, -, hnever⟩ := hoverflow
    · exact .inl rfl
    · cases hnever
  obtain ⟨hexpired, rfl⟩ := returns_read.mp hread
  cases expired with
  | true => exact absurd hbranch fails_pure
  | false =>
    rw [if_neg (by simp)] at hbranch
    split at hbranch
    · -- the part, the minimum and the rest exist, so only the unlocking can fail
      let c := R.getGriefingCollateralCurrencyId
      obtain ⟨part, hpart, -, hc⟩ := calculateCollateral_of_le (r.griefingAmount R)
        ⟨elapsedBlocks s r, c⟩ ⟨expiryPeriod s r, c⟩ hbound (elapsedBlocks_le hexpired)
      let least : Amount := ⟨min part.amount r.griefingCollateral, part.currencyId⟩
      have hleast : part.min (r.griefingAmount R) = .ok least := Amount.min_eq_ok.mpr ⟨hc, rfl⟩
      have hrest : (r.griefingAmount R).saturatingSub least =
          .ok ⟨r.griefingCollateral - least.amount, c⟩ :=
        Amount.saturatingSub_eq_ok.mpr ⟨hc.symm, rfl⟩
      replace hbranch := (fails_liftM_bind hpart).mp (fails_get_bind.mp hbranch)
      rw [fails_liftM_bind hleast, fails_liftM_bind hrest] at hbranch
      rcases fails_bind.mp hbranch with hunlock | ⟨_, _, -, hpure⟩
      · exact .inr (.inr (unlockOn_fails hunlock))
      · exact absurd hpure fails_pure
    · cases hbranch
      exact .inr (.inl rfl)

/-- The split of an execution in which too little was paid is computed without an error. -/
theorem partialPayment_split (hbound : r.griefingCollateral < balanceBound)
    (hless : paid.amount < r.amount + r.fee) :
    ∃ release slashed,
      calculateCollateral (r.griefingAmount R) paid ⟨r.amount + r.fee, r.asset⟩ = .ok release ∧
        (r.griefingAmount R).checkedSub release = .ok slashed := by
  obtain ⟨release, hrelease, hle, hc⟩ := calculateCollateral_of_le (r.griefingAmount R) paid
    ⟨r.amount + r.fee, r.asset⟩ hbound hless.le
  exact ⟨release, _, hrelease, Amount.checkedSub_eq_ok.mpr ⟨hc.symm, hle, rfl⟩⟩

section

variable {entry : LogEntry}

/-- The requester cancels a request before it has expired, and its vault is not liquidated. -/
structure CancelsEarly (s : Chain B) (id : H256) (r : IssueRequest) (event : Event) : Prop where
  event : event = .extrinsic (.signed r.requester) (.issue (.cancelIssue id))
  stored : s.issue.issueRequests id = some r
  active : isVaultLiquidated r.vault s = .ok false
  early : ¬ Expired s r

/-- What the vault gets of the griefing collateral in a step. -/
def slashedIn (R : Runtime B) (r : IssueRequest) (entry : LogEntry) : ℕ :=
  (entry.2.map (slashedFor R.getGriefingCollateralCurrencyId r.requester r.vault.accountId)).sum

theorem CancelsEarly.slashedIn_eq (hcancels : CancelsEarly s id r entry.1.event)
    (h : LoggedStep (issueInstrument R) W s entry s') :
    slashedIn R r entry = earlySlash r.griefingCollateral (elapsedBlocks s r) (expiryPeriod s r) := by
  cases h with
  | environment _ => cases hcancels.event
  | @extrinsic _ o call ops h =>
    obtain ⟨rfl, rfl⟩ := Event.extrinsic.inj hcancels.event
    obtain ⟨r', slashed, hr', -, hgriefing, -, hslashed⟩ := cancelIssueLogged_ops h
    obtain rfl : r = r' := Option.some.inj (hcancels.stored.symm.trans hr')
    rw [slashedIn, hgriefing.slashes, hslashed hcancels.active hcancels.early]

/-- The execution of a cancelled request does nothing with griefing collateral. -/
theorem ops_of_cancelled (hs : Sound s) (hr : s.issue.issueRequests id = some r)
    (hcancelled : r.status = .cancelled) {o : Origin} {e x t : Bytes}
    (hevent : entry.1.event = .extrinsic o (.issue (.executeIssue id e x t)))
    (h : LoggedStep (issueInstrument R) W s entry s') : entry.2 = [] := by
  cases h with
  | environment _ => cases hevent
  | extrinsic h =>
    obtain ⟨rfl, rfl⟩ := Event.extrinsic.inj hevent
    obtain ⟨r', _, _, hr', -, -, ⟨-, rfl⟩ | ⟨hpending, -⟩⟩ := executeIssueLogged_ops hs.keyed h
    · rfl
    · obtain rfl := Option.mem_unique hr hr'
      rw [hcancelled] at hpending
      cases hpending

end

/-! ## The settlement -/

/-- In every run, the griefing collateral of issue requests is locked when they are opened and
settled once.

What the issue pallet keeps reserved on an account is the griefing collateral of the account's
pending requests.  A request that leaves the state `pending` releases all of it: a part goes to the
vault, and nothing does if the request is cancelled while the vault is liquidated or if enough was
paid.  The execution of a cancelled request moves nothing.  The split is computed without a division
by zero, which the pallet reports as an underflow, and without an underflow; and the longer a
requester waits to cancel, the more is slashed. -/
theorem griefing_settled_once (R : Runtime B) (hR : R.tokens.Lawful) (W : Set CurrencyId)
    (s₀ s : Chain B) (log : List LogEntry) (hgenesis : IsGenesis s₀)
    (hnodup : (loggedIds log).Nodup) (hrun : Run (LoggedStep (issueInstrument R) W) s₀ log s) :
    (∀ a c, reservedBy (opsOf log) a c = lockedGriefing R s a c) ∧
    (∀ id r, s.issue.issueRequests id = some r → OpenedIssue R log id r) ∧
    (∀ entry s', LoggedStep (issueInstrument R) W s entry s' →
      (loggedIds (log ++ [entry])).Nodup → ∀ id r, s.issue.issueRequests id = some r →
      (r.status = .pending → s'.issue.issueRequests id = some r ∨
        ∃ r' slashed, s'.issue.issueRequests id = some r' ∧ r'.status ≠ .pending ∧
          ActsOnIssue entry.1.event id ∧ GriefingSettled R r slashed entry.2 ∧
          (r'.status = .cancelled → isVaultLiquidated r.vault s = .ok true → slashed = 0) ∧
          ∀ paid, PaidBy R s r id entry.1.event paid → r.amount + r.fee ≤ paid.amount →
            slashed = 0) ∧
      (r.status = .cancelled → ∀ o e x t,
        entry.1.event = .extrinsic o (.issue (.executeIssue id e x t)) → entry.2 = [])) ∧
    (∀ id r, s.issue.issueRequests id = some r →
      (∀ s₁ a e, Fails (griefingToSlash R a r) s₁ e → e ≠ DispatchError.underflow) ∧
      ∀ paid : Amount, paid.amount < r.amount + r.fee → ∃ release slashed,
        calculateCollateral (r.griefingAmount R) paid ⟨r.amount + r.fee, r.asset⟩ = .ok release ∧
          (r.griefingAmount R).checkedSub release = .ok slashed) ∧
    ∀ id r s₁ s₂ s₁' s₂' entry₁ entry₂, LoggedStep (issueInstrument R) W s₁ entry₁ s₁' →
      LoggedStep (issueInstrument R) W s₂ entry₂ s₂' → CancelsEarly s₁ id r entry₁.1.event →
      CancelsEarly s₂ id r entry₂.1.event → s₁.issue.issuePeriod = s₂.issue.issuePeriod →
      elapsedBlocks s₁ r ≤ elapsedBlocks s₂ r → slashedIn R r entry₁ ≤ slashedIn R r entry₂ := by
  have hinv := logged_invariant (P := fun s log =>
    (∀ a c, reservedBy (opsOf log) a c = lockedGriefing R s a c) ∧ Griefed R log s) hR hgenesis
    ?_ ?_ hrun hnodup
  · obtain ⟨hidentified, hexact, hgriefed⟩ := hinv
    refine ⟨hexact, fun id r hr => (hgriefed id r hr).1, ?_, ?_, ?_⟩
    · intro entry s' hstep hnodup' id r hr
      refine ⟨fun hpending => ?_, fun hcancelled o e x t hevent => ?_⟩
      · exact (step_issueStep hR hidentified.sound hstep).exits
          (fun id hid => (hidentified.drawn_fresh hnodup' hid).2) hr hpending
      · exact ops_of_cancelled hidentified.sound hr hcancelled hevent hstep
    · intro id r hr
      have hbound := (hgriefed id r hr).2
      refine ⟨fun s₁ a e hfails => ?_, fun paid hless => partialPayment_split hbound hless⟩
      obtain rfl | rfl | rfl := griefingToSlash_fails hbound hfails <;> decide
    · intro id r s₁ s₂ s₁' s₂' entry₁ entry₂ hstep₁ hstep₂ hearly₁ hearly₂ hperiod helapsed
      rw [hearly₁.slashedIn_eq hstep₁, hearly₂.slashedIn_eq hstep₂, expiryPeriod, expiryPeriod,
        hperiod]
      exact earlySlash_mono helapsed
  · constructor
    · intro a c
      simp [opsOf, reservedBy, lockedGriefing, hgenesis.issues, griefed]
    · intro id r hr
      simp [hgenesis.issues] at hr
  · rintro s log entry s' hs ⟨hexact, hgriefed⟩ hstep hfresh
    have hissue := step_issueStep hR hs hstep
    constructor
    · intro a c
      rw [opsOf_concat, reservedBy_append, hexact, hissue.lockedGriefing_eq hfresh]
    · exact hissue.griefed hgriefed

/-- The genesis of the small runtime, with a griefing collateral of a tenth. -/
def griefingGenesis : Chain SampleTokens :=
  { sampleGenesis with
    fee := { sampleGenesis.fee with issueGriefingCollateral := percent 10 } }

/-- Account 4 requests a hundred thousand tokens and locks a tenth of them. -/
theorem griefing_settled_once_requesting :
    ∃ s log r, Run (LoggedStep (issueInstrument sampleRuntime) ∅) griefingGenesis log s ∧
      log.map Prod.fst = requesting ∧ s.issue.issueRequests 2 = some r ∧ r.requester = ⟨4⟩ ∧
      r.griefingCollateral = 10000 ∧ r.status = .pending ∧ OpenedIssue sampleRuntime log 2 r := by
  obtain ⟨s, hrun, r, hr, hrequester, hgriefing, hpending⟩ : ∃ s,
      Run (Step sampleRuntime ∅) griefingGenesis requesting s ∧ ∃ r, s.issue.issueRequests 2 = some r ∧
        r.requester = ⟨4⟩ ∧ r.griefingCollateral = 10000 ∧ r.status = .pending :=
    run_of_replay environmentStep_sampleDelay (by decide +kernel)
  obtain ⟨log, hlog, hrun⟩ := (run_logged (issueInstrument sampleRuntime)).mp hrun
  have hnodup : (loggedIds log).Nodup := by
    rw [loggedIds, hlog]
    decide
  have hgenesis : IsGenesis griefingGenesis :=
    ⟨rfl, rfl, rfl, rfl, rfl, rfl, rfl, rfl, rfl, rfl, rfl⟩
  refine ⟨s, log, r, hrun, hlog, hr, hrequester, hgriefing, hpending, ?_⟩
  exact (griefing_settled_once sampleRuntime sampleRuntime_lawful ∅ griefingGenesis s log
    hgenesis hnodup hrun).2.1 2 r hr

end Spacewalk.Ledger
