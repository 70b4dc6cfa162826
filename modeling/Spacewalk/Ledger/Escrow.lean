import Spacewalk.Ledger.RateLimits
import Spacewalk.Ledger.TokenLog

/-!
# The escrow of redeem requests

A redeem request locks the wrapped tokens of the user.  They stay locked until the request is
executed or cancelled, and are then burned, given to the vault or freed; the fee goes to the fee
pool unless all is freed (`exitOps`).

`redeemInstrument` logs what the redeem pallet does with tokens.  In every run, what it has reserved
on an account, less what it has unreserved or burned, is the total of the pending requests of the
account (`escrow_exact`): a redemption from the liquidation vault and a self redemption lock tokens
only to burn them.
-/

namespace Spacewalk.Ledger

open Foundation Function VaultRegistry Redeem
open Stellar (Bytes)

variable {B : Type}

/-! ## The calls with their token operations -/

section

variable (R : Runtime B) (origin o : Origin) (redeemId id : H256)

/-- `request_redeem`, with a log. -/
def requestRedeemLogged (amountWrapped : Nat) (stellarAddress : StellarPublicKeyRaw)
    (vaultId : VaultId) : LoggedM B Unit := do
  let redeemer ← ensureSigned origin
  let amountWrapped : Amount := ⟨amountWrapped, vaultId.wrappedCurrency⟩
  amountWrapped.ensureIsCompatibleWithTargetChain
  RateLimit.checkVolume R rateLimitL (redeemErr .exceedLimitVolumeForRedeemRequest) amountWrapped
  read (Security.ensureParachainStatusRunning (B := B))
  let redeemerBalance := Currency.getFreeBalance R vaultId.wrappedCurrency redeemer (← get)
  ensure ((← amountWrapped.le redeemerBalance) = true) (redeemErr .amountExceedsUserBalance)
  let feeWrapped ← read (requestFee (B := B) redeemer vaultId amountWrapped)
  let inclusionFee := getCurrentInclusionFee vaultId.wrappedCurrency
  let feeWrapped ← feeWrapped.roundToTargetChain
  let vaultToBeBurnedTokens ← amountWrapped.checkedSub feeWrapped
  let userToBeReceivedStellarAsset ← withError (redeemErr .amountBelowMinimumTransferAmount)
    (vaultToBeBurnedTokens.checkedSub inclusionFee : ChainM B Amount)
  read (ensureNotBanned (B := B) vaultId)
  let minimum : Amount := ⟨(← get).redeem.redeemMinimumTransferAmount, vaultId.wrappedCurrency⟩
  ensure ((← userToBeReceivedStellarAsset.ge minimum) = true)
    (redeemErr .amountBelowMinimumTransferAmount)
  tryIncreaseToBeRedeemedTokens (B := B) vaultId vaultToBeBurnedTokens
  own R (.lock redeemer amountWrapped)
  let redeemId ← Security.getSecureId R
  let premiumCollateral ← read (requestPremium R vaultId userToBeReceivedStellarAsset)
  releaseReplaceCollateral R vaultId vaultToBeBurnedTokens
  let s ← get
  insertRedeemRequest (B := B) redeemId
    { vault := vaultId
      opentime := Security.activeBlockNumber s
      period := s.redeem.redeemPeriod
      fee := feeWrapped.amount
      transferFee := inclusionFee.amount
      amount := userToBeReceivedStellarAsset.amount
      asset := userToBeReceivedStellarAsset.currencyId
      premium := premiumCollateral.amount
      redeemer := redeemer
      stellarAddress := stellarAddress
      status := .pending }

theorem erase_requestRedeemLogged (n : Nat) (a : StellarPublicKeyRaw) (v : VaultId) :
    erase (requestRedeemLogged R o n a v) = requestRedeem R o n a v := by
  simp only [requestRedeemLogged, requestRedeem, own, TokenOp.perform, erase_rules]

/-- `liquidation_redeem`, with a log. -/
def liquidationRedeemLogged (currencies : VaultCurrencyPair) (amountWrapped : Nat) :
    LoggedM B Unit := do
  let redeemer ← ensureSigned origin
  let amountWrapped : Amount := ⟨amountWrapped, currencies.wrapped⟩
  let redeemerBalance := Currency.getFreeBalance R currencies.wrapped redeemer (← get)
  ensure ((← amountWrapped.le redeemerBalance) = true) (redeemErr .amountExceedsUserBalance)
  own R (.lock redeemer amountWrapped)
  own R (.burn redeemer amountWrapped)
  redeemTokensLiquidation R currencies.collateral redeemer amountWrapped

theorem erase_liquidationRedeemLogged (p : VaultCurrencyPair) (n : Nat) :
    erase (liquidationRedeemLogged R o p n) = liquidationRedeem R o p n := by
  simp only [liquidationRedeemLogged, liquidationRedeem, own, TokenOp.perform, erase_rules]

/-- Send the fee of a request to the fee pool, with a log. -/
def collectFeeLogged (redeem : RedeemRequest) : LoggedM B Unit := do
  own R (.unlock redeem.redeemer redeem.feeAmount)
  own R (.transfer redeem.redeemer R.feePoolAccountId redeem.feeAmount)
  Fee.distributeRewards R redeem.feeAmount

theorem erase_collectFeeLogged (r : RedeemRequest) :
    erase (collectFeeLogged R r) = collectFee R r := by
  simp only [collectFeeLogged, collectFee, own, TokenOp.perform, erase_rules]

/-- `execute_redeem`, with a log. -/
def executeRedeemLogged
    (transactionEnvelopeXdrEncoded externalizedEnvelopesEncoded transactionSetEncoded : Bytes) :
    LoggedM B Unit := do
  let _ ← ensureSigned origin
  let redeem ← read (getOpenRedeemRequestFromId (B := B) redeemId)
  let transactionEnvelope ← read (StellarRelay.validatePayment R redeemId
    transactionEnvelopeXdrEncoded externalizedEnvelopesEncoded transactionSetEncoded)
  let paidAmount ← Currency.getAmountFromTransactionEnvelope transactionEnvelope
    redeem.stellarAddress redeem.asset
  ensure ((← paidAmount.ge redeem.paidAmount) = true) (redeemErr .invalidPaymentAmount)
  let burnAmount ← redeem.paidAmount.checkedAdd redeem.transferFeeAmount
  own R (.burn redeem.redeemer burnAmount)
  RateLimit.increaseIntervalVolume R rateLimitL burnAmount
  collectFeeLogged R redeem
  redeemTokens R redeem.vault burnAmount redeem.premiumAmount redeem.redeemer
  setRedeemStatus (B := B) redeemId .completed

theorem erase_executeRedeemLogged (e x t : Bytes) :
    erase (executeRedeemLogged R o id e x t) = executeRedeem R o id e x t := by
  simp only [executeRedeemLogged, executeRedeem, own, TokenOp.perform, erase_rules,
    erase_collectFeeLogged]

/-- What happens to the tokens of a cancelled request, with a log. -/
def settleTokensLogged (reimburse : Bool) (redeem : RedeemRequest) (vaultToBeBurnedTokens : Amount) :
    LoggedM B Unit := do
  if reimburse then
    collectFeeLogged R redeem
    if ← read (isVaultBelowSecureThreshold R redeem.vault) then
      own R (.burn redeem.redeemer vaultToBeBurnedTokens)
      decreaseTokens (B := B) redeem.vault vaultToBeBurnedTokens
      setRedeemStatus (B := B) redeemId (.reimbursed false)
    else
      own R (.unlock redeem.redeemer vaultToBeBurnedTokens)
      own R (.transfer redeem.redeemer redeem.vault.accountId vaultToBeBurnedTokens)
      decreaseToBeRedeemedTokens (B := B) redeem.vault vaultToBeBurnedTokens
      setRedeemStatus (B := B) redeemId (.reimbursed true)
  else
    let totalWrapped ←
      (← redeem.paidAmount.checkedAdd redeem.feeAmount).checkedAdd redeem.transferFeeAmount
    own R (.unlock redeem.redeemer totalWrapped)
    decreaseToBeRedeemedTokens (B := B) redeem.vault vaultToBeBurnedTokens
    setRedeemStatus (B := B) redeemId .retried

theorem erase_settleTokensLogged (b : Bool) (r : RedeemRequest) (burned : Amount) :
    erase (settleTokensLogged R id b r burned) = settleTokens R id b r burned := by
  simp only [settleTokensLogged, settleTokens, own, TokenOp.perform, erase_rules,
    erase_collectFeeLogged]

/-- `cancel_redeem`, with a log.  The collateral of the vault is slashed by the vault registry. -/
def cancelRedeemLogged (reimburse : Bool) : LoggedM B Unit := do
  let redeemer ← ensureSigned origin
  read (Security.ensureParachainStatusRunning (B := B))
  let redeem ← read (getOpenRedeemRequestFromId (B := B) redeemId)
  ensure (redeemer = redeem.redeemer) (redeemErr .unauthorizedRedeemer)
  let period := max (← get).redeem.redeemPeriod redeem.period
  ensure ((← read (Security.parachainBlockExpired (B := B) redeem.opentime period)) = true)
    (redeemErr .timeNotExpired)
  let vault ← read (getVaultFromId (B := B) redeem.vault)
  let vaultToBeRedeemedTokens : Amount :=
    ⟨vault.toBeRedeemedTokens, redeem.vault.wrappedCurrency⟩
  let vaultToBeBurnedTokens ← redeem.paidAmount.checkedAdd redeem.transferFeeAmount
  let amountWrappedInCollateral ←
    read (vaultToBeBurnedTokens.convertTo R redeem.vault.collateralCurrency)
  if vault.isLiquidated then
    confiscateLiquidated R redeemer reimburse redeem.vault vaultToBeBurnedTokens
      vaultToBeRedeemedTokens
  else
    slashActive R redeemer redeemId reimburse redeem.vault amountWrappedInCollateral
  settleTokensLogged R redeemId reimburse redeem vaultToBeBurnedTokens

theorem erase_cancelRedeemLogged (b : Bool) :
    erase (cancelRedeemLogged R o id b) = cancelRedeem R o id b := by
  simp only [cancelRedeemLogged, cancelRedeem, erase_rules, erase_settleTokensLogged]

/-- `self_redeem`, with a log. -/
def selfRedeemLogged (currencyPair : VaultCurrencyPair) (amountWrapped : Nat) : LoggedM B Unit := do
  let accountId ← ensureSigned origin
  let vaultId : VaultId := ⟨accountId, currencyPair⟩
  let amountWrapped : Amount := ⟨amountWrapped, vaultId.wrappedCurrency⟩
  read (ensureNotBanned (B := B) vaultId)
  ensure (amountWrapped.isZero = false) (redeemErr .amountBelowMinimumTransferAmount)
  let (fees, consumedIssuedTokens) ← read (calculateTokenAmounts (B := B) vaultId amountWrapped)
  ownOrFail R (redeemErr .amountExceedsUserBalance) (.lock vaultId.accountId consumedIssuedTokens)
  own R (.burn vaultId.accountId consumedIssuedTokens)
  ownOrFail R (redeemErr .amountExceedsUserBalance)
    (.transfer vaultId.accountId R.feePoolAccountId fees)
  Fee.distributeRewards R fees
  tryIncreaseToBeRedeemedTokens (B := B) vaultId consumedIssuedTokens
  redeemTokens R vaultId consumedIssuedTokens (Amount.zero vaultId.collateralCurrency)
    vaultId.accountId
  releaseReplaceCollateral R vaultId consumedIssuedTokens

theorem erase_selfRedeemLogged (p : VaultCurrencyPair) (n : Nat) :
    erase (selfRedeemLogged R o p n) = selfRedeem R o p n := by
  simp only [selfRedeemLogged, selfRedeem, own, ownOrFail, TokenOp.perform, erase_rules]

/-- The calls, with a log of what the redeem pallet does with tokens.  Its other calls, and those of
the other pallets, do nothing with tokens that the redeem pallet reserves. -/
def redeemInstrument : Instrument R where
  dispatch
    | o, .redeem (.requestRedeem n a v) => requestRedeemLogged R o n a v
    | o, .redeem (.liquidationRedeem p n) => liquidationRedeemLogged R o p n
    | o, .redeem (.executeRedeem id e x t) => executeRedeemLogged R o id e x t
    | o, .redeem (.cancelRedeem id b) => cancelRedeemLogged R o id b
    | o, .redeem (.selfRedeem p n) => selfRedeemLogged R o p n
    | o, call => call.dispatch R o
  erases o call := by
    cases call with
    | redeem call =>
      cases call with
      | requestRedeem n a v => exact erase_requestRedeemLogged R o n a v
      | liquidationRedeem p n => exact erase_liquidationRedeemLogged R o p n
      | executeRedeem id e x t => exact erase_executeRedeemLogged R o id e x t
      | cancelRedeem id b => exact erase_cancelRedeemLogged R o id b
      | selfRedeem p n => exact erase_selfRedeemLogged R o p n
      | _ => exact erase_liftM _
    | _ => exact erase_liftM _

end

variable {R : Runtime B} {W : Set CurrencyId} {s s' : Chain B} {o : Origin} {u : Unit}
  {ops : List TokenOp} {r : RedeemRequest} {id : H256} {n : ℕ} {v : VaultId} {p : VaultCurrencyPair}

/-! ## What a request locks, and where it goes -/

/-- All tokens of a request. -/
def redeemTotal (r : RedeemRequest) : ℕ := r.amount + r.fee + r.transferFee

/-- What happens to the tokens of a request that leaves the state `pending`.  The tokens for the vault
are burned and the fee goes to the fee pool (executed, or reimbursed while the vault cannot back
them); the tokens go to the vault and the fee to the fee pool (reimbursed); or everything becomes
free again (retried). -/
def exitOps (R : Runtime B) (r : RedeemRequest) : RedeemRequestStatus → List TokenOp
  | .pending => []
  | .completed =>
    [.burn r.redeemer r.burnedAmount, .unlock r.redeemer r.feeAmount,
      .transfer r.redeemer R.feePoolAccountId r.feeAmount]
  | .reimbursed false =>
    [.unlock r.redeemer r.feeAmount, .transfer r.redeemer R.feePoolAccountId r.feeAmount,
      .burn r.redeemer r.burnedAmount]
  | .reimbursed true =>
    [.unlock r.redeemer r.feeAmount, .transfer r.redeemer R.feePoolAccountId r.feeAmount,
      .unlock r.redeemer r.burnedAmount,
      .transfer r.redeemer r.vault.accountId r.burnedAmount]
  | .retried => [.unlock r.redeemer ⟨redeemTotal r, r.asset⟩]

/-- The tokens of a currency that a request keeps locked on an account. -/
def escrowed (a : AccountId) (w : CurrencyId) : Option RedeemRequest → ℤ
  | some r =>
    if r.status = .pending ∧ r.redeemer = a ∧ r.asset = w then redeemTotal r else 0
  | none => 0

/-- The tokens of a currency that the pending redeem requests of an account keep locked. -/
noncomputable def escrow (s : Chain B) (a : AccountId) (w : CurrencyId) : ℤ :=
  ∑ id, escrowed a w (s.redeem.redeemRequests id)

/-- Every way out of the state `pending` takes exactly what the request locked. -/
theorem reservedBy_exitOps (r : RedeemRequest) {status : RedeemRequestStatus}
    (hstatus : status ≠ .pending) (a : AccountId) (w : CurrencyId) :
    reservedBy (exitOps R r status) a w =
      if r.redeemer = a ∧ r.asset = w then -(redeemTotal r : ℤ) else 0 := by
  simp only [redeemTotal, Nat.cast_add]
  cases status with
  | pending => exact absurd rfl hstatus
  | completed =>
    simp only [exitOps, reservedBy, List.map_cons, List.map_nil, List.sum_cons, List.sum_nil,
      TokenOp.reserves, RedeemRequest.feeAmount, RedeemRequest.burnedAmount, Nat.cast_add]
    split_ifs <;> ring
  | reimbursed minted =>
    cases minted <;>
      simp only [exitOps, reservedBy, List.map_cons, List.map_nil, List.sum_cons, List.sum_nil,
        TokenOp.reserves, RedeemRequest.feeAmount, RedeemRequest.burnedAmount, Nat.cast_add] <;>
      split_ifs <;> ring
  | retried =>
    simp only [exitOps, reservedBy, List.map_cons, List.map_nil, List.sum_cons, List.sum_nil,
      TokenOp.reserves, redeemTotal, Nat.cast_add]
    split_ifs <;> ring

/-! ## What a step does -/

/-- A step leaves the redeem requests and, on balance, what the redeem pallet has reserved; it opens
or settles a request; or it mints the tokens of a request that was reimbursed. -/
inductive RedeemStep (R : Runtime B) (s : Chain B) (entry : LogEntry) (s' : Chain B) : Prop
  | keeps : s'.redeem.redeemRequests = s.redeem.redeemRequests →
      (∀ a w, reservedBy entry.2 a w = 0) → RedeemStep R s entry s'
  | opens {a : AccountId} {n : ℕ} {address : StellarPublicKeyRaw} {id : H256} {r : RedeemRequest} :
      entry.1 = ⟨.extrinsic (.signed a) (.redeem (.requestRedeem n address r.vault)), some id⟩ →
      r.status = .pending → r.redeemer = a → r.asset = r.vault.wrappedCurrency →
      redeemTotal r = n → entry.2 = [.lock a ⟨n, r.asset⟩] →
      s'.redeem.redeemRequests = update s.redeem.redeemRequests id (some r) →
      RedeemStep R s entry s'
  | settles {id : H256} {r : RedeemRequest} {status : RedeemRequestStatus} :
      s.redeem.redeemRequests id = some r → r.status = .pending → status ≠ .pending →
      entry.2 = exitOps R r status →
      s'.redeem.redeemRequests = update s.redeem.redeemRequests id
        (some { r with status := status }) → RedeemStep R s entry s'
  | mints {id : H256} {r : RedeemRequest} :
      s.redeem.redeemRequests id = some r → r.status = .reimbursed false → entry.2 = [] →
      s'.redeem.redeemRequests = update s.redeem.redeemRequests id
        (some { r with status := .reimbursed true }) → RedeemStep R s entry s'

def SameFees (s s' : Chain B) : Prop := s'.fee = s.fee

instance sameFees_refl : Std.Refl (SameFees (B := B)) := ⟨fun _ => rfl⟩

instance sameFees_trans : IsTrans (Chain B) SameFees := ⟨fun _ _ _ h h' => Eq.trans h' h⟩

theorem SameFees.eq (h : SameFees s s') : s'.fee = s.fee := h

/-- The fee of an amount that can be paid on the Stellar network is the given one, rounded to what
can be paid there. -/
def RoundedFee (given : Except DispatchError Amount) (amount fee : ℕ) : Prop :=
  isCompatibleWithTarget amount = true ∧
    ∃ exact, given = .ok exact ∧ ∃ rounded, exact.roundToTargetChain = .ok rounded ∧
      rounded.amount = fee

theorem redeemRequests_write {s₁ s₂ : Chain B} (hbefore : SameRequests s s₁)
    (hafter : SameRequests (drawn s₁) s₂) :
    ((Write.redeem id r).apply s₂).redeem.redeemRequests =
      update s.redeem.redeemRequests id (some r) := by
  have hsame : s₂.redeem.redeemRequests = s.redeem.redeemRequests :=
    hafter.redeems.trans hbefore.redeems
  rw [← hsame]
  rfl

/-- A redeem request is stored under the identifier that is drawn for it. -/
theorem requestRedeem_inserts {address : StellarPublicKeyRaw}
    (h : Returns (requestRedeem R o n address v) s u s') :
    ∃ id r, o = .signed r.redeemer ∧ r.vault = v ∧ r.status = .pending ∧
      r.asset = v.wrappedCurrency ∧ redeemTotal r = n ∧ drawnBetween R s s' = some id ∧
      s'.redeem.redeemRequests = update s.redeem.redeemRequests id (some r) ∧
      RoundedFee (requestFee r.redeemer v ⟨n, v.wrappedCurrency⟩ s) n r.fee ∧ r.transferFee = 0 := by
  simp only [requestRedeem, returns_insertRedeemRequest, returns_getSecureId, returns_guards,
    returns_withError] at h
  obtain ⟨redeemer, hsigned, _, hcompatible, _, s₁, hvolume, _, -, _, -, -, h⟩ := h
  obtain ⟨exact, hexact, fee, hround, burned, hburned, received, hreceived, _, -, _, -, -, h⟩ := h
  obtain ⟨_, s₂, hincrease, _, s₃, hlock, premium, -, _, s₄, hrelease, rfl⟩ := h
  obtain ⟨-, hfee, rfl⟩ := Amount.checkedSub_eq_ok.mp hburned
  obtain ⟨-, -, rfl⟩ := Amount.checkedSub_eq_ok.mp hreceived
  have hbefore : SameRequests s s₃ :=
    ((checkVolume_respects (redeemRateLimit_frame (R := R)) _ _ _ _ _ hvolume).toSameRequests.trans
      (sameRequests_of_surroundings ((surroundings_steady R).tryIncreaseToBeRedeemedTokens _ _ _ _ _ hincrease))).trans
      (sameRequests_of_surroundings ((surroundings_steady R).tokens _ _ _ _ hlock))
  have hafter : SameRequests (drawn s₃) s₄ :=
    sameRequests_of_surroundings ((surroundings_steady R).releaseReplaceCollateral _ _ _ _ _ hrelease)
  rw [drawnBetween_write hbefore hafter]
  have hfees : SameFees s s₁ := checkVolume_respects (fun _ _ => rfl) _ _ _ _ _ hvolume
  refine ⟨_, _, ensureSigned_eq_ok.mp hsigned, rfl, rfl, rfl, ?_, rfl,
    redeemRequests_write hbefore hafter, ⟨ensure_eq_ok.mp hcompatible, exact, ?_, fee, hround, rfl⟩, rfl⟩
  · simp only [redeemTotal, getCurrentInclusionFee] at hfee ⊢
    omega
  · rwa [requestFee, Fee.getRedeemFee, hfees.eq] at hexact

theorem requestRedeemLogged_ops {address : StellarPublicKeyRaw}
    (h : Logs (requestRedeemLogged R o n address v) s u ops s') :
    ∃ a, o = .signed a ∧ ops = [.lock a ⟨n, v.wrappedCurrency⟩] := by
  simp only [requestRedeemLogged, own, logs_rules] at h
  obtain ⟨redeemer, hsigned, _, -, _, s₁, -, _, _, -, _, -, _, -, h⟩ := h
  obtain ⟨_, _, -, fee, -, burned, -, received, _, -, _, _, -, _, -, _, -, h⟩ := h
  obtain ⟨_, s₂, -, s₃, rest, -, ⟨_, s₄, -, premium, s₅, -, _, s₆, -, -, rfl⟩, rfl⟩ := h
  exact ⟨redeemer, ensureSigned_eq_ok.mp hsigned, rfl⟩

theorem collectFeeLogged_ops (h : Logs (collectFeeLogged R r) s u ops s') :
    ops = [.unlock r.redeemer r.feeAmount,
      .transfer r.redeemer R.feePoolAccountId r.feeAmount] := by
  simp only [collectFeeLogged, own, logs_rules] at h
  obtain ⟨s₁, rest, -, ⟨s₂, rest', -, ⟨-, rfl⟩, rfl⟩, rfl⟩ := h
  rfl

theorem setRedeemStatus_status {status : RedeemRequestStatus}
    (h : Returns (setRedeemStatus id status) s u s') (hr : s'.redeem.redeemRequests id = some r) :
    r.status = status := by
  obtain rfl := returns_modify.mp h
  simp only [Chain.mapRedeem, update_self, Option.map_eq_some_iff] at hr
  obtain ⟨q, -, rfl⟩ := hr
  rfl

theorem executeRedeemLogged_ops {e x t : Bytes}
    (h : Logs (executeRedeemLogged R o id e x t) s u ops s') :
    ∃ r, s.redeem.redeemRequests id = some r ∧ ops = exitOps R r .completed := by
  simp only [executeRedeemLogged, own, logs_rules, returns_read, and_assoc, exists_and_left,
    exists_eq_left'] at h
  obtain ⟨_, -, r, hr, _, -, _, -, _, -, _, -, burned, hburned, s₁, -, rest, h, rfl⟩ := h
  obtain ⟨_, s₂, -, h⟩ := h
  obtain ⟨_, s₃, fees, after, hfee, hrest, rfl⟩ := logs_bind.mp h
  obtain ⟨_, s₄, -, hstatus⟩ := logs_liftM_bind.mp hrest
  obtain ⟨-, rfl⟩ := logs_liftM.mp hstatus
  obtain ⟨-, -, rfl⟩ := Amount.checkedAdd_eq_ok.mp hburned
  obtain rfl := collectFeeLogged_ops hfee
  exact ⟨r, (getOpenRedeemRequestFromId_stored hr).1, rfl⟩

/-- The operations are those of the status that the request gets. -/
theorem settleTokensLogged_ops {reimburse : Bool}
    (h : Logs (settleTokensLogged R id reimburse r r.burnedAmount) s u ops s') :
    ∃ status, (∀ q, s'.redeem.redeemRequests id = some q → q.status = status) ∧
      ops = exitOps R r status := by
  unfold settleTokensLogged at h
  rcases logs_ite.mp h with ⟨-, h⟩ | ⟨-, h⟩
  · obtain ⟨_, s₁, fees, after, hfee, hrest, rfl⟩ := logs_bind.mp h
    obtain rfl := collectFeeLogged_ops hfee
    obtain ⟨below, s₂, -, hsettle⟩ := logs_liftM_bind.mp hrest
    rcases logs_ite.mp hsettle with ⟨-, h⟩ | ⟨-, h⟩
    · simp only [own, logs_rules] at h
      obtain ⟨s₃, rest, -, ⟨_, s₄, -, hset, rfl⟩, rfl⟩ := h
      exact ⟨.reimbursed false, fun q => setRedeemStatus_status hset, rfl⟩
    · simp only [own, logs_rules] at h
      obtain ⟨s₃, rest, -, ⟨s₄, rest', -, ⟨_, s₅, -, hset, rfl⟩, rfl⟩, rfl⟩ := h
      exact ⟨.reimbursed true, fun q => setRedeemStatus_status hset, rfl⟩
  · simp only [own, logs_rules] at h
    obtain ⟨both, hboth, total, htotal, s₁, rest, -, ⟨_, s₂, -, hset, rfl⟩, rfl⟩ := h
    obtain ⟨-, -, rfl⟩ := Amount.checkedAdd_eq_ok.mp hboth
    obtain ⟨-, -, rfl⟩ := Amount.checkedAdd_eq_ok.mp htotal
    exact ⟨.retried, fun q => setRedeemStatus_status hset, rfl⟩

theorem cancelRedeemLogged_ops {reimburse : Bool}
    (h : Logs (cancelRedeemLogged R o id reimburse) s u ops s') :
    ∃ r status, s.redeem.redeemRequests id = some r ∧
      (∀ q, s'.redeem.redeemRequests id = some q → q.status = status) ∧
      ops = exitOps R r status := by
  simp only [cancelRedeemLogged, logs_rules, returns_read, and_assoc, exists_and_left,
    exists_eq_left'] at h
  obtain ⟨_, -, _, -, r, hr, _, -, _, -, _, -, d, -, burned, hburned, _, -, h⟩ := h
  obtain ⟨-, -, rfl⟩ := Amount.checkedAdd_eq_ok.mp hburned
  obtain ⟨s₁, hsettle⟩ : ∃ s₁, Logs (settleTokensLogged R id reimburse r r.burnedAmount) s₁ u ops s' := by
    rcases logs_ite.mp h with ⟨-, h⟩ | ⟨-, h⟩
    · obtain ⟨_, s₁, -, h⟩ := logs_liftM_bind.mp h
      exact ⟨s₁, h⟩
    · obtain ⟨_, s₁, -, h⟩ := logs_liftM_bind.mp h
      exact ⟨s₁, h⟩
  obtain ⟨status, hstatus, rfl⟩ := settleTokensLogged_ops hsettle
  exact ⟨r, status, (getOpenRedeemRequestFromId_stored hr).1, hstatus, rfl⟩

theorem liquidationRedeemLogged_ops (h : Logs (liquidationRedeemLogged R o p n) s u ops s')
    (a : AccountId) (w : CurrencyId) : reservedBy ops a w = 0 := by
  simp only [liquidationRedeemLogged, own, logs_rules] at h
  obtain ⟨redeemer, -, _, -, _, -, s₁, rest, -, ⟨s₂, rest', -, ⟨-, rfl⟩, rfl⟩, rfl⟩ := h
  simp only [reservedBy, List.map_cons, List.map_nil, List.sum_cons, List.sum_nil, TokenOp.reserves]
  split_ifs <;> ring

theorem selfRedeemLogged_ops (h : Logs (selfRedeemLogged R o p n) s u ops s') (a : AccountId)
    (w : CurrencyId) : reservedBy ops a w = 0 := by
  simp only [selfRedeemLogged, own, ownOrFail, logs_rules] at h
  obtain ⟨b, -, _, _, -, _, -, amounts, s₁, -, s₂, rest, -, h, rfl⟩ := h
  obtain ⟨s₃, rest', -, ⟨s₄, rest'', -, h, rfl⟩, rfl⟩ := h
  obtain ⟨_, s₅, -, _, s₆, -, _, s₇, -, -, rfl⟩ := h
  simp only [reservedBy, List.map_cons, List.map_nil, List.sum_cons, List.sum_nil, TokenOp.reserves]
  split_ifs <;> ring

theorem step_redeemStep (hR : R.tokens.Lawful) (hs : Sound s) {entry : LogEntry}
    (h : LoggedStep (redeemInstrument R) W s entry s') : RedeemStep R s entry s' := by
  cases h with
  | environment h => exact .keeps (environment_sameOf (k := .redeem) h) fun _ _ => rfl
  | @extrinsic _ o call ops h =>
    have hreturns := (redeemInstrument R).returns.mpr ⟨ops, h⟩
    -- what is not instrumented logs nothing
    have hother : Logs (liftM (call.dispatch R o) : LoggedM B Unit) s () ops s' →
        writtenKind call ≠ some .redeem →
        RedeemStep R s (⟨.extrinsic o call, drawnBetween R s s'⟩, ops) s' := by
      intro hlift hkind
      obtain ⟨-, rfl⟩ := logs_liftM.mp hlift
      exact .keeps (dispatch_sameOf (k := .redeem) hreturns hkind) fun _ _ => rfl
    cases call with
    | redeem call =>
      cases call with
      | requestRedeem n address v =>
        obtain ⟨id, r, rfl, rfl, hpending, hasset, htotal, hdrawn, hreq, -⟩ :=
          requestRedeem_inserts hreturns
        obtain ⟨a, ho, rfl⟩ := requestRedeemLogged_ops h
        obtain rfl : r.redeemer = a := Origin.signed.inj ho
        rw [hdrawn]
        exact .opens rfl hpending rfl hasset htotal (by rw [hasset]) hreq
      | liquidationRedeem p n =>
        exact .keeps (dispatch_sameOf (k := .redeem) hreturns (by simp [writtenKind]))
          (liquidationRedeemLogged_ops h)
      | executeRedeem id e x t =>
        obtain ⟨r, hr, hops⟩ := executeRedeemLogged_ops h
        obtain ⟨r', hr', hpending, hsettled⟩ := executeRedeem_settled hR hs.keyed hreturns
        obtain rfl := Option.mem_unique hr hr'
        exact .settles hr hpending (by simp) hops hsettled.redeemRequests
      | cancelRedeem id b =>
        obtain ⟨r, status, hr, hstatus, hops⟩ := cancelRedeemLogged_ops h
        obtain ⟨r', status', hr', hpending, hne, hsettled⟩ :=
          cancelRedeem_settled hR hs.keyed hreturns
        obtain rfl := Option.mem_unique hr hr'
        obtain rfl : status' = status :=
          hstatus { r with status := status' } (by rw [hsettled.redeemRequests, update_self])
        exact .settles hr hpending hne hops hsettled.redeemRequests
      | mintTokensForReimbursedRedeem p id =>
        obtain ⟨-, rfl⟩ := logs_liftM.mp h
        obtain ⟨r, hr, hstatus, hsettled⟩ :=
          mintTokensForReimbursedRedeem_settled hR hs.keyed hreturns
        exact .mints hr hstatus rfl hsettled.redeemRequests
      | selfRedeem p n =>
        exact .keeps (dispatch_sameOf (k := .redeem) hreturns (by simp [writtenKind]))
          (selfRedeemLogged_ops h)
      | _ => exact hother h (by simp [writtenKind])
    | issue call => exact hother h (by cases call <;> simp [writtenKind])
    | replace call => exact hother h (by cases call <;> simp [writtenKind])
    | _ => exact hother h (by simp [writtenKind])

/-! ## Runs -/

section

variable {entry : LogEntry}

theorem escrow_update (h : s'.redeem.redeemRequests = update s.redeem.redeemRequests id (some r))
    (a : AccountId) (w : CurrencyId) :
    escrow s' a w = escrow s a w +
      (escrowed a w (some r) - escrowed a w (s.redeem.redeemRequests id)) := by
  rw [escrow, escrow, h]
  exact sum_update (fun _ => escrowed a w) s.redeem.redeemRequests id (some r)

/-- What a step adds to the locked tokens of pending requests is what the redeem pallet reserves in
it. -/
theorem RedeemStep.escrow_eq (h : RedeemStep R s entry s')
    (hfresh : ∀ id, entry.1.drawn = some id → ¬ Used s id) (a : AccountId) (w : CurrencyId) :
    escrow s' a w = escrow s a w + reservedBy entry.2 a w := by
  cases h with
  | keeps hreq hops =>
    rw [escrow, escrow, hreq, hops, add_zero]
  | @opens b n address id r hrecord hpending hredeemer hasset htotal hops hreq =>
    have hunused : s.redeem.redeemRequests id = none := by
      have hid := hfresh id (by rw [hrecord])
      simp only [Used, not_or, not_not] at hid
      exact hid.2.1
    rw [escrow_update hreq, hunused, hops]
    simp only [escrowed, hpending, hredeemer, htotal, true_and, reservedBy, List.map_cons,
      List.map_nil, List.sum_cons, List.sum_nil, TokenOp.reserves, sub_zero, add_zero]
  | @settles id r status hr hpending hstatus hops hreq =>
    rw [escrow_update hreq, hr, hops, reservedBy_exitOps r hstatus]
    simp only [escrowed, hpending, hstatus, true_and, false_and, if_false, zero_sub]
    split_ifs <;> simp
  | @mints id r hr hstatus hops hreq =>
    rw [escrow_update hreq, hr, hops]
    simp [escrowed, hstatus, reservedBy]

/-- A request that is stored was opened in the run. -/
def Opened (log : List LogEntry) (id : H256) (r : RedeemRequest) : Prop :=
  ∃ address, ∃ entry ∈ log,
    entry.1 = ⟨.extrinsic (.signed r.redeemer)
      (.redeem (.requestRedeem (redeemTotal r) address r.vault)), some id⟩ ∧
    entry.2 = [.lock r.redeemer ⟨redeemTotal r, r.asset⟩]

theorem Opened.concat {log : List LogEntry} (h : Opened log id r) (entry : LogEntry) :
    Opened (log ++ [entry]) id r := by
  obtain ⟨address, opening, hmem, hopening⟩ := h
  exact ⟨address, opening, List.mem_append_left _ hmem, hopening⟩

theorem RedeemStep.opened {log : List LogEntry} (h : RedeemStep R s entry s')
    (hs : ∀ id r, s.redeem.redeemRequests id = some r → Opened log id r) {id' : H256}
    {r' : RedeemRequest} (hr' : s'.redeem.redeemRequests id' = some r') :
    Opened (log ++ [entry]) id' r' := by
  cases h with
  | keeps hreq hops =>
    rw [hreq] at hr'
    exact (hs id' r' hr').concat entry
  | @opens b n address id r hrecord hpending hredeemer hasset htotal hops hreq =>
    rcases update_eq_some.mp (hreq ▸ hr') with ⟨rfl, rfl⟩ | ⟨-, hr'⟩
    · refine ⟨address, entry, by simp, ?_, ?_⟩
      · rw [hrecord, hredeemer, htotal]
      · rw [hops, hredeemer, htotal]
    · exact (hs id' r' hr').concat entry
  | @settles id r _ hr _ _ _ hreq | @mints id r hr _ _ hreq =>
    rcases update_eq_some.mp (hreq ▸ hr') with ⟨rfl, rfl⟩ | ⟨-, hr'⟩
    · exact (hs id' r hr).concat entry
    · exact (hs id' r' hr').concat entry

/-- A pending request stays as it is, or leaves the state `pending` with its own operations. -/
theorem RedeemStep.exits (h : RedeemStep R s entry s')
    (hfresh : ∀ id, entry.1.drawn = some id → ¬ Used s id)
    (hr : s.redeem.redeemRequests id = some r) (hpending : r.status = .pending) :
    s'.redeem.redeemRequests id = some r ∨ ∃ status, status ≠ .pending ∧
      s'.redeem.redeemRequests id = some { r with status := status } ∧
      entry.2 = exitOps R r status := by
  cases h with
  | keeps hreq hops => exact .inl (hreq ▸ hr)
  | @opens b n address id' r' hrecord _ _ _ _ _ hreq =>
    have hne : id ≠ id' := by
      rintro rfl
      exact hfresh id (by rw [hrecord]) (.inr (.inl (by simp [hr])))
    exact .inl (by rw [hreq, update_of_ne hne, hr])
  | @settles id' r' status hr' _ hstatus hops hreq =>
    by_cases hid : id = id'
    · subst hid
      obtain rfl := Option.mem_unique hr hr'
      exact .inr ⟨status, hstatus, by rw [hreq, update_self], hops⟩
    · exact .inl (by rw [hreq, update_of_ne hid, hr])
  | @mints id' r' hr' hstatus' _ hreq =>
    have hne : id ≠ id' := by
      rintro rfl
      obtain rfl := Option.mem_unique hr hr'
      rw [hpending] at hstatus'
      cases hstatus'
    exact .inl (by rw [hreq, update_of_ne hne, hr])

end

/-- In every run whose request identifiers differ: what the redeem pallet has reserved on an account,
less what it has unreserved or burned, is the total of the account's pending requests; the total of
a request is the amount that `request_redeem` was called with and locked; and a request that leaves
the state `pending` does so with one of the operations of `exitOps`. -/
theorem escrow_exact (R : Runtime B) (hR : R.tokens.Lawful) (W : Set CurrencyId) (s₀ s : Chain B)
    (log : List LogEntry) (hgenesis : IsGenesis s₀) (hnodup : (loggedIds log).Nodup)
    (hrun : Run (LoggedStep (redeemInstrument R) W) s₀ log s) :
    (∀ a w, reservedBy (opsOf log) a w = escrow s a w) ∧
    (∀ id r, s.redeem.redeemRequests id = some r → Opened log id r) ∧
    ∀ entry s', LoggedStep (redeemInstrument R) W s entry s' →
      (loggedIds (log ++ [entry])).Nodup → ∀ id r, s.redeem.redeemRequests id = some r →
      r.status = .pending → s'.redeem.redeemRequests id = some r ∨
        ∃ status, status ≠ .pending ∧
          s'.redeem.redeemRequests id = some { r with status := status } ∧
          entry.2 = exitOps R r status := by
  have hinv := logged_invariant (P := fun s log =>
    (∀ a w, reservedBy (opsOf log) a w = escrow s a w) ∧
      ∀ id r, s.redeem.redeemRequests id = some r → Opened log id r) hR hgenesis ?_ ?_ hrun hnodup
  · obtain ⟨hidentified, hexact, hopened⟩ := hinv
    refine ⟨hexact, hopened, ?_⟩
    intro entry s' hstep hnodup' id r hr hpending
    exact (step_redeemStep hR hidentified.sound hstep).exits
      (fun id hid => (hidentified.drawn_fresh hnodup' hid).2) hr hpending
  · constructor
    · intro a w
      simp [opsOf, reservedBy, escrow, hgenesis.redeems, escrowed]
    · intro id r hr
      simp [hgenesis.redeems] at hr
  · rintro s log entry s' hs ⟨hexact, hopened⟩ hstep hfresh
    have hredeem := step_redeemStep hR hs hstep
    constructor
    · intro a w
      rw [opsOf_concat, reservedBy_append, hexact, hredeem.escrow_eq hfresh]
    · intro id r hr
      exact hredeem.opened hopened hr

/-- Account 4 redeems 400000 tokens: they are locked. -/
theorem escrow_exact_redeeming :
    ∃ s log r, Run (LoggedStep (redeemInstrument sampleRuntime) ∅) sampleGenesis log s ∧
      log.map Prod.fst = redeeming ∧ s.redeem.redeemRequests 2 = some r ∧ r.redeemer = ⟨4⟩ ∧
      redeemTotal r = 400000 ∧ r.status = .pending ∧ Opened log 2 r := by
  obtain ⟨s, hrun, r, hr, hredeemer, htotal, hpending⟩ : ∃ s,
      Run (Step sampleRuntime ∅) sampleGenesis redeeming s ∧ ∃ r, s.redeem.redeemRequests 2 = some r ∧
        r.redeemer = ⟨4⟩ ∧ redeemTotal r = 400000 ∧ r.status = .pending :=
    run_of_replay environmentStep_sampleDelay (by decide +kernel)
  obtain ⟨log, hlog, hrun⟩ := (run_logged (redeemInstrument sampleRuntime)).mp hrun
  have hnodup : (loggedIds log).Nodup := by
    rw [loggedIds, hlog]
    decide
  refine ⟨s, log, r, hrun, hlog, hr, hredeemer, htotal, hpending, ?_⟩
  exact (escrow_exact sampleRuntime sampleRuntime_lawful ∅ sampleGenesis s log
    sampleGenesis_isGenesis hnodup hrun).2.1 2 r hr

end Spacewalk.Ledger
