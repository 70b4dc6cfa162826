import Spacewalk.Ledger.IssueCalls
import Spacewalk.Runtime.Call

/-!
# Frames of the calls

The calls of the issue, the redeem and the replace pallet are made of the same parts: operations on
tokens, functions of the vault registry, rate limits, and writes to the pallet's own storage.  A
relation between states that every part respects is respected by the calls.

`Steady` collects the parts that the pallets share.  Some relations are only respected by some of
them: `Calm` leaves out what changes the tokens to be replaced and what settles tokens to be redeemed,
`Replacing` and `Settling` add one of the two.  A theorem about a call takes the weakest of these that
it needs, the identifiers that it draws with the limits that it counts (`Drawing`), and the writes that
the call makes to its own storage.
-/

namespace Spacewalk.Ledger

open Foundation VaultRegistry Issue Redeem Replace
open Stellar (Bytes)

variable {B : Type}

/-- The parts that leave the promises of vaults to redeem and to be replaced respect a relation. -/
structure Calm (R : Runtime B) (T : Chain B → Chain B → Prop) : Prop where
  tokens {α : Type} (m : Dispatch DispatchError B α) : Respects T (zoom Chain.tokensL m)
  unlockOn (amount : Amount) (a : AccountId) : Respects T (amount.unlockOn R a)
  burnFrom (amount : Amount) (a : AccountId) : Respects T (amount.burnFrom R a)
  distributeRewards (amount : Amount) : Respects T (Fee.distributeRewards R amount)
  tryIncreaseToBeIssuedTokens (v : VaultId) (amount : Amount) :
    Respects T (tryIncreaseToBeIssuedTokens R v amount)
  decreaseToBeIssuedTokens (v : VaultId) (amount : Amount) :
    Respects T (decreaseToBeIssuedTokens v amount)
  issueTokens (v : VaultId) (amount : Amount) : Respects T (issueTokens v amount)
  tryIncreaseToBeRedeemedTokens (v : VaultId) (amount : Amount) :
    Respects T (tryIncreaseToBeRedeemedTokens v amount)
  redeemTokensLiquidation (c : CurrencyId) (a : AccountId) (amount : Amount) :
    Respects T (redeemTokensLiquidation R c a amount)
  banVault (v : VaultId) : Respects T (banVault v)
  tryDepositCollateral (v : VaultId) (amount : Amount) : Respects T (tryDepositCollateral R v amount)
  forceWithdrawCollateral (v : VaultId) (amount : Amount) :
    Respects T (forceWithdrawCollateral R v amount)
  transferUntouched (source destination : CurrencySource) (amount : Amount) :
    touched source = ∅ → touched destination = ∅ →
    Respects T (transferFunds R source destination amount)

/-- So do the parts that change the tokens to be replaced and their collateral. -/
structure Replacing (R : Runtime B) (T : Chain B → Chain B → Prop) : Prop extends Calm R T where
  tryIncreaseToBeReplacedTokens (v : VaultId) (amount : Amount) :
    Respects T (tryIncreaseToBeReplacedTokens v amount)
  decreaseToBeReplacedTokens (v : VaultId) (amount : Amount) :
    Respects T (decreaseToBeReplacedTokens R v amount)
  transferFunds (source destination : CurrencySource) (amount : Amount) :
    Respects T (transferFunds R source destination amount)

/-- So do the parts that settle tokens to be redeemed. -/
structure Settling (R : Runtime B) (T : Chain B → Chain B → Prop) : Prop extends Calm R T where
  decreaseToBeRedeemedTokens (v : VaultId) (amount : Amount) :
    Respects T (decreaseToBeRedeemedTokens v amount)
  decreaseTokens (v : VaultId) (amount : Amount) : Respects T (decreaseTokens v amount)
  redeemTokens (v : VaultId) (amount premium : Amount) (a : AccountId) :
    Respects T (redeemTokens R v amount premium a)
  decreaseLiquidatedCollateral (v : VaultId) (amount : Amount) :
    Respects T (decreaseLiquidatedCollateral v amount)
  replaceTokens (v w : VaultId) (amount : Amount) : Respects T (replaceTokens R v w amount)
  cancelReplaceTokens (v w : VaultId) (amount : Amount) :
    Respects T (cancelReplaceTokens R v w amount)

/-- So does what draws an identifier and what counts the volume of requests. -/
structure Drawing (R : Runtime B) (T : Chain B → Chain B → Prop) : Prop where
  getSecureId : Respects T (Security.getSecureId R)
  issueLimit (s : Chain B) (l : RateLimit) : T s (Issue.rateLimitL.put s l)
  redeemLimit (s : Chain B) (l : RateLimit) : T s (Redeem.rateLimitL.put s l)

/-- All parts that the calls of the three pallets share respect a relation. -/
structure Steady (R : Runtime B) (T : Chain B → Chain B → Prop) : Prop
    extends Replacing R T, Settling R T

variable {R : Runtime B} {T : Chain B → Chain B → Prop} {o : Origin}

/-- A relation that follows from others is respected by what respects those. -/
theorem Steady.map {ι : Type*} {U : ι → Chain B → Chain B → Prop} (h : ∀ i, Steady R (U i))
    (hmap : ∀ {α : Type} {m : ChainM B α}, (∀ i, Respects (U i) m) → Respects T m) : Steady R T where
  tokens m := hmap fun i => (h i).tokens m
  unlockOn amount a := hmap fun i => (h i).unlockOn amount a
  burnFrom amount a := hmap fun i => (h i).burnFrom amount a
  distributeRewards amount := hmap fun i => (h i).distributeRewards amount
  tryIncreaseToBeIssuedTokens v amount := hmap fun i => (h i).tryIncreaseToBeIssuedTokens v amount
  decreaseToBeIssuedTokens v amount := hmap fun i => (h i).decreaseToBeIssuedTokens v amount
  issueTokens v amount := hmap fun i => (h i).issueTokens v amount
  tryIncreaseToBeRedeemedTokens v amount :=
    hmap fun i => (h i).tryIncreaseToBeRedeemedTokens v amount
  decreaseToBeRedeemedTokens v amount := hmap fun i => (h i).decreaseToBeRedeemedTokens v amount
  decreaseTokens v amount := hmap fun i => (h i).decreaseTokens v amount
  redeemTokens v amount premium a := hmap fun i => (h i).redeemTokens v amount premium a
  redeemTokensLiquidation c a amount := hmap fun i => (h i).redeemTokensLiquidation c a amount
  decreaseLiquidatedCollateral v amount := hmap fun i => (h i).decreaseLiquidatedCollateral v amount
  banVault v := hmap fun i => (h i).banVault v
  tryIncreaseToBeReplacedTokens v amount :=
    hmap fun i => (h i).tryIncreaseToBeReplacedTokens v amount
  decreaseToBeReplacedTokens v amount := hmap fun i => (h i).decreaseToBeReplacedTokens v amount
  replaceTokens v w amount := hmap fun i => (h i).replaceTokens v w amount
  cancelReplaceTokens v w amount := hmap fun i => (h i).cancelReplaceTokens v w amount
  tryDepositCollateral v amount := hmap fun i => (h i).tryDepositCollateral v amount
  forceWithdrawCollateral v amount := hmap fun i => (h i).forceWithdrawCollateral v amount
  transferUntouched _ _ amount _ _ := hmap fun i => (h i).transferFunds _ _ amount
  transferFunds _ _ amount := hmap fun i => (h i).transferFunds _ _ amount

variable [Std.Refl T] [IsTrans (Chain B) T]

theorem drawing_of (hdraw : ∀ s, T s (drawn s)) (hissue : ∀ s l, T s (Issue.rateLimitL.put s l))
    (hredeem : ∀ s l, T s (Redeem.rateLimitL.put s l)) : Drawing R T where
  getSecureId := .bind (.modify hdraw) fun _ => .gets fun _ => .pure _
  issueLimit := hissue
  redeemLimit := hredeem

namespace Calm

variable (hT : Calm R T)

include hT

theorem transferSaturated (source destination : CurrencySource) (amount : Amount)
    (hsource : touched source = ∅) (hdestination : touched destination = ∅) :
    Respects T (transferFundsSaturated R source destination amount) := by
  refine .reads fun available => .lift fun b => ?_
  exact .bind (hT.transferUntouched _ _ _ hsource hdestination) fun _ => .pure _

/-! ## Issue requests -/

theorem requestIssue (hdraw : Drawing R T)
    (hinsert : ∀ id r, Respects T (insertIssueRequest id r)) (amount : ℕ) (v : VaultId) :
    Respects T (requestIssue R o amount v) := by
  refine .lift fun a => .lift fun _ => ?_
  refine .bind (checkVolume_respects hdraw.issueLimit _ _) fun _ => ?_
  refine .reads fun d => .lift fun _ => .reads fun _ => ?_
  refine .reads fun n => .reads fun g => ?_
  refine .bind (hT.tokens _) fun _ => .gets fun s => ?_
  refine .lift fun _ => .lift fun _ => ?_
  refine .bind (hT.tryIncreaseToBeIssuedTokens _ _) fun _ => ?_
  refine .reads fun fee => .lift fun fee => .lift fun user => ?_
  refine .bind hdraw.getSecureId fun id => .reads fun key => .gets fun s => ?_
  exact hinsert _ _

section

variable (hset : ∀ id r amount, Respects T (setIssueAmount id r amount))

include hset

theorem decreaseIssueAmount (id : H256) (r : IssueRequest) (paid expected : Amount) :
    Respects T (decreaseIssueAmount R id r paid expected) := by
  refine .lift fun deficit => .bind (hT.decreaseToBeIssuedTokens _ _) fun _ => ?_
  refine .lift fun release => .lift fun slashed => ?_
  refine .bind (hT.transferUntouched _ _ _ rfl rfl) fun _ => ?_
  exact .bind (hset id r paid) fun r' => .pure _

theorem tryIncreaseIssueAmount (id : H256) (r : IssueRequest) (paid expected : Amount) :
    Respects T (tryIncreaseIssueAmount R id r paid expected) := by
  refine .lift fun surplus => .reads fun most => .lift fun more => ?_
  refine .bind (.attempt (hT.tryIncreaseToBeIssuedTokens _ _)) fun done => ?_
  cases done with
  | none => exact .pure _
  | some _ => exact .lift fun total => hset id r total

theorem handleIssueRequests (a : AccountId) (id : H256) (r : IssueRequest) (paid : Amount) :
    Respects T (handleIssueRequests R a id r paid) := by
  intro s r' s' h
  obtain ⟨expected, -, h | h | h⟩ := handleIssueRequests_cases h
  · obtain ⟨-, s₁, hincrease, h⟩ := h
    have hfirst := hT.tryIncreaseToBeIssuedTokens _ _ _ _ _ hincrease
    rcases h with ⟨-, hpaid⟩ | ⟨-, rfl, rfl⟩
    · exact trans_of T hfirst (hset id r paid _ _ _ hpaid)
    · exact hfirst
  · obtain ⟨-, -, -, p, s₁, hdecrease, -, hunlock⟩ := h
    exact trans_of T (hT.decreaseIssueAmount hset id r paid expected _ _ _ hdecrease)
      (hT.unlockOn _ _ _ _ _ hunlock)
  · obtain ⟨-, -, s₁, hunlock, h⟩ := h
    have hlast := hT.unlockOn _ _ _ _ _ hunlock
    rcases h with ⟨-, rfl, rfl⟩ | ⟨-, -, hincrease⟩
    · exact hlast
    · exact trans_of T (hT.tryIncreaseIssueAmount hset id r paid expected _ _ _ hincrease) hlast

theorem executeIssue (hdraw : Drawing R T)
    (hstatus : ∀ id status, Respects T (setIssueStatus id status)) (id : H256) (e x t : Bytes) :
    Respects T (executeIssue R o id e x t) := by
  refine .lift fun a => .reads fun r => .reads fun tx => ?_
  refine .lift fun paid => ?_
  refine .bind (hT.handleIssueRequests hset a id r paid) fun r' => .lift fun total => ?_
  refine .bind (hT.issueTokens _ _) fun _ => .bind (hT.tokens _) fun _ => ?_
  refine .bind (increaseIntervalVolume_respects hdraw.issueLimit _) fun _ => ?_
  refine .bind (hT.tokens _) fun _ => .bind (hT.distributeRewards _) fun _ => ?_
  exact hstatus id _

end

theorem griefingToSlash (a : AccountId) (r : IssueRequest) :
    Respects T (griefingToSlash R a r) := by
  refine .gets fun s => .reads fun expired => .ite (.pure _) (.ite ?_ ?_)
  · refine .gets fun s => .lift fun part => .lift fun slashed => ?_
    exact .lift fun release => .bind (hT.unlockOn _ _) fun _ => .pure _
  · intro s x s' h
    exact absurd h (by simp)

theorem cancelIssue (hstatus : ∀ id status, Respects T (setIssueStatus id status)) (id : H256) :
    Respects T (cancelIssue R o id) := by
  refine .lift fun a => .reads fun r => ?_
  refine .bind (hT.griefingToSlash a r) fun slashed => .reads fun liquidated => ?_
  -- freed or slashed, the cancellation goes on in the same way
  have hrest : Respects T (do
      let fullAmount ← r.userAmount.checkedAdd r.feeAmount
      VaultRegistry.decreaseToBeIssuedTokens r.vault fullAmount
      setIssueStatus id .cancelled : ChainM B Unit) :=
    .lift fun total => .bind (hT.decreaseToBeIssuedTokens _ _) fun _ => hstatus id _
  exact .ite (.bind (hT.unlockOn _ _) fun _ => hrest)
    (.bind (hT.transferUntouched _ _ _ rfl rfl) fun _ => hrest)

theorem issueCall (hdraw : Drawing R T)
    (hwrite : ∀ f, Respects T (modify (Chain.mapIssue f) : ChainM B Unit)) (call : Issue.Call) :
    Respects T (call.dispatch R o) := by
  cases call with
  | requestIssue n v => exact hT.requestIssue hdraw (fun _ _ => hwrite _) n v
  | executeIssue id e x t =>
    refine hT.executeIssue (fun _ _ _ => ?_) hdraw (fun _ _ => hwrite _) id e x t
    refine .reads fun fee => .lift fun amount => ?_
    exact .bind (hwrite _) fun _ => .pure _
  | cancelIssue id => exact hT.cancelIssue (fun _ _ => hwrite _) id
  | _ => exact .lift fun _ => hwrite _

/-! ## Redeem requests -/

theorem liquidationRedeem (p : VaultCurrencyPair) (amount : ℕ) :
    Respects T (liquidationRedeem R o p amount) := by
  refine .lift fun a => .gets fun s => .lift fun _ => ?_
  refine .lift fun _ => .bind (hT.tokens _) fun _ => ?_
  exact .bind (hT.burnFrom _ _) fun _ => hT.redeemTokensLiquidation _ _ _

theorem collectFee (r : RedeemRequest) : Respects T (collectFee R r) :=
  .bind (hT.unlockOn _ _) fun _ => .bind (hT.tokens _) fun _ => hT.distributeRewards _

section

variable {id : H256} (hamount : ∀ value, Respects T (setCancelledRedeemAmount id value))

include hamount

theorem slashActive (a : AccountId) (reimburse : Bool) (v : VaultId) (amount : Amount) :
    Respects T (slashActive R a id reimburse v amount) := by
  unfold Redeem.slashActive
  -- whatever the amount, it is slashed in the same way
  have hrest (fee slashed : Amount) : Respects T (do
      let transferredAmount ←
        VaultRegistry.transferFundsSaturated R (.collateral v) (.freeBalance a) slashed
      let retrievableAmountInCollateral ← transferredAmount.saturatingSub fee
      let retrievableAmountInWrapped ←
        read (retrievableAmountInCollateral.convertTo R v.wrappedCurrency)
      setCancelledRedeemAmount id
        (some (retrievableAmountInWrapped.amount, retrievableAmountInWrapped.currencyId))
      let _ ← attempt (VaultRegistry.banVault v)) := by
    refine .bind (hT.transferSaturated _ _ _ rfl rfl) fun taken => .lift fun rest => ?_
    refine .reads fun wrapped => .bind (hamount _) fun _ => ?_
    exact .bind (.attempt (hT.banVault v)) fun _ => .pure _
  refine .reads fun fee => .ite ?_ ?_
  · exact .lift fun total => hrest fee total
  · exact .bind (.pure _) fun total => hrest fee total

theorem mintTokensForReimbursedRedeem
    (hstatus : ∀ id status, Respects T (setRedeemStatus id status)) (p : VaultCurrencyPair) :
    Respects T (mintTokensForReimbursedRedeem R o p id) := by
  refine .lift fun a => .reads fun _ => .gets fun s => ?_
  refine .lift fun r => .lift fun _ => .lift fun _ => ?_
  refine .gets fun s => .bind (hamount _) fun _ => ?_
  refine .lift fun n => .bind (hT.tryIncreaseToBeIssuedTokens _ _) fun _ => ?_
  refine .bind (hT.issueTokens _ _) fun _ => .bind (hT.tokens _) fun _ => ?_
  exact hstatus id _

end

theorem acceptReplaceTokens (v w : VaultId) (amount : Amount) :
    Respects T (acceptReplaceTokens R v w amount) :=
  .bind (hT.tryIncreaseToBeRedeemedTokens _ _) fun _ => hT.tryIncreaseToBeIssuedTokens _ _

end Calm

/-! ## Tokens to be replaced -/

namespace Replacing

variable (hT : Replacing R T)

include hT

theorem withdrawReplaceRequest (v : VaultId) (amount : Amount) :
    Respects T (withdrawReplaceRequest R v amount) :=
  .bind (hT.decreaseToBeReplacedTokens _ _) fun _ => .bind (hT.transferFunds _ _ _) fun _ => .pure _

theorem releaseReplaceCollateral (v : VaultId) (amount : Amount) :
    Respects T (releaseReplaceCollateral R v amount) := by
  unfold Redeem.releaseReplaceCollateral
  refine .bind (hT.decreaseToBeReplacedTokens _ _) fun used => ?_
  exact .ite (.pure _) (hT.transferFunds _ _ _)

theorem requestRedeem (hdraw : Drawing R T)
    (hinsert : ∀ id r, Respects T (insertRedeemRequest id r)) (amount : ℕ)
    (address : StellarPublicKeyRaw) (v : VaultId) : Respects T (requestRedeem R o amount address v) := by
  refine .lift fun a => .lift fun _ => ?_
  refine .bind (checkVolume_respects hdraw.redeemLimit _ _) fun _ => ?_
  refine .reads fun _ => .gets fun s => .lift fun _ => ?_
  refine .lift fun _ => .reads fun fee => .lift fun fee => ?_
  refine .lift fun burned => .bind (.withError _ (.liftM _)) fun received => ?_
  refine .reads fun _ => .gets fun s => .lift fun _ => ?_
  refine .lift fun _ => .bind (hT.tryIncreaseToBeRedeemedTokens _ _) fun _ => ?_
  refine .bind (hT.tokens _) fun _ => .bind hdraw.getSecureId fun id => .reads fun premium => ?_
  refine .bind (hT.releaseReplaceCollateral _ _) fun _ => .gets fun s => ?_
  exact hinsert _ _

theorem requestReplace (p : VaultCurrencyPair) (amount : ℕ) :
    Respects T (requestReplace R o p amount) := by
  refine .lift fun a => .reads fun _ => .lift fun _ => ?_
  refine .gets fun s => .lift fun _ => .reads fun n => ?_
  refine .lift fun n => .lift fun _ => ?_
  refine .bind (hT.tryIncreaseToBeReplacedTokens _ _) fun total => ?_
  refine .gets fun s => .lift fun _ => .lift fun _ => ?_
  exact .reads fun n => .reads fun g => hT.transferFunds _ _ _

theorem withdrawReplace (p : VaultCurrencyPair) (amount : ℕ) :
    Respects T (withdrawReplace R o p amount) :=
  .lift fun _ => .bind (hT.withdrawReplaceRequest _ _) fun _ => .liftM _

theorem acceptReplace (hdraw : Drawing R T)
    (hinsert : ∀ id r, Respects T (insertReplaceRequest id r))
    (p : VaultCurrencyPair) (old : VaultId) (amount collateral : ℕ)
    (address : StellarPublicKeyRaw) :
    Respects T (acceptReplace R o p old amount collateral address) := by
  refine .lift fun a => .lift fun _ => .lift fun _ => ?_
  refine .reads fun _ => .bind (hT.decreaseToBeReplacedTokens _ _) fun used => ?_
  refine .gets fun s => .lift fun _ => .lift fun _ => ?_
  refine .lift fun n => .bind (hT.tryDepositCollateral _ _) fun _ => ?_
  refine .bind (hT.acceptReplaceTokens _ _ _) fun _ => .bind (hT.transferFunds _ _ _) fun _ => ?_
  exact .bind hdraw.getSecureId fun id => .gets fun s => hinsert _ _

end Replacing

/-! ## Settlement of tokens to be redeemed -/

namespace Settling

variable (hT : Settling R T)

include hT

theorem confiscateLiquidated (a : AccountId) (reimburse : Bool) (v : VaultId)
    (burned redeemed : Amount) :
    Respects T (confiscateLiquidated R a reimburse v burned redeemed) := by
  refine .reads fun liquidated => .lift fun part => ?_
  refine .bind (hT.decreaseLiquidatedCollateral _ _) fun _ => hT.transferUntouched _ _ _ rfl ?_
  cases reimburse <;> rfl

variable (hstatus : ∀ id status, Respects T (setRedeemStatus id status))

include hstatus

theorem executeRedeem (hdraw : Drawing R T) (id : H256) (e x t : Bytes) :
    Respects T (executeRedeem R o id e x t) := by
  refine .lift fun a => .reads fun r => .reads fun tx => ?_
  refine .lift fun paid => .lift fun _ => .lift fun _ => ?_
  refine .lift fun burned => .bind (hT.burnFrom _ _) fun _ => ?_
  refine .bind (increaseIntervalVolume_respects hdraw.redeemLimit _) fun _ => ?_
  refine .bind (hT.collectFee _) fun _ => .bind (hT.redeemTokens _ _ _ _) fun _ => ?_
  exact hstatus id _

theorem settleTokens (id : H256) (reimburse : Bool) (r : RedeemRequest) (burned : Amount) :
    Respects T (settleTokens R id reimburse r burned) := by
  refine .ite ?_ ?_
  · refine .bind (hT.collectFee r) fun _ => .reads fun below => .ite ?_ ?_
    · refine .bind (hT.burnFrom _ _) fun _ => .bind (hT.decreaseTokens _ _) fun _ => ?_
      exact hstatus id _
    · refine .bind (hT.unlockOn _ _) fun _ => .bind (hT.tokens _) fun _ => ?_
      exact .bind (hT.decreaseToBeRedeemedTokens _ _) fun _ => hstatus id _
  · refine .lift fun most => .lift fun total => ?_
    refine .bind (hT.unlockOn _ _) fun _ => ?_
    exact .bind (hT.decreaseToBeRedeemedTokens _ _) fun _ => hstatus id _

theorem cancelRedeem {id : H256}
    (hamount : ∀ value, Respects T (setCancelledRedeemAmount id value)) (reimburse : Bool) :
    Respects T (cancelRedeem R o id reimburse) := by
  refine .lift fun a => .reads fun _ => .reads fun r => ?_
  refine .lift fun _ => .gets fun s => .reads fun expired => ?_
  refine .lift fun _ => .reads fun d => .lift fun burned => ?_
  refine .reads fun n => .ite ?_ ?_
  · exact .bind (hT.confiscateLiquidated _ _ _ _ _) fun _ => hT.settleTokens hstatus _ _ _ _
  · exact .bind (hT.slashActive hamount _ _ _ _) fun _ => hT.settleTokens hstatus _ _ _ _

end Settling

namespace Steady

variable (hT : Steady R T)

include hT

theorem selfRedeem (p : VaultCurrencyPair) (amount : ℕ) : Respects T (selfRedeem R o p amount) := by
  refine .lift fun a => .reads fun _ => .lift fun _ => ?_
  refine .reads fun amounts => .bind (.withError _ (hT.tokens _)) fun _ => ?_
  refine .bind (hT.burnFrom _ _) fun _ => .bind (.withError _ (hT.tokens _)) fun _ => ?_
  refine .bind (hT.distributeRewards _) fun _ => ?_
  refine .bind (hT.tryIncreaseToBeRedeemedTokens _ _) fun _ => ?_
  exact .bind (hT.redeemTokens _ _ _ _) fun _ => hT.releaseReplaceCollateral _ _

theorem redeemCall (hdraw : Drawing R T)
    (hwrite : ∀ f, Respects T (modify (Chain.mapRedeem f) : ChainM B Unit)) (call : Redeem.Call) :
    Respects T (call.dispatch R o) := by
  cases call with
  | requestRedeem n a v => exact hT.requestRedeem hdraw (fun _ _ => hwrite _) n a v
  | liquidationRedeem p n => exact hT.liquidationRedeem p n
  | executeRedeem id e x t => exact hT.executeRedeem (fun _ _ => hwrite _) hdraw id e x t
  | cancelRedeem id b => exact hT.cancelRedeem (fun _ _ => hwrite _) (fun _ => hwrite _) b
  | mintTokensForReimbursedRedeem p id =>
    exact hT.mintTokensForReimbursedRedeem (fun _ => hwrite _) (fun _ _ => hwrite _) p
  | selfRedeem p n => exact hT.selfRedeem p n
  | _ => exact .lift fun _ => hwrite _

section

variable (hstatus : ∀ id status, Respects T (setReplaceStatus id status))

include hstatus

theorem executeReplace (id : H256) (e x t : Bytes) : Respects T (executeReplace R o id e x t) := by
  refine .lift fun a => .reads fun r => .reads fun tx => ?_
  refine .lift fun paid => .lift fun enough => .lift fun _ => ?_
  have hrest : Respects T (do
      VaultRegistry.replaceTokens R r.oldVault r.newVault r.replacedAmount
      setReplaceStatus id .completed) :=
    .bind (hT.replaceTokens _ _ _) fun _ => hstatus id _
  cases r.status with
  | pending => exact .bind (hT.transferFunds _ _ _) fun _ => hrest
  | cancelled => exact .bind (hT.acceptReplaceTokens _ _ _) fun _ => hrest
  | completed =>
    intro s u s' h
    exact absurd h (by simp)

theorem cancelReplace (id : H256) : Respects T (cancelReplace R o id) := by
  refine .lift fun a => .reads fun r => .gets fun s => ?_
  refine .reads fun expired => .lift fun _ => ?_
  refine .bind (hT.cancelReplaceTokens _ _ _) fun _ => ?_
  refine .bind (hT.transferFunds _ _ _) fun _ => .reads fun liquidated => ?_
  refine .ite (hstatus id _) (.reads fun allowed => .ite ?_ (hstatus id _))
  exact .bind (hT.forceWithdrawCollateral _ _) fun _ => hstatus id _

end

theorem replaceCall (hdraw : Drawing R T)
    (hwrite : ∀ f, Respects T (modify (Chain.mapReplace f) : ChainM B Unit)) (call : Replace.Call) :
    Respects T (call.dispatch R o) := by
  cases call with
  | requestReplace p n => exact hT.requestReplace p n
  | withdrawReplace p n => exact hT.withdrawReplace p n
  | acceptReplace p v n c a => exact hT.acceptReplace hdraw (fun _ _ => hwrite _) p v n c a
  | executeReplace id e x t => exact hT.executeReplace (fun _ _ => hwrite _) id e x t
  | cancelReplace id => exact hT.cancelReplace (fun _ _ => hwrite _) id
  | _ => exact .lift fun _ => hwrite _

end Steady

end Spacewalk.Ledger
