import Mathlib.Algebra.Order.BigOperators.Group.List
import Spacewalk.Clients.Operations

/-!
# How payments are counted

The parachain decides with `get_amount_from_transaction_envelope` whether a transaction pays for a
request, and the clients decide with `get_payment_amount_for_asset_to` whether to submit it.  Both
run over the operations of the transaction and add up what goes to the recipient, in stroops and
saturated.

`payments_counted_identically` says that they always give the same number.  If nothing negative is
counted and nothing saturates, it is the sum of the payments, and the order of the operations does
not matter.
-/

namespace Spacewalk.Clients

open Stellar Currency

variable {recipient : PublicKey} {asset : StellarAsset} {currency : CurrencyId}
  {envelope : TransactionEnvelope}

/-- What the operations of a transaction pay to the recipient, one number for each payment. -/
def matchingStroops (recipient : PublicKey) (asset : StellarAsset) (operations : List OperationBody) :
    List Int :=
  operations.filterMap (transferredStroops recipient asset)

theorem foldl_addPayment (operations : List OperationBody) (acc : Int) :
    operations.foldl (addPayment recipient asset) acc =
      (matchingStroops recipient asset operations).foldl saturatingAddStroops acc := by
  induction operations generalizing acc with
  | nil => rfl
  | cons body operations ih =>
    rw [List.foldl_cons, addPayment_eq, ih, matchingStroops, matchingStroops]
    cases htransferred : transferredStroops recipient asset body with
    | none => rw [List.filterMap_cons_none htransferred]
    | some amount => rw [List.filterMap_cons_some htransferred, List.foldl_cons]

/-- As long as the sum fits, saturated addition of amounts that are not negative is addition. -/
theorem foldl_saturatingAddStroops (amounts : List Int) (hnonneg : ∀ x ∈ amounts, 0 ≤ x) (acc : Int)
    (hacc : 0 ≤ acc) (hfits : acc + amounts.sum < 2 ^ 63) :
    amounts.foldl saturatingAddStroops acc = acc + amounts.sum := by
  induction amounts generalizing acc with
  | nil => simp
  | cons x amounts ih =>
    have hx : 0 ≤ x := hnonneg x List.mem_cons_self
    have hrest : 0 ≤ amounts.sum :=
      List.sum_nonneg fun y hy => hnonneg y (List.mem_cons_of_mem _ hy)
    rw [List.sum_cons] at hfits
    have hadd : saturatingAddStroops acc x = acc + x := by
      rw [saturatingAddStroops, min_eq_right (by omega), max_eq_right (by omega)]
    rw [List.foldl_cons, hadd, List.sum_cons, ih (fun y hy => hnonneg y (List.mem_cons_of_mem _ hy))
      (acc + x) (by omega) (by omega)]
    ring

/-- Both sides count the saturated sum of the payments. -/
theorem getPaymentAmountForAssetTo_eq (envelope : TransactionEnvelope) (recipient : PublicKey)
    (asset : StellarAsset) :
    getPaymentAmountForAssetTo envelope recipient asset = balanceConversionUnlookup
      ((matchingStroops recipient asset (txOperations envelope)).foldl saturatingAddStroops 0) := by
  rw [← foldl_addPayment, getPaymentAmountForAssetTo]
  split
  · next hempty =>
    rw [List.isEmpty_iff.mp hempty]
    rfl
  · rfl

theorem getAmountFromTransactionEnvelope_eq_client
    (hasset : assetConversionLookup currency = some asset) :
    getAmountFromTransactionEnvelope envelope ⟨recipient⟩ currency =
      .ok ⟨getPaymentAmountForAssetTo envelope recipient asset, currency⟩ := by
  rw [getPaymentAmountForAssetTo_eq, ← foldl_addPayment, getAmountFromTransactionEnvelope, hasset]
  refine congrArg (fun n => Except.ok (Amount.mk (balanceConversionUnlookup n) currency))
    (List.foldl_ext _ _ _ fun sum operation _ => ?_)
  refine Eq.trans ?_ (addPayment_eq recipient asset sum operation).symm
  cases transferredStroops recipient asset operation <;> rfl

/-- Stroops of an `i64` become a balance without saturation. -/
theorem balanceConversionUnlookup_of_fits {stroops : Int} (hfits : stroops < 2 ^ 63) :
    balanceConversionUnlookup stroops = stroops.toNat * decimalsConversionRate := by
  unfold balanceConversionUnlookup
  refine min_eq_left ?_
  simp only [decimalsConversionRate, balanceBound]
  omega

/-- The parachain and the clients count the same amount in every transaction.  If no payment is
negative and their sum fits into an `i64`, this is the sum of the payments, in whatever order they
stand. -/
theorem payments_counted_identically (envelope : TransactionEnvelope) (recipient : PublicKey)
    (currency : CurrencyId) (asset : StellarAsset)
    (hasset : assetConversionLookup currency = some asset) :
    getAmountFromTransactionEnvelope envelope ⟨recipient⟩ currency =
        .ok ⟨getPaymentAmountForAssetTo envelope recipient asset, currency⟩ ∧
      ((∀ x ∈ matchingStroops recipient asset (txOperations envelope), 0 ≤ x) →
        (matchingStroops recipient asset (txOperations envelope)).sum < 2 ^ 63 →
        getPaymentAmountForAssetTo envelope recipient asset =
            (matchingStroops recipient asset (txOperations envelope)).sum.toNat * 10 ^ 5 ∧
          ∀ reordered, (txOperations reordered).Perm (txOperations envelope) →
            getPaymentAmountForAssetTo reordered recipient asset =
              getPaymentAmountForAssetTo envelope recipient asset) := by
  have hcounted (envelope : TransactionEnvelope)
      (hnonneg : ∀ x ∈ matchingStroops recipient asset (txOperations envelope), 0 ≤ x)
      (hfits : (matchingStroops recipient asset (txOperations envelope)).sum < 2 ^ 63) :
      getPaymentAmountForAssetTo envelope recipient asset =
        (matchingStroops recipient asset (txOperations envelope)).sum.toNat * 10 ^ 5 := by
    rw [getPaymentAmountForAssetTo_eq, foldl_saturatingAddStroops _ hnonneg 0 le_rfl (by omega),
      zero_add, balanceConversionUnlookup_of_fits hfits]
    rfl
  refine ⟨getAmountFromTransactionEnvelope_eq_client hasset, fun hnonneg hfits => ?_⟩
  refine ⟨hcounted envelope hnonneg hfits, fun reordered hperm => ?_⟩
  have hpaid := hperm.filterMap (transferredStroops recipient asset)
  have hsum : (matchingStroops recipient asset (txOperations reordered)).sum =
      (matchingStroops recipient asset (txOperations envelope)).sum := hpaid.sum_eq
  rw [hcounted envelope hnonneg hfits, hcounted reordered, hsum]
  · exact fun x hx => hnonneg x (hpaid.mem_iff.mp hx)
  · rwa [hsum]

/-- A transaction with two payments and a claimable balance with a condition, which does not count. -/
def twoPayments : TransactionEnvelope :=
  .envelopeTypeTx ⟨.memoNone, [.payment (.keyTypeEd25519 7) .assetTypeNative 30,
    .createClaimableBalance .assetTypeNative 50 [⟨7, .conditional []⟩],
    .createClaimableBalance .assetTypeNative 12 [⟨7, .claimPredicateUnconditional⟩]], []⟩ []

theorem payments_counted_identically_two :
    getAmountFromTransactionEnvelope twoPayments ⟨7⟩ (.stellar .stellarNative) =
      .ok ⟨4200000, .stellar .stellarNative⟩ := by
  obtain ⟨hsame, hsum⟩ := payments_counted_identically twoPayments 7 (.stellar .stellarNative)
    .assetTypeNative rfl
  rw [hsame, (hsum (by decide) (by decide)).1]
  rfl

end Spacewalk.Clients
