import Spacewalk.Clients.Horizon
import Spacewalk.Runtime.Services

/-!
# The payment for a redeem request

The vault client pays for a redeem request with one of three operations
(`clients/wallet/src/operations.rs`): a payment, a claimable balance, or, if the redeemer has no
account on the Stellar network yet, the creation of the account.  The parachain and the client look
for the payment in the operations of a transaction; neither of them counts the creation of an
account (`payment_recognised_iff`).

The Stellar library builds the operations.  What it builds is a parameter, `StellarSdk`.
-/

namespace Spacewalk.Clients

open Foundation Stellar Currency

/-! ## Operations -/

structure Operation where
  sourceAccount : Option PublicKey
  body : OperationBody
  deriving DecidableEq

/-- Why a wallet fails. -/
inductive WalletError where
  | horizonSubmissionError (status : Nat) (title reason : String)
  | buildTransactionError (text : String)
  | other (text : String)
  deriving DecidableEq

/-- What the wallet uses from the Stellar library to build operations.  An error is its text. -/
structure StellarSdk where
  newPayment : PublicKey → StellarAsset → Int64 → Except String Operation
  newCreateClaimableBalance : StellarAsset → Int64 → List Claimant → Except String Operation
  newCreateAccount : PublicKey → Int64 → Except String Operation
  /-- `Claimant::new`. -/
  newClaimant : PublicKey → ClaimPredicate → Except String Claimant
  setSourceAccount : Operation → PublicKey → Except String Operation

/-- The library builds the operations that it is asked for. -/
structure StellarSdk.Lawful (sdk : StellarSdk) : Prop where
  newPayment : ∀ {destination asset amount operation},
    sdk.newPayment destination asset amount = .ok operation →
      operation.body = .payment (.keyTypeEd25519 destination) asset amount
  newCreateClaimableBalance : ∀ {asset amount claimants operation},
    sdk.newCreateClaimableBalance asset amount claimants = .ok operation →
      operation.body = .createClaimableBalance asset amount claimants
  newCreateAccount : ∀ {destination amount operation},
    sdk.newCreateAccount destination amount = .ok operation →
      operation.body = .createAccount destination amount
  newClaimant : ∀ {destination predicate claimant},
    sdk.newClaimant destination predicate = .ok claimant → claimant = ⟨destination, predicate⟩
  setSourceAccount : ∀ {operation key operation'},
    sdk.setSourceAccount operation key = .ok operation' → operation'.body = operation.body

/-- An asset that an account holds, if it can be decoded. -/
structure HorizonBalance where
  getAsset : Option StellarAsset
  deriving DecidableEq

/-- The answer of Horizon about an account. -/
structure HorizonAccountResponse where
  balances : List HorizonBalance
  deriving DecidableEq

/-- Whether an account can hold an asset. -/
def HorizonAccountResponse.isTrustlineExist (account : HorizonAccountResponse)
    (asset : StellarAsset) : Bool :=
  account.balances.any fun balance => balance.getAsset = some asset

section

variable {α : Type}

def mapErrAsBuildTxErrorWithText (text : String) (result : Except String α) :
    Except WalletError α :=
  result.mapError fun e => .buildTransactionError (text ++ ": " ++ e)

def mapErrAsBuildTxError (result : Except String α) : Except WalletError α :=
  mapErrAsBuildTxErrorWithText "Failed to build transaction" result

theorem mapErr_eq_ok {text : String} {result : Except String α} {a : α} :
    mapErrAsBuildTxErrorWithText text result = .ok a ↔ result = .ok a := by
  cases result <;> simp [mapErrAsBuildTxErrorWithText, Except.mapError]

end

section

variable (sdk : StellarSdk)

def createClaimableBalanceOperation (asset : StellarAsset) (stroopAmount : Int64)
    (claimants : List Claimant) : Except WalletError Operation :=
  mapErrAsBuildTxError (sdk.newCreateClaimableBalance asset stroopAmount claimants)

variable (destinationAddress : PublicKey)

/-- Build a claimable balance for one account, without a condition. -/
def createUnconditionalClaimableBalanceOperation (toBeRedeemedAsset : StellarAsset)
    (toBeRedeemedAmount : Int64) : Except WalletError Operation := do
  let claimant ← mapErrAsBuildTxErrorWithText "failed to create claimant"
    (sdk.newClaimant destinationAddress .claimPredicateUnconditional)
  createClaimableBalanceOperation sdk toBeRedeemedAsset toBeRedeemedAmount [claimant]

/-- Build the creation of an account. -/
def createAccountOperation (startingStroopAmount : Int64) : Except WalletError Operation :=
  mapErrAsBuildTxError (sdk.newCreateAccount destinationAddress startingStroopAmount)

def createPaymentOperation (asset : StellarAsset) (stroopAmount : Int64) (sourceAddress : PublicKey) :
    Except WalletError Operation := do
  let operation ← mapErrAsBuildTxError (sdk.newPayment destinationAddress asset stroopAmount)
  mapErrAsBuildTxErrorWithText "failed to set source account"
    (sdk.setSourceAccount operation sourceAddress)

/-- One lumen, as a balance of the parachain. -/
def stellarNativeOne : Nat := 10 ^ 12

/-- Build the payment for a redeem request, depending on what Horizon answers about the account of
the redeemer. -/
def createPaymentOpForRedeemRequest (getAccount : Except WalletError HorizonAccountResponse)
    (sourceAddress destinationAddress : PublicKey) (toBeRedeemedAsset : StellarAsset)
    (toBeRedeemedAmount : Int64) : Except WalletError Operation :=
  let claimableBalanceOperation := createUnconditionalClaimableBalanceOperation sdk
    destinationAddress toBeRedeemedAsset toBeRedeemedAmount
  match getAccount with
  | .ok account =>
    if account.isTrustlineExist toBeRedeemedAsset then
      createPaymentOperation sdk destinationAddress toBeRedeemedAsset toBeRedeemedAmount sourceAddress
    else claimableBalanceOperation
  | .error (.horizonSubmissionError 404 _ _) =>
    if toBeRedeemedAsset = .assetTypeNative ∧
        balanceConversionUnlookup toBeRedeemedAmount.toInt ≥ stellarNativeOne then
      createAccountOperation sdk destinationAddress toBeRedeemedAmount
    else claimableBalanceOperation
  | .error e => .error e

end

/-- `BalanceConversion::lookup`: a balance in stroops, if they fit into an `i64`. -/
def balanceConversionLookup (pendulumBalance : Nat) : Option Int64 :=
  let stroops := pendulumBalance / decimalsConversionRate
  if stroops > 2 ^ 63 - 1 then none else some (.ofInt stroops)

/-- The step of the client's fold over the operations of a transaction: add what an operation
transfers to the recipient. -/
def addPayment (recipient : PublicKey) (asset : StellarAsset) (acc : Int) : OperationBody → Int
  | .payment destination paidAsset amount =>
    if destination = .keyTypeEd25519 recipient ∧ paidAsset = asset then
      saturatingAddStroops acc amount.toInt
    else acc
  | .createClaimableBalance paidAsset amount claimants =>
    if claimants.length = 1 then
      match claimants.head? with
      | some claimant =>
        if claimant.destination = recipient ∧ paidAsset = asset ∧
            claimant.predicate = .claimPredicateUnconditional then
          saturatingAddStroops acc amount.toInt
        else acc
      | none => acc
    else acc
  | _ => acc

/-- The amount of an asset that a transaction transfers to an address, as the client counts it. -/
def getPaymentAmountForAssetTo (envelope : TransactionEnvelope) (recipient : PublicKey)
    (asset : StellarAsset) : Nat :=
  let operations := txOperations envelope
  if operations.isEmpty then balanceConversionUnlookup 0
  else balanceConversionUnlookup (operations.foldl (addPayment recipient asset) 0)

/-- The client adds what the parachain counts for the operation. -/
theorem addPayment_eq (recipient : PublicKey) (asset : StellarAsset) (acc : Int)
    (body : OperationBody) :
    addPayment recipient asset acc body =
      match transferredStroops recipient asset body with
      | some amount => saturatingAddStroops acc amount
      | none => acc := by
  cases body with
  | payment destination paidAsset amount =>
    simp only [addPayment, transferredStroops]
    split_ifs <;> rfl
  | createClaimableBalance paidAsset amount claimants =>
    match claimants with
    | [] => rfl
    | [claimant] =>
      simp only [addPayment, transferredStroops, List.length_singleton, if_true, List.head?_cons]
      split_ifs <;> rfl
    | _ :: _ :: _ => rfl
  | _ => rfl

/-! ## Recognised payments -/

section

variable {sdk : StellarSdk} {getAccount : Except WalletError HorizonAccountResponse}
  {source destination : PublicKey} {asset : StellarAsset} {currency : CurrencyId} {amount : Nat}
  {stroops : Int64} {operation : Operation} {envelope : TransactionEnvelope}

/-- Horizon does not know the account of the redeemer. -/
def NotFound (getAccount : Except WalletError HorizonAccountResponse) : Prop :=
  ∃ title reason, getAccount = .error (.horizonSubmissionError 404 title reason)

/-- The parachain and the client both count an amount of a currency in a transaction. -/
def Recognised (envelope : TransactionEnvelope) (destination : PublicKey) (currency : CurrencyId)
    (asset : StellarAsset) (amount : Nat) : Prop :=
  (∃ paid, getAmountFromTransactionEnvelope envelope ⟨destination⟩ currency = .ok paid ∧
      amount ≤ paid.amount) ∧
    amount ≤ getPaymentAmountForAssetTo envelope destination asset

theorem createUnconditionalClaimableBalanceOperation_body (hsdk : sdk.Lawful)
    (h : createUnconditionalClaimableBalanceOperation sdk destination asset stroops = .ok operation) :
    operation.body =
      .createClaimableBalance asset stroops [⟨destination, .claimPredicateUnconditional⟩] := by
  simp only [createUnconditionalClaimableBalanceOperation, createClaimableBalanceOperation,
    mapErrAsBuildTxError, except_bind_eq_ok, mapErr_eq_ok] at h
  obtain ⟨claimant, hclaimant, hbalance⟩ := h
  rw [hsdk.newCreateClaimableBalance hbalance, hsdk.newClaimant hclaimant]

theorem createPaymentOperation_body (hsdk : sdk.Lawful)
    (h : createPaymentOperation sdk destination asset stroops source = .ok operation) :
    operation.body = .payment (.keyTypeEd25519 destination) asset stroops := by
  simp only [createPaymentOperation, mapErrAsBuildTxError, except_bind_eq_ok, mapErr_eq_ok] at h
  obtain ⟨payment, hpayment, hsource⟩ := h
  rw [hsdk.setSourceAccount hsource, hsdk.newPayment hpayment]

/-- The operation creates the account, or it transfers the stroops to the redeemer. -/
theorem createPaymentOp_cases (hsdk : sdk.Lawful)
    (h : createPaymentOpForRedeemRequest sdk getAccount source destination asset stroops =
      .ok operation) :
    NotFound getAccount ∧ asset = .assetTypeNative ∧
        stellarNativeOne ≤ balanceConversionUnlookup stroops.toInt ∧
        transferredStroops destination asset operation.body = none ∨
      ¬ (NotFound getAccount ∧ asset = .assetTypeNative ∧
          stellarNativeOne ≤ balanceConversionUnlookup stroops.toInt) ∧
        transferredStroops destination asset operation.body = some stroops.toInt := by
  have hclaimable : createUnconditionalClaimableBalanceOperation sdk destination asset stroops =
      .ok operation → transferredStroops destination asset operation.body = some stroops.toInt := by
    intro h
    simp [createUnconditionalClaimableBalanceOperation_body hsdk h, transferredStroops]
  unfold createPaymentOpForRedeemRequest at h
  split at h
  · refine .inr ⟨?_, ?_⟩
    · rintro ⟨⟨_, _, hnotFound⟩, -⟩
      cases hnotFound
    · split at h
      · simp [createPaymentOperation_body hsdk h, transferredStroops]
      · exact hclaimable h
  · next title reason =>
    have hnotFound : NotFound (.error (.horizonSubmissionError 404 title reason)) :=
      ⟨title, reason, rfl⟩
    split at h
    · next hcreate =>
      refine .inl ⟨hnotFound, hcreate.1, hcreate.2, ?_⟩
      simp only [createAccountOperation, mapErrAsBuildTxError, mapErr_eq_ok] at h
      rw [hsdk.newCreateAccount h]
      rfl
    · next hcreate => exact .inr ⟨fun hnot => hcreate hnot.2, hclaimable h⟩
  · cases h

theorem balanceConversionLookup_eq_some (h : balanceConversionLookup amount = some stroops) :
    stroops.toInt = (amount / decimalsConversionRate : Nat) ∧
      amount / decimalsConversionRate < 2 ^ 63 := by
  simp only [balanceConversionLookup] at h
  split_ifs at h with hle
  obtain rfl := Option.some.inj h
  generalize amount / decimalsConversionRate = n at hle
  exact ⟨Int64.toInt_ofInt_of_le (by omega) (by omega), by omega⟩

/-- The conversion to stroops and back keeps an amount with five zeros at the end. -/
theorem balanceConversionUnlookup_lookup (hamount : amount % decimalsConversionRate = 0)
    (h : balanceConversionLookup amount = some stroops) :
    balanceConversionUnlookup stroops.toInt = amount := by
  obtain ⟨htoInt, hlt⟩ := balanceConversionLookup_eq_some h
  have hmul : amount / decimalsConversionRate * decimalsConversionRate = amount :=
    Nat.div_mul_cancel (Nat.dvd_of_mod_eq_zero hamount)
  rw [balanceConversionUnlookup, htoInt, Int.toNat_natCast, hmul]
  refine min_eq_left ?_
  simp only [decimalsConversionRate, balanceBound] at hlt ⊢
  omega

def countedStroops (recipient : PublicKey) (asset : StellarAsset) (body : OperationBody) : Int :=
  match transferredStroops recipient asset body with
  | some stroops => saturatingAddStroops 0 stroops
  | none => 0

/-- What is counted in a transaction with one operation. -/
theorem recognised_iff (hasset : assetConversionLookup currency = some asset)
    (henvelope : txOperations envelope = [operation.body]) :
    Recognised envelope destination currency asset amount ↔
      amount ≤ balanceConversionUnlookup (countedStroops destination asset operation.body) := by
  have hparachain : getAmountFromTransactionEnvelope envelope ⟨destination⟩ currency =
      .ok ⟨balanceConversionUnlookup (countedStroops destination asset operation.body),
        currency⟩ := by
    cases htransferred : transferredStroops destination asset operation.body <;>
      simp [getAmountFromTransactionEnvelope, countedStroops, hasset, henvelope, htransferred, okOr,
        bind, Except.bind, pure, Except.pure]
  have hclient : getPaymentAmountForAssetTo envelope destination asset =
      balanceConversionUnlookup (countedStroops destination asset operation.body) := by
    cases htransferred : transferredStroops destination asset operation.body <;>
      simp [getPaymentAmountForAssetTo, addPayment_eq, countedStroops, henvelope, htransferred]
  rw [Recognised, hparachain, hclient]
  simp

end

/-- The payment that the client builds for a redeem request is recognised, on chain and by the
client, if and only if it does not create the account of the redeemer. -/
theorem payment_recognised_iff (sdk : StellarSdk) (hsdk : sdk.Lawful)
    (getAccount : Except WalletError HorizonAccountResponse) (source destination : PublicKey)
    (currency : CurrencyId) (asset : StellarAsset)
    (hasset : assetConversionLookup currency = some asset) (amount : Nat)
    (hamount : amount % decimalsConversionRate = 0) (stroops : Int64)
    (hstroops : balanceConversionLookup amount = some stroops) (operation : Operation)
    (hoperation : createPaymentOpForRedeemRequest sdk getAccount source destination asset stroops =
      .ok operation) :
    (∀ envelope, txOperations envelope = [operation.body] →
        Recognised envelope destination currency asset amount) ↔
      ¬ (NotFound getAccount ∧ asset = .assetTypeNative ∧ stellarNativeOne ≤ amount) := by
  have hback := balanceConversionUnlookup_lookup hamount hstroops
  obtain ⟨htoInt, hlt⟩ := balanceConversionLookup_eq_some hstroops
  rcases createPaymentOp_cases hsdk hoperation with
    ⟨hnotFound, hnative, hone, hnone⟩ | ⟨hnot, hsome⟩
  · rw [hback] at hone
    refine iff_of_false (fun hall => ?_) (not_not.mpr ⟨hnotFound, hnative, hone⟩)
    have hzero := (recognised_iff hasset rfl).mp
      (hall (.envelopeTypeTx ⟨.memoNone, [operation.body], []⟩ []) rfl)
    have hunlookup : balanceConversionUnlookup 0 = 0 := rfl
    rw [countedStroops, hnone, hunlookup] at hzero
    exact absurd (hone.trans hzero) (by decide)
  · rw [hback] at hnot
    refine iff_of_true (fun envelope henvelope => ?_) hnot
    have hsaturated : saturatingAddStroops 0 stroops.toInt = stroops.toInt := by
      generalize amount / decimalsConversionRate = n at htoInt hlt
      rw [saturatingAddStroops, Int.zero_add, min_eq_right (by omega), max_eq_right (by omega)]
    simp only [recognised_iff hasset henvelope, countedStroops, hsome, hsaturated, hback, le_refl]

/-- A library that builds everything. -/
def sampleSdk : StellarSdk where
  newPayment destination asset amount :=
    .ok ⟨none, .payment (.keyTypeEd25519 destination) asset amount⟩
  newCreateClaimableBalance asset amount claimants :=
    .ok ⟨none, .createClaimableBalance asset amount claimants⟩
  newCreateAccount destination amount := .ok ⟨none, .createAccount destination amount⟩
  newClaimant destination predicate := .ok ⟨destination, predicate⟩
  setSourceAccount operation key := .ok ⟨some key, operation.body⟩

theorem sampleSdk_lawful : sampleSdk.Lawful where
  newPayment h := by cases h; rfl
  newCreateClaimableBalance h := by cases h; rfl
  newCreateAccount h := by cases h; rfl
  newClaimant h := by cases h; rfl
  setSourceAccount h := by cases h; rfl

/-- The answer of Horizon about an account that does not exist. -/
def accountNotFound : Except WalletError HorizonAccountResponse :=
  .error (.horizonSubmissionError 404 "Resource Missing" "")

/-- Half a lumen is paid with a claimable balance if there is no account, and recognised. -/
theorem payment_recognised_iff_half :
    Recognised (.envelopeTypeTx ⟨.memoNone, [.createClaimableBalance .assetTypeNative 5000000
      [⟨7, .claimPredicateUnconditional⟩]], []⟩ []) 7 (.stellar .stellarNative) .assetTypeNative
      500000000000 := by
  have hoperation : createPaymentOpForRedeemRequest sampleSdk accountNotFound 1 7 .assetTypeNative
      5000000 = .ok ⟨none, .createClaimableBalance .assetTypeNative 5000000
        [⟨7, .claimPredicateUnconditional⟩]⟩ := by
    decide
  refine (payment_recognised_iff sampleSdk sampleSdk_lawful accountNotFound 1 7
    (.stellar .stellarNative) .assetTypeNative rfl 500000000000 (by decide) 5000000 (by decide)
    _ hoperation).mpr ?_ _ rfl
  rintro ⟨-, -, hone⟩
  exact absurd hone (by decide)

/-- One lumen is paid with the creation of the account, and nothing is recognised. -/
theorem created_account_not_recognised :
    ∃ operation, balanceConversionLookup 1000000000000 = some 10000000 ∧
      createPaymentOpForRedeemRequest sampleSdk accountNotFound 1 7 .assetTypeNative 10000000 =
        .ok operation ∧
      getAmountFromTransactionEnvelope (.envelopeTypeTx ⟨.memoNone, [operation.body], []⟩ []) ⟨7⟩
        (.stellar .stellarNative) = .ok ⟨0, .stellar .stellarNative⟩ ∧
      getPaymentAmountForAssetTo (.envelopeTypeTx ⟨.memoNone, [operation.body], []⟩ []) 7
        .assetTypeNative = 0 := by
  refine ⟨⟨none, .createAccount 7 10000000⟩, by decide, by decide, rfl, rfl⟩

end Spacewalk.Clients
