import Spacewalk.Clients.Operations
import Spacewalk.Ledger.CallWrites
import Spacewalk.Ledger.Replacement

/-!
# The amounts of replace requests

A replace request is executed against a payment of its amount on the Stellar network, where amounts
have five decimals less.  A payment of exactly that amount exists if it is a multiple of
`decimalsConversionRate`.

`request_replace` checks that for the amount that it is given, but adds only as much of it as the
vault has issued; `accept_replace` takes the amount that the new vault names, or all tokens to be
replaced if they are fewer, and checks nothing.  `replace_payable_iff` is therefore a statement about
runs: every pending request can be paid, in all states of a run, if and only if in each of its steps
that accept a replacement the smaller of both is such a multiple.
-/

namespace Spacewalk.Ledger

open Foundation VaultRegistry Replace Currency Clients Function
open Stellar (TransactionEnvelope)

variable {B : Type} {R : Runtime B} {W : Set CurrencyId} {s s' : Chain B} {u : Unit} {o : Origin}
  {record : Record}

/-! ## Payments -/

/-- The loop over the operations adds up the stroops of those that transfer something. -/
theorem foldl_transferredStroops (recipient : BitVec 256) (asset : Stellar.StellarAsset)
    (operations : List Stellar.OperationBody) (sum : Int) :
    operations.foldl (fun sum operation =>
      match transferredStroops recipient asset operation with
      | some amount => saturatingAddStroops sum amount
      | none => sum) sum =
      (operations.filterMap (transferredStroops recipient asset)).foldl saturatingAddStroops sum := by
  induction operations generalizing sum with
  | nil => rfl
  | cons operation operations ih =>
    cases htransferred : transferredStroops recipient asset operation with
    | none => simp only [List.foldl_cons, List.filterMap_cons, htransferred, ih]
    | some amount => simp only [List.foldl_cons, List.filterMap_cons, htransferred, ih]

/-- What the parachain counts in a transaction: the sum of the transferred stroops. -/
theorem getAmountFromTransactionEnvelope_eq {currency : CurrencyId} {asset : Stellar.StellarAsset}
    (hasset : assetConversionLookup currency = some asset) (envelope : TransactionEnvelope)
    (address : StellarPublicKeyRaw) :
    getAmountFromTransactionEnvelope envelope address currency =
      .ok ⟨balanceConversionUnlookup (((txOperations envelope).filterMap
        (transferredStroops address.bytes asset)).foldl saturatingAddStroops 0), currency⟩ := by
  rw [getAmountFromTransactionEnvelope, hasset]
  exact congrArg (fun sum => Except.ok (Amount.mk (balanceConversionUnlookup sum) currency))
    (foldl_transferredStroops address.bytes asset (txOperations envelope) 0)

/-- The amount of a request is a multiple of the conversion rate, and a transaction that transfers
it, in stroops, to the address of the request passes the check of `execute_replace`. -/
def Payable (r : ReplaceRequest) : Prop :=
  decimalsConversionRate ∣ r.amount ∧
    ∀ asset stroops envelope, assetConversionLookup r.asset = some asset →
      balanceConversionLookup r.amount = some stroops →
      (txOperations envelope).filterMap (transferredStroops r.stellarAddress.bytes asset) =
        [stroops.toInt] →
      ∃ paid, getAmountFromTransactionEnvelope envelope r.stellarAddress r.asset = .ok paid ∧
        r.amount ≤ paid.amount ∧ paid.ge r.replacedAmount = .ok true

/-- All pending replace requests can be paid. -/
def AllPayable (s : Chain B) : Prop :=
  ∀ id r, s.replace.replaceRequests id = some r → r.status = .pending → Payable r

/-- A payment of the stroops of a multiple of the conversion rate is worth that multiple. -/
theorem payable_iff {r : ReplaceRequest} (hasset : r.asset = r.oldVault.wrappedCurrency) :
    Payable r ↔ decimalsConversionRate ∣ r.amount := by
  refine ⟨And.left, fun hdvd => ⟨hdvd, ?_⟩⟩
  intro asset stroops envelope hlookup hstroops htransfers
  obtain ⟨htoInt, hlt⟩ := balanceConversionLookup_eq_some hstroops
  have hsum : saturatingAddStroops 0 stroops.toInt = stroops.toInt := by
    generalize r.amount / decimalsConversionRate = n at htoInt hlt
    rw [saturatingAddStroops, Int.zero_add, min_eq_right (by omega), max_eq_right (by omega)]
  have hback := balanceConversionUnlookup_lookup (Nat.mod_eq_zero_of_dvd hdvd) hstroops
  refine ⟨_, getAmountFromTransactionEnvelope_eq hlookup envelope r.stellarAddress, ?_⟩
  rw [htransfers, List.foldl_cons, List.foldl_nil, hsum, hback]
  refine ⟨le_rfl, Amount.compare_eq_ok.mpr ⟨hasset, ?_⟩⟩
  simp [ReplaceRequest.replacedAmount]

/-! ## What a step does to the replace requests -/

/-- A step leaves the replace requests, settles one or accepts a replacement. -/
inductive ReplaceStep (s : Chain B) (record : Record) (s' : Chain B) : Prop
  | keeps : (∀ o p v n c a, record.event ≠ .extrinsic o (.replace (.acceptReplace p v n c a))) →
      s'.replace.replaceRequests = s.replace.replaceRequests → ReplaceStep s record s'
  | settles {id : H256} {r : ReplaceRequest} {status : ReplaceRequestStatus} :
      (∀ o p v n c a, record.event ≠ .extrinsic o (.replace (.acceptReplace p v n c a))) →
      s.replace.replaceRequests id = some r → status ≠ .pending →
      s'.replace.replaceRequests = update s.replace.replaceRequests id
        (some { r with status := status }) → ReplaceStep s record s'
  | accepts {o : Origin} {p : VaultCurrencyPair} {v : VaultId} {n c : ℕ} {a : StellarPublicKeyRaw}
      {d : Vault} {id : H256} {r : ReplaceRequest} :
      record.event = .extrinsic o (.replace (.acceptReplace p v n c a)) →
      s.vaultRegistry.vaults v = some d → r.amount = min n d.toBeReplacedTokens →
      r.oldVault = v → r.asset = v.wrappedCurrency → r.status = .pending →
      s'.replace.replaceRequests = update s.replace.replaceRequests id (some r) →
      ReplaceStep s record s'

theorem decreaseToBeReplacedTokens_used {v : VaultId} {tokens : Amount} {used : Amount × Amount}
    (hs : Keyed s) (h : Returns (decreaseToBeReplacedTokens R v tokens) s used s') :
    ∃ d, s.vaultRegistry.vaults v = some d ∧
      used.1 = ⟨min tokens.amount d.toBeReplacedTokens, tokens.currencyId⟩ := by
  simp only [decreaseToBeReplacedTokens, returns_steps] at h
  obtain ⟨d, hget, taken, htaken, collateral, -, _, -, left, -, _, _, -, rfl, -⟩ := h
  obtain ⟨rfl, hd⟩ := getVaultFromId_stored hs hget
  exact ⟨d, hd, (Amount.min_eq_ok.mp htaken).2⟩

theorem insertReplaceRequest_requests {id : H256} {r : ReplaceRequest}
    (h : Returns (insertReplaceRequest id r) s u s') :
    s'.replace.replaceRequests = update s.replace.replaceRequests id (some r) := by
  obtain rfl := returns_modify.mp h
  rfl

/-- The request that `accept_replace` writes. -/
theorem acceptReplace_opens {p : VaultCurrencyPair} {v : VaultId} {n c : ℕ}
    {a : StellarPublicKeyRaw} (hs : Keyed s) (h : Returns (acceptReplace R o p v n c a) s u s') :
    ∃ d id r, s.vaultRegistry.vaults v = some d ∧ r.amount = min n d.toBeReplacedTokens ∧
      r.oldVault = v ∧ r.asset = v.wrappedCurrency ∧ r.status = .pending ∧
      s'.replace.replaceRequests = update s.replace.replaceRequests id (some r) := by
  simp only [acceptReplace, returns_guards] at h
  obtain ⟨_, -, -, -, _, -, used, s₁, hdecrease, _, -, -, _, -, _, s₂, hdeposit, _, s₃, haccept, _,
    s₄, htransfer, id, s₅, hid, hinsert⟩ := h
  obtain ⟨d, hd, hused⟩ := decreaseToBeReplacedTokens_used hs hdecrease
  have hwrites := insertReplaceRequest_requests hinsert
  have hsame : SameOf .replace s s₅ :=
    trans_of (SameOf .replace) (trans_of (SameOf .replace) (trans_of (SameOf .replace)
      (trans_of (SameOf .replace) (sameOf_of ((surroundings_steady R).decreaseToBeReplacedTokens _ _) _ _ _ hdecrease)
        (sameOf_of ((surroundings_steady R).tryDepositCollateral _ _) _ _ _ hdeposit))
      (sameOf_of ((surroundings_steady R).acceptReplaceTokens _ _ _) _ _ _ haccept))
      (sameOf_of ((surroundings_steady R).transferFunds _ _ _) _ _ _ htransfer))
      (getSecureId_sameOf _ _ _ hid)
  rw [show s₅.replace.replaceRequests = s.replace.replaceRequests from hsame] at hwrites
  exact ⟨d, id, _, hd, congrArg Amount.amount hused, rfl, congrArg Amount.currencyId hused, rfl, hwrites⟩

theorem step_replaceStep (hR : R.tokens.Lawful) (hs : Sound s) (h : Step R W s record s') :
    ReplaceStep s record s' := by
  cases h with
  | environment h =>
    refine .keeps ?_ (environment_sameOf (k := .replace) h)
    rintro _ _ _ _ _ _ ⟨⟩
  | @extrinsic _ _ call h =>
    -- only the calls that write replace requests have to be looked at
    by_cases hwritten : writtenKind call = some .replace
    · cases call with
      | replace call =>
        cases call with
        | acceptReplace p v n c a =>
          obtain ⟨d, id, r, hd, hamount, hold, hasset, hpending, hreq⟩ :=
            acceptReplace_opens hs.keyed h
          exact .accepts rfl hd hamount hold hasset hpending hreq
        | executeReplace id x y z =>
          obtain ⟨r, hr, -, hsettled⟩ := executeReplace_settled hR hs h
          refine .settles ?_ hr (by simp) hsettled.replaceRequests
          rintro _ _ _ _ _ _ ⟨⟩
        | cancelReplace id =>
          obtain ⟨r, hr, -, hsettled⟩ := cancelReplace_settled hR hs h
          refine .settles ?_ hr (by simp) hsettled.replaceRequests
          rintro _ _ _ _ _ _ ⟨⟩
        | _ => cases hwritten
      | issue call => cases call <;> cases hwritten
      | redeem call => cases call <;> cases hwritten
      | _ => cases hwritten
    · refine .keeps ?_ (dispatch_sameOf (k := .replace) h hwritten)
      rintro _ _ _ _ _ _ ⟨⟩
      exact hwritten rfl

/-! ## Runs -/

/-- If a step accepts a replacement, then the amount, or all tokens to be replaced if they are
fewer, is a multiple of the conversion rate. -/
def AcceptsMultiple (s : Chain B) (record : Record) : Prop :=
  ∀ o p v n c a, record.event = .extrinsic o (.replace (.acceptReplace p v n c a)) →
    ∀ d, s.vaultRegistry.vaults v = some d → decimalsConversionRate ∣ min n d.toBeReplacedTokens

/-- Requests stay payable exactly if the next one is. -/
theorem ReplaceStep.allPayable_iff (h : ReplaceStep s record s') (hs : AllPayable s) :
    AllPayable s' ↔ AcceptsMultiple s record := by
  cases h with
  | keeps hevent hreq =>
    refine iff_of_true (fun id r hr => ?_) fun o p v n c a h => absurd h (hevent o p v n c a)
    rw [hreq] at hr
    exact hs id r hr
  | @settles id r status hevent hr hstatus hreq =>
    refine iff_of_true (fun id' r' hr' hpending => ?_) fun o p v n c a h =>
      absurd h (hevent o p v n c a)
    rcases update_eq_some.mp (hreq ▸ hr') with ⟨rfl, rfl⟩ | ⟨-, hr'⟩
    · exact absurd hpending hstatus
    · exact hs id' r' hr' hpending
  | @accepts o p v n c a d id r hevent hd hamount hold hasset hpending hreq =>
    have hpayable := payable_iff (r := r) (by rw [hasset, hold])
    constructor
    · intro hall o' p' v' n' c' a' hevent' d' hd'
      rw [hevent] at hevent'
      cases hevent'
      obtain rfl := Option.mem_unique hd hd'
      rw [← hamount]
      exact hpayable.mp (hall id r (by simp [hreq]) hpending)
    · intro hmultiple id' r' hr' hpending'
      rcases update_eq_some.mp (hreq ▸ hr') with ⟨rfl, rfl⟩ | ⟨-, hr'⟩
      · rw [hpayable, hamount]
        exact hmultiple o p v n c a hevent d hd
      · exact hs id' r' hr' hpending'

/-- In all states of a run every pending replace request can be paid, if and only if every step that
accepts a replacement does so for a multiple of the conversion rate. -/
theorem replace_payable_iff (R : Runtime B) (hR : R.tokens.Lawful) (W : Set CurrencyId)
    (s₀ s : Chain B) (records : List Record) (hgenesis : IsGenesis s₀) :
    Run (fun s l s' => Step R W s l s' ∧ AllPayable s') s₀ records s ↔
      Run (fun s l s' => Step R W s l s' ∧ AcceptsMultiple s l) s₀ records s := by
  refine Run.and_congr (I := fun s => Sound s ∧ AllPayable s) ?_ ?_ ⟨genesis_sound hgenesis, ?_⟩
  · rintro s l s' ⟨hs, hall⟩ hstep
    exact (step_replaceStep hR hs hstep).allPayable_iff hall
  · rintro s l s' ⟨hs, -⟩ hstep hall
    exact ⟨step_sound hR hstep hs, hall⟩
  · intro id r hr
    simp [hgenesis.replaces] at hr

/-! ## Two vaults -/

/-- Whether a step accepts a replacement only for a multiple of the conversion rate. -/
def acceptsMultiple (s : Chain B) (record : Record) : Bool :=
  match record.event with
  | .extrinsic _ (.replace (.acceptReplace _ v n _ _)) =>
    (s.vaultRegistry.vaults v).all fun d =>
      decide (decimalsConversionRate ∣ min n d.toBeReplacedTokens)
  | _ => true

theorem acceptsMultiple_sound (h : acceptsMultiple s record = true) :
    AcceptsMultiple s record := by
  intro o p v n c a hevent d hd
  simpa only [acceptsMultiple, hevent, hd, Option.all_some, decide_eq_true_eq] using h

/-- The vault of account 1 asks for 400000 of its tokens to be replaced, and the vault of account 2
accepts to replace some. -/
def accepting (amount : Nat) : List Record :=
  issuing ++
    [signed 2 (.vaultRegistry (.registerPublicKey ⟨7⟩)),
      signed 2 (.vaultRegistry (.registerVault samplePair 2000000)), asking 400000,
      signedDrawing 2
        (.replace (.acceptReplace samplePair (sampleVault 1) amount 2000000 ⟨7⟩)) 2]

theorem replace_payable_iff_accepting :
    ∃ s r, Run (fun s l s' => Step sampleRuntime ∅ s l s' ∧ AllPayable s') sampleGenesis
        (accepting 300000) s ∧
      s.replace.replaceRequests 2 = some r ∧ r.status = .pending ∧ r.amount = 300000 := by
  obtain ⟨s, hrun, r, hr, hstate⟩ : ∃ s, Run (fun s l s' => Step sampleRuntime ∅ s l s' ∧
      AcceptsMultiple s l) sampleGenesis (accepting 300000) s ∧ ∃ r,
        s.replace.replaceRequests 2 = some r ∧ r.status = .pending ∧ r.amount = 300000 :=
    Run.exists_of_checked (step_of_execute environmentStep_sampleDelay)
      (c := fun s record _ => acceptsMultiple s record) (fun _ _ _ => acceptsMultiple_sound)
      (by decide +kernel)
  exact ⟨s, r, (replace_payable_iff sampleRuntime sampleRuntime_lawful ∅ sampleGenesis s
    (accepting 300000) sampleGenesis_isGenesis).mpr hrun, hr, hstate⟩

/-- A replacement of 399999 tokens is accepted.  They are worth three stroops, rounded down, and a
payment of three stroops does not execute the request. -/
theorem replace_not_payable :
    ∃ s r, Run (Step sampleRuntime ∅) sampleGenesis (accepting 399999) s ∧
      s.replace.replaceRequests 2 = some r ∧ r.status = .pending ∧ r.amount = 399999 ∧
      balanceConversionLookup r.amount = some 3 ∧
      errorOf (executeReplace sampleRuntime (.signed ⟨2⟩) 2 (paymentFor 2 3) [] (paymentFor 2 3)) s =
        some (.replace .invalidPaymentAmount) := by
  simp only [exists_and_left]
  exact run_of_replay environmentStep_sampleDelay (by decide +kernel)

end Spacewalk.Ledger
