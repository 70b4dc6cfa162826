import Spacewalk.Ledger.Escrow
import Spacewalk.Ledger.NominationRatio
import Spacewalk.Ledger.Payouts
import Spacewalk.Runtime.Conversion

/-!
# Tokens for reimbursed requests

A user whose redeem request is not executed can cancel it and be reimbursed with collateral of the
vault.  If the vault cannot back the tokens, they are burned, and the vault can later mint tokens for
the collateral that it lost: the amount is stored at the cancellation, converted at the prices of
that moment.

`reimbursed_mint_bounded` says that in every run the tokens of a request are minted at most once, only
after a cancellation that burned the tokens of the request, and no more of them; and that they are
worth, at the prices of the cancellation, at most the collateral that the vault lost without the
punishment fee.
-/

namespace Spacewalk.Ledger

open Foundation Function VaultRegistry Redeem
open Nomination (backingStake)
open Staking (scale)

variable {B : Type} {R : Runtime B} {W : Set CurrencyId} {s s' : Chain B} {u : Unit} {o : Origin}
  {id : H256} {r : RedeemRequest}

/-! ## What is taken from an active vault -/

section

variable {v : VaultId} {a : AccountId} {n : ℕ} {w : CurrencyId} {value : Amount}

/-- A transfer that is limited by what is there takes at most the amount. -/
theorem transferFundsSaturated_le {source destination : CurrencySource} {amount taken : Amount}
    (h : Returns (transferFundsSaturated R source destination amount) s taken s') :
    taken.amount ≤ amount.amount := by
  simp only [transferFundsSaturated, returns_steps] at h
  obtain ⟨available, -, less, hless, _, _, -, rfl, rfl⟩ := h
  obtain ⟨-, rfl⟩ := Amount.compare_eq_ok.mp hless
  split
  · next hlt => exact (of_decide_eq_true hlt).le
  · exact le_rfl

/-- The amount that can be minted again: worth no more than what was taken without the fee, and no
more than the tokens that were redeemed. -/
theorem converted_retrievable {fee taken minted : ℕ} {c : CurrencyId}
    (hvalue : Oracle.converted R s w c n = .ok value.amount) (htaken : taken ≤ value.amount + fee)
    (hminted : Oracle.converted R s c w (taken - fee) = .ok minted) :
    minted ≤ n ∧ ∀ x, Oracle.converted R s w c minted = .ok x → x ≤ taken - fee := by
  obtain ⟨fs, gs, hf, hg, hback, -⟩ := Oracle.converted_inverse R s w c
  constructor
  · calc minted = scaleDown gs (taken - fee) := hg _ _ hminted
      _ ≤ scaleDown gs value.amount := scaleDown_mono gs (by omega)
      _ = scaleDown gs (scaleDown fs n) := by rw [hf _ _ hvalue]
      _ ≤ n := hback n
  · intro x hx
    exact (Oracle.converted_inverse R s w c).symm.neverGains.back_le _ _ _ hminted hx

/-- What a cancellation with reimbursement takes from an active vault, and what it stores. -/
theorem slashActive_stores (hR : R.tokens.Lawful) (hs : Keyed s)
    (hvalue : (⟨n, w⟩ : Amount).convertTo R v.collateralCurrency s = .ok value)
    (h : Returns (slashActive R a id true v value) s u s') :
    ∃ (fee : Amount) (taken minted : ℕ), Fee.getPunishmentFee value s = .ok fee ∧
      Moves R {v} (-backing v taken) s s' ∧
      s'.redeem.cancelledRedeemAmount id = some (minted, v.wrappedCurrency) ∧
      (w = v.wrappedCurrency → minted ≤ n ∧
        ∀ x, Oracle.converted R s w v.collateralCurrency minted = .ok x →
          x ≤ taken - fee.amount) := by
  simp only [slashActive, if_true, returns_steps] at h
  obtain ⟨fee, hfee, slashed, hslashed, taken, s₁, htake, rest, hrest, wrapped, hwrapped, _, s₂,
    hcancelled, _, s₃, hban, -, rfl⟩ := h
  obtain ⟨hcurrency, -, rfl⟩ := Amount.checkedAdd_eq_ok.mp hslashed
  obtain ⟨hcurrency', rfl⟩ := Amount.saturatingSub_eq_ok.mp hrest
  have hcollateral : value.currencyId = v.collateralCurrency := convertTo_currencyId hvalue
  have h₁ := transferFundsSaturated_moves hR hs htake
  have h₂ := (setCancelledRedeemAmount_frame (R := R) _ _ _ _ _ hcancelled).moves h₁.keyed
  have h₃ : Moves R {v} 0 s₂ s₃ := by
    rcases returns_attempt hban with ⟨_, -, hban⟩ | ⟨-, rfl, -⟩
    · exact banVault_moves h₂.keyed hban
    · exact (Moves.refl h₂.keyed).congr (by simp) rfl
  have hsame : SameSurroundings s s₁ := 
    (surroundings_steady R).transferSaturated _ _ _ rfl rfl _ _ _ htake
  rw [hsame.convertTo_eq] at hwrapped
  have hminted : Oracle.converted R s v.collateralCurrency v.wrappedCurrency
      (taken.amount - fee.amount) = .ok wrapped.amount := by
    rw [← hcollateral, hcurrency, ← hcurrency']
    exact except_map_eq_ok.mpr ⟨wrapped, hwrapped, rfl⟩
  refine ⟨fee, taken.amount, wrapped.amount, hfee, ?_, ?_, ?_⟩
  · refine ((h₁.trans h₂).trans h₃).congr (by simp [touched]) ?_
    simp only [held]
    abel
  · have hban' : SameSurroundings s₂ s₃ := 
      Respects.attempt ((surroundings_steady R).banVault v) _ _ _ hban
    obtain rfl := returns_modify.mp hcancelled
    rw [show s₃.redeem = _ from congrArg Surroundings.redeem hban', ← convertTo_currencyId hwrapped]
    exact update_self ..
  · rintro rfl
    exact converted_retrievable (except_map_eq_ok.mpr ⟨value, hvalue, rfl⟩)
      (transferFundsSaturated_le htake) hminted

end

/-! ## The cancellation -/

/-- The tokens of a pending request are burned by a step.  Of them, `minted` can be minted again:
worth no more, before the step, than the collateral that the vault loses by it without the punishment
fee. -/
structure BurnedBy (R : Runtime B) (id : H256) (r : RedeemRequest) (minted : ℕ) (s s' : Chain B) :
    Prop where
  stored : s.redeem.redeemRequests id = some r
  pending : r.status = .pending
  burned : TokensBurned R r s s'
  bounded : minted ≤ r.amount + r.transferFee
  worth : ∃ (value fee : Amount) (taken : ℕ),
    (⟨r.amount + r.transferFee, r.asset⟩ : Amount).convertTo R r.vault.collateralCurrency s =
      .ok value ∧
    Fee.getPunishmentFee value s = .ok fee ∧
    backingStake s r.vault = backingStake s' r.vault + scale * taken ∧
    ∀ x, Oracle.converted R s r.vault.wrappedCurrency r.vault.collateralCurrency minted = .ok x →
      x ≤ taken - fee.amount

/-- Only a cancellation with reimbursement leaves the request reimbursed. -/
theorem cancelRedeem_reimburses {reimburse : Bool} {q : RedeemRequest}
    (h : Returns (cancelRedeem R o id reimburse) s u s') (hq : s'.redeem.redeemRequests id = some q)
    (hstatus : q.status = .reimbursed false) : reimburse = true := by
  obtain ⟨r, d, value, s₁, -, -, -, -, -, -, hsettle⟩ := cancelRedeem_parts h
  cases reimburse with
  | true => rfl
  | false =>
    simp only [settleTokens, Bool.false_eq_true, if_false, returns_bind] at hsettle
    obtain ⟨_, _, -, _, _, -, _, _, -, _, _, -, hset⟩ := hsettle
    have hretried := setRedeemStatus_status hset hq
    rw [hstatus] at hretried
    cases hretried

/-- A cancellation that leaves the request reimbursed, but its tokens not minted again, burns them. -/
theorem cancelRedeem_burns (hR : R.tokens.Lawful) (hs : Keyed s) {q : RedeemRequest}
    (hempty : ∀ v, statusOf s v = some .liquidated → recorded R s (.vault v .issued) = 0)
    (h : Returns (cancelRedeem R o id true) s u s') (hq : s'.redeem.redeemRequests id = some q)
    (hstatus : q.status = .reimbursed false) :
    ∃ r minted, o = .signed r.redeemer ∧ BurnedBy R id r minted s s' ∧
      s'.redeem.cancelledRedeemAmount id = some (minted, r.vault.wrappedCurrency) := by
  obtain ⟨r, d, value, s₁, hsigned, hstored, hpending, hget, hvalue, htaken, hsettle⟩ :=
    cancelRedeem_parts h
  have hamount := (writes_steady (K := {.redeem}) (C := ∅)).settleTokens
    (setRedeemStatus_respects (Set.mem_singleton _)) _ _ _ _ _ _ _ hsettle
  obtain ⟨s₂, below, hcollect, hbelow, hbranch⟩ := settleTokens_reimburse hsettle
  obtain ⟨hbelow', hburns⟩ : below = true ∧ Burns R id r s₂ s' := by
    rcases hbranch with hburns | ⟨-, _, _, _, -, -, -, hset⟩
    · exact hburns
    · have hother := setRedeemStatus_status hset hq
      rw [hstatus] at hother
      cases hother
  obtain ⟨hid, hd⟩ := getVaultFromId_stored hs hget
  rcases htaken with ⟨hliquidated, hconfiscate⟩ | ⟨-, hslash⟩
  · -- a liquidated vault has no issued tokens, so it is not below its threshold
    obtain ⟨φ, hφ, h₁⟩ := confiscateLiquidated_moves hR hs hget hliquidated hconfiscate
    have h₂ := (h₁.trans (collectFee_moves hR h₁.keyed hcollect)).congr subset_rfl
      (sub_eq_add_neg _ _).symm
    obtain ⟨d', hd'⟩ := stored_of_below hbelow
    have hvault : statusOf s r.vault = some .liquidated := by
      rw [← hid, hd.statusOf_eq, Vault.isLiquidated_eq_true.mp hliquidated]
    have hfalse := not_below_after hφ.mem h₂ hd' (hempty _ hvault) hbelow
    exact absurd (hbelow'.symm.trans hfalse) (by simp)
  · obtain ⟨fee, taken, minted, hfee, h₁, hminted, hbounds⟩ :=
      slashActive_stores hR hs hvalue hslash
    have h₂ := (h₁.trans (collectFee_moves hR h₁.keyed hcollect)).congr subset_rfl
      (sub_eq_add_neg _ _).symm
    have hburned := (hburns.tokensBurned hR h₂.keyed).after
      (neg_mem (Holding.backing r.vault (taken : ℤ)).mem) h₂
    obtain ⟨s₃, s₄, hburn, hdecrease, hset⟩ := hburns
    have h₃ := burnFrom_moves hR h₂.keyed hburn
    obtain ⟨hasset, h₄⟩ := decreaseTokens_moves h₃.keyed hdecrease
    obtain ⟨hle, hworth⟩ := hbounds hasset
    obtain ⟨hrecorded, -, -⟩ := setRedeemStatus_books hset
    have hstake := congrFun ((h₂.trans h₃).trans h₄).balance (.stake r.vault)
    rw [← hrecorded] at hstake
    rw [show r.asset = r.vault.wrappedCurrency from hasset] at hworth
    refine ⟨r, minted, hsigned, ⟨hstored, hpending, hburned, hle, value, fee, taken, hvalue, hfee, ?_,
      hworth⟩, ?_⟩
    · change recorded R s (.stake r.vault) = recorded R s' (.stake r.vault) + _
      rw [hstake, toBeRedeemedOn, issuedAt]
      split_ifs <;> simp [backing]
    · rw [hamount.amounts id (Set.notMem_empty id), hminted]

/-! ## The mint -/

/-- The amount that was stored is minted. -/
theorem mintTokensForReimbursedRedeem_mints (hR : R.tokens.Lawful) (hs : Keyed s)
    {p : VaultCurrencyPair} {minted : ℕ} {w : CurrencyId}
    (hstored : s.redeem.cancelledRedeemAmount id = some (minted, w))
    (h : Returns (mintTokensForReimbursedRedeem R o p id) s u s') :
    R.tokens.totalIssuance s'.tokens w = R.tokens.totalIssuance s.tokens w + minted := by
  simp only [mintTokensForReimbursedRedeem, returns_guards, except_rules, hstored,
    getReimbursedAmount] at h
  obtain ⟨a, -, _, -, r, -, -, -, _, s₁, hcancelled, _, -, _, s₂, hincrease, _, s₃, hissue, _, s₄,
    hmint, hset⟩ := h
  have h₁ := (setCancelledRedeemAmount_frame (R := R) _ _ _ _ _ hcancelled).moves hs
  obtain ⟨-, h₂⟩ := tryIncreaseToBeIssuedTokens_moves (R := R) h₁.keyed hincrease
  obtain ⟨-, h₃⟩ := issueTokens_moves (R := R) h₂.keyed hissue
  have h₄ := mintTo_moves hR h₃.keyed hmint
  rw [h₂.status, h₁.status] at h₃
  rw [h₁.status] at h₂
  obtain ⟨hrecorded, -, -⟩ := setRedeemStatus_books (R := R) hset
  have hissuance := congrFun (((h₁.trans h₂).trans h₃).trans h₄).balance (.issuance w)
  rw [← hrecorded, toBeIssuedAt, issuedAt] at hissuance
  split_ifs at hissuance <;> simpa [recorded] using hissuance

/-- The step mints tokens for a request. -/
def mintsFor (id : H256) (record : Record) : Bool :=
  match record.event with
  | .extrinsic _ (.redeem (.mintTokensForReimbursedRedeem _ i)) => i = id
  | _ => false

theorem mintsFor_eq_true {record : Record} : mintsFor id record = true ↔
    ∃ o p, record.event = .extrinsic o (.redeem (.mintTokensForReimbursedRedeem p id)) := by
  unfold mintsFor
  split
  · next o p i hevent => simp [hevent]
  · next hother =>
    constructor
    · intro h
      cases h
    · rintro ⟨o, p, hevent⟩
      exact absurd hevent (hother o p id)

/-! ## What a step does to a request -/

/-- A step leaves a redeem request and its cancelled amount, opens the request, settles it without
leaving tokens to be minted, burns its tokens, or mints them again. -/
inductive ReimburseStep (R : Runtime B) (id : H256) (s : Chain B) (record : Record) (s' : Chain B) :
    Prop
  | keeps : mintsFor id record = false →
      s'.redeem.redeemRequests id = s.redeem.redeemRequests id →
      s'.redeem.cancelledRedeemAmount id = s.redeem.cancelledRedeemAmount id →
      ReimburseStep R id s record s'
  | opens {r : RedeemRequest} : mintsFor id record = false → record.drawn = some id →
      s'.redeem.redeemRequests id = some r → r.status = .pending → ReimburseStep R id s record s'
  | settles {r q : RedeemRequest} : mintsFor id record = false →
      s.redeem.redeemRequests id = some r → r.status = .pending →
      s'.redeem.redeemRequests id = some q → q.status ≠ .pending → q.status ≠ .reimbursed false →
      ReimburseStep R id s record s'
  | burns {r : RedeemRequest} {minted : ℕ} :
      record.event = .extrinsic (.signed r.redeemer) (.redeem (.cancelRedeem id true)) →
      BurnedBy R id r minted s s' →
      s'.redeem.redeemRequests id = some { r with status := .reimbursed false } →
      s'.redeem.cancelledRedeemAmount id = some (minted, r.vault.wrappedCurrency) →
      ReimburseStep R id s record s'
  | mints {r q : RedeemRequest} {o : Origin} {p : VaultCurrencyPair} :
      record.event = .extrinsic o (.redeem (.mintTokensForReimbursedRedeem p id)) →
      s.redeem.redeemRequests id = some r → r.status = .reimbursed false →
      s'.redeem.redeemRequests id = some q → q.status = .reimbursed true →
      ReimburseStep R id s record s'

theorem step_reimburseStep (hR : R.tokens.Lawful) (hs : Sound s)
    (hempty : ∀ v, statusOf s v = some .liquidated → recorded R s (.vault v .issued) = 0)
    {record : Record} (h : Step R W s record s') (id : H256) : ReimburseStep R id s record s' := by
  cases h with
  | environment h =>
    exact .keeps rfl (by rw [h.redeem]) (by rw [h.redeem])
  | @extrinsic _ o call h =>
    have hwrites := dispatch_writes call _ _ _ h
    -- a call that writes nothing of this request
    have hkeeps (hmint : mintsFor id ⟨.extrinsic o call, drawnBetween R s s'⟩ = false)
        (hrequest : s'.redeem.redeemRequests id = s.redeem.redeemRequests id)
        (hamount : writtenAmount call ≠ some id) :
        ReimburseStep R id s ⟨.extrinsic o call, drawnBetween R s s'⟩ s' :=
      .keeps hmint hrequest (hwrites.amounts id hamount)
    cases call with
    | redeem call =>
      cases call with
      | requestRedeem n address v =>
        obtain ⟨id', r, -, -, hpending, -, -, hdrawn, hreq, -⟩ := requestRedeem_inserts h
        by_cases hid : id = id'
        · subst hid
          exact .opens rfl hdrawn (by rw [hreq, update_self]) hpending
        · exact hkeeps rfl (by rw [hreq, update_of_ne hid]) (by simp [writtenAmount])
      | executeRedeem id' e x t =>
        obtain ⟨r, hr, hpending, hsettled⟩ := executeRedeem_settled hR hs.keyed h
        by_cases hid : id = id'
        · subst hid
          exact .settles rfl hr hpending (by rw [hsettled.redeemRequests, update_self])
            (by simp) (by simp)
        · exact hkeeps rfl (by rw [hsettled.redeemRequests, update_of_ne hid])
            (by simp [writtenAmount])
      | cancelRedeem id' b =>
        obtain ⟨r, status, hr, hpending, hne, hsettled⟩ := cancelRedeem_settled hR hs.keyed h
        by_cases hid : id = id'
        · subst hid
          have hq : s'.redeem.redeemRequests id = some { r with status := status } := by
            rw [hsettled.redeemRequests, update_self]
          by_cases hburns : status = .reimbursed false
          · subst hburns
            obtain rfl : b = true := cancelRedeem_reimburses h hq rfl
            obtain ⟨r', minted, rfl, hburned, hamount⟩ := cancelRedeem_burns hR hs.keyed hempty h hq rfl
            obtain rfl := Option.mem_unique hr hburned.stored
            exact .burns rfl hburned hq hamount
          · exact .settles rfl hr hpending hq hne hburns
        · exact hkeeps rfl (by rw [hsettled.redeemRequests, update_of_ne hid])
            (by simpa [writtenAmount] using Ne.symm hid)
      | mintTokensForReimbursedRedeem p id' =>
        obtain ⟨r, hr, hstatus, hsettled⟩ := mintTokensForReimbursedRedeem_settled hR hs.keyed h
        by_cases hid : id = id'
        · subst hid
          exact .mints rfl hr hstatus (by rw [hsettled.redeemRequests, update_self]) rfl
        · exact hkeeps (by simpa [mintsFor] using Ne.symm hid)
            (by rw [hsettled.redeemRequests, update_of_ne hid])
            (by simpa [writtenAmount] using Ne.symm hid)
      | _ =>
        exact hkeeps rfl (congrFun (hwrites.requests .redeem (by simp [writtenKind])) id)
          (by simp [writtenAmount])
    | issue call =>
      exact hkeeps rfl (congrFun (hwrites.requests .redeem (by cases call <;> simp [writtenKind])) id)
        (by simp [writtenAmount])
    | replace call =>
      exact hkeeps rfl (congrFun (hwrites.requests .redeem (by cases call <;> simp [writtenKind])) id)
        (by simp [writtenAmount])
    | _ =>
      exact hkeeps rfl (congrFun (hwrites.requests .redeem (by simp [writtenKind])) id)
        (by simp [writtenAmount])

/-! ## Runs -/

section

variable {s₀ : Chain B} {record : Record} {records : List Record} {minted : ℕ}

/-- The tokens of a request were burned by a cancellation earlier in a run. -/
def BurnedBefore (R : Runtime B) (W : Set CurrencyId) (s₀ : Chain B) (records : List Record)
    (s : Chain B) (id : H256) (r : RedeemRequest) (minted : ℕ) : Prop :=
  ∃ earlier record later s₁ s₂, records = earlier ++ record :: later ∧
    record.event = .extrinsic (.signed r.redeemer) (.redeem (.cancelRedeem id true)) ∧
    Run (Step R W) s₀ earlier s₁ ∧ Step R W s₁ record s₂ ∧ Run (Step R W) s₂ later s ∧
    BurnedBy R id r minted s₁ s₂

theorem BurnedBefore.concat (h : BurnedBefore R W s₀ records s id r minted)
    (hstep : Step R W s record s') : BurnedBefore R W s₀ (records ++ [record]) s' id r minted := by
  obtain ⟨earlier, cancelled, later, s₁, s₂, rfl, hevent, hearlier, hcancelled, hlater, hburned⟩ := h
  refine ⟨earlier, cancelled, later ++ [record], s₁, s₂, by simp, hevent, hearlier, hcancelled, ?_,
    hburned⟩
  exact Run.append_iff.mpr ⟨s, hlater, .cons hstep (.nil s')⟩

/-- What a run has done for a request: tokens that wait to be minted were burned, tokens that were
minted do not wait any more, and they were minted at most once. -/
structure Reimbursed (R : Runtime B) (W : Set CurrencyId) (s₀ : Chain B) (id : H256) (s : Chain B)
    (records : List Record) : Prop where
  run : Run (Step R W) s₀ records s
  waiting : ∀ q, s.redeem.redeemRequests id = some q → q.status = .reimbursed false →
    ∃ r minted, s.redeem.cancelledRedeemAmount id = some (minted, r.vault.wrappedCurrency) ∧
      BurnedBefore R W s₀ records s id r minted
  minted : records.countP (mintsFor id) ≠ 0 →
    ∃ q, s.redeem.redeemRequests id = some q ∧ q.status = .reimbursed true
  once : records.countP (mintsFor id) ≤ 1

theorem countP_concat (h : mintsFor id record = false) :
    (records ++ [record]).countP (mintsFor id) = records.countP (mintsFor id) := by
  simp [h]

theorem Reimbursed.step (hR : R.tokens.Lawful) (hgenesis : IsGenesis s₀) (hsound : Sound s)
    (hs : Reimbursed R W s₀ id s records) (hstep : Step R W s record s')
    (hfresh : ∀ i, record.drawn = some i → ¬ Used s i) :
    Reimbursed R W s₀ id s' (records ++ [record]) := by
  have hrun : Run (Step R W) s₀ (records ++ [record]) s' :=
    Run.append_iff.mpr ⟨s, hs.run, .cons hstep (.nil s')⟩
  have hempty : ∀ v, statusOf s v = some .liquidated → recorded R s (.vault v .issued) = 0 :=
    fun v hv => run_emptied hR (fun _ _ _ h => h) hs.run hgenesis (i := .issued) hv (by decide)
  -- a request with another status has no tokens that were minted
  have hnone {r : RedeemRequest} (hr : s.redeem.redeemRequests id = some r)
      (hstatus : r.status ≠ .reimbursed true) : records.countP (mintsFor id) = 0 := by
    by_contra hne
    obtain ⟨q, hq, htrue⟩ := hs.minted hne
    obtain rfl := Option.mem_unique hr hq
    exact hstatus htrue
  cases step_reimburseStep hR hsound hempty hstep id with
  | keeps hmint hrequest hamount =>
    refine ⟨hrun, fun q hq hstatus => ?_, fun hne => ?_, (countP_concat hmint).trans_le hs.once⟩
    · obtain ⟨r, minted, hstored, hburned⟩ := hs.waiting q (hrequest ▸ hq) hstatus
      exact ⟨r, minted, hamount.trans hstored, hburned.concat hstep⟩
    · rw [hrequest]
      exact hs.minted (countP_concat hmint ▸ hne)
  | @opens r hmint hdrawn hr hpending =>
    have hzero : records.countP (mintsFor id) = 0 := by
      by_contra hne
      obtain ⟨q, hq, -⟩ := hs.minted hne
      exact hfresh id hdrawn (.inr (.inl (by simp [hq])))
    refine ⟨hrun, fun q hq hstatus => ?_, fun hne => ?_, (countP_concat hmint).trans_le hs.once⟩
    · obtain rfl := Option.mem_unique hr hq
      rw [hpending] at hstatus
      cases hstatus
    · exact absurd hzero (countP_concat hmint ▸ hne)
  | @settles r q hmint hr hpending hq hne hother =>
    refine ⟨hrun, fun q' hq' hstatus => ?_, fun hne => ?_, (countP_concat hmint).trans_le hs.once⟩
    · obtain rfl := Option.mem_unique hq hq'
      exact absurd hstatus hother
    · exact absurd (hnone hr (by simp [hpending])) (countP_concat hmint ▸ hne)
  | @burns r minted hevent hburned hq hamount =>
    have hmint : mintsFor id record = false := by simp [mintsFor, hevent]
    refine ⟨hrun, fun q' hq' hstatus => ?_, fun hne => ?_, (countP_concat hmint).trans_le hs.once⟩
    · exact ⟨r, minted, hamount, records, record, [], s, s', rfl, hevent, hs.run, hstep, .nil s',
        hburned⟩
    · exact absurd (hnone hburned.stored (by simp [hburned.pending])) (countP_concat hmint ▸ hne)
  | @mints r q o p hevent hr hstatus hq htrue =>
    have hmint : mintsFor id record = true := by simp [mintsFor, hevent]
    refine ⟨hrun, fun q' hq' hstatus' => ?_, fun _ => ⟨q, hq, htrue⟩, ?_⟩
    · obtain rfl := Option.mem_unique hq hq'
      rw [htrue] at hstatus'
      cases hstatus'
    · rw [List.countP_append, hnone hr (by simp [hstatus])]
      simp [hmint]

theorem run_reimbursed (hR : R.tokens.Lawful) (hgenesis : IsGenesis s₀)
    (hrun : Run (Step R W) s₀ records s) (hnodup : (drawnIds records).Nodup) (id : H256) :
    Sound s ∧ Reimbursed R W s₀ id s records := by
  have hinv := identified_invariant (g := fun record => record)
    (P := fun s records => Reimbursed R W s₀ id s records) hR (fun _ _ _ h => h) hgenesis ?_ ?_ hrun
    (by rwa [List.map_id'])
  · exact ⟨hinv.1.sound, hinv.2⟩
  · refine ⟨.nil s₀, fun q hq => ?_, fun hne => absurd rfl hne, Nat.zero_le _⟩
    simp [hgenesis.redeems] at hq
  · intro s records record s' hsound hs hstep hfresh
    exact hs.step hR hgenesis hsound hstep hfresh

end

/-- In every run whose request identifiers differ, the tokens of a redeem request are minted again at
most once; only after a cancellation that burned the tokens of the request; and no more of them than
were burned.  At the prices of the cancellation, what is minted is worth at most the collateral that
the cancellation took from the vault without the punishment fee. -/
theorem reimbursed_mint_bounded (R : Runtime B) (hR : R.tokens.Lawful) (W : Set CurrencyId)
    (s₀ s : Chain B) (records : List Record) (hgenesis : IsGenesis s₀)
    (hrun : Run (Step R W) s₀ records s) (hnodup : (drawnIds records).Nodup) (id : H256) :
    records.countP (mintsFor id) ≤ 1 ∧
    ∀ before record after, records = before ++ record :: after → mintsFor id record = true →
      ∃ s₁ s₂ r minted, Run (Step R W) s₀ before s₁ ∧ Step R W s₁ record s₂ ∧
        Run (Step R W) s₂ after s ∧ BurnedBefore R W s₀ before s₁ id r minted ∧
        R.tokens.totalIssuance s₂.tokens r.vault.wrappedCurrency =
          R.tokens.totalIssuance s₁.tokens r.vault.wrappedCurrency + minted := by
  refine ⟨(run_reimbursed hR hgenesis hrun hnodup id).2.once, ?_⟩
  rintro before record after rfl hmint
  obtain ⟨s₁, hbefore, hrest⟩ := Run.append_iff.mp hrun
  obtain ⟨s₂, hstep, hafter⟩ := Run.cons_iff.mp hrest
  have hprefix : (drawnIds before).Nodup := by
    rw [drawnIds, List.filterMap_append] at hnodup
    exact (List.nodup_append.mp hnodup).1
  obtain ⟨hsound, hs⟩ := run_reimbursed hR hgenesis hbefore hprefix id
  obtain ⟨o, p, hevent⟩ := mintsFor_eq_true.mp hmint
  cases hstep with
  | environment h => cases hevent
  | extrinsic h =>
    obtain ⟨rfl, rfl⟩ := Event.extrinsic.inj hevent
    obtain ⟨q, hq, hstatus, -⟩ := mintTokensForReimbursedRedeem_settled hR hsound.keyed h
    obtain ⟨r, minted, hstored, hburned⟩ := hs.waiting q hq hstatus
    exact ⟨s₁, s₂, r, minted, hbefore, .extrinsic h, hafter, hburned,
      mintTokensForReimbursedRedeem_mints hR hsound.keyed hstored h⟩

/-- The price drops, the redeem request of account 4 is cancelled, and the vault gets more
collateral after a while. -/
def reimbursing : List Record :=
  redeeming ++ [elapsing, signed 4 (.redeem (.cancelRedeem 2 true)),
    elapsing, signed 1 (.vaultRegistry (.depositCollateral samplePair 10000000))]

/-- Account 1 mints the tokens again. -/
def minting : Record := signed 1 (.redeem (.mintTokensForReimbursedRedeem samplePair 2))

/-- The tokens were burned by the cancellation. -/
theorem reimbursed_mint_bounded_minting :
    ∃ s s₁ s₂ r minted, Run (Step sampleRuntime ∅) sampleGenesis (reimbursing ++ [minting]) s ∧
      Step sampleRuntime ∅ s₁ minting s₂ ∧
      BurnedBefore sampleRuntime ∅ sampleGenesis reimbursing s₁ 2 r minted ∧
      sampleRuntime.tokens.totalIssuance s₂.tokens r.vault.wrappedCurrency =
        sampleRuntime.tokens.totalIssuance s₁.tokens r.vault.wrappedCurrency + minted := by
  obtain ⟨s, hrun, -⟩ : ∃ s,
      Run (Step sampleRuntime ∅) sampleGenesis (reimbursing ++ [minting]) s ∧ True :=
    run_of_replay environmentStep_samplePriceDrop (by decide +kernel)
  obtain ⟨-, hminted⟩ := reimbursed_mint_bounded sampleRuntime sampleRuntime_lawful ∅ sampleGenesis s
    _ sampleGenesis_isGenesis hrun (by decide) 2
  obtain ⟨s₁, s₂, r, minted, -, hstep, -, hburned, hissuance⟩ :=
    hminted reimbursing minting [] rfl (by decide)
  exact ⟨s, s₁, s₂, r, minted, hrun, hstep, hburned, hissuance⟩

end Spacewalk.Ledger
