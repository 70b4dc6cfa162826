import Spacewalk.Foundation.WindowCounter
import Spacewalk.Ledger.RedeemCalls
import Spacewalk.Ledger.Surroundings
import Spacewalk.Runtime.Replay

/-!
# The rate limits of the issue and of the redeem pallet

Both pallets limit the volume per interval of blocks.  A request compares its amount with what is
left of the current interval and resets the counter in a new interval (`check_volume`); an
execution adds its amount to the counter (`increase_interval_volume`) and checks nothing.

The storage of a limit is a counter per window, `WindowCounter`, and the calls are its steps
(`LimitStep.counter_step`): a request rolls it, an execution adds to it.  The volume of every
interval is therefore within the limit in every run whose executions find the counter in the
current interval and with enough room (`executed_volume_le`).  The pallets do not see to either:
`two_redeems_exceed_limit` executes two requests that were both accepted before the first was
executed.
-/

namespace Spacewalk

open Foundation VaultRegistry
open Stellar (Bytes)

variable {B : Type} {R : Runtime B} {s s' : Chain B} {u : Unit}

/-! ## What the calls leave as it is -/

/-- The part of the state that a rate limit depends on. -/
structure Limits where
  system : System
  parachainStatus : StatusCode
  oracle : Oracle.Storage
  issue : RateLimit
  redeem : RateLimit

def Chain.limits (s : Chain B) : Limits :=
  ⟨s.system, s.security.parachainStatus, s.oracle, s.issue.rateLimit, s.redeem.rateLimit⟩

def SameLimits (s s' : Chain B) : Prop := s'.limits = s.limits

instance sameLimits_refl : Std.Refl (SameLimits (B := B)) := ⟨fun _ => rfl⟩

instance sameLimits_trans : IsTrans (Chain B) SameLimits := ⟨fun _ _ _ h h' => Eq.trans h' h⟩

theorem SameSurroundings.sameLimits (h : SameSurroundings s s') : SameLimits s s' := by
  have hsystem : s'.system = s.system := congrArg Surroundings.system h
  have hstatus : s'.security.parachainStatus = s.security.parachainStatus :=
    congrArg Surroundings.parachainStatus h
  have horacle : s'.oracle = s.oracle := congrArg Surroundings.oracle h
  have hissue : s'.issue = s.issue := congrArg Surroundings.issue h
  have hredeem : s'.redeem = s.redeem := congrArg Surroundings.redeem h
  simp only [SameLimits, Chain.limits, hsystem, hstatus, horacle, hissue, hredeem]

/-- What leaves the surroundings as they are leaves the limits as they are. -/
theorem limits_steady (R : Runtime B) : Ledger.Steady R SameLimits :=
  steady_of_surroundings fun _ _ h => h.sameLimits

theorem SameLimits.system_eq (h : SameLimits s s') : s'.system = s.system :=
  congrArg Limits.system h

/-- Conversions into the currency of a limit are the same. -/
theorem SameLimits.convert_eq (h : SameLimits s s') (l : RateLimit) (a : Amount) :
    l.convertIntoLimitCurrencyIdAmount R a s' = l.convertIntoLimitCurrencyIdAmount R a s := by
  have hstatus : s'.security.parachainStatus = s.security.parachainStatus :=
    congrArg Limits.parachainStatus h
  have horacle : s'.oracle = s.oracle := congrArg Limits.oracle h
  unfold RateLimit.convertIntoLimitCurrencyIdAmount Oracle.convert Oracle.getPrice
    Security.ensureParachainStatusRunning
  rw [hstatus, horacle]

theorem getSecureId_sameLimits : Respects SameLimits (Security.getSecureId R) :=
  .bind (.modify fun _ => rfl) fun _ => .gets fun _ => .pure _

/-! ## The functions of the limit -/

namespace RateLimit

variable {limitL : Lens (Chain B) RateLimit} {l : RateLimit} {a : Amount} {e : DispatchError}
  {L n : ℕ}

def counter (l : RateLimit) : WindowCounter := ⟨l.lastIntervalIndex, l.currentVolumeAmount⟩

/-- The limit is `L` for every interval of `n` blocks. -/
def Is (l : RateLimit) (L n : ℕ) : Prop :=
  l.limitVolumeAmount = some L ∧ l.intervalLength = n

instance decidableIs : Decidable (l.Is L n) := inferInstanceAs (Decidable (_ ∧ _))

/-- `check_volume` rolls the counter. -/
theorem checkVolume_returns (hlimit : (limitL.get s).Is L n) (hn : 0 < n)
    (h : Returns (checkVolume R limitL e a) s u s') :
    ∃ l, s' = limitL.put s l ∧ l.Is L n ∧
      l.counter = (limitL.get s).counter.roll (s.system.blockNumber / n) := by
  obtain ⟨hL, rfl⟩ := hlimit
  simp only [checkVolume, returns_rules] at h
  obtain ⟨_, _, ⟨rfl, rfl⟩, h⟩ := h
  simp only [hL, returns_rules, if_neg hn.ne'] at h
  obtain ⟨_, _, ⟨rfl, rfl⟩, _, _, rfl, _, _, ⟨-, rfl⟩, -, rfl⟩ := h
  refine ⟨_, rfl, ?_⟩
  by_cases hindex : (limitL.get s).lastIntervalIndex =
      s.system.blockNumber / (limitL.get s).intervalLength
  · simp only [hindex, ne_eq, not_true, if_false, WindowCounter.roll, counter, if_true]
    exact ⟨⟨hL, rfl⟩, trivial⟩
  · simp only [ne_eq, Option.some.injEq, Ne.symm hindex, not_false_iff, if_true,
      WindowCounter.roll, counter, hindex, if_false, Option.getD_some]
    exact ⟨⟨rfl, rfl⟩, trivial⟩

/-- `increase_interval_volume` adds to the counter. -/
theorem increaseIntervalVolume_returns (hlimit : (limitL.get s).Is L n)
    (h : Returns (increaseIntervalVolume R limitL a) s u s') :
    ∃ volume, (limitL.get s).convertIntoLimitCurrencyIdAmount R a s = .ok volume ∧
      s' = limitL.put s { (limitL.get s) with
        currentVolumeAmount :=
          min ((limitL.get s).currentVolumeAmount + volume.amount) (balanceBound - 1) } := by
  simp only [increaseIntervalVolume, returns_rules] at h
  obtain ⟨_, _, ⟨rfl, rfl⟩, h⟩ := h
  simp only [hlimit.1, Option.isSome_some, if_true, returns_rules] at h
  obtain ⟨volume, _, ⟨hvolume, rfl⟩, rfl⟩ := h
  refine ⟨volume, hvolume, ?_⟩
  simp only [hlimit.1]

end RateLimit

/-! ## Requests -/

namespace Redeem

/-- A redeem request checks the volume, and then leaves the limits as they are. -/
theorem requestRedeem_limits {o : Origin} {amount : ℕ} {address : StellarPublicKeyRaw}
    {v : VaultId} (h : Returns (requestRedeem R o amount address v) s u s') :
    ∃ s₁, Returns (RateLimit.checkVolume R rateLimitL (redeemErr .exceedLimitVolumeForRedeemRequest)
      ⟨amount, v.wrappedCurrency⟩) s () s₁ ∧ SameLimits s₁ s' := by
  unfold requestRedeem at h
  obtain ⟨redeemer, -, h⟩ := returns_liftM_bind.mp h
  obtain ⟨_, -, h⟩ := returns_liftM_bind.mp h
  obtain ⟨_, s₁, hcheck, h⟩ := returns_bind.mp h
  refine ⟨s₁, hcheck, (?_ : Respects SameLimits _) _ _ _ h⟩
  refine .reads fun _ => .gets fun s => .lift fun _ => .lift fun _ => ?_
  refine .reads fun fee => .lift fun fee => .lift fun burned => ?_
  refine .bind (.withError _ (.liftM _)) fun received => .reads fun _ => .gets fun s => ?_
  refine .lift fun _ => .lift fun _ => ?_
  refine .bind ((limits_steady R).tryIncreaseToBeRedeemedTokens _ _) fun _ => ?_
  refine .bind ((limits_steady R).tokens _) fun _ => ?_
  refine .bind getSecureId_sameLimits fun id => .reads fun premium => ?_
  refine .bind ((limits_steady R).releaseReplaceCollateral _ _) fun _ => .gets fun s => ?_
  exact .modify fun _ => rfl

/-- The tokens that the execution of a redeem request burns. -/
def RedeemRequest.burnedAmount (r : RedeemRequest) : Amount := ⟨r.amount + r.transferFee, r.asset⟩

/-- The execution of a redeem request counts the burned amount, and otherwise leaves the limits as
they are. -/
theorem executeRedeem_limits {o : Origin} {id : H256} {envelope scp set : Bytes}
    (h : Returns (executeRedeem R o id envelope scp set) s u s') :
    ∃ r s₁ s₂, s.redeem.redeemRequests id = some r ∧ SameLimits s s₁ ∧
      Returns (RateLimit.increaseIntervalVolume R rateLimitL r.burnedAmount) s₁ () s₂ ∧
      SameLimits s₂ s' := by
  simp only [executeRedeem, returns_guards] at h
  obtain ⟨_, -, r, hr, _, -, _, -, _, -, -, burned, hburned, _, s₁, hburn, _, s₂, hvolume, _, s₃,
    hfee, _, s₄, hredeem, hstatus⟩ := h
  obtain ⟨-, -, rfl⟩ := Amount.checkedAdd_eq_ok.mp hburned
  obtain rfl := returns_modify.mp hstatus
  refine ⟨r, s₁, s₂, ?_, (limits_steady R).burnFrom _ _ _ _ _ hburn, hvolume, ?_⟩
  · exact (Ledger.getOpenRedeemRequestFromId_stored hr).1
  · exact trans_of SameSurroundings ((surroundings_steady R).collectFee _ _ _ _ hfee)
      ((surroundings_steady R).redeemTokens _ _ _ _ _ _ _ hredeem) |>.sameLimits

end Redeem

namespace Issue

variable {id : H256} {r r' : IssueRequest} {paid expected : Amount}

/-- The limits are the same, and the request that is stored has the amount of the copy `r`. -/
structure Adapts (id : H256) (r : IssueRequest) (s s' : Chain B) : Prop where
  limits : SameLimits s s'
  stored : ∃ q, s'.issue.issueRequests id = some q ∧ q.userAmount = r.userAmount

theorem Adapts.of_surroundings (h : Adapts id r s s') {s'' : Chain B}
    (h' : SameSurroundings s' s'') : Adapts id r s s'' where
  limits := trans_of SameLimits h.limits h'.sameLimits
  stored := by
    have hissue : s''.issue = s'.issue := congrArg Surroundings.issue h'
    rw [hissue]
    exact h.stored

theorem Adapts.refl (hr : s.issue.issueRequests id = some r) : Adapts id r s s :=
  ⟨refl_of SameLimits s, r, hr, rfl⟩

theorem setIssueAmount_adapts {s₁ : Chain B} (hsame : SameSurroundings s s₁)
    (hr : s.issue.issueRequests id = some r) (h : Returns (setIssueAmount id r paid) s₁ r' s') :
    Adapts id r' s s' := by
  simp only [setIssueAmount, mutateIssueRequest, returns_guards] at h
  obtain ⟨fee, -, rest, -, rfl, rfl⟩ := h
  have hissue : s₁.issue = s.issue := congrArg Surroundings.issue hsame
  refine ⟨trans_of SameLimits hsame.sameLimits rfl, { r with amount := rest.amount }, ?_, rfl⟩
  simp [Chain.mapIssue, hissue, hr]

theorem decreaseIssueAmount_adapts {p : Amount × IssueRequest}
    (hr : s.issue.issueRequests id = some r)
    (h : Returns (decreaseIssueAmount R id r paid expected) s p s') : Adapts id p.2 s s' := by
  simp only [decreaseIssueAmount, returns_steps] at h
  obtain ⟨deficit, -, _, s₁, hdecrease, _, -, _, -, _, s₂, htransfer, r', _, hset, rfl, rfl⟩ := h
  refine setIssueAmount_adapts ?_ hr hset
  exact trans_of SameSurroundings
    ((surroundings_steady R).decreaseToBeIssuedTokens _ _ _ _ _ hdecrease)
    ((surroundings_steady R).transferFunds _ _ _ _ _ _ htransfer)

theorem tryIncreaseIssueAmount_adapts (hr : s.issue.issueRequests id = some r)
    (h : Returns (tryIncreaseIssueAmount R id r paid expected) s r' s') : Adapts id r' s s' := by
  simp only [tryIncreaseIssueAmount, returns_steps] at h
  obtain ⟨_, -, _, -, _, -, result, s₁, hattempt, h⟩ := h
  rcases returns_attempt hattempt with ⟨_, rfl, hincrease⟩ | ⟨rfl, rfl, -⟩
  · simp only [returns_rules] at h
    obtain ⟨_, _, ⟨-, rfl⟩, hset⟩ := h
    exact setIssueAmount_adapts
      ((surroundings_steady R).tryIncreaseToBeIssuedTokens _ _ _ _ _ hincrease) hr hset
  · obtain ⟨rfl, rfl⟩ := returns_pure.mp h
    exact .refl hr

/-- The amount of the copy that `_handle_issue_requests` returns is the amount that is stored. -/
theorem handleIssueRequests_adapts {executor : AccountId} (hr : s.issue.issueRequests id = some r)
    (h : Returns (handleIssueRequests R executor id r paid) s r' s') : Adapts id r' s s' := by
  obtain ⟨expected, -, h⟩ := Ledger.handleIssueRequests_cases h
  rcases h with ⟨-, s₁, hincrease, h⟩ | ⟨-, -, -, p, s₁, hdecrease, rfl, hunlock⟩ |
    ⟨-, -, s₁, hunlock, h⟩
  · have hsame := (surroundings_steady R).tryIncreaseToBeIssuedTokens _ _ _ _ _ hincrease
    rcases h with ⟨-, hset⟩ | ⟨-, rfl, rfl⟩
    · exact setIssueAmount_adapts hsame hr hset
    · exact (Adapts.refl hr).of_surroundings hsame
  · exact (decreaseIssueAmount_adapts hr hdecrease).of_surroundings
      ((surroundings_steady R).unlockOn _ _ _ _ _ hunlock)
  · refine Adapts.of_surroundings ?_ ((surroundings_steady R).unlockOn _ _ _ _ _ hunlock)
    rcases h with ⟨-, rfl, rfl⟩ | ⟨-, -, hincrease⟩
    · exact .refl hr
    · exact tryIncreaseIssueAmount_adapts hr hincrease

/-- An issue request checks the volume, and then leaves the limits as they are. -/
theorem requestIssue_limits {o : Origin} {amount : ℕ} {v : VaultId}
    (h : Returns (requestIssue R o amount v) s u s') :
    ∃ s₁, Returns (RateLimit.checkVolume R rateLimitL (issueErr .exceedLimitVolumeForIssueRequest)
      ⟨amount, v.wrappedCurrency⟩) s () s₁ ∧ SameLimits s₁ s' := by
  unfold requestIssue at h
  obtain ⟨requester, -, h⟩ := returns_liftM_bind.mp h
  obtain ⟨_, -, h⟩ := returns_liftM_bind.mp h
  obtain ⟨_, s₁, hcheck, h⟩ := returns_bind.mp h
  refine ⟨s₁, hcheck, (?_ : Respects SameLimits _) _ _ _ h⟩
  refine .reads fun vault => .lift fun _ => .reads fun _ => ?_
  refine .reads fun collateral => .reads fun griefing => ?_
  refine .bind ((limits_steady R).tokens _) fun _ => .gets fun s => ?_
  refine .lift fun _ => .lift fun _ => ?_
  refine .bind ((limits_steady R).tryIncreaseToBeIssuedTokens _ _) fun _ => ?_
  refine .reads fun fee => .lift fun fee => .lift fun user => ?_
  refine .bind getSecureId_sameLimits fun id => .reads fun key => .gets fun s => ?_
  exact .modify fun _ => rfl

/-- The execution of an issue request counts what is minted to the requester, which is the amount that
is stored afterwards, and otherwise leaves the limits as they are. -/
theorem executeIssue_limits {o : Origin} {envelope scp set : Bytes}
    (h : Returns (executeIssue R o id envelope scp set) s u s') :
    ∃ r s₁ s₂, s'.issue.issueRequests id = some r ∧ SameLimits s s₁ ∧
      Returns (RateLimit.increaseIntervalVolume R rateLimitL r.userAmount) s₁ () s₂ ∧
      SameLimits s₂ s' := by
  simp only [executeIssue, returns_steps] at h
  obtain ⟨_, -, r, hr, _, -, paid, -, r₁, s₁, hhandle, total, -, _, s₂, hissue, _, s₃, hmint, _, s₄,
    hvolume, _, s₅, hfee, _, s₆, hdistribute, hset⟩ := h
  obtain ⟨hstored, -⟩ := Ledger.getExecutableIssueRequestFromId_stored hr
  have hbefore : Adapts id r₁ s s₃ :=
    ((handleIssueRequests_adapts hstored hhandle).of_surroundings
      ((surroundings_steady R).issueTokens _ _ _ _ _ hissue)).of_surroundings
      ((surroundings_steady R).tokens _ _ _ _ hmint)
  have hafter : SameSurroundings s₄ s₆ :=
    trans_of SameSurroundings ((surroundings_steady R).tokens _ _ _ _ hfee)
      ((surroundings_steady R).distributeRewards _ _ _ _ hdistribute)
  -- the counter is not part of the stored request, nor is the status part of its amount
  have hrequests : s₆.issue.issueRequests = s₃.issue.issueRequests :=
    (congrArg (fun t => t.issue.issueRequests) hafter).trans
      (Ledger.increaseIntervalVolume_respects (Ledger.issueRateLimit_frame (R := R)) _ _ _ _ hvolume).issues
  obtain ⟨q, hq, hamount⟩ := hbefore.stored
  obtain rfl := returns_modify.mp hset
  refine ⟨{ q with status := .completed }, s₃, s₄, ?_, hbefore.limits, ?_, hafter.sameLimits⟩
  · simp [Chain.mapIssue, hrequests, hq]
  · change Returns (RateLimit.increaseIntervalVolume R rateLimitL q.userAmount) s₃ () s₄
    rw [hamount]
    exact hvolume

end Issue

/-! ## Runs -/

inductive LimitedPallet where
  | issue
  | redeem

def LimitedPallet.limitL : LimitedPallet → Lens (Chain B) RateLimit
  | issue => Issue.rateLimitL
  | redeem => Redeem.rateLimitL

def LimitedPallet.limit (p : LimitedPallet) (s : Chain B) : RateLimit := p.limitL.get s

theorem SameLimits.limit_eq (h : SameLimits s s') (p : LimitedPallet) : p.limit s' = p.limit s := by
  cases p with
  | issue => exact congrArg Limits.issue h
  | redeem => exact congrArg Limits.redeem h

/-- An execution: the block, and the amount in the currency of the limit. -/
structure Execution where
  block : ℕ
  volume : ℕ
  deriving DecidableEq

/-- A step of the chain as seen from the limit of a pallet.  The label records an execution, with the
burned amount of a redeem request or the minted amount of an issue request.  Any other step
leaves the storage of the limit as it is, and no step goes back to an earlier block. -/
inductive LimitStep (R : Runtime B) : LimitedPallet → Chain B → Option Execution → Chain B → Prop
  | requestRedeem {s s' : Chain B} {o : Origin} {amount : ℕ} {address : StellarPublicKeyRaw}
      {v : VaultId} : Returns (Redeem.requestRedeem R o amount address v) s () s' →
      LimitStep R .redeem s none s'
  | executeRedeem {s s' : Chain B} {o : Origin} {id : H256} {envelope scp set : Bytes}
      {r : Redeem.RedeemRequest} {volume : Amount} :
      Returns (Redeem.executeRedeem R o id envelope scp set) s () s' →
      s.redeem.redeemRequests id = some r →
      s.redeem.rateLimit.convertIntoLimitCurrencyIdAmount R r.burnedAmount s = .ok volume →
      LimitStep R .redeem s (some ⟨s.system.blockNumber, volume.amount⟩) s'
  | requestIssue {s s' : Chain B} {o : Origin} {amount : ℕ} {v : VaultId} :
      Returns (Issue.requestIssue R o amount v) s () s' → LimitStep R .issue s none s'
  | executeIssue {s s' : Chain B} {o : Origin} {id : H256} {envelope scp set : Bytes}
      {r : Issue.IssueRequest} {volume : Amount} :
      Returns (Issue.executeIssue R o id envelope scp set) s () s' →
      s'.issue.issueRequests id = some r →
      s.issue.rateLimit.convertIntoLimitCurrencyIdAmount R r.userAmount s = .ok volume →
      LimitStep R .issue s (some ⟨s.system.blockNumber, volume.amount⟩) s'
  | other {s s' : Chain B} {p : LimitedPallet} : p.limit s' = p.limit s →
      s.system.blockNumber ≤ s'.system.blockNumber → LimitStep R p s none s'

/-- The volume that is executed in the interval `i` of `n` blocks. -/
def executedIn (n i : ℕ) (labels : List (Option Execution)) : ℕ :=
  (labels.map fun label => match label with
    | some e => if e.block / n = i then e.volume else 0
    | none => 0).sum

/-- At an execution the counter stands in the current interval and has room for the volume. -/
def HasRoom (L : ℕ) (l : RateLimit) (label : Option Execution) : Prop :=
  ∀ e, label = some e → l.lastIntervalIndex = e.block / l.intervalLength ∧
    l.currentVolumeAmount + e.volume ≤ L

section

variable {p : LimitedPallet} {L n : ℕ} {label : Option Execution}

/-- A label of the chain as a label of the counter. -/
def windowOf (n : ℕ) : Option Execution → Option (ℕ × ℕ)
  | some e => some (e.block / n, e.volume)
  | none => none

/-- The counter of a pallet in a state, with the current interval. -/
def counterOf (p : LimitedPallet) (n : ℕ) (s : Chain B) : ℕ × WindowCounter :=
  (s.system.blockNumber / n, (p.limit s).counter)

/-- A request is a roll of the counter. -/
theorem request_step {e : DispatchError} {a : Amount} {s₁ : Chain B} (hn : 0 < n)
    (hlimit : (p.limit s).Is L n)
    (hcheck : Returns (RateLimit.checkVolume R p.limitL e a) s () s₁) (hsame : SameLimits s₁ s') :
    (p.limit s').Is L n ∧
      WindowCounter.Step L (counterOf p n s) none (counterOf p n s') := by
  obtain ⟨l, rfl, hl, hcounter⟩ := RateLimit.checkVolume_returns hlimit hn hcheck
  have hsystem : s'.system = s.system := by
    rw [hsame.system_eq]
    cases p <;> rfl
  have hafter : p.limit s' = l := by
    rw [hsame.limit_eq]
    cases p <;> rfl
  refine ⟨hafter ▸ hl, ?_⟩
  rw [counterOf, counterOf, hsystem, hafter, hcounter]
  exact .roll

/-- An execution adds to the counter. -/
theorem execute_step {a volume : Amount} {s₁ s₂ : Chain B} (hL : L < balanceBound)
    (hlimit : (p.limit s).Is L n) (hbefore : SameLimits s s₁)
    (hvolume : Returns (RateLimit.increaseIntervalVolume R p.limitL a) s₁ () s₂)
    (hsame : SameLimits s₂ s')
    (hconvert : (p.limit s).convertIntoLimitCurrencyIdAmount R a s = .ok volume)
    (hroom : HasRoom L (p.limit s) (some ⟨s.system.blockNumber, volume.amount⟩)) :
    (p.limit s').Is L n ∧ WindowCounter.Step L (counterOf p n s)
      (some (s.system.blockNumber / n, volume.amount)) (counterOf p n s') := by
  have hlimit₁ := hbefore.limit_eq p
  have hlimit' : (p.limit s₁).Is L n := hlimit₁ ▸ hlimit
  obtain ⟨volume', hvolume', rfl⟩ := RateLimit.increaseIntervalVolume_returns hlimit' hvolume
  change (p.limit s₁).convertIntoLimitCurrencyIdAmount R a s₁ = .ok volume' at hvolume'
  rw [hlimit₁, hbefore.convert_eq, hconvert] at hvolume'
  obtain rfl := Except.ok.inj hvolume'
  obtain ⟨hwindow, hfits⟩ := hroom _ rfl
  change (p.limit s).currentVolumeAmount + volume.amount ≤ L at hfits
  -- within the limit the sum does not saturate
  have hsum : min ((p.limit s).currentVolumeAmount + volume.amount) (balanceBound - 1) =
      (p.limit s).currentVolumeAmount + volume.amount := by
    apply min_eq_left
    omega
  have hsystem : s'.system = s.system := by
    rw [hsame.system_eq, ← hbefore.system_eq]
    cases p <;> rfl
  have hafter : p.limit s' = { (p.limit s) with
      currentVolumeAmount := (p.limit s).currentVolumeAmount + volume.amount } := by
    rw [← hsum, ← hlimit₁, hsame.limit_eq]
    cases p <;> rfl
  rw [hlimit.2] at hwindow
  refine ⟨hafter ▸ hlimit, ?_⟩
  rw [counterOf, counterOf, hsystem, hafter]
  exact .add hwindow hfits

/-- Every step is a step of the counter. -/
theorem LimitStep.counter_step (hL : L < balanceBound) (hn : 0 < n) (hlimit : (p.limit s).Is L n)
    (hstep : LimitStep R p s label s') (hroom : HasRoom L (p.limit s) label) :
    (p.limit s').Is L n ∧
      WindowCounter.Step L (counterOf p n s) (windowOf n label) (counterOf p n s') := by
  cases hstep with
  | requestRedeem h =>
    obtain ⟨s₁, hcheck, hsame⟩ := Redeem.requestRedeem_limits h
    exact request_step hn hlimit hcheck hsame
  | executeRedeem h hr hconvert =>
    obtain ⟨r', s₁, s₂, hr', hbefore, hvolume, hsame⟩ := Redeem.executeRedeem_limits h
    obtain rfl := Option.mem_unique hr hr'
    exact execute_step hL hlimit hbefore hvolume hsame hconvert hroom
  | requestIssue h =>
    obtain ⟨s₁, hcheck, hsame⟩ := Issue.requestIssue_limits h
    exact request_step hn hlimit hcheck hsame
  | executeIssue h hr hconvert =>
    obtain ⟨r', s₁, s₂, hr', hbefore, hvolume, hsame⟩ := Issue.executeIssue_limits h
    obtain rfl := Option.mem_unique hr hr'
    exact execute_step hL hlimit hbefore hvolume hsame hconvert hroom
  | other hsame hblocks =>
    refine ⟨hsame ▸ hlimit, ?_⟩
    rw [counterOf, counterOf, hsame]
    exact .idle (Nat.div_le_div_right hblocks)

theorem volumeIn_windowOf (n i : ℕ) (labels : List (Option Execution)) :
    WindowCounter.volumeIn (labels.map (windowOf n)) i = executedIn n i labels := by
  induction labels with
  | nil => rfl
  | cons label labels ih =>
    rw [WindowCounter.volumeIn, List.map_cons, List.map_cons, List.sum_cons, Pi.add_apply, executedIn,
      List.map_cons, List.sum_cons]
    refine congrArg₂ (· + ·) ?_ ih
    cases label with
    | none => rfl
    | some e => simp [windowOf, WindowCounter.counted, Pi.single_apply, eq_comm]

end

/-- The sample genesis with a limit for redeem requests of 400000 in every interval of 1000 blocks. -/
def limitedGenesis : Chain SampleTokens :=
  { sampleGenesis with
    redeem := { sampleGenesis.redeem with rateLimit := ⟨some 400000, sampleWrapped, 0, 1000, 0⟩ } }

/-- Account 4 requests to redeem 300000 tokens. -/
def requesting300000 : ChainM SampleTokens Unit :=
  Redeem.requestRedeem sampleRuntime (.signed ⟨4⟩) 300000 ⟨7⟩ (sampleVault 1)

/-- The request with a small identifier is executed with a payment of 300000. -/
def executing300000 (id : UInt8) : ChainM SampleTokens Unit :=
  Redeem.executeRedeem sampleRuntime (.signed ⟨4⟩) id.toNat (paymentFor id 3) [] (paymentFor id 3)

/-- The execution of a request burns 300000 tokens in the first block. -/
def Burns300000 (id : UInt8) (s : Chain SampleTokens) : Prop :=
  s.system.blockNumber = 0 ∧ (s.redeem.redeemRequests id.toNat).map (fun r =>
    s.redeem.rateLimit.convertIntoLimitCurrencyIdAmount sampleRuntime r.burnedAmount s) =
      some (.ok ⟨300000, sampleWrapped⟩)

instance decidableBurns300000 (id : UInt8) (s : Chain SampleTokens) : Decidable (Burns300000 id s) :=
  inferInstanceAs (Decidable (_ ∧ _))

theorem executing_step {id : UInt8} {s s' : Chain SampleTokens} (hburns : Burns300000 id s)
    (h : Returns (executing300000 id) s () s') :
    LimitStep sampleRuntime .redeem s (some ⟨0, 300000⟩) s' := by
  obtain ⟨hblock, hburns⟩ := hburns
  obtain ⟨r, hr, hconvert⟩ := Option.map_eq_some_iff.mp hburns
  rw [← hblock]
  exact .executeRedeem h hr hconvert

end Spacewalk
