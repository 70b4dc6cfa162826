import Spacewalk.Ledger.Coverage

/-!
# What a call can do

Every successful call of the bridge pallets is a transition of one of a few kinds
(`Transition`): it posts a balanced entry, it settles or opens one request and posts a balanced
entry together with what the request counts, or it changes the status of a vault or opens a
new pool.  The exceptions are the registration of a vault (`Registers`), its recovery (`Recovers`)
and a withdrawal from a closed pool (`ClosedWithdrawal`).

Invariants of the chain are proved from this description and never from the calls themselves.
-/

namespace Spacewalk.Ledger

open Foundation VaultRegistry Staking Issue Redeem Replace
open Function (update update_apply update_of_ne update_self)
open Security (nextId)

variable {B : Type}

/-! ## Writing requests -/

/-- A request that is written. -/
inductive Write where
  | issue (id : H256) (request : IssueRequest)
  | redeem (id : H256) (request : RedeemRequest)
  | replace (id : H256) (request : ReplaceRequest)

/-- The spare tokens that a vault gives away, without having promised them, when a replace request
is executed: those of a request that was cancelled. -/
def takenBy : Option ReplaceRequest → VaultId → ℤ
  | some r => if r.status = .cancelled then Pi.single r.oldVault r.amount else 0
  | none => 0

variable (w : Write) {R : Runtime B} (s : Chain B)

namespace Write

/-- The identifier of the request. -/
def id : Write → H256
  | issue id _ => id
  | redeem id _ => id
  | replace id _ => id

/-- Write the request. -/
def apply : Chain B :=
  match w with
  | issue id r => s.mapIssue fun σ => { σ with
      issueRequests := update σ.issueRequests id (some r) }
  | redeem id r => s.mapRedeem fun σ => { σ with
      redeemRequests := update σ.redeemRequests id (some r) }
  | replace id r => s.mapReplace fun σ => { σ with
      replaceRequests := update σ.replaceRequests id (some r) }

/-- What the request counts. -/
def posting : Write → Posting
  | issue _ r => issuePosting (some r)
  | redeem _ r => redeemPosting (some r)
  | replace _ r => replacePosting (some r)

/-- What the request counted that is replaced. -/
def replaced : Posting :=
  match w with
  | issue id _ => issuePosting (s.issue.issueRequests id)
  | redeem id _ => redeemPosting (s.redeem.redeemRequests id)
  | replace id _ => replacePosting (s.replace.replaceRequests id)

/-- The spare tokens that a vault gives away without having promised them. -/
def taken : VaultId → ℤ :=
  match w with
  | replace id _ => takenBy (s.replace.replaceRequests id)
  | _ => 0

/-- The request is a new one. -/
def IsPending : Write → Prop
  | issue _ r => r.status = .pending
  | redeem _ r => r.status = .pending
  | replace _ r => r.status = .pending ∧ r.oldVault ≠ r.newVault

variable {R : Runtime B} {s s' : Chain B}

theorem requested_apply (w : Write) (s : Chain B) :
    requested (w.apply s) = requested s + (w.posting - w.replaced s) := by
  cases w with
  | issue id r =>
    simp only [requested, apply, Chain.mapIssue, posted_update, posting, replaced]
    abel
  | redeem id r =>
    simp only [requested, apply, Chain.mapRedeem, posted_update, posting, replaced]
    abel
  | replace id r =>
    simp only [requested, apply, Chain.mapReplace, posted_update, posting, replaced]
    abel

theorem recorded_apply (w : Write) (s : Chain B) : recorded R (w.apply s) = recorded R s := by
  funext account
  cases w <;> cases account <;> rfl

theorem replaced_congr (w : Write) (h : SameRequests s s') : w.replaced s' = w.replaced s := by
  cases w with
  | issue id r => rw [replaced, replaced, h.issues]
  | redeem id r => rw [replaced, replaced, h.redeems]
  | replace id r => rw [replaced, replaced, h.replaces]

/-- Only the books of requests change. -/
theorem apply_vaultRegistry (w : Write) (s : Chain B) :
    (w.apply s).vaultRegistry = s.vaultRegistry ∧ (w.apply s).staking = s.staking := by
  cases w <;> exact ⟨rfl, rfl⟩

end Write

/-- A request is settled: it was open, and it is written with a status that is not pending. -/
inductive Settles (s : Chain B) : Write → Prop
  | issue {id : H256} {r r' : IssueRequest} : s.issue.issueRequests id = some r →
      r.status ≠ .completed → r'.status ≠ .pending → Settles s (.issue id r')
  | redeem {id : H256} {r r' : RedeemRequest} : s.redeem.redeemRequests id = some r →
      r'.status ≠ .pending → Settles s (.redeem id r')
  | replace {id : H256} {r r' : ReplaceRequest} : s.replace.replaceRequests id = some r →
      r.status ≠ .completed → r'.status ≠ .pending →
      r'.oldVault = r.oldVault → r'.newVault = r.newVault → Settles s (.replace id r')

/-- Count a draw. -/
def drawn : Chain B :=
  { s with security := { s.security with nonce := s.security.nonce + 1 } }

theorem returns_getSecureId {s s' : Chain B} {id : H256} :
    Returns (Security.getSecureId R) s id s' ↔ nextId R s = id ∧ drawn s = s' := by
  simp only [Security.getSecureId, returns_guards]
  rfl

theorem recorded_drawn : recorded R (drawn s) = recorded R s := by
  funext account
  cases account <;> rfl

/-- The state with other issue requests and another number of draws. -/
def under (requests : H256 → Option IssueRequest) (n : BitVec 256) : Chain B :=
  { s with
    issue := { s.issue with issueRequests := requests }
    security := { s.security with nonce := n } }

section

variable {R : Runtime B} {s s' : Chain B} {T : Set VaultId} {δ : Posting}
  {requests : H256 → Option IssueRequest} {n : BitVec 256}

theorem recorded_under : recorded R (under s requests n) = recorded R s := by
  funext account
  cases account <;> rfl

/-- What is posted does not depend on the issue requests and the draws. -/
theorem Moves.under (h : Moves R T δ s s') :
    Moves R T δ (under s requests n) (under s' requests n) where
  issues := rfl
  redeems := h.redeems
  replaces := h.replaces
  drawn := rfl
  system := h.system
  balance := by rw [recorded_under, recorded_under, h.balance]
  vaults := h.vaults
  registered := h.registered
  nonce := h.nonce
  stakes := h.stakes
  whole := h.whole
  keyed := h.keyed.congr rfl rfl
  status := h.status

theorem nextId_congr (h : SameRequests s s') : nextId R s' = nextId R s := by
  rw [nextId, nextId, h.system, h.drawn]

theorem under_self (hissues : s.issue.issueRequests = requests) (hn : s.security.nonce = n) :
    Ledger.under s requests n = s := by
  subst hissues
  subst hn
  rfl

/-- What is posted after a draw can be posted before it. -/
theorem Moves.of_drawn (h : Moves R T δ (drawn s) s') :
    ∃ s₁, Moves R T δ s s₁ ∧ s' = Ledger.drawn s₁ := by
  refine ⟨Ledger.under s' s.issue.issueRequests s.security.nonce, h.under, ?_⟩
  have hissues : s.issue.issueRequests = s'.issue.issueRequests := h.issues.symm
  have hdraws : s.security.nonce + 1 = s'.security.nonce := h.drawn.symm
  simp only [Ledger.drawn, Ledger.under, hissues, hdraws]

end

/-! ## Transitions -/

/-- A pool is closed and the next one opened: the stake of the vault moves to the new pool, and
`n` tokens of the nominators stay in the closed one. -/
structure Refunds (R : Runtime B) (v : VaultId) (n : ℕ) (s s' : Chain B) : Prop
    extends SameRequests s s' where
  vaults : s'.vaultRegistry.vaults = s.vaultRegistry.vaults
  keyed : Keyed s'
  nonce : s'.staking.nonce = update s.staking.nonce v (s.staking.nonce v + 1)
  registered : statusOf s v ≠ none
  balance : recorded R s' = recorded R s + (on (.closed v) (scale * n) -
    on (.stake v) (scale * n) - on (.total v.currencies) n)
  closes : (s'.staking.totalCurrentStake (s.staking.nonce v, v)).inner = scale * n
  others : ∀ k w, (k, w) ≠ (s.staking.nonce v, v) → (k, w) ≠ (s.staking.nonce v + 1, v) →
    s'.staking.totalCurrentStake (k, w) = s.staking.totalCurrentStake (k, w)

/-- What a successful call can do, except the registration of a vault, its recovery and a withdrawal
from a closed pool.  The function says which spare tokens vaults give away without having promised them. -/
inductive Transition (R : Runtime B) (s : Chain B) : (VaultId → ℤ) → Chain B → Prop
  /-- Amounts move. -/
  | internal {T : Set VaultId} {δ : Posting} {s' : Chain B} : δ ∈ journal R (statusOf s) →
      Covers (statusOf s) (recorded R s) δ 0 → Moves R T δ s s' → Transition R s 0 s'
  /-- A request is settled. -/
  | settles {T : Set VaultId} {δ : Posting} {s₁ : Chain B} (w : Write) : Settles s w →
      δ + (w.posting - w.replaced s) ∈ journal R (statusOf s) →
      Covers (statusOf s) (recorded R s) δ (w.taken s) → Moves R T δ s s₁ →
      Transition R s (w.taken s) (w.apply s₁)
  /-- A request is opened. -/
  | opens {T : Set VaultId} {δ : Posting} {s₁ : Chain B} (w : Write) : w.IsPending →
      w.id = nextId R s → δ + w.posting ∈ journal R (statusOf s) →
      Covers (statusOf s) (recorded R s) δ 0 → Moves R T δ s s₁ →
      Transition R s 0 (w.apply (drawn s₁))
  /-- An active vault sets whether it accepts new issue requests. -/
  | activates {v : VaultId} {a a' : Bool} {s' : Chain B} : statusOf s v = some (.active a) →
      Posts R {v} 0 s s' →
      statusOf s' = update (statusOf s) v (some (.active a')) → Transition R s 0 s'
  /-- A vault is liquidated; before that, none of its tokens are to be replaced any more. -/
  | liquidates {T : Set VaultId} {δ : Posting} {d : Vault} {s₁ s' : Chain B} : δ ∈ funds R →
      Moves R T (-on (.vault d.id .toBeReplaced) (recorded R s (.vault d.id .toBeReplaced)) + δ) s
        s₁ →
      TokensMoved R d s₁ s' → Transition R s 0 s'
  /-- All nominators of a vault are refunded. -/
  | refunds {v : VaultId} {n : ℕ} {s' : Chain B} : Refunds R v n s s' → Transition R s 0 s'

/-- A request is settled, with a balanced entry. -/
def Settled (R : Runtime B) (s : Chain B) (w : Write) (s' : Chain B) : Prop :=
  Settles s w ∧ ∃ (T : Set VaultId) (δ : Posting) (s₁ : Chain B),
    δ + (w.posting - w.replaced s) ∈ journal R (statusOf s) ∧
    Covers (statusOf s) (recorded R s) δ (w.taken s) ∧ Moves R T δ s s₁ ∧ s' = w.apply s₁

theorem Settled.transition {s s' : Chain B} {w : Write} (h : Settled R s w s') :
    Transition R s (w.taken s) s' := by
  obtain ⟨hw, T, δ, s₁, hδ, hcovers, hmoves, rfl⟩ := h
  exact .settles w hw hδ hcovers hmoves

theorem Settles.congr {s s' : Chain B} {w : Write} (h : Settles s' w) (hsame : SameRequests s s') :
    Settles s w := by
  cases h with
  | issue hget hr hr' => exact .issue (hsame.issues ▸ hget) hr hr'
  | redeem hget hr' => exact .redeem (hsame.redeems ▸ hget) hr'
  | replace hget hr hr' hold hnew => exact .replace (hsame.replaces ▸ hget) hr hr' hold hnew

/-- A vault is registered with some collateral. -/
structure Registers (R : Runtime B) (v : VaultId) (n : ℕ) (s s' : Chain B) : Prop where
  unregistered : statusOf s v = none
  posts : Posts R {v} (backing v n) s s'
  status : statusOf s' = update (statusOf s) v (some (.active true))

/-- A liquidated vault without tokens to be redeemed becomes active. -/
structure Recovers (R : Runtime B) (v : VaultId) (s s' : Chain B) : Prop where
  liquidated : statusOf s v = some .liquidated
  redeemed : recorded R s (.vault v .toBeRedeemed) = 0
  posts : Posts R {v} 0 s s'
  status : statusOf s' = update (statusOf s) v (some (.active true))

/-- Collateral is withdrawn from a closed pool. -/
structure ClosedWithdrawal (R : Runtime B) (v : VaultId) (k : Nonce) (n : ℕ) (s s' : Chain B) :
    Prop extends SameRequests s s' where
  closed : k < s.staking.nonce v
  registered : statusOf s v ≠ none
  vaults : s'.vaultRegistry.vaults = s.vaultRegistry.vaults
  keyed : Keyed s'
  balance : recorded R s' = recorded R s - (on (.reserved v.currencies.collateral v.accountId) n +
    on (.closed v) (scale * n))
  stakes : StakeChanges s.staking s'.staking (k, v) (-(scale * n))

/-! ## Well-formed states -/

/-- The state is well formed: records are stored under their keys, the stake of pools is whole,
pools that are not open and pools of vaults that are not registered have no stake, and a vault
is not replaced by itself. -/
structure Sound (s : Chain B) : Prop where
  keyed : Keyed s
  whole : ∀ key, scale ∣ (s.staking.totalCurrentStake key).inner
  unopened : ∀ k v, s.staking.nonce v < k → (s.staking.totalCurrentStake (k, v)).inner = 0
  unregistered : ∀ k v, statusOf s v = none → (s.staking.totalCurrentStake (k, v)).inner = 0
  distinct : ∀ id r, s.replace.replaceRequests id = some r → r.oldVault ≠ r.newVault

section

variable {R : Runtime B} {s s' : Chain B} {T : Set VaultId} {δ : Posting}

theorem Posts.sound (h : Posts R T δ s s') (hs : Sound s) : Sound s' where
  keyed := h.keyed
  whole := by
    rintro ⟨k, v⟩
    by_cases hsame : s'.staking.totalCurrentStake (k, v) = s.staking.totalCurrentStake (k, v)
    · rw [hsame]
      exact hs.whole (k, v)
    · obtain ⟨rfl, -⟩ := h.stakes k v hsame
      have hstake := congrFun h.balance (.stake v)
      simp only [recorded, Pi.add_apply, h.nonce] at hstake
      rw [hstake]
      exact Int.dvd_add (hs.whole _) (h.whole v)
  unopened k v hk := by
    rw [h.nonce] at hk
    by_cases hsame : s'.staking.totalCurrentStake (k, v) = s.staking.totalCurrentStake (k, v)
    · rw [hsame]
      exact hs.unopened k v hk
    · exact absurd (h.stakes k v hsame).1 hk.ne'
  unregistered k v hv := by
    by_cases hsame : s'.staking.totalCurrentStake (k, v) = s.staking.totalCurrentStake (k, v)
    · rw [hsame]
      refine hs.unregistered k v ?_
      by_contra hreg
      exact h.registered v hreg hv
    · exact absurd hv (h.stakes k v hsame).2
  distinct := by
    rw [h.replaces]
    exact hs.distinct

/-- Writing a request keeps the state well formed. -/
theorem Sound.apply (hs : Sound s) (w : Write)
    (hw : ∀ id r, w = .replace id r → r.oldVault ≠ r.newVault) : Sound (w.apply s) := by
  obtain ⟨hregistry, hstaking⟩ := w.apply_vaultRegistry s
  have hstatus : statusOf (w.apply s) = statusOf s := statusOf_congr (by rw [hregistry])
  refine ⟨hs.keyed.congr (by rw [hregistry]) (by rw [hregistry]), ?_, ?_, ?_, ?_⟩
  · rw [hstaking]
    exact hs.whole
  · rw [hstaking]
    exact hs.unopened
  · rw [hstaking, hstatus]
    exact hs.unregistered
  · intro id r hr
    cases w with
    | issue => exact hs.distinct id r hr
    | redeem => exact hs.distinct id r hr
    | replace id' r' =>
      simp only [Write.apply, Chain.mapReplace, update_apply] at hr
      split at hr
      · obtain rfl := Option.some.inj hr
        exact hw id' r' rfl
      · exact hs.distinct id r hr

theorem Settles.distinct {w : Write} (h : Settles s w) (hs : Sound s) (id : H256)
    (r : ReplaceRequest) (hw : w = .replace id r) : r.oldVault ≠ r.newVault := by
  cases h with
  | issue => cases hw
  | redeem => cases hw
  | replace hget _ _ hold hnew =>
    cases hw
    rw [hold, hnew]
    exact hs.distinct _ _ hget

theorem Refunds.sound {v : VaultId} {n : ℕ} (h : Refunds R v n s s') (hs : Sound s) :
    Sound s' := by
  have hstatus : statusOf s' = statusOf s := statusOf_congr h.vaults
  -- the stake of the new pool is read off the books
  have hnew : (s'.staking.totalCurrentStake (s.staking.nonce v + 1, v)).inner =
      (s.staking.totalCurrentStake (s.staking.nonce v, v)).inner - scale * n := by
    have hstake := congrFun h.balance (.stake v)
    simp only [recorded, h.nonce, update_self, Pi.add_apply, Pi.sub_apply, on,
      Pi.single_apply, reduceCtorEq, if_false, if_true] at hstake
    omega
  have hstake : ∀ k w, (s'.staking.totalCurrentStake (k, w)).inner =
      if (k, w) = (s.staking.nonce v, v) then scale * n
      else if (k, w) = (s.staking.nonce v + 1, v) then
        (s.staking.totalCurrentStake (s.staking.nonce v, v)).inner - scale * n
      else (s.staking.totalCurrentStake (k, w)).inner := by
    intro k w
    split_ifs with hclosed hopened
    · rw [hclosed, h.closes]
    · rw [hopened, hnew]
    · rw [h.others k w hclosed hopened]
  refine ⟨h.keyed, ?_, ?_, ?_, ?_⟩
  · rintro ⟨k, w⟩
    rw [hstake]
    split_ifs
    · exact dvd_mul_right _ _
    · exact dvd_sub (hs.whole _) (dvd_mul_right _ _)
    · exact hs.whole _
  · intro k w hk
    rw [h.nonce, update_apply] at hk
    rw [hstake]
    by_cases hw : w = v
    · subst hw
      rw [if_pos rfl] at hk
      have hclosed : (k, w) ≠ (s.staking.nonce w, w) := by
        rintro ⟨⟩
        exact absurd hk (Nat.not_lt.mpr (Nat.le_succ _))
      have hopened : (k, w) ≠ (s.staking.nonce w + 1, w) := by
        rintro ⟨⟩
        exact absurd hk (lt_irrefl _)
      rw [if_neg hclosed, if_neg hopened]
      exact hs.unopened k w (Nat.lt_of_succ_lt hk)
    · rw [if_neg hw] at hk
      rw [if_neg (by simp [hw]), if_neg (by simp [hw])]
      exact hs.unopened k w hk
  · intro k w hw
    rw [hstatus] at hw
    have hne : w ≠ v := by
      rintro rfl
      exact h.registered hw
    rw [hstake, if_neg (by simp [hne]), if_neg (by simp [hne])]
    exact hs.unregistered k w hw
  · rw [h.replaces]
    exact hs.distinct

theorem Transition.sound {taken : VaultId → ℤ} (h : Transition R s taken s') (hs : Sound s) : Sound s' := by
  cases h with
  | internal _ _ h => exact h.toPosts.sound hs
  | settles w hw _ _ h =>
    exact (h.toPosts.sound hs).apply w (hw.distinct hs)
  | opens w hw _ _ _ h =>
    have hs₁ := h.toPosts.sound hs
    refine Sound.apply (s := drawn _) ⟨hs₁.keyed.congr rfl rfl, hs₁.whole, hs₁.unopened, hs₁.unregistered,
      hs₁.distinct⟩ w ?_
    rintro id r rfl
    exact hw.2
  | activates _ h _ => exact h.sound hs
  | liquidates _ h h' => exact h'.posts.sound (h.toPosts.sound hs)
  | refunds h => exact h.sound hs

theorem ClosedWithdrawal.sound {v : VaultId} {k : Nonce} {n : ℕ}
    (h : ClosedWithdrawal R v k n s s') (hs : Sound s) : Sound s' := by
  have hstatus : statusOf s' = statusOf s := statusOf_congr h.vaults
  obtain ⟨hnonce, c, hc, hstake⟩ := h.stakes
  refine ⟨h.keyed, ?_, ?_, ?_, ?_⟩
  · intro key
    rw [hstake, update_apply]
    split
    · rw [hc]
      exact Int.dvd_add (hs.whole _) (dvd_neg.mpr (dvd_mul_right _ _))
    · exact hs.whole key
  · intro j w hj
    rw [hnonce] at hj
    have hne : (j, w) ≠ (k, v) := by
      rintro ⟨⟩
      exact absurd h.closed hj.asymm
    rw [hstake, update_of_ne hne]
    exact hs.unopened j w hj
  · intro j w hw
    rw [hstatus] at hw
    have hne : (j, w) ≠ (k, v) := by
      rintro ⟨⟩
      exact h.registered hw
    rw [hstake, update_of_ne hne]
    exact hs.unregistered j w hw
  · rw [h.replaces]
    exact hs.distinct

end

end Spacewalk.Ledger
