import Spacewalk.Ledger.Promises
import Spacewalk.Ledger.VaultViews

/-!
# Settlement of liquidated vaults

A liquidation keeps a part of the collateral of the vault for its tokens to be redeemed.  Afterwards
the pending redeem requests of the vault and the replace requests that it has made are executed or
cancelled, and each of them releases its share of what is kept (`SettlesKept`).  What is kept and
the tokens to be redeemed are a pot as in `Foundation.Shares`.

Nothing is kept for an active vault, or without tokens to be redeemed (`Earmarked`).  Every step keeps
this: the shares are taken from the pot, and what a liquidation keeps is nothing if there is no token
to be redeemed.  So the settlements release exactly what was kept, in whatever order they come.
-/

namespace Spacewalk.Ledger

open Foundation VaultRegistry Redeem Replace Staking

variable {B : Type} {R : Runtime B} {W : Set CurrencyId} {s s' : Chain B} {v w : VaultId}
  {o : Origin} {u : Unit} {release : Release} {record : Record} {n : ℕ}

/-! ## What is kept -/

/-- The collateral that is kept, and if the vault is liquidated the tokens that it is kept for. -/
def custody (d : Vault) : ℕ × Option ℕ :=
  (d.liquidatedCollateral, if d.status = .liquidated then some d.toBeRedeemedTokens else none)

theorem custody_view : View custody where
  issued _ _ := rfl
  toBeIssued _ _ := rfl
  toBeRedeemed d n hactive := by simp [custody, Vault.setItem, hactive]
  banned _ _ := rfl
  threshold _ _ := rfl
  accepts d b hactive := by simp [custody, hactive]

theorem custody_replacing {σ : VaultId → Option (ℕ × Option ℕ)} :
    Replacing R (Preserves (Shows custody σ)) :=
  custody_view.replacing (fun _ _ => rfl) (fun _ _ => rfl) fun _ _ => rfl

theorem viewOf_custody (s : Chain B) (v : VaultId) : viewOf custody s v =
    (statusOf s v).map fun status => ((keptPot s v).amount,
      if status = .liquidated then some (keptPot s v).weight else none) := by
  rw [viewOf, statusOf, keptPot]
  cases s.vaultRegistry.vaults v <;> rfl

theorem custody_congr (hstatus : statusOf s' v = statusOf s v) (hpot : keptPot s' v = keptPot s v) :
    viewOf custody s' v = viewOf custody s v := by
  rw [viewOf_custody, hstatus, hpot, viewOf_custody]

theorem custody_of_liquidated (h : statusOf s v = some .liquidated) :
    viewOf custody s v = some ((keptPot s v).amount, some (keptPot s v).weight) := by
  rw [viewOf_custody, h]
  rfl

/-- For an active vault the tokens to be redeemed do not matter. -/
theorem custody_congr_active (hactive : statusOf s v ≠ some .liquidated)
    (hstatus : statusOf s' v = statusOf s v) (hkept : (keptPot s' v).amount = (keptPot s v).amount) :
    viewOf custody s' v = viewOf custody s v := by
  rw [viewOf_custody, viewOf_custody, hstatus, hkept]
  cases hv : statusOf s v with
  | none => rfl
  | some status =>
    have hne : status ≠ .liquidated := by
      rintro rfl
      exact hactive hv
    simp only [Option.map_some, if_neg hne]

/-- Nothing is kept for an active vault, or for no tokens. -/
def Earmarked (s : Chain B) : Prop := ∀ v c, viewOf custody s v = some c → c.2.getD 0 = 0 → c.1 = 0

theorem Earmarked.settled (hs : Earmarked s) (h : statusOf s v = some .liquidated) :
    (keptPot s v).Settled :=
  fun hzero => hs v _ (custody_of_liquidated h) hzero

/-! ## The settlement of a request -/

namespace Release

/-- The account of the books that shows where the collateral goes. -/
def account (v : VaultId) : Release → Account
  | .paid => .total v.currencies
  | .confiscated => .system v.currencies .collateral
  | .returned => .stake v

def change (n : ℤ) : Release → ℤ
  | .paid => -n
  | .confiscated => n
  | .returned => scale * n

theorem posting_account (release : Release) (v : VaultId) (n : ℤ) :
    release.posting R v n (release.account v) = release.change n := by
  cases release <;> simp [posting, account, change]

theorem posting_kept (release : Release) (v w : VaultId) (n : ℤ) :
    release.posting R v n (.vault w .liquidatedCollateral) = if w = v then -n else 0 := by
  cases release <;> by_cases h : w = v <;> simp [posting, h]

end Release

/-- Tokens to be redeemed of one vault are settled: if it is liquidated, their share of what is kept
is released. -/
structure SettlesKept (R : Runtime B) (release : Release) (w : VaultId) (n : ℕ) (s s' : Chain B) :
    Prop where
  status : statusOf s' = statusOf s
  others : ∀ v, v ≠ w → keptPot s' v = keptPot s v
  active : statusOf s w ≠ some .liquidated → (keptPot s' w).amount = (keptPot s w).amount
  liquidated : statusOf s w = some .liquidated → (keptPot s w).Settled →
    ∃ x, Takes (keptPot s w) (n, x) (keptPot s' w) ∧
      recorded R s' (release.account w) = recorded R s (release.account w) + release.change x

theorem funds_toBeRedeemed {φ : Posting} (hφ : φ ∈ funds R) (v : VaultId) :
    φ (.vault v .toBeRedeemed) = 0 :=
  funds_le_ker (f := balanceOn (.vault v .toBeRedeemed))
    (fun ε hε => by cases hε <;> simp [backing]) φ hφ

/-- What is paid out besides the other postings of a call settles the tokens. -/
theorem PaysOut.settlesKept {φ ψ : Posting} {T : Set VaultId} (hφ : PaysOut R release s w n φ)
    (h : Moves R T (ψ + φ) s s') (hkept : ∀ v, ψ (.vault v .liquidatedCollateral) = 0)
    (hothers : ∀ v, v ≠ w → ψ (.vault v .toBeRedeemed) = 0)
    (hredeemed : statusOf s w = some .liquidated → ψ (.vault w .toBeRedeemed) = -n)
    (hrelease : ψ (release.account w) = 0) : SettlesKept R release w n s s' := by
  have hbalance (account : Account) :
      recorded R s' account = recorded R s account + (ψ account + φ account) := by
    rw [h.balance]
    rfl
  have hamount (v : VaultId) : ((keptPot s' v).amount : ℤ) =
      (keptPot s v).amount + φ (.vault v .liquidatedCollateral) := by
    rw [keptPot_amount R, keptPot_amount R, hbalance, hkept, zero_add]
  have hweight (v : VaultId) : ((keptPot s' v).weight : ℤ) =
      (keptPot s v).weight + ψ (.vault v .toBeRedeemed) := by
    rw [keptPot_weight R, keptPot_weight R, hbalance, funds_toBeRedeemed hφ.mem, add_zero]
  refine ⟨h.status, fun v hv => h.keptPot_eq ?_ ?_, fun hactive => ?_, fun hliquidated hsettled => ?_⟩
  · rw [Pi.add_apply, hkept, zero_add]
    cases hφ with
    | active _ _ hzero => exact hzero v
    | liquidated _ _ => rw [release.posting_kept, if_neg hv]
  · rw [Pi.add_apply, hothers v hv, funds_toBeRedeemed hφ.mem, add_zero]
  · have hw := hamount w
    cases hφ with
    | active _ _ hzero =>
      rw [hzero] at hw
      omega
    | liquidated hliquidated _ => exact absurd hliquidated hactive
  · cases hφ with
    | active hactive _ _ => exact absurd hliquidated hactive
    | @liquidated x _ hshare =>
      have hw := hamount w
      have hw' := hweight w
      rw [release.posting_kept, if_pos rfl] at hw
      rw [hredeemed hliquidated] at hw'
      refine ⟨x, ⟨?_, ?_, hshare hsettled⟩, ?_⟩
      · simp only
        omega
      · simp only
        omega
      · rw [hbalance, hrelease, release.posting_account, zero_add]

/-- Writing a request leaves what is settled. -/
theorem SettlesKept.apply (h : SettlesKept R release w n s s') (write : Write) :
    SettlesKept R release w n s (write.apply s') := by
  obtain ⟨hregistry, -⟩ := write.apply_vaultRegistry s'
  have hpot (v : VaultId) : keptPot (write.apply s') v = keptPot s' v :=
    keptPot_congr (by rw [hregistry]) v
  refine ⟨(statusOf_write write s').trans h.status, fun v hv => (hpot v).trans (h.others v hv),
    fun hactive => ?_, fun hliquidated hsettled => ?_⟩
  · rw [hpot]
    exact h.active hactive
  · rw [hpot, write.recorded_apply]
    exact h.liquidated hliquidated hsettled

variable (σ : VaultId → Option VaultStatus) (r : ReplaceRequest)

section

variable (hR : R.tokens.Lawful) {id : H256}

/-- The other postings of a redeem request that is settled, with the tokens burned or not. -/
theorem redeem_settlesKept {r : RedeemRequest} {φ ψ : Posting} {T : Set VaultId} {s₁ : Chain B}
    {status : RedeemRequestStatus} (hr : s.redeem.redeemRequests id = some r)
    (hφ : PaysOut R release s r.vault (r.amount + r.transferFee) φ)
    (hψ : ψ = 0 ∨ ψ = on (.issuance r.vault.currencies.wrapped) (r.amount + r.transferFee) +
      on (issuedAt (statusOf s) r.vault) (r.amount + r.transferFee))
    (h : Moves R T (redeemReleased (statusOf s) r - ψ + φ) s s₁)
    (hset : Returns (setRedeemStatus id status) s₁ u s') :
    SettlesKept R release r.vault (r.amount + r.transferFee) s s' := by
  have hissued (x : Account) (hx : ∀ c, x ≠ .issuance c) (hv : ∀ v, x ≠ .vault v .issued)
      (hp : ∀ p, x ≠ .system p .issued) : ψ x = 0 := by
    rcases hψ with rfl | rfl
    · rfl
    · rw [issuedAt]
      split_ifs <;> simp [hx, hv, hp]
  obtain rfl := setRedeemStatus_writes (by rw [h.redeems, hr]) hset
  refine (hφ.settlesKept h (fun v => ?_) (fun v hv => ?_) (fun hliquidated => ?_) ?_).apply _
  · rw [Pi.sub_apply, hissued _ (by simp) (by simp) (by simp), redeemReleased, toBeRedeemedOn]
    split_ifs <;> simp
  · rw [Pi.sub_apply, hissued _ (by simp) (by simp) (by simp), redeemReleased, toBeRedeemedOn]
    split_ifs <;> simp [hv]
  · rw [Pi.sub_apply, hissued _ (by simp) (by simp) (by simp), redeemReleased, toBeRedeemedOn]
    simp [hliquidated]
  · rw [Pi.sub_apply, redeemReleased, toBeRedeemedOn]
    cases release <;>
      rw [hissued _ (by simp [Release.account]) (by simp [Release.account])
        (by simp [Release.account])] <;> split_ifs <;> simp [Release.account]

include hR

theorem executeRedeem_settlesKept {e x t : Stellar.Bytes} (hs : Keyed s)
    (h : Returns (executeRedeem R o id e x t) s u s') :
    ∃ r, s.redeem.redeemRequests id = some r ∧
      SettlesKept R .paid r.vault (r.amount + r.transferFee) s s' := by
  obtain ⟨r, φ, s₁, hr, -, hφ, hmoves, hset⟩ := executeRedeem_moves hR hs h
  exact ⟨r, hr, redeem_settlesKept hr hφ (.inr rfl) hmoves hset⟩

theorem cancelRedeem_settlesKept {reimburse : Bool} (hs : Keyed s)
    (h : Returns (cancelRedeem R o id reimburse) s u s') :
    ∃ r, s.redeem.redeemRequests id = some r ∧
      SettlesKept R (if reimburse then .paid else .confiscated) r.vault (r.amount + r.transferFee) s
        s' := by
  obtain ⟨r, φ, ψ, status, s₁, hr, -, -, hφ, hψ, hmoves, hset⟩ := cancelRedeem_moves hR hs h
  exact ⟨r, hr, redeem_settlesKept hr hφ hψ hmoves hset⟩

omit hR in
theorem replaceReleased_kept (v : VaultId) :
    replaceReleased R σ r (.vault v .liquidatedCollateral) = 0 := by
  rw [replaceReleased, toBeRedeemedOn, toBeIssuedAt]
  split_ifs <;> simp

omit hR in
theorem replaceReleased_redeemed (v : VaultId) : replaceReleased R σ r (.vault v .toBeRedeemed) =
      if v = r.oldVault then -(r.amount : ℤ) else 0 := by
  rw [replaceReleased, toBeRedeemedOn, toBeIssuedAt]
  by_cases hv : v = r.oldVault <;> split_ifs <;> simp [hv]

omit hR in
theorem replaceReleased_account (release : Release) (v : VaultId) :
    replaceReleased R σ r (release.account v) = 0 := by
  rw [replaceReleased, toBeRedeemedOn, toBeIssuedAt]
  cases release <;> split_ifs <;> simp [Release.account]

theorem cancelReplace_settlesKept (hs : Sound s) (h : Returns (cancelReplace R o id) s u s') :
    ∃ r, s.replace.replaceRequests id = some r ∧
      SettlesKept R .confiscated r.oldVault r.amount s s' := by
  obtain ⟨r, φ, ε, T, s₁, hr, -, hφ, hε, hmoves, hset⟩ := cancelReplace_moves hR hs h
  have hzero (x : Account) (hx : ∀ p, x ≠ .total p) (hx' : ∀ c a, x ≠ .reserved c a)
      (hx'' : ∀ v, x ≠ .stake v) : ε x = 0 := by
    rcases hε with rfl | ⟨n, rfl⟩
    · rfl
    · simp [backing, hx, hx', hx'']
  obtain rfl := setReplaceStatus_writes (by rw [hmoves.replaces, hr]) hset
  have hmoves := hmoves.congr (ε := replaceReleased R (statusOf s) r + ε + φ) subset_rfl (by abel)
  refine ⟨r, hr, (hφ.settlesKept hmoves (fun v => ?_) (fun v hv => ?_) (fun _ => ?_) ?_).apply _⟩
  · rw [Pi.add_apply, hzero _ (by simp) (by simp) (by simp), replaceReleased_kept, add_zero]
  · rw [Pi.add_apply, hzero _ (by simp) (by simp) (by simp), replaceReleased_redeemed, if_neg hv,
      add_zero]
  · rw [Pi.add_apply, hzero _ (by simp) (by simp) (by simp), replaceReleased_redeemed, if_pos rfl,
      add_zero]
  · rw [Pi.add_apply, replaceReleased_account, zero_add]
    exact hzero _ (by simp [Release.account]) (by simp [Release.account]) (by simp [Release.account])

theorem executeReplace_settlesKept {e x t : Stellar.Bytes} (hs : Sound s)
    (h : Returns (executeReplace R o id e x t) s u s') :
    ∃ r, s.replace.replaceRequests id = some r ∧
      SettlesKept R .returned r.oldVault r.amount s s' := by
  obtain ⟨r, s₁, s₂, _, _, hr, hstatus, hreplace, hset⟩ := executeReplace_parts h
  refine ⟨r, hr, ?_⟩
  have hissued (v : VaultId) (x : Account) (hx : ∀ w, x ≠ .vault w .issued)
      (hx' : ∀ p, x ≠ .system p .issued) : on (issuedAt (statusOf s) v) (r.amount : ℤ) x = 0 := by
    rw [issuedAt]
    split_ifs <;> simp [hx, hx']
  rcases hstatus with ⟨-, htransfer⟩ | ⟨-, haccept⟩
  · obtain ⟨-, φ, T, hφ, hmoves⟩ := executePending_moves hR hs hr htransfer hreplace
    obtain rfl := setReplaceStatus_writes (by rw [hmoves.replaces, hr]) hset
    have hmoves := hmoves.congr (ε := on (issuedAt (statusOf s) r.newVault) r.amount +
      (replaceReleased R (statusOf s) r - on (issuedAt (statusOf s) r.oldVault) r.amount) + φ)
      subset_rfl (by abel)
    refine (hφ.settlesKept hmoves (fun v => ?_) (fun v hv => ?_) (fun _ => ?_) ?_).apply _
    · simp [hissued, replaceReleased_kept]
    · simp [hissued, replaceReleased_redeemed, hv]
    · simp [hissued, replaceReleased_redeemed]
    · rw [Pi.add_apply, Pi.sub_apply, replaceReleased_account]
      simp [Release.account, hissued]
  · obtain ⟨-, hactive, -, φ, T, hφ, hmoves⟩ := executeCancelled_moves hs hr haccept hreplace
    obtain rfl := setReplaceStatus_writes (by rw [hmoves.replaces, hr]) hset
    refine (hφ.settlesKept hmoves (fun v => ?_) (fun v hv => ?_) (fun hl => absurd hl hactive)
      ?_).apply _
    · simp [hissued]
    · simp [hissued]
    · simp [Release.account, hissued]

end

/-! ## Steps -/

/-- A request that is settled: the vault that owes its tokens, the tokens, and what happens to the
collateral that is kept for them. -/
structure Obligation where
  vault : VaultId
  tokens : ℕ
  release : Release

def settledBy (s : Chain B) : Event → Option Obligation
  | .extrinsic _ (.redeem (.executeRedeem id _ _ _)) =>
    (s.redeem.redeemRequests id).map fun r => ⟨r.vault, r.amount + r.transferFee, .paid⟩
  | .extrinsic _ (.redeem (.cancelRedeem id reimburse)) =>
    (s.redeem.redeemRequests id).map fun r =>
      ⟨r.vault, r.amount + r.transferFee, if reimburse then .paid else .confiscated⟩
  | .extrinsic _ (.replace (.executeReplace id _ _ _)) =>
    (s.replace.replaceRequests id).map fun r => ⟨r.oldVault, r.amount, .returned⟩
  | .extrinsic _ (.replace (.cancelReplace id)) =>
    (s.replace.replaceRequests id).map fun r => ⟨r.oldVault, r.amount, .confiscated⟩
  | _ => none

/-- What a step that settles no request does to what is kept for a vault. -/
inductive Custodial : Option (ℕ × Option ℕ) → Option (ℕ × Option ℕ) → Prop
  | same (c : Option (ℕ × Option ℕ)) : Custodial c c
  | registers : Custodial none (some (0, none))
  | recovers (kept : ℕ) : Custodial (some (kept, some 0)) (some (kept, none))
  | liquidates (kept more tokens : ℕ) : (tokens = 0 → more = 0) →
      Custodial (some (kept, none)) (some (kept + more, some tokens))

theorem Custodial.of_eq {c c' : Option (ℕ × Option ℕ)} (h : c' = c) : Custodial c c' :=
  h ▸ .same c

section

variable (hR : R.tokens.Lawful) (hs : Sound s)

include hR hs

/-- Tokens of an active vault are redeemed without anything kept for them. -/
theorem redeemTokens_custody {tokens premium : Amount} {a : AccountId}
    (hactive : statusOf s v ≠ some .liquidated)
    (h : Returns (redeemTokens R v tokens premium a) s u s') :
    viewOf custody s' = viewOf custody s := by
  obtain ⟨-, φ, hφ, hmoves⟩ := redeemTokens_moves hR hs.keyed h
  have hzero (w : VaultId) : φ (.vault w .liquidatedCollateral) = 0 := by
    cases hφ with
    | active _ _ hzero => exact hzero w
    | liquidated hliquidated _ => exact absurd hliquidated hactive
  funext w
  by_cases hw : w = v
  · subst hw
    refine custody_congr_active hactive (congrFun hmoves.status w) ?_
    have hamount := keptPot_amount R s' w
    rw [hmoves.balance, Pi.add_apply, ← keptPot_amount] at hamount
    have hcounters : (-toBeRedeemedOn (statusOf s) w tokens.amount -
        on (issuedAt (statusOf s) w) tokens.amount + φ) (.vault w .liquidatedCollateral) = 0 := by
      rw [toBeRedeemedOn, issuedAt, if_neg hactive, if_neg hactive]
      simp [hzero]
    rw [hcounters] at hamount
    omega
  · rw [viewOf, viewOf, hmoves.vaults w hw]

theorem selfRedeem_custody {p : VaultCurrencyPair} (h : Returns (selfRedeem R o p n) s u s') :
    viewOf custody s' = viewOf custody s := by
  have hcalm : Replacing R (Preserves (Shows custody (viewOf custody s))) := custody_replacing
  simp only [selfRedeem, returns_guards, returns_withError] at h
  obtain ⟨a, -, _, -, -, ⟨fees, consumed⟩, -, _, s₁, hlock, _, s₂, hburn, _, s₃, htransfer, _, s₄,
    hdistribute, _, s₅, hincrease, _, s₆, hredeem, hrelease⟩ := h
  have h₁ := lockOn_moves hR hs.keyed hlock
  have h₂ := burnFrom_moves hR h₁.keyed hburn
  have h₃ := (transfer_frame hR _ _ _ _ _ _ htransfer).moves h₂.keyed
  have h₄ := (distributeRewards_frame hR _ _ _ _ hdistribute).moves h₃.keyed
  obtain ⟨hactive, -, h₅⟩ := tryIncreaseToBeRedeemedTokens_moves h₄.keyed hincrease
  have hmoves := (((h₁.trans h₂).trans h₃).trans h₄).trans h₅
  rw [← h₅.status] at hactive
  have hfirst : Shows custody (viewOf custody s) s₅ := by
    refine hcalm.tryIncreaseToBeRedeemedTokens _ _ _ _ _ hincrease ?_
    refine hcalm.distributeRewards _ _ _ _ hdistribute (hcalm.tokens _ _ _ _ htransfer ?_)
    exact hcalm.burnFrom _ _ _ _ _ hburn (hcalm.tokens _ _ _ _ hlock (shows_viewOf custody hs.keyed))
  have hsecond := redeemTokens_custody hR (hmoves.toPosts.sound hs) hactive hredeem
  rw [hfirst.viewOf_eq] at hsecond
  obtain ⟨-, _, -, h₆⟩ := redeemTokens_moves hR hmoves.keyed hredeem
  have hthird := hcalm.releaseReplaceCollateral _ _ _ _ _ hrelease
    ⟨congrFun hsecond, h₆.keyed.vaults⟩
  exact hthird.viewOf_eq

theorem reportUndercollateralizedVault_custodial
    (h : Returns (reportUndercollateralizedVault R w) s u s') :
    Custodial (viewOf custody s v) (viewOf custody s' v) := by
  simp only [reportUndercollateralizedVault, liquidateVault, returns_guards] at h
  obtain ⟨_, -, _, -, _, -, -, _, _, ⟨d, hget, _, -, hliquidate⟩, -, rfl⟩ := h
  obtain ⟨-, hd, hactive⟩ := getActiveVaultFromId_stored hs.keyed hget
  obtain ⟨used, s₁, d₁, kept, hreplace, hd₁, hzero, hvaults⟩ := liquidate_vaults hR hs.keyed hliquidate
  have hshows := custody_replacing.withdrawReplaceRequest _ _ _ _ _ hreplace
    (shows_viewOf custody hs.keyed)
  have hid : d₁.id = d.id := hshows.keyed _ _ hd₁
  by_cases hv : v = d.id
  · subst hv
    -- the withdrawal of the replace request leaves what is kept, which is nothing to be redeemed
    have hsame : custody d₁ = custody d := by
      have hview := hshows.view d.id
      rw [hd₁, viewOf, hd] at hview
      exact Option.some.inj hview
    rw [viewOf, viewOf, hd, hvaults, hid, Function.update_self, Option.map_some, Option.map_some,
      ← hsame]
    have hnone : custody d₁ = (d₁.liquidatedCollateral, none) := by
      have hsecond := congrArg Prod.snd hsame
      rw [custody, custody, if_neg hactive] at hsecond
      exact Prod.ext rfl hsecond
    rw [hnone]
    exact .liquidates _ _ _ hzero
  · rw [← hshows.view v, viewOf, hvaults, hid, Function.update_of_ne hv]
    exact .same _

/-- A call of the redeem pallet settles a request or leaves what is kept. -/
theorem redeem_custody {call : Redeem.Call} (h : Returns (call.dispatch R o) s u s')
    (hnone : settledBy s (.extrinsic o (.redeem call)) = none) :
    viewOf custody s' = viewOf custody s := by
  have hcalm : Replacing R (Preserves (Shows custody (viewOf custody s))) := custody_replacing
  have hwrite (f : Redeem.Storage → Redeem.Storage) :
      Respects (Preserves (Shows custody (viewOf custody s))) (modify (Chain.mapRedeem f) : ChainM B Unit) :=
    shows_of (.modify fun _ => rfl)
  cases call with
  | requestRedeem n a v =>
    exact viewOf_eq_of_respects hs.keyed (hcalm.requestRedeem shows_drawing (fun _ _ => hwrite _) n a v) h
  | liquidationRedeem p n => exact viewOf_eq_of_respects hs.keyed (hcalm.liquidationRedeem p n) h
  | executeRedeem id e x t =>
    obtain ⟨r, hr, -⟩ := executeRedeem_settlesKept hR hs.keyed h
    simp [settledBy, hr] at hnone
  | cancelRedeem id reimburse =>
    obtain ⟨r, hr, -⟩ := cancelRedeem_settlesKept hR hs.keyed h
    simp [settledBy, hr] at hnone
  | mintTokensForReimbursedRedeem p id =>
    exact viewOf_eq_of_respects hs.keyed
      (hcalm.mintTokensForReimbursedRedeem (fun _ => hwrite _) (fun _ _ => hwrite _) p) h
  | selfRedeem p n => exact selfRedeem_custody hR hs h
  | _ => exact viewOf_eq_of_respects hs.keyed (.lift fun _ => hwrite _) h

/-- A call of the replace pallet settles a request or leaves what is kept. -/
theorem replace_custody {call : Replace.Call} (h : Returns (call.dispatch R o) s u s')
    (hnone : settledBy s (.extrinsic o (.replace call)) = none) :
    viewOf custody s' = viewOf custody s := by
  have hcalm : Replacing R (Preserves (Shows custody (viewOf custody s))) := custody_replacing
  have hwrite (f : Replace.Storage → Replace.Storage) :
      Respects (Preserves (Shows custody (viewOf custody s))) (modify (Chain.mapReplace f) : ChainM B Unit) :=
    shows_of (.modify fun _ => rfl)
  cases call with
  | requestReplace p n => exact viewOf_eq_of_respects hs.keyed (hcalm.requestReplace p n) h
  | withdrawReplace p n => exact viewOf_eq_of_respects hs.keyed (hcalm.withdrawReplace p n) h
  | acceptReplace p v n c a =>
    exact viewOf_eq_of_respects hs.keyed
      (hcalm.acceptReplace shows_drawing (fun _ _ => hwrite _) p v n c a) h
  | executeReplace id e x t =>
    obtain ⟨r, hr, -⟩ := executeReplace_settlesKept hR hs h
    simp [settledBy, hr] at hnone
  | cancelReplace id =>
    obtain ⟨r, hr, -⟩ := cancelReplace_settlesKept hR hs h
    simp [settledBy, hr] at hnone
  | _ => exact viewOf_eq_of_respects hs.keyed (.lift fun _ => hwrite _) h

theorem vaultRegistry_custodial {call : VaultRegistry.Call} (h : Returns (call.dispatch R o) s u s') :
    Custodial (viewOf custody s v) (viewOf custody s' v) := by
  obtain hsame | ⟨w, hnew, hregistered⟩ | ⟨w, d, hd, hliquidated, hzero, hrecovered⟩ | ⟨w, hreport⟩ :=
    vaultRegistry_shows custody_view (shows_viewOf custody hs.keyed) h
  · exact .of_eq (congrFun hsame.viewOf_eq v)
  · rw [hregistered.viewOf_eq]
    by_cases hv : v = w
    · subst hv
      rw [Function.update_self, hnew]
      exact .registers
    · rw [Function.update_of_ne hv]
      exact .same _
  · rw [hrecovered.viewOf_eq]
    by_cases hv : v = w
    · subst hv
      rw [Function.update_self, viewOf, hd, Option.map_some, custody, custody, if_pos hliquidated,
        hzero]
      exact .recovers _
    · rw [Function.update_of_ne hv]
      exact .same _
  · exact reportUndercollateralizedVault_custodial hR hs hreport

/-- A step that settles no request registers, recovers or liquidates a vault, or leaves what is
kept. -/
theorem step_custodial (h : Step R W s record s') (hnone : settledBy s record.event = none) :
    Custodial (viewOf custody s v) (viewOf custody s' v) := by
  cases h with
  | @extrinsic _ origin call h =>
    cases call with
    | vaultRegistry call => exact vaultRegistry_custodial hR hs h
    | nomination call =>
      exact .of_eq (congrFun (viewOf_eq_of_respects hs.keyed (nomination_shows call) h) v)
    | issue call =>
      exact .of_eq (congrFun (viewOf_eq_of_respects hs.keyed (custody_view.calm.issueCall
        shows_drawing (fun _ => shows_of (.modify fun _ => rfl)) call) h) v)
    | redeem call => exact .of_eq (congrFun (redeem_custody hR hs h hnone) v)
    | replace call => exact .of_eq (congrFun (replace_custody hR hs h hnone) v)
  | environment h => exact .of_eq (by rw [viewOf, viewOf, h.vaultRegistry])

/-- A step that settles a request releases the share of its tokens. -/
theorem step_settlesKept {settled : Obligation} (h : Step R W s record s')
    (hsettled : settledBy s record.event = some settled) :
    SettlesKept R settled.release settled.vault settled.tokens s s' := by
  have hstored {ρ : Type} {f : ρ → Obligation} {stored : Option ρ}
      (h : ∃ r, stored = some r ∧ SettlesKept R (f r).release (f r).vault (f r).tokens s s')
      (hmap : stored.map f = some settled) :
      SettlesKept R settled.release settled.vault settled.tokens s s' := by
    obtain ⟨r, rfl, hkept⟩ := h
    obtain rfl := Option.some.inj hmap
    exact hkept
  cases h with
  | @extrinsic _ origin call h =>
    simp only [settledBy] at hsettled
    split at hsettled
    · rename_i heq
      cases heq
      exact hstored (executeRedeem_settlesKept hR hs.keyed h) hsettled
    · rename_i heq
      cases heq
      exact hstored (cancelRedeem_settlesKept hR hs.keyed h) hsettled
    · rename_i heq
      cases heq
      exact hstored (executeReplace_settlesKept hR hs h) hsettled
    · rename_i heq
      cases heq
      exact hstored (cancelReplace_settlesKept hR hs h) hsettled
    · exact absurd hsettled (by simp)
  | environment _ => exact absurd hsettled (by simp [settledBy])

end

/-! ## Runs -/

theorem Custodial.earmarked {c c' : Option (ℕ × Option ℕ)} (h : Custodial c c')
    (hc : ∀ x, c = some x → x.2.getD 0 = 0 → x.1 = 0) (x : ℕ × Option ℕ) (hx : c' = some x)
    (hzero : x.2.getD 0 = 0) : x.1 = 0 := by
  cases h with
  | same => exact hc x hx hzero
  | registers =>
    obtain rfl := Option.some.inj hx
    rfl
  | recovers kept =>
    obtain rfl := Option.some.inj hx
    exact hc (kept, some 0) rfl rfl
  | liquidates kept more tokens hmore =>
    obtain rfl := Option.some.inj hx
    have hkept : kept = 0 := hc (kept, none) rfl rfl
    have hnone : more = 0 := hmore hzero
    omega

theorem SettlesKept.earmarked (h : SettlesKept R release w n s s') (hs : Earmarked s) :
    Earmarked s' := by
  intro v c hc hzero
  have hstatus := congrFun h.status v
  by_cases hv : v = w
  · subst hv
    by_cases hliquidated : statusOf s v = some .liquidated
    · obtain ⟨x, htakes, -⟩ := h.liquidated hliquidated (hs.settled hliquidated)
      rw [custody_of_liquidated (hstatus.trans hliquidated)] at hc
      obtain rfl := Option.some.inj hc
      exact htakes.settled (hs.settled hliquidated) hzero
    · rw [custody_congr_active hliquidated hstatus (h.active hliquidated)] at hc
      exact hs v c hc hzero
  · rw [custody_congr hstatus (h.others v hv)] at hc
    exact hs v c hc hzero

theorem genesis_earmarked (h : IsGenesis s) : Earmarked s := by
  intro v c hc
  rw [viewOf, h.vaults] at hc
  exact absurd hc (by simp)

theorem step_earmarked (hR : R.tokens.Lawful) (hs : Sound s) (he : Earmarked s)
    (h : Step R W s record s') : Earmarked s' := by
  cases hsettled : settledBy s record.event with
  | none => exact fun v c => (step_custodial hR hs h hsettled).earmarked (he v) c
  | some settled => exact (step_settlesKept hR hs h hsettled).earmarked he

/-- A step, with the tokens of a liquidated vault that it settles and the collateral that it
releases for them. -/
structure SettlementStep (R : Runtime B) (W : Set CurrencyId) (v : VaultId) (s : Chain B)
    (l : Record × ℕ × ℕ) (s' : Chain B) : Prop where
  step : Step R W s l.1 s'
  takes : Takes (keptPot s v) l.2 (keptPot s' v)
  settles : ∀ settled, settledBy s l.1.event = some settled → settled.vault = v →
    l.2.1 = settled.tokens ∧ recorded R s' (settled.release.account v) =
      recorded R s (settled.release.account v) + settled.release.change l.2.2
  others : (∀ settled, settledBy s l.1.event = some settled → settled.vault ≠ v) → l.2 = (0, 0)

/-- As long as a vault is liquidated, what is kept for it goes only to settled requests. -/
theorem step_settlement (hR : R.tokens.Lawful) (hs : Sound s) (he : Earmarked s)
    (hliquidated : statusOf s v = some .liquidated)
    (hliquidated' : statusOf s' v = some .liquidated) (h : Step R W s record s') :
    ∃ l, l.1 = record ∧ SettlementStep R W v s l s' := by
  cases hsettled : settledBy s record.event with
  | none =>
    have hpot : keptPot s' v = keptPot s v := by
      have hcustody := step_custodial (v := v) hR hs h hsettled
      rw [custody_of_liquidated hliquidated, custody_of_liquidated hliquidated'] at hcustody
      generalize keptPot s v = p at hcustody ⊢
      generalize keptPot s' v = p' at hcustody ⊢
      obtain ⟨kept, tokens⟩ := p
      obtain ⟨kept', tokens'⟩ := p'
      cases hcustody
      rfl
    refine ⟨(record, 0, 0), rfl, h, ?_, fun settled hsome => ?_, fun _ => rfl⟩
    · rw [hpot]
      exact takes_zero _
    · rw [hsettled] at hsome
      cases hsome
  | some settled =>
    have hkept := step_settlesKept hR hs h hsettled
    by_cases hv : settled.vault = v
    · subst hv
      obtain ⟨x, htakes, hreleased⟩ := hkept.liquidated hliquidated (he.settled hliquidated)
      refine ⟨(record, settled.tokens, x), rfl, h, htakes, fun settled' hsome _ => ?_, fun hne => ?_⟩
      · rw [hsettled] at hsome
        obtain rfl := Option.some.inj hsome
        exact ⟨rfl, hreleased⟩
      · exact absurd rfl (hne settled hsettled)
    · refine ⟨(record, 0, 0), rfl, h, ?_, fun settled' hsome hv' => ?_, fun _ => rfl⟩
      · rw [hkept.others v (Ne.symm hv)]
        exact takes_zero _
      · rw [hsettled] at hsome
        obtain rfl := Option.some.inj hsome
        exact absurd hv' hv

/-- Tokens that a vault owes to a pending request. -/
inductive Owes (s : Chain B) (v : VaultId) : ℕ → Prop
  | redeem {id : H256} {r : RedeemRequest} : s.redeem.redeemRequests id = some r →
      r.status = .pending → r.vault = v → Owes s v (r.amount + r.transferFee)
  | replace {id : H256} {r : ReplaceRequest} : s.replace.replaceRequests id = some r →
      r.status = .pending → r.oldVault = v → Owes s v r.amount

theorem Owes.le_pending (h : Owes s v n) : n ≤ pendingRedeemTokens s v + pendingReplaceOut s v := by
  cases h with
  | redeem hr hpending hv =>
    have hle : _ ≤ pendingRedeemTokens s v := le_sum_requests hr ⟨hpending, hv⟩
    exact le_add_right hle
  | replace hr hpending hv =>
    have hle : _ ≤ pendingReplaceOut s v := le_sum_requests hr ⟨hpending, hv⟩
    exact le_add_left hle

theorem pending_eq_zero (h : ∀ n, ¬ Owes s v n) :
    pendingRedeemTokens s v + pendingReplaceOut s v = 0 := by
  have hredeem : pendingRedeemTokens s v = 0 :=
    sum_requests_eq_zero fun id r hr hp => h _ (.redeem hr hp.1 hp.2)
  have hreplace : pendingReplaceOut s v = 0 :=
    sum_requests_eq_zero fun id r hr hp => h _ (.replace hr hp.1 hp.2)
  omega

section

variable (hR : R.tokens.Lawful) {s₀ : Chain B} {records rest : List Record}
  (hgenesis : IsGenesis s₀)

include hR hgenesis

theorem run_earmarked (hrun : Run (Step R W) s₀ records s) : Sound s ∧ Earmarked s :=
  run_invariant (I := Earmarked) hR (fun _ _ _ h => h) (fun _ _ _ hs he h => step_earmarked hR hs he h)
    hrun hgenesis (genesis_earmarked hgenesis)

/-- While a vault is liquidated, every step takes a share of what is kept or nothing. -/
theorem run_settlement (hrun : Run (Step R W) s₀ records s)
    (hliquidated : statusOf s v = some .liquidated)
    (hrest : Run (fun s l s' => Step R W s l s' ∧ statusOf s' v = some .liquidated) s rest s') :
    ∃ log : List (Record × ℕ × ℕ), log.map Prod.fst = rest ∧ Run (SettlementStep R W v) s log s' ∧
      Run Takes (keptPot s v) (log.map Prod.snd) (keptPot s' v) := by
  obtain ⟨hs, he⟩ := run_earmarked hR hgenesis hrun
  obtain ⟨log, hlog, hsettlement⟩ : ∃ log : List (Record × ℕ × ℕ), log.map Prod.fst = rest ∧
      Run (SettlementStep R W v) s log s' := hrest.exists_labels
    (I := fun s => Sound s ∧ Earmarked s ∧ statusOf s v = some .liquidated) (by
      rintro s l s' ⟨hs, he, hliquidated⟩ ⟨h, hliquidated'⟩
      exact ⟨⟨step_sound hR h hs, step_earmarked hR hs he h, hliquidated'⟩,
        step_settlement hR hs he hliquidated hliquidated' h⟩) ⟨hs, he, hliquidated⟩
  refine ⟨log, hlog, hsettlement, ?_⟩
  exact hsettlement.simulates (f := fun s => keptPot s v) (g := Prod.snd) (I := fun _ => True)
    (fun _ _ _ _ h => ⟨trivial, h.takes⟩) trivial

/-- The settlement of a liquidated vault is complete and takes no more than what is kept.  Nothing
is kept for a vault without tokens to be redeemed.  The share of every pending request of a
liquidated vault can be computed and taken.  As long as the vault is liquidated, exactly the
executed and cancelled requests release their shares, and when no request is pending they have
released all that was kept at the beginning. -/
theorem liquidated_settlement (hrun : Run (Step R W) s₀ records s)
    (hids : (drawnIds records).Nodup) :
    (∀ v d, s.vaultRegistry.vaults v = some d → d.toBeRedeemedTokens = 0 →
      d.liquidatedCollateral = 0) ∧
    (∀ v d n, s.vaultRegistry.vaults v = some d → Owes s v n → n ≤ d.toBeRedeemedTokens ∧
      ∃ x, calculateCollateral d.liquidatedAmount ⟨n, v.wrappedCurrency⟩ d.toBeRedeemed = .ok x ∧
        x.amount ≤ d.liquidatedCollateral) ∧
    ∀ v start rest s₁, records = start ++ rest → Run (Step R W) s₀ start s₁ →
      statusOf s₁ v = some .liquidated →
      Run (fun s l s' => Step R W s l s' ∧ statusOf s' v = some .liquidated) s₁ rest s →
      ∃ log : List (Record × ℕ × ℕ), log.map Prod.fst = rest ∧ Run (SettlementStep R W v) s₁ log s ∧
        (keptPot s v).amount + (log.map fun l => l.2.2).sum = (keptPot s₁ v).amount ∧
        ((keptPot s v).weight = 0 → (log.map fun l => l.2.2).sum = (keptPot s₁ v).amount) ∧
        ((∀ n, ¬ Owes s v n) → (keptPot s v).weight = 0) := by
  obtain ⟨hs, he⟩ := run_earmarked hR hgenesis hrun
  have hpromised {v : VaultId} {d : Vault} (hd : s.vaultRegistry.vaults v = some d) :=
    toBeRedeemed_promised hR hgenesis hrun hids hd
  refine ⟨fun v d hd hzero => ?_, fun v d n hd howes => ?_, ?_⟩
  · refine he v (custody d) (by rw [viewOf, hd, Option.map_some]) ?_
    rw [custody]
    split_ifs
    · exact hzero
    · rfl
  · have hle : n ≤ d.toBeRedeemedTokens := by
      rw [hpromised hd]
      exact howes.le_pending
    obtain ⟨x, hx, hxle, -⟩ := calculateCollateral_of_le d.liquidatedAmount
      ⟨n, v.wrappedCurrency⟩ d.toBeRedeemed (hs.keyed.vaultItems v d .liquidatedCollateral hd) hle
    exact ⟨hle, x, hx, hxle⟩
  · intro v start rest s₁ _ hstart hliquidated hrest
    obtain ⟨log, hlog, hsettlement, htakes⟩ := run_settlement hR hgenesis hstart hliquidated hrest
    have hreleased : (log.map fun l => l.2.2) = (log.map Prod.snd).map Prod.snd := by
      rw [List.map_map]
      rfl
    have hsettled := (run_earmarked hR hgenesis hstart).2.settled hliquidated
    refine ⟨log, hlog, hsettlement, ?_, fun hzero => ?_, fun hnone => ?_⟩
    · rw [hreleased]
      exact htakes.pot_amount
    · rw [hreleased]
      exact htakes.pot_exhausted hsettled hzero
    · rw [keptPot]
      cases hd : s.vaultRegistry.vaults v with
      | none => rfl
      | some d =>
        have hzero := hpromised hd
        rw [pending_eq_zero hnone] at hzero
        exact hzero

end

/-- The vault of account 1 is liquidated while two redeem requests are pending. -/
def owing : List Record :=
  redeeming ++ [signedDrawing 4 (.redeem (.requestRedeem 200000 ⟨7⟩ (sampleVault 1))) 3] ++
    liquidating

/-- One of them is executed and one is cancelled. -/
def settlingBoth : List Record :=
  [signed 1 (.redeem (.executeRedeem 2 (paymentFor 2 4) [] (paymentFor 2 4))),
    signed 4 (.redeem (.cancelRedeem 3 false))]

/-- Together they release what is kept. -/
theorem liquidated_settlement_settlingBoth :
    ∃ s₁ s log, Run (Step sampleRuntime ∅) sampleGenesis owing s₁ ∧
      log.map Prod.fst = settlingBoth ∧
      Run (SettlementStep sampleRuntime ∅ (sampleVault 1)) s₁ log s ∧
      (keptPot s₁ (sampleVault 1)).amount = 1200000 ∧ (log.map fun l => l.2.2).sum = 1200000 := by
  obtain ⟨s₁, hstart, hliquidated, hkept, hrest⟩ : ∃ s₁,
      Run (Step sampleRuntime ∅) sampleGenesis owing s₁ ∧
        statusOf s₁ (sampleVault 1) = some .liquidated ∧
        (keptPot s₁ (sampleVault 1)).amount = 1200000 ∧
        ∃ s, replay (fun s record => (execute sampleRuntime samplePriceDrop s record).filter fun s' =>
          decide (statusOf s' (sampleVault 1) = some .liquidated)) s₁ settlingBoth = some s ∧
          (keptPot s (sampleVault 1)).weight = 0 :=
    run_of_replay environmentStep_samplePriceDrop (by decide +kernel)
  obtain ⟨s, hrest, hzero⟩ := Run.exists_of_checked (step_of_execute environmentStep_samplePriceDrop)
    (P := fun _ _ s' => statusOf s' (sampleVault 1) = some .liquidated)
    (fun _ _ _ => of_decide_eq_true) hrest
  have hrun := hstart.append (hrest.mono fun _ _ _ h => h.1)
  obtain ⟨-, -, hsettlement⟩ := liquidated_settlement sampleRuntime_lawful sampleGenesis_isGenesis
    hrun (by decide)
  obtain ⟨log, hlog, hlogged, -, hall, -⟩ :=
    hsettlement (sampleVault 1) owing settlingBoth s₁ rfl hstart hliquidated hrest
  exact ⟨s₁, s, log, hstart, hlog, hlogged, hkept, (hall hzero).trans hkept⟩

end Spacewalk.Ledger
