import Spacewalk.Ledger.Run
import Spacewalk.Runtime.Replay

/-!
# Tokens to be replaced

A vault that asks to be replaced keeps its tokens until another vault accepts.  The redeem and
replace pallets compare what they promise with the issued tokens that are not to be redeemed; they
lower the tokens to be replaced afterwards.  The one exception is the execution of a cancelled
replace request, which takes issued tokens and leaves the tokens to be replaced as they are
(`replaced_twice`).

In every run in which such an execution takes only spare tokens, no token of an active vault is
both to be redeemed and to be replaced (`promised_le_issued`).  On the way, a liquidated vault has
no issued tokens, no tokens to be issued and none to be replaced (`liquidatedItem_relation`).
-/

namespace Spacewalk.Ledger

open Foundation Function VaultRegistry Replace

variable {B : Type} {R : Runtime B} {W : Set CurrencyId} {s s' : Chain B} {d : Vault}
  {taken : VaultId → ℤ}

/-! ## Liquidated vaults -/

/-- The items of a vault that its liquidation empties. -/
def emptiedItems : Finset VaultItem := {.issued, .toBeIssued, .toBeReplaced}

variable (v : VaultId) (i : VaultItem)

/-- An item of a vault, counted while the vault is liquidated. -/
def liquidatedItem (σ : VaultId → Option VaultStatus) : Posting →+ ℤ :=
  if σ v = some .liquidated then balanceOn (.vault v i) else 0

theorem liquidatedItem_apply (σ : VaultId → Option VaultStatus) (δ : Posting) :
    liquidatedItem v i σ δ = if σ v = some .liquidated then δ (.vault v i) else 0 := by
  rw [liquidatedItem]
  split_ifs <;> rfl

/-- Emptied items of liquidated vaults stay empty. -/
theorem liquidatedItem_relation {i : VaultItem} (hi : i ∈ emptiedItems) :
    Relation R W (· = 0) (liquidatedItem v i) where
  status σ σ' h := by
    ext1
    simp only [liquidatedItem_apply, h]
  entry σ δ h := by
    rw [liquidatedItem_apply]
    split_ifs with hv
    · simp only [emptiedItems, Finset.mem_insert, Finset.mem_singleton] at hi
      cases h with
      | funds h => cases h <;> rcases hi with rfl | rfl | rfl <;> simp [backing]
      | promised w n | promisedIn w n =>
        rw [toBeIssuedAt]
        by_cases hw : w = v <;> split_ifs <;> simp_all [eq_comm]
      | redeeming w n | redeemingOut w n =>
        rw [toBeRedeemedOn]
        rcases hi with rfl | rfl | rfl <;> split_ifs <;> simp
      | replacing w n hactive =>
        have hne : v ≠ w := by
          rintro rfl
          exact hactive hv
        simp [hne]
      | issued w n =>
        rw [issuedAt]
        by_cases hw : w = v <;> split_ifs <;> simp_all [eq_comm]
      | issuedSystem p n => simp
    · rfl
  liquidates σ d b hd hitems hreplaced h := by
    rw [liquidatedItem_apply] at h ⊢
    by_cases hv : v = d.id
    · subst hv
      have hitem := hitems i
      simp only [emptiedItems, Finset.mem_insert, Finset.mem_singleton] at hi
      rcases hi with rfl | rfl | rfl <;> simp_all [movedTokens, Vault.item]
    · simpa [movedTokens, hv] using h
  environment σ δ h := by
    rw [liquidatedItem_apply, h _ (by simp)]
    split_ifs <;> rfl

/-- Requests do not count items of vaults. -/
theorem liquidatedItem_replaced (w : Write) :
    liquidatedItem v i (statusOf s) (w.replaced s) = 0 := by
  rw [liquidatedItem_apply, Write.replaced_vault, ite_self]

theorem genesis_liquidatedItem (h : IsGenesis s) (v : VaultId) (i : VaultItem) :
    valueOf R (liquidatedItem v i) s = 0 := by
  rw [valueOf, liquidatedItem_apply, balances_vault]
  simp [recorded, h.vaults]

/-- The emptied items of a vault that is recovered are not counted any more. -/
theorem liquidatedItem_recovers (w : VaultId) (i : VaultItem)
    (h : valueOf R (liquidatedItem v i) s = 0) :
    liquidatedItem v i (update (statusOf s) w (some (.active true))) (balances R s) = 0 := by
  rw [valueOf, liquidatedItem_apply] at h
  rw [liquidatedItem_apply]
  by_cases hv : v = w
  · simp [hv]
  · rwa [update_of_ne hv]

/-- In every state of a run, a liquidated vault has no issued tokens, no tokens to be issued and no
tokens to be replaced. -/
theorem run_emptied {step : Chain B → Record → Chain B → Prop} {s₀ : Chain B}
    {records : List Record} (hR : R.tokens.Lawful)
    (hle : ∀ s l s', step s l s' → Step R W s l s') (hrun : Run step s₀ records s)
    (hgenesis : IsGenesis s₀) {v : VaultId} (hv : statusOf s v = some .liquidated) {i : VaultItem}
    (hi : i ∈ emptiedItems) : recorded R s (.vault v i) = 0 := by
  have hzero : valueOf R (liquidatedItem v i) s = 0 := by
    refine (liquidatedItem_relation v hi).holds hR hle ?_ hrun hgenesis
      (genesis_liquidatedItem hgenesis v i) ?_
    · intro s l s' a p _ _ _ h
      exact liquidatedItem_recovers v ⟨a, p⟩ i h
    · intro s w _ h
      rwa [liquidatedItem_replaced, sub_zero]
  rwa [valueOf, liquidatedItem_apply, if_pos hv, balances_vault] at hzero

/-! ## No token is promised twice -/

/-- The tokens to be redeemed and to be replaced of active vaults are issued, and liquidated vaults
have no tokens to be replaced. -/
structure Spared (R : Runtime B) (s : Chain B) : Prop where
  spares : ∀ v, statusOf s v ≠ some .liquidated → 0 ≤ spare v (recorded R s)
  emptied : ∀ v, valueOf R (liquidatedItem v .toBeReplaced) s = 0

/-- A cancelled replace request is only executed if its old vault has the tokens to spare. -/
def TakesSpare (s : Chain B) (record : Record) : Prop :=
  ∀ o id x y z, record.event = .extrinsic o (.replace (.executeReplace id x y z)) →
    ∀ r d, s.replace.replaceRequests id = some r → r.status = .cancelled →
      s.vaultRegistry.vaults r.oldVault = some d → d.status ≠ .liquidated →
      d.toBeRedeemedTokens + d.toBeReplacedTokens + r.amount ≤ d.issuedTokens

section

variable {T : Set VaultId} {δ : Posting} {record : Record} {v : VaultId}

/-- Locked funds are no tokens. -/
theorem spare_of_funds (hδ : δ ∈ funds R) (hrecorded : recorded R s' = recorded R s + δ) :
    spare v (recorded R s') = spare v (recorded R s) := by
  obtain ⟨-, hzero, -⟩ := funds_tokens (v := v) (p := v.currencies) hδ
  rw [hrecorded, map_add, hzero, add_zero]

theorem spare_recorded (hd : s.vaultRegistry.vaults v = some d) :
    spare v (recorded R s) =
      (d.issuedTokens : ℤ) - d.toBeRedeemedTokens - d.toBeReplacedTokens := by
  simp [spare_apply, free_apply, recorded, hd, Vault.item]

/-- A cancelled request is only executed if its old vault is registered. -/
theorem executeReplace_registered {o : Origin} {id : H256} {x y z : Stellar.Bytes} {u : Unit}
    (h : Returns (executeReplace R o id x y z) s u s') {r : ReplaceRequest}
    (hr : s.replace.replaceRequests id = some r) (hcancelled : r.status = .cancelled) :
    ∃ d, s.vaultRegistry.vaults r.oldVault = some d := by
  simp only [executeReplace, acceptReplaceTokens, tryIncreaseToBeRedeemedTokens,
    returns_guards] at h
  obtain ⟨_, -, r', hr', _, -, _, -, _, -, -, h⟩ := h
  obtain ⟨hstored, -⟩ := getOpenOrCancelledReplaceRequest_stored hr'
  obtain rfl := Option.mem_unique hr hstored
  simp only [hcancelled, returns_steps] at h
  obtain ⟨_, _, ⟨_, _, ⟨d, hget, -⟩, -⟩, -⟩ := h
  exact ⟨d, (getActiveVaultFromId_eq_ok.mp hget).1⟩

/-- Vaults have the tokens that an extrinsic takes from them to spare. -/
theorem callTaken_le_spare {o : Origin} {call : RuntimeCall} {drawn : Option H256} {u : Unit}
    (hs : ∀ v, statusOf s v ≠ some .liquidated → 0 ≤ spare v (recorded R s))
    (h : TakesSpare s ⟨.extrinsic o call, drawn⟩) (hcall : Returns (call.dispatch R o) s u s')
    (hv : statusOf s v ≠ some .liquidated) : callTaken call s v ≤ spare v (recorded R s) := by
  unfold callTaken
  split
  · rename_i id x y z
    cases hr : s.replace.replaceRequests id with
    | none => exact hs v hv
    | some r =>
      rw [takenBy]
      split_ifs with hcancelled
      · by_cases hold : v = r.oldVault
        · subst hold
          obtain ⟨d, hd⟩ := executeReplace_registered hcall hr hcancelled
          have hle := h o id x y z rfl r d hr hcancelled hd (by simpa [statusOf, hd] using hv)
          rw [Pi.single_eq_same, spare_recorded hd]
          omega
        · rw [Pi.single_eq_of_ne hold]
          exact hs v hv
      · exact hs v hv
  · exact hs v hv

theorem Spared.of_covers
    (hs : ∀ v, statusOf s v ≠ some .liquidated → taken v ≤ spare v (recorded R s))
    (hc : Covers (statusOf s) (recorded R s) δ taken) (h : Moves R T δ s s')
    (hv : statusOf s' v ≠ some .liquidated) : 0 ≤ spare v (recorded R s') := by
  rw [h.status] at hv
  rw [h.balance]
  exact hc.spares v hv (hs v hv)

/-- A transition whose taken tokens are spare keeps active vaults from promising tokens twice. -/
theorem Transition.spares (h : Transition R s taken s')
    (hs : ∀ v, statusOf s v ≠ some .liquidated → taken v ≤ spare v (recorded R s))
    (hv : statusOf s' v ≠ some .liquidated) : 0 ≤ spare v (recorded R s') := by
  cases h with
  | internal _ hc h => exact Spared.of_covers hs hc h hv
  | settles w _ _ hc h =>
    rw [statusOf_write] at hv
    rw [w.recorded_apply]
    exact Spared.of_covers hs hc h hv
  | opens w _ _ _ hc h =>
    rw [statusOf_write] at hv
    rw [w.recorded_apply, recorded_drawn]
    exact Spared.of_covers hs hc h hv
  | @activates w a a' _ hw h hstatus =>
    rw [spare_of_funds (zero_mem _) h.balance]
    refine hs v ?_
    by_cases heq : v = w
    · subst heq
      simp [hw]
    · rwa [hstatus, update_of_ne heq] at hv
  | @liquidates T δ d s₁ _ hδ h h' =>
    -- the vault that is liquidated does not count any more, and nothing of the others moves
    rw [h'.status] at hv
    have hne : v ≠ d.id := by
      rintro rfl
      simp at hv
    rw [update_of_ne hne, h.status] at hv
    have hmoved : spare v (movedTokens d) = 0 := by
      simp [spare_apply, free_apply, movedTokens, hne]
    obtain ⟨-, hzero, -⟩ := funds_tokens (v := v) (p := v.currencies) hδ
    rw [h'.posts.balance, h.balance, map_add, map_add, map_add, map_neg,
      Covers.spare_toBeReplaced, if_neg (Ne.symm hne), hmoved, hzero, neg_zero, add_zero, add_zero,
      add_zero]
    exact hs v hv
  | @refunds w n _ h =>
    rw [spare_of_funds (refunded_mem w n) h.balance]
    rw [statusOf_congr h.vaults] at hv
    exact hs v hv

theorem step_spared (hR : R.tokens.Lawful) (hsound : Sound s) (hs : Spared R s)
    (h : Step R W s record s') (htakes : TakesSpare s record) : Spared R s' := by
  refine ⟨fun v hv => ?_, fun v => ?_⟩
  · cases h with
    | environment h =>
      have hrecorded : ∀ i, recorded R s' (.vault v i) = recorded R s (.vault v i) := by
        intro i
        simp only [recorded, h.vaultRegistry]
      rw [environment_status h] at hv
      rw [spare_apply, free_apply, hrecorded, hrecorded, hrecorded]
      exact hs.spares v hv
    | extrinsic hcall =>
      cases dispatch_effect hR hsound hcall with
      | transition h =>
        exact h.spares (fun w hw => callTaken_le_spare hs.spares htakes hcall hw) hv
      | @registers a p n _ h =>
        rw [spare_of_funds (Holding.backing _ n).mem h.posts.balance]
        refine hs.spares v ?_
        by_cases heq : v = ⟨a, p⟩
        · subst heq
          simp [h.unregistered]
        · rwa [h.status, update_of_ne heq] at hv
      | @recovers a p _ h =>
        have hrecorded : recorded R s' = recorded R s := by rw [h.posts.balance, add_zero]
        rw [hrecorded]
        by_cases heq : v = ⟨a, p⟩
        · -- the vault has tokens neither to be redeemed nor to be replaced
          subst heq
          have hreplaced := hs.emptied ⟨a, p⟩
          rw [valueOf, liquidatedItem_apply, if_pos h.liquidated, balances_vault] at hreplaced
          rw [spare_apply, free_apply, h.redeemed, hreplaced, sub_zero, sub_zero]
          exact recorded_vault_nonneg s _ _
        · rw [h.status, update_of_ne heq] at hv
          exact hs.spares v hv
      | @withdraws a w n index _ h =>
        have hrecorded := h.balance
        rw [sub_eq_add_neg] at hrecorded
        rw [spare_of_funds (neg_mem (Holding.closed w n).mem) hrecorded]
        rw [statusOf_congr h.vaults] at hv
        exact hs.spares v hv
  · refine (liquidatedItem_relation v (by decide)).step hR hsound h ?_ ?_ (hs.emptied v)
    · intro w _ hzero
      rwa [liquidatedItem_replaced, sub_zero]
    · intro a p _ _ hzero
      exact liquidatedItem_recovers v ⟨a, p⟩ _ hzero

theorem genesis_spared (h : IsGenesis s) : Spared R s := by
  refine ⟨fun v _ => ?_, fun v => genesis_liquidatedItem h v _⟩
  simp [spare_apply, free_apply, recorded, h.vaults]

end

/-- The tokens to be redeemed of an active vault grow by tokens that are issued and not to be
redeemed. -/
theorem tryIncreaseToBeRedeemedTokens_returns {v : VaultId} {n : ℕ}
    (hd : s.vaultRegistry.vaults v = some d) (hid : d.id = v) (hactive : d.status ≠ .liquidated)
    (hle : d.toBeRedeemedTokens + n ≤ d.issuedTokens) (hbound : d.issuedTokens < balanceBound) :
    ∃ s', Returns (tryIncreaseToBeRedeemedTokens v ⟨n, v.wrappedCurrency⟩) s () s' := by
  subst hid
  have hget := getActiveVaultFromId_eq_ok.mpr ⟨hd, hactive⟩
  have hliquidated : d.isLiquidated = false := by
    rw [← Bool.not_eq_true, Vault.isLiquidated_eq_true]
    exact hactive
  have hredeemable : d.issued.checkedSub d.toBeRedeemed =
      .ok ⟨d.issuedTokens - d.toBeRedeemedTokens, d.id.wrappedCurrency⟩ :=
    Amount.checkedSub_eq_ok.mpr ⟨rfl, by simp only [Vault.issued, Vault.toBeRedeemed]; omega, rfl⟩
  have hsum : (⟨d.item .toBeRedeemed, d.id.wrappedCurrency⟩ : Amount).checkedAdd
      ⟨n, d.id.wrappedCurrency⟩ = .ok ⟨d.toBeRedeemedTokens + n, d.id.wrappedCurrency⟩ :=
    Amount.checkedAdd_eq_ok.mpr ⟨rfl, by simp only [Vault.item]; omega, rfl⟩
  have hge : Amount.ge ⟨d.issuedTokens - d.toBeRedeemedTokens, d.id.wrappedCurrency⟩
      ⟨n, d.id.wrappedCurrency⟩ = .ok true := by
    refine Amount.compare_eq_ok.mpr ⟨rfl, (decide_eq_true ?_).symm⟩
    exact Nat.le_sub_of_add_le' hle
  obtain ⟨s', hincrease⟩ : ∃ s', Returns (d.increaseToBeRedeemed ⟨n, d.id.wrappedCurrency⟩) s
      (d.setItem .toBeRedeemed (d.toBeRedeemedTokens + n)) s' := by
    simp only [Vault.increaseToBeRedeemed, Vault.increase, Vault.update, insertVault, hliquidated,
      hsum, returns_rules, except_rules]
    exact ⟨_, (), s, ⟨trivial, rfl⟩, _, _, ⟨⟨_, rfl, rfl⟩, rfl⟩, (), _, rfl, rfl, rfl⟩
  refine ⟨s', ?_⟩
  simp only [tryIncreaseToBeRedeemedTokens, returns_rules, ensure_eq_ok]
  exact ⟨d, s, ⟨hget, rfl⟩, _, s, ⟨hredeemable, rfl⟩, true, s, ⟨hge, rfl⟩, (), s, ⟨rfl, rfl⟩, _, s',
    hincrease, trivial, rfl⟩

/-- At most the tokens to be replaced are taken off them. -/
theorem decreaseToBeReplacedTokens_vault {n : ℕ} {used : Amount × Amount}
    (hd : s.vaultRegistry.vaults d.id = some d)
    (h : Returns (decreaseToBeReplacedTokens R d.id ⟨n, d.id.wrappedCurrency⟩) s used s') :
    used.1 = ⟨min n d.toBeReplacedTokens, d.id.wrappedCurrency⟩ ∧
      s'.vaultRegistry.vaults d.id = some (d.setItem .toBeReplaced
        (d.toBeReplacedTokens - min n d.toBeReplacedTokens)) := by
  simp only [decreaseToBeReplacedTokens, Vault.setToBeReplacedAmount, Vault.update, insertVault,
    getVaultFromId, hd, returns_steps, except_rules, Option.some.injEq, Amount.min_eq_ok,
    Amount.checkedSub_eq_ok] at h
  obtain ⟨-, _, rfl, _, -, -, _, rfl, -, -, _, rfl, _, ⟨_, rfl⟩, rfl, rfl⟩ := h
  exact ⟨rfl, update_self _ _ _⟩

/-- In every run in which executed cancelled requests take only spare tokens, the tokens to be
redeemed and to be replaced of an active vault are issued.  Hence its tokens that can be asked to be
replaced are computed, and the tokens that another vault accepts can be promised to it. -/
theorem promised_le_issued (R : Runtime B) (hR : R.tokens.Lawful) (W : Set CurrencyId)
    (s₀ s : Chain B) (records : List Record) (hgenesis : IsGenesis s₀)
    (hrun : Run (fun s l s' => Step R W s l s' ∧ TakesSpare s l) s₀ records s) (v : VaultId)
    (d : Vault) (hd : s.vaultRegistry.vaults v = some d) (hactive : d.status ≠ .liquidated) :
    d.toBeRedeemedTokens + d.toBeReplacedTokens ≤ d.issuedTokens ∧
    requestableToBeReplacedTokens v s = .ok
      ⟨d.issuedTokens - d.toBeReplacedTokens - d.toBeRedeemedTokens, v.wrappedCurrency⟩ ∧
    ∀ n used s₁ (t : Chain B),
      Returns (decreaseToBeReplacedTokens R v ⟨n, v.wrappedCurrency⟩) s used s₁ →
      t.vaultRegistry.vaults v = s₁.vaultRegistry.vaults v →
      ∃ t', Returns (tryIncreaseToBeRedeemedTokens v used.1) t () t' := by
  obtain ⟨hs, hspared⟩ := run_invariant (I := Spared R) hR (fun _ _ _ h => h.1)
    (fun s l s' hs hspared h => step_spared hR hs hspared h.1 h.2) hrun hgenesis
    (genesis_spared hgenesis)
  have hle : d.toBeRedeemedTokens + d.toBeReplacedTokens ≤ d.issuedTokens := by
    have hspare := hspared.spares v (by simp [statusOf, hd, hactive])
    rw [spare_recorded hd] at hspare
    omega
  obtain rfl := hs.keyed.vaults v d hd
  refine ⟨hle, ?_, ?_⟩
  · have hget := getActiveVaultFromId_eq_ok.mpr ⟨hd, hactive⟩
    refine except_bind_eq_ok.mpr ⟨d, hget, except_bind_eq_ok.mpr
      ⟨_, Amount.checkedSub_eq_ok.mpr ⟨rfl, ?_, rfl⟩, Amount.checkedSub_eq_ok.mpr ⟨rfl, ?_, rfl⟩⟩⟩
    · simp only [Vault.issued, Vault.toBeReplaced]
      omega
    · simp only [Vault.issued, Vault.toBeReplaced, Vault.toBeRedeemed]
      omega
  · rintro n ⟨used, collateral⟩ s₁ t hdecrease ht
    obtain ⟨hused, hd₁⟩ := decreaseToBeReplacedTokens_vault hd hdecrease
    obtain rfl : used = _ := hused
    have hbound : d.issuedTokens < balanceBound := hs.keyed.vaultItems _ _ .issued hd
    refine tryIncreaseToBeRedeemedTokens_returns (ht.trans hd₁) rfl hactive ?_ hbound
    simp only [Vault.setItem]
    omega

/-! ## Runs -/

/-- Whether an executed cancelled request takes only spare tokens. -/
def takesSpare (s : Chain B) (record : Record) : Bool :=
  match record.event with
  | .extrinsic _ (.replace (.executeReplace id _ _ _)) =>
    (s.replace.replaceRequests id).all fun r => decide (r.status ≠ .cancelled) ||
      (s.vaultRegistry.vaults r.oldVault).all fun d => decide (d.status ≠ .liquidated →
        d.toBeRedeemedTokens + d.toBeReplacedTokens + r.amount ≤ d.issuedTokens)
  | _ => true

theorem takesSpare_sound {record : Record} (h : takesSpare s record = true) :
    TakesSpare s record := by
  intro o id x y z hevent r d hr hcancelled hd hactive
  simp only [takesSpare, hevent, hr, Option.all_some, hcancelled, hd, Bool.or_eq_true,
    decide_eq_true_eq] at h
  rcases h with hne | hle
  · exact absurd rfl hne
  · exact hle hactive

/-- A million tokens are issued with the vault of account 1, which then asks for 400000 to be
replaced.  The vault of account 2 accepts and does not pay in time. -/
def cancelling : List Record :=
  issuing ++
    [signed 2 (.vaultRegistry (.registerPublicKey ⟨7⟩)),
      signed 2 (.vaultRegistry (.registerVault samplePair 2000000)),
      signed 1 (.replace (.requestReplace samplePair 400000)),
      signedDrawing 2
        (.replace (.acceptReplace samplePair (sampleVault 1) 400000 2000000 ⟨7⟩)) 2,
      elapsing, signed 3 (.replace (.cancelReplace 2))]

/-- The vault of account 2 pays after the cancellation. -/
def payingLate : Record :=
  signed 2 (.replace (.executeReplace 2 (paymentFor 2 4) [] (paymentFor 2 4)))

/-- The vault of account 1 asks for more tokens to be replaced. -/
def asking (amount : Nat) : Record := signed 1 (.replace (.requestReplace samplePair amount))

/-- After the late payment, some of the other tokens are to be replaced. -/
theorem promised_le_issued_payingLate :
    ∃ s d, Run (fun s l s' => Step sampleRuntime ∅ s l s' ∧ TakesSpare s l) sampleGenesis
        (cancelling ++ [payingLate, asking 300000]) s ∧
      s.vaultRegistry.vaults (sampleVault 1) = some d ∧ d.issuedTokens = 600000 ∧
      d.toBeReplacedTokens = 300000 ∧
      d.toBeRedeemedTokens + d.toBeReplacedTokens ≤ d.issuedTokens := by
  obtain ⟨s, hrun, d, hd, hissued, hreplaced, hactive⟩ : ∃ s,
      Run (fun s l s' => Step sampleRuntime ∅ s l s' ∧ TakesSpare s l) sampleGenesis
        (cancelling ++ [payingLate, asking 300000]) s ∧ ∃ d,
          s.vaultRegistry.vaults (sampleVault 1) = some d ∧ d.issuedTokens = 600000 ∧
          d.toBeReplacedTokens = 300000 ∧ d.status ≠ .liquidated :=
    Run.exists_of_checked (step_of_execute environmentStep_sampleDelay)
      (c := fun s record _ => takesSpare s record) (fun _ _ _ => takesSpare_sound)
      (by decide +kernel)
  refine ⟨s, d, hrun, hd, hissued, hreplaced, ?_⟩
  exact (promised_le_issued sampleRuntime sampleRuntime_lawful ∅ sampleGenesis s
    (cancelling ++ [payingLate, asking 300000]) sampleGenesis_isGenesis hrun (sampleVault 1) d hd
    hactive).1

/-- If the vault asks for all of its tokens to be replaced before the late payment, then fewer
tokens are issued than to be replaced after it. -/
theorem replaced_twice :
    ∃ s d, Run (Step sampleRuntime ∅) sampleGenesis
        (cancelling ++ [asking 1000000, payingLate]) s ∧
      s.vaultRegistry.vaults (sampleVault 1) = some d ∧ d.status = .active true ∧
      d.issuedTokens = 600000 ∧ d.toBeReplacedTokens = 1000000 ∧
      requestableToBeReplacedTokens (sampleVault 1) s = .error DispatchError.underflow := by
  simp only [exists_and_left]
  exact run_of_replay environmentStep_sampleDelay (by decide +kernel)

end Spacewalk.Ledger
