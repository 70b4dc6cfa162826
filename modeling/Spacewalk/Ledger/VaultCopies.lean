import Spacewalk.Ledger.CallFrames

/-!
# Copies of vaults

A function of the vault registry reads a vault and writes changed copies of it, with other changes of
the state in between.  An invariant that speaks about the records of vaults survives this if it
follows from a property of the copies: what is read has the property, and a copy that has the
property can be written at any time (`Copies`).

A counter is `Free` if the property does not depend on it.  From the counters that are free follows
which parts of the calls keep the invariant (`Copies.calm`, `Copies.replacing`, `Copies.settling`).
-/

namespace Spacewalk.Ledger

open Foundation VaultRegistry

variable {B : Type} {R : Runtime B} {s s' : Chain B}

/-- The state in which a vault is stored. -/
def withVault (d : Vault) (s : Chain B) : Chain B :=
  Chain.mapVaultRegistry (fun r => { r with
    vaults := Function.update r.vaults d.id (some d) }) s

theorem returns_vaultUpdate {d d' : Vault} {f : Vault → Except DispatchError Vault} :
    Returns (d.update f) s d' s' ↔ f d = .ok d' ∧ withVault d' s = s' := by
  simp only [Vault.update, insertVault, returns_rules]
  constructor
  · rintro ⟨d', _, ⟨hf, rfl⟩, _, _, rfl, rfl, rfl⟩
    exact ⟨hf, rfl⟩
  · rintro ⟨hf, rfl⟩
    exact ⟨d', s, ⟨hf, rfl⟩, ⟨⟩, _, rfl, rfl, rfl⟩

/-- The invariant `I` says of a vault what `C` says of its copies, and what writes no vault keeps
it. -/
structure Copies (R : Runtime B) (I : Chain B → Prop) (C : Vault → Prop) : Prop where
  reads {s : Chain B} {v : VaultId} {d : Vault} : I s → s.vaultRegistry.vaults v = some d → C d
  stores {s : Chain B} {d : Vault} : I s → C d → I (withVault d s)
  tokens {α : Type} (m : Dispatch DispatchError B α) :
    Respects (Preserves I) (zoom Chain.tokensL m)
  unlockOn (amount : Amount) (a : AccountId) : Respects (Preserves I) (amount.unlockOn R a)
  burnFrom (amount : Amount) (a : AccountId) : Respects (Preserves I) (amount.burnFrom R a)
  distributeRewards (amount : Amount) : Respects (Preserves I) (Fee.distributeRewards R amount)
  system (l : SystemVault) (f : SystemVault → Except DispatchError SystemVault) :
    Respects (Preserves I) (l.update f)
  increaseTotal (p : VaultCurrencyPair) (amount : Amount) :
    Respects (Preserves I) (tryIncreaseTotalBackingCollateral p amount)
  decreaseTotal (p : VaultCurrencyPair) (amount : Amount) :
    Respects (Preserves I) (decreaseTotalBackingCollateral p amount)
  poolDeposit (v : VaultId) (a : AccountId) (amount : Amount) :
    Respects (Preserves I) (PoolManager.depositCollateral R v a amount)
  poolWithdraw (v : VaultId) (a : AccountId) (amount : Amount) (index : Option Nonce) :
    Respects (Preserves I) (PoolManager.withdrawCollateral R v a amount index)
  poolSlash (v : VaultId) (amount : Amount) :
    Respects (Preserves I) (PoolManager.slashCollateral R v amount)

/-- The property does not depend on a counter. -/
def Free (C : Vault → Prop) (i : VaultItem) : Prop := ∀ d n, C d → C (d.setItem i n)

namespace Copies

variable {I : Chain B → Prop} {C : Vault → Prop} (hC : Copies R I C)

include hC

/-! ## Reading and writing -/

theorem getVault (v : VaultId) : Yields I (read (getVaultFromId v) : ChainM B Vault) C :=
  .read fun _ _ hs hd => hC.reads hs (okOr_eq_ok.mp hd)

theorem getActiveVault (v : VaultId) :
    Yields I (read (getActiveVaultFromId v) : ChainM B Vault)
      fun d => C d ∧ d.status ≠ .liquidated := by
  refine .read fun s d hs hd => ?_
  obtain ⟨hd, hactive⟩ := getActiveVaultFromId_eq_ok.mp hd
  exact ⟨hC.reads hs hd, hactive⟩

theorem update {d : Vault} {f : Vault → Except DispatchError Vault}
    (hf : ∀ d', f d = .ok d' → C d') : Yields I (d.update f : ChainM B Vault) C := by
  intro s d' s' hs hret
  obtain ⟨hfd, rfl⟩ := returns_vaultUpdate.mp hret
  exact ⟨hC.stores hs (hf d' hfd), hf d' hfd⟩

section

variable {i : VaultItem} (hi : Free C i) {d : Vault} (hd : C d)

include hi hd

/-- The functions that increase or decrease a counter set it to a value that they compute. -/
theorem setCounter {α : Type} {x : Vault → Except DispatchError α} {n : α → ℕ} :
    Yields I (d.update fun d => do return d.setItem i (n (← x d)) : ChainM B Vault) C := by
  refine hC.update fun d' h => ?_
  obtain ⟨_, -, rfl⟩ := except_map_eq_ok.mp h
  exact hi d _ hd

theorem increaseCollateral (amount : Amount) :
    Yields I (d.increaseCollateral i amount : ChainM B Vault) C :=
  hC.setCounter hi hd

theorem decreaseCollateral (amount : Amount) :
    Yields I (d.decreaseCollateral i amount : ChainM B Vault) C :=
  hC.setCounter hi hd

end

theorem setToBeReplacedAmount (hreplaced : Free C .toBeReplaced) {d : Vault} (hd : C d)
    (amount : Amount) : Yields I (d.setToBeReplacedAmount amount : ChainM B Vault) C :=
  hC.update fun d' h => by
    obtain rfl := except_pure_eq_ok.mp h
    exact hreplaced d _ hd

/-! ## Issued tokens -/

section

variable (hissued : Free C .issued) {d : Vault} (hd : C d) (amount : Amount)

include hd

/-- The counters of a liquidated vault are those of the liquidation vault. -/
theorem redirected {f : SystemVault → Except DispatchError SystemVault} {m : ChainM B Vault}
    (hm : Yields I m C) :
    Yields I (if d.isLiquidated then do
        let _ ← (getLiquidationVault d.id.currencies (← get)).update f
        return d
      else m : ChainM B Vault) C := by
  refine .ite (.bind (.of_respects .get) fun s _ => ?_) hm
  exact .bind (.of_respects (hC.system _ _)) fun _ _ => .pure hd

theorem decreaseToBeIssued (hpromised : Free C .toBeIssued) :
    Yields I (d.decreaseToBeIssued amount : ChainM B Vault) C := by
  unfold Vault.decreaseToBeIssued SystemVault.decreaseToBeIssued SystemVault.decrease
  exact hC.redirected hd (hC.setCounter hpromised hd)

theorem decreaseToBeRedeemed (hredeemed : Free C .toBeRedeemed) :
    Yields I (d.decreaseToBeRedeemed amount : ChainM B Vault) C := by
  unfold Vault.decreaseToBeRedeemed SystemVault.decreaseToBeRedeemed SystemVault.decrease
  refine .ite (.bind (.of_respects .get) fun s _ => ?_) (hC.setCounter hredeemed hd)
  exact .bind (.of_respects (hC.system _ _)) fun _ _ => hC.setCounter hredeemed hd

include hissued

theorem increaseIssued : Yields I (d.increaseIssued amount : ChainM B Vault) C := by
  unfold Vault.increaseIssued SystemVault.increaseIssued SystemVault.increase
  exact hC.redirected hd (hC.setCounter hissued hd)

theorem decreaseIssued : Yields I (d.decreaseIssued amount : ChainM B Vault) C := by
  unfold Vault.decreaseIssued SystemVault.decreaseIssued SystemVault.decrease
  exact hC.redirected hd (hC.setCounter hissued hd)

theorem executeIssueTokens (hpromised : Free C .toBeIssued) :
    Yields I (d.executeIssueTokens amount : ChainM B Vault) C :=
  .bind (hC.decreaseToBeIssued hd amount hpromised) fun _ hd' =>
    hC.increaseIssued hissued hd' amount

theorem executeRedeemTokens (hredeemed : Free C .toBeRedeemed) :
    Yields I (d.executeRedeemTokens amount : ChainM B Vault) C :=
  .bind (hC.decreaseToBeRedeemed hd amount hredeemed) fun _ hd' =>
    hC.decreaseIssued hissued hd' amount

end

/-! ## Funds -/

section

variable (amount : Amount)

theorem systemIncrease (l : SystemVault) (i : SystemItem) :
    Respects (Preserves I) (l.increase i amount : ChainM B SystemVault) :=
  hC.system l _

theorem systemDecrease (l : SystemVault) (i : SystemItem) :
    Respects (Preserves I) (l.decrease i amount : ChainM B SystemVault) :=
  hC.system l _

variable (source : CurrencySource) (v : VaultId) (destination : CurrencySource)

theorem depositCollateral : Respects (Preserves I) (tryDepositCollateral R v amount) :=
  .reads fun _ => .bind (hC.increaseTotal _ _) fun _ => .bind (hC.tokens _) fun _ =>
    hC.poolDeposit _ _ _

theorem withdrawCollateral : Respects (Preserves I) (forceWithdrawCollateral R v amount) :=
  .bind (hC.unlockOn _ _) fun _ => .bind (hC.decreaseTotal _ _) fun _ => hC.poolWithdraw _ _ _ _

theorem tryWithdrawCollateral : Respects (Preserves I) (tryWithdrawCollateral R v amount) := by
  refine .reads fun _ => .lift fun _ => .reads fun _ => ?_
  exact .lift fun _ => hC.withdrawCollateral _ v

theorem takeFunds
    (hfree : touched source = ∅ ∨ Free C .replaceCollateral ∧ Free C .activeReplaceCollateral) :
    Respects (Preserves I) (takeFunds R source amount) := by
  cases source with
  | collateral v =>
    refine .lift fun _ => .bind (hC.unlockOn _ _) fun _ => ?_
    exact .bind (hC.decreaseTotal _ _) fun _ => hC.poolSlash _ _
  | availableReplaceCollateral v =>
    obtain ⟨havailable, -⟩ := hfree.resolve_left (Set.singleton_ne_empty v)
    refine .bind_yields (hC.getActiveVault v) fun d hd => .bind ?_ fun _ => hC.unlockOn _ _
    exact (hC.decreaseCollateral havailable hd.1 amount).respects
  | activeReplaceCollateral v =>
    obtain ⟨-, hactive⟩ := hfree.resolve_left (Set.singleton_ne_empty v)
    refine .bind_yields (hC.getVault v) fun d hd => .bind ?_ fun _ => hC.unlockOn _ _
    exact (hC.decreaseCollateral hactive hd amount).respects
  | userGriefing a => exact hC.unlockOn _ _
  | liquidatedCollateral v => exact .bind (hC.decreaseTotal _ _) fun _ => hC.unlockOn _ _
  | liquidationVault p =>
    refine .gets fun s => .bind (hC.systemDecrease _ _ .collateral) fun _ => ?_
    exact .bind (hC.decreaseTotal _ _) fun _ => hC.unlockOn _ _
  | freeBalance a => exact .pure _

theorem putFunds
    (hfree : touched destination = ∅ ∨ Free C .replaceCollateral ∧ Free C .activeReplaceCollateral) :
    Respects (Preserves I) (putFunds R destination amount) := by
  cases destination with
  | collateral v => exact .lift fun _ => hC.depositCollateral _ _
  | availableReplaceCollateral v =>
    obtain ⟨havailable, -⟩ := hfree.resolve_left (Set.singleton_ne_empty v)
    refine .bind_yields (hC.getActiveVault v) fun d hd => .bind ?_ fun _ => hC.tokens _
    exact (hC.increaseCollateral havailable hd.1 amount).respects
  | activeReplaceCollateral v =>
    obtain ⟨-, hactive⟩ := hfree.resolve_left (Set.singleton_ne_empty v)
    refine .bind_yields (hC.getVault v) fun d hd => .bind ?_ fun _ => hC.tokens _
    exact (hC.increaseCollateral hactive hd amount).respects
  | userGriefing a => exact hC.tokens _
  | liquidatedCollateral v => exact .bind (hC.increaseTotal _ _) fun _ => hC.tokens _
  | liquidationVault p =>
    refine .bind (hC.increaseTotal _ _) fun _ => .gets fun s => ?_
    exact .bind (hC.systemIncrease _ _ .collateral) fun _ => hC.tokens _
  | freeBalance a => exact .pure _

theorem transferFunds (hfree : touched source = ∅ ∧ touched destination = ∅ ∨
      Free C .replaceCollateral ∧ Free C .activeReplaceCollateral) :
    Respects (Preserves I) (transferFunds R source destination amount) :=
  .bind (hC.takeFunds amount source (hfree.imp_left And.left)) fun _ =>
    .bind (hC.tokens _) fun _ => hC.putFunds amount destination (hfree.imp_left And.right)

section

variable (hkept : Free C .liquidatedCollateral) {d : Vault} (hd : C d) (v : VaultId)

include hkept hd

theorem depositLiquidated : Yields I (d.depositLiquidated R v amount) C := by
  unfold Vault.depositLiquidated
  refine .ite (.bind (.of_respects (.liftM _)) fun part _ => ?_) (.pure hd)
  refine .bind (hC.decreaseCollateral hkept hd part) fun d' hd' => ?_
  exact .bind (.of_respects (hC.poolDeposit _ _ _)) fun _ _ => .pure hd'

theorem transferLiquidated : Yields I (d.transferLiquidated R v amount) C := by
  unfold Vault.transferLiquidated
  refine .ite (.bind (.of_respects (.liftM _)) fun part _ => ?_) (.pure hd)
  refine .bind (hC.decreaseCollateral hkept hd part) fun d' hd' => ?_
  exact .bind (.of_respects (hC.transferFunds _ _ _ (.inl ⟨rfl, rfl⟩))) fun _ _ => .pure hd'

omit v in
theorem slashForToBeRedeemed : Yields I (d.slashForToBeRedeemed R amount) C := by
  refine .bind (.of_respects (.read _)) fun _ _ => .bind (.of_respects (.liftM _)) fun x _ => ?_
  refine .bind (.of_respects (hC.poolWithdraw _ _ _ _)) fun _ _ => ?_
  exact hC.increaseCollateral hkept hd x

end

end

/-! ## Calls of the vault registry -/

section

variable {o : Origin} (p : VaultCurrencyPair)

theorem depositCollateralCall (n : ℕ) :
    Respects (Preserves I) (VaultRegistry.depositCollateral R o p n) := by
  refine .lift fun a => .reads fun d => .bind (hC.depositCollateral _ _) fun _ => ?_
  exact .reads fun _ => .reads fun _ => .pure _

theorem withdrawCollateralCall (n : ℕ) :
    Respects (Preserves I) (VaultRegistry.withdrawCollateral R o p n) := by
  refine .lift fun a => .reads fun d => ?_
  exact .bind (hC.tryWithdrawCollateral _ _) fun _ => .reads fun _ => .pure _

theorem setCustomSecureThreshold (t : Option UnsignedFixedPoint)
    (hthreshold : ∀ d t, C d → C { d with secureCollateralThreshold := t }) :
    Respects (Preserves I) (VaultRegistry.setCustomSecureThreshold o p t : ChainM B Unit) := by
  refine .lift fun a => ?_
  have hrest : Respects (Preserves I) (do
      let vault ← read (getVaultFromId ⟨a, p⟩)
      let _ ← vault.setCustomSecureThreshold t : ChainM B Unit) := by
    refine .bind_yields (hC.getVault _) fun d hd => .bind ?_ fun _ => .pure _
    refine (hC.update fun d' hd' => ?_).respects
    obtain rfl := except_pure_eq_ok.mp hd'
    exact hthreshold d t hd
  cases t with
  | none => exact hrest
  | some t => exact .gets fun s => .lift fun _ => .lift fun _ => hrest

end

/-! ## Nomination -/

theorem nominationCall {o : Origin}
    (hkick : ∀ v, Respects (Preserves I) (PoolManager.kickNominators R v))
    (hwrite : ∀ (s : Chain B) n, Preserves I s { s with nomination := n }) (call : Nomination.Call) :
    Respects (Preserves I) (call.dispatch R o) := by
  cases call with
  | setNominationEnabled e => exact .lift fun _ => .modify fun s => hwrite s _
  | optInToNomination p =>
    intro s u s' h
    simp only [Nomination.Call.dispatch, Nomination.optInToNomination, returns_guards,
      returns_set] at h
    obtain ⟨_, -, _, -, -, -, -, rfl⟩ := h
    exact hwrite _ _
  | optOutOfNomination p =>
    refine .lift fun a => .reads fun _ => .gets fun s => ?_
    refine .lift fun _ => .reads fun n => .reads fun b => ?_
    refine .lift fun _ => .bind (hkick _) fun refunded => ?_
    exact .bind (hC.decreaseTotal _ _) fun _ => .modify fun s => hwrite s _
  | depositCollateral v n =>
    refine .lift fun a => .reads fun _ => .gets fun s => ?_
    refine .lift fun _ => .lift fun _ => .lift fun _ => ?_
    refine .lift fun _ => .lift fun _ => .lift fun _ => ?_
    refine .lift fun b => .lift fun _ => .bind (hC.poolDeposit _ _ _) fun _ => ?_
    exact .bind (hC.tokens _) fun _ => .bind (hC.tokens _) fun _ => hC.increaseTotal _ _
  | withdrawCollateral v n i =>
    refine .lift fun a => .reads fun _ => .gets fun s => ?_
    -- checked or not, the withdrawal goes on in the same way
    have hrest (amount : Amount) (index : Option Nonce) : Respects (Preserves I) (do
        PoolManager.withdrawCollateral R v a amount index
        amount.unlockOn R v.accountId
        amount.transfer R v.accountId a) :=
      .bind (hC.poolWithdraw _ _ _ _) fun _ => .bind (hC.unlockOn _ _) fun _ => hC.tokens _
    have hcheck (amount : Amount) :
        Respects (Preserves I) (Nomination.checkWithdrawal R v amount) := by
      refine .reads fun b => .lift fun _ => .gets fun s => ?_
      exact .lift fun _ => .lift fun _ => hC.decreaseTotal _ _
    exact .ite (.bind (hcheck _) fun _ => hrest _ _) (hrest _ _)

/-! ## The parts of the calls -/

variable (hissued : Free C .issued) (hpromised : Free C .toBeIssued)

include hissued hpromised

/-- The counters of issued tokens are free, and so are the tokens to be redeemed of an active vault
and the ban. -/
theorem calm (hredeemed : ∀ d n, d.status ≠ .liquidated → C d → C (d.setItem .toBeRedeemed n))
    (hban : ∀ d n, C d → C { d with bannedUntil := n }) : Calm R (Preserves I) where
  tokens := hC.tokens
  unlockOn := hC.unlockOn
  burnFrom := hC.burnFrom
  distributeRewards := hC.distributeRewards
  tryIncreaseToBeIssuedTokens v amount := by
    refine .bind_yields (hC.getActiveVault v) fun d hd => .reads fun limit => ?_
    refine .lift fun b => .lift fun _ => .bind (.lift fun _ => ?_)
      fun _ => .pure _
    exact (hC.setCounter hpromised hd.1).respects
  decreaseToBeIssuedTokens v amount :=
    .bind_yields (hC.getVault v) fun _ hd =>
      .bind (hC.decreaseToBeIssued hd amount hpromised).respects fun _ => .pure _
  issueTokens v amount :=
    .bind_yields (hC.getVault v) fun _ hd =>
      .bind (hC.executeIssueTokens hissued hd amount hpromised).respects fun _ => .pure _
  tryIncreaseToBeRedeemedTokens v amount := by
    refine .bind_yields (hC.getActiveVault v) fun d hd => .lift fun free => ?_
    refine .lift fun b => .lift fun _ => .bind (.lift fun _ => ?_)
      fun _ => .pure _
    refine (hC.update fun d' h => ?_).respects
    obtain ⟨_, -, rfl⟩ := except_map_eq_ok.mp h
    exact hredeemed d _ hd.2 hd.1
  redeemTokensLiquidation c a amount := by
    refine .gets fun s => .lift fun tokens => .lift fun b => ?_
    refine .lift fun _ => .reads fun available => ?_
    refine .lift fun backed => .lift fun part => ?_
    refine .bind (hC.transferFunds _ _ _ (.inl ⟨rfl, rfl⟩)) fun _ => .gets fun s => ?_
    exact .bind (hC.systemDecrease _ _ .issued) fun _ => .pure _
  banVault v := by
    refine .gets fun _ => .bind_yields (hC.getActiveVault v) fun d hd => .gets fun _ => ?_
    refine .bind (hC.update fun d' h => ?_).respects fun _ => .pure _
    obtain rfl := except_pure_eq_ok.mp h
    exact hban d _ hd.1
  tryDepositCollateral v amount := hC.depositCollateral amount v
  forceWithdrawCollateral v amount := hC.withdrawCollateral amount v
  transferUntouched source destination amount hsource hdestination :=
    hC.transferFunds amount source destination (.inl ⟨hsource, hdestination⟩)

omit hissued hpromised in
/-- The tokens to be replaced and their collateral are free as well. -/
theorem replacing (hcalm : Calm R (Preserves I)) (hreplaced : Free C .toBeReplaced)
    (hcollateral : Free C .replaceCollateral ∧ Free C .activeReplaceCollateral) :
    Replacing R (Preserves I) where
  toCalm := hcalm
  tryIncreaseToBeReplacedTokens v amount := by
    refine .bind_yields (hC.getActiveVault v) fun d hd => .lift fun new => ?_
    refine .lift fun total => .lift fun b => .lift fun _ => ?_
    exact .bind (hC.setToBeReplacedAmount hreplaced hd.1 _).respects fun _ => .pure _
  decreaseToBeReplacedTokens v amount := by
    refine .bind_yields (hC.getVault v) fun d hd => .lift fun used => ?_
    refine .lift fun part => .lift fun part' => .lift fun rest => ?_
    exact .bind (hC.setToBeReplacedAmount hreplaced hd _).respects fun _ => .pure _
  transferFunds source destination amount :=
    hC.transferFunds amount source destination (.inr hcollateral)

/-- The tokens to be redeemed and the collateral that is kept for them are free as well. -/
theorem settling (hcalm : Calm R (Preserves I)) (hredeemed : Free C .toBeRedeemed)
    (hkept : Free C .liquidatedCollateral) : Settling R (Preserves I) where
  toCalm := hcalm
  decreaseToBeRedeemedTokens v amount :=
    .bind_yields (hC.getVault v) fun _ hd =>
      .bind (hC.decreaseToBeRedeemed hd amount hredeemed).respects fun _ => .pure _
  decreaseTokens v amount :=
    .bind_yields (hC.getVault v) fun _ hd =>
      .bind (hC.executeRedeemTokens hissued hd amount hredeemed).respects fun _ => .pure _
  redeemTokens v amount premium a := by
    refine .bind_yields (hC.getVault v) fun d hd => ?_
    refine .bind_yields (hC.executeRedeemTokens hissued hd amount hredeemed) fun d' hd' => ?_
    refine .ite ?_ (.ite (.pure _) (hcalm.transferUntouched _ _ _ rfl rfl))
    refine .lift fun released => .bind (hC.decreaseTotal _ _) fun _ => ?_
    exact .bind (hC.decreaseCollateral hkept hd' _).respects fun _ => hC.unlockOn _ _
  decreaseLiquidatedCollateral v amount :=
    .bind_yields (hC.getVault v) fun _ hd =>
      .bind (hC.decreaseCollateral hkept hd amount).respects fun _ => .pure _
  replaceTokens v w amount := by
    refine .bind_yields (hC.getVault v) fun d hd => .bind_yields (hC.getVault w) fun e he => ?_
    refine .bind_yields (hC.depositLiquidated amount hkept hd v) fun d' hd' => ?_
    refine .bind (hC.executeRedeemTokens hissued hd' amount hredeemed).respects fun _ => ?_
    exact .bind (hC.executeIssueTokens hissued he amount hpromised).respects fun _ => .pure _
  cancelReplaceTokens v w amount := by
    refine .bind_yields (hC.getVault v) fun d hd => .bind_yields (hC.getVault w) fun e he => ?_
    refine .bind_yields (hC.transferLiquidated amount hkept hd v) fun d' hd' => ?_
    refine .bind (hC.decreaseToBeRedeemed hd' amount hredeemed).respects fun _ => ?_
    exact .bind (hC.decreaseToBeIssued he amount hpromised).respects fun _ => .pure _

end Copies

end Spacewalk.Ledger
