import Spacewalk.Ledger.Services

/-!
# What updates of vaults post

An update that changes one counter of a stored vault posts the change to the account of that
counter (`update_updates`).  The counters of issued tokens and of tokens to be issued of a
liquidated vault are those of the liquidation vault; `issuedAt` and `toBeIssuedAt` are the
accounts that the functions of the source choose between.
-/

namespace Spacewalk.Ledger

open Foundation VaultRegistry
open Function (update update_apply)

variable {B : Type} {R : Runtime B} {s s' s'' : Chain B}

/-! ## The accounts of token counters -/

variable (σ : VaultId → Option VaultStatus) (v : VaultId)

/-- The account of the issued tokens of a vault. -/
def issuedAt : Account :=
  if σ v = some .liquidated then .system v.currencies .issued else .vault v .issued

/-- The account of the tokens to be issued of a vault. -/
def toBeIssuedAt : Account :=
  if σ v = some .liquidated then .system v.currencies .toBeIssued else .vault v .toBeIssued

/-- Tokens to be redeemed of a vault; if it is liquidated, they are counted twice. -/
def toBeRedeemedOn (n : ℤ) : Posting :=
  on (.vault v .toBeRedeemed) n +
    if σ v = some .liquidated then on (.system v.currencies .toBeRedeemed) n else 0

/-! ## Copies of stored vaults -/

/-- The copy of a vault is the one in the storage. -/
def Stored (s : Chain B) (d : Vault) : Prop := s.vaultRegistry.vaults d.id = some d

/-- The copy of a liquidation vault is the one in the storage. -/
def StoredSystem (s : Chain B) (l : SystemVault) : Prop :=
  getLiquidationVault l.currencyPair s = l

theorem getVaultFromId_stored {v : VaultId} {d : Vault} (hs : Keyed s)
    (h : getVaultFromId v s = .ok d) : d.id = v ∧ Stored s d := by
  have hd : s.vaultRegistry.vaults v = some d := okOr_eq_ok.mp h
  obtain rfl := hs.vaults v d hd
  exact ⟨rfl, hd⟩

theorem getActiveVaultFromId_eq_ok {v : VaultId} {d : Vault} :
    getActiveVaultFromId v s = .ok d ↔
      s.vaultRegistry.vaults v = some d ∧ d.status ≠ .liquidated := by
  simp only [getActiveVaultFromId, getVaultFromId, except_rules, exists_const]
  constructor
  · rintro ⟨d, hd, hactive, rfl⟩
    exact ⟨hd, hactive⟩
  · rintro ⟨hd, hactive⟩
    exact ⟨d, hd, hactive, rfl⟩

theorem getActiveVaultFromId_stored {v : VaultId} {d : Vault} (hs : Keyed s)
    (h : getActiveVaultFromId v s = .ok d) :
    d.id = v ∧ Stored s d ∧ d.status ≠ .liquidated := by
  obtain ⟨hd, hactive⟩ := getActiveVaultFromId_eq_ok.mp h
  obtain rfl := hs.vaults v d hd
  exact ⟨rfl, hd, hactive⟩

theorem getLiquidationVault_currencyPair (hs : Keyed s) (p : VaultCurrencyPair) :
    (getLiquidationVault p s).currencyPair = p := by
  unfold getLiquidationVault
  cases h : s.vaultRegistry.liquidationVault p with
  | none => rfl
  | some l => exact hs.systems p l h

theorem getLiquidationVault_stored (hs : Keyed s) (p : VaultCurrencyPair) :
    StoredSystem s (getLiquidationVault p s) := by
  rw [StoredSystem, getLiquidationVault_currencyPair hs]

theorem StoredSystem.item_lt {l : SystemVault} (hs : Keyed s) (hl : StoredSystem s l)
    (i : SystemItem) : l.item i < balanceBound := by
  rw [StoredSystem, getLiquidationVault] at hl
  cases h : s.vaultRegistry.liquidationVault l.currencyPair with
  | none =>
    rw [h] at hl
    rw [← hl]
    cases i <;> simp [SystemVault.new, SystemVault.item, balanceBound]
  | some k =>
    rw [h] at hl
    rw [← hl]
    exact hs.systemItems _ _ i h

theorem Stored.statusOf_eq {d : Vault} (hd : Stored s d) : statusOf s d.id = some d.status := by
  rw [statusOf, hd]
  rfl

theorem Stored.active {d : Vault} (hd : Stored s d) (h : d.status ≠ .liquidated) :
    statusOf s d.id ≠ some .liquidated := by
  rw [hd.statusOf_eq]
  simpa using h

theorem Stored.recorded_eq {d : Vault} (hd : Stored s d) (i : VaultItem) :
    recorded R s (.vault d.id i) = d.item i := by
  rw [recorded, hd]
  rfl

theorem Stored.of_moves {T : Set VaultId} {δ : Posting} {d : Vault} (hd : Stored s d)
    (h : Moves R T δ s s') (hT : d.id ∉ T) : Stored s' d := by
  rw [Stored, h.vaults d.id hT]
  exact hd

/-! ## Updates of liquidation vaults -/

section

/-- A copy of a liquidation vault was changed and written, which posted `δ`. -/
structure SystemUpdates (R : Runtime B) (δ : Posting) (l l' : SystemVault) (s s' : Chain B) :
    Prop where
  moves : Moves R ∅ δ s s'
  stored : StoredSystem s' l'
  currencyPair : l'.currencyPair = l.currencyPair

variable {l l' : SystemVault} {i : SystemItem} {m : ℕ} {amount : Amount}
  {func : SystemVault → Except DispatchError SystemVault}

theorem systemUpdate_func (h : Returns (l.update func) s l' s') : func l = .ok l' := by
  simp only [SystemVault.update, returns_rules] at h
  obtain ⟨_, _, ⟨hfunc, -⟩, _, _, -, rfl, -⟩ := h
  exact hfunc

/-- A new value of one counter of a liquidation vault. -/
theorem systemUpdate_updates (hs : Keyed s) (hl : StoredSystem s l)
    (h : Returns (l.update func) s l' s') (hset : l' = l.setItem i m) (hbound : m < balanceBound) :
    SystemUpdates R (on (.system l.currencyPair i) (m - l.item i)) l l' s s' := by
  have hpair : l'.currencyPair = l.currencyPair := by simp [hset]
  have hitem : ∀ j, l'.item j = if j = i then m else l.item j := by
    intro j
    rw [hset, SystemVault.item_setItem]
  simp only [SystemVault.update, returns_guards] at h
  obtain ⟨k, -, rfl, rfl⟩ := h
  have hread : ∀ p, getLiquidationVault p (s.mapVaultRegistry fun r => { r with
      liquidationVault := update r.liquidationVault k.currencyPair (some k) }) =
      if p = l.currencyPair then k else getLiquidationVault p s := by
    intro p
    simp only [getLiquidationVault, Chain.mapVaultRegistry, update_apply, hpair]
    split <;> rfl
  refine ⟨⟨⟨⟨rfl, rfl, rfl, rfl, rfl⟩, ?_, fun _ _ => rfl, fun _ h => h, rfl, fun _ _ h => absurd rfl h,
    ?_, ?_⟩, rfl⟩, ?_, hpair⟩
  · funext account
    cases account with
    | system p j =>
      simp only [recorded, hread, Pi.add_apply]
      split
      · next heq =>
        subst heq
        rw [hitem j, hl]
        by_cases hj : j = i <;> simp [hj]
      · next hne => simp [hne]
    | _ => simp [recorded, Chain.mapVaultRegistry]
  · intro v
    simp
  · refine ⟨hs.vaults, ?_, hs.vaultItems, ?_⟩
    · intro p k hk
      simp only [Chain.mapVaultRegistry, update_apply] at hk
      split at hk
      · next heq =>
        obtain rfl := Option.some.inj hk
        exact heq.symm
      · exact hs.systems p k hk
    · intro p k j hk
      simp only [Chain.mapVaultRegistry, update_apply] at hk
      split at hk
      · obtain rfl := Option.some.inj hk
        rw [hitem j]
        -- the other counters are those of the stored vault
        split
        · exact hbound
        · exact hl.item_lt hs j
      · exact hs.systemItems p k j hk
  · rw [StoredSystem, hread, if_pos hpair]

theorem system_increase_updates (hs : Keyed s) (hl : StoredSystem s l)
    (h : Returns (l.increase i amount) s l' s') :
    amount.currencyId = i.currency l.currencyPair ∧
      SystemUpdates R (on (.system l.currencyPair i) amount.amount) l l' s s' := by
  have hfunc := systemUpdate_func h
  simp only [except_rules, Amount.checkedAdd_eq_ok] at hfunc
  obtain ⟨_, ⟨hc, hbound, rfl⟩, rfl⟩ := hfunc
  have hupdates := systemUpdate_updates (R := R) hs hl h rfl hbound
  rw [Nat.cast_add, add_sub_cancel_left] at hupdates
  exact ⟨hc.symm, hupdates⟩

theorem system_decrease_updates (hs : Keyed s) (hl : StoredSystem s l)
    (h : Returns (l.decrease i amount) s l' s') :
    amount.currencyId = i.currency l.currencyPair ∧
      SystemUpdates R (-on (.system l.currencyPair i) amount.amount) l l' s s' := by
  have hfunc := systemUpdate_func h
  simp only [except_rules, Amount.checkedSub_eq_ok] at hfunc
  obtain ⟨_, ⟨hc, hle, rfl⟩, rfl⟩ := hfunc
  have hupdates := systemUpdate_updates (R := R) hs hl h rfl
    ((Nat.sub_le _ _).trans_lt (hl.item_lt hs i))
  rw [Nat.cast_sub hle, sub_sub_cancel_left, on_neg] at hupdates
  exact ⟨hc.symm, hupdates⟩

/-- Adding to a counter of the liquidation vault of a pair of currencies. -/
theorem liquidation_increase_updates {p : VaultCurrencyPair} (hs : Keyed s)
    (h : Returns ((getLiquidationVault p s).increase i amount) s l' s') :
    amount.currencyId = i.currency p ∧
      SystemUpdates R (on (.system p i) amount.amount) (getLiquidationVault p s) l' s s' := by
  have hupdates := system_increase_updates (R := R) hs (getLiquidationVault_stored hs p) h
  rwa [getLiquidationVault_currencyPair hs] at hupdates

/-- Subtracting from a counter of the liquidation vault of a pair of currencies. -/
theorem liquidation_decrease_updates {p : VaultCurrencyPair} (hs : Keyed s)
    (h : Returns ((getLiquidationVault p s).decrease i amount) s l' s') :
    amount.currencyId = i.currency p ∧
      SystemUpdates R (-on (.system p i) amount.amount) (getLiquidationVault p s) l' s s' := by
  have hupdates := system_decrease_updates (R := R) hs (getLiquidationVault_stored hs p) h
  rwa [getLiquidationVault_currencyPair hs] at hupdates

end

/-! ## Updates of vaults -/

section

/-- Counters of one vault. -/
def itemsOn (f : VaultItem → ℤ) : Posting
  | .vault w i => if w = v then f i else 0
  | _ => 0

theorem itemsOn_single (i : VaultItem) (n : ℤ) : itemsOn v (Pi.single i n) = on (.vault v i) n := by
  funext account
  cases account with
  | vault w j =>
    by_cases hw : w = v <;> by_cases hj : j = i <;> simp [itemsOn, hw, hj]
  | _ => simp [itemsOn]

theorem itemsOn_add (f g : VaultItem → ℤ) : itemsOn v (f + g) = itemsOn v f + itemsOn v g := by
  funext account
  cases account with
  | vault w j => by_cases hw : w = v <;> simp [itemsOn, hw]
  | _ => simp [itemsOn]

theorem itemsOn_zero : itemsOn v 0 = 0 := by
  funext account
  cases account <;> simp [itemsOn]

/-- A copy of a vault was changed and written, which posted `δ`. -/
structure Updates (R : Runtime B) (δ : Posting) (d d' : Vault) (s s' : Chain B) : Prop where
  moves : Moves R {d.id} δ s s'
  stored : Stored s' d'
  id : d'.id = d.id
  status : d'.status = d.status

variable {d d' d'' : Vault} {δ ε : Posting} {i : VaultItem} {m : ℕ} {amount : Amount}
  {func : Vault → Except DispatchError Vault}

theorem Updates.refl (hs : Keyed s) (hd : Stored s d) : Updates R 0 d d s s where
  moves := (Moves.refl hs).congr (Set.empty_subset _) rfl
  stored := hd
  id := rfl
  status := rfl

theorem Updates.trans (h : Updates R δ d d' s s') (h' : Updates R ε d' d'' s' s'') :
    Updates R (δ + ε) d d'' s s'' where
  moves := (h.moves.trans h'.moves).congr (by rw [h.id, Set.union_self]) rfl
  stored := h'.stored
  id := h'.id.trans h.id
  status := h'.status.trans h.status

/-- Writing a vault posts the changes of its counters. -/
theorem insertVault_posts {f : VaultItem → ℤ} {u : Unit} (hs : Keyed s)
    (h : Returns (insertVault d'.id d') s u s')
    (hitem : ∀ j, (d'.item j : ℤ) =
      (s.vaultRegistry.vaults d'.id).elim (0 : ℤ) (fun d => d.item j) + f j)
    (hbound : ∀ j, d'.item j < balanceBound) :
    Posts R {d'.id} (itemsOn d'.id f) s s' ∧ Stored s' d' ∧
      statusOf s' = update (statusOf s) d'.id (some d'.status) := by
  obtain rfl := returns_modify.mp h
  have hstatus : statusOf (s.mapVaultRegistry fun r => { r with
      vaults := update r.vaults d'.id (some d') }) =
      update (statusOf s) d'.id (some d'.status) := by
    funext v
    simp only [statusOf, Chain.mapVaultRegistry, update_apply]
    split <;> rfl
  refine ⟨⟨⟨rfl, rfl, rfl, rfl, rfl⟩, ?_, ?_, ?_, rfl, fun _ _ h => absurd rfl h, ?_, ?_⟩, ?_, hstatus⟩
  · funext account
    cases account with
    | vault v j =>
      by_cases hv : v = d'.id
      · subst hv
        simp [recorded, Chain.mapVaultRegistry, itemsOn, hitem j]
      · simp [recorded, Chain.mapVaultRegistry, itemsOn, hv]
    | _ => simp [recorded, Chain.mapVaultRegistry, getLiquidationVault, itemsOn]
  · intro v hv
    exact Function.update_of_ne hv _ _
  · intro v hv
    rw [hstatus, update_apply]
    split
    · exact Option.some_ne_none _
    · exact hv
  · intro v
    exact dvd_zero _
  · refine ⟨?_, hs.systems, ?_, hs.systemItems⟩
    · intro v d hd
      simp only [Chain.mapVaultRegistry, update_apply] at hd
      split at hd
      · next heq =>
        obtain rfl := Option.some.inj hd
        exact heq.symm
      · exact hs.vaults v d hd
    · intro v d j hd
      simp only [Chain.mapVaultRegistry, update_apply] at hd
      split at hd
      · obtain rfl := Option.some.inj hd
        exact hbound j
      · exact hs.vaultItems v d j hd
  · exact Function.update_self _ _ _

theorem update_returns (h : Returns (d.update func) s d' s') :
    func d = .ok d' ∧ Returns (insertVault d'.id d') s () s' := by
  simp only [Vault.update, returns_steps] at h
  obtain ⟨_, hfunc, _, _, hinsert, rfl, rfl⟩ := h
  exact ⟨hfunc, hinsert⟩

/-- A new value of one counter of a stored vault. -/
theorem update_updates (hs : Keyed s) (hd : Stored s d) (h : Returns (d.update func) s d' s')
    (hid : d'.id = d.id) (hstatus : d'.status = d.status)
    (hitem : ∀ j, d'.item j = if j = i then m else d.item j) (hbound : m < balanceBound) :
    Updates R (on (.vault d.id i) (m - d.item i)) d d' s s' := by
  obtain ⟨-, hinsert⟩ := update_returns h
  have hitems : ∀ j, d'.item j < balanceBound := by
    intro j
    rw [hitem j]
    split
    · exact hbound
    · exact hs.vaultItems _ _ j hd
  obtain ⟨hposts, hstored, hst⟩ := insertVault_posts
    (f := Pi.single i ((m : ℤ) - d.item i)) hs hinsert
    (by intro j; rw [hid, hd, hitem j]; by_cases hj : j = i <;> simp [hj]) hitems
  rw [itemsOn_single, hid] at hposts
  refine ⟨⟨hposts, ?_⟩, hstored, hid, hstatus⟩
  rw [hst, hid, hstatus, ← hd.statusOf_eq, Function.update_eq_self]

section

variable (hs : Keyed s) (hd : Stored s d)

include hs hd

theorem setItem_updates (h : Returns (d.update func) s (d.setItem i m) s') (hbound : m < balanceBound) :
    Updates R (on (.vault d.id i) (m - d.item i)) d (d.setItem i m) s s' :=
  update_updates hs hd h (by simp) (by simp) (fun j => by rw [Vault.item_setItem]) hbound

theorem addItem_updates (h : Returns (d.update func) s (d.setItem i (d.item i + m)) s')
    (hbound : d.item i + m < balanceBound) :
    Updates R (on (.vault d.id i) m) d (d.setItem i (d.item i + m)) s s' := by
  have hupdates := setItem_updates (R := R) hs hd h hbound
  rwa [Nat.cast_add, add_sub_cancel_left] at hupdates

theorem subItem_updates (h : Returns (d.update func) s (d.setItem i (d.item i - m)) s')
    (hle : m ≤ d.item i) :
    Updates R (-on (.vault d.id i) m) d (d.setItem i (d.item i - m)) s s' := by
  have hupdates := setItem_updates (R := R) hs hd h
    ((Nat.sub_le _ _).trans_lt (hs.vaultItems _ _ i hd))
  rwa [Nat.cast_sub hle, sub_sub_cancel_left, on_neg] at hupdates

theorem increase_updates (h : Returns (d.increase i amount) s d' s') :
    amount.currencyId = d.id.wrappedCurrency ∧
      Updates R (on (.vault d.id i) amount.amount) d d' s s' := by
  obtain ⟨hfunc, -⟩ := update_returns h
  simp only [except_rules, Amount.checkedAdd_eq_ok] at hfunc
  obtain ⟨_, ⟨hc, hbound, rfl⟩, rfl⟩ := hfunc
  exact ⟨hc.symm, addItem_updates hs hd h hbound⟩

theorem decrease_updates (h : Returns (d.decrease i amount) s d' s') :
    amount.currencyId = d.id.wrappedCurrency ∧
      Updates R (-on (.vault d.id i) amount.amount) d d' s s' := by
  obtain ⟨hfunc, -⟩ := update_returns h
  simp only [except_rules, Amount.checkedSub_eq_ok] at hfunc
  obtain ⟨_, ⟨hc, hle, rfl⟩, rfl⟩ := hfunc
  exact ⟨hc.symm, subItem_updates hs hd h hle⟩

theorem increaseCollateral_updates (h : Returns (d.increaseCollateral i amount) s d' s') :
    Updates R (on (.vault d.id i) amount.amount) d d' s s' := by
  obtain ⟨hfunc, -⟩ := update_returns h
  simp only [except_rules, addBalance, except_ite_eq_ok, Except.ok.injEq, reduceCtorEq, and_false,
    or_false] at hfunc
  obtain ⟨_, ⟨hbound, rfl⟩, rfl⟩ := hfunc
  exact addItem_updates hs hd h hbound

theorem decreaseCollateral_updates (h : Returns (d.decreaseCollateral i amount) s d' s') :
    Updates R (-on (.vault d.id i) amount.amount) d d' s s' := by
  obtain ⟨hfunc, -⟩ := update_returns h
  simp only [except_rules, subBalance, except_ite_eq_ok, Except.ok.injEq, reduceCtorEq, and_false,
    or_false] at hfunc
  obtain ⟨_, ⟨hle, rfl⟩, rfl⟩ := hfunc
  exact subItem_updates hs hd h hle

theorem setToBeReplacedAmount_updates (hbound : amount.amount < balanceBound)
    (h : Returns (d.setToBeReplacedAmount amount) s d' s') :
    Updates R (on (.vault d.id .toBeReplaced) (amount.amount - d.toBeReplacedTokens)) d d' s s' := by
  obtain ⟨hfunc, -⟩ := update_returns h
  obtain rfl := except_pure_eq_ok.mp hfunc
  exact setItem_updates hs hd h hbound

/-- A change of a vault that leaves its counters and its status posts nothing. -/
theorem update_settings_updates (h : Returns (d.update func) s d' s') (hid : d'.id = d.id)
    (hstatus : d'.status = d.status) (hitem : d'.item = d.item) : Updates R 0 d d' s s' := by
  have hupdates := update_updates (R := R) (i := .issued) hs hd h hid hstatus
    (by intro j; rw [hitem]; split <;> simp_all) (hs.vaultItems _ _ .issued hd)
  rwa [sub_self, on, Pi.single_zero] at hupdates

end

/-! ## Counters of tokens -/

section

variable (hs : Keyed s) (hd : Stored s d)

theorem toBeIssuedAt_active (hactive : d.status ≠ .liquidated) (hd : Stored s d) :
    toBeIssuedAt (statusOf s) d.id = .vault d.id .toBeIssued := by
  rw [toBeIssuedAt, if_neg (hd.active hactive)]

/-- An update of the liquidation vault leaves the copy of a vault as it is. -/
theorem SystemUpdates.updates {l l' : SystemVault} (h : SystemUpdates R δ l l' s s')
    (hd : Stored s d) : Updates R δ d d s s' where
  moves := h.moves.congr (Set.empty_subset _) rfl
  stored := hd.of_moves h.moves (Set.notMem_empty _)
  id := rfl
  status := rfl

include hs hd

theorem increaseIssued_updates (h : Returns (d.increaseIssued amount) s d' s') :
    amount.currencyId = d.id.wrappedCurrency ∧
      Updates R (on (issuedAt (statusOf s) d.id) amount.amount) d d' s s' := by
  simp only [Vault.increaseIssued, returns_ite, returns_rules, Vault.isLiquidated_eq_true] at h
  simp only [issuedAt, hd.statusOf_eq, Option.some.injEq]
  rcases h with ⟨hliq, _, _, ⟨rfl, rfl⟩, l', _, hsystem, rfl, rfl⟩ | ⟨hactive, h⟩
  · obtain ⟨hc, hupdates⟩ := liquidation_increase_updates hs hsystem
    rw [if_pos hliq]
    exact ⟨hc, hupdates.updates hd⟩
  · rw [if_neg hactive]
    exact increase_updates hs hd h

/-- Subtracting from a counter of a vault, or of the liquidation vault if the vault is liquidated. -/
theorem decreaseEither_updates {j : SystemItem} (hj : j.currency d.id.currencies = d.id.wrappedCurrency)
    (h : Returns (do
      if d.isLiquidated then
        let _ ← (getLiquidationVault d.id.currencies (← get)).decrease j amount
        return d
      else d.decrease i amount) s d' s') :
    amount.currencyId = d.id.wrappedCurrency ∧
      Updates R (-on (if statusOf s d.id = some .liquidated then .system d.id.currencies j
        else .vault d.id i) amount.amount) d d' s s' := by
  simp only [returns_ite, returns_rules, Vault.isLiquidated_eq_true] at h
  simp only [hd.statusOf_eq, Option.some.injEq]
  rcases h with ⟨hliq, _, _, ⟨rfl, rfl⟩, l', _, hsystem, rfl, rfl⟩ | ⟨hactive, h⟩
  · obtain ⟨hc, hupdates⟩ := liquidation_decrease_updates hs hsystem
    rw [if_pos hliq]
    exact ⟨hc.trans hj, hupdates.updates hd⟩
  · rw [if_neg hactive]
    exact decrease_updates hs hd h

theorem decreaseIssued_updates (h : Returns (d.decreaseIssued amount) s d' s') :
    amount.currencyId = d.id.wrappedCurrency ∧
      Updates R (-on (issuedAt (statusOf s) d.id) amount.amount) d d' s s' :=
  decreaseEither_updates hs hd rfl h

theorem increaseToBeIssued_updates (h : Returns (d.increaseToBeIssued amount) s d' s') :
    amount.currencyId = d.id.wrappedCurrency ∧
      Updates R (on (toBeIssuedAt (statusOf s) d.id) amount.amount) d d' s s' := by
  simp only [Vault.increaseToBeIssued, returns_guards] at h
  obtain ⟨hactive, h⟩ := h
  rw [toBeIssuedAt_active (by simpa [Vault.isLiquidated] using hactive) hd]
  exact increase_updates hs hd h

theorem decreaseToBeIssued_updates (h : Returns (d.decreaseToBeIssued amount) s d' s') :
    amount.currencyId = d.id.wrappedCurrency ∧
      Updates R (-on (toBeIssuedAt (statusOf s) d.id) amount.amount) d d' s s' :=
  decreaseEither_updates hs hd rfl h

theorem increaseToBeRedeemed_updates (h : Returns (d.increaseToBeRedeemed amount) s d' s') :
    amount.currencyId = d.id.wrappedCurrency ∧
      Updates R (toBeRedeemedOn (statusOf s) d.id amount.amount) d d' s s' := by
  simp only [Vault.increaseToBeRedeemed, returns_guards] at h
  obtain ⟨hactive, h⟩ := h
  rw [toBeRedeemedOn, if_neg (hd.active (by simpa [Vault.isLiquidated] using hactive)), add_zero]
  exact increase_updates hs hd h

theorem decreaseToBeRedeemed_updates (h : Returns (d.decreaseToBeRedeemed amount) s d' s') :
    amount.currencyId = d.id.wrappedCurrency ∧
      Updates R (-toBeRedeemedOn (statusOf s) d.id amount.amount) d d' s s' := by
  simp only [Vault.decreaseToBeRedeemed, returns_ite, returns_rules,
    Vault.isLiquidated_eq_true] at h
  rcases h with ⟨hliq, _, _, ⟨rfl, rfl⟩, l', s₁, hsystem, h⟩ | ⟨hactive, h⟩
  · obtain ⟨-, hupdates⟩ := liquidation_decrease_updates (R := R) hs hsystem
    have hfirst := hupdates.updates hd
    obtain ⟨hc, hsecond⟩ := decrease_updates hfirst.moves.keyed hfirst.stored h
    have hposting : -toBeRedeemedOn (statusOf s) d.id amount.amount =
        -on (.system d.id.currencies .toBeRedeemed) amount.amount +
          -on (.vault d.id .toBeRedeemed) amount.amount := by
      rw [toBeRedeemedOn, if_pos (by rw [hd.statusOf_eq, hliq]), neg_add, add_comm]
    rw [hposting]
    exact ⟨hc, hfirst.trans hsecond⟩
  · rw [toBeRedeemedOn, if_neg (hd.active hactive), add_zero]
    exact decrease_updates hs hd h

theorem executeIssueTokens_updates (h : Returns (d.executeIssueTokens amount) s d' s') :
    amount.currencyId = d.id.wrappedCurrency ∧
      Updates R (on (issuedAt (statusOf s) d.id) amount.amount -
        on (toBeIssuedAt (statusOf s) d.id) amount.amount) d d' s s' := by
  simp only [Vault.executeIssueTokens, returns_bind] at h
  obtain ⟨d₁, s₁, hpromise, hissue⟩ := h
  obtain ⟨hc, hfirst⟩ := decreaseToBeIssued_updates hs hd hpromise
  obtain ⟨-, hsecond⟩ := increaseIssued_updates hfirst.moves.keyed hfirst.stored hissue
  rw [hfirst.moves.status, hfirst.id] at hsecond
  rw [sub_eq_add_neg, add_comm]
  exact ⟨hc, hfirst.trans hsecond⟩

theorem executeRedeemTokens_updates (h : Returns (d.executeRedeemTokens amount) s d' s') :
    amount.currencyId = d.id.wrappedCurrency ∧
      Updates R (-toBeRedeemedOn (statusOf s) d.id amount.amount -
        on (issuedAt (statusOf s) d.id) amount.amount) d d' s s' := by
  simp only [Vault.executeRedeemTokens, returns_bind] at h
  obtain ⟨d₁, s₁, hredeem, hissue⟩ := h
  obtain ⟨hc, hfirst⟩ := decreaseToBeRedeemed_updates hs hd hredeem
  obtain ⟨-, hsecond⟩ := decreaseIssued_updates hfirst.moves.keyed hfirst.stored hissue
  rw [hfirst.moves.status, hfirst.id] at hsecond
  rw [sub_eq_add_neg]
  exact ⟨hc, hfirst.trans hsecond⟩

end

end

end Spacewalk.Ledger
