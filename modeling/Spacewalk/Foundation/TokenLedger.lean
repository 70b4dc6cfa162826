import Spacewalk.Foundation.Dispatch

/-!
# Token ledgers with reserves

A multi-currency ledger keeps for every account a free and a reserved balance in every
currency, and the issuance of every currency.  `Holdings` is the abstract ledger with the
effect of the usual operations; `MultiCurrency` is the interface of an implementation, whose
state is not known, and `MultiCurrency.Lawful` says that a successful operation of the
implementation has the effect of the abstract one: balances are conserved, an operation that
cannot be carried out fails, and releasing or slashing reserved funds reports the shortfall.
-/

namespace Foundation

open Function

variable {ε A C B : Type} [DecidableEq A] [DecidableEq C]

/-! ## The abstract ledger -/

/-- What accounts hold, and how much of every currency exists. -/
structure Holdings (A C : Type) where
  /-- The balance that can be spent. -/
  free : C → A → Nat
  /-- The balance that is locked. -/
  reserved : C → A → Nat
  /-- The total amount of a currency; an integer, so that it can be subtracted from. -/
  issuance : C → Int

variable (f : C → A → Nat)

/-- Replace the balance of one account in one currency. -/
def setBalance (c : C) (a : A) (n : Nat) : C → A → Nat :=
  update f c (update (f c) a n)

theorem setBalance_apply (c c' : C) (a a' : A) (n : Nat) :
    setBalance f c a n c' a' = if c' = c ∧ a' = a then n else f c' a' := by
  unfold setBalance
  by_cases hc : c' = c
  · subst hc
    by_cases ha : a' = a
    · subst ha
      simp
    · simp [ha]
  · simp [hc]

theorem setBalance_add (c c' : C) (a a' : A) (x : Nat) :
    (setBalance f c a (f c a + x) c' a' : Int) = f c' a' + if c' = c ∧ a' = a then (x : Int) else 0 := by
  rw [setBalance_apply]
  split_ifs with heq
  · obtain ⟨rfl, rfl⟩ := heq
    omega
  · omega

theorem setBalance_sub {f : C → A → Nat} {c : C} {a : A} {x : Nat} (hx : x ≤ f c a) (c' : C)
    (a' : A) :
    (setBalance f c a (f c a - x) c' a' : Int) =
      f c' a' + if c' = c ∧ a' = a then -(x : Int) else 0 := by
  rw [setBalance_apply]
  split_ifs with heq
  · obtain ⟨rfl, rfl⟩ := heq
    omega
  · omega

namespace Holdings

/-- Move free balance from one account to another. -/
def transfer (h : Holdings A C) (c : C) (a b : A) (x : Nat) : Holdings A C :=
  let debited := setBalance h.free c a (h.free c a - x)
  { h with free := setBalance debited c b (debited c b + x) }

/-- Lock free balance. -/
def reserve (h : Holdings A C) (c : C) (a : A) (x : Nat) : Holdings A C :=
  { h with
    free := setBalance h.free c a (h.free c a - x)
    reserved := setBalance h.reserved c a (h.reserved c a + x) }

/-- Release locked balance. -/
def unreserve (h : Holdings A C) (c : C) (a : A) (x : Nat) : Holdings A C :=
  { h with
    free := setBalance h.free c a (h.free c a + x)
    reserved := setBalance h.reserved c a (h.reserved c a - x) }

/-- Burn locked balance. -/
def slashReserved (h : Holdings A C) (c : C) (a : A) (x : Nat) : Holdings A C :=
  { h with
    reserved := setBalance h.reserved c a (h.reserved c a - x)
    issuance := update h.issuance c (h.issuance c - x) }

/-- Create free balance. -/
def deposit (h : Holdings A C) (c : C) (a : A) (x : Nat) : Holdings A C :=
  { h with
    free := setBalance h.free c a (h.free c a + x)
    issuance := update h.issuance c (h.issuance c + x) }

/-- A transfer takes from its source only. -/
theorem free_le_free_transfer (h : Holdings A C) (c c' : C) (a b : A) {b' : A} (x : Nat)
    (hb : b' ≠ a) : h.free c' b' ≤ (h.transfer c a b x).free c' b' := by
  simp only [transfer, setBalance_apply, hb, and_false, if_false]
  by_cases heq : c' = c ∧ b' = b
  · obtain ⟨rfl, rfl⟩ := heq
    simp [hb]
  · simp [heq]

/-- Locked balance that is released and moved on is free for the receiver only. -/
theorem free_unreserve_transfer (h : Holdings A C) (c c' : C) (a b b' : A) (x : Nat) :
    ((h.unreserve c a x).transfer c a b x).free c' b' =
      h.free c' b' + if c' = c ∧ b' = b then x else 0 := by
  simp only [transfer, unreserve, setBalance_apply]
  by_cases hb : c' = c ∧ b' = b
  · obtain ⟨rfl, rfl⟩ := hb
    by_cases ha : b' = a <;> simp [ha]
  · by_cases ha : c' = c ∧ b' = a
    · obtain ⟨rfl, rfl⟩ := ha
      have hne : b' ≠ b := fun h => hb ⟨rfl, h⟩
      simp [hne]
    · simp [hb, ha]

/-- Locking and burning takes free balance only. -/
theorem reserved_reserve_slashReserved (h : Holdings A C) (c c' : C) (a a' : A) (x : Nat) :
    ((h.reserve c a x).slashReserved c a x).reserved c' a' = h.reserved c' a' := by
  simp only [reserve, slashReserved, setBalance_apply]
  by_cases heq : c' = c ∧ a' = a
  · obtain ⟨rfl, rfl⟩ := heq
    simp
  · simp [heq]

end Holdings

/-! ## Implementations -/

/-- The interface of a multi-currency ledger with state `B`. -/
structure MultiCurrency (ε A C B : Type) where
  freeBalance : B → C → A → Nat
  reservedBalance : B → C → A → Nat
  totalIssuance : B → C → Int
  /-- Move free balance from one account to another. -/
  transfer : C → A → A → Nat → Dispatch ε B Unit
  /-- Lock free balance. -/
  reserve : C → A → Nat → Dispatch ε B Unit
  /-- Release locked balance as far as there is any; returns the amount that was missing. -/
  unreserve : C → A → Nat → B → Nat × B
  /-- Burn locked balance as far as there is any; returns the amount that was missing. -/
  slashReserved : C → A → Nat → B → Nat × B
  /-- Create free balance. -/
  deposit : C → A → Nat → Dispatch ε B Unit

namespace MultiCurrency

/-- The holdings that an implementation shows. -/
def holdings (M : MultiCurrency ε A C B) (t : B) : Holdings A C :=
  ⟨M.freeBalance t, M.reservedBalance t, M.totalIssuance t⟩

/-- Successful operations have the effect of the abstract ledger. -/
structure Lawful (M : MultiCurrency ε A C B) : Prop where
  transfer : ∀ c a b x t u t', Returns (M.transfer c a b x) t u t' →
    x ≤ M.freeBalance t c a ∧ M.holdings t' = (M.holdings t).transfer c a b x
  reserve : ∀ c a x t u t', Returns (M.reserve c a x) t u t' →
    x ≤ M.freeBalance t c a ∧ M.holdings t' = (M.holdings t).reserve c a x
  unreserve : ∀ c a x t, (M.unreserve c a x t).1 = x - min x (M.reservedBalance t c a) ∧
    M.holdings (M.unreserve c a x t).2 =
      (M.holdings t).unreserve c a (min x (M.reservedBalance t c a))
  slashReserved : ∀ c a x t, (M.slashReserved c a x t).1 = x - min x (M.reservedBalance t c a) ∧
    M.holdings (M.slashReserved c a x t).2 =
      (M.holdings t).slashReserved c a (min x (M.reservedBalance t c a))
  deposit : ∀ c a x t u t', Returns (M.deposit c a x) t u t' →
    M.holdings t' = (M.holdings t).deposit c a x

/-- Operations that the free balance covers succeed. -/
structure Covering (M : MultiCurrency ε A C B) : Prop where
  transfer : ∀ c a b x t, x ≤ M.freeBalance t c a → ∃ t', Returns (M.transfer c a b x) t () t'
  reserve : ∀ c a x t, x ≤ M.freeBalance t c a → ∃ t', Returns (M.reserve c a x) t () t'

end MultiCurrency

/-! ## A plain implementation -/

/-- The abstract ledger as an implementation: an operation fails with `e` exactly if the free
balance does not cover it. -/
def plainLedger (A C : Type) [DecidableEq A] [DecidableEq C] (e : ε) :
    MultiCurrency ε A C (Holdings A C) where
  freeBalance h := h.free
  reservedBalance h := h.reserved
  totalIssuance h := h.issuance
  transfer c a b x := do
    ensure (x ≤ (← get).free c a) e
    modify fun h => h.transfer c a b x
  reserve c a x := do
    ensure (x ≤ (← get).free c a) e
    modify fun h => h.reserve c a x
  unreserve c a x h := (x - min x (h.reserved c a), h.unreserve c a (min x (h.reserved c a)))
  slashReserved c a x h :=
    (x - min x (h.reserved c a), h.slashReserved c a (min x (h.reserved c a)))
  deposit c a x := modify fun h => h.deposit c a x

theorem plainLedger_lawful (e : ε) : (plainLedger A C e).Lawful where
  transfer := by
    intro c a b x t u t' h
    simp only [plainLedger, returns_rules, ensure_eq_ok] at h
    obtain ⟨_, _, ⟨rfl, rfl⟩, -, _, ⟨hle, rfl⟩, rfl⟩ := h
    exact ⟨hle, rfl⟩
  reserve := by
    intro c a x t u t' h
    simp only [plainLedger, returns_rules, ensure_eq_ok] at h
    obtain ⟨_, _, ⟨rfl, rfl⟩, -, _, ⟨hle, rfl⟩, rfl⟩ := h
    exact ⟨hle, rfl⟩
  unreserve := by
    intro c a x t
    exact ⟨rfl, rfl⟩
  slashReserved := by
    intro c a x t
    exact ⟨rfl, rfl⟩
  deposit := by
    intro c a x t u t' h
    simp only [plainLedger, returns_modify] at h
    rw [← h]
    rfl

theorem plainLedger_covering (e : ε) : (plainLedger A C e).Covering where
  transfer := by
    intro c a b x t h
    simp only [plainLedger, returns_rules, ensure_eq_ok]
    exact ⟨_, t, t, ⟨rfl, rfl⟩, (), t, ⟨h, rfl⟩, rfl⟩
  reserve := by
    intro c a x t h
    simp only [plainLedger, returns_rules, ensure_eq_ok]
    exact ⟨_, t, t, ⟨rfl, rfl⟩, (), t, ⟨h, rfl⟩, rfl⟩

end Foundation
