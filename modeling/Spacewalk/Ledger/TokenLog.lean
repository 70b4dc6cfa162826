import Spacewalk.Foundation.Logged
import Spacewalk.Ledger.CallWrites

/-!
# The token operations of a pallet

The balances do not tell which pallet reserved a token: the redeem pallet, the issue pallet and the
vault registry all reserve balances of the same account.  This module instruments the calls of one
pallet with a log of the token operations that this pallet carries out itself (`Instrument`); what
it asks other pallets to do is not logged.  A logged operation is carried out as it is logged
(`own`), and without the log an instrumented call is the call (`Instrument.erases`), so every run is
a logged run (`run_logged`).
-/

namespace Spacewalk.Ledger

open Foundation VaultRegistry

variable {B : Type} {R : Runtime B} {W : Set CurrencyId} {s s' : Chain B}

/-! ## Token operations -/

/-- What a pallet does with tokens of an account. -/
inductive TokenOp where
  /-- Reserve free balance. -/
  | lock (account : AccountId) (amount : Amount)
  /-- Make reserved balance free. -/
  | unlock (account : AccountId) (amount : Amount)
  /-- Burn reserved balance. -/
  | burn (account : AccountId) (amount : Amount)
  /-- Move free balance to the free balance of another account. -/
  | transfer (source destination : AccountId) (amount : Amount)
  /-- Move reserved griefing collateral of a user to the free balance of another account. -/
  | slash (source destination : AccountId) (amount : Amount)
  deriving DecidableEq

namespace TokenOp

/-- Carry out the operation. -/
def perform (R : Runtime B) : TokenOp → ChainM B Unit
  | lock a amount => amount.lockOn R a
  | unlock a amount => amount.unlockOn R a
  | burn a amount => amount.burnFrom R a
  | transfer a b amount => amount.transfer R a b
  | slash a b amount => transferFunds R (.userGriefing a) (.freeBalance b) amount

/-- What the operation adds to the balance of a currency that is reserved on an account. -/
def reserves (a : AccountId) (c : CurrencyId) : TokenOp → ℤ
  | lock b amount => if b = a ∧ amount.currencyId = c then amount.amount else 0
  | unlock b amount | burn b amount | slash b _ amount =>
    if b = a ∧ amount.currencyId = c then -amount.amount else 0
  | transfer _ _ _ => 0

end TokenOp

/-- What a list of operations adds to the balance of a currency that is reserved on an account:
everything that is reserved, less everything that is unreserved, slashed or burned. -/
def reservedBy (ops : List TokenOp) (a : AccountId) (c : CurrencyId) : ℤ :=
  (ops.map (TokenOp.reserves a c)).sum

theorem reservedBy_append (ops ops' : List TokenOp) (a : AccountId) (c : CurrencyId) :
    reservedBy (ops ++ ops') a c = reservedBy ops a c + reservedBy ops' a c := by
  simp [reservedBy]

/-- A computation that logs its own token operations. -/
abbrev LoggedM (B : Type) : Type → Type := Logged TokenOp DispatchError (Chain B)

/-- Carry out an operation and log it. -/
def own (R : Runtime B) (op : TokenOp) : LoggedM B Unit := logging op (op.perform R)

/-- Carry out an operation and log it; if it fails, the error is `e`. -/
def ownOrFail (R : Runtime B) (e : DispatchError) (op : TokenOp) : LoggedM B Unit :=
  logging op (withError e (op.perform R))

/-! ## Instrumented calls -/

/-- The calls, with a log of token operations. -/
structure Instrument (R : Runtime B) where
  dispatch : Origin → RuntimeCall → LoggedM B Unit
  erases : ∀ o call, erase (dispatch o call) = call.dispatch R o

/-- A step of a run, with its token operations. -/
abbrev LogEntry := Record × List TokenOp

/-- A step of the chain that logs the token operations of a call. -/
inductive LoggedStep (I : Instrument R) (W : Set CurrencyId) : Chain B → LogEntry → Chain B → Prop
  | extrinsic {s s' : Chain B} {origin : Origin} {call : RuntimeCall} {ops : List TokenOp} :
      Logs (I.dispatch origin call) s () ops s' →
      LoggedStep I W s (⟨.extrinsic origin call, drawnBetween R s s'⟩, ops) s'
  | environment {s s' : Chain B} : EnvironmentStep R W s s' →
      LoggedStep I W s (⟨.environment, none⟩, []) s'

/-- The identifiers that are drawn in a logged run. -/
def loggedIds (log : List LogEntry) : List H256 := drawnIds (log.map Prod.fst)

/-- All token operations of a logged run. -/
def opsOf (log : List LogEntry) : List TokenOp := log.flatMap Prod.snd

/-! ## Opening a request -/

theorem sameRequests_of_surroundings (h : SameSurroundings s s') : SameRequests s s' where
  issues := congrArg (fun t => t.issue.issueRequests) h
  redeems := congrArg (fun t => t.redeem.redeemRequests) h
  replaces := congrArg (fun t => t.replace.replaceRequests) h
  drawn := congrArg Surroundings.nonce h
  system := congrArg Surroundings.system h

/-- The identifier of a request that is opened is the one that is drawn between the two states. -/
theorem drawnBetween_write {s₁ s₂ : Chain B} {w : Write} (hbefore : SameRequests s s₁)
    (hafter : SameRequests (drawn s₁) s₂) :
    drawnBetween R s (w.apply s₂) = some (Security.nextId R s₁) := by
  have hnonce : (w.apply s₂).security.nonce = s.security.nonce + 1 := by
    rw [w.nonce_apply, hafter.drawn, ← hbefore.drawn]
    rfl
  rw [drawnBetween, hnonce, if_neg (by simp), nextId_congr hbefore]

/-! ## Logged runs -/

section

variable {I : Instrument R} {entry : LogEntry} {log : List LogEntry} {records : List Record}

theorem Instrument.returns (I : Instrument R) {o : Origin} {call : RuntimeCall} {u : Unit} :
    Returns (call.dispatch R o) s u s' ↔ ∃ ops, Logs (I.dispatch o call) s u ops s' := by
  rw [← I.erases, returns_erase]

/-- The steps of the chain are the logged steps without their logs. -/
theorem step_iff_logged (I : Instrument R) {record : Record} :
    Step R W s record s' ↔ ∃ entry : LogEntry, entry.1 = record ∧ LoggedStep I W s entry s' := by
  constructor
  · intro h
    cases h with
    | extrinsic h =>
      obtain ⟨ops, hlogs⟩ := I.returns.mp h
      exact ⟨_, rfl, .extrinsic hlogs⟩
    | environment h => exact ⟨_, rfl, .environment h⟩
  · rintro ⟨entry, rfl, h⟩
    cases h with
    | extrinsic hlogs => exact .extrinsic (I.returns.mpr ⟨_, hlogs⟩)
    | environment h => exact .environment h

theorem LoggedStep.step (h : LoggedStep I W s entry s') : Step R W s entry.1 s' :=
  (step_iff_logged I).mpr ⟨entry, rfl, h⟩

/-- Every run is a logged run, and every logged run is a run. -/
theorem run_logged (I : Instrument R) :
    Run (Step R W) s records s' ↔
      ∃ log : List LogEntry, log.map Prod.fst = records ∧ Run (LoggedStep I W) s log s' :=
  Run.exists_map_iff fun _ _ _ => step_iff_logged I

theorem opsOf_concat (log : List LogEntry) (entry : LogEntry) :
    opsOf (log ++ [entry]) = opsOf log ++ entry.2 := by
  simp [opsOf]

/-- An invariant of logged runs from genesis whose request identifiers differ: every step may use
that the state is well formed and that the identifier that it draws is not in use. -/
theorem logged_invariant {P : Chain B → List LogEntry → Prop} (hR : R.tokens.Lawful)
    {s₀ : Chain B} (hgenesis : IsGenesis s₀) (h₀ : P s₀ [])
    (hstep : ∀ s log entry s', Sound s → P s log → LoggedStep I W s entry s' →
      (∀ id, entry.1.drawn = some id → ¬ Used s id) → P s' (log ++ [entry]))
    (hrun : Run (LoggedStep I W) s₀ log s) (hnodup : (loggedIds log).Nodup) :
    Identified s (loggedIds log) ∧ P s log :=
  identified_invariant hR (fun _ _ _ h => h.step) hgenesis h₀ hstep hrun hnodup

end

end Spacewalk.Ledger
