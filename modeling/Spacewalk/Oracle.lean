import Spacewalk.Foundation.Run
import Spacewalk.Runtime.Call

/-!
# The oracle's hook and the status of the parachain

The security pallet (`pallets/security/src/lib.rs`) keeps the status of the parachain and a set of
errors.  At the start of every block the hook of the oracle pallet (`pallets/oracle/src/lib.rs`)
compares the timestamps of the configured prices with the current time.  It writes the status only
when the oracle goes online or offline, which it reads off the set of errors, and prices are given
out whenever the status is `Running`.

* `shutdown_sticky_iff`: between calls of root to the security pallet a shutdown lasts exactly as
  long as no hook finds the oracle going offline, or coming back without another error.
* `price_fresh`: a price that is given out is fresh if its key is configured, the hook did not find
  the parachain running with an offline oracle, and root did not set it running again in the block.

The chain of the bridge pallets sees all of this as steps of its environment (`run_environment`),
and reads the same prices (`Observes.getPrice_eq`).
-/

namespace Spacewalk

open Foundation

/-! ## Storage -/

/-- The errors that lead to the status `Error`. -/
inductive ErrorCode where
  | none
  | oracleOffline
  deriving DecidableEq

/-- The key of a price. -/
inductive OracleKey where
  | exchangeRate (currencyId : CurrencyId)
  deriving DecidableEq

/-- A price with the time of its last update. -/
structure TimestampedValue where
  value : UnsignedFixedPoint
  timestamp : UInt64

/-- What the hooks of the security and of the oracle pallet read and write. -/
structure Monitor where
  parachainStatus : StatusCode
  errors : Finset ErrorCode
  activeBlockCount : Nat
  /-- `MaxDelay`, in milliseconds. -/
  maxDelay : UInt64
  oracleKeys : List OracleKey
  /-- The prices that `DataProvider::get_no_op` finds. -/
  feed : OracleKey → Option TimestampedValue
  /-- The timestamp of the chain. -/
  currentTime : UInt64

variable (errorCode : ErrorCode) (s : Monitor) (timestamp : UInt64) (key : OracleKey)

namespace Monitor

/-! ## Security -/

def setStatus (statusCode : StatusCode) (s : Monitor) : Monitor :=
  { s with parachainStatus := statusCode }

def insertError : Monitor :=
  { s with errors := insert errorCode s.errors }

def removeError : Monitor :=
  { s with errors := s.errors.erase errorCode }

/-- Clear errors; without further errors the parachain runs again. -/
def recoverFrom (errorCodes : List ErrorCode) (s : Monitor) : Monitor :=
  let s := errorCodes.foldl (fun s errorCode => s.removeError errorCode) s
  if s.errors = ∅ then s.setStatus .running else s

def recoverFromOracleOffline : Monitor :=
  s.recoverFrom [.oracleOffline]

/-- Count a block in which the parachain runs, up to the largest block number. -/
def incrementActiveBlock : Monitor :=
  if s.parachainStatus = .running then
    { s with activeBlockCount := min (s.activeBlockCount + 1) (2 ^ 32 - 1) }
  else s

inductive SecurityCall where
  | setParachainStatus (statusCode : StatusCode)
  | insertParachainError (errorCode : ErrorCode)
  | removeParachainError (errorCode : ErrorCode)

def SecurityCall.dispatch (origin : Origin) (call : SecurityCall) :
    Dispatch DispatchError Monitor Unit := do
  ensureRoot origin
  match call with
  | .setParachainStatus statusCode => modify (setStatus statusCode)
  | .insertParachainError errorCode => modify (insertError errorCode)
  | .removeParachainError errorCode => modify (removeError errorCode)

/-! ## Oracle -/

/-- The price is older than the maximal delay allows; the sum wraps around. -/
def isOutdated (price : TimestampedValue) : Bool :=
  decide (s.currentTime > price.timestamp + s.maxDelay)

/-- The configured keys with a price that is not outdated, and the price. -/
def updatedItems : List (OracleKey × UnsignedFixedPoint) :=
  s.oracleKeys.filterMap fun key =>
    match s.feed key with
    | none => none
    | some price => if s.isOutdated price then none else some (key, price.value)

def isOracleOnline : Bool :=
  decide (ErrorCode.oracleOffline ∉ s.errors)

/-- Every configured key has a price that is not outdated, and there are keys. -/
def newStatusIsOnline : Bool :=
  !s.oracleKeys.isEmpty && decide (s.updatedItems.length > 0) &&
    decide (s.updatedItems.length = s.oracleKeys.length)

def reportOracleOffline : Monitor :=
  (s.setStatus .error).insertError .oracleOffline

/-- The hook of the oracle pallet. -/
def beginBlock : Monitor :=
  if s.isOracleOnline ≠ s.newStatusIsOnline then
    if s.newStatusIsOnline then s.recoverFromOracleOffline else s.reportOracleOffline
  else s

/-- The hooks of both pallets, in the order of the runtime. -/
def onInitialize : Monitor :=
  s.incrementActiveBlock.beginBlock

def getPrice (s : Monitor) : Except DispatchError UnsignedFixedPoint := do
  ensure (s.parachainStatus = .running) .parachainNotRunning
  let price ← okOr (s.feed key) (.oracle .missingExchangeRate)
  return price.value

inductive OracleCall where
  | updateOracleKeys (oracleKeys : List OracleKey)
  | setMaxDelay (newMaxDelay : UInt64)

def OracleCall.dispatch (origin : Origin) (call : OracleCall) :
    Dispatch DispatchError Monitor Unit := do
  ensureRoot origin
  match call with
  | .updateOracleKeys oracleKeys => modify fun s => { s with oracleKeys := oracleKeys }
  | .setMaxDelay newMaxDelay => modify fun s => { s with maxDelay := newMaxDelay }

/-- The storage at genesis: both pallets' `build`. -/
def genesis (initialStatus : StatusCode) (maxDelay : UInt64) (oracleKeys : List OracleKey) :
    Monitor :=
  { parachainStatus := initialStatus
    errors := {.oracleOffline}
    activeBlockCount := 0
    maxDelay := maxDelay
    oracleKeys := oracleKeys
    feed := fun _ => none
    currentTime := 0 }

/-! ## Steps -/

/-- What happens to the monitored state. -/
inductive Event where
  | onInitialize
  | security (origin : Origin) (call : SecurityCall)
  | oracle (origin : Origin) (call : OracleCall)
  /-- The time passes, prices are reported, and other pallets are called. -/
  | environment (currentTime : UInt64) (feed : OracleKey → Option TimestampedValue)

/-- A step of the monitored state: the hooks at the start of a block, a call that succeeds, or the
environment. -/
inductive MonitorStep : Monitor → Event → Monitor → Prop
  | onInitialize {s : Monitor} : MonitorStep s .onInitialize s.onInitialize
  | security {s s' : Monitor} {origin : Origin} {call : SecurityCall} :
      Returns (call.dispatch origin) s () s' → MonitorStep s (.security origin call) s'
  | oracle {s s' : Monitor} {origin : Origin} {call : OracleCall} :
      Returns (call.dispatch origin) s () s' → MonitorStep s (.oracle origin call) s'
  | environment {s : Monitor} {currentTime : UInt64} {feed : OracleKey → Option TimestampedValue} :
      MonitorStep s (.environment currentTime feed)
        { s with currentTime := currentTime, feed := feed }

section

variable {s s' : Monitor} {e : Event} {origin : Origin}

/-- A call of the oracle pallet changes the keys and the delay only. -/
theorem oracle_returns {call : OracleCall} (h : Returns (call.dispatch origin) s () s') :
    s'.parachainStatus = s.parachainStatus ∧ s'.errors = s.errors ∧
      s'.activeBlockCount = s.activeBlockCount ∧ s'.feed = s.feed := by
  simp only [OracleCall.dispatch, returns_steps] at h
  obtain ⟨_, -, h⟩ := h
  cases call with
  | updateOracleKeys oracleKeys =>
    obtain rfl := returns_modify.mp h
    exact ⟨rfl, rfl, rfl, rfl⟩
  | setMaxDelay newMaxDelay =>
    obtain rfl := returns_modify.mp h
    exact ⟨rfl, rfl, rfl, rfl⟩

/-- A call of the security pallet changes the status or the errors only. -/
theorem security_returns {call : SecurityCall} (h : Returns (call.dispatch origin) s () s') :
    (∃ statusCode, call = .setParachainStatus statusCode ∧ s' = s.setStatus statusCode) ∨
      (∃ errors, s' = { s with errors := errors }) := by
  simp only [SecurityCall.dispatch, returns_steps] at h
  obtain ⟨_, -, h⟩ := h
  cases call with
  | setParachainStatus statusCode => exact .inl ⟨statusCode, rfl, (returns_modify.mp h).symm⟩
  | insertParachainError errorCode => exact .inr ⟨_, (returns_modify.mp h).symm⟩
  | removeParachainError errorCode => exact .inr ⟨_, (returns_modify.mp h).symm⟩

/-- What the hook of the oracle pallet does. -/
theorem beginBlock_cases (s : Monitor) :
    (s.isOracleOnline = s.newStatusIsOnline ∧ s.beginBlock = s) ∨
      (s.isOracleOnline = false ∧ s.newStatusIsOnline = true ∧
        s.beginBlock = s.recoverFromOracleOffline) ∨
      (s.isOracleOnline = true ∧ s.newStatusIsOnline = false ∧
        s.beginBlock = s.reportOracleOffline) := by
  unfold beginBlock
  cases s.isOracleOnline <;> cases s.newStatusIsOnline <;> simp

/-- Counting the block changes nothing that the hook of the oracle reads. -/
theorem incrementActiveBlock_eq (s : Monitor) :
    ∃ n, s.incrementActiveBlock = { s with activeBlockCount := n } := by
  unfold incrementActiveBlock
  split
  · exact ⟨_, rfl⟩
  · exact ⟨s.activeBlockCount, rfl⟩

theorem onInitialize_eq (s : Monitor) :
    ∃ n, s.onInitialize = beginBlock { s with activeBlockCount := n } := by
  obtain ⟨n, hn⟩ := incrementActiveBlock_eq s
  exact ⟨n, by rw [onInitialize, hn]⟩

/-- After a recovery the parachain runs, if no other error is recorded. -/
theorem recoverFromOracleOffline_status (s : Monitor) :
    s.recoverFromOracleOffline.parachainStatus =
      if s.errors.erase .oracleOffline = ∅ then .running else s.parachainStatus := by
  change Monitor.parachainStatus (if s.errors.erase .oracleOffline = ∅ then _ else _) = _
  split <;> rfl

/-- The status after the hooks. -/
theorem onInitialize_status (s : Monitor) :
    s.onInitialize.parachainStatus =
      if s.isOracleOnline = s.newStatusIsOnline then s.parachainStatus
      else if s.newStatusIsOnline = true then
        if s.errors.erase .oracleOffline = ∅ then .running else s.parachainStatus
      else .error := by
  obtain ⟨n, hn⟩ := onInitialize_eq s
  rw [hn]
  rcases beginBlock_cases { s with activeBlockCount := n } with
    ⟨honline, hs⟩ | ⟨honline, hnew, hs⟩ | ⟨honline, hnew, hs⟩
  · rw [hs]
    exact (if_pos honline).symm
  · rw [hs, recoverFromOracleOffline_status]
    change s.isOracleOnline = false at honline
    change s.newStatusIsOnline = true at hnew
    simp [honline, hnew]
  · rw [hs]
    change s.isOracleOnline = true at honline
    change s.newStatusIsOnline = false at hnew
    simp [honline, hnew, reportOracleOffline, insertError, setStatus]

end

/-! ## Shutdown -/

/-- The hooks do not end a shutdown: the oracle neither goes offline, nor does it come back without
another error. -/
def KeepsShutdown : Event → Prop
  | .onInitialize => s.isOracleOnline = s.newStatusIsOnline ∨
      (s.newStatusIsOnline = true ∧ ∃ errorCode ∈ s.errors, errorCode ≠ .oracleOffline)
  | _ => True

def Event.isSecurityCall : Event → Bool
  | .security _ _ => true
  | _ => false

theorem exists_other_error_iff {errors : Finset ErrorCode} :
    (∃ errorCode ∈ errors, errorCode ≠ .oracleOffline) ↔ errors.erase .oracleOffline ≠ ∅ := by
  rw [← Finset.nonempty_iff_ne_empty]
  constructor
  · rintro ⟨errorCode, hmem, hne⟩
    exact ⟨errorCode, Finset.mem_erase.mpr ⟨hne, hmem⟩⟩
  · rintro ⟨errorCode, hmem⟩
    obtain ⟨hne, hmem⟩ := Finset.mem_erase.mp hmem
    exact ⟨errorCode, hmem, hne⟩

/-- One step keeps a shutdown exactly under the condition. -/
theorem shutdown_kept_iff {s s' : Monitor} {e : Event} (hs : s.parachainStatus = .shutdown)
    (he : e.isSecurityCall = false) (hstep : MonitorStep s e s') :
    s'.parachainStatus = .shutdown ↔ KeepsShutdown s e := by
  cases hstep with
  | onInitialize =>
    rw [onInitialize_status, KeepsShutdown, exists_other_error_iff, hs]
    by_cases honline : s.isOracleOnline = s.newStatusIsOnline
    · simp [honline]
    · cases hnew : s.newStatusIsOnline <;> by_cases hother : s.errors.erase .oracleOffline = ∅ <;>
        simp_all
  | security _ => cases he
  | oracle h => simp [(oracle_returns h).1, hs, KeepsShutdown]
  | environment => simp [hs, KeepsShutdown]

/-- A run in which root makes no call to the security pallet stays in a shutdown, in every state,
exactly if every hook meets the condition. -/
theorem shutdown_sticky_iff {s₀ s : Monitor} {events : List Event}
    (h₀ : s₀.parachainStatus = .shutdown) (hcalls : ∀ e ∈ events, e.isSecurityCall = false) :
    Run (fun s e s' => MonitorStep s e s' ∧ s'.parachainStatus = .shutdown) s₀ events s ↔
      Run (fun s e s' => MonitorStep s e s' ∧ KeepsShutdown s e) s₀ events s := by
  induction events generalizing s₀ with
  | nil => simp
  | cons e events ih =>
    have he := hcalls e List.mem_cons_self
    have hrest : ∀ e ∈ events, e.isSecurityCall = false :=
      fun e h => hcalls e (List.mem_cons_of_mem _ h)
    rw [Run.cons_iff, Run.cons_iff]
    constructor
    · rintro ⟨t, ⟨hstep, ht⟩, hrun⟩
      exact ⟨t, ⟨hstep, (shutdown_kept_iff h₀ he hstep).mp ht⟩, (ih ht hrest).mp hrun⟩
    · rintro ⟨t, ⟨hstep, hkeeps⟩, hrun⟩
      have ht := (shutdown_kept_iff h₀ he hstep).mpr hkeeps
      exact ⟨t, ⟨hstep, ht⟩, (ih ht hrest).mpr hrun⟩

/-! ## Fresh prices -/

/-- The feed has a price for the key, which is at most as old as the delay allows. -/
def FreshAt : Prop :=
  ∃ price, s.feed key = some price ∧
    s.currentTime.toNat ≤ price.timestamp.toNat + s.maxDelay.toNat

theorem fresh_of_not_isOutdated {s : Monitor} {price : TimestampedValue}
    (h : s.isOutdated price = false) :
    s.currentTime.toNat ≤ price.timestamp.toNat + s.maxDelay.toNat := by
  have hle : ¬ price.timestamp + s.maxDelay < s.currentTime := of_decide_eq_false h
  rw [UInt64.lt_iff_toNat_lt, UInt64.toNat_add] at hle
  have hmod := Nat.mod_le (price.timestamp.toNat + s.maxDelay.toNat) (2 ^ 64)
  omega

/-- If the hook finds the oracle online, then the prices of all configured keys are fresh. -/
theorem freshAt_of_newStatusIsOnline {s : Monitor} {key : OracleKey}
    (h : s.newStatusIsOnline = true) (hkey : key ∈ s.oracleKeys) : s.FreshAt key := by
  simp only [newStatusIsOnline, Bool.and_eq_true, decide_eq_true_eq] at h
  have hsome := List.filterMap_length_eq_length.mp h.2 key hkey
  cases hfeed : s.feed key with
  | none => simp [hfeed] at hsome
  | some price =>
    cases houtdated : s.isOutdated price with
    | true => simp [hfeed, houtdated] at hsome
    | false => exact ⟨price, hfeed, fresh_of_not_isOutdated houtdated⟩

/-- In the rest of a block whose hooks ran in the state `s`: no further hooks, and root sets the
status `Running` only if the hook found the oracle online. -/
def InBlock (e : Event) : Prop :=
  e ≠ .onInitialize ∧
    ∀ origin, e = .security origin (.setParachainStatus .running) → s.newStatusIsOnline = true

/-- A step within the block keeps that the parachain runs only with an online oracle. -/
theorem running_in_block {s t t' : Monitor} {e : Event}
    (ht : t.parachainStatus = .running → s.newStatusIsOnline = true)
    (hstep : MonitorStep t e t') (he : InBlock s e) :
    t'.parachainStatus = .running → s.newStatusIsOnline = true := by
  cases hstep with
  | onInitialize => exact absurd rfl he.1
  | security h =>
    rcases security_returns h with ⟨statusCode, rfl, rfl⟩ | ⟨errors, rfl⟩
    · rintro rfl
      exact he.2 _ rfl
    · exact ht
  | oracle h =>
    rw [(oracle_returns h).1]
    exact ht
  | environment => exact ht

/-- After the hooks the parachain runs only with an online oracle, if the same holds while the oracle
is recorded as offline before them. -/
theorem running_after_hooks {s : Monitor}
    (hs : s.parachainStatus = .running → s.isOracleOnline = false → s.newStatusIsOnline = true)
    (hrunning : s.onInitialize.parachainStatus = .running) : s.newStatusIsOnline = true := by
  rw [onInitialize_status] at hrunning
  cases hnew : s.newStatusIsOnline with
  | true => rfl
  | false =>
    cases honline : s.isOracleOnline with
    | true => simp [honline, hnew] at hrunning
    | false =>
      rw [honline, hnew, if_pos rfl] at hrunning
      rw [← hs hrunning honline, hnew]

/-- The hooks of a block run in the state `s`.  As long as the feed is unchanged in that block, the
prices of the configured keys that are given out are fresh: the parachain does not run with an
oracle that is recorded as offline and found to be so, and root does not set it running then. -/
theorem price_fresh {s s' : Monitor} {events : List Event} {key : OracleKey}
    {price : UnsignedFixedPoint}
    (hs : s.parachainStatus = .running → s.isOracleOnline = false → s.newStatusIsOnline = true)
    (hrun : Run (fun t e t' => MonitorStep t e t' ∧ InBlock s e) s.onInitialize events s')
    (hfeed : s'.feed = s.feed) (hkey : key ∈ s.oracleKeys) (hprice : s'.getPrice key = .ok price) :
    ∃ v, s'.feed key = some v ∧ v.value = price ∧
      s.currentTime.toNat ≤ v.timestamp.toNat + s.maxDelay.toNat := by
  have hrunning : s'.parachainStatus = .running → s.newStatusIsOnline = true :=
    hrun.invariant (I := fun t => t.parachainStatus = .running → s.newStatusIsOnline = true)
      (fun t e t' ht hstep => running_in_block ht hstep.1 hstep.2) (running_after_hooks hs)
  simp only [getPrice, except_rules] at hprice
  obtain ⟨-, hstatus, v, hv, rfl⟩ := hprice
  obtain ⟨v', hv', hfresh⟩ := freshAt_of_newStatusIsOnline (hrunning hstatus) hkey
  obtain rfl := Option.mem_unique hv' (hfeed ▸ hv)
  exact ⟨v', hv, rfl, hfresh⟩

/-! ## Concrete runs -/

/-- The smallest price, updated at the given time. -/
def priceAt : TimestampedValue :=
  ⟨⟨1, by decide, by decide⟩, timestamp⟩

/-- The price of the native currency was updated at the given time, and that of the first XCM
currency at time 0. -/
def sampleFeed : OracleKey → Option TimestampedValue
  | .exchangeRate .native => some (priceAt timestamp)
  | .exchangeRate (.xcm 0) => some (priceAt 0)
  | _ => none

/-- At time 1000, with a maximal delay of 100; only the native currency is configured. -/
def sampleMonitor (status : StatusCode) (timestamp : UInt64) : Monitor :=
  { genesis status 100 [.exchangeRate .native] with
    feed := sampleFeed timestamp, currentTime := 1000 }

/-- Without prices the oracle stays offline, and the shutdown lasts. -/
theorem shutdown_sticky_without_prices :
    Run (fun s e s' => MonitorStep s e s' ∧ s'.parachainStatus = .shutdown)
      (genesis .shutdown 100 []) [.onInitialize] (genesis .shutdown 100 []).onInitialize :=
  (shutdown_sticky_iff rfl (by decide)).mpr (.single ⟨.onInitialize, .inl (by decide)⟩)

/-- The first price ends a shutdown. -/
theorem shutdown_ended_by_price :
    Run MonitorStep (genesis .shutdown 100 [.exchangeRate .native])
        [.environment 1000 (sampleFeed 1000), .onInitialize]
        (sampleMonitor .shutdown 1000).onInitialize ∧
      (sampleMonitor .shutdown 1000).onInitialize.parachainStatus = .running :=
  ⟨.cons .environment (.single .onInitialize), by decide⟩

/-- The price of the configured currency is given out and is fresh. -/
theorem price_fresh_native :
    (sampleMonitor .error 1000).onInitialize.getPrice (.exchangeRate .native) =
        .ok (priceAt 1000).value ∧
      ∃ v, (sampleMonitor .error 1000).onInitialize.feed (.exchangeRate .native) = some v ∧
        v.value = (priceAt 1000).value ∧ 1000 ≤ v.timestamp.toNat + 100 := by
  have hprice : (sampleMonitor .error 1000).onInitialize.getPrice (.exchangeRate .native) =
      .ok (priceAt 1000).value := by
    decide +kernel
  exact ⟨hprice, price_fresh (s := sampleMonitor .error 1000) (by decide) (.nil _) rfl
    List.mem_cons_self hprice⟩

/-- The price of the key is given out in a state, although its timestamp is 0, the time was 1000 at
the hooks and the maximal delay 100. -/
def GivesOutStale : Prop :=
  s.getPrice key = .ok (priceAt 0).value ∧ s.feed key = some (priceAt 0) ∧
    s.currentTime = 1000 ∧ s.maxDelay = 100

/-- Stale prices are given out right after the hooks: one whose key is not configured, and a
configured one, since the parachain was started with the status `Running`. -/
theorem stale_prices_given_out :
    Run MonitorStep (genesis .error 100 [.exchangeRate .native])
        [.environment 1000 (sampleFeed 1000), .onInitialize]
        (sampleMonitor .error 1000).onInitialize ∧
      GivesOutStale (sampleMonitor .error 1000).onInitialize (.exchangeRate (.xcm 0)) ∧
      Run MonitorStep (genesis .running 100 [.exchangeRate .native])
        [.environment 1000 (sampleFeed 0), .onInitialize]
        (sampleMonitor .running 0).onInitialize ∧
      GivesOutStale (sampleMonitor .running 0).onInitialize (.exchangeRate .native) :=
  ⟨.cons .environment (.single .onInitialize), ⟨by decide +kernel, rfl, rfl, rfl⟩,
    .cons .environment (.single .onInitialize), ⟨by decide +kernel, rfl, rfl, rfl⟩⟩

/-! ## The chain of the bridge pallets -/

section

variable {B : Type} {R : Runtime B} {W : Set CurrencyId}

/-- The storage of the bridge's chain that belongs to the monitored state. -/
structure Observes (c : Chain B) (s : Monitor) : Prop where
  parachainStatus : c.security.parachainStatus = s.parachainStatus
  activeBlockCount : c.security.activeBlockCount = s.activeBlockCount
  prices : ∀ currencyId, c.oracle.prices currencyId =
    (s.feed (.exchangeRate currencyId)).map TimestampedValue.value

/-- The chain reads the monitored prices. -/
theorem Observes.getPrice_eq {c : Chain B} {s : Monitor} (h : Observes c s)
    (currencyId : CurrencyId) :
    Oracle.getPrice currencyId c = s.getPrice (.exchangeRate currencyId) := by
  unfold Oracle.getPrice Monitor.getPrice Security.ensureParachainStatusRunning
  rw [h.parachainStatus, h.prices]
  cases s.feed (.exchangeRate currencyId) with
  | none => rfl
  | some price => rfl

/-- The chain with the monitored state in place of its own. -/
def writeTo (s : Monitor) (c : Chain B) : Chain B :=
  { c with
    security := { c.security with
      parachainStatus := s.parachainStatus, activeBlockCount := s.activeBlockCount }
    oracle := ⟨fun currencyId => (s.feed (.exchangeRate currencyId)).map TimestampedValue.value⟩ }

theorem observes_writeTo (s : Monitor) (c : Chain B) : Observes (s.writeTo c) s :=
  ⟨rfl, rfl, fun _ => rfl⟩

/-- A run of the monitored state is a run of the environment of the bridge's chain. -/
theorem run_environment (c : Chain B) {s s' : Monitor} {events : List Event}
    (hrun : Run MonitorStep s events s') :
    Run (Step R W) (s.writeTo c) (events.map fun _ => ⟨.environment, none⟩) (s'.writeTo c) := by
  have hstep : ∀ (s : Monitor) (e : Event) (s' : Monitor), True → MonitorStep s e s' →
      True ∧ Step R W (s.writeTo c) ⟨.environment, none⟩ (s'.writeTo c) :=
    fun s e s' _ _ =>
      ⟨trivial, .environment ⟨rfl, rfl, rfl, rfl, rfl, rfl, rfl, rfl, rfl, fun _ _ => rfl⟩⟩
  exact hrun.simulates (I := fun _ => True) hstep trivial

end

end Monitor

end Spacewalk
