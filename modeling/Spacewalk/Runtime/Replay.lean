import Spacewalk.Foundation.Perquintill
import Spacewalk.Foundation.Run
import Spacewalk.Runtime.Call

/-!
# Replaying runs

Extrinsics are executable, so a run can be replayed from its records: `execute` carries out one
step, with a given function for the steps of the environment, and a replay that goes through is
a run (`run_of_replay`).

`sampleRuntime` is a small runtime to replay runs with.  Its tokens are the plain ledger, request
identifiers count up from one, a payment is encoded by its memo and its amount, and one
validator of one organization externalizes every payment.
-/

namespace Spacewalk

open Foundation
open Stellar (Bytes)

section

variable {B : Type} (R : Runtime B)

/-- Carry out a step; `environment` is what the environment does. -/
def execute (environment : Chain B → Chain B) (s : Chain B) (record : Record) :
    Option (Chain B) :=
  match record with
  | ⟨.extrinsic origin call, id⟩ =>
    (outcome (call.dispatch R origin) s).filter fun s' => decide (drawnBetween R s s' = id)
  | ⟨.environment, none⟩ => some (environment s)
  | ⟨.environment, some _⟩ => none

variable {R} {W : Set CurrencyId} {environment : Chain B → Chain B}

theorem step_of_execute (henv : ∀ s, EnvironmentStep R W s (environment s)) (s : Chain B)
    (record : Record) (s' : Chain B) (h : execute R environment s record = some s') :
    Step R W s record s' := by
  obtain ⟨event, id⟩ := record
  cases event with
  | extrinsic origin call =>
    simp only [execute, Option.filter_eq_some_iff, decide_eq_true_eq] at h
    obtain ⟨hcall, rfl⟩ := h
    obtain ⟨_, hreturns⟩ := outcome_eq_some.mp hcall
    exact .extrinsic hreturns
  | environment =>
    cases id with
    | none =>
      obtain rfl : environment s = s' := by simpa [execute] using h
      exact .environment (henv s)
    | some id => simp [execute] at h

/-- A checked replay gives a run to a state with the property that was checked. -/
theorem run_of_replay (henv : ∀ s, EnvironmentStep R W s (environment s)) {s : Chain B}
    {records : List Record} {p : Chain B → Prop}
    (h : ∃ s', replay (execute R environment) s records = some s' ∧ p s') :
    ∃ s', Run (Step R W) s records s' ∧ p s' :=
  Run.exists_of_replay (step_of_execute henv) h

/-- A step of the environment that does nothing. -/
theorem environmentStep_refl (s : Chain B) : EnvironmentStep R W s s :=
  ⟨rfl, rfl, rfl, rfl, rfl, rfl, rfl, rfl, rfl, fun _ _ => rfl⟩

end

/-! ## A small runtime -/

def sampleWrapped : CurrencyId := .stellar .stellarNative

def samplePair : VaultCurrencyPair := ⟨.xcm 0, sampleWrapped⟩

/-- The transaction that pays, with a memo of 28 bytes, as many stroops as the next byte says. -/
def samplePayment (bytes : Bytes) : Stellar.TransactionEnvelope :=
  .envelopeTypeTx ⟨.memoText (bytes.take 28),
    [.payment (.keyTypeEd25519 7) .assetTypeNative
      (.ofInt (bytes.getD 28 0).toNat)], []⟩ []

/-- The payment of `amount` stroops for the request with a small identifier. -/
def paymentFor (id amount : UInt8) : Bytes := List.replicate 27 0 ++ [id, amount]

/-- Fixed-point numbers from percentages. -/
def percent (n : Nat) : UnsignedFixedPoint :=
  (FixedPoint.ofInner? unsignedFormat (10 ^ 16 * n)).getD 0

/-- The Stellar library of the runtime. -/
def sampleStellar : Stellar.StellarLib where
  toEncoding _ := [1]
  verifySignature _ _ _ := true
  networkId _ := []
  statementToXdr _ := []
  getHash _ _ := 0
  getTxSetHash _ := some 0
  stellarValueTxSetHash _ := some 0
  decodeBase64 bytes := some bytes
  transactionEnvelopeFromXdr bytes := some (samplePayment bytes)
  envelopesFromXdr _ := some [⟨⟨0, 0, .scpStExternalize [] 0 []⟩, List.replicate 64 0⟩]
  transactionSetFromXdr bytes := some ⟨[samplePayment bytes], []⟩
  toBase58 id := List.replicate 27 0 ++ [.ofNat id.toNat]

abbrev SampleTokens := Holdings AccountId CurrencyId

def sampleRuntime : Runtime SampleTokens where
  tokens := plainLedger AccountId CurrencyId .balanceTooLow
  stellar := sampleStellar
  relay := ⟨10, 10, true, by decide⟩
  staking := ⟨.native, 10⟩
  maxRewardCurrencies := 10
  secureHash _ nonce _ := nonce
  liquidationVaultAccountId := ⟨100⟩
  feePoolAccountId := ⟨101⟩
  sweepAccount := none
  getGriefingCollateralCurrencyId := .native
  decimals _ := 12
  proportion part whole amount := (Perquintill.fromRational part whole).mulFloor amount
  existentialDeposits _ := 0

/-- The genesis of the runtime: every account can spend a million of every currency that is not
wrapped, all prices are one and there are no fees. -/
def sampleGenesis : Chain SampleTokens where
  system := ⟨0, 0, 0⟩
  tokens := ⟨fun c _ => if c = sampleWrapped then 0 else 10 ^ 12, fun _ _ => 0, fun _ => 0⟩
  security := ⟨.running, 0, 0⟩
  oracle := ⟨fun _ => some (percent 100)⟩
  fee := ⟨0, 0, 0, 0, 0, 0⟩
  relay := ⟨⟨[⟨[], [1], 0⟩], [⟨0, []⟩]⟩, ⟨[], []⟩, 0⟩
  staking := .genesis
  pooledRewards := .genesis
  rewardDistribution := ⟨none⟩
  vaultRegistry := {
    minimumCollateralVault := fun _ => some 0
    punishmentDelay := 0
    systemCollateralCeiling := fun _ => some (10 ^ 12)
    secureCollateralThreshold := fun _ => some (percent 150)
    premiumRedeemThreshold := fun _ => some (percent 130)
    liquidationCollateralThreshold := fun _ => some (percent 110)
    liquidationVault := fun _ => none
    vaults := fun _ => none
    vaultStellarPublicKey := fun _ => none
    totalUserVaultCollateral := fun _ => 0 }
  nomination := ⟨true, fun _ => false⟩
  issue := ⟨fun _ => none, 10, 0, ⟨none, .native, 0, 0, 0⟩⟩
  redeem := ⟨10, fun _ => none, 0, ⟨none, .native, 0, 0, 0⟩, fun _ => none⟩
  replace := ⟨fun _ => none, 10, 0⟩

variable {W : Set CurrencyId} (account : Nat) (s : Chain SampleTokens) (call : RuntimeCall)

/-- A hundred blocks pass. -/
def sampleDelay : Chain SampleTokens :=
  { s with
    security := { s.security with activeBlockCount := s.security.activeBlockCount + 100 }
    system := { s.system with blockNumber := s.system.blockNumber + 100 } }

/-- A hundred blocks pass and the price of the collateral halves. -/
def samplePriceDrop : Chain SampleTokens :=
  { sampleDelay s with
    oracle := ⟨fun c => some (if c = samplePair.collateral then percent 50 else percent 100)⟩ }

theorem environmentStep_sampleDelay : EnvironmentStep sampleRuntime W s (sampleDelay s) :=
  ⟨rfl, rfl, rfl, rfl, rfl, rfl, rfl, rfl, rfl, fun _ _ => rfl⟩

theorem environmentStep_samplePriceDrop : EnvironmentStep sampleRuntime W s (samplePriceDrop s) :=
  ⟨rfl, rfl, rfl, rfl, rfl, rfl, rfl, rfl, rfl, fun _ _ => rfl⟩

theorem sampleRuntime_lawful : sampleRuntime.tokens.Lawful := plainLedger_lawful _

theorem sampleGenesis_isGenesis : IsGenesis sampleGenesis :=
  ⟨rfl, rfl, rfl, rfl, rfl, rfl, rfl, rfl, rfl, rfl, rfl⟩

/-- A signed extrinsic of a small account that draws no request identifier. -/
def signed : Record :=
  ⟨.extrinsic (.signed ⟨account⟩) call, none⟩

/-- A signed extrinsic of a small account that draws a small request identifier. -/
def signedDrawing (id : Nat) : Record :=
  ⟨.extrinsic (.signed ⟨account⟩) call, some id⟩

def elapsing : Record := ⟨.environment, none⟩

/-- The vault of a small account. -/
def sampleVault : VaultId := ⟨⟨account⟩, samplePair⟩

/-- Account 1 registers a vault with collateral 2000000. -/
def registering : List Record :=
  [signed 1 (.vaultRegistry (.registerPublicKey ⟨7⟩)),
    signed 1 (.vaultRegistry (.registerVault samplePair 2000000))]

/-- Account 1 registers a vault, and account 4 requests a million tokens from it and pays. -/
def issuing : List Record :=
  registering ++
    [signedDrawing 4 (.issue (.requestIssue 1000000 (sampleVault 1))) 1,
      signed 4 (.issue (.executeIssue 1 (paymentFor 1 10) [] (paymentFor 1 10)))]

/-- A million tokens are issued with the vault of account 1, and a hundred thousand more are
requested. -/
def requesting : List Record :=
  issuing ++ [signedDrawing 4 (.issue (.requestIssue 100000 (sampleVault 1))) 2]

/-- A million tokens are issued with the vault of account 1, and 400000 of them are to be redeemed. -/
def redeeming : List Record :=
  issuing ++ [signedDrawing 4 (.redeem (.requestRedeem 400000 ⟨7⟩ (sampleVault 1))) 2]

/-- The vault of account 1 is liquidated after a drop of the price. -/
def liquidating : List Record :=
  [elapsing, signed 3 (.vaultRegistry (.reportUndercollateralizedVault (sampleVault 1)))]

end Spacewalk
