import Spacewalk.Issue
import Spacewalk.Redeem
import Spacewalk.Replace

/-!
# Extrinsics and runs of the chain

The calls of the five bridge pallets (`#[pallet::call]` of `pallets/*/src/lib.rs`) and how the
runtime dispatches them.  A step of the chain is an extrinsic that succeeds, or a step of its
environment: blocks, prices, payments and all other pallets.
-/

namespace Spacewalk

open Foundation
open Stellar (Bytes)

/-! ## Calls -/

inductive VaultRegistry.Call where
  | registerVault (currencyPair : VaultCurrencyPair) (collateral : Nat)
  | depositCollateral (currencyPair : VaultCurrencyPair) (amount : Nat)
  | withdrawCollateral (currencyPair : VaultCurrencyPair) (amount : Nat)
  | registerPublicKey (publicKey : StellarPublicKeyRaw)
  | acceptNewIssues (currencyPair : VaultCurrencyPair) (acceptNewIssues : Bool)
  | setCustomSecureThreshold (currencyPair : VaultCurrencyPair)
      (customThreshold : Option UnsignedFixedPoint)
  | reportUndercollateralizedVault (vaultId : VaultId)
  | setMinimumCollateral (currencyId : CurrencyId) (minimum : Nat)
  | setSystemCollateralCeiling (currencyPair : VaultCurrencyPair) (ceiling : Nat)
  | setSecureCollateralThreshold (currencyPair : VaultCurrencyPair)
      (threshold : UnsignedFixedPoint)
  | setPremiumRedeemThreshold (currencyPair : VaultCurrencyPair) (threshold : UnsignedFixedPoint)
  | setLiquidationCollateralThreshold (currencyPair : VaultCurrencyPair)
      (threshold : UnsignedFixedPoint)
  | recoverVaultId (currencyPair : VaultCurrencyPair)
  | setPunishmentDelay (punishmentDelay : Nat)

inductive Nomination.Call where
  | setNominationEnabled (enabled : Bool)
  | optInToNomination (currencyPair : VaultCurrencyPair)
  | optOutOfNomination (currencyPair : VaultCurrencyPair)
  | depositCollateral (vaultId : VaultId) (amount : Nat)
  | withdrawCollateral (vaultId : VaultId) (amount : Nat) (index : Option Nonce)

inductive Issue.Call where
  | requestIssue (amount : Nat) (vaultId : VaultId)
  | executeIssue (issueId : H256) (transactionEnvelopeXdrEncoded externalizedEnvelopesEncoded
      transactionSetEncoded : Bytes)
  | cancelIssue (issueId : H256)
  | setIssuePeriod (period : Nat)
  | rateLimitUpdate (limitVolumeAmount : Option Nat) (limitVolumeCurrencyId : CurrencyId)
      (intervalLength : Nat)
  | minimumTransferAmountUpdate (newMinimumAmount : Nat)

inductive Redeem.Call where
  | requestRedeem (amountWrapped : Nat) (stellarAddress : StellarPublicKeyRaw) (vaultId : VaultId)
  | liquidationRedeem (currencies : VaultCurrencyPair) (amountWrapped : Nat)
  | executeRedeem (redeemId : H256) (transactionEnvelopeXdrEncoded externalizedEnvelopesEncoded
      transactionSetEncoded : Bytes)
  | cancelRedeem (redeemId : H256) (reimburse : Bool)
  | setRedeemPeriod (period : Nat)
  | mintTokensForReimbursedRedeem (currencyPair : VaultCurrencyPair) (redeemId : H256)
  | selfRedeem (currencyPair : VaultCurrencyPair) (amountWrapped : Nat)
  | rateLimitUpdate (limitVolumeAmount : Option Nat) (limitVolumeCurrencyId : CurrencyId)
      (intervalLength : Nat)
  | minimumTransferAmountUpdate (newMinimumAmount : Nat)

inductive Replace.Call where
  | requestReplace (currencyPair : VaultCurrencyPair) (amount : Nat)
  | withdrawReplace (currencyPair : VaultCurrencyPair) (amount : Nat)
  | acceptReplace (currencyPair : VaultCurrencyPair) (oldVaultId : VaultId)
      (amount collateral : Nat) (stellarAddress : StellarPublicKeyRaw)
  | executeReplace (replaceId : H256) (transactionEnvelopeXdrEncoded
      externalizedEnvelopesXdrEncoded transactionSetXdrEncoded : Bytes)
  | cancelReplace (replaceId : H256)
  | setReplacePeriod (period : Nat)
  | minimumTransferAmountUpdate (newMinimumAmount : Nat)

/-- The calls of the bridge pallets. -/
inductive RuntimeCall where
  | vaultRegistry (call : VaultRegistry.Call)
  | nomination (call : Nomination.Call)
  | issue (call : Issue.Call)
  | redeem (call : Redeem.Call)
  | replace (call : Replace.Call)

/-! ## Dispatch -/

section

variable {B : Type} (R : Runtime B) (origin : Origin)

def VaultRegistry.Call.dispatch : VaultRegistry.Call → ChainM B Unit
  | .registerVault currencyPair collateral =>
    VaultRegistry.registerVault R origin currencyPair collateral
  | .depositCollateral currencyPair amount =>
    VaultRegistry.depositCollateral R origin currencyPair amount
  | .withdrawCollateral currencyPair amount =>
    VaultRegistry.withdrawCollateral R origin currencyPair amount
  | .registerPublicKey publicKey => VaultRegistry.registerPublicKey origin publicKey
  | .acceptNewIssues currencyPair accept =>
    VaultRegistry.acceptNewIssues R origin currencyPair accept
  | .setCustomSecureThreshold currencyPair customThreshold =>
    VaultRegistry.setCustomSecureThreshold origin currencyPair customThreshold
  | .reportUndercollateralizedVault vaultId =>
    VaultRegistry.reportUndercollateralizedVault R vaultId
  | .setMinimumCollateral currencyId minimum =>
    VaultRegistry.setMinimumCollateral origin currencyId minimum
  | .setSystemCollateralCeiling currencyPair ceiling =>
    VaultRegistry.setSystemCollateralCeiling origin currencyPair ceiling
  | .setSecureCollateralThreshold currencyPair threshold =>
    VaultRegistry.setSecureCollateralThreshold R origin currencyPair threshold
  | .setPremiumRedeemThreshold currencyPair threshold =>
    VaultRegistry.setPremiumRedeemThreshold origin currencyPair threshold
  | .setLiquidationCollateralThreshold currencyPair threshold =>
    VaultRegistry.setLiquidationCollateralThreshold origin currencyPair threshold
  | .recoverVaultId currencyPair => VaultRegistry.recoverVaultId origin currencyPair
  | .setPunishmentDelay punishmentDelay => VaultRegistry.setPunishmentDelay origin punishmentDelay

def Nomination.Call.dispatch : Nomination.Call → ChainM B Unit
  | .setNominationEnabled enabled => Nomination.setNominationEnabled origin enabled
  | .optInToNomination currencyPair => Nomination.optInToNomination origin currencyPair
  | .optOutOfNomination currencyPair => Nomination.optOutOfNomination R origin currencyPair
  | .depositCollateral vaultId amount => Nomination.depositCollateral R origin vaultId amount
  | .withdrawCollateral vaultId amount index =>
    Nomination.withdrawCollateral R origin vaultId amount index

def Issue.Call.dispatch : Issue.Call → ChainM B Unit
  | .requestIssue amount vaultId => Issue.requestIssue R origin amount vaultId
  | .executeIssue issueId envelope scp set => Issue.executeIssue R origin issueId envelope scp set
  | .cancelIssue issueId => Issue.cancelIssue R origin issueId
  | .setIssuePeriod period => Issue.setIssuePeriod origin period
  | .rateLimitUpdate limitVolumeAmount limitVolumeCurrencyId intervalLength =>
    Issue.rateLimitUpdate origin limitVolumeAmount limitVolumeCurrencyId intervalLength
  | .minimumTransferAmountUpdate newMinimumAmount =>
    Issue.minimumTransferAmountUpdate origin newMinimumAmount

def Redeem.Call.dispatch : Redeem.Call → ChainM B Unit
  | .requestRedeem amountWrapped stellarAddress vaultId =>
    Redeem.requestRedeem R origin amountWrapped stellarAddress vaultId
  | .liquidationRedeem currencies amountWrapped =>
    Redeem.liquidationRedeem R origin currencies amountWrapped
  | .executeRedeem redeemId envelope scp set =>
    Redeem.executeRedeem R origin redeemId envelope scp set
  | .cancelRedeem redeemId reimburse => Redeem.cancelRedeem R origin redeemId reimburse
  | .setRedeemPeriod period => Redeem.setRedeemPeriod origin period
  | .mintTokensForReimbursedRedeem currencyPair redeemId =>
    Redeem.mintTokensForReimbursedRedeem R origin currencyPair redeemId
  | .selfRedeem currencyPair amountWrapped => Redeem.selfRedeem R origin currencyPair amountWrapped
  | .rateLimitUpdate limitVolumeAmount limitVolumeCurrencyId intervalLength =>
    Redeem.rateLimitUpdate origin limitVolumeAmount limitVolumeCurrencyId intervalLength
  | .minimumTransferAmountUpdate newMinimumAmount =>
    Redeem.minimumTransferAmountUpdate origin newMinimumAmount

def Replace.Call.dispatch : Replace.Call → ChainM B Unit
  | .requestReplace currencyPair amount => Replace.requestReplace R origin currencyPair amount
  | .withdrawReplace currencyPair amount => Replace.withdrawReplace R origin currencyPair amount
  | .acceptReplace currencyPair oldVaultId amount collateral stellarAddress =>
    Replace.acceptReplace R origin currencyPair oldVaultId amount collateral stellarAddress
  | .executeReplace replaceId envelope scp set =>
    Replace.executeReplace R origin replaceId envelope scp set
  | .cancelReplace replaceId => Replace.cancelReplace R origin replaceId
  | .setReplacePeriod period => Replace.setReplacePeriod origin period
  | .minimumTransferAmountUpdate newMinimumAmount =>
    Replace.minimumTransferAmountUpdate origin newMinimumAmount

def RuntimeCall.dispatch : RuntimeCall → ChainM B Unit
  | .vaultRegistry call => call.dispatch R origin
  | .nomination call => call.dispatch R origin
  | .issue call => call.dispatch R origin
  | .redeem call => call.dispatch R origin
  | .replace call => call.dispatch R origin

end

/-! ## Runs -/

section

variable {B : Type}

/-- A step of the environment.  Other pallets and users change neither the storage of the bridge
pallets nor the stake of vaults, reserve and release no balances, and mint and burn none of the
currencies `W`. -/
structure EnvironmentStep (R : Runtime B) (W : Set CurrencyId) (s s' : Chain B) : Prop where
  vaultRegistry : s'.vaultRegistry = s.vaultRegistry
  nomination : s'.nomination = s.nomination
  issue : s'.issue = s.issue
  redeem : s'.redeem = s.redeem
  replace : s'.replace = s.replace
  drawn : s'.security.nonce = s.security.nonce
  nonce : s'.staking.nonce = s.staking.nonce
  totalCurrentStake : s'.staking.totalCurrentStake = s.staking.totalCurrentStake
  reserved : R.tokens.reservedBalance s'.tokens = R.tokens.reservedBalance s.tokens
  issuance : ∀ w ∈ W, R.tokens.totalIssuance s'.tokens w = R.tokens.totalIssuance s.tokens w

/-- What happens in a step. -/
inductive Event where
  | extrinsic (origin : Origin) (call : RuntimeCall)
  | environment

/-- What a run records of a step: what happened, and the request identifier that was drawn. -/
structure Record where
  event : Event
  drawn : Option H256

/-- The request identifier that is drawn between two states. -/
def drawnBetween (R : Runtime B) (s s' : Chain B) : Option H256 :=
  if s'.security.nonce = s.security.nonce then none else some (Security.nextId R s)

inductive Step (R : Runtime B) (W : Set CurrencyId) : Chain B → Record → Chain B → Prop
  | extrinsic {s s' : Chain B} {origin : Origin} {call : RuntimeCall} :
      Returns (call.dispatch R origin) s () s' →
      Step R W s ⟨.extrinsic origin call, drawnBetween R s s'⟩ s'
  | environment {s s' : Chain B} : EnvironmentStep R W s s' →
      Step R W s ⟨.environment, none⟩ s'

/-- The request identifiers that are drawn in a run. -/
def drawnIds (records : List Record) : List H256 := records.filterMap Record.drawn

/-- A state that the chain can start in: no vaults, no stake and no requests.  Everything else is
configuration. -/
structure IsGenesis (s : Chain B) : Prop where
  staking : s.staking = .genesis
  pooledRewards : s.pooledRewards = .genesis
  vaults : s.vaultRegistry.vaults = fun _ => none
  liquidationVaults : s.vaultRegistry.liquidationVault = fun _ => none
  totals : s.vaultRegistry.totalUserVaultCollateral = fun _ => 0
  nominated : s.nomination.vaults = fun _ => false
  issues : s.issue.issueRequests = fun _ => none
  redeems : s.redeem.redeemRequests = fun _ => none
  cancelled : s.redeem.cancelledRedeemAmount = fun _ => none
  replaces : s.replace.replaceRequests = fun _ => none
  drawn : s.security.nonce = 0

end

end Spacewalk
