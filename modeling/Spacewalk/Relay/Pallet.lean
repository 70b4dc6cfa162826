import Spacewalk.Foundation.Dispatch
import Spacewalk.Foundation.Tally
import Spacewalk.Stellar.Xdr

/-!
# The Stellar relay pallet

The relay pallet (`pallets/stellar-relay/src/lib.rs` and `validation.rs`) stores the tier-1
validators of the Stellar network and their organizations, in an old and a new version with
the block at which the new version takes effect.  `validateStellarTransaction` decides from
signed SCP envelopes whether a transaction was executed on the Stellar network.
-/

namespace Spacewalk.Relay

open Foundation Stellar

/-! ## Storage -/

/-- Organizations are numbered. -/
abbrev OrganizationId := Nat

/-- A validator of the Stellar network. -/
structure Validator where
  name : Bytes
  publicKey : Bytes
  organizationId : OrganizationId
  deriving DecidableEq

/-- An organization that runs validators. -/
structure Organization where
  id : OrganizationId
  name : Bytes
  deriving DecidableEq

/-- The largest `usize` of the runtime. -/
def usizeMax : Nat := 2 ^ 32 - 1

/-- The constants of the pallet's configuration. -/
structure Config where
  validatorLimit : Nat
  organizationLimit : Nat
  isPublicNetwork : Bool
  /-- A list of validators fits into memory. -/
  validatorLimit_lt : validatorLimit < usizeMax

/-- The Stellar network that proofs are about. -/
def Config.network (cfg : Config) : Network :=
  if cfg.isPublicNetwork then .publicNetwork else .testNetwork

/-- A tier-1 set: validators and organizations. -/
structure Tier1Set where
  validators : List Validator
  organizations : List Organization
  deriving DecidableEq

/-- The storage of the relay pallet. -/
structure State where
  /-- `Validators` and `Organizations`. -/
  new : Tier1Set
  /-- `OldValidators` and `OldOrganizations`. -/
  old : Tier1Set
  newValidatorsEnactmentBlockHeight : BlockNumber
  deriving DecidableEq

/-- A failure of the pallet. -/
abbrev err (e : StellarRelayError) : DispatchError := .stellarRelay e

/-! ## Updates of the tier-1 set -/

/-- Replace the tier-1 set; the new set takes effect at the enactment height. -/
def updateTier1ValidatorSet (cfg : Config) (validators : List Validator)
    (organizations : List Organization) (enactmentBlockHeight : BlockNumber) :
    Dispatch DispatchError State Unit := do
  -- the lengths are cast to u32 before the comparison
  ensure (validators.length % 2 ^ 32 ≤ cfg.validatorLimit) (err .validatorLimitExceeded)
  ensure (organizations.length % 2 ^ 32 ≤ cfg.organizationLimit) (err .organizationLimitExceeded)
  let organizationIdSet := tally (organizations.map Organization.id)
  ensure (organizations.length = organizationIdSet.length) (err .duplicateOrganizationId)
  let validatorsPublicKeySet := tally (validators.map Validator.publicKey)
  ensure (validators.length = validatorsPublicKeySet.length) (err .duplicateValidatorPublicKey)
  let s ← get
  ensure (validators.length ≤ cfg.validatorLimit) (err .boundedVecCreationFailed)
  ensure (organizations.length ≤ cfg.organizationLimit) (err .boundedVecCreationFailed)
  let new : Tier1Set := ⟨validators, organizations⟩
  if new.organizations ≠ s.new.organizations ∨ new.validators ≠ s.new.validators then
    set { old := s.new, new := new, newValidatorsEnactmentBlockHeight := enactmentBlockHeight :
      State }
  else
    set { s with newValidatorsEnactmentBlockHeight := enactmentBlockHeight }

/-- The tier-1 set that validation uses at a block. -/
def validatorsAndOrgs (s : State) (blockNumber : BlockNumber) :
    Except DispatchError Tier1Set := do
  let shouldUseNewValidatorSet := blockNumber ≥ s.newValidatorsEnactmentBlockHeight
  let validators := if shouldUseNewValidatorSet then s.new.validators else s.old.validators
  ensure (validators ≠ []) (err .noValidatorsRegistered)
  let organizations :=
    if shouldUseNewValidatorSet then s.new.organizations else s.old.organizations
  ensure (organizations ≠ []) (err .noOrganizationsRegistered)
  return ⟨validators, organizations⟩

/-! ## Validation of transactions -/

section

variable (lib : StellarLib) (envelope : ScpEnvelope) (envelopes : List ScpEnvelope)
  (validators : List Validator)

/-- The number of validators of every organization. -/
def validatorCountPerOrg : List (OrganizationId × Nat) :=
  tally (validators.map Validator.organizationId)

/-- An envelope of the list was signed in the name of the validator. -/
def isTargeted (validator : Validator) : Bool :=
  envelopes.any fun envelope =>
    decide (lib.toEncoding envelope.statement.nodeId = validator.publicKey)

/-- The number of targeted validators of every targeted organization. -/
def targetedOrganizationMap : List (OrganizationId × Nat) :=
  tally ((validators.filter (isTargeted lib envelopes)).map Validator.organizationId)

/-- The externalized value of an envelope, and its `n_h`. -/
def getExternalizedInfo : Except DispatchError (Value × UInt32) :=
  match envelope.statement.pledges with
  | .scpStExternalize value nH _ => .ok (value, nH)
  | .scpStConfirm value nH _ => .ok (value, nH)
  | _ => .error (err .invalidScpPledge)

/-- The node id of the envelope is the public key of one of the validators. -/
def isNodeIdExist : Bool :=
  validators.any fun validator =>
    decide (validator.publicKey = lib.toEncoding envelope.statement.nodeId)

/-- Count the organizations of the targeted map that have more than half of their validators
targeted. -/
def requirementReached (totals : List (OrganizationId × Nat)) :
    List (OrganizationId × Nat) → Except DispatchError Nat
  | [] => .ok 0
  | (organizationId, count) :: rest => do
    let total ← okOr (countOf totals organizationId) (err .noOrganizationsRegistered)
    let reached ← requirementReached totals rest
    return if count * 2 > total then reached + 1 else reached

/-- The envelopes come from more than two thirds of the organizations, each represented by
more than half of its validators. -/
def checkForValidQuorumSet (orgsLength : Nat) : Except DispatchError Unit := do
  let validatorCountPerOrganizationMap := validatorCountPerOrg validators
  let targetedOrganizationMap := targetedOrganizationMap lib envelopes validators
  ensure (targetedOrganizationMap.length * 3 > orgsLength * 2)
    (err .invalidQuorumSetNotEnoughOrganizations)
  let validatorRequirementReachedCount ←
    requirementReached validatorCountPerOrganizationMap targetedOrganizationMap
  ensure (validatorRequirementReachedCount * 3 > orgsLength * 2)
    (err .invalidQuorumSetNotEnoughValidators)

/-- The bytes that a node signs: network id, envelope type and statement. -/
def signedBody (network : Network) (statement : ScpStatement) : Bytes :=
  lib.networkId network ++ [0, 0, 0, 1] ++ lib.statementToXdr statement

/-- Check the signature of an envelope.  A signature that is not 64 bytes long makes the copy
into a fixed-size array panic. -/
def verifySignature (network : Network) : Except DispatchError Bool :=
  if envelope.signature.length = 64 then
    .ok (lib.verifySignature envelope.statement.nodeId (signedBody lib network envelope.statement)
      envelope.signature)
  else
    .error .panic

/-- The `tx_set_hash` of an SCP value. -/
def getTxSetHash (value : Value) : Except DispatchError Hash :=
  okOr (lib.stellarValueTxSetHash value) (err .transactionSetHashCreationFailed)

/-- The largest `u32`, which stands for an infinite `n_h`. -/
def infiniteNH : UInt32 := 0xFFFFFFFF

/-- The `n_h` to compare the following envelopes with. -/
def compareNH (externalizedNH nH : UInt32) : Except DispatchError UInt32 :=
  if externalizedNH = infiniteNH then .ok nH
  else if nH < infiniteNH then do
    ensure (externalizedNH = nH) (err .externalizedNHMismatch)
    return externalizedNH
  else .ok externalizedNH

/-- Check the envelopes of validators for a common slot, a valid signature, a common value and
a common `n_h`; envelopes of other nodes are skipped.  Returns the envelopes of validators. -/
def validateEnvelopes (validators : List Validator) (network : Network)
    (externalizedValue : Value) (expectedTxSetHash : Hash) (slotIndex : Nat) :
    List ScpEnvelope → UInt32 → Except DispatchError (List ScpEnvelope)
  | [], _ => .ok []
  | envelope :: envelopes, externalizedNH =>
    if isNodeIdExist lib envelope validators then do
      ensure (slotIndex = envelope.statement.slotIndex) (err .envelopeSlotIndexMismatch)
      let signatureValid ← verifySignature lib envelope network
      ensure (signatureValid = true) (err .invalidEnvelopeSignature)
      let info ← getExternalizedInfo envelope
      let txSetHash ← getTxSetHash lib info.1
      ensure (txSetHash = expectedTxSetHash) (err .transactionSetHashMismatch)
      ensure (externalizedValue = info.1) (err .externalizedValueMismatch)
      let externalizedNH ← compareNH externalizedNH info.2
      let rest ← validateEnvelopes validators network externalizedValue expectedTxSetHash
        slotIndex envelopes externalizedNH
      return envelope :: rest
    else
      validateEnvelopes validators network externalizedValue expectedTxSetHash slotIndex
        envelopes externalizedNH

/-- The envelope carries an externalize statement. -/
def isExternalized : Bool :=
  match envelope.statement.pledges with
  | .scpStExternalize _ _ _ => true
  | _ => false

/-- Decide whether the transaction was executed on the Stellar network.  The first check
compares the bitwise complement of the number of envelopes with zero. -/
def validateStellarTransaction (cfg : Config) (s : State) (blockNumber : BlockNumber)
    (transactionEnvelope : TransactionEnvelope) (envelopes : List ScpEnvelope)
    (transactionSet : TransactionSetType) : Except DispatchError Unit := do
  ensure (usizeMax - envelopes.length > 0) (err .emptyEnvelopeSet)
  let network := cfg.network
  let txHash := lib.getHash transactionEnvelope network
  let txIncluded := transactionSet.txes.any fun tx => decide (lib.getHash tx network = txHash)
  ensure (txIncluded = true) (err .transactionNotInTransactionSet)
  let tier1 ← validatorsAndOrgs s blockNumber
  let externalizedEnvelope ←
    okOr (envelopes.find? isExternalized) (err .missingExternalizedMessage)
  let info ← okOr (getExternalizedInfo externalizedEnvelope).toOption
    (err .missingExternalizedMessage)
  let expectedTxSetHash ← okOr (lib.getTxSetHash transactionSet)
    (err .failedToComputeNonGenericTxSetContentHash)
  let validatedEnvelopes ← validateEnvelopes lib tier1.validators network info.1
    expectedTxSetHash externalizedEnvelope.statement.slotIndex envelopes info.2
  checkForValidQuorumSet lib validatedEnvelopes tier1.validators tier1.organizations.length

/-! ## Interface for the other pallets -/

/-- Decode a base64 text and then its XDR. -/
def constructFromRawEncodedXdr {V : Type} (fromXdr : Bytes → Option V) (rawEncodedXdr : Bytes) :
    Except DispatchError V := do
  let valueXdr ← okOr (lib.decodeBase64 rawEncodedXdr) (err .base64DecodeError)
  okOr (fromXdr valueXdr) (err .invalidXDR)

/-- The transaction has the expected text memo. -/
def ensureTransactionMemoMatches (transactionEnvelope : TransactionEnvelope)
    (expectedMemo : Bytes) : Except DispatchError Unit := do
  let includedMemo ←
    okOr (getTextMemoFromTxEnv transactionEnvelope) (err .transactionMemoDoesNotMatch)
  ensure (includedMemo = expectedMemo) (err .transactionMemoDoesNotMatch)

/-- The transaction has the shortened request id as its text memo. -/
def ensureTransactionMemoMatchesHash (transactionEnvelope : TransactionEnvelope)
    (expectedHash : H256) : Except DispatchError Unit := do
  let expectedMemo ← deriveShortenedRequestId lib expectedHash
  ensureTransactionMemoMatches transactionEnvelope expectedMemo

end

end Spacewalk.Relay
