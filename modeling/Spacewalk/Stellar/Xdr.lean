import Spacewalk.Primitives

/-!
# Stellar messages

The XDR values that the parachain reads: transaction envelopes, transaction sets and SCP
envelopes.  A value keeps the fields that the pallets read; the bytes of all its other
fields are kept together in one `remainder`, so that hashes and signatures can depend on
them.

What the Stellar library computes on these values (encodings, hashes, signature checks,
decoding) is a parameter, `StellarLib`.
-/

namespace Spacewalk.Stellar

/-- A sequence of bytes. -/
abbrev Bytes := List UInt8

/-- A SHA-256 hash. -/
abbrev Hash := BitVec 256

/-- The identity of a Stellar node, its public key. -/
abbrev NodeId := BitVec 256

/-- A value that SCP agrees on, in XDR. -/
abbrev Value := Bytes

/-- The two Stellar networks. -/
inductive Network where
  | publicNetwork
  | testNetwork
  deriving DecidableEq

/-! ## SCP messages -/

inductive ScpStatementPledges where
  | scpStPrepare (remainder : Bytes)
  | scpStConfirm (ballotValue : Value) (nH : UInt32) (remainder : Bytes)
  | scpStExternalize (commitValue : Value) (nH : UInt32) (remainder : Bytes)
  | scpStNominate (remainder : Bytes)
  deriving DecidableEq

/-- A statement of a node about a slot. -/
structure ScpStatement where
  nodeId : NodeId
  slotIndex : Nat
  pledges : ScpStatementPledges
  deriving DecidableEq

/-- A signed statement. -/
structure ScpEnvelope where
  statement : ScpStatement
  signature : Bytes
  deriving DecidableEq

/-! ## Transactions -/

inductive Memo where
  | memoNone
  | memoText (text : Bytes)
  | memoId (id : UInt64)
  | memoHash (hash : Hash)
  | memoReturn (hash : Hash)
  deriving DecidableEq

inductive StellarAsset where
  | assetTypeNative
  | assetTypeCreditAlphanum4 (code : BitVec 32) (issuer : BitVec 256)
  | assetTypeCreditAlphanum12 (code : BitVec 96) (issuer : BitVec 256)
  | default (type : Int32)
  deriving DecidableEq

/-- The receiver of a payment. -/
inductive MuxedAccount where
  | keyTypeEd25519 (key : BitVec 256)
  | keyTypeMuxedEd25519 (id : UInt64) (key : BitVec 256)
  | default (type : Int32)
  deriving DecidableEq

/-- The condition under which a balance can be claimed. -/
inductive ClaimPredicate where
  | claimPredicateUnconditional
  | conditional (remainder : Bytes)
  deriving DecidableEq

/-- An account that can claim a balance. -/
structure Claimant where
  destination : BitVec 256
  predicate : ClaimPredicate
  deriving DecidableEq

/-- What an operation of a transaction does. -/
inductive OperationBody where
  | payment (destination : MuxedAccount) (asset : StellarAsset) (amount : Int64)
  | createClaimableBalance (asset : StellarAsset) (amount : Int64) (claimants : List Claimant)
  | createAccount (destination : BitVec 256) (startingBalance : Int64)
  | other (remainder : Bytes)
  deriving DecidableEq

/-- The part of a transaction that the parachain reads. -/
structure Transaction where
  memo : Memo
  operations : List OperationBody
  remainder : Bytes
  deriving DecidableEq

/-- A signed transaction. -/
inductive TransactionEnvelope where
  | envelopeTypeTxV0 (tx : Transaction) (signatures : Bytes)
  | envelopeTypeTx (tx : Transaction) (signatures : Bytes)
  | envelopeTypeTxFeeBump (remainder : Bytes)
  | default (remainder : Bytes)
  deriving DecidableEq

/-- The transactions of a ledger, plain or generalized. -/
structure TransactionSetType where
  /-- The transactions of the set, as `txes` lists them. -/
  txes : List TransactionEnvelope
  remainder : Bytes
  deriving DecidableEq

/-- What the parachain uses from the Stellar library and from the codecs. -/
structure StellarLib where
  toEncoding : NodeId → Bytes
  /-- `PublicKey::verify_signature` of a body and a 64-byte signature. -/
  verifySignature : NodeId → Bytes → Bytes → Bool
  /-- `Network::get_id`. -/
  networkId : Network → Bytes
  /-- `ScpStatement::to_xdr`. -/
  statementToXdr : ScpStatement → Bytes
  getHash : TransactionEnvelope → Network → Hash
  /-- `TransactionSetType::get_tx_set_hash`, which can fail. -/
  getTxSetHash : TransactionSetType → Option Hash
  /-- The `tx_set_hash` of the `StellarValue` that `from_xdr` decodes, if it can. -/
  stellarValueTxSetHash : Value → Option Hash
  /-- `base64::decode`. -/
  decodeBase64 : Bytes → Option Bytes
  /-- `TransactionEnvelope::from_xdr`. -/
  transactionEnvelopeFromXdr : Bytes → Option TransactionEnvelope
  /-- `UnlimitedVarArray::<ScpEnvelope>::from_xdr`. -/
  envelopesFromXdr : Bytes → Option (List ScpEnvelope)
  /-- `TransactionSetType::from_xdr`. -/
  transactionSetFromXdr : Bytes → Option TransactionSetType
  /-- `to_base58` of a hash. -/
  toBase58 : H256 → Bytes

/-- The text memo of a transaction envelope, if it has one. -/
def getTextMemoFromTxEnv : TransactionEnvelope → Option Bytes
  | .envelopeTypeTxV0 tx _ | .envelopeTypeTx tx _ =>
    match tx.memo with
    | .memoText text => some text
    | _ => none
  | _ => none

/-- Shorten a request id so that it fits into a text memo.  Slicing a shorter encoding
panics. -/
def deriveShortenedRequestId (lib : StellarLib) (hash : H256) : Except DispatchError Bytes :=
  if 28 ≤ (lib.toBase58 hash).length then .ok ((lib.toBase58 hash).take 28) else .error .panic

end Spacewalk.Stellar
