import Mathlib.Data.UInt
import Spacewalk.Clients.MessageReader
import Spacewalk.Foundation.Dispatch
import Spacewalk.Stellar.Xdr

/-!
# The connection to a Stellar node

The overlay connection of the relay library (`clients/stellar-relay-lib/src/connection`,
`src/node`).  A `Connector` exchanges `Hello` and `Auth` messages with a node, checks the messages it
receives and passes some of them to its user.  `processRawMessage` handles one message;
`pollMessagesFromStellar` handles one after the other and stops at the first error.

Methods change the connector also when they fail, so they are computations that keep what they wrote.
Machine integers wrap, as they do in a release build.  The codec, the hashes and the curve are those
of libraries (`OverlaySdk`).
-/

namespace Spacewalk.Clients.Overlay

open Foundation

/-! ## Messages -/

/-- Why a node reports an error. -/
inductive ErrorCode where
  | errMisc
  | errData
  | errConf
  | errAuth
  | errLoad
  deriving DecidableEq

structure NodeError where
  code : ErrorCode
  msg : Bytes
  deriving DecidableEq

/-- The types of overlay messages; the ones that the library does not name are kept by number. -/
inductive MessageType where
  | errorMsg
  | hello
  | auth
  | sendMore
  | sendMoreExtended
  | transaction
  | floodAdvert
  | floodDemand
  | scpMessage
  | txSet
  | generalizedTxSet
  | other (number : Nat)
  deriving DecidableEq

/-- A certificate for the key that a node uses in a session. -/
structure AuthCert where
  pubkey : Bytes
  expiration : UInt64
  sig : Bytes
  deriving DecidableEq

/-- The first message of a node. -/
structure Hello where
  ledgerVersion : UInt32
  overlayVersion : UInt32
  overlayMinVersion : UInt32
  networkId : Bytes
  versionStr : Bytes
  listeningPort : Int32
  peerId : Stellar.NodeId
  cert : AuthCert
  nonce : Bytes
  deriving DecidableEq

/-- Overlay messages.  Of those that are passed on the connector reads the type only. -/
inductive StellarMessage where
  | errorMsg (error : NodeError)
  | hello (hello : Hello)
  | auth (flags : Int32)
  | sendMore (numMessages : UInt32)
  | sendMoreExtended (numMessages numBytes : UInt32)
  | transaction (content : Bytes)
  | floodAdvert (content : Bytes)
  | floodDemand (content : Bytes)
  | scpMessage (content : Bytes)
  | txSet (content : Bytes)
  | generalizedTxSet (content : Bytes)
  | other (number : Nat) (content : Bytes)
  deriving DecidableEq

def StellarMessage.messageType : StellarMessage → MessageType
  | errorMsg _ => .errorMsg
  | hello _ => .hello
  | auth _ => .auth
  | sendMore _ => .sendMore
  | sendMoreExtended _ _ => .sendMoreExtended
  | transaction _ => .transaction
  | floodAdvert _ => .floodAdvert
  | floodDemand _ => .floodDemand
  | scpMessage _ => .scpMessage
  | txSet _ => .txSet
  | generalizedTxSet _ => .generalizedTxSet
  | other number _ => .other number

/-- A message with its number in the session and its code. -/
structure AuthenticatedMessageV0 where
  sequence : UInt64
  message : StellarMessage
  mac : Bytes
  deriving DecidableEq

/-- Why handling a message fails.  A call that panics ends the task of the connector. -/
inductive Error where
  | authCertExpired
  | authCertNotFound
  | authCertInvalid
  | authSignatureFailed
  | authFailed (error : NodeError)
  | configError (error : NodeError)
  | overlayError (code : ErrorCode)
  | writeFailed (reason : String)
  | timeout
  | noRemoteInfo
  | invalidSequenceNumber
  | missingHmacKeys
  | hmacError
  | unsupportedMessageVersion
  | sdkError
  | usizeToU32ExceedMax
  | versionStrTooLong
  | panic
  deriving DecidableEq

def Error.ofNodeError (e : NodeError) : Error :=
  match e.code with
  | .errConf => .configError e
  | .errAuth => .authFailed e
  | other => .overlayError other

/-! ## What the libraries provide -/

/-- The codec of the messages, the hashes, the signatures and the curve.  A message is decoded from
bytes that begin with its type, in four bytes. -/
structure OverlaySdk where
  messageTypeFromXdr : Bytes → Option MessageType
  stellarMessageFromXdr : Bytes → Option StellarMessage
  stellarMessageToXdr : StellarMessage → Bytes
  messageType_of_message : ∀ bytes message, stellarMessageFromXdr bytes = some message →
    4 ≤ bytes.length ∧ messageTypeFromXdr (bytes.take 4) = some message.messageType
  /-- The code of some bytes under a key. -/
  hmac : Bytes → Bytes → Option Bytes
  /-- `Mac::verify_slice` of some bytes, a key and a code. -/
  hmacVerifies : Bytes → Bytes → Bytes → Bool
  sha256 : Bytes → Bytes
  scalarmult : Bytes → Bytes → Bytes
  /-- `PublicKey::verify_signature` of some bytes and a signature of 64 bytes. -/
  verifySignature : Stellar.NodeId → Bytes → Bytes → Bool
  createSignature : Bytes → Bytes → Bytes
  getPublic : Bytes → Stellar.NodeId
  /-- `EnvelopeType::EnvelopeTypeAuth.to_xdr()`. -/
  envelopeTypeAuth : Bytes

/-- The number that some bytes denote, the first byte being the most significant one. -/
def fromBeBytes (bytes : Bytes) : Nat := bytes.foldl (fun n b => n * 256 + b.toNat) 0

/-- The bytes of a number, the most significant one first. -/
def toBeBytes (size n : Nat) : Bytes :=
  (List.range size).reverse.map fun i => UInt8.ofNat (n / 256 ^ i)

/-- The bytes of a message from one position to another. -/
def slice (data : Bytes) (start stop : Nat) : Bytes := (data.drop start).take (stop - start)

variable (sdk : OverlaySdk)

/-- Split a raw message.  A slice that does not lie in the message panics. -/
def parseAuthenticatedMessage (data : Xdr) : Except Error (AuthenticatedMessageV0 × MessageType) := do
  ensure (4 ≤ data.length) .panic
  ensure (fromBeBytes (slice data 0 4) = 0) .unsupportedMessageVersion
  ensure (16 ≤ data.length) .panic
  let msgType ← okOr (sdk.messageTypeFromXdr (slice data 12 16)) .sdkError
  let sequence := UInt64.ofNat (fromBeBytes (slice data 4 12))
  ensure (44 ≤ data.length) .panic
  let message ← okOr (sdk.stellarMessageFromXdr (slice data 12 (data.length - 32))) .sdkError
  return (⟨sequence, message, data.drop (data.length - 32)⟩, msgType)

/-! ## Keys of a session -/

/-- `create_sha256_hmac(..).unwrap_or(HmacSha256Mac { mac: [0; 32] })`. -/
def hmacOrZero (data key : Bytes) : Bytes := (sdk.hmac data key).getD (zeros 32)

/-- The key that this side and a node share. -/
def genSharedKey (remotePubKeyEcdh secretKeyEcdh pubKeyEcdh : Bytes) (weCalledRemote : Bool) : Bytes :=
  let buffer := sdk.scalarmult secretKeyEcdh remotePubKeyEcdh
  let keys :=
    if weCalledRemote then pubKeyEcdh ++ remotePubKeyEcdh else remotePubKeyEcdh ++ pubKeyEcdh
  hmacOrZero sdk (buffer ++ keys) (zeros 32)

/-- The key under which this side sends. -/
def createSendingMacKey (sharedKey localNonce remoteNonce : Bytes) (weCalledRemote : Bool) : Bytes :=
  let first := if weCalledRemote then [0] else [1]
  hmacOrZero sdk (first ++ localNonce ++ remoteNonce ++ [1]) sharedKey

/-- The key under which this side receives. -/
def createReceivingMacKey (sharedKey localNonce remoteNonce : Bytes) (weCalledRemote : Bool) : Bytes :=
  let first := if weCalledRemote then [1] else [0]
  hmacOrZero sdk (first ++ remoteNonce ++ localNonce ++ [1]) sharedKey

structure HMacKeys where
  sending : Bytes
  receiving : Bytes
  deriving DecidableEq

def HMacKeys.new (sharedKey localNonce remoteNonce : Bytes) (remoteCalledUs : Bool) : HMacKeys where
  sending := createSendingMacKey sdk sharedKey localNonce remoteNonce (!remoteCalledUs)
  receiving := createReceivingMacKey sdk sharedKey localNonce remoteNonce (!remoteCalledUs)

/-! ## Certificates -/

def authCertExpirationLimit : UInt64 := 360000

/-- The keys and certificates of this side. -/
structure ConnectionAuth where
  keypair : Bytes
  secretKeyEcdh : Bytes
  pubKeyEcdh : Bytes
  networkHash : Bytes
  weCalledRemoteSharedKeys : Bytes → Option Bytes
  remoteCalledUsSharedKeys : Bytes → Option Bytes
  authCert : Option AuthCert
  authCertExpiration : UInt64

/-- What a certificate signs. -/
def authCertData (networkId : Bytes) (expiration : UInt64) (pubkey : Bytes) : Bytes :=
  sdk.sha256 (networkId ++ sdk.envelopeTypeAuth ++ toBeBytes 8 expiration.toNat ++ pubkey)

/-- A certificate of this side.  A signature has at most 64 bytes. -/
def createAuthCert (networkId keypair : Bytes) (validAt : UInt64) (pubKeyEcdh : Bytes) :
    Except Error AuthCert := do
  let expiration := validAt + authCertExpirationLimit
  let sig := sdk.createSignature keypair (authCertData sdk networkId expiration pubKeyEcdh)
  ensure (sig.length ≤ 64) .authSignatureFailed
  return ⟨pubKeyEcdh, expiration, sig⟩

/-- Whether the certificate of a node is in force and signed by the node. -/
def verifyRemoteAuthCert (timeInMillisecs : UInt64) (remotePubKey : Stellar.NodeId) (cert : AuthCert)
    (networkId : Bytes) : Bool :=
  if cert.expiration ≤ timeInMillisecs / 1000 then false
  else if cert.sig.length = 64 then
    sdk.verifySignature remotePubKey (authCertData sdk networkId cert.expiration cert.pubkey) cert.sig
  else false

namespace ConnectionAuth

/-- The saved certificate, if it is valid for long enough. -/
def savedAuthCert (auth : ConnectionAuth) (validAt : UInt64) : Except Error AuthCert := do
  let cert ← okOr auth.authCert .authCertNotFound
  ensure (¬ auth.authCertExpiration < validAt + authCertExpirationLimit / 2) .authCertExpired
  return cert

def setAuthCert (auth : ConnectionAuth) (cert : AuthCert) : ConnectionAuth :=
  { auth with authCertExpiration := cert.expiration, authCert := some cert }

def sharedKey (auth : ConnectionAuth) (remotePubKeyEcdh : Bytes) (weCalledRemote : Bool) :
    Option Bytes :=
  if weCalledRemote then auth.weCalledRemoteSharedKeys remotePubKeyEcdh
  else auth.remoteCalledUsSharedKeys remotePubKeyEcdh

def setSharedKey (auth : ConnectionAuth) (remotePubKeyEcdh sharedKey : Bytes)
    (weCalledRemote : Bool) : ConnectionAuth :=
  if weCalledRemote then
    { auth with
      weCalledRemoteSharedKeys := fun key =>
        if key = remotePubKeyEcdh then some sharedKey else auth.weCalledRemoteSharedKeys key }
  else
    { auth with
      remoteCalledUsSharedKeys := fun key =>
        if key = remotePubKeyEcdh then some sharedKey else auth.remoteCalledUsSharedKeys key }

end ConnectionAuth

/-! ## Flow control -/

/-- How much was received since capacity was given back. -/
structure FlowController where
  flowControlBytesEnabled : Bool := false
  messagesReceivedInCurrentBatch : UInt32 := 0
  bytesReceivedInCurrentBatch : UInt32 := 0
  deriving DecidableEq

def isFloodMessage : MessageType → Bool
  | .transaction | .scpMessage | .floodAdvert | .floodDemand => true
  | _ => false

namespace FlowController

def enableBytes (flow : FlowController) (localOverlayVersion remoteOverlayVersion : UInt32) :
    FlowController :=
  { flow with
    flowControlBytesEnabled := decide (28 ≤ remoteOverlayVersion ∧ 28 ≤ localOverlayVersion) }

/-- Flow control begins with all of the capacity. -/
def start (flow : FlowController) (localOverlayVersion remoteOverlayVersion : UInt32) :
    StellarMessage × FlowController :=
  let flow := flow.enableBytes localOverlayVersion remoteOverlayVersion
  if flow.flowControlBytesEnabled then (.sendMoreExtended 200 300000, flow)
  else (.sendMore 200, flow)

def resetBatchCounters (flow : FlowController) : FlowController :=
  { flow with messagesReceivedInCurrentBatch := 0, bytesReceivedInCurrentBatch := 0 }

/-- Count a message that was received. -/
def receive (flow : FlowController) (messageType : MessageType) (dataLen : UInt32) :
    FlowController :=
  if isFloodMessage messageType then
    { flow with
      messagesReceivedInCurrentBatch := flow.messagesReceivedInCurrentBatch + 1
      bytesReceivedInCurrentBatch := flow.bytesReceivedInCurrentBatch + (dataLen - 32 - 12) }
  else flow

/-- Whether a batch is full. -/
def shouldSendMore (flow : FlowController) : Bool :=
  flow.messagesReceivedInCurrentBatch = 40 ||
    (flow.flowControlBytesEnabled && decide (100000 ≤ flow.bytesReceivedInCurrentBatch))

/-- Count a message, and give back the capacity of a full batch.  The length of a message fits into
32 bits, otherwise the conversion panics. -/
def createReclaimCapacityMessage (flow : FlowController) (messageType : MessageType)
    (dataLen : Nat) : Except Error (Option StellarMessage × FlowController) := do
  ensure (dataLen < 2 ^ 32) .panic
  let flow := flow.receive messageType (UInt32.ofNat dataLen)
  if flow.shouldSendMore then
    if flow.flowControlBytesEnabled then
      return (some (.sendMoreExtended flow.messagesReceivedInCurrentBatch
        flow.bytesReceivedInCurrentBatch), flow.resetBatchCounters)
    else
      return (some (.sendMore flow.messagesReceivedInCurrentBatch), flow.resetBatchCounters)
  else return (none, flow)

end FlowController

/-! ## The connector -/

/-- What a node says of itself. -/
structure NodeInfo where
  ledgerVersion : UInt32
  overlayVersion : UInt32
  overlayMinVersion : UInt32
  versionStr : Bytes
  networkId : Bytes
  deriving DecidableEq

/-- This side of a connection. -/
structure LocalInfo where
  sequence : UInt64
  nonce : Bytes
  node : NodeInfo
  port : UInt32
  deriving DecidableEq

/-- The other side of a connection. -/
structure RemoteInfo where
  sequence : UInt64
  pubKeyEcdh : Bytes
  pubKey : Stellar.NodeId
  nonce : Bytes
  node : NodeInfo
  deriving DecidableEq

def RemoteInfo.new (hello : Hello) : RemoteInfo where
  sequence := 0
  pubKeyEcdh := hello.cert.pubkey
  pubKey := hello.peerId
  nonce := hello.nonce
  node := ⟨hello.ledgerVersion, hello.overlayVersion, hello.overlayMinVersion, hello.versionStr,
    hello.networkId⟩

def RemoteInfo.incrementSequence (remote : RemoteInfo) : RemoteInfo :=
  { remote with sequence := remote.sequence + 1 }

/-- How far the handshake is. -/
inductive HandshakeState where
  | connecting
  | gotHello
  | completed
  deriving DecidableEq

/-- The state of a connection, with the frames that were written to the stream. -/
structure Connector where
  localInfo : LocalInfo
  remoteInfo : Option RemoteInfo
  hmacKeys : Option HMacKeys
  connectionAuth : ConnectionAuth
  remoteCalledUs : Bool
  receiveTxMessages : Bool
  receiveScpMessages : Bool
  handshakeState : HandshakeState
  flowController : FlowController
  written : List Bytes

abbrev Method (α : Type) := ExceptT Error (StateM Connector) α

/-- What the outside decides while a method runs: the clock, and whether writing succeeds. -/
structure Surroundings where
  timeNow : UInt64
  write : Bytes → Except Error Unit

namespace Connector

/-- `handshake_state >= GotHello`. -/
def isHandshakeCreated (c : Connector) : Bool := c.handshakeState != .connecting

/-- The code of a message that this side sends. -/
def macForAuthMessage (c : Connector) (message : StellarMessage) : Bytes :=
  match c.remoteInfo, c.hmacKeys with
  | some _, some keys =>
    (sdk.hmac (toBeBytes 8 c.localInfo.sequence.toNat ++ sdk.stellarMessageToXdr message)
      keys.sending).getD (zeros 32)
  | _, _ => zeros 32

/-- `ErrorMsg` and `Hello` are sent without counting them. -/
def incrementsLocalSequence : StellarMessage → Bool
  | .errorMsg _ | .hello _ => false
  | _ => true

def incrementLocalSequence (c : Connector) : Connector :=
  { c with localInfo := { c.localInfo with sequence := c.localInfo.sequence + 1 } }

/-- Number and sign a message. -/
def authenticateMessage (message : StellarMessage) : Method AuthenticatedMessageV0 := do
  let c ← get
  let mac := c.macForAuthMessage sdk message
  modify fun c => if incrementsLocalSequence message then c.incrementLocalSequence else c
  return ⟨c.localInfo.sequence, message, mac⟩

/-- The bytes of a message: version, number, message and code, after their length. -/
def messageToBytes (authMsg : AuthenticatedMessageV0) : Except Error Bytes := do
  let messageXdr := zeros 4 ++ toBeBytes 8 authMsg.sequence.toNat ++
    sdk.stellarMessageToXdr authMsg.message ++ authMsg.mac
  ensure (messageXdr.length < 2 ^ 32) .usizeToU32ExceedMax
  return toBeBytes 4 messageXdr.length ++ messageXdr

def createXdrMessage (message : StellarMessage) : Method Bytes := do
  let authMsg ← authenticateMessage sdk message
  messageToBytes sdk authMsg

def sendToNode (surroundings : Surroundings) (message : StellarMessage) : Method Unit := do
  let xdrMsg ← createXdrMessage sdk message
  surroundings.write xdrMsg
  modify fun c => { c with written := c.written ++ [xdrMsg] }

/-- The certificate of this side; a new one is saved. -/
def ownAuthCert (validAt : UInt64) : Method AuthCert := do
  let c ← get
  let auth := c.connectionAuth
  match auth.savedAuthCert validAt with
  | .ok cert => pure cert
  | .error _ => do
    let newAuthCert ← createAuthCert sdk auth.networkHash auth.keypair validAt auth.pubKeyEcdh
    modify fun c => { c with connectionAuth := c.connectionAuth.setAuthCert newAuthCert }
    pure newAuthCert

/-- The first message of this side.  The version text has at most 100 bytes. -/
def createHelloMessage (validAt : UInt64) : Method StellarMessage := do
  let cert ← ownAuthCert sdk validAt
  let c ← get
  let node := c.localInfo.node
  ensure (node.versionStr.length ≤ 100) Error.versionStrTooLong
  let listeningPort := if c.localInfo.port < 2 ^ 31 then c.localInfo.port.toInt32 else 11625
  return .hello ⟨node.ledgerVersion, node.overlayVersion, node.overlayMinVersion, node.networkId,
    node.versionStr, listeningPort, sdk.getPublic c.connectionAuth.keypair, cert,
    c.localInfo.nonce⟩

def sendHelloMessage (surroundings : Surroundings) : Method Unit := do
  let message ← createHelloMessage sdk surroundings.timeNow
  sendToNode sdk surroundings message

def createAuthMessage (localOverlayVersion : UInt32) : StellarMessage :=
  .auth (if 28 ≤ localOverlayVersion then 200 else 100)

def sendAuthMessage (surroundings : Surroundings) : Method Unit := do
  let c ← get
  sendToNode sdk surroundings (createAuthMessage c.localInfo.node.overlayVersion)

/-- Count a message, and give back capacity if a batch is full. -/
def maybeReclaimCapacity (surroundings : Surroundings) (messageType : MessageType) (dataLen : Nat) :
    Method Unit := do
  let c ← get
  let (message, flow) ← c.flowController.createReclaimCapacityMessage messageType dataLen
  modify fun c => { c with flowController := flow }
  match message with
  | some message => sendToNode sdk surroundings message
  | none => pure ()

/-- The number of a message is the one that is due, and its code verifies. -/
def verifyAuth (c : Connector) (authMsg : AuthenticatedMessageV0) (body : Bytes) :
    Except Error Unit := do
  let remoteInfo ← okOr c.remoteInfo .noRemoteInfo
  ensure (remoteInfo.sequence = authMsg.sequence) .invalidSequenceNumber
  let keys ← okOr c.hmacKeys .missingHmacKeys
  ensure (sdk.hmacVerifies body keys.receiving authMsg.mac = true) .hmacError

def incrementRemoteSequence : Method Unit := do
  let c ← get
  let remote ← okOr c.remoteInfo Error.noRemoteInfo
  modify fun c => { c with remoteInfo := some remote.incrementSequence }

/-- The key shared with a node; a new one is saved. -/
def getSharedKey (remotePubKeyEcdh : Bytes) : Method Bytes := do
  let c ← get
  match c.connectionAuth.sharedKey remotePubKeyEcdh (!c.remoteCalledUs) with
  | some sharedKey => pure sharedKey
  | none => do
    let newSharedKey := genSharedKey sdk remotePubKeyEcdh c.connectionAuth.secretKeyEcdh
      c.connectionAuth.pubKeyEcdh (!c.remoteCalledUs)
    modify fun c =>
      { c with
        connectionAuth :=
          c.connectionAuth.setSharedKey remotePubKeyEcdh newSharedKey (!c.remoteCalledUs) }
    pure newSharedKey

/-- Begin a session with the node that sent a `Hello`. -/
def processHelloMessage (surroundings : Surroundings) (hello : Hello) : Method Unit := do
  let c ← get
  ensure (verifyRemoteAuthCert sdk surroundings.timeNow hello.peerId hello.cert
    c.connectionAuth.networkHash = true) Error.authCertInvalid
  let remoteInfo := RemoteInfo.new hello
  let sharedKey ← getSharedKey sdk remoteInfo.pubKeyEcdh
  modify fun c =>
    { c with
      hmacKeys := some (HMacKeys.new sdk sharedKey c.localInfo.nonce remoteInfo.nonce c.remoteCalledUs)
      remoteInfo := some remoteInfo }

/-- The side that was called answers a `Hello` with its own one, the other side with an `Auth`. -/
def answerHello (surroundings : Surroundings) : Method Unit := do
  let c ← get
  if c.remoteCalledUs then sendHelloMessage sdk surroundings else sendAuthMessage sdk surroundings

/-- The side that was called answers an `Auth`. -/
def answerAuth (surroundings : Surroundings) : Method Unit := do
  let c ← get
  if c.remoteCalledUs then sendAuthMessage sdk surroundings else pure ()

def processAuthMessage (surroundings : Surroundings) : Method Unit := do
  answerAuth sdk surroundings
  modify fun c => { c with handshakeState := .completed }
  let c ← get
  match c.remoteInfo with
  | some remote => do
    let (message, flow) :=
      c.flowController.start c.localInfo.node.overlayVersion remote.node.overlayVersion
    modify fun c => { c with flowController := flow }
    sendToNode sdk surroundings message
  | none => pure ()

/-- Handle a message, and return it if the user is to see it. -/
def processStellarMessage (surroundings : Surroundings) (msg : StellarMessage)
    (msgType : MessageType) (dataLen : Nat) : Method (Option StellarMessage) :=
  match msg with
  | .hello hello => do
    processHelloMessage sdk surroundings hello
    modify fun c => { c with handshakeState := .gotHello }
    answerHello sdk surroundings
    return some (.hello hello)
  | .auth _ => do
    processAuthMessage sdk surroundings
    return none
  | .errorMsg e =>
    if e.code = .errConf ∨ e.code = .errAuth then throw (.ofNodeError e)
    else return some (.errorMsg e)
  | .sendMore _ => return none
  | .sendMoreExtended _ _ => return none
  | other => do
    maybeReclaimCapacity sdk surroundings msgType dataLen
    return some other

/-- The part of a raw message that its code covers. -/
def authenticatedBody (data : Xdr) : Bytes := slice data 4 (data.length - 32)

/-- Messages are verified, and counted, only when the handshake has begun. -/
def verifyAfterHandshake (authMsg : AuthenticatedMessageV0) (data : Xdr) : Method Unit := do
  let c ← get
  if c.isHandshakeCreated then do
    c.verifyAuth sdk authMsg (authenticatedBody data)
    incrementRemoteSequence
  else pure ()

/-- Handle a raw message.  Messages of the types that the user does not want are counted and
dropped. -/
def processRawMessage (surroundings : Surroundings) (data : Xdr) :
    Method (Option StellarMessage) := do
  let (authMsg, msgType) ← parseAuthenticatedMessage sdk data
  let c ← get
  if (msgType = .transaction ∨ msgType = .floodAdvert) ∧ c.receiveTxMessages = false then do
    incrementRemoteSequence
    maybeReclaimCapacity sdk surroundings .transaction data.length
    return none
  else if msgType = .scpMessage ∧ c.receiveScpMessages = false then do
    incrementRemoteSequence
    return none
  else if msgType = .errorMsg then
    match authMsg.message with
    | .errorMsg e => throw (.ofNodeError e)
    | _ => return none
  else do
    verifyAfterHandshake sdk authMsg data
    processStellarMessage sdk surroundings authMsg.message msgType data.length

end Connector

/-! ## The loop -/

/-- How a connection is made: this side, its keys, and what its user wants to see. -/
structure ConnectionInfo where
  localInfo : LocalInfo
  keypair : Bytes
  secretKeyEcdh : Bytes
  pubKeyEcdh : Bytes
  authCertExpiration : UInt64
  recvTxMsgs : Bool
  recvScpMsgs : Bool
  remoteCalledUs : Bool

/-- The connector before anything was sent. -/
def Connector.new (info : ConnectionInfo) : Connector where
  localInfo := { info.localInfo with sequence := 0 }
  remoteInfo := none
  hmacKeys := none
  connectionAuth := ⟨info.keypair, info.secretKeyEcdh, info.pubKeyEcdh,
    info.localInfo.node.networkId, fun _ => none, fun _ => none, none, info.authCertExpiration⟩
  remoteCalledUs := info.remoteCalledUs
  receiveTxMessages := info.recvTxMsgs
  receiveScpMessages := info.recvScpMsgs
  handshakeState := .connecting
  flowController := {}
  written := []

/-- Connect to a node: the handshake starts with a `Hello` from this side. -/
def Connector.start (info : ConnectionInfo) (surroundings : Surroundings) : Except Error Connector :=
  match persist (sendHelloMessage sdk surroundings) (Connector.new info) with
  | (.ok _, c) => .ok c
  | (.error e, _) => .error e

/-- One turn of the loop: perhaps a message from the user, and a message from the node.  The length of
a message from the node is read from 31 bits. -/
structure Turn where
  fromUser : Option StellarMessage
  data : Xdr
  surroundings : Surroundings
  length_lt : data.length < 2 ^ 31

/-- Send the message of the user; the loop goes on if that fails. -/
def Connector.sendFromUser (turn : Turn) (c : Connector) : Connector :=
  match turn.fromUser with
  | some message => (persist (sendToNode sdk turn.surroundings message) c).2
  | none => c

/-- A raw message that was handled, and what the user sees of it. -/
structure Handled where
  turn : Turn
  outcome : Option StellarMessage

/-- The messages that are handled, up to the first error. -/
def pollMessagesFromStellar : Connector → List Turn → List Handled
  | _, [] => []
  | c, turn :: turns =>
    match persist (Connector.processRawMessage sdk turn.surroundings turn.data)
      (c.sendFromUser sdk turn) with
    | (.ok outcome, c') => ⟨turn, outcome⟩ :: pollMessagesFromStellar c' turns
    | (.error _, _) => []

end Spacewalk.Clients.Overlay
