import Spacewalk.Clients.Connector

/-!
# Authenticated messages

What the user of a connector sees of the messages of a node.  `OnlyAuthenticated` is the property
that every message that is passed on, `Hello` apart, was preceded by a `Hello` with a valid
certificate, has the number that is due since that `Hello`, and has a code that verifies under the
receiving key of its session.

The connector verifies messages only after the handshake has begun.  A message that a node sends
before its `Hello` is passed on without any check, so the property holds exactly of the inputs in
which no message speaks before the `Hello` (`only_authenticated_iff`).  Once a session has begun, it
holds of every message (`Connector.Phase.step_session`).
-/

namespace Spacewalk.Clients.Overlay

open Foundation

variable {sdk : OverlaySdk} {surroundings : Surroundings} {c c' : Connector} {data : Xdr}
  {outcome : Option StellarMessage} {authMsg : AuthenticatedMessageV0} {msgType : MessageType}
  {message : StellarMessage} {dataLen : Nat}

/-! ## Sending -/

/-- Sending numbers the message, may replace the certificate, and writes to the stream. -/
def Connector.Sends (c c' : Connector) : Prop :=
  ∃ sequence cert expiration written,
    c' = { c with
      localInfo := { c.localInfo with sequence }
      connectionAuth :=
        { c.connectionAuth with authCert := cert, authCertExpiration := expiration }
      written }

instance Connector.sends_refl : Std.Refl Connector.Sends :=
  ⟨fun c => ⟨c.localInfo.sequence, c.connectionAuth.authCert, c.connectionAuth.authCertExpiration,
    c.written, rfl⟩⟩

instance Connector.sends_trans : IsTrans Connector Connector.Sends where
  trans := by
    rintro c _ _ ⟨-, -, -, -, rfl⟩ ⟨sequence, cert, expiration, written, rfl⟩
    exact ⟨sequence, cert, expiration, written, rfl⟩

namespace Connector

theorem authenticateMessage_sends (message : StellarMessage) :
    Leaves Sends (authenticateMessage sdk message) := by
  refine .gets fun c => .bind (.modify fun c => ?_) fun _ => .pure _
  split
  · exact ⟨_, _, _, _, rfl⟩
  · exact refl_of Sends c

theorem sendToNode_sends (message : StellarMessage) :
    Leaves Sends (sendToNode sdk surroundings message) := by
  refine .bind (.bind (authenticateMessage_sends message) fun _ => .liftM _) fun xdrMsg => ?_
  refine .lift fun _ => ?_
  exact .modify fun c => ⟨_, _, _, _, rfl⟩

theorem sendAuthMessage_sends : Leaves Sends (sendAuthMessage sdk surroundings) :=
  .gets fun _ => sendToNode_sends _

theorem ownAuthCert_sends (validAt : UInt64) : Leaves Sends (ownAuthCert sdk validAt) := by
  refine .gets fun c => ?_
  dsimp only
  split
  · exact .pure _
  · refine .lift fun newAuthCert => .bind ?_ fun _ => .pure _
    exact .modify fun c => ⟨_, _, _, _, rfl⟩

theorem createHelloMessage_sends (validAt : UInt64) :
    Leaves Sends (createHelloMessage sdk validAt) :=
  .bind (ownAuthCert_sends validAt) fun _ => .gets fun _ => .lift fun _ => .pure _

theorem sendHelloMessage_sends : Leaves Sends (sendHelloMessage sdk surroundings) :=
  .bind (createHelloMessage_sends _) fun _ => sendToNode_sends _

theorem sendFromUser_sends (turn : Turn) : Sends c (c.sendFromUser sdk turn) := by
  unfold sendFromUser
  split
  · exact sendToNode_sends _ c
  · exact refl_of Sends c

/-- Counting a message changes the counters of the flow control, and may send. -/
theorem maybeReclaimCapacity_ok
    (h : persist (maybeReclaimCapacity sdk surroundings msgType dataLen) c = (.ok (), c')) :
    ∃ flow, Sends { c with flowController := flow } c' := by
  simp only [maybeReclaimCapacity, persist_rules] at h
  obtain ⟨_, _, ⟨rfl, rfl⟩, ⟨message, flow⟩, _, ⟨-, rfl⟩, _, _, rfl, h⟩ := h
  refine ⟨flow, ?_⟩
  cases message with
  | none =>
    obtain ⟨-, rfl⟩ := persist_pure_eq_ok.mp h
    exact refl_of Sends _
  | some message => exact (sendToNode_sends message).of_persist h

theorem answerHello_sends : Leaves Sends (answerHello sdk surroundings) :=
  .gets fun _ => .ite sendHelloMessage_sends sendAuthMessage_sends

theorem answerAuth_sends : Leaves Sends (answerAuth sdk surroundings) :=
  .gets fun _ => .ite sendAuthMessage_sends (.pure _)

/-! ## What handling a message can do -/

theorem incrementRemoteSequence_ok (h : persist incrementRemoteSequence c = (.ok (), c')) :
    ∃ remote, c.remoteInfo = some remote ∧
      c' = { c with remoteInfo := some remote.incrementSequence } := by
  simp only [incrementRemoteSequence, persist_rules, okOr_eq_ok] at h
  obtain ⟨_, _, ⟨rfl, rfl⟩, remote, _, ⟨hremote, rfl⟩, rfl⟩ := h
  exact ⟨remote, hremote, rfl⟩

/-- A message that is verified has the number that is due, and a code that verifies. -/
structure Verified (sdk : OverlaySdk) (c : Connector) (authMsg : AuthenticatedMessageV0)
    (data : Xdr) (remote : RemoteInfo) : Prop where
  remoteInfo : c.remoteInfo = some remote
  sequence : remote.sequence = authMsg.sequence
  mac : ∃ keys, c.hmacKeys = some keys ∧
    sdk.hmacVerifies (authenticatedBody data) keys.receiving authMsg.mac = true

theorem verifyAfterHandshake_ok
    (h : persist (verifyAfterHandshake sdk authMsg data) c = (.ok (), c')) :
    (c.handshakeState = .connecting ∧ c' = c) ∨
      (c.handshakeState ≠ .connecting ∧ ∃ remote, Verified sdk c authMsg data remote ∧
        c' = { c with remoteInfo := some remote.incrementSequence }) := by
  simp only [verifyAfterHandshake, persist_rules, persist_ite_eq_ok, isHandshakeCreated,
    bne_iff_ne] at h
  obtain ⟨_, _, ⟨rfl, rfl⟩, ⟨hcreated, _, _, ⟨hverify, rfl⟩, hcount⟩ | ⟨hnot, -, rfl⟩⟩ := h
  · obtain ⟨remote, hremote, rfl⟩ := incrementRemoteSequence_ok hcount
    simp only [verifyAuth, except_rules] at hverify
    obtain ⟨remote', hremote', _, hsequence, keys, hkeys, hmac⟩ := hverify
    obtain rfl := Option.mem_unique hremote hremote'
    exact .inr ⟨hcreated, remote, ⟨hremote, hsequence, keys, hkeys, hmac⟩, rfl⟩
  · exact .inl ⟨not_not.mp hnot, rfl⟩

/-- The shared key is the saved one or a new one, and a new one is saved. -/
theorem getSharedKey_ok {remotePubKeyEcdh key : Bytes}
    (h : persist (getSharedKey sdk remotePubKeyEcdh) c = (.ok key, c')) :
    (c.connectionAuth.sharedKey remotePubKeyEcdh (!c.remoteCalledUs) = some key ∧ c' = c) ∨
      (key = genSharedKey sdk remotePubKeyEcdh c.connectionAuth.secretKeyEcdh
          c.connectionAuth.pubKeyEcdh (!c.remoteCalledUs) ∧
        c' = { c with
          connectionAuth :=
            c.connectionAuth.setSharedKey remotePubKeyEcdh key (!c.remoteCalledUs) }) := by
  simp only [getSharedKey, persist_rules] at h
  obtain ⟨_, _, ⟨rfl, rfl⟩, h⟩ := h
  split at h
  · next hsaved =>
    obtain ⟨rfl, rfl⟩ := persist_pure_eq_ok.mp h
    exact .inl ⟨hsaved, rfl⟩
  · simp only [persist_rules] at h
    obtain ⟨_, _, rfl, rfl, rfl⟩ := h
    exact .inr ⟨rfl, rfl⟩

/-- The session that a `Hello` begins, with some shared key. -/
def openSession (sdk : OverlaySdk) (c : Connector) (hello : Hello) (sharedKey : Bytes) : Connector :=
  { c with
    hmacKeys := some (HMacKeys.new sdk sharedKey c.localInfo.nonce hello.nonce c.remoteCalledUs)
    remoteInfo := some (.new hello)
    handshakeState := .gotHello }

/-- What handling a message does, by its type. -/
inductive Handles (sdk : OverlaySdk) (surroundings : Surroundings) (c : Connector) :
    StellarMessage → Option StellarMessage → Connector → Prop
  | hello {hello : Hello} {key : Bytes} {c₁ c' : Connector} :
      verifyRemoteAuthCert sdk surroundings.timeNow hello.peerId hello.cert
        c.connectionAuth.networkHash = true →
      persist (getSharedKey sdk hello.cert.pubkey) c = (.ok key, c₁) →
      Sends (openSession sdk c₁ hello key) c' →
      Handles sdk surroundings c (.hello hello) (some (.hello hello)) c'
  | auth {flags : Int32} {flow : FlowController} {c' : Connector} :
      Sends { c with handshakeState := .completed, flowController := flow } c' →
      Handles sdk surroundings c (.auth flags) none c'
  | silent {message : StellarMessage} :
      message.messageType = .sendMore ∨ message.messageType = .sendMoreExtended →
      Handles sdk surroundings c message none c
  | passed {message : StellarMessage} {flow : FlowController} {c' : Connector} :
      message.messageType ∉ [.hello, .auth, .sendMore, .sendMoreExtended] →
      Sends { c with flowController := flow } c' →
      Handles sdk surroundings c message (some message) c'

theorem processHelloMessage_ok {hello : Hello}
    (h : persist (processHelloMessage sdk surroundings hello) c = (.ok (), c')) :
    verifyRemoteAuthCert sdk surroundings.timeNow hello.peerId hello.cert
        c.connectionAuth.networkHash = true ∧
      ∃ key c₁, persist (getSharedKey sdk hello.cert.pubkey) c = (.ok key, c₁) ∧
        { c' with handshakeState := .gotHello } = openSession sdk c₁ hello key := by
  simp only [processHelloMessage, persist_rules, ensure_eq_ok] at h
  obtain ⟨_, _, ⟨rfl, rfl⟩, _, _, ⟨hcert, rfl⟩, key, c₁, hkey, rfl⟩ := h
  exact ⟨hcert, key, c₁, hkey, rfl⟩

theorem processAuthMessage_ok
    (h : persist (processAuthMessage sdk surroundings) c = (.ok (), c')) :
    ∃ flow, Sends { c with handshakeState := .completed, flowController := flow } c' := by
  simp only [processAuthMessage, persist_rules] at h
  obtain ⟨_, c₁, hanswer, _, _, rfl, _, _, ⟨rfl, rfl⟩, h⟩ := h
  obtain ⟨sequence, cert, expiration, written, rfl⟩ := answerAuth_sends.of_persist hanswer
  split at h
  · next remote hremote =>
    simp only [persist_rules] at h
    obtain ⟨_, _, rfl, hsend⟩ := h
    refine ⟨(c.flowController.start c.localInfo.node.overlayVersion remote.node.overlayVersion).2,
      trans_of Sends ?_ ((sendToNode_sends _).of_persist hsend)⟩
    exact ⟨sequence, cert, expiration, written, rfl⟩
  · obtain ⟨-, rfl⟩ := persist_pure_eq_ok.mp h
    exact ⟨_, sequence, cert, expiration, written, rfl⟩

theorem processStellarMessage_ok
    (h : persist (processStellarMessage sdk surroundings message msgType dataLen) c =
      (.ok outcome, c')) : Handles sdk surroundings c message outcome c' := by
  cases message with
  | hello hello =>
    simp only [processStellarMessage, persist_rules] at h
    obtain ⟨_, c₁, hhello, _, _, rfl, _, _, hanswer, rfl, rfl⟩ := h
    obtain ⟨hcert, key, c₂, hkey, hopen⟩ := processHelloMessage_ok hhello
    refine .hello hcert hkey ?_
    rw [← hopen]
    exact answerHello_sends.of_persist hanswer
  | auth flags =>
    simp only [processStellarMessage, persist_rules] at h
    obtain ⟨_, _, hauth, rfl, rfl⟩ := h
    obtain ⟨flow, hsends⟩ := processAuthMessage_ok hauth
    exact .auth hsends
  | errorMsg e =>
    simp only [processStellarMessage, persist_ite_eq_ok, persist_pure_eq_ok] at h
    rcases h with ⟨-, h⟩ | ⟨-, rfl, rfl⟩
    · exact absurd h persist_throw_ne_ok
    · exact .passed (by simp [StellarMessage.messageType])
        (refl_of Sends c)
  | sendMore numMessages =>
    obtain ⟨rfl, rfl⟩ := persist_pure_eq_ok.mp h
    exact .silent (.inl rfl)
  | sendMoreExtended numMessages numBytes =>
    obtain ⟨rfl, rfl⟩ := persist_pure_eq_ok.mp h
    exact .silent (.inr rfl)
  | _ =>
    simp only [processStellarMessage, persist_rules] at h
    obtain ⟨_, _, hreclaim, rfl, rfl⟩ := h
    obtain ⟨flow, hsends⟩ := maybeReclaimCapacity_ok hreclaim
    exact .passed (by simp [StellarMessage.messageType]) hsends

/-- The types of messages that are counted and dropped. -/
def drops (c : Connector) : MessageType → Bool
  | .transaction | .floodAdvert => !c.receiveTxMessages
  | .scpMessage => !c.receiveScpMessages
  | _ => false

theorem take_slice {data : Bytes} {start stop size : ℕ} (h : start + size ≤ stop) :
    (slice data start stop).take size = slice data start (start + size) := by
  rw [slice, slice, List.take_take, min_eq_left (by omega), Nat.add_sub_cancel_left]

theorem parseAuthenticatedMessage_ok
    (h : parseAuthenticatedMessage sdk data = .ok (authMsg, msgType)) :
    msgType = authMsg.message.messageType := by
  simp only [parseAuthenticatedMessage, except_rules, Prod.mk.injEq] at h
  obtain ⟨_, -, _, -, _, -, decodedType, htype, _, hlength, message, hmessage, rfl, rfl⟩ := h
  obtain ⟨hfour, htype'⟩ := sdk.messageType_of_message _ _ hmessage
  -- Both decoders read the same four bytes.
  rw [slice, List.length_take] at hfour
  rw [take_slice (by omega), htype] at htype'
  exact Option.some.inj htype'

/-- A message that is handled without an error is dropped, or it passes the verification that is due
and is handled by its type. -/
theorem processRawMessage_ok
    (h : persist (processRawMessage sdk surroundings data) c = (.ok outcome, c')) :
    ∃ authMsg, parseAuthenticatedMessage sdk data = .ok (authMsg, authMsg.message.messageType) ∧
      authMsg.message.messageType ≠ .errorMsg ∧
      ((c.drops authMsg.message.messageType = true ∧ outcome = none ∧
          ∃ remote flow, c.remoteInfo = some remote ∧
            Sends { c with
              remoteInfo := some remote.incrementSequence, flowController := flow } c') ∨
        (c.drops authMsg.message.messageType = false ∧
          ∃ c₁, persist (verifyAfterHandshake sdk authMsg data) c = (.ok (), c₁) ∧
            Handles sdk surroundings c₁ authMsg.message outcome c')) := by
  simp only [processRawMessage, persist_rules] at h
  obtain ⟨⟨authMsg, msgType⟩, _, ⟨hparse, rfl⟩, _, _, ⟨rfl, rfl⟩, h⟩ := h
  obtain rfl := parseAuthenticatedMessage_ok hparse
  refine ⟨authMsg, hparse, ?_⟩
  dsimp only at h
  split at h
  · next hdrop =>
    simp only [persist_rules] at h
    obtain ⟨_, _, hcount, _, _, hreclaim, rfl, rfl⟩ := h
    obtain ⟨remote, hremote, rfl⟩ := incrementRemoteSequence_ok hcount
    obtain ⟨flow, hsends⟩ := maybeReclaimCapacity_ok hreclaim
    refine ⟨by rcases hdrop.1 with h | h <;> simp [h], .inl ⟨?_, rfl, remote, flow, hremote, hsends⟩⟩
    rcases hdrop.1 with h | h <;> simp [drops, h, hdrop.2]
  split at h
  · next hdrop =>
    simp only [persist_rules] at h
    obtain ⟨_, _, hcount, rfl, rfl⟩ := h
    obtain ⟨remote, hremote, rfl⟩ := incrementRemoteSequence_ok hcount
    refine ⟨by simp [hdrop.1], .inl ⟨?_, rfl, remote, _, hremote, refl_of Sends _⟩⟩
    simp [drops, hdrop.1, hdrop.2]
  split at h
  · next herror =>
    -- The node has sent an error, and the call fails with it.
    cases hmessage : authMsg.message with
    | errorMsg e =>
      rw [hmessage] at h
      exact absurd h persist_throw_ne_ok
    | _ => simp [hmessage, StellarMessage.messageType] at herror
  · next htx hscp herror =>
    simp only [persist_bind_eq_ok] at h
    obtain ⟨_, c₁, hverify, hhandle⟩ := h
    refine ⟨herror, .inr ⟨?_, c₁, hverify, processStellarMessage_ok hhandle⟩⟩
    cases htype : authMsg.message.messageType <;> simp_all [drops]

end Connector

/-! ## Sessions -/

/-- The key under which a connector receives in the session that a `Hello` began. -/
def receivingKey (sdk : OverlaySdk) (info : ConnectionInfo) (hello : Hello) : Bytes :=
  createReceivingMacKey sdk
    (genSharedKey sdk hello.cert.pubkey info.secretKeyEcdh info.pubKeyEcdh (!info.remoteCalledUs))
    info.localInfo.nonce hello.nonce (!info.remoteCalledUs)

/-- Messages other than `Hello` and `ErrorMsg` have numbers. -/
def Handled.isNumbered (sdk : OverlaySdk) (handled : Handled) : Bool :=
  match parseAuthenticatedMessage sdk handled.turn.data with
  | .ok (authMsg, _) =>
    authMsg.message.messageType != .hello && authMsg.message.messageType != .errorMsg
  | .error _ => false

/-- The last `Hello` among the messages that were handled had a valid certificate; `since` are the
messages after it. -/
structure Opened (sdk : OverlaySdk) (info : ConnectionInfo) (history : List Handled) (hello : Hello)
    (since : List Handled) : Prop where
  split : ∃ before opening, history = before ++ opening :: since ∧
    opening.outcome = some (.hello hello) ∧
    verifyRemoteAuthCert sdk opening.turn.surroundings.timeNow hello.peerId hello.cert
      info.localInfo.node.networkId = true
  last : ∀ handled ∈ since, ∀ hello', handled.outcome ≠ some (.hello hello')

/-- A message is authenticated after the messages that were handled before it: it belongs to a session
that a `Hello` with a valid certificate began, has the number that is due, and its code verifies under
the receiving key of the session. -/
def Authenticated (sdk : OverlaySdk) (info : ConnectionInfo) (history : List Handled) (turn : Turn)
    (message : StellarMessage) : Prop :=
  ∃ hello since authMsg, Opened sdk info history hello since ∧
    parseAuthenticatedMessage sdk turn.data = .ok (authMsg, message.messageType) ∧
    authMsg.message = message ∧
    authMsg.sequence = UInt64.ofNat (since.countP (Handled.isNumbered sdk)) ∧
    sdk.hmacVerifies (Connector.authenticatedBody turn.data) (receivingKey sdk info hello)
      authMsg.mac = true

/-- Every message that the user sees, apart from `Hello` and `ErrorMsg`, is authenticated. -/
def OnlyAuthenticated (sdk : OverlaySdk) (info : ConnectionInfo) (c : Connector)
    (turns : List Turn) : Prop :=
  ∀ before handled after message,
    pollMessagesFromStellar sdk c turns = before ++ handled :: after →
    handled.outcome = some message →
    message.messageType ≠ .hello → message.messageType ≠ .errorMsg →
    Authenticated sdk info before handled.turn message

def ConnectionInfo.passesOn (info : ConnectionInfo) : MessageType → Bool
  | .hello | .auth | .errorMsg | .sendMore | .sendMoreExtended => false
  | .transaction | .floodAdvert => info.recvTxMsgs
  | .scpMessage => info.recvScpMsgs
  | _ => true

/-- The first message that is not a `SendMore` or `SendMoreExtended` has a type that is passed on. -/
def speaksBeforeHello (sdk : OverlaySdk) (info : ConnectionInfo) : List Turn → Bool
  | [] => false
  | turn :: turns =>
    match parseAuthenticatedMessage sdk turn.data with
    | .ok (_, msgType) =>
      if msgType = .sendMore ∨ msgType = .sendMoreExtended then speaksBeforeHello sdk info turns
      else info.passesOn msgType
    | .error _ => false

/-- What stays as the connector was made.  Saved shared keys are those of the key exchange. -/
structure Connector.Keeps (sdk : OverlaySdk) (info : ConnectionInfo) (c : Connector) : Prop where
  nonce : c.localInfo.nonce = info.localInfo.nonce
  secretKeyEcdh : c.connectionAuth.secretKeyEcdh = info.secretKeyEcdh
  pubKeyEcdh : c.connectionAuth.pubKeyEcdh = info.pubKeyEcdh
  networkHash : c.connectionAuth.networkHash = info.localInfo.node.networkId
  remoteCalledUs : c.remoteCalledUs = info.remoteCalledUs
  receiveTxMessages : c.receiveTxMessages = info.recvTxMsgs
  receiveScpMessages : c.receiveScpMessages = info.recvScpMsgs
  sharedKeys : ∀ remoteKey key,
    c.connectionAuth.sharedKey remoteKey (!info.remoteCalledUs) = some key →
    key = genSharedKey sdk remoteKey info.secretKeyEcdh info.pubKeyEcdh (!info.remoteCalledUs)

/-- The connector is in the session of the last `Hello`. -/
structure Connector.InSession (sdk : OverlaySdk) (info : ConnectionInfo) (history : List Handled)
    (c : Connector) (hello : Hello) (since : List Handled) : Prop where
  opened : Opened sdk info history hello since
  created : c.handshakeState ≠ .connecting
  remoteInfo : ∃ remote, c.remoteInfo = some remote ∧
    remote.sequence = UInt64.ofNat (since.countP (Handled.isNumbered sdk))
  receiving : ∃ keys, c.hmacKeys = some keys ∧ keys.receiving = receivingKey sdk info hello

/-- Where a connector can be between two messages: it waits for the `Hello`, it has got an `Auth`
instead, or it is in a session. -/
inductive Connector.Phase (sdk : OverlaySdk) (info : ConnectionInfo) (history : List Handled)
    (turns : List Turn) (c : Connector) : Prop
  | waiting : c.handshakeState = .connecting → c.remoteInfo = none →
      speaksBeforeHello sdk info turns = false → Phase sdk info history turns c
  | stuck : c.handshakeState ≠ .connecting → c.remoteInfo = none → Phase sdk info history turns c
  | session {hello : Hello} {since : List Handled} :
      c.InSession sdk info history hello since → Phase sdk info history turns c

section

variable {info : ConnectionInfo} {history : List Handled} {turn : Turn} {turns : List Turn}
  {hello : Hello} {since : List Handled}

/-- A message that is not a `Hello` belongs to the session before it. -/
theorem Opened.extend (h : Opened sdk info history hello since)
    (hother : ∀ hello', outcome ≠ some (.hello hello')) :
    Opened sdk info (history ++ [⟨turn, outcome⟩]) hello (since ++ [⟨turn, outcome⟩]) := by
  obtain ⟨before, opening, rfl, hopening, hcert⟩ := h.split
  refine ⟨⟨before, opening, by simp, hopening, hcert⟩, ?_⟩
  intro handled hmem
  rcases List.mem_append.mp hmem with hmem | hmem
  · exact h.last handled hmem
  · obtain rfl := List.mem_singleton.mp hmem
    exact hother

theorem Opened.of_hello
    (hcert : verifyRemoteAuthCert sdk turn.surroundings.timeNow hello.peerId hello.cert
      info.localInfo.node.networkId = true) :
    Opened sdk info (history ++ [⟨turn, some (.hello hello)⟩]) hello [] :=
  ⟨⟨history, _, rfl, rfl, hcert⟩, by simp⟩

namespace Connector

theorem Keeps.of_sends (hkeeps : c.Keeps sdk info) (h : Sends c c') : c'.Keeps sdk info := by
  obtain ⟨_, _, _, _, rfl⟩ := h
  exact ⟨hkeeps.nonce, hkeeps.secretKeyEcdh, hkeeps.pubKeyEcdh, hkeeps.networkHash,
    hkeeps.remoteCalledUs, hkeeps.receiveTxMessages, hkeeps.receiveScpMessages, hkeeps.sharedKeys⟩

theorem Keeps.update (hkeeps : c.Keeps sdk info) (remoteInfo : Option RemoteInfo)
    (hmacKeys : Option HMacKeys) (handshakeState : HandshakeState) (flowController : FlowController) :
    Keeps sdk info { c with remoteInfo, hmacKeys, handshakeState, flowController } :=
  ⟨hkeeps.nonce, hkeeps.secretKeyEcdh, hkeeps.pubKeyEcdh, hkeeps.networkHash,
    hkeeps.remoteCalledUs, hkeeps.receiveTxMessages, hkeeps.receiveScpMessages, hkeeps.sharedKeys⟩

section

variable {auth : ConnectionAuth} {remoteKey remoteKey' key : Bytes} {weCalledRemote : Bool}

@[simp] theorem setSharedKey_secretKeyEcdh :
    (auth.setSharedKey remoteKey key weCalledRemote).secretKeyEcdh = auth.secretKeyEcdh := by
  cases weCalledRemote <;> rfl

@[simp] theorem setSharedKey_pubKeyEcdh :
    (auth.setSharedKey remoteKey key weCalledRemote).pubKeyEcdh = auth.pubKeyEcdh := by
  cases weCalledRemote <;> rfl

@[simp] theorem setSharedKey_networkHash :
    (auth.setSharedKey remoteKey key weCalledRemote).networkHash = auth.networkHash := by
  cases weCalledRemote <;> rfl

theorem sharedKey_setSharedKey :
    (auth.setSharedKey remoteKey key weCalledRemote).sharedKey remoteKey' weCalledRemote =
      if remoteKey' = remoteKey then some key else auth.sharedKey remoteKey' weCalledRemote := by
  cases weCalledRemote <;> rfl

end

/-- The shared key is the one of the key exchange, whether it was saved or not. -/
theorem Keeps.getSharedKey {remoteKey key : Bytes} (hkeeps : c.Keeps sdk info)
    (h : persist (getSharedKey sdk remoteKey) c = (.ok key, c')) :
    key = genSharedKey sdk remoteKey info.secretKeyEcdh info.pubKeyEcdh (!info.remoteCalledUs) ∧
      c'.Keeps sdk info := by
  rcases getSharedKey_ok h with ⟨hsaved, rfl⟩ | ⟨hkey, rfl⟩
  · rw [hkeeps.remoteCalledUs] at hsaved
    exact ⟨hkeeps.sharedKeys remoteKey key hsaved, hkeeps⟩
  · rw [hkeeps.remoteCalledUs, hkeeps.secretKeyEcdh, hkeeps.pubKeyEcdh] at hkey
    refine ⟨hkey, hkeeps.nonce, ?_, ?_, ?_, hkeeps.remoteCalledUs, hkeeps.receiveTxMessages,
      hkeeps.receiveScpMessages, ?_⟩
    · exact setSharedKey_secretKeyEcdh.trans hkeeps.secretKeyEcdh
    · exact setSharedKey_pubKeyEcdh.trans hkeeps.pubKeyEcdh
    · exact setSharedKey_networkHash.trans hkeeps.networkHash
    · intro remoteKey' key' hkey'
      rw [hkeeps.remoteCalledUs, sharedKey_setSharedKey] at hkey'
      split at hkey'
      · next heq =>
        obtain rfl := Option.some.inj hkey'
        rw [heq]
        exact hkey
      · exact hkeeps.sharedKeys remoteKey' key' hkey'

theorem InSession.of_sends (hin : c.InSession sdk info history hello since) (h : Sends c c') :
    c'.InSession sdk info history hello since := by
  obtain ⟨_, _, _, _, rfl⟩ := h
  exact ⟨hin.opened, hin.created, hin.remoteInfo, hin.receiving⟩

theorem Phase.of_sends (hphase : c.Phase sdk info history turns) (h : Sends c c') :
    c'.Phase sdk info history turns := by
  cases hphase with
  | waiting hstate hremote hspeaks =>
    obtain ⟨_, _, _, _, rfl⟩ := h
    exact .waiting hstate hremote hspeaks
  | stuck hstate hremote =>
    obtain ⟨_, _, _, _, rfl⟩ := h
    exact .stuck hstate hremote
  | session hin => exact .session (hin.of_sends h)

/-- A numbered message that is counted leaves the connector in its session. -/
theorem InSession.advance {remote : RemoteInfo}
    (hin : c.InSession sdk info history hello since) (handshakeState : HandshakeState)
    (flowController : FlowController) (hremote : c.remoteInfo = some remote)
    (hnumbered : Handled.isNumbered sdk ⟨turn, outcome⟩ = true)
    (hother : ∀ hello', outcome ≠ some (.hello hello'))
    (hstate : handshakeState ≠ .connecting) :
    InSession sdk info (history ++ [⟨turn, outcome⟩])
      { c with remoteInfo := some remote.incrementSequence, handshakeState, flowController } hello
      (since ++ [⟨turn, outcome⟩]) := by
  refine ⟨hin.opened.extend hother, hstate, ⟨_, rfl, ?_⟩, hin.receiving⟩
  obtain ⟨remote', hremote', hsequence⟩ := hin.remoteInfo
  obtain rfl := Option.mem_unique hremote hremote'
  rw [List.countP_append, List.countP_singleton, if_pos hnumbered, UInt64.ofNat_add, ← hsequence]
  rfl

/-- A `Hello` with a valid certificate begins a session. -/
theorem InSession.of_hello {c₁ : Connector} {key : Bytes} (hkeeps : c.Keeps sdk info)
    (hcert : verifyRemoteAuthCert sdk turn.surroundings.timeNow hello.peerId hello.cert
      c.connectionAuth.networkHash = true)
    (hkey : persist (Connector.getSharedKey sdk hello.cert.pubkey) c = (.ok key, c₁)) :
    (openSession sdk c₁ hello key).Keeps sdk info ∧
      (openSession sdk c₁ hello key).InSession sdk info
        (history ++ [⟨turn, some (.hello hello)⟩]) hello [] := by
  rw [hkeeps.networkHash] at hcert
  obtain ⟨rfl, hkeeps₁⟩ := hkeeps.getSharedKey hkey
  refine ⟨hkeeps₁.update _ _ _ _, .of_hello hcert, by simp [openSession], ⟨_, rfl, rfl⟩, _, rfl, ?_⟩
  simp only [HMacKeys.new, receivingKey, hkeeps₁.nonce, hkeeps₁.remoteCalledUs]

/-! ### Steps -/

theorem isNumbered_of_parse
    (hparse : parseAuthenticatedMessage sdk turn.data = .ok (authMsg, msgType))
    (hhello : authMsg.message.messageType ≠ .hello)
    (herror : authMsg.message.messageType ≠ .errorMsg) :
    Handled.isNumbered sdk ⟨turn, outcome⟩ = true := by
  simp [Handled.isNumbered, hparse, hhello, herror]

theorem not_hello_of_messageType (h : message.messageType ≠ .hello) :
    ∀ hello', some message ≠ some (.hello hello') := by
  rintro hello' heq
  obtain rfl := Option.some.inj heq
  exact h rfl

/-- Before the handshake, only a message that speaks before the `Hello` is passed on. -/
theorem Phase.step_waiting (hkeeps : c.Keeps sdk info) (hstate : c.handshakeState = .connecting)
    (hremote : c.remoteInfo = none) (hspeaks : speaksBeforeHello sdk info (turn :: turns) = false)
    (hparse : parseAuthenticatedMessage sdk turn.data =
      .ok (authMsg, authMsg.message.messageType))
    (herror : authMsg.message.messageType ≠ .errorMsg)
    (hdrops : c.drops authMsg.message.messageType = false)
    (h : Handles sdk turn.surroundings c authMsg.message outcome c') :
    c'.Keeps sdk info ∧ c'.Phase sdk info (history ++ [⟨turn, outcome⟩]) turns ∧
      ∀ message, outcome = some message → message.messageType = .hello := by
  simp only [speaksBeforeHello, hparse] at hspeaks
  generalize authMsg.message = message at *
  cases h with
  | hello hcert hkey hsends =>
    obtain ⟨hkeeps₁, hin⟩ := InSession.of_hello hkeeps hcert hkey
    refine ⟨hkeeps₁.of_sends hsends, .session (hin.of_sends hsends), ?_⟩
    rintro _ ⟨⟩
    rfl
  | @auth _ flow _ hsends =>
    refine ⟨(hkeeps.update _ _ _ _).of_sends hsends, ?_, by simp⟩
    have hstuck : Phase sdk info (history ++ [⟨turn, none⟩]) turns
        { c with handshakeState := .completed, flowController := flow } :=
      .stuck (by simp) hremote
    exact hstuck.of_sends hsends
  | silent hsilent =>
    rw [if_pos hsilent] at hspeaks
    exact ⟨hkeeps, .waiting hstate hremote hspeaks, by simp⟩
  | passed hpassed hsends =>
    rw [drops.eq_def, hkeeps.receiveTxMessages, hkeeps.receiveScpMessages] at hdrops
    exfalso
    cases htype : message.messageType <;> simp_all [ConnectionInfo.passesOn]

/-- In a session, every message that is passed on is authenticated. -/
theorem Phase.step_session {remote : RemoteInfo} (hkeeps : c.Keeps sdk info)
    (hin : c.InSession sdk info history hello since)
    (hparse : parseAuthenticatedMessage sdk turn.data =
      .ok (authMsg, authMsg.message.messageType))
    (herror : authMsg.message.messageType ≠ .errorMsg)
    (hverified : Verified sdk c authMsg turn.data remote)
    (h : Handles sdk turn.surroundings { c with remoteInfo := some remote.incrementSequence }
      authMsg.message outcome c') :
    c'.Keeps sdk info ∧ c'.Phase sdk info (history ++ [⟨turn, outcome⟩]) turns ∧
      ∀ message, outcome = some message → message.messageType ≠ .hello →
        Authenticated sdk info history turn message := by
  have hkeeps₁ := hkeeps.update (some remote.incrementSequence) c.hmacKeys c.handshakeState
    c.flowController
  have hnumbered : authMsg.message.messageType ≠ .hello →
      Handled.isNumbered sdk ⟨turn, outcome⟩ = true :=
    fun hhello => isNumbered_of_parse hparse hhello herror
  have hremote := hverified.remoteInfo
  have hauthenticated : Authenticated sdk info history turn authMsg.message := by
    obtain ⟨remote', hremote', hsequence⟩ := hin.remoteInfo
    obtain rfl := Option.mem_unique hremote hremote'
    obtain ⟨keys, hkeys, hmac⟩ := hverified.mac
    obtain ⟨keys', hkeys', hreceiving⟩ := hin.receiving
    obtain rfl := Option.mem_unique hkeys hkeys'
    rw [hreceiving] at hmac
    exact ⟨hello, since, authMsg, hin.opened, hparse, rfl, hverified.sequence.symm.trans hsequence,
      hmac⟩
  generalize authMsg.message = message at *
  cases h with
  | hello hcert hkey hsends =>
    obtain ⟨hkeeps₂, hin₂⟩ := InSession.of_hello hkeeps₁ hcert hkey
    refine ⟨hkeeps₂.of_sends hsends, .session (hin₂.of_sends hsends), ?_⟩
    rintro _ ⟨⟩ hhello
    exact absurd rfl hhello
  | @auth _ flow _ hsends =>
    have hin' := hin.advance .completed flow hremote
      (hnumbered (by simp [StellarMessage.messageType])) (by simp) (by simp)
    exact ⟨(hkeeps₁.update _ _ _ _).of_sends hsends, .session (hin'.of_sends hsends), by simp⟩
  | silent hsilent =>
    have hhello : message.messageType ≠ .hello := by
      rcases hsilent with hsilent | hsilent <;> simp [hsilent]
    have hin' := hin.advance c.handshakeState c.flowController hremote (hnumbered hhello) (by simp)
      hin.created
    exact ⟨hkeeps₁, .session hin', by simp⟩
  | @passed _ flow _ hpassed hsends =>
    have hhello : message.messageType ≠ .hello := by
      rintro hhello
      simp [hhello] at hpassed
    have hin' := hin.advance c.handshakeState flow hremote (hnumbered hhello)
      (not_hello_of_messageType hhello) hin.created
    refine ⟨(hkeeps₁.update _ _ _ _).of_sends hsends, .session (hin'.of_sends hsends), ?_⟩
    rintro _ ⟨⟩ -
    exact hauthenticated

/-- One message: the connector stays in one of its phases, and a message that is passed on is
authenticated. -/
theorem Phase.step (hkeeps : c.Keeps sdk info) (hphase : c.Phase sdk info history (turn :: turns))
    (h : persist (processRawMessage sdk turn.surroundings turn.data) c = (.ok outcome, c')) :
    c'.Keeps sdk info ∧ c'.Phase sdk info (history ++ [⟨turn, outcome⟩]) turns ∧
      ∀ message, outcome = some message → message.messageType ≠ .hello →
        Authenticated sdk info history turn message := by
  obtain ⟨authMsg, hparse, herror, hcases⟩ := processRawMessage_ok h
  rcases hcases with ⟨hdrops, rfl, remote, flow, hremote, hsends⟩ | ⟨hdrops, c₁, hverify, hhandles⟩
  · refine ⟨(hkeeps.update _ _ _ _).of_sends hsends, ?_, by simp⟩
    cases hphase with
    | waiting _ hnone _ => simp [hnone] at hremote
    | stuck _ hnone => simp [hnone] at hremote
    | session hin =>
      have hhello : authMsg.message.messageType ≠ .hello := by
        intro hhello
        simp [drops, hhello] at hdrops
      have hnumbered : Handled.isNumbered sdk ⟨turn, none⟩ = true :=
        isNumbered_of_parse hparse hhello herror
      have hin' := hin.advance c.handshakeState flow hremote hnumbered (by simp) hin.created
      exact .session (hin'.of_sends hsends)
  · rcases verifyAfterHandshake_ok hverify with
      ⟨hconnecting, rfl⟩ | ⟨hcreated, remote, hverified, rfl⟩
    · cases hphase with
      | waiting hstate hremote hspeaks =>
        obtain ⟨hkeeps', hphase', hhello⟩ :=
          Phase.step_waiting hkeeps hstate hremote hspeaks hparse herror hdrops hhandles
        exact ⟨hkeeps', hphase', fun message hmessage hne => absurd (hhello message hmessage) hne⟩
      | stuck hstate _ => exact absurd hconnecting hstate
      | session hin => exact absurd hconnecting hin.created
    · cases hphase with
      | waiting hstate _ _ => exact absurd hstate hcreated
      | stuck _ hnone => exact absurd hverified.remoteInfo (by simp [hnone])
      | session hin => exact Phase.step_session hkeeps hin hparse herror hverified hhandles

theorem poll_cons (h : persist (processRawMessage sdk turn.surroundings turn.data)
      (c.sendFromUser sdk turn) = (.ok outcome, c')) :
    pollMessagesFromStellar sdk c (turn :: turns) =
      ⟨turn, outcome⟩ :: pollMessagesFromStellar sdk c' turns := by
  rw [pollMessagesFromStellar, h]

/-- All messages of a loop: if the connector is in one of its phases, then whatever is passed on is
authenticated. -/
theorem Phase.poll (hkeeps : c.Keeps sdk info) (hphase : c.Phase sdk info history turns)
    {before after : List Handled} {handled : Handled}
    (hpoll : pollMessagesFromStellar sdk c turns = before ++ handled :: after)
    (houtcome : handled.outcome = some message) (hhello : message.messageType ≠ .hello) :
    Authenticated sdk info (history ++ before) handled.turn message := by
  induction turns generalizing c history before with
  | nil => simp [pollMessagesFromStellar] at hpoll
  | cons turn turns ih =>
    have hsends : Sends c (c.sendFromUser sdk turn) := sendFromUser_sends turn
    rw [pollMessagesFromStellar] at hpoll
    split at hpoll
    · next outcome c' hprocess =>
      obtain ⟨hkeeps', hphase', hstep⟩ :=
        Phase.step (hkeeps.of_sends hsends) (hphase.of_sends hsends) hprocess
      -- The message is the one of this turn, or it comes later.
      cases before with
      | nil =>
        obtain ⟨rfl, -⟩ := List.cons.inj hpoll
        rw [List.append_nil]
        exact hstep message houtcome hhello
      | cons first before =>
        obtain ⟨rfl, hrest⟩ := List.cons.inj hpoll
        have hlater := ih hkeeps' hphase' hrest
        rwa [List.append_assoc] at hlater
    · simp at hpoll

/-! ### The start -/

theorem start_ok (h : Connector.start sdk info surroundings = .ok c) :
    Sends (Connector.new info) c := by
  have hsends : Sends (.new info) (persist (sendHelloMessage sdk surroundings) (.new info)).2 :=
    sendHelloMessage_sends (.new info)
  unfold Connector.start at h
  split at h
  · next hrun =>
    obtain rfl := Except.ok.inj h
    rwa [hrun] at hsends
  · cases h

theorem Keeps.new : (Connector.new info).Keeps sdk info := by
  refine ⟨rfl, rfl, rfl, rfl, rfl, rfl, rfl, ?_⟩
  intro remoteKey key hkey
  cases hcalled : info.remoteCalledUs <;>
    simp [Connector.new, ConnectionAuth.sharedKey, hcalled] at hkey

/-! ### Messages before the `Hello` -/

theorem verifyAfterHandshake_connecting (hstate : c.handshakeState = .connecting) :
    persist (verifyAfterHandshake sdk authMsg data) c = (.ok (), c) := by
  rw [verifyAfterHandshake, persist_get_bind]
  simp only [isHandshakeCreated, hstate, bne_self_eq_false, Bool.false_eq_true, if_false]
  rfl

/-- A message of a type that is not dropped is handled without a check. -/
theorem processRawMessage_connecting (hstate : c.handshakeState = .connecting)
    (hparse : parseAuthenticatedMessage sdk data = .ok (authMsg, msgType))
    (hdrops : c.drops msgType = false) (herror : msgType ≠ .errorMsg) :
    persist (processRawMessage sdk surroundings data) c =
      persist (processStellarMessage sdk surroundings authMsg.message msgType data.length) c := by
  have htx : ¬ ((msgType = .transaction ∨ msgType = .floodAdvert) ∧ c.receiveTxMessages = false) := by
    rintro ⟨rfl | rfl, hreceive⟩ <;> simp [drops, hreceive] at hdrops
  have hscp : ¬ (msgType = .scpMessage ∧ c.receiveScpMessages = false) := by
    rintro ⟨rfl, hreceive⟩
    simp [drops, hreceive] at hdrops
  rw [processRawMessage, hparse, persist_liftM_ok_bind]
  dsimp only
  rw [persist_get_bind, if_neg htx, if_neg hscp, if_neg herror, persist_bind,
    verifyAfterHandshake_connecting hstate]

/-- The first message that is counted gives no capacity back. -/
theorem maybeReclaimCapacity_first (hflow : c.flowController = {}) (hlength : dataLen < 2 ^ 32) :
    ∃ c', persist (maybeReclaimCapacity sdk surroundings msgType dataLen) c = (.ok (), c') := by
  have hcreate : ∃ flow, c.flowController.createReclaimCapacityMessage msgType dataLen =
      .ok (none, flow) := by
    have hfull : (FlowController.receive {} msgType (UInt32.ofNat dataLen)).shouldSendMore = false := by
      unfold FlowController.receive
      split <;> simp [FlowController.shouldSendMore]
    refine ⟨FlowController.receive {} msgType (UInt32.ofNat dataLen), ?_⟩
    rw [FlowController.createReclaimCapacityMessage, except_bind_eq_ok]
    refine ⟨(), ensure_eq_ok.mpr hlength, ?_⟩
    simp only [hflow, hfull]
    rfl
  obtain ⟨flow, hcreate⟩ := hcreate
  refine ⟨{ c with flowController := flow }, ?_⟩
  rw [maybeReclaimCapacity, persist_get_bind, hcreate, persist_liftM_ok_bind]
  rfl

/-- Before the handshake, a message of a type that is passed on is passed on. -/
theorem processRawMessage_speaks (hkeeps : c.Keeps sdk info)
    (hstate : c.handshakeState = .connecting) (hflow : c.flowController = {})
    (hparse : parseAuthenticatedMessage sdk data = .ok (authMsg, msgType))
    (hpasses : info.passesOn msgType = true) (hlength : data.length < 2 ^ 32) :
    ∃ c', persist (processRawMessage sdk surroundings data) c =
        (.ok (some authMsg.message), c') ∧
      authMsg.message.messageType ≠ .hello ∧ authMsg.message.messageType ≠ .errorMsg := by
  obtain rfl := parseAuthenticatedMessage_ok hparse
  obtain ⟨c', hreclaim⟩ : ∃ c', persist (maybeReclaimCapacity sdk surroundings
      authMsg.message.messageType data.length) c = (.ok (), c') :=
    maybeReclaimCapacity_first hflow hlength
  have hdrops : c.drops authMsg.message.messageType = false := by
    rw [drops.eq_def, hkeeps.receiveTxMessages, hkeeps.receiveScpMessages]
    cases htype : authMsg.message.messageType <;> simp_all [ConnectionInfo.passesOn]
  have herror : authMsg.message.messageType ≠ .errorMsg := by
    intro herror
    simp [herror, ConnectionInfo.passesOn] at hpasses
  have hhello : authMsg.message.messageType ≠ .hello := by
    intro hhello
    simp [hhello, ConnectionInfo.passesOn] at hpasses
  refine ⟨c', ?_, hhello, herror⟩
  rw [processRawMessage_connecting hstate hparse hdrops herror]
  cases hmessage : authMsg.message with
  | hello _ | auth _ | errorMsg _ | sendMore _ | sendMoreExtended _ _ =>
    simp [hmessage, StellarMessage.messageType, ConnectionInfo.passesOn] at hpasses
  | _ =>
    rw [hmessage] at hreclaim
    rw [processStellarMessage, persist_bind, hreclaim]
    · rfl
    all_goals simp

theorem processRawMessage_silent (hstate : c.handshakeState = .connecting)
    (hparse : parseAuthenticatedMessage sdk data = .ok (authMsg, msgType))
    (hsilent : msgType = .sendMore ∨ msgType = .sendMoreExtended) :
    persist (processRawMessage sdk surroundings data) c = (.ok none, c) := by
  obtain rfl := parseAuthenticatedMessage_ok hparse
  rw [processRawMessage_connecting hstate hparse]
  · cases hmessage : authMsg.message with
    | sendMore _ | sendMoreExtended _ _ => rfl
    | _ => simp [hmessage, StellarMessage.messageType] at hsilent
  all_goals rcases hsilent with hsilent | hsilent <;> simp [hsilent, drops]

/-- If a message speaks before the `Hello`, then the user sees a message before any `Hello`. -/
theorem poll_speaks (hkeeps : c.Keeps sdk info) (hstate : c.handshakeState = .connecting)
    (hflow : c.flowController = {}) (hspeaks : speaksBeforeHello sdk info turns = true) :
    ∃ before handled after message,
      pollMessagesFromStellar sdk c turns = before ++ handled :: after ∧
      handled.outcome = some message ∧ message.messageType ≠ .hello ∧
      message.messageType ≠ .errorMsg ∧ ∀ earlier ∈ before, earlier.outcome = none := by
  induction turns generalizing c with
  | nil => simp [speaksBeforeHello] at hspeaks
  | cons turn turns ih =>
    have hsends : Sends c (c.sendFromUser sdk turn) := sendFromUser_sends turn
    have hkeeps' := hkeeps.of_sends hsends
    have hstate' : (c.sendFromUser sdk turn).handshakeState = .connecting := by
      obtain ⟨_, _, _, _, heq⟩ := hsends
      rwa [heq]
    have hflow' : (c.sendFromUser sdk turn).flowController = {} := by
      obtain ⟨_, _, _, _, heq⟩ := hsends
      rwa [heq]
    rw [speaksBeforeHello] at hspeaks
    split at hspeaks
    · next authMsg msgType hparse =>
      split at hspeaks
      · next hsilent =>
        obtain ⟨before, handled, after, message, hpoll, houtcome, hhello, herror, hearlier⟩ :=
          ih hkeeps' hstate' hflow' hspeaks
        refine ⟨⟨turn, none⟩ :: before, handled, after, message, ?_, houtcome, hhello, herror, ?_⟩
        · rw [poll_cons (processRawMessage_silent hstate' hparse hsilent), hpoll, List.cons_append]
        · simpa using hearlier
      · have hlength : turn.data.length < 2 ^ 32 := turn.length_lt.trans (by decide)
        obtain ⟨c', hprocess, hhello, herror⟩ := processRawMessage_speaks
          hkeeps' hstate' hflow' hparse hspeaks hlength
        refine ⟨[], ⟨turn, some authMsg.message⟩, pollMessagesFromStellar sdk c' turns,
          authMsg.message, ?_, rfl, hhello, herror, by simp⟩
        rw [poll_cons hprocess, List.nil_append]
    · cases hspeaks

end Connector

/-- A connector that was started passes on authenticated messages only, exactly if no message speaks
before the `Hello`. -/
theorem only_authenticated_iff (sdk : OverlaySdk) (info : ConnectionInfo)
    (surroundings : Surroundings) (c : Connector) (turns : List Turn)
    (hstart : Connector.start sdk info surroundings = .ok c) :
    OnlyAuthenticated sdk info c turns ↔ speaksBeforeHello sdk info turns = false := by
  have hsends := Connector.start_ok hstart
  have hkeeps : c.Keeps sdk info := Connector.Keeps.new.of_sends hsends
  have hnew : c.handshakeState = .connecting ∧ c.remoteInfo = none ∧ c.flowController = {} := by
    obtain ⟨_, _, _, _, rfl⟩ := hsends
    exact ⟨rfl, rfl, rfl⟩
  obtain ⟨hstate, hremote, hflow⟩ := hnew
  constructor
  · intro honly
    by_contra hspeaks
    rw [Bool.not_eq_false] at hspeaks
    obtain ⟨before, handled, after, message, hpoll, houtcome, hhello, herror, hearlier⟩ :=
      Connector.poll_speaks hkeeps hstate hflow hspeaks
    obtain ⟨hello, since, authMsg, hopened, -⟩ :=
      honly before handled after message hpoll houtcome hhello herror
    -- The session would have begun with a `Hello` that the user has seen.
    obtain ⟨first, opening, rfl, hopening, -⟩ := hopened.split
    rw [hearlier opening (by simp)] at hopening
    cases hopening
  · intro hspeaks before handled after message hpoll houtcome hhello herror
    have hphase : c.Phase sdk info [] turns := .waiting hstate hremote hspeaks
    exact hphase.poll hkeeps hpoll houtcome hhello

end

/-! ## Examples of sessions -/

/-- A `Hello` with a certificate that is valid until second 1000. -/
def sampleHello : Hello where
  ledgerVersion := 20
  overlayVersion := 30
  overlayMinVersion := 27
  networkId := zeros 32
  versionStr := []
  listeningPort := 11625
  peerId := 0
  cert := ⟨zeros 32, 1000, zeros 64⟩
  nonce := zeros 32

/-- Libraries that know `Hello` and `ScpMessage`, with one code and one signature. -/
def sampleOverlaySdk : OverlaySdk where
  messageTypeFromXdr
    | [0, 0, 0, 13] => some .hello
    | [0, 0, 0, 11] => some .scpMessage
    | _ => none
  stellarMessageFromXdr
    | [0, 0, 0, 13] => some (.hello sampleHello)
    | 0 :: 0 :: 0 :: 11 :: content => some (.scpMessage content)
    | _ => none
  stellarMessageToXdr _ := []
  messageType_of_message := by
    intro bytes message h
    split at h
    · obtain rfl := Option.some.inj h
      exact ⟨by decide, rfl⟩
    · obtain rfl := Option.some.inj h
      exact ⟨by simp, rfl⟩
    · cases h
  hmac _ _ := some (zeros 32)
  hmacVerifies _ key mac := decide (mac = key)
  sha256 _ := zeros 32
  scalarmult _ _ := zeros 32
  verifySignature _ _ signature := decide (signature = zeros 64)
  createSignature _ _ := zeros 64
  getPublic _ := 1
  envelopeTypeAuth := [0, 0, 0, 3]

def sampleConnectionInfo : ConnectionInfo where
  localInfo := ⟨0, zeros 32, ⟨20, 30, 27, [], zeros 32⟩, 11625⟩
  keypair := zeros 32
  secretKeyEcdh := zeros 32
  pubKeyEcdh := zeros 32
  authCertExpiration := 0
  recvTxMsgs := false
  recvScpMsgs := true
  remoteCalledUs := false

def sampleSurroundings : Surroundings := ⟨0, fun _ => .ok ()⟩

def helloTurn : Turn :=
  ⟨none, zeros 12 ++ [0, 0, 0, 13] ++ zeros 32, sampleSurroundings, by decide⟩

/-- An `ScpMessage` with number 0 and some code. -/
def scpTurn (mac : Fin 2) : Turn :=
  ⟨none, zeros 12 ++ [0, 0, 0, 11, 7] ++ List.replicate 32 (UInt8.ofNat mac), sampleSurroundings,
    by simp [zeros]⟩

/-- After the `Hello`, an `ScpMessage` with the code of the session is passed on. -/
theorem only_authenticated_after_hello :
    ∃ c, Connector.start sampleOverlaySdk sampleConnectionInfo sampleSurroundings = .ok c ∧
      (pollMessagesFromStellar sampleOverlaySdk c [helloTurn, scpTurn 0]).map Handled.outcome =
        [some (.hello sampleHello), some (.scpMessage [7])] ∧
      OnlyAuthenticated sampleOverlaySdk sampleConnectionInfo c [helloTurn, scpTurn 0] := by
  refine ⟨_, rfl, by decide +kernel, ?_⟩
  exact (only_authenticated_iff sampleOverlaySdk sampleConnectionInfo sampleSurroundings _ _ rfl).mpr
    (by decide +kernel)

/-- An `ScpMessage` without a valid code, and without any `Hello` before it, is passed on. -/
theorem scp_message_before_hello :
    ∃ c, Connector.start sampleOverlaySdk sampleConnectionInfo sampleSurroundings = .ok c ∧
      (pollMessagesFromStellar sampleOverlaySdk c [scpTurn 1]).map Handled.outcome =
        [some (.scpMessage [7])] ∧
      ¬ OnlyAuthenticated sampleOverlaySdk sampleConnectionInfo c [scpTurn 1] := by
  refine ⟨_, rfl, by decide +kernel, ?_⟩
  intro honly
  obtain ⟨hello, since, authMsg, hopened, -⟩ :=
    honly [] ⟨scpTurn 1, some (.scpMessage [7])⟩ [] (.scpMessage [7]) rfl rfl (by decide) (by decide)
  obtain ⟨before, opening, hsplit, -⟩ := hopened.split
  simp at hsplit

end Spacewalk.Clients.Overlay
