import Spacewalk.Foundation.Loop
import Spacewalk.Foundation.Packets

/-!
# Reading messages from a Stellar node

The reader of the overlay connection (`clients/stellar-relay-lib/src/connection/connector`).  A node
sends every message as a frame: four bytes with the length of the message, then the message.
`readMessageFromStellar` returns the next message.  It reads the length into a buffer of four bytes,
then the message, and if some bytes of the message are missing it goes on reading, in turns into the
buffer of four bytes and into a buffer for the rest.

The stream is a `PacketStream` of bytes.  A stream that has nothing to read answers with no bytes, on
which the source reads again; in the model such a call does not return.
-/

namespace Spacewalk.Clients

open Foundation

/-- Bytes on the wire. -/
abbrev Bytes := List UInt8

/-- A message as the node encodes it. -/
abbrev Xdr := Bytes

/-- Why reading a message fails. -/
inductive RelayError where
  | readFailed (reason : String)
  deriving DecidableEq

/-- The connection to a node. -/
abbrev TcpStream := PacketStream UInt8 String

/-- The length of the next message, from four bytes; the first bit is not part of it.  Fewer bytes
give 0. -/
def getXdrMessageLength : Bytes → Nat
  | b₀ :: b₁ :: b₂ :: b₃ :: _ =>
    b₀.toNat % 128 * 2 ^ 24 + b₁.toNat * 2 ^ 16 + b₂.toNat * 2 ^ 8 + b₃.toNat
  | _ => 0

/-- A buffer of zeros. -/
def zeros (size : Nat) : Bytes := List.replicate size 0

/-- What is in a buffer after bytes were read into it. -/
def overwrite (buffer bytes : Bytes) : Bytes := bytes ++ buffer.drop bytes.length

/-- Read into a buffer.  Returns the number of bytes and the buffer. -/
def readInto (buffer : Bytes) (tcpStream : TcpStream) :
    Except RelayError (Nat × Bytes × TcpStream) :=
  match tcpStream.read buffer.length with
  | .ok (bytes, tcpStream) => .ok (bytes.length, overwrite buffer bytes, tcpStream)
  | .error reason => .error (.readFailed reason)

/-- The variables of the loop of `readMessageFromStellar`. -/
structure Reader where
  /-- The number of bytes that were missing from the previous message. -/
  lackBytesFromPrev : Nat
  readbuf : Bytes
  buffForReading : Bytes
  tcpStream : TcpStream
  deriving DecidableEq

/-- Read a message of an expected length.  Returns whether all of it was read, the number of bytes
that are missing, and the bytes. -/
def isReadingComplete (lackBytesFromPrev : Nat) (readbuf : Bytes) (xpectMsgLen : Nat)
    (tcpStream : TcpStream) : Except RelayError (Bool × Nat × Bytes × TcpStream) := do
  let (actualMsgLen, readbuf, tcpStream) ← readInto readbuf tcpStream
  if actualMsgLen = xpectMsgLen then
    return (true, lackBytesFromPrev, readbuf, tcpStream)
  return (false, xpectMsgLen - actualMsgLen, readbuf.take actualMsgLen, tcpStream)

/-- Read the missing bytes of a message. -/
def isReadingUnfinishedMessageComplete (lackBytesFromPrev : Nat) (readbuf : Bytes)
    (tcpStream : TcpStream) : Except RelayError (Bool × Nat × Bytes × TcpStream) := do
  let (actualMsgLen, contBuf, tcpStream) ← readInto (zeros lackBytesFromPrev) tcpStream
  if actualMsgLen = lackBytesFromPrev then
    return (true, lackBytesFromPrev, readbuf ++ contBuf, tcpStream)
  if actualMsgLen > 0 then
    return (false, lackBytesFromPrev - actualMsgLen, readbuf ++ contBuf.take actualMsgLen, tcpStream)
  return (false, lackBytesFromPrev, readbuf, tcpStream)

/-- Go on with the loop, or return the message. -/
def Reader.proceed (buffForReading : Bytes) :
    Except RelayError (Bool × Nat × Bytes × TcpStream) →
      Reader ⊕ Except RelayError (Xdr × TcpStream)
  | .ok (false, lackBytesFromPrev, readbuf, tcpStream) =>
    .inl ⟨lackBytesFromPrev, readbuf, buffForReading, tcpStream⟩
  | .ok (true, _, readbuf, tcpStream) => .inr (.ok (readbuf, tcpStream))
  | .error e => .inr (.error e)

/-- The body of the loop of `readMessageFromStellar`. -/
def Reader.body (reader : Reader) : Reader ⊕ Except RelayError (Xdr × TcpStream) :=
  match readInto reader.buffForReading reader.tcpStream with
  | .error e => .inr (.error e)
  | .ok (size, buffForReading, tcpStream) =>
    if size = 0 then .inl { reader with buffForReading, tcpStream }
    else if reader.lackBytesFromPrev = 0 then
      let expectMsgLen := getXdrMessageLength buffForReading
      if expectMsgLen = 0 then .inl { reader with buffForReading, tcpStream }
      else
        proceed buffForReading (isReadingComplete reader.lackBytesFromPrev (zeros expectMsgLen)
          expectMsgLen tcpStream)
    else
      proceed (zeros 4) (isReadingUnfinishedMessageComplete (reader.lackBytesFromPrev - size)
        (reader.readbuf ++ buffForReading) tcpStream)

/-- The variables before the loop. -/
def Reader.start (tcpStream : TcpStream) : Reader := ⟨0, [], zeros 4, tcpStream⟩

/-- The next message of the stream.  Every turn of the loop reads something, as long as there is
something to read, so the number of bytes bounds the number of turns. -/
def readMessageFromStellar (tcpStream : TcpStream) :
    Option (Except RelayError (Xdr × TcpStream)) :=
  loop Reader.body (tcpStream.pending.length + tcpStream.replies.length + 1)
    (Reader.start tcpStream)

/-! ## The bound on the number of turns -/

section

variable {buffer buffer' : Bytes} {n : Nat} {tcpStream tcpStream' : TcpStream}

/-- The bytes and the answers that are left in a stream. -/
def streamSize (tcpStream : TcpStream) : Nat :=
  tcpStream.pending.length + tcpStream.replies.length

theorem readInto_size (h : readInto buffer tcpStream = .ok (n, buffer', tcpStream')) :
    n + streamSize tcpStream' ≤ streamSize tcpStream := by
  unfold readInto at h
  split at h
  · next bytes rest hread =>
    cases h
    have hlength := PacketStream.length_add_of_read hread
    rcases PacketStream.eq_or_lt_of_read hread with hlt | ⟨heq, -⟩ <;>
      simp only [streamSize] <;> omega
  · cases h

/-- A read that returns nothing leaves everything as it is, or uses up an answer. -/
theorem readInto_zero (h : readInto buffer tcpStream = .ok (0, buffer', tcpStream')) :
    buffer' = buffer ∧ (tcpStream' = tcpStream ∨ streamSize tcpStream' < streamSize tcpStream) := by
  unfold readInto at h
  split at h
  · next bytes rest hread =>
    obtain ⟨hnil, rfl, rfl⟩ : bytes.length = 0 ∧ overwrite buffer bytes = buffer' ∧
        rest = tcpStream' := by
      simpa using h
    obtain rfl := List.length_eq_zero_iff.mp hnil
    have hlength := PacketStream.length_add_of_read hread
    refine ⟨by simp [overwrite], ?_⟩
    rcases PacketStream.eq_or_lt_of_read hread with hlt | ⟨-, hsame⟩
    · right
      simp only [streamSize, List.length_nil] at hlength ⊢
      omega
    · exact .inl (hsame rfl)
  · cases h

theorem isReadingComplete_size {lack lack' xpectMsgLen : Nat} {complete : Bool}
    (h : isReadingComplete lack buffer xpectMsgLen tcpStream =
      .ok (complete, lack', buffer', tcpStream')) : streamSize tcpStream' ≤ streamSize tcpStream := by
  unfold isReadingComplete at h
  cases hread : readInto buffer tcpStream with
  | error e => simp [hread, bind, Except.bind] at h
  | ok result =>
    obtain ⟨n, buffer'', rest⟩ := result
    have hsize := readInto_size hread
    simp only [hread, bind, Except.bind, pure, Except.pure] at h
    split at h <;> cases h <;> omega

theorem isReadingUnfinishedMessageComplete_size {lack lack' : Nat} {readbuf : Bytes}
    {complete : Bool}
    (h : isReadingUnfinishedMessageComplete lack readbuf tcpStream =
      .ok (complete, lack', buffer', tcpStream')) : streamSize tcpStream' ≤ streamSize tcpStream := by
  unfold isReadingUnfinishedMessageComplete at h
  cases hread : readInto (zeros lack) tcpStream with
  | error e => simp [hread, bind, Except.bind] at h
  | ok result =>
    obtain ⟨n, buffer'', rest⟩ := result
    have hsize := readInto_size hread
    simp only [hread, bind, Except.bind, pure, Except.pure] at h
    split at h
    · cases h
      omega
    · split at h <;> cases h <;> omega

theorem Reader.proceed_eq_inl {result : Except RelayError (Bool × Nat × Bytes × TcpStream)}
    {reader : Reader} (h : proceed buffer result = .inl reader) :
    result = .ok (false, reader.lackBytesFromPrev, reader.readbuf, reader.tcpStream) := by
  unfold proceed at h
  split at h
  · cases h
    rfl
  · cases h
  · cases h

/-- A turn of the loop uses up some of the stream, or changes nothing. -/
theorem Reader.body_eq_inl {reader reader' : Reader} (h : reader.body = .inl reader') :
    reader' = reader ∨ streamSize reader'.tcpStream < streamSize reader.tcpStream := by
  unfold body at h
  split at h
  · cases h
  · next n buffer' rest hread =>
    have hsize := readInto_size hread
    split at h
    · next hzero =>
      subst hzero
      cases h
      obtain ⟨rfl, rfl | hlt⟩ := readInto_zero hread
      · exact .inl rfl
      · exact .inr hlt
    · right
      split at h
      · dsimp only at h
        split at h
        · cases h
          show streamSize rest < _
          omega
        · have hrest := isReadingComplete_size (proceed_eq_inl h)
          omega
      · have hrest := isReadingUnfinishedMessageComplete_size (proceed_eq_inl h)
        omega

/-- The reader returns what its loop returns. -/
theorem readMessageFromStellar_eq_some {result : Except RelayError (Xdr × TcpStream)} :
    readMessageFromStellar tcpStream = some result ↔
      Exits Reader.body (Reader.start tcpStream) result :=
  loop_eq_some_iff (fun reader => streamSize reader.tcpStream) (fun _ _ => Reader.body_eq_inl)
    (Nat.lt_succ_self _)

end

end Spacewalk.Clients
