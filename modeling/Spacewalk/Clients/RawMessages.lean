import Spacewalk.Clients.Handshake

/-!
# Raw messages

A raw message has a version of 4 bytes, a number of 8 bytes, a message that begins with its type, in
4 bytes, and a code of 32 bytes.  `parseAuthenticatedMessage` takes its parts out by their positions,
and checks the length nowhere, so it panics for some of the strings with less than 44 bytes.
Strings that are long enough never cause a panic, and what `messageToBytes` writes is read back.
-/

namespace Spacewalk.Clients.Overlay

open Foundation

variable {sdk : OverlaySdk} {data : Xdr} {m : AuthenticatedMessageV0} {bytes : Bytes}

/-! ## Numbers in bytes -/

theorem toBeBytes_succ (k n : ℕ) :
    toBeBytes (k + 1) n = UInt8.ofNat (n / 256 ^ k) :: toBeBytes k n := by
  rw [toBeBytes, List.range_succ, List.reverse_append, List.map_append]
  rfl

@[simp] theorem length_toBeBytes (k n : ℕ) : (toBeBytes k n).length = k := by
  rw [toBeBytes, List.length_map, List.length_reverse, List.length_range]

/-- Bytes are read from the left; what was read before them counts `256 ^ k` times. -/
theorem foldl_toBeBytes (k n start : ℕ) :
    (toBeBytes k n).foldl (fun n b => n * 256 + b.toNat) start = start * 256 ^ k + n % 256 ^ k := by
  induction k generalizing start with
  | zero => simp [toBeBytes, Nat.mod_one]
  | succ k ih =>
    rw [toBeBytes_succ, List.foldl_cons, ih, UInt8.toNat_ofNat', Nat.mod_pow_succ (b := 256)]
    ring

theorem fromBeBytes_toBeBytes {k n : ℕ} (h : n < 256 ^ k) : fromBeBytes (toBeBytes k n) = n := by
  rw [fromBeBytes, foldl_toBeBytes, Nat.mod_eq_of_lt h, Nat.zero_mul, Nat.zero_add]

/-! ## Reading raw messages -/

/-- Reading the raw message does not panic, and if it succeeds then neither do taking the bytes that
the code covers, from 4 to 32 before the end, and computing the size of the message, which is without
the code and the head of 12 bytes.  A string that is too short is an error. -/
structure ReadSafely (sdk : OverlaySdk) (data : Xdr) : Prop where
  noPanic : parseAuthenticatedMessage sdk data ≠ .error .panic
  error_of_short : data.length < 44 → ∃ e, parseAuthenticatedMessage sdk data = .error e
  body : ∀ r, parseAuthenticatedMessage sdk data = .ok r → 32 ≤ data.length ∧ 4 ≤ data.length - 32
  size : ∀ r, parseAuthenticatedMessage sdk data = .ok r → ∀ flow : FlowController,
    32 ≤ data.length ∧ 12 ≤ data.length - 32 ∧
      flow.createReclaimCapacityMessage r.2 data.length ≠ .error .panic

/-- What is written for a message is read back, if the codec reads back the message in it. -/
def ReadsBack (sdk : OverlaySdk) : Prop :=
  ∀ m bytes, m.mac.length = 32 →
    sdk.stellarMessageFromXdr (sdk.stellarMessageToXdr m.message) = some m.message →
    Connector.messageToBytes sdk m = .ok bytes →
    parseAuthenticatedMessage sdk (bytes.drop 4) = .ok (m, m.message.messageType)

/-- The string has the parts that are looked at: the version, the type after version 0, and the rest
after a type that is known. -/
def Complete (sdk : OverlaySdk) (data : Xdr) : Prop :=
  4 ≤ data.length ∧
    (fromBeBytes (slice data 0 4) = 0 →
      16 ≤ data.length ∧ (sdk.messageTypeFromXdr (slice data 12 16) ≠ none → 44 ≤ data.length))

instance (sdk : OverlaySdk) (data : Xdr) : Decidable (Complete sdk data) :=
  inferInstanceAs (Decidable (_ ∧ _))

theorem parseAuthenticatedMessage_panics_iff :
    parseAuthenticatedMessage sdk data = .error .panic ↔ ¬ Complete sdk data := by
  simp only [parseAuthenticatedMessage, Complete, except_bind_eq_error, ensure_eq_error,
    ensure_eq_ok, okOr_eq_error, okOr_eq_ok]
  cases sdk.messageTypeFromXdr (slice data 12 16) <;>
    cases sdk.stellarMessageFromXdr (slice data 12 (data.length - 32)) <;>
    simp [pure, Except.pure] <;> omega

theorem length_of_parse {r : AuthenticatedMessageV0 × MessageType}
    (h : parseAuthenticatedMessage sdk data = .ok r) : 44 ≤ data.length := by
  simp only [parseAuthenticatedMessage, except_rules] at h
  obtain ⟨_, -, _, -, _, -, _, -, _, hlength, -⟩ := h
  exact hlength

/-- A string is read safely if and only if it has the parts that are looked at. -/
theorem readSafely_iff (hframe : data.length < 2 ^ 31) :
    ReadSafely sdk data ↔ Complete sdk data := by
  constructor
  · intro h
    by_contra hcon
    exact h.noPanic (parseAuthenticatedMessage_panics_iff.mpr hcon)
  · intro hcomplete
    refine ⟨fun h => parseAuthenticatedMessage_panics_iff.mp h hcomplete, fun hshort => ?_, ?_, ?_⟩
    · cases hparse : parseAuthenticatedMessage sdk data with
      | error e => exact ⟨e, rfl⟩
      | ok r => exact absurd (length_of_parse hparse) (by omega)
    · intro r hparse
      have hlength := length_of_parse hparse
      omega
    · intro r hparse flow
      have hlength := length_of_parse hparse
      refine ⟨by omega, by omega, ?_⟩
      rw [FlowController.createReclaimCapacityMessage]
      simp only [Ne, except_bind_eq_error, ensure_eq_error, ensure_eq_ok]
      split_ifs <;> simp [pure, Except.pure] <;> omega

/-! ## What is written is read back -/

theorem slice_append {before part after : Bytes} {start stop : ℕ} (hstart : before.length = start)
    (hstop : start + part.length = stop) : slice (before ++ (part ++ after)) start stop = part := by
  rw [slice, List.drop_left' hstart, List.take_left' (by omega)]

theorem readsBack (sdk : OverlaySdk) : ReadsBack sdk := by
  intro m bytes hmac hcodec hbytes
  simp only [Connector.messageToBytes, except_rules] at hbytes
  obtain ⟨_, -, rfl⟩ := hbytes
  obtain ⟨hfour, htype⟩ := sdk.messageType_of_message _ _ hcodec
  rw [List.drop_left' (length_toBeBytes _ _)]
  set head := zeros 4 ++ toBeBytes 8 m.sequence.toNat with hhead
  set xdr := sdk.stellarMessageToXdr m.message
  have hhead_length : head.length = 12 := by simp [hhead, zeros]
  have hlength : (head ++ xdr ++ m.mac).length = 12 + xdr.length + 32 := by
    rw [List.length_append, List.length_append, hhead_length, hmac]
  have hmessage : slice (head ++ xdr ++ m.mac) 12 ((head ++ xdr ++ m.mac).length - 32) = xdr := by
    rw [hlength, List.append_assoc]
    exact slice_append hhead_length (by omega)
  have hversion : slice (head ++ xdr ++ m.mac) 0 4 = zeros 4 := by
    rw [hhead, List.append_assoc, List.append_assoc]
    exact List.take_left' rfl
  have hsequence : slice (head ++ xdr ++ m.mac) 4 12 = toBeBytes 8 m.sequence.toNat := by
    rw [hhead, List.append_assoc, List.append_assoc]
    exact slice_append rfl (by simp)
  have hcode : (head ++ xdr ++ m.mac).drop ((head ++ xdr ++ m.mac).length - 32) = m.mac :=
    List.drop_left' (by rw [hlength, List.length_append, hhead_length]; omega)
  have htype' : slice (head ++ xdr ++ m.mac) 12 16 = xdr.take 4 := by
    have htake : (slice (head ++ xdr ++ m.mac) 12 ((head ++ xdr ++ m.mac).length - 32)).take 4 =
        slice (head ++ xdr ++ m.mac) 12 16 := Connector.take_slice (by omega)
    rw [← htake, hmessage]
  simp only [parseAuthenticatedMessage, except_rules, hmessage, hversion, hsequence, hcode, htype']
  refine ⟨(), by omega, (), by decide, (), by omega, _, htype, (), by omega, _, hcodec, ?_⟩
  rw [fromBeBytes_toBeBytes m.sequence.toNat_lt, UInt64.ofNat_toNat]

/-! ## Frames -/

end Spacewalk.Clients.Overlay
