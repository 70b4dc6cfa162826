import Spacewalk.Clients.MessageReader

/-!
# The messages that are read from a stream

The reader gets the messages of a stream right if the packets are aligned with the frames: the four
bytes of a header come in one read, and whenever a message comes in several, the reads into the
buffer of four bytes return four bytes of the message each (`alignedFrame`).  Otherwise it takes a
part of a header for the length, appends what is left in the buffer to the message, or takes bytes
of the next frame (`delivered_iff_aligned`).
-/

namespace Spacewalk.Clients

open Foundation

/-! ## Frames -/

/-- The mark and the length of a frame. -/
structure FrameShape where
  /-- Whether the first bit of the header is set. -/
  marked : Bool
  length : Nat
  length_pos : 0 < length
  length_lt : length < 2 ^ 31
  deriving DecidableEq

variable (shape : FrameShape)

/-- The four bytes before a message. -/
def FrameShape.header : Bytes :=
  [.ofNat (shape.length / 2 ^ 24 + if shape.marked then 128 else 0), .ofNat (shape.length / 2 ^ 16),
    .ofNat (shape.length / 2 ^ 8), .ofNat shape.length]

/-- A message to be sent. -/
structure Frame where
  shape : FrameShape
  payload : Bytes
  length_eq : payload.length = shape.length

def frameBytes : List Frame → Bytes
  | [] => []
  | frame :: frames => frame.shape.header ++ frame.payload ++ frameBytes frames

/-- The calls of the reader return the messages, in order, and no call consumes a byte of a later
frame. -/
def Delivers : List Frame → TcpStream → Prop
  | [], _ => True
  | frame :: frames, tcpStream => ∃ rest,
      readMessageFromStellar tcpStream = some (.ok (frame.payload, rest)) ∧
        frameBytes frames <:+ rest.pending ∧ Delivers frames rest

@[simp] theorem FrameShape.length_header : shape.header.length = 4 := rfl

theorem getXdrMessageLength_header (rest : Bytes) :
    getXdrMessageLength (shape.header ++ rest) = shape.length := by
  have hlt := shape.length_lt
  simp only [FrameShape.header, List.cons_append, getXdrMessageLength, UInt8.toNat_ofNat']
  split_ifs <;> omega

/-! ## Alignment -/

/-- The sizes of the packets after a message of which some bytes remain to be read, if the packets
are aligned with the message: either all of the bytes come in one read, or at least four remain,
the next four come in one read, and the rest is aligned again. -/
def alignedPayload (remaining : Nat) (sizes : List ℕ+) : Option (List ℕ+) :=
  if grant remaining sizes = remaining then some sizes.tail
  else if 4 ≤ remaining - grant remaining sizes ∧ grant 4 sizes.tail = 4 then
    alignedPayload (remaining - grant remaining sizes - 4) sizes.tail.tail
  else none
termination_by remaining

/-- The sizes of the packets after a frame, if they are aligned with it. -/
def alignedFrame (length : Nat) (sizes : List ℕ+) : Option (List ℕ+) :=
  if grant 4 sizes = 4 then alignedPayload length sizes.tail else none

/-- The packets are aligned with the frames. -/
def Aligned : List FrameShape → List ℕ+ → Prop
  | [], _ => True
  | shape :: shapes, sizes => ∃ rest, alignedFrame shape.length sizes = some rest ∧
      Aligned shapes rest

/-! ## Turns of the loop -/

section

variable {pending readbuf buffer : Bytes} {sizes : List ℕ+} {remaining lack : Nat}
  {bytes bytes' message : Bytes} {rest : TcpStream}

@[simp] theorem length_zeros (size : Nat) : (zeros size).length = size := List.length_replicate

theorem length_overwrite (h : bytes.length ≤ buffer.length) :
    (overwrite buffer bytes).length = buffer.length := by
  simp only [overwrite, List.length_append, List.length_drop]
  omega

theorem overwrite_of_length_eq (h : bytes.length = buffer.length) :
    overwrite buffer bytes = bytes := by
  simp [overwrite, h]

theorem take_overwrite (bytes : Bytes) : (overwrite buffer bytes).take bytes.length = bytes := by
  simp [overwrite]

theorem readInto_ofSizes :
    readInto buffer (.ofSizes pending sizes) =
      .ok ((pending.take (grant buffer.length sizes)).length,
        overwrite buffer (pending.take (grant buffer.length sizes)),
        .ofSizes (pending.drop (grant buffer.length sizes)) sizes.tail) := by
  rw [readInto, PacketStream.read_ofSizes]

/-- The rest of a message is read, if the stream has it and gives it at once. -/
def finish (buffer readbuf : Bytes) (remaining : Nat) (tcpStream : TcpStream) :
    Reader ⊕ Except RelayError (Xdr × TcpStream) :=
  Reader.proceed buffer (isReadingUnfinishedMessageComplete remaining readbuf tcpStream)

theorem finish_eq :
    finish buffer readbuf remaining (.ofSizes pending sizes) =
      let bytes := pending.take (grant remaining sizes)
      let rest := .ofSizes (pending.drop (grant remaining sizes)) sizes.tail
      if bytes.length = remaining then .inr (.ok (readbuf ++ bytes, rest))
      else .inl ⟨remaining - bytes.length, readbuf ++ bytes, buffer, rest⟩ := by
  simp only [finish, isReadingUnfinishedMessageComplete, readInto_ofSizes, length_zeros]
  generalize hbytes : pending.take (grant remaining sizes) = bytes
  by_cases hall : bytes.length = remaining
  · simp [hall, Reader.proceed, overwrite_of_length_eq, bind, Except.bind, pure, Except.pure]
  · by_cases hnone : bytes.length = 0
    · obtain rfl := List.length_eq_zero_iff.mp hnone
      have hzero : ¬ 0 = remaining := hall
      simp [hzero, Reader.proceed, bind, Except.bind, pure, Except.pure]
    · simp only [bind, Except.bind, pure, Except.pure, if_neg hall, if_pos (Nat.pos_of_ne_zero hnone),
        take_overwrite, Reader.proceed]

/-- A message is read like the rest of one. -/
theorem proceed_isReadingComplete :
    Reader.proceed buffer (isReadingComplete lack (zeros remaining) remaining
        (.ofSizes pending sizes)) =
      finish buffer [] remaining (.ofSizes pending sizes) := by
  rw [finish_eq]
  simp only [isReadingComplete, readInto_ofSizes, length_zeros]
  generalize hbytes : pending.take (grant remaining sizes) = bytes
  by_cases hall : bytes.length = remaining
  · simp [hall, Reader.proceed, overwrite_of_length_eq, bind, Except.bind, pure, Except.pure]
  · simp [hall, take_overwrite, Reader.proceed, bind, Except.bind, pure, Except.pure]

/-- A turn of the loop when bytes of a message are missing. -/
theorem body_of_lack (hlack : lack ≠ 0) (hbuffer : buffer.length = 4) (hpending : pending ≠ []) :
    Reader.body ⟨lack, readbuf, buffer, .ofSizes pending sizes⟩ =
      let bytes := pending.take (grant 4 sizes)
      finish (zeros 4) (readbuf ++ overwrite buffer bytes) (lack - bytes.length)
        (.ofSizes (pending.drop (grant 4 sizes)) sizes.tail) := by
  have hsize : (pending.take (grant 4 sizes)).length ≠ 0 := by
    have hgrant := grant_pos (by decide : 0 < 4) sizes
    have hlength := List.length_pos_iff.mpr hpending
    rw [List.length_take]
    omega
  simp only [Reader.body, readInto_ofSizes, hbuffer, if_neg hsize, if_neg hlack, finish]

/-- A turn of the loop when the next bytes are taken for a header. -/
theorem body_of_header (hbuffer : buffer.length = 4) (hpending : pending ≠ []) :
    Reader.body ⟨0, readbuf, buffer, .ofSizes pending sizes⟩ =
      let bytes := overwrite buffer (pending.take (grant 4 sizes))
      let rest := .ofSizes (pending.drop (grant 4 sizes)) sizes.tail
      if getXdrMessageLength bytes = 0 then .inl ⟨0, readbuf, bytes, rest⟩
      else finish bytes [] (getXdrMessageLength bytes) rest := by
  have hsize : (pending.take (grant 4 sizes)).length ≠ 0 := by
    have hgrant := grant_pos (by decide : 0 < 4) sizes
    have hlength := List.length_pos_iff.mpr hpending
    rw [List.length_take]
    omega
  simp only [Reader.body, readInto_ofSizes, hbuffer, if_neg hsize, if_true]
  split_ifs with hzero
  · rfl
  · exact proceed_isReadingComplete

/-- A turn of the loop when there is nothing to read. -/
theorem body_of_nil :
    Reader.body ⟨lack, readbuf, buffer, .ofSizes [] sizes⟩ =
      .inl ⟨lack, readbuf, buffer, .ofSizes [] sizes.tail⟩ := by
  simp [Reader.body, readInto_ofSizes, overwrite]

/-! ## The rest of a message -/

theorem take_eq_append_append {l : Bytes} {a b n : Nat} (h : a + b ≤ n) :
    l.take n = l.take a ++ ((l.drop a).take b ++ ((l.drop a).drop b).take (n - a - b)) := by
  obtain ⟨m, rfl⟩ := Nat.exists_eq_add_of_le h
  rw [Nat.add_assoc, List.take_add, List.take_add]
  congr 4
  omega

theorem drop_eq_drop_drop {l : Bytes} {a b n : Nat} (h : a + b ≤ n) :
    l.drop n = ((l.drop a).drop b).drop (n - a - b) := by
  rw [List.drop_drop, List.drop_drop]
  congr 1
  omega

/-- If the packets are aligned with the rest of a message, then the rest is read. -/
theorem continues_of_aligned {rest : List ℕ+} (hbuffer : buffer.length = 4)
    (h : alignedPayload remaining sizes = some rest) (hle : remaining ≤ pending.length) :
    Continues Reader.body (finish buffer readbuf remaining (.ofSizes pending sizes))
      (.ok (readbuf ++ pending.take remaining, .ofSizes (pending.drop remaining) rest)) := by
  -- Every turn of the loop reads what the buffer of the rest is granted, and four bytes more.
  induction remaining using Nat.strongRecOn generalizing sizes pending readbuf buffer with
  | _ remaining ih =>
    have hgrant := grant_le remaining sizes
    have hread : (pending.take (grant remaining sizes)).length = grant remaining sizes :=
      List.length_take_of_le (hgrant.trans hle)
    rw [alignedPayload] at h
    simp only [finish_eq, hread]
    split_ifs at h with hall hfour
    · obtain rfl := Option.some.inj h
      rw [if_pos hall, hall]
      rfl
    · obtain ⟨hlack, hgrant4⟩ := hfour
      have hne : pending.drop (grant remaining sizes) ≠ [] := by
        rw [Ne, List.drop_eq_nil_iff]
        omega
      have hread4 : ((pending.drop (grant remaining sizes)).take 4).length = 4 := by
        rw [List.length_take, List.length_drop]
        omega
      rw [if_neg hall]
      refine Exits.iff_continues.mpr ?_
      rw [body_of_lack (by omega) hbuffer hne]
      simp only [hgrant4, hread4, overwrite_of_length_eq (hread4.trans hbuffer.symm)]
      have hlength : remaining - grant remaining sizes - 4 ≤
          ((pending.drop (grant remaining sizes)).drop 4).length := by
        simp only [List.length_drop]
        omega
      have hsum : grant remaining sizes + 4 ≤ remaining := by omega
      rw [take_eq_append_append hsum, drop_eq_drop_drop hsum, ← List.append_assoc,
        ← List.append_assoc]
      exact ih _ (by omega) (length_zeros 4) h hlength

/-- What is known of a message that is returned when some of its bytes are missing.  It is not too
short.  If the last byte of the buffer is zero, then the message has a zero, or it has at most three
bytes too many. -/
structure Outcome (buffer readbuf : Bytes) (lack : Nat) (message : Bytes) : Prop where
  begins : readbuf <+: message
  length_le : readbuf.length + lack ≤ message.length
  short : buffer.getLast? = some 0 → message.length ≤ readbuf.length + lack + 3 ∨ 0 ∈ message

/-- A part of the buffer is appended to the message if fewer than four bytes are read into it. -/
theorem zero_mem_overwrite (hbuffer : buffer.length = 4) (hlt : bytes.length < 4)
    (hlast : buffer.getLast? = some 0) : 0 ∈ overwrite buffer bytes := by
  refine List.mem_append_right _ (List.mem_of_getLast? ?_)
  rw [List.getLast?_drop, if_neg (by omega), hlast]

/-- The outcome of a turn that returns. -/
theorem outcome_of_exit (hlack : lack ≠ 0) (hbuffer : buffer.length = 4) (hle : bytes.length ≤ 4)
    (hlength : bytes'.length = lack - bytes.length) :
    Outcome buffer readbuf lack (readbuf ++ overwrite buffer bytes ++ bytes') where
  begins := by
    rw [List.append_assoc]
    exact List.prefix_append _ _
  length_le := by
    simp only [List.length_append, length_overwrite (hle.trans_eq hbuffer.symm)]
    omega
  short hlast := by
    rcases hle.lt_or_eq with hlt | heq
    · right
      have hzero := zero_mem_overwrite hbuffer hlt hlast
      exact List.mem_append_left _ (List.mem_append_right _ hzero)
    · left
      simp only [List.length_append, length_overwrite (hle.trans_eq hbuffer.symm)]
      omega

/-- The outcome of a turn after which bytes are missing. -/
theorem outcome_of_next (hbuffer : buffer.length = 4) (hle : bytes.length ≤ 4)
    (hlength : bytes'.length < lack - bytes.length)
    (h : Outcome (zeros 4) (readbuf ++ overwrite buffer bytes ++ bytes')
      (lack - bytes.length - bytes'.length) message) : Outcome buffer readbuf lack message := by
  have hwhole := length_overwrite (hle.trans_eq hbuffer.symm)
  have hbegins := h.begins
  have hlower := h.length_le
  have hupper := h.short rfl
  simp only [List.length_append] at hlower hupper
  refine ⟨?_, by omega, fun hlast => ?_⟩
  · rw [List.append_assoc] at hbegins
    exact (List.prefix_append _ _).trans hbegins
  · rcases hle.lt_or_eq with hlt | heq
    · right
      have hzero := zero_mem_overwrite hbuffer hlt hlast
      exact hbegins.subset (List.mem_append_left _ (List.mem_append_right _ hzero))
    · exact hupper.imp_left fun hupper => by omega

theorem exits_outcome {reader : Reader} {result : Except RelayError (Xdr × TcpStream)}
    (h : Exits Reader.body reader result)
    (hreader : reader = ⟨lack, readbuf, buffer, .ofSizes pending sizes⟩)
    (hresult : result = .ok (message, rest)) (hlack : lack ≠ 0) (hbuffer : buffer.length = 4) :
    Outcome buffer readbuf lack message := by
  have hgrant : ∀ (l : Bytes) (sizes : List ℕ+), (l.take (grant 4 sizes)).length ≤ 4 := by
    intro l sizes
    exact (List.length_take_le _ _).trans (grant_le 4 sizes)
  induction h generalizing lack readbuf buffer pending sizes with
  | exit hexit =>
    subst hreader hresult
    by_cases hpending : pending = []
    · subst hpending
      rw [body_of_nil] at hexit
      cases hexit
    · simp only [body_of_lack hlack hbuffer hpending, finish_eq] at hexit
      split_ifs at hexit with hall
      cases hexit
      exact outcome_of_exit hlack hbuffer (hgrant _ _) hall
  | next hnext _ ih =>
    subst hreader hresult
    by_cases hpending : pending = []
    · subst hpending
      rw [body_of_nil] at hnext
      cases hnext
      exact ih rfl rfl hlack hbuffer
    · simp only [body_of_lack hlack hbuffer hpending, finish_eq] at hnext
      split_ifs at hnext with hall
      cases hnext
      have hlt := ((List.length_take_le _ _).trans (grant_le _ _)).lt_of_ne hall
      exact outcome_of_next hbuffer (hgrant _ _) hlt (ih rfl rfl (by omega) (length_zeros 4))

/-- The outcome of reading the rest of a message. -/
theorem continues_outcome (hbuffer : buffer.length = 4)
    (h : Continues Reader.body (finish buffer readbuf remaining (.ofSizes pending sizes))
      (.ok (message, rest))) : Outcome buffer readbuf remaining message := by
  rw [finish_eq] at h
  dsimp only at h
  split_ifs at h with hall
  · cases h
    refine ⟨List.prefix_append _ _, ?_, fun _ => .inl ?_⟩
    · rw [List.length_append, hall]
    · rw [List.length_append, hall]
      omega
  · have hlt := ((List.length_take_le _ _).trans (grant_le _ _)).lt_of_ne hall
    obtain ⟨hbegins, hlower, hupper⟩ := exits_outcome h rfl rfl (by omega) hbuffer
    rw [List.length_append] at hlower hupper
    refine ⟨(List.prefix_append _ _).trans hbegins, by omega, fun hlast => ?_⟩
    exact (hupper hlast).imp_left fun hupper => by omega

/-- If the packets are not aligned with the rest of a message, then the message gets too long. -/
theorem length_lt_of_not_aligned (hbuffer : buffer.length = 4)
    (hnone : alignedPayload remaining sizes = none) (hle : remaining ≤ pending.length)
    (h : Continues Reader.body (finish buffer readbuf remaining (.ofSizes pending sizes))
      (.ok (message, rest))) : readbuf.length + remaining < message.length := by
  induction remaining using Nat.strongRecOn generalizing sizes pending readbuf buffer with
  | _ remaining ih =>
    have hgrant := grant_le remaining sizes
    have hread : (pending.take (grant remaining sizes)).length = grant remaining sizes :=
      List.length_take_of_le (hgrant.trans hle)
    rw [alignedPayload] at hnone
    simp only [finish_eq, hread] at h
    split_ifs at hnone with hall hfour
    all_goals
      rw [if_neg hall] at h
      have hne : pending.drop (grant remaining sizes) ≠ [] := by
        rw [Ne, List.drop_eq_nil_iff]
        omega
      replace h := Exits.iff_continues.mp h
      rw [body_of_lack (by omega) hbuffer hne] at h
    · -- Four bytes are read, and the packets are not aligned with what is missing then.
      obtain ⟨hlack, hgrant4⟩ := hfour
      have hread4 : ((pending.drop (grant remaining sizes)).take 4).length = 4 := by
        rw [List.length_take, List.length_drop]
        omega
      simp only [hgrant4, hread4, overwrite_of_length_eq (hread4.trans hbuffer.symm)] at h
      have hlt := ih _ (by omega) (length_zeros 4) hnone (by simp only [List.length_drop]; omega) h
      simp only [List.length_append, hread, hread4] at hlt
      omega
    · -- Fewer than four bytes are read, or fewer are missing.
      have hgrant4 := grant_le 4 sizes.tail
      have hread4 : ((pending.drop (grant remaining sizes)).take (grant 4 sizes.tail)).length ≤
          grant 4 sizes.tail := List.length_take_le _ _
      have hlower := (continues_outcome (length_zeros 4) h).length_le
      simp only [List.length_append, hread,
        length_overwrite ((hread4.trans hgrant4).trans_eq hbuffer.symm)] at hlower
      omega

/-! ## Headers -/

theorem not_exits_of_nil {result : Except RelayError (Xdr × TcpStream)} :
    ¬ Exits Reader.body ⟨lack, readbuf, buffer, .ofSizes [] sizes⟩ result := by
  intro h
  generalize hreader : Reader.mk lack readbuf buffer (.ofSizes [] sizes) = reader at h
  induction h generalizing sizes with
  | exit hexit =>
    subst hreader
    rw [body_of_nil] at hexit
    cases hexit
  | next hnext _ ih =>
    subst hreader
    rw [body_of_nil] at hnext
    cases hnext
    exact ih rfl

/-- A message begins with the byte after what was taken for its header. -/
theorem head_of_continues (hbuffer : buffer.length = 4) (hpos : 0 < remaining)
    (h : Continues Reader.body (finish buffer [] remaining (.ofSizes pending sizes))
      (.ok (message, rest))) : message.head? = pending.head? := by
  cases pending with
  | nil =>
    rw [finish_eq] at h
    simp only [List.take_nil, List.drop_nil, List.length_nil, if_neg (Nat.ne_of_lt hpos)] at h
    exact absurd (by exact h) not_exits_of_nil
  | cons byte pending =>
    obtain ⟨n, hn⟩ := Nat.exists_eq_succ_of_ne_zero (grant_pos hpos sizes).ne'
    have hbegins : [byte] <+: message := by
      rw [finish_eq] at h
      dsimp only at h
      split_ifs at h with hall
      · cases h
        simp [hn]
      · have hlt := ((List.length_take_le _ _).trans (grant_le _ _)).lt_of_ne hall
        have hbegins := (exits_outcome h rfl rfl (by omega) hbuffer).begins
        rw [hn, List.take_succ_cons] at hbegins
        exact (List.prefix_append [byte] _).trans hbegins
    obtain ⟨_, rfl⟩ := hbegins
    rfl

/-- Four bytes give the length 0 only if they are zero, the first bit apart. -/
theorem eq_of_getXdrMessageLength_eq_zero (hlength : bytes.length = 4)
    (h : getXdrMessageLength bytes = 0) :
    ∃ b : UInt8, b.toNat % 128 = 0 ∧ bytes = [b, 0, 0, 0] := by
  obtain ⟨b₀, b₁, b₂, b₃, rfl⟩ := List.length_eq_four.mp hlength
  simp only [getXdrMessageLength] at h
  refine ⟨b₀, by omega, ?_⟩
  have hzero : ∀ b : UInt8, b.toNat = 0 → b = 0 := fun b hb => UInt8.toNat_inj.mp hb
  rw [hzero b₁ (by omega), hzero b₂ (by omega), hzero b₃ (by omega)]

/-- If a header comes in several reads, then the length that is read is far from the length. -/
theorem length_of_pieces {b₀ b₁ b₂ b₃ b : UInt8} {j : Nat} (hj : 0 < j) (hlt : j < 4)
    (hzero : ∀ b ∈ [b₀, b₁, b₂, b₃].take j, b.toNat % 128 = 0)
    (hpieces : getXdrMessageLength ([b₀, b₁, b₂, b₃].drop j ++ [b, 0, 0, 0].drop (4 - j)) ≠ 0) :
    getXdrMessageLength [b₀, b₁, b₂, b₃] <
        getXdrMessageLength ([b₀, b₁, b₂, b₃].drop j ++ [b, 0, 0, 0].drop (4 - j)) ∨
      getXdrMessageLength ([b₀, b₁, b₂, b₃].drop j ++ [b, 0, 0, 0].drop (4 - j)) + 3 <
        getXdrMessageLength [b₀, b₁, b₂, b₃] := by
  have h₀ := b₀.toNat_lt
  have h₁ := b₁.toNat_lt
  have h₂ := b₂.toNat_lt
  have h₃ := b₃.toNat_lt
  -- The first bit of a later byte is lost if the byte is read into the first place of the buffer.
  have hbit : ∀ b : UInt8, b.toNat / 128 = 0 ∨ b.toNat / 128 = 1 := by
    intro b
    have hb := b.toNat_lt
    omega
  rcases hbit b₁ with h₁' | h₁' <;> rcases hbit b₂ with h₂' | h₂' <;>
    obtain rfl | rfl | rfl : j = 1 ∨ j = 2 ∨ j = 3 := by omega
  all_goals
    simp [getXdrMessageLength] at hzero hpieces ⊢
    omega

end

/-! ## Misread headers -/

section

variable {shape : FrameShape} {after : Bytes} {c d : UInt8}

/-- The first byte of a message differs from the bytes around it. -/
structure Telltale (shape : FrameShape) (after : Bytes) (c d : UInt8) : Prop where
  notMem_header : c ∉ shape.header
  notMem_after : c ∉ after.take 4
  low : c.toNat % 128 ≠ 0
  ne : c ≠ d
  ne_zero : d ≠ 0

/-- The message with a telltale first byte. -/
def telltale (shape : FrameShape) (c d : UInt8) : Bytes := c :: List.replicate (shape.length - 1) d

theorem length_telltale : (telltale shape c d).length = shape.length := by
  have hpos := shape.length_pos
  simp only [telltale, List.length_cons, List.length_replicate]
  omega

theorem Telltale.zero_notMem (h : Telltale shape after c d) : 0 ∉ telltale shape c d := by
  rw [telltale, List.mem_cons, not_or]
  refine ⟨?_, fun hmem => h.ne_zero (List.eq_of_mem_replicate hmem).symm⟩
  rintro rfl
  exact h.low rfl

/-- Bytes that give the length 0 are zero, the first bit apart. -/
theorem zero_of_overwrite {bytes buffer : Bytes} {j k : Nat}
    (hlength : (overwrite buffer ((bytes.drop j).take k)).length = 4)
    (h : getXdrMessageLength (overwrite buffer ((bytes.drop j).take k)) = 0)
    (hzero : ∀ b ∈ bytes.take j, b.toNat % 128 = 0) :
    ∀ b ∈ bytes.take (j + k), b.toNat % 128 = 0 := by
  intro b hb
  rw [List.take_add] at hb
  rcases List.mem_append.mp hb with hb | hb
  · exact hzero b hb
  · obtain ⟨b', hb', heq⟩ := eq_of_getXdrMessageLength_eq_zero hlength h
    have hmem : b ∈ overwrite buffer ((bytes.drop j).take k) := List.mem_append_left _ hb
    rw [heq] at hmem
    simp only [List.mem_cons, List.not_mem_nil, or_false] at hmem
    rcases hmem with rfl | rfl | rfl | rfl
    · exact hb'
    all_goals rfl

variable {bytes : Bytes} (h : Telltale shape after c d)
  (hbytes : bytes = shape.header ++ telltale shape c d ++ after)

include h hbytes

/-- The first byte of the message is at no other place around it. -/
theorem Telltale.getElem?_ne {i : Nat} (hne : i ≠ 4) (hle : i ≤ 8) : bytes[i]? ≠ some c := by
  intro hget
  rw [hbytes, List.append_assoc] at hget
  rcases lt_or_ge i 4 with hlt | hge
  · rw [List.getElem?_append_left hlt] at hget
    exact h.notMem_header (List.mem_of_getElem? hget)
  · obtain ⟨i, rfl⟩ : ∃ n, i = 4 + (n + 1) := ⟨i - 5, by omega⟩
    rw [List.getElem?_append_right (by simp), shape.length_header, Nat.add_sub_cancel_left, telltale,
      List.cons_append, List.getElem?_cons_succ] at hget
    rcases lt_or_ge i (shape.length - 1) with hlt | hge
    · rw [List.getElem?_append_left (by simpa using hlt), List.getElem?_replicate_of_lt hlt] at hget
      exact h.ne (Option.some.inj hget).symm
    · rw [List.getElem?_append_right (by simpa using hge), List.length_replicate] at hget
      refine h.notMem_after (List.mem_of_getElem? (i := i - (shape.length - 1)) ?_)
      rw [List.getElem?_take_of_lt (by omega), hget]

variable {j : Nat} (hzero : ∀ b ∈ bytes.take j, b.toNat % 128 = 0)

include hzero

/-- The bytes with a value of zero, the first bit apart, are in the header. -/
theorem Telltale.le_four : j ≤ 4 := by
  by_contra! hlt
  refine h.low (hzero c (List.mem_of_getElem? (i := 4) ?_))
  rw [List.getElem?_take_of_lt hlt, hbytes]
  rfl

theorem Telltale.drop_ne_nil : bytes.drop j ≠ [] := by
  have hj := h.le_four hbytes hzero
  have hpos := shape.length_pos
  rw [Ne, List.drop_eq_nil_iff, hbytes, List.length_append, List.length_append, length_telltale,
    shape.length_header]
  omega

variable {message readbuf buffer : Bytes} {rest : TcpStream} {sizes : List ℕ+}
  (hbuffer : buffer.length = 4) (hlength : getXdrMessageLength buffer = 0)

include hbuffer hlength

/-- The reader does not return the message if it takes other bytes for its header. -/
theorem Telltale.message_ne_of_ne_zero {k : Nat} (hpos : 0 < k) (hk : k ≤ 4)
    (hshort : j ≠ 0 ∨ k ≠ 4)
    (hne : getXdrMessageLength (overwrite buffer ((bytes.drop j).take k)) ≠ 0)
    (hcontinues : Continues Reader.body (finish (overwrite buffer ((bytes.drop j).take k)) []
      (getXdrMessageLength (overwrite buffer ((bytes.drop j).take k)))
      (.ofSizes (bytes.drop (j + k)) sizes)) (.ok (message, rest))) :
    message ≠ telltale shape c d := by
  rintro rfl
  have hj := h.le_four hbytes hzero
  have hwhole : (overwrite buffer ((bytes.drop j).take k)).length = 4 := by
    rw [length_overwrite ((List.length_take_le _ _).trans (hk.trans_eq hbuffer.symm)), hbuffer]
  by_cases hsum : j + k = 4
  · -- The header was read in pieces: the length is wrong, and the message has no zero in it.
    obtain ⟨b, -, rfl⟩ := eq_of_getXdrMessageLength_eq_zero hbuffer hlength
    obtain ⟨b₀, b₁, b₂, b₃, hheader⟩ := List.length_eq_four.mp shape.length_header
    have hdrop : (bytes.drop j).take k = [b₀, b₁, b₂, b₃].drop j := by
      rw [hbytes, List.append_assoc, ← hheader, List.drop_append_of_le_length (by simpa using hj),
        List.take_append_of_le_length (by simp; omega), List.take_of_length_le (by simp; omega)]
    have hpieces : overwrite [b, 0, 0, 0] ([b₀, b₁, b₂, b₃].drop j) =
        [b₀, b₁, b₂, b₃].drop j ++ [b, 0, 0, 0].drop (4 - j) := by
      simp [overwrite]
    have hlast : ([b₀, b₁, b₂, b₃].drop j ++ [b, 0, 0, 0].drop (4 - j)).getLast? = some 0 := by
      obtain rfl | rfl | rfl : j = 1 ∨ j = 2 ∨ j = 3 := by omega
      all_goals rfl
    have hshape : getXdrMessageLength [b₀, b₁, b₂, b₃] = shape.length := by
      rw [← hheader]
      simpa using getXdrMessageLength_header shape []
    rw [hdrop, hpieces] at hne hcontinues hwhole
    obtain ⟨-, hlower, hupper⟩ := continues_outcome hwhole hcontinues
    rw [hbytes, List.append_assoc, hheader, List.take_append_of_le_length (by simpa using hj)] at hzero
    have hupper' := (hupper hlast).resolve_right h.zero_notMem
    rw [length_telltale, ← hshape, List.length_nil] at hlower hupper'
    rcases length_of_pieces (by omega) (by omega) hzero hne with hlt | hlt <;> omega
  · -- The message begins elsewhere.
    have hhead := head_of_continues hwhole (Nat.pos_of_ne_zero hne) hcontinues
    rw [List.head?_drop] at hhead
    exact h.getElem?_ne hbytes hsum (by omega) hhead.symm

/-- The reader does not return the message if the header comes in several reads. -/
theorem Telltale.message_ne {reader : Reader} {result : Except RelayError (Xdr × TcpStream)}
    (hexits : Exits Reader.body reader result)
    (hreader : reader = ⟨0, readbuf, buffer, .ofSizes (bytes.drop j) sizes⟩)
    (hresult : result = .ok (message, rest)) (hshort : j ≠ 0 ∨ grant 4 sizes ≠ 4) :
    message ≠ telltale shape c d := by
  have hgrant := grant_le 4 sizes
  have hpos := grant_pos (by decide : 0 < 4) sizes
  have hpending := h.drop_ne_nil hbytes hzero
  induction hexits generalizing readbuf buffer sizes j with
  | exit hexit =>
    subst hreader hresult
    have hcontinues := Exits.iff_continues.mp (Exits.exit hexit)
    rw [body_of_header hbuffer hpending, List.drop_drop] at hexit hcontinues
    dsimp only at hexit hcontinues
    split_ifs at hexit with hne
    rw [if_neg hne] at hcontinues
    exact h.message_ne_of_ne_zero hbytes hzero hbuffer hlength hpos hgrant hshort hne hcontinues
  | next hnext hrest ih =>
    subst hreader hresult
    have hcontinues := Exits.iff_continues.mp (Exits.next hnext hrest)
    rw [body_of_header hbuffer hpending, List.drop_drop] at hnext hcontinues
    dsimp only at hnext hcontinues
    split_ifs at hnext with hne
    · -- The bytes count as no header, and the loop goes on with the bytes after them.
      cases hnext
      have hwhole : (overwrite buffer ((bytes.drop j).take (grant 4 sizes))).length = 4 := by
        rw [length_overwrite ((List.length_take_le _ _).trans (hgrant.trans_eq hbuffer.symm)),
          hbuffer]
      have hzero' := zero_of_overwrite hwhole hne hzero
      exact ih hzero' hwhole hne rfl rfl (.inl (by omega)) (grant_le _ _)
        (grant_pos (by decide) _) (h.drop_ne_nil hbytes hzero')
    · rw [if_neg hne] at hcontinues
      exact h.message_ne_of_ne_zero hbytes hzero hbuffer hlength hpos hgrant hshort hne hcontinues

omit h hbytes hzero hbuffer hlength in
/-- There are bytes that tell the message from what is around it. -/
theorem exists_telltale (shape : FrameShape) (after : Bytes) : ∃ c d, Telltale shape after c d := by
  have hnodup : ([1, 2, 3, 4, 5, 6, 7, 8, 9] : Bytes).Nodup := by decide
  have hlength : (shape.header ++ after.take 4).length < 9 := by
    have htake := List.length_take_le 4 after
    rw [List.length_append, shape.length_header]
    omega
  obtain ⟨c, hc, hnew⟩ := exists_notMem_of_length_lt hnodup hlength
  rw [List.mem_append, not_or] at hnew
  have hall : ∀ c ∈ ([1, 2, 3, 4, 5, 6, 7, 8, 9] : Bytes), c.toNat % 128 ≠ 0 := by
    decide +kernel
  have hlow := hall c hc
  by_cases hone : c = 1
  · exact ⟨c, 2, hnew.1, hnew.2, hlow, hone ▸ by decide, by decide⟩
  · exact ⟨c, 1, hnew.1, hnew.2, hlow, hone, by decide⟩

end

/-! ## Calls of the reader -/

section

variable {shape : FrameShape} {payload after : Bytes} {sizes rest : List ℕ+}

/-- The first turn of the loop, if the header of a frame comes in one read. -/
theorem body_start (hgrant : grant 4 sizes = 4) :
    (Reader.start (.ofSizes (shape.header ++ payload ++ after) sizes)).body =
      finish shape.header [] shape.length (.ofSizes (payload ++ after) sizes.tail) := by
  have hne : shape.header ++ payload ++ after ≠ [] := by
    simp [FrameShape.header]
  have hlength : getXdrMessageLength shape.header = shape.length := by
    simpa using getXdrMessageLength_header shape []
  have hbuffer : overwrite (zeros 4) shape.header = shape.header := overwrite_of_length_eq rfl
  rw [Reader.start, body_of_header (length_zeros 4) hne]
  simp only [hgrant, List.append_assoc]
  rw [List.take_left' shape.length_header, List.drop_left' shape.length_header, hbuffer, hlength,
    if_neg shape.length_pos.ne']

/-- A message is returned if the packets are aligned with its frame. -/
theorem readMessageFromStellar_of_aligned (hlength : payload.length = shape.length)
    (h : alignedFrame shape.length sizes = some rest) :
    readMessageFromStellar (.ofSizes (shape.header ++ payload ++ after) sizes) =
      some (.ok (payload, .ofSizes after rest)) := by
  unfold alignedFrame at h
  split_ifs at h with hgrant
  rw [readMessageFromStellar_eq_some, Exits.iff_continues, body_start hgrant]
  have hle : shape.length ≤ (payload ++ after).length := by
    rw [List.length_append, hlength]
    omega
  have htake : payload = [] ++ (payload ++ after).take shape.length := by
    rw [List.take_left' hlength, List.nil_append]
  have hdrop : after = (payload ++ after).drop shape.length := (List.drop_left' hlength).symm
  have hcontinues : Continues Reader.body (finish shape.header [] shape.length _) _ :=
    continues_of_aligned shape.length_header h hle
  rwa [← htake, ← hdrop] at hcontinues

/-- A message with a telltale first byte is not returned if the packets are not aligned. -/
theorem readMessageFromStellar_of_not_aligned {c d : UInt8} (htelltale : Telltale shape after c d)
    (hnone : alignedFrame shape.length sizes = none) {message : Bytes} {tcpStream : TcpStream}
    (h : readMessageFromStellar (.ofSizes (shape.header ++ telltale shape c d ++ after) sizes) =
      some (.ok (message, tcpStream))) : message ≠ telltale shape c d := by
  rw [readMessageFromStellar_eq_some] at h
  unfold alignedFrame at hnone
  split_ifs at hnone with hgrant
  · rw [Exits.iff_continues, body_start hgrant] at h
    have hle : shape.length ≤ (telltale shape c d ++ after).length := by
      rw [List.length_append, length_telltale]
      omega
    have hlt := length_lt_of_not_aligned shape.length_header hnone hle h
    rintro rfl
    rw [length_telltale, List.length_nil] at hlt
    omega
  · exact htelltale.message_ne (j := 0) rfl (by simp) (length_zeros 4) rfl h rfl rfl (.inr hgrant)

end

def FrameShape.blank : Frame := ⟨shape, zeros shape.length, length_zeros _⟩

/-- Whatever the messages of some lengths are, the calls of the reader return them, and consume no
byte of a later frame, if and only if the packets are aligned with the frames. -/
theorem delivered_iff_aligned (shapes : List FrameShape) (sizes : List ℕ+) :
    (∀ frames : List Frame, frames.map Frame.shape = shapes →
        Delivers frames (.ofSizes (frameBytes frames) sizes)) ↔ Aligned shapes sizes := by
  induction shapes generalizing sizes with
  | nil =>
    refine iff_of_true (fun frames hframes => ?_) trivial
    obtain rfl := List.map_eq_nil_iff.mp hframes
    trivial
  | cons shape shapes ih =>
    constructor
    · intro hall
      cases hframe : alignedFrame shape.length sizes with
      | none =>
        -- The first message can be chosen such that it is not returned.
        let frames := shapes.map FrameShape.blank
        have hframes : frames.map Frame.shape = shapes := by
          simp [frames, FrameShape.blank, Function.comp_def]
        obtain ⟨c, d, htelltale⟩ := exists_telltale shape (frameBytes frames)
        obtain ⟨tcpStream, hread, -⟩ := hall (⟨shape, telltale shape c d, length_telltale⟩ :: frames)
          (by rw [List.map_cons, hframes])
        exact absurd rfl (readMessageFromStellar_of_not_aligned htelltale hframe hread)
      | some rest =>
        refine ⟨rest, hframe, (ih rest).mp fun frames hframes => ?_⟩
        obtain ⟨tcpStream, hread, -, hrest⟩ := hall (shape.blank :: frames)
          (by rw [List.map_cons, hframes]; rfl)
        have haligned : readMessageFromStellar
            (.ofSizes (shape.header ++ zeros shape.length ++ frameBytes frames) sizes) = _ :=
          readMessageFromStellar_of_aligned shape.blank.length_eq hframe
        obtain ⟨-, rfl⟩ := Prod.mk.inj (Except.ok.inj (Option.mem_unique haligned hread))
        exact hrest
    · rintro ⟨rest, hframe, hrest⟩ frames hframes
      cases frames with
      | nil => cases hframes
      | cons frame frames =>
        obtain ⟨rfl, rfl⟩ := List.cons.inj hframes
        exact ⟨.ofSizes (frameBytes frames) rest,
          readMessageFromStellar_of_aligned frame.length_eq hframe, List.suffix_refl _,
          (ih rest).mpr hrest frames rfl⟩

/-- A message of five bytes and a message of one byte. -/
def twoFrames : List Frame :=
  [⟨⟨true, 5, by decide, by decide⟩, [1, 2, 3, 4, 5], rfl⟩,
    ⟨⟨true, 1, by decide, by decide⟩, [6], rfl⟩]

/-- The header and three bytes of the first message come first, then all the other bytes.  The
reader appends two bytes of the next header to the message. -/
theorem reader_takes_next_header :
    readMessageFromStellar (.ofSizes (frameBytes twoFrames) [4, 3]) =
        some (.ok ([1, 2, 3, 4, 5, 128, 0], ⟨[0, 1, 6], []⟩)) ∧
      ¬ Delivers twoFrames (.ofSizes (frameBytes twoFrames) [4, 3]) := by
  have hread : readMessageFromStellar (.ofSizes (frameBytes twoFrames) [4, 3]) =
      some (.ok ([1, 2, 3, 4, 5, 128, 0], ⟨[0, 1, 6], []⟩)) := by
    decide +kernel
  refine ⟨hread, ?_⟩
  rintro ⟨rest, hpayload, -⟩
  rw [hread] at hpayload
  cases hpayload

end Spacewalk.Clients
