import Mathlib.Data.List.Perm.Subperm
import Mathlib.Data.PNat.Basic

/-!
# Streams that arrive in packets

A stream holds the items that were sent and have not been read.  A read into a buffer returns a
positive number of them, at most as many as fit into the buffer, or it fails; how many it returns is
up to the stream.  `PacketStream.replies` fixes the answers to the next reads, and after them every
read fills its buffer as far as it can.

`grant` is the number of items that a read may return, and `PacketStream.ofSizes` a stream whose
reads do not fail.
-/

namespace Foundation

/-- The answer of a stream to a read: some items, at most `size` of them, or an error. -/
inductive Reply (ε : Type) where
  | chunk (size : ℕ+)
  | failure (error : ε)
  deriving DecidableEq

/-- The items that have not been read, and the answers to the next reads. -/
structure PacketStream (α ε : Type) where
  pending : List α
  replies : List (Reply ε)
  deriving DecidableEq

/-- How many items a read into a buffer returns, if there are so many. -/
def grant (size : Nat) : List ℕ+ → Nat
  | [] => size
  | n :: _ => min size n

theorem grant_le (size : Nat) (sizes : List ℕ+) : grant size sizes ≤ size := by
  cases sizes with
  | nil => exact le_rfl
  | cons n _ => exact min_le_left size n

theorem grant_pos {size : Nat} (h : 0 < size) (sizes : List ℕ+) : 0 < grant size sizes := by
  cases sizes with
  | nil => exact h
  | cons n _ => exact lt_min h n.pos

namespace PacketStream

variable {α ε : Type}

/-- Read into a buffer of a size. -/
def read (size : Nat) (s : PacketStream α ε) : Except ε (List α × PacketStream α ε) :=
  match s.replies with
  | [] => .ok (s.pending.take size, ⟨s.pending.drop size, []⟩)
  | .chunk n :: replies =>
    .ok (s.pending.take (min size n), ⟨s.pending.drop (min size n), replies⟩)
  | .failure error :: _ => .error error

/-- A stream whose reads do not fail. -/
def ofSizes (pending : List α) (sizes : List ℕ+) : PacketStream α ε :=
  ⟨pending, sizes.map .chunk⟩

@[simp] theorem read_ofSizes (size : Nat) (pending : List α) (sizes : List ℕ+) :
    read size (ofSizes pending sizes : PacketStream α ε) =
      .ok (pending.take (grant size sizes), ofSizes (pending.drop (grant size sizes)) sizes.tail) := by
  cases sizes <;> rfl

/-- What a read returns is taken from the stream. -/
theorem length_add_of_read {size : Nat} {s s' : PacketStream α ε} {items : List α}
    (h : s.read size = .ok (items, s')) : items.length + s'.pending.length = s.pending.length := by
  have hsplit : ∀ n, (s.pending.take n).length + (s.pending.drop n).length = s.pending.length := by
    intro n
    rw [← List.length_append, List.take_append_drop]
  unfold read at h
  split at h
  · cases h
    exact hsplit size
  · cases h
    exact hsplit _
  · cases h

/-- A read that returns nothing uses up an answer of the stream, or leaves the stream as it is. -/
theorem eq_or_lt_of_read {size : Nat} {s s' : PacketStream α ε} {items : List α}
    (h : s.read size = .ok (items, s')) :
    s'.replies.length < s.replies.length ∨
      s'.replies.length = s.replies.length ∧ (items = [] → s' = s) := by
  obtain ⟨pending, replies⟩ := s
  unfold read at h
  split at h
  · next hreplies =>
    cases h
    cases hreplies
    refine .inr ⟨rfl, fun hnil => ?_⟩
    have hsplit := List.take_append_drop size pending
    rw [hnil, List.nil_append] at hsplit
    simp [hsplit]
  · next hreplies =>
    cases h
    cases hreplies
    exact .inl (Nat.lt_succ_self _)
  · cases h

end PacketStream

/-- Among more candidates than a list has members, one is not a member. -/
theorem exists_notMem_of_length_lt {α : Type} {candidates l : List α} (hnodup : candidates.Nodup)
    (hlt : l.length < candidates.length) : ∃ c ∈ candidates, c ∉ l := by
  by_contra! hsub
  exact absurd (List.subperm_of_subset hnodup hsub).length_le (not_le.mpr hlt)

end Foundation
