import Mathlib.Data.Nat.Digits.Lemmas
import Spacewalk.Clients.Operations
import Spacewalk.Clients.RawMessages
import Spacewalk.Runtime.Replay

/-!
# The memo of a request

A payment for a request carries the first 28 bytes of the base-58 encoding of the request id as its
text memo (`derive_shortened_request_id` in `primitives/src/lib.rs`).  Slicing a shorter encoding
would panic, and a longer memo would be refused when the transaction is built
(`create_basic_spacewalk_stellar_transaction` in `clients/wallet/src/operations.rs`).  Neither
happens: a digit to base 58 is worth less than a byte, so the encoding of 32 bytes has at least 32
characters (`length_base58`).
-/

namespace Spacewalk.Clients

open Stellar Overlay

/-! ## The encoding -/

/-- The characters of the digits to base 58. -/
def base58Chars : Bytes :=
  "123456789ABCDEFGHJKLMNPQRSTUVWXYZabcdefghijkmnopqrstuvwxyz".toList.map fun c =>
    UInt8.ofNat c.toNat

/-- The base-58 encoding of some bytes: a `1` for every zero byte at the beginning, and the digits of
the number that the bytes denote. -/
def base58 (bytes : Bytes) : Bytes :=
  List.replicate (bytes.takeWhile (· = 0)).length (base58Chars.getD 0 0) ++
    (Nat.digits 58 (fromBeBytes bytes)).reverse.map fun digit => base58Chars.getD digit 0

/-- The library encodes the 32 bytes of a hash to base 58. -/
def EncodesBase58 (lib : StellarLib) : Prop :=
  ∀ hash : H256, lib.toBase58 hash = base58 (toBeBytes 32 hash.toNat)

/-! ## The transaction -/

/-- `LimitedString::new` for the text of a memo. -/
def limitedString (tooLong : String) (text : Bytes) : Except String Bytes :=
  if text.length ≤ 28 then .ok text else .error tooLong

section

variable {τ : Type} (lib : StellarLib) (tooLong : String)
  (newTransaction : PublicKey → SequenceNumber → Option UInt32 → Option Memo → Except String τ)

/-- Build a transaction without operations for a request, unless the shortened id panics.
`newTransaction` is `Transaction::new` of the library, without preconditions. -/
def createBasicSpacewalkStellarTransaction (requestId : H256) (stroopFeePerOperation : UInt32)
    (publicKey : PublicKey) (nextSequenceNumber : SequenceNumber) : Option (Except WalletError τ) :=
  match deriveShortenedRequestId lib requestId with
  | .error _ => none
  | .ok shortened => some do
    let text ← mapErrAsBuildTxErrorWithText "Invalid Hash" (limitedString tooLong shortened)
    mapErrAsBuildTxError (newTransaction publicKey nextSequenceNumber (some stroopFeePerOperation)
      (some (.memoText text)))

end

/-! ## Every request has a memo -/

/-- The zero bytes at the beginning of a number and its digits to base 58 are as many as its bytes. -/
theorem length_base58 {k n : ℕ} (h : n < 256 ^ k) :
    k ≤ ((toBeBytes k n).takeWhile (· = 0)).length + (Nat.digits 58 n).length := by
  induction k with
  | zero => exact Nat.zero_le _
  | succ k ih =>
    by_cases hsmall : n < 256 ^ k
    · -- the first byte is zero, and the others are those of a shorter number
      have hzero : UInt8.ofNat (n / 256 ^ k) = 0 := by rw [Nat.div_eq_of_lt hsmall]; rfl
      rw [toBeBytes_succ, hzero, List.takeWhile_cons_of_pos (by decide), List.length_cons]
      have hrest := ih hsmall
      omega
    · -- the number is so large that the digits alone suffice
      have hpow : 58 ^ k ≤ n :=
        (Nat.pow_le_pow_left (by decide) k).trans (not_lt.mp hsmall)
      have hdigits : k < (Nat.digits 58 n).length := (Nat.lt_digits_length_iff (by decide) n).mpr hpow
      omega

theorem length_toBase58 {lib : StellarLib} (hlib : EncodesBase58 lib) (hash : H256) :
    32 ≤ (lib.toBase58 hash).length := by
  have hbytes : hash.toNat < 256 ^ 32 := hash.isLt
  rw [hlib, base58, fromBeBytes_toBeBytes hbytes, List.length_append, List.length_replicate,
    List.length_map, List.length_reverse]
  exact length_base58 hbytes

/-- The encoding of every request id has at least 28 characters, so that the shortened id has 28
bytes and becomes the text memo of the transaction that is built. -/
theorem request_has_memo {τ : Type} (lib : StellarLib) (hlib : EncodesBase58 lib) (tooLong : String)
    (newTransaction : PublicKey → SequenceNumber → Option UInt32 → Option Memo → Except String τ)
    (hash : H256) (fee : UInt32) (key : PublicKey) (sequence : SequenceNumber) :
    28 ≤ (lib.toBase58 hash).length ∧
      ∃ memo, deriveShortenedRequestId lib hash = .ok memo ∧ memo = (lib.toBase58 hash).take 28 ∧
        memo.length = 28 ∧
        createBasicSpacewalkStellarTransaction lib tooLong newTransaction hash fee key sequence =
          some (mapErrAsBuildTxError
            (newTransaction key sequence (some fee) (some (.memoText memo)))) := by
  have hlong : 28 ≤ (lib.toBase58 hash).length := by
    have hlength := length_toBase58 hlib hash
    omega
  have hmemo : deriveShortenedRequestId lib hash = .ok ((lib.toBase58 hash).take 28) := if_pos hlong
  have hsize : ((lib.toBase58 hash).take 28).length = 28 := List.length_take_of_le hlong
  refine ⟨hlong, _, hmemo, rfl, hsize, ?_⟩
  simp only [createBasicSpacewalkStellarTransaction, hmemo, limitedString, hsize.le, if_true]
  rfl

/-- A library that encodes to base 58. -/
def base58Stellar : StellarLib :=
  { sampleStellar with toBase58 := fun hash => base58 (toBeBytes 32 hash.toNat) }

/-- The id with zero bytes only has a memo, too. -/
theorem request_has_memo_zero :
    ∃ memo, memo.length = 28 ∧ createBasicSpacewalkStellarTransaction base58Stellar "too long"
      (fun _ _ _ memo => .ok memo) 0 100 0 1 = some (.ok (some (.memoText memo))) := by
  obtain ⟨-, memo, -, -, hsize, hbuilt⟩ := request_has_memo base58Stellar (fun _ => rfl) "too long"
    (fun _ _ _ memo => Except.ok memo) 0 100 0 1
  exact ⟨memo, hsize, hbuilt⟩

end Spacewalk.Clients
