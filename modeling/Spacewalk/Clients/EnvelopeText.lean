import Mathlib.Data.String.Basic
import Spacewalk.Stellar.Xdr

/-!
# The text of a cached envelope

The wallet writes the XDR bytes of an envelope to a file as Rust prints them for debugging, decimal
numbers between brackets, and parses that text when it reads the file (`save_tx_envelope` and
`parse_xdr_string_to_vec_u8` in `clients/wallet/src/cache.rs`).  What was written is read back.  But
the parser cuts off the first and the last *byte*, whatever they are: a text without two characters,
such as that of an interrupted write, makes it panic, and so does a longer character at an end
(`reads_back_iff_bracketed`).
-/

namespace Spacewalk.Clients

open String (utf8Len)

/-! ## Slices -/

/-- A text before and after a byte, unless there is no boundary of characters. -/
def splitAtByte : ℕ → List Char → Option (List Char × List Char)
  | 0, text => some ([], text)
  | _ + 1, [] => none
  | n + 1, c :: text =>
    if c.utf8Size ≤ n + 1 then
      (splitAtByte (n + 1 - c.utf8Size) text).map fun (head, rest) => (c :: head, rest)
    else none

/-- `&text[start..stop]`, unless it panics. -/
def byteSlice (text : List Char) (start stop : ℕ) : Option (List Char) := do
  let (head, _) ← splitAtByte stop text
  let (_, slice) ← splitAtByte start head
  return slice

variable {text head rest slice : List Char} {n start stop : ℕ}

theorem utf8Len_eq_one : utf8Len text = 1 ↔ ∃ c, text = [c] ∧ c.utf8Size = 1 := by
  cases text with
  | nil => simp
  | cons c text =>
    have hpos := Char.utf8Size_pos c
    constructor
    · intro h
      rw [String.utf8Len_cons] at h
      obtain rfl := String.utf8Len_eq_zero.mp (by omega : utf8Len text = 0)
      exact ⟨c, rfl, by simpa using h⟩
    · rintro ⟨d, h, hd⟩
      simp [h, hd]

theorem splitAtByte_eq_some :
    splitAtByte n text = some (head, rest) ↔ text = head ++ rest ∧ utf8Len head = n := by
  fun_induction splitAtByte n text generalizing head with
  | case1 text => grind [String.utf8Len_eq_zero]
  | case2 n => cases head <;> simp
  | case3 n c text hle ih =>
    cases head with
    | nil => simp
    | cons d head =>
      have hsplit := @ih head
      simp only [Option.map_eq_some_iff, Prod.exists, Prod.mk.injEq, List.cons.injEq,
        List.cons_append, String.utf8Len_cons]
      grind
  | case4 n c text hlt =>
    cases head with
    | nil => simp
    | cons d head => grind [String.utf8Len_cons]

theorem byteSlice_eq_some :
    byteSlice text start stop = some slice ↔ ∃ head rest, text = head ++ slice ++ rest ∧
      utf8Len head = start ∧ utf8Len (head ++ slice) = stop := by
  simp only [byteSlice, Option.bind_eq_bind, Option.bind_eq_some_iff, Prod.exists, Option.pure_def,
    splitAtByte_eq_some, Option.some_inj]
  constructor
  · rintro ⟨_, rest, ⟨rfl, rfl⟩, head, _, ⟨rfl, rfl⟩, rfl⟩
    exact ⟨head, rest, rfl, rfl, rfl⟩
  · rintro ⟨head, rest, rfl, rfl, rfl⟩
    exact ⟨_, rest, ⟨rfl, rfl⟩, head, _, ⟨rfl, rfl⟩, rfl⟩

/-- Without its first and its last byte, a text is what is between a character of one byte and
another one. -/
theorem byteSlice_ends_eq_some :
    byteSlice text 1 (utf8Len text - 1) = some slice ↔
      ∃ c d, text = c :: (slice ++ [d]) ∧ c.utf8Size = 1 ∧ d.utf8Size = 1 := by
  rw [byteSlice_eq_some]
  constructor
  · rintro ⟨head, rest, rfl, hhead, hstop⟩
    have hrest : utf8Len rest = 1 := by
      simp only [String.utf8Len_append] at hstop
      omega
    obtain ⟨c, rfl, hc⟩ := utf8Len_eq_one.mp hhead
    obtain ⟨d, rfl, hd⟩ := utf8Len_eq_one.mp hrest
    exact ⟨c, d, rfl, hc, hd⟩
  · rintro ⟨c, d, rfl, hc, hd⟩
    refine ⟨[c], [d], rfl, utf8Len_eq_one.mpr ⟨c, rfl, hc⟩, ?_⟩
    simp [hc, hd]

/-! ## The parser -/

/-- `num_as_char.parse::<u8>()`: decimal digits, which may follow a plus sign. -/
def parseU8 (numAsChar : List Char) : Option UInt8 :=
  let digits := if numAsChar.head? = some '+' then numAsChar.tail else numAsChar
  let number := Nat.ofDigitChars 10 digits 0
  if digits ≠ [] ∧ digits.all Char.isDigit ∧ number < 256 then some (.ofNat number) else none

/-- Convert the content of a file into bytes, unless it panics: `len() - 1` and the slice do if
there are not two characters. -/
def parseXdrStringToVecU8 (value : List Char) : Option (Option Stellar.Bytes) := do
  let removeWhiteSpace := value.filter (· ≠ ' ')
  let removeBrackets ← byteSlice removeWhiteSpace 1 (utf8Len removeWhiteSpace - 1)
  return (removeBrackets.splitOn ',').mapM parseU8

/-- How a byte is printed. -/
def decimal (byte : UInt8) : List Char := Nat.toDigits 10 byte.toNat

/-- The bytes of an envelope as `save_tx_envelope` writes them. -/
def debugFormat (bytes : Stellar.Bytes) : List Char :=
  '[' :: (", ".toList.intercalate (bytes.map decimal) ++ [']'])

theorem isDigit_of_mem_decimal {byte : UInt8} {c : Char} (h : c ∈ decimal byte) :
    c.isDigit = true :=
  Nat.isDigit_of_mem_toDigits (by decide) (by decide) h

theorem parseU8_decimal (byte : UInt8) : parseU8 (decimal byte) = some byte := by
  have hplus : (decimal byte).head? ≠ some '+' := by
    intro h
    exact absurd (isDigit_of_mem_decimal (List.mem_of_head? h)) (by decide)
  have hdigits : (decimal byte).all Char.isDigit = true :=
    List.all_eq_true.mpr fun c hc => isDigit_of_mem_decimal hc
  have hvalue : Nat.ofDigitChars 10 (decimal byte) 0 = byte.toNat :=
    Nat.ofDigitChars_toDigits (by decide) (by decide)
  simp only [parseU8, if_neg hplus, hvalue]
  rw [if_pos ⟨Nat.toDigits_ne_nil, hdigits, byte.toNat_lt⟩, UInt8.ofNat_toNat]

/-- Once the spaces are gone, the numbers are separated by commas. -/
theorem filter_intercalate (bytes : Stellar.Bytes) :
    (", ".toList.intercalate (bytes.map decimal)).filter (· ≠ ' ') =
      [','].intercalate (bytes.map decimal) := by
  have hkept (byte : UInt8) : (decimal byte).filter (· ≠ ' ') = decimal byte := by
    refine List.filter_eq_self.mpr fun c hc => decide_eq_true ?_
    rintro rfl
    exact absurd (isDigit_of_mem_decimal hc) (by decide)
  induction bytes with
  | nil => rfl
  | cons byte bytes ih =>
    cases bytes with
    | nil => simpa using hkept byte
    | cons byte' bytes =>
      simp only [List.map_cons] at ih
      simp only [List.map_cons, List.intercalate_cons_cons, List.filter_append, hkept, ih]
      rfl

/-- The bytes that were written are read. -/
theorem parse_debugFormat {bytes : Stellar.Bytes} (h : bytes ≠ []) :
    parseXdrStringToVecU8 (debugFormat bytes) = some (some bytes) := by
  have hspaces : (debugFormat bytes).filter (· ≠ ' ') =
      '[' :: ([','].intercalate (bytes.map decimal) ++ [']']) := by
    rw [debugFormat, List.filter_cons_of_pos (by decide), List.filter_append, filter_intercalate]
    rfl
  have hcommas : ∀ number ∈ bytes.map decimal, ',' ∉ number := by
    intro number hnumber hcomma
    obtain ⟨byte, -, rfl⟩ := List.mem_map.mp hnumber
    exact absurd (isDigit_of_mem_decimal hcomma) (by decide)
  rw [parseXdrStringToVecU8, hspaces, byteSlice_ends_eq_some.mpr ⟨_, _, rfl, by decide, by decide⟩]
  simp only [Option.bind_eq_bind, Option.bind_some, Option.pure_def, Option.some_inj]
  rw [List.splitOn_intercalate _ hcommas (by simpa using h), List.mapM_map]
  have hparse : parseU8 ∘ decimal = some := funext parseU8_decimal
  rw [hparse]
  simpa using List.mapM_pure (m := Option) (l := bytes) (f := id)

/-- The text without its spaces has two characters or more, and those at its ends are of one byte. -/
def Bracketed (value : List Char) : Prop :=
  ∃ c slice d, value.filter (· ≠ ' ') = c :: (slice ++ [d]) ∧ c.utf8Size = 1 ∧ d.utf8Size = 1

/-- A text is parsed without a panic, and as the bytes that were written if it was written, if and
only if it is bracketed. -/
theorem reads_back_iff_bracketed (value : List Char) :
    ((∀ bytes : Stellar.Bytes, bytes ≠ [] → value = debugFormat bytes →
        parseXdrStringToVecU8 value = some (some bytes)) ∧
      parseXdrStringToVecU8 value ≠ none) ↔ Bracketed value := by
  have hpanics : parseXdrStringToVecU8 value ≠ none ↔ Bracketed value := by
    simp only [parseXdrStringToVecU8, Option.ne_none_iff_exists', Option.bind_eq_bind,
      Option.bind_eq_some_iff, Option.pure_def, byteSlice_ends_eq_some, Bracketed]
    grind
  rw [hpanics, and_iff_right]
  rintro bytes hne rfl
  exact parse_debugFormat hne

/-- The file of an interrupted write is empty. -/
theorem empty_file_panics : parseXdrStringToVecU8 [] = none := by
  decide

end Spacewalk.Clients
