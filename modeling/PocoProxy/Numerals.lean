/-
What a text means as a number.

`_tstoi` and `_tstof` go through white space, a sign and digits from the beginning of a text, and
what is behind the last character that belongs to the numeral makes no difference. An integer that
is too large for an `int` becomes the nearest one. A number with decimals becomes the nearest
`double`, and with a cast the `float` nearest to that.

So a text that is cut off means the same number as before if its numeral ends before the cut, and
also if what is lost of the digits does not count: for an `int` when the rest of them is zero or
reaches the end of its range (`tstoi_take_iff`), for a `double` or a `float` when there is no
midpoint between the two numbers at which the nearest one changes (`tstof_take_iff`,
`narrow_tstof_take_iff`).

White space and digits are those of ASCII, and the point is that of the locale a program starts
with.
-/
import PocoProxy.CString
import PocoProxy.Lib.Readers
import PocoProxy.Lib.Rounding
import Mathlib.Data.Nat.Digits.Defs

set_option autoImplicit false

namespace PocoProxy.Numerals

open PocoProxy.CStrings PocoProxy.Readers PocoProxy.Rounding

/-! ## Characters -/

/-- A blank, or one of the characters from the tab to the carriage return. -/
def isSpace (c : TChar) : Bool := c = 32 ∨ 9 ≤ c ∧ c ≤ 13

def isSign (c : TChar) : Bool := c = tchar '+' ∨ c = tchar '-'

def isDigit (c : TChar) : Bool := tchar '0' ≤ c ∧ c ≤ tchar '9'

/-- The value of digits. -/
def digitsValue (digits : CString) : ℕ :=
  Nat.ofDigits 10 (digits.reverse.map fun c => c.toNat - 48)

theorem not_isDigit_of_isSpace {c : TChar} (h : isSpace c = true) : isDigit c = false := by
  have hspace : c = 32 ∨ 9 ≤ c ∧ c ≤ 13 := of_decide_eq_true h
  have hlow : c < tchar '0' := by
    rcases hspace with rfl | ⟨-, hle⟩
    · decide
    · exact UInt16.lt_of_le_of_lt hle (by decide)
  exact decide_eq_false fun hdigit => UInt16.not_le.mpr hlow hdigit.1

theorem not_isDigit_of_isSign {c : TChar} (h : isSign c = true) : isDigit c = false := by
  have hsign : c = tchar '+' ∨ c = tchar '-' := of_decide_eq_true h
  rcases hsign with rfl | rfl <;> decide

theorem digitsValue_append (before behind : CString) :
    digitsValue (before ++ behind)
      = digitsValue before * 10 ^ behind.length + digitsValue behind := by
  rw [digitsValue, List.reverse_append, List.map_append, Nat.ofDigits_append, List.length_map,
    List.length_reverse, Nat.add_comm, Nat.mul_comm]
  rfl

/-- A digit less is a factor of 10 less. -/
theorem digitsValue_take_eq_iff (digits : CString) (k : ℕ) :
    digitsValue (digits.take k) = digitsValue digits
      ↔ digits.length ≤ k ∨ digitsValue digits = 0 := by
  have hsplit : digitsValue digits
      = digitsValue (digits.take k) * 10 ^ (digits.drop k).length
        + digitsValue (digits.drop k) := by
    rw [← digitsValue_append, List.take_append_drop]
  constructor
  · intro heq
    rcases Nat.lt_or_ge k digits.length with hcut | hall
    · right
      have hlength : 1 ≤ (digits.drop k).length := by
        rw [List.length_drop]
        omega
      have hten : 10 ^ 1 ≤ 10 ^ (digits.drop k).length := Nat.pow_le_pow_right (by decide) hlength
      rw [heq] at hsplit
      nlinarith
    · exact .inl hall
  · rintro (hall | hzero)
    · rw [List.take_of_length_le hall]
    · rw [hzero] at hsplit ⊢
      exact (Nat.mul_eq_zero.mp (Nat.add_eq_zero_iff.mp hsplit.symm).1).resolve_right
        (Nat.pow_pos (by decide)).ne'

theorem digitsValue_take_le (digits : CString) (k : ℕ) :
    digitsValue (digits.take k) ≤ digitsValue digits := by
  conv_rhs => rw [← List.take_append_drop k digits, digitsValue_append]
  exact (Nat.le_mul_of_pos_right _ (Nat.pow_pos (by decide))).trans (Nat.le_add_right _ _)

/-! ## The two functions -/

/-- Whether there is a minus. -/
def readSign : Reader TChar Bool := do
  let sign ← next? isSign
  pure (sign = some (tchar '-'))

/-- White space and a sign. -/
def readStart : Reader TChar Bool := do
  let _ ← span isSpace
  readSign

/-- The sign of an integer, and its digits. -/
def readInteger : Reader TChar (Bool × CString) := do
  let negative ← readStart
  let digits ← span isDigit
  pure (negative, digits)

/-- The greatest magnitude that an `int` with this sign has. -/
def intBound (negative : Bool) : ℕ := if negative then 2 ^ 31 else 2 ^ 31 - 1

/-- The `int` that is nearest to a number. -/
def toInt (negative : Bool) (magnitude : ℕ) : ℤ :=
  if negative then -min magnitude (intBound negative) else min magnitude (intBound negative)

/-- `_tstoi(text)`. -/
def tstoi (text : CString) : ℤ :=
  let (negative, digits) := (readInteger text).1
  toInt negative (digitsValue digits)

/-- `[e | E [sign] digits]`, and 0 if there is none. -/
def readExponent : Reader TChar ℤ := do
  let letter ← next? fun c => c = tchar 'e' ∨ c = tchar 'E'
  if letter.isSome then do
    let negative ← readSign
    let digits ← span isDigit
    pure (if negative then -digitsValue digits else digitsValue digits)
  else pure 0

/-- `.digits`, and none if there is no point. -/
def readDecimals : Reader TChar CString := do
  let point ← next? fun c => c = tchar '.'
  if point.isSome then span isDigit else pure []

/-- The number that a text spells. -/
structure Decimal where
  negative : Bool
  magnitude : ℚ

/-- `[whitespace] [sign] [digits] [.digits] [e | E [sign] digits]`, and 0 if there is no digit in
front of the exponent. -/
def readDecimal : Reader TChar Decimal := do
  let negative ← readStart
  let whole ← span isDigit
  let decimals ← readDecimals
  if whole ++ decimals = [] then pure ⟨false, 0⟩
  else do
    let exponent ← readExponent
    pure ⟨negative, digitsValue (whole ++ decimals) * (10 : ℚ) ^ (exponent - decimals.length)⟩

/-- `double`, and `float`. -/
abbrev CDouble : Type := Floating .binary64

abbrev CFloat : Type := Floating .binary32

/-- `_tstof(text)`, which is `_ttof(text)`. -/
def tstof (text : CString) : CDouble :=
  let number := (readDecimal text).1
  Format.binary64.round number.negative number.magnitude

/-- `(float)value`. -/
def narrow (value : CDouble) : CFloat :=
  Format.binary32.round value.negative (Format.binary64.value value.number)

/-! ## The readers are local -/

theorem local_readSign : Local readSign := (local_next? _).bind fun _ => local_pure _

theorem local_readStart : Local readStart := (local_span _).bind fun _ => local_readSign

theorem local_readExponent : Local readExponent :=
  (local_next? _).bind fun _ =>
    .ite (local_readSign.bind fun _ => (local_span _).bind fun _ => local_pure _) (local_pure _)

theorem local_readDecimals : Local readDecimals :=
  (local_next? _).bind fun _ => .ite (local_span _) (local_pure _)

theorem local_readDecimal : Local readDecimal :=
  local_readStart.bind fun _ => (local_span _).bind fun _ => local_readDecimals.bind fun _ =>
    .ite (local_pure _) (local_readExponent.bind fun _ => local_pure _)

/-- White space and a sign have no digits. -/
theorem not_isDigit_of_mem_start {text : CString} {c : TChar}
    (hc : c ∈ text.take (readStart text).2) : isDigit c = false := by
  rcases mem_take_bind hc with hspace | hc
  · exact not_isDigit_of_isSpace (mem_take_span hspace)
  · rcases mem_take_bind hc with hsign | hnone
    · exact not_isDigit_of_isSign (mem_take_next? hsign)
    · cases hnone

/-! ## A text that is cut off -/

/-- Where the digits of an integer start. -/
def digitsStart (text : CString) : ℕ := (readStart text).2

/-- The digits of the integer that a text starts with. -/
def integerDigits (text : CString) : CString := (readInteger text).1.2

theorem integerDigits_eq (text : CString) :
    integerDigits text = (text.drop (digitsStart text)).takeWhile isDigit := rfl

theorem tstoi_eq (text : CString) :
    tstoi text = toInt (readStart text).1 (digitsValue (integerDigits text)) := rfl

theorem toInt_zero (negative : Bool) : toInt negative 0 = 0 := by
  cases negative <;> rfl

theorem toInt_eq_iff {negative : Bool} {m n : ℕ} (hle : m ≤ n) :
    toInt negative m = toInt negative n ↔ m = n ∨ intBound negative ≤ m := by
  cases negative <;> simp only [toInt, if_true, Bool.false_eq_true, if_false] <;> omega

/-- What is left of an integer. -/
theorem tstoi_take (text : CString) (n : ℕ) :
    tstoi (text.take n) = toInt (readStart text).1
      (digitsValue ((integerDigits text).take (n - digitsStart text))) := by
  rcases Nat.lt_or_ge n (digitsStart text) with hlow | hhigh
  · -- the cut is in front of the digits
    have hnone : integerDigits (text.take n) = [] := by
      rw [integerDigits_eq, List.takeWhile_eq_nil_iff]
      intro hpos hdigit
      have hmem := List.mem_of_mem_drop (List.getElem_mem hpos)
      have hstart := List.take_subset_take_left text hlow.le hmem
      exact absurd hdigit (Bool.eq_false_iff.mp (not_isDigit_of_mem_start hstart))
    rw [tstoi_eq, hnone, Nat.sub_eq_zero_of_le hlow.le, List.take_zero]
    exact (toInt_zero _).trans (toInt_zero _).symm
  · have hsame : readStart (text.take n) = readStart text := local_readStart text n hhigh
    have hstart : digitsStart (text.take n) = digitsStart text := congrArg Prod.snd hsame
    rw [tstoi_eq, hsame, integerDigits_eq, hstart, List.drop_take, ← List.take_takeWhile,
      ← integerDigits_eq]

example : tstoi ((tchars [' ', '-', '1', '2', 'x']).take 3) = -1 := by decide

/-- An `int` is kept: the digits end before the cut, or they are all zero, or what is left of them
reaches the end of the range. -/
def IntegerKept (n : ℕ) (text : CString) : Prop :=
  digitsStart text + (integerDigits text).length ≤ n ∨ digitsValue (integerDigits text) = 0
    ∨ intBound (readStart text).1
      ≤ digitsValue ((integerDigits text).take (n - digitsStart text))

theorem tstoi_take_eq_iff (text : CString) (n : ℕ) :
    tstoi (text.take n) = tstoi text ↔ IntegerKept n text := by
  have hlength : (integerDigits text).length ≤ n - digitsStart text
      ∨ digitsValue (integerDigits text) = 0
      ↔ digitsStart text + (integerDigits text).length ≤ n
        ∨ digitsValue (integerDigits text) = 0 := by
    rcases Nat.eq_zero_or_pos (integerDigits text).length with hnil | hpos
    · -- no digits: the value is zero
      rw [List.length_eq_zero_iff.mp hnil]
      exact iff_of_true (.inr rfl) (.inr rfl)
    · exact or_congr_left (by omega)
  rw [tstoi_take, tstoi_eq, toInt_eq_iff (digitsValue_take_le _ _), digitsValue_take_eq_iff,
    hlength, or_assoc]
  rfl

/-- The sign is kept, and no midpoint between two neighbouring numbers that matters lies between
the number spelled by what is left and the one spelled by the whole text. -/
def DecimalKept (matters : ℕ → Prop) (n : ℕ) (text : CString) : Prop :=
  (readDecimal (text.take n)).1.negative = (readDecimal text).1.negative
    ∧ ∀ i < Format.binary64.infinity, matters i →
      ¬ Format.binary64.Parts (i + 1) (readDecimal (text.take n)).1.magnitude
        (readDecimal text).1.magnitude

/-- For a `double` every midpoint matters. -/
def DoubleKept : ℕ → CString → Prop := DecimalKept fun _ => True

/-- For a `float` those at which the nearest `float` changes. -/
def FloatKept : ℕ → CString → Prop := DecimalKept fun i =>
  Format.binary32.nearest (Format.binary64.value i)
    ≠ Format.binary32.nearest (Format.binary64.value (i + 1))

theorem tstof_take_eq_iff (text : CString) (n : ℕ) :
    tstof (text.take n) = tstof text ↔ DoubleKept n text := by
  rw [tstof, tstof, Format.round_eq_iff, Format.nearest_eq_iff, DoubleKept, DecimalKept]
  exact and_congr_right' (forall₂_congr fun i _ => (true_imp_iff).symm)

/-- What is behind the decimals of a tenth is lost, and that makes no difference. -/
example : tstof (tchars ['.', '1', 'e', 'x']) = tstof ((tchars ['.', '1', 'e', 'x']).take 2) ∧
    (tstof (tchars ['.', '1', 'e', 'x'])).number = 0x3FB999999999999A := by decide +kernel

theorem narrow_tstof_take_eq_iff (text : CString) (n : ℕ) :
    narrow (tstof (text.take n)) = narrow (tstof text) ↔ FloatKept n text := by
  have hmono : Monotone fun i => Format.binary32.nearest (Format.binary64.value i) :=
    fun _ _ h => Format.nearest_mono (Format.value_mono h)
  rw [narrow, narrow, Format.round_eq_iff, tstof, tstof, Format.round_negative,
    Format.round_negative, Format.round_number, Format.round_number, FloatKept, DecimalKept]
  exact and_congr_right' (Format.map_nearest_eq_iff hmono)

/-- Nothing is lost of a numeral that ends before the cut. -/
theorem decimalKept_of_le {matters : ℕ → Prop} {n : ℕ} {text : CString}
    (h : (readDecimal text).2 ≤ n) : DecimalKept matters n text := by
  rw [DecimalKept, local_readDecimal text n h]
  exact ⟨rfl, fun _ _ _ hparts => hparts Iff.rfl⟩

end PocoProxy.Numerals
