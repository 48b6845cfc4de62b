/-
The string helpers: replacing and splitting.

`replace_all` and `split_string` are there for `std::string` and for `std::wstring`, with
the same text; here they are functions of the type of the characters. A string is the
list of its characters. It has no longest length, so that no call throws for lack of
memory, and a `size_type` is a number, or `none` for `npos`, which is greater than every
length (`substr_npos` is the 64-bit arithmetic of it).

A loop is run with fuel, and what a function returns, it returns with enough of it. The
`int` that `split_string` returns is always 0 and left out.
-/
import PocoProxy.Lib.Loop
import PocoProxy.Lib.Cutting
import Mathlib.Algebra.Group.Nat.Defs

set_option autoImplicit false

namespace PocoProxy.Strings

open PocoProxy.Loops PocoProxy.Cutting

variable {CharT : Type}

/-! ## Members of `std::basic_string` -/

/-- `size_type`; `none` is `npos`. -/
abbrev SizeType := Option ℕ

/-- The difference of a `size_type` and a position before it. -/
def SizeType.minus (n : SizeType) (pos : ℕ) : SizeType := n.map (· - pos)

/-- `s.substr(pos, count)`. -/
def substr (s : List CharT) (pos : ℕ) : SizeType → List CharT
  | none => s.drop pos
  | some count => (s.drop pos).take count

/-- `s.replace(s.begin() + first, s.begin() + last, str)`. -/
def replaceRange (s : List CharT) (first last : ℕ) (str : List CharT) : List CharT :=
  s.take first ++ str ++ s.drop last

/-- A `size_type` as the number of 64 bits that it is. -/
def SizeType.word : SizeType → ℕ
  | none => 2 ^ 64 - 1
  | some n => n

/-- **The count of the last piece**: with a string that fits into the memory, the
difference that wraps around or does not is what `substr` is called with. -/
theorem substr_npos {s : List CharT} (hs : s.length < 2 ^ 64 - 1) {pos : ℕ} {n : SizeType}
    (hpos : pos ≤ s.length) (hn : ∀ k, n = some k → pos ≤ k ∧ k ≤ s.length) :
    (s.drop pos).take ((n.word + 2 ^ 64 - pos) % 2 ^ 64) = substr s pos (n.minus pos) := by
  cases n with
  | none =>
      have hcount : (2 ^ 64 - 1 + 2 ^ 64 - pos) % 2 ^ 64 = 2 ^ 64 - 1 - pos := by omega
      have hlength : (s.drop pos).length ≤ 2 ^ 64 - 1 - pos := by
        rw [List.length_drop]
        omega
      simp only [SizeType.word, hcount]
      exact List.take_of_length_le hlength
  | some k =>
      have hk := hn k rfl
      have hcount : (k + 2 ^ 64 - pos) % 2 ^ 64 = k - pos := by omega
      simp only [SizeType.word, hcount]
      rfl

variable [DecidableEq CharT]

/-- `s.find(pattern, pos)`. -/
def find (s pattern : List CharT) (pos : ℕ) : SizeType :=
  if pos ≤ s.length then (search pattern (s.drop pos)).map (pos + ·) else none

/-! ## `replace_all` -/

/-- The variables of `replace_all`. -/
structure Replacing (CharT : Type) where
  result : List CharT
  offset : ℕ

/-- A round of the loop. -/
def replaceRound (pattern replace : List CharT) (s : Replacing CharT) :
    Round (Replacing CharT) (List CharT) :=
  match find s.result pattern s.offset with
  | none => .leave s.result
  | some pos => .again
    { result := replaceRange s.result pos (pos + pattern.length) replace
      offset := pos + replace.length }

/-- `replace_all(message, pattern, replace)`. -/
def replaceAll (message pattern replace : List CharT) (fuel : ℕ) : Option (List CharT) :=
  run (replaceRound pattern replace) fuel ⟨message, 0⟩

/-! ## `split_string` with a string -/

/-- The variables of `split_string`, and what `out_split` refers to. -/
structure Splitting (CharT : Type) where
  prev_pos : ℕ
  pos : ℕ
  out_split : List (List CharT)

/-- A round of the loop; the last word is appended behind it. -/
def splitRound (str seperator : List CharT) (s : Splitting CharT) :
    Round (Splitting CharT) (List (List CharT)) :=
  let pos := find str seperator s.pos
  let substring := substr str s.prev_pos (pos.minus s.prev_pos)
  match pos with
  | none => .leave (s.out_split ++ [substring])
  | some pos => .again
    { prev_pos := pos + seperator.length
      pos := pos + seperator.length
      out_split := s.out_split ++ [substring] }

/-- `split_string(str, seperator, out_split)`. -/
def splitString (str seperator : List CharT) (out_split : List (List CharT)) (fuel : ℕ) :
    Option (List (List CharT)) :=
  run (splitRound str seperator) fuel ⟨0, 0, out_split⟩

/-! ## `split_string` with a character -/

/-- `std::basic_istringstream`: what has not been extracted, and `eofbit`. -/
structure IStringStream (CharT : Type) where
  rest : List CharT
  eof : Bool

/-- `std::getline(is, token, delimiter)`. A stream at its end extracts nothing, and the end
is reached when it is read, not when the last delimiter has been. -/
def getline (is : IStringStream CharT) (delimiter : CharT) :
    Option (List CharT × IStringStream CharT) :=
  if is.eof || is.rest.isEmpty then none
  else
    let token := is.rest.takeWhile (· ≠ delimiter)
    match is.rest.dropWhile (· ≠ delimiter) with
    | [] => some (token, ⟨[], true⟩)
    | _ :: rest => some (token, ⟨rest, false⟩)

/-- The variables of `split_string` with a character. -/
structure Tokens (CharT : Type) where
  iss : IStringStream CharT
  out_split : List (List CharT)

/-- A round of the loop. -/
def tokenRound (delimiter : CharT) (s : Tokens CharT) :
    Round (Tokens CharT) (List (List CharT)) :=
  match getline s.iss delimiter with
  | none => .leave s.out_split
  | some (token, iss) => .again ⟨iss, s.out_split ++ [token]⟩

/-- `split_string(str, delimiter, out_split)`. -/
def splitStringChar (str : List CharT) (delimiter : CharT) (out_split : List (List CharT))
    (fuel : ℕ) : Option (List (List CharT)) :=
  run (tokenRound delimiter) fuel ⟨⟨str, false⟩, out_split⟩

end PocoProxy.Strings
