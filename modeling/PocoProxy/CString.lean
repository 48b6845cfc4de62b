/-
What the code uses of `CString`.

The characters of the build are the 16 bits of a `wchar_t`, and a `CString` is the list of
its characters. An `int` that a member takes or returns is an integer: a text has fewer than
`2 ^ 31` characters.
-/
import Mathlib.Algebra.Order.Ring.Int
import Mathlib.Data.List.Basic
import Mathlib.Data.Int.Notation

set_option autoImplicit false

namespace PocoProxy.CStrings

/-- `TCHAR`. -/
abbrev TChar := UInt16

/-- `CString`. -/
abbrev CString := List TChar

/-- `_T('...')`. -/
def tchar (letter : Char) : TChar := UInt16.ofNat letter.toNat

/-- `_T("...")`. -/
def tchars (letters : List Char) : CString := letters.map tchar

/-- `text.ReleaseBuffer()`: the text ends before the first NUL in the buffer. -/
def releaseBuffer (buffer : CString) : CString := buffer.takeWhile (· ≠ 0)

/-- `text.Find(ch)`. -/
def find (text : CString) (ch : TChar) : ℤ := if ch ∈ text then text.idxOf ch else -1

/-- `text.Delete(iIndex, nCount)`. -/
def delete (text : CString) (iIndex nCount : ℤ) : CString :=
  text.take iIndex.toNat ++ text.drop (iIndex.toNat + nCount.toNat)

theorem releaseBuffer_concat {text : CString} (h : 0 ∉ text) :
    releaseBuffer (text ++ [0]) = text := by
  have hall : ∀ c ∈ text, decide (c ≠ 0) = true := by
    intro c hc
    rw [decide_eq_true_eq]
    rintro rfl
    exact h hc
  rw [releaseBuffer, List.takeWhile_append_of_pos hall, List.takeWhile_cons_of_neg (by decide),
    List.append_nil]

theorem find_eq_neg_one {text : CString} {ch : TChar} (h : ch ∉ text) : find text ch = -1 := by
  rw [find, if_neg h]

/-- The first occurrence is found. -/
theorem find_append {before : CString} {ch : TChar} (h : ch ∉ before) (rest : CString) :
    find (before ++ ch :: rest) ch = before.length := by
  have hmem : ch ∈ before ++ ch :: rest := List.mem_append_right _ List.mem_cons_self
  rw [find, if_pos hmem, List.idxOf_append, if_neg h, List.idxOf_cons_self, Nat.zero_add]

/-- To delete what is there from a place on. -/
theorem delete_rest (before rest : CString) :
    delete (before ++ rest) before.length ((before ++ rest).length - before.length) = before := by
  have hcount : ((before ++ rest).length - before.length : ℤ).toNat = rest.length := by
    rw [List.length_append]
    omega
  rw [delete, hcount, Int.toNat_natCast, List.take_left, ← List.length_append,
    List.drop_length, List.append_nil]

end PocoProxy.CStrings
