/-
The values of an INI file.

`WinIniParser::GetValue` reads the text of a key into a buffer of 256 characters, and is
there for five types. The overload for a `CString` assigns what is in the buffer before it
looks at what the system has returned; the others read into a `CString` of their own and
convert it.

A text of the file has no NUL, and a key that is not there has the text that `GetValue`
gives as the default, the empty one. What the upper case of a character is the system
decides, by its language: `charUpper` is any function.
-/
import PocoProxy.Numerals
import Mathlib.Data.List.TakeDrop

set_option autoImplicit false

namespace PocoProxy.IniValues

open PocoProxy.CStrings PocoProxy.Numerals

/-- A text of the file. -/
structure Stored where
  text : CString
  no_nul : 0 ∉ text

/-- What an INI file says. -/
abbrev Ini := CString → CString → Option Stored

/-- The text of a key, or `_T("")`. -/
def Ini.stored (ini : Ini) (sec key : CString) : Stored :=
  (ini sec key).getD ⟨[], List.not_mem_nil⟩

/-- `GetPrivateProfileString(section, key, _T(""), buffer, size, ...)`: what it leaves in the
buffer, the NUL included, and the number of the characters before it. -/
def getPrivateProfileString (ini : Ini) (sec key : CString) (size : ℕ) : CString × ℕ :=
  let copied := (ini.stored sec key).text.take (size - 1)
  (copied ++ [0], copied.length)

/-! ## The five overloads -/

/-- `GetValue(section, key, CString& value)`: what it returns, and what `value` is then. -/
def getValue (ini : Ini) (sec key _value : CString) : Bool × CString :=
  let (buffer, read_size) := getPrivateProfileString ini sec key 256
  let ret := releaseBuffer buffer
  let value := ret
  if read_size = 0 then (false, value) else (true, value)

/-- The overloads for numbers. -/
def getValueNumber {α : Type} (convert : CString → α) (ini : Ini) (sec key : CString) (value : α) :
    Bool × α :=
  let (found, str_buffer) := getValue ini sec key []
  if found = false then (false, value) else (true, convert str_buffer)

def getValueInt : Ini → CString → CString → ℤ → Bool × ℤ := getValueNumber tstoi

def getValueFloat : Ini → CString → CString → CFloat → Bool × CFloat :=
  getValueNumber fun text => narrow (tstof text)

def getValueDouble : Ini → CString → CString → CDouble → Bool × CDouble := getValueNumber tstof

/-- `GetValue(section, key, bool& value)`. -/
def getValueBool (charUpper : TChar → TChar) (ini : Ini) (sec key : CString) (value : Bool) :
    Bool × Bool :=
  let (found, str_buffer) := getValue ini sec key []
  if found = false then (false, value)
  else
    let str_buffer := str_buffer.map charUpper
    if tchars ['T', 'R', 'U', 'E'] = str_buffer then (true, true)
    else if tchars ['F', 'A', 'L', 'S', 'E'] = str_buffer then (true, false)
    else (false, value)

/-! ## What is read -/

/-- What the buffer holds of a text. -/
def Stored.read (s : Stored) : CString := s.text.take 255

theorem Stored.nul_not_mem_read (s : Stored) : 0 ∉ s.read :=
  fun h => s.no_nul (List.mem_of_mem_take h)

theorem getPrivateProfileString_eq (ini : Ini) (sec key : CString) :
    getPrivateProfileString ini sec key 256
      = ((ini.stored sec key).read ++ [0], (ini.stored sec key).read.length) := rfl

/-- **The overload for a `CString`**: it returns whether something has been read, and assigns
what has been read in either case. -/
theorem getValue_eq (ini : Ini) (sec key value : CString) :
    getValue ini sec key value
      = (!(ini.stored sec key).read.isEmpty, (ini.stored sec key).read) := by
  rw [getValue, getPrivateProfileString_eq]
  dsimp only
  rw [releaseBuffer_concat (ini.stored sec key).nul_not_mem_read]
  cases (ini.stored sec key).read with
  | nil => rfl
  | cons c text => rfl

@[simp] theorem read_eq_nil_iff (s : Stored) : s.read = [] ↔ s.text = [] := by
  simp [Stored.read]

/-- The first 255 characters are the text when it has no more. -/
theorem read_eq_text_iff (s : Stored) : s.read = s.text ↔ s.text.length ≤ 255 := by
  rw [Stored.read, List.take_eq_self_iff]

/-- What a number is converted from. -/
theorem getValueNumber_eq {α : Type} (convert : CString → α) (ini : Ini) (sec key : CString)
    (value : α) :
    getValueNumber convert ini sec key value
      = if (ini.stored sec key).text = [] then (false, value)
        else (true, convert (ini.stored sec key).read) := by
  rw [getValueNumber, getValue_eq]
  dsimp only
  simp only [Bool.not_eq_eq_eq_not, Bool.not_false, List.isEmpty_iff, read_eq_nil_iff]

/-- What a text means as a `bool`. -/
def toBool (charUpper : TChar → TChar) (text : CString) : Option Bool :=
  if tchars ['T', 'R', 'U', 'E'] = text.map charUpper then some true
  else if tchars ['F', 'A', 'L', 'S', 'E'] = text.map charUpper then some false
  else none

/-- A text that means something as a `bool` is short. -/
theorem length_le_of_toBool {charUpper : TChar → TChar} {text : CString} {b : Bool}
    (h : toBool charUpper text = some b) : text.length ≤ 5 := by
  have hword : ∀ word : CString, word.length ≤ 5 → word = text.map charUpper →
      text.length ≤ 5 := by
    intro word hshort heq
    have hlength := congrArg List.length heq
    rw [List.length_map] at hlength
    exact hlength ▸ hshort
  rw [toBool] at h
  split at h
  next htrue => exact hword _ (by decide) htrue
  next =>
    split at h
    next hfalse => exact hword _ (by decide) hfalse
    next => cases h

theorem getValueBool_eq (charUpper : TChar → TChar) (ini : Ini) (sec key : CString)
    (value : Bool) :
    getValueBool charUpper ini sec key value
      = match toBool charUpper (ini.stored sec key).read with
        | none => (false, value)
        | some b => (true, b) := by
  rw [getValueBool, getValue_eq]
  dsimp only
  rw [toBool]
  by_cases hnil : (ini.stored sec key).read = []
  · -- nothing has been read, and the empty text is neither word
    rw [hnil]
    rfl
  · rw [List.isEmpty_eq_false_iff.mpr hnil, if_neg (by decide)]
    split
    next => rfl
    next =>
      split
      next => rfl
      next => rfl

/-! ## All or nothing -/

/-- The law of a lookup: when it fails the output is what it was, and when it succeeds the
output is what the whole text means. -/
structure AllOrNothing {α : Type} (meaning : CString → Option α) (text : CString) (value : α)
    (result : Bool × α) : Prop where
  failed : result.1 = false → result.2 = value
  succeeded : result.1 = true → meaning text = some result.2

variable (ini : Ini) (sec key : CString)

/-- A lookup of a `CString` loses what the output was when there is no text, and the end of
a text that does not fit into the buffer. -/
theorem getValue_allOrNothing_iff (value : CString) :
    AllOrNothing some (ini.stored sec key).text value (getValue ini sec key value)
      ↔ (ini.stored sec key).text.length ≤ 255
        ∧ ((ini.stored sec key).text = [] → value = []) := by
  rw [getValue_eq]
  by_cases hnil : (ini.stored sec key).text = []
  · have hread := (read_eq_nil_iff _).mpr hnil
    rw [hread, hnil]
    constructor
    · intro h
      exact ⟨Nat.zero_le _, fun _ => (h.failed rfl).symm⟩
    · intro h
      exact ⟨fun _ => (h.2 rfl).symm, nofun⟩
  · have hread : (ini.stored sec key).read ≠ [] := mt (read_eq_nil_iff _).mp hnil
    rw [List.isEmpty_eq_false_iff.mpr hread, ← read_eq_text_iff]
    constructor
    · intro h
      exact ⟨(Option.some.inj (h.succeeded rfl)).symm, fun h => absurd h hnil⟩
    · intro h
      exact ⟨nofun, fun _ => congrArg some h.1.symm⟩

/-- A lookup of a number obeys the law exactly if what is read is converted as the text is. -/
theorem getValueNumber_allOrNothing_iff {α : Type} (convert : CString → α) (value : α) :
    AllOrNothing (fun text => some (convert text)) (ini.stored sec key).text value
        (getValueNumber convert ini sec key value)
      ↔ convert ((ini.stored sec key).text.take 255) = convert (ini.stored sec key).text := by
  rw [getValueNumber_eq]
  by_cases hnil : (ini.stored sec key).text = []
  · rw [if_pos hnil, hnil]
    exact iff_of_true ⟨fun _ => rfl, nofun⟩ rfl
  · rw [if_neg hnil]
    constructor
    · intro h
      exact (Option.some.inj (h.succeeded rfl)).symm
    · intro h
      exact ⟨nofun, fun _ => congrArg some h.symm⟩

/-- A lookup of a `bool` obeys the law: a text that does not fit into the buffer means
nothing, and nor does the beginning of it. -/
theorem getValueBool_allOrNothing (charUpper : TChar → TChar) (value : Bool) :
    AllOrNothing (toBool charUpper) (ini.stored sec key).text value
      (getValueBool charUpper ini sec key value) := by
  rw [getValueBool_eq]
  cases hmeaning : toBool charUpper (ini.stored sec key).read with
  | none => exact ⟨fun _ => rfl, nofun⟩
  | some b =>
      have hlength := length_le_of_toBool hmeaning
      have hread : (ini.stored sec key).read = (ini.stored sec key).text := by
        rw [Stored.read, List.length_take] at hlength
        rw [read_eq_text_iff]
        omega
      rw [hread] at hmeaning
      exact ⟨nofun, fun _ => hmeaning⟩

theorem nul_not_mem_letters (n : ℕ) : (0 : TChar) ∉ List.replicate n 97 := by
  intro h
  exact absurd (List.eq_of_mem_replicate h) (by decide)

/-- A file in which the text of every key is so many times the letter `a`. -/
def lettersIni (n : ℕ) : Ini := fun _ _ => some ⟨List.replicate n 97, nul_not_mem_letters n⟩

end PocoProxy.IniValues
