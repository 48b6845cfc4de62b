/-
The identity strings of `SYSTEM_INFORM_t`: model, serial number and version.

The struct is made of characters only, so that an object is 88 bytes without a gap, and an
`Image` is what memory holds from the object's first byte on: the object, which is all
there, and as much behind it as can be read. A read behind that is an access violation,
and the getter has no result.

`CString` is the string class of the library, for which `Conversion` stands: the
constructor from a `const char*` turns the bytes before the zero into characters of the
build, by a code page of the machine, and `TrimLeft` and `TrimRight` remove what counts as
space. `KeepsLetters` is what the code pages have in common that matters here.
-/
import PocoProxy.Lib.Terminated
import PocoProxy.PacketTransfer
import Mathlib.Data.List.DropRight

set_option autoImplicit false

namespace PocoProxy.Packet

open PocoProxy.Memory PocoProxy.Queries

/-! ## The object -/

/-- A member that is an array of `char`. -/
structure CharArray where
  offset : ℕ
  length : ℕ

/-- The first byte behind the array. -/
abbrev CharArray.stop (a : CharArray) : ℕ := a.offset + a.length

def cModel : CharArray := ⟨0, 32⟩
def cVersion : CharArray := ⟨cModel.stop, 9⟩
def cSerialNo : CharArray := ⟨cVersion.stop, 17⟩

/-- `sizeof(SYSTEM_INFORM_t)`: behind the serial number there are two dates, a time, the
address and the port. -/
def sizeof_SYSTEM_INFORM_t : ℕ := cSerialNo.stop + (3 + 3 + 3 + 16 + 5)

/-- The memory of an object, from its first byte on. -/
structure Image where
  byte : ℕ → Byte
  /-- How many bytes can be read. -/
  readable : ℕ
  whole : sizeof_SYSTEM_INFORM_t ≤ readable

/-! ## `CString` -/

/-- The characters of the library's strings. -/
structure Conversion (κ : Type) where
  ofBytes : List Byte → List κ
  isSpace : κ → Bool

variable {κ : Type}

/-- The characters of the string at `p`. -/
def Conversion.ofPointer (c : Conversion κ) (readable p : ℕ) : Query ℕ Byte (Option (List κ)) := do
  let bytes ← readTerminated 0 (readable - p) p
  pure (bytes.map c.ofBytes)

def Conversion.trimLeft (c : Conversion κ) (str : List κ) : List κ := str.dropWhile c.isSpace

def Conversion.trimRight (c : Conversion κ) (str : List κ) : List κ := str.rdropWhile c.isSpace

/-- The letter A. -/
def letterA : Byte := 0x41

/-- In every code page a letter that follows a letter is a character by itself, and it is
no space. -/
structure Conversion.KeepsLetters (c : Conversion κ) : Prop where
  letter : ∃ a, c.isSpace a = false ∧
    ∀ s, c.ofBytes (s ++ [letterA, letterA]) = c.ofBytes (s ++ [letterA]) ++ [a]

/-! ## The getters -/

/-- The body of `GetModel` and of `GetVersion`. -/
def getTrimmed (c : Conversion κ) (a : CharArray) (readable : ℕ) :
    Query ℕ Byte (Option (List κ)) := do
  let str ← c.ofPointer readable a.offset
  pure (str.map fun str => c.trimRight (c.trimLeft str))

/-- `SYSTEM_INFORM_t::GetModel`. -/
def getModel (c : Conversion κ) (readable : ℕ) : Query ℕ Byte (Option (List κ)) :=
  getTrimmed c cModel readable

/-- `SYSTEM_INFORM_t::GetSerialNumber`; `temp` is a local array of 18 bytes. -/
def getSerialNumber (c : Conversion κ) : Query ℕ Byte (Option (List κ)) := do
  let bytes ← readElements 17 cSerialNo.offset
  let temp := bytes ++ [0]
  pure ((c.ofPointer 18 0).run fun i => temp.getD i 0)

/-- `SYSTEM_INFORM_t::GetVersion`. -/
def getVersion (c : Conversion κ) (readable : ℕ) : Query ℕ Byte (Option (List κ)) :=
  getTrimmed c cVersion readable

/-! ## Own fields -/

/-- The result depends on the bytes of one member, and no other byte is read. -/
structure FromOwn (a : CharArray) (getter : ℕ → Query ℕ Byte (Option (List κ))) (im : Image) :
    Prop where
  same : ∀ im' : Image, (∀ i < a.length, im'.byte (a.offset + i) = im.byte (a.offset + i)) →
    (getter im'.readable).run im'.byte = (getter im.readable).run im.byte
  inside : ∀ x ∈ (getter im.readable).asked im.byte, a.offset ≤ x ∧ x < a.offset + a.length

/-- One of the characters is zero. -/
def Terminated (a : CharArray) (im : Image) : Prop := ∃ i < a.length, im.byte (a.offset + i) = 0

/-- What a getter returns and reads, by the place of the zero. -/
theorem getTrimmed_of_endsAt (c : Conversion κ) {a : CharArray} {im : Image} {n : ℕ}
    (h : EndsAt 0 im.byte a.offset n) (hn : a.offset + n < sizeof_SYSTEM_INFORM_t) :
    (getTrimmed c a im.readable).run im.byte
        = some (c.trimRight (c.trimLeft (c.ofBytes (elements im.byte a.offset n)))) ∧
      (getTrimmed c a im.readable).asked im.byte = List.range' a.offset (n + 1) := by
  have hwhole := im.whole
  have hfuel : n < im.readable - a.offset := by omega
  obtain ⟨hrun, hasked⟩ := h.readTerminated hfuel
  simp [getTrimmed, Conversion.ofPointer, hrun, hasked]

theorem fromOwn_of_terminated (c : Conversion κ) {a : CharArray}
    (ha : a.offset + a.length ≤ sizeof_SYSTEM_INFORM_t) {im : Image} (h : Terminated a im) :
    FromOwn a (getTrimmed c a) im := by
  obtain ⟨i, hi, hnul⟩ := h
  obtain ⟨n, hn, hends⟩ := exists_endsAt hnul
  obtain ⟨hrun, hasked⟩ := getTrimmed_of_endsAt c hends (by omega)
  refine ⟨?_, ?_⟩
  · intro im' hsame
    have hends' : EndsAt 0 im'.byte a.offset n := hends.congr fun j hj => hsame j (by omega)
    rw [(getTrimmed_of_endsAt c hends' (by omega)).1, hrun,
      elements_congr fun j hj => hsame j (by omega)]
  · intro x hx
    rw [hasked, List.mem_range'_1] at hx
    omega

/-! ## A member that is full -/

theorem trimLeft_concat (c : Conversion κ) {a : κ} (ha : c.isSpace a = false) (str : List κ) :
    c.trimLeft (str ++ [a]) = c.trimLeft str ++ [a] := by
  simp only [Conversion.trimLeft, List.dropWhile_append]
  split
  · rename_i hempty
    rw [List.isEmpty_iff.1 hempty]
    simp [ha]
  · rfl

theorem trim_concat (c : Conversion κ) {a : κ} (ha : c.isSpace a = false) (str : List κ) :
    c.trimRight (c.trimLeft (str ++ [a])) = c.trimLeft str ++ [a] := by
  rw [trimLeft_concat c ha, Conversion.trimRight,
    List.rdropWhile_concat_neg _ _ _ (by simp [ha])]

/-- One letter more at the end is one character more of the string. -/
theorem trim_letters_ne (c : Conversion κ) (h : c.KeepsLetters) (s : List Byte) :
    c.trimRight (c.trimLeft (c.ofBytes (s ++ [letterA, letterA])))
      ≠ c.trimRight (c.trimLeft (c.ofBytes (s ++ [letterA, letterA, letterA]))) := by
  obtain ⟨a, ha, hletter⟩ := h.letter
  -- the third letter is converted by itself, and so is the second
  have hthree : c.ofBytes (s ++ [letterA, letterA, letterA])
      = c.ofBytes (s ++ [letterA, letterA]) ++ [a] := by
    simpa using hletter (s ++ [letterA])
  rw [hthree, hletter, trim_concat c ha, trim_concat c ha, trimLeft_concat c ha]
  intro heq
  have hlength := congrArg List.length heq
  simp only [List.length_append, List.length_singleton] at hlength
  omega

/-- The same bytes up to the end of the member, and then so many letters and a zero. -/
def Image.withLetters (im : Image) (a : CharArray) (k : ℕ) : Image where
  byte x :=
    if x < a.offset + a.length then im.byte x
    else if x < a.offset + a.length + k then letterA
    else 0
  readable := im.readable
  whole := im.whole

theorem endsAt_withLetters {a : CharArray} {im : Image} (h : ¬ Terminated a im) (k : ℕ) :
    EndsAt 0 (im.withLetters a k).byte a.offset (a.length + k) where
  found := by
    simp only [Image.withLetters]
    rw [if_neg (by omega), if_neg (by omega)]
  before i hi := by
    simp only [Image.withLetters]
    split_ifs
    · exact fun hnul => h ⟨i, by omega, hnul⟩
    · decide
    · omega

theorem elements_withLetters (a : CharArray) (im : Image) (k : ℕ) :
    elements (im.withLetters a k).byte a.offset (a.length + k)
      = elements im.byte a.offset a.length ++ List.replicate k letterA := by
  have hfield : elements (im.withLetters a k).byte a.offset a.length
      = elements im.byte a.offset a.length := by
    apply elements_congr
    intro i hi
    simp only [Image.withLetters]
    rw [if_pos (by omega)]
  have hletters : elements (im.withLetters a k).byte (a.offset + a.length) k
      = List.replicate k letterA := by
    apply elements_eq_replicate
    intro i hi
    simp only [Image.withLetters]
    rw [if_neg (by omega), if_pos (by omega)]
  rw [elements_append, hfield, hletters]

/-- Behind a member that is full the string goes on, and what is there shows. -/
theorem terminated_of_same (c : Conversion κ) (h : c.KeepsLetters) {a : CharArray}
    (ha : a.offset + a.length + 3 < sizeof_SYSTEM_INFORM_t) {im : Image}
    (hown : FromOwn a (getTrimmed c a) im) : Terminated a im := by
  by_contra hfull
  -- the images agree on the member, with any number of letters behind it
  have hsame (k : ℕ) : (getTrimmed c a im.readable).run (im.withLetters a k).byte
      = (getTrimmed c a im.readable).run im.byte :=
    hown.same (im.withLetters a k) fun i hi => by
      simp only [Image.withLetters]
      rw [if_pos (by omega)]
  have hresult (k : ℕ) (hk : k ≤ 3) := (getTrimmed_of_endsAt c (endsAt_withLetters hfull k)
    (by omega)).1
  have htwo := (hresult 2 (by omega)).symm.trans (hsame 2)
  have hthree := (hresult 3 (by omega)).symm.trans (hsame 3)
  rw [elements_withLetters] at htwo hthree
  exact trim_letters_ne c h _ (Option.some.inj (htwo.trans hthree.symm))

theorem getTrimmed_fromOwn_iff (c : Conversion κ) (h : c.KeepsLetters) {a : CharArray}
    (ha : a.offset + a.length + 3 < sizeof_SYSTEM_INFORM_t) (im : Image) :
    FromOwn a (getTrimmed c a) im ↔ Terminated a im :=
  ⟨terminated_of_same c h ha, fromOwn_of_terminated c (by omega)⟩

/-! ## The serial number -/

/-- The serial number is copied, and the copy ends with a zero. -/
theorem serialNumber_fromOwn (c : Conversion κ) (im : Image) :
    FromOwn cSerialNo (fun _ => getSerialNumber c) im where
  same im' hsame := by
    have hbytes : elements im'.byte cSerialNo.offset 17 = elements im.byte cSerialNo.offset 17 :=
      elements_congr hsame
    simp [getSerialNumber, hbytes]
  inside x hx := by
    simp [getSerialNumber, List.mem_range'_1] at hx
    exact hx

/-- **Each identity string comes from its own member** and no getter reads behind it,
exactly if the model and the version have a zero in their arrays. -/
theorem getters_fromOwn_iff (c : Conversion κ) (h : c.KeepsLetters) (im : Image) :
    (FromOwn cModel (getModel c) im ∧ FromOwn cVersion (getVersion c) im ∧
        FromOwn cSerialNo (fun _ => getSerialNumber c) im) ↔
      Terminated cModel im ∧ Terminated cVersion im := by
  have hmodel : FromOwn cModel (getModel c) im ↔ Terminated cModel im :=
    getTrimmed_fromOwn_iff c h (by decide) im
  have hversion : FromOwn cVersion (getVersion c) im ↔ Terminated cVersion im :=
    getTrimmed_fromOwn_iff c h (by decide) im
  have hserial := serialNumber_fromOwn c im
  tauto

/-! ## The images of the wire -/

/-- Every image can be sent: the bytes of the object are those of the packet. -/
theorem image_received (im : Image) (packet : YCM_PACKET) (receiver : Address → Byte)
    (address : Address) :
    let made := (makePacket packet im.byte ⟨0, sizeof_SYSTEM_INFORM_t⟩ (0 + 0)
      sizeof_SYSTEM_INFORM_t 0).2
    ∀ i < sizeof_SYSTEM_INFORM_t,
      (applyPacket made receiver ⟨address, sizeof_SYSTEM_INFORM_t⟩).memory (address + i)
        = im.byte i := by
  intro made i hi
  have hupdate : RemoteUpdate sizeof_SYSTEM_INFORM_t 0 sizeof_SYSTEM_INFORM_t 0 address :=
    remoteUpdate_of_zero (by decide) (by decide) (by decide) 0 address
  simpa [made] using (hupdate packet im.byte receiver).2.1.1 i hi

/-- Characters of one byte, with the blank for a space. -/
def ascii : Conversion UInt16 where
  ofBytes := List.map UInt8.toUInt16
  isSpace x := x == 0x20 || (0x09 ≤ x && x ≤ 0x0D)

theorem ascii_keepsLetters : ascii.KeepsLetters where
  letter := ⟨0x41, by decide, fun s => by simp [ascii, letterA]⟩

/-- An object whose model has no zero and whose version starts with `first`. -/
def fullModel (first : Byte) : Image where
  byte x := if x < 32 then 0x42 else if x = 32 then first else 0
  readable := 88
  whole := by decide

theorem getters_fromOwn_iff_fullModel :
    (FromOwn cModel (getModel ascii) (fullModel 0x31) ∧
        FromOwn cVersion (getVersion ascii) (fullModel 0x31) ∧
        FromOwn cSerialNo (fun _ => getSerialNumber ascii) (fullModel 0x31)) ↔
      Terminated cModel (fullModel 0x31) ∧ Terminated cVersion (fullModel 0x31) :=
  getters_fromOwn_iff ascii ascii_keepsLetters (fullModel 0x31)

/-- The first character of the version shows in the model. -/
theorem getModel_not_fromOwn :
    ¬ ∀ im : Image, FromOwn cModel (getModel ascii) im := by
  intro h
  have hsame := (h (fullModel 0x31)).same (fullModel 0x32) fun i hi => by
    have hi' : cModel.offset + i < 32 := by simpa [cModel] using hi
    simp only [fullModel, if_pos hi']
  revert hsame
  decide

end PocoProxy.Packet
