/-
The packets by which two programs keep a payload struct in step.

A `YCM_PACKET` is a header of six 32-bit numbers and a slot that carries a range
of the struct. The header fields have their 32 bits here, and the arithmetic is
that of the 64-bit build: a `size_t` has 64 bits, a pointer that is cast to
`int` loses its upper half, and an `int` that meets a `size_t` is extended with
its sign. The texts of the log statements, and the functions that read a header
field out of a byte buffer, are left out.

The address that `ApplyPacket` computes from the offset may lie outside of the
struct. Addresses are numbers without an upper end, and such an address is taken
at its value.
-/
import PocoProxy.Lib.Memory
import Mathlib.Algebra.Group.Nat.Defs
import Mathlib.Tactic.Basic

set_option autoImplicit false

namespace PocoProxy.Packet

open PocoProxy.Memory

abbrev Byte := UInt8

/-- What a pointer points to. -/
abbrev Address := ℕ

/-- `CHROZEN_PACKET`. -/
structure YCM_PACKET where
  nPacketLength : BitVec 32
  nDeviceID : BitVec 32
  nPacketCode : BitVec 32
  nEventIndex : BitVec 32
  nSlotOffset : BitVec 32
  nSlotSize : BitVec 32
  Slot : ℕ → Byte

/-- `sizeof(YCM_PACKET)`, without the slot. -/
def sizeof_YCM_PACKET : BitVec 64 := 24

@[simp] theorem toNat_sizeof : sizeof_YCM_PACKET.toNat = 24 := rfl

/-- `reinterpret_cast<int>` of a pointer. -/
def intOfPointer (p : Address) : BitVec 32 := BitVec.ofNat 32 p

/-- The reference `full_data`: an address, and the size of its type. -/
structure FullData where
  address : Address
  size : ℕ

/-- `&full_data + n`: the step of a typed pointer is the size of the type. -/
def FullData.plus (full_data : FullData) (n : BitVec 32) : Address :=
  full_data.address + n.toNat * full_data.size

/-- `PacketConfig::MakePacket`; `entry_data` is an address and the size of its
type, `memory` is what the references refer to. -/
def makePacket (packet : YCM_PACKET) (memory : Address → Byte) (full_data : FullData)
    (entry_data : Address) (sizeof_entry_data : ℕ) (request : BitVec 32) : Bool × YCM_PACKET :=
  let packet := { packet with
    nPacketLength := sizeof_YCM_PACKET.setWidth 32
    nSlotOffset := intOfPointer entry_data - intOfPointer full_data.address
    nSlotSize := BitVec.ofNat 32 sizeof_entry_data }
  let packet := if 0 = request then
    { packet with
      nPacketLength :=
        (packet.nPacketLength.setWidth 64 + BitVec.ofNat 64 sizeof_entry_data).setWidth 32
      Slot := copy packet.Slot 0 memory entry_data sizeof_entry_data }
    else packet
  (true, packet)

/-- `PacketConfig::IsRequestPacket`. The comparison is one of `size_t`. -/
def isRequestPacket (packet : YCM_PACKET) : Bool :=
  let slot_size : BitVec 32 := if 0 = packet.nSlotSize then 1 else packet.nSlotSize
  packet.nPacketLength.setWidth 64 < sizeof_YCM_PACKET + slot_size.signExtend 64

/-- `PacketConfig::IsValidPacket`. The two sizes are compared as `int`s. -/
def isValidPacket (packet : YCM_PACKET) (full_data : FullData) : Bool :=
  let full_data_size : BitVec 32 := BitVec.ofNat 32 full_data.size
  let check_size : BitVec 32 := packet.nSlotOffset + packet.nSlotSize
  full_data_size == check_size

/-- What a `memcpy` touches of the memory that has the payload. -/
structure Access where
  write : Bool
  address : Address
  length : ℕ

/-- What `ApplyPacket` returns and leaves. -/
structure Applied where
  result : Bool
  packet : YCM_PACKET
  memory : Address → Byte
  response : BitVec 32
  access : Access

/-- `PacketConfig::ApplyPacket`. -/
def applyPacket (packet : YCM_PACKET) (memory : Address → Byte) (full_data : FullData) : Applied :=
  let address := full_data.plus packet.nSlotOffset
  let length := packet.nSlotSize.toNat
  if isRequestPacket packet then
    { result := true
      packet := { packet with
        nPacketLength := (sizeof_YCM_PACKET + packet.nSlotSize.setWidth 64).setWidth 32
        Slot := copy packet.Slot 0 memory address length }
      memory := memory
      response := 1
      access := ⟨false, address, length⟩ }
  else
    { result := true
      packet := packet
      memory := copy memory address packet.Slot 0 length
      response := 0
      access := ⟨true, address, length⟩ }

/-! ## The arithmetic of a header -/

/-- The right-hand side of the comparison in `IsRequestPacket`, as a number. From
`2 ^ 31` on the slot size is a negative `int`. -/
def slotEnd (slotSize : ℕ) : ℕ :=
  if slotSize = 0 then 25
  else if slotSize < 2 ^ 31 then 24 + slotSize
  else (24 + slotSize + (2 ^ 64 - 2 ^ 32)) % 2 ^ 64

theorem toNat_signExtend_int (x : BitVec 32) :
    (x.signExtend 64).toNat
      = if x.toNat < 2 ^ 31 then x.toNat else x.toNat + (2 ^ 64 - 2 ^ 32) := by
  have hx := x.isLt
  rw [BitVec.toNat_signExtend, BitVec.msb_eq_decide, BitVec.toNat_setWidth]
  by_cases h : x.toNat < 2 ^ 31
  · rw [if_pos h, decide_eq_false (by omega)]
    simp only [Bool.false_eq_true, if_false]
    omega
  · rw [if_neg h, decide_eq_true (by omega)]
    simp only [if_true]
    omega

theorem isRequestPacket_iff (packet : YCM_PACKET) :
    isRequestPacket packet = true ↔
      packet.nPacketLength.toNat < slotEnd packet.nSlotSize.toNat := by
  have hlen := packet.nPacketLength.isLt
  have hslot := packet.nSlotSize.isLt
  simp only [isRequestPacket, toNat_sizeof, decide_eq_true_eq, BitVec.lt_def,
    BitVec.toNat_add, BitVec.toNat_setWidth, toNat_signExtend_int, slotEnd]
  rw [Nat.mod_eq_of_lt (by omega : packet.nPacketLength.toNat < 2 ^ 64)]
  by_cases hzero : packet.nSlotSize = 0
  · rw [if_pos hzero.symm, hzero]
    exact Iff.rfl
  · have hpos : packet.nSlotSize.toNat ≠ 0 := fun h => hzero (BitVec.eq_of_toNat_eq h)
    rw [if_neg (Ne.symm hzero), if_neg hpos]
    split
    · rw [Nat.mod_eq_of_lt (by omega)]
    · rw [Nat.add_assoc]

/-- The sum wraps around, and so does the size of the struct. -/
theorem isValidPacket_iff (packet : YCM_PACKET) (full_data : FullData) :
    isValidPacket packet full_data = true ↔
      (packet.nSlotOffset.toNat + packet.nSlotSize.toNat) % 2 ^ 32
        = full_data.size % 2 ^ 32 := by
  rw [isValidPacket, beq_iff_eq, ← BitVec.toNat_inj, BitVec.toNat_ofNat, BitVec.toNat_add]
  exact eq_comm

/-- The offset that `MakePacket` puts into the header, wherever the struct is. -/
theorem intOfPointer_sub (a o : ℕ) :
    (intOfPointer (a + o) - intOfPointer a).toNat = o % 2 ^ 32 := by
  simp only [intOfPointer, BitVec.toNat_sub, BitVec.toNat_ofNat]
  omega

/-! ## What the two functions do -/

/-- `MakePacket` with the data. -/
theorem makePacket_update (packet : YCM_PACKET) (memory : Address → Byte) (a n o s : ℕ) :
    (makePacket packet memory ⟨a, n⟩ (a + o) s 0).2 = { packet with
      nPacketLength := BitVec.ofNat 32 (24 + s)
      nSlotOffset := BitVec.ofNat 32 o
      nSlotSize := BitVec.ofNat 32 s
      Slot := copy packet.Slot 0 memory (a + o) s } := by
  have hoffset : intOfPointer (a + o) - intOfPointer a = BitVec.ofNat 32 o :=
    BitVec.eq_of_toNat_eq ((intOfPointer_sub a o).trans (BitVec.toNat_ofNat o 32).symm)
  have hlength : ((sizeof_YCM_PACKET.setWidth 32).setWidth 64 + BitVec.ofNat 64 s).setWidth 32
      = BitVec.ofNat 32 (24 + s) := by
    apply BitVec.eq_of_toNat_eq
    simp only [BitVec.toNat_setWidth, BitVec.toNat_add, BitVec.toNat_ofNat, toNat_sizeof]
    omega
  simp only [makePacket, hoffset, hlength, if_true]

/-- `MakePacket` with a request. -/
theorem makePacket_read (packet : YCM_PACKET) (memory : Address → Byte) (a n o s : ℕ) :
    (makePacket packet memory ⟨a, n⟩ (a + o) s 1).2 = { packet with
      nPacketLength := 24
      nSlotOffset := BitVec.ofNat 32 o
      nSlotSize := BitVec.ofNat 32 s } := by
  have hoffset : intOfPointer (a + o) - intOfPointer a = BitVec.ofNat 32 o :=
    BitVec.eq_of_toNat_eq ((intOfPointer_sub a o).trans (BitVec.toNat_ofNat o 32).symm)
  have hrequest : ¬ (0 : BitVec 32) = 1 := by decide
  simp only [makePacket, hoffset, if_neg hrequest]
  rfl

theorem applyPacket_request {packet : YCM_PACKET} (h : isRequestPacket packet = true)
    (memory : Address → Byte) (full_data : FullData) :
    applyPacket packet memory full_data =
      { result := true
        packet := { packet with
          nPacketLength := BitVec.ofNat 32 (24 + packet.nSlotSize.toNat)
          Slot := copy packet.Slot 0 memory (full_data.plus packet.nSlotOffset)
            packet.nSlotSize.toNat }
        memory := memory
        response := 1
        access := ⟨false, full_data.plus packet.nSlotOffset, packet.nSlotSize.toNat⟩ } := by
  have hlength : (sizeof_YCM_PACKET + packet.nSlotSize.setWidth 64).setWidth 32
      = BitVec.ofNat 32 (24 + packet.nSlotSize.toNat) := by
    apply BitVec.eq_of_toNat_eq
    simp only [BitVec.toNat_setWidth, BitVec.toNat_add, BitVec.toNat_ofNat, toNat_sizeof]
    omega
  simp only [applyPacket, h, if_true, hlength]

theorem applyPacket_store {packet : YCM_PACKET} (h : isRequestPacket packet = false)
    (memory : Address → Byte) (full_data : FullData) :
    applyPacket packet memory full_data =
      { result := true
        packet := packet
        memory := copy memory (full_data.plus packet.nSlotOffset) packet.Slot 0
          packet.nSlotSize.toNat
        response := 0
        access := ⟨true, full_data.plus packet.nSlotOffset, packet.nSlotSize.toNat⟩ } := by
  simp only [applyPacket, h, Bool.false_eq_true, if_false]

end PocoProxy.Packet
