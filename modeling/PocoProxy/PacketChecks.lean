/-
What the two checks on a packet are worth.

`IsValidPacket` accepts a header when its offset and its size add up to the size
of the struct, and `ApplyPacket` counts the offset in structs, so that the packets
it accepts are safe to apply only if one of the two numbers is zero; and the
packets that `MakePacket` makes are accepted only for the last member of a struct.
`IsRequestPacket` tells the packets without data from those with data, except for
the slot sizes whose end wraps around in 64 bits.
-/
import PocoProxy.PacketTransfer

set_option autoImplicit false

namespace PocoProxy.Packet

open PocoProxy.Memory

/-! ## What applying a packet touches -/

/-- The access reads or writes this byte. -/
def Access.Touches (access : Access) (x : Address) : Prop :=
  access.address ≤ x ∧ x < access.address + access.length

/-- The bytes at positions `0 ≤ i < n` of the struct are all that it touches. -/
def Access.Confined (access : Access) (full_data : FullData) : Prop :=
  ∀ x, access.Touches x → ∃ i < full_data.size, x = full_data.address + i

theorem applyPacket_access (packet : YCM_PACKET) (memory : Address → Byte)
    (full_data : FullData) :
    (applyPacket packet memory full_data).access.address = full_data.plus packet.nSlotOffset ∧
      (applyPacket packet memory full_data).access.length = packet.nSlotSize.toNat := by
  unfold applyPacket
  split
  · exact ⟨rfl, rfl⟩
  · exact ⟨rfl, rfl⟩

/-- **The access is all there is**: what it does not touch stays as it is, and makes no
difference to the packet. -/
theorem applyPacket_frame (packet : YCM_PACKET) {memory memory' : Address → Byte}
    {full_data : FullData}
    (hsame : ∀ x, (applyPacket packet memory full_data).access.Touches x →
      memory' x = memory x) :
    (∀ x, ¬ (applyPacket packet memory full_data).access.Touches x →
        (applyPacket packet memory full_data).memory x = memory x) ∧
      (applyPacket packet memory' full_data).packet
        = (applyPacket packet memory full_data).packet := by
  obtain ⟨haddress, hlength⟩ := applyPacket_access packet memory full_data
  unfold Access.Touches at hsame ⊢
  rw [haddress, hlength] at hsame ⊢
  by_cases hrequest : isRequestPacket packet = true
  · rw [applyPacket_request hrequest, applyPacket_request hrequest]
    -- the struct is only read, and the slot gets the bytes that are touched
    refine ⟨fun x _ => rfl, ?_⟩
    have hslot : copy packet.Slot 0 memory' (full_data.plus packet.nSlotOffset)
          packet.nSlotSize.toNat
        = copy packet.Slot 0 memory (full_data.plus packet.nSlotOffset)
          packet.nSlotSize.toNat :=
      copy_congr _ _ fun i hi => hsame _ ⟨Nat.le_add_right _ _, Nat.add_lt_add_left hi _⟩
    simp only [hslot]
  · rw [Bool.not_eq_true] at hrequest
    -- the struct is written, and the packet stays as it is
    rw [applyPacket_store hrequest, applyPacket_store hrequest]
    exact ⟨fun x hx => copy_outside _ _ _ hx, rfl⟩

/-! ## A packet that passes `IsValidPacket` -/

/-- An access of a valid packet, counted in structs, is confined to the struct exactly if
it is empty or at the start. -/
theorem applyPacket_confined_iff {packet : YCM_PACKET} {full_data : FullData}
    (hvalid : isValidPacket packet full_data = true) (memory : Address → Byte) :
    (applyPacket packet memory full_data).access.Confined full_data ↔
      packet.nSlotOffset = 0 ∨ packet.nSlotSize = 0 := by
  obtain ⟨haddress, hlength⟩ := applyPacket_access packet memory full_data
  unfold Access.Confined Access.Touches
  rw [haddress, hlength, FullData.plus]
  constructor
  · intro hconfined
    by_contra hnot
    rw [not_or] at hnot
    have hoffset : 1 ≤ packet.nSlotOffset.toNat := by
      have hne : packet.nSlotOffset.toNat ≠ 0 := fun h => hnot.1 (BitVec.eq_of_toNat_eq h)
      omega
    have hslot : 1 ≤ packet.nSlotSize.toNat := by
      have hne : packet.nSlotSize.toNat ≠ 0 := fun h => hnot.2 (BitVec.eq_of_toNat_eq h)
      omega
    -- the first byte is at least one struct behind the start
    have hbehind : full_data.size ≤ packet.nSlotOffset.toNat * full_data.size :=
      Nat.le_mul_of_pos_left _ hoffset
    obtain ⟨i, hi, heq⟩ := hconfined
      (full_data.address + packet.nSlotOffset.toNat * full_data.size)
      ⟨Nat.le_refl _, Nat.lt_add_of_pos_right hslot⟩
    have hposition : packet.nSlotOffset.toNat * full_data.size = i := Nat.add_left_cancel heq
    omega
  · have hnat : (0 : BitVec 32).toNat = 0 := rfl
    rintro (hzero | hzero) x hx
    · -- the size of the slot is then at most the size of the struct
      rw [isValidPacket_iff, hzero, hnat, Nat.zero_add,
        Nat.mod_eq_of_lt packet.nSlotSize.isLt] at hvalid
      rw [hzero, hnat, Nat.zero_mul, Nat.add_zero, hvalid] at hx
      obtain ⟨i, rfl⟩ := Nat.exists_eq_add_of_le hx.1
      have hi : i < full_data.size % 2 ^ 32 := Nat.lt_of_add_lt_add_left hx.2
      exact ⟨i, Nat.lt_of_lt_of_le hi (Nat.mod_le _ _), rfl⟩
    · rw [hzero, hnat, Nat.add_zero] at hx
      exact absurd (Nat.lt_of_le_of_lt hx.1 hx.2) (Nat.lt_irrefl _)

/-- **A valid packet is safe to apply** exactly if its slot is empty or at the start of the
struct. -/
theorem valid_safe_iff (packet : YCM_PACKET) (memory : Address → Byte) (full_data : FullData) :
    (isValidPacket packet full_data = true →
        (applyPacket packet memory full_data).access.Confined full_data) ↔
      (isValidPacket packet full_data = true →
        packet.nSlotOffset = 0 ∨ packet.nSlotSize = 0) := by
  constructor
  · intro h hvalid
    exact (applyPacket_confined_iff hvalid memory).mp (h hvalid)
  · intro h hvalid
    exact (applyPacket_confined_iff hvalid memory).mpr (h hvalid)

/-- Data for the second of two 32-bit members. -/
def secondField : YCM_PACKET := ⟨28, 0, 0, 0, 4, 4, fun _ => 0⟩

/-- It is valid, and it is written 32 bytes behind the start of the struct, which has eight. -/
theorem valid_not_safe :
    isValidPacket secondField ⟨200, 8⟩ = true ∧
      ¬ (applyPacket secondField (fun _ => 0) ⟨200, 8⟩).access.Confined ⟨200, 8⟩ := by
  refine ⟨by decide, fun hconfined => ?_⟩
  obtain ⟨i, hi, heq⟩ := hconfined 232 (by unfold Access.Touches; decide)
  change i < 8 at hi
  change 232 = 200 + i at heq
  omega

/-! ## A packet that is taken for data -/

/-- The two packets have the same header, and the same `nPacketLength` bytes. -/
structure SamePacket (packet packet' : YCM_PACKET) : Prop where
  header : packet' = { packet with Slot := packet'.Slot }
  bytes : ∀ i, 24 + i < packet.nPacketLength.toNat → packet'.Slot i = packet.Slot i

/-- What `ApplyPacket` stores is in the packet. -/
structure TakesCarried (packet : YCM_PACKET) (memory : Address → Byte) (full_data : FullData) :
    Prop where
  length : 24 + packet.nSlotSize.toNat ≤ packet.nPacketLength.toNat
  /-- No byte behind the `nPacketLength` bytes of the packet makes a difference. -/
  bytes : ∀ packet', SamePacket packet packet' →
    (applyPacket packet' memory full_data).memory = (applyPacket packet memory full_data).memory

/-- The store branch is taken for the packets that are no requests. -/
theorem response_eq_zero_iff (packet : YCM_PACKET) (memory : Address → Byte)
    (full_data : FullData) :
    (applyPacket packet memory full_data).response = 0 ↔ isRequestPacket packet = false := by
  cases hrequest : isRequestPacket packet with
  | true =>
      have hone : (1 : BitVec 32) ≠ 0 := by decide
      rw [applyPacket_request hrequest]
      exact iff_of_false hone (by decide)
  | false =>
      rw [applyPacket_store hrequest]
      exact iff_of_true rfl rfl

/-- A packet that has its slot is stored from the bytes that it has. -/
theorem takesCarried_of_length {packet : YCM_PACKET} (hstore : isRequestPacket packet = false)
    (hlength : 24 + packet.nSlotSize.toNat ≤ packet.nPacketLength.toNat)
    (memory : Address → Byte) (full_data : FullData) :
    TakesCarried packet memory full_data := by
  refine ⟨hlength, fun packet' ⟨hheader, hbytes⟩ => ?_⟩
  -- the header decides the branch and the range
  have hstore' : isRequestPacket packet' = false := by
    rw [hheader]
    exact hstore
  rw [applyPacket_store hstore, applyPacket_store hstore', hheader]
  refine copy_congr memory _ fun i hi => hbytes _ ?_
  dsimp only at hi
  omega

/-- **What `ApplyPacket` stores is in the packet** exactly if the end of the slot does not wrap
around in 32 bits, or the packet is shorter than what is left of it. -/
theorem store_carried_iff (packet : YCM_PACKET) (memory : Address → Byte) (full_data : FullData) :
    ((applyPacket packet memory full_data).response = 0 →
        TakesCarried packet memory full_data) ↔
      packet.nSlotSize.toNat < 2 ^ 32 - 24 ∨
        packet.nPacketLength.toNat < packet.nSlotSize.toNat + 24 - 2 ^ 32 := by
  have hlength := packet.nPacketLength.isLt
  have hslot := packet.nSlotSize.isLt
  -- the end of the slot, in the three ranges of its size
  have hend : slotEnd packet.nSlotSize.toNat
      = if packet.nSlotSize.toNat = 0 then 25
        else if packet.nSlotSize.toNat < 2 ^ 31 then 24 + packet.nSlotSize.toNat
        else if packet.nSlotSize.toNat < 2 ^ 32 - 24 then
          24 + packet.nSlotSize.toNat + (2 ^ 64 - 2 ^ 32)
        else packet.nSlotSize.toNat + 24 - 2 ^ 32 := by
    unfold slotEnd
    split_ifs <;> omega
  have hstore : isRequestPacket packet = false ↔
      slotEnd packet.nSlotSize.toNat ≤ packet.nPacketLength.toNat := by
    rw [← Bool.not_eq_true, isRequestPacket_iff, Nat.not_lt]
  rw [response_eq_zero_iff]
  constructor
  · intro h
    by_contra hnot
    rw [not_or] at hnot
    -- the sum has wrapped around and is not more than the length: the packet is stored
    have hcarried := h (by rw [hstore, hend]; split_ifs <;> omega)
    have := hcarried.length
    omega
  · intro h hdata
    refine takesCarried_of_length hdata ?_ memory full_data
    rw [hstore, hend] at hdata
    split_ifs at hdata <;> omega

/-- The largest slot there is, in a packet without one. -/
def largestSlot : YCM_PACKET := ⟨24, 0, 0, 0, 0, 0xFFFFFFFF, fun _ => 0⟩

theorem store_not_carried :
    (applyPacket largestSlot (fun _ => 0) ⟨200, 8⟩).response = 0 ∧
      ¬ TakesCarried largestSlot (fun _ => 0) ⟨200, 8⟩ :=
  ⟨by decide, fun h => absurd h.length (by decide)⟩

/-! ## A packet that `MakePacket` has made -/

/-- `MakePacket` with a request, whatever number the argument is. -/
theorem makePacket_request {request : BitVec 32} (h : request ≠ 0) (packet : YCM_PACKET)
    (memory : Address → Byte) (full_data : FullData) (entry_data : Address) (s : ℕ) :
    makePacket packet memory full_data entry_data s request
      = makePacket packet memory full_data entry_data s 1 := by
  have hone : ¬ (0 : BitVec 32) = 1 := by decide
  simp only [makePacket, if_neg h.symm, if_neg hone]

/-- The packet is accepted, and it is a request exactly if one has been asked for. -/
def Accepted (n o s : ℕ) (a : Address) : Prop :=
  ∀ (packet : YCM_PACKET) (memory : Address → Byte) (request : BitVec 32),
    let made := (makePacket packet memory ⟨a, n⟩ (a + o) s request).2
    isValidPacket made ⟨a, n⟩ = true ∧ (isRequestPacket made = true ↔ request ≠ 0)

theorem made_isValid_iff (packet : YCM_PACKET) (memory : Address → Byte) (a n o s : ℕ)
    (request : BitVec 32) :
    isValidPacket (makePacket packet memory ⟨a, n⟩ (a + o) s request).2 ⟨a, n⟩ = true ↔
      (o + s) % 2 ^ 32 = n % 2 ^ 32 := by
  have hfields : (makePacket packet memory ⟨a, n⟩ (a + o) s request).2.nSlotOffset
        = BitVec.ofNat 32 o ∧
      (makePacket packet memory ⟨a, n⟩ (a + o) s request).2.nSlotSize = BitVec.ofNat 32 s := by
    by_cases hrequest : request = 0
    · rw [hrequest, makePacket_update]
      exact ⟨rfl, rfl⟩
    · rw [makePacket_request hrequest, makePacket_read]
      exact ⟨rfl, rfl⟩
  rw [isValidPacket_iff, hfields.1, hfields.2, BitVec.toNat_ofNat, BitVec.toNat_ofNat,
    ← Nat.add_mod]

/-- **The validator accepts what the builder makes**, and the two kinds of packets are told
apart, exactly for a member at the end of the struct whose size is an `int`. -/
theorem made_accepted_iff (n o s : ℕ) (a : Address) :
    Accepted n o s a ↔
      (o + s) % 2 ^ 32 = n % 2 ^ 32 ∧ 0 < s % 2 ^ 32 ∧ s % 2 ^ 32 < 2 ^ 31 := by
  have hone : (1 : BitVec 32) ≠ 0 := by decide
  constructor
  · intro h
    -- one packet of each kind gives the three conditions
    let packet : YCM_PACKET := ⟨0, 0, 0, 0, 0, 0, fun _ => 0⟩
    obtain ⟨hvalid, hupdate⟩ := h packet (fun _ => 0) 0
    obtain ⟨-, hread⟩ := h packet (fun _ => 0) 1
    rw [update_isRequest_iff] at hupdate
    rw [read_isRequest_iff] at hread
    refine ⟨(made_isValid_iff packet (fun _ => 0) a n o s 0).mp hvalid, ?_⟩
    exact (slotEnd_iff s).mp ⟨fun hlt => absurd rfl (hupdate.mp hlt), hread.mpr hone⟩
  · rintro ⟨hend, hsize⟩ packet memory request
    obtain ⟨hupdate, hread⟩ := (slotEnd_iff s).mpr hsize
    refine ⟨(made_isValid_iff packet memory a n o s request).mpr hend, ?_⟩
    by_cases hrequest : request = 0
    · rw [hrequest, update_isRequest_iff]
      exact iff_of_false hupdate fun h => h rfl
    · rw [makePacket_request hrequest, read_isRequest_iff]
      exact iff_of_true hread hrequest

/-- A packet for the first of two members is refused. -/
theorem made_not_accepted : ¬ ∀ (n o s : ℕ) (a : Address), 1 ≤ s → o + s ≤ n →
    Accepted n o s a := by
  intro h
  have haccepted := (made_accepted_iff 8 0 4 200).mp (h 8 0 4 200 (by decide) (by decide))
  revert haccepted
  decide

end PocoProxy.Packet
