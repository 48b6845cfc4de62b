/-
Two programs that apply what they receive.

A packet goes back and forth as long as `ApplyPacket` makes a response of it. The
response to a request carries the slot, so it should be data for the other side
and the end of the exchange. It is, for the sizes that `IsRequestPacket` reads as
positive numbers; a request for zero bytes is answered by the same request, and
the two sides answer each other for ever.
-/
import PocoProxy.PacketTransfer

set_option autoImplicit false

namespace PocoProxy.Packet

open PocoProxy.Memory

/-! ## One response -/

/-- The packet has become a response, as far as the header says. -/
structure Answered (packet : YCM_PACKET) (applied : Applied) : Prop where
  response : applied.response = 1
  nPacketLength : applied.packet.nPacketLength.toNat = 24 + packet.nSlotSize.toNat
  isResponse : isRequestPacket applied.packet = false
  nDeviceID : applied.packet.nDeviceID = packet.nDeviceID
  nPacketCode : applied.packet.nPacketCode = packet.nPacketCode
  nEventIndex : applied.packet.nEventIndex = packet.nEventIndex
  nSlotOffset : applied.packet.nSlotOffset = packet.nSlotOffset
  nSlotSize : applied.packet.nSlotSize = packet.nSlotSize

/-- The sizes for which a length of `24 + s` is not shorter than the slot. -/
theorem response_iff (packet : YCM_PACKET) (slot : ℕ → Byte) :
    isRequestPacket { packet with
        nPacketLength := BitVec.ofNat 32 (24 + packet.nSlotSize.toNat), Slot := slot } = false ↔
      ¬ (24 + packet.nSlotSize.toNat) % 2 ^ 32 < slotEnd packet.nSlotSize.toNat := by
  rw [← Bool.not_eq_true, isRequestPacket_iff, BitVec.toNat_ofNat]

/-- **A request becomes a response** exactly if its slot size is a positive `int`. -/
theorem answered_iff {packet : YCM_PACKET} (hrequest : isRequestPacket packet = true)
    (memory : Address → Byte) (full_data : FullData) :
    Answered packet (applyPacket packet memory full_data) ↔
      0 < packet.nSlotSize.toNat ∧ packet.nSlotSize.toNat < 2 ^ 31 := by
  have hslot := packet.nSlotSize.isLt
  rw [applyPacket_request hrequest]
  constructor
  · intro h
    have hlength := h.nPacketLength
    have hresponse := (response_iff packet _).mp h.isResponse
    rw [BitVec.toNat_ofNat] at hlength
    -- the length must not wrap around, and the size is an `int` when the length is compared
    unfold slotEnd at hresponse
    split_ifs at hresponse <;> omega
  · rintro ⟨hpos, hsmall⟩
    have hlength : (BitVec.ofNat 32 (24 + packet.nSlotSize.toNat)).toNat
        = 24 + packet.nSlotSize.toNat := by
      rw [BitVec.toNat_ofNat]
      omega
    refine ⟨rfl, hlength, (response_iff packet _).mpr ?_, rfl, rfl, rfl, rfl, rfl⟩
    unfold slotEnd
    split_ifs <;> omega

/-! ## The exchange -/

/-- One side: its memory, and the struct that it applies packets to. -/
structure Endpoint where
  memory : Address → Byte
  full_data : FullData

/-- A packet on its way between two sides. -/
structure Exchange where
  /-- The packet, and who is going to receive it; none when the last packet that was
  received made no response. -/
  flight : Option YCM_PACKET
  receiver : Endpoint
  other : Endpoint
  /-- How many responses have been sent. -/
  responses : ℕ

/-- The receiver applies the packet, and sends it back if a response has been made of
it. -/
def Exchange.deliver (x : Exchange) : Exchange :=
  match x.flight with
  | none => x
  | some packet =>
    let applied := applyPacket packet x.receiver.memory x.receiver.full_data
    let receiver := { x.receiver with memory := applied.memory }
    if applied.response = 1 then
      { flight := some applied.packet
        receiver := x.other
        other := receiver
        responses := x.responses + 1 }
    else { x with flight := none, receiver := receiver }

/-- The exchange after so many deliveries. -/
def Exchange.after (x : Exchange) : ℕ → Exchange
  | 0 => x
  | k + 1 => x.deliver.after k

/-- `sender` has sent a request to `receiver`. -/
def Exchange.start (packet : YCM_PACKET) (receiver sender : Endpoint) : Exchange :=
  ⟨some packet, receiver, sender, 0⟩

/-- There is one response at most, and the exchange comes to an end. -/
def Exchange.Ends (x : Exchange) : Prop :=
  (∀ k, (x.after k).responses ≤ 1) ∧ ∃ k, (x.after k).flight = none

namespace Exchange

theorem after_of_flight_none {x : Exchange} (h : x.flight = none) (k : ℕ) : x.after k = x := by
  induction k with
  | zero => rfl
  | succ k ih =>
      have hdeliver : x.deliver = x := by rw [deliver, h]
      rw [after, hdeliver, ih]

theorem deliver_request {x : Exchange} {packet : YCM_PACKET} (h : x.flight = some packet)
    (hrequest : isRequestPacket packet = true) :
    ∃ slot, x.deliver =
      { flight := some { packet with
          nPacketLength := BitVec.ofNat 32 (24 + packet.nSlotSize.toNat), Slot := slot }
        receiver := x.other
        other := x.receiver
        responses := x.responses + 1 } := by
  rw [deliver, h]
  simp only [applyPacket_request hrequest, if_true]
  exact ⟨_, rfl⟩

theorem deliver_response {x : Exchange} {packet : YCM_PACKET} (h : x.flight = some packet)
    (hrequest : isRequestPacket packet = false) :
    x.deliver.flight = none ∧ x.deliver.responses = x.responses := by
  have hzero : ¬ (0 : BitVec 32) = 1 := by decide
  rw [deliver, h]
  simp only [applyPacket_store hrequest, if_neg hzero, and_self]

/-- A request whose response is a request is answered without end. -/
theorem responses_of_request {packet : YCM_PACKET}
    (hagain : ∀ slot, isRequestPacket { packet with
      nPacketLength := BitVec.ofNat 32 (24 + packet.nSlotSize.toNat), Slot := slot } = true)
    (k : ℕ) {x : Exchange} {p : YCM_PACKET} (hflight : x.flight = some p)
    (hrequest : isRequestPacket p = true)
    (hp : ∃ length slot, p = { packet with nPacketLength := length, Slot := slot }) :
    (x.after k).responses = x.responses + k ∧ (x.after k).flight ≠ none := by
  induction k generalizing x p with
  | zero => exact ⟨rfl, fun h => by rw [after, hflight] at h; cases h⟩
  | succ k ih =>
      -- what comes back differs from the first packet in its length and its slot only
      obtain ⟨length, slot, rfl⟩ := hp
      obtain ⟨slot', hdeliver⟩ := deliver_request hflight hrequest
      have hnext := ih (x := x.deliver) (congrArg Exchange.flight hdeliver) (hagain slot')
        ⟨_, slot', rfl⟩
      rw [after]
      refine ⟨?_, hnext.2⟩
      rw [hnext.1, hdeliver]
      exact Nat.add_right_comm _ 1 k |>.trans (Nat.add_assoc _ k 1)

/-- **The exchange ends after one response** exactly if the response is one. -/
theorem ends_iff {packet : YCM_PACKET} (hrequest : isRequestPacket packet = true)
    (receiver sender : Endpoint) :
    (start packet receiver sender).Ends ↔
      ¬ (24 + packet.nSlotSize.toNat) % 2 ^ 32 < slotEnd packet.nSlotSize.toNat := by
  constructor
  · rintro ⟨-, k, hk⟩ hlt
    -- the test does not depend on the slot, so that each response is a request again
    have hagain : ∀ slot, isRequestPacket { packet with
        nPacketLength := BitVec.ofNat 32 (24 + packet.nSlotSize.toNat), Slot := slot } = true := by
      intro slot
      rw [← Bool.not_eq_false, response_iff]
      exact fun h => h hlt
    exact (responses_of_request hagain k (x := start packet receiver sender) rfl hrequest
      ⟨_, _, rfl⟩).2 hk
  · intro h
    obtain ⟨slot, hdeliver⟩ := deliver_request (x := start packet receiver sender) rfl hrequest
    -- the second delivery is the last one
    have hlast := deliver_response (congrArg Exchange.flight hdeliver)
      ((response_iff packet slot).mpr h)
    have hone : (start packet receiver sender).deliver.responses = 1 :=
      congrArg Exchange.responses hdeliver
    refine ⟨?_, 2, hlast.1⟩
    -- no response before the first delivery, one after it, and no more
    intro k
    cases k with
    | zero => exact Nat.zero_le _
    | succ k =>
        cases k with
        | zero => exact Nat.le_of_eq hone
        | succ k =>
            rw [after, after, after_of_flight_none hlast.1, hlast.2]
            exact Nat.le_of_eq hone

end Exchange

/-- **A request is answered by a response**, and that is the end of the exchange, exactly if
the slot size is a positive `int`. -/
theorem request_answered_iff {packet : YCM_PACKET} (hrequest : isRequestPacket packet = true)
    (receiver sender : Endpoint) :
    (Answered packet (applyPacket packet receiver.memory receiver.full_data) ∧
        (Exchange.start packet receiver sender).Ends) ↔
      0 < packet.nSlotSize.toNat ∧ packet.nSlotSize.toNat < 2 ^ 31 := by
  rw [answered_iff hrequest, Exchange.ends_iff hrequest]
  refine ⟨fun h => h.1, fun h => ⟨h, ?_⟩⟩
  unfold slotEnd
  split_ifs <;> omega

/-- A request for the first of two 32-bit members, and the side that receives it. -/
def fieldRequest : YCM_PACKET := ⟨24, 0, 0, 0, 0, 4, fun _ => 0⟩

def fieldReceiver : Endpoint := ⟨fun _ => 0, ⟨200, 8⟩⟩

theorem request_answered_iff_field :
    (Answered fieldRequest
          (applyPacket fieldRequest fieldReceiver.memory fieldReceiver.full_data) ∧
        (Exchange.start fieldRequest fieldReceiver fieldReceiver).Ends) ↔
      0 < fieldRequest.nSlotSize.toNat ∧ fieldRequest.nSlotSize.toNat < 2 ^ 31 :=
  request_answered_iff (by decide) fieldReceiver fieldReceiver

/-- A request for an empty range of the struct is answered by a request, without end. -/
theorem request_not_answered : ¬ ∀ (packet : YCM_PACKET) (receiver sender : Endpoint),
    packet.nSlotOffset.toNat + packet.nSlotSize.toNat ≤ receiver.full_data.size →
      isRequestPacket packet = true →
        Answered packet (applyPacket packet receiver.memory receiver.full_data) ∧
          (Exchange.start packet receiver sender).Ends := by
  intro h
  have hends := h ⟨24, 0, 0, 0, 0, 0, fun _ => 0⟩ fieldReceiver fieldReceiver (by decide)
    (by decide)
  have hsize := (answered_iff (by decide) _ _).mp hends.1
  exact absurd hsize.1 (by decide)

end PocoProxy.Packet
