/-
Remote update and remote read: what arrives when one side makes a packet and the
other one applies it.

`MakePacket` puts a byte offset into the header, and `ApplyPacket` adds it to a
typed pointer, so that the offset is counted in structs. The two agree on the
offset zero. The sizes agree as long as they are positive numbers of type `int`.
-/
import PocoProxy.PacketConfig
import Mathlib.Tactic.Common

set_option autoImplicit false

namespace PocoProxy.Packet

open PocoProxy.Memory

/-! ## What should happen -/

/-- The `s` bytes at `o` in the struct at `b` have become those of the struct at
`a`, and nothing else has changed. -/
def Updated (o s : ℕ) (a : Address) (source : Address → Byte) (b : Address)
    (before after : Address → Byte) : Prop :=
  (∀ i < s, after (b + o + i) = source (a + o + i)) ∧
    ∀ x, ¬ (b + o ≤ x ∧ x < b + o + s) → after x = before x

/-- The access is to bytes of the struct. -/
def Access.Within (access : Access) (full_data : FullData) : Prop :=
  full_data.address ≤ access.address ∧
    access.address + access.length ≤ full_data.address + full_data.size

/-- The sender makes a packet of a member of the struct at `a`, and the receiver
applies it to the struct at `b`. -/
def RemoteUpdate (n o s : ℕ) (a b : Address) : Prop :=
  ∀ (packet : YCM_PACKET) (sender receiver : Address → Byte),
    let made := (makePacket packet sender ⟨a, n⟩ (a + o) s 0).2
    let applied := applyPacket made receiver ⟨b, n⟩
    applied.response = 0 ∧ Updated o s a sender b receiver applied.memory ∧
      applied.access.Within ⟨b, n⟩

/-- The requester asks for a member of the struct at `a`, the peer answers, and the
requester applies the answer to its own struct at `b`. -/
def RemoteRead (n o s : ℕ) (a b : Address) : Prop :=
  ∀ (packet : YCM_PACKET) (peer requester : Address → Byte),
    let made := (makePacket packet requester ⟨b, n⟩ (b + o) s 1).2
    let answered := applyPacket made peer ⟨a, n⟩
    let applied := applyPacket answered.packet requester ⟨b, n⟩
    answered.response = 1 ∧ answered.memory = peer ∧ applied.response = 0 ∧
      Updated o s a peer b requester applied.memory ∧ applied.access.Within ⟨b, n⟩

theorem updated_copy (o s : ℕ) (a b : Address) (source before : Address → Byte) :
    Updated o s a source b before (copy before (b + o) source (a + o) s) :=
  ⟨fun _ hi => copy_inside _ _ _ _ hi, fun _ hx => copy_outside _ _ _ hx⟩

/-! ## Which packets are requests -/

theorem update_isRequest_iff (packet : YCM_PACKET) (memory : Address → Byte) (a n o s : ℕ) :
    isRequestPacket (makePacket packet memory ⟨a, n⟩ (a + o) s 0).2 = true ↔
      (24 + s) % 2 ^ 32 < slotEnd (s % 2 ^ 32) := by
  rw [isRequestPacket_iff, makePacket_update]
  simp only [BitVec.toNat_ofNat]

theorem read_isRequest_iff (packet : YCM_PACKET) (memory : Address → Byte) (a n o s : ℕ) :
    isRequestPacket (makePacket packet memory ⟨a, n⟩ (a + o) s 1).2 = true ↔
      24 < slotEnd (s % 2 ^ 32) := by
  rw [isRequestPacket_iff, makePacket_read]
  simp only [BitVec.toNat_ofNat]
  exact Iff.rfl

/-- The sizes for which data is taken for data and a request for a request are, up
to multiples of `2 ^ 32`, the positive numbers of type `int`. -/
theorem slotEnd_iff (s : ℕ) :
    (¬ (24 + s) % 2 ^ 32 < slotEnd (s % 2 ^ 32) ∧ 24 < slotEnd (s % 2 ^ 32)) ↔
      0 < s % 2 ^ 32 ∧ s % 2 ^ 32 < 2 ^ 31 := by
  unfold slotEnd
  split_ifs <;> omega

/-! ## The result -/

/-- A member at the start of the struct arrives. -/
theorem remoteUpdate_of_zero {n s : ℕ} (hs : 1 ≤ s) (hsn : s ≤ n) (hsmall : s < 2 ^ 31)
    (a b : Address) : RemoteUpdate n 0 s a b := by
  intro packet sender receiver
  have hmod : s % 2 ^ 32 = s := Nat.mod_eq_of_lt (by omega)
  have hstore : isRequestPacket (makePacket packet sender ⟨a, n⟩ (a + 0) s 0).2 = false := by
    rw [Bool.eq_false_iff, Ne, update_isRequest_iff]
    exact ((slotEnd_iff s).mpr (by omega)).1
  simp only [makePacket_update packet sender a n 0 s] at hstore ⊢
  simp only [applyPacket_store hstore, FullData.plus, BitVec.toNat_ofNat, hmod, Nat.zero_mod,
    Nat.zero_mul, copy_copy]
  exact ⟨trivial, updated_copy 0 s a b sender receiver, Nat.le_refl b, Nat.add_le_add_left hsn b⟩

/-- And so does the answer to a request for one. -/
theorem remoteRead_of_zero {n s : ℕ} (hs : 1 ≤ s) (hsn : s ≤ n) (hsmall : s < 2 ^ 31)
    (a b : Address) : RemoteRead n 0 s a b := by
  intro packet peer requester
  have hmod : s % 2 ^ 32 = s := Nat.mod_eq_of_lt (by omega)
  have hends := (slotEnd_iff s).mpr (by omega)
  have hrequest : isRequestPacket (makePacket packet requester ⟨b, n⟩ (b + 0) s 1).2 = true :=
    (read_isRequest_iff packet requester b n 0 s).mpr hends.2
  -- the answer has the header that `MakePacket` would have made for the data
  have hanswer : (applyPacket (makePacket packet requester ⟨b, n⟩ (b + 0) s 1).2 peer ⟨a, n⟩).packet
      = (makePacket packet peer ⟨a, n⟩ (a + 0) s 0).2 := by
    simp only [applyPacket_request hrequest]
    simp only [makePacket_read, makePacket_update packet peer a n 0 s, FullData.plus,
      BitVec.toNat_ofNat, hmod, Nat.zero_mod, Nat.zero_mul]
  obtain ⟨hresponse, hupdated, hwithin⟩ :=
    remoteUpdate_of_zero hs hsn hsmall a b packet peer requester
  simp only [hanswer]
  simp only [applyPacket_request hrequest]
  exact ⟨trivial, trivial, hresponse, hupdated, hwithin⟩

/-- What a transfer needs of the sizes, and what it then writes: `s` bytes at a
multiple of the size of the struct. -/
theorem offset_of_remoteUpdate {n o s : ℕ} {a b : Address} (hs : 1 ≤ s) (hos : o + s ≤ n)
    (hstore : ¬ (24 + s) % 2 ^ 32 < slotEnd (s % 2 ^ 32)) (hpos : 0 < s % 2 ^ 32)
    (h : RemoteUpdate n o s a b) : o = 0 ∧ s % 2 ^ 32 = s := by
  -- ones are sent and stored over zeros, so that the bytes written can be seen
  let packet : YCM_PACKET := ⟨0, 0, 0, 0, 0, 0, fun _ => 1⟩
  obtain ⟨-, ⟨hin, hout⟩, -⟩ := h packet (fun _ => 1) (fun _ => 0)
  have hnot : isRequestPacket (makePacket packet (fun _ => 1) ⟨a, n⟩ (a + o) s 0).2 = false := by
    rw [Bool.eq_false_iff, Ne, update_isRequest_iff]
    exact hstore
  have hslot : copy (fun _ => (1 : Byte)) 0 (fun _ => 1) (a + o) s = fun _ => 1 := by
    funext x
    unfold copy
    split <;> rfl
  simp only [applyPacket_store hnot] at hin hout
  simp only [makePacket_update, FullData.plus, BitVec.toNat_ofNat, packet, hslot] at hin hout
  have hone : (1 : Byte) ≠ 0 := by decide
  have hfirst := (copy_const_iff hone _ _ _ _).mp (hin 0 (by omega))
  have hlast := (copy_const_iff hone _ _ _ _).mp (hin (s - 1) (by omega))
  -- the offset counts structs, and the range starts inside of the first one
  have hoff : o % 2 ^ 32 * n = 0 := by
    rcases Nat.eq_zero_or_pos (o % 2 ^ 32) with h0 | h1
    · rw [h0, Nat.zero_mul]
    · have hle : n ≤ o % 2 ^ 32 * n := Nat.le_mul_of_pos_left n h1
      omega
  rw [hoff] at hfirst hlast hout
  refine ⟨?_, ?_⟩
  · by_contra ho
    have hzero := hout b (by omega)
    rw [Nat.add_zero, show copy (fun _ => (0 : Byte)) b (fun _ => 1) 0 (s % 2 ^ 32) b = 1 from
      (copy_const_iff hone _ _ _ _).mpr ⟨Nat.le_refl b, by omega⟩] at hzero
    exact hone hzero
  · have := Nat.mod_le s (2 ^ 32)
    omega

/-- **Remote update and remote read** work, for all contents, exactly for the
members at the start of the struct whose size is an `int`. -/
theorem transfer_iff (n o s : ℕ) (a b : Address) (hs : 1 ≤ s) (hos : o + s ≤ n) :
    (RemoteUpdate n o s a b ∧ RemoteRead n o s a b) ↔ o = 0 ∧ s < 2 ^ 31 := by
  constructor
  · rintro ⟨hupdate, hread⟩
    let packet : YCM_PACKET := ⟨0, 0, 0, 0, 0, 0, fun _ => 0⟩
    have hstore : ¬ (24 + s) % 2 ^ 32 < slotEnd (s % 2 ^ 32) := by
      rw [← update_isRequest_iff packet (fun _ => 0) a n o s]
      intro hrequest
      have hresponse := (hupdate packet (fun _ => 0) (fun _ => 0)).1
      simp only [applyPacket_request hrequest] at hresponse
      exact absurd hresponse (by decide)
    have hrequest : 24 < slotEnd (s % 2 ^ 32) := by
      rw [← read_isRequest_iff packet (fun _ => 0) b n o s]
      by_contra hno
      have hresponse := (hread packet (fun _ => 0) (fun _ => 0)).1
      simp only [applyPacket_store (Bool.eq_false_iff.mpr hno)] at hresponse
      exact absurd hresponse (by decide)
    have hsize := (slotEnd_iff s).mp ⟨hstore, hrequest⟩
    obtain ⟨ho, hmod⟩ := offset_of_remoteUpdate hs hos hstore hsize.1 hupdate
    exact ⟨ho, by omega⟩
  · rintro ⟨rfl, hsmall⟩
    exact ⟨remoteUpdate_of_zero hs (by omega) hsmall a b,
      remoteRead_of_zero hs (by omega) hsmall a b⟩

theorem transfer_iff_second_field :
    (RemoteUpdate 8 4 4 100 200 ∧ RemoteRead 8 4 4 100 200) ↔ 4 = 0 ∧ 4 < 2 ^ 31 :=
  transfer_iff 8 4 4 100 200 (by decide) (by decide)

/-- The second of two 32-bit members is written 32 bytes behind the start of its
struct, which has eight. -/
theorem not_transfer : ¬ ∀ (n o s : ℕ) (a b : Address), 1 ≤ s → o + s ≤ n →
    RemoteUpdate n o s a b ∧ RemoteRead n o s a b := by
  intro h
  have hwithin := ((h 8 4 4 100 200 (by decide) (by decide)).1
    ⟨0, 0, 0, 0, 0, 0, fun _ => 0⟩ (fun _ => 0) (fun _ => 0)).2.2
  revert hwithin
  unfold Access.Within
  decide

end PocoProxy.Packet
