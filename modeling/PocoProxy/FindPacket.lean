/-
The search for a packet in a block of received bytes.

`FindPacket` looks at one position after the other for a header with a known packet
code and an accepted device id. It finds the first one that lies in the block
(`findPacket_first`). Its loop ends eight bytes before the end of the block, and a
header's first three numbers have twelve: unless there is a header to be found, the
last rounds read up to three bytes behind the block (`findPacket_inside_iff`).

What the functions read is part of the model: they are computations in the sense of
`Lib/Query`, over the memory that the buffer is in.
-/
import PocoProxy.PacketConfig
import PocoProxy.Lib.Query
import Mathlib.Data.Int.Notation
import Mathlib.Tactic.Common

set_option autoImplicit false

namespace PocoProxy.Packet

open PocoProxy.Queries

/-! ## Packet codes -/

def PACKET_DEVICE_ID_YLAS : BitVec 32 := 0x97000

inductive CHROZEN_PACKET_CODE where
  | PACKCODE_SYSTEM_INFORM
  | PACKCODE_SYSTEM_CONFIG
  | PACKCODE_RUN_SETUP
  | PACKCODE_TIME_EVENT
  | PACKCODE_MIX_SETUP
  | PACKCODE_SEQUENCE
  | PACKCODE_COMMAND
  | PACKCODE_STATE
  | PACKCODE_SLFEMSG
  | PACKCODE_SERVICE
  | PACKCODE_ADJUST_DATA
  | PACKCODE_DIAG_DATA
  | PACKCODE_USED_TIME
  | PACKCODE_UPDATE
  | PACKCODE_SPECIAL
  deriving DecidableEq, Repr

namespace CHROZEN_PACKET_CODE

/-- The number of an enumerator. -/
def value : CHROZEN_PACKET_CODE → BitVec 32
  | PACKCODE_SYSTEM_INFORM => PACKET_DEVICE_ID_YLAS + 0x400
  | PACKCODE_SYSTEM_CONFIG => PACKET_DEVICE_ID_YLAS + 0x410
  | PACKCODE_RUN_SETUP => PACKET_DEVICE_ID_YLAS + 0x420
  | PACKCODE_TIME_EVENT => PACKET_DEVICE_ID_YLAS + 0x430
  | PACKCODE_MIX_SETUP => PACKET_DEVICE_ID_YLAS + 0x440
  | PACKCODE_SEQUENCE => PACKET_DEVICE_ID_YLAS + 0x460
  | PACKCODE_COMMAND => PACKET_DEVICE_ID_YLAS + 0x470
  | PACKCODE_STATE => PACKET_DEVICE_ID_YLAS + 0x480
  | PACKCODE_SLFEMSG => PACKET_DEVICE_ID_YLAS + 0x490
  | PACKCODE_SERVICE => PACKET_DEVICE_ID_YLAS + 0x500
  | PACKCODE_ADJUST_DATA => PACKET_DEVICE_ID_YLAS + 0x510
  | PACKCODE_DIAG_DATA => PACKET_DEVICE_ID_YLAS + 0x520
  | PACKCODE_USED_TIME => PACKET_DEVICE_ID_YLAS + 0x540
  | PACKCODE_UPDATE => PACKET_DEVICE_ID_YLAS + 0x700
  | PACKCODE_SPECIAL => PACKET_DEVICE_ID_YLAS + 0x620

/-- The cases of the `switch` in `IsIncludePacketCode`. -/
def included : List CHROZEN_PACKET_CODE :=
  [PACKCODE_SYSTEM_INFORM, PACKCODE_SYSTEM_CONFIG, PACKCODE_RUN_SETUP, PACKCODE_TIME_EVENT,
   PACKCODE_MIX_SETUP, PACKCODE_SEQUENCE, PACKCODE_COMMAND, PACKCODE_STATE, PACKCODE_SLFEMSG,
   PACKCODE_SERVICE, PACKCODE_ADJUST_DATA, PACKCODE_DIAG_DATA, PACKCODE_USED_TIME,
   PACKCODE_UPDATE, PACKCODE_SPECIAL]

/-- No packet code has been forgotten there. -/
theorem mem_included (c : CHROZEN_PACKET_CODE) : c ∈ included := by
  cases c <;> decide

end CHROZEN_PACKET_CODE

/-! ## Reading a header -/

/-- Computations that read bytes of the memory. -/
abbrev Reads := Query Address Byte

/-- The `unsigned int` with these bytes, the least one first. -/
def uintOfBytes (b₀ b₁ b₂ b₃ : Byte) : BitVec 32 :=
  BitVec.ofNat 32
    (b₀.toNat + 2 ^ 8 * b₁.toNat + 2 ^ 16 * b₂.toNat + 2 ^ 24 * b₃.toNat)

/-- `memcpy` of an `unsigned int` from this address. -/
def readUInt (p : Address) : Reads (BitVec 32) := do
  let b₀ ← Query.get p
  let b₁ ← Query.get (p + 1)
  let b₂ ← Query.get (p + 2)
  let b₃ ← Query.get (p + 3)
  return uintOfBytes b₀ b₁ b₂ b₃

/-- `PacketConfig::GetDeviceId`, behind `nPacketLength`. -/
def getDeviceId (buffer : Address) : Reads (BitVec 32) := readUInt (buffer + 4)

/-- `PacketConfig::GetPacketCode`, behind `nPacketLength` and `nDeviceID`. -/
def getPacketCode (buffer : Address) : Reads (BitVec 32) := readUInt (buffer + 8)

/-- `PacketConfig::IsIncludePacketCode`. -/
def isIncludePacketCode (buffer : Address) : Reads Bool := do
  let packet_code ← getPacketCode buffer
  return CHROZEN_PACKET_CODE.included.any fun c => c.value == packet_code

/-- The loop of `FindPacket`, from `ii` on, with so many rounds to go. The arguments of the
log statement are evaluated when plog has a logger. -/
def findPacketLoop (logging : Bool) (buffer : Address) (device_id : BitVec 32) :
    ℕ → ℕ → Reads (Option Address)
  | 0, _ => return none
  | rounds + 1, ii => do
    let packet_temp := buffer + ii
    if ← isIncludePacketCode packet_temp then
      let packet_device_id ← getDeviceId packet_temp
      if -1 = device_id then
        return some packet_temp
      else if device_id = packet_device_id ∨ 0 = packet_device_id then
        return some packet_temp
      else
        if logging then
          let _ ← getDeviceId packet_temp
        findPacketLoop logging buffer device_id rounds (ii + 1)
    else
      findPacketLoop logging buffer device_id rounds (ii + 1)

/-- `PacketConfig::FindPacket`. -/
def findPacket (logging : Bool) (buffer : Address) (len : ℤ) (device_id : BitVec 32) :
    Reads (Option Address) :=
  findPacketLoop logging buffer device_id (len - 8).toNat 0

/-! ## What a round does -/

/-- The number in the memory at this address. -/
def uintAt (memory : Address → Byte) (p : Address) : BitVec 32 := (readUInt p).run memory

/-- The number is an accepted packet code. -/
def IncludedCode (code : BitVec 32) : Prop :=
  ∃ c ∈ CHROZEN_PACKET_CODE.included, c.value = code

/-- Position `p` has a header with an accepted code and an accepted device id. -/
def Matches (memory : Address → Byte) (buffer : Address) (device_id : BitVec 32) (p : ℕ) :
    Prop :=
  IncludedCode (uintAt memory (buffer + p + 8)) ∧
    (device_id = -1 ∨ uintAt memory (buffer + p + 4) = device_id ∨
      uintAt memory (buffer + p + 4) = 0)

instance (code : BitVec 32) : Decidable (IncludedCode code) :=
  inferInstanceAs (Decidable (∃ c ∈ _, _ = _))

instance (memory : Address → Byte) (buffer : Address) (device_id : BitVec 32) (p : ℕ) :
    Decidable (Matches memory buffer device_id p) := inferInstanceAs (Decidable (_ ∧ (_ ∨ _ ∨ _)))

/-- The bytes of a number that is read. -/
theorem mem_asked_readUInt {memory : Address → Byte} {p x : Address} :
    x ∈ (readUInt p).asked memory ↔ ∃ i : ℕ, i < 4 ∧ x = p + i := by
  have hbytes : (readUInt p).asked memory = [p, p + 1, p + 2, p + 3] := rfl
  simp only [hbytes, List.mem_cons, List.not_mem_nil, or_false]
  constructor
  · rintro (rfl | rfl | rfl | rfl)
    · exact ⟨0, by decide, rfl⟩
    · exact ⟨1, by decide, rfl⟩
    · exact ⟨2, by decide, rfl⟩
    · exact ⟨3, by decide, rfl⟩
  · rintro ⟨i, hi, rfl⟩
    match i, hi with
    | 0, _ => exact .inl rfl
    | 1, _ => exact .inr (.inl rfl)
    | 2, _ => exact .inr (.inr (.inl rfl))
    | 3, _ => exact .inr (.inr (.inr rfl))

/-- A number in a header at `p`. -/
theorem position_of_read {memory : Address → Byte} {buffer x : Address} {p offset : ℕ}
    (hoffset : offset ≤ 8) (hx : x ∈ (readUInt (buffer + p + offset)).asked memory) :
    ∃ i : ℕ, i < 12 ∧ x = buffer + (p + i) := by
  obtain ⟨i, hi, rfl⟩ := mem_asked_readUInt.mp hx
  exact ⟨offset + i, by omega, by rw [Nat.add_assoc, Nat.add_assoc]⟩

theorem asked_isIncludePacketCode (memory : Address → Byte) (buffer : Address) :
    (isIncludePacketCode buffer).asked memory = (getPacketCode buffer).asked memory := by
  rw [isIncludePacketCode, Query.asked_bind, Query.asked_pure, List.append_nil]

theorem isIncludePacketCode_iff (memory : Address → Byte) (buffer : Address) :
    (isIncludePacketCode buffer).run memory = true ↔
      IncludedCode (uintAt memory (buffer + 8)) := by
  rw [isIncludePacketCode, Query.run_bind, Query.run_pure, List.any_eq_true]
  simp only [beq_iff_eq]
  exact Iff.rfl

/-- A round at a matching position is the last one. -/
theorem round_of_matches {memory : Address → Byte} {buffer : Address} {device_id : BitVec 32}
    {ii : ℕ} (h : Matches memory buffer device_id ii) (logging : Bool) (rounds : ℕ) :
    (findPacketLoop logging buffer device_id (rounds + 1) ii).run memory = some (buffer + ii) ∧
      (findPacketLoop logging buffer device_id (rounds + 1) ii).asked memory
        = (getPacketCode (buffer + ii)).asked memory
          ++ (getDeviceId (buffer + ii)).asked memory := by
  obtain ⟨hcode, hid⟩ := h
  have hincluded := (isIncludePacketCode_iff memory (buffer + ii)).mpr hcode
  have hread := asked_isIncludePacketCode memory (buffer + ii)
  rw [findPacketLoop, Query.run_bind, Query.asked_bind, hincluded, hread, if_pos rfl,
    Query.run_bind, Query.asked_bind]
  -- any device will do, or one of the two comparisons succeeds
  by_cases hany : -1 = device_id
  · rw [if_pos hany]
    exact ⟨rfl, by rw [Query.asked_pure, List.append_nil]⟩
  · have heither : device_id = (getDeviceId (buffer + ii)).run memory ∨
        0 = (getDeviceId (buffer + ii)).run memory := by
      rcases hid with hid | hid | hid
      · exact absurd hid.symm hany
      · exact .inl hid.symm
      · exact .inr hid.symm
    rw [if_neg hany, if_pos heither]
    exact ⟨rfl, by rw [Query.asked_pure, List.append_nil]⟩

/-- Any other round goes on; it may have read the device id. -/
theorem round_of_not_matches {memory : Address → Byte} {buffer : Address} {device_id : BitVec 32}
    {ii : ℕ} (h : ¬ Matches memory buffer device_id ii) (logging : Bool) (rounds : ℕ) :
    (findPacketLoop logging buffer device_id (rounds + 1) ii).run memory
        = (findPacketLoop logging buffer device_id rounds (ii + 1)).run memory ∧
      ∃ ids, ids ⊆ (getDeviceId (buffer + ii)).asked memory ∧
        (findPacketLoop logging buffer device_id (rounds + 1) ii).asked memory
          = (getPacketCode (buffer + ii)).asked memory ++ ids
            ++ (findPacketLoop logging buffer device_id rounds (ii + 1)).asked memory := by
  have hincluded := isIncludePacketCode_iff memory (buffer + ii)
  have hread := asked_isIncludePacketCode memory (buffer + ii)
  rw [findPacketLoop, Query.run_bind, Query.asked_bind, hread]
  by_cases hcode : IncludedCode (uintAt memory (buffer + ii + 8))
  · -- a foreign device id
    have hany : ¬ -1 = device_id := fun heq => h ⟨hcode, .inl heq.symm⟩
    have hneither : ¬ (device_id = (getDeviceId (buffer + ii)).run memory ∨
        0 = (getDeviceId (buffer + ii)).run memory) := by
      rintro (heq | heq)
      · exact h ⟨hcode, .inr (.inl heq.symm)⟩
      · exact h ⟨hcode, .inr (.inr heq.symm)⟩
    rw [hincluded.mpr hcode, if_pos rfl, Query.run_bind, Query.asked_bind, if_neg hany,
      if_neg hneither]
    cases logging with
    | false => exact ⟨rfl, _, List.Subset.refl _, (List.append_assoc _ _ _).symm⟩
    | true =>
        -- the log statement reads it again
        refine ⟨rfl, (getDeviceId (buffer + ii)).asked memory
          ++ (getDeviceId (buffer + ii)).asked memory, ?_, ?_⟩
        · exact List.append_subset.mpr ⟨List.Subset.refl _, List.Subset.refl _⟩
        · simp only [if_true, Query.asked_bind, List.append_assoc]
  · -- no packet code, and nothing else is read
    rw [Bool.eq_false_iff.mpr fun htrue => hcode (hincluded.mp htrue)]
    exact ⟨rfl, [], List.nil_subset _, by rw [List.append_nil]; rfl⟩

/-! ## The whole search -/

/-- The loop, started at `ii`, gets to position `p`. -/
structure Reached (memory : Address → Byte) (buffer : Address) (device_id : BitVec 32)
    (ii rounds p : ℕ) : Prop where
  le : ii ≤ p
  lt : p < ii + rounds
  skipped : ∀ q, ii ≤ q → q < p → ¬ Matches memory buffer device_id q

section Loop

variable {memory : Address → Byte} {buffer : Address} {device_id : BitVec 32}

/-- A position that is reached is the first one, or it is reached from the next one. -/
theorem Reached.of_next {ii rounds p : ℕ} (h : ¬ Matches memory buffer device_id ii)
    (hp : Reached memory buffer device_id (ii + 1) rounds p) :
    Reached memory buffer device_id ii (rounds + 1) p := by
  have hle := hp.le
  have hlt := hp.lt
  refine ⟨by omega, by omega, ?_⟩
  intro q hq hqp
  by_cases heq : q = ii
  · rw [heq]
    exact h
  · exact hp.skipped q (by omega) hqp

theorem Reached.next {ii rounds p : ℕ} (hne : p ≠ ii)
    (hp : Reached memory buffer device_id ii (rounds + 1) p) :
    Reached memory buffer device_id (ii + 1) rounds p := by
  have hle := hp.le
  have hlt := hp.lt
  exact ⟨by omega, by omega, fun q hq => hp.skipped q (by omega)⟩

/-- **The result of the loop** is the first match, at the position reached last. -/
theorem loop_run (logging : Bool) (rounds ii : ℕ) :
    ((findPacketLoop logging buffer device_id rounds ii).run memory = none ∧
        ∀ p, ii ≤ p → p < ii + rounds → ¬ Matches memory buffer device_id p) ∨
      ∃ p, Reached memory buffer device_id ii rounds p ∧ Matches memory buffer device_id p ∧
        (findPacketLoop logging buffer device_id rounds ii).run memory = some (buffer + p) := by
  induction rounds generalizing ii with
  | zero => exact .inl ⟨rfl, fun p hle hlt => by omega⟩
  | succ rounds ih =>
      by_cases hmatch : Matches memory buffer device_id ii
      · refine .inr ⟨ii, ⟨Nat.le_refl ii, by omega, fun q hq hqp => by omega⟩, hmatch, ?_⟩
        exact (round_of_matches hmatch logging rounds).1
      · rw [(round_of_not_matches hmatch logging rounds).1]
        rcases ih (ii + 1) with ⟨hnone, hall⟩ | ⟨p, hp, hfound, hsome⟩
        · -- no match here, and none further on
          refine .inl ⟨hnone, ?_⟩
          intro p hle hlt
          by_cases heq : p = ii
          · rw [heq]
            exact hmatch
          · exact hall p (by omega) (by omega)
        · exact .inr ⟨p, hp.of_next hmatch, hfound, hsome⟩

/-- **What the loop reads** lies in the twelve bytes at a position that it reaches. -/
theorem mem_asked_loop (logging : Bool) {rounds ii : ℕ} {x : Address}
    (hx : x ∈ (findPacketLoop logging buffer device_id rounds ii).asked memory) :
    ∃ p i : ℕ, Reached memory buffer device_id ii rounds p ∧ i < 12 ∧ x = buffer + (p + i) := by
  induction rounds generalizing ii with
  | zero => cases hx
  | succ rounds ih =>
      have hfirst : Reached memory buffer device_id ii (rounds + 1) ii :=
        ⟨Nat.le_refl ii, by omega, fun q hq hqp => by omega⟩
      by_cases hmatch : Matches memory buffer device_id ii
      · -- the packet code, and then the device id
        rw [(round_of_matches hmatch logging rounds).2, List.mem_append] at hx
        rcases hx with hx | hx
        · obtain ⟨i, hi, rfl⟩ := position_of_read (Nat.le_refl 8) hx
          exact ⟨ii, i, hfirst, hi, rfl⟩
        · obtain ⟨i, hi, rfl⟩ := position_of_read (by decide) hx
          exact ⟨ii, i, hfirst, hi, rfl⟩
      · -- perhaps the id, and then what the rest of the loop reads
        obtain ⟨-, ids, hids, hasked⟩ := round_of_not_matches hmatch logging rounds
        rw [hasked, List.mem_append, List.mem_append] at hx
        rcases hx with (hx | hx) | hx
        · obtain ⟨i, hi, rfl⟩ := position_of_read (Nat.le_refl 8) hx
          exact ⟨ii, i, hfirst, hi, rfl⟩
        · obtain ⟨i, hi, rfl⟩ := position_of_read (by decide) (hids hx)
          exact ⟨ii, i, hfirst, hi, rfl⟩
        · obtain ⟨p, i, hp, hi, rfl⟩ := ih hx
          exact ⟨p, i, hp.of_next hmatch, hi, rfl⟩

/-- The last one of these twelve bytes is read. -/
theorem asked_of_reached (logging : Bool) {rounds ii p : ℕ}
    (hp : Reached memory buffer device_id ii rounds p) :
    buffer + (p + 11) ∈ (findPacketLoop logging buffer device_id rounds ii).asked memory := by
  induction rounds generalizing ii with
  | zero => exact absurd hp.lt (Nat.not_lt.mpr hp.le)
  | succ rounds ih =>
      -- each round reads the packet code first, whether the position matches or not
      have hcode : buffer + (ii + 11) ∈ (getPacketCode (buffer + ii)).asked memory :=
        mem_asked_readUInt.mpr ⟨3, by decide, rfl⟩
      by_cases heq : p = ii
      · rw [heq]
        by_cases hmatch : Matches memory buffer device_id ii
        · rw [(round_of_matches hmatch logging rounds).2]
          exact List.mem_append_left _ hcode
        · obtain ⟨-, ids, -, hasked⟩ := round_of_not_matches hmatch logging rounds
          rw [hasked]
          exact List.mem_append_left _ (List.mem_append_left _ hcode)
      · have hfirst : ¬ Matches memory buffer device_id ii :=
          hp.skipped ii (Nat.le_refl ii) (Nat.lt_of_le_of_ne hp.le (Ne.symm heq))
        obtain ⟨-, ids, -, hasked⟩ := round_of_not_matches hfirst logging rounds
        rw [hasked]
        exact List.mem_append_right _ (ih (hp.next heq))

end Loop

/-! ## What `FindPacket` finds -/

/-- Position `p` has an acceptable header, all of it in the block. -/
def Acceptable (memory : Address → Byte) (buffer : Address) (len : ℤ) (device_id : BitVec 32)
    (p : ℕ) : Prop :=
  (p : ℤ) + 12 ≤ len ∧ Matches memory buffer device_id p

/-- **`FindPacket` finds the first acceptable header.** When it returns null there is none,
and when there is a first one, it returns its position. -/
theorem findPacket_first (memory : Address → Byte) (logging : Bool) (buffer : Address) (len : ℤ)
    (device_id : BitVec 32) :
    ((findPacket logging buffer len device_id).run memory = none →
        ∀ p, ¬ Acceptable memory buffer len device_id p) ∧
      ∀ p, Acceptable memory buffer len device_id p →
        (∀ q < p, ¬ Acceptable memory buffer len device_id q) →
          (findPacket logging buffer len device_id).run memory = some (buffer + p) := by
  unfold findPacket
  rcases @loop_run memory buffer device_id logging (len - 8).toNat 0 with
    ⟨hnone, hall⟩ | ⟨r, hr, hmatch, hsome⟩
  · have hnot : ∀ p, ¬ Acceptable memory buffer len device_id p := by
      rintro p ⟨hp, hmatch⟩
      exact hall p (Nat.zero_le p) (by omega) hmatch
    exact ⟨fun _ => hnot, fun p hp => absurd hp (hnot p)⟩
  · refine ⟨fun hnone => absurd (hsome.symm.trans hnone) (Option.some_ne_none _), ?_⟩
    rintro p ⟨hp, hmatchp⟩ hleast
    -- the loop does not pass `p`
    have hrp : r ≤ p := by
      by_contra hlt
      exact hr.skipped p (Nat.zero_le p) (by omega) hmatchp
    -- an earlier match would be in the block, too
    have hpr : ¬ r < p := fun hlt => hleast r hlt ⟨by omega, hmatch⟩
    obtain rfl : r = p := by omega
    exact hsome

/-! ## What `FindPacket` reads -/

/-- Every byte that is read is one of the `len` bytes. -/
def ReadsInside (memory : Address → Byte) (logging : Bool) (buffer : Address) (len : ℤ)
    (device_id : BitVec 32) : Prop :=
  ∀ x ∈ (findPacket logging buffer len device_id).asked memory,
    ∃ i : ℕ, (i : ℤ) < len ∧ x = buffer + i

/-- The result is the same for every memory that has the same `len` bytes. -/
def Determined (memory : Address → Byte) (logging : Bool) (buffer : Address) (len : ℤ)
    (device_id : BitVec 32) : Prop :=
  ∀ memory' : Address → Byte,
    (∀ i : ℕ, (i : ℤ) < len → memory' (buffer + i) = memory (buffer + i)) →
      (findPacket logging buffer len device_id).run memory'
        = (findPacket logging buffer len device_id).run memory

/-- What is read determines the result. -/
theorem ReadsInside.determined {memory : Address → Byte} {logging : Bool} {buffer : Address}
    {len : ℤ} {device_id : BitVec 32} (h : ReadsInside memory logging buffer len device_id) :
    Determined memory logging buffer len device_id := by
  intro memory' hsame
  apply Query.run_congr
  intro x hx
  obtain ⟨i, hi, rfl⟩ := h x hx
  exact hsame i hi

theorem readsInside_iff (memory : Address → Byte) (logging : Bool) (buffer : Address) (len : ℤ)
    (device_id : BitVec 32) :
    ReadsInside memory logging buffer len device_id ↔
      len ≤ 8 ∨ ∃ p, Acceptable memory buffer len device_id p := by
  constructor
  · intro h
    by_contra hnot
    rw [not_or, not_exists] at hnot
    obtain ⟨hlen, hnone⟩ := hnot
    -- the first position whose header ends behind the block
    have hreached : Reached memory buffer device_id 0 (len - 8).toNat (len - 11).toNat := by
      refine ⟨Nat.zero_le _, by omega, ?_⟩
      intro q _ hq hmatch
      exact hnone q ⟨by omega, hmatch⟩
    obtain ⟨i, hi, heq⟩ := h _ (asked_of_reached logging hreached)
    have hposition : (len - 11).toNat + 11 = i := Nat.add_left_cancel heq
    omega
  · intro h x hx
    obtain ⟨p, i, hp, hi, rfl⟩ := mem_asked_loop logging hx
    have hlt := hp.lt
    refine ⟨p + i, ?_, rfl⟩
    rcases h with hlen | ⟨q, hq, hmatch⟩
    · omega
    · -- the search does not get behind the acceptable header
      have hle : p ≤ q := by
        by_contra hlater
        exact hp.skipped q (Nat.zero_le q) (by omega) hmatch
      omega

/-- **`FindPacket` looks only at the bytes it was given**, and its result depends on nothing
else, exactly if the block is too short for the loop or has an acceptable header. -/
theorem findPacket_inside_iff (memory : Address → Byte) (logging : Bool) (buffer : Address)
    (len : ℤ) (device_id : BitVec 32) :
    (ReadsInside memory logging buffer len device_id ∧
        Determined memory logging buffer len device_id) ↔
      len ≤ 8 ∨ ∃ p, Acceptable memory buffer len device_id p := by
  rw [← readsInside_iff memory logging]
  exact ⟨fun h => h.1, fun h => ⟨h, h.determined⟩⟩

/-- Eleven bytes that end in three of the four bytes of a packet code. -/
def partialHeader : Address → Byte
  | 9 => 0x74
  | 10 => 0x09
  | _ => 0

/-- The fourth byte is read behind the block, and it decides. -/
theorem findPacket_not_inside :
    ¬ ReadsInside partialHeader false 0 11 (-1) ∧ ¬ Determined partialHeader false 0 11 (-1) := by
  constructor
  · rw [readsInside_iff]
    rintro (hlen | ⟨p, hp, -⟩)
    · exact absurd hlen (by decide)
    · omega
  · intro h
    have hsame := h (Function.update partialHeader 11 0xFF) fun i hi => by
      have hne : i ≠ 11 := by omega
      rw [Nat.zero_add, Function.update_of_ne hne]
    revert hsame
    decide

end PocoProxy.Packet
