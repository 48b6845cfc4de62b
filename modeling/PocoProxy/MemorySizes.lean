/-
The sizes of the memory.

In the 64-bit build a counter has the 64 bits of a `SIZE_T`, while a `uint` and a `DWORD`
have 32. The sizes of the process are cast before they are divided, and the sizes of the
memory of the machine are cast when they are returned, so that what is right is decided
by whether the counter is less than 4 GiB. The functions with a `float` result, which divide
the 64 bits, are left out.

Of what the system reports, only the fields that a function reads are here.
-/
import PocoProxy.Lib.Narrowing

set_option autoImplicit false

namespace PocoProxy.MemorySizes

open PocoProxy.Narrowing

/-- `SIZE_T`. -/
abbrev SizeT := BitVec 64

/-- `DWORD`, and `uint`. -/
abbrev Dword := BitVec 32

/-! ## The sizes of the process -/

/-- `PROCESS_MEMORY_COUNTERS`. -/
structure ProcessMemoryCounters where
  workingSetSize : SizeT
  pagefileUsage : SizeT

/-- What the four functions do with what `GetProcessMemoryInfo` reports, if it does not fail:
`(uint)pmc.field / unit`. The cast is of the field, and not of the quotient. -/
def processSize (field : ProcessMemoryCounters → SizeT) (unit : Dword) :
    Option ProcessMemoryCounters → Dword
  | none => 0
  | some pmc => (field pmc).setWidth 32 / unit

def getProcessWorkingSetSizeInMB : Option ProcessMemoryCounters → Dword :=
  processSize (·.workingSetSize) (1024 * 1024)

def getProcessPageFileUsageSizeInMB : Option ProcessMemoryCounters → Dword :=
  processSize (·.pagefileUsage) (1024 * 1024)

def getProcessWorkingSetSizeInKB : Option ProcessMemoryCounters → Dword :=
  processSize (·.workingSetSize) 1024

def getProcessPageFileUsageSizeInKB : Option ProcessMemoryCounters → Dword :=
  processSize (·.pagefileUsage) 1024

/-- A size of the process is right exactly when the counter fits into the cast. -/
theorem processSize_eq_iff (field : ProcessMemoryCounters → SizeT) {unit : Dword}
    (hunit : 0 < unit.toNat) (pmc : ProcessMemoryCounters) :
    (processSize field unit (some pmc)).toNat = (field pmc).toNat / unit.toNat
      ↔ (field pmc).toNat < 2 ^ 32 :=
  narrow_udiv_eq_iff (field pmc) hunit

/-! ## The sizes of the memory of the machine -/

/-- `MEMORYSTATUS`. -/
structure MemoryStatus where
  dwTotalPhys : SizeT
  dwAvailPhys : SizeT
  dwTotalVirtual : SizeT
  dwAvailVirtual : SizeT

/-- What the four functions do with what `GlobalMemoryStatus` reports. -/
def memorySize (field : MemoryStatus → SizeT) (statex : MemoryStatus) : Dword :=
  (field statex).setWidth 32

def getAvailPhysMemSize : MemoryStatus → Dword := memorySize (·.dwAvailPhys)

def getTotalPhysMemSize : MemoryStatus → Dword := memorySize (·.dwTotalPhys)

def getAvailVirtMemSize : MemoryStatus → Dword := memorySize (·.dwAvailVirtual)

def getTotalVirtMemSize : MemoryStatus → Dword := memorySize (·.dwTotalVirtual)

def isPhysMemAvail (nRequiredFreePhysMem : Dword) (statex : MemoryStatus) : Bool :=
  if getAvailPhysMemSize statex < nRequiredFreePhysMem then false else true

theorem isPhysMemAvail_iff (n : Dword) (statex : MemoryStatus) :
    isPhysMemAvail n statex = true ↔ ¬getAvailPhysMemSize statex < n := by
  simp only [isPhysMemAvail, Bool.if_false_left, Bool.and_true, Bool.not_eq_true',
    decide_eq_false_iff_not]

/-- The answer is wrong when there are 4 GiB or more and what is over is less than what is
asked for. -/
theorem isPhysMemAvail_right_iff (n : Dword) (statex : MemoryStatus) :
    (isPhysMemAvail n statex = true ↔ n.toNat ≤ statex.dwAvailPhys.toNat)
      ↔ ¬(2 ^ 32 ≤ statex.dwAvailPhys.toNat ∧ statex.dwAvailPhys.toNat % 2 ^ 32 < n.toNat) := by
  have hcompare := narrow_lt_iff_lt_iff statex.dwAvailPhys n
  rw [BitVec.lt_def, BitVec.toNat_setWidth] at hcompare
  rw [isPhysMemAvail_iff, ← hcompare, ← Nat.not_lt, not_iff_not, getAvailPhysMemSize, memorySize,
    BitVec.lt_def, BitVec.toNat_setWidth]

/-- **The memory sizes are right below 4 GiB.** From 4 GiB on the sizes of the process are
never right, and the answer to whether so much memory is available is right when the size
without its multiples of 4 GiB is enough. -/
theorem memory_sizes_right_iff (pmc : ProcessMemoryCounters) (statex : MemoryStatus) (n : Dword) :
    ((getProcessWorkingSetSizeInMB (some pmc)).toNat = pmc.workingSetSize.toNat / 2 ^ 20
        ↔ pmc.workingSetSize.toNat < 2 ^ 32)
      ∧ ((getProcessWorkingSetSizeInKB (some pmc)).toNat = pmc.workingSetSize.toNat / 2 ^ 10
        ↔ pmc.workingSetSize.toNat < 2 ^ 32)
      ∧ ((getProcessPageFileUsageSizeInMB (some pmc)).toNat = pmc.pagefileUsage.toNat / 2 ^ 20
        ↔ pmc.pagefileUsage.toNat < 2 ^ 32)
      ∧ ((getProcessPageFileUsageSizeInKB (some pmc)).toNat = pmc.pagefileUsage.toNat / 2 ^ 10
        ↔ pmc.pagefileUsage.toNat < 2 ^ 32)
      ∧ ((isPhysMemAvail n statex = true ↔ n.toNat ≤ statex.dwAvailPhys.toNat)
        ↔ ¬(2 ^ 32 ≤ statex.dwAvailPhys.toNat
          ∧ statex.dwAvailPhys.toNat % 2 ^ 32 < n.toNat)) := by
  have hmega : (1024 * 1024 : Dword).toNat = 2 ^ 20 := by decide
  have hkilo : (1024 : Dword).toNat = 2 ^ 10 := by decide
  rw [← hmega, ← hkilo]
  refine ⟨?_, ?_, ?_, ?_, isPhysMemAvail_right_iff n statex⟩
  · exact processSize_eq_iff _ (by decide) pmc
  · exact processSize_eq_iff _ (by decide) pmc
  · exact processSize_eq_iff _ (by decide) pmc
  · exact processSize_eq_iff _ (by decide) pmc

/-- With 4 GiB in the working set the size is 0, although 4096 fits into the result, and with
4 GiB available not one byte is said to be. -/
theorem memory_sizes_wrong :
    ¬(2 ^ 32 / 2 ^ 20 < 2 ^ 32 →
        (getProcessWorkingSetSizeInMB (some ⟨0x100000000, 0⟩)).toNat = 2 ^ 32 / 2 ^ 20)
      ∧ ¬(isPhysMemAvail 1 ⟨0x200000000, 0x100000000, 0, 0⟩ = true
        ↔ (1 : Dword).toNat ≤ (0x100000000 : SizeT).toNat) := by
  decide

end PocoProxy.MemorySizes
