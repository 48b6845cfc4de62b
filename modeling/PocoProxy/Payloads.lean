/-
The payload structs, and what their constructors make of the memory.

An object is made in storage that has held something before. A constructor is a function
from what the members would be if they were read now to what they are afterwards, and so
is `Init`. A `memset` of the whole object makes every member zero; a `float` is the
number with its 32 bits. Two of these functions leave members as they were: the
constructor of `LCAS_RUN_SETUP_t` declares a function and calls none, and the `Init` of
`LCAS_MIX_t` stops before the positions and the table.

`strcpy_s` is the one of the release library, which writes nothing behind the zero.
-/
import Mathlib.Data.Nat.Notation
import Mathlib.Tactic.Common

set_option autoImplicit false

namespace PocoProxy.Payload

/-! ## Numbers and arrays -/

abbrev UChar := BitVec 8

/-- `unsigned int`, or `int`. -/
abbrev UInt := BitVec 32

/-- The bits of a `float`. -/
abbrev Float32Bits := BitVec 32

/-- `strcpy_s<n>(dest, src)`, of a text that fits. -/
def strcpy_s {n : ℕ} (dest : Vector UChar n) (src : String) : Vector UChar n :=
  let bytes := src.toList.map fun c => BitVec.ofNat 8 c.toNat
  Vector.ofFn fun i =>
    if h : i.val < bytes.length then bytes.get ⟨i, h⟩
    else if i.val = bytes.length then 0
    else dest.get i

/-! ## `SYSTEM_INFORM_t` -/

structure TIME_t where
  hour : UChar
  minute : UChar
  second : UChar
deriving Inhabited

structure DATE_t where
  year : UChar
  month : UChar
  date : UChar
deriving Inhabited

structure SYSTEM_INFORM_t where
  cModel : Vector UChar 32
  cVersion : Vector UChar 9
  cSerialNo : Vector UChar 17
  cInstallDate : DATE_t
  cSysDate : DATE_t
  cSysTime : TIME_t
  cIPAddress : Vector UChar 16
  cPortNo : Vector UChar 5
deriving Inhabited

namespace SYSTEM_INFORM_t

/-- `memset(this, 0, sizeof(struct _SYSTEM_INFORM_t))`. -/
def clear (_ : SYSTEM_INFORM_t) : SYSTEM_INFORM_t where
  cModel := .replicate 32 0
  cVersion := .replicate 9 0
  cSerialNo := .replicate 17 0
  cInstallDate := ⟨0, 0, 0⟩
  cSysDate := ⟨0, 0, 0⟩
  cSysTime := ⟨0, 0, 0⟩
  cIPAddress := .replicate 16 0
  cPortNo := .replicate 5 0

def construct (this : SYSTEM_INFORM_t) : SYSTEM_INFORM_t :=
  let this := this.clear
  { this with
    cModel := strcpy_s this.cModel "YL9152 LC AutoSampler"
    cVersion := strcpy_s this.cVersion "1.0.0" }

end SYSTEM_INFORM_t

/-! ## `SYSTEM_CONFIG_t` -/

/-! The enumerators of `Trays`. -/

def Tray40Vial : UInt := 0
def Tray60Vial : UInt := 1
def Tray96Plate : UInt := 2

/-! The enumerators of `ProcessTypes`. -/

def RowFirst : UInt := 0
def ColumnFirst : UInt := 1

/-- An enumerator of `PulseTimes`. -/
def Pulse100ms : UInt := 1

structure SYSTEM_CONFIG_t where
  trayCooling : UInt
  sampleLoopVol : UInt
  syringeVol : UInt
  needleTubeVol : UInt
  trayLeft : UInt
  trayRight : UInt
  processType : UInt
  syringeUpSpdWash : UInt
  syringeDnSpdWash : UInt
  injectMarkerTime : UInt
  startInSigTime : UInt
  useMicroPump : UChar
deriving Inhabited

namespace SYSTEM_CONFIG_t

def clear (_ : SYSTEM_CONFIG_t) : SYSTEM_CONFIG_t := ⟨0, 0, 0, 0, 0, 0, 0, 0, 0, 0, 0, 0⟩

def construct (this : SYSTEM_CONFIG_t) : SYSTEM_CONFIG_t :=
  { this.clear with
    sampleLoopVol := 20
    needleTubeVol := 250
    processType := ColumnFirst
    syringeUpSpdWash := 6
    syringeDnSpdWash := 6
    injectMarkerTime := Pulse100ms
    syringeVol := 1 }

end SYSTEM_CONFIG_t

/-! ## `LCAS_RUN_SETUP_t` -/

structure LCAS_RUN_SETUP_t where
  tempOnoff : UChar
  temp : UInt
  injectionStart : UChar
  injectionMode : UChar
  analysisTime : Float32Bits
  flushEnable : UChar
  flushVolume : Float32Bits
  injectionVolume : Float32Bits
  washBetween : UChar
  washVolume : UInt
  washNeedleBeforeInj : UChar
  washNeedleAfterInj : UChar
  washInjportBeforeInj : UChar
  washInjportAfterInj : UChar
  syringeUpSpdInj : UChar
  syringeDnSpdInj : UChar
  needleHeight : Float32Bits
  waitTime_AfterAspirate : Float32Bits
  waitTime_AfterDispense : Float32Bits
  skipMissingSample : UChar
  airSegment : UChar
  airSegmentVol : Float32Bits
  microPumpTime : UChar
  reserved1 : UChar
  reserved2 : UChar
  reserved3 : UChar
deriving Inhabited

namespace LCAS_RUN_SETUP_t

/-- An enumerator of `InjectionModes`. -/
def PartialLoop : UChar := 1

/-- An enumerator of `WashBetweens`. -/
def BetweenInjections : UChar := 1

def clear (_ : LCAS_RUN_SETUP_t) : LCAS_RUN_SETUP_t :=
  ⟨0, 0, 0, 0, 0, 0, 0, 0, 0, 0, 0, 0, 0, 0, 0, 0, 0, 0, 0, 0, 0, 0, 0, 0, 0, 0⟩

def Init (this : LCAS_RUN_SETUP_t) : LCAS_RUN_SETUP_t :=
  { this.clear with
    injectionMode := PartialLoop
    temp := 4
    flushEnable := 1
    flushVolume := 0x41200000  -- 10.0f
    syringeUpSpdInj := 6
    syringeDnSpdInj := 3
    needleHeight := 0x40000000  -- 2.0f
    skipMissingSample := 1
    waitTime_AfterAspirate := 0x3E4CCCCD  -- 0.2f
    waitTime_AfterDispense := 0x3E4CCCCD
    washBetween := BetweenInjections
    washVolume := 500
    washNeedleBeforeInj := 1
    washNeedleAfterInj := 0
    washInjportBeforeInj := 0
    washInjportAfterInj := 1
    microPumpTime := 2
    airSegment := 1
    airSegmentVol := 0x40A00000  -- 5.0f
  }

/-- The body of the constructor is `void Init();`, the declaration of a function. -/
def construct (this : LCAS_RUN_SETUP_t) : LCAS_RUN_SETUP_t := this

end LCAS_RUN_SETUP_t

/-! ## `AUX_EVENT` and `LCAS_TIME_EVENT_t` -/

structure AUX_EVENT where
  fTime : Float32Bits
  auxOnoff : UChar
deriving Inhabited

namespace AUX_EVENT

def Init (_ : AUX_EVENT) : AUX_EVENT where
  fTime := 0xBF800000  -- -1.0f
  auxOnoff := 0

def construct (this : AUX_EVENT) : AUX_EVENT := this.Init

end AUX_EVENT

structure LCAS_TIME_EVENT_t where
  useAuxTimeEvent : UChar
  initAux : UChar
  auxEvent : Vector AUX_EVENT 20
  endTime : Float32Bits
  auxOutSigTime : UChar
deriving Inhabited

namespace LCAS_TIME_EVENT_t

def Init (this : LCAS_TIME_EVENT_t) : LCAS_TIME_EVENT_t where
  useAuxTimeEvent := 0
  initAux := 0
  endTime := 0
  auxOutSigTime := 0
  auxEvent := this.auxEvent.map AUX_EVENT.Init

/-- The elements of the array are constructed first. -/
def construct (this : LCAS_TIME_EVENT_t) : LCAS_TIME_EVENT_t :=
  { this with auxEvent := this.auxEvent.map AUX_EVENT.construct }.Init

end LCAS_TIME_EVENT_t

/-! ## `LCAS_MIX_t` -/

structure VIAL_POS_t where
  pos : UInt
deriving Inhabited

def VIAL_POS_t.construct (_ : VIAL_POS_t) : VIAL_POS_t := ⟨0⟩

structure LCAS_MIX_TABLE_t where
  action : UChar
  addFrom : UChar
  addTo : UChar
  addVol : Float32Bits
  mixVial : UChar
  mixTimes : UChar
  mixVol : Float32Bits
  waitTime : BitVec 16
deriving Inhabited

/-- The constructor is a `memset`. -/
def LCAS_MIX_TABLE_t.construct (_ : LCAS_MIX_TABLE_t) : LCAS_MIX_TABLE_t :=
  ⟨0, 0, 0, 0, 0, 0, 0, 0⟩

structure LCAS_MIX_t where
  useMixPrgm : UChar
  relativeDestination : UChar
  relativeReagentA : UChar
  relativeReagentB : UChar
  relativeReagentC : UChar
  relativeReagentD : UChar
  firstDestPos : VIAL_POS_t
  reagentPosA : VIAL_POS_t
  reagentPosB : VIAL_POS_t
  reagentPosC : VIAL_POS_t
  reagentPosD : VIAL_POS_t
  mixTable : Vector LCAS_MIX_TABLE_t 20
deriving Inhabited

namespace LCAS_MIX_t

def Init (this : LCAS_MIX_t) : LCAS_MIX_t :=
  { this with
    useMixPrgm := 0
    relativeDestination := 0
    relativeReagentA := 0
    relativeReagentB := 0
    relativeReagentC := 0
    relativeReagentD := 0 }

/-- The positions and the elements of the table are constructed first. -/
def construct (this : LCAS_MIX_t) : LCAS_MIX_t :=
  { this with
    firstDestPos := this.firstDestPos.construct
    reagentPosA := this.reagentPosA.construct
    reagentPosB := this.reagentPosB.construct
    reagentPosC := this.reagentPosC.construct
    reagentPosD := this.reagentPosD.construct
    mixTable := this.mixTable.map LCAS_MIX_TABLE_t.construct }.Init

end LCAS_MIX_t

/-! ## `LCAS_STATE_t`, `LCAS_DIAG_DATA_t` and `LCAS_SPECIAL_t` -/

structure LCAS_STATE_t where
  state : UChar
  sample : VIAL_POS_t
  injectVial : VIAL_POS_t
  curInjCnt : UInt
  fTemp : Float32Bits
  tempReady : UChar
  errorCode : UChar
deriving Inhabited

/-- The two positions are constructed, and then everything is cleared. -/
def LCAS_STATE_t.construct (_ : LCAS_STATE_t) : LCAS_STATE_t := ⟨0, ⟨0⟩, ⟨0⟩, 0, 0, 0, 0⟩

structure LCAS_DIAG_DATA_t where
  Current : UChar
  N5Dcheck : UChar
  V5Dcheck : UChar
  V1_5Dcheck : UChar
  V12Dcheck : UChar
  V2_5Dcheck : UChar
  V3_3Dcheck : UChar
  N5Dvalue : Float32Bits
  V5Dvalue : Float32Bits
  V1_5Dvalue : Float32Bits
  V12Dvalue : Float32Bits
  V2_5Dvalue : Float32Bits
  V3_3Dvalue : Float32Bits
  Tempcheck : UChar
  btHeaterTest : UChar
  btCoolerTest : UChar
  btLeakTest1 : UChar
  btLeakTest2 : UChar
  btTempSensor : UChar
deriving Inhabited

namespace LCAS_DIAG_DATA_t

def clear (_ : LCAS_DIAG_DATA_t) : LCAS_DIAG_DATA_t :=
  ⟨0, 0, 0, 0, 0, 0, 0, 0, 0, 0, 0, 0, 0, 0, 0, 0, 0, 0, 0⟩

def construct (this : LCAS_DIAG_DATA_t) : LCAS_DIAG_DATA_t :=
  { this.clear with
    N5Dcheck := -1
    V5Dcheck := -1
    V1_5Dcheck := -1
    V12Dcheck := -1
    V2_5Dcheck := -1
    V3_3Dcheck := -1
    Tempcheck := -1
    btHeaterTest := -1
    btCoolerTest := -1
    btLeakTest1 := -1
    btLeakTest2 := -1
    btTempSensor := -1 }

end LCAS_DIAG_DATA_t

structure LCAS_SPECIAL_t where
  LED_onoff : UChar
  Door_check : UChar
  Leak_check : UChar
  Buzzer_onoff : UChar
  Reserved : Vector UChar 4
deriving Inhabited

namespace LCAS_SPECIAL_t

def clear (_ : LCAS_SPECIAL_t) : LCAS_SPECIAL_t := ⟨0, 0, 0, 0, .replicate 4 0⟩

def construct (this : LCAS_SPECIAL_t) : LCAS_SPECIAL_t :=
  { this.clear with Leak_check := 1 }

end LCAS_SPECIAL_t

end PocoProxy.Payload
